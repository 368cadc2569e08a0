/-!
# Windows onto a ring of slots

Which slots of a ring are in use: `count` of them from `start` on, going round behind the last
slot.

* `Window.push` — takes the slot behind the newest element, which is the oldest one's when the
  ring is full.
* `Window.slot?` — the slot of an element, counted from the oldest.
* `Window.headLength`, `Window.wrapped` — how many elements lie before and behind the turn.
-/

namespace PooledBuffers

/-- The slots of a ring that are in use. -/
structure Window where
  capacity : Nat
  start : Nat := 0
  count : Nat := 0
  deriving DecidableEq, Repr

namespace Window

def isFull (window : Window) : Bool := window.count = window.capacity

/-- Takes the slot for a new element; a full ring gives up its oldest one. -/
def push (window : Window) : Nat × Window :=
  ((window.start + window.count) % window.capacity,
    if window.isFull then { window with start := (window.start + 1) % window.capacity }
    else { window with count := window.count + 1 })

/-- The slot of the element at an index. -/
def slot? (window : Window) (index : Nat) : Option Nat :=
  if index < window.count then some ((window.start + index) % window.capacity) else none

/-- Gives up all elements. -/
def reset (window : Window) : Window :=
  { window with start := 0, count := 0 }

/-- The number of elements from `start` to the last slot at most. -/
def headLength (window : Window) : Nat :=
  min (window.start + window.count) window.capacity - window.start

/-- The number of elements that continue at the first slot. -/
def wrapped (window : Window) : Nat :=
  window.start + window.count - min (window.start + window.count) window.capacity

end Window

end PooledBuffers
