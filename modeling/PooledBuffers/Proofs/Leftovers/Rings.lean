import PooledBuffers.Proofs.Leftovers.Blocks
import PooledBuffers.Ring.Action

/-!
# Rings without leftovers

A ring shows all its slots, in use or not. They were blanked for it, or lent by its caller.

* `Ring.Alike` — rings with the same slots, the same of them in use;
* `Ring.Alike.perform` — the same answers, and still alike.
-/

namespace PooledBuffers

variable {α : Type} {pool pool' : Pool α}

/-- Rings with the same slots, the same of them in use. -/
structure Ring.Alike (ring other : Ring α) : Prop where
  memory : ring.memory.Alike other.memory
  window : ring.window = other.window

namespace Ring

variable {ring other : Ring α}

namespace Alike

theorem cells (alike : ring.Alike other) : ring.cells = other.cells := alike.memory.cells

theorem length (alike : ring.Alike other) : ring.length = other.length :=
  congrArg Window.count alike.window

theorem halves (alike : ring.Alike other) : ring.halves = other.halves := by
  simp only [Ring.halves, alike.cells, alike.window]

theorem openHalves (alike : ring.Alike other) : ring.openHalves = other.openHalves := by
  simp only [Ring.openHalves, alike.cells, alike.window]

theorem toArray (alike : ring.Alike other) : ring.toArray = other.toArray :=
  congrArg Halves.toArray alike.halves

theorem get? (alike : ring.Alike other) (index : Nat) : ring.get? index = other.get? index := by
  simp only [Ring.get?, alike.cells, alike.window]

theorem get (alike : ring.Alike other) (index : Nat) : ring.get index = other.get index := by
  simp only [Ring.get, alike.get?, alike.length]

theorem add (alike : ring.Alike other) (value : α) : (ring.add value).Alike (other.add value) :=
  ⟨alike.memory.edit (Storage.respects_set (congrArg (·.push.1) alike.window) value),
    congrArg (·.push.2) alike.window⟩

theorem addEach (alike : ring.Alike other) (run : Array α) :
    (ring.addEach run).Alike (other.addEach run) :=
  Array.foldl_rel (r := Ring.Alike) alike fun value _ _ _ alike => alike.add value

theorem set? (alike : ring.Alike other) (index : Nat) (value : α) :
    Option.Rel Alike (ring.set? index value) (other.set? index value) := by
  unfold Ring.set?
  rw [← alike.window]
  cases ring.window.slot? index with
  | none => exact .none
  | some slot => exact .some ⟨alike.memory.edit (Storage.respects_set rfl value), rfl⟩

theorem assign (alike : ring.Alike other) (run : Array α) :
    (ring.assign run).Alike (other.assign run) := by
  simp only [Ring.assign, ← alike.window]
  exact ⟨alike.memory.edit ((Storage.respects_overwrite rfl _).comp
    (Storage.respects_overwrite rfl _)), rfl⟩

variable [Element α]

theorem clear (alike : ring.Alike other) : ring.clear.Alike other.clear :=
  ⟨alike.memory.fill Element.blank, congrArg Window.reset alike.window⟩

theorem perform (alike : ring.Alike other) (action : Action α) :
    (ring.perform action).1 = (other.perform action).1 ∧
      (ring.perform action).2.Alike (other.perform action).2 := by
  cases action with
  | add value => exact ⟨rfl, alike.add value⟩
  | addEach run => exact ⟨rfl, alike.addEach run⟩
  | look index => exact ⟨congrArg Reply.element (alike.get? index), alike⟩
  | get index => exact ⟨congrArg Reply.ofIndexed (alike.get index), alike⟩
  | set index value =>
    have stored := alike.set? index value
    simp only [Ring.perform]
    generalize ring.set? index value = next at stored ⊢
    generalize other.set? index value = next' at stored ⊢
    cases stored with
    | none => exact ⟨rfl, alike⟩
    | some stored => exact ⟨rfl, stored⟩
  | store index value =>
    have stored := alike.set? index value
    simp only [Ring.perform, ← alike.length]
    generalize ring.set? index value = next at stored ⊢
    generalize other.set? index value = next' at stored ⊢
    cases stored with
    | none => exact ⟨rfl, alike⟩
    | some stored => exact ⟨rfl, stored⟩
  | clear => exact ⟨rfl, alike.clear⟩
  | halves => exact ⟨congrArg Reply.halves alike.halves, alike⟩
  | lookHalves index => exact ⟨by simp only [Ring.perform, alike.halves], alike⟩
  | setHalves index value =>
    simp only [Ring.perform, ← alike.openHalves]
    split
    · exact ⟨rfl, alike.assign _⟩
    · exact ⟨rfl, alike⟩
  | assign run => exact ⟨rfl, alike.assign run⟩
  | reversed => exact ⟨by simp only [Ring.perform, alike.toArray], alike⟩

theorem close (alike : ring.Alike other) (pools : pool.Alike pool') :
    OnAlike Span.Alike (ring.close pool) (other.close pool') :=
  alike.memory.dispose pools

end Alike

theorem alike_lend (cells : Array α) : SameOutcome Alike (Ring.lend cells) (Ring.lend cells) := by
  unfold Ring.lend
  split
  · exact .refused _
  · exact .done ⟨.borrowed cells, rfl⟩

variable [Element α]

theorem alike_rent (pools : pool.Alike pool') (capacity : Nat) :
    SameOutcome (OnAlike Alike) (Ring.rent pool capacity) (Ring.rent pool' capacity) := by
  unfold Ring.rent
  split
  · exact .refused _
  · obtain ⟨memory, after⟩ := Span.alike_rent pools capacity
    exact .done ⟨⟨memory, rfl⟩, after⟩

end Ring

end PooledBuffers
