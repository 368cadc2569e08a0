/-!
# Sizes

Sizes and positions are natural numbers below `2 ^ 64`. Sums and products that could leave this
range stop at its top.

An allocation is taken to succeed: an array is there when it is asked for, however long it is. Only
a writer keeps to a bound of its own: it grows to no more than `Size.maxCapacity` cells, and refuses
to move any past them.
-/

namespace PooledBuffers.Size

/-- The largest size. -/
def top : Nat := 0xFFFFFFFFFFFFFFFF

/-- The length that a writer grows to at most. -/
def maxCapacity : Nat := 0x7FFFFFFFFFFFFFFF

/-- A sum that stops at the largest size. -/
def add (a b : Nat) : Nat := min (a + b) top

/-- A product that stops at the largest size. -/
def mul (a b : Nat) : Nat := min (a * b) top

theorem add_eq {a b : Nat} (h : a + b ≤ top) : add a b = a + b := by
  simp [add, h]

theorem mul_eq {a b : Nat} (h : a * b ≤ top) : mul a b = a * b := by
  simp [mul, h]

/-- A product that was stopped at the largest size stays there. -/
theorem mul_mul {a b c : Nat} (positive : 0 < c) : mul (mul a b) c = mul a (b * c) := by
  unfold mul
  rw [← Nat.mul_assoc]
  by_cases inside : a * b ≤ top
  · rw [Nat.min_eq_left inside]
  · have stopped : top ≤ a * b := Nat.le_of_not_le inside
    rw [Nat.min_eq_right stopped, Nat.min_eq_right (Nat.le_mul_of_pos_right top positive),
      Nat.min_eq_right (Nat.le_trans stopped (Nat.le_mul_of_pos_right (a * b) positive))]

end PooledBuffers.Size
