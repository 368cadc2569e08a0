import PooledBuffers.Text.Encoding

/-!
# Code units by index

The code unit at an index is found by the offsets of its bytes, which are computed before they are
compared with the length of the view. An index past the end is therefore answered with nothing only
as long as its offsets are sizes.

* `Utf16View.getElem?_units` — the units of a view are those of its pairs of bytes;
* `Utf16View.get?_of_lt`, `Utf16View.get?_of_le` — an index whose bytes have offsets, and one whose
  bytes have none;
* `Utf16View.unit_at_index` — what is found at every index, in every view.
-/

namespace PooledBuffers.Utf16View

variable (view : Utf16View)

theorem length_units : view.units.length = view.length := by
  rw [units, unitsOfBytes, List.length_map, List.length_range, length]

theorem getElem?_units (index : Nat) :
    view.units[index]? =
      if index < view.length then
        some (Layout.ofBytes .little (view.bytes.extract (index * 2) (index * 2 + 2)))
      else none := by
  by_cases inside : index < view.length
  · have pair : index < view.bytes.size / 2 := inside
    rw [if_pos inside, units, unitsOfBytes, List.getElem?_map, List.getElem?_range pair,
      Option.map_some, Nat.mul_comm 2 index]
  · rw [if_neg inside, List.getElem?_eq_none]
    rw [length_units]
    exact Nat.le_of_not_lt inside

variable {index : Nat}

/-- Both offsets of an index are sizes if the index is less than half of what a size can be. -/
theorem get?_of_lt (near : index < Size.maxCapacity) :
    view.get? index = .ok view.units[index]? := by
  have even := view.even
  have start : ¬ Size.top < index * 2 := by
    unfold Size.maxCapacity at near
    unfold Size.top
    omega
  have stop : ¬ Size.top < index * 2 + 2 := by
    unfold Size.maxCapacity at near
    unfold Size.top
    omega
  rw [get?, if_neg start, if_neg stop, getElem?_units, length]
  by_cases inside : index * 2 + 2 ≤ view.bytes.size
  · rw [if_pos inside, if_pos (by omega)]
  · rw [if_neg inside, if_neg (by omega)]

/-- Which offset of an index is no size: of the first such index only that of the end. -/
def offsetFault (index : Nat) : OffsetFault :=
  if index = Size.maxCapacity then .stop else .start

theorem get?_of_le (far : Size.maxCapacity ≤ index) :
    view.get? index = .error (offsetFault index) := by
  rcases Nat.eq_or_lt_of_le far with rfl | beyond
  · rfl
  · have start : Size.top < index * 2 := by
      unfold Size.maxCapacity at beyond
      unfold Size.top
      omega
    rw [get?, if_pos start, offsetFault, if_neg (Nat.ne_of_gt beyond)]

/-- At every index inside a view the code unit is found. At one past its end nothing is found, as
long as both offsets are sizes; otherwise the first one that is none is the fault, and no other
index has a fault. -/
theorem unit_at_index (view : Utf16View) (held : view.bytes.size ≤ Size.top) (index : Nat) :
    (∀ inside : index < view.units.length, view.get? index = .ok (some view.units[index])) ∧
    (view.units.length ≤ index → (view.get? index = .ok none ↔ index < Size.maxCapacity)) ∧
    ∀ fault, view.get? index = .error fault ↔
      Size.maxCapacity ≤ index ∧ fault = offsetFault index := by
  rcases Nat.lt_or_ge index Size.maxCapacity with near | far
  · rw [view.get?_of_lt near]
    refine ⟨fun inside => ?_, fun past => ?_, fun fault => ?_⟩
    · rw [List.getElem?_eq_getElem inside]
    · rw [List.getElem?_eq_none past]
      exact iff_of_true rfl near
    · exact iff_of_false nofun fun h => Nat.not_le_of_lt near h.1
  · rw [view.get?_of_le far]
    refine ⟨fun inside => ?_, fun _ => ?_, fun fault => ?_⟩
    · -- The bytes of an index inside the view have offsets, since its length is a size.
      rw [length_units, length] at inside
      unfold Size.top at held
      unfold Size.maxCapacity at far
      omega
    · exact iff_of_false nofun (Nat.not_lt_of_le far)
    · rw [Except.error.injEq]
      exact ⟨fun same => ⟨far, same.symm⟩, fun h => h.2.symm⟩

/-- Two units, and the indices around the last one whose bytes have offsets. -/
theorem unit_at_index_far :
    let view : Utf16View := ⟨#[0x41, 0x00, 0x42, 0x00], rfl⟩
    view.bytes.size ≤ Size.top ∧ view.get? 1 = .ok (some 0x42) ∧
      view.get? 9223372036854775806 = .ok none ∧
      view.get? 9223372036854775807 = .error .stop ∧
      view.get? 9223372036854775808 = .error .start := by
  intro view
  have held : view.bytes.size ≤ Size.top := by decide
  obtain ⟨second, -, -⟩ := unit_at_index view held 1
  obtain ⟨-, last, -⟩ := unit_at_index view held 9223372036854775806
  obtain ⟨-, -, next⟩ := unit_at_index view held 9223372036854775807
  obtain ⟨-, -, beyond⟩ := unit_at_index view held 9223372036854775808
  have unit : view.units[1] = 0x42 := by decide +kernel
  exact ⟨held, unit ▸ second (by decide), (last (by decide)).2 (by decide),
    (next .stop).2 ⟨by decide, rfl⟩, (beyond .start).2 ⟨by decide, rfl⟩⟩

/-- In a view of one unit, an index that is a size is far past the end and is not answered with
nothing. -/
theorem index_past_end_faults :
    let view : Utf16View := ⟨#[0x41, 0x00], rfl⟩
    9223372036854775808 ≤ Size.top ∧ view.length ≤ 9223372036854775808 ∧
      view.get? 9223372036854775808 ≠ .ok none :=
  ⟨by decide, by decide, nofun⟩

end PooledBuffers.Utf16View
