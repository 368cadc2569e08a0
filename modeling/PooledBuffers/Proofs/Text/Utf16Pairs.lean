import PooledBuffers.Proofs.Text.Utf16

/-!
# Surrogates without a partner

Whether a surrogate has its partner is told by its neighbours alone: the unit behind the first half
of a pair, and the unit in front of the second half. The reader goes from left to right with a first
half that may wait, and comes to the same.

* `Utf16.Unpaired` — a surrogate without its partner, by its neighbours;
* `Utf16.units_induction` — code units from the front, by what the reader makes of them;
* `Utf16.getElem?_marked` — the reader keeps every unit, and marks those that are unpaired;
* `Utf16.getElem?_encode_decodeLossy` — what the lenient reader replaces;
* `Utf16.decode_eq_error_iff`, `Utf16.decode_eq_ok_iff` — what the strict reader answers.
-/

namespace PooledBuffers.Utf16

/-- The unit in front of the one at an index. -/
def previous? (units : List UInt16) : Nat → Option UInt16
  | 0 => none
  | i + 1 => units[i]?

/-- A first half that no second half follows, or a second half that follows no first half. -/
def Unpaired (units : List UInt16) (i : Nat) : Prop :=
  (units[i]?.any isHighSurrogate ∧ ¬ units[i + 1]?.any isLowSurrogate) ∨
    (units[i]?.any isLowSurrogate ∧ ¬ (previous? units i).any isHighSurrogate)

instance (units : List UInt16) (i : Nat) : Decidable (Unpaired units i) :=
  inferInstanceAs (Decidable (_ ∨ _))

variable {units rest : List UInt16} {unit high low : UInt16}

theorem not_isLowSurrogate (first : isHighSurrogate unit = true) :
    ¬ isLowSurrogate unit = true := by
  rw [isHighSurrogate_iff] at first
  rw [isLowSurrogate_iff]
  omega

theorem Unpaired.present {i : Nat} (unpaired : Unpaired units i) :
    ∃ unit, units[i]? = some unit := by
  rcases unpaired with ⟨first, -⟩ | ⟨second, -⟩
  · obtain ⟨unit, there, -⟩ := (Option.any_eq_true _ _).1 first
    exact ⟨unit, there⟩
  · obtain ⟨unit, there, -⟩ := (Option.any_eq_true _ _).1 second
    exact ⟨unit, there⟩

/-- A unit in front changes nothing for those behind it, unless it is the first half of a pair. -/
theorem unpaired_succ {i : Nat}
    (apart : i = 0 → isHighSurrogate unit = true → ¬ rest[0]?.any isLowSurrogate = true) :
    Unpaired (unit :: rest) (i + 1) ↔ Unpaired rest i := by
  unfold Unpaired
  cases i with
  | succ i => rfl
  | zero =>
    simp only [List.getElem?_cons_succ, previous?, List.getElem?_cons_zero, Option.any_some,
      Option.any_none]
    constructor
    · rintro (first | ⟨second, alone⟩)
      · exact .inl first
      · exact .inr ⟨second, Bool.false_ne_true⟩
    · rintro (first | ⟨second, -⟩)
      · exact .inl first
      · exact .inr ⟨second, fun first => apart rfl first second⟩

/-! ## Code units from the front -/

/-- What the reader makes of the units at the front: a character of one unit, a second half on its
own, a pair, or a first half on its own. -/
theorem units_induction {motive : List UInt16 → Prop} (nil : motive [])
    (plain : ∀ unit rest, ¬ isHighSurrogate unit = true → ¬ isLowSurrogate unit = true →
      motive rest → motive (unit :: rest))
    (second : ∀ unit rest, isLowSurrogate unit = true → motive rest → motive (unit :: rest))
    (pair : ∀ high low rest, isHighSurrogate high = true → isLowSurrogate low = true →
      motive rest → motive (high :: low :: rest))
    (first : ∀ unit rest, isHighSurrogate unit = true → ¬ rest[0]?.any isLowSurrogate = true →
      motive rest → motive (unit :: rest)) : ∀ units, motive units
  | [] => nil
  | [unit] => by
    by_cases opens : isHighSurrogate unit = true
    · exact first unit [] opens Bool.false_ne_true nil
    by_cases closes : isLowSurrogate unit = true
    · exact second unit [] closes nil
    · exact plain unit [] opens closes nil
  | unit :: next :: rest => by
    have shorter := units_induction nil plain second pair first (next :: rest)
    by_cases opens : isHighSurrogate unit = true
    · by_cases follows : isLowSurrogate next = true
      · exact pair unit next rest opens follows
          (units_induction nil plain second pair first rest)
      · exact first unit (next :: rest) opens follows shorter
    by_cases closes : isLowSurrogate unit = true
    · exact second unit (next :: rest) closes shorter
    · exact plain unit (next :: rest) opens closes shorter

/-! ## Items from the front -/

theorem afresh_done (made done : List Item) (unit : UInt16) :
    Pairing.afresh (made ++ done) unit =
      ⟨(Pairing.afresh made unit).waiting, (Pairing.afresh made unit).done ++ done⟩ := by
  unfold Pairing.afresh
  split
  · rfl
  split <;> rfl

/-- A step leaves the items that are done where they are. -/
theorem step_done (waiting : Option UInt16) (done : List Item) (unit : UInt16) :
    Pairing.step ⟨waiting, done⟩ unit =
      ⟨(Pairing.step ⟨waiting, []⟩ unit).waiting,
        (Pairing.step ⟨waiting, []⟩ unit).done ++ done⟩ := by
  cases waiting with
  | none => exact afresh_done [] done unit
  | some high =>
    unfold Pairing.step
    by_cases closes : isLowSurrogate unit = true
    · simp only [closes, ↓reduceIte, List.singleton_append]
    · simp only [closes, Bool.false_eq_true, ↓reduceIte]
      exact afresh_done [.unpaired high] done unit

/-- The items that are done already come out first. -/
theorem finish_foldl (units : List UInt16) : ∀ (waiting : Option UInt16) (done : List Item),
    (units.foldl Pairing.step ⟨waiting, done⟩).finish =
      done.reverse ++ (units.foldl Pairing.step ⟨waiting, []⟩).finish := by
  induction units with
  | nil =>
    intro waiting done
    cases waiting with
    | none => exact (List.append_nil _).symm
    | some high => exact List.reverse_cons
  | cons unit rest ih =>
    intro waiting done
    rw [List.foldl_cons, List.foldl_cons, step_done waiting done unit]
    generalize Pairing.step ⟨waiting, []⟩ unit = state
    show _ = done.reverse ++ (rest.foldl Pairing.step ⟨state.waiting, state.done⟩).finish
    rw [ih, ih state.waiting state.done, List.reverse_append, List.append_assoc]

theorem items_plain (opens : ¬ isHighSurrogate unit = true)
    (closes : ¬ isLowSurrogate unit = true) :
    items (unit :: rest) = .scalar (Char.ofNat unit.toNat) :: items rest := by
  have step : Pairing.step {} unit = ⟨none, [.scalar (Char.ofNat unit.toNat)]⟩ := by
    rw [step_none, Pairing.afresh, if_neg opens, if_neg closes]
  rw [items, List.foldl_cons, step, finish_foldl]
  rfl

theorem items_second (closes : isLowSurrogate unit = true) :
    items (unit :: rest) = .unpaired unit :: items rest := by
  have opens : ¬ isHighSurrogate unit = true := fun opens => not_isLowSurrogate opens closes
  have step : Pairing.step {} unit = ⟨none, [.unpaired unit]⟩ := by
    rw [step_none, Pairing.afresh, if_neg opens, if_pos closes]
  rw [items, List.foldl_cons, step, finish_foldl]
  rfl

theorem items_pair (opens : isHighSurrogate high = true) (closes : isLowSurrogate low = true) :
    items (high :: low :: rest) = .scalar (joinPair high low) :: items rest := by
  have waits : Pairing.step {} high = ⟨some high, []⟩ := by
    rw [step_none, Pairing.afresh, if_pos opens]
  have joins : Pairing.step ⟨some high, []⟩ low = ⟨none, [.scalar (joinPair high low)]⟩ :=
    if_pos closes
  rw [items, List.foldl_cons, waits, List.foldl_cons, joins, finish_foldl]
  rfl

theorem items_first (opens : isHighSurrogate unit = true)
    (alone : ¬ rest[0]?.any isLowSurrogate = true) :
    items (unit :: rest) = .unpaired unit :: items rest := by
  have waits : Pairing.step {} unit = ⟨some unit, []⟩ := by
    rw [step_none, Pairing.afresh, if_pos opens]
  rw [items, List.foldl_cons, waits]
  cases rest with
  | nil => rfl
  | cons next rest =>
    have gives_up : Pairing.step ⟨some unit, []⟩ next = Pairing.afresh [.unpaired unit] next :=
      if_neg alone
    rw [List.foldl_cons, gives_up, ← step_none, ← List.foldl_cons, finish_foldl]
    rfl

/-! ## Units and what the reader makes of them -/

/-- The units that an item was read from, each with whether it has no partner. -/
def Item.marks : Item → List (UInt16 × Bool)
  | .scalar c => (encodeChar c).map (·, false)
  | .unpaired unit => [(unit, true)]

/-- The units as the reader leaves them, those marked that it finds no partner for. -/
def marked (units : List UInt16) : List (UInt16 × Bool) :=
  (items units).flatMap Item.marks

theorem encodeChar_plain (opens : ¬ isHighSurrogate unit = true)
    (closes : ¬ isLowSurrogate unit = true) : encodeChar (Char.ofNat unit.toNat) = [unit] := by
  rw [isHighSurrogate_iff] at opens
  rw [isLowSurrogate_iff] at closes
  have short := unit.toNat_lt
  have scalar : unit.toNat.isValidChar := by
    unfold Nat.isValidChar
    omega
  have number : (Char.ofNat unit.toNat).toNat = unit.toNat := by
    rw [Char.ofNat, dif_pos scalar]
    rfl
  rw [encodeChar, number, if_pos short, UInt16.ofNat_toNat]

theorem encodeChar_joinPair (opens : isHighSurrogate high = true)
    (closes : isLowSurrogate low = true) : encodeChar (joinPair high low) = [high, low] := by
  rw [isHighSurrogate_iff] at opens
  rw [isLowSurrogate_iff] at closes
  obtain ⟨first, top⟩ := Nat.exists_eq_add_of_le opens.1
  obtain ⟨second, bottom⟩ := Nat.exists_eq_add_of_le closes.1
  have scalar : (0x10000 + first * 1024 + second).isValidChar := by
    unfold Nat.isValidChar
    omega
  have number : (joinPair high low).toNat = 0x10000 + (first * 1024 + second) := by
    rw [joinPair, top, bottom, Nat.add_sub_cancel_left, Nat.add_sub_cancel_left, Char.ofNat,
      dif_pos scalar, ← Nat.add_assoc]
    rfl
  have upper : (first * 1024 + second) / 1024 = first := by omega
  have lower : (first * 1024 + second) % 1024 = second := by omega
  rw [encodeChar, number, if_neg (by omega), Nat.add_sub_cancel_left]
  simp only [upper, lower, ← top, ← bottom, UInt16.ofNat_toNat]

theorem marked_plain (opens : ¬ isHighSurrogate unit = true)
    (closes : ¬ isLowSurrogate unit = true) :
    marked (unit :: rest) = (unit, false) :: marked rest := by
  rw [marked, items_plain opens closes, List.flatMap_cons, Item.marks,
    encodeChar_plain opens closes]
  rfl

theorem marked_second (closes : isLowSurrogate unit = true) :
    marked (unit :: rest) = (unit, true) :: marked rest := by
  rw [marked, items_second closes]
  rfl

theorem marked_pair (opens : isHighSurrogate high = true) (closes : isLowSurrogate low = true) :
    marked (high :: low :: rest) = (high, false) :: (low, false) :: marked rest := by
  rw [marked, items_pair opens closes, List.flatMap_cons, Item.marks,
    encodeChar_joinPair opens closes]
  rfl

theorem marked_first (opens : isHighSurrogate unit = true)
    (alone : ¬ rest[0]?.any isLowSurrogate = true) :
    marked (unit :: rest) = (unit, true) :: marked rest := by
  rw [marked, items_first opens alone]
  rfl

/-- The reader keeps every unit where it is, and marks those that are unpaired. -/
theorem getElem?_marked (units : List UInt16) :
    ∀ i, (marked units)[i]? = units[i]?.map fun unit => (unit, decide (Unpaired units i)) := by
  induction units using units_induction with
  | nil =>
    intro i
    rfl
  | plain unit rest opens closes ih =>
    have partnered : ¬ Unpaired (unit :: rest) 0 := by
      rintro (⟨first, -⟩ | ⟨second, -⟩)
      · exact opens first
      · exact closes second
    intro i
    rw [marked_plain opens closes]
    cases i with
    | zero => simp [partnered]
    | succ i =>
      rw [List.getElem?_cons_succ, List.getElem?_cons_succ, ih]
      simp only [unpaired_succ fun _ first => absurd first opens]
  | second unit rest closes ih =>
    have opens : ¬ isHighSurrogate unit = true := fun opens => not_isLowSurrogate opens closes
    have alone : Unpaired (unit :: rest) 0 := .inr ⟨closes, Bool.false_ne_true⟩
    intro i
    rw [marked_second closes]
    cases i with
    | zero => simp [alone]
    | succ i =>
      rw [List.getElem?_cons_succ, List.getElem?_cons_succ, ih]
      simp only [unpaired_succ fun _ first => absurd first opens]
  | pair high low rest opens closes ih =>
    have opens' : ¬ isHighSurrogate low = true := fun opens => not_isLowSurrogate opens closes
    have partnered : ¬ Unpaired (high :: low :: rest) 0 := by
      rintro (⟨-, alone⟩ | ⟨second, -⟩)
      · exact alone closes
      · exact not_isLowSurrogate opens second
    have partnered' : ¬ Unpaired (high :: low :: rest) 1 := by
      rintro (⟨first, -⟩ | ⟨-, alone⟩)
      · exact opens' first
      · exact alone opens
    intro i
    rw [marked_pair opens closes]
    match i with
    | 0 => simp [partnered]
    | 1 => simp [partnered']
    | i + 2 =>
      rw [List.getElem?_cons_succ, List.getElem?_cons_succ, List.getElem?_cons_succ,
        List.getElem?_cons_succ, ih]
      have apart : i + 1 = 0 → isHighSurrogate high = true →
          ¬ (low :: rest)[0]?.any isLowSurrogate = true := fun none => nomatch none
      simp only [unpaired_succ apart, unpaired_succ fun _ first => absurd first opens']
  | first unit rest opens alone ih =>
    have single : Unpaired (unit :: rest) 0 := .inl ⟨opens, alone⟩
    intro i
    rw [marked_first opens alone]
    cases i with
    | zero => simp [single]
    | succ i =>
      rw [List.getElem?_cons_succ, List.getElem?_cons_succ, ih]
      simp only [unpaired_succ fun _ _ => alone]

/-! ## The readers -/

/-- The units of what the lenient reader makes of an item. -/
theorem encodeChar_lossy (item : Item) :
    encodeChar item.lossy = item.marks.map fun mark => if mark.2 then 0xFFFD else mark.1 := by
  cases item with
  | scalar c =>
    rw [Item.lossy, Item.marks, List.map_map]
    exact (List.map_id _).symm
  | unpaired unit => rfl

theorem encode_decodeLossy (units : List UInt16) :
    encode (decodeLossy units) =
      (marked units).map fun mark => if mark.2 then 0xFFFD else mark.1 := by
  rw [encode, decodeLossy, String.toList_ofList, marked, List.flatMap_map, List.map_flatMap]
  simp only [encodeChar_lossy]

/-- The lenient reader puts a replacement character in the place of each unpaired surrogate, and
leaves every other unit as it is. -/
theorem getElem?_encode_decodeLossy (units : List UInt16) (i : Nat) :
    (encode (decodeLossy units))[i]? =
      units[i]?.map fun unit => if Unpaired units i then 0xFFFD else unit := by
  rw [encode_decodeLossy, List.getElem?_map, getElem?_marked, Option.map_map]
  congr 1
  funext unit
  simp only [Function.comp_apply, decide_eq_true_eq]

/-- The first mark is what the strict reader refuses. -/
theorem firstUnpaired?_items (units : List UInt16) :
    firstUnpaired? (items units) = ((marked units).find? Prod.snd).map Prod.fst := by
  unfold marked firstUnpaired?
  induction items units with
  | nil => rfl
  | cons item rest ih =>
    rw [List.findSome?_cons, List.flatMap_cons, List.find?_append]
    cases item with
    | scalar c =>
      have clean : ((encodeChar c).map (·, false)).find? Prod.snd = none := by
        simp
      rw [Item.marks, clean]
      exact ih
    | unpaired unit => rfl

/-- A mark tells whether the unit at its place is unpaired. -/
theorem mark_eq {i : Nat} {mark : UInt16 × Bool} (there : (marked units)[i]? = some mark) :
    units[i]? = some mark.1 ∧ (mark.2 = true ↔ Unpaired units i) := by
  rw [getElem?_marked] at there
  obtain ⟨unit, found, rfl⟩ := Option.map_eq_some_iff.1 there
  exact ⟨found, decide_eq_true_iff⟩

theorem decode_eq_error_iff_find? :
    decode units = .error unit ↔ (marked units).find? Prod.snd = some (unit, true) := by
  unfold decode
  rw [firstUnpaired?_items]
  constructor
  · intro read
    cases found : (marked units).find? Prod.snd with
    | none => exact nomatch found ▸ read
    | some mark =>
      rw [found] at read
      obtain rfl := Except.error.inj read
      have set := List.find?_some found
      exact congrArg some (Prod.ext rfl set)
  · intro found
    rw [found]
    rfl

/-- The strict reader refuses the first unpaired surrogate. -/
theorem decode_eq_error_iff :
    decode units = .error unit ↔
      ∃ i, units[i]? = some unit ∧ Unpaired units i ∧ ∀ j < i, ¬ Unpaired units j := by
  rw [decode_eq_error_iff_find?, List.find?_eq_some_iff_getElem]
  constructor
  · rintro ⟨-, i, inside, found, before⟩
    obtain ⟨there, unpaired⟩ := mark_eq (List.getElem?_eq_some_iff.2 ⟨inside, found⟩)
    refine ⟨i, there, unpaired.1 rfl, ?_⟩
    intro j earlier
    obtain ⟨-, unpaired'⟩ := mark_eq (List.getElem?_eq_getElem (Nat.lt_trans earlier inside))
    rw [← unpaired', Bool.not_eq_true]
    exact Bool.not_eq_true' _ ▸ before j earlier
  · rintro ⟨i, there, unpaired, before⟩
    have found : (marked units)[i]? = some (unit, true) := by
      rw [getElem?_marked, there, Option.map_some, decide_eq_true unpaired]
    obtain ⟨inside, found⟩ := List.getElem?_eq_some_iff.1 found
    refine ⟨rfl, i, inside, found, ?_⟩
    intro j earlier
    obtain ⟨-, unpaired'⟩ := mark_eq (List.getElem?_eq_getElem (Nat.lt_trans earlier inside))
    have clean := before j earlier
    rw [← unpaired', Bool.not_eq_true] at clean
    rw [clean]
    rfl

/-- It finds no text only if some surrogate is unpaired. -/
theorem decode_eq_ok_of_paired (paired : ∀ i, ¬ Unpaired units i) :
    decode units = .ok (decodeLossy units) := by
  cases read : decode units with
  | error unit =>
    obtain ⟨i, -, unpaired, -⟩ := decode_eq_error_iff.1 read
    exact absurd unpaired (paired i)
  | ok text =>
    unfold decode at read
    split at read
    · exact nomatch read
    · exact read.symm

/-- A text comes out if no mark is set, and then it has the units that were read. -/
theorem paired_of_decode_eq_ok {text : String} (read : decode units = .ok text) :
    (∀ i, ¬ Unpaired units i) ∧ text = decodeLossy units := by
  unfold decode at read
  split at read
  · exact nomatch read
  rename_i none
  rw [firstUnpaired?_items, Option.map_eq_none_iff, List.find?_eq_none] at none
  refine ⟨?_, (Except.ok.inj read).symm⟩
  intro i unpaired
  obtain ⟨unit, there⟩ := unpaired.present
  have marked_true : (marked units)[i]? = some (unit, true) := by
    rw [getElem?_marked, there, Option.map_some, decide_eq_true unpaired]
  exact none _ (List.mem_of_getElem? marked_true) rfl

/-- It reads the units of a text, and from no others a text comes out. -/
theorem decode_eq_ok_iff {text : String} : decode units = .ok text ↔ encode text = units := by
  constructor
  · intro read
    obtain ⟨paired, rfl⟩ := paired_of_decode_eq_ok read
    apply List.ext_getElem?
    intro i
    rw [getElem?_encode_decodeLossy]
    simp only [paired i, ↓reduceIte]
    exact congrFun Option.map_id _
  · rintro rfl
    exact decode_encode text

end PooledBuffers.Utf16
