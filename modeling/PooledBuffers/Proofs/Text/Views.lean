import PooledBuffers.Proofs.Text.Exact

/-!
# Readers of raw UTF-16

A view of bytes as code units can be read strictly, leniently and for display, and the bytes can be
decoded as UTF-16 without a view. All of them take the same units for unpaired.

* `Utf16View.HandsOut` — the bytes of code units, and the view of them;
* `Utf16View.Agrees` — what the readers of one view make of it;
* `Utf16View.readers_agree` — both, for all code units and every view.
-/

namespace PooledBuffers.Utf16View

/-! ## Bytes of code units -/

/-- What comes of handing code units out: two bytes for each, whose view has the same units. -/
structure HandsOut (units : List UInt16) : Prop where
  handed_out : ∀ {σ : Type} (accept : σ → Array UInt8 → σ) (state : σ),
    unitsInto (accepting accept) state units =
      (.ok (units.length * 2), (unitPieces units).foldl accept state)
  counted : (join (unitPieces units)).size = units.length * 2
  viewed : ∃ view, ofBytes (join (unitPieces units)) = .ok view ∧ view.units = units

theorem handsOut (units : List UInt16) : HandsOut units := by
  have counted : (join (unitPieces units)).size = units.length * 2 := by
    rw [join_unitPieces, size_bytesOfUnits]
  refine ⟨?_, counted, ?_⟩
  · intro σ accept state
    rw [unitsInto, handOut_accepting]
    rfl
  · have even : (join (unitPieces units)).size % 2 = 0 := by
      rw [counted, Nat.mul_mod_left]
    refine ⟨⟨join (unitPieces units), even⟩, dif_pos even, ?_⟩
    show unitsOfBytes .little (join (unitPieces units)) = units
    rw [join_unitPieces, unitsOfBytes_bytesOfUnits]

/-! ## Readers of a view -/

/-- Pushing characters one after another is appending them all. -/
theorem foldl_push (items : List Utf16.Item) : ∀ text : String,
    items.foldl (fun text item => text.push item.lossy) text =
      text ++ String.ofList (items.map Utf16.Item.lossy) := by
  induction items with
  | nil =>
    intro text
    exact String.append_empty.symm
  | cons item rest ih =>
    intro text
    rw [List.foldl_cons, ih, List.map_cons, String.ofList_cons, ← String.append_assoc,
      String.append_singleton]

variable (view : Utf16View)

theorem display_eq : view.display = view.toTextLossy := by
  rw [display, writeTo, foldl_push, String.empty_append]
  rfl

theorem toText_eq_decode : view.toText = TextEncoding.decode (.utf16 .little) view.bytes := by
  have even : ¬ view.bytes.size % 2 ≠ 0 := Decidable.not_not.2 view.even
  rw [TextEncoding.decode, if_neg even]
  rfl

/-- What the readers of a view make of it. The strict reader, with or without a view, finds a text
exactly if every surrogate has its partner, and names the first one that has none. The lenient
reader and the display replace those and nothing else, so that where the strict reader finds a text
they find the same. -/
structure Agrees (view : Utf16View) : Prop where
  of_bytes : ofBytes view.bytes = .ok view
  strict : view.toText = TextEncoding.decode (.utf16 .little) view.bytes
  shown : view.display = view.toTextLossy
  paired : (∃ text, view.toText = .ok text) ↔ ∀ i, ¬ Utf16.Unpaired view.units i
  same : ∀ text, view.toText = .ok text → text = view.toTextLossy
  refused : ∀ e, view.toText = .error e → ∃ unit, e = .encoding (.unpairedSurrogate unit) ∧
    ∃ i, view.units[i]? = some unit ∧ Utf16.Unpaired view.units i ∧
      ∀ j < i, ¬ Utf16.Unpaired view.units j
  replaced : ∀ i, (Utf16.encode view.toTextLossy)[i]? =
    view.units[i]?.map fun unit => if Utf16.Unpaired view.units i then 0xFFFD else unit

variable {view}

theorem toText_eq_ok_iff {text : String} :
    view.toText = .ok text ↔ Utf16.decode view.units = .ok text := by
  unfold toText
  cases Utf16.decode view.units with
  | error unit =>
    constructor <;> intro read <;> exact nomatch read
  | ok found =>
    constructor <;> intro read <;> exact congrArg _ (Except.ok.inj read)

theorem toText_eq_error_iff {e : Error} :
    view.toText = .error e ↔
      ∃ unit, Utf16.decode view.units = .error unit ∧ e = .encoding (.unpairedSurrogate unit) := by
  unfold toText
  cases Utf16.decode view.units with
  | error unit =>
    constructor
    · intro read
      exact ⟨unit, rfl, (Except.error.inj read).symm⟩
    · rintro ⟨unit, read, rfl⟩
      obtain rfl := Except.error.inj read
      rfl
  | ok text =>
    constructor
    · intro read
      exact nomatch read
    · rintro ⟨unit, read, -⟩
      exact nomatch read

theorem agrees (view : Utf16View) : view.Agrees where
  of_bytes := dif_pos view.even
  strict := view.toText_eq_decode
  shown := view.display_eq
  paired := by
    simp only [toText_eq_ok_iff]
    constructor
    · rintro ⟨text, read⟩
      exact (Utf16.paired_of_decode_eq_ok read).1
    · intro paired
      exact ⟨_, Utf16.decode_eq_ok_of_paired paired⟩
  same := by
    intro text read
    rw [toText_eq_ok_iff] at read
    exact (Utf16.paired_of_decode_eq_ok read).2
  refused := by
    intro e read
    obtain ⟨unit, found, rfl⟩ := toText_eq_error_iff.1 read
    exact ⟨unit, rfl, Utf16.decode_eq_error_iff.1 found⟩
  replaced := Utf16.getElem?_encode_decodeLossy view.units

/-- All readers of raw UTF-16 agree on the bytes that code units are handed out as, and on any other
bytes that can be viewed. -/
theorem readers_agree : (∀ units, HandsOut units) ∧ ∀ view : Utf16View, view.Agrees :=
  ⟨handsOut, agrees⟩

end PooledBuffers.Utf16View
