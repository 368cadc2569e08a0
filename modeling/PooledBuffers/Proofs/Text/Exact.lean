import PooledBuffers.Proofs.Text.Encoding
import PooledBuffers.Proofs.Text.Utf16Pairs
import PooledBuffers.Proofs.Text.Utf8Forms

/-!
# Reading and writing texts undo each other

What is written is read back, and nothing else is read: the reader refuses the bytes that are not
those of a text, and these are the ill-formed ones.

* `TextEncoding.WellFormed` — the bytes that are text in an encoding, told without a reader;
* `TextEncoding.WritesExactly` — what comes of writing a text, piece by piece;
* `TextEncoding.ReadsExactly` — what comes of reading some bytes;
* `TextEncoding.encode_decode_inverse` — both, for every text and for all bytes.
-/

namespace PooledBuffers

/-! ## Handing pieces out -/

/-- A sink that accepts whatever it is handed. -/
def accepting {σ : Type} (accept : σ → Array UInt8 → σ) (state : σ) (piece : Array UInt8) :
    Except Error Unit × σ :=
  (.ok (), accept state piece)

theorem handOut_accepting {σ : Type} (accept : σ → Array UInt8 → σ) (pieces : List (Array UInt8)) :
    ∀ (state : σ) (before : Nat), handOut (accepting accept) state before pieces =
      (.ok (before + (join pieces).size), pieces.foldl accept state) := by
  induction pieces with
  | nil =>
    intro state before
    rfl
  | cons piece rest ih =>
    intro state before
    rw [handOut]
    simp only [accepting]
    rw [ih, join_cons, Array.size_append, Nat.add_assoc]
    rfl

/-- Units fill the pieces two bytes at a time, so that a full one ends between two units. -/
theorem mem_fillPieces (order : ByteOrder) {units : List UInt16} :
    ∀ {piece handed : Array UInt8}, piece.size % 2 = 0 → piece.size < pieceLength →
      handed ∈ fillPieces order piece units →
        0 < handed.size ∧ handed.size % 2 = 0 ∧ handed.size ≤ pieceLength := by
  induction units with
  | nil =>
    intro piece handed even short member
    rw [fillPieces] at member
    split at member
    · cases member
    · rename_i filled
      obtain rfl := List.mem_singleton.1 member
      have some : 0 < handed.size := by
        apply Nat.pos_of_ne_zero
        intro none
        exact filled (by simpa using none)
      exact ⟨some, even, Nat.le_of_lt short⟩
  | cons unit rest ih =>
    intro piece handed even short member
    have two : Layout.width UInt16 = 2 := rfl
    have longer : (piece ++ Layout.bytes order unit).size = piece.size + 2 := by
      rw [Array.size_append, Layout.size_bytes, two]
    rw [fillPieces] at member
    split at member
    · rename_i full
      rcases List.mem_cons.1 member with rfl | later
      · exact ⟨by omega, by omega, by omega⟩
      · exact ih rfl (by decide) later
    · rename_i more
      have bound : pieceLength % 2 = 0 := rfl
      exact ih (by omega) (by omega) member

namespace Utf8

theorem length_encode (text : String) : (encode text).length = text.utf8ByteSize := by
  have whole : String.ofList text.toList = text := String.ofList_toList
  conv => rhs; rw [← whole]
  rw [String.utf8ByteSize, String.toByteArray_ofList, List.utf8Encode, List.size_toByteArray,
    encode]

end Utf8

namespace TextEncoding

theorem size_encoded (encoding : TextEncoding) (text : String) :
    (encoding.encoded text).size = encoding.byteCount text := by
  cases encoding with
  | utf8 =>
    rw [encoded, pieces, join_cons, join_nil, Array.append_empty, List.size_toArray,
      Utf8.length_encode, byteCount]
  | utf16 order =>
    rw [encoded, pieces, join_fillPieces, Array.empty_append, size_bytesOfUnits, byteCount]

/-! ## Bytes that are text -/

/-- Bytes that are text in an encoding: proper sequences one after another, or code units among
which every surrogate has its partner. -/
def WellFormed : TextEncoding → Array UInt8 → Prop
  | utf8, bytes => Utf8.WellFormed bytes.toList
  | utf16 order, bytes =>
    bytes.size % 2 = 0 ∧ ∀ i, ¬ Utf16.Unpaired (unitsOfBytes order bytes) i

variable {encoding : TextEncoding} {bytes : Array UInt8} {text : String}

/-- The reader accepts the bytes of a text, and of no other bytes a text comes out. -/
theorem decode_eq_ok_iff : encoding.decode bytes = .ok text ↔ encoding.encoded text = bytes := by
  constructor
  · intro read
    cases encoding with
    | utf8 =>
      rw [decode] at read
      split at read
      · rename_i decoded
        obtain rfl := Except.ok.inj read
        have written := Utf8.decode_eq_ok_iff.1 decoded
        rw [encoded, pieces, join_cons, join_nil, Array.append_empty, written]
      · exact nomatch read
    | utf16 order =>
      rw [decode] at read
      split at read
      · exact nomatch read
      rename_i even
      split at read
      · rename_i decoded
        obtain rfl := Except.ok.inj read
        have written := Utf16.decode_eq_ok_iff.1 decoded
        rw [encoded, pieces, join_fillPieces, Array.empty_append, written,
          bytesOfUnits_unitsOfBytes order (Decidable.not_not.1 even)]
      · exact nomatch read
  · rintro rfl
    exact decode_encoded encoding text

/-- The well-formed bytes are those of the texts. -/
theorem wellFormed_iff : encoding.WellFormed bytes ↔ ∃ text, encoding.encoded text = bytes := by
  cases encoding with
  | utf8 =>
    have bytes_of (text : String) :
        encoded .utf8 text = bytes ↔ Utf8.encode text = bytes.toList := by
      rw [encoded, pieces, join_cons, join_nil, Array.append_empty]
      constructor
      · rintro rfl
        rfl
      · intro same
        rw [same]
    simp only [bytes_of]
    exact Utf8.wellFormed_iff
  | utf16 order =>
    constructor
    · rintro ⟨even, paired⟩
      have written := Utf16.decode_eq_ok_iff.1 (Utf16.decode_eq_ok_of_paired paired)
      refine ⟨Utf16.decodeLossy (unitsOfBytes order bytes), ?_⟩
      rw [encoded, pieces, join_fillPieces, Array.empty_append, written,
        bytesOfUnits_unitsOfBytes order even]
    · rintro ⟨text, rfl⟩
      rw [encoded, pieces, join_fillPieces, Array.empty_append]
      refine ⟨by rw [size_bytesOfUnits, Nat.mul_mod_left], ?_⟩
      rw [unitsOfBytes_bytesOfUnits]
      exact (Utf16.paired_of_decode_eq_ok (Utf16.decode_encode text)).1

theorem exists_error_iff {ε α : Type} {result : Except ε α} :
    (∃ e, result = .error e) ↔ ¬ ∃ value, result = .ok value := by
  cases result with
  | error e => simp
  | ok value => simp

/-! ## Both directions -/

/-- What comes of writing a text. A sink that accepts everything is handed the pieces in their order
and the bytes of the text are counted; UTF-16 comes in bounded pieces that end between two units. -/
structure WritesExactly (encoding : TextEncoding) (text : String) : Prop where
  handed_out : ∀ {σ : Type} (accept : σ → Array UInt8 → σ) (state : σ),
    encoding.encodeInto (accepting accept) state text =
      (.ok (encoding.byteCount text), (encoding.pieces text).foldl accept state)
  utf16_pieces : encoding ≠ .utf8 → ∀ piece ∈ encoding.pieces text,
    0 < piece.size ∧ piece.size % 2 = 0 ∧ piece.size ≤ 256
  counted : (encoding.encoded text).size = encoding.byteCount text
  read_back : encoding.decode (encoding.encoded text) = .ok text

/-- What comes of reading some bytes: the text whose bytes they are, and an error exactly if they
are those of no text, which is if they are ill-formed. -/
structure ReadsExactly (encoding : TextEncoding) (bytes : Array UInt8) : Prop where
  written_back : ∀ text, encoding.decode bytes = .ok text → encoding.encoded text = bytes
  refused : (∃ e, encoding.decode bytes = .error e) ↔ ¬ ∃ text, encoding.encoded text = bytes
  ill_formed : (∃ e, encoding.decode bytes = .error e) ↔ ¬ encoding.WellFormed bytes

/-- Reading and writing texts undo each other, in every encoding. -/
theorem encode_decode_inverse (encoding : TextEncoding) :
    (∀ text, encoding.WritesExactly text) ∧ ∀ bytes, encoding.ReadsExactly bytes := by
  constructor
  · intro text
    refine ⟨?_, ?_, size_encoded encoding text, decode_encoded encoding text⟩
    · intro σ accept state
      rw [encodeInto, handOut_accepting, Nat.zero_add, ← encoded, size_encoded]
    · intro wide piece member
      cases encoding with
      | utf8 => exact absurd rfl wide
      | utf16 order => exact mem_fillPieces order rfl (by decide) member
  · intro bytes
    have refused : (∃ e, encoding.decode bytes = .error e) ↔
        ¬ ∃ text, encoding.encoded text = bytes := by
      rw [exists_error_iff]
      simp only [decode_eq_ok_iff]
    refine ⟨fun text read => decode_eq_ok_iff.1 read, refused, ?_⟩
    rw [refused, wellFormed_iff]

end TextEncoding

end PooledBuffers
