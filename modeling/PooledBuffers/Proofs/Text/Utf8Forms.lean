import PooledBuffers.Proofs.Text.Utf8

/-!
# Well-formed UTF-8

Which bytes are UTF-8 is told without a reader: a sequence spells a number with the bits of its
lead byte and of the bytes behind it, and it is proper if the number is that of a character and no
shorter sequence spells it. Bytes are well-formed if they are proper sequences one after another.

* `Utf8.Proper` — a proper sequence and its number, `Utf8.WellFormed` — any number of them;
* `Utf8.proper_utf8EncodeChar`, `Utf8.Proper.encode_eq` — the proper sequences are the bytes of the
  characters;
* `Utf8.Sequence.Begins` — what a sequence under way has read, by what completes it;
* `Utf8.decode_eq_ok_iff` — the reader accepts the bytes of texts, and nothing else;
* `Utf8.wellFormed_iff` — these are the well-formed bytes.
-/

namespace PooledBuffers.Utf8

/-! ## Sequences and their numbers -/

/-- A byte that continues a sequence. -/
def IsTail (byte : UInt8) : Prop := 0x80 ≤ byte.toNat ∧ byte.toNat < 0xC0

/-- The number that a sequence spells, whether it is proper or not. -/
inductive Spells : List UInt8 → Nat → Prop
  | one {a : UInt8} : a.toNat < 0x80 → Spells [a] a.toNat
  | two {a b : UInt8} : 0xC0 ≤ a.toNat → a.toNat < 0xE0 → IsTail b →
      Spells [a, b] ((a.toNat - 0xC0) * 64 + (b.toNat - 0x80))
  | three {a b c : UInt8} : 0xE0 ≤ a.toNat → a.toNat < 0xF0 → IsTail b → IsTail c →
      Spells [a, b, c] (((a.toNat - 0xE0) * 64 + (b.toNat - 0x80)) * 64 + (c.toNat - 0x80))
  | four {a b c d : UInt8} : 0xF0 ≤ a.toNat → a.toNat < 0xF8 → IsTail b → IsTail c → IsTail d →
      Spells [a, b, c, d]
        ((((a.toNat - 0xF0) * 64 + (b.toNat - 0x80)) * 64 + (c.toNat - 0x80)) * 64 +
          (d.toNat - 0x80))

/-- The least number that needs so many bytes. -/
def leastOfLength : Nat → Nat
  | 0 | 1 => 0
  | 2 => 0x80
  | 3 => 0x800
  | _ => 0x10000

/-- A sequence that spells the number of a character and is not overlong: the number is no surrogate
and not past the last code point, and no shorter sequence spells it. -/
structure Proper (bytes : List UInt8) (n : Nat) : Prop where
  spells : Spells bytes n
  shortest : leastOfLength bytes.length ≤ n
  scalar : n.isValidChar

/-- Proper sequences one after another. -/
def WellFormed (bytes : List UInt8) : Prop :=
  ∃ sequences : List (List UInt8), sequences.flatten = bytes ∧
    ∀ sequence ∈ sequences, ∃ n, Proper sequence n

/-! ## Proper sequences and characters -/

/-- Bytes are the same if the number of the first is, and the others are. -/
theorem cons_ofNat_eq {n : Nat} {byte : UInt8} {bytes more : List UInt8} (same : n = byte.toNat)
    (rest : bytes = more) : UInt8.ofNat n :: bytes = byte :: more := by
  rw [same, UInt8.ofNat_toNat, rest]

/-- The bytes of a character are a proper sequence for its number. -/
theorem proper_utf8EncodeChar (c : Char) : Proper (String.utf8EncodeChar c) c.toNat := by
  have bounds := scalar_bounds c
  unfold String.utf8EncodeChar
  simp only [Char.toNat_val]
  generalize c.toNat = v at bounds ⊢
  by_cases one : v ≤ 0x7F
  · rw [if_pos one]
    have lead := toNat_byte (by omega : v < 256)
    have spelled : Spells [UInt8.ofNat v] (UInt8.ofNat v).toNat := .one (by omega)
    rw [lead] at spelled
    exact ⟨spelled, Nat.zero_le _, bounds⟩
  by_cases two : v ≤ 0x7FF
  · rw [if_neg one, if_pos two]
    have lead := toNat_byte (by omega : v / 64 % 0x20 + 0xC0 < 256)
    have second := toNat_byte (by omega : v % 0x40 + 0x80 < 256)
    have spelled := Spells.two (a := UInt8.ofNat (v / 64 % 0x20 + 0xC0))
      (b := UInt8.ofNat (v % 0x40 + 0x80)) (by omega) (by omega) ⟨by omega, by omega⟩
    have number : (v / 64 % 0x20 + 0xC0 - 0xC0) * 64 + (v % 0x40 + 0x80 - 0x80) = v := by omega
    rw [lead, second, number] at spelled
    exact ⟨spelled, Nat.not_le.1 one, bounds⟩
  by_cases three : v ≤ 0xFFFF
  · rw [if_neg one, if_neg two, if_pos three]
    have lead := toNat_byte (by omega : v / 4096 % 0x10 + 0xE0 < 256)
    have second := toNat_byte (by omega : v / 64 % 0x40 + 0x80 < 256)
    have third := toNat_byte (by omega : v % 0x40 + 0x80 < 256)
    have spelled := Spells.three (a := UInt8.ofNat (v / 4096 % 0x10 + 0xE0))
      (b := UInt8.ofNat (v / 64 % 0x40 + 0x80)) (c := UInt8.ofNat (v % 0x40 + 0x80)) (by omega)
      (by omega) ⟨by omega, by omega⟩ ⟨by omega, by omega⟩
    have number : ((v / 4096 % 0x10 + 0xE0 - 0xE0) * 64 + (v / 64 % 0x40 + 0x80 - 0x80)) * 64 +
        (v % 0x40 + 0x80 - 0x80) = v := by omega
    rw [lead, second, third, number] at spelled
    exact ⟨spelled, Nat.not_le.1 two, bounds⟩
  · rw [if_neg one, if_neg two, if_neg three]
    have lead := toNat_byte (by omega : v / 262144 % 0x08 + 0xF0 < 256)
    have second := toNat_byte (by omega : v / 4096 % 0x40 + 0x80 < 256)
    have third := toNat_byte (by omega : v / 64 % 0x40 + 0x80 < 256)
    have fourth := toNat_byte (by omega : v % 0x40 + 0x80 < 256)
    have spelled := Spells.four (a := UInt8.ofNat (v / 262144 % 0x08 + 0xF0))
      (b := UInt8.ofNat (v / 4096 % 0x40 + 0x80)) (c := UInt8.ofNat (v / 64 % 0x40 + 0x80))
      (d := UInt8.ofNat (v % 0x40 + 0x80)) (by omega) (by omega) ⟨by omega, by omega⟩
      ⟨by omega, by omega⟩ ⟨by omega, by omega⟩
    have number : (((v / 262144 % 0x08 + 0xF0 - 0xF0) * 64 + (v / 4096 % 0x40 + 0x80 - 0x80)) * 64 +
        (v / 64 % 0x40 + 0x80 - 0x80)) * 64 + (v % 0x40 + 0x80 - 0x80) = v := by omega
    rw [lead, second, third, fourth, number] at spelled
    exact ⟨spelled, Nat.not_le.1 three, bounds⟩

/-- A proper sequence is what its character is written as. -/
theorem Proper.encode_eq {bytes : List UInt8} {n : Nat} (proper : Proper bytes n) :
    String.utf8EncodeChar (Char.ofNat n) = bytes := by
  obtain ⟨spells, shortest, scalar⟩ := proper
  have number : (Char.ofNat n).toNat = n := by
    rw [Char.ofNat, dif_pos scalar]
    rfl
  unfold String.utf8EncodeChar
  simp only [Char.toNat_val, number]
  -- The bounds on the number say how many bytes are written, and each byte is one of its digits.
  cases spells with
  | one low =>
    rw [if_pos (by omega), UInt8.ofNat_toNat]
  | two low high second =>
    obtain ⟨least, most⟩ := second
    simp only [leastOfLength, List.length_cons, List.length_nil] at shortest
    rw [if_neg (by omega), if_pos (by omega)]
    apply cons_ofNat_eq (by omega)
    exact cons_ofNat_eq (by omega) rfl
  | three low high second third =>
    obtain ⟨least, most⟩ := second
    obtain ⟨least', most'⟩ := third
    simp only [leastOfLength, List.length_cons, List.length_nil] at shortest
    rw [if_neg (by omega), if_neg (by omega), if_pos (by omega)]
    apply cons_ofNat_eq (by omega)
    apply cons_ofNat_eq (by omega)
    exact cons_ofNat_eq (by omega) rfl
  | four low high second third fourth =>
    obtain ⟨least, most⟩ := second
    obtain ⟨least', most'⟩ := third
    obtain ⟨least'', most''⟩ := fourth
    simp only [leastOfLength, List.length_cons, List.length_nil] at shortest
    have inside := scalar.elim (fun below => (by omega : _ < 0x110000)) And.right
    rw [if_neg (by omega), if_neg (by omega), if_neg (by omega)]
    apply cons_ofNat_eq (by omega)
    apply cons_ofNat_eq (by omega)
    apply cons_ofNat_eq (by omega)
    exact cons_ofNat_eq (by omega) rfl

/-! ## Sequences under way -/

/-- What a step of a sequence does: the byte was in range, and its six bits join the payload. -/
theorem extended_cases {start seen needed low high payload : Nat} {longer : Sequence} {byte : UInt8}
    (extended : Sequence.extended? ⟨start, seen, needed, low, high, payload⟩ byte = some longer) :
    (low ≤ byte.toNat ∧ byte.toNat ≤ high) ∧
      longer = ⟨start, seen + 1, needed - 1, 0x80, 0xBF, payload * 64 + (byte.toNat - 0x80)⟩ := by
  simp only [Sequence.extended?] at extended
  split at extended
  · exact ⟨‹_›, (Option.some.inj extended).symm⟩
  · exact nomatch extended

/-- The sequences that lead bytes open, one shape for each length. The range of the second byte is
narrower behind four of the lead bytes. -/
theorem opened_cases {start : Nat} {lead : UInt8} {sequence : Sequence}
    (opened : Sequence.opened? start lead = some sequence) :
    (0xC2 ≤ lead.toNat ∧ lead.toNat < 0xE0 ∧
      sequence = ⟨start, 1, 1, 0x80, 0xBF, lead.toNat - 0xC0⟩) ∨
    (∃ low high, 0xE0 ≤ lead.toNat ∧ lead.toNat < 0xF0 ∧ 0x80 ≤ low ∧ high ≤ 0xBF ∧
      (lead.toNat = 0xE0 → 0xA0 ≤ low) ∧ (lead.toNat = 0xED → high ≤ 0x9F) ∧
      sequence = ⟨start, 1, 2, low, high, lead.toNat - 0xE0⟩) ∨
    (∃ low high, 0xF0 ≤ lead.toNat ∧ lead.toNat < 0xF5 ∧ 0x80 ≤ low ∧ high ≤ 0xBF ∧
      (lead.toNat = 0xF0 → 0x90 ≤ low) ∧ (lead.toNat = 0xF4 → high ≤ 0x8F) ∧
      sequence = ⟨start, 1, 3, low, high, lead.toNat - 0xF0⟩) := by
  simp only [Sequence.opened?] at opened
  split at opened
  · exact nomatch opened
  split at opened
  · exact .inl ⟨by omega, by omega, (Option.some.inj opened).symm⟩
  split at opened
  · refine .inr (.inl ⟨_, _, by omega, by omega, ?_, ?_, ?_, ?_, (Option.some.inj opened).symm⟩)
    all_goals split <;> omega
  split at opened
  · refine .inr (.inr ⟨_, _, by omega, by omega, ?_, ?_, ?_, ?_, (Option.some.inj opened).symm⟩)
    all_goals split <;> omega
  · exact nomatch opened

/-- A sequence that has read some bytes: whichever bytes complete it, together they are those of
the character it then stands for. -/
def Sequence.Begins (sequence : Sequence) (front : List UInt8) : Prop :=
  1 ≤ sequence.needed ∧
    ∀ (more : List UInt8) (last : Sequence), more.length = sequence.needed →
      more.foldlM Sequence.extended? sequence = some last →
        String.utf8EncodeChar (Char.ofNat last.payload) = front ++ more

/-- The range of the second byte is what keeps out the overlong sequences, the surrogates and the
numbers past the last code point. -/
theorem opened_begins {start : Nat} {lead : UInt8} {sequence : Sequence}
    (opened : Sequence.opened? start lead = some sequence) : sequence.Begins [lead] := by
  obtain ⟨least, most, rfl⟩ | ⟨low, high, least, most, above, below, overlong, surrogate, rfl⟩ |
    ⟨low, high, least, most, above, below, overlong, past, rfl⟩ := opened_cases opened
  · refine ⟨Nat.le_refl 1, ?_⟩
    intro more last length run
    match more, length with
    | [b], _ =>
      obtain ⟨one, step, run⟩ := Option.bind_eq_some_iff.1 run
      obtain ⟨⟨least₂, most₂⟩, rfl⟩ := extended_cases step
      obtain rfl := Option.some.inj run
      have enough : 0x80 ≤ (lead.toNat - 0xC0) * 64 + (b.toNat - 0x80) := by omega
      have scalar : (lead.toNat - 0xC0) * 64 + (b.toNat - 0x80) < 0xD800 := by omega
      apply Proper.encode_eq
      exact ⟨.two (by omega) most ⟨least₂, by omega⟩, enough, .inl scalar⟩
  · refine ⟨Nat.le_succ 1, ?_⟩
    intro more last length run
    match more, length with
    | [b, c], _ =>
      obtain ⟨one, step, run⟩ := Option.bind_eq_some_iff.1 run
      obtain ⟨⟨least₂, most₂⟩, rfl⟩ := extended_cases step
      obtain ⟨two, step, run⟩ := Option.bind_eq_some_iff.1 run
      obtain ⟨⟨least₃, most₃⟩, rfl⟩ := extended_cases step
      obtain rfl := Option.some.inj run
      have enough : 0x800 ≤ ((lead.toNat - 0xE0) * 64 + (b.toNat - 0x80)) * 64 +
          (c.toNat - 0x80) := by omega
      have scalar : Nat.isValidChar (((lead.toNat - 0xE0) * 64 + (b.toNat - 0x80)) * 64 +
          (c.toNat - 0x80)) := by
        unfold Nat.isValidChar
        omega
      apply Proper.encode_eq
      exact ⟨.three least most ⟨by omega, by omega⟩ ⟨least₃, by omega⟩, enough, scalar⟩
  · refine ⟨Nat.le_add_left 1 2, ?_⟩
    intro more last length run
    match more, length with
    | [b, c, d], _ =>
      obtain ⟨one, step, run⟩ := Option.bind_eq_some_iff.1 run
      obtain ⟨⟨least₂, most₂⟩, rfl⟩ := extended_cases step
      obtain ⟨two, step, run⟩ := Option.bind_eq_some_iff.1 run
      obtain ⟨⟨least₃, most₃⟩, rfl⟩ := extended_cases step
      obtain ⟨three, step, run⟩ := Option.bind_eq_some_iff.1 run
      obtain ⟨⟨least₄, most₄⟩, rfl⟩ := extended_cases step
      obtain rfl := Option.some.inj run
      have enough : 0x10000 ≤ (((lead.toNat - 0xF0) * 64 + (b.toNat - 0x80)) * 64 +
          (c.toNat - 0x80)) * 64 + (d.toNat - 0x80) := by omega
      have inside : (((lead.toNat - 0xF0) * 64 + (b.toNat - 0x80)) * 64 +
          (c.toNat - 0x80)) * 64 + (d.toNat - 0x80) < 0x110000 := by omega
      apply Proper.encode_eq
      exact ⟨.four least (by omega) ⟨by omega, by omega⟩ ⟨least₃, by omega⟩ ⟨least₄, by omega⟩,
        enough, .inr ⟨Nat.lt_of_lt_of_le (by omega : 0xDFFF < 0x10000) enough, inside⟩⟩

/-- A byte that leaves the sequence short of its end. -/
theorem Sequence.Begins.longer {sequence longer : Sequence} {front : List UInt8} {byte : UInt8}
    (begins : sequence.Begins front) (extended : sequence.extended? byte = some longer)
    (more : longer.needed ≠ 0) : longer.Begins (front ++ [byte]) := by
  obtain ⟨needed, completes⟩ := begins
  have less : longer.needed = sequence.needed - 1 := by
    rw [(extended_cases extended).2]
  refine ⟨Nat.pos_of_ne_zero more, ?_⟩
  intro more last length run
  have whole := completes (byte :: more) last (by rw [List.length_cons]; omega)
    (Option.bind_eq_some_iff.2 ⟨longer, extended, run⟩)
  rw [whole, List.append_assoc, List.singleton_append]

/-- A byte that ends the sequence. -/
theorem Sequence.Begins.complete {sequence longer : Sequence} {front : List UInt8} {byte : UInt8}
    (begins : sequence.Begins front) (extended : sequence.extended? byte = some longer)
    (full : longer.needed = 0) :
    String.utf8EncodeChar (Char.ofNat longer.payload) = front ++ [byte] := by
  obtain ⟨needed, completes⟩ := begins
  have less : longer.needed = sequence.needed - 1 := by
    rw [(extended_cases extended).2]
  exact completes [byte] longer (by rw [List.length_singleton]; omega)
    (Option.bind_eq_some_iff.2 ⟨longer, extended, rfl⟩)

/-! ## What the reader accepts -/

/-- A byte below 128 is its own character. -/
theorem encode_ascii {byte : UInt8} (low : byte < 0x80) :
    String.utf8EncodeChar (Char.ofNat byte.toNat) = [byte] := by
  have below : byte.toNat < 0x80 := UInt8.lt_iff_toNat_lt.1 low
  have scalar : byte.toNat < 0xD800 := by omega
  exact Proper.encode_eq ⟨.one below, Nat.zero_le _, .inl scalar⟩

/-- What the pending sequence has read; nothing is undecoded when none is pending. -/
def Undecoded (front : List UInt8) : Option Sequence → Prop
  | none => front = []
  | some sequence => sequence.Begins front

/-- By induction on the bytes to read: with those of the pending sequence in front of them they are
the bytes of the characters that come out. -/
theorem decodeFrom_eq_ok {bytes : List UInt8} :
    ∀ {position : Nat} {pending : Option Sequence} {front : List UInt8} {done chars : List Char},
      Undecoded front pending → decodeFrom position pending done bytes = .ok chars →
        ∃ text, chars = done.reverse ++ text ∧
          front ++ bytes = text.flatMap String.utf8EncodeChar := by
  induction bytes with
  | nil =>
    intro position pending front done chars undecoded read
    cases pending with
    | none =>
      obtain rfl : front = [] := undecoded
      obtain rfl := Except.ok.inj read
      exact ⟨[], (List.append_nil _).symm, rfl⟩
    | some sequence => cases read
  | cons byte rest ih =>
    intro position pending front done chars undecoded read
    -- A character comes out ahead of those of the bytes behind it.
    have ends {c : Char} {position : Nat} (bytes : String.utf8EncodeChar c = front ++ [byte])
        (read : decodeFrom position none (c :: done) rest = .ok chars) :
        ∃ text, chars = done.reverse ++ text ∧
          front ++ byte :: rest = text.flatMap String.utf8EncodeChar := by
      have nothing : Undecoded [] none := rfl
      obtain ⟨text, rfl, same⟩ := ih nothing read
      refine ⟨c :: text, by simp, ?_⟩
      rw [List.flatMap_cons, bytes, ← same, List.nil_append, List.append_assoc,
        List.singleton_append]
    cases pending with
    | none =>
      obtain rfl : front = [] := undecoded
      rw [decodeFrom] at read
      split at read
      · exact ends (encode_ascii ‹_›) read
      split at read
      · rename_i sequence opened
        have undecoded : Undecoded [byte] (some sequence) := opened_begins opened
        exact ih undecoded read
      · cases read
    | some sequence =>
      rw [decodeFrom] at read
      split at read
      · rename_i longer extended
        split at read
        · rename_i full
          exact ends (Sequence.Begins.complete undecoded extended full) read
        · rename_i more
          have undecoded : Undecoded (front ++ [byte]) (some longer) :=
            Sequence.Begins.longer undecoded extended more
          obtain ⟨text, same, bytes⟩ := ih undecoded read
          refine ⟨text, same, ?_⟩
          rw [← bytes, List.append_assoc, List.singleton_append]
      · cases read

/-- The reader accepts the bytes of a text, and of no other bytes a text comes out. -/
theorem decode_eq_ok_iff {bytes : List UInt8} {text : String} :
    decode bytes = .ok text ↔ encode text = bytes := by
  constructor
  · intro read
    unfold decode at read
    cases from_ : decodeFrom 0 none [] bytes with
    | error fault => exact nomatch from_ ▸ read
    | ok chars =>
      rw [from_] at read
      obtain rfl := Except.ok.inj read
      have nothing : Undecoded [] none := rfl
      obtain ⟨text, rfl, same⟩ := decodeFrom_eq_ok nothing from_
      rw [encode, String.toList_ofList]
      exact same.symm
  · rintro rfl
    exact decode_encode text

/-- The well-formed bytes are those of the texts. -/
theorem wellFormed_iff {bytes : List UInt8} : WellFormed bytes ↔ ∃ text, encode text = bytes := by
  constructor
  · rintro ⟨sequences, rfl, proper⟩
    have written : ∃ chars : List Char,
        chars.flatMap String.utf8EncodeChar = sequences.flatten := by
      induction sequences with
      | nil => exact ⟨[], rfl⟩
      | cons sequence rest ih =>
        obtain ⟨n, first⟩ := proper sequence List.mem_cons_self
        obtain ⟨chars, same⟩ := ih fun sequence member => proper sequence (.tail _ member)
        refine ⟨Char.ofNat n :: chars, ?_⟩
        rw [List.flatMap_cons, first.encode_eq, same, List.flatten_cons]
    obtain ⟨chars, same⟩ := written
    refine ⟨String.ofList chars, ?_⟩
    rw [encode, String.toList_ofList, same]
  · rintro ⟨text, rfl⟩
    refine ⟨text.toList.map String.utf8EncodeChar, rfl, ?_⟩
    intro sequence member
    obtain ⟨c, -, rfl⟩ := List.mem_map.1 member
    exact ⟨c.toNat, proper_utf8EncodeChar c⟩

end PooledBuffers.Utf8
