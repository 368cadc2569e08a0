import PooledBuffers.Proofs.Stream.Delivery
import PooledBuffers.Proofs.Wire.Writing

/-!
# What a decoder answers

A decoder that has the bytes of an item in front of it answers the item and steps over these bytes,
and it does not matter whether they lie in memory or come out of a stream bit by bit.

* `Decoder.Reads` — what a decoder has in front of it, and how much is behind it;
* `Decoder.bytes_cut`, `Decoder.byte_cut` — what it hands out, or that there is too little;
* `Decoder.answer_reads` — the inverse law of each kind of item;
* `Decoder.answerAll_reads` — items one after another.
-/

namespace PooledBuffers

open PooledBuffers.Stream (Inlet Source cut cutByte)

/-- Where bytes on a carrier run out. -/
def Carrier.medium : Carrier → Medium
  | memory => .buffer
  | stream _ => .stream

namespace Decoder

/-- The number of bytes handed out. -/
def consumed : Decoder → Nat
  | memory _ position => position
  | stream inlet => inlet.consumed

/-- The bytes that are not handed out: the rest of the memory, or what the chunk holds and the
source will still deliver. -/
def ahead : Decoder → List UInt8
  | memory data position => data.toList.drop position
  | stream inlet => inlet.ahead

/-- The decoder has handed out `consumed` bytes and has `ahead` in front of it, and nothing but the
length of its chunk can make a read within these bytes fail. -/
inductive Reads : Carrier → Decoder → Nat → List UInt8 → Prop
  | memory {data : Array UInt8} {position : Nat} {ahead : List UInt8}
      (ahead_eq : data.toList.drop position = ahead) :
      Reads .memory (.memory data position) position ahead
  | stream {inlet : Inlet} {chunkSize consumed : Nat} {ahead : List UInt8}
      (sound : inlet.Sound) (complete : inlet.source.Complete)
      (chunkSize_eq : inlet.chunkSize = chunkSize) (consumed_eq : inlet.consumed = consumed)
      (ahead_eq : inlet.ahead = ahead) :
      Reads (.stream chunkSize) (.stream inlet) consumed ahead

theorem Reads.views {carrier : Carrier} {decoder : Decoder} {count : Nat} {bytes : List UInt8}
    (reads : Reads carrier decoder count bytes) :
    decoder.consumed = count ∧ decoder.ahead = bytes := by
  cases reads with
  | memory ahead_eq => exact ⟨rfl, ahead_eq⟩
  | stream sound complete chunkSize_eq consumed_eq ahead_eq => exact ⟨consumed_eq, ahead_eq⟩

section Calls

variable {carrier : Carrier} {decoder : Decoder} {consumed : Nat} {ahead rest : List UInt8}

/-! ## Bytes -/

theorem Reads.ofLeaves {inlet next : Inlet} {chunkSize : Nat}
    (chunkSize_eq : inlet.chunkSize = chunkSize) (leaves : inlet.Leaves rest next) :
    Reads (.stream chunkSize) (.stream next) next.consumed rest :=
  .stream leaves.sound leaves.complete (leaves.chunkSize_eq.trans chunkSize_eq) rfl leaves.ahead_eq

/-- A decoder hands out the bytes in front of it if they are enough, and nothing otherwise. -/
theorem bytes_cut (reads : Reads carrier decoder consumed ahead) {count : Nat}
    (holds : carrier.Holds count) :
    ∃ next now, decoder.bytes count = ((cut carrier.medium count ahead).1, next) ∧
      Reads carrier next now (cut carrier.medium count ahead).2 ∧
      now + (cut carrier.medium count ahead).2.length = consumed + ahead.length := by
  cases reads with
  | @memory data _ _ ahead_eq =>
    have length : ahead.length = data.size - consumed := by
      rw [← ahead_eq, List.length_drop, Array.length_toList]
    show ∃ next now, (if data.size - consumed < count then _ else _) =
      ((cut .buffer count ahead).1, next) ∧ Reads .memory next now (cut .buffer count ahead).2 ∧
        now + (cut .buffer count ahead).2.length = _
    unfold cut
    by_cases enough : count ≤ ahead.length
    · have handed : data.extract consumed (consumed + count) = (ahead.take count).toArray := by
        rw [← ahead_eq]
        apply Array.ext'
        simp [List.extract_eq_take_drop]
      rw [if_pos enough, if_neg (by omega), handed]
      refine ⟨_, consumed + count, rfl, .memory ?_, ?_⟩
      · rw [← List.drop_drop, ahead_eq]
      · rw [List.length_drop]
        omega
    · rw [if_neg enough, if_pos (by omega), length]
      exact ⟨_, consumed, rfl, .memory ahead_eq, rfl⟩
  | @stream inlet chunkSize _ _ sound complete chunkSize_eq consumed_eq ahead_eq =>
    obtain ⟨next, taken, leaves⟩ := Inlet.take_complete sound complete (chunkSize_eq ▸ holds)
    have count_eq := leaves.consumed_eq
    rw [ahead_eq] at taken leaves count_eq
    rw [consumed_eq] at count_eq
    refine ⟨.stream next, next.consumed, ?_, .ofLeaves chunkSize_eq leaves, count_eq⟩
    unfold Decoder.bytes
    simp only [taken]
    rfl

theorem byte_cut (reads : Reads carrier decoder consumed ahead) (holds : carrier.Holds 1) :
    ∃ next now, decoder.byte = ((cutByte carrier.medium ahead).1, next) ∧
      Reads carrier next now (cutByte carrier.medium ahead).2 ∧
      now + (cutByte carrier.medium ahead).2.length = consumed + ahead.length := by
  cases reads with
  | @memory data _ _ ahead_eq =>
    have here : data[consumed]? = ahead[0]? := by
      rw [← Array.getElem?_toList, ← Nat.add_zero consumed, ← List.getElem?_drop, ahead_eq]
    unfold Decoder.byte
    cases ahead with
    | nil =>
      simp only [here, List.getElem?_nil]
      exact ⟨_, consumed, rfl, .memory ahead_eq, rfl⟩
    | cons byte rest =>
      simp only [here, List.getElem?_cons_zero]
      refine ⟨_, consumed + 1, rfl, .memory ?_, ?_⟩
      · rw [← List.drop_drop, ahead_eq]
        rfl
      · show consumed + 1 + rest.length = _
        rw [List.length_cons]
        omega
  | @stream inlet chunkSize _ _ sound complete chunkSize_eq consumed_eq ahead_eq =>
    obtain ⟨next, taken, leaves⟩ := Inlet.takeByte_complete sound complete (chunkSize_eq ▸ holds)
    have count_eq := leaves.consumed_eq
    rw [ahead_eq] at taken leaves count_eq
    rw [consumed_eq] at count_eq
    refine ⟨.stream next, next.consumed, ?_, .ofLeaves chunkSize_eq leaves, count_eq⟩
    unfold Decoder.byte
    simp only [taken]
    rfl

/-- Bytes that come next are handed out. -/
theorem bytes_reads (run : Array UInt8)
    (reads : Reads carrier decoder consumed (run.toList ++ rest)) (holds : carrier.Holds run.size) :
    ∃ next, decoder.bytes run.size = (.ok run, next) ∧
      Reads carrier next (consumed + run.size) rest := by
  have length : (run.toList ++ rest).length = run.size + rest.length := by
    rw [List.length_append, Array.length_toList]
  have found : cut carrier.medium run.size (run.toList ++ rest) = (.ok run, rest) := by
    rw [cut, if_pos (length ▸ Nat.le_add_right _ _), List.take_left' Array.length_toList,
      List.drop_left' Array.length_toList, Array.toArray_toList]
  obtain ⟨next, now, taken, after, count⟩ := bytes_cut reads holds
  rw [found] at taken after count
  rw [length] at count
  obtain rfl : now = consumed + run.size := by
    have same : now + rest.length = consumed + (run.size + rest.length) := count
    omega
  exact ⟨next, taken, after⟩

theorem byte_reads {value : UInt8} (reads : Reads carrier decoder consumed (value :: rest))
    (holds : carrier.Holds 1) :
    ∃ next, decoder.byte = (.ok value, next) ∧ Reads carrier next (consumed + 1) rest := by
  obtain ⟨next, now, taken, after, count⟩ := byte_cut reads holds
  obtain rfl : now = consumed + 1 := by
    have same : now + rest.length = consumed + (rest.length + 1) := count
    omega
  exact ⟨next, taken, after⟩

/-! ## Items -/

/-- Bytes that are taken and decoded. -/
theorem decodeNext_reads {β : Type} {decode : Array UInt8 → Except Error β} {run : Array UInt8}
    {result : β} (decoded : decode run = .ok result)
    (reads : Reads carrier decoder consumed (run.toList ++ rest)) (holds : carrier.Holds run.size) :
    ∃ next, decoder.decodeNext run.size decode = (.ok result, next) ∧
      Reads carrier next (consumed + run.size) rest := by
  obtain ⟨next, taken, after⟩ := bytes_reads run reads holds
  refine ⟨next, ?_, after⟩
  unfold decodeNext
  simp only [taken, decoded]

theorem value_reads {τ : Type} [Layout τ] [LawfulLayout τ] (order : ByteOrder) (content : τ)
    (narrow : Layout.width τ ≤ maxSwapWidth)
    (reads : Reads carrier decoder consumed ((Layout.bytes order content).toList ++ rest))
    (holds : carrier.Holds (Layout.bytes order content).size) :
    ∃ next, decoder.value τ order = (.ok content, next) ∧
      Reads carrier next (consumed + (Layout.bytes order content).size) rest := by
  have width : (Layout.bytes order content).size = Layout.width τ := Layout.size_bytes order content
  have checked := Layout.checkOrder_eq_ok order narrow
  have decoded : Layout.read order (Layout.bytes order content) = .ok content := by
    unfold Layout.read Layout.checkLength
    rw [checked, if_neg (by omega), Layout.ofBytes_bytes]
    rfl
  obtain ⟨next, taken, after⟩ := decodeNext_reads decoded reads holds
  rw [width] at taken
  refine ⟨next, ?_, after⟩
  unfold Decoder.value
  simp only [checked]
  exact taken

/-- Code units come in pairs of bytes, so that the count is never refused. -/
theorem units_reads (content : List UInt16)
    (reads : Reads carrier decoder consumed ((bytesOfUnits .little content).toList ++ rest))
    (holds : carrier.Holds (bytesOfUnits .little content).size) :
    ∃ view next, decoder.units (bytesOfUnits .little content).size = (.ok view, next) ∧
      view.units = content ∧
      Reads carrier next (consumed + (bytesOfUnits .little content).size) rest := by
  have even : (bytesOfUnits .little content).size % 2 = 0 := by
    rw [size_bytesOfUnits]
    omega
  have checked : Utf16View.checkEven (bytesOfUnits .little content).size = .ok () := if_pos even
  have decoded : Utf16View.ofBytes (bytesOfUnits .little content) = .ok ⟨_, even⟩ := dif_pos even
  obtain ⟨next, taken, after⟩ := decodeNext_reads decoded reads holds
  refine ⟨⟨_, even⟩, next, ?_, unitsOfBytes_bytesOfUnits .little content, after⟩
  unfold Decoder.units
  simp only [checked]
  exact taken

/-- An item is answered by its call when its bytes come next, and they are used up. -/
theorem answer_reads (item : Item) (narrow : item.span ≤ maxSwapWidth)
    (reads : Reads carrier decoder consumed (item.image.toList ++ rest))
    (holds : carrier.Holds item.image.size) :
    ∃ next, decoder.answer (item.call item.image.size) = (.ok item, next) ∧
      Reads carrier next (consumed + item.image.size) rest := by
  cases item with
  | value order content =>
    obtain ⟨next, taken, after⟩ := value_reads order content narrow reads holds
    refine ⟨next, ?_, after⟩
    unfold answer Item.call
    simp only [taken]
    rfl
  | byte content =>
    obtain ⟨next, taken, after⟩ := byte_reads reads holds
    refine ⟨next, ?_, after⟩
    unfold answer Item.call
    simp only [taken]
    rfl
  | bytes run =>
    obtain ⟨next, taken, after⟩ := bytes_reads run reads holds
    refine ⟨next, ?_, after⟩
    unfold answer Item.call Item.image
    simp only [taken]
    rfl
  | text encoding content =>
    obtain ⟨next, taken, after⟩ :=
      decodeNext_reads (encoding.decode_encoded content) reads holds
    refine ⟨next, ?_, after⟩
    unfold answer Decoder.text Item.call Item.image
    simp only [taken]
    rfl
  | units content =>
    obtain ⟨view, next, taken, same, after⟩ := units_reads content reads holds
    refine ⟨next, ?_, after⟩
    unfold answer Item.call Item.image
    simp only [taken]
    exact congrArg (fun units => (Except.ok (Item.units units), next)) same

theorem answerAll_reads (items : List Item) (narrow : ∀ item ∈ items, item.span ≤ maxSwapWidth)
    (reads : Reads carrier decoder consumed ((payload items).toList ++ rest))
    (holds : ∀ item ∈ items, carrier.Holds item.image.size) :
    ∃ next, decoder.answerAll (items.map fun item => item.call item.image.size) =
        (.ok items, next) ∧
      Reads carrier next (consumed + (payload items).size) rest := by
  induction items generalizing decoder consumed with
  | nil => exact ⟨decoder, rfl, reads⟩
  | cons item others ih =>
    rw [List.forall_mem_cons] at narrow holds
    rw [payload_cons, Array.toList_append, List.append_assoc] at reads
    obtain ⟨middle, first, after⟩ := answer_reads item narrow.1 reads holds.1
    obtain ⟨next, second, last⟩ := ih narrow.2 after holds.2
    refine ⟨next, ?_, ?_⟩
    · rw [List.map_cons, answerAll, first]
      simp only [second]
      rfl
    · rw [payload_cons, Array.size_append, ← Nat.add_assoc]
      exact last

end Calls

/-! ## Starts -/

/-- Where a decoder starts. -/
inductive Start where
  | memory
  | stream (source : Source) (config : Stream.Config)

namespace Start

/-- A decoder of `data`, which a stream delivers by itself. -/
def make (data : Array UInt8) (pool : Pool UInt8) : Start → Except Error (Decoder × Pool UInt8)
  | memory => .ok (ofMemory data, pool)
  | stream source config => ofStream source config pool

def carrier : Start → Carrier
  | memory => .memory
  | stream _ config => .stream config.chunkSize

/-- A stream delivers the data, cut up in any way. -/
def Delivers (data : Array UInt8) : Start → Prop
  | memory => True
  | stream source config =>
    source.Steady ∧ source.pending = data.toList ∧ 1 ≤ config.chunkSize

theorem reads (start : Start) {data : Array UInt8} (delivers : start.Delivers data)
    {pool : Pool UInt8} (sound : pool.Sound) :
    ∃ first rest, start.make data pool = .ok (first, rest) ∧
      Reads start.carrier first 0 data.toList := by
  cases start with
  | memory => exact ⟨_, _, rfl, .memory rfl⟩
  | stream source config =>
    obtain ⟨steady, pending, positive⟩ := delivers
    obtain ⟨inlet, rest, made, good, same, chunkSize, ahead, none⟩ :=
      Inlet.sound_ofConfig source positive sound
    refine ⟨.stream inlet, rest, ?_,
      .stream good (same ▸ steady.complete) chunkSize none (ahead.trans pending)⟩
    unfold make ofStream
    simp only [made]
    rfl

end Start

end Decoder

end PooledBuffers
