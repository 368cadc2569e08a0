import PooledBuffers.Proofs.Wire.Reading

/-!
# Reading undoes writing

Items are written by an encoder in either mode and read back by a decoder in either mode. The bytes
between the two are the images of the items one after another, in all four combinations.
-/

namespace PooledBuffers

theorem zipWith_call (items : List Item) :
    List.zipWith Item.call (items.map fun item => item.image.size) items =
      items.map fun item => item.call item.image.size := by
  induction items with
  | nil => rfl
  | cons item rest ih => simp [ih]

/-- An encoder that starts in either mode, on whatever memory or on a sink that cuts its writes
short in any way, takes all items whose parts fit, and leaves their bytes behind. The calls that
go with the counts answered, made on a decoder of these bytes in either mode, however the stream
cuts them up, answer the items again and use up all bytes. -/
theorem answers_undo_puts (start : Encoder.Start) (pool : Pool UInt8) (reachable : pool.Reachable)
    (willing : start.Willing) (items : List Item)
    (narrow : ∀ item ∈ items, item.span ≤ maxSwapWidth)
    (holds : ∀ item ∈ items, start.carrier.Holds item.span)
    (small : start.carrier = .memory → (payload items).size ≤ Size.maxCapacity) :
    ∃ first counts last,
      start.make pool = .ok first ∧
      first.1.putAll first.2 items = (.ok counts, last) ∧
      counts = items.map (fun item => item.image.size) ∧
      last.1.finish last.2 = .ok (start.before ++ payload items) ∧
      ∀ (reading : Decoder.Start) (other : Pool UInt8), other.Reachable →
        reading.Delivers (payload items) → (∀ count ∈ counts, reading.carrier.Holds count) →
        ∃ reader done,
          reading.make (payload items) other = .ok reader ∧
          reader.1.answerAll (List.zipWith Item.call counts items) = (.ok items, done) ∧
          done.consumed = (payload items).size ∧ done.ahead = [] := by
  obtain ⟨encoder, state, made, begun⟩ := start.carries willing reachable.sound
  have room : start.carrier = .memory →
      start.before.size + (payload items).size ≤ Size.maxCapacity := by
    intro h
    rw [Encoder.Start.before_of_memory h, Array.size_empty, Nat.zero_add]
    exact small h
  obtain ⟨next, rest, written, carried⟩ :=
    Encoder.putAll_carries begun items narrow holds room
  refine ⟨(encoder, state), _, (next, rest), made, written, rfl, Encoder.finish_carries carried, ?_⟩
  intro reading other reachable delivers wide
  obtain ⟨decoder, state, opened, reads⟩ := reading.reads delivers reachable.sound
  rw [← List.append_nil (payload items).toList] at reads
  obtain ⟨done, answered, last⟩ :=
    Decoder.answerAll_reads items narrow reads (List.forall_mem_map.1 wide)
  obtain ⟨consumed, ahead⟩ := last.views
  rw [Nat.zero_add] at consumed
  rw [zipWith_call]
  exact ⟨(decoder, state), done, opened, answered, consumed, ahead⟩

/-- A chunk of four bytes, which the sink takes in small parts and a text goes past; read back
through a chunk of eight, from runs that cut the number and the text into parts. -/
theorem answers_undo_puts_cut_up :
    let interrupted : IoFault := ⟨.interrupted, none⟩
    let start : Encoder.Start :=
      .stream { writes := [.accept 1, .fail interrupted, .accept 2], flushes := [.done] } ⟨4⟩
    let items : List Item :=
      [.value .big (0x01020304 : UInt32), .byte 5, .text .utf8 "aé", .bytes #[6, 7, 8, 9, 10],
        .value .little (Binary32.mk 0x7FC00001), .units [0xD800]]
    let reading : Decoder.Start :=
      .stream { replies := [.data [1, 2], .fail interrupted, .data [3, 4, 5, 97, 195],
        .data [169, 6, 7, 8, 9, 10, 1, 0, 192], .data [127, 0, 216]] } ⟨8⟩
    (Pool.standard : Pool UInt8).Reachable ∧ reading.Delivers (payload items) ∧
      ∃ first counts last reader done,
        start.make Pool.standard = .ok first ∧
        first.1.putAll first.2 items = (.ok counts, last) ∧
        reading.make (payload items) Pool.standard = .ok reader ∧
        reader.1.answerAll (List.zipWith Item.call counts items) = (.ok items, done) ∧
        done.ahead = [] := by
  intro interrupted start items reading
  have willing : start.Willing := by
    refine ⟨⟨?_, ?_⟩, by decide, by decide⟩ <;> simp [Stream.WriteReply.Willing, interrupted]
  have delivers : reading.Delivers (payload items) := by
    refine ⟨?_, by decide, by decide⟩
    simp [Stream.Source.Steady, Stream.ReadReply.Steady, interrupted]
  obtain ⟨first, counts, last, made, written, rfl, -, back⟩ :=
    answers_undo_puts start Pool.standard Pool.reachable_standard willing items
      (by decide) (by decide) (fun memory => by cases memory)
  obtain ⟨reader, done, opened, answered, -, ahead⟩ :=
    back reading Pool.standard Pool.reachable_standard delivers (by decide)
  exact ⟨Pool.reachable_standard, delivers, first, _, last, reader, done, made, written, opened,
    answered, ahead⟩

end PooledBuffers
