import PooledBuffers.Proofs.Stream.Steps
import PooledBuffers.Wire.Encoder

/-!
# Whether a sink was asked to hand on what it has

A sink that has accepted bytes owes nothing more once it was asked to hand them on, and did. An
outlet asks for this whenever it sends its chunk, but neither after a run that went past the chunk
nor again after the sink failed to do so; and where the chunk is empty, a flush leaves it at that.

* `Sink.Settled` — every call in which bytes were accepted has a flush that succeeded behind it;
* `Sink.settled_push` — one more call of the sink;
* `Outlet.Flushes.settled_iff` — what a flush that succeeds says of the sink;
* `Outlet.Clear`, `Outlet.Calls.clear` — runs that leave nothing owed behind an empty chunk;
* `Outlet.settled_after_flush` — flushes and the end of an outlet, after any run of calls.
-/

namespace PooledBuffers.Stream

/-- The number of bytes that a sink accepted in a call. -/
def SinkCall.accepted : SinkCall → Nat
  | write _ (.ok count) => count
  | write _ (.error _) => 0
  | flush _ => 0

namespace Sink

/-- A flush of the sink has succeeded since the last byte that it accepted, if it accepted any:
there is one behind every call in which bytes were accepted. -/
def Settled (sink : Sink) : Prop :=
  ∀ before call after, sink.calls.toList = before ++ call :: after → 0 < call.accepted →
    .flush (.ok ()) ∈ after

theorem settled_of_calls_eq_empty {sink : Sink} (fresh : sink.calls = #[]) : sink.Settled := by
  intro before call after parts
  simp [fresh] at parts

/-- One more call settles a sink if it is a flush that succeeds, and unsettles it if bytes are
accepted in it. -/
theorem settled_push {sink rest : Sink} {last : SinkCall}
    (calls_eq : rest.calls = sink.calls.push last) :
    rest.Settled ↔ last = .flush (.ok ()) ∨ (last.accepted = 0 ∧ sink.Settled) := by
  unfold Settled
  rw [calls_eq, Array.toList_push]
  constructor
  · intro settled
    by_cases flushed : last = .flush (.ok ())
    · exact .inl flushed
    refine .inr ⟨?_, fun before call after parts some_bytes => ?_⟩
    · refine Nat.eq_zero_of_not_pos fun some_bytes => ?_
      exact List.not_mem_nil (settled sink.calls.toList last [] rfl some_bytes)
    · have behind := settled before call (after ++ [last]) (by simp [parts]) some_bytes
      simpa [Ne.symm flushed] using behind
  · intro new before call after parts some_bytes
    -- The call with bytes accepted is one of those before, as the new one has none.
    rcases List.eq_nil_or_concat after with rfl | ⟨others, final, rfl⟩
    · obtain ⟨-, same⟩ := List.append_inj' parts rfl
      obtain rfl : last = call := List.head_eq_of_cons_eq same
      rcases new with rfl | ⟨nothing, -⟩
      · exact absurd some_bytes (Nat.lt_irrefl 0)
      · omega
    · rw [List.concat_eq_append, ← List.cons_append, ← List.append_assoc] at parts
      obtain ⟨earlier, same⟩ := List.append_inj' parts rfl
      obtain rfl : last = final := List.head_eq_of_cons_eq same
      rcases new with rfl | ⟨-, settled⟩
      · simp
      · have behind := settled before call others earlier some_bytes
        simp [behind]

variable {sink rest : Sink}

theorem settled_flush (asked : sink.flush = (.ok (), rest)) : rest.Settled := by
  have calls_eq : rest.calls = sink.calls.push (.flush (.ok ())) := by
    unfold flush at asked
    split at asked <;> cases asked <;> rfl
  exact (settled_push calls_eq).mpr (.inl rfl)

theorem reliable_flush (reliable : ∀ reply ∈ sink.flushes, reply = .done)
    {outcome : Except IoFault Unit} (asked : sink.flush = (outcome, rest)) :
    outcome = .ok () ∧ ∀ reply ∈ rest.flushes, reply = .done := by
  unfold flush at asked
  cases flushes : sink.flushes with
  | nil =>
    rw [flushes] at asked reliable
    cases asked
    exact ⟨rfl, reliable⟩
  | cons reply others =>
    rw [flushes] at asked reliable
    obtain rfl := reliable reply List.mem_cons_self
    cases asked
    exact ⟨rfl, fun reply mem => reliable reply (List.mem_cons_of_mem _ mem)⟩

theorem flushes_write {bytes : Array UInt8} {outcome : Except IoFault Nat}
    (written : sink.write bytes = (outcome, rest)) : rest.flushes = sink.flushes := by
  unfold write at written
  rcases replied : next bytes.size sink.writes with ⟨reply, writes⟩
  rw [replied] at written
  cases reply with
  | ok count =>
    cases written
    rfl
  | error fault =>
    cases written
    rfl

theorem flushes_send (sink : Sink) (bytes : Array UInt8) (onZero : IoFault) (sent : Nat) :
    (sink.send bytes onZero sent).2.2.flushes = sink.flushes := by
  fun_induction Sink.send sink bytes onZero sent with
  | case1 sink sent below rest written => exact flushes_write written
  | case2 sink sent below count rest written _ ih => exact ih.trans (flushes_write written)
  | case3 sink sent below fault rest written _ interrupted ih =>
    exact ih.trans (flushes_write written)
  | case4 sink sent below fault rest written _ failed => exact flushes_write written
  | case5 sink sent done => rfl

end Sink

/-! ## Outlets -/

namespace Outlet

variable {outlet next : Outlet} {pool : Pool UInt8} {outcome : Except Error Unit}
variable {action : Action}

/-- A flush that succeeds settles the sink, unless the chunk is empty: then the sink stays as it
was. -/
theorem Flushes.settled_iff (flushes : outlet.Flushes (.ok ()) next) :
    next.sink.Settled ↔ outlet.buffered ≠ 0 ∨ outlet.sink.Settled := by
  cases flushes with
  | idle empty => exact (or_iff_right (not_not_intro empty)).symm
  | sent held offered asked => exact iff_of_true (Sink.settled_flush asked) (.inl held)

/-- Nothing is owed behind an empty chunk, and no flush of the sink will fail. -/
structure Clear (outlet : Outlet) : Prop where
  settled : outlet.buffered = 0 → outlet.sink.Settled
  reliable : ∀ reply ∈ outlet.sink.flushes, reply = .done

theorem Flushes.clear (flushes : outlet.Flushes outcome next) (clear : outlet.Clear) :
    next.Clear := by
  have reliable := clear.reliable
  rw [← outlet.sink.flushes_send outlet.chunk.written nothingAccepted 0] at reliable
  cases flushes with
  | idle empty => exact clear
  | stuck offered less kept sink_eq buffered_eq flushed_eq =>
    -- Something is left in the chunk, so that another flush will come to the sink.
    rw [offered] at reliable
    exact ⟨fun empty => by omega, sink_eq ▸ reliable⟩
  | sent held offered asked =>
    rw [offered] at reliable
    exact ⟨fun _ => Sink.settled_flush asked, (Sink.reliable_flush reliable asked).2⟩
  | taken held offered asked =>
    rw [offered] at reliable
    cases (Sink.reliable_flush reliable asked).1

theorem MakesRoom.clear {addition : Nat} (room : outlet.MakesRoom addition outcome next)
    (clear : outlet.Clear) : next.Clear := by
  cases room with
  | fits enough => exact clear
  | flushed full flushes => exact flushes.clear clear

/-- A call owes nothing behind an empty chunk, unless it takes its bytes past the chunk. -/
theorem Calls.clear (calls : outlet.Calls action outcome next) (clear : outlet.Clear)
    (short : ∀ run, action = .write run → run.size ≤ outlet.chunkSize) : next.Clear := by
  cases calls with
  | flushed flushes => exact flushes.clear clear
  | noRoom room => exact room.clear clear
  | @gathered _ middle room inside =>
    have before := room.clear clear
    refine ⟨fun empty => before.settled ?_, before.reliable⟩
    have nothing : middle.buffered + action.payload.size = 0 := empty
    omega
  | bypassed room empty long sent =>
    have fits := short _ rfl
    have same := room.chunkSize_eq
    omega
  | refused room empty long => exact room.clear clear

/-- An outlet is closed without a failure if its flush succeeds, and gives back the sink as that
leaves it. -/
theorem flush_of_close {sink : Sink} {rest : Pool UInt8}
    (closed : outlet.close pool = (.ok (), sink, rest)) :
    ∃ next left, outlet.flush pool = (.ok (), next, left) ∧ next.sink = sink := by
  unfold close at closed
  rcases flushed : outlet.flush pool with ⟨outcome, next, left⟩
  rw [flushed] at closed
  cases outcome with
  | ok =>
    cases closed
    exact ⟨next, left, rfl, rfl⟩
  | error e => cases closed

/-- After any run of calls, and whatever the sink does, a flush that succeeds leaves an empty chunk,
and so does the flush of an encoder on the outlet. It leaves a settled sink if there was something
in the chunk or the sink was settled before, and not otherwise; the same holds of the sink that an
outlet gives back when it is closed. One or the other is the case if no run was longer than the
chunk and no flush of the sink fails. -/
theorem settled_after_flush (writes : List WriteReply) (flushes : List FlushReply)
    {config : Config} {pool : Pool UInt8} (positive : 1 ≤ config.chunkSize)
    (small : config.chunkSize ≤ Size.maxCapacity) (reachable : pool.Reachable)
    (actions : List Action) :
    ∃ first, ofConfig { writes, flushes } config pool = .ok first ∧
      let last := run first actions
      let settles := last.1.buffered ≠ 0 ∨ last.1.sink.Settled
      (∀ next rest, last.1.flush last.2 = (.ok (), next, rest) →
        next.buffered = 0 ∧ (next.sink.Settled ↔ settles)) ∧
      (∀ encoder rest, (Encoder.stream last.1).flush last.2 = (.ok (), encoder, rest) →
        ∃ next, encoder = .stream next ∧ next.buffered = 0 ∧ (next.sink.Settled ↔ settles)) ∧
      (∀ sink rest, last.1.close last.2 = (.ok (), sink, rest) → (sink.Settled ↔ settles)) ∧
      ((∀ run, .write run ∈ actions → run.size ≤ config.chunkSize) →
        (∀ reply ∈ flushes, reply = .done) → settles) := by
  obtain ⟨first, pool, made, start, same, chunkSize, nothing⟩ :=
    sound_ofConfig { writes, flushes } positive small reachable.sound
  have positive : 1 ≤ first.chunkSize := chunkSize ▸ positive
  obtain ⟨last, performed, after⟩ := carried_run actions start positive
  refine ⟨(first, pool), made, ?_⟩
  intro state settles
  have ends : state = (last, pool) := performed
  have flush (next : Outlet) (rest : Pool UInt8)
      (flushed : state.1.flush state.2 = (.ok (), next, rest)) :
      next.buffered = 0 ∧ (next.sink.Settled ↔ settles) := by
    have sound : state.1.Sound state.2 := ends ▸ after.sound
    have ways := flushes_of_flush sound flushed
    exact ⟨ways.empty, ways.settled_iff⟩
  refine ⟨flush, fun encoder rest flushed => ?_, fun sink rest closed => ?_, fun short done => ?_⟩
  · rcases result : state.1.flush state.2 with ⟨outcome, next, left⟩
    unfold Encoder.flush at flushed
    simp only [result] at flushed
    cases flushed
    exact ⟨next, rfl, flush next rest result⟩
  · obtain ⟨next, left, flushed, rfl⟩ := flush_of_close closed
    exact (flush next left flushed).2
  · have fresh : first.Clear := by
      refine ⟨fun _ => ?_, ?_⟩
      · rw [same]
        exact Sink.settled_of_calls_eq_empty rfl
      · rw [same]
        exact done
    have clear : state.1.Clear := by
      refine invariant_run positive actions (fun mem size calls clear => ?_) start rfl fresh
      refine calls.clear clear fun run same => ?_
      rw [size, chunkSize]
      exact short run (same ▸ mem)
    by_cases empty : state.1.buffered = 0
    · exact .inr (clear.settled empty)
    · exact .inl empty

/-- A span of which the sink takes one byte before it fails; the other one and a third go with the
next flushes, the last of which settles the sink. -/
theorem settled_after_flush_retried :
    let writes : List WriteReply := [.accept 1, .fail ⟨.brokenPipe, none⟩]
    let actions := [.span #[1, 2], .flush, .add 3]
    (Pool.standard : Pool UInt8).Reachable ∧
      ∃ first, ofConfig { writes, flushes := [.done] } ⟨2⟩ Pool.standard = .ok first ∧
        let last := run first actions
        ∃ next rest, last.1.flush last.2 = (.ok (), next, rest) ∧ next.sink.Settled := by
  intro writes actions
  obtain ⟨first, made, flush, -, -, settles⟩ := settled_after_flush writes [.done]
    (by decide : 1 ≤ (Config.mk 2).chunkSize) (by decide) Pool.reachable_standard actions
  refine ⟨Pool.reachable_standard, first, made, ?_⟩
  have owed := settles (by simp [actions]) (by simp)
  cases made
  intro last
  have succeeds : (last.1.flush last.2).1.isOk = true := by decide +kernel
  rcases flushed : last.1.flush last.2 with ⟨outcome, next, rest⟩
  rw [flushed] at succeeds
  cases outcome with
  | ok => exact ⟨next, rest, rfl, (flush next rest flushed).2.mpr owed⟩
  | error e => cases succeeds

/-- A flush succeeds though the sink was not asked to hand on three bytes that went past the chunk,
and so does one behind a flush in which the sink failed to hand on a byte. -/
theorem unsettled_after_flush :
    (∃ first, ofConfig { writes := [], flushes := [] } ⟨2⟩ Pool.standard = .ok first ∧
      let last := run first [.write #[1, 2, 3]]
      (last.1.flush last.2).1 = .ok () ∧ ¬ (last.1.flush last.2).2.1.sink.Settled) ∧
    ∃ first, ofConfig { writes := [], flushes := [.fail ⟨.other, none⟩] } ⟨2⟩ Pool.standard =
        .ok first ∧
      let last := run first [.add 1, .flush]
      (last.1.flush last.2).1 = .ok () ∧ ¬ (last.1.flush last.2).2.1.sink.Settled := by
  refine ⟨⟨_, rfl, ?_⟩, ⟨_, rfl, ?_⟩⟩
  · intro last
    refine ⟨by with_unfolding_all rfl, fun settled => ?_⟩
    have calls : (last.1.flush last.2).2.1.sink.calls.toList = [.write 3 (.ok 3)] := by
      with_unfolding_all rfl
    simpa using settled [] _ _ calls (by decide)
  · intro last
    refine ⟨by with_unfolding_all rfl, fun settled => ?_⟩
    have calls : (last.1.flush last.2).2.1.sink.calls.toList =
        [.write 1 (.ok 1), .flush (.error .other)] := by
      with_unfolding_all rfl
    simpa using settled [] _ _ calls (by decide)

end Outlet

end PooledBuffers.Stream
