import Fusecraft.Engine.Sequential

namespace Fusecraft

open Transition

/-!
# The contract of `run_op`

Every returned call has run its body at most once, as its admission and its
fault say, and has left exactly one event and one sample; when all calls have
returned, the log is dense in sequence numbers, the summary agrees with it and
every slot is free.  The 64-bit counter bounds the first part of this: past
`2^64` calls the numbers repeat.
-/

namespace EngineState

variable {F Call T : Type} [F64 F] [Fintype Call] [DecidableEq Call]
variable {engine : SimEngine F} {lib : SamplerLib F} {load : Workload Call T} {created : Nat}
variable {state : EngineState F Call T}

/-- One op, one event, one sample, one slot. -/
theorem op_bookkeeping (valueAtPercentile : List UInt64 -> Nat -> UInt64)
    (reached : (engine.system lib load created).Reachable state) :
    (forall call seq served result, state.progress call = .returned seq served result ->
      state.bodyRuns call =
          (if ((state.limiters (load.ctx call).op).phase call).isDropped = true ∧
              sampleFault lib (engine.choice (load.ctx call)).faults
                (engine.sampleKey (load.ctx call) seq) = none then 1 else 0) ∧
        exists event, state.entriesOf call = [(call, event)] ∧
          event.seq = seq ∧ event.op = (load.ctx call).op ∧ event.ino = (load.ctx call).ino ∧
          event.offset = (load.ctx call).offset ∧ event.len = (load.ctx call).len ∧
          match result with
          | .ok _ => event.outcome = .ok ∧ event.errno = none
          | .error err => event.outcome = .error ∧ event.errno = some err.asErrno) ∧
    (state.issued.length ≤ 2 ^ 64 -> (state.events.map (fun entry => entry.2.seq)).Nodup) ∧
    (state.Finished ->
      (state.events.map (fun entry => entry.2.seq)).Perm
          ((List.range (Fintype.card Call)).map UInt64.ofNat) ∧
        (forall op, state.eventsOf op < 2 ^ 64 ->
          match (state.metrics.summary valueAtPercentile).find? (fun entry => entry.op = op) with
          | some entry => entry.count.toNat = state.eventsOf op ∧
              entry.errors.toNat = state.eventCount op .error
          | none => state.eventsOf op = 0) ∧
        forall op, (state.limiters op).state.inflight = 0 ∧
          (state.limiters op).state.queued = 0) := by
  have numbered := numbered_of_reachable reached
  have logged := logged_of_reachable reached
  refine ⟨fun call seq served result ended => ?_, logged.nodup_seq numbered, fun finished =>
    ⟨?_, finished.summary (booked_of_reachable reached) valueAtPercentile, fun op => ?_⟩⟩
  · rcases returned_spec reached ended with ⟨ran, event, entries, describes⟩
    rcases describes with ⟨ownSeq, ownOp, ino, offset, len, outcome, errno, -⟩
    refine ⟨ran, event, entries, ownSeq, ownOp, ino, offset, len, ?_⟩
    cases result with
    | ok value => exact ⟨outcome, errno⟩
    | error err => exact ⟨outcome, errno⟩
  · rw [logged.map_seq numbered, ← finished.length_issued numbered, ← numbered.map_number]
    exact (finished.perm_issued logged numbered).map _
  · exact (SimEngine.limiter_counted reached op).free (fun call =>
      (slotted_of_reachable reached).released (finished.atRest call) op)

/-- Two reads that overlap at a limiter with one slot and no queue: the one that
took the first number is refused, the other is served. -/
def overlapping : List (EngineLabel (Fin 2)) :=
  [.start 0 0, .start 1 0, .fetchAdd 1, .fetchAdd 0, .acquire 0 0, .acquire 1 0, .emit 1 10 10,
    .sample 0, .reserve 0 3, .slept 0 10, .execute 0, .emit 0 10 10, .record 1, .record 0,
    .drop 0 none]

theorem op_bookkeeping_overlapping :
    exists state : EngineState Rat (Fin 2) Unit,
      ((SimEngine.steady 1).system .silent (.reads (Fin 2)) 0).run
        ((SimEngine.steady 1).initial 0) overlapping = some state ∧
      state.bodyRuns 0 = 1 ∧ state.bodyRuns 1 = 0 ∧
      (state.events.map (fun entry => entry.2.seq)).Perm [0, 1] ∧
      (forall op, (state.limiters op).state.inflight = 0 ∧
        (state.limiters op).state.queued = 0) := by
  have completes : (((SimEngine.steady 1).system .silent (.reads (Fin 2)) 0).run
      ((SimEngine.steady 1).initial 0) overlapping).any (fun state =>
        ((state.progress 0).isReturned && (state.progress 1).isReturned) &&
          (((state.limiters .read).phase 0).isDropped &&
            !((state.limiters .read).phase 1).isDropped)) = true := by
    decide +kernel
  rcases Option.any_eq_true _ _ |>.mp completes with ⟨state, runs, holds⟩
  simp only [Bool.and_eq_true, Bool.not_eq_true'] at holds
  rcases holds with ⟨⟨first, second⟩, served, refused⟩
  have finished : state.Finished := by
    intro call
    match call with
    | 0 => exact first
    | 1 => exact second
  rcases op_bookkeeping (fun _ _ => 0) (System.reachable_of_run runs) with ⟨calls, -, ended⟩
  rcases finished.returned 0 with ⟨_, _, _, returned⟩
  rcases finished.returned 1 with ⟨_, _, _, returned'⟩
  rcases ended finished with ⟨dense, -, free⟩
  refine ⟨state, runs, ?_, ?_, ?_, free⟩
  · exact (calls 0 _ _ _ returned).1.trans (if_pos ⟨served, rfl⟩)
  · exact (calls 1 _ _ _ returned').1.trans (if_neg (fun admitted =>
      Bool.false_ne_true (refused.symm.trans admitted.1)))
  · rw [Fintype.card_fin] at dense
    exact dense

/-- The numbers of more than `2^64` calls are not distinct. -/
theorem seqs_repeat :
    exists state : EngineState Rat (Fin (2 ^ 64 + 1)) Unit,
      ((SimEngine.steady 1).system .silent (.reads (Fin (2 ^ 64 + 1))) 0).Reachable state ∧
      state.Finished ∧ ¬ (state.events.map (fun entry => entry.2.seq)).Nodup := by
  have accepted : (Config.reading (OpPolicy.steady 1)).validate = .ok () := by
    decide +kernel
  rcases SimEngine.exists_steady_run (Fin (2 ^ 64 + 1)) 0 accepted with ⟨state, reached, finished⟩
  have numbered := numbered_of_reachable reached
  have dense : (state.events.map (fun entry => entry.2.seq)).Perm
      ((List.range (2 ^ 64 + 1)).map UInt64.ofNat) := by
    have perm := (finished.perm_issued (logged_of_reachable reached) numbered).map state.number
    rw [← (logged_of_reachable reached).map_seq numbered, numbered.map_number,
      finished.length_issued numbered, Fintype.card_fin] at perm
    exact perm
  refine ⟨state, reached.reachable, finished, fun nodup => ?_⟩
  have injective := List.inj_on_of_nodup_map (dense.nodup_iff.mp nodup)
  have same : (0 : Nat) = 2 ^ 64 := injective (List.mem_range.mpr (by omega))
    (List.mem_range.mpr (by omega)) rfl
  omega

end EngineState

end Fusecraft
