import Fusecraft.Engine.Ledger

namespace Fusecraft

open Transition

/-!
# Runs that complete a call

A call that sleeps with its slot can be run to its return, whatever the other
calls are doing, and so can a new call that finds a free slot and a delay that
does not overflow.  The runs are explicit lists of labels; only the sleeper to
be notified when the slot is returned depends on the state.
-/

namespace LimiterSystem

variable {Call : Type} [Fintype Call] [DecidableEq Call]
variable {limiter : BlockingLimiter} {system : LimiterSystem Call}

/-- A guard can always be dropped: one sleeper is notified if there is one. -/
theorem Counted.exists_drop (counted : system.Counted limiter) {call : Call}
    (holds : (system.phase call).isHolding = true) :
    exists notifies next, system.step limiter (.drop call notifies) = some next := by
  have positive := counted.inflight_pos call holds
  rcases Nat.exists_eq_add_one_of_ne_zero (Nat.ne_of_gt positive) with ⟨left, inflight⟩
  cases phase : system.phase call with
  | holding queueWait =>
      by_cases nobody : forall other, (system.phase other).isParked = false
      · refine ⟨none, Option.isSome_iff_exists.mp ?_⟩
        simp only [step, phase, dropGuard, LimiterState.release, inflight, decrement,
          Option.bind_eq_bind, Option.bind_some, if_pos nobody]
        rfl
      · rw [not_forall] at nobody
        rcases nobody with ⟨other, parked⟩
        cases target : system.phase other with
        | parked waiter =>
            refine ⟨some other, Option.isSome_iff_exists.mp ?_⟩
            simp only [step, phase, dropGuard, LimiterState.release, inflight, decrement,
              Option.bind_eq_bind, Option.bind_some, target]
            rfl
        | _ => rw [target] at parked; exact absurd rfl parked
  | _ => rw [phase] at holds; cases holds

/-- A new call that finds a free slot takes it at once. -/
theorem step_acquire_free {call : Call} {now : Nat} (idle : system.phase call = .idle)
    (free : system.state.inflight < limiter.cap) :
    system.step limiter (.acquire call now) =
      some { system with
        state := system.state.takeSlot
        phase := Function.update system.phase call (.holding 0) } := by
  have positive : limiter.cap ≠ 0 := by omega
  simp only [step, idle, BlockingLimiter.acquire, BlockingLimiter.enter, if_neg positive,
    if_pos free]
  rfl

end LimiterSystem

namespace SimEngine

variable {F Call T : Type} [F64 F] [Fintype Call] [DecidableEq Call]
variable {engine : SimEngine F} {lib : SamplerLib F} {load : Workload Call T} {created : Nat}
variable {state : EngineState F Call T}
  {allowed : EngineState F Call T -> EngineLabel Call -> Prop}

/-- The labels that take a sleeping call to its return. -/
def finishing (call : Call) (now unixNanos : Nat) (notifies : Option Call) :
    List (EngineLabel Call) :=
  [.slept call now, .execute call, .emit call now unixNanos, .record call, .drop call notifies]

/-- A sleeping call wakes up, emits its event, records its metric and returns
what its body or its fault says. -/
theorem exists_finishing (reached : (engine.system lib load created).ReachableBy allowed state)
    {call : Call} {start : Nat} {seq : UInt64} {served : Served} {delay sleepFor : Duration}
    {since : Nat} (asleep : state.progress call = .sleeping start seq served delay sleepFor since)
    (now unixNanos : Nat) :
    exists notifies finish,
      (engine.system lib load created).run state (finishing call now unixNanos notifies) =
        some finish ∧
      finish.progress = Function.update state.progress call
        (.returned seq (some served) (reply served (load.body call))) ∧
      finish.issued = state.issued ∧
      finish.events = state.events ++ [(call, event (load.ctx call) seq (some served) delay
        (reply served (load.body call)) (elapsedUs start now) unixNanos)] ∧
      finish.metrics = state.metrics.record (load.ctx call).op (elapsedUs start now)
        ((classify (reply served (load.body call))).1 = .error) := by
  have slot := (EngineState.slotted_of_reachable reached).own call
  rw [asleep] at slot
  rcases (limiter_counted reached (load.ctx call).op).exists_drop slot with
    ⟨notifies, limiter, drops⟩
  let ready := state.setProgress call (.ready start seq served delay)
  let result := reply served (load.body call)
  let executed : EngineState F Call T :=
    { ready.setProgress call (.executed start seq served delay result) with
      bodyRuns := Function.update ready.bodyRuns call
        (ready.bodyRuns call + if served.fault.isNone then 1 else 0) }
  let emitted : EngineState F Call T :=
    { executed.setProgress call (.emitted seq (some served) result (elapsedUs start now)) with
      events := executed.events ++ [(call, event (load.ctx call) seq (some served) delay result
        (elapsedUs start now) unixNanos)] }
  let recorded : EngineState F Call T :=
    { emitted.setProgress call (.recorded seq served result) with
      metrics := emitted.metrics.record (load.ctx call).op (elapsedUs start now)
        ((classify result).1 = .error) }
  let returned := (recorded.setLimiter (load.ctx call).op limiter).setProgress call
    (.returned seq (some served) result)
  have wakes : engine.step lib load state (.slept call now) = some ready := by
    simp only [step, asleep]
    rfl
  have runs : engine.step lib load ready (.execute call) = some executed := by
    simp only [step, ready, EngineState.setProgress, Function.update_self]
    rfl
  have emits : engine.step lib load executed (.emit call now unixNanos) = some emitted := by
    simp only [step, executed, EngineState.setProgress, Function.update_self]
    rfl
  have records : engine.step lib load emitted (.record call) = some recorded := by
    simp only [step, emitted, EngineState.setProgress, Function.update_self]
    rfl
  have returns : engine.step lib load recorded (.drop call notifies) =
      some returned := by
    have progress : recorded.progress call = .recorded seq served result :=
      Function.update_self ..
    have own : (recorded.limiters (load.ctx call).op).step
        (engine.resources (load.ctx call).op).limiter (.drop call notifies) = some limiter := drops
    simp only [step, progress, limiterStep, own]
    rfl
  refine ⟨notifies, returned, ?_, ?_, rfl, rfl, rfl⟩
  · simp only [finishing, System.run_cons, System.run_nil, system, wakes, runs, emits, records,
      returns, Option.bind_some]
  · simp only [returned, EngineState.setProgress, EngineState.setLimiter, recorded, emitted,
      executed, ready, Function.update_idem]
    rfl

/-- The labels that take a new call through its draw, after its first one. -/
def drawing (call : Call) (now : Nat) : List (EngineLabel Call) :=
  [.fetchAdd call, .acquire call now, .sample call]

variable (engine lib created) in
/-- A new call that finds a free slot takes the next sequence number and draws. -/
theorem exists_drawing (slotted : state.Slotted load) {call : Call}
    (fresh : state.progress call = .idle)
    (free : (state.limiters (load.ctx call).op).state.inflight <
      (engine.resources (load.ctx call).op).limiter.cap) (now : Nat) :
    exists next, (engine.system lib load created).run state (.start call now :: drawing call now) =
        some next ∧
      next.progress = Function.update state.progress call
        (.sampled now state.seq (engine.draw lib (load.ctx call) state.seq 0)) ∧
      next.issued = state.issued ++ [call] ∧ next.buckets = state.buckets := by
  have idle : (state.limiters (load.ctx call).op).phase call = .idle := by
    have slot := slotted.own call
    rw [fresh] at slot
    exact slot
  let started := state.setProgress call (.started now)
  let sequenced : EngineState F Call T :=
    { started.setProgress call (.sequenced now state.seq) with
      seq := state.seq + 1
      issued := state.issued ++ [call] }
  let limiter : LimiterSystem Call :=
    { state.limiters (load.ctx call).op with
      state := (state.limiters (load.ctx call).op).state.takeSlot
      phase := Function.update (state.limiters (load.ctx call).op).phase call (.holding 0) }
  let holding := sequenced.setLimiter (load.ctx call).op limiter
  let sampled := holding.setProgress call
    (.sampled now state.seq (engine.draw lib (load.ctx call) state.seq 0))
  have starts : engine.step lib load state (.start call now) = some started := by
    simp only [step, fresh]
    rfl
  have takes : engine.step lib load started (.fetchAdd call) = some sequenced := by
    simp only [step, started, EngineState.setProgress, Function.update_self]
    rfl
  have progress : sequenced.progress call = .sequenced now state.seq := Function.update_self ..
  have acquires : engine.step lib load sequenced (.acquire call now) = some holding := by
    have own : (sequenced.limiters (load.ctx call).op).step
        (engine.resources (load.ctx call).op).limiter (.acquire call now) = some limiter :=
      LimiterSystem.step_acquire_free idle free
    simp only [step, progress, limiterStep, own]
    rfl
  have samples : engine.step lib load holding (.sample call) = some sampled := by
    have waits : holding.progress call = .sequenced now state.seq := progress
    have phase : (holding.limiters (load.ctx call).op).phase call = .holding 0 := by
      change (Function.update sequenced.limiters (load.ctx call).op limiter
        (load.ctx call).op).phase call = _
      rw [Function.update_self]
      exact Function.update_self ..
    simp only [step, waits, phase]
    rfl
  refine ⟨sampled, ?_, ?_, rfl, rfl⟩
  · simp only [drawing, System.run_cons, System.run_nil, system, starts, takes, acquires, samples,
      Option.bind_some]
  · simp only [sampled, holding, sequenced, started, EngineState.setProgress,
      EngineState.setLimiter, Function.update_idem]

/-- The bucket that a call reserves from. -/
def bucketOf (engine : SimEngine F) (state : EngineState F Call T) (ctx : OpContext) :
    BucketState F :=
  state.buckets ctx.op (engine.choice ctx).tier

/-- A call that has drawn can always make its reservation. -/
theorem step_reserve {call : Call} {start : Nat} {seq : UInt64} {served : Served}
    (sampled : state.progress call = .sampled start seq served) (now : Nat) :
    engine.step lib load state (.reserve call now) =
      some ((state.setBucket (load.ctx call).op (engine.choice (load.ctx call)).tier
        (engine.bandwidthDelay (load.ctx call) now
          (engine.bucketOf state (load.ctx call))).1).setProgress call
            (.afterReserve start seq served (engine.bandwidthDelay (load.ctx call) now
              (engine.bucketOf state (load.ctx call))).2 now)) := by
  simp only [step, sampled, bucketOf]

variable (lib) in
/-- A call whose profile limits no bandwidth falls asleep for its latency. -/
theorem exists_sleep_unlimited {call : Call} {start : Nat} {seq : UInt64} {served : Served}
    (sampled : state.progress call = .sampled start seq served)
    (unlimited : (engine.choice (load.ctx call)).bandwidth = none) (now : Nat) :
    exists next, engine.step lib load state (.reserve call now) = some next ∧
      next.progress = Function.update state.progress call (.sleeping start seq served .zero
        (Duration.fromMicros served.latencyUs) now) ∧
      next.issued = state.issued := by
  have free : (engine.bandwidthDelay (load.ctx call) now
      (engine.bucketOf state (load.ctx call))).2 = .zero := by
    unfold bandwidthDelay
    rw [unlimited]
  refine ⟨_, step_reserve sampled now, ?_, rfl⟩
  rw [free, Progress.afterReserve, Duration.add_zero]
  rfl

end SimEngine

end Fusecraft
