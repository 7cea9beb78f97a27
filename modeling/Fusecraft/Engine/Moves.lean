import Fusecraft.Engine.RunOp
import Fusecraft.Limiter.Safety

namespace Fusecraft

/-!
# The steps of the engine, by what they do

Every enabled step moves one call and touches at most one shared store.  The
inversion is stated once; the invariants of the engine are proved from it.
-/

/-- The first reading of a call that has not emitted its event. -/
def Progress.start? {T : Type} : Progress T -> Option Nat
  | started start => some start
  | sequenced start _ => some start
  | sampled start _ _ => some start
  | sleeping start _ _ _ _ _ => some start
  | ready start _ _ _ => some start
  | executed start _ _ _ _ => some start
  | _ => none

variable {F Call T : Type} [F64 F] [Fintype Call] [DecidableEq Call]

namespace SimEngine

variable (engine : SimEngine F) (lib : SamplerLib F) (load : Workload Call T)

/-- The steps that change nothing but the call's own progress. -/
inductive Advances (state : EngineState F Call T) (call : Call) :
    EngineLabel Call -> Progress T -> Progress T -> Prop
  | starts (now : Nat) : Advances state call (.start call now) .idle (.started now)
  | samples (start : Nat) (seq : UInt64) (queueWait : Nat)
      (admitted : (state.limiters (load.ctx call).op).phase call = .holding queueWait) :
      Advances state call (.sample call) (.sequenced start seq)
        (.sampled start seq (engine.draw lib (load.ctx call) seq queueWait))
  | sleeps (start : Nat) (seq : UInt64) (served : Served) (delay sleepFor : Duration)
      (since now : Nat) :
      Advances state call (.slept call now) (.sleeping start seq served delay sleepFor since)
        (.ready start seq served delay)

/-- A call that is about to emit its event: what it has drawn, its delay and
its result. -/
inductive Settled (state : EngineState F Call T) (call : Call) :
    UInt64 -> Option Served -> Duration -> Except FsError T -> Prop
  | executed (start : Nat) (seq : UInt64) (served : Served) (delay : Duration)
      (result : Except FsError T)
      (ran : state.progress call = .executed start seq served delay result) :
      Settled state call seq (some served) delay result
  | refused (start : Nat) (seq : UInt64) (err : FsError)
      (waits : state.progress call = .sequenced start seq)
      (refusal : (state.limiters (load.ctx call).op).phase call = .refused err) :
      Settled state call seq none .zero (.error (.errno err.asErrno))

/-- The two ways in which a call gives its slot back. -/
inductive Leaves : Progress T -> Progress T -> Prop
  | returns (seq : UInt64) (served : Served) (result : Except FsError T) :
      Leaves (.recorded seq served result) (.returned seq (some served) result)
  | panics (seq : UInt64) (served : Served) :
      Leaves (.unwinding seq served) (.panicked seq served)

/-- The limiter's steps in an acquisition. -/
inductive Queues (call : Call) : LimiterLabel Call -> Prop
  | acquire (now : Nat) : Queues call (.acquire call now)
  | spurious : Queues call (.spurious call)
  | wake (now : Nat) : Queues call (.wake call now)

/-- The step of the limiter that a label asks for in an acquisition. -/
def acquisition : EngineLabel Call -> Option (LimiterLabel Call)
  | .acquire call now => some (.acquire call now)
  | .spurious call => some (.spurious call)
  | .wake call now => some (.wake call now)
  | _ => none

/-- What an enabled step does. -/
inductive Moves (state : EngineState F Call T) :
    EngineLabel Call -> EngineState F Call T -> Prop
  | advances (call : Call) (label : EngineLabel Call) (next : Progress T)
      (local' : engine.Advances lib load state call label (state.progress call) next) :
      Moves state label (state.setProgress call next)
  | takes (call : Call) (start : Nat) (started : state.progress call = .started start) :
      Moves state (.fetchAdd call)
        { state.setProgress call (.sequenced start state.seq) with
          seq := state.seq + 1
          issued := state.issued ++ [call] }
  | queues (call : Call) (label : EngineLabel Call) (start : Nat) (seq : UInt64)
      (limiterLabel : LimiterLabel Call) (limiter : LimiterSystem Call)
      (waits : state.progress call = .sequenced start seq) (own : Queues call limiterLabel)
      (moves : (state.limiters (load.ctx call).op).step
        (engine.resources (load.ctx call).op).limiter limiterLabel = some limiter)
      (asks : acquisition label = some limiterLabel) :
      Moves state label (state.setLimiter (load.ctx call).op limiter)
  | reserves (call : Call) (now start : Nat) (seq : UInt64) (served : Served)
      (bucket : BucketState F) (delay : Duration)
      (sampled : state.progress call = .sampled start seq served)
      (reserved : engine.bandwidthDelay (load.ctx call) now
        (state.buckets (load.ctx call).op (engine.choice (load.ctx call)).tier) =
          (bucket, delay)) :
      Moves state (.reserve call now)
        ((state.setBucket (load.ctx call).op (engine.choice (load.ctx call)).tier
          bucket).setProgress call (.afterReserve start seq served delay now))
  | executes (call : Call) (start : Nat) (seq : UInt64) (served : Served) (delay : Duration)
      (awake : state.progress call = .ready start seq served delay) :
      Moves state (.execute call)
        { state.setProgress call
            (.executed start seq served delay (reply served (load.body call))) with
          bodyRuns := Function.update state.bodyRuns call
            (state.bodyRuns call + if served.fault.isNone then 1 else 0) }
  | emits (call : Call) (now unixNanos : Nat) (seq : UInt64) (served : Option Served)
      (delay : Duration) (result : Except FsError T) (totalUs : UInt64)
      (settled : Settled load state call seq served delay result)
      (total : exists start, (state.progress call).start? = some start ∧
        totalUs = elapsedUs start now) :
      Moves state (.emit call now unixNanos)
        { state.setProgress call (.emitted seq served result totalUs) with
          events := state.events ++
            [(call, event (load.ctx call) seq served delay result totalUs unixNanos)] }
  | records (call : Call) (seq : UInt64) (served : Option Served) (result : Except FsError T)
      (totalUs : UInt64) (emitted : state.progress call = .emitted seq served result totalUs) :
      Moves state (.record call)
        { state.setProgress call (.afterRecord seq result served) with
          metrics := state.metrics.record (load.ctx call).op totalUs
            ((classify result).1 = .error) }
  | leaves (call : Call) (notifies : Option Call) (next : Progress T)
      (limiter : LimiterSystem Call) (ends : Leaves (state.progress call) next)
      (moves : (state.limiters (load.ctx call).op).step
        (engine.resources (load.ctx call).op).limiter (.drop call notifies) = some limiter) :
      Moves state (.drop call notifies)
        ((state.setLimiter (load.ctx call).op limiter).setProgress call next)

variable {engine lib load}

/-- Every enabled label makes one of the moves. -/
theorem step_cases {state next : EngineState F Call T} {label : EngineLabel Call}
    (moves : engine.step lib load state label = some next) :
    engine.Moves lib load state label next := by
  have inLimiter : forall {call : Call} {limiterLabel : LimiterLabel Call}
      {after : EngineState F Call T},
      engine.limiterStep load state call limiterLabel = some after ->
      exists limiter, (state.limiters (load.ctx call).op).step
          (engine.resources (load.ctx call).op).limiter limiterLabel = some limiter ∧
        after = state.setLimiter (load.ctx call).op limiter := by
    intro call limiterLabel after steps
    rcases Option.map_eq_some_iff.mp steps with ⟨limiter, steps, same⟩
    exact ⟨limiter, steps, same.symm⟩
  cases label with
  | start call now =>
      cases before : state.progress call with
      | idle =>
          simp only [step, before, Option.some.injEq] at moves
          exact moves ▸ .advances call _ _ (before ▸ .starts now)
      | _ => simp [step, before] at moves
  | fetchAdd call =>
      cases before : state.progress call with
      | started start =>
          simp only [step, before, Option.some.injEq] at moves
          exact moves ▸ .takes call start before
      | _ => simp [step, before] at moves
  | acquire call now =>
      cases before : state.progress call with
      | sequenced start seq =>
          simp only [step, before] at moves
          rcases inLimiter moves with ⟨limiter, steps, rfl⟩
          exact .queues call _ start seq _ limiter before (.acquire now) steps rfl
      | _ => simp [step, before] at moves
  | spurious call =>
      cases before : state.progress call with
      | sequenced start seq =>
          simp only [step, before] at moves
          rcases inLimiter moves with ⟨limiter, steps, rfl⟩
          exact .queues call _ start seq _ limiter before .spurious steps rfl
      | _ => simp [step, before] at moves
  | wake call now =>
      cases before : state.progress call with
      | sequenced start seq =>
          simp only [step, before] at moves
          rcases inLimiter moves with ⟨limiter, steps, rfl⟩
          exact .queues call _ start seq _ limiter before (.wake now) steps rfl
      | _ => simp [step, before] at moves
  | sample call =>
      cases before : state.progress call with
      | sequenced start seq =>
          cases phase : (state.limiters (load.ctx call).op).phase call with
          | holding queueWait =>
              simp only [step, before, phase, Option.some.injEq] at moves
              exact moves ▸ .advances call _ _ (before ▸ .samples start seq queueWait phase)
          | _ => simp [step, before, phase] at moves
      | _ => simp [step, before] at moves
  | reserve call now =>
      cases before : state.progress call with
      | sampled start seq served =>
          simp only [step, before, Option.some.injEq] at moves
          exact moves ▸ .reserves call now start seq served _ _ before rfl
      | _ => simp [step, before] at moves
  | slept call now =>
      cases before : state.progress call with
      | sleeping start seq served delay sleepFor since =>
          simp only [step, before, Option.some.injEq] at moves
          exact moves ▸ .advances call _ _
            (before ▸ .sleeps start seq served delay sleepFor since now)
      | _ => simp [step, before] at moves
  | execute call =>
      cases before : state.progress call with
      | ready start seq served delay =>
          simp only [step, before, Option.some.injEq] at moves
          exact moves ▸ .executes call start seq served delay before
      | _ => simp [step, before] at moves
  | emit call now unixNanos =>
      cases before : state.progress call with
      | executed start seq served delay result =>
          simp only [step, before, Option.some.injEq] at moves
          exact moves ▸ .emits call now unixNanos seq (some served) delay result _
            (.executed start seq served delay result before) ⟨start, by rw [before]; rfl, rfl⟩
      | sequenced start seq =>
          cases phase : (state.limiters (load.ctx call).op).phase call with
          | refused err =>
              simp only [step, before, phase, Option.some.injEq] at moves
              exact moves ▸ .emits call now unixNanos seq none .zero _ _
                (.refused start seq err before phase) ⟨start, by rw [before]; rfl, rfl⟩
          | _ => simp [step, before, phase] at moves
      | _ => simp [step, before] at moves
  | record call =>
      cases before : state.progress call with
      | emitted seq served result totalUs =>
          simp only [step, before, Option.some.injEq] at moves
          exact moves ▸ .records call seq served result totalUs before
      | _ => simp [step, before] at moves
  | drop call notifies =>
      cases before : state.progress call with
      | recorded seq served result =>
          simp only [step, before] at moves
          rcases Option.map_eq_some_iff.mp moves with ⟨after, steps, rfl⟩
          rcases inLimiter steps with ⟨limiter, drops, rfl⟩
          exact .leaves call notifies _ limiter (before ▸ .returns seq served result) drops
      | unwinding seq served =>
          simp only [step, before] at moves
          rcases Option.map_eq_some_iff.mp moves with ⟨after, steps, rfl⟩
          rcases inLimiter steps with ⟨limiter, drops, rfl⟩
          exact .leaves call notifies _ limiter (before ▸ .panics seq served) drops
      | _ => simp [step, before] at moves

/-- Each of the moves can be made. -/
theorem Moves.enabled {state next : EngineState F Call T} {label : EngineLabel Call}
    (moves : engine.Moves lib load state label next) :
    engine.step lib load state label = some next := by
  cases moves with
  | advances call _ progress local' =>
      generalize before : state.progress call = stage at local'
      cases local' with
      | starts now => simp only [step, before]
      | samples start seq queueWait admitted => simp only [step, before, admitted]
      | sleeps start seq served delay sleepFor since now => simp only [step, before]
  | takes call start started => simp only [step, started]
  | queues call _ start seq limiterLabel limiter waits own moves asks =>
      cases own <;> cases label <;> cases asks <;>
        simp only [step, waits, limiterStep, moves, Option.map_some]
  | reserves call now start seq served bucket delay sampled reserved =>
      simp only [step, sampled, reserved]
  | executes call start seq served delay awake => simp only [step, awake]
  | emits call now unixNanos seq served delay result totalUs settled total =>
      rcases total with ⟨start, began, rfl⟩
      cases settled with
      | executed start seq served delay result ran =>
          rw [ran] at began
          cases began
          simp only [step, ran]
      | refused start seq err waits refusal =>
          rw [waits] at began
          cases began
          simp only [step, waits, refusal]
  | records call seq served result totalUs emitted => simp only [step, emitted]
  | leaves call notifies progress limiter ends moves =>
      generalize before : state.progress call = stage at ends
      cases ends <;> simp only [step, before, limiterStep, moves, Option.map_some]

end SimEngine

end Fusecraft
