import Fusecraft.Engine.Sequential
import Fusecraft.Limiter.BandwidthDelay

namespace Fusecraft

open Transition

/-!
# The delay arithmetic of a call

`run_op` adds the sampled latency to what the reservation returned.  Whether
the sum overflows is decided in one step, and nothing later revises it: either
the call sleeps and goes on to its event, its sample and its return, or it
unwinds.  Nothing that is validated excludes the second, since a positive rate
may be arbitrarily small.
-/

/-- The condition for a call: it concerns only the limiter chosen for a read or
a write. -/
def SimEngine.DelayFits (engine : SimEngine Rat) (ctx : OpContext) (latencyUs : UInt64) (now : Nat)
    (bucket : BucketState Rat) : Prop :=
  forall limiter, ctx.op.isData = true -> (engine.choice ctx).bandwidth = some limiter ->
    limiter.DelayFits (UInt64.ofNat ctx.len) latencyUs now bucket

theorem SimEngine.delay_fits_iff (engine : SimEngine Rat) (ctx : OpContext) (latencyUs : UInt64)
    (now : Nat) (bucket : BucketState Rat) :
    ((Duration.fromMicros latencyUs).add (engine.bandwidthDelay ctx now bucket).2).isSome = true ↔
      engine.DelayFits ctx latencyUs now bucket := by
  unfold bandwidthDelay DelayFits
  cases (engine.choice ctx).bandwidth with
  | none =>
      rw [Duration.add_zero]
      exact iff_of_true rfl (fun _ _ absent => by cases absent)
  | some limiter =>
      by_cases data : ctx.op.isData = true
      · simp only [if_pos data, limiter.reserve_fits_iff]
        refine ⟨fun fits other _ same => ?_, fun fits => fits limiter data rfl⟩
        cases same
        exact fits
      · simp only [if_neg data, Duration.add_zero]
        exact iff_of_true rfl (fun _ reads => absurd reads data)

/-! ## Calls before and after their delay -/

variable {F Call T : Type}

/-- Whether the delay of a call could be represented, once it was computed. -/
def Progress.slept? : Progress T -> Option Bool
  | .sleeping _ _ _ _ _ _ => some true
  | .ready _ _ _ _ => some true
  | .executed _ _ _ _ _ => some true
  | .emitted _ (some _) _ _ => some true
  | .recorded _ _ _ => some true
  | .returned _ (some _) _ => some true
  | .unwinding _ _ => some false
  | .panicked _ _ => some false
  | _ => none

theorem Progress.slept?_afterReserve {start : Nat} {seq : UInt64} {served : Served}
    {delay : Duration} {now : Nat} :
    (afterReserve start seq served delay now : Progress T).slept? =
      some ((Duration.fromMicros served.latencyUs).add delay).isSome := by
  unfold afterReserve
  split
  · next sleepFor fits =>
      rw [fits]
      rfl
  · next overflows =>
      rw [overflows]
      rfl

namespace SimEngine

section Steps

variable [F64 F] [Fintype Call] [DecidableEq Call]
variable {engine : SimEngine F} {lib : SamplerLib F} {load : Workload Call T} {created : Nat}
variable {state next : EngineState F Call T} {label : EngineLabel Call}

/-- Only a reservation decides whether a call sleeps or panics. -/
theorem slept?_of_step (moves : engine.step lib load state label = some next) :
    (forall call, (next.progress call).slept? = (state.progress call).slept?) ∨
      exists call now start seq served, label = .reserve call now ∧
        state.progress call = .sampled start seq served ∧
        next.progress = Function.update state.progress call (.afterReserve start seq served
          (engine.bandwidthDelay (load.ctx call) now (engine.bucketOf state (load.ctx call))).2
          now) := by
  cases step_cases moves with
  | advances call _ progress local' =>
      refine Or.inl (EngineState.observe_update Progress.slept? ?_)
      generalize state.progress call = before at local'
      cases local' <;> rfl
  | takes call start started =>
      refine Or.inl (EngineState.observe_update Progress.slept? ?_)
      rw [started]
      rfl
  | queues call _ start seq limiterLabel limiter waits own steps => exact Or.inl (fun _ => rfl)
  | reserves call now start seq served bucket delay sampled reserved =>
      refine Or.inr ⟨call, now, start, seq, served, rfl, sampled, ?_⟩
      rw [bucketOf, reserved]
      rfl
  | executes call start seq served delay awake =>
      refine Or.inl (EngineState.observe_update Progress.slept? ?_)
      rw [awake]
      rfl
  | emits call now unixNanos seq served delay result totalUs settled =>
      refine Or.inl (EngineState.observe_update Progress.slept? ?_)
      cases settled with
      | executed start seq served delay result ran => rw [ran]; rfl
      | refused start seq err waits refusal => rw [waits]; rfl
  | records call seq served result totalUs emitted =>
      refine Or.inl (EngineState.observe_update Progress.slept? ?_)
      rw [emitted]
      cases served <;> rfl
  | leaves call notifies progress limiter ends steps =>
      refine Or.inl (EngineState.observe_update Progress.slept? ?_)
      change _ = (state.progress call).slept?
      generalize state.progress call = before at ends
      cases ends <;> rfl

/-- What was decided is never revised, whatever happens next. -/
theorem slept?_of_run {call : Call} {fits : Bool} (labels : List (EngineLabel Call))
    (known : (state.progress call).slept? = some fits)
    (runs : (engine.system lib load created).run state labels = some next) :
    (next.progress call).slept? = some fits := by
  induction labels generalizing state with
  | nil =>
      rw [System.run_nil, Option.some_inj] at runs
      exact runs ▸ known
  | cons label rest ih =>
      rw [System.run_cons, Option.bind_eq_some_iff] at runs
      rcases runs with ⟨middle, moves, runs⟩
      refine ih ?_ runs
      rcases slept?_of_step moves with same | ⟨mover, now, start, seq, served, -, sampled, moved⟩
      · rw [same call, known]
      · have different : call ≠ mover := by
          rintro rfl
          rw [sampled] at known
          cases known
        rw [moved, Function.update_of_ne different, known]

end Steps

variable [Fintype Call] [DecidableEq Call]
variable {engine : SimEngine Rat} {lib : SamplerLib Rat} {load : Workload Call T} {created : Nat}
variable {state next : EngineState Rat Call T}

variable (engine load) in
/-- Every reservation is made under the condition. -/
def Careful (state : EngineState Rat Call T) (label : EngineLabel Call) : Prop :=
  forall call now start seq served, label = .reserve call now ->
    state.progress call = .sampled start seq served ->
    engine.DelayFits (load.ctx call) served.latencyUs now (engine.bucketOf state (load.ctx call))

/-- No call of a careful run panics. -/
theorem slept_of_careful
    (reached : (engine.system lib load created).ReachableBy (engine.Careful load) state)
    (call : Call) : (state.progress call).slept? ≠ some false := by
  refine reached.invariant (fun state => forall call, (state.progress call).slept? ≠ some false)
    (fun _ impossible => by cases impossible) ?_ call
  intro before label after _ permitted moves never other
  rcases slept?_of_step moves with same | ⟨mover, now, start, seq, served, rfl, sampled, moved⟩
  · rw [same other]
    exact never other
  · rw [moved]
    by_cases own : other = mover
    · subst own
      have fits := (engine.delay_fits_iff _ _ _ _).mpr
        (permitted other now start seq served rfl sampled)
      rw [Function.update_self, Progress.slept?_afterReserve, fits]
      exact fun absurd => by cases absurd
    · rw [Function.update_of_ne own]
      exact never other

/-- The reservation of a call that has drawn leaves it asleep exactly under the
condition. -/
theorem slept?_of_reserve {call : Call} {now start : Nat} {seq : UInt64} {served : Served}
    (sampled : state.progress call = .sampled start seq served)
    (moves : engine.step lib load state (.reserve call now) = some next) :
    exists fits, (next.progress call).slept? = some fits ∧
      (fits = true ↔ engine.DelayFits (load.ctx call) served.latencyUs now
        (engine.bucketOf state (load.ctx call))) := by
  rw [step_reserve sampled, Option.some_inj] at moves
  refine ⟨_, ?_, engine.delay_fits_iff _ _ _ _⟩
  rw [← moves]
  change (Function.update state.progress call _ call).slept? = _
  rw [Function.update_self, Progress.slept?_afterReserve]

/-- A call that fell asleep still has its slot: it can be run on to its event,
its sample and its return. -/
theorem exists_completion
    (reached : (engine.system lib load created).Reachable state) {call : Call} {now start : Nat}
    {seq : UInt64} {served : Served}
    (sampled : state.progress call = .sampled start seq served)
    (moves : engine.step lib load state (.reserve call now) = some next)
    (slept : (next.progress call).slept? = some true) :
    exists labels finish event result totalUs,
      (engine.system lib load created).run next labels = some finish ∧
      finish.progress call = .returned seq (some served) result ∧
      finish.events = next.events ++ [(call, event)] ∧ event.seq = seq ∧
      finish.metrics = next.metrics.record (load.ctx call).op totalUs
        ((classify result).1 = .error) := by
  have reaches : (engine.system lib load created).Reachable next :=
    .step reached trivial
      (show (engine.system lib load created).step state (.reserve call now) = some next from moves)
  rw [step_reserve sampled, Option.some_inj] at moves
  have progress : next.progress call = .afterReserve start seq served
      (engine.bandwidthDelay (load.ctx call) now (engine.bucketOf state (load.ctx call))).2
      now := by
    rw [← moves]
    exact Function.update_self ..
  rw [progress, Progress.slept?_afterReserve, Option.some_inj, Option.isSome_iff_exists] at slept
  rcases slept with ⟨sleepFor, fits⟩
  rw [Progress.afterReserve, fits] at progress
  rcases exists_finishing reaches progress now 0 with
    ⟨notifies, finish, runs, ended, -, events, metrics⟩
  refine ⟨_, finish, _, _, _, runs, ?_, events, rfl, metrics⟩
  rw [ended]
  exact Function.update_self ..

/-- The delay arithmetic of `run_op` under the condition, and only there.  In
every reachable state a call that has drawn completes after its reservation
exactly if the condition held; and in runs whose reservations all meet it, no
call ever panics. -/
theorem delay_fits_exactly (engine : SimEngine Rat) (lib : SamplerLib Rat)
    (load : Workload Call T) (created : Nat) :
    (forall ctx latencyUs now bucket,
      ((Duration.fromMicros latencyUs).add (engine.bandwidthDelay ctx now bucket).2).isSome = true ↔
        engine.DelayFits ctx latencyUs now bucket) ∧
    (forall state next call start seq served now,
      (engine.system lib load created).Reachable state ->
      state.progress call = .sampled start seq served ->
      engine.step lib load state (.reserve call now) = some next ->
      ((exists labels finish event result totalUs,
          (engine.system lib load created).run next labels = some finish ∧
          finish.progress call = .returned seq (some served) result ∧
          finish.events = next.events ++ [(call, event)] ∧ event.seq = seq ∧
          finish.metrics = next.metrics.record (load.ctx call).op totalUs
            ((classify result).1 = .error)) ∧
        (forall labels finish, (engine.system lib load created).run next labels = some finish ->
          (finish.progress call).slept? = some true) ↔
        engine.DelayFits (load.ctx call) served.latencyUs now
          (engine.bucketOf state (load.ctx call)))) ∧
    (forall state, (engine.system lib load created).ReachableBy (engine.Careful load) state ->
      forall call, (state.progress call).slept? ≠ some false) := by
  refine ⟨engine.delay_fits_iff, ?_, fun _ reached => slept_of_careful reached⟩
  intro state next call start seq served now reached sampled moves
  rcases slept?_of_reserve sampled moves with ⟨fits, decided, condition⟩
  constructor
  · rintro ⟨-, sleeps⟩
    have slept := sleeps [] next rfl
    rw [decided, Option.some_inj] at slept
    exact condition.mp slept
  · intro holds
    rw [condition.mpr holds] at decided
    exact ⟨exists_completion reached sampled moves decided,
      fun labels finish runs => slept?_of_run labels decided runs⟩

/-- The engine of the steady policy with a bandwidth limit for reads. -/
def throttled (rate : Rat) : SimEngine Rat :=
  .new (Config.reading
    { OpPolicy.steady 1 with bandwidth := some { bytesPerSec := rate, burstBytes := 0 } })

/-- A read of 4096 bytes at 1024 bytes per second completes. -/
theorem delay_fits_exactly_slow :
    exists (state next : EngineState Rat (Fin 1) Unit) (seq : UInt64) (served : Served),
      ((throttled 1024).system .silent (.reads (Fin 1)) 0).Reachable state ∧
      state.progress 0 = .sampled 0 seq served ∧
      (throttled 1024).step .silent (.reads (Fin 1)) state (.reserve 0 0) = some next ∧
      exists labels finish result,
        ((throttled 1024).system .silent (.reads (Fin 1)) 0).run next labels = some finish ∧
        finish.progress 0 = .returned seq (some served) result := by
  have begins : ((throttled 1024).system .silent (.reads (Fin 1)) 0).Reachable
      ((throttled 1024).initial 0) := .init
  rcases exists_drawing (throttled 1024) .silent 0 (EngineState.slotted_of_reachable begins)
    (show ((throttled 1024).initial 0 : EngineState Rat (Fin 1) Unit).progress 0 = .idle from rfl)
    (show 0 < 1 from Nat.one_pos) 0 with ⟨state, runs, progress, -, buckets⟩
  have reached := begins.extend _ (fun _ _ _ => trivial) runs
  have sampled := (congrFun progress 0).trans (Function.update_self ..)
  refine ⟨state, _, _, _, reached, sampled, step_reserve sampled 0, ?_⟩
  have condition := (delay_fits_exactly (throttled 1024) .silent (.reads (Fin 1)) 0).2.1 state _ 0 _
    _ _ 0 reached sampled (step_reserve sampled 0)
  have fits := condition.mpr (fun limiter _ chosen => ?_)
  · rcases fits.1 with ⟨labels, finish, -, result, -, completes, ended, -⟩
    exact ⟨labels, finish, result, completes, ended⟩
  · let ctx := (Workload.reads (Fin 1)).ctx 0
    cases (Option.some.inj chosen : BandwidthLimiter.new ⟨1024, 0⟩ = limiter)
    have full : (throttled 1024).bucketOf state ctx =
        (BandwidthLimiter.new (⟨1024, 0⟩ : BandwidthProfile Rat)).initial 0 := by
      unfold bucketOf
      rw [buckets]
      rfl
    have short := UInt64.le_iff_toNat_le.mp (sampleLatencyUs_le .silent
      ((throttled 1024).choice ctx).latency ((throttled 1024).sampleKey ctx 0))
    have bound : (((throttled 1024).draw .silent ctx 0 0).latencyUs.toNat : Rat) ≤ 1000000 := by
      exact_mod_cast short
    refine Or.inr (Or.inr (Or.inr ?_))
    rw [full]
    change ((4096 : Rat) - 0) / 1024 * 10 ^ 9 + 1000 *
      (((throttled 1024).draw .silent ctx 0 0).latencyUs.toNat : Rat) + 1 / 2 < 2 ^ 64 * 10 ^ 9
    linarith

/-- A read at a rate of `2 ^ -70` bytes per second panics after it has taken a
sequence number and before its event. -/
theorem delay_overflows :
    exists config : Config Rat, config.validate = .ok () ∧
      exists state : EngineState Rat (Fin 1) Unit,
        ((SimEngine.new config).system .silent (.reads (Fin 1)) 0).Reachable state ∧
        state.seq = 1 ∧ state.events = [] ∧
        exists seq served, state.progress 0 = .panicked seq served := by
  have panics : (((throttled (1 / 2 ^ 70)).system .silent (.reads (Fin 1)) 0).run
      ((throttled (1 / 2 ^ 70)).initial 0)
      [.start 0 0, .fetchAdd 0, .acquire 0 0, .sample 0, .reserve 0 0, .drop 0 none]).any
        (fun state => (state.seq = 1 && state.events.isEmpty) &&
          match state.progress 0 with
          | .panicked _ _ => true
          | _ => false) = true := by
    decide +kernel
  rcases Option.any_eq_true _ _ |>.mp panics with ⟨state, runs, holds⟩
  simp only [Bool.and_eq_true, decide_eq_true_eq, List.isEmpty_iff] at holds
  rcases holds with ⟨⟨seq, silent⟩, ended⟩
  refine ⟨_, by decide +kernel, state, System.reachable_of_run runs, seq, silent, ?_⟩
  cases progress : state.progress 0 with
  | panicked seq served => exact ⟨seq, served, rfl⟩
  | _ => rw [progress] at ended; cases ended

end SimEngine

end Fusecraft
