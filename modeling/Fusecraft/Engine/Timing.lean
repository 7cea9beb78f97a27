import Fusecraft.Engine.Sequential
import Fusecraft.Limiter.Refusals

namespace Fusecraft

open Transition

/-!
# Where the time of a call goes

The time components of an event come from readings made in different places:
the queue wait inside the limiter, the end of the sleep, the total around all
of it.  The engine is read here with a clock beside it.  Along every path of a
call the intervals that are reported follow each other within the interval
that is reported as the total, and rounding down the parts cannot lose to
rounding down their sum.
-/

/-- The time after a step: the reading it makes, or the time before. -/
def EngineLabel.time {Call : Type} (clock : Nat) : EngineLabel Call -> Nat
  | .start _ now => now
  | .acquire _ now => now
  | .wake _ now => now
  | .reserve _ now => now
  | .slept _ now => now
  | .emit _ now _ => now
  | _ => clock

/-- The earliest end of a sleep. -/
def Progress.sleepsUntil {T : Type} : Progress T -> Nat
  | sleeping _ _ _ _ sleepFor since => since + sleepFor.nanos
  | _ => 0

/-- An engine with the time of its last step.  The nanoseconds between the
first and the last reading of a call are kept for the statements only. -/
structure TimedEngine (F Call T : Type) where
  state : EngineState F Call T
  clock : Nat
  elapsed : Call -> Nat

namespace TimedEngine

variable {F Call T : Type}

/-- The earliest end of the sleep that a label ends. -/
def wakesAt (timed : TimedEngine F Call T) : EngineLabel Call -> Nat
  | .slept call _ => (timed.state.progress call).sleepsUntil
  | _ => 0

/-- The clock is not turned back, and a sleep lasts as long as was asked for. -/
def Punctual (timed : TimedEngine F Call T) (label : EngineLabel Call) : Prop :=
  timed.clock ≤ label.time timed.clock ∧ timed.wakesAt label ≤ label.time timed.clock

instance (timed : TimedEngine F Call T) (label : EngineLabel Call) :
    Decidable (timed.Punctual label) :=
  inferInstanceAs (Decidable (timed.clock ≤ label.time timed.clock ∧
    timed.wakesAt label ≤ label.time timed.clock))

/-- A step of the engine as the clock sees it. -/
def tick [DecidableEq Call] (timed : TimedEngine F Call T) (label : EngineLabel Call)
    (state : EngineState F Call T) : TimedEngine F Call T where
  state := state
  clock := label.time timed.clock
  elapsed :=
    match label with
    | .emit call now _ =>
        Function.update timed.elapsed call (now - ((timed.state.progress call).start?).getD now)
    | _ => timed.elapsed

end TimedEngine

namespace SimEngine

variable {F Call T : Type} [F64 F] [Fintype Call] [DecidableEq Call]

/-- The transition system of an engine with a clock. -/
def timedSystem (engine : SimEngine F) (lib : SamplerLib F) (load : Workload Call T)
    (created : Nat) : System (TimedEngine F Call T) (EngineLabel Call) where
  init := { state := engine.initial created, clock := created, elapsed := fun _ => 0 }
  step := fun timed label => (engine.step lib load timed.state label).map (timed.tick label)

end SimEngine

/-! ## The waits of the limiter -/

/-- The clock readings that a call left in the limiter are not earlier than its
first, and a wait that was measured fits between that and now. -/
def Phase.Timely (start clock : Nat) : Phase -> Prop
  | .parked waiter => start ≤ waiter.start ∧ waiter.start ≤ clock
  | .notified waiter => start ≤ waiter.start ∧ waiter.start ≤ clock
  | .awake waiter _ => start ≤ waiter.start ∧ waiter.start ≤ clock
  | .holding queueWait => start + queueWait ≤ clock
  | _ => True

theorem Phase.Timely.later {start clock now : Nat} {phase : Phase}
    (timely : phase.Timely start clock) (passes : clock ≤ now) : phase.Timely start now := by
  cases phase with
  | parked waiter => exact ⟨timely.1, timely.2.trans passes⟩
  | notified waiter => exact ⟨timely.1, timely.2.trans passes⟩
  | awake waiter timedOut => exact ⟨timely.1, timely.2.trans passes⟩
  | holding queueWait => exact Nat.le_trans timely passes
  | _ => trivial

namespace BlockingLimiter

variable {limiter : BlockingLimiter} {state after : LimiterState} {exit : Exit}
  {start now : Nat}

theorem acquire_timely (runs : limiter.acquire now state = some (after, exit))
    (begun : start ≤ now) : (Phase.afterExit exit).Timely start now := by
  simp only [acquire, enter] at runs
  split at runs
  · cases runs
    trivial
  · split at runs
    · cases runs
      exact begun
    · split at runs
      · cases runs
        trivial
      · cases runs
        exact ⟨begun, Nat.le_refl now⟩

/-- What a woken caller of either function reports as its wait. -/
theorem wake_timely {waiter : Waiter} {timedOut : Bool}
    (runs : limiter.wake waiter timedOut now state = some (after, exit))
    (begun : start ≤ waiter.start) (entered : waiter.start ≤ now) :
    (Phase.afterExit exit).Timely start now := by
  have fits : start + (now - waiter.start) ≤ now := by omega
  unfold wake at runs
  cases timed : waiter.deadline with
  | none =>
      simp only [timed, acquireWake] at runs
      split at runs
      · rcases Option.map_eq_some_iff.mp runs with ⟨admitted, -, same⟩
        cases same
        exact fits
      · cases runs
        exact ⟨begun, entered⟩
  | some deadline =>
      simp only [timed, acquireTimeoutWake, acquireTimeoutHead] at runs
      split at runs
      · rcases Option.map_eq_some_iff.mp runs with ⟨admitted, -, same⟩
        cases same
        exact fits
      · split at runs
        · rcases Option.map_eq_some_iff.mp runs with ⟨left, -, same⟩
          cases same
          trivial
        · split at runs
          · rcases Option.map_eq_some_iff.mp runs with ⟨left, -, same⟩
            cases same
            trivial
          · cases runs
            exact ⟨begun, entered⟩

end BlockingLimiter

namespace LimiterSystem

variable {Call : Type} [Fintype Call] [DecidableEq Call]
variable {limiter : BlockingLimiter} {system next : LimiterSystem Call}

/-- A step of an acquisition, at the time when it is made. -/
theorem timely_of_queues (counted : system.Counted limiter) {call : Call}
    {label : EngineLabel Call} {limiterLabel : LimiterLabel Call}
    (own : SimEngine.Queues call limiterLabel)
    (asks : SimEngine.acquisition label = some limiterLabel)
    (moves : system.step limiter limiterLabel = some next) {start clock : Nat}
    (begun : start ≤ clock) (timely : (system.phase call).Timely start clock)
    (passes : clock ≤ label.time clock) : (next.phase call).Timely start (label.time clock) := by
  cases label with
  | acquire other now =>
      cases asks
      cases own
      rcases step_acquire moves with ⟨state, exit, runs, -, -, phase, -⟩
      rw [phase]
      exact BlockingLimiter.acquire_timely runs (begun.trans passes)
  | wake other now =>
      cases asks
      cases own
      rcases step_wake counted moves with ⟨waiter, timedOut, state, exit, queued, runs, -, phase, -⟩
      have waited : start ≤ waiter.start ∧ waiter.start ≤ clock := by
        rcases queued with notified | awake
        · rw [notified] at timely
          exact timely
        · rw [awake] at timely
          exact timely
      rw [phase]
      exact BlockingLimiter.wake_timely runs waited.1 (waited.2.trans passes)
  | spurious other =>
      cases asks
      cases own
      cases phase : system.phase call with
      | parked waiter =>
          simp only [step, phase, Option.some.injEq] at moves
          rw [phase] at timely
          subst moves
          simp only [Function.update_self]
          exact timely
      | _ => simp [step, phase] at moves
  | _ => cases asks

end LimiterSystem

/-! ## The times of a call -/

/-- The reported wait is a wait, in whole microseconds, that fits between two
times. -/
def Served.Waited (served : Served) (since clock : Nat) : Prop :=
  exists queueWait, served.queueWaitUs = UInt64.ofNat (queueWait / 1000) ∧
    since + queueWait ≤ clock

/-- How long an admitted call has to sleep, in nanoseconds. -/
def Served.sleepNanos (served : Served) (bandwidthDelay : Duration) : Nat :=
  served.latencyUs.toNat * 1000 + bandwidthDelay.nanos

theorem Served.Waited.later {served : Served} {since clock now : Nat}
    (waited : served.Waited since clock) (passes : clock ≤ now) : served.Waited since now := by
  rcases waited with ⟨queueWait, reported, fits⟩
  exact ⟨queueWait, reported, fits.trans passes⟩

namespace Progress

variable {T : Type}

/-- What a call has spent so far fits between its first reading and now. -/
def Timely (clock : Nat) : Progress T -> Phase -> Prop
  | started start, _ => start ≤ clock
  | sequenced start _, phase => start ≤ clock ∧ phase.Timely start clock
  | sampled start _ served, _ => served.Waited start clock
  | sleeping start _ served delay sleepFor since, _ =>
      served.Waited start since ∧ sleepFor.nanos = served.sleepNanos delay
  | ready start _ served delay, _ => served.Waited (start + served.sleepNanos delay) clock
  | executed start _ served delay _, _ => served.Waited (start + served.sleepNanos delay) clock
  | _, _ => True

theorem Timely.later {clock now : Nat} {phase : Phase} {progress : Progress T}
    (timely : progress.Timely clock phase) (passes : clock ≤ now) :
    progress.Timely now phase := by
  cases progress with
  | started start => exact Nat.le_trans timely passes
  | sequenced start seq => exact ⟨timely.1.trans passes, timely.2.later passes⟩
  | sampled start seq served => exact Served.Waited.later timely passes
  | sleeping start seq served delay sleepFor since => exact timely
  | ready start seq served delay => exact Served.Waited.later timely passes
  | executed start seq served delay result => exact Served.Waited.later timely passes
  | _ => trivial

/-- A notification takes no time. -/
theorem Timely.notified {clock : Nat} {waiter : Waiter} {progress : Progress T}
    (timely : progress.Timely clock (.parked waiter)) :
    progress.Timely clock (.notified waiter) := by
  cases progress <;> exact timely

theorem timely_afterReserve {clock now start : Nat} {seq : UInt64} {served : Served}
    {delay : Duration} {phase : Phase} (waited : served.Waited start clock)
    (passes : clock ≤ now) :
    (afterReserve start seq served delay now : Progress T).Timely now phase := by
  unfold afterReserve
  cases sum : (Duration.fromMicros served.latencyUs).add delay with
  | none => trivial
  | some sleepFor =>
      have whole : sleepFor.nanos = served.sleepNanos delay := Duration.nanos_add sum
      exact ⟨waited.later passes, whole⟩

end Progress

/-- The time components of an event do not exceed its total. -/
def Event.Consistent (event : Event) : Prop :=
  event.queueWaitUs.toNat + event.injectedLatencyUs.toNat + event.bandwidthDelayUs.toNat ≤
    event.totalDurationUs.toNat

/-- Truncation to 64 bits makes nothing longer. -/
theorem toNat_ofNat_le (nanos : Nat) : (UInt64.ofNat (nanos / 1000)).toNat ≤ nanos / 1000 := by
  rw [UInt64.toNat_ofNat']
  exact Nat.mod_le _ _

/-- The event of a call that was refused reports no components. -/
theorem SimEngine.consistent_refused {T : Type} (ctx : OpContext) (seq : UInt64)
    (result : Except FsError T) (totalUs : UInt64) (unixNanos : Nat) :
    (event ctx seq none .zero result totalUs unixNanos).Consistent :=
  Nat.zero_le _

/-- The components are rounded down one by one, the total as a whole. -/
theorem SimEngine.consistent_of_waited {T : Type} {ctx : OpContext} {seq : UInt64}
    {served : Served} {delay : Duration} {result : Except FsError T} {unixNanos : Nat}
    {start now : Nat} (waited : served.Waited (start + served.sleepNanos delay) now)
    (short : (now - start) / 1000 < 2 ^ 64) :
    (event ctx seq (some served) delay result (elapsedUs start now) unixNanos).Consistent := by
  rcases waited with ⟨queueWait, reported, fits⟩
  have wait : served.queueWaitUs.toNat ≤ queueWait / 1000 := reported ▸ toNat_ofNat_le queueWait
  have bandwidth : delay.asMicrosU64.toNat ≤ delay.nanos / 1000 := toNat_ofNat_le delay.nanos
  have total : (elapsedUs start now).toNat = (now - start) / 1000 := by
    unfold elapsedUs
    rw [UInt64.toNat_ofNat', Nat.mod_eq_of_lt short]
  change served.queueWaitUs.toNat + served.latencyUs.toNat + delay.asMicrosU64.toNat ≤
    (elapsedUs start now).toNat
  unfold Served.sleepNanos at fits
  omega

/-! ## Every run -/

namespace TimedEngine

variable {F Call T : Type}

/-- What holds of all calls and of all events. -/
structure Timely (load : Workload Call T) (timed : TimedEngine F Call T) : Prop where
  calls : timed.state.Paired load (Progress.Timely timed.clock)
  events : forall call event, (call, event) ∈ timed.state.events ->
    timed.elapsed call / 1000 < 2 ^ 64 -> event.Consistent

variable {load : Workload Call T} {timed : TimedEngine F Call T}

/-- The clock may go on. -/
theorem Timely.later (timely : timed.Timely load) {clock : Nat} (passes : timed.clock ≤ clock) :
    timed.state.Paired load (Progress.Timely clock) :=
  fun call => (timely.calls call).later passes

variable [DecidableEq Call]

/-- What is logged once says the same for ever. -/
theorem Timely.events_emit (timely : timed.Timely load) (logged : timed.state.Logged load)
    {call : Call} (silent : (timed.state.progress call).account = none) {event : Event}
    {elapsed : Nat} (consistent : elapsed / 1000 < 2 ^ 64 -> event.Consistent) (other : Call)
    (entry : Event) (member : (other, entry) ∈ timed.state.events ++ [(call, event)])
    (short : Function.update timed.elapsed call elapsed other / 1000 < 2 ^ 64) :
    entry.Consistent := by
  rcases List.mem_append.mp member with old | new
  · have different : other ≠ call := by
      rintro rfl
      have none := logged.silent other silent
      have here : (other, entry) ∈ timed.state.entriesOf other :=
        List.mem_filter.mpr ⟨old, decide_eq_true rfl⟩
      rw [none] at here
      cases here
    rw [Function.update_of_ne different] at short
    exact timely.events other entry old short
  · cases List.mem_singleton.mp new
    rw [Function.update_self] at short
    exact consistent short

variable [F64 F] [Fintype Call] {engine : SimEngine F} {lib : SamplerLib F}

theorem Timely.preserved (timely : timed.Timely load) (slotted : timed.state.Slotted load)
    (counted : forall op, (timed.state.limiters op).Counted (engine.resources op).limiter)
    (logged : timed.state.Logged load) {label : EngineLabel Call} (punctual : timed.Punctual label)
    {next : EngineState F Call T} (moves : engine.step lib load timed.state label = some next) :
    (timed.tick label next).Timely load := by
  have later := timely.later punctual.1
  cases SimEngine.step_cases moves with
  | advances call _ progress local' =>
      have before := timely.calls call
      have wakes : forall now, label = .slept call now ->
          (timed.state.progress call).sleepsUntil ≤ now := by
        rintro now rfl
        exact punctual.2
      generalize timed.state.progress call = stage at before local' wakes
      cases local' with
      | starts now => exact ⟨later.advance rfl rfl (Nat.le_refl now), timely.events⟩
      | samples start seq queueWait admitted =>
          rw [admitted] at before
          exact ⟨later.advance rfl rfl ⟨queueWait, rfl, before.2⟩, timely.events⟩
      | sleeps start seq served delay sleepFor since now =>
          have rested : since + sleepFor.nanos ≤ now := wakes now rfl
          rcases before with ⟨⟨queueWait, reported, fits⟩, sum⟩
          have waited : served.Waited (start + served.sleepNanos delay) now :=
            ⟨queueWait, reported, by omega⟩
          exact ⟨later.advance rfl rfl waited, timely.events⟩
  | takes call start started =>
      have before := timely.calls call
      have idle := slotted.own call
      rw [started] at before idle
      have idle : (timed.state.limiters (load.ctx call).op).phase call = .idle := idle
      refine ⟨later.advance rfl rfl ⟨before, ?_⟩, timely.events⟩
      rw [idle]
      trivial
  | queues call _ start seq limiterLabel limiter waits own steps asks =>
      have before := timely.calls call
      rw [waits] at before
      have silent : (timed.tick label
          (timed.state.setLimiter (load.ctx call).op limiter)).elapsed = timed.elapsed := by
        cases label with
        | emit => cases asks
        | _ => rfl
      refine ⟨later.queues counted own steps ?_, silent ▸ timely.events⟩
      rw [waits]
      exact ⟨before.1.trans punctual.1, LimiterSystem.timely_of_queues (counted _) own asks steps
        before.1 before.2 punctual.1⟩
  | reserves call now start seq served bucket delay sampled reserved =>
      have before := timely.calls call
      rw [sampled] at before
      exact ⟨later.advance rfl rfl (Progress.timely_afterReserve before punctual.1), timely.events⟩
  | executes call start seq served delay awake =>
      have before := timely.calls call
      rw [awake] at before
      exact ⟨later.advance rfl rfl before, timely.events⟩
  | emits call now unixNanos seq served delay result totalUs settled total =>
      rcases total with ⟨start, begun, rfl⟩
      have before := timely.calls call
      have silent : (timed.state.progress call).account = none := by
        cases settled with
        | executed start seq served delay result ran => rw [ran]; rfl
        | refused start seq err waits refusal => rw [waits]; rfl
      have elapsed : now - ((timed.state.progress call).start?).getD now = now - start := by
        rw [begun, Option.getD_some]
      refine ⟨later.advance rfl rfl trivial, timely.events_emit logged silent (fun short => ?_)⟩
      rw [elapsed] at short
      cases settled with
      | executed _ seq served delay result ran =>
          rw [ran] at begun
          cases begun
          rw [ran] at before
          exact SimEngine.consistent_of_waited (before.later punctual.1) short
      | refused _ seq err waits refusal => exact SimEngine.consistent_refused ..
  | records call seq served result totalUs emitted =>
      refine ⟨later.advance rfl rfl ?_, timely.events⟩
      cases served <;> trivial
  | leaves call notifies progress limiter ends steps =>
      refine ⟨later.leaves counted (fun _ _ parked => parked.notified) steps ?_, timely.events⟩
      generalize timed.state.progress call = stage at ends
      cases ends <;> trivial

variable {created : Nat} {allowed : TimedEngine F Call T -> EngineLabel Call -> Prop}

/-- The clock is a bystander. -/
theorem simulation (engine : SimEngine F) (lib : SamplerLib F) (load : Workload Call T)
    (created : Nat) :
    System.Simulation (engine.timedSystem lib load created) (engine.system lib load created)
      (fun timed => timed.state) where
  init := rfl
  step := by
    intro before label after moves
    rcases Option.map_eq_some_iff.mp moves with ⟨state, steps, rfl⟩
    exact Or.inr ⟨label, steps⟩

theorem timely_of_reachable
    (reached : (engine.timedSystem lib load created).ReachableBy Punctual timed) :
    timed.Timely load := by
  apply reached.invariant (fun timed => timed.Timely load)
  · exact ⟨fun _ => trivial, fun call event logged => (by cases logged)⟩
  · intro before label after reached punctual moves timely
    rcases Option.map_eq_some_iff.mp moves with ⟨state, steps, rfl⟩
    have inEngine := (simulation engine lib load created).reachable reached
    exact timely.preserved (EngineState.slotted_of_reachable inEngine)
      (SimEngine.limiter_counted inEngine) (EngineState.logged_of_reachable inEngine) punctual steps

/-- In every event of a call that took less than `2^64` microseconds, however
it got or did not get its slot and however it ended, the time components add
up to at most the total. -/
theorem components_within_total (engine : SimEngine F) (lib : SamplerLib F)
    (load : Workload Call T) (created : Nat) (timed : TimedEngine F Call T)
    (reached : (engine.timedSystem lib load created).ReachableBy Punctual timed) (call : Call)
    (event : Event) (emitted : (call, event) ∈ timed.state.events)
    (short : timed.elapsed call / 1000 < 2 ^ 64) :
    event.queueWaitUs.toNat + event.injectedLatencyUs.toNat + event.bandwidthDelayUs.toNat ≤
      event.totalDurationUs.toNat :=
  (timely_of_reachable reached).events call event emitted short

/-- The policy with one slot and one queue place. -/
def queuedEngine : SimEngine Rat :=
  .new (Config.reading { OpPolicy.steady 1 with queueCap := 1 })

/-- Two reads on one slot, of which the second queues. -/
theorem components_within_total_queued :
    exists (timed : TimedEngine Rat (Fin 2) Unit) (event : Event),
      (queuedEngine.timedSystem .silent (.reads (Fin 2)) 0).ReachableBy Punctual timed ∧
      (1, event) ∈ timed.state.events ∧ 0 < event.queueWaitUs ∧
      event.queueWaitUs.toNat + event.injectedLatencyUs.toNat + event.bandwidthDelayUs.toNat ≤
        event.totalDurationUs.toNat := by
  let system := queuedEngine.timedSystem .silent (.reads (Fin 2)) 0
  let queueing : List (EngineLabel (Fin 2)) :=
    [.start 0 0, .fetchAdd 0, .acquire 0 1, .start 1 2, .fetchAdd 1, .acquire 1 3, .sample 0,
      .reserve 0 4, .slept 0 6000, .execute 0, .emit 0 6500 7, .record 0, .drop 0 (some 1),
      .wake 1 8000, .sample 1, .reserve 1 9000, .slept 1 20000, .execute 1, .emit 1 21000 8]
  have punctual : system.RunAllowed Punctual system.init queueing := by
    decide +kernel
  have queued : (system.run system.init queueing).any (fun timed =>
      timed.state.events.any (fun entry => entry.1 = 1 ∧ 0 < entry.2.queueWaitUs) &&
        decide (timed.elapsed 1 / 1000 < 2 ^ 64)) = true := by
    decide +kernel
  rcases Option.any_eq_true _ _ |>.mp queued with ⟨timed, runs, holds⟩
  rw [Bool.and_eq_true, List.any_eq_true, decide_eq_true_eq] at holds
  rcases holds with ⟨⟨⟨call, event⟩, emitted, same⟩, short⟩
  rcases of_decide_eq_true same with ⟨rfl, waited⟩
  have reached := System.ReachableBy.init.extend_allowed punctual runs
  exact ⟨timed, event, reached, emitted, waited,
    components_within_total _ _ _ _ timed reached 1 event emitted short⟩

end TimedEngine

end Fusecraft
