import Fusecraft.Engine.Timing
import Fusecraft.Library.Charging

namespace Fusecraft

open Transition Charging

/-!
# What a limiter lets through

The latency that an engine injects is slept through while the call holds a
slot of its op.  Since no more calls than `cap` hold a slot at a time, the
delays that were injected into all events of an op fit `cap` times into the
time that has gone by, and so the capacity and the latency together bound the
rate at which an op is served.
-/

/-- The delays that an event reports, in nanoseconds. -/
def Event.delayNanos (event : Event) : Nat :=
  (event.injectedLatencyUs.toNat + event.bandwidthDelayUs.toNat) * 1000

namespace Progress

variable {T : Type}

/-- How long a call with no event has slept by some time, in nanoseconds. -/
def slept (clock : Nat) : Progress T -> Nat
  | sleeping _ _ served delay _ since => min (served.sleepNanos delay) (clock - since)
  | ready _ _ served delay => served.sleepNanos delay
  | executed _ _ served delay _ => served.sleepNanos delay
  | _ => 0

def isSleeping : Progress T -> Bool
  | sleeping _ _ _ _ _ _ => true
  | _ => false

/-- Time goes by for the sleepers only. -/
theorem slept_later (progress : Progress T) {clock now : Nat} (passes : clock ≤ now) :
    progress.slept now ≤
      progress.slept clock + if progress.isSleeping = true then now - clock else 0 := by
  cases progress with
  | sleeping start seq served delay sleepFor since =>
      simp only [slept, isSleeping, if_true]
      omega
  | _ => exact Nat.le_add_right _ _

/-- A call that goes to sleep has not slept. -/
theorem slept_afterReserve {start : Nat} {seq : UInt64} {served : Served} {delay : Duration}
    {now : Nat} : (afterReserve start seq served delay now : Progress T).slept now = 0 := by
  unfold afterReserve
  split
  · simp only [slept, Nat.sub_self, Nat.min_zero]
  · rfl

end Progress

namespace EngineState

variable {F Call T : Type}

/-- The delays that the events of an op report, in nanoseconds. -/
def delayed (state : EngineState F Call T) (op : FsOp) : Nat :=
  ((state.events.filter (fun entry => entry.2.op = op)).map
    (fun entry => entry.2.delayNanos)).sum

/-- One more event reports its own delays. -/
theorem delayed_append {state next : EngineState F Call T} {call : Call} {event : Event}
    (events : next.events = state.events ++ [(call, event)]) (op : FsOp) :
    next.delayed op = state.delayed op + if event.op = op then event.delayNanos else 0 := by
  unfold delayed
  rw [events, List.filter_append, List.map_append, List.sum_append]
  by_cases same : event.op = op <;> simp [same]

variable {load : Workload Call T}

/-- A sleeper holds a slot of its op. -/
theorem Slotted.isHolding {state : EngineState F Call T} (slotted : state.Slotted load) {op : FsOp}
    {call : Call} (own : (load.ctx call).op = op)
    (asleep : (state.progress call).isSleeping = true) :
    ((state.limiters op).phase call).isHolding = true := by
  have fits := slotted.own call
  rw [own] at fits
  cases progress : state.progress call with
  | sleeping start seq served delay sleepFor since =>
      rw [progress] at fits
      exact fits
  | _ =>
      rw [progress] at asleep
      cases asleep

end EngineState

/-- Rounding the parts down does not lengthen the sleep. -/
theorem SimEngine.delayNanos_le {T : Type} (ctx : OpContext) (seq : UInt64) (served : Served)
    (delay : Duration) (result : Except FsError T) (totalUs : UInt64) (unixNanos : Nat) :
    (event ctx seq (some served) delay result totalUs unixNanos).delayNanos ≤
      served.sleepNanos delay := by
  have whole : delay.asMicrosU64.toNat ≤ delay.nanos / 1000 := toNat_ofNat_le delay.nanos
  change (served.latencyUs.toNat + delay.asMicrosU64.toNat) * 1000 ≤ _
  unfold Served.sleepNanos
  omega

/-- The event of a call that was refused reports no delay. -/
theorem SimEngine.delayNanos_refused {T : Type} (ctx : OpContext) (seq : UInt64)
    (result : Except FsError T) (totalUs : UInt64) (unixNanos : Nat) :
    (event ctx seq none .zero result totalUs unixNanos).delayNanos = 0 := by
  simp [Event.delayNanos, event, Duration.asMicrosU64, Duration.zero]

namespace TimedEngine

variable {F Call T : Type}

/-- What a call of an op has slept without having reported it. -/
def sleptBy (load : Workload Call T) (timed : TimedEngine F Call T) (op : FsOp) (call : Call) :
    Nat :=
  if (load.ctx call).op = op then (timed.state.progress call).slept timed.clock else 0

variable [F64 F] [Fintype Call] [DecidableEq Call]
variable {engine : SimEngine F} {lib : SamplerLib F} {load : Workload Call T}
  {timed : TimedEngine F Call T}

/-- A step reports what its call has slept, or reports nothing. -/
theorem delayed_step (timely : timed.Timely load) {label : EngineLabel Call}
    (punctual : timed.Punctual label) {next : EngineState F Call T}
    (moves : engine.step lib load timed.state label = some next) :
    exists call after, next.progress = Function.update timed.state.progress call after ∧
      forall op, next.delayed op +
          (if (load.ctx call).op = op then after.slept (label.time timed.clock) else 0) ≤
        timed.state.delayed op + if (load.ctx call).op = op then
          (timed.state.progress call).slept (label.time timed.clock) else 0 := by
  have quiet : forall {call : Call} {after : Progress T},
      next.events = timed.state.events ->
      after.slept (label.time timed.clock) ≤
        (timed.state.progress call).slept (label.time timed.clock) ->
      forall op, next.delayed op +
          (if (load.ctx call).op = op then after.slept (label.time timed.clock) else 0) ≤
        timed.state.delayed op + if (load.ctx call).op = op then
          (timed.state.progress call).slept (label.time timed.clock) else 0 := by
    intro call after events less op
    unfold EngineState.delayed
    rw [events]
    split
    · exact Nat.add_le_add_left less _
    · exact Nat.le_refl _
  cases SimEngine.step_cases moves with
  | advances call _ progress local' =>
      refine ⟨call, progress, rfl, quiet rfl ?_⟩
      have before := timely.calls call
      have wakes : forall now, label = .slept call now ->
          (timed.state.progress call).sleepsUntil ≤ now := by
        rintro now rfl
        exact punctual.2
      generalize timed.state.progress call = stage at before local' wakes
      cases local' with
      | starts now => exact Nat.le_refl _
      | samples start seq queueWait admitted => exact Nat.le_refl _
      | sleeps start seq served delay sleepFor since now =>
          have rested : since + sleepFor.nanos ≤ now := wakes now rfl
          have whole : sleepFor.nanos = served.sleepNanos delay := before.2
          simp only [Progress.slept, EngineLabel.time]
          omega
  | takes call start started =>
      refine ⟨call, _, rfl, quiet rfl ?_⟩
      exact Nat.zero_le _
  | queues call _ start seq limiterLabel limiter waits own steps =>
      exact ⟨call, timed.state.progress call, (Function.update_eq_self _ _).symm,
        quiet rfl (Nat.le_refl _)⟩
  | reserves call now start seq served bucket delay sampled reserved =>
      refine ⟨call, _, rfl, quiet rfl ?_⟩
      rw [EngineLabel.time, Progress.slept_afterReserve]
      exact Nat.zero_le _
  | executes call start seq served delay awake =>
      refine ⟨call, _, rfl, quiet rfl ?_⟩
      rw [awake]
      exact Nat.le_refl _
  | emits call now unixNanos seq served delay result totalUs settled =>
      refine ⟨call, _, rfl, fun op => ?_⟩
      rw [EngineState.delayed_append rfl]
      change _ + (if (load.ctx call).op = op then _ else 0) + _ ≤ _
      by_cases own : (load.ctx call).op = op
      · rw [if_pos own, if_pos own, if_pos own, Nat.add_assoc]
        apply Nat.add_le_add_left
        cases settled with
        | executed start seq served delay result ran =>
            rw [ran]
            simp only [Progress.slept, Nat.add_zero]
            exact SimEngine.delayNanos_le _ _ _ _ _ _ _
        | refused start seq err waits refusal =>
            rw [SimEngine.delayNanos_refused]
            exact Nat.zero_le _
      · rw [if_neg own, if_neg own, if_neg own]
  | records call seq served result totalUs emitted =>
      refine ⟨call, _, rfl, quiet rfl ?_⟩
      cases served <;> exact Nat.zero_le _
  | leaves call notifies progress limiter ends steps =>
      refine ⟨call, progress, rfl, quiet rfl ?_⟩
      generalize timed.state.progress call = stage at ends
      cases ends <;> exact Nat.zero_le _

omit [F64 F] [DecidableEq Call] in
/-- The sleepers of an op are no more than the slots of its limiter. -/
theorem sleepers_le (slotted : timed.state.Slotted load)
    (counted : forall op, (timed.state.limiters op).Counted (engine.resources op).limiter)
    (op : FsOp) :
    Counting.count id (fun call =>
      decide ((load.ctx call).op = op) && (timed.state.progress call).isSleeping) ≤
        (engine.resources op).limiter.cap := by
  refine Nat.le_trans ?_ (counted op).inflight_le
  rw [(counted op).inflight]
  apply Finset.card_le_card
  intro call member
  rw [Finset.mem_filter, id_eq, Bool.and_eq_true, decide_eq_true_eq] at member
  rw [Finset.mem_filter]
  exact ⟨member.1, slotted.isHolding member.2.1 member.2.2⟩

/-- What was reported and what was slept fits into the time of all slots. -/
def WithinCapacity (engine : SimEngine F) (load : Workload Call T) (created : Nat)
    (timed : TimedEngine F Call T) : Prop :=
  created ≤ timed.clock ∧ forall op, timed.state.delayed op + total (timed.sleptBy load op) ≤
    (engine.resources op).limiter.cap * (timed.clock - created)

theorem WithinCapacity.preserved {created : Nat} (within : timed.WithinCapacity engine load created)
    (timely : timed.Timely load) (slotted : timed.state.Slotted load)
    (counted : forall op, (timed.state.limiters op).Counted (engine.resources op).limiter)
    {label : EngineLabel Call} (punctual : timed.Punctual label) {next : EngineState F Call T}
    (moves : engine.step lib load timed.state label = some next) :
    (timed.tick label next).WithinCapacity engine load created := by
  rcases within with ⟨begun, within⟩
  have passes := punctual.1
  refine ⟨begun.trans passes, fun op => ?_⟩
  rcases delayed_step timely punctual moves with ⟨call, after, moved, reports⟩
  -- First the clock goes on with nobody moving, then the call moves.
  let later : Call -> Nat := fun call => if (load.ctx call).op = op then
    (timed.state.progress call).slept (label.time timed.clock) else 0
  have passing : total later ≤ total (timed.sleptBy load op) +
      (engine.resources op).limiter.cap * (label.time timed.clock - timed.clock) := by
    refine Nat.le_trans (total_le_of_rate (fun call =>
      decide ((load.ctx call).op = op) && (timed.state.progress call).isSleeping)
      (label.time timed.clock - timed.clock) (fun call => ?_))
      (Nat.add_le_add_left (Nat.mul_le_mul_right _ (sleepers_le slotted counted op)) _)
    by_cases own : (load.ctx call).op = op
    · simp only [later, sleptBy, own, if_true, decide_true, Bool.true_and]
      exact Progress.slept_later _ passes
    · simp only [later, sleptBy, own, if_false]
      exact Nat.zero_le _
  have traded : total ((timed.tick label next).sleptBy load op) + later call =
      total later + (timed.tick label next).sleptBy load op call := by
    apply total_exchange
    intro other different
    simp only [later, sleptBy, tick, moved, Function.update_of_ne different]
  have reports := reports op
  have mine : (timed.tick label next).sleptBy load op call =
      if (load.ctx call).op = op then after.slept (label.time timed.clock) else 0 := by
    simp only [sleptBy, tick, moved, Function.update_self]
  rw [mine] at traded
  have here : later call = if (load.ctx call).op = op then
    (timed.state.progress call).slept (label.time timed.clock) else 0 := rfl
  rw [here] at traded
  have gone : label.time timed.clock - created =
      timed.clock - created + (label.time timed.clock - timed.clock) := by omega
  have before := within op
  change next.delayed op + total ((timed.tick label next).sleptBy load op) ≤
    (engine.resources op).limiter.cap * (label.time timed.clock - created)
  rw [gone, Nat.mul_add]
  omega

/-- The throughput of an op is bounded by its capacity.  In every run whose
clock is not turned back and whose sleeps last as long as they should, the
delays that were injected into the events of an op fit as often as it has slots
into the time since the engine was created. -/
theorem delays_within_capacity (engine : SimEngine F) (lib : SamplerLib F) (load : Workload Call T)
    (created : Nat) (timed : TimedEngine F Call T)
    (reached : (engine.timedSystem lib load created).ReachableBy Punctual timed) (op : FsOp) :
    ((timed.state.events.filter (fun entry => entry.2.op = op)).map (fun entry =>
      (entry.2.injectedLatencyUs.toNat + entry.2.bandwidthDelayUs.toNat) * 1000)).sum ≤
        (engine.resources op).limiter.cap * (timed.clock - created) := by
  have within : timed.WithinCapacity engine load created := by
    apply reached.invariant (fun timed => timed.WithinCapacity engine load created)
    · refine ⟨Nat.le_refl _, fun op => ?_⟩
      have nobody : total ((engine.timedSystem lib load created).init.sleptBy load op) = 0 := by
        refine Finset.sum_eq_zero (fun call _ => ?_)
        exact ite_self 0
      rw [nobody]
      exact Nat.zero_le _
    · intro before label after reached punctual moves within
      rcases Option.map_eq_some_iff.mp moves with ⟨state, steps, rfl⟩
      have inEngine := (simulation engine lib load created).reachable reached
      exact within.preserved (timely_of_reachable reached)
        (EngineState.slotted_of_reachable inEngine) (SimEngine.limiter_counted inEngine) punctual
        steps
  exact Nat.le_trans (Nat.le_add_right _ _) (within.2 op)

/-- Two reads on one slot: the second one waits for the delay of the first. -/
theorem delays_within_capacity_queued :
    exists timed : TimedEngine Rat (Fin 2) Unit,
      (queuedEngine.timedSystem .silent (.reads (Fin 2)) 0).ReachableBy Punctual timed ∧
      timed.state.delayed .read = 10000 ∧ timed.state.delayed .read ≤ 1 * (timed.clock - 0) := by
  let system := queuedEngine.timedSystem .silent (.reads (Fin 2)) 0
  let queueing : List (EngineLabel (Fin 2)) :=
    [.start 0 0, .fetchAdd 0, .acquire 0 1, .start 1 2, .fetchAdd 1, .acquire 1 3, .sample 0,
      .reserve 0 4, .slept 0 6000, .execute 0, .emit 0 6500 7, .record 0, .drop 0 (some 1),
      .wake 1 8000, .sample 1, .reserve 1 9000, .slept 1 20000, .execute 1, .emit 1 21000 8]
  have punctual : system.RunAllowed Punctual system.init queueing := by
    decide +kernel
  have delayed : (system.run system.init queueing).any (fun timed =>
      timed.state.delayed .read = 10000) = true := by
    decide +kernel
  rcases Option.any_eq_true _ _ |>.mp delayed with ⟨timed, runs, holds⟩
  have reached := System.ReachableBy.init.extend_allowed punctual runs
  exact ⟨timed, reached, of_decide_eq_true holds,
    delays_within_capacity _ _ _ _ timed reached .read⟩

end TimedEngine

end Fusecraft
