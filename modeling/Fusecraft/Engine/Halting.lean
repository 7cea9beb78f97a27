import Fusecraft.Library.Charging
import Fusecraft.Engine.Completion
import Fusecraft.Limiter.Refusals
import Mathlib.Algebra.BigOperators.Group.Finset.Basic

namespace Fusecraft

open Transition Charging

/-!
# Every run ends

A call makes ten steps of its own at most, and one more for the wakeup that its
dropped guard may cause.  So a run cannot go on for ever unless calls are woken
spuriously again and again.  Nor can it get stuck: where nothing but a spurious
wakeup is enabled, every call is over, because a sleeper in a queue implies a
slot in use or a notification on its way.
-/

namespace Phase

/-- How many steps a call in the limiter has yet to make or to cause. -/
def due : Phase -> Nat
  | idle => 9
  | parked _ => 8
  | notified _ => 9
  | awake _ _ => 9
  | holding _ => 8
  | refused _ => 2
  | dropped => 0
  | unwound => 0

theorem due_afterExit (exit : Exit) : (afterExit exit).due ≤ 8 := by
  cases exit <;> simp only [afterExit, due] <;> decide

end Phase

namespace Progress

variable {T : Type}

/-- How many steps a call has yet to make or to cause. -/
def due : Progress T -> Phase -> Nat
  | idle, _ => 11
  | started _, _ => 10
  | sequenced _ _, phase => phase.due
  | sampled _ _ _, _ => 7
  | sleeping _ _ _ _ _ _, _ => 6
  | ready _ _ _ _, _ => 5
  | executed _ _ _ _ _, _ => 4
  | emitted _ (some _) _ _, _ => 3
  | emitted _ none _ _, _ => 1
  | recorded _ _ _, _ => 2
  | unwinding _ _, _ => 2
  | returned _ _ _, _ => 0
  | panicked _ _, _ => 0

/-- Only a call in its acquisition is queued. -/
theorem Fits.sequenced {progress : Progress T} {phase : Phase} (fits : progress.Fits phase)
    (queued : phase.isQueued = true) : exists start seq, progress = .sequenced start seq := by
  rcases phase.exclusive_of_isQueued queued with ⟨-, notHolding, -, notRefused⟩
  have elsewhere : phase ≠ .idle ∧ phase ≠ .dropped := by
    constructor <;> rintro rfl <;> cases queued
  cases progress with
  | idle => exact absurd fits elsewhere.1
  | started start => exact absurd fits elsewhere.1
  | sequenced start seq => exact ⟨start, seq, rfl⟩
  | emitted seq served result totalUs =>
      cases served with
      | none => exact absurd (notRefused.symm.trans fits) Bool.false_ne_true
      | some served => exact absurd (notHolding.symm.trans fits) Bool.false_ne_true
  | returned seq served result =>
      cases served with
      | none => exact absurd (notRefused.symm.trans fits) Bool.false_ne_true
      | some served => exact absurd fits elsewhere.2
  | panicked seq served => exact absurd fits elsewhere.2
  | _ => exact absurd (notHolding.symm.trans fits) Bool.false_ne_true

/-- The call has returned or panicked. -/
def isOver : Progress T -> Bool
  | returned _ _ _ => true
  | panicked _ _ => true
  | _ => false

/-- A call that is over has given its slot back. -/
theorem Fits.not_over_of_holding {progress : Progress T} {phase : Phase}
    (fits : progress.Fits phase) (holds : phase.isHolding = true) : progress.isOver ≠ true := by
  intro gone
  have elsewhere : phase ≠ .dropped ∧ phase.isRefused ≠ true := by
    constructor
    · rintro rfl
      cases holds
    · intro refused
      cases phase with
      | holding queueWait => cases refused
      | _ => cases holds
  cases progress with
  | returned seq served result =>
      cases served with
      | none => exact elsewhere.2 fits
      | some served => exact elsewhere.1 fits
  | panicked seq served => exact elsewhere.1 fits
  | _ => cases gone

end Progress

namespace EngineLabel

variable {Call : Type}

/-- The label wakes a call for no reason. -/
def isSpurious : EngineLabel Call -> Bool
  | .spurious _ => true
  | _ => false

/-- What a label brings in: a spurious wakeup pays for itself and for the step
that it makes its call repeat. -/
def gain (label : EngineLabel Call) : Nat := if label.isSpurious then 2 else 0

end EngineLabel

/-! ## The steps of a limiter -/

namespace LimiterSystem

variable {Call : Type} [Fintype Call] [DecidableEq Call]
variable {limiter : BlockingLimiter} {system next : LimiterSystem Call} {call : Call}

/-- A step of an acquisition is one step less to make. -/
theorem due_of_queues (counted : system.Counted limiter) {label : EngineLabel Call}
    {limiterLabel : LimiterLabel Call} (own : SimEngine.Queues call limiterLabel)
    (asks : SimEngine.acquisition label = some limiterLabel)
    (moves : system.step limiter limiterLabel = some next) :
    (next.phase call).due + 1 ≤ (system.phase call).due + label.gain := by
  cases own with
  | acquire now =>
      rcases step_acquire moves with ⟨state, exit, -, -, idle, phase, -⟩
      rw [phase, idle]
      exact Nat.le_add_right_of_le (Nat.succ_le_succ (Phase.due_afterExit exit))
  | spurious =>
      have spurious : label = .spurious call := by
        cases label <;> cases asks
        rfl
      subst spurious
      cases phase : system.phase call with
      | parked waiter =>
          simp only [step, phase, Option.some.injEq] at moves
          subst moves
          simp only [Function.update_self]
          exact Nat.le_refl _
      | _ => simp [step, phase] at moves
  | wake now =>
      rcases step_wake counted moves with ⟨waiter, timedOut, state, exit, queued, -, -, phase, -⟩
      have before : (system.phase call).due = 9 := by
        rcases queued with notified | awake
        · rw [notified]
          rfl
        · rw [awake]
          rfl
      rw [phase, before]
      exact Nat.le_add_right_of_le (Nat.succ_le_succ (Phase.due_afterExit exit))

/-- A dropped guard notifies one sleeper at most. -/
theorem drop_cases (counted : system.Counted limiter) {notifies : Option Call}
    (moves : system.step limiter (.drop call notifies) = some next) :
    next.phase = Function.update system.phase call .dropped ∨
      exists other waiter, other ≠ call ∧ system.phase other = .parked waiter ∧
        next.phase =
          Function.update (Function.update system.phase call .dropped) other
            (.notified waiter) := by
  generalize shape : LimiterLabel.drop call notifies = label at moves
  cases step_cases counted moves with
  | enters moved _ idle state exit overflows deadline entered owner =>
      subst shape
      cases owner
      have idle : system.phase call = .idle := idle
      simp [step, idle] at moves
  | leaves moved waiter timedOut _ parked owner =>
      subst shape
      cases owner
      have parked : system.phase call = .parked waiter := parked
      simp [step, parked] at moves
  | wakes => cases shape
  | drops moved queueWait left holds inflight nobody =>
      cases shape
      exact Or.inl rfl
  | notifies moved other queueWait left waiter holds inflight parked =>
      cases shape
      refine Or.inr ⟨other, waiter, ?_, parked, rfl⟩
      rintro rfl
      rw [holds] at parked
      cases parked

/-- In every reachable state the capacity is covered while somebody sleeps. -/
theorem covered_of_reachable (reached : (limiter.system Call).Reachable system) :
    system.Covered limiter := by
  refine reached.invariant (fun state => state.Covered limiter) ?_
    (fun _ _ _ before _ moves covered => covered.preserved (counted_of_reachable before) moves)
  rintro ⟨call, parked⟩
  cases parked

/-- A limiter without capacity queues nobody. -/
theorem positive_of_queued (reached : (limiter.system Call).Reachable system) (call : Call)
    (queued : (system.phase call).isQueued = true) : 0 < limiter.cap := by
  revert call
  refine reached.invariant
    (fun state => forall call, (state.phase call).isQueued = true -> 0 < limiter.cap)
    (fun _ queued => by cases queued) ?_
  intro before label after reachedBefore _ moves positive call queued
  have here := positive call
  have turn := phase_step (counted_of_reachable reachedBefore) moves call
  generalize before.phase call = old, after.phase call = new at here turn queued
  cases turn with
  | stays phase => exact here queued
  | enters state exit overflows deadline entered =>
      cases entered with
      | parked waiter positive busy room => exact Nat.pos_of_ne_zero positive
      | _ => cases queued
  | drops queueWait => cases queued
  | _ => exact here rfl

end LimiterSystem

/-! ## The steps of the engine -/

namespace EngineState

variable {F Call T : Type}

/-- What one call owes in a state. -/
def owed (load : Workload Call T) (state : EngineState F Call T) (call : Call) : Nat :=
  (state.progress call).due ((state.limiters (load.ctx call).op).phase call)

variable {load : Workload Call T} {state next : EngineState F Call T} [DecidableEq Call]

/-- A step that leaves the limiters alone changes what its own call owes. -/
theorem owed_move {call : Call} {after : Progress T} (limiters : next.limiters = state.limiters)
    (moved : next.progress = Function.update state.progress call after) :
    next.owed load call = after.due ((state.limiters (load.ctx call).op).phase call) ∧
      forall other, other ≠ call -> next.owed load other = state.owed load other := by
  constructor
  · rw [owed, limiters, moved, Function.update_self]
  · intro other different
    rw [owed, owed, limiters, moved, Function.update_of_ne different]

omit [DecidableEq Call] in
/-- Whoever is queued in a limiter is a call of that op in its acquisition. -/
theorem Slotted.sequenced_of_queued (slotted : state.Slotted load) {op : FsOp} {call : Call}
    (queued : ((state.limiters op).phase call).isQueued = true) :
    (load.ctx call).op = op ∧ exists start seq, state.progress call = .sequenced start seq := by
  have own : (load.ctx call).op = op := by
    by_contra elsewhere
    rw [slotted.other call op (Ne.symm elsewhere)] at queued
    cases queued
  have fits := slotted.own call
  rw [own] at fits
  exact ⟨own, fits.sequenced queued⟩

omit [DecidableEq Call] in
/-- A step of one limiter leaves alone what calls of other phases owe. -/
theorem owed_frame {op : FsOp} {limiter : LimiterSystem Call} {call : Call}
    (limiters : next.limiters = Function.update state.limiters op limiter)
    (phase : limiter.phase call = (state.limiters op).phase call)
    (progress : next.progress call = state.progress call) :
    next.owed load call = state.owed load call := by
  rw [owed, owed, limiters, progress]
  by_cases same : (load.ctx call).op = op
  · rw [same, Function.update_self, phase]
  · rw [Function.update_of_ne same]

variable [Fintype Call] {engine : SimEngine F}

/-- What all calls owe in a state. -/
def due (load : Workload Call T) (state : EngineState F Call T) : Nat :=
  total (state.owed load)

omit [DecidableEq Call] in
theorem due_initial [F64 F] (load : Workload Call T) (engine : SimEngine F) (created : Nat) :
    (engine.initial created : EngineState F Call T).due load = 11 * Fintype.card Call := by
  have each : (engine.initial created : EngineState F Call T).owed load = fun _ => 11 := rfl
  rw [due, each, total, Finset.sum_const, Finset.card_univ, Nat.nsmul_eq_mul, Nat.mul_comm]

/-- A step in which one call pays is paid for. -/
theorem due_of_mover {call : Call} {gain : Nat}
    (others : forall other, other ≠ call -> next.owed load other = state.owed load other)
    (pays : next.owed load call + 1 ≤ state.owed load call + gain) :
    next.due load + 1 ≤ state.due load + gain := by
  have traded := total_exchange call others
  unfold due
  omega

/-- Giving the slot back pays for the sleeper that it notifies. -/
theorem due_leaves (counted : forall op, (state.limiters op).Counted (engine.resources op).limiter)
    (slotted : state.Slotted load) {call : Call} {notifies : Option Call} {after : Progress T}
    (ends : SimEngine.Leaves (state.progress call) after) {limiter : LimiterSystem Call}
    (steps : (state.limiters (load.ctx call).op).step
      (engine.resources (load.ctx call).op).limiter (.drop call notifies) = some limiter) :
    ((state.setLimiter (load.ctx call).op limiter).setProgress call after).due load + 1 ≤
      state.due load := by
  generalize shape : (state.setLimiter (load.ctx call).op limiter).setProgress call after = next
  have limiters : next.limiters = Function.update state.limiters (load.ctx call).op limiter := by
    rw [← shape]
    rfl
  have progress : next.progress = Function.update state.progress call after := by
    rw [← shape]
    rfl
  have paid : next.owed load call + 2 = state.owed load call := by
    rw [owed, owed, progress, Function.update_self]
    generalize state.progress call = before at ends
    cases ends <;> rfl
  have frame : forall other, other ≠ call ->
      limiter.phase other = (state.limiters (load.ctx call).op).phase other ->
      next.owed load other = state.owed load other := by
    intro other different phase
    refine owed_frame limiters phase ?_
    rw [progress, Function.update_of_ne different]
  rcases LimiterSystem.drop_cases (counted _) steps with phases | ⟨other, waiter, different,
    parked, phases⟩
  · have traded := total_exchange call (fun other apart => frame other apart (by
      rw [phases, Function.update_of_ne apart]))
    unfold due
    omega
  · have queued : ((state.limiters (load.ctx call).op).phase other).isQueued = true := by
      rw [parked]
      rfl
    rcases slotted.sequenced_of_queued queued with ⟨own, start, seq, waits⟩
    have before : state.owed load other = 8 := by
      rw [owed, waits, own, parked]
      rfl
    have now : next.owed load other = 9 := by
      rw [owed, limiters, own, Function.update_self, phases, Function.update_self, progress,
        Function.update_of_ne different, waits]
      rfl
    have traded := total_exchange_two different (fun another apart apart' => frame another apart (by
      rw [phases, Function.update_of_ne apart', Function.update_of_ne apart]))
    unfold due
    omega

/-- A step that moves one call ahead without touching a limiter is paid for. -/
theorem due_advance {call : Call} (after : Progress T) {gain : Nat}
    (limiters : next.limiters = state.limiters)
    (moved : next.progress = Function.update state.progress call after)
    (pays : after.due ((state.limiters (load.ctx call).op).phase call) + 1 ≤
      state.owed load call) : next.due load + 1 ≤ state.due load + gain := by
  rcases owed_move limiters moved with ⟨own, others⟩
  apply due_of_mover others
  rw [own]
  exact Nat.le_add_right_of_le pays

variable [F64 F] {lib : SamplerLib F}

/-- Every step is paid for by its call, or by its label. -/
theorem due_step (slotted : state.Slotted load)
    (counted : forall op, (state.limiters op).Counted (engine.resources op).limiter)
    {label : EngineLabel Call} (moves : engine.step lib load state label = some next) :
    next.due load + 1 ≤ state.due load + label.gain := by
  cases SimEngine.step_cases moves with
  | advances call _ progress local' =>
      refine due_advance progress rfl rfl ?_
      rw [owed]
      generalize state.progress call = before at local'
      cases local' with
      | starts now => exact Nat.le_refl _
      | samples start seq queueWait admitted =>
          simp only [Progress.due]
          rw [admitted]
          exact Nat.le_refl _
      | sleeps start seq served delay sleepFor since now => exact Nat.le_refl _
  | takes call start started =>
      have idle := slotted.own call
      rw [started] at idle
      refine due_advance (.sequenced start state.seq) rfl rfl ?_
      rw [owed, started]
      simp only [Progress.due]
      rw [show (state.limiters (load.ctx call).op).phase call = .idle from idle]
      exact Nat.le_refl _
  | queues call _ start seq limiterLabel limiter waits own steps asks =>
      rcases LimiterSystem.phase_of_queues (counted _) own steps with ⟨unmoved, -⟩
      have others : forall other, other ≠ call ->
          (state.setLimiter (load.ctx call).op limiter).owed load other = state.owed load other :=
        fun other different => owed_frame rfl (unmoved other different) rfl
      apply due_of_mover others
      have paid := LimiterSystem.due_of_queues (counted _) own asks steps
      rw [owed, owed]
      change (state.progress call).due ((Function.update state.limiters (load.ctx call).op limiter
        (load.ctx call).op).phase call) + 1 ≤ _
      rw [waits, Function.update_self]
      exact paid
  | reserves call now start seq served bucket delay sampled reserved =>
      refine due_advance (.afterReserve start seq served delay now) rfl rfl ?_
      rw [owed, sampled]
      unfold Progress.afterReserve
      split <;> simp only [Progress.due] <;> decide
  | executes call start seq served delay awake =>
      refine due_advance (.executed start seq served delay
        (SimEngine.reply served (load.body call))) rfl rfl ?_
      rw [owed, awake]
      exact Nat.le_refl _
  | emits call now unixNanos seq served delay result totalUs settled =>
      refine due_advance (.emitted seq served result totalUs) rfl rfl ?_
      rw [owed]
      cases settled with
      | executed start seq served delay result ran =>
          rw [ran]
          exact Nat.le_refl _
      | refused start seq err waits refusal =>
          rw [waits, refusal]
          exact Nat.le_refl _
  | records call seq served result totalUs emitted =>
      refine due_advance (.afterRecord seq result served) rfl rfl ?_
      rw [owed, emitted]
      cases served <;> exact Nat.le_refl _
  | leaves call notifies progress limiter ends steps =>
      exact Nat.le_add_right_of_le (due_leaves counted slotted ends steps)

/-! ## No way to get stuck -/

/-- Nothing but a spurious wakeup can happen. -/
def Quiet (engine : SimEngine F) (lib : SamplerLib F) (load : Workload Call T)
    (state : EngineState F Call T) : Prop :=
  forall label : EngineLabel Call, label.isSpurious = false ->
    engine.step lib load state label = none

/-- Of a call that is not over, only the sleep in the queue is no step. -/
theorem Quiet.over_or_parked (quiet : state.Quiet engine lib load) (slotted : state.Slotted load)
    (counted : forall op, (state.limiters op).Counted (engine.resources op).limiter) (call : Call) :
    (state.progress call).isOver = true ∨
      ((state.limiters (load.ctx call).op).phase call).isParked = true := by
  have fits := slotted.own call
  have drops : ((state.limiters (load.ctx call).op).phase call).isHolding = true ->
      exists notifies limiter, (state.limiters (load.ctx call).op).step
        (engine.resources (load.ctx call).op).limiter (.drop call notifies) = some limiter :=
    fun holds => (counted _).exists_drop holds
  cases stage : state.progress call with
  | idle => exact absurd (quiet (.start call 0) rfl) (by simp [SimEngine.step, stage])
  | started start => exact absurd (quiet (.fetchAdd call) rfl) (by simp [SimEngine.step, stage])
  | sequenced start seq =>
      cases phase : (state.limiters (load.ctx call).op).phase call with
      | idle =>
          exact absurd (quiet (.acquire call 0) rfl) (by
            simp [SimEngine.step, stage, SimEngine.limiterStep, LimiterSystem.step, phase])
      | parked waiter => exact Or.inr rfl
      | notified waiter =>
          exact absurd (quiet (.wake call 0) rfl) (by
            simp [SimEngine.step, stage, SimEngine.limiterStep, LimiterSystem.step, phase])
      | awake waiter timedOut =>
          exact absurd (quiet (.wake call 0) rfl) (by
            simp [SimEngine.step, stage, SimEngine.limiterStep, LimiterSystem.step, phase])
      | holding queueWait =>
          exact absurd (quiet (.sample call) rfl) (by simp [SimEngine.step, stage, phase])
      | refused err =>
          exact absurd (quiet (.emit call 0 0) rfl) (by simp [SimEngine.step, stage, phase])
      | dropped => rw [stage, phase] at fits; cases fits
      | unwound => rw [stage, phase] at fits; cases fits
  | sampled start seq served =>
      exact absurd (quiet (.reserve call 0) rfl) (by simp [SimEngine.step, stage])
  | sleeping start seq served delay sleepFor since =>
      exact absurd (quiet (.slept call 0) rfl) (by simp [SimEngine.step, stage])
  | ready start seq served delay =>
      exact absurd (quiet (.execute call) rfl) (by simp [SimEngine.step, stage])
  | executed start seq served delay result =>
      exact absurd (quiet (.emit call 0 0) rfl) (by simp [SimEngine.step, stage])
  | emitted seq served result totalUs =>
      exact absurd (quiet (.record call) rfl) (by simp [SimEngine.step, stage])
  | recorded seq served result =>
      rw [stage] at fits
      rcases drops fits with ⟨notifies, limiter, steps⟩
      exact absurd (quiet (.drop call notifies) rfl) (by
        simp [SimEngine.step, stage, SimEngine.limiterStep, steps])
  | unwinding seq served =>
      rw [stage] at fits
      rcases drops fits with ⟨notifies, limiter, steps⟩
      exact absurd (quiet (.drop call notifies) rfl) (by
        simp [SimEngine.step, stage, SimEngine.limiterStep, steps])
  | returned seq served result => exact Or.inl rfl
  | panicked seq served => exact Or.inl rfl

variable {created : Nat}

/-- Where nothing but a spurious wakeup can happen, every call is over: a
sleeper would need somebody with a slot or a notification, who could move. -/
theorem Quiet.isOver (quiet : state.Quiet engine lib load)
    (reached : (engine.system lib load created).Reachable state) (call : Call) :
    (state.progress call).isOver = true := by
  have slotted := slotted_of_reachable reached
  have counted := SimEngine.limiter_counted reached
  rcases quiet.over_or_parked slotted counted call with gone | parked
  · exact gone
  · exfalso
    let op := (load.ctx call).op
    have inLimiter := (SimEngine.limiter_simulation op).reachable reached
    have queued : ((state.limiters op).phase call).isQueued = true := by
      cases phase : (state.limiters op).phase call <;> rw [phase] at parked <;> cases parked
      rfl
    have positive := LimiterSystem.positive_of_queued inLimiter call queued
    have full := LimiterSystem.covered_of_reachable inLimiter ⟨call, parked⟩
    have idler : forall other, ((state.limiters op).phase other).isQueued = true ->
        ((state.limiters op).phase other).isParked = true := by
      intro other queued
      rcases slotted.sequenced_of_queued queued with ⟨own, start, seq, waits⟩
      rcases quiet.over_or_parked slotted counted other with gone | asleep
      · rw [waits] at gone
        cases gone
      · rw [← own]
        exact asleep
    have awaited : (state.limiters op).number Phase.isNotified = 0 := by
      refine (Counting.count_eq_zero_iff _ _).mpr (fun other => ?_)
      have asleep := idler other
      cases phase : (state.limiters op).phase other with
      | notified waiter =>
          rw [phase] at asleep
          cases asleep rfl
      | _ => rfl
    have taken : 0 < (state.limiters op).number Phase.isHolding := by
      rw [← (counted op).inflight]
      omega
    rcases (Counting.count_pos_iff _ _).mp taken with ⟨holder, holds⟩
    have own : (load.ctx holder).op = op := by
      by_contra elsewhere
      rw [slotted.other holder op (Ne.symm elsewhere)] at holds
      cases holds
    rw [← own] at holds
    rcases quiet.over_or_parked slotted counted holder with gone | asleep
    · have fits := slotted.own holder
      generalize state.progress holder = stage,
        (state.limiters (load.ctx holder).op).phase holder = phase at fits holds gone
      exact fits.not_over_of_holding holds gone
    · generalize (state.limiters (load.ctx holder).op).phase holder = phase at asleep holds
      cases phase with
      | holding queueWait => cases asleep
      | _ => cases holds

end EngineState

/-! ## Every run ends -/

namespace SimEngine

variable {F Call T : Type}

/-- What the labels of a list bring in. -/
theorem sum_gain (labels : List (EngineLabel Call)) :
    (labels.map EngineLabel.gain).sum = 2 * labels.countP EngineLabel.isSpurious := by
  induction labels with
  | nil => rfl
  | cons label rest ih =>
      rw [List.map_cons, List.sum_cons, ih, List.countP_cons, EngineLabel.gain]
      cases label.isSpurious with
      | false => simp
      | true =>
          simp only [if_true]
          omega

variable [F64 F] [Fintype Call] [DecidableEq Call]

variable {engine : SimEngine F} {lib : SamplerLib F} {load : Workload Call T} {created : Nat}

theorem due_pays {before after : EngineState F Call T} {label : EngineLabel Call}
    (reached : (engine.system lib load created).Reachable before)
    (moves : (engine.system lib load created).step before label = some after) :
    after.due load + 1 ≤ before.due load + label.gain :=
  EngineState.due_step (EngineState.slotted_of_reachable reached) (limiter_counted reached) moves

/-- From every reachable state, some run without spurious wakeups brings every
call to its end. -/
theorem exists_over {state : EngineState F Call T}
    (reached : (engine.system lib load created).Reachable state) :
    exists labels finish, (forall label, label ∈ labels -> label.isSpurious = false) ∧
      (engine.system lib load created).run state labels = some finish ∧
      forall call, (finish.progress call).isOver = true := by
  have paid : forall before label after, (engine.system lib load created).Reachable before ->
      label.isSpurious = false -> (engine.system lib load created).step before label =
        some after -> after.due load < before.due load := by
    intro before label after reached steady moves
    have paid := due_pays reached moves
    rw [EngineLabel.gain, steady] at paid
    exact paid
  rcases System.exists_quiet paid reached with ⟨labels, finish, steady, runs, quiet⟩
  exact ⟨labels, finish, steady, runs, EngineState.Quiet.isOver quiet
    (reached.extend labels (fun _ _ _ => trivial) runs)⟩

/-- Under every schedule and every limit, a run is no longer than eleven steps
for each call and two for each spurious wakeup; it stops only where every call
has returned or panicked; and it can be continued, without spurious wakeups,
until it stops.  Nothing deadlocks. -/
theorem every_run_ends (engine : SimEngine F) (lib : SamplerLib F) (load : Workload Call T)
    (created : Nat) :
    (forall labels state, (engine.system lib load created).run
        (engine.system lib load created).init labels = some state ->
      labels.length ≤ 11 * Fintype.card Call + 2 * labels.countP EngineLabel.isSpurious) ∧
    (forall state, (engine.system lib load created).Reachable state ->
      ((forall label : EngineLabel Call, label.isSpurious = false ->
          (engine.system lib load created).step state label = none) ->
        forall call, (state.progress call).isOver = true) ∧
      exists labels finish, (forall label, label ∈ labels -> label.isSpurious = false) ∧
        (engine.system lib load created).run state labels = some finish ∧
        forall call, (finish.progress call).isOver = true) := by
  constructor
  · intro labels state runs
    have short := System.length_le (fun _ _ _ => due_pays) .init runs
    have initially : (engine.system lib load created).init.due load = 11 * Fintype.card Call :=
      EngineState.due_initial load engine created
    rw [sum_gain, initially] at short
    omega
  · intro state reached
    exact ⟨fun quiet => EngineState.Quiet.isOver quiet reached, exists_over reached⟩

end SimEngine

end Fusecraft
