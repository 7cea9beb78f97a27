import Fusecraft.Limiter.Schedules

namespace Fusecraft

open Counting Transition

/-!
# Safety and wakeups of the blocking limiter

Two facts about every reachable state.  The first is bookkeeping: the five
counters that four exits of two loops maintain by hand agree with the number
of calls in each condition.  The second is that no notification is lost: as
long as a call sleeps in the queue, the slots in use together with the calls
that are already on their way to the mutex account for the whole capacity.
-/

namespace LimiterSystem

variable {Call : Type*} [Fintype Call]
variable {limiter : BlockingLimiter} {system : LimiterSystem Call}

/-! ## The counters -/

theorem counted_initial : (initial : LimiterSystem Call).Counted limiter where
  inflight := (count_const _ _ rfl).symm
  inflight_le := Nat.zero_le _
  queued := by
    simp only [number, initial, LimiterState.initial]
    rw [count_const _ _ rfl, count_const _ _ rfl]
  queued_le := Nat.zero_le _
  acquired := by
    simp only [number, initial, LimiterState.initial]
    rw [count_const _ _ rfl, count_const _ _ rfl]
  rejected := (count_const _ _ rfl).symm
  sound := rfl

/-- A call that has passed its first critical section is in the queue, holds
a guard, has dropped it, was refused or has unwound. -/
theorem number_entered (system : LimiterSystem Call) :
    system.number Phase.hasEntered =
      system.number Phase.isQueued + (system.number Phase.isHolding +
        (system.number Phase.isDropped + (system.number Phase.isRefused +
          system.number Phase.isUnwound))) := by
  have split : Phase.hasEntered = fun phase => phase.isQueued || (phase.isHolding ||
      (phase.isDropped || (phase.isRefused || phase.isUnwound))) := by
    funext phase
    cases phase <;> rfl
  unfold number
  rw [split, count_or _ _ (by intro phase; cases phase <;> rfl),
    count_or _ _ (by intro phase; cases phase <;> rfl),
    count_or _ _ (by intro phase; cases phase <;> rfl),
    count_or _ _ (by intro phase; cases phase <;> rfl)]

variable [DecidableEq Call]

/-- Replacing the phase of one call keeps the counters right if each counter
moves by what the old and the new phase contribute to it. -/
theorem Counted.replace (counted : system.Counted limiter) {call : Call} {old : Phase}
    (was : system.phase call = old) (phase : Phase) (state : LimiterState)
    (inflight : state.inflight + old.isHolding.toNat =
      system.state.inflight + phase.isHolding.toNat)
    (inflight_le : state.inflight ≤ limiter.cap)
    (queued : state.queued + (old.isQueued.toNat + old.isUnwound.toNat) =
      system.state.queued + (phase.isQueued.toNat + phase.isUnwound.toNat))
    (queued_le : state.queued ≤ limiter.queueCap)
    (acquired : state.totalAcquired + (old.isHolding.toNat + old.isDropped.toNat) =
      system.state.totalAcquired + (phase.isHolding.toNat + phase.isDropped.toNat))
    (rejected : state.totalRejected + old.isRefused.toNat =
      system.state.totalRejected + phase.isRefused.toNat) :
    ({ system with
        state := state
        phase := Function.update system.phase call phase } : LimiterSystem Call).Counted
      limiter := by
  have moved := fun test => number_update system test call phase state
    system.underflowed
  rw [was] at moved
  have holding := moved Phase.isHolding
  have queueing := moved Phase.isQueued
  have unwound := moved Phase.isUnwound
  have dropped := moved Phase.isDropped
  have refused := moved Phase.isRefused
  have before := counted
  rcases before with ⟨oldInflight, -, oldQueued, -, oldAcquired, oldRejected, sound⟩
  constructor
  · change state.inflight = _
    omega
  · exact inflight_le
  · change state.queued = _
    omega
  · exact queued_le
  · change state.totalAcquired = _
    omega
  · change state.totalRejected = _
    omega
  · exact sound

theorem Counted.enters (counted : system.Counted limiter) {call : Call} {next : LimiterState}
    {exit : Exit} {overflows : Prop} (idle : system.phase call = .idle)
    (entered : Entered limiter overflows system.state next exit) :
    ({ system with
        state := next
        phase := Function.update system.phase call (.afterExit exit) } :
      LimiterSystem Call).Counted limiter := by
  have inflight_le := counted.inflight_le
  have queued_le := counted.queued_le
  cases entered <;> apply counted.replace idle <;>
    simp [LimiterState.reject, LimiterState.takeSlot, LimiterState.enqueue] <;> omega

theorem Counted.wakes (counted : system.Counted limiter) {call : Call} {waiter : Waiter}
    {next : LimiterState} {exit : Exit}
    (queued : system.phase call = .notified waiter ∨
      exists timedOut, system.phase call = .awake waiter timedOut)
    (woken : Woken limiter system.state waiter next exit) :
    ({ system with
        state := next
        phase := Function.update system.phase call (.afterExit exit) } :
      LimiterSystem Call).Counted limiter := by
  have inflight_le := counted.inflight_le
  have queued_le := counted.queued_le
  have inQueue : exists old, system.phase call = old ∧ old.isQueued = true := by
    rcases queued with phase | ⟨timedOut, phase⟩
    · exact ⟨_, phase, rfl⟩
    · exact ⟨_, phase, rfl⟩
  rcases inQueue with ⟨old, phase, inQueue⟩
  have elsewhere := old.exclusive_of_isQueued inQueue
  rcases elsewhere with ⟨notUnwound, notHolding, notDropped, notRefused⟩
  cases woken with
  | admitted queueWait left free waiting =>
      have room : left ≤ limiter.queueCap := by omega
      exact counted.replace phase _ _ (by rw [notHolding]; rfl) free
        (by rw [inQueue, notUnwound, waiting]; rfl) room
        (by rw [notHolding, notDropped]; rfl) (by rw [notRefused]; rfl)
  | parked busy =>
      exact counted.replace phase _ _ (by rw [notHolding]; rfl) inflight_le
        (by rw [inQueue, notUnwound]; rfl) queued_le (by rw [notHolding, notDropped]; rfl)
        (by rw [notRefused]; rfl)
  | gaveUp left busy waiting timed =>
      have room : left ≤ limiter.queueCap := by omega
      exact counted.replace phase _ _ (by rw [notHolding]; rfl) inflight_le
        (by rw [inQueue, notUnwound, waiting]; rfl) room
        (by rw [notHolding, notDropped]; rfl) (by rw [notRefused]; rfl)

/-- The part of a guard drop that is common to both notifications. -/
theorem Counted.drops (counted : system.Counted limiter) {call : Call} {queueWait left : Nat}
    (holds : system.phase call = .holding queueWait)
    (inflight : system.state.inflight = left + 1) :
    ({ system with
        state := { system.state with inflight := left }
        phase := Function.update system.phase call .dropped } :
      LimiterSystem Call).Counted limiter := by
  have inflight_le := counted.inflight_le
  exact counted.replace holds .dropped _ (by simp [inflight]) (by show left ≤ _; omega) (by simp)
    counted.queued_le (by simp) (by simp)

/-- Moving a call within the queue changes no counter. -/
theorem Counted.moves (counted : system.Counted limiter) {call : Call} {waiter : Waiter}
    (parked : system.phase call = .parked waiter) (phase : Phase)
    (queued : phase.isQueued = true) :
    ({ system with phase := Function.update system.phase call phase } :
      LimiterSystem Call).Counted limiter := by
  cases phase <;> simp only [Phase.isQueued, Bool.false_eq_true] at queued <;>
    exact counted.replace parked _ system.state rfl counted.inflight_le rfl counted.queued_le
      rfl rfl

/-- Every step keeps the counters right. -/
theorem Counted.preserved (counted : system.Counted limiter) {label : LimiterLabel Call}
    {next : LimiterSystem Call} (moves : system.step limiter label = some next) :
    next.Counted limiter := by
  cases step_cases counted moves with
  | enters call _ idle state exit _ _ entered => exact counted.enters idle entered
  | leaves call waiter timedOut _ parked => exact counted.moves parked _ rfl
  | wakes call waiter now queued state exit woken => exact counted.wakes queued woken
  | drops call queueWait left holds inflight nobody => exact counted.drops holds inflight
  | notifies call other queueWait left waiter holds inflight parked =>
      have released := counted.drops holds inflight
      refine released.moves (?_ : _ = Phase.parked waiter) (.notified waiter) rfl
      have different : other ≠ call := by
        rintro rfl
        rw [parked] at holds
        cases holds
      exact (Function.update_of_ne different _ _).trans parked

theorem counted_of_reachable {allowed : LimiterSystem Call -> LimiterLabel Call -> Prop}
    (reached : (limiter.system Call).ReachableBy allowed system) : system.Counted limiter :=
  reached.invariant (fun state => state.Counted limiter) counted_initial
    (fun _ _ _ _ _ moves counted => counted.preserved moves)

/-! ## One call in one step -/

/-- What a step can do to the phase of one call, its own or another. -/
inductive PhaseStep (limiter : BlockingLimiter) (state : LimiterState)
    (label : LimiterLabel Call) : Phase -> Phase -> Prop
  | stays (phase : Phase) : PhaseStep limiter state label phase phase
  | enters (next : LimiterState) (exit : Exit) (overflows : Prop)
      (deadline : overflows -> ¬ label.Representable)
      (entered : Entered limiter overflows state next exit) :
      PhaseStep limiter state label .idle (.afterExit exit)
  | leaves (waiter : Waiter) (timedOut : Bool) :
      PhaseStep limiter state label (.parked waiter) (.awake waiter timedOut)
  | resumes (waiter : Waiter) (next : LimiterState) (exit : Exit)
      (woken : Woken limiter state waiter next exit) :
      PhaseStep limiter state label (.notified waiter) (.afterExit exit)
  | retries (waiter : Waiter) (timedOut : Bool) (next : LimiterState) (exit : Exit)
      (woken : Woken limiter state waiter next exit) :
      PhaseStep limiter state label (.awake waiter timedOut) (.afterExit exit)
  | drops (queueWait : Nat) : PhaseStep limiter state label (.holding queueWait) .dropped
  | notified (waiter : Waiter) : PhaseStep limiter state label (.parked waiter) (.notified waiter)

theorem phase_step (counted : system.Counted limiter) {label : LimiterLabel Call}
    {next : LimiterSystem Call} (moves : system.step limiter label = some next) (call : Call) :
    PhaseStep limiter system.state label (system.phase call) (next.phase call) := by
  have apart : forall {phases : Call -> Phase} (moved : Call) (phase : Phase),
      PhaseStep limiter system.state label (system.phase call) (phases call) ->
      (call = moved -> PhaseStep limiter system.state label (system.phase call) phase) ->
      PhaseStep limiter system.state label (system.phase call)
        (Function.update phases moved phase call) := by
    intro phases moved phase before own
    rcases update_cases phases moved call phase with ⟨same, value⟩ | ⟨-, value⟩
    · rw [value]
      exact own same
    · rw [value]
      exact before
  cases step_cases counted moves with
  | enters moved _ idle state exit overflows deadline entered =>
      refine apart moved _ (.stays _) (fun same => ?_)
      rw [same, idle]
      exact .enters state exit overflows deadline entered
  | leaves moved waiter timedOut _ parked =>
      refine apart moved _ (.stays _) (fun same => ?_)
      rw [same, parked]
      exact .leaves waiter timedOut
  | wakes moved waiter now queued state exit woken =>
      refine apart moved _ (.stays _) (fun same => ?_)
      rcases queued with phase | ⟨timedOut, phase⟩
      · rw [same, phase]
        exact .resumes waiter state exit woken
      · rw [same, phase]
        exact .retries waiter timedOut state exit woken
  | drops moved queueWait left holds inflight nobody =>
      refine apart moved _ (.stays _) (fun same => ?_)
      rw [same, holds]
      exact .drops queueWait
  | notifies moved other queueWait left waiter holds inflight parked =>
      refine apart other _ (apart moved _ (.stays _) (fun same => ?_)) (fun same => ?_)
      · rw [same, holds]
        exact .drops queueWait
      · rw [same, parked]
        exact .notified waiter

/-! ## Representable deadlines -/

/-- A run whose deadlines are all representable unwinds no call. -/
theorem unwound_free (reached : (limiter.system Call).ReachableBy
      (fun _ label => label.Representable) system) (call : Call) :
    (system.phase call).isUnwound = false := by
  revert call
  refine reached.invariant (fun state => forall call, (state.phase call).isUnwound = false)
    (fun _ => rfl) ?_
  intro before label after reachedBefore fits moves free call
  have here := free call
  have turn := phase_step (counted_of_reachable reachedBefore) moves call
  generalize before.phase call = old, after.phase call = new at here turn ⊢
  cases turn with
  | stays phase => exact here
  | enters state exit overflows deadline entered =>
      cases entered with
      | unwound _ _ _ overflow => exact absurd fits (deadline overflow)
      | _ => rfl
  | resumes waiter state exit woken => cases woken <;> rfl
  | retries waiter timedOut state exit woken => cases woken <;> rfl
  | _ => rfl

/-- Safety of the limiter.  For every capacity, every queue capacity and every
finite set of calls, in every state that a schedule with representable
deadlines can reach: the slots in use are the live guards and never more than
`cap`, the queue length is the number of calls in the queue and never more
than `queueCap`, no decrement has met a zero, and the two running totals
account for every guard ever handed out and for every call ever entered. -/
theorem counters_exact
    (reached : (limiter.system Call).ReachableBy
      (fun _ label => label.Representable) system) :
    system.state.inflight = system.number Phase.isHolding ∧
    system.state.inflight ≤ limiter.cap ∧
    system.state.queued = system.number Phase.isQueued ∧
    system.state.queued ≤ limiter.queueCap ∧
    system.underflowed = false ∧
    system.state.totalAcquired = system.state.inflight + system.number Phase.isDropped ∧
    system.state.totalAcquired + system.state.totalRejected + system.state.queued =
      system.number Phase.hasEntered := by
  have counted := counted_of_reachable reached
  have inflight := counted.inflight
  have queued := counted.queued
  have acquired := counted.acquired
  have rejected := counted.rejected
  have entered := number_entered system
  have unwound : system.number Phase.isUnwound = 0 :=
    (count_eq_zero_iff _ _).mpr (unwound_free reached)
  refine ⟨inflight, counted.inflight_le, ?_, counted.queued_le, counted.sound, ?_, ?_⟩ <;> omega

/-- Two calls on a limiter of capacity one: the second queues with a timeout,
is notified by the first guard's drop, and takes the slot. -/
theorem counters_exact_handover :
    exists system : LimiterSystem (Fin 2),
      system.phase 1 = .holding 7 ∧ system.state.inflight = 1 ∧
      system.state.inflight = system.number Phase.isHolding ∧
      system.state.totalAcquired = system.state.inflight + system.number Phase.isDropped := by
  obtain ⟨system, runs, holds, inflight⟩ : exists system : LimiterSystem (Fin 2),
      ((BlockingLimiter.mk 1 1).system (Fin 2)).run initial
        [.acquire 0 3, .acquireTimeout 1 10 5 5, .drop 0 (some 1), .wake 1 12] = some system ∧
      system.phase 1 = .holding 7 ∧ system.state.inflight = 1 := ⟨_, rfl, rfl, rfl⟩
  have counters := counters_exact (.extend .init _ (by simp [LimiterLabel.Representable,
    instantMax]) runs)
  exact ⟨system, holds, inflight, counters.1, counters.2.2.2.2.2.1⟩

/-! ## Wakeups -/

/-- As long as a call is parked, the slots in use and the notified calls that
have yet to take the mutex make up the whole capacity. -/
def Covered (limiter : BlockingLimiter) (system : LimiterSystem Call) : Prop :=
  (exists call, (system.phase call).isParked = true) ->
    limiter.cap ≤ system.state.inflight + system.number Phase.isNotified

omit [Fintype Call] in
/-- Giving a call a phase other than `parked` parks nobody. -/
theorem exists_parked_of_update {call : Call} {phase : Phase} {phases : Call -> Phase}
    (free : phase.isParked = false)
    (parked : exists other, (Function.update phases call phase other).isParked = true) :
    exists other, (phases other).isParked = true := by
  rcases parked with ⟨other, parked⟩
  by_cases same : other = call
  · rw [same, Function.update_self, free] at parked
    cases parked
  · rw [Function.update_of_ne same] at parked
    exact ⟨other, parked⟩

/-- Each step keeps the capacity covered.  A notification is used up either by
an admission, which takes the slot it announced, or where no slot is free. -/
theorem Covered.preserved (counted : system.Counted limiter) (covered : system.Covered limiter)
    {label : LimiterLabel Call} {next : LimiterSystem Call}
    (moves : system.step limiter label = some next) : next.Covered limiter := by
  cases step_cases counted moves with
  | enters call _ idle state exit overflows deadline entered =>
      intro parked
      have notified := number_update system Phase.isNotified call (.afterExit exit)
        state system.underflowed
      rw [idle, Phase.isNotified_afterExit] at notified
      rw [Nat.add_right_cancel notified]
      cases entered with
      | parked waiter positive busy room => exact Nat.le_add_right_of_le busy
      | admitted free =>
          have before := covered (exists_parked_of_update rfl parked)
          simp only [LimiterState.takeSlot]
          omega
      | _ => exact covered (exists_parked_of_update rfl parked)
  | leaves call waiter timedOut _ parkedCall =>
      intro parked
      have before := covered (exists_parked_of_update rfl parked)
      have notified := number_update system Phase.isNotified call
        (.awake waiter timedOut) system.state system.underflowed
      rw [parkedCall] at notified
      simp only [Phase.isNotified, Bool.toNat_false] at notified
      simp only
      omega
  | wakes call waiter now queued state exit woken =>
      intro parked
      have notified := number_update system Phase.isNotified call (.afterExit exit)
        state system.underflowed
      have used : (system.phase call).isNotified.toNat ≤ 1 := Bool.toNat_le _
      rw [Phase.isNotified_afterExit, Bool.toNat_false] at notified
      cases woken with
      | admitted queueWait left free waiting =>
          have before := covered (exists_parked_of_update rfl parked)
          simp only at notified ⊢
          omega
      | parked busy => exact Nat.le_add_right_of_le busy
      | gaveUp left busy waiting timed => exact Nat.le_add_right_of_le busy
  | drops call queueWait left holds inflight nobody =>
      intro parked
      rcases exists_parked_of_update rfl parked with ⟨other, parked⟩
      rw [nobody other] at parked
      cases parked
  | notifies call other queueWait left waiter holds inflight parkedOther =>
      intro parked
      have before := covered ⟨other, by rw [parkedOther]; rfl⟩
      have released := number_update system Phase.isNotified call .dropped
        system.state system.underflowed
      have notified := number_update { system with
          phase := Function.update system.phase call .dropped } Phase.isNotified other
        (.notified waiter) { system.state with inflight := left } system.underflowed
      have different : other ≠ call := by
        rintro rfl
        rw [parkedOther] at holds
        cases holds
      rw [holds] at released
      simp only [Function.update_of_ne different, parkedOther, Phase.isNotified,
        Bool.toNat_false, Bool.toNat_true] at released notified
      simp only
      omega

/-- No wakeup is lost, under every schedule and every clock: while a call is
parked un-notified, the slots in use together with the notified calls that
have not re-taken the mutex reach the capacity.  So a free slot, a sleeper and
nobody on the way to the slot never occur together. -/
theorem no_lost_wakeup (reached : (limiter.system Call).Reachable system) :
    ((exists call, (system.phase call).isParked = true) ->
      limiter.cap ≤ system.state.inflight + system.number Phase.isNotified) ∧
    ¬ (system.state.inflight < limiter.cap ∧
      (exists call, (system.phase call).isParked = true) ∧
      forall call, (system.phase call).isNotified = false) := by
  have covered : system.Covered limiter := by
    refine reached.invariant (fun state => state.Covered limiter) ?_
      (fun _ _ _ before _ moves covered =>
        covered.preserved (counted_of_reachable before) moves)
    rintro ⟨call, parked⟩
    cases parked
  refine ⟨covered, ?_⟩
  rintro ⟨free, parked, nobody⟩
  have full := covered parked
  have none : system.number Phase.isNotified = 0 := (count_eq_zero_iff _ _).mpr nobody
  omega

/-- Two calls queue behind one guard.  After its drop the slot is free and one
of them still sleeps, but the other has been notified. -/
theorem no_lost_wakeup_after_drop :
    exists system : LimiterSystem (Fin 3),
      system.phase 2 = .parked { start := 5, deadline := none } ∧ system.state.inflight = 0 ∧
      1 ≤ system.state.inflight + system.number Phase.isNotified := by
  obtain ⟨system, runs, parked, inflight⟩ : exists system : LimiterSystem (Fin 3),
      ((BlockingLimiter.mk 1 2).system (Fin 3)).run initial
        [.acquire 0 3, .acquire 1 4, .acquire 2 5, .drop 0 (some 1)] = some system ∧
      system.phase 2 = .parked { start := 5, deadline := none } ∧
      system.state.inflight = 0 := ⟨_, rfl, rfl, rfl⟩
  have covered := no_lost_wakeup (Transition.System.reachable_of_run runs)
  exact ⟨system, parked, inflight, covered.1 ⟨2, by rw [parked]; rfl⟩⟩

end LimiterSystem

end Fusecraft
