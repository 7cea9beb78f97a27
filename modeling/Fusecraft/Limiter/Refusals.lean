import Fusecraft.Limiter.Safety

namespace Fusecraft

open Counting Transition BlockingLimiter

/-!
# When the limiter says EAGAIN

The code tests the slots in use and the queue length one after the other.  In
reachable states neither exceeds its bound, so both are exhausted exactly if
their sum is, also between a release and the wakeup of the notified call.  A
call that has entered the queue gives up only after it has looked for a slot
under the same lock.
-/

namespace LimiterSystem

variable {Call : Type*} [Fintype Call] [DecidableEq Call]
variable {limiter : BlockingLimiter} {system next : LimiterSystem Call}

/-- No slot and no place in the queue is left. -/
def Overloaded (limiter : BlockingLimiter) (system : LimiterSystem Call) : Prop :=
  system.state.inflight + system.state.queued = limiter.cap + limiter.queueCap

omit [DecidableEq Call] in
theorem Counted.overloaded_iff (counted : system.Counted limiter) :
    system.Overloaded limiter ↔
      limiter.cap ≤ system.state.inflight ∧ limiter.queueCap ≤ system.state.queued := by
  have inflight := counted.inflight_le
  have queued := counted.queued_le
  unfold Overloaded
  omega

omit [DecidableEq Call] in
/-- Where no slot is free, the live guards make up the capacity. -/
theorem Counted.all_held (counted : system.Counted limiter)
    (busy : limiter.cap ≤ system.state.inflight) :
    system.number Phase.isHolding = limiter.cap := by
  rw [← counted.inflight]
  exact Nat.le_antisymm counted.inflight_le busy

/-! ## First critical sections -/

/-- A first critical section of `acquire`. -/
theorem step_acquire {call : Call} {start : Nat}
    (moves : system.step limiter (.acquire call start) = some next) :
    exists state exit, limiter.acquire start system.state = some (state, exit) ∧
      Entered limiter False system.state state exit ∧ system.phase call = .idle ∧
      next.phase call = .afterExit exit ∧ next = { system with
        state := state
        phase := Function.update system.phase call (.afterExit exit) } := by
  rcases acquire_spec limiter system.state start with ⟨state, exit, runs, entered⟩
  refine ⟨state, exit, runs, entered, ?_⟩
  cases phase : system.phase call with
  | idle =>
      simp only [step, phase, commit, runs, Option.some.injEq] at moves
      subst moves
      exact ⟨rfl, Function.update_self .., rfl⟩
  | _ => simp [step, phase] at moves

/-- And of `acquire_timeout`. -/
theorem step_acquireTimeout {call : Call} {timeout start now : Nat}
    (moves : system.step limiter (.acquireTimeout call timeout start now) = some next) :
    exists state exit,
      limiter.acquireTimeout timeout start now system.state = some (state, exit) ∧
      Entered limiter (instantAdd start timeout = none) system.state state exit ∧
      next.phase call = .afterExit exit := by
  rcases acquireTimeout_spec limiter system.state timeout start now with
    ⟨state, exit, runs, entered⟩
  refine ⟨state, exit, runs, entered, ?_⟩
  cases phase : system.phase call with
  | idle =>
      simp only [step, phase, commit, runs, Option.some.injEq] at moves
      subst moves
      exact Function.update_self ..
  | _ => simp [step, phase] at moves

/-- A later critical section of a queued call. -/
theorem step_wake (counted : system.Counted limiter) {call : Call} {now : Nat}
    (moves : system.step limiter (.wake call now) = some next) :
    exists waiter timedOut state exit, (system.phase call = .notified waiter ∨
        system.phase call = .awake waiter timedOut) ∧
      limiter.wake waiter timedOut now system.state = some (state, exit) ∧
      Woken limiter system.state waiter state exit ∧
      next.phase call = .afterExit exit ∧ next = { system with
        state := state
        phase := Function.update system.phase call (.afterExit exit) } := by
  cases phase : system.phase call with
  | notified waiter =>
      have queued := counted.queued_pos call (by rw [phase]; rfl)
      rcases wake_spec limiter waiter false now queued with ⟨state, exit, runs, woken⟩
      simp only [step, phase, commit, runs, Option.some.injEq] at moves
      subst moves
      exact ⟨waiter, false, state, exit, Or.inl rfl, runs, woken, Function.update_self .., rfl⟩
  | awake waiter timedOut =>
      have queued := counted.queued_pos call (by rw [phase]; rfl)
      rcases wake_spec limiter waiter timedOut now queued with ⟨state, exit, runs, woken⟩
      simp only [step, phase, commit, runs, Option.some.injEq] at moves
      subst moves
      exact ⟨waiter, timedOut, state, exit, Or.inr rfl, runs, woken, Function.update_self .., rfl⟩
  | _ => simp [step, phase] at moves

end LimiterSystem

namespace BlockingLimiter

variable {limiter : BlockingLimiter} {state : LimiterState}

/-- `acquire` refuses just where no slot and no queue place is left. -/
theorem acquire_error_iff (positive : 0 < limiter.cap) (start : Nat) :
    (exists after err, limiter.acquire start state = some (after, .error err)) ↔
      limiter.cap ≤ state.inflight ∧ limiter.queueCap ≤ state.queued := by
  have nonzero : limiter.cap ≠ 0 := by omega
  unfold acquire enter
  rw [if_neg nonzero]
  by_cases free : state.inflight < limiter.cap
  · simp [free]
  · by_cases full : limiter.queueCap ≤ state.queued
    · simp [free, full, Nat.le_of_not_lt free]
    · simp [free, full]

/-- A caller of `acquire` waits without a deadline. -/
theorem acquire_wait {start : Nat} {after : LimiterState} {waiter : Waiter}
    (runs : limiter.acquire start state = some (after, .wait waiter)) :
    waiter = { start := start, deadline := none } := by
  simp only [acquire, enter] at runs
  split at runs
  · cases runs
  · split at runs
    · cases runs
    · split at runs
      · cases runs
      · cases runs
        rfl

/-- So does `acquire_timeout`, and it gives up a place just taken if its
deadline is not in the future. -/
theorem acquireTimeout_error_iff (positive : 0 < limiter.cap) (timeout start now : Nat) :
    (exists after err, limiter.acquireTimeout timeout start now state = some (after, .error err)) ↔
      limiter.cap ≤ state.inflight ∧ (limiter.queueCap ≤ state.queued ∨
        start + timeout ≤ instantMax ∧ start + timeout ≤ now) := by
  have nonzero : limiter.cap ≠ 0 := by omega
  unfold acquireTimeout enter acquireTimeoutHead instantAdd
  rw [if_neg nonzero]
  by_cases free : state.inflight < limiter.cap
  · simp [free]
  · have busy : limiter.cap ≤ state.inflight := Nat.le_of_not_lt free
    by_cases full : limiter.queueCap ≤ state.queued
    · simp [free, full, busy]
    · by_cases fits : start + timeout ≤ instantMax
      · by_cases elapsed : start + timeout - now = 0
        · have past : start + timeout ≤ now := by omega
          simp [free, full, busy, fits, elapsed, past, LimiterState.giveUp, LimiterState.enqueue,
            decrement]
        · have future : ¬ start + timeout ≤ now := by omega
          simp [free, full, fits, elapsed, future]
      · simp [free, full, fits]

end BlockingLimiter

namespace Phase

theorem isRefused_afterExit (exit : Exit) :
    (afterExit exit).isRefused = true ↔ exists err, exit = .error err := by
  cases exit <;> simp

/-- The call is in the queue without a deadline, or has left it with a guard. -/
@[simp] def isServed : Phase -> Bool
  | parked waiter => waiter.deadline.isNone
  | notified waiter => waiter.deadline.isNone
  | awake waiter _ => waiter.deadline.isNone
  | holding _ => true
  | dropped => true
  | _ => false

theorem isRefused_of_isServed {phase : Phase} (served : phase.isServed = true) :
    phase.isRefused = false := by
  cases phase <;> first | rfl | cases served

end Phase

namespace LimiterSystem

variable {Call : Type*} [Fintype Call] [DecidableEq Call]
variable {limiter : BlockingLimiter} {system next : LimiterSystem Call}

/-- A call that queues without a deadline stays in the queue until it gets a
guard. -/
theorem served_preserved (counted : system.Counted limiter) {label : LimiterLabel Call}
    (moves : system.step limiter label = some next) (call : Call)
    (served : (system.phase call).isServed = true) : (next.phase call).isServed = true := by
  have turn := phase_step counted moves call
  generalize system.phase call = old, next.phase call = new at served turn ⊢
  have woken_served : forall {waiter : Waiter} {state : LimiterState} {exit : Exit},
      waiter.deadline.isNone = true -> Woken limiter system.state waiter state exit ->
      (Phase.afterExit exit).isServed = true := by
    intro waiter state exit untimed woken
    cases woken with
    | admitted queueWait left free waiting => rfl
    | parked busy => exact untimed
    | gaveUp left busy waiting timed =>
        rw [Option.isNone_iff_eq_none] at untimed
        rw [untimed] at timed
        cases timed
  cases turn with
  | stays phase => exact served
  | enters state exit overflows deadline entered => cases served
  | leaves waiter timedOut => exact served
  | resumes waiter state exit woken => exact woken_served served woken
  | retries waiter timedOut state exit woken => exact woken_served served woken
  | drops queueWait => rfl
  | notified waiter => exact served

/-- The only error is EAGAIN. -/
theorem refused_eagain (reached : (limiter.system Call).Reachable system) (call : Call)
    {err : FsError} (refused : system.phase call = .refused err) : err = .errno Libc.eagain := by
  revert call err
  refine reached.invariant (fun state => forall call err, state.phase call = .refused err ->
    err = .errno Libc.eagain) (fun _ _ refused => by cases refused) ?_
  intro before label after reachedBefore _ moves eagain call err refused
  have here := eagain call err
  have turn := phase_step (counted_of_reachable reachedBefore) moves call
  generalize before.phase call = old, after.phase call = new at here turn refused
  cases turn with
  | stays phase => exact here refused
  | enters state exit overflows deadline entered =>
      cases entered <;> cases refused <;> rfl
  | resumes waiter state exit woken =>
      cases woken <;> cases refused
      rfl
  | retries waiter timedOut state exit woken =>
      cases woken <;> cases refused
      rfl
  | _ => cases refused

theorem acquire_refused_iff (counted : system.Counted limiter) (positive : 0 < limiter.cap)
    {call : Call} {start : Nat} (moves : system.step limiter (.acquire call start) = some next) :
    (next.phase call).isRefused = true ↔ system.Overloaded limiter := by
  rcases step_acquire moves with ⟨state, exit, runs, -, -, phase, -⟩
  rw [phase, Phase.isRefused_afterExit, counted.overloaded_iff, ← acquire_error_iff positive start]
  constructor
  · rintro ⟨err, rfl⟩
    exact ⟨state, err, runs⟩
  · rintro ⟨after, err, fails⟩
    rw [runs, Option.some_inj, Prod.mk.injEq] at fails
    exact ⟨err, fails.2⟩

theorem acquireTimeout_refused_iff (counted : system.Counted limiter) (positive : 0 < limiter.cap)
    {call : Call} {timeout start now : Nat}
    (moves : system.step limiter (.acquireTimeout call timeout start now) = some next) :
    (next.phase call).isRefused = true ↔ system.Overloaded limiter ∨
      limiter.cap ≤ system.state.inflight ∧ system.state.queued < limiter.queueCap ∧
        start + timeout ≤ instantMax ∧ start + timeout ≤ now := by
  rcases step_acquireTimeout moves with ⟨state, exit, runs, -, phase⟩
  have fails : (next.phase call).isRefused = true ↔
      limiter.cap ≤ system.state.inflight ∧ (limiter.queueCap ≤ system.state.queued ∨
        start + timeout ≤ instantMax ∧ start + timeout ≤ now) := by
    rw [phase, Phase.isRefused_afterExit, ← acquireTimeout_error_iff positive timeout start now]
    constructor
    · rintro ⟨err, rfl⟩
      exact ⟨state, err, runs⟩
    · rintro ⟨after, err, fails⟩
      rw [runs, Option.some_inj, Prod.mk.injEq] at fails
      exact ⟨err, fails.2⟩
  rw [fails, counted.overloaded_iff]
  omega

/-- A queued call that is refused finds no slot, and one that finds a slot
takes it, even after its deadline or a timed-out wait. -/
theorem wake_refused (counted : system.Counted limiter) {call : Call} {now : Nat}
    (moves : system.step limiter (.wake call now) = some next) :
    ((next.phase call).isRefused = true -> limiter.cap ≤ system.state.inflight) ∧
      (system.state.inflight < limiter.cap -> (next.phase call).isHolding = true) := by
  rcases step_wake counted moves with ⟨waiter, timedOut, state, exit, -, -, woken, phase, -⟩
  rw [phase]
  cases woken with
  | admitted queueWait left free waiting => exact ⟨fun refused => (by cases refused), fun _ => rfl⟩
  | parked busy => exact ⟨fun refused => (by cases refused), fun free => by omega⟩
  | gaveUp left busy waiting timed => exact ⟨fun _ => busy, fun free => by omega⟩

/-- Without capacity the opening refuses everybody. -/
theorem refused_of_cap_zero (zero : limiter.cap = 0) {overflows : Prop} {state after : LimiterState}
    {exit : Exit} (entered : Entered limiter overflows state after exit) :
    (Phase.afterExit exit).isRefused = true := by
  cases entered with
  | refused overload => rfl
  | admitted free => omega
  | parked waiter positive busy room => exact absurd zero positive
  | expired positive busy room => rfl
  | unwound positive busy room overflow => exact absurd zero positive

/-- EAGAIN is returned exactly on overload, in every reachable state.  With a
positive capacity, `acquire` is refused if and only if the slots in use and the
queue add up to both bounds, and is never refused once it has queued;
`acquire_timeout` is refused on entry under the same condition, and apart from
that gives up only out of the queue and only while live guards hold all slots.
Without capacity every call is refused.  There is no other error. -/
theorem eagain_iff_overloaded (reached : (limiter.system Call).Reachable system) :
    (forall call err, system.phase call = .refused err -> err = .errno Libc.eagain) ∧
    (0 < limiter.cap ->
      (forall call start next, system.step limiter (.acquire call start) = some next ->
        ((next.phase call).isRefused = true ↔ system.Overloaded limiter) ∧
        ((next.phase call).isQueued = true -> forall labels later,
          (limiter.system Call).run next labels = some later ->
          (later.phase call).isRefused = false)) ∧
      (forall call timeout start now next,
        system.step limiter (.acquireTimeout call timeout start now) = some next ->
        ((next.phase call).isRefused = true ↔ system.Overloaded limiter ∨
          system.number Phase.isHolding = limiter.cap ∧
            system.state.queued < limiter.queueCap ∧
            start + timeout ≤ instantMax ∧ start + timeout ≤ now)) ∧
      (forall call now next, system.step limiter (.wake call now) = some next ->
        ((next.phase call).isRefused = true -> system.number Phase.isHolding = limiter.cap) ∧
        (system.state.inflight < limiter.cap -> (next.phase call).isHolding = true))) ∧
    (limiter.cap = 0 ->
      (forall call start next, system.step limiter (.acquire call start) = some next ->
        (next.phase call).isRefused = true) ∧
      (forall call timeout start now next,
        system.step limiter (.acquireTimeout call timeout start now) = some next ->
        (next.phase call).isRefused = true)) := by
  have counted := counted_of_reachable reached
  refine ⟨fun call err => refused_eagain reached call, fun positive => ⟨?_, ?_, ?_⟩,
    fun zero => ⟨?_, ?_⟩⟩
  · intro call start next moves
    refine ⟨acquire_refused_iff counted positive moves, fun queued labels later runs => ?_⟩
    have served : (next.phase call).isServed = true := by
      rcases step_acquire moves with ⟨state, exit, run, -, -, phase, -⟩
      rw [phase] at queued ⊢
      cases exit with
      | wait waiter => rw [acquire_wait run]; rfl
      | _ => cases queued
    have steps : (limiter.system Call).step system (.acquire call start) = some next := moves
    have after := reached.step trivial steps
    have keeps : forall before label after, (limiter.system Call).Reachable before ->
        (limiter.system Call).step before label = some after ->
        (before.phase call).isServed = true -> (after.phase call).isServed = true :=
      fun _ _ _ before moves => served_preserved (counted_of_reachable before) moves call
    have final := Transition.System.run_keeps keeps after served runs
    exact Phase.isRefused_of_isServed final
  · intro call timeout start now next moves
    have inflight := counted.inflight
    have bound := counted.inflight_le
    have held : limiter.cap ≤ system.state.inflight ↔
        system.number Phase.isHolding = limiter.cap := by omega
    rw [acquireTimeout_refused_iff counted positive moves, held]
  · intro call now next moves
    rcases wake_refused counted moves with ⟨refused, free⟩
    exact ⟨fun gaveUp => counted.all_held (refused gaveUp), free⟩
  · intro call start next moves
    rcases step_acquire moves with ⟨state, exit, -, entered, -, phase, -⟩
    exact phase ▸ refused_of_cap_zero zero entered
  · intro call timeout start now next moves
    rcases step_acquireTimeout moves with ⟨state, exit, -, entered, phase⟩
    exact phase ▸ refused_of_cap_zero zero entered

/-- A limiter with one slot and one queue place.  Before the second call of
`acquire` the sum is below both bounds, and after it the third is refused. -/
theorem eagain_iff_overloaded_third_call :
    exists system next : LimiterSystem (Fin 3),
      system.step (.mk 1 1) (.acquire 2 4) = some next ∧
      system.Overloaded (.mk 1 1) ∧ (next.phase 2).isRefused = true := by
  obtain ⟨system, next, runs, moves, overloaded⟩ : exists system next : LimiterSystem (Fin 3),
      ((BlockingLimiter.mk 1 1).system (Fin 3)).run initial [.acquire 0 2, .acquire 1 3] =
        some system ∧
      system.step (.mk 1 1) (.acquire 2 4) = some next ∧ system.Overloaded (.mk 1 1) :=
    ⟨_, _, rfl, rfl, rfl⟩
  have refusals := eagain_iff_overloaded (Transition.System.reachable_of_run runs)
  have refused := ((refusals.2.1 Nat.one_pos).1 2 4 next moves).1
  exact ⟨system, next, moves, overloaded, refused.mpr overloaded⟩

end LimiterSystem

end Fusecraft
