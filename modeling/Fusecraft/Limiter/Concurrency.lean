import Fusecraft.Core.Op
import Mathlib.Algebra.Group.Nat.Defs

namespace Fusecraft

/-!
# The critical sections of the blocking limiter

`acquire` and `acquire_timeout` hold the state mutex from their first line,
give it up inside each condvar wait, and hold it again when the wait returns.
What a caller does between two such points is one critical section, and each
is a function of the protected state and of the clock readings made in it.

The limiter's own counters are natural numbers.  Only `inflight` and `queued`
are ever decremented, and a decrement of zero has no result here, so an
underflow cannot pass for an ordinary transition.
-/

/-- The mutable state protected by the mutex. -/
structure LimiterState where
  inflight : Nat
  queued : Nat
  totalAcquired : Nat
  totalRejected : Nat
  totalQueueWaitNs : Nat
  deriving DecidableEq, Repr

/-- A blocking concurrency limiter: the two bounds fixed at construction. -/
structure BlockingLimiter where
  cap : Nat
  queueCap : Nat
  deriving DecidableEq, Repr

/-- What a caller keeps across a condvar wait: when it entered the queue, and
for `acquire_timeout` when it gives up.  Instants are in nanoseconds. -/
structure Waiter where
  start : Nat
  deadline : Option Nat
  deriving DecidableEq, Repr

/-- How a critical section ends.  A guard and an error leave the call, a
waiter parks on the condvar, and an overflowing deadline unwinds. -/
inductive Exit where
  | guard (queueWait : Nat)
  | error (err : FsError)
  | wait (waiter : Waiter)
  | unwind
  deriving DecidableEq, Repr

/-- `n -= 1` on an unsigned counter. -/
def decrement : Nat -> Option Nat
  | 0 => none
  | n + 1 => some n

/-- The largest instant: seconds are a signed 64-bit count. -/
def instantMax : Nat := (2 ^ 63 - 1) * 10 ^ 9 + 999999999

/-- `Instant + Duration`, which panics where the sum is not representable. -/
def instantAdd (instant timeout : Nat) : Option Nat :=
  if instant + timeout ≤ instantMax then some (instant + timeout) else none

namespace LimiterState

def initial : LimiterState where
  inflight := 0
  queued := 0
  totalAcquired := 0
  totalRejected := 0
  totalQueueWaitNs := 0

def reject (state : LimiterState) : LimiterState :=
  { state with totalRejected := state.totalRejected + 1 }

def takeSlot (state : LimiterState) : LimiterState :=
  { state with
    inflight := state.inflight + 1
    totalAcquired := state.totalAcquired + 1 }

def enqueue (state : LimiterState) : LimiterState :=
  { state with queued := state.queued + 1 }

/-- The bookkeeping of both loops when a woken caller finds a free slot. -/
def admitWaiting (state : LimiterState) (queueWait : Nat) : Option LimiterState := do
  let queued <- decrement state.queued
  some
    { inflight := state.inflight + 1
      queued := queued
      totalAcquired := state.totalAcquired + 1
      totalRejected := state.totalRejected
      totalQueueWaitNs := state.totalQueueWaitNs + queueWait % 2 ^ 64 }

/-- The bookkeeping of both timeout exits. -/
def giveUp (state : LimiterState) : Option LimiterState := do
  let queued <- decrement state.queued
  some
    { state with
      queued := queued
      totalRejected := state.totalRejected + 1 }

/-- `release`: return one slot.  The notification that follows is the
scheduler's choice and is part of the transition system. -/
def release (state : LimiterState) : Option LimiterState := do
  let inflight <- decrement state.inflight
  some { state with inflight := inflight }

end LimiterState

namespace BlockingLimiter

variable (limiter : BlockingLimiter)

/-- The opening that `acquire` and `acquire_timeout` share line for line:
reject when the cap is zero, take a free slot, reject when the queue is full,
and otherwise count the caller as queued and go on. -/
def enter (state : LimiterState) (queueUp : LimiterState -> Option (LimiterState × Exit)) :
    Option (LimiterState × Exit) :=
  if limiter.cap = 0 then
    some (state.reject, .error (.errno Libc.eagain))
  else if state.inflight < limiter.cap then
    some (state.takeSlot, .guard 0)
  else if state.queued ≥ limiter.queueCap then
    some (state.reject, .error (.errno Libc.eagain))
  else
    queueUp state.enqueue

/-- `acquire` up to its first wait. -/
def acquire (start : Nat) (state : LimiterState) : Option (LimiterState × Exit) :=
  limiter.enter state (fun queued => some (queued, .wait { start := start, deadline := none }))

/-- The body of the loop in `acquire` after a wait has returned. -/
def acquireWake (waiter : Waiter) (now : Nat) (state : LimiterState) :
    Option (LimiterState × Exit) :=
  if state.inflight < limiter.cap then
    (state.admitWaiting (now - waiter.start)).map
      (fun admitted => (admitted, .guard (now - waiter.start)))
  else
    some (state, .wait waiter)

/-- The head of the loop in `acquire_timeout`: give up on an elapsed deadline,
otherwise wait for the remaining time. -/
def acquireTimeoutHead (waiter : Waiter) (deadline now : Nat) (state : LimiterState) :
    Option (LimiterState × Exit) :=
  if deadline - now = 0 then
    state.giveUp.map (fun left => (left, .error (.errno Libc.eagain)))
  else
    some (state, .wait waiter)

/-- `acquire_timeout` up to its first wait.  The caller is already counted as
queued when its deadline is computed. -/
def acquireTimeout (timeout start now : Nat) (state : LimiterState) :
    Option (LimiterState × Exit) :=
  limiter.enter state (fun queued =>
    match instantAdd start timeout with
    | none => some (queued, .unwind)
    | some deadline =>
        acquireTimeoutHead { start := start, deadline := some deadline } deadline now queued)

/-- The rest of the loop body in `acquire_timeout` after a wait has returned,
up to the next wait.  The slot is tested before the timeout is. -/
def acquireTimeoutWake (waiter : Waiter) (deadline : Nat) (timedOut : Bool) (now : Nat)
    (state : LimiterState) : Option (LimiterState × Exit) :=
  if state.inflight < limiter.cap then
    (state.admitWaiting (now - waiter.start)).map
      (fun admitted => (admitted, .guard (now - waiter.start)))
  else if timedOut then
    state.giveUp.map (fun left => (left, .error (.errno Libc.eagain)))
  else
    acquireTimeoutHead waiter deadline now state

/-- A waiter resumes the loop of the function that parked it. -/
def wake (waiter : Waiter) (timedOut : Bool) (now : Nat) (state : LimiterState) :
    Option (LimiterState × Exit) :=
  match waiter.deadline with
  | none => limiter.acquireWake waiter now state
  | some deadline => limiter.acquireTimeoutWake waiter deadline timedOut now state

end BlockingLimiter

/-! ## What a critical section can do -/

/-- The outcomes of a first critical section, each with the test that the
code has made by then and the complete effect on the counters.  The parameter
says whether the section computes a deadline that does not fit. -/
inductive Entered (limiter : BlockingLimiter) (overflows : Prop) (state : LimiterState) :
    LimiterState -> Exit -> Prop
  | refused (overload : limiter.cap = 0 ∨
        limiter.cap ≤ state.inflight ∧ limiter.queueCap ≤ state.queued) :
      Entered limiter overflows state state.reject (.error (.errno Libc.eagain))
  | admitted (free : state.inflight < limiter.cap) :
      Entered limiter overflows state state.takeSlot (.guard 0)
  | parked (waiter : Waiter) (positive : limiter.cap ≠ 0) (busy : limiter.cap ≤ state.inflight)
      (room : state.queued < limiter.queueCap) :
      Entered limiter overflows state state.enqueue (.wait waiter)
  | expired (positive : limiter.cap ≠ 0) (busy : limiter.cap ≤ state.inflight)
      (room : state.queued < limiter.queueCap) :
      Entered limiter overflows state state.reject (.error (.errno Libc.eagain))
  | unwound (positive : limiter.cap ≠ 0) (busy : limiter.cap ≤ state.inflight)
      (room : state.queued < limiter.queueCap) (overflow : overflows) :
      Entered limiter overflows state state.enqueue .unwind

/-- The outcomes of a later critical section of a call that is queued. -/
inductive Woken (limiter : BlockingLimiter) (state : LimiterState) (waiter : Waiter) :
    LimiterState -> Exit -> Prop
  | admitted (queueWait left : Nat) (free : state.inflight < limiter.cap)
      (queued : state.queued = left + 1) :
      Woken limiter state waiter
        { inflight := state.inflight + 1
          queued := left
          totalAcquired := state.totalAcquired + 1
          totalRejected := state.totalRejected
          totalQueueWaitNs := state.totalQueueWaitNs + queueWait % 2 ^ 64 }
        (.guard queueWait)
  | parked (busy : limiter.cap ≤ state.inflight) :
      Woken limiter state waiter state (.wait waiter)
  | gaveUp (left : Nat) (busy : limiter.cap ≤ state.inflight) (queued : state.queued = left + 1)
      (timed : waiter.deadline.isSome) :
      Woken limiter state waiter
        { state with queued := left, totalRejected := state.totalRejected + 1 }
        (.error (.errno Libc.eagain))

namespace BlockingLimiter

variable {limiter : BlockingLimiter} {state : LimiterState}

theorem enter_spec {overflows : Prop} {queueUp : LimiterState -> Option (LimiterState × Exit)}
    (continues : limiter.cap ≠ 0 -> limiter.cap ≤ state.inflight ->
      state.queued < limiter.queueCap ->
      exists next exit, queueUp state.enqueue = some (next, exit) ∧
        Entered limiter overflows state next exit) :
    exists next exit, limiter.enter state queueUp = some (next, exit) ∧
      Entered limiter overflows state next exit := by
  unfold enter
  by_cases zero : limiter.cap = 0
  · rw [if_pos zero]
    exact ⟨_, _, rfl, .refused (Or.inl zero)⟩
  · rw [if_neg zero]
    by_cases free : state.inflight < limiter.cap
    · rw [if_pos free]
      exact ⟨_, _, rfl, .admitted free⟩
    · have busy : limiter.cap ≤ state.inflight := Nat.le_of_not_lt free
      rw [if_neg free]
      by_cases full : state.queued ≥ limiter.queueCap
      · rw [if_pos full]
        exact ⟨_, _, rfl, .refused (Or.inr ⟨busy, full⟩)⟩
      · rw [if_neg full]
        exact continues zero busy (Nat.lt_of_not_le full)

/-- The first critical section of `acquire` always completes. -/
theorem acquire_spec (limiter : BlockingLimiter) (state : LimiterState) (start : Nat) :
    exists next exit, limiter.acquire start state = some (next, exit) ∧
      Entered limiter False state next exit :=
  enter_spec (fun positive busy room => ⟨_, _, rfl, .parked _ positive busy room⟩)

/-- So does that of `acquire_timeout`: the only decrement in it undoes the
increment made a few lines earlier under the same lock. -/
theorem acquireTimeout_spec (limiter : BlockingLimiter) (state : LimiterState)
    (timeout start now : Nat) :
    exists next exit, limiter.acquireTimeout timeout start now state = some (next, exit) ∧
      Entered limiter (instantAdd start timeout = none) state next exit := by
  apply enter_spec
  intro positive busy room
  cases computed : instantAdd start timeout with
  | none => exact ⟨_, _, rfl, .unwound positive busy room rfl⟩
  | some deadline =>
      simp only [acquireTimeoutHead]
      by_cases elapsed : deadline - now = 0
      · rw [if_pos elapsed]
        exact ⟨state.reject, .error (.errno Libc.eagain), rfl, .expired positive busy room⟩
      · rw [if_neg elapsed]
        exact ⟨_, _, rfl, .parked _ positive busy room⟩

theorem acquireWake_spec (waiter : Waiter) (now : Nat) (queued : 0 < state.queued) :
    exists next exit, limiter.acquireWake waiter now state = some (next, exit) ∧
      Woken limiter state waiter next exit := by
  rcases Nat.exists_eq_add_one_of_ne_zero (Nat.ne_of_gt queued) with ⟨left, queued⟩
  unfold acquireWake
  by_cases free : state.inflight < limiter.cap
  · rw [if_pos free]
    refine ⟨_, _, ?_, .admitted (now - waiter.start) left free queued⟩
    simp [LimiterState.admitWaiting, queued, decrement]
  · rw [if_neg free]
    exact ⟨_, _, rfl, .parked (Nat.le_of_not_lt free)⟩

theorem acquireTimeoutWake_spec (waiter : Waiter) (deadline : Nat) (timedOut : Bool) (now : Nat)
    (timed : waiter.deadline = some deadline) (queued : 0 < state.queued) :
    exists next exit,
      limiter.acquireTimeoutWake waiter deadline timedOut now state = some (next, exit) ∧
      Woken limiter state waiter next exit := by
  rcases Nat.exists_eq_add_one_of_ne_zero (Nat.ne_of_gt queued) with ⟨left, queued⟩
  have leaves : state.giveUp =
      some { state with queued := left, totalRejected := state.totalRejected + 1 } := by
    simp [LimiterState.giveUp, queued, decrement]
  have timed : waiter.deadline.isSome := by rw [timed]; rfl
  unfold acquireTimeoutWake acquireTimeoutHead
  by_cases free : state.inflight < limiter.cap
  · rw [if_pos free]
    refine ⟨_, _, ?_, .admitted (now - waiter.start) left free queued⟩
    simp [LimiterState.admitWaiting, queued, decrement]
  · have busy : limiter.cap ≤ state.inflight := Nat.le_of_not_lt free
    rw [if_neg free, leaves]
    by_cases expired : timedOut = true
    · rw [if_pos expired]
      exact ⟨_, _, rfl, .gaveUp left busy queued timed⟩
    · rw [if_neg expired]
      by_cases elapsed : deadline - now = 0
      · rw [if_pos elapsed]
        exact ⟨_, _, rfl, .gaveUp left busy queued timed⟩
      · rw [if_neg elapsed]
        exact ⟨_, _, rfl, .parked busy⟩

/-- A queued call that runs again is admitted, parks again or gives up, and
it gives up only where no slot is free. -/
theorem wake_spec (limiter : BlockingLimiter) (waiter : Waiter) (timedOut : Bool) (now : Nat)
    (queued : 0 < state.queued) :
    exists next exit, limiter.wake waiter timedOut now state = some (next, exit) ∧
      Woken limiter state waiter next exit := by
  unfold wake
  cases timed : waiter.deadline with
  | none => exact acquireWake_spec waiter now queued
  | some deadline => exact acquireTimeoutWake_spec waiter deadline timedOut now timed queued

end BlockingLimiter

end Fusecraft
