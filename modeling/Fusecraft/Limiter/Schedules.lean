import Fusecraft.Library.Transition
import Fusecraft.Library.Counting
import Fusecraft.Limiter.Concurrency

namespace Fusecraft

open Counting BlockingLimiter

/-!
# The limiter under every schedule

Calls of `acquire` and `acquire_timeout` are named by an arbitrary finite
type.  A label says which call runs its next critical section, or which
sleeping call leaves the condvar and why, and it carries the clock readings
made there.  Readings are unconstrained, so every clock is covered.

Of the condvar only this is assumed: a wait gives up the mutex and parks in
one step; `notify_one` moves one parked call, if there is one, to *notified*;
a parked call may wake spuriously, and a timed one may leave by its timeout.
Which parked call a notification reaches is the scheduler's choice.
-/

/-- Where a call of the limiter is between two critical sections. -/
inductive Phase where
  | idle
  | parked (waiter : Waiter)
  | notified (waiter : Waiter)
  | awake (waiter : Waiter) (timedOut : Bool)
  | holding (queueWait : Nat)
  | dropped
  | refused (err : FsError)
  | unwound
  deriving DecidableEq, Repr

namespace Phase

@[simp] def isParked : Phase -> Bool
  | parked _ => true
  | _ => false

@[simp] def isNotified : Phase -> Bool
  | notified _ => true
  | _ => false

/-- The call has entered the queue and was neither admitted nor gave up. -/
@[simp] def isQueued : Phase -> Bool
  | parked _ => true
  | notified _ => true
  | awake _ _ => true
  | _ => false

/-- The call has handed out a guard that is still alive. -/
@[simp] def isHolding : Phase -> Bool
  | holding _ => true
  | _ => false

@[simp] def isDropped : Phase -> Bool
  | dropped => true
  | _ => false

@[simp] def isRefused : Phase -> Bool
  | refused _ => true
  | _ => false

@[simp] def isUnwound : Phase -> Bool
  | unwound => true
  | _ => false

/-- The call has completed its first critical section. -/
@[simp] def hasEntered : Phase -> Bool
  | idle => false
  | _ => true

/-- A queued call contributes to no other count. -/
theorem exclusive_of_isQueued (phase : Phase) (queued : phase.isQueued = true) :
    phase.isUnwound = false ∧ phase.isHolding = false ∧ phase.isDropped = false ∧
      phase.isRefused = false := by
  cases phase <;> simp_all

/-- The phase in which a critical section leaves its call. -/
@[simp] def afterExit : Exit -> Phase
  | .guard queueWait => holding queueWait
  | .error err => refused err
  | .wait waiter => parked waiter
  | .unwind => unwound

/-- A call that leaves a critical section owes nothing to a notification. -/
theorem isNotified_afterExit (exit : Exit) : (afterExit exit).isNotified = false := by
  cases exit <;> rfl

end Phase

/-- The shared state of one limiter and the phase of every call.  The flag
records an attempted decrement of zero and is never cleared. -/
structure LimiterSystem (Call : Type*) where
  state : LimiterState
  phase : Call -> Phase
  underflowed : Bool

/-- The scheduling choices. -/
inductive LimiterLabel (Call : Type*) where
  | acquire (call : Call) (start : Nat)
  | acquireTimeout (call : Call) (timeout start now : Nat)
  | spurious (call : Call)
  | timeout (call : Call)
  | wake (call : Call) (now : Nat)
  | drop (call : Call) (notifies : Option Call)
  deriving DecidableEq, Repr

namespace LimiterSystem

variable {Call : Type*} [Fintype Call] [DecidableEq Call]

def initial : LimiterSystem Call where
  state := .initial
  phase := fun _ => .idle
  underflowed := false

/-- Store the effect of one critical section of a call. -/
def commit (system : LimiterSystem Call) (call : Call) :
    Option (LimiterState × Exit) -> LimiterSystem Call
  | some (state, exit) =>
      { system with
        state := state
        phase := Function.update system.phase call (.afterExit exit) }
  | none => { system with underflowed := true }

/-- `LimiterGuard::drop`: return the slot, then notify one parked call.  The
label names the call that is notified, and may name none only if none is
parked. -/
def dropGuard (system : LimiterSystem Call) (call : Call) (notifies : Option Call) :
    Option (LimiterSystem Call) :=
  match system.state.release with
  | none => some { system with underflowed := true }
  | some state =>
      let released : LimiterSystem Call :=
        { system with
          state := state
          phase := Function.update system.phase call .dropped }
      match notifies with
      | none =>
          if forall other, (system.phase other).isParked = false then some released else none
      | some other =>
          match system.phase other with
          | .parked waiter =>
              some { released with
                phase := Function.update released.phase other (.notified waiter) }
          | _ => none

/-- One scheduling step. -/
def step (limiter : BlockingLimiter) (system : LimiterSystem Call) :
    LimiterLabel Call -> Option (LimiterSystem Call)
  | .acquire call start =>
      match system.phase call with
      | .idle => some (system.commit call (limiter.acquire start system.state))
      | _ => none
  | .acquireTimeout call timeout start now =>
      match system.phase call with
      | .idle =>
          some (system.commit call (limiter.acquireTimeout timeout start now system.state))
      | _ => none
  | .spurious call =>
      match system.phase call with
      | .parked waiter =>
          some { system with phase := Function.update system.phase call (.awake waiter false) }
      | _ => none
  | .timeout call =>
      match system.phase call with
      | .parked waiter =>
          if waiter.deadline.isSome then
            some { system with phase := Function.update system.phase call (.awake waiter true) }
          else none
      | _ => none
  | .wake call now =>
      match system.phase call with
      | .notified waiter =>
          some (system.commit call (limiter.wake waiter false now system.state))
      | .awake waiter timedOut =>
          some (system.commit call (limiter.wake waiter timedOut now system.state))
      | _ => none
  | .drop call notifies =>
      match system.phase call with
      | .holding _ => system.dropGuard call notifies
      | _ => none

/-- The number of calls whose phase passes the test. -/
def number (system : LimiterSystem Call) (test : Phase -> Bool) : Nat :=
  count test system.phase

end LimiterSystem

/-- The call that a label moves. -/
def LimiterLabel.call {Call : Type*} : LimiterLabel Call -> Call
  | .acquire call _ => call
  | .acquireTimeout call _ _ _ => call
  | .spurious call => call
  | .timeout call => call
  | .wake call _ => call
  | .drop call _ => call

/-- The label computes no deadline, or one that fits an `Instant`. -/
def LimiterLabel.Representable {Call : Type*} : LimiterLabel Call -> Prop
  | .acquireTimeout _ duration start _ => start + duration ≤ instantMax
  | _ => True

/-- The transition system of a limiter and a finite type of calls. -/
def BlockingLimiter.system (limiter : BlockingLimiter) (Call : Type*) [Fintype Call]
    [DecidableEq Call] : Transition.System (LimiterSystem Call) (LimiterLabel Call) where
  init := .initial
  step := LimiterSystem.step limiter

/-! ## The counting invariant

A queue place is held by the calls in the queue and by those that unwound out
of it: the deadline is computed after `queued` was incremented, and nothing
on that path takes the increment back. -/

/-- What the counters say about the calls, in every reachable state. -/
structure LimiterSystem.Counted {Call : Type*} [Fintype Call] (limiter : BlockingLimiter)
    (system : LimiterSystem Call) : Prop where
  inflight : system.state.inflight = system.number Phase.isHolding
  inflight_le : system.state.inflight ≤ limiter.cap
  queued : system.state.queued =
    system.number Phase.isQueued + system.number Phase.isUnwound
  queued_le : system.state.queued ≤ limiter.queueCap
  acquired : system.state.totalAcquired =
    system.number Phase.isHolding + system.number Phase.isDropped
  rejected : system.state.totalRejected = system.number Phase.isRefused
  sound : system.underflowed = false

namespace LimiterSystem

variable {Call : Type*} [Fintype Call]
variable {limiter : BlockingLimiter} {system : LimiterSystem Call}

theorem Counted.queued_pos (counted : system.Counted limiter) (call : Call)
    (queued : (system.phase call).isQueued = true) : 0 < system.state.queued := by
  have some := (count_pos_iff Phase.isQueued system.phase).mpr ⟨call, queued⟩
  have total := counted.queued
  unfold number at total
  omega

theorem Counted.inflight_pos (counted : system.Counted limiter) (call : Call)
    (holds : (system.phase call).isHolding = true) : 0 < system.state.inflight := by
  rw [counted.inflight]
  exact (count_pos_iff Phase.isHolding system.phase).mpr ⟨call, holds⟩

variable [DecidableEq Call]

/-- One replaced phase moves each count by the old and the new contribution. -/
theorem number_update (system : LimiterSystem Call) (test : Phase -> Bool) (call : Call)
    (phase : Phase) (state : LimiterState) (flag : Bool) :
    (LimiterSystem.mk state (Function.update system.phase call phase) flag).number test +
        (test (system.phase call)).toNat =
      system.number test + (test phase).toNat :=
  count_update test system.phase call phase

/-- The steps of a system in which the counters are right, by what they do.
Waking only moves a parked call; a critical section moves one call and acts
on the counters; a dropped guard frees a slot and may notify one sleeper. -/
inductive Moves (limiter : BlockingLimiter) (system : LimiterSystem Call) :
    LimiterLabel Call -> LimiterSystem Call -> Prop
  | enters (call : Call) (label : LimiterLabel Call) (idle : system.phase call = .idle)
      (next : LimiterState) (exit : Exit) (overflows : Prop)
      (deadline : overflows -> ¬ label.Representable)
      (entered : Entered limiter overflows system.state next exit) (own : label.call = call) :
      Moves limiter system label
        { system with
          state := next
          phase := Function.update system.phase call (.afterExit exit) }
  | leaves (call : Call) (waiter : Waiter) (timedOut : Bool) (label : LimiterLabel Call)
      (parked : system.phase call = .parked waiter) (own : label.call = call) :
      Moves limiter system label
        { system with phase := Function.update system.phase call (.awake waiter timedOut) }
  | wakes (call : Call) (waiter : Waiter) (now : Nat)
      (queued : system.phase call = .notified waiter ∨
        exists timedOut, system.phase call = .awake waiter timedOut)
      (next : LimiterState) (exit : Exit)
      (woken : Woken limiter system.state waiter next exit) :
      Moves limiter system (.wake call now)
        { system with
          state := next
          phase := Function.update system.phase call (.afterExit exit) }
  | drops (call : Call) (queueWait left : Nat) (holds : system.phase call = .holding queueWait)
      (inflight : system.state.inflight = left + 1)
      (nobody : forall other, (system.phase other).isParked = false) :
      Moves limiter system (.drop call none)
        { system with
          state := { system.state with inflight := left }
          phase := Function.update system.phase call .dropped }
  | notifies (call other : Call) (queueWait left : Nat) (waiter : Waiter)
      (holds : system.phase call = .holding queueWait)
      (inflight : system.state.inflight = left + 1)
      (parked : system.phase other = .parked waiter) :
      Moves limiter system (.drop call (some other))
        { system with
          state := { system.state with inflight := left }
          phase := Function.update (Function.update system.phase call .dropped) other
            (.notified waiter) }

/-- While the counters are right, every enabled label makes one of the moves.
In particular no decrement meets a zero. -/
theorem step_cases (counted : system.Counted limiter) {label : LimiterLabel Call}
    {next : LimiterSystem Call} (moves : system.step limiter label = some next) :
    system.Moves limiter label next := by
  cases label with
  | acquire call start =>
      cases phase : system.phase call with
      | idle =>
          rcases acquire_spec limiter system.state start with ⟨state, exit, runs, entered⟩
          simp only [step, phase, commit, runs, Option.some.injEq] at moves
          exact moves ▸ .enters call _ phase state exit _ False.elim entered rfl
      | _ => simp [step, phase] at moves
  | acquireTimeout call timeout start now =>
      cases phase : system.phase call with
      | idle =>
          rcases acquireTimeout_spec limiter system.state timeout start now with
            ⟨state, exit, runs, entered⟩
          simp only [step, phase, commit, runs, Option.some.injEq] at moves
          refine moves ▸ .enters call _ phase state exit _ (fun overflow fits => ?_) entered rfl
          have fits : start + timeout ≤ instantMax := fits
          rw [instantAdd, if_pos fits] at overflow
          cases overflow
      | _ => simp [step, phase] at moves
  | spurious call =>
      cases phase : system.phase call with
      | parked waiter =>
          simp only [step, phase, Option.some.injEq] at moves
          exact moves ▸ .leaves call waiter false _ phase rfl
      | _ => simp [step, phase] at moves
  | timeout call =>
      cases phase : system.phase call with
      | parked waiter =>
          simp only [step, phase, Option.ite_none_right_eq_some, Option.some.injEq] at moves
          exact moves.2 ▸ .leaves call waiter true _ phase rfl
      | _ => simp [step, phase] at moves
  | wake call now =>
      cases phase : system.phase call with
      | notified waiter =>
          have queued := counted.queued_pos call (by rw [phase]; rfl)
          rcases wake_spec limiter waiter false now queued with ⟨state, exit, runs, woken⟩
          simp only [step, phase, commit, runs, Option.some.injEq] at moves
          exact moves ▸ .wakes call waiter now (Or.inl phase) state exit woken
      | awake waiter timedOut =>
          have queued := counted.queued_pos call (by rw [phase]; rfl)
          rcases wake_spec limiter waiter timedOut now queued with ⟨state, exit, runs, woken⟩
          simp only [step, phase, commit, runs, Option.some.injEq] at moves
          exact moves ▸ .wakes call waiter now (Or.inr ⟨timedOut, phase⟩) state exit woken
      | _ => simp [step, phase] at moves
  | drop call notifies =>
      cases phase : system.phase call with
      | holding queueWait =>
          have positive := counted.inflight_pos call (by rw [phase]; rfl)
          rcases Nat.exists_eq_add_one_of_ne_zero (Nat.ne_of_gt positive) with ⟨left, inflight⟩
          simp only [step, phase, dropGuard, LimiterState.release, inflight, decrement] at moves
          cases notifies with
          | none =>
              simp only [Option.bind_eq_bind, Option.bind_some, Option.ite_none_right_eq_some,
                Option.some.injEq] at moves
              exact moves.2 ▸ .drops call queueWait left phase inflight moves.1
          | some other =>
              cases target : system.phase other with
              | parked waiter =>
                  simp only [Option.bind_eq_bind, Option.bind_some, target,
                    Option.some.injEq] at moves
                  exact moves ▸ .notifies call other queueWait left waiter phase inflight target
              | _ => simp [target] at moves
      | _ => simp [step, phase] at moves

end LimiterSystem

end Fusecraft
