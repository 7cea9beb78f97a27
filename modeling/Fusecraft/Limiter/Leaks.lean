import Fusecraft.Limiter.Refusals
import Fusecraft.Core.Float

namespace Fusecraft

open Counting Transition BlockingLimiter

/-!
# Failed calls and the queue

A call of `acquire_timeout` can end without a guard in five ways.  Four of
them take back what the call had added to the counters.  The fifth is the
panic of an unrepresentable deadline: the deadline is computed after `queued`
was incremented, the mutex is not poisoned, and the place stays taken.
-/

namespace LimiterSystem

variable {Call : Type*} [Fintype Call] [DecidableEq Call]
variable {limiter : BlockingLimiter} {system next : LimiterSystem Call}

/-- A step that has to queue its call computes a deadline that fits an
`Instant`, if it computes one. -/
def DeadlineFits (limiter : BlockingLimiter) (system : LimiterSystem Call)
    (label : LimiterLabel Call) : Prop :=
  limiter.cap ≠ 0 -> limiter.cap ≤ system.state.inflight ->
    system.state.queued < limiter.queueCap -> label.Representable

/-- No call that ended without a guard has left a trace: the counters are made
up of the live guards and of the calls in the queue, and a caller is refused a
place in the queue only if calls in the queue take all of them. -/
structure Traceless (limiter : BlockingLimiter) (system : LimiterSystem Call) : Prop where
  inflight : system.state.inflight = system.number Phase.isHolding
  queued : system.state.queued = system.number Phase.isQueued
  acquire : forall call start next, system.step limiter (.acquire call start) = some next ->
    (next.phase call).isRefused = true ->
    limiter.cap = 0 ∨ system.number Phase.isQueued = limiter.queueCap
  acquireTimeout : forall call timeout start now next,
    system.step limiter (.acquireTimeout call timeout start now) = some next ->
    (next.phase call).isRefused = true ->
    limiter.cap = 0 ∨ system.number Phase.isQueued = limiter.queueCap ∨ start + timeout ≤ now

theorem Counted.traceless (counted : system.Counted limiter)
    (free : forall call, (system.phase call).isUnwound = false) : system.Traceless limiter := by
  have none : system.number Phase.isUnwound = 0 := (count_eq_zero_iff _ _).mpr free
  have queued : system.state.queued = system.number Phase.isQueued := by
    rw [counted.queued, none, Nat.add_zero]
  have bound := counted.queued_le
  have full : system.Overloaded limiter -> system.number Phase.isQueued = limiter.queueCap := by
    intro overloaded
    have places := (counted.overloaded_iff.mp overloaded).2
    omega
  refine ⟨counted.inflight, queued, ?_, ?_⟩
  · intro call start next moves refused
    rcases Nat.eq_zero_or_pos limiter.cap with zero | positive
    · exact Or.inl zero
    · exact Or.inr (full ((acquire_refused_iff counted positive moves).mp refused))
  · intro call timeout start now next moves refused
    rcases Nat.eq_zero_or_pos limiter.cap with zero | positive
    · exact Or.inl zero
    · rcases (acquireTimeout_refused_iff counted positive moves).mp refused with
        overloaded | expired
      · exact Or.inr (Or.inl (full overloaded))
      · exact Or.inr (Or.inr expired.2.2.2)

/-- A call that has unwound has left its place behind. -/
theorem Counted.not_traceless (counted : system.Counted limiter)
    (unwound : exists call, (system.phase call).isUnwound = true) : ¬ system.Traceless limiter := by
  intro traceless
  have some := (count_pos_iff Phase.isUnwound system.phase).mpr unwound
  have total := counted.queued
  rw [traceless.queued] at total
  unfold number at total
  omega

/-- Steps that meet the condition unwind nobody. -/
theorem unwound_free_of_fits
    (reached : (limiter.system Call).ReachableBy (DeadlineFits limiter) system) (call : Call) :
    (system.phase call).isUnwound = false := by
  revert call
  refine reached.invariant (fun state => forall call, (state.phase call).isUnwound = false)
    (fun _ => rfl) ?_
  intro before label after reachedBefore fits moves free call
  have here := free call
  have turn := phase_step (counted_of_reachable reachedBefore) moves call
  generalize before.phase call = old, after.phase call = new at here turn ⊢
  cases turn with
  | stays phase => exact here
  | enters state exit overflows deadline entered =>
      cases entered with
      | unwound positive busy room overflow =>
          exact absurd (fits positive busy room) (deadline overflow)
      | _ => rfl
  | resumes waiter state exit woken => cases woken <;> rfl
  | retries waiter timedOut state exit woken => cases woken <;> rfl
  | _ => rfl

/-- A step that does not meet the condition unwinds its call out of the queue. -/
theorem unwound_of_not_fits {label : LimiterLabel Call}
    (breaks : ¬ DeadlineFits limiter system label)
    (moves : system.step limiter label = some next) :
    exists call, (next.phase call).isUnwound = true := by
  unfold DeadlineFits at breaks
  simp only [not_forall, exists_prop] at breaks
  rcases breaks with ⟨positive, busy, room, overflow⟩
  cases label with
  | acquireTimeout call timeout start now =>
      have overflow : ¬ start + timeout ≤ instantMax := overflow
      have unwinds : limiter.acquireTimeout timeout start now system.state =
          some (system.state.enqueue, .unwind) := by
        simp only [BlockingLimiter.acquireTimeout, enter, if_neg positive,
          if_neg (Nat.not_lt.mpr busy), if_neg (Nat.not_le.mpr room), instantAdd, if_neg overflow]
      rcases step_acquireTimeout moves with ⟨state, exit, runs, -, phase⟩
      rw [unwinds] at runs
      cases runs
      exact ⟨call, by rw [phase]; rfl⟩
  | _ => exact absurd trivial overflow

/-- Nothing brings an unwound call back. -/
theorem unwound_stays (counted : system.Counted limiter) {label : LimiterLabel Call}
    (moves : system.step limiter label = some next)
    (unwound : exists call, (system.phase call).isUnwound = true) :
    exists call, (next.phase call).isUnwound = true := by
  rcases unwound with ⟨call, unwound⟩
  refine ⟨call, ?_⟩
  have turn := phase_step counted moves call
  generalize system.phase call = old, next.phase call = new at unwound turn ⊢
  cases turn with
  | stays phase => exact unwound
  | _ => cases unwound

/-- Where failed calls leave no trace.  After any run of any limiter, whatever
the timeouts and the order of steps, the counters are made up of live guards
and queued calls alone, and only these are in the way of later callers, if and
only if each call that had to queue with a timeout computed a deadline that
fits an `Instant`. -/
theorem traceless_iff (limiter : BlockingLimiter) (labels : List (LimiterLabel Call))
    (system : LimiterSystem Call)
    (runs : (limiter.system Call).run initial labels = some system) :
    system.Traceless limiter ↔
      (limiter.system Call).RunAllowed (DeadlineFits limiter) initial labels := by
  have apart : forall state : LimiterSystem Call, (state.Counted limiter ∧
      exists call, (state.phase call).isUnwound = true) -> ¬ state.Traceless limiter :=
    fun state leaked => leaked.1.not_traceless leaked.2
  refine System.good_iff_runAllowed apart ?_ ?_ ?_ runs
  · intro state reached
    exact (counted_of_reachable reached).traceless (unwound_free_of_fits reached)
  · intro before label after reached breaks moves
    exact ⟨(counted_of_reachable reached).preserved moves, unwound_of_not_fits breaks moves⟩
  · intro before label after _ moves leaked
    exact ⟨leaked.1.preserved moves, unwound_stays leaked.1 moves leaked.2⟩

/-- A wait that times out behind a guard, with a deadline that fits. -/
theorem traceless_iff_timeout :
    exists system : LimiterSystem (Fin 2), (system.phase 1).isRefused = true ∧
      system.state.queued = system.number Phase.isQueued := by
  obtain ⟨system, runs, refused⟩ : exists system : LimiterSystem (Fin 2),
      ((BlockingLimiter.mk 1 1).system (Fin 2)).run initial
        [.acquire 0 3, .acquireTimeout 1 10 5 5, .timeout 1, .wake 1 20] = some system ∧
      (system.phase 1).isRefused = true := ⟨_, rfl, rfl⟩
  have fits : (5 + 10 : Nat) ≤ instantMax := by decide
  have traceless := (traceless_iff (.mk 1 1) _ system runs).mpr
    (System.runAllowed_of_forall _ (fun before label member _ _ _ => by
      simp only [List.mem_cons, List.not_mem_nil, or_false] at member
      rcases member with rfl | rfl | rfl | rfl <;> first | exact trivial | exact fits))
  exact ⟨system, refused, traceless.queued⟩

/-- The largest duration as a timeout, on a limiter with one slot and one queue
place: the call panics, its place stays taken, and the next caller is refused
although nobody is in the queue. -/
theorem deadline_overflow_leaks :
    ¬ forall (limiter : BlockingLimiter) (labels : List (LimiterLabel (Fin 3)))
      (system : LimiterSystem (Fin 3)),
      (limiter.system (Fin 3)).run initial labels = some system -> system.Traceless limiter := by
  intro traceless
  obtain ⟨system, next, runs, moves, refused, nobody⟩ : exists system next : LimiterSystem (Fin 3),
      ((BlockingLimiter.mk 1 1).system (Fin 3)).run initial
        [.acquire 0 1, .acquireTimeout 1 Duration.maxNanos 2 2] = some system ∧
      system.step (.mk 1 1) (.acquire 2 3) = some next ∧ (next.phase 2).isRefused = true ∧
      system.number Phase.isQueued = 0 := ⟨_, _, rfl, rfl, rfl, rfl⟩
  rcases (traceless (.mk 1 1) _ system runs).acquire 2 3 next moves refused with zero | full
  · cases zero
  · rw [nobody] at full
    cases full

end LimiterSystem

end Fusecraft
