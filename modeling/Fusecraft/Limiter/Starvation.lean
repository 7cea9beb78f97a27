import Fusecraft.Limiter.Overtaking

namespace Fusecraft

open Transition BlockingLimiter

/-!
# Waiting has no bound

A notified call that finds its slot taken goes back to sleep, behind everybody
who fell asleep meanwhile.  So a queued call can be passed again and again: by
every caller that comes between a release and the moment the notified call has
the mutex.  The schedules below do this for any list of callers, with a condvar
that notifies the longest sleeper and never wakes anybody spuriously.
-/

namespace QueueSystem

variable {Call : Type*} [Fintype Call] [DecidableEq Call]
variable {limiter : BlockingLimiter} {queue : QueueSystem Call}

/-- All slots are held, and one call sleeps in the queue. -/
structure Besieged (limiter : BlockingLimiter) (waiting : Call) (queue : QueueSystem Call) :
    Prop where
  full : queue.system.state.inflight = limiter.cap
  asleep : exists start, queue.system.phase waiting = .parked { start := start, deadline := none }
  alone : queue.sleepers = [waiting]
  settled : queue.notified = []
  held : exists holder queueWait, queue.system.phase holder = .holding queueWait

/-! ## Steps of a schedule -/

theorem step_admits {call : Call} (idle : queue.system.phase call = .idle)
    (free : queue.system.state.inflight < limiter.cap) (start : Nat) :
    queue.step limiter (.acquire call start) = some
      { queue with
        system := { queue.system with
          state := queue.system.state.takeSlot
          phase := Function.update queue.system.phase call (.holding 0) }
        record := (queue.record.passes call).serves call } := by
  have positive : limiter.cap ≠ 0 := by omega
  have section_ : limiter.acquire start queue.system.state =
      some (queue.system.state.takeSlot, .guard 0) := by
    rw [BlockingLimiter.acquire, BlockingLimiter.enter, if_neg positive, if_pos free]
  simp [step, LimiterSystem.step, idle, section_, LimiterSystem.commit, enter]

theorem step_queues {call : Call} (idle : queue.system.phase call = .idle)
    (positive : 0 < limiter.cap) (busy : limiter.cap ≤ queue.system.state.inflight)
    (room : queue.system.state.queued < limiter.queueCap) (start : Nat) :
    queue.step limiter (.acquire call start) = some
      { queue with
        system := { queue.system with
          state := queue.system.state.enqueue
          phase := Function.update queue.system.phase call
            (.parked { start := start, deadline := none }) }
        sleepers := queue.sleepers ++ [call]
        record := queue.record.joins call } := by
  have section_ : limiter.acquire start queue.system.state =
      some (queue.system.state.enqueue, .wait { start := start, deadline := none }) := by
    rw [BlockingLimiter.acquire, BlockingLimiter.enter, if_neg (by omega), if_neg (by omega),
      if_neg (by omega)]
  simp [step, LimiterSystem.step, idle, section_, LimiterSystem.commit, enter]

theorem step_notifies {call other : Call} {rest : List Call} {queueWait left : Nat}
    {waiter : Waiter} (longest : queue.sleepers = other :: rest)
    (holds : queue.system.phase call = .holding queueWait)
    (inflight : queue.system.state.inflight = left + 1)
    (parked : queue.system.phase other = .parked waiter) :
    queue.step limiter (.drop call (some other)) = some
      { queue with
        system := { queue.system with
          state := { queue.system.state with inflight := left }
          phase := Function.update (Function.update queue.system.phase call .dropped) other
            (.notified waiter) }
        sleepers := rest
        notified := queue.notified ++ [other] } := by
  have released : queue.system.state.release =
      some { queue.system.state with inflight := left } := by
    rw [LimiterState.release, inflight]
    rfl
  simp [step, longest, LimiterSystem.step, holds, LimiterSystem.dropGuard, released, parked]

theorem step_sleeps {call : Call} {start : Nat}
    (notified : queue.system.phase call = .notified { start := start, deadline := none })
    (busy : limiter.cap ≤ queue.system.state.inflight) (now : Nat) :
    queue.step limiter (.wake call now) = some
      { queue with
        system := { queue.system with
          phase := Function.update queue.system.phase call
            (.parked { start := start, deadline := none }) }
        sleepers := queue.sleepers ++ [call]
        notified := queue.notified.erase call } := by
  have section_ : limiter.wake { start := start, deadline := none } false now queue.system.state =
      some (queue.system.state, .wait { start := start, deadline := none }) := by
    rw [BlockingLimiter.wake, BlockingLimiter.acquireWake, if_neg (by omega)]
  simp [step, LimiterSystem.step, notified, section_, LimiterSystem.commit, resume]

/-! ## One round -/

/-- The one queued call has been notified and does not have the mutex yet. -/
structure Roused (waiting : Call) (queue : QueueSystem Call) : Prop where
  notified : exists start,
    queue.system.phase waiting = .notified { start := start, deadline := none }
  nobody : queue.sleepers = []
  alone : queue.notified = [waiting]

/-- A holder drops its guard, and the sleeper is notified. -/
theorem Besieged.roused {waiting : Call} (besieged : queue.Besieged limiter waiting)
    (positive : 0 < limiter.cap) :
    exists label next, queue.step limiter label = some next ∧ next.Roused waiting ∧
      next.system.state.inflight + 1 = limiter.cap ∧
      (forall other, queue.system.phase other = .idle -> next.system.phase other = .idle) ∧
      next.record = queue.record := by
  rcases besieged with ⟨full, ⟨start, asleep⟩, alone, settled, ⟨holder, queueWait, held⟩⟩
  obtain ⟨left, capacity⟩ : exists left, limiter.cap = left + 1 :=
    Nat.exists_eq_add_one.mpr positive
  refine ⟨_, _, step_notifies alone held (full.trans capacity) asleep,
    ⟨⟨start, Function.update_self ..⟩, rfl, by rw [settled]; rfl⟩, capacity.symm,
    fun other idle => ?_, rfl⟩
  have notHolder : other ≠ holder := by
    rintro rfl
    rw [idle] at held
    cases held
  have notWaiting : other ≠ waiting := by
    rintro rfl
    rw [idle] at asleep
    cases asleep
  change Function.update (Function.update queue.system.phase holder .dropped) waiting _ other = _
  rw [Function.update_of_ne notWaiting, Function.update_of_ne notHolder]
  exact idle

/-- A newcomer takes the slot. -/
theorem Roused.passed {waiting : Call} (roused : queue.Roused waiting) {call : Call}
    (idle : queue.system.phase call = .idle)
    (free : queue.system.state.inflight + 1 = limiter.cap) :
    exists label next, queue.step limiter label = some next ∧ next.Roused waiting ∧
      next.system.state.inflight = limiter.cap ∧ next.system.phase call = .holding 0 ∧
      (forall other, other ≠ call -> queue.system.phase other = .idle ->
        next.system.phase other = .idle) ∧
      next.record = (queue.record.passes call).serves call := by
  rcases roused with ⟨⟨start, notified⟩, nobody, alone⟩
  have notWaiting : waiting ≠ call := by
    rintro rfl
    rw [idle] at notified
    cases notified
  refine ⟨_, _, step_admits idle (by omega) 0, ⟨⟨start, ?_⟩, nobody, alone⟩, free,
    Function.update_self .., fun other different fresh => ?_, rfl⟩
  · exact (Function.update_of_ne notWaiting _ _).trans notified
  · exact (Function.update_of_ne different _ _).trans fresh

/-- The notified call finds no slot and goes back to sleep. -/
theorem Roused.besieged {waiting : Call} (roused : queue.Roused waiting)
    (full : queue.system.state.inflight = limiter.cap) {holder : Call}
    (held : queue.system.phase holder = .holding 0) :
    exists label next, queue.step limiter label = some next ∧ next.Besieged limiter waiting ∧
      (forall other, queue.system.phase other = .idle -> next.system.phase other = .idle) ∧
      next.record = queue.record := by
  rcases roused with ⟨⟨start, notified⟩, nobody, alone⟩
  have notWaiting : forall {other : Call} {phase : Phase}, queue.system.phase other = phase ->
      phase.isNotified = false -> other ≠ waiting := by
    rintro other phase rfl quiet rfl
    rw [notified] at quiet
    cases quiet
  refine ⟨_, _, step_sleeps notified (le_of_eq full.symm) 0, ?_, fun other idle => ?_, rfl⟩
  · exact {
      full := full
      asleep := ⟨start, Function.update_self ..⟩
      alone := by rw [nobody]; rfl
      settled := by simp [alone]
      held := ⟨holder, 0, (Function.update_of_ne (notWaiting held rfl) _ _).trans held⟩ }
  · exact (Function.update_of_ne (notWaiting idle rfl) _ _).trans idle

/-- A holder drops its guard, a newcomer comes before the notified call, and
nothing else has changed. -/
theorem Besieged.round {waiting : Call} (besieged : queue.Besieged limiter waiting)
    (positive : 0 < limiter.cap) {call : Call} (idle : queue.system.phase call = .idle) :
    exists labels next, (limiter.queueSystem Call).run queue labels = some next ∧
      next.Besieged limiter waiting ∧
      (forall other, other ≠ call -> queue.system.phase other = .idle ->
        next.system.phase other = .idle) ∧
      next.record = (queue.record.passes call).serves call := by
  rcases besieged.roused positive with ⟨drop, freed, drops, roused, free, fresh, same⟩
  rcases roused.passed (fresh call idle) free with
    ⟨enter, taken, enters, roused, full, held, others, record⟩
  rcases roused.besieged full held with ⟨wake, next, wakes, besieged, kept, unchanged⟩
  refine ⟨[drop, enter, wake], next, ?_, besieged,
    fun other different unseen => kept other (others other different (fresh other unseen)), ?_⟩
  · simp only [System.run_cons, BlockingLimiter.queueSystem, drops, enters, wakes,
      Option.bind_some, System.run_nil]
  · rw [unchanged, record, same]

/-- Any number of rounds, one newcomer in each. -/
theorem Besieged.rounds {waiting : Call} (besieged : queue.Besieged limiter waiting)
    (positive : 0 < limiter.cap) {newcomers : List Call} (distinct : newcomers.Nodup)
    (idle : forall call, call ∈ newcomers -> queue.system.phase call = .idle) :
    exists labels next, (limiter.queueSystem Call).run queue labels = some next ∧
      next.Besieged limiter waiting ∧
      next.record.arrived = queue.record.arrived ++ newcomers ∧
      next.record.served = queue.record.served ++ newcomers := by
  induction newcomers generalizing queue with
  | nil => exact ⟨[], queue, rfl, besieged, (List.append_nil _).symm, (List.append_nil _).symm⟩
  | cons call rest ih =>
      rw [List.nodup_cons] at distinct
      rcases besieged.round positive (idle call List.mem_cons_self) with
        ⟨labels, middle, runs, besieged, fresh, record⟩
      have later : forall other, other ∈ rest -> middle.system.phase other = .idle := by
        intro other member
        apply fresh other
        · rintro rfl
          exact distinct.1 member
        · exact idle other (List.mem_cons_of_mem _ member)
      rcases ih besieged distinct.2 later with ⟨labels', next, runs', besieged, arrived, served⟩
      refine ⟨labels ++ labels', next, ?_, besieged, ?_, ?_⟩
      · rw [System.run_append labels' runs]
        exact runs'
      · rw [arrived, record, List.append_cons]
        rfl
      · rw [served, record, List.append_cons]
        rfl

/-! ## The siege -/

/-- Callers that find a free slot each take one. -/
theorem exists_filled {holders : List Call} (distinct : holders.Nodup)
    (idle : forall call, call ∈ holders -> queue.system.phase call = .idle)
    (free : queue.system.state.inflight + holders.length ≤ limiter.cap) :
    exists labels next, (limiter.queueSystem Call).run queue labels = some next ∧
      next.system.state.inflight = queue.system.state.inflight + holders.length ∧
      next.system.state.queued = queue.system.state.queued ∧
      next.sleepers = queue.sleepers ∧ next.notified = queue.notified ∧
      (forall call, call ∈ holders -> next.system.phase call = .holding 0) ∧
      forall other, other ∉ holders -> next.system.phase other = queue.system.phase other := by
  induction holders generalizing queue with
  | nil =>
      exact ⟨[], queue, rfl, rfl, rfl, rfl, rfl, fun _ member => absurd member List.not_mem_nil,
        fun _ _ => rfl⟩
  | cons call rest ih =>
      rw [List.nodup_cons] at distinct
      rw [List.length_cons] at free
      have enters := step_admits (idle call List.mem_cons_self)
        (show queue.system.state.inflight < limiter.cap by omega) 0
      have later : forall other, other ∈ rest ->
          Function.update queue.system.phase call (.holding 0) other = .idle := by
        intro other member
        have different : other ≠ call := by
          rintro rfl
          exact distinct.1 member
        rw [Function.update_of_ne different]
        exact idle other (List.mem_cons_of_mem _ member)
      rcases @ih { queue with
        system := { queue.system with
          state := queue.system.state.takeSlot
          phase := Function.update queue.system.phase call (.holding 0) }
        record := (queue.record.passes call).serves call } distinct.2 later
        (by change queue.system.state.inflight + 1 + rest.length ≤ limiter.cap; omega) with
        ⟨labels, next, runs, inflight, queued, sleepers, notified, holding, others⟩
      refine ⟨.acquire call 0 :: labels, next, ?_, ?_, queued, sleepers, notified, ?_, ?_⟩
      · rw [System.run_cons]
        change (queue.step limiter (.acquire call 0)).bind _ = _
        rw [enters]
        exact runs
      · rw [inflight, List.length_cons]
        change queue.system.state.inflight + 1 + rest.length = _
        omega
      · intro other member
        rcases List.mem_cons.mp member with rfl | member
        · rw [others _ distinct.1]
          exact Function.update_self ..
        · exact holding other member
      · intro other absent
        rw [List.mem_cons, not_or] at absent
        rw [others other absent.2]
        exact Function.update_of_ne absent.1 _ _

/-- All slots are taken, and one more caller queues. -/
theorem exists_besieged {holders : List Call} {waiting : Call}
    (slots : holders.length = limiter.cap) (positive : 0 < limiter.cap)
    (place : 0 < limiter.queueCap) (distinct : (waiting :: holders).Nodup) :
    exists labels next, (limiter.queueSystem Call).run .initial labels = some next ∧
      next.Besieged limiter waiting ∧ waiting ∈ next.record.arrived ∧
      forall other, other ∉ waiting :: holders -> next.system.phase other = .idle := by
  rw [List.nodup_cons] at distinct
  have room : (initial : QueueSystem Call).system.state.inflight + holders.length ≤ limiter.cap :=
    le_of_eq ((Nat.zero_add _).trans slots)
  rcases exists_filled distinct.2 (fun _ _ => rfl) room with
    ⟨labels, filled, runs, inflight, queued, sleepers, notified, holding, others⟩
  have full : filled.system.state.inflight = limiter.cap :=
    inflight.trans ((Nat.zero_add _).trans slots)
  have fresh : filled.system.phase waiting = .idle := others waiting distinct.1
  have queues := step_queues fresh positive (le_of_eq full.symm) (queued ▸ place) 0
  obtain ⟨holder, member⟩ : exists holder, holder ∈ holders :=
    List.exists_mem_of_length_pos (slots ▸ positive)
  have apart : holder ≠ waiting := by
    rintro rfl
    exact distinct.1 member
  refine ⟨labels ++ [.acquire waiting 0], _, (System.run_append _ runs).trans
    (congrArg (fun next => next.bind some) queues), ?_, ?_, fun other absent => ?_⟩
  · exact {
      full := full
      asleep := ⟨0, Function.update_self ..⟩
      alone := congrArg (fun list => list ++ [waiting]) sleepers
      settled := notified
      held := ⟨holder, 0, (Function.update_of_ne apart _ _).trans (holding holder member)⟩ }
  · exact List.mem_append_right _ List.mem_cons_self
  · rw [List.mem_cons, not_or] at absent
    exact (Function.update_of_ne absent.1 _ _).trans (others other absent.2)

/-- Waiting has no bound.  Take a limiter with at least one slot and one queue
place, any calls that hold all its slots, one more call, and any number of
other calls.  There is a run, in which a release notifies the longest sleeper
and nobody wakes spuriously, at whose end the one call is still asleep in the
queue although all the other calls arrived after it and were admitted. -/
theorem waits_without_bound (limiter : BlockingLimiter) (positive : 0 < limiter.cap)
    (place : 0 < limiter.queueCap) {holders newcomers : List Call} {waiting : Call}
    (slots : holders.length = limiter.cap)
    (distinct : ((waiting :: holders) ++ newcomers).Nodup) :
    exists labels queue, (limiter.queueSystem Call).run .initial labels = some queue ∧
      (queue.system.phase waiting).isParked = true ∧
      forall call, call ∈ newcomers ->
        Fifo.Before waiting call queue.record.arrived ∧ call ∈ queue.record.served := by
  rw [List.nodup_append] at distinct
  rcases distinct with ⟨first, later, apart⟩
  rcases exists_besieged slots positive place first with
    ⟨labels, besieged, runs, siege, arrived, idle⟩
  have fresh : forall call, call ∈ newcomers -> besieged.system.phase call = .idle :=
    fun call member => idle call (fun early => apart call early call member rfl)
  rcases siege.rounds positive later fresh with ⟨labels', queue, runs', siege, arrivals, served⟩
  rcases siege.asleep with ⟨start, asleep⟩
  refine ⟨labels ++ labels', queue, ?_, by rw [asleep]; rfl, fun call member => ⟨?_, ?_⟩⟩
  · rw [System.run_append labels' runs]
    exact runs'
  · rw [arrivals]
    exact (List.singleton_sublist.mpr arrived).append (List.singleton_sublist.mpr member)
  · rw [served]
    exact List.mem_append_right _ member

/-- One slot, one queue place, and three calls that pass the one in the queue. -/
theorem waits_without_bound_three :
    exists labels, exists queue : QueueSystem (Fin 5),
      ((BlockingLimiter.mk 1 1).queueSystem (Fin 5)).run .initial labels = some queue ∧
      (queue.system.phase 1).isParked = true ∧ 2 ∈ queue.record.served ∧
      3 ∈ queue.record.served ∧ 4 ∈ queue.record.served := by
  have distinct : (((1 : Fin 5) :: [0]) ++ [2, 3, 4]).Nodup := by decide
  rcases waits_without_bound (.mk 1 1) Nat.one_pos Nat.one_pos rfl distinct with
    ⟨labels, queue, runs, parked, passed⟩
  exact ⟨labels, queue, runs, parked, (passed 2 (by decide)).2, (passed 3 (by decide)).2,
    (passed 4 (by decide)).2⟩

end QueueSystem

end Fusecraft
