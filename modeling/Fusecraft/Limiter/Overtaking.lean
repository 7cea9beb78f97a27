import Fusecraft.Library.Fifo
import Fusecraft.Limiter.Refusals

namespace Fusecraft

open Counting Transition BlockingLimiter

/-!
# The order of admissions

Callers of `acquire` that find no slot sleep on the condvar, and a release
notifies the longest sleeper, as the condvar of the program does; it has no
spurious wakeups.  A notification hands out nothing: between the release and
the moment the notified call has the mutex again, the slot is free for anybody
who gets there first.  This module keeps the order of what happened beside the
limiter and finds out when the waiting line is overtaken.
-/

/-- A limiter used through `acquire` alone, with the order of its sleepers and
of the notified calls, and the record of its line. -/
structure QueueSystem (Call : Type*) where
  system : LimiterSystem Call
  sleepers : List Call
  notified : List Call
  record : Fifo.Record Call

namespace Phase

/-- A call of `acquire` that is woken by notifications alone. -/
@[simp] def isPlain : Phase -> Bool
  | parked waiter => waiter.deadline.isNone
  | notified waiter => waiter.deadline.isNone
  | awake _ _ => false
  | unwound => false
  | _ => true

/-- The call was handed a guard. -/
@[simp] def isAdmitted : Phase -> Bool
  | holding _ => true
  | dropped => true
  | _ => false

end Phase

namespace QueueSystem

variable {Call : Type*} [Fintype Call] [DecidableEq Call]

def initial : QueueSystem Call where
  system := .initial
  sleepers := []
  notified := []
  record := .initial

/-- A call has made its first critical section, which left it in a phase. -/
def enter (queue : QueueSystem Call) (call : Call) (system : LimiterSystem Call) :
    Phase -> QueueSystem Call
  | .holding _ =>
      { queue with system := system, record := (queue.record.passes call).serves call }
  | .parked _ =>
      { queue with
        system := system
        sleepers := queue.sleepers ++ [call]
        record := queue.record.joins call }
  | _ => { queue with system := system, record := queue.record.passes call }

/-- A notified call has the mutex again, which left it in a phase. -/
def resume (queue : QueueSystem Call) (call : Call) (system : LimiterSystem Call) :
    Phase -> QueueSystem Call
  | .holding _ =>
      { queue with
        system := system
        notified := queue.notified.erase call
        record := queue.record.serves call }
  | .parked _ =>
      { queue with
        system := system
        sleepers := queue.sleepers ++ [call]
        notified := queue.notified.erase call }
  | _ => { queue with system := system, notified := queue.notified.erase call }

/-- The steps of calls of `acquire` and of guard drops.  A drop notifies the
longest sleeper. -/
def step (limiter : BlockingLimiter) (queue : QueueSystem Call) :
    LimiterLabel Call -> Option (QueueSystem Call)
  | .acquire call start =>
      (queue.system.step limiter (.acquire call start)).map
        (fun next => queue.enter call next (next.phase call))
  | .wake call now =>
      (queue.system.step limiter (.wake call now)).map
        (fun next => queue.resume call next (next.phase call))
  | .drop call notifies =>
      if notifies = queue.sleepers.head? then
        (queue.system.step limiter (.drop call notifies)).map
          (fun next => { queue with
            system := next
            sleepers := queue.sleepers.tail
            notified := queue.notified ++ notifies.toList })
      else none
  | _ => none

/-- The two ways past the line.  A newcomer must not make its first critical
section while a slot is free and somebody is queued, and notified calls must
get the mutex in the order in which they were notified. -/
def Orderly (limiter : BlockingLimiter) (queue : QueueSystem Call) : LimiterLabel Call -> Prop
  | .acquire _ _ => queue.system.state.inflight < limiter.cap ->
      forall call, (queue.system.phase call).isQueued = false
  | .wake call _ => queue.notified.head? = some call
  | _ => True

end QueueSystem

/-- The transition system of a limiter with the record of its line. -/
def BlockingLimiter.queueSystem (limiter : BlockingLimiter) (Call : Type*) [Fintype Call]
    [DecidableEq Call] : System (QueueSystem Call) (LimiterLabel Call) where
  init := .initial
  step := QueueSystem.step limiter

namespace QueueSystem

variable {Call : Type*} [Fintype Call] [DecidableEq Call]
variable {limiter : BlockingLimiter} {queue next : QueueSystem Call}

/-! ## The steps, by what they do -/

omit [Fintype Call] [DecidableEq Call] in
@[simp] theorem enter_system (queue : QueueSystem Call) (call : Call) (system : LimiterSystem Call)
    (phase : Phase) : (queue.enter call system phase).system = system := by
  cases phase <;> rfl

omit [Fintype Call] in
@[simp] theorem resume_system (queue : QueueSystem Call) (call : Call)
    (system : LimiterSystem Call) (phase : Phase) :
    (queue.resume call system phase).system = system := by
  cases phase <;> rfl

/-- Every step is one of the limiter. -/
theorem system_step {label : LimiterLabel Call} (moves : queue.step limiter label = some next) :
    queue.system.step limiter label = some next.system := by
  cases label with
  | acquire call start =>
      rcases Option.map_eq_some_iff.mp moves with ⟨system, steps, rfl⟩
      rw [enter_system]
      exact steps
  | wake call now =>
      rcases Option.map_eq_some_iff.mp moves with ⟨system, steps, rfl⟩
      rw [resume_system]
      exact steps
  | drop call notifies =>
      simp only [step, Option.ite_none_right_eq_some] at moves
      rcases Option.map_eq_some_iff.mp moves.2 with ⟨system, steps, rfl⟩
      exact steps
  | _ => cases moves

theorem simulation (limiter : BlockingLimiter) :
    System.Simulation (limiter.queueSystem Call) (limiter.system Call)
      (fun queue => queue.system) where
  init := rfl
  step := fun _ label _ moves => Or.inr ⟨label, system_step moves⟩

theorem counted {allowed : QueueSystem Call -> LimiterLabel Call -> Prop}
    (reached : (limiter.queueSystem Call).ReachableBy allowed queue) :
    queue.system.Counted limiter :=
  LimiterSystem.counted_of_reachable ((simulation limiter).reachable reached)

/-- The moves of the line.  A first critical section refuses, admits or queues;
a notified call is admitted or goes back to sleep; a drop frees a slot and
notifies the longest sleeper, if there is one. -/
inductive Moves (limiter : BlockingLimiter) (queue : QueueSystem Call) :
    LimiterLabel Call -> QueueSystem Call -> Prop
  | refuses (call : Call) (start : Nat) (err : FsError) (idle : queue.system.phase call = .idle)
      (busy : limiter.cap ≤ queue.system.state.inflight) :
      Moves limiter queue (.acquire call start)
        { queue with
          system := { queue.system with
            state := queue.system.state.reject
            phase := Function.update queue.system.phase call (.refused err) }
          record := queue.record.passes call }
  | admits (call : Call) (start : Nat) (idle : queue.system.phase call = .idle)
      (free : queue.system.state.inflight < limiter.cap) :
      Moves limiter queue (.acquire call start)
        { queue with
          system := { queue.system with
            state := queue.system.state.takeSlot
            phase := Function.update queue.system.phase call (.holding 0) }
          record := (queue.record.passes call).serves call }
  | queues (call : Call) (start : Nat) (waiter : Waiter) (idle : queue.system.phase call = .idle)
      (busy : limiter.cap ≤ queue.system.state.inflight) (endless : waiter.deadline = none) :
      Moves limiter queue (.acquire call start)
        { queue with
          system := { queue.system with
            state := queue.system.state.enqueue
            phase := Function.update queue.system.phase call (.parked waiter) }
          sleepers := queue.sleepers ++ [call]
          record := queue.record.joins call }
  | resumes (call : Call) (now : Nat) (waiter : Waiter) (queueWait : Nat) (state : LimiterState)
      (notified : queue.system.phase call = .notified waiter)
      (free : queue.system.state.inflight < limiter.cap)
      (takes : state.inflight = queue.system.state.inflight + 1) :
      Moves limiter queue (.wake call now)
        { queue with
          system := { queue.system with
            state := state
            phase := Function.update queue.system.phase call (.holding queueWait) }
          notified := queue.notified.erase call
          record := queue.record.serves call }
  | sleeps (call : Call) (now : Nat) (waiter : Waiter)
      (notified : queue.system.phase call = .notified waiter)
      (busy : limiter.cap ≤ queue.system.state.inflight) :
      Moves limiter queue (.wake call now)
        { queue with
          system := { queue.system with
            phase := Function.update queue.system.phase call (.parked waiter) }
          sleepers := queue.sleepers ++ [call]
          notified := queue.notified.erase call }
  | drops (call : Call) (queueWait left : Nat) (nobody : queue.sleepers = [])
      (holds : queue.system.phase call = .holding queueWait)
      (inflight : queue.system.state.inflight = left + 1) :
      Moves limiter queue (.drop call none)
        { queue with
          system := { queue.system with
            state := { queue.system.state with inflight := left }
            phase := Function.update queue.system.phase call .dropped } }
  | notifies (call other : Call) (rest : List Call) (queueWait left : Nat) (waiter : Waiter)
      (longest : queue.sleepers = other :: rest)
      (holds : queue.system.phase call = .holding queueWait)
      (inflight : queue.system.state.inflight = left + 1)
      (parked : queue.system.phase other = .parked waiter) :
      Moves limiter queue (.drop call (some other))
        { queue with
          system := { queue.system with
            state := { queue.system.state with inflight := left }
            phase := Function.update (Function.update queue.system.phase call .dropped) other
              (.notified waiter) }
          sleepers := rest
          notified := queue.notified ++ [other] }

theorem step_cases (counted : queue.system.Counted limiter)
    (plain : forall call, (queue.system.phase call).isPlain = true) {label : LimiterLabel Call}
    (moves : queue.step limiter label = some next) : queue.Moves limiter label next := by
  cases label with
  | acquire call start =>
      rcases Option.map_eq_some_iff.mp moves with ⟨system, steps, rfl⟩
      rcases LimiterSystem.step_acquire steps with ⟨state, exit, runs, entered, idle, phase, rfl⟩
      rw [phase]
      cases entered with
      | refused overload => exact .refuses call start _ idle (by omega)
      | admitted free => exact .admits call start idle free
      | parked waiter positive busy room =>
          exact .queues call start waiter idle busy (by rw [acquire_wait runs])
      | expired positive busy room => exact .refuses call start _ idle busy
      | unwound positive busy room overflow => exact overflow.elim
  | wake call now =>
      rcases Option.map_eq_some_iff.mp moves with ⟨system, steps, rfl⟩
      rcases LimiterSystem.step_wake counted steps with
        ⟨waiter, timedOut, state, exit, queued, -, woken, phase, rfl⟩
      have here := plain call
      rcases queued with notified | awake
      · rw [notified] at here
        rw [phase]
        cases woken with
        | admitted queueWait left free waiting =>
            exact .resumes call now waiter queueWait _ notified free rfl
        | parked busy => exact .sleeps call now waiter notified busy
        | gaveUp left busy waiting timed =>
            rw [Phase.isPlain, Option.isNone_iff_eq_none] at here
            rw [here] at timed
            cases timed
      · rw [awake] at here
        cases here
  | drop call notifies =>
      simp only [step, Option.ite_none_right_eq_some] at moves
      rcases moves with ⟨longest, moves⟩
      rcases Option.map_eq_some_iff.mp moves with ⟨system, steps, rfl⟩
      cases LimiterSystem.step_cases counted steps with
      | enters _ _ idle _ _ _ _ _ own =>
          rw [← own] at idle
          change queue.system.phase call = .idle at idle
          simp [LimiterSystem.step, idle] at steps
      | leaves _ waiter _ _ parked own =>
          rw [← own] at parked
          change queue.system.phase call = .parked waiter at parked
          simp [LimiterSystem.step, parked] at steps
      | drops _ queueWait left holds inflight nobody =>
          have empty : queue.sleepers = [] := List.head?_eq_none_iff.mp longest.symm
          have moved : queue.Moves limiter _ _ :=
            .drops call queueWait left empty holds inflight
          simpa [empty] using moved
      | notifies _ other queueWait left waiter holds inflight parked =>
          rcases List.head?_eq_some_iff.mp longest.symm with ⟨rest, sleepers⟩
          have moved : queue.Moves limiter _ _ :=
            .notifies call other rest queueWait left waiter sleepers holds inflight parked
          simpa [sleepers] using moved
  | _ => cases moves

/-! ## The lists are right -/

/-- What the lists and the record say about the phases. -/
structure Tracked (queue : QueueSystem Call) : Prop where
  plain : forall call, (queue.system.phase call).isPlain = true
  sleepers : Lists Phase.isParked queue.system.phase queue.sleepers
  notified : Lists Phase.isNotified queue.system.phase queue.notified
  arrived : Lists Phase.hasEntered queue.system.phase queue.record.arrived
  served : Lists Phase.isAdmitted queue.system.phase queue.record.served
  waited : forall call, (queue.system.phase call).isQueued = true -> call ∈ queue.record.waited
  settled : forall call, call ∈ queue.record.waited ->
    (queue.system.phase call).isQueued = true ∨ (queue.system.phase call).isAdmitted = true

omit [Fintype Call] [DecidableEq Call] in
theorem tracked_initial : (initial : QueueSystem Call).Tracked where
  plain := fun _ => rfl
  sleepers := ⟨List.nodup_nil, fun _ => by simp [initial, LimiterSystem.initial]⟩
  notified := ⟨List.nodup_nil, fun _ => by simp [initial, LimiterSystem.initial]⟩
  arrived := ⟨List.nodup_nil, fun _ => by
    simp [initial, LimiterSystem.initial, Fifo.Record.initial]⟩
  served := ⟨List.nodup_nil, fun _ => by
    simp [initial, LimiterSystem.initial, Fifo.Record.initial]⟩
  waited := fun _ queued => by cases queued
  settled := fun _ waited => by cases waited

omit [Fintype Call] in
/-- A call that is not new to the line keeps its place in the record if it
stays in the queue or is admitted. -/
theorem Tracked.waited_keep (tracked : queue.Tracked) {call : Call} {phase : Phase}
    (queued : phase.isQueued = true -> (queue.system.phase call).isQueued = true) (other : Call)
    (waits : (Function.update queue.system.phase call phase other).isQueued = true) :
    other ∈ queue.record.waited := by
  rcases update_cases queue.system.phase call other phase with ⟨rfl, now⟩ | ⟨-, now⟩
  · rw [now] at waits
    exact tracked.waited _ (queued waits)
  · rw [now] at waits
    exact tracked.waited other waits

omit [Fintype Call] in
theorem Tracked.settled_keep (tracked : queue.Tracked) {call : Call} {phase : Phase}
    (known : (queue.system.phase call).isQueued = true ∨
        (queue.system.phase call).isAdmitted = true ->
      phase.isQueued = true ∨ phase.isAdmitted = true) (other : Call)
    (waited : other ∈ queue.record.waited) :
    (Function.update queue.system.phase call phase other).isQueued = true ∨
      (Function.update queue.system.phase call phase other).isAdmitted = true := by
  rcases update_cases queue.system.phase call other phase with ⟨rfl, now⟩ | ⟨-, now⟩
  · rw [now]
    exact known (tracked.settled _ waited)
  · rw [now]
    exact tracked.settled other waited

omit [Fintype Call] in
theorem Tracked.plain_keep (tracked : queue.Tracked) {call : Call} {phase : Phase}
    (plain : phase.isPlain = true) (other : Call) :
    (Function.update queue.system.phase call phase other).isPlain = true := by
  rcases update_cases queue.system.phase call other phase with ⟨-, now⟩ | ⟨-, now⟩
  · rw [now]
    exact plain
  · rw [now]
    exact tracked.plain other

omit [Fintype Call] in
theorem Tracked.drops (tracked : queue.Tracked) {call : Call} {queueWait : Nat}
    (holds : queue.system.phase call = .holding queueWait) (state : LimiterState) :
    ({ queue with
        system := { queue.system with
          state := state
          phase := Function.update queue.system.phase call .dropped } } :
      QueueSystem Call).Tracked where
  plain := tracked.plain_keep rfl
  sleepers := tracked.sleepers.keep (by simp [holds])
  notified := tracked.notified.keep (by simp [holds])
  arrived := tracked.arrived.keep (by simp [holds])
  served := tracked.served.keep (by simp [holds])
  waited := tracked.waited_keep (by simp)
  settled := tracked.settled_keep (by simp)

omit [Fintype Call] in
theorem Tracked.notifies (tracked : queue.Tracked) {call : Call} {waiter : Waiter}
    {rest : List Call} (parked : queue.system.phase call = .parked waiter)
    (longest : queue.sleepers = call :: rest) :
    ({ queue with
        system := { queue.system with
          phase := Function.update queue.system.phase call (.notified waiter) }
        sleepers := rest
        notified := queue.notified ++ [call] } : QueueSystem Call).Tracked := by
  have plain := tracked.plain call
  rw [parked] at plain
  have removed : Lists Phase.isParked
      (Function.update queue.system.phase call (.notified waiter)) (queue.sleepers.erase call) :=
    tracked.sleepers.remove rfl
  rw [longest, List.erase_cons_head] at removed
  exact {
    plain := tracked.plain_keep plain
    sleepers := removed
    notified := tracked.notified.add (by simp [parked]) rfl
    arrived := tracked.arrived.keep (by simp [parked])
    served := tracked.served.keep (by simp [parked])
    waited := tracked.waited_keep (by simp [parked])
    settled := tracked.settled_keep (by simp) }

omit [Fintype Call] in
/-- Every move keeps the lists right. -/
theorem Tracked.preserved (tracked : queue.Tracked) {label : LimiterLabel Call}
    (moves : queue.Moves limiter label next) : next.Tracked := by
  have sleepers := tracked.sleepers
  have notified := tracked.notified
  have arrived := tracked.arrived
  have served := tracked.served
  cases moves with
  | refuses call start err idle busy =>
      exact {
        plain := tracked.plain_keep rfl
        sleepers := sleepers.keep (by simp [idle])
        notified := notified.keep (by simp [idle])
        arrived := arrived.add (by simp [idle]) rfl
        served := served.keep (by simp [idle])
        waited := tracked.waited_keep (by simp)
        settled := tracked.settled_keep (by simp [idle]) }
  | admits call start idle free =>
      exact {
        plain := tracked.plain_keep rfl
        sleepers := sleepers.keep (by simp [idle])
        notified := notified.keep (by simp [idle])
        arrived := arrived.add (by simp [idle]) rfl
        served := served.add (by simp [idle]) rfl
        waited := tracked.waited_keep (by simp)
        settled := tracked.settled_keep (by simp) }
  | queues call start waiter idle busy endless =>
      exact {
        plain := tracked.plain_keep (by simp [endless])
        sleepers := sleepers.add (by simp [idle]) rfl
        notified := notified.keep (by simp [idle])
        arrived := arrived.add (by simp [idle]) rfl
        served := served.keep (by simp [idle])
        waited := by
          intro other waits
          apply List.mem_append.mpr
          rcases update_cases queue.system.phase call other (.parked waiter) with
            ⟨rfl, -⟩ | ⟨-, now⟩
          · exact Or.inr (List.mem_singleton_self _)
          · exact Or.inl (tracked.waited other (now ▸ waits))
        settled := by
          intro other known
          rcases List.mem_append.mp known with known | new
          · exact tracked.settled_keep (by simp) other known
          · rw [List.mem_singleton.mp new]
            exact Or.inl (by simp) }
  | resumes call now waiter queueWait state asleep free takes =>
      exact {
        plain := tracked.plain_keep rfl
        sleepers := sleepers.keep (by simp [asleep])
        notified := notified.remove rfl
        arrived := arrived.keep (by simp [asleep])
        served := served.add (by simp [asleep]) rfl
        waited := tracked.waited_keep (by simp)
        settled := tracked.settled_keep (by simp) }
  | sleeps call now waiter asleep busy =>
      have plain := tracked.plain call
      rw [asleep] at plain
      exact {
        plain := tracked.plain_keep plain
        sleepers := sleepers.add (by simp [asleep]) rfl
        notified := notified.remove rfl
        arrived := arrived.keep (by simp [asleep])
        served := served.keep (by simp [asleep])
        waited := tracked.waited_keep (by simp [asleep])
        settled := tracked.settled_keep (by simp) }
  | drops call queueWait left nobody holds inflight => exact tracked.drops holds _
  | notifies call other rest queueWait left waiter longest holds inflight parked =>
      have different : other ≠ call := by
        intro same
        rw [same, holds] at parked
        cases parked
      have released := tracked.drops holds { queue.system.state with inflight := left }
      apply released.notifies _ longest
      change Function.update queue.system.phase call .dropped other = _
      rw [Function.update_of_ne different, parked]

theorem tracked_of_reachable {allowed : QueueSystem Call -> LimiterLabel Call -> Prop}
    (reached : (limiter.queueSystem Call).ReachableBy allowed queue) : queue.Tracked :=
  reached.invariant _ tracked_initial (fun _ _ _ before _ moves tracked =>
    tracked.preserved (step_cases (counted before) tracked.plain moves))

theorem moves_of_step {allowed : QueueSystem Call -> LimiterLabel Call -> Prop}
    (reached : (limiter.queueSystem Call).ReachableBy allowed queue) {label : LimiterLabel Call}
    (moves : queue.step limiter label = some next) : queue.Moves limiter label next :=
  step_cases (counted reached) (tracked_of_reachable reached).plain moves

omit [Fintype Call] [DecidableEq Call] in
/-- The queued calls are those in the line, since they wake by notification only. -/
theorem Tracked.mem_line (tracked : queue.Tracked) (call : Call) :
    call ∈ queue.notified ++ queue.sleepers ↔ (queue.system.phase call).isQueued = true := by
  rw [List.mem_append, tracked.notified.mem_iff, tracked.sleepers.mem_iff]
  have plain := tracked.plain call
  cases phase : queue.system.phase call <;> simp_all

omit [Fintype Call] [DecidableEq Call] in
theorem Tracked.unserved (tracked : queue.Tracked) {call : Call}
    (unadmitted : (queue.system.phase call).isAdmitted = false) : call ∉ queue.record.served := by
  rw [tracked.served.mem_iff, unadmitted]
  exact Bool.false_ne_true

omit [Fintype Call] [DecidableEq Call] in
/-- A queued call has waited, and is not served yet. -/
theorem Tracked.waiting (tracked : queue.Tracked) {call : Call}
    (queued : (queue.system.phase call).isQueued = true) :
    call ∈ queue.record.waited ∧ call ∈ queue.record.arrived ∧ call ∉ queue.record.served := by
  refine ⟨tracked.waited call queued, ?_, tracked.unserved ?_⟩
  · rw [tracked.arrived.mem_iff]
    cases phase : queue.system.phase call <;> simp_all
  · cases phase : queue.system.phase call <;> simp_all

/-! ## Runs without overtaking -/

/-- As long as nobody overtakes, the notified calls and then the sleepers stand
in the order in which they arrived, and a free slot is kept for each notified
call. -/
structure Ordered (limiter : BlockingLimiter) (queue : QueueSystem Call) : Prop where
  line : (queue.notified ++ queue.sleepers).Sublist queue.record.arrived
  room : queue.notified.length + queue.system.state.inflight ≤ limiter.cap
  inTurn : queue.record.InTurn

omit [Fintype Call] [DecidableEq Call] in
theorem ordered_initial (limiter : BlockingLimiter) :
    (initial : QueueSystem Call).Ordered limiter where
  line := List.nil_sublist _
  room := Nat.zero_le _
  inTurn := Fifo.Record.inTurn_initial

omit [Fintype Call] [DecidableEq Call] in
/-- A notified call finds a slot. -/
theorem Ordered.free (ordered : queue.Ordered limiter) (tracked : queue.Tracked) {call : Call}
    {waiter : Waiter} (asleep : queue.system.phase call = .notified waiter) :
    queue.system.state.inflight < limiter.cap := by
  have member : call ∈ queue.notified := by
    rw [tracked.notified.mem_iff, asleep]
    rfl
  have some := List.length_pos_of_mem member
  have room := ordered.room
  omega

omit [Fintype Call] [DecidableEq Call] in
/-- Nobody waits who arrived before the first in the line. -/
theorem Ordered.first_in_line (ordered : queue.Ordered limiter) (tracked : queue.Tracked)
    {call first : Call} {rest : List Call} (line : queue.notified = call :: rest)
    (waited : first ∈ queue.record.waited)
    (before : Fifo.Before first call queue.record.arrived) : first ∈ queue.record.served := by
  rcases tracked.settled first waited with queued | admitted
  · have inLine := ordered.line
    have member := (tracked.mem_line first).mpr queued
    rw [line, List.cons_append] at inLine member
    have after : Fifo.Before call first queue.record.arrived := by
      rcases List.mem_cons.mp member with rfl | later
      · exact before
      · exact (Fifo.before_cons_self later).mono inLine
    exact absurd after (before.asymm tracked.arrived.nodup)
  · exact (tracked.served.mem_iff first).mpr admitted

omit [Fintype Call] in
theorem Ordered.preserved (ordered : queue.Ordered limiter) (tracked : queue.Tracked)
    {label : LimiterLabel Call} (orderly : queue.Orderly limiter label)
    (moves : queue.Moves limiter label next) : next.Ordered limiter := by
  rcases ordered with ⟨line, room, inTurn⟩
  cases moves with
  | refuses call start err idle busy =>
      exact ⟨line.trans (List.sublist_append_left _ _), room,
        inTurn.passes (tracked.unserved (by rw [idle]; rfl))⟩
  | admits call start idle free =>
      have nobody := orderly free
      have empty : queue.notified ++ queue.sleepers = [] := by
        apply List.eq_nil_iff_forall_not_mem.mpr
        intro other
        rw [tracked.mem_line, nobody]
        exact Bool.false_ne_true
      have alone := (List.append_eq_nil_iff.mp empty).1
      have unserved : call ∉ queue.record.served := tracked.unserved (by rw [idle]; rfl)
      refine ⟨?_, ?_, (inTurn.passes unserved).serves ?_⟩
      · change (queue.notified ++ queue.sleepers).Sublist _
        rw [empty]
        exact List.nil_sublist _
      · change queue.notified.length + (queue.system.state.inflight + 1) ≤ limiter.cap
        rw [alone]
        simp only [List.length_nil]
        omega
      · intro first waited before
        rcases tracked.settled first waited with queued | admitted
        · rw [nobody] at queued
          cases queued
        · exact (tracked.served.mem_iff first).mpr admitted
  | queues call start waiter idle busy endless =>
      have absent : call ∉ queue.record.arrived := by
        rw [tracked.arrived.mem_iff, idle]
        exact Bool.false_ne_true
      refine ⟨?_, room, inTurn.joins (tracked.unserved (by rw [idle]; rfl)) absent⟩
      change (queue.notified ++ (queue.sleepers ++ [call])).Sublist (queue.record.arrived ++ [call])
      rw [← List.append_assoc]
      exact line.append (List.Sublist.refl _)
  | resumes call now waiter queueWait state asleep free takes =>
      rcases List.head?_eq_some_iff.mp orderly with ⟨rest, notified⟩
      refine ⟨?_, ?_, inTurn.serves (fun first waited before =>
        Ordered.first_in_line ⟨line, room, inTurn⟩ tracked notified waited before)⟩
      · change (queue.notified.erase call ++ queue.sleepers).Sublist _
        rw [notified] at line ⊢
        rw [List.erase_cons_head]
        exact (List.sublist_cons_self _ _).trans line
      · change (queue.notified.erase call).length + state.inflight ≤ limiter.cap
        rw [notified] at room ⊢
        rw [List.erase_cons_head, takes]
        rw [List.length_cons] at room
        omega
  | sleeps call now waiter asleep busy =>
      have free := Ordered.free ⟨line, room, inTurn⟩ tracked asleep
      omega
  | drops call queueWait left nobody holds inflight =>
      refine ⟨line, ?_, inTurn⟩
      change queue.notified.length + left ≤ limiter.cap
      omega
  | notifies call other rest queueWait left waiter longest holds inflight parked =>
      refine ⟨?_, ?_, inTurn⟩
      · change (queue.notified ++ [other] ++ rest).Sublist _
        rw [List.append_assoc, List.singleton_append, ← longest]
        exact line
      · change (queue.notified ++ [other]).length + left ≤ limiter.cap
        rw [List.length_append, List.length_singleton]
        omega

theorem ordered_of_reachable
    (reached : (limiter.queueSystem Call).ReachableBy (Orderly limiter) queue) :
    queue.Ordered limiter :=
  reached.invariant _ (ordered_initial limiter) (fun _ _ _ before orderly moves ordered =>
    ordered.preserved (tracked_of_reachable before) orderly (moves_of_step before moves))

/-! ## Where it is lost -/

omit [Fintype Call] in
/-- The first step past the line puts a later arrival before a waiting one. -/
theorem Ordered.overtaken (ordered : queue.Ordered limiter) (tracked : queue.Tracked)
    {label : LimiterLabel Call} (disorderly : ¬ queue.Orderly limiter label)
    (moves : queue.Moves limiter label next) : ¬ next.record.InTurn := by
  cases moves with
  | refuses call start err idle busy =>
      exact absurd (fun free => absurd busy (Nat.not_le_of_lt free)) disorderly
  | queues call start waiter idle busy endless =>
      exact absurd (fun free => absurd busy (Nat.not_le_of_lt free)) disorderly
  | admits call start idle free =>
      simp only [Orderly, not_forall, Bool.not_eq_false] at disorderly
      rcases disorderly with ⟨-, other, queued⟩
      rcases tracked.waiting queued with ⟨waited, arrived, waiting⟩
      have before : Fifo.Before other call (queue.record.passes call).arrived :=
        Fifo.before_append_self arrived
      exact Fifo.Record.not_inTurn_serves waited before waiting
  | resumes call now waiter queueWait state asleep free takes =>
      have member : call ∈ queue.notified := by
        rw [tracked.notified.mem_iff, asleep]
        rfl
      cases notified : queue.notified with
      | nil =>
          rw [notified] at member
          cases member
      | cons head rest =>
          have later : call ∈ rest := by
            rw [notified] at member
            rcases List.mem_cons.mp member with rfl | later
            · exact absurd (congrArg List.head? notified) disorderly
            · exact later
          have queued : (queue.system.phase head).isQueued = true := by
            rw [← tracked.mem_line, notified]
            exact List.mem_cons_self
          have ahead : Fifo.Before head call (queue.notified ++ queue.sleepers) := by
            rw [notified, List.cons_append]
            exact Fifo.before_cons_self (List.mem_append_left _ later)
          rcases tracked.waiting queued with ⟨waited, -, waiting⟩
          exact Fifo.Record.not_inTurn_serves waited (ahead.mono ordered.line) waiting
  | sleeps call now waiter asleep busy =>
      have free := ordered.free tracked asleep
      omega
  | drops call queueWait left nobody holds inflight => exact absurd trivial disorderly
  | notifies call other rest queueWait left waiter longest holds inflight parked =>
      exact absurd trivial disorderly

omit [Fintype Call] in
/-- What was overtaken stays overtaken. -/
theorem Tracked.stays_overtaken (tracked : queue.Tracked) {label : LimiterLabel Call}
    (moves : queue.Moves limiter label next) (broken : ¬ queue.record.InTurn) :
    ¬ next.record.InTurn := by
  cases moves with
  | refuses call start err idle busy => exact Fifo.Record.not_inTurn_passes broken
  | admits call start idle free =>
      apply Fifo.Record.not_inTurn_serves_of (Fifo.Record.not_inTurn_passes broken)
      exact tracked.unserved (by rw [idle]; rfl)
  | queues call start waiter idle busy endless => exact Fifo.Record.not_inTurn_joins broken
  | resumes call now waiter queueWait state asleep free takes =>
      apply Fifo.Record.not_inTurn_serves_of broken
      exact tracked.unserved (by rw [asleep]; rfl)
  | sleeps call now waiter asleep busy => exact broken
  | drops call queueWait left nobody holds inflight => exact broken
  | notifies call other rest queueWait left waiter longest holds inflight parked => exact broken

/-- The waiting line is respected in just the runs in which no newcomer takes
a free slot while a call is queued and the notified calls get the mutex in the
order of their notifications. -/
theorem in_turn_iff (limiter : BlockingLimiter) (labels : List (LimiterLabel Call))
    (queue : QueueSystem Call)
    (runs : (limiter.queueSystem Call).run .initial labels = some queue) :
    queue.record.InTurn ↔
      (limiter.queueSystem Call).RunAllowed (Orderly limiter) .initial labels := by
  have keeps : forall queue,
      (limiter.queueSystem Call).ReachableBy (Orderly limiter) queue -> queue.record.InTurn :=
    fun _ reached => (ordered_of_reachable reached).inTurn
  have apart : forall queue : QueueSystem Call, ¬ queue.record.InTurn -> ¬ queue.record.InTurn :=
    fun _ broken => broken
  apply System.good_iff_runAllowed apart keeps _ _ runs
  · intro before label after reached disorderly moves
    exact (ordered_of_reachable reached).overtaken (tracked_of_reachable reached) disorderly
      (moves_of_step reached moves)
  · intro before label after reached moves broken
    exact (tracked_of_reachable reached).stays_overtaken (moves_of_step reached moves) broken

/-- One slot and a queue, used in turn by two calls. -/
theorem in_turn_iff_two_calls :
    exists queue : QueueSystem (Fin 2), queue.record.served = [0, 1] ∧
      ((BlockingLimiter.mk 1 1).queueSystem (Fin 2)).RunAllowed (Orderly (.mk 1 1)) .initial
        [.acquire 0 1, .acquire 1 2, .drop 0 (some 1), .wake 1 4] := by
  obtain ⟨queue, runs, served, inTurn⟩ : exists queue : QueueSystem (Fin 2),
      ((BlockingLimiter.mk 1 1).queueSystem (Fin 2)).run .initial
        [.acquire 0 1, .acquire 1 2, .drop 0 (some 1), .wake 1 4] = some queue ∧
      queue.record.served = [0, 1] ∧ queue.record.InTurn := ⟨_, rfl, rfl, by decide⟩
  exact ⟨queue, served, (in_turn_iff (.mk 1 1) _ queue runs).mp inTurn⟩

/-- The second call is queued when the first drops its guard and is notified,
but the third call comes before it has the mutex again and takes the slot. -/
theorem newcomer_overtakes :
    ¬ forall (limiter : BlockingLimiter) (labels : List (LimiterLabel (Fin 3)))
      (queue : QueueSystem (Fin 3)), 0 < limiter.cap ->
      (limiter.queueSystem (Fin 3)).run .initial labels = some queue -> queue.record.InTurn := by
  intro inTurn
  obtain ⟨queue, runs, overtaken⟩ : exists queue : QueueSystem (Fin 3),
      ((BlockingLimiter.mk 1 1).queueSystem (Fin 3)).run .initial
        [.acquire 0 1, .acquire 1 2, .drop 0 (some 1), .acquire 2 3] = some queue ∧
      ¬ queue.record.InTurn := ⟨_, rfl, by decide⟩
  exact overtaken (inTurn (.mk 1 1) _ queue Nat.one_pos runs)

end QueueSystem

end Fusecraft
