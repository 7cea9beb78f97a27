import Fusecraft.Engine.Draws
import Fusecraft.Engine.Ledger
import Fusecraft.Limiter.Refusals
import Fusecraft.Sampler.Faults

namespace Fusecraft

open Transition Counting

/-!
# What an operation answers

A call returns what its body yields unless a fault rule of its op fires or the
limiter refuses it, and a refusal is always EAGAIN.  No call is refused where
the slots and the queue places of its op are enough for all calls of the op.
-/

namespace LimiterSystem

variable {Call : Type} [Fintype Call] [DecidableEq Call]
variable {limiter : BlockingLimiter} {system : LimiterSystem Call}

/-- Where only calls of a set have entered, one of the set that has not finds
the limiter overloaded only if the set is larger than all places. -/
theorem Counted.not_overloaded (counted : system.Counted limiter) (callers : Finset Call)
    (few : callers.card ≤ limiter.cap + limiter.queueCap) {call : Call} (caller : call ∈ callers)
    (idle : system.phase call = .idle)
    (others : forall other, other ∉ callers -> system.phase other = .idle) :
    ¬ system.Overloaded limiter := by
  intro overloaded
  have entered : system.number Phase.hasEntered ≤ (callers.erase call).card := by
    apply Finset.card_le_card
    intro other member
    have enters : (system.phase other).hasEntered = true := (Finset.mem_filter.mp member).2
    rw [Finset.mem_erase]
    constructor
    · rintro rfl
      rw [idle] at enters
      cases enters
    · by_contra outside
      rw [others other outside] at enters
      cases enters
  have total := number_entered system
  have inflight := counted.inflight
  have queued := counted.queued
  have less := Finset.card_erase_lt_of_mem caller
  unfold Overloaded at overloaded
  omega

/-- A step of an acquisition of a call that is served, or that enters with a
place left. -/
theorem served_of_queues (counted : system.Counted limiter) (positive : 0 < limiter.cap)
    {call : Call} {label : LimiterLabel Call} (own : SimEngine.Queues call label)
    {next : LimiterSystem Call} (moves : system.step limiter label = some next)
    (place : system.phase call = .idle -> ¬ system.Overloaded limiter)
    (before : system.phase call = .idle ∨ (system.phase call).isServed = true) :
    (next.phase call).isServed = true := by
  rcases before with idle | served
  · cases own with
    | acquire now =>
        rcases step_acquire moves with ⟨state, exit, runs, entered, -, phase, -⟩
        have accepted : (next.phase call).isRefused ≠ true := fun refused =>
          place idle ((acquire_refused_iff counted positive moves).mp refused)
        rw [phase] at accepted ⊢
        cases exit with
        | guard queueWait => rfl
        | error err => exact absurd rfl accepted
        | wait waiter =>
            rw [BlockingLimiter.acquire_wait runs]
            rfl
        | unwind =>
            cases entered with
            | unwound positive busy room overflow => exact overflow.elim
    | spurious => simp [step, idle] at moves
    | wake now =>
        rcases step_wake counted moves with ⟨waiter, timedOut, state, exit, queued, -⟩
        rcases queued with notified | awake
        · rw [idle] at notified
          cases notified
        · rw [idle] at awake
          cases awake
  · exact served_preserved counted moves call served

end LimiterSystem

namespace EngineState

variable {F Call T : Type} [F64 F] [Fintype Call] [DecidableEq Call]
variable {engine : SimEngine F} {lib : SamplerLib F} {load : Workload Call T} {created : Nat}
variable {state next : EngineState F Call T}

/-! ## Refusals -/

/-- A refused call answers EAGAIN. -/
def Honest (state : EngineState F Call T) : Prop :=
  forall call result, (state.progress call).result? = some (none, result) ->
    result = .error (.errno Libc.eagain)

omit [F64 F] [Fintype Call] in
theorem Honest.keep (honest : state.Honest) {call : Call} {after : Progress T}
    (same : after.result? = (state.progress call).result?)
    (moved : next.progress = Function.update state.progress call after) : next.Honest := by
  intro other result refused
  rw [moved, observe_update Progress.result? same] at refused
  exact honest other result refused

theorem honest_of_reachable (reached : (engine.system lib load created).Reachable state) :
    state.Honest := by
  apply reached.invariant (fun state => state.Honest) (fun _ _ refused => by cases refused)
  intro before label after reached _ moves honest
  cases SimEngine.step_cases moves with
  | advances call _ progress local' =>
      refine honest.keep ?_ rfl
      generalize before.progress call = stage at local'
      cases local' <;> rfl
  | takes call start started => exact honest.keep (by rw [started]; rfl) rfl
  | queues call _ start seq limiterLabel limiter waits own steps => exact honest
  | reserves call now start seq served bucket delay sampled reserved =>
      refine honest.keep ?_ rfl
      rw [sampled, Progress.result?_afterReserve]
      rfl
  | executes call start seq served delay awake =>
      intro other result refused
      change (Function.update before.progress call _ other).result? = _ at refused
      rcases update_cases before.progress call other
        (.executed start seq served delay (SimEngine.reply served (load.body call))) with
        ⟨-, now⟩ | ⟨-, now⟩
      · rw [now] at refused
        cases refused
      · rw [now] at refused
        exact honest other result refused
  | emits call now unixNanos seq served delay result totalUs settled =>
      cases settled with
      | executed start seq served delay result ran =>
          exact honest.keep (by rw [ran]; rfl) rfl
      | refused start seq err waits refusal =>
          have eagain := LimiterSystem.refused_eagain
            ((SimEngine.limiter_simulation (load.ctx call).op).reachable reached) call refusal
          subst eagain
          intro other result refused
          change (Function.update before.progress call _ other).result? = _ at refused
          rcases update_cases before.progress call other
            (.emitted seq none (.error (.errno (FsError.errno Libc.eagain).asErrno)) totalUs) with
            ⟨-, now⟩ | ⟨-, now⟩
          · rw [now] at refused
            cases refused
            rfl
          · rw [now] at refused
            exact honest other result refused
  | records call seq served result totalUs emitted =>
      refine honest.keep ?_ rfl
      rw [emitted]
      cases served <;> rfl
  | leaves call notifies progress limiter ends steps =>
      refine honest.keep ?_ rfl
      generalize before.progress call = stage at ends
      cases ends <;> rfl

/-- In its limiter a call has not entered yet or is served. -/
def Unrefused (load : Workload Call T) (state : EngineState F Call T) : Prop :=
  state.Paired load (fun _ phase => phase = .idle ∨ phase.isServed = true)

/-- With a place for every call of an op, no call is refused. -/
theorem unrefused_of_reachable (positive : forall op, 0 < (engine.resources op).limiter.cap)
    (few : forall op, (Finset.univ.filter (fun call => (load.ctx call).op = op)).card ≤
      (engine.resources op).limiter.cap + (engine.resources op).limiter.queueCap)
    (reached : (engine.system lib load created).Reachable state) : state.Unrefused load := by
  apply reached.invariant (fun state => state.Unrefused load) (fun _ => Or.inl rfl)
  intro before label after reached _ moves unrefused
  have counted := SimEngine.limiter_counted reached
  have slotted := slotted_of_reachable reached
  cases SimEngine.step_cases moves with
  | queues call _ start seq limiterLabel limiter waits own steps =>
      refine unrefused.queues counted own steps (Or.inr ?_)
      refine LimiterSystem.served_of_queues (counted _) (positive _) own steps (fun idle => ?_)
        (unrefused call)
      apply (counted _).not_overloaded _ (few _)
        (Finset.mem_filter.mpr ⟨Finset.mem_univ call, rfl⟩) idle
      intro other elsewhere
      apply slotted.other other
      intro same
      exact elsewhere (Finset.mem_filter.mpr ⟨Finset.mem_univ other, same.symm⟩)
  | leaves call notifies progress limiter ends steps =>
      refine unrefused.leaves counted (fun _ waiter parked => ?_) steps (Or.inr rfl)
      rcases parked with impossible | served
      · cases impossible
      · exact Or.inr served
  | advances call _ progress local' => exact unrefused.advance rfl rfl (unrefused call)
  | takes call start started => exact unrefused.advance rfl rfl (unrefused call)
  | reserves call now start seq served bucket delay sampled reserved =>
      exact unrefused.advance rfl rfl (unrefused call)
  | executes call start seq served delay awake =>
      exact unrefused.advance rfl rfl (unrefused call)
  | emits call now unixNanos seq served delay result totalUs settled =>
      exact unrefused.advance rfl rfl (unrefused call)
  | records call seq served result totalUs emitted =>
      exact unrefused.advance rfl rfl (unrefused call)

/-! ## Results -/

omit [Fintype Call] [DecidableEq Call] in
/-- A fault comes from a rule for the op of its key. -/
theorem exists_rule_of_fault {rules : List (FaultRule F)} {key : SampleKey} {errno : Int}
    (faults : sampleFault lib rules key = some errno) :
    exists rule, rule ∈ rules ∧ rule.op = key.op ∧ rule.errno = errno := by
  rw [sampleFault_eq_firingRule, Option.bind_eq_some_iff] at faults
  rcases faults with ⟨index, fires, found⟩
  rcases firingRule_spec fires with ⟨rule, draw, at_, own, -⟩
  rw [at_, Option.map_some, Option.some_inj] at found
  exact ⟨rule, List.mem_of_getElem? at_, own, found⟩

/-- The three ways in which a call can come to its result. -/
inductive Answered (engine : SimEngine F) (load : Workload Call T) (call : Call) :
    Option Served -> Except FsError T -> Prop
  | refused : Answered engine load call none (.error (.errno Libc.eagain))
  | faulted (served : Served) (rule : FaultRule F)
      (member : rule ∈ (engine.choice (load.ctx call)).faults)
      (own : rule.op = (load.ctx call).op) (fires : served.fault = some rule.errno) :
      Answered engine load call (some served) (.error (.errno rule.errno))
  | ran (served : Served) (quiet : served.fault = none) :
      Answered engine load call (some served) (load.body call)

theorem answered_of_returned (reached : (engine.system lib load created).Reachable state)
    {call : Call} {seq : UInt64} {served : Option Served} {result : Except FsError T}
    (returned : state.progress call = .returned seq served result) :
    Answered engine load call served result := by
  have answers := (truthful_of_reachable reached).answers call served result
    (by rw [returned]; rfl)
  cases served with
  | none =>
      have eagain := honest_of_reachable reached call result (by rw [returned]; rfl)
      exact eagain ▸ .refused
  | some served =>
      have answers : result = SimEngine.reply served (load.body call) := answers
      cases fault : served.fault with
      | none =>
          rw [SimEngine.reply, fault] at answers
          exact answers ▸ .ran served fault
      | some errno =>
          rcases (truthful_of_reachable reached).draws call seq served (by rw [returned]; rfl) with
            ⟨queueWait, drawn⟩
          have faults : sampleFault lib (engine.choice (load.ctx call)).faults
              (engine.sampleKey (load.ctx call) seq) = some errno := by
            rw [← fault, drawn]
            rfl
          rcases exists_rule_of_fault faults with ⟨rule, member, own, rfl⟩
          rw [SimEngine.reply, fault] at answers
          exact answers ▸ .faulted served rule member own fault

/-- With a place for every call and no rule for its op, a call answers what its
body yields. -/
theorem ran_of_returned (positive : forall op, 0 < (engine.resources op).limiter.cap)
    (few : forall op, (Finset.univ.filter (fun call => (load.ctx call).op = op)).card ≤
      (engine.resources op).limiter.cap + (engine.resources op).limiter.queueCap)
    (reached : (engine.system lib load created).Reachable state) {call : Call}
    (unfaulted : forall rule, rule ∈ (engine.choice (load.ctx call)).faults ->
      rule.op ≠ (load.ctx call).op)
    {seq : UInt64} {served : Option Served} {result : Except FsError T}
    (returned : state.progress call = .returned seq served result) :
    result = load.body call := by
  cases answered_of_returned reached returned with
  | refused =>
      have slot := (slotted_of_reachable reached).own call
      rw [returned] at slot
      have refused : ((state.limiters (load.ctx call).op).phase call).isRefused = true := slot
      rcases unrefused_of_reachable positive few reached call with idle | served
      · rw [idle] at refused
        cases refused
      · rw [Phase.isRefused_of_isServed served] at refused
        cases refused
  | faulted served rule member own fires => exact absurd own (unfaulted rule member)
  | ran served quiet => rfl

end EngineState

end Fusecraft
