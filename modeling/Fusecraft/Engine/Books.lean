import Fusecraft.Engine.Phases

namespace Fusecraft

open Counting

/-!
# The books of the engine

What the shared stores say about the calls, in every reachable state: the
counter of sequence numbers and the order in which they were taken, the event
log, the runs of the bodies, and the counters of the metrics recorder.  Each
invariant reads one observation off the progress of every call.
-/

variable {F Call T : Type}

namespace Progress

/-- The sequence number that a call has taken. -/
def seq? : Progress T -> Option UInt64
  | idle => none
  | started _ => none
  | sequenced _ seq => some seq
  | sampled _ seq _ => some seq
  | sleeping _ seq _ _ _ _ => some seq
  | ready _ seq _ _ => some seq
  | executed _ seq _ _ _ => some seq
  | emitted seq _ _ _ => some seq
  | recorded seq _ _ => some seq
  | returned seq _ _ => some seq
  | unwinding seq _ => some seq
  | panicked seq _ => some seq

/-- What the event of a call must account for, once it is emitted. -/
def account : Progress T -> Option (UInt64 × Option Served × Except FsError T)
  | emitted seq served result _ => some (seq, served, result)
  | recorded seq served result => some (seq, some served, result)
  | returned seq served result => some (seq, served, result)
  | _ => none

/-- How often the body of a call has run, by what it has drawn. -/
def bodyRuns : Progress T -> Nat
  | executed _ _ served _ _ => if served.fault.isNone then 1 else 0
  | emitted _ (some served) _ _ => if served.fault.isNone then 1 else 0
  | recorded _ served _ => if served.fault.isNone then 1 else 0
  | returned _ (some served) _ => if served.fault.isNone then 1 else 0
  | _ => 0

/-- The outcome that a call has yet to record. -/
def pendingOutcome : Progress T -> Option Outcome
  | emitted _ _ result _ => some (classify result).1
  | _ => none

theorem seq?_afterReserve {start : Nat} {seq : UInt64} {served : Served} {delay : Duration}
    {now : Nat} : (afterReserve start seq served delay now : Progress T).seq? = some seq := by
  unfold afterReserve
  split <;> rfl

theorem account_afterReserve {start : Nat} {seq : UInt64} {served : Served} {delay : Duration}
    {now : Nat} : (afterReserve start seq served delay now : Progress T).account = none := by
  unfold afterReserve
  split <;> rfl

theorem bodyRuns_afterReserve {start : Nat} {seq : UInt64} {served : Served} {delay : Duration}
    {now : Nat} : (afterReserve start seq served delay now : Progress T).bodyRuns = 0 := by
  unfold afterReserve
  split <;> rfl

theorem pendingOutcome_afterReserve {start : Nat} {seq : UInt64} {served : Served}
    {delay : Duration} {now : Nat} :
    (afterReserve start seq served delay now : Progress T).pendingOutcome = none := by
  unfold afterReserve
  split <;> rfl

end Progress

namespace EngineState

/-! ## The invariants -/

/-- Sequence numbers were handed out in order, one to each call. -/
structure Numbered (state : EngineState F Call T) : Prop where
  nodup : state.issued.Nodup
  seq : state.seq = UInt64.ofNat state.issued.length
  fresh : forall call, (state.progress call).seq? = none -> call ∉ state.issued
  position : forall call seq, (state.progress call).seq? = some seq ->
    exists index, state.issued[index]? = some call ∧ seq = UInt64.ofNat index

/-- The event says what the call was, what it had drawn and how it ended. -/
def Describes (ctx : OpContext) (seq : UInt64) (served : Option Served) (result : Except FsError T)
    (event : Event) : Prop :=
  event.seq = seq ∧ event.op = ctx.op ∧ event.ino = ctx.ino ∧ event.offset = ctx.offset ∧
  event.len = ctx.len ∧ event.outcome = (classify result).1 ∧ event.errno = (classify result).2 ∧
  event.injectedLatencyUs = (served.map (fun served => served.latencyUs)).getD 0

/-- The entries of a call in the log. -/
def entriesOf [DecidableEq Call] (state : EngineState F Call T) (call : Call) :
    List (Call × Event) :=
  state.events.filter (fun entry => entry.1 = call)

/-- A call that has emitted its event has one entry, which describes it; the
other calls have none. -/
structure Logged [DecidableEq Call] (load : Workload Call T) (state : EngineState F Call T) :
    Prop where
  silent : forall call, (state.progress call).account = none -> state.entriesOf call = []
  reported : forall call seq served result,
    (state.progress call).account = some (seq, served, result) ->
    exists event, state.entriesOf call = [(call, event)] ∧
      Describes (load.ctx call) seq served result event

/-- The body of every call has run as often as its progress says. -/
def Ran (state : EngineState F Call T) : Prop :=
  forall call, state.bodyRuns call = (state.progress call).bodyRuns

/-- The number of events of an op and an outcome. -/
def eventCount (state : EngineState F Call T) (op : FsOp) (outcome : Outcome) : Nat :=
  state.events.countP (fun entry => entry.2.op = op ∧ entry.2.outcome = outcome)

/-- Whether a call of an op has yet to record an outcome. -/
def owes (load : Workload Call T) (op : FsOp) (outcome : Outcome) (call : Call)
    (progress : Progress T) : Bool :=
  decide ((load.ctx call).op = op ∧ progress.pendingOutcome = some outcome)

/-- The number of calls of an op with an outcome that they have yet to record. -/
def pending [Fintype Call] (load : Workload Call T) (state : EngineState F Call T) (op : FsOp)
    (outcome : Outcome) : Nat :=
  count id (fun call => owes load op outcome call (state.progress call))

/-- The counters of the recorder are behind the log by what is pending. -/
def Booked [Fintype Call] (load : Workload Call T) (state : EngineState F Call T) : Prop :=
  forall op outcome, state.metrics.counter op outcome +
    UInt64.ofNat (state.pending load op outcome) = UInt64.ofNat (state.eventCount op outcome)

variable {state next : EngineState F Call T} {load : Workload Call T}

/-- An observation that agrees on the old and the new progress of one call
agrees everywhere. -/
theorem observe_update [DecidableEq Call] {Seen : Type*} (observe : Progress T -> Seen)
    {progress : Call -> Progress T} {call : Call} {after : Progress T}
    (same : observe after = observe (progress call)) (other : Call) :
    observe (Function.update progress call after other) = observe (progress other) := by
  by_cases own : other = call
  · subst own
    rw [Function.update_self, same]
  · rw [Function.update_of_ne own]

/-! ## Sequence numbers -/

theorem Numbered.keep (numbered : state.Numbered) (issued : next.issued = state.issued)
    (seq : next.seq = state.seq)
    (same : forall call, (next.progress call).seq? = (state.progress call).seq?) :
    next.Numbered := by
  constructor
  · rw [issued]
    exact numbered.nodup
  · rw [issued, seq]
    exact numbered.seq
  · intro call fresh
    rw [issued]
    exact numbered.fresh call ((same call).symm.trans fresh)
  · intro call number taken
    rw [issued]
    exact numbered.position call number ((same call).symm.trans taken)

variable [DecidableEq Call]

/-- Taking the next number appends the call. -/
theorem Numbered.take (numbered : state.Numbered) {call : Call} {progress : Progress T}
    (fresh : (state.progress call).seq? = none) (taken : progress.seq? = some state.seq)
    (issued : next.issued = state.issued ++ [call]) (seq : next.seq = state.seq + 1)
    (moved : next.progress = Function.update state.progress call progress) :
    next.Numbered := by
  have absent := numbered.fresh call fresh
  constructor
  · rw [issued, List.nodup_append]
    refine ⟨numbered.nodup, List.nodup_singleton _, ?_⟩
    rintro other member last same rfl
    rw [List.mem_singleton.mp same] at member
    exact absent member
  · rw [issued, seq, numbered.seq, List.length_append, List.length_singleton, UInt64.ofNat_add]
    rfl
  · intro other unnumbered
    rw [moved] at unnumbered
    rw [issued, List.mem_append, List.mem_singleton, not_or]
    by_cases same : other = call
    · subst same
      rw [Function.update_self, taken] at unnumbered
      cases unnumbered
    · rw [Function.update_of_ne same] at unnumbered
      exact ⟨numbered.fresh other unnumbered, same⟩
  · intro other number numberedOther
    rw [moved] at numberedOther
    rw [issued]
    by_cases same : other = call
    · subst same
      rw [Function.update_self, taken] at numberedOther
      refine ⟨state.issued.length, by simp, ?_⟩
      rw [← numbered.seq]
      exact (Option.some.inj numberedOther).symm
    · rw [Function.update_of_ne same] at numberedOther
      rcases numbered.position other number numberedOther with ⟨index, found, value⟩
      refine ⟨index, ?_, value⟩
      rw [List.getElem?_append_left (List.getElem?_eq_some_iff.mp found).1]
      exact found

variable [F64 F] [Fintype Call] {engine : SimEngine F} {lib : SamplerLib F}

theorem Numbered.preserved (numbered : state.Numbered) {label : EngineLabel Call}
    (moves : engine.step lib load state label = some next) : next.Numbered := by
  cases SimEngine.step_cases moves with
  | advances call _ progress local' =>
      refine numbered.keep rfl rfl (observe_update Progress.seq? ?_)
      generalize state.progress call = stage at local'
      cases local' <;> rfl
  | takes call start started =>
      exact numbered.take (by rw [started]; rfl) rfl rfl rfl rfl
  | queues call _ start seq limiterLabel limiter waits own steps =>
      exact numbered.keep rfl rfl (fun _ => rfl)
  | reserves call now start seq served bucket delay sampled reserved =>
      refine numbered.keep rfl rfl (observe_update Progress.seq? ?_)
      change _ = (state.progress call).seq?
      rw [sampled, Progress.seq?_afterReserve]
      rfl
  | executes call start seq served delay awake =>
      refine numbered.keep rfl rfl (observe_update Progress.seq? ?_)
      rw [awake]
      rfl
  | emits call now unixNanos seq served delay result totalUs settled =>
      refine numbered.keep rfl rfl (observe_update Progress.seq? ?_)
      cases settled with
      | executed start seq served delay result ran => rw [ran]; rfl
      | refused start seq err waits refusal => rw [waits]; rfl
  | records call seq served result totalUs emitted =>
      refine numbered.keep rfl rfl (observe_update Progress.seq? ?_)
      rw [emitted]
      cases served <;> rfl
  | leaves call notifies progress limiter ends steps =>
      refine numbered.keep rfl rfl (observe_update Progress.seq? ?_)
      change _ = (state.progress call).seq?
      generalize state.progress call = stage at ends
      cases ends <;> rfl

/-! ## The event log -/

omit [F64 F] [Fintype Call] in
theorem Logged.keep (logged : state.Logged load) (events : next.events = state.events)
    (same : forall call, (next.progress call).account = (state.progress call).account) :
    next.Logged load := by
  constructor
  · intro call silent
    rw [entriesOf, events]
    exact logged.silent call ((same call).symm.trans silent)
  · intro call seq served result accounted
    rw [entriesOf, events]
    exact logged.reported call seq served result ((same call).symm.trans accounted)

omit [F64 F] [Fintype Call] in
/-- The one event of a call. -/
theorem Logged.append (logged : state.Logged load) {call : Call} {after : Progress T}
    {seq : UInt64} {served : Option Served} {result : Except FsError T} {event : Event}
    (silent : (state.progress call).account = none)
    (accounted : after.account = some (seq, served, result))
    (describes : Describes (load.ctx call) seq served result event)
    (events : next.events = state.events ++ [(call, event)])
    (moved : next.progress = Function.update state.progress call after) : next.Logged load := by
  have own : next.entriesOf call = [(call, event)] := by
    have before := logged.silent call silent
    unfold entriesOf at before ⊢
    rw [events, List.filter_append, before]
    simp
  have others : forall other, other ≠ call -> next.entriesOf other = state.entriesOf other := by
    intro other different
    unfold entriesOf
    rw [events, List.filter_append]
    simp [Ne.symm different]
  constructor
  · intro other quiet
    by_cases same : other = call
    · subst same
      rw [moved, Function.update_self, accounted] at quiet
      cases quiet
    · rw [moved, Function.update_of_ne same] at quiet
      rw [others other same]
      exact logged.silent other quiet
  · intro other number drawn outcome reported
    by_cases same : other = call
    · subst same
      rw [moved, Function.update_self, accounted] at reported
      cases reported
      exact ⟨event, own, describes⟩
    · rw [moved, Function.update_of_ne same] at reported
      rw [others other same]
      exact logged.reported other number drawn outcome reported

theorem Logged.preserved (logged : state.Logged load) {label : EngineLabel Call}
    (moves : engine.step lib load state label = some next) : next.Logged load := by
  cases SimEngine.step_cases moves with
  | advances call _ progress local' =>
      refine logged.keep rfl (observe_update Progress.account ?_)
      generalize state.progress call = stage at local'
      cases local' <;> rfl
  | takes call start started =>
      refine logged.keep rfl (observe_update Progress.account ?_)
      rw [started]
      rfl
  | queues call _ start seq limiterLabel limiter waits own steps =>
      exact logged.keep rfl (fun _ => rfl)
  | reserves call now start seq served bucket delay sampled reserved =>
      refine logged.keep rfl (observe_update Progress.account ?_)
      change _ = (state.progress call).account
      rw [sampled, Progress.account_afterReserve]
      rfl
  | executes call start seq served delay awake =>
      refine logged.keep rfl (observe_update Progress.account ?_)
      rw [awake]
      rfl
  | emits call now unixNanos seq served delay result totalUs settled =>
      have silent : (state.progress call).account = none := by
        cases settled with
        | executed start seq served delay result ran => rw [ran]; rfl
        | refused start seq err waits refusal => rw [waits]; rfl
      exact logged.append silent rfl ⟨rfl, rfl, rfl, rfl, rfl, rfl, rfl, rfl⟩ rfl rfl
  | records call seq served result totalUs emitted =>
      refine logged.keep rfl (observe_update Progress.account ?_)
      rw [emitted]
      cases served <;> rfl
  | leaves call notifies progress limiter ends steps =>
      refine logged.keep rfl (observe_update Progress.account ?_)
      change _ = (state.progress call).account
      generalize state.progress call = stage at ends
      cases ends <;> rfl

/-! ## The bodies -/

theorem Ran.preserved (ran : state.Ran) {label : EngineLabel Call}
    (moves : engine.step lib load state label = some next) : next.Ran := by
  have keep : forall {call : Call} {after : Progress T},
      after.bodyRuns = (state.progress call).bodyRuns ->
      forall other, state.bodyRuns other =
        (Function.update state.progress call after other).bodyRuns := by
    intro call after same other
    rw [observe_update Progress.bodyRuns same]
    exact ran other
  cases SimEngine.step_cases moves with
  | advances call _ progress local' =>
      apply keep
      generalize state.progress call = stage at local'
      cases local' <;> rfl
  | takes call start started =>
      apply keep
      rw [started]
      rfl
  | queues call _ start seq limiterLabel limiter waits own steps => exact ran
  | reserves call now start seq served bucket delay sampled reserved =>
      apply keep
      rw [sampled, Progress.bodyRuns_afterReserve]
      rfl
  | executes call start seq served delay awake =>
      intro other
      by_cases same : other = call
      · subst same
        have before := ran other
        rw [awake] at before
        change Function.update state.bodyRuns other _ other =
          (Function.update state.progress other _ other).bodyRuns
        rw [Function.update_self, Function.update_self, before]
        exact Nat.zero_add _
      · change Function.update state.bodyRuns call _ other =
          (Function.update state.progress call _ other).bodyRuns
        rw [Function.update_of_ne same, Function.update_of_ne same]
        exact ran other
  | emits call now unixNanos seq served delay result totalUs settled =>
      apply keep
      cases settled with
      | executed start seq served delay result ran => rw [ran]; rfl
      | refused start seq err waits refusal => rw [waits]; rfl
  | records call seq served result totalUs emitted =>
      apply keep
      rw [emitted]
      cases served <;> rfl
  | leaves call notifies progress limiter ends steps =>
      apply keep
      generalize state.progress call = stage at ends
      cases ends <;> rfl

/-! ## The metrics -/

omit [F64 F] in
/-- Moving one call trades what it owed for what it owes now. -/
theorem pending_update (load : Workload Call T) {call : Call} {after : Progress T}
    (moved : next.progress = Function.update state.progress call after) (op : FsOp)
    (outcome : Outcome) :
    next.pending load op outcome + (owes load op outcome call (state.progress call)).toNat =
      state.pending load op outcome + (owes load op outcome call after).toNat := by
  have replaced : (fun other => owes load op outcome other (next.progress other)) =
      Function.update (fun other => owes load op outcome other (state.progress other)) call
        (owes load op outcome call after) := by
    funext other
    rw [moved]
    by_cases same : other = call
    · subst same
      rw [Function.update_self, Function.update_self]
    · rw [Function.update_of_ne same, Function.update_of_ne same]
  unfold pending
  rw [replaced]
  exact count_update id _ call _

omit [F64 F] [DecidableEq Call] in
theorem Booked.keep (booked : state.Booked load) (events : next.events = state.events)
    (metrics : next.metrics = state.metrics)
    (same : forall call,
      (next.progress call).pendingOutcome = (state.progress call).pendingOutcome) :
    next.Booked load := by
  intro op outcome
  have owing : next.pending load op outcome = state.pending load op outcome := by
    unfold pending owes
    simp only [same]
  rw [metrics, owing, eventCount, events]
  exact booked op outcome

omit [F64 F] in
/-- A new event counts for its op and outcome, which its call then owes to the
recorder. -/
theorem Booked.append (booked : state.Booked load) {call : Call} {after : Progress T}
    {event : Event} (before : (state.progress call).pendingOutcome = none)
    (owed : after.pendingOutcome = some event.outcome) (op : event.op = (load.ctx call).op)
    (events : next.events = state.events ++ [(call, event)])
    (metrics : next.metrics = state.metrics)
    (moved : next.progress = Function.update state.progress call after) : next.Booked load := by
  intro other outcome
  have trade := pending_update load moved other outcome
  have counted : next.eventCount other outcome =
      state.eventCount other outcome + (owes load other outcome call after).toNat := by
    unfold eventCount owes
    rw [events, List.countP_append, owed]
    by_cases counts : (load.ctx call).op = other ∧ event.outcome = outcome
    · simp [op, counts]
    · simp [op, counts]
  have nothing : owes load other outcome call (state.progress call) = false := by
    simp [owes, before]
  rw [nothing, Bool.toNat_false, Nat.add_zero] at trade
  rw [metrics, trade, counted, UInt64.ofNat_add, ← UInt64.add_assoc, booked other outcome,
    UInt64.ofNat_add]

omit [F64 F] in
/-- Recording pays what the call owed. -/
theorem Booked.settle (booked : state.Booked load) {call : Call} {after : Progress T}
    {paid : Outcome} {durationUs : UInt64}
    (before : (state.progress call).pendingOutcome = some paid)
    (owed : after.pendingOutcome = none) (events : next.events = state.events)
    (metrics : next.metrics = state.metrics.record (load.ctx call).op durationUs (paid = .error))
    (moved : next.progress = Function.update state.progress call after) : next.Booked load := by
  intro other outcome
  have trade := pending_update load moved other outcome
  have nothing : owes load other outcome call after = false := by
    simp [owes, owed]
  have recorded : next.metrics.counter other outcome = state.metrics.counter other outcome +
      UInt64.ofNat (owes load other outcome call (state.progress call)).toNat := by
    rw [metrics, HistogramRecorder.counter_record, owes, before]
    have named : (if decide (paid = .error) = true then Outcome.error else .ok) = paid := by
      cases paid <;> rfl
    rw [named]
    by_cases counts : other = (load.ctx call).op ∧ outcome = paid
    · rw [if_pos counts, counts.1, counts.2]
      simp
    · rw [if_neg counts, decide_eq_false (fun same => counts ⟨same.1.symm,
        (Option.some.inj same.2).symm⟩)]
      rfl
  rw [nothing, Bool.toNat_false, Nat.add_zero] at trade
  rw [recorded, UInt64.add_assoc, ← UInt64.ofNat_add, Nat.add_comm, trade, eventCount, events]
  exact booked other outcome

theorem Booked.preserved (booked : state.Booked load) {label : EngineLabel Call}
    (moves : engine.step lib load state label = some next) : next.Booked load := by
  cases SimEngine.step_cases moves with
  | advances call _ progress local' =>
      refine booked.keep rfl rfl (observe_update Progress.pendingOutcome ?_)
      generalize state.progress call = stage at local'
      cases local' <;> rfl
  | takes call start started =>
      refine booked.keep rfl rfl (observe_update Progress.pendingOutcome ?_)
      rw [started]
      rfl
  | queues call _ start seq limiterLabel limiter waits own steps =>
      exact booked.keep rfl rfl (fun _ => rfl)
  | reserves call now start seq served bucket delay sampled reserved =>
      refine booked.keep rfl rfl (observe_update Progress.pendingOutcome ?_)
      change _ = (state.progress call).pendingOutcome
      rw [sampled, Progress.pendingOutcome_afterReserve]
      rfl
  | executes call start seq served delay awake =>
      refine booked.keep rfl rfl (observe_update Progress.pendingOutcome ?_)
      rw [awake]
      rfl
  | emits call now unixNanos seq served delay result totalUs settled =>
      have owedNothing : (state.progress call).pendingOutcome = none := by
        cases settled with
        | executed start seq served delay result ran => rw [ran]; rfl
        | refused start seq err waits refusal => rw [waits]; rfl
      exact booked.append owedNothing rfl rfl rfl rfl rfl
  | records call seq served result totalUs emitted =>
      refine booked.settle (?_ : _ = some (classify result).1) ?_ rfl rfl rfl
      · rw [emitted]
        rfl
      · cases served <;> rfl
  | leaves call notifies progress limiter ends steps =>
      refine booked.keep rfl rfl (observe_update Progress.pendingOutcome ?_)
      change _ = (state.progress call).pendingOutcome
      generalize state.progress call = stage at ends
      cases ends <;> rfl

/-! ## Every reachable state -/

section Runs

variable {created : Nat} {allowed : EngineState F Call T -> EngineLabel Call -> Prop}

theorem numbered_of_reachable
    (reached : (engine.system lib load created).ReachableBy allowed state) : state.Numbered :=
  reached.invariant Numbered
    ⟨List.nodup_nil, rfl, fun _ _ => List.not_mem_nil, fun _ _ taken => by cases taken⟩
    (fun _ _ _ _ _ moves numbered => numbered.preserved moves)

theorem logged_of_reachable
    (reached : (engine.system lib load created).ReachableBy allowed state) :
    state.Logged load :=
  reached.invariant (fun state => state.Logged load)
    ⟨fun _ _ => rfl, fun _ _ _ _ accounted => by cases accounted⟩
    (fun _ _ _ _ _ moves logged => logged.preserved moves)

theorem ran_of_reachable
    (reached : (engine.system lib load created).ReachableBy allowed state) : state.Ran :=
  reached.invariant Ran (fun _ => rfl) (fun _ _ _ _ _ moves ran => ran.preserved moves)

theorem booked_of_reachable
    (reached : (engine.system lib load created).ReachableBy allowed state) :
    state.Booked load := by
  refine reached.invariant (fun state => state.Booked load) ?_
    (fun _ _ _ _ _ moves booked => booked.preserved moves)
  intro op outcome
  have quiet : (engine.initial created : EngineState F Call T).pending load op outcome = 0 := by
    apply (count_eq_zero_iff _ _).mpr
    intro call
    simp [owes, SimEngine.initial, Progress.pendingOutcome]
  change HistogramRecorder.new.counter op outcome +
    UInt64.ofNat ((engine.initial created : EngineState F Call T).pending load op outcome) = _
  rw [quiet]
  cases outcome <;> rfl

end Runs

end EngineState

end Fusecraft
