import Fusecraft.Engine.Sequential

namespace Fusecraft

open Transition

/-!
# Ops do not interfere

The ops of an engine share nothing but the counter from which the sequence
numbers are taken.  What an op shows of a state is collected in a view; a
schedule in which the calls of other ops only take their numbers gives the same
view, under any policies of the other ops and any results of their bodies.
-/

/-- How far a call has come, up to its sequence number. -/
inductive Entry where
  | idle
  | started (start : Nat)
  | numbered
  deriving DecidableEq, Repr

/-- All that is seen of a call by the calls of other ops. -/
def Progress.entry {T : Type} : Progress T -> Entry
  | .idle => .idle
  | .started start => .started start
  | _ => .numbered

/-- The call that a label moves. -/
def EngineLabel.call {Call : Type} : EngineLabel Call -> Call
  | .start call _ => call
  | .fetchAdd call => call
  | .acquire call _ => call
  | .spurious call => call
  | .wake call _ => call
  | .sample call => call
  | .reserve call _ => call
  | .slept call _ => call
  | .execute call => call
  | .emit call _ _ => call
  | .record call => call
  | .drop call _ => call

/-- The label belongs to the entry of a call, which takes its number there. -/
def EngineLabel.enters {Call : Type} : EngineLabel Call -> Bool
  | .start _ _ => true
  | .fetchAdd _ => true
  | _ => false

/-- What one op shows of a state: the counter, the limiter and the buckets of
the op, its events and its metrics, and its calls; of the other calls only
their entry. -/
structure OpView (F Call T : Type) where
  seq : UInt64
  issued : List Call
  limiter : LimiterSystem Call
  buckets : Tier -> BucketState F
  events : List (Call × Event)
  metrics : Option OpHisto
  entry : Call -> Entry
  progress : Call -> Option (Progress T)
  bodyRuns : Call -> Option Nat

variable {F Call T : Type}

namespace Workload

variable (load : Workload Call T) (op : FsOp)

/-- The labels that an op depends on: the entries of all calls, and the steps
of its own. -/
def concerns (label : EngineLabel Call) : Bool :=
  label.enters || decide ((load.ctx label.call).op = op)

end Workload

namespace EngineState

variable (load : Workload Call T) (op : FsOp) (state : EngineState F Call T)

/-- The view of an op. -/
def view : OpView F Call T where
  seq := state.seq
  issued := state.issued
  limiter := state.limiters op
  buckets := state.buckets op
  events := state.events.filter (fun entry => entry.2.op = op)
  metrics := state.metrics.perOp op
  entry := fun call => (state.progress call).entry
  progress := fun call => if (load.ctx call).op = op then some (state.progress call) else none
  bodyRuns := fun call => if (load.ctx call).op = op then some (state.bodyRuns call) else none

variable {load op state} {state' : EngineState F Call T}

theorem progress_of_view (same : state.view load op = state'.view load op) {call : Call}
    (own : (load.ctx call).op = op) : state.progress call = state'.progress call := by
  have here := congrFun (congrArg OpView.progress same) call
  simpa only [view, if_pos own, Option.some.injEq] using here

theorem entry_of_view (same : state.view load op = state'.view load op) (call : Call) :
    (state.progress call).entry = (state'.progress call).entry :=
  congrFun (congrArg OpView.entry same) call

/-! ## What an update shows -/

theorem view_setLimiter (limiter : LimiterSystem Call) :
    (state.setLimiter op limiter).view load op =
      { state.view load op with limiter := limiter } := by
  simp only [view, setLimiter, Function.update_self]

theorem view_setBucket (tier : Tier) (bucket : BucketState F) :
    (state.setBucket op tier bucket).view load op =
      { state.view load op with
        buckets := Function.update (state.view load op).buckets tier bucket } := by
  simp only [view, setBucket, Function.update_self]

theorem view_log {event : Event} (own : event.op = op) (call : Call) :
    ({ state with events := state.events ++ [(call, event)] } : EngineState F Call T).view load op =
      { state.view load op with events := (state.view load op).events ++ [(call, event)] } := by
  have shown : [(call, event)].filter (fun entry => entry.2.op = op) = [(call, event)] :=
    List.filter_cons_of_pos (by simpa using own)
  simp only [view, List.filter_append, shown]

theorem view_record (same : state.view load op = state'.view load op) (durationUs : UInt64)
    (isError : Bool) :
    ({ state with metrics := state.metrics.record op durationUs isError } :
      EngineState F Call T).view load op =
    ({ state' with metrics := state'.metrics.record op durationUs isError } :
      EngineState F Call T).view load op := by
  have metrics : state.metrics.perOp op = state'.metrics.perOp op :=
    congrArg OpView.metrics same
  have recorded : (state.metrics.record op durationUs isError).perOp op =
      (state'.metrics.record op durationUs isError).perOp op := by
    simp only [HistogramRecorder.record, metrics, Function.update_self]
  calc ({ state with metrics := state.metrics.record op durationUs isError } :
        EngineState F Call T).view load op
      = { state.view load op with
          metrics := (state.metrics.record op durationUs isError).perOp op } := rfl
    _ = { state'.view load op with
          metrics := (state'.metrics.record op durationUs isError).perOp op } := by
        rw [same, recorded]
    _ = ({ state' with metrics := state'.metrics.record op durationUs isError } :
        EngineState F Call T).view load op := rfl

theorem view_setLimiter_foreign {other : FsOp} (foreign : other ≠ op)
    (limiter : LimiterSystem Call) :
    (state.setLimiter other limiter).view load op = state.view load op := by
  simp only [view, setLimiter, Function.update_of_ne foreign.symm]

theorem view_setBucket_foreign {other : FsOp} (foreign : other ≠ op) (tier : Tier)
    (bucket : BucketState F) :
    (state.setBucket other tier bucket).view load op = state.view load op := by
  simp only [view, setBucket, Function.update_of_ne foreign.symm]

/-- The event of another op is not in the view. -/
theorem view_log_foreign {event : Event} (foreign : event.op ≠ op) (call : Call) :
    ({ state with events := state.events ++ [(call, event)] } : EngineState F Call T).view load op =
      state.view load op := by
  have hidden : [(call, event)].filter (fun entry => entry.2.op = op) = [] :=
    List.filter_cons_of_neg (by simpa using foreign)
  simp only [view, List.filter_append, hidden, List.append_nil]

/-- Nor is the metric of another op. -/
theorem view_record_foreign {other : FsOp} (foreign : other ≠ op) (durationUs : UInt64)
    (isError : Bool) :
    ({ state with metrics := state.metrics.record other durationUs isError } :
      EngineState F Call T).view load op = state.view load op := by
  simp only [view, HistogramRecorder.record, Function.update_of_ne foreign.symm]

variable [DecidableEq Call]

theorem view_setProgress (call : Call) (progress : Progress T) :
    (state.setProgress call progress).view load op =
      { state.view load op with
        entry := Function.update (state.view load op).entry call progress.entry
        progress := Function.update (state.view load op).progress call
          (if (load.ctx call).op = op then some progress else none) } := by
  simp only [view, setProgress, OpView.mk.injEq, true_and, and_true]
  constructor
  · funext other
    by_cases same : other = call
    · subst same
      rw [Function.update_self, Function.update_self]
    · rw [Function.update_of_ne same, Function.update_of_ne same]
  · funext other
    by_cases same : other = call
    · subst same
      rw [Function.update_self, Function.update_self]
    · rw [Function.update_of_ne same, Function.update_of_ne same]

/-- Past its entry, a call of another op shows nothing. -/
theorem view_setProgress_foreign {call : Call} (foreign : (load.ctx call).op ≠ op)
    {progress : Progress T} (entry : progress.entry = (state.progress call).entry) :
    (state.setProgress call progress).view load op = state.view load op := by
  have entries : Function.update (state.view load op).entry call progress.entry =
      (state.view load op).entry := by
    rw [entry]
    exact Function.update_eq_self call _
  have progresses : Function.update (state.view load op).progress call none =
      (state.view load op).progress := by
    have hidden : (state.view load op).progress call = none := if_neg foreign
    rw [← hidden]
    exact Function.update_eq_self call _
  rw [view_setProgress, if_neg foreign, entries, progresses]

/-- A body that has run is counted for its own op only. -/
theorem view_bodyRuns (call : Call) (runs : Nat) :
    ({ state with bodyRuns := Function.update state.bodyRuns call (state.bodyRuns call + runs) } :
      EngineState F Call T).view load op =
    { state.view load op with
      bodyRuns := Function.update (state.view load op).bodyRuns call
        (((state.view load op).bodyRuns call).map (fun before => before + runs)) } := by
  simp only [view, OpView.mk.injEq, true_and]
  funext other
  by_cases same : other = call
  · subst same
    rw [Function.update_self, Function.update_self]
    split <;> rfl
  · rw [Function.update_of_ne same, Function.update_of_ne same]

end EngineState

theorem Progress.entry_afterReserve (start : Nat) (seq : UInt64) (served : Served)
    (delay : Duration) (now : Nat) :
    (Progress.afterReserve start seq served delay now : Progress T).entry = .numbered := by
  unfold Progress.afterReserve
  split <;> rfl

theorem Progress.entry_afterRecord (seq : UInt64) (result : Except FsError T)
    (served : Option Served) : (Progress.afterRecord seq result served).entry = .numbered := by
  cases served <;> rfl

/-! ## What a step shows -/

namespace SimEngine

variable [F64 F] [Fintype Call] [DecidableEq Call]
variable {engine other : SimEngine F} {lib : SamplerLib F} {load load' : Workload Call T}
variable {op : FsOp} {state next state' : EngineState F Call T} {label : EngineLabel Call}

/-- The steps of a call of another op, but for its entry, are not in the view. -/
theorem view_foreign (moves : engine.Moves lib load state label next)
    (elsewhere : load.concerns op label = false) :
    next.view load op = state.view load op := by
  rcases Bool.or_eq_false_iff.mp elsewhere with ⟨entered, foreign⟩
  have foreign : (load.ctx label.call).op ≠ op := of_decide_eq_false foreign
  have hidden : forall (before : EngineState F Call T) {call : Call} {progress : Progress T},
      (load.ctx call).op ≠ op -> progress.entry = (before.progress call).entry ->
      (before.setProgress call progress).view load op = before.view load op :=
    fun before _ _ foreign entry => EngineState.view_setProgress_foreign foreign entry
  cases moves with
  | advances call _ progress local' =>
      generalize before : state.progress call = stage at local'
      cases local' with
      | starts now => cases entered
      | samples start seq queueWait admitted =>
          exact hidden state foreign (by rw [before]; rfl)
      | sleeps start seq served delay sleepFor since now =>
          exact hidden state foreign (by rw [before]; rfl)
  | takes call start started => cases entered
  | queues call _ start seq limiterLabel limiter waits own steps asks =>
      have mover : label.call = call := by
        cases own <;> cases label <;> cases asks <;> rfl
      exact EngineState.view_setLimiter_foreign (mover ▸ foreign) limiter
  | reserves call now start seq served bucket delay sampled reserved =>
      have entry : (Progress.afterReserve start seq served delay now : Progress T).entry =
          (state.progress call).entry := by
        rw [Progress.entry_afterReserve, sampled]
        rfl
      exact (hidden (state.setBucket _ _ bucket) foreign entry).trans
        (EngineState.view_setBucket_foreign foreign _ bucket)
  | executes call start seq served delay awake =>
      let counted : EngineState F Call T :=
        { state with
          bodyRuns := Function.update state.bodyRuns call
            (state.bodyRuns call + if served.fault.isNone then 1 else 0) }
      have uncounted : (state.view load op).bodyRuns call = none := if_neg foreign
      have same : counted.view load op = state.view load op := by
        rw [EngineState.view_bodyRuns, uncounted, Option.map_none, ← uncounted,
          Function.update_eq_self]
      rw [← same]
      exact hidden counted foreign (by rw [show counted.progress call = _ from awake]; rfl)
  | emits call now unixNanos seq served delay result totalUs settled =>
      have entry : (Progress.emitted seq served result totalUs).entry =
          (state.progress call).entry := by
        cases settled with
        | executed start seq served delay result ran => rw [ran]; rfl
        | refused start seq err waits refusal => rw [waits]; rfl
      exact (EngineState.view_log_foreign foreign call).trans (hidden state foreign entry)
  | records call seq served result totalUs emitted =>
      have entry : (Progress.afterRecord seq result served).entry =
          (state.progress call).entry := by
        rw [Progress.entry_afterRecord, emitted]
        rfl
      exact (EngineState.view_record_foreign foreign totalUs _).trans (hidden state foreign entry)
  | leaves call notifies progress limiter ends steps =>
      have entry : progress.entry = (state.progress call).entry := by
        generalize state.progress call = stage at ends
        cases ends <;> rfl
      exact (hidden (state.setLimiter _ limiter) foreign entry).trans
        (EngineState.view_setLimiter_foreign foreign limiter)

/-- A call enters under every engine alike. -/
theorem exists_entry (moves : engine.Moves lib load state label next)
    (entered : label.enters = true) (same : state.view load op = state'.view load op) :
    exists next', other.Moves lib load' state' label next' ∧
      next.view load op = next'.view load op := by
  cases moves with
  | advances call _ progress local' =>
      have entry := EngineState.entry_of_view same call
      generalize before : state.progress call = stage at local' entry
      cases local' with
      | starts now =>
          have idle : state'.progress call = .idle := by
            cases stage : state'.progress call with
            | idle => rfl
            | _ => rw [stage] at entry; cases entry
          refine ⟨state'.setProgress call (.started now), .advances call _ _ ?_, ?_⟩
          · rw [idle]
            exact .starts now
          · rw [EngineState.view_setProgress, EngineState.view_setProgress, same]
      | _ => cases entered
  | takes call start started =>
      have entry := EngineState.entry_of_view same call
      rw [started] at entry
      have started' : state'.progress call = .started start := by
        cases stage : state'.progress call with
        | started start' => rw [stage] at entry; cases entry; rfl
        | _ => rw [stage] at entry; cases entry
      refine ⟨_, .takes call start started', ?_⟩
      have seq : state.seq = state'.seq := congrArg OpView.seq same
      have numbered : (state.setProgress call (.sequenced start state.seq)).view load op =
          (state'.setProgress call (.sequenced start state'.seq)).view load op := by
        rw [EngineState.view_setProgress, EngineState.view_setProgress, same, seq]
      exact congrArg (fun view : OpView F Call T =>
        { view with seq := view.seq + 1, issued := view.issued ++ [call] }) numbered
  | queues call _ start seq limiterLabel limiter waits own steps asks =>
      cases own <;> cases label <;> cases asks <;> cases entered
  | _ => cases entered

/-- What two engines and two workloads must have in common for an op: the
seed, the resources of the op, and its calls. -/
structure Alike (engine other : SimEngine F) (load load' : Workload Call T) (op : FsOp) :
    Prop where
  seed : engine.seed = other.seed
  resources : engine.resources op = other.resources op
  calls : forall call, (load.ctx call).op = op ∨ (load'.ctx call).op = op ->
    load.ctx call = load'.ctx call ∧ load.body call = load'.body call

namespace Alike

variable {ctx : OpContext}

omit [F64 F] [Fintype Call] [DecidableEq Call] in
theorem refl (engine : SimEngine F) (load : Workload Call T) (op : FsOp) :
    Alike engine engine load load op where
  seed := rfl
  resources := rfl
  calls := fun _ _ => ⟨rfl, rfl⟩

omit [F64 F] [Fintype Call] [DecidableEq Call] in
theorem choice (alike : Alike engine other load load' op) (own : ctx.op = op) :
    engine.choice ctx = other.choice ctx := by
  unfold SimEngine.choice
  rw [own, alike.resources]

omit [Fintype Call] [DecidableEq Call] in
theorem draw (alike : Alike engine other load load' op) (own : ctx.op = op) (lib : SamplerLib F)
    (seq : UInt64) (queueWait : Nat) :
    engine.draw lib ctx seq queueWait = other.draw lib ctx seq queueWait := by
  unfold SimEngine.draw SimEngine.sampleKey
  rw [alike.choice own, alike.seed]

omit [Fintype Call] [DecidableEq Call] in
theorem bandwidthDelay (alike : Alike engine other load load' op) (own : ctx.op = op) (now : Nat)
    (bucket : BucketState F) :
    engine.bandwidthDelay ctx now bucket = other.bandwidthDelay ctx now bucket := by
  unfold SimEngine.bandwidthDelay
  rw [alike.choice own]

omit [F64 F] [Fintype Call] [DecidableEq Call] in
theorem owners (alike : Alike engine other load load' op) (call : Call) :
    (load.ctx call).op = op ↔ (load'.ctx call).op = op :=
  ⟨fun own => (alike.calls _ (Or.inl own)).1 ▸ own,
    fun own => (alike.calls _ (Or.inr own)).1 ▸ own⟩

omit [F64 F] [Fintype Call] [DecidableEq Call] in
theorem concerns (alike : Alike engine other load load' op) (label : EngineLabel Call) :
    load.concerns op label = load'.concerns op label := by
  unfold Workload.concerns
  rw [decide_eq_decide.mpr (alike.owners label.call)]

omit [F64 F] [Fintype Call] [DecidableEq Call] in
/-- The views of the two workloads are of the same calls. -/
theorem view_eq (alike : Alike engine other load load' op) (state : EngineState F Call T) :
    state.view load op = state.view load' op := by
  simp only [EngineState.view, alike.owners]

end Alike

/-- A call of the op itself moves under both engines alike. -/
theorem exists_own (alike : Alike engine other load load' op)
    (moves : engine.Moves lib load state label next) (entered : label.enters = false)
    (own : (load.ctx label.call).op = op) (same : state.view load op = state'.view load op) :
    exists next', other.Moves lib load' state' label next' ∧
      next.view load op = next'.view load op := by
  have agrees : forall {call : Call}, (load.ctx call).op = op ->
      load.ctx call = load'.ctx call ∧ load.body call = load'.body call :=
    fun own => alike.calls _ (Or.inl own)
  have stays : forall {call : Call}, (load.ctx call).op = op ->
      state.progress call = state'.progress call := EngineState.progress_of_view same
  have limiters : state.limiters op = state'.limiters op := congrArg OpView.limiter same
  have buckets : state.buckets op = state'.buckets op := congrArg OpView.buckets same
  have moved : forall (before before' : EngineState F Call T) (call : Call)
      (progress : Progress T), before.view load op = before'.view load op ->
      (before.setProgress call progress).view load op =
        (before'.setProgress call progress).view load op := by
    intro before before' call progress same
    rw [EngineState.view_setProgress, EngineState.view_setProgress, same]
  cases moves with
  | advances call _ progress local' =>
      refine ⟨state'.setProgress call progress, .advances call _ _ ?_,
        moved state state' call progress same⟩
      generalize before : state.progress call = stage at local'
      cases local' with
      | starts now => cases entered
      | samples start seq queueWait admitted =>
          have own : (load.ctx call).op = op := own
          rw [own, limiters] at admitted
          rw [← stays own, before, alike.draw own, (agrees own).1]
          apply Advances.samples
          rw [← (agrees own).1, own]
          exact admitted
      | sleeps start seq served delay sleepFor since now =>
          have own : (load.ctx call).op = op := own
          rw [← stays own, before]
          exact .sleeps start seq served delay sleepFor since now
  | takes call start started => cases entered
  | queues call _ start seq limiterLabel limiter waits owner steps asks =>
      have own : (load.ctx call).op = op := by
        cases owner <;> cases label <;> cases asks <;> exact own
      have ctx := (agrees own).1
      rw [own, limiters, alike.resources] at steps
      refine ⟨state'.setLimiter op limiter, ?_, ?_⟩
      · have queues : other.Moves lib load' state' label
            (state'.setLimiter (load'.ctx call).op limiter) :=
          .queues call label start seq limiterLabel limiter ((stays own).symm.trans waits) owner
            (by rw [← ctx, own]; exact steps) asks
        rw [← ctx, own] at queues
        exact queues
      · rw [own, EngineState.view_setLimiter, EngineState.view_setLimiter, same]
  | reserves call now start seq served bucket delay sampled reserved =>
      have own : (load.ctx call).op = op := own
      have ctx := (agrees own).1
      have tier := alike.choice own
      have reserves : other.Moves lib load' state' (.reserve call now)
          ((state'.setBucket (load'.ctx call).op (other.choice (load'.ctx call)).tier
            bucket).setProgress call (.afterReserve start seq served delay now)) := by
        refine .reserves call now start seq served bucket delay ((stays own).symm.trans sampled) ?_
        rw [← ctx, ← tier, ← alike.bandwidthDelay own, own, ← buckets, ← own]
        exact reserved
      refine ⟨_, reserves, moved _ _ call _ ?_⟩
      rw [← ctx, ← tier, own, EngineState.view_setBucket, EngineState.view_setBucket, same]
  | executes call start seq served delay awake =>
      have own : (load.ctx call).op = op := own
      refine ⟨_, .executes call start seq served delay ((stays own).symm.trans awake), ?_⟩
      have counted : forall before : EngineState F Call T,
          ({ before with
            bodyRuns := Function.update before.bodyRuns call
              (before.bodyRuns call + if served.fault.isNone then 1 else 0) } :
            EngineState F Call T).view load op = _ :=
        fun before => EngineState.view_bodyRuns call _
      rw [← (agrees own).2]
      exact moved { state with bodyRuns := _ } { state' with bodyRuns := _ } call _
        ((counted state).trans (by rw [same, ← counted state']))
  | emits call now unixNanos seq served delay result totalUs settled total =>
      have own : (load.ctx call).op = op := own
      have ctx := (agrees own).1
      have settled' : Settled load' state' call seq served delay result := by
        cases settled with
        | executed start seq served delay result ran =>
            exact .executed start seq served delay result ((stays own).symm.trans ran)
        | refused start seq err waits refusal =>
            refine .refused start seq err ((stays own).symm.trans waits) ?_
            rw [← ctx, own, ← limiters, ← own]
            exact refusal
      refine ⟨_, .emits call now unixNanos seq served delay result totalUs settled'
        (by rw [← stays own]; exact total), ?_⟩
      rw [← ctx]
      refine moved { state with events := _ } { state' with events := _ } call _ ?_
      rw [EngineState.view_log own, EngineState.view_log own, same]
  | records call seq served result totalUs emitted =>
      have own : (load.ctx call).op = op := own
      refine ⟨_, .records call seq served result totalUs ((stays own).symm.trans emitted), ?_⟩
      rw [← (agrees own).1, own]
      exact moved { state with metrics := _ } { state' with metrics := _ } call _
        (EngineState.view_record same totalUs _)
  | leaves call notifies progress limiter ends steps =>
      have own : (load.ctx call).op = op := own
      have ctx := (agrees own).1
      rw [own, limiters, alike.resources] at steps
      refine ⟨_, .leaves call notifies progress limiter (stays own ▸ ends)
        (by rw [← ctx, own]; exact steps), ?_⟩
      apply moved
      rw [← ctx, own, EngineState.view_setLimiter, EngineState.view_setLimiter, same]

/-- What is left of a schedule when the calls of other ops only enter is a
schedule of any engine that is alike for the op, and shows the same. -/
theorem exists_erased (alike : Alike engine other load load' op) {created : Nat}
    {labels : List (EngineLabel Call)}
    (runs : (engine.system lib load created).run (engine.initial created) labels = some state) :
    exists next, (other.system lib load' created).run (other.initial created)
        (labels.filter (load.concerns op)) = some next ∧
      state.view load op = next.view load op := by
  refine System.run_filter
    (fun first second : EngineState F Call T => first.view load op = second.view load op)
    (fun before label after before' concerned moves same => ?_)
    (fun before label after before' elsewhere moves same => ?_) runs ?_
  · have moves := step_cases moves
    cases entered : label.enters with
    | true =>
        rcases exists_entry moves entered same with ⟨next, moves', shown⟩
        exact ⟨next, moves'.enabled, shown⟩
    | false =>
        have own : (load.ctx label.call).op = op := by
          rw [Workload.concerns, entered, Bool.false_or] at concerned
          exact of_decide_eq_true concerned
        rcases exists_own alike moves entered own same with ⟨next, moves', shown⟩
        exact ⟨next, moves'.enabled, shown⟩
  · rw [view_foreign (step_cases moves) elsewhere]
    exact same
  · simp only [EngineState.view, initial, alike.resources]

end SimEngine

/-- The ops of an engine do not interfere.  Under two configurations with one
seed and one policy for an op, and for two workloads with the same calls of
that op, two runs whose schedules agree on the entries of all calls and on the
steps of the calls of the op show the same of the op, whatever else differs:
the policies of the other ops, what their calls ask for, what their bodies
return, and when they move.  And every schedule stays one when the calls of
the other ops are stopped after they have entered. -/
theorem ops_do_not_interfere [F64 F] [Fintype Call] [DecidableEq Call] (lib : SamplerLib F)
    {config other : Config F} (op : FsOp) (seed : config.seed = other.seed)
    (policy : config.ops.get op = other.ops.get op) {load load' : Workload Call T}
    (calls : forall call, (load.ctx call).op = op ∨ (load'.ctx call).op = op ->
      load.ctx call = load'.ctx call ∧ load.body call = load'.body call) (created : Nat) :
    (forall labels labels' state state',
      ((SimEngine.new config).system lib load created).run
        ((SimEngine.new config).initial created) labels = some state ->
      ((SimEngine.new other).system lib load' created).run
        ((SimEngine.new other).initial created) labels' = some state' ->
      labels.filter (load.concerns op) = labels'.filter (load'.concerns op) ->
      state.view load op = state'.view load' op) ∧
    (forall labels state,
      ((SimEngine.new config).system lib load created).run
        ((SimEngine.new config).initial created) labels = some state ->
      exists state',
        ((SimEngine.new other).system lib load' created).run
          ((SimEngine.new other).initial created) (labels.filter (load.concerns op)) =
            some state' ∧
        state.view load op = state'.view load' op) := by
  have alike : (SimEngine.new config).Alike (.new other) load load' op := by
    refine ⟨seed, ?_, calls⟩
    simp only [SimEngine.new, policy]
  have shown : forall state' : EngineState F Call T,
      state'.view load op = state'.view load' op := alike.view_eq
  constructor
  · intro labels labels' state state' runs runs' agree
    rcases SimEngine.exists_erased alike runs with ⟨next, erased, same⟩
    rcases SimEngine.exists_erased (.refl _ load' op) runs' with ⟨next', erased', same'⟩
    rw [agree] at erased
    cases erased.symm.trans erased'
    rw [same, same', shown]
  · intro labels state runs
    rcases SimEngine.exists_erased alike runs with ⟨next, erased, same⟩
    exact ⟨next, erased, by rw [same, shown]⟩

/-- A read with some outcome, and a `getattr`. -/
def readBeside (outcome : Except FsError Unit) : Workload Bool Unit where
  ctx := fun call => if call then .metadata .getAttr 2 else .data .read 100 0 4096
  body := fun call => if call then .ok () else outcome

/-- A schedule in which the two take turns. -/
def takingTurns : List (EngineLabel Bool) :=
  [.start false 0, .start true 0, .fetchAdd false, .fetchAdd true, .acquire false 1,
    .acquire true 1, .sample false, .sample true, .reserve false 2, .reserve true 2,
    .slept false 9000000, .slept true 9000000, .execute false, .execute true,
    .emit false 9000001 0, .emit true 9000001 0, .record false, .record true,
    .drop false none, .drop true none]

/-- The `getattr` sees neither another cap for reads nor a failed read. -/
theorem ops_do_not_interfere_getAttr :
    exists state state' : EngineState Rat Bool Unit,
      ((SimEngine.steady 1).system .silent (readBeside (.ok ())) 0).run
        ((SimEngine.steady 1).initial 0) takingTurns = some state ∧
      ((SimEngine.steady 2).system .silent (readBeside (.error (.errno Libc.eio))) 0).run
        ((SimEngine.steady 2).initial 0)
          (takingTurns.filter ((readBeside (.ok ())).concerns .getAttr)) = some state' ∧
      state.view (readBeside (.ok ())) .getAttr =
        state'.view (readBeside (.error (.errno Libc.eio))) .getAttr := by
  have enabled : (((SimEngine.steady 1).system .silent (readBeside (.ok ())) 0).run
      ((SimEngine.steady 1).initial 0) takingTurns).isSome = true := by
    decide +kernel
  rcases Option.isSome_iff_exists.mp enabled with ⟨state, runs⟩
  have calls : forall call,
      ((readBeside (.ok ())).ctx call).op = .getAttr ∨
        ((readBeside (.error (.errno Libc.eio))).ctx call).op = .getAttr ->
      (readBeside (.ok ())).ctx call = (readBeside (.error (.errno Libc.eio))).ctx call ∧
        (readBeside (.ok ())).body call = (readBeside (.error (.errno Libc.eio))).body call := by
    intro call own
    cases call with
    | false => rcases own with own | own <;> cases own
    | true => exact ⟨rfl, rfl⟩
  have seed : (Config.reading (OpPolicy.steady 1)).seed =
      (Config.reading (OpPolicy.steady 2)).seed := rfl
  rcases (ops_do_not_interfere .silent .getAttr seed rfl calls 0).2 takingTurns state runs with
    ⟨state', runs', same⟩
  exact ⟨state, state', runs, runs', same⟩

end Fusecraft
