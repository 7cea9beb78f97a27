import Fusecraft.Engine.Logging
import Fusecraft.Telemetry.Tally
import Mathlib.Data.Multiset.Sort

namespace Fusecraft

open Transition Counting Json Lines BufWriter

/-!
# The summary follows the log

A call emits its event in one step and records its metric in another, and any
number of other calls do the same in between, so the recorder sees the events
in an order of its own and some of them late.  It is the recorder of the log
without the events of the calls in between these two steps.
-/

variable {F Call T : Type}

namespace EngineState

variable [DecidableEq Call] (load : Workload Call T) (state : EngineState F Call T)

/-- The entry of a call that has recorded its metric. -/
def settled (entry : Call × Event) : Bool := (state.progress entry.1).pendingOutcome.isNone

/-- What the recorder has seen, and what it will see of the calls that are
between their event and their metric. -/
structure Tallied : Prop where
  seen : exists recorded : List (Call × Event), recorded.Perm (state.events.filter state.settled) ∧
    state.metrics = .ofEvents (recorded.map Prod.snd)
  due : forall call seq served result totalUs,
    state.progress call = .emitted seq served result totalUs ->
    exists event, state.entriesOf call = [(call, event)] ∧ event.op = (load.ctx call).op ∧
      event.outcome = (classify result).1 ∧ event.totalDurationUs = totalUs

variable {load state} {next : EngineState F Call T}

/-- A step that leaves the log and the recorder alone, and brings no call to
its event. -/
theorem Tallied.keep (tallied : state.Tallied load) (events : next.events = state.events)
    (metrics : next.metrics = state.metrics) {call : Call} {after : Progress T}
    (moved : next.progress = Function.update state.progress call after)
    (before : (state.progress call).pendingOutcome = none) (quiet : after.pendingOutcome = none) :
    next.Tallied load := by
  have same : next.settled = state.settled := by
    funext entry
    unfold settled
    rw [moved, observe_update Progress.pendingOutcome (quiet.trans before.symm)]
  constructor
  · rw [events, metrics, same]
    exact tallied.seen
  · intro other seq served result totalUs emitted
    rw [moved] at emitted
    rcases update_cases state.progress call other after with ⟨-, now⟩ | ⟨-, now⟩
    · rw [now] at emitted
      rw [emitted] at quiet
      cases quiet
    · rw [now] at emitted
      rw [entriesOf, events]
      exact tallied.due other seq served result totalUs emitted

/-- The event of a call, which its recorder has yet to see. -/
theorem Tallied.append (tallied : state.Tallied load) {call : Call} {seq : UInt64}
    {served : Option Served} {result : Except FsError T} {totalUs : UInt64} {event : Event}
    (silent : state.entriesOf call = [])
    (events : next.events = state.events ++ [(call, event)])
    (metrics : next.metrics = state.metrics)
    (moved : next.progress =
      Function.update state.progress call (.emitted seq served result totalUs))
    (op : event.op = (load.ctx call).op) (outcome : event.outcome = (classify result).1)
    (total : event.totalDurationUs = totalUs) : next.Tallied load := by
  have others : forall entry, entry ∈ state.events -> next.settled entry = state.settled entry := by
    intro entry member
    have different : entry.1 ≠ call := by
      intro own
      have listed : entry ∈ state.entriesOf call :=
        List.mem_filter.mpr ⟨member, decide_eq_true own⟩
      rw [silent] at listed
      cases listed
    unfold settled
    rw [moved, Function.update_of_ne different]
  have unsettled : next.settled (call, event) = false := by
    unfold settled
    rw [moved, Function.update_self]
    rfl
  have owned : next.entriesOf call = [(call, event)] := by
    unfold entriesOf at silent ⊢
    rw [events, List.filter_append, silent]
    simp
  constructor
  · rw [events, metrics, List.filter_append, List.filter_congr others,
      List.filter_cons_of_neg (by rw [unsettled]; exact Bool.false_ne_true), List.filter_nil,
      List.append_nil]
    exact tallied.seen
  · intro other number drawn answer totals emitted
    rw [moved] at emitted
    rcases update_cases state.progress call other (.emitted seq served result totalUs) with
      ⟨rfl, now⟩ | ⟨different, now⟩
    · rw [now] at emitted
      cases emitted
      exact ⟨event, owned, op, outcome, total⟩
    · rw [now] at emitted
      rcases tallied.due other number drawn answer totals emitted with ⟨entry, only, shows⟩
      refine ⟨entry, ?_, shows⟩
      rw [← only, entriesOf, events, List.filter_append]
      simp [entriesOf, Ne.symm different]

/-- The metric of a call: the recorder sees its event. -/
theorem Tallied.settle (tallied : state.Tallied load) {call : Call} {seq : UInt64}
    {served : Option Served} {result : Except FsError T} {totalUs : UInt64} {after : Progress T}
    (emitted : state.progress call = .emitted seq served result totalUs)
    (quiet : after.pendingOutcome = none) (events : next.events = state.events)
    (metrics : next.metrics = state.metrics.record (load.ctx call).op totalUs
      ((classify result).1 = .error))
    (moved : next.progress = Function.update state.progress call after) : next.Tallied load := by
  rcases tallied.due call seq served result totalUs emitted with
    ⟨event, only, op, outcome, total⟩
  rcases tallied.seen with ⟨recorded, perm, tally⟩
  have own : forall entry : Call × Event, entry.1 = call ->
      state.settled entry = false ∧ next.settled entry = true := by
    rintro entry rfl
    unfold settled
    rw [moved, Function.update_self, emitted, quiet]
    exact ⟨rfl, rfl⟩
  have others : forall entry : Call × Event, entry.1 ≠ call ->
      next.settled entry = state.settled entry := by
    intro entry different
    unfold settled
    rw [moved, Function.update_of_ne different]
  have old : (state.events.filter next.settled).filter state.settled =
      state.events.filter state.settled := by
    rw [List.filter_filter]
    apply List.filter_congr
    intro entry _
    by_cases mine : entry.1 = call
    · rw [(own entry mine).1, Bool.false_and]
    · rw [others entry mine, Bool.and_self]
  have new : (state.events.filter next.settled).filter (fun entry => !state.settled entry) =
      state.entriesOf call := by
    rw [List.filter_filter]
    apply List.filter_congr
    intro entry _
    by_cases mine : entry.1 = call
    · rw [(own entry mine).1, (own entry mine).2, decide_eq_true mine]
      rfl
    · rw [others entry mine, decide_eq_false mine, Bool.not_and_self]
  constructor
  · refine ⟨recorded ++ [(call, event)], ?_, ?_⟩
    · have split := List.filter_append_perm state.settled (state.events.filter next.settled)
      rw [old, new, only] at split
      rw [events]
      exact (perm.append_right _).trans split
    · rw [List.map_append, HistogramRecorder.ofEvents, List.foldl_append, metrics, tally]
      simp only [List.map_cons, List.map_nil, List.foldl_cons, List.foldl_nil,
        HistogramRecorder.recordEvent, op, outcome, total]
      rfl
  · intro other number drawn answer totals pending
    rw [moved] at pending
    rcases update_cases state.progress call other after with ⟨-, now⟩ | ⟨-, now⟩
    · rw [now] at pending
      rw [pending] at quiet
      cases quiet
    · rw [now] at pending
      rw [entriesOf, events]
      exact tallied.due other number drawn answer totals pending

variable [F64 F] [Fintype Call] {engine : SimEngine F} {lib : SamplerLib F}

theorem Tallied.preserved (tallied : state.Tallied load) (logged : state.Logged load)
    {label : EngineLabel Call} (moves : engine.step lib load state label = some next) :
    next.Tallied load := by
  cases SimEngine.step_cases moves with
  | advances call _ progress local' =>
      have before : (state.progress call).pendingOutcome = none := by
        generalize state.progress call = stage at local'
        cases local' <;> rfl
      have quiet : progress.pendingOutcome = none := by
        generalize state.progress call = stage at local'
        cases local' <;> rfl
      exact tallied.keep rfl rfl rfl before quiet
  | takes call start started =>
      exact tallied.keep rfl rfl rfl (by rw [started]; rfl) rfl
  | queues call _ start seq limiterLabel limiter waits own steps =>
      exact ⟨tallied.seen, tallied.due⟩
  | reserves call now start seq served bucket delay sampled reserved =>
      exact tallied.keep rfl rfl rfl (by rw [sampled]; rfl) Progress.pendingOutcome_afterReserve
  | executes call start seq served delay awake =>
      exact tallied.keep rfl rfl rfl (by rw [awake]; rfl) rfl
  | emits call now unixNanos seq served delay result totalUs settled =>
      have silent : (state.progress call).account = none := by
        cases settled with
        | executed start seq served delay result ran => rw [ran]; rfl
        | refused start seq err waits refusal => rw [waits]; rfl
      exact tallied.append (logged.silent call silent) rfl rfl rfl rfl rfl rfl
  | records call seq served result totalUs emitted =>
      exact tallied.settle emitted (by cases served <;> rfl) rfl rfl rfl
  | leaves call notifies progress limiter ends steps =>
      have before : (state.progress call).pendingOutcome = none := by
        generalize state.progress call = stage at ends
        cases ends <;> rfl
      have quiet : progress.pendingOutcome = none := by
        generalize state.progress call = stage at ends
        cases ends <;> rfl
      exact tallied.keep rfl rfl rfl before quiet

theorem tallied_of_reachable {created : Nat}
    (reached : (engine.system lib load created).Reachable state) : state.Tallied load := by
  refine reached.invariant (fun state => state.Tallied load)
    ⟨⟨[], .nil, rfl⟩, fun _ _ _ _ _ emitted => by cases emitted⟩ ?_
  intro before label after reached _ moves tallied
  exact tallied.preserved (logged_of_reachable reached) moves

omit [F64 F] [Fintype Call] in
/-- A summary is that of the events whose calls have recorded their metric,
read in any order. -/
theorem Tallied.summary (tallied : state.Tallied load)
    {valueAtPercentile : List UInt64 -> Nat -> UInt64}
    (orderFree : HistogramRecorder.OrderFree valueAtPercentile) {events : List Event}
    (read : events.Perm ((state.events.filter state.settled).map Prod.snd)) :
    state.metrics.summary valueAtPercentile =
      (HistogramRecorder.ofEvents events).summary valueAtPercentile := by
  rcases tallied.seen with ⟨recorded, perm, metrics⟩
  apply HistogramRecorder.summary_eq orderFree
  rw [metrics]
  exact HistogramRecorder.tallies_ofEvents_perm ((perm.map Prod.snd).trans read.symm)

omit [F64 F] [Fintype Call] [DecidableEq Call] in
/-- When no call is between its event and its metric, every event is settled. -/
theorem filter_settled (quiet : forall call, (state.progress call).pendingOutcome = none) :
    (state.events.filter state.settled).map Prod.snd = state.history := by
  have all : forall entry : Call × Event, entry ∈ state.events -> state.settled entry = true := by
    intro entry _
    rw [settled, quiet]
    rfl
  rw [List.filter_eq_self.mpr all, history]

end EngineState

/-- The summary and the log are two readings of one run.  In every state of
every run, whatever the file does, the summary is that of the events whose
calls have recorded their metric, in any order.  As long as no write fails, the
flushed file is a log of some events, and when no call is between its event and
its metric, the summary can be computed again from any events of which it is
one. -/
theorem LoggedEngine.summary_follows_log [F64 F] [Fintype Call] [DecidableEq Call]
    {json : EventText} {engine : SimEngine F} {lib : SamplerLib F} {load : Workload Call T}
    {created : Nat} {logged : LoggedEngine F Call T}
    {valueAtPercentile : List UInt64 -> Nat -> UInt64}
    (orderFree : HistogramRecorder.OrderFree valueAtPercentile)
    (reached : (engine.loggedSystem json lib load created).Reachable logged) :
    (forall events, events.Perm
        ((logged.state.events.filter logged.state.settled).map Prod.snd) ->
      logged.state.metrics.summary valueAtPercentile =
        (HistogramRecorder.ofEvents events).summary valueAtPercentile) ∧
    ((engine.loggedSystem json lib load created).ReachableBy (engine.Unfailing json lib load)
        logged ->
      (forall call, (logged.state.progress call).pendingOutcome = none) ->
      forall taken, (logged.sink.flush taken).2 = true ->
        (exists events, (logged.sink.flush taken).1.inner.file = json.lines events) ∧
        forall events, (logged.sink.flush taken).1.inner.file = json.lines events ->
          logged.state.metrics.summary valueAtPercentile =
            (HistogramRecorder.ofEvents events).summary valueAtPercentile) := by
  have tallied := EngineState.tallied_of_reachable
    (SimEngine.logged_simulation.reachable reached)
  refine ⟨fun events read => tallied.summary orderFree read, fun unfailing quiet taken ok => ?_⟩
  have whole := (Writer.file_flushBuf ok).trans (LoggedEngine.whole_of_reachable unfailing).contents
  refine ⟨⟨_, whole⟩, fun events file => tallied.summary orderFree ?_⟩
  have read : events = logged.state.history := by
    have same : json.lines events ++ [] = json.lines logged.state.history ++ [] := by
      rw [List.append_nil, List.append_nil]
      exact file.symm.trans whole
    exact (LineText.lines_inj List.not_mem_nil List.not_mem_nil same).1
  rw [EngineState.filter_settled quiet, read]

/-- The value at the nearest rank, by percentiles in tenths. -/
def nearestRank (values : List UInt64) (percentile : Nat) : UInt64 :=
  let sorted := ((values : Multiset UInt64).map UInt64.toNat).sort (fun a b => a ≤ b)
  UInt64.ofNat (sorted.getD ((percentile * values.length + 999) / 1000 - 1) 0)

theorem nearestRank_orderFree : HistogramRecorder.OrderFree nearestRank := by
  intro values values' percentile perm
  unfold nearestRank
  rw [Multiset.coe_eq_coe.mpr perm, perm.length_eq]

/-- The summary of the two overlapping reads is in their log. -/
theorem LoggedEngine.summary_follows_log_overlapping :
    exists logged : LoggedEngine Rat (Fin 2) Unit,
      logged.state.Finished ∧ logged.sink.inner.buffer = [] ∧
      forall events, logged.sink.inner.file = EventText.json.lines events ->
        logged.state.metrics.summary nearestRank =
          (HistogramRecorder.ofEvents events).summary nearestRank := by
  have allowed : ((SimEngine.steady 1).loggedSystem .json .silent (.reads (Fin 2)) 0).RunAllowed
      ((SimEngine.steady 1).Unfailing .json .silent (.reads (Fin 2)))
      { state := (SimEngine.steady 1).initial 0, sink := .create } flushedAtEnd := by
    decide +kernel
  have completes : (((SimEngine.steady 1).loggedSystem .json .silent (.reads (Fin 2)) 0).run
      { state := (SimEngine.steady 1).initial 0, sink := .create } flushedAtEnd).any
        (fun logged => decide (logged.sink.inner.buffer = []) &&
          ((logged.state.progress 0).isReturned && (logged.state.progress 1).isReturned)) =
        true := by
    decide +kernel
  rcases Option.any_eq_true _ _ |>.mp completes with ⟨logged, runs, holds⟩
  simp only [Bool.and_eq_true, decide_eq_true_eq] at holds
  rcases holds with ⟨flushed, first, second⟩
  have finished : logged.state.Finished := by
    intro call
    match call with
    | 0 => exact first
    | 1 => exact second
  have quiet : forall call, (logged.state.progress call).pendingOutcome = none := by
    intro call
    rcases finished.returned call with ⟨seq, served, result, ended⟩
    rw [ended]
    rfl
  have reached : ((SimEngine.steady 1).loggedSystem .json .silent (.reads (Fin 2)) 0).ReachableBy
      ((SimEngine.steady 1).Unfailing .json .silent (.reads (Fin 2))) logged :=
    .extend_allowed .init allowed runs
  have again : (logged.sink.flush 0).2 = true := by
    simp only [JsonlEventSink.flush, Writer.flushBuf, flushed]
    rfl
  have kept : (logged.sink.flush 0).1.inner.file = logged.sink.inner.file := by
    simp only [JsonlEventSink.flush, Writer.flushBuf, flushed, List.take_nil, List.append_nil]
  refine ⟨logged, finished, flushed, fun events file => ?_⟩
  have follows := LoggedEngine.summary_follows_log nearestRank_orderFree reached.reachable
  exact (follows.2 reached quiet 0 again).2 events (kept.trans file)

end Fusecraft
