import Fusecraft.Engine.Bookkeeping
import Fusecraft.Telemetry.EventLog

namespace Fusecraft

open Transition Json Lines BufWriter

/-!
# The engine and its log

The engine is read here with the sink beside it to which its calls hand their
events.  The buffer of the sink is written out when it is full or when the log
is flushed, and the file may refuse a part of any write.
-/

/-- An engine with its event sink. -/
structure LoggedEngine (F Call T : Type) where
  state : EngineState F Call T
  sink : JsonlEventSink

/-- A step of the engine, with what the file takes if the step emits an event,
or a flush. -/
inductive LoggedLabel (Call : Type) where
  | engine (label : EngineLabel Call) (text ending : Attempt)
  | flush (taken : Nat)
  deriving DecidableEq, Repr

variable {F Call T : Type}

namespace EngineState

/-- The events in the order in which they were emitted. -/
def history (state : EngineState F Call T) : List Event := state.events.map Prod.snd

/-- The events that a step has emitted. -/
def emitted (state next : EngineState F Call T) : List Event :=
  next.history.drop state.history.length

end EngineState

namespace LoggedEngine

/-- The sink is handed the events of a step. -/
def log (json : EventText) (logged : LoggedEngine F Call T) (next : EngineState F Call T)
    (text ending : Attempt) : LoggedEngine F Call T where
  state := next
  sink := (logged.state.emitted next).foldl
    (fun sink event => (sink.emit json text ending event).1) logged.sink

/-- The sink takes the events of a step without a failure. -/
def logs (json : EventText) (logged : LoggedEngine F Call T) (next : EngineState F Call T)
    (text ending : Attempt) : Bool :=
  (logged.state.emitted next).all (fun event => (logged.sink.emit json text ending event).2)

end LoggedEngine

namespace SimEngine

variable [F64 F] [Fintype Call] [DecidableEq Call]
variable (json : EventText) (engine : SimEngine F) (lib : SamplerLib F) (load : Workload Call T)

/-- One step of the engine or one flush of its log. -/
def loggedStep (logged : LoggedEngine F Call T) :
    LoggedLabel Call -> Option (LoggedEngine F Call T)
  | .engine label text ending =>
      (engine.step lib load logged.state label).map (fun next => logged.log json next text ending)
  | .flush taken => some { logged with sink := (logged.sink.flush taken).1 }

/-- The transition system of an engine with a fresh log. -/
def loggedSystem (created : Nat) : System (LoggedEngine F Call T) (LoggedLabel Call) where
  init := { state := engine.initial created, sink := .create }
  step := engine.loggedStep json lib load

/-- No write of an event fails.  A flush may. -/
def Unfailing (logged : LoggedEngine F Call T) : LoggedLabel Call -> Prop
  | .engine label text ending =>
      ((engine.step lib load logged.state label).all (fun next =>
        logged.logs json next text ending)) = true
  | .flush _ => True

instance (logged : LoggedEngine F Call T) (label : LoggedLabel Call) :
    Decidable (engine.Unfailing json lib load logged label) :=
  match label with
  | .engine _ _ _ => inferInstanceAs (Decidable (_ = true))
  | .flush _ => isTrue trivial

variable {json engine lib load} {created : Nat}

/-- A step emits one event or none. -/
theorem history_step {state next : EngineState F Call T} {label : EngineLabel Call}
    (moves : engine.step lib load state label = some next) :
    next.history = state.history ∨ exists event, next.history = state.history ++ [event] := by
  cases step_cases moves with
  | emits call now unixNanos seq served delay result totalUs settled =>
      right
      exact ⟨_, List.map_append⟩
  | _ => exact Or.inl rfl

/-- Whatever the file does, the engine makes its own steps. -/
theorem logged_simulation :
    System.Simulation (engine.loggedSystem json lib load created) (engine.system lib load created)
      LoggedEngine.state := by
  refine ⟨rfl, fun before label after moves => ?_⟩
  cases label with
  | engine label text ending =>
      rcases Option.map_eq_some_iff.mp moves with ⟨next, steps, rfl⟩
      exact Or.inr ⟨label, steps⟩
  | flush taken =>
      cases moves
      exact Or.inl rfl

end SimEngine

namespace LoggedEngine

variable {json : EventText} {logged : LoggedEngine F Call T} {next : EngineState F Call T}

/-- What a step does to the log. -/
theorem log_cases (text ending : Attempt)
    (one : next.history = logged.state.history ∨
      exists event, next.history = logged.state.history ++ [event]) :
    (next.history = logged.state.history ∧ (logged.log json next text ending).sink = logged.sink) ∨
      exists event, next.history = logged.state.history ++ [event] ∧
        (logged.log json next text ending).sink = (logged.sink.emit json text ending event).1 ∧
        logged.logs json next text ending = (logged.sink.emit json text ending event).2 := by
  rcases one with same | ⟨event, more⟩
  · left
    have nothing : logged.state.emitted next = [] := by
      rw [EngineState.emitted, same, List.drop_length]
    exact ⟨same, by rw [log, nothing]; rfl⟩
  · right
    have single : logged.state.emitted next = [event] := by
      rw [EngineState.emitted, more, List.drop_left]
    refine ⟨event, more, by rw [log, single]; rfl, ?_⟩
    rw [logs, single, List.all_cons, List.all_nil, Bool.and_true]

/-- The buffer of the sink is the default one, and not over its capacity. -/
structure Buffered (logged : LoggedEngine F Call T) : Prop where
  fits : logged.sink.inner.Fits
  capacity : logged.sink.inner.capacity = 8192

/-- Everything that was emitted is in the file or in the buffer. -/
structure Whole (json : EventText) (logged : LoggedEngine F Call T) : Prop
    extends logged.Buffered where
  contents : logged.sink.inner.contents = json.lines logged.state.history

/-- Of every event at least a part from the front of its line is in the file or
in the buffer, in the order of the events. -/
structure Torn (json : EventText) (logged : LoggedEngine F Call T) : Prop
    extends logged.Buffered where
  contents : exists pieces, List.Forall₂ (fun piece event => piece <+: json.line event) pieces
    logged.state.history ∧ logged.sink.inner.contents = pieces.flatten

/-- A write of one more event. -/
theorem Torn.emit (torn : logged.Torn json) {text ending : Attempt} {event : Event}
    (more : next.history = logged.state.history ++ [event])
    (sink : (logged.log json next text ending).sink = (logged.sink.emit json text ending event).1) :
    (logged.log json next text ending).Torn json := by
  have adds := JsonlEventSink.emit_adds json torn.fits text ending event
  rcases torn.contents with ⟨pieces, parts, contents⟩
  rcases adds.part with ⟨piece, begins, added⟩
  refine ⟨⟨?_, ?_⟩, pieces ++ [piece], ?_, ?_⟩
  · rw [sink]
    exact adds.fits
  · rw [sink, adds.capacity, torn.capacity]
  · rw [show (logged.log json next text ending).state.history = _ from more]
    exact List.rel_append parts (.cons begins .nil)
  · rw [sink, added, contents, List.flatten_append, List.flatten_singleton]

/-- A write that succeeds. -/
theorem Whole.emit (whole : logged.Whole json) {text ending : Attempt} {event : Event}
    (more : next.history = logged.state.history ++ [event])
    (sink : (logged.log json next text ending).sink = (logged.sink.emit json text ending event).1)
    (ok : (logged.sink.emit json text ending event).2 = true) :
    (logged.log json next text ending).Whole json := by
  have adds := JsonlEventSink.emit_adds json whole.fits text ending event
  refine ⟨⟨?_, ?_⟩, ?_⟩
  · rw [sink]
    exact adds.fits
  · rw [sink, adds.capacity, whole.capacity]
  · rw [sink, adds.all ok, whole.contents, show (logged.log json next text ending).state.history = _
      from more, LineText.lines_concat]

variable [F64 F] [Fintype Call] [DecidableEq Call]
variable {engine : SimEngine F} {lib : SamplerLib F} {load : Workload Call T} {created : Nat}

theorem whole_of_reachable
    (reached : (engine.loggedSystem json lib load created).ReachableBy
      (engine.Unfailing json lib load) logged) : logged.Whole json := by
  apply reached.invariant (fun logged => logged.Whole json)
    ⟨⟨Nat.zero_le _, rfl⟩, rfl⟩
  intro before label after _ unfailing moves whole
  cases label with
  | engine label text ending =>
      rcases Option.map_eq_some_iff.mp moves with ⟨next, steps, rfl⟩
      have written : before.logs json next text ending = true := by
        have all := unfailing
        simp only [SimEngine.Unfailing, steps, Option.all_some] at all
        exact all
      rcases log_cases text ending (SimEngine.history_step steps) with
        ⟨same, sink⟩ | ⟨event, more, sink, ok⟩
      · refine ⟨⟨sink ▸ whole.fits, sink ▸ whole.capacity⟩, ?_⟩
        rw [sink, whole.contents, ← same]
        rfl
      · exact whole.emit more sink (ok ▸ written)
  | flush taken =>
      cases moves
      exact ⟨⟨whole.fits.flushBuf taken, whole.capacity⟩,
        (Writer.contents_flushBuf taken).trans whole.contents⟩

theorem torn_of_reachable
    (reached : (engine.loggedSystem json lib load created).Reachable logged) :
    logged.Torn json := by
  apply reached.invariant (fun logged => logged.Torn json)
    ⟨⟨Nat.zero_le _, rfl⟩, [], .nil, rfl⟩
  intro before label after _ _ moves torn
  cases label with
  | engine label text ending =>
      rcases Option.map_eq_some_iff.mp moves with ⟨next, steps, rfl⟩
      rcases log_cases text ending (SimEngine.history_step steps) with
        ⟨same, sink⟩ | ⟨event, more, sink, -⟩
      · rcases torn.contents with ⟨pieces, parts, contents⟩
        exact ⟨⟨sink ▸ torn.fits, sink ▸ torn.capacity⟩, pieces, same ▸ parts, sink ▸ contents⟩
      · exact torn.emit more sink
  | flush taken =>
      cases moves
      rcases torn.contents with ⟨pieces, parts, contents⟩
      exact ⟨⟨torn.fits.flushBuf taken, torn.capacity⟩, pieces, parts,
        (Writer.contents_flushBuf taken).trans contents⟩

/-- The log is an account of the run that can be read at any time.  As long as
no write fails, the file has the lines of the first events and less than a
line more, so that whoever reads it up to its last newline gets these events
and no others.  No more than the buffer holds is missing, and nothing is missing
after a flush that succeeds; once all calls have returned, the log then has
every sequence number once. -/
theorem log_begins_history
    (reached : (engine.loggedSystem json lib load created).ReachableBy
      (engine.Unfailing json lib load) logged) :
    (exists count rest, count ≤ logged.state.history.length ∧ newline ∉ rest ∧
      logged.sink.inner.file = json.lines (logged.state.history.take count) ++ rest ∧
      forall events rest', newline ∉ rest' ->
        logged.sink.inner.file = json.lines events ++ rest' ->
        events = logged.state.history.take count ∧ rest' = rest) ∧
    (json.lines logged.state.history).length ≤ logged.sink.inner.file.length + 8192 ∧
    forall taken, (logged.sink.flush taken).2 = true ->
      (logged.sink.flush taken).1.inner.file = json.lines logged.state.history ∧
      (logged.state.Finished -> (logged.state.history.map Event.seq).Perm
        ((List.range (Fintype.card Call)).map UInt64.ofNat)) := by
  have whole := whole_of_reachable reached
  refine ⟨?_, ?_, fun taken ok => ⟨?_, fun finished => ?_⟩⟩
  · rcases LineText.exists_lines whole.contents with ⟨count, rest, bound, free, shape⟩
    refine ⟨count, rest, bound, free, shape, fun events rest' free' shape' => ?_⟩
    exact LineText.lines_inj free' free (shape'.symm.trans shape)
  · have fits := whole.fits
    unfold Writer.Fits at fits
    rw [whole.capacity] at fits
    rw [← whole.contents, Writer.contents, List.length_append]
    exact Nat.add_le_add_left fits _
  · exact (Writer.file_flushBuf ok).trans whole.contents
  · have inner := SimEngine.logged_simulation.reachable reached
    have numbered := EngineState.numbered_of_reachable inner
    have booked := EngineState.logged_of_reachable inner
    have seqs : logged.state.history.map Event.seq =
        logged.state.events.map (fun entry => entry.2.seq) := by
      rw [EngineState.history, List.map_map]
      rfl
    rw [seqs, booked.map_seq numbered, ← finished.length_issued numbered, ← numbered.map_number]
    exact (finished.perm_issued booked numbered).map _

/-- The schedule of two overlapping reads, with a log that is flushed at the
end. -/
def flushedAtEnd : List (LoggedLabel (Fin 2)) :=
  EngineState.overlapping.map (fun label => .engine label ⟨0, 0⟩ ⟨0, 0⟩) ++ [.flush 8192]

/-- Both reads are in the file, one as refused. -/
theorem log_begins_history_overlapping :
    exists logged : LoggedEngine Rat (Fin 2) Unit,
      ((SimEngine.steady 1).loggedSystem .json .silent (.reads (Fin 2)) 0).run
        { state := (SimEngine.steady 1).initial 0, sink := .create } flushedAtEnd = some logged ∧
      logged.sink.inner.buffer = [] ∧
      exists refused served : Event, logged.sink.inner.file =
          EventText.json.line refused ++ EventText.json.line served ∧
        refused.errno = some Libc.eagain ∧ served.errno = none := by
  have allowed : ((SimEngine.steady 1).loggedSystem .json .silent (.reads (Fin 2)) 0).RunAllowed
      ((SimEngine.steady 1).Unfailing .json .silent (.reads (Fin 2)))
      { state := (SimEngine.steady 1).initial 0, sink := .create } flushedAtEnd := by
    decide +kernel
  have completes : (((SimEngine.steady 1).loggedSystem .json .silent (.reads (Fin 2)) 0).run
      { state := (SimEngine.steady 1).initial 0, sink := .create } flushedAtEnd).any
        (fun logged => decide (logged.sink.inner.buffer = []) &&
          decide (logged.state.history.map Event.errno = [some Libc.eagain, none])) = true := by
    decide +kernel
  rcases Option.any_eq_true _ _ |>.mp completes with ⟨logged, runs, holds⟩
  simp only [Bool.and_eq_true, decide_eq_true_eq] at holds
  have reached : ((SimEngine.steady 1).loggedSystem .json .silent (.reads (Fin 2)) 0).ReachableBy
      ((SimEngine.steady 1).Unfailing .json .silent (.reads (Fin 2))) logged :=
    .extend_allowed .init allowed runs
  rcases log_begins_history reached with ⟨-, -, flushes⟩
  have again : (logged.sink.flush 0).2 = true := by
    simp only [JsonlEventSink.flush, Writer.flushBuf, holds.1]
    rfl
  have file : logged.sink.inner.file = EventText.json.lines logged.state.history := by
    rw [← (flushes 0 again).1]
    simp only [JsonlEventSink.flush, Writer.flushBuf, holds.1, List.take_nil, List.append_nil]
  rcases List.map_eq_cons_iff.mp holds.2 with ⟨refused, later, events, eagain, last⟩
  rcases List.map_eq_singleton_iff.mp last with ⟨served, rfl, fine⟩
  refine ⟨logged, runs, holds.1, refused, served, ?_, eagain, fine⟩
  rw [file, events, LineText.lines_cons, LineText.lines_cons, LineText.lines_nil, List.append_nil]

/-- A file that fails does no harm but to the log.  Whatever the file refuses,
in every state of every run each event has left a part from the front of its
line, in the order of the events, nothing else is in the file or the buffer,
and the calls are in a state of the engine without a log, with every step
enabled that is enabled there. -/
theorem failures_stay_in_log
    (reached : (engine.loggedSystem json lib load created).Reachable logged) :
    (exists pieces, List.Forall₂ (fun piece event => piece <+: json.line event) pieces
        logged.state.history ∧
      logged.sink.inner.file ++ logged.sink.inner.buffer = pieces.flatten) ∧
    (engine.system lib load created).Reachable logged.state ∧
    forall label next text ending,
      (engine.system lib load created).step logged.state label = some next ->
      exists after, (engine.loggedSystem json lib load created).step logged
        (.engine label text ending) = some after ∧ after.state = next := by
  refine ⟨(torn_of_reachable reached).contents, SimEngine.logged_simulation.reachable reached,
    fun label next text ending steps => ?_⟩
  exact ⟨logged.log json next text ending, Option.map_eq_some_iff.mpr ⟨next, steps, rfl⟩, rfl⟩

/-- The schedule of two overlapping reads, with a log that is flushed after
the first event to a file that takes ten bytes and no more. -/
def flushedShort : List (LoggedLabel (Fin 2)) :=
  (EngineState.overlapping.take 7).map (fun label => .engine label ⟨0, 0⟩ ⟨0, 0⟩) ++ [.flush 10] ++
    (EngineState.overlapping.drop 7).map (fun label => .engine label ⟨0, 0⟩ ⟨0, 0⟩)

/-- The file ends within the first line, and the calls return all the same. -/
theorem failures_stay_in_log_short :
    exists (logged : LoggedEngine Rat (Fin 2) Unit) (pieces : List (List UInt8)),
      logged.sink.inner.file.length = 10 ∧ logged.state.Finished ∧
      logged.sink.inner.file ++ logged.sink.inner.buffer = pieces.flatten ∧
      pieces.length = 2 := by
  have completes : (((SimEngine.steady 1).loggedSystem .json .silent (.reads (Fin 2)) 0).run
      { state := (SimEngine.steady 1).initial 0, sink := .create } flushedShort).any
        (fun logged => decide (logged.sink.inner.file.length = 10) &&
          (decide (logged.state.history.length = 2) &&
            ((logged.state.progress 0).isReturned && (logged.state.progress 1).isReturned))) =
        true := by
    decide +kernel
  rcases Option.any_eq_true _ _ |>.mp completes with ⟨logged, runs, holds⟩
  simp only [Bool.and_eq_true, decide_eq_true_eq] at holds
  rcases holds with ⟨short, two, first, second⟩
  rcases failures_stay_in_log (System.reachable_of_run runs) with ⟨⟨pieces, parts, text⟩, -⟩
  refine ⟨logged, pieces, short, fun call => ?_, text, parts.length_eq.trans two⟩
  match call with
  | 0 => exact first
  | 1 => exact second

end LoggedEngine

end Fusecraft
