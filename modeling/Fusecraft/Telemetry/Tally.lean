import Fusecraft.Telemetry.Metrics
import Mathlib.Data.Multiset.AddSub

namespace Fusecraft

/-!
# The recorder as a tally of events

What a summary shows is two counters and a multiset of durations for each op.
Recording commutes there, so a summary depends on the events that were
recorded and not on the order in which their calls came by.
-/

/-- What the recorder knows of an op, without the order of the durations. -/
@[ext] structure Tally where
  ok : UInt64
  err : UInt64
  durations : Multiset UInt64

namespace Tally

/-- Nothing recorded. -/
def empty : Tally := ⟨0, 0, 0⟩

/-- Count an outcome and its clamped duration. -/
def bump (tally : Tally) (durationUs : UInt64) (isError : Bool) : Tally where
  ok := if isError then tally.ok else tally.ok + 1
  err := if isError then tally.err + 1 else tally.err
  durations := max histLow (min durationUs histHigh) ::ₘ tally.durations

theorem bump_comm (tally : Tally) (first second : UInt64) (failed failed' : Bool) :
    (tally.bump first failed).bump second failed' =
      (tally.bump second failed').bump first failed := by
  ext1
  · cases failed <;> cases failed' <;> rfl
  · cases failed <;> cases failed' <;> rfl
  · exact Multiset.cons_swap _ _ _

end Tally

/-- The tally of a histogram. -/
def OpHisto.tally (entry : OpHisto) : Tally := ⟨entry.countOk, entry.countErr, entry.histo⟩

namespace HistogramRecorder

/-- The tallies of all ops. -/
def tallies (recorder : HistogramRecorder) (op : FsOp) : Option Tally :=
  (recorder.perOp op).map OpHisto.tally

/-- Record an event. -/
def recordEvent (recorder : HistogramRecorder) (event : Event) : HistogramRecorder :=
  recorder.record event.op event.totalDurationUs (event.outcome = .error)

/-- The recorder that has seen some events, in this order. -/
def ofEvents (events : List Event) : HistogramRecorder := events.foldl recordEvent .new

/-- The tallies with one more event. -/
def talliesWith (tallies : FsOp -> Option Tally) (event : Event) : FsOp -> Option Tally :=
  Function.update tallies event.op
    (some (((tallies event.op).getD .empty).bump event.totalDurationUs (event.outcome = .error)))

theorem tallies_recordEvent (recorder : HistogramRecorder) (event : Event) :
    (recorder.recordEvent event).tallies = talliesWith recorder.tallies event := by
  funext op
  unfold talliesWith
  by_cases same : op = event.op
  · subst same
    rw [Function.update_self]
    simp only [tallies, recordEvent, record, Function.update_self, Option.map_some]
    cases recorder.perOp event.op <;> cases event.outcome <;> rfl
  · rw [Function.update_of_ne same]
    simp only [tallies, recordEvent, record, Function.update_of_ne same]

theorem talliesWith_comm (tallies : FsOp -> Option Tally) (first second : Event) :
    talliesWith (talliesWith tallies first) second =
      talliesWith (talliesWith tallies second) first := by
  unfold talliesWith
  by_cases same : first.op = second.op
  · rw [same, Function.update_self, Function.update_self, Function.update_idem,
      Function.update_idem, Option.getD_some, Option.getD_some, Tally.bump_comm]
  · rw [Function.update_of_ne (Ne.symm same), Function.update_of_ne same,
      Function.update_comm same]

theorem tallies_foldl (recorder : HistogramRecorder) (events : List Event) :
    (events.foldl recordEvent recorder).tallies = events.foldl talliesWith recorder.tallies := by
  induction events generalizing recorder with
  | nil => rfl
  | cons event rest ih => rw [List.foldl_cons, List.foldl_cons, ih, tallies_recordEvent]

/-- The order of the events is lost in the tallies. -/
theorem tallies_ofEvents_perm {events events' : List Event} (same : events.Perm events') :
    (ofEvents events).tallies = (ofEvents events').tallies := by
  unfold ofEvents
  rw [tallies_foldl, tallies_foldl]
  exact same.foldl_eq' (fun first _ second _ tallies => talliesWith_comm tallies first second) _

/-- A percentile is read off a histogram, whatever the order in which its
values came. -/
def OrderFree (valueAtPercentile : List UInt64 -> Nat -> UInt64) : Prop :=
  forall values values' percentile, values.Perm values' ->
    valueAtPercentile values percentile = valueAtPercentile values' percentile

/-- A summary is read off the tallies. -/
theorem summary_eq {valueAtPercentile : List UInt64 -> Nat -> UInt64}
    (orderFree : OrderFree valueAtPercentile) {recorder recorder' : HistogramRecorder}
    (same : recorder.tallies = recorder'.tallies) :
    recorder.summary valueAtPercentile = recorder'.summary valueAtPercentile := by
  unfold summary
  congr 1
  funext op
  have here := congrFun same op
  unfold tallies at here
  unfold summarize
  cases entry : recorder.perOp op with
  | none =>
      rw [entry] at here
      cases entry' : recorder'.perOp op with
      | none => rfl
      | some found =>
          rw [entry'] at here
          cases here
  | some found =>
      rw [entry] at here
      cases entry' : recorder'.perOp op with
      | none =>
          rw [entry'] at here
          cases here
      | some found' =>
          rw [entry'] at here
          rw [Option.map_some, Option.map_some, Option.some_inj, OpHisto.tally, OpHisto.tally,
            Tally.mk.injEq, Multiset.coe_eq_coe] at here
          rcases here with ⟨ok, err, perm⟩
          have percentiles : forall percentile, valueAtPercentile found.histo percentile =
              valueAtPercentile found'.histo percentile :=
            fun percentile => orderFree _ _ percentile perm
          simp only [Option.bind_eq_bind, Option.bind_some, ok, err, percentiles]

end HistogramRecorder

end Fusecraft
