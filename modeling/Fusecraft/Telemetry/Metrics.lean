import Fusecraft.Core.Op

namespace Fusecraft

/-!
# Events and metrics

One event describes one operation.  The recorder keeps two counters and a
histogram for each operation kind; its histogram type comes from outside the
repository, so a histogram is the list of the values recorded in it, and
reading a percentile off it is a parameter.
-/

/-- Result classification for an event. -/
inductive Outcome where
  | ok
  | error
  deriving DecidableEq, Repr

/-- A single op lifecycle event. -/
structure Event where
  tsUnixNanos : Nat
  seq : UInt64
  op : FsOp
  ino : UInt64
  offset : UInt64
  len : Nat
  outcome : Outcome
  errno : Option Int
  queueWaitUs : UInt64
  injectedLatencyUs : UInt64
  bandwidthDelayUs : UInt64
  totalDurationUs : UInt64
  deriving DecidableEq, Repr

/-- Histogram lower bound in microseconds. -/
def histLow : UInt64 := 1

/-- Histogram upper bound in microseconds. -/
def histHigh : UInt64 := 60000000

/-- Per-operation state: two counters and a latency histogram. -/
structure OpHisto where
  countOk : UInt64
  countErr : UInt64
  histo : List UInt64
  deriving DecidableEq, Repr

/-- Summary snapshot for one op. -/
structure OpSummary where
  op : FsOp
  count : UInt64
  errors : UInt64
  p50Us : UInt64
  p95Us : UInt64
  p99Us : UInt64
  p999Us : UInt64
  deriving DecidableEq, Repr

/-- Per-op histogram recorder. -/
structure HistogramRecorder where
  perOp : FsOp -> Option OpHisto

namespace HistogramRecorder

/-- An empty recorder. -/
def new : HistogramRecorder := ⟨fun _ => none⟩

def emptyHisto : OpHisto where
  countOk := 0
  countErr := 0
  histo := []

/-- Record a single op outcome, with the duration clamped to the range of the
histogram. -/
def record (recorder : HistogramRecorder) (op : FsOp) (durationUs : UInt64) (isError : Bool) :
    HistogramRecorder :=
  let entry := (recorder.perOp op).getD emptyHisto
  let entry :=
    if isError then { entry with countErr := entry.countErr + 1 }
    else { entry with countOk := entry.countOk + 1 }
  let clamped := max histLow (min durationUs histHigh)
  ⟨Function.update recorder.perOp op (some { entry with histo := clamped :: entry.histo })⟩

/-- The summary of one op, absent when nothing was recorded.  Percentiles are
given in tenths. -/
def summarize (valueAtPercentile : List UInt64 -> Nat -> UInt64) (recorder : HistogramRecorder)
    (op : FsOp) : Option OpSummary := do
  let entry ← recorder.perOp op
  let count := entry.countOk + entry.countErr
  if count = 0 then none
  else
    some
      { op := op
        count := count
        errors := entry.countErr
        p50Us := valueAtPercentile entry.histo 500
        p95Us := valueAtPercentile entry.histo 950
        p99Us := valueAtPercentile entry.histo 990
        p999Us := valueAtPercentile entry.histo 999 }

/-- Summaries for each recorded op, in the order of `FsOp::ALL`. -/
def summary (valueAtPercentile : List UInt64 -> Nat -> UInt64) (recorder : HistogramRecorder) :
    List OpSummary :=
  FsOp.all.filterMap (recorder.summarize valueAtPercentile)

/-! ## Counters -/

/-- The counter of an op and an outcome; zero if the op was never recorded. -/
def counter (recorder : HistogramRecorder) (op : FsOp) : Outcome -> UInt64
  | .ok => ((recorder.perOp op).getD emptyHisto).countOk
  | .error => ((recorder.perOp op).getD emptyHisto).countErr

/-- Recording adds one to the counter of its op and outcome and to no other. -/
theorem counter_record (recorder : HistogramRecorder) (op : FsOp) (durationUs : UInt64)
    (isError : Bool) (other : FsOp) (outcome : Outcome) :
    (recorder.record op durationUs isError).counter other outcome =
      recorder.counter other outcome +
        if other = op ∧ outcome = (if isError then .error else .ok) then 1 else 0 := by
  by_cases same : other = op
  · subst same
    cases isError <;> cases outcome <;> simp [counter, record]
  · cases outcome <;> simp [counter, record, same]

/-! ## Reading the summary -/

variable (valueAtPercentile : List UInt64 -> Nat -> UInt64) (recorder : HistogramRecorder)

theorem summarize_op {op : FsOp} {entry : OpSummary}
    (found : recorder.summarize valueAtPercentile op = some entry) : entry.op = op := by
  simp only [summarize, Option.bind_eq_bind, Option.bind_eq_some_iff,
    Option.ite_none_left_eq_some, Option.some.injEq] at found
  rcases found with ⟨histo, -, -, rfl⟩
  rfl

/-- The summary has exactly the summaries of the single ops, each under its op. -/
theorem find_summary (op : FsOp) :
    (recorder.summary valueAtPercentile).find? (fun entry => entry.op = op) =
      recorder.summarize valueAtPercentile op := by
  have search : forall ops : List FsOp,
      (ops.filterMap (recorder.summarize valueAtPercentile)).find?
          (fun entry => entry.op = op) =
        if op ∈ ops then recorder.summarize valueAtPercentile op else none := by
    intro ops
    induction ops with
    | nil => rfl
    | cons first rest ih =>
        cases found : recorder.summarize valueAtPercentile first with
        | none =>
            rw [List.filterMap_cons_none found, ih]
            by_cases same : op = first
            · simp [same, found]
            · simp [same]
        | some entry =>
            have named := recorder.summarize_op valueAtPercentile found
            rw [List.filterMap_cons_some found, List.find?_cons, named]
            by_cases same : op = first
            · simp [same, found]
            · simp [same, Ne.symm same, ih]
  rw [summary, search, if_pos (FsOp.mem_all op)]

/-- The summary of an op shows its two counters; it is absent if they add up
to zero. -/
theorem find_summary_counters (op : FsOp) :
    match (recorder.summary valueAtPercentile).find? (fun entry => entry.op = op) with
    | some entry => entry.count = recorder.counter op .ok + recorder.counter op .error ∧
        entry.errors = recorder.counter op .error
    | none => recorder.counter op .ok + recorder.counter op .error = 0 := by
  rw [find_summary]
  unfold summarize counter
  cases recorder.perOp op with
  | none => rfl
  | some entry =>
      by_cases empty : entry.countOk + entry.countErr = 0
      · simp [empty]
      · simp [empty]

end HistogramRecorder

end Fusecraft
