import Fusecraft.Telemetry.Metrics
import Fusecraft.Library.Json
import Fusecraft.Library.BufWriter

namespace Fusecraft

open Json Lines BufWriter

/-!
# The event log

An event is written on a line of its own.  Its text is the serializer's affair:
all that is relied on is that it is one line, and that it says which event it
is.  The sink writes through a buffer, and passes over every failure: a write
that fails loses the rest of its line and nothing else.
-/

/-- The serializer: it gives every event a text of its own, without a newline. -/
abbrev EventText := LineText Event newline

/-- JSON-lines event sink writing to a local file. -/
structure JsonlEventSink where
  inner : Writer UInt8

namespace JsonlEventSink

/-- A sink on a file that is created or truncated; its buffer has the default
capacity. -/
def create : JsonlEventSink := ⟨{ capacity := 8192, file := [], buffer := [] }⟩

/-- Flush any buffered writes; a failure is reported. -/
def flush (sink : JsonlEventSink) (taken : Nat) : JsonlEventSink × Bool :=
  (⟨(sink.inner.flushBuf taken).1⟩, (sink.inner.flushBuf taken).2)

/-- Write the text of an event, then the end of its line.  The flag says
whether both were written; the caller of the sink does not see it. -/
def emit (json : EventText) (sink : JsonlEventSink) (text ending : Attempt) (event : Event) :
    JsonlEventSink × Bool :=
  let written := sink.inner.writeAll text (json.text event)
  if written.2 then
    let ended := written.1.writeAll ending [newline]
    (⟨ended.1⟩, ended.2)
  else (⟨written.1⟩, false)

theorem emit_adds (json : EventText) {sink : JsonlEventSink} (fits : sink.inner.Fits)
    (text ending : Attempt) (event : Event) :
    sink.inner.Adds (sink.emit json text ending event).1.inner
      (sink.emit json text ending event).2 (json.line event) := by
  have written := fits.writeAll text (json.text event)
  unfold emit
  cases ok : (sink.inner.writeAll text (json.text event)).2 with
  | true =>
      rw [ok] at written
      rw [if_pos ok]
      exact written.trans (written.fits.writeAll ending [newline])
  | false =>
      rw [ok] at written
      rw [if_neg (by rw [ok]; exact Bool.false_ne_true)]
      exact written.fail [newline]

end JsonlEventSink

/-!
## JSON

One text of this kind is the compact JSON object of the members of an event.
-/

/-- The lowercase name of an outcome. -/
def Outcome.asStr : Outcome -> String
  | .ok => "ok"
  | .error => "error"

/-- The members of an event in the order of its fields.  An errno is present
for errors only. -/
def Event.serialize (event : Event) : List (List UInt8 × Scalar) :=
  [(osStr "ts_unix_nanos", .number event.tsUnixNanos),
    (osStr "seq", .number event.seq.toNat),
    (osStr "op", .name (osStr event.op.asStr)),
    (osStr "ino", .number event.ino.toNat),
    (osStr "offset", .number event.offset.toNat),
    (osStr "len", .number event.len),
    (osStr "outcome", .name (osStr event.outcome.asStr))] ++
  (event.errno.toList.map (fun errno => (osStr "errno", .number errno))) ++
  [(osStr "queue_wait_us", .number event.queueWaitUs.toNat),
    (osStr "injected_latency_us", .number event.injectedLatencyUs.toNat),
    (osStr "bandwidth_delay_us", .number event.bandwidthDelayUs.toNat),
    (osStr "total_duration_us", .number event.totalDurationUs.toNat)]

/-- The JSON text of an event. -/
def Event.toJson (event : Event) : List UInt8 := object event.serialize

theorem FsOp.asStr_inj {op op' : FsOp} (same : osStr op.asStr = osStr op'.asStr) : op = op' := by
  cases op <;> cases op' <;> first | rfl | exact absurd same (by decide)

theorem Outcome.asStr_inj {outcome outcome' : Outcome}
    (same : osStr outcome.asStr = osStr outcome'.asStr) : outcome = outcome' := by
  cases outcome <;> cases outcome' <;> first | rfl | exact absurd same (by decide)

/-- Nothing in the text of an event needs an escape. -/
theorem Event.plain_serialize (event : Event) : PlainEntries event.serialize := by
  have number : forall (key : String) (value : Int), Plain (osStr key) ->
      Plain (osStr key) ∧ (Scalar.number value).Plain := fun _ _ plain => ⟨plain, trivial⟩
  have op : Plain (osStr event.op.asStr) := by
    cases event.op <;> decide
  have outcome : Plain (osStr event.outcome.asStr) := by
    cases event.outcome <;> decide
  intro entry member
  simp only [serialize, List.mem_append, List.mem_cons, List.not_mem_nil, or_false, List.mem_map,
    Option.mem_toList] at member
  rcases member with ((rfl | rfl | rfl | rfl | rfl | rfl | rfl) | ⟨errno, -, rfl⟩) |
    (rfl | rfl | rfl | rfl)
  · exact number "ts_unix_nanos" _ (by decide)
  · exact number "seq" _ (by decide)
  · exact ⟨show Plain (osStr "op") by decide, op⟩
  · exact number "ino" _ (by decide)
  · exact number "offset" _ (by decide)
  · exact number "len" _ (by decide)
  · exact ⟨show Plain (osStr "outcome") by decide, outcome⟩
  · exact number "errno" _ (by decide)
  · exact number "queue_wait_us" _ (by decide)
  · exact number "injected_latency_us" _ (by decide)
  · exact number "bandwidth_delay_us" _ (by decide)
  · exact number "total_duration_us" _ (by decide)

/-- The members determine the event. -/
theorem Event.serialize_injective {event event' : Event}
    (same : event.serialize = event'.serialize) : event = event' := by
  rcases event with ⟨ts, seq, op, ino, offset, len, outcome, errno, wait, latency, delay, total⟩
  rcases event' with
    ⟨ts', seq', op', ino', offset', len', outcome', errno', wait', latency', delay', total'⟩
  have errnos : errno = errno' := by
    cases errno with
    | none =>
        cases errno' with
        | none => rfl
        | some errno' => exact absurd (congrArg List.length same) (by simp [serialize])
    | some errno =>
        cases errno' with
        | none => exact absurd (congrArg List.length same) (by simp [serialize])
        | some errno' =>
            simp only [serialize, Option.toList_some, List.map_cons, List.map_nil, List.cons_append,
              List.nil_append, List.cons.injEq, Prod.mk.injEq, Scalar.number.injEq] at same
            rw [same.2.2.2.2.2.2.2.1.2]
  subst errnos
  simp only [serialize, List.cons_append, List.nil_append, List.cons.injEq, Prod.mk.injEq,
    true_and, and_true, Scalar.number.injEq, Scalar.name.injEq, Int.natCast_inj,
    UInt64.toNat_inj, List.append_cancel_left_eq] at same
  rcases same with ⟨rfl, rfl, op, rfl, rfl, rfl, outcome, rfl, rfl, rfl, rfl⟩
  cases FsOp.asStr_inj op
  cases Outcome.asStr_inj outcome
  rfl

/-- The text of an event is one JSON object. -/
def EventText.json : EventText where
  text := Event.toJson
  ending_notMem := fun event => newline_notMem_object event.plain_serialize
  injective := by
    intro event event' same
    have texts : object event.serialize ++ [] = object event'.serialize ++ [] :=
      congrArg (fun text => text ++ []) same
    have members := object_inj event.plain_serialize event'.plain_serialize texts
    exact Event.serialize_injective members.1

end Fusecraft
