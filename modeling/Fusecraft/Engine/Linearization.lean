import Fusecraft.Engine.Answers
import Fusecraft.Engine.Bookkeeping
import Fusecraft.Engine.Replay
import Fusecraft.Library.Linearization

namespace Fusecraft

open Transition

/-!
# The engine as an atomic object

To its callers the engine is a simulator that serves one request at a time.
Such a simulator has a sequence number and a log; it answers a request from
the draw of its number and from the body, or refuses it, and appends one row.
Every run of the engine, with everything that overlaps in it, can be retold
with this simulator, and the order is the one in which the calls took their
sequence numbers.
-/

variable {F Call T : Type}

/-- What an engine that serves one request at a time has to show. -/
structure SerialLog where
  seq : UInt64
  rows : List ReplayRow

/-- The log after one more request. -/
def SerialLog.append (log : SerialLog) (row : ReplayRow) : SerialLog where
  seq := log.seq + 1
  rows := log.rows ++ [row]

/-- What a caller knows of its call. -/
def Progress.stage : Progress T -> Stage (Except FsError T)
  | .idle => .idle
  | .returned _ _ result => .answered result
  | _ => .pending

/-- The call was told that the limiter has no place for it. -/
def Progress.isTurnedAway (progress : Progress T) : Bool :=
  match progress.account with
  | some (_, none, _) => true
  | _ => false

namespace SimEngine

variable [F64 F] (engine : SimEngine F) (lib : SamplerLib F)

/-- The answer to a request with this sequence number, served at once. -/
def answer (ctx : OpContext) (body : Except FsError T) (seq : UInt64) (turnedAway : Bool) :
    Except FsError T :=
  if turnedAway then .error (.errno Libc.eagain) else reply (engine.draw lib ctx seq 0) body

/-- The row that the request leaves. -/
def row (ctx : OpContext) (body : Except FsError T) (seq : UInt64) (turnedAway : Bool) :
    ReplayRow where
  seq := seq
  op := ctx.op
  ino := ctx.ino
  offset := ctx.offset
  len := ctx.len
  outcome := (classify (engine.answer lib ctx body seq turnedAway)).1
  errno := (classify (engine.answer lib ctx body seq turnedAway)).2
  injectedLatencyUs := if turnedAway then 0 else (engine.draw lib ctx seq 0).latencyUs

/-- The simulator that serves one request at a time. -/
def serial : AtomicObject (OpContext × Except FsError T) (Except FsError T) SerialLog where
  init := { seq := 0, rows := [] }
  allows := fun log request result next => exists turnedAway,
    result = engine.answer lib request.1 request.2 log.seq turnedAway ∧
    next = log.append (engine.row lib request.1 request.2 log.seq turnedAway)

end SimEngine

namespace EngineState

/-- What the callers know of their calls. -/
def stage (state : EngineState F Call T) (call : Call) : Stage (Except FsError T) :=
  (state.progress call).stage

variable [F64 F] [DecidableEq Call]

/-- The answer of a call, or the one it would get if it were admitted. -/
def answer (engine : SimEngine F) (lib : SamplerLib F) (load : Workload Call T)
    (state : EngineState F Call T) (call : Call) : Except FsError T :=
  engine.answer lib (load.ctx call) (load.body call) (state.number call)
    (state.progress call).isTurnedAway

/-- The row that belongs to this answer. -/
def row (engine : SimEngine F) (lib : SamplerLib F) (load : Workload Call T)
    (state : EngineState F Call T) (call : Call) : ReplayRow :=
  engine.row lib (load.ctx call) (load.body call) (state.number call)
    (state.progress call).isTurnedAway

variable [Fintype Call]
variable {engine : SimEngine F} {lib : SamplerLib F} {load : Workload Call T} {created : Nat}
variable {state next : EngineState F Call T}

/-! ## Sequence numbers as tickets -/

theorem issued_prefix {label : EngineLabel Call}
    (moves : engine.step lib load state label = some next) : state.issued <+: next.issued := by
  cases SimEngine.step_cases moves with
  | takes call start started => exact List.prefix_append _ _
  | _ => exact List.prefix_refl _

theorem not_mem_issued_of_idle (reached : (engine.system lib load created).Reachable state)
    {call : Call} (idle : state.stage call = .idle) : call ∉ state.issued := by
  apply (numbered_of_reachable reached).fresh
  unfold stage at idle
  cases progress : state.progress call with
  | idle => rfl
  | _ => rw [progress] at idle; cases idle

omit [F64 F] [DecidableEq Call] [Fintype Call] in
theorem returned_of_stage {call : Call} {result : Except FsError T}
    (answered : state.stage call = .answered result) :
    exists seq served, state.progress call = .returned seq served result := by
  unfold stage at answered
  cases progress : state.progress call with
  | returned seq served reply =>
      rw [progress] at answered
      cases answered
      exact ⟨seq, served, rfl⟩
  | _ => rw [progress] at answered; cases answered

theorem mem_issued_of_answered (reached : (engine.system lib load created).Reachable state)
    {call : Call} {result : Except FsError T} (answered : state.stage call = .answered result) :
    call ∈ state.issued := by
  rcases returned_of_stage answered with ⟨seq, served, returned⟩
  have taken : (state.progress call).seq? = some seq := by
    rw [returned]
    rfl
  exact (numbered_of_reachable reached).mem_issued taken

/-! ## Answers and rows -/

/-- A call that has accounted for itself has the answer and the row of a call
served at once. -/
theorem account_eq (reached : (engine.system lib load created).Reachable state) {call : Call}
    {seq : UInt64} {served : Option Served} {result : Except FsError T}
    (account : (state.progress call).account = some (seq, served, result)) :
    result = state.answer engine lib load call ∧
      (served.map (fun served => served.latencyUs)).getD 0 =
        (state.row engine lib load call).injectedLatencyUs := by
  have truthful := truthful_of_reachable reached
  have told := Progress.result?_of_account account
  have number := (numbered_of_reachable reached).number_eq (Progress.seq?_of_account account)
  unfold answer row SimEngine.row SimEngine.answer Progress.isTurnedAway
  rw [account, ← number]
  cases served with
  | none => exact ⟨honest_of_reachable reached call result told, rfl⟩
  | some served =>
      have replied : result = SimEngine.reply served (load.body call) :=
        truthful.answers call _ result told
      rcases truthful.draws call seq served (Progress.drawn?_of_account account) with ⟨wait, rfl⟩
      exact ⟨replied, rfl⟩

/-- An event shows the row of its call. -/
theorem replayRow_eq (reached : (engine.system lib load created).Reachable state) {call : Call}
    {event : Event} (member : (call, event) ∈ state.events) :
    event.replayRow = state.row engine lib load call := by
  rcases (logged_of_reachable reached).of_mem member with
    ⟨seq, served, result, account, ownSeq, op, ino, offset, len, outcome, errno, latency⟩
  rcases account_eq reached account with ⟨replied, drew⟩
  have number := (numbered_of_reachable reached).number_eq (Progress.seq?_of_account account)
  unfold Event.replayRow
  rw [ownSeq, op, ino, offset, len, outcome, errno, latency, drew, replied, number]
  rfl

/-- The calls of any run can be served one at a time in the order of their
numbers. -/
theorem serves_issued (reached : (engine.system lib load created).Reachable state) :
    (engine.serial lib).Serves (engine.serial (T := T) lib).init
      (state.issued.map (fun call =>
        ((load.ctx call, load.body call), state.answer engine lib load call)))
      { seq := UInt64.ofNat state.issued.length
        rows := state.issued.map (state.row engine lib load) } := by
  let content (index : Nat) : SerialLog :=
    { seq := UInt64.ofNat index
      rows := (state.issued.take index).map (state.row engine lib load) }
  have whole : content state.issued.length =
      { seq := UInt64.ofNat state.issued.length
        rows := state.issued.map (state.row engine lib load) } := by
    simp only [content, List.take_length]
  have served : (engine.serial lib).Serves (content 0)
      (state.issued.map (fun call =>
        ((load.ctx call, load.body call), state.answer engine lib load call)))
      (content (state.issued.map (fun call =>
        ((load.ctx call, load.body call), state.answer engine lib load call))).length) := by
    apply AtomicObject.serves_of_contents
    intro index request result found
    rw [List.getElem?_map, Option.map_eq_some_iff] at found
    rcases found with ⟨call, found, same⟩
    cases same
    rcases List.getElem?_eq_some_iff.mp found with ⟨bound, here⟩
    have number : state.number call = UInt64.ofNat index := by
      rw [number, ← here, (numbered_of_reachable reached).nodup.idxOf_getElem]
    refine ⟨(state.progress call).isTurnedAway, ?_, ?_⟩
    · rw [answer, number]
    · have counts : UInt64.ofNat (index + 1) = UInt64.ofNat index + 1 := UInt64.ofNat_add index 1
      simp only [content, SerialLog.append, counts, List.take_add_one, found, Option.toList_some,
        List.map_append, List.map_cons, List.map_nil, row, number]
  rw [List.length_map, whole] at served
  exact served

/-- The log of a run in which all calls have returned is the serial one, in
another order. -/
theorem Finished.perm_rows (finished : state.Finished)
    (reached : (engine.system lib load created).Reachable state) :
    (state.events.map (fun entry => entry.2.replayRow)).Perm
      (state.issued.map (state.row engine lib load)) := by
  have rows : state.events.map (fun entry => entry.2.replayRow) =
      (state.events.map (fun entry => entry.1)).map (state.row engine lib load) := by
    rw [List.map_map]
    apply List.map_congr_left
    rintro ⟨call, event⟩ member
    exact replayRow_eq reached member
  rw [rows]
  exact (finished.perm_issued (logged_of_reachable reached) (numbered_of_reachable reached)).map _

end EngineState

/-- The engine is linearizable.  Whatever overlaps in a run, its calls can be
put in an order, which is that of their sequence numbers, in which a simulator
that serves one request at a time, or turns it away, gives every answer that
was given; a call that was answered before another one began comes first.
Once all calls have returned, the log of the run has exactly the rows of this
simulator. -/
theorem SimEngine.linearizable [F64 F] [Fintype Call] [DecidableEq Call] (engine : SimEngine F)
    (lib : SamplerLib F) (load : Workload Call T) (created : Nat)
    {labels : List (EngineLabel Call)} {state : EngineState F Call T}
    (runs : (engine.system lib load created).run (engine.initial created) labels = some state) :
    exists order log, (engine.system lib load created).Linearization EngineState.stage
        (fun call => (load.ctx call, load.body call)) (engine.serial lib) labels state order log ∧
      order.map (fun entry => entry.1) = state.issued ∧
      (state.Finished -> (state.events.map (fun entry => entry.2.replayRow)).Perm log.rows) := by
  have reached := System.reachable_of_run runs
  refine ⟨_, _, System.linearization_of_tickets (fun state => state.issued)
    (fun _ _ _ moves => EngineState.issued_prefix moves)
    (fun _ reached => (EngineState.numbered_of_reachable reached).nodup)
    (fun _ _ reached idle => EngineState.not_mem_issued_of_idle reached idle)
    (fun _ _ _ reached answered => EngineState.mem_issued_of_answered reached answered) runs
    (fun call result answered => ?_) (EngineState.serves_issued reached), ?_,
    fun finished => finished.perm_rows reached⟩
  · rcases EngineState.returned_of_stage answered with ⟨seq, served, returned⟩
    exact (EngineState.account_eq reached (by rw [returned]; rfl)).1.symm
  · rw [List.map_map]
    exact List.map_id _

/-- The two reads that overlap, of which the first one issued is refused, are
two reads one after the other. -/
theorem SimEngine.linearizable_overlapping :
    exists (state : EngineState Rat (Fin 2) Unit) (order : List (Fin 2 × Except FsError Unit))
      (log : SerialLog),
      ((SimEngine.steady 1).system .silent (.reads (Fin 2)) 0).Linearization EngineState.stage
        (fun call => ((Workload.reads (Fin 2)).ctx call, (Workload.reads (Fin 2)).body call))
        ((SimEngine.steady 1).serial .silent) EngineState.overlapping state order log ∧
      order = [(1, .error (.errno Libc.eagain)), (0, .ok ())] := by
  have completes : (((SimEngine.steady 1).system .silent (.reads (Fin 2)) 0).run
      ((SimEngine.steady 1).initial 0) EngineState.overlapping).any (fun state =>
        decide (state.issued = [1, 0] ∧ state.stage 0 = .answered (.ok ()) ∧
          state.stage 1 = .answered (.error (.errno Libc.eagain)))) = true := by
    decide +kernel
  rcases Option.any_eq_true _ _ |>.mp completes with ⟨state, runs, holds⟩
  rcases of_decide_eq_true holds with ⟨issued, served, refused⟩
  rcases SimEngine.linearizable (SimEngine.steady 1) .silent (.reads (Fin 2)) 0 runs with
    ⟨order, log, linear, calls, -⟩
  refine ⟨state, order, log, linear, ?_⟩
  have first := linear.complete 1 _ refused
  have second := linear.complete 0 _ served
  rw [issued] at calls
  rcases List.map_eq_cons_iff.mp calls with ⟨⟨_, answer⟩, later, rfl, rfl, others⟩
  rcases List.map_eq_cons_iff.mp others with ⟨⟨_, answer'⟩, none, rfl, rfl, nobody⟩
  cases List.map_eq_nil_iff.mp nobody
  simp only [List.mem_cons, Prod.mk.injEq, List.not_mem_nil, or_false, true_and] at first second
  rw [first.resolve_right (fun other => by cases other.1),
    second.resolve_left (fun other => by cases other.1)]

end Fusecraft
