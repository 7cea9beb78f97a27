import Fusecraft.Engine.Sequential

namespace Fusecraft

open Transition

/-!
# Replay and isolation

Two executions of engines with one seed, under any schedules and clocks, agree
on what a call draws as soon as they agree on its context, its sequence number
and the latency profile and fault rules chosen for it.  In a sequential
execution the sequence numbers follow from the order of issue, so there the
whole replayable part of the log is a function of the configuration and of the
calls.
-/

variable {F Call Call' T : Type} [F64 F]

/-- The part of an event that does not depend on the clock. -/
structure ReplayRow where
  seq : UInt64
  op : FsOp
  ino : UInt64
  offset : UInt64
  len : Nat
  outcome : Outcome
  errno : Option Int
  injectedLatencyUs : UInt64
  deriving DecidableEq, Repr

def Event.replayRow (event : Event) : ReplayRow where
  seq := event.seq
  op := event.op
  ino := event.ino
  offset := event.offset
  len := event.len
  outcome := event.outcome
  errno := event.errno
  injectedLatencyUs := event.injectedLatencyUs

namespace SimEngine

/-- The row that an admitted call must leave, by its context, its body and its
sequence number. -/
def replayRow (engine : SimEngine F) (lib : SamplerLib F) (ctx : OpContext)
    (body : Except FsError T) (seq : UInt64) : ReplayRow :=
  let served := engine.draw lib ctx seq 0
  let result := reply served body
  { seq := seq
    op := ctx.op
    ino := ctx.ino
    offset := ctx.offset
    len := ctx.len
    outcome := (classify result).1
    errno := (classify result).2
    injectedLatencyUs := served.latencyUs }

/-- The rows of a list of calls in this order: the sequence number of each is
its position. -/
def replayRows (engine : SimEngine F) (lib : SamplerLib F)
    (calls : List (OpContext × Except FsError T)) : List ReplayRow :=
  calls.mapIdx (fun index call => engine.replayRow lib call.1 call.2 (UInt64.ofNat index))

end SimEngine

namespace EngineState

variable [Fintype Call] [DecidableEq Call] [Fintype Call'] [DecidableEq Call']
variable {lib : SamplerLib F} {created : Nat}

/-! ## Two executions -/

section Pair

variable {first second : SimEngine F} {load : Workload Call T} {load' : Workload Call' T}
variable {state : EngineState F Call T} {state' : EngineState F Call' T} {created' : Nat}

/-- Calls of two executions with one context and one sequence number draw the
same, if their profiles agree. -/
theorem drawn_eq (reached : (first.system lib load created).Reachable state)
    (reached' : (second.system lib load' created').Reachable state')
    (seed : first.seed = second.seed) {call : Call} {call' : Call'} {seq : UInt64}
    {served served' : Served} (ctx : load.ctx call = load'.ctx call')
    (drawn : (state.progress call).drawn? = some (seq, served))
    (drawn' : (state'.progress call').drawn? = some (seq, served'))
    (latency : (first.choice (load.ctx call)).latency = (second.choice (load.ctx call)).latency)
    (faults : (first.choice (load.ctx call)).faults = (second.choice (load.ctx call)).faults) :
    served.latencyUs = served'.latencyUs ∧ served.fault = served'.fault := by
  rcases (truthful_of_reachable reached).draws call seq served drawn with ⟨wait, rfl⟩
  rcases (truthful_of_reachable reached').draws call' seq served' drawn' with ⟨wait', rfl⟩
  rw [← ctx]
  exact SimEngine.draw_eq seed latency faults seq wait wait'

omit [DecidableEq Call] [Fintype Call] in
/-- The event of a call that drew something shows its latency, and its fault
if it drew one. -/
theorem Logged.shows_drawn {state : EngineState F Call T} [DecidableEq Call]
    (logged : state.Logged load) (truthful : state.Truthful first lib load) {call : Call}
    {seq : UInt64} {served : Served} (drawn : (state.progress call).drawn? = some (seq, served))
    {event : Event} (member : (call, event) ∈ state.events) :
    event.injectedLatencyUs = served.latencyUs ∧
      forall errno, served.fault = some errno ->
        event.outcome = .error ∧ event.errno = some errno := by
  rcases logged.of_mem member with
    ⟨number, settled, result, account, -, -, -, -, -, outcome, errno, latency⟩
  rw [Progress.drawn?_of_account account, Option.map_eq_some_iff] at drawn
  rcases drawn with ⟨_, rfl, own⟩
  cases own
  have replied : result = SimEngine.reply served (load.body call) :=
    truthful.answers call _ result (Progress.result?_of_account account)
  refine ⟨latency, fun injected fault => ?_⟩
  have faulted : result = .error (.errno injected) := by
    rw [replied, SimEngine.reply, fault]
  rw [outcome, errno, faulted]
  exact ⟨rfl, rfl⟩

end Pair

/-! ## Sequential executions -/

section Single

variable {engine : SimEngine F} {load : Workload Call T} {state : EngineState F Call T}

/-- Nobody is refused where nobody has to wait. -/
theorem admitted_of_sequential
    (reached : (engine.system lib load created).ReachableBy Sequential state)
    (positive : forall op, 0 < (engine.resources op).limiter.cap) {call : Call} {seq : UInt64}
    {served : Option Served} {result : Except FsError T}
    (account : (state.progress call).account = some (seq, served, result)) :
    exists drawn, served = some drawn := by
  have slot := (slotted_of_reachable reached).own call
  have free := unhindered_of_sequential reached positive (load.ctx call).op call
  have refusal : forall phase : Phase, phase.isRefused = true -> phase.unhindered = false := by
    intro phase refused
    cases phase with
    | refused err => rfl
    | _ => cases refused
  cases served with
  | some drawn => exact ⟨drawn, rfl⟩
  | none =>
      have refused : ((state.limiters (load.ctx call).op).phase call).isRefused = true := by
        cases progress : state.progress call with
        | emitted number served reply totalUs =>
            rw [progress] at account slot
            cases account
            exact slot
        | returned number served reply =>
            rw [progress] at account slot
            cases account
            exact slot
        | _ => rw [progress] at account; cases account
      rw [refusal _ refused] at free
      cases free

/-- In a sequential execution every event is the one that the calls determine. -/
theorem replayRow_of_sequential
    (reached : (engine.system lib load created).ReachableBy Sequential state)
    (positive : forall op, 0 < (engine.resources op).limiter.cap) {call : Call} {event : Event}
    (member : (call, event) ∈ state.events) :
    event.replayRow =
      engine.replayRow lib (load.ctx call) (load.body call) (state.number call) := by
  have truthful := truthful_of_reachable reached
  rcases (logged_of_reachable reached).of_mem member with
    ⟨seq, served, result, account, ownSeq, op, ino, offset, len, outcome, errno, latency⟩
  rcases admitted_of_sequential reached positive account with ⟨drawn, rfl⟩
  have seqEq := (numbered_of_reachable reached).number_eq (Progress.seq?_of_account account)
  rcases truthful.draws call seq drawn (Progress.drawn?_of_account account) with ⟨wait, rfl⟩
  have replied : result = SimEngine.reply (engine.draw lib (load.ctx call) seq wait)
      (load.body call) := truthful.answers call _ result (Progress.result?_of_account account)
  unfold Event.replayRow
  rw [ownSeq, op, ino, offset, len, outcome, errno, latency, replied, ← seqEq]
  rfl

/-- Once the calls have returned, the replayable log is a function of the
contexts and the bodies in the order of issue. -/
theorem replayRows_of_sequential
    (reached : (engine.system lib load created).ReachableBy Sequential state)
    (positive : forall op, 0 < (engine.resources op).limiter.cap)
    (rest : forall call, (state.progress call).atRest = true) :
    state.events.map (fun entry => entry.2.replayRow) = engine.replayRows lib
      (state.issued.map (fun call => (load.ctx call, load.body call))) := by
  have numbered := numbered_of_reachable reached
  have issued := (ordered_of_sequential reached).issued_eq rest
  unfold SimEngine.replayRows
  apply List.ext_getElem
  · rw [List.length_mapIdx, issued]
    simp only [List.length_map]
  · intro index bound _
    rw [List.length_map] at bound
    have inIssued : index < state.issued.length := by
      rw [issued, List.length_map]
      exact bound
    have caller : state.issued[index] = state.events[index].1 := by
      simp only [issued, List.getElem_map]
    have row : state.events[index].2.replayRow = engine.replayRow lib
        (load.ctx state.events[index].1) (load.body state.events[index].1)
        (state.number state.events[index].1) :=
      replayRow_of_sequential reached positive (List.getElem_mem bound)
    rw [List.getElem_map, row, ← caller, number, numbered.nodup.idxOf_getElem, List.getElem_mapIdx,
      List.getElem_map]

end Single

end EngineState

/-- Replay and isolation.  The first part relates any two executions with one
seed; the second says what a sequential execution of an accepted configuration
leaves in the log. -/
theorem replay_and_isolation {lib : SamplerLib F} {config other : Config F}
    (accepted : config.validate = .ok ()) (seed : config.seed = other.seed)
    [Fintype Call] [DecidableEq Call] [Fintype Call'] [DecidableEq Call']
    (load : Workload Call T) (load' : Workload Call' T) (created created' : Nat) :
    (forall (state : EngineState F Call T) (state' : EngineState F Call' T),
      ((SimEngine.new config).system lib load created).Reachable state ->
      ((SimEngine.new other).system lib load' created').Reachable state' ->
      forall (call : Call) (call' : Call') (seq : UInt64) (served served' : Served),
        load.ctx call = load'.ctx call' ->
        (state.progress call).drawn? = some (seq, served) ->
        (state'.progress call').drawn? = some (seq, served') ->
        ((SimEngine.new config).choice (load.ctx call)).latency =
          ((SimEngine.new other).choice (load.ctx call)).latency ->
        ((SimEngine.new config).choice (load.ctx call)).faults =
          ((SimEngine.new other).choice (load.ctx call)).faults ->
        (served.latencyUs = served'.latencyUs ∧ served.fault = served'.fault) ∧
        forall event event', (call, event) ∈ state.events -> (call', event') ∈ state'.events ->
          event.injectedLatencyUs = event'.injectedLatencyUs ∧
          forall errno, served.fault = some errno ->
            event.errno = some errno ∧ event'.errno = some errno) ∧
    (forall state : EngineState F Call T,
      ((SimEngine.new config).system lib load created).ReachableBy EngineState.Sequential state ->
      (forall call, (state.progress call).atRest = true) ->
      (forall call, call ∈ state.issued -> exists served result,
        state.progress call =
          .returned (UInt64.ofNat (state.issued.idxOf call)) (some served) result) ∧
      forall state' : EngineState F Call' T,
        ((SimEngine.new config).system lib load' created').ReachableBy
          EngineState.Sequential state' ->
        (forall call, (state'.progress call).atRest = true) ->
        state.issued.map (fun call => (load.ctx call, load.body call)) =
          state'.issued.map (fun call => (load'.ctx call, load'.body call)) ->
        state.events.map (fun entry => entry.2.replayRow) =
          state'.events.map (fun entry => entry.2.replayRow)) := by
  have positive := SimEngine.cap_pos_of_valid accepted
  refine ⟨fun state state' reached reached' call call' seq served served' ctx drawn drawn'
    latency faults => ?_,
    fun state reached rest => ⟨fun call member => ?_, fun state' reached' rest' same => ?_⟩⟩
  · have same := EngineState.drawn_eq reached reached' seed ctx drawn drawn' latency faults
    refine ⟨same, fun event event' member member' => ?_⟩
    have shows := (EngineState.logged_of_reachable reached).shows_drawn
      (EngineState.truthful_of_reachable reached) drawn member
    have shows' := (EngineState.logged_of_reachable reached').shows_drawn
      (EngineState.truthful_of_reachable reached') drawn' member'
    refine ⟨by rw [shows.1, shows'.1, same.1], fun errno fault => ?_⟩
    exact ⟨(shows.2 errno fault).2, (shows'.2 errno (same.2 ▸ fault)).2⟩
  · have numbered := EngineState.numbered_of_reachable reached
    rcases EngineState.returned_of_issued numbered member (rest call) with
      ⟨seq, served, result, ended⟩
    have account : (state.progress call).account = some (seq, served, result) := by
      rw [ended]
      rfl
    rcases EngineState.admitted_of_sequential reached positive account with ⟨drawn, rfl⟩
    have position := numbered.number_eq (Progress.seq?_of_account account)
    exact ⟨drawn, result, by rw [ended, position, EngineState.number]⟩
  · rw [EngineState.replayRows_of_sequential reached positive rest,
      EngineState.replayRows_of_sequential reached' positive rest', same]

/-- Two sequential executions of one configuration, created at different times,
and a third one under a larger cap. -/
theorem replay_and_isolation_steady :
    exists (state state' : EngineState Rat (Fin 2) Unit) (wider : EngineState Rat (Fin 3) Unit),
      (((SimEngine.steady 1).system .silent (.reads (Fin 2)) 0).ReachableBy
        EngineState.Sequential state ∧ state.Finished) ∧
      (((SimEngine.steady 1).system .silent (.reads (Fin 2)) 1000).ReachableBy
        EngineState.Sequential state' ∧ state'.Finished) ∧
      (((SimEngine.steady 64).system .silent (.reads (Fin 3)) 1000).ReachableBy
        EngineState.Sequential wider ∧ wider.Finished) ∧
      state.events.map (fun entry => entry.2.replayRow) =
        state'.events.map (fun entry => entry.2.replayRow) ∧
      forall call call' seq served served',
        (state.progress call).drawn? = some (seq, served) ->
        (wider.progress call').drawn? = some (seq, served') ->
        served.latencyUs = served'.latencyUs := by
  have accepted : (Config.reading (OpPolicy.steady 1)).validate = .ok () := by
    decide +kernel
  have accepted' : (Config.reading (OpPolicy.steady 64)).validate = .ok () := by
    decide +kernel
  rcases SimEngine.exists_steady_run (Fin 2) 0 accepted with ⟨state, reached, finished⟩
  rcases SimEngine.exists_steady_run (Fin 2) 1000 accepted with ⟨state', reached', finished'⟩
  rcases SimEngine.exists_steady_run (Fin 3) 1000 accepted' with ⟨wider, reaches, ended⟩
  refine ⟨state, state', wider, ⟨reached, finished⟩, ⟨reached', finished'⟩, ⟨reaches, ended⟩, ?_,
    fun call call' seq served served' drawn drawn' => ?_⟩
  · rcases replay_and_isolation accepted rfl (.reads (Fin 2)) (.reads (Fin 2)) 0 1000 with
      ⟨-, sequential⟩
    apply (sequential state reached finished.atRest).2 state' reached' finished'.atRest
    have calls := finished.length_issued (EngineState.numbered_of_reachable reached)
    have calls' := finished'.length_issued (EngineState.numbered_of_reachable reached')
    simp only [Workload.reads, List.map_const', calls, calls']
  · have seed : (Config.reading (OpPolicy.steady 1)).seed =
        (Config.reading (OpPolicy.steady 64)).seed := rfl
    rcases replay_and_isolation accepted seed (.reads (Fin 2)) (.reads (Fin 3)) 0 1000 with
      ⟨pair, -⟩
    exact (pair state wider reached.reachable reaches.reachable call call' seq served served' rfl
      drawn drawn' rfl rfl).1.1

/-- The sequence number of the last of `2^64 + 1` calls is not its position. -/
theorem position_exceeds_seq :
    exists state : EngineState Rat (Fin (2 ^ 64 + 1)) Unit,
      ((SimEngine.steady 1).system .silent (.reads (Fin (2 ^ 64 + 1))) 0).ReachableBy
        EngineState.Sequential state ∧ state.Finished ∧
      exists position call, state.issued[position]? = some call ∧
        forall seq served result, state.progress call = .returned seq served result ->
          seq.toNat ≠ position := by
  have accepted : (Config.reading (OpPolicy.steady 1)).validate = .ok () := by
    decide +kernel
  rcases SimEngine.exists_steady_run (Fin (2 ^ 64 + 1)) 0 accepted with ⟨state, reached, finished⟩
  have calls : state.issued.length = 2 ^ 64 + 1 := by
    rw [finished.length_issued (EngineState.numbered_of_reachable reached), Fintype.card_fin]
  have last : 2 ^ 64 < state.issued.length := by omega
  refine ⟨state, reached, finished, 2 ^ 64, state.issued[2 ^ 64], List.getElem?_eq_getElem last, ?_⟩
  intro seq served result _
  exact Nat.ne_of_lt seq.toNat_lt

end Fusecraft
