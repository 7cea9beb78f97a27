import Fusecraft.Engine.Completion

namespace Fusecraft

open Transition

/-!
# Calls issued one after another

A run is sequential if a call starts only where every other call is idle or
has returned.  In such a run at most one call is ever under way, so the
limiter is back to empty before each call, no call waits or is refused, and
the event log has the calls in the order in which they took their numbers.
-/

variable {F Call T : Type}

/-- A new call starts only where no other is under way. -/
def EngineState.Sequential (state : EngineState F Call T) (label : EngineLabel Call) : Prop :=
  forall call now, label = .start call now ->
    forall other, (state.progress other).atRest = true

namespace Progress

/-- The call has a sequence number but no event yet. -/
def unreported (progress : Progress T) : Bool :=
  progress.seq?.isSome && progress.account.isNone

theorem unreported_afterReserve {start : Nat} {seq : UInt64} {served : Served}
    {delay : Duration} {now : Nat} :
    (afterReserve start seq served delay now : Progress T).unreported = true := by
  rw [unreported, seq?_afterReserve, account_afterReserve]
  rfl

theorem atRest_of_unreported {progress : Progress T} (unreported : progress.unreported = true) :
    progress.atRest = false := by
  cases progress with
  | idle => cases unreported
  | returned seq served result => cases unreported
  | _ => rfl

end Progress

/-- A limiter phase of a call that never had to wait. -/
def Phase.unhindered : Phase -> Bool
  | .idle => true
  | .holding queueWait => queueWait = 0
  | .dropped => true
  | _ => false

namespace SimEngine

variable [F64 F] [Fintype Call] [DecidableEq Call]
variable {engine : SimEngine F} {lib : SamplerLib F} {load : Workload Call T}
variable {state next : EngineState F Call T}

/-- A step moves one call only, and a call at rest only by starting it. -/
theorem exists_mover {label : EngineLabel Call}
    (moves : engine.step lib load state label = some next) :
    exists call, (forall other, other ≠ call -> next.progress other = state.progress other) ∧
      ((state.progress call).atRest = true -> exists now, label = .start call now) := by
  have frame : forall {call : Call} {after : Progress T} (other : Call), other ≠ call ->
      Function.update state.progress call after other = state.progress other :=
    fun _ different => Function.update_of_ne different _ _
  cases step_cases moves with
  | advances call _ progress local' =>
      refine ⟨call, frame, fun rest => ?_⟩
      generalize state.progress call = before at local' rest
      cases local' with
      | starts now => exact ⟨now, rfl⟩
      | samples => cases rest
      | sleeps => cases rest
  | takes call start started =>
      exact ⟨call, frame, fun rest => by rw [started] at rest; cases rest⟩
  | queues call _ start seq limiterLabel limiter waits own steps =>
      exact ⟨call, fun _ _ => rfl, fun rest => by rw [waits] at rest; cases rest⟩
  | reserves call now start seq served bucket delay sampled reserved =>
      exact ⟨call, frame, fun rest => by rw [sampled] at rest; cases rest⟩
  | executes call start seq served delay awake =>
      exact ⟨call, frame, fun rest => by rw [awake] at rest; cases rest⟩
  | emits call now unixNanos seq served delay result totalUs settled =>
      refine ⟨call, frame, fun rest => ?_⟩
      cases settled with
      | executed start seq served delay result ran => rw [ran] at rest; cases rest
      | refused start seq err waits refusal => rw [waits] at rest; cases rest
  | records call seq served result totalUs emitted =>
      exact ⟨call, frame, fun rest => by rw [emitted] at rest; cases rest⟩
  | leaves call notifies progress limiter ends steps =>
      refine ⟨call, frame, fun rest => ?_⟩
      generalize state.progress call = before at ends rest
      cases ends <;> cases rest

end SimEngine

namespace EngineState

/-- At most one call is under way. -/
def Alone (state : EngineState F Call T) : Prop :=
  forall call, (state.progress call).atRest = false ->
    forall other, other ≠ call -> (state.progress other).atRest = true

/-- The events have the calls in the order of their numbers; only the call
under way may be missing. -/
def Ordered (state : EngineState F Call T) : Prop :=
  exists pending : Option Call,
    state.issued = state.events.map (fun entry => entry.1) ++ pending.toList ∧
    forall call, call ∈ pending -> (state.progress call).unreported = true

/-- No limiter has ever made a call wait. -/
def Unhindered (state : EngineState F Call T) : Prop :=
  forall op call, ((state.limiters op).phase call).unhindered = true

variable [F64 F] [Fintype Call] [DecidableEq Call]
variable {engine : SimEngine F} {lib : SamplerLib F} {load : Workload Call T} {created : Nat}
variable {state next : EngineState F Call T} {label : EngineLabel Call}

theorem Alone.preserved (alone : state.Alone) (permitted : state.Sequential label)
    (moves : engine.step lib load state label = some next) : next.Alone := by
  rcases SimEngine.exists_mover moves with ⟨call, frame, starting⟩
  have others : forall other, other ≠ call -> (state.progress other).atRest = true := by
    intro other different
    cases resting : (state.progress call).atRest with
    | false => exact alone call resting other different
    | true =>
        rcases starting resting with ⟨now, same⟩
        exact permitted call now same other
  intro active moving other different
  have same : active = call := by
    by_contra apart
    rw [frame active apart, others active apart] at moving
    cases moving
  rw [frame other (same ▸ different)]
  exact others other (same ▸ different)

/-! ## The order of the log -/

omit [F64 F] [Fintype Call] [DecidableEq Call] in
theorem Ordered.keep (ordered : state.Ordered) (issued : next.issued = state.issued)
    (events : next.events = state.events)
    (same : forall call, (next.progress call).unreported = (state.progress call).unreported) :
    next.Ordered := by
  rcases ordered with ⟨pending, order, waits⟩
  refine ⟨pending, by rw [issued, events, order], fun call member => ?_⟩
  rw [same]
  exact waits call member

omit [F64 F] [Fintype Call] in
/-- A call that takes a number is alone, so it becomes the one that is pending. -/
theorem Ordered.take (ordered : state.Ordered) (alone : state.Alone) {call : Call} {start : Nat}
    (started : state.progress call = .started start) {after : Progress T}
    (unreported : after.unreported = true) (issued : next.issued = state.issued ++ [call])
    (events : next.events = state.events)
    (moved : next.progress = Function.update state.progress call after) : next.Ordered := by
  rcases ordered with ⟨pending, order, waits⟩
  have nobody : pending = none := by
    cases pending with
    | none => rfl
    | some other =>
        have busy := Progress.atRest_of_unreported (waits other rfl)
        have different : call ≠ other := by
          rintro rfl
          have numbered := waits call rfl
          rw [started] at numbered
          cases numbered
        have rest := alone other busy call different
        rw [started] at rest
        cases rest
  refine ⟨some call, ?_, ?_⟩
  · rw [issued, events, order, nobody, Option.toList_none, List.append_nil]
    rfl
  · rintro _ ⟨⟩
    rw [moved, Function.update_self]
    exact unreported

omit [F64 F] [Fintype Call] in
/-- The call that emits an event is the one that was pending. -/
theorem Ordered.append (ordered : state.Ordered) (numbered : state.Numbered)
    (logged : state.Logged load) {call : Call} {seq : UInt64} {event : Event}
    (taken : (state.progress call).seq? = some seq)
    (silent : (state.progress call).account = none) (issued : next.issued = state.issued)
    (events : next.events = state.events ++ [(call, event)]) : next.Ordered := by
  rcases ordered with ⟨pending, order, waits⟩
  have member := numbered.mem_issued taken
  rw [order, List.mem_append] at member
  have own : pending = some call := by
    rcases member with reported | waiting
    · rcases List.mem_map.mp reported with ⟨⟨caller, event⟩, entry, rfl⟩
      rcases logged.of_mem entry with ⟨_, _, _, account, -⟩
      rw [silent] at account
      cases account
    · exact Option.mem_toList.mp waiting
  refine ⟨none, ?_, fun _ absent => by cases absent⟩
  rw [issued, events, order, own, List.map_append, Option.toList_none, List.append_nil]
  rfl

theorem Ordered.preserved (ordered : state.Ordered) (alone : state.Alone)
    (numbered : state.Numbered) (logged : state.Logged load)
    (moves : engine.step lib load state label = some next) : next.Ordered := by
  cases SimEngine.step_cases moves with
  | advances call _ progress local' =>
      refine ordered.keep rfl rfl (observe_update Progress.unreported ?_)
      generalize state.progress call = before at local'
      cases local' <;> rfl
  | takes call start started => exact ordered.take alone started rfl rfl rfl rfl
  | queues call _ start seq limiterLabel limiter waits own steps =>
      exact ordered.keep rfl rfl (fun _ => rfl)
  | reserves call now start seq served bucket delay sampled reserved =>
      refine ordered.keep rfl rfl (observe_update Progress.unreported ?_)
      change _ = (state.progress call).unreported
      rw [sampled, Progress.unreported_afterReserve]
      rfl
  | executes call start seq served delay awake =>
      refine ordered.keep rfl rfl (observe_update Progress.unreported ?_)
      rw [awake]
      rfl
  | emits call now unixNanos seq served delay result totalUs settled =>
      have taken : (state.progress call).seq? = some seq := by
        cases settled with
        | executed start seq served delay result ran => rw [ran]; rfl
        | refused start seq err waits refusal => rw [waits]; rfl
      have silent : (state.progress call).account = none := by
        cases settled with
        | executed start seq served delay result ran => rw [ran]; rfl
        | refused start seq err waits refusal => rw [waits]; rfl
      exact ordered.append numbered logged taken silent rfl rfl
  | records call seq served result totalUs emitted =>
      refine ordered.keep rfl rfl (observe_update Progress.unreported ?_)
      rw [emitted]
      cases served <;> rfl
  | leaves call notifies progress limiter ends steps =>
      refine ordered.keep rfl rfl (observe_update Progress.unreported ?_)
      change _ = (state.progress call).unreported
      generalize state.progress call = before at ends
      cases ends <;> rfl

/-! ## No waiting -/

/-- Where the other calls are at rest, the limiter of a call that has not
asked it yet is empty. -/
theorem inflight_zero (reached : (engine.system lib load created).Reachable state)
    {call : Call} (idle : ((state.limiters (load.ctx call).op).phase call) = .idle)
    (others : forall other, other ≠ call -> (state.progress other).atRest = true) :
    (state.limiters (load.ctx call).op).state.inflight = 0 := by
  refine ((SimEngine.limiter_counted reached _).free (fun other => ?_)).1
  by_cases same : other = call
  · subst same
    rw [idle]
    exact ⟨rfl, rfl, rfl⟩
  · exact (slotted_of_reachable reached).released (others other same) _

omit [F64 F] [Fintype Call] [DecidableEq Call] in
/-- A step of one limiter makes nobody wait if its own calls do not. -/
theorem Unhindered.limiter (unhindered : state.Unhindered) {op : FsOp}
    {limiter : LimiterSystem Call} (free : forall call, (limiter.phase call).unhindered = true)
    (limiters : next.limiters = Function.update state.limiters op limiter) :
    next.Unhindered := by
  intro other call
  rw [limiters]
  by_cases same : other = op
  · subst same
    rw [Function.update_self]
    exact free call
  · rw [Function.update_of_ne same]
    exact unhindered other call

/-- An acquisition in a sequential run finds a free slot, and it is the only
step that the limiter makes before the slot is returned. -/
theorem Unhindered.queues (unhindered : state.Unhindered)
    (reached : (engine.system lib load created).Reachable state) {call : Call}
    (others : forall other, other ≠ call -> (state.progress other).atRest = true)
    (positive : 0 < (engine.resources (load.ctx call).op).limiter.cap)
    {label : LimiterLabel Call} (own : SimEngine.Queues call label)
    {limiter : LimiterSystem Call} (steps : (state.limiters (load.ctx call).op).step
      (engine.resources (load.ctx call).op).limiter label = some limiter) (other : Call) :
    (limiter.phase other).unhindered = true := by
  have here := unhindered (load.ctx call).op call
  cases own with
  | acquire now =>
      cases phase : (state.limiters (load.ctx call).op).phase call with
      | idle =>
          have empty := inflight_zero reached phase others
          rw [LimiterSystem.step_acquire_free phase (empty ▸ positive)] at steps
          cases steps
          change (Function.update (state.limiters _).phase call (.holding 0) other).unhindered =
            true
          by_cases same : other = call
          · subst same
            rw [Function.update_self]
            rfl
          · rw [Function.update_of_ne same]
            exact unhindered _ other
      | _ => simp [LimiterSystem.step, phase] at steps
  | spurious =>
      cases phase : (state.limiters (load.ctx call).op).phase call with
      | parked waiter => rw [phase] at here; cases here
      | _ => simp [LimiterSystem.step, phase] at steps
  | wake now =>
      cases phase : (state.limiters (load.ctx call).op).phase call with
      | notified waiter => rw [phase] at here; cases here
      | awake waiter timedOut => rw [phase] at here; cases here
      | _ => simp [LimiterSystem.step, phase] at steps

/-- Dropping a guard wakes nobody where nobody sleeps. -/
theorem Unhindered.leaves (unhindered : state.Unhindered)
    (reached : (engine.system lib load created).Reachable state) {call : Call}
    {notifies : Option Call} {limiter : LimiterSystem Call}
    (steps : (state.limiters (load.ctx call).op).step
      (engine.resources (load.ctx call).op).limiter (.drop call notifies) = some limiter)
    (other : Call) : (limiter.phase other).unhindered = true := by
  rcases LimiterSystem.phase_of_drop (SimEngine.limiter_counted reached _) steps with
    ⟨dropped, others⟩
  by_cases same : other = call
  · subst same
    rw [dropped]
    rfl
  · rcases others other same with unmoved | ⟨waiter, parked, -⟩
    · rw [unmoved]
      exact unhindered _ other
    · have here := unhindered (load.ctx call).op other
      rw [parked] at here
      cases here

theorem Unhindered.preserved (unhindered : state.Unhindered) (alone : state.Alone)
    (reached : (engine.system lib load created).Reachable state)
    (positive : forall op, 0 < (engine.resources op).limiter.cap)
    (moves : engine.step lib load state label = some next) : next.Unhindered := by
  cases SimEngine.step_cases moves with
  | queues call _ start seq limiterLabel limiter waits own steps =>
      have others := alone call (by rw [waits]; rfl)
      exact unhindered.limiter (unhindered.queues reached others (positive _) own steps) rfl
  | leaves call notifies progress limiter ends steps =>
      exact unhindered.limiter (unhindered.leaves reached steps) rfl
  | _ => exact unhindered

/-! ## Every sequential run -/

theorem alone_of_sequential
    (reached : (engine.system lib load created).ReachableBy Sequential state) : state.Alone :=
  reached.invariant Alone (fun _ busy => by cases busy)
    (fun _ _ _ _ permitted moves alone => alone.preserved permitted moves)

theorem ordered_of_sequential
    (reached : (engine.system lib load created).ReachableBy Sequential state) : state.Ordered :=
  reached.invariant Ordered ⟨none, rfl, fun _ absent => by cases absent⟩
    (fun _ _ _ before _ moves ordered => ordered.preserved (alone_of_sequential before)
      (numbered_of_reachable before) (logged_of_reachable before) moves)

theorem unhindered_of_sequential
    (reached : (engine.system lib load created).ReachableBy Sequential state)
    (positive : forall op, 0 < (engine.resources op).limiter.cap) : state.Unhindered :=
  reached.invariant Unhindered (fun _ _ => rfl)
    (fun _ _ _ before _ moves unhindered => unhindered.preserved (alone_of_sequential before)
      before.reachable positive moves)

omit [F64 F] [Fintype Call] [DecidableEq Call] in
/-- Once all calls are at rest, the log has exactly the issued calls, in order. -/
theorem Ordered.issued_eq (ordered : state.Ordered)
    (rest : forall call, (state.progress call).atRest = true) :
    state.issued = state.events.map (fun entry => entry.1) := by
  rcases ordered with ⟨pending, order, waits⟩
  cases pending with
  | none => rw [order, Option.toList_none, List.append_nil]
  | some call =>
      have busy := Progress.atRest_of_unreported (waits call rfl)
      rw [rest call] at busy
      cases busy

/-! ## Sequential runs exist -/

/-- From a sequential state at rest an idle call can be taken to its return, if
its op has a slot and its profile limits no bandwidth. -/
theorem exists_return (reached : (engine.system lib load created).ReachableBy Sequential state)
    (rest : forall call, (state.progress call).atRest = true) {call : Call}
    (fresh : state.progress call = .idle)
    (positive : 0 < (engine.resources (load.ctx call).op).limiter.cap)
    (unlimited : (engine.choice (load.ctx call)).bandwidth = none) :
    exists next seq served result,
      (engine.system lib load created).ReachableBy Sequential next ∧
      next.progress = Function.update state.progress call (.returned seq served result) ∧
      next.issued = state.issued ++ [call] := by
  have slotted := slotted_of_reachable reached
  have idle : (state.limiters (load.ctx call).op).phase call = .idle := by
    have slot := slotted.own call
    rw [fresh] at slot
    exact slot
  have empty := inflight_zero reached.reachable idle (fun other _ => rest other)
  rcases SimEngine.exists_drawing engine lib created slotted fresh (empty ▸ positive) 0 with
    ⟨drawn, draws, progress, issued, -⟩
  rw [System.run_cons, Option.bind_eq_some_iff] at draws
  rcases draws with ⟨started, starts, draws⟩
  have first : (engine.system lib load created).ReachableBy Sequential started :=
    .step reached (fun _ _ _ => rest) starts
  have second : (engine.system lib load created).ReachableBy Sequential drawn := by
    refine first.extend _ (fun before label member other now same => ?_) draws
    subst same
    simp [SimEngine.drawing] at member
  have sampled : drawn.progress call =
      .sampled 0 state.seq (engine.draw lib (load.ctx call) state.seq 0) := by
    rw [progress]
    exact Function.update_self ..
  rcases SimEngine.exists_sleep_unlimited lib sampled unlimited 0 with
    ⟨asleep, sleeps, sleeping, unissued⟩
  have third : (engine.system lib load created).ReachableBy Sequential asleep :=
    second.extend [.reserve call 0]
      (fun _ _ member _ _ same => by rw [same] at member; simp at member)
      (by rw [System.run_cons]; exact Option.bind_eq_some_iff.mpr ⟨asleep, sleeps, rfl⟩)
  rcases SimEngine.exists_finishing third (by rw [sleeping]; exact Function.update_self ..) 0 0 with
    ⟨notifies, finish, finishes, ended, last, -⟩
  rw [sleeping, progress, Function.update_idem, Function.update_idem] at ended
  refine ⟨finish, _, _, _, third.extend _ (fun before label member other now same => ?_) finishes,
    ended, by rw [last, unissued, issued]⟩
  subst same
  simp [SimEngine.finishing] at member

/-- Any list of distinct calls can be issued in this order, each returning
before the next one starts. -/
theorem exists_sequential (positive : forall op, 0 < (engine.resources op).limiter.cap)
    (unlimited : forall ctx, (engine.choice ctx).bandwidth = none) (calls : List Call)
    (nodup : calls.Nodup) :
    exists state : EngineState F Call T,
      (engine.system lib load created).ReachableBy Sequential state ∧
      (forall call, (state.progress call).atRest = true) ∧
      state.issued = calls := by
  induction calls using List.reverseRecOn with
  | nil => exact ⟨engine.initial created, .init, fun _ => rfl, rfl⟩
  | append_singleton earlier call ih =>
      rcases List.nodup_append.mp nodup with ⟨before, -, apart⟩
      rcases ih before with ⟨state, reached, rest, issued⟩
      have fresh : state.progress call = .idle := by
        have numbered := numbered_of_reachable reached
        have resting := rest call
        cases progress : state.progress call with
        | idle => rfl
        | returned seq served result =>
            have member := numbered.mem_issued
              (show (state.progress call).seq? = some seq by rw [progress]; rfl)
            rw [issued] at member
            exact absurd rfl (apart call member call (List.mem_singleton_self call))
        | _ => rw [progress] at resting; cases resting
      rcases exists_return reached rest fresh (positive _) (unlimited _) with
        ⟨next, seq, served, result, reaches, progress, last⟩
      refine ⟨next, reaches, fun other => ?_, by rw [last, issued]⟩
      rw [progress]
      by_cases same : other = call
      · subst same
        rw [Function.update_self]
        rfl
      · rw [Function.update_of_ne same]
        exact rest other

omit [F64 F] [Fintype Call] [DecidableEq Call] in
/-- A call that was issued and is at rest has returned. -/
theorem returned_of_issued (numbered : state.Numbered) {call : Call} (issued : call ∈ state.issued)
    (rest : (state.progress call).atRest = true) :
    exists seq served result, state.progress call = .returned seq served result := by
  cases progress : state.progress call with
  | idle => exact absurd issued (numbered.fresh call (by rw [progress]; rfl))
  | returned seq served result => exact ⟨seq, served, result, rfl⟩
  | _ => rw [progress] at rest; cases rest

end EngineState

/-! ## Engines of accepted configurations -/

/-- In the engine of an accepted configuration every limiter has a slot. -/
theorem SimEngine.cap_pos_of_valid [F64 F] {config : Config F} (accepted : config.validate = .ok ())
    (op : FsOp) : 0 < ((SimEngine.new config).resources op).limiter.cap := by
  change 0 < ((config.ops.get op).getD .default).concurrencyCap
  cases present : config.ops.get op with
  | none => exact Nat.zero_lt_succ _
  | some policy => exact concurrencyCap_pos_of_valid (config.validate_policy accepted present)

/-- A policy under which nothing is drawn: every read takes five microseconds,
with no fault and no limit on bandwidth. -/
def OpPolicy.steady (cap : Nat) : OpPolicy Rat :=
  { OpPolicy.default with
    concurrencyCap := cap
    latency := { LatencyProfile.default with baseUs := 5, lognormalMedianUs := 0 } }

/-- A sampling library for engines that draw nothing. -/
def SamplerLib.silent : SamplerLib Rat where
  seedFromU64 := fun _ _ => 0
  minPositive := 0
  pi := 0
  ln := id
  exp := id
  sqrt := id
  cos := id
  powf := fun value _ => value

/-- The engine under the steady policy. -/
def SimEngine.steady (cap : Nat) : SimEngine Rat := .new (Config.reading (.steady cap))

theorem SimEngine.steady_unlimited (cap : Nat) (ctx : OpContext) :
    ((SimEngine.steady cap).choice ctx).bandwidth = none := by
  rcases ctx with ⟨op, ino, offset, len, requestedLen⟩
  cases op <;> rfl

/-- A read that succeeds, as every call of a workload. -/
def Workload.reads (Call : Type) : Workload Call Unit where
  ctx := fun _ => { op := .read, ino := 100, offset := 0, len := 4096, requestedLen := 4096 }
  body := fun _ => .ok ()

/-- Any number of reads can be served one after another. -/
theorem SimEngine.exists_steady_run (Call : Type) [Fintype Call] [DecidableEq Call] {cap : Nat}
    (created : Nat) (accepted : (Config.reading (OpPolicy.steady cap)).validate = .ok ()) :
    exists state : EngineState Rat Call Unit,
      ((SimEngine.steady cap).system .silent (.reads Call) created).ReachableBy
        EngineState.Sequential state ∧ state.Finished := by
  rcases EngineState.exists_sequential (SimEngine.cap_pos_of_valid accepted)
    (SimEngine.steady_unlimited cap) (Finset.univ : Finset Call).toList
    (Finset.nodup_toList _) with ⟨state, reached, rest, issued⟩
  refine ⟨state, reached, fun call => ?_⟩
  have member : call ∈ state.issued := by
    rw [issued]
    exact Finset.mem_toList.mpr (Finset.mem_univ call)
  rcases EngineState.returned_of_issued (EngineState.numbered_of_reachable reached) member
    (rest call) with ⟨seq, served, result, ended⟩
  rw [ended]
  rfl

end Fusecraft
