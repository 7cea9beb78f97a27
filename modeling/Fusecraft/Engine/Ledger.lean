import Fusecraft.Engine.Draws

namespace Fusecraft

open Counting

/-!
# One op, one event, one sample, one slot

What a call has done by the time it returns, whatever happened around it, and
what the shared stores hold when all calls have returned.  Sequence numbers
are 64-bit, so what is unconditional is their value as positions modulo
`2^64`; they are distinct as long as no more than `2^64` calls were made.
-/

namespace LimiterSystem

variable {Call : Type} [Fintype Call] {limiter : BlockingLimiter} {system : LimiterSystem Call}

/-- A limiter that nobody holds or waits for is as free as it was at first. -/
theorem Counted.free (counted : system.Counted limiter)
    (nobody : forall call, (system.phase call).isHolding = false ∧
      (system.phase call).isQueued = false ∧ (system.phase call).isUnwound = false) :
    system.state.inflight = 0 ∧ system.state.queued = 0 := by
  have holding : system.number Phase.isHolding = 0 :=
    (count_eq_zero_iff _ _).mpr (fun call => (nobody call).1)
  have waiting : system.number Phase.isQueued = 0 :=
    (count_eq_zero_iff _ _).mpr (fun call => (nobody call).2.1)
  have unwound : system.number Phase.isUnwound = 0 :=
    (count_eq_zero_iff _ _).mpr (fun call => (nobody call).2.2)
  exact ⟨counted.inflight.trans holding, by rw [counted.queued, waiting, unwound]⟩

end LimiterSystem

variable {F Call T : Type}

namespace Progress

/-- The call has not begun, or it is over and returned. -/
def atRest : Progress T -> Bool
  | idle => true
  | returned _ _ _ => true
  | _ => false

/-- The call is over and returned. -/
def isReturned : Progress T -> Bool
  | returned _ _ _ => true
  | _ => false

/-- A call that is at rest holds no slot and waits for none. -/
theorem Fits.released {progress : Progress T} {phase : Phase} (fits : progress.Fits phase)
    (rest : progress.atRest = true) :
    phase.isHolding = false ∧ phase.isQueued = false ∧ phase.isUnwound = false := by
  cases progress with
  | idle =>
      rw [show phase = .idle from fits]
      exact ⟨rfl, rfl, rfl⟩
  | returned seq served result =>
      cases served with
      | none => cases phase <;> first | exact ⟨rfl, rfl, rfl⟩ | cases fits
      | some served =>
          rw [show phase = .dropped from fits]
          exact ⟨rfl, rfl, rfl⟩
  | _ => cases rest

theorem seq?_of_account {progress : Progress T} {seq : UInt64} {served : Option Served}
    {result : Except FsError T} (account : progress.account = some (seq, served, result)) :
    progress.seq? = some seq := by
  cases progress with
  | emitted number drawn reply totalUs => cases account; rfl
  | recorded number drawn reply => cases account; rfl
  | returned number drawn reply => cases account; rfl
  | _ => cases account

end Progress

namespace EngineState

variable {state : EngineState F Call T} {load : Workload Call T}

theorem Slotted.released (slotted : state.Slotted load) {call : Call}
    (rest : (state.progress call).atRest = true) (op : FsOp) :
    ((state.limiters op).phase call).isHolding = false ∧
      ((state.limiters op).phase call).isQueued = false ∧
      ((state.limiters op).phase call).isUnwound = false := by
  by_cases own : op = (load.ctx call).op
  · subst own
    exact (slotted.own call).released rest
  · rw [slotted.other call op own]
    exact ⟨rfl, rfl, rfl⟩

/-! ## Sequence numbers of the events -/

variable [DecidableEq Call]

/-- The sequence number of a call, by its place in the order of issue. -/
def number (state : EngineState F Call T) (call : Call) : UInt64 :=
  UInt64.ofNat (state.issued.idxOf call)

theorem Numbered.number_eq (numbered : state.Numbered) {call : Call} {seq : UInt64}
    (taken : (state.progress call).seq? = some seq) : seq = state.number call := by
  rcases numbered.position call seq taken with ⟨index, found, value⟩
  rcases List.getElem?_eq_some_iff.mp found with ⟨bound, here⟩
  rw [value, number, ← here, numbered.nodup.idxOf_getElem]

omit [DecidableEq Call] in
theorem Numbered.mem_issued (numbered : state.Numbered) {call : Call} {seq : UInt64}
    (taken : (state.progress call).seq? = some seq) : call ∈ state.issued := by
  rcases numbered.position call seq taken with ⟨index, found, -⟩
  exact List.mem_of_getElem? found

/-- In order of issue the numbers count up from zero. -/
theorem Numbered.map_number (numbered : state.Numbered) :
    state.issued.map state.number = (List.range state.issued.length).map UInt64.ofNat := by
  apply List.ext_getElem
  · rw [List.length_map, List.length_map, List.length_range]
  · intro index bound _
    rw [List.getElem_map, List.getElem_map, List.getElem_range, number,
      numbered.nodup.idxOf_getElem]

/-- Up to `2^64` calls no number comes twice. -/
theorem number_injective (few : state.issued.length ≤ 2 ^ 64) {first second : Call}
    (here : first ∈ state.issued) (there : second ∈ state.issued)
    (same : state.number first = state.number second) :
    first = second := by
  have bound : forall call, call ∈ state.issued ->
      (state.number call).toNat = state.issued.idxOf call := by
    intro call member
    exact Nat.mod_eq_of_lt (lt_of_lt_of_le (List.idxOf_lt_length_of_mem member) few)
  have index := congrArg UInt64.toNat same
  rw [bound first here, bound second there] at index
  exact (List.idxOf_inj here).mp index

/-- An event in the log accounts for its call. -/
theorem Logged.of_mem (logged : state.Logged load) {call : Call} {event : Event}
    (member : (call, event) ∈ state.events) :
    exists seq served result, (state.progress call).account = some (seq, served, result) ∧
      Describes (load.ctx call) seq served result event := by
  have entry : (call, event) ∈ state.entriesOf call :=
    List.mem_filter.mpr ⟨member, decide_eq_true rfl⟩
  cases account : (state.progress call).account with
  | none =>
      rw [logged.silent call account] at entry
      cases entry
  | some reported =>
      rcases reported with ⟨seq, served, result⟩
      rcases logged.reported call seq served result account with ⟨own, entries, describes⟩
      rw [entries, List.mem_singleton, Prod.mk.injEq] at entry
      exact ⟨seq, served, result, rfl, entry.2 ▸ describes⟩

/-- No call has two events. -/
theorem Logged.nodup (logged : state.Logged load) :
    (state.events.map (fun entry => entry.1)).Nodup := by
  rw [List.nodup_iff_count_le_one]
  intro call
  have entries : (state.events.map (fun entry => entry.1)).count call =
      (state.entriesOf call).length := by
    rw [List.count_eq_countP, List.countP_map, List.countP_eq_length_filter, entriesOf]
    congr 2
  rw [entries]
  cases account : (state.progress call).account with
  | none =>
      rw [logged.silent call account]
      exact Nat.zero_le 1
  | some reported =>
      rcases reported with ⟨seq, served, result⟩
      rcases logged.reported call seq served result account with ⟨own, entries, -⟩
      rw [entries]
      exact Nat.le_refl 1

/-- Every event carries the number of its call. -/
theorem Logged.map_seq (logged : state.Logged load) (numbered : state.Numbered) :
    state.events.map (fun entry => entry.2.seq) =
      (state.events.map (fun entry => entry.1)).map state.number := by
  rw [List.map_map]
  apply List.map_congr_left
  rintro ⟨call, event⟩ member
  rcases logged.of_mem member with ⟨seq, served, result, account, describes⟩
  exact describes.1.trans (numbered.number_eq (Progress.seq?_of_account account))

/-- The callers of the events took a number. -/
theorem Logged.mem_issued (logged : state.Logged load) (numbered : state.Numbered) {call : Call}
    (member : call ∈ state.events.map (fun entry => entry.1)) : call ∈ state.issued := by
  rcases List.mem_map.mp member with ⟨⟨caller, event⟩, entry, rfl⟩
  rcases logged.of_mem entry with ⟨seq, served, result, account, -⟩
  exact numbered.mem_issued (Progress.seq?_of_account account)

theorem Logged.nodup_seq (logged : state.Logged load) (numbered : state.Numbered)
    (few : state.issued.length ≤ 2 ^ 64) :
    (state.events.map (fun entry => entry.2.seq)).Nodup := by
  rw [logged.map_seq numbered]
  apply logged.nodup.map_on
  intro first here second there same
  exact number_injective few (logged.mem_issued numbered here)
    (logged.mem_issued numbered there) same

/-! ## When every call has returned -/

/-- Every call has returned. -/
def Finished (state : EngineState F Call T) : Prop :=
  forall call, (state.progress call).isReturned = true

omit [DecidableEq Call] in
theorem Finished.returned (finished : state.Finished) (call : Call) :
    exists seq served result, state.progress call = .returned seq served result := by
  have ended := finished call
  cases progress : state.progress call with
  | returned seq served result => exact ⟨seq, served, result, rfl⟩
  | _ => rw [progress] at ended; cases ended

omit [DecidableEq Call] in
theorem Finished.atRest (finished : state.Finished) (call : Call) :
    (state.progress call).atRest = true := by
  rcases finished.returned call with ⟨seq, served, result, ended⟩
  rw [ended]
  rfl

/-- The log then has the calls in some order, and no others. -/
theorem Finished.perm_issued (finished : state.Finished) (logged : state.Logged load)
    (numbered : state.Numbered) :
    (state.events.map (fun entry => entry.1)).Perm state.issued := by
  apply (List.perm_ext_iff_of_nodup logged.nodup numbered.nodup).mpr
  intro call
  refine ⟨logged.mem_issued numbered, fun _ => ?_⟩
  rcases finished.returned call with ⟨seq, served, result, ended⟩
  rcases logged.reported call seq served result (by rw [ended]; rfl) with ⟨event, entries, -⟩
  have entry : (call, event) ∈ state.entriesOf call := by
    rw [entries]
    exact List.mem_singleton_self _
  exact List.mem_map.mpr ⟨(call, event), (List.mem_filter.mp entry).1, rfl⟩

variable [Fintype Call]

theorem Finished.length_issued (finished : state.Finished) (numbered : state.Numbered) :
    state.issued.length = Fintype.card Call := by
  rw [← List.toFinset_card_of_nodup numbered.nodup]
  congr 1
  apply Finset.eq_univ_of_forall
  intro call
  rcases finished.returned call with ⟨seq, served, result, ended⟩
  have taken : (state.progress call).seq? = some seq := by
    rw [ended]
    rfl
  exact List.mem_toFinset.mpr (numbered.mem_issued taken)

omit [DecidableEq Call] in
/-- Nothing is pending, so the counters agree with the log. -/
theorem Finished.counter (finished : state.Finished) (booked : state.Booked load) (op : FsOp)
    (outcome : Outcome) :
    state.metrics.counter op outcome = UInt64.ofNat (state.eventCount op outcome) := by
  have settled : state.pending load op outcome = 0 := by
    apply (count_eq_zero_iff _ _).mpr
    intro call
    rcases finished.returned call with ⟨seq, served, result, ended⟩
    simp [owes, ended, Progress.pendingOutcome]
  rw [← booked op outcome, settled]
  exact (UInt64.add_zero _).symm

/-- The number of events of an op. -/
def eventsOf (state : EngineState F Call T) (op : FsOp) : Nat :=
  state.events.countP (fun entry => entry.2.op = op)

omit [Fintype Call] [DecidableEq Call] in
theorem eventsOf_eq (state : EngineState F Call T) (op : FsOp) :
    state.eventsOf op = state.eventCount op .ok + state.eventCount op .error := by
  unfold eventsOf eventCount
  generalize state.events = entries
  induction entries with
  | nil => rfl
  | cons entry rest ih =>
      rw [List.countP_cons, List.countP_cons, List.countP_cons, ih]
      by_cases own : entry.2.op = op
      · cases outcome : entry.2.outcome <;> simp [own] <;> omega
      · simp [own]

omit [DecidableEq Call] in
/-- What the summary says of an op, read off the log. -/
theorem Finished.summary (finished : state.Finished) (booked : state.Booked load)
    (valueAtPercentile : List UInt64 -> Nat -> UInt64) (op : FsOp)
    (few : state.eventsOf op < 2 ^ 64) :
    match (state.metrics.summary valueAtPercentile).find? (fun entry => entry.op = op) with
    | some entry => entry.count.toNat = state.eventsOf op ∧
        entry.errors.toNat = state.eventCount op .error
    | none => state.eventsOf op = 0 := by
  have split := state.eventsOf_eq op
  have ok := finished.counter booked op .ok
  have error := finished.counter booked op .error
  have total : (state.metrics.counter op .ok + state.metrics.counter op .error).toNat =
      state.eventsOf op := by
    rw [ok, error, ← UInt64.ofNat_add, ← split]
    exact Nat.mod_eq_of_lt few
  have counts := HistogramRecorder.find_summary_counters valueAtPercentile state.metrics op
  cases found : (state.metrics.summary valueAtPercentile).find? (fun entry => entry.op = op) with
  | some entry =>
      rw [found] at counts
      refine ⟨by rw [counts.1, total], ?_⟩
      rw [counts.2, error]
      exact Nat.mod_eq_of_lt (by omega)
  | none =>
      rw [found] at counts
      rw [← total, counts]
      rfl

variable [F64 F] {engine : SimEngine F} {lib : SamplerLib F} {created : Nat}

/-- What a returned call has done, in any run of the engine. -/
theorem returned_spec (reached : (engine.system lib load created).Reachable state) {call : Call}
    {seq : UInt64} {served : Option Served} {result : Except FsError T}
    (ended : state.progress call = .returned seq served result) :
    state.bodyRuns call =
        (if ((state.limiters (load.ctx call).op).phase call).isDropped = true ∧
            sampleFault lib (engine.choice (load.ctx call)).faults
              (engine.sampleKey (load.ctx call) seq) = none then 1 else 0) ∧
      exists event, state.entriesOf call = [(call, event)] ∧
        Describes (load.ctx call) seq served result event := by
  have slot := (slotted_of_reachable reached).own call
  have ran := ran_of_reachable reached call
  have account : (state.progress call).account = some (seq, served, result) := by
    rw [ended]
    rfl
  refine ⟨?_, (logged_of_reachable reached).reported call seq served result account⟩
  rw [ended] at slot ran
  cases served with
  | none =>
      rw [ran, if_neg (fun admitted => ?_)]
      · rfl
      · have refused : Phase.isRefused _ = true := slot
        revert refused
        cases phase : (state.limiters (load.ctx call).op).phase call with
        | dropped => exact Bool.false_ne_true
        | _ => rw [phase] at admitted; exact absurd admitted.1 Bool.false_ne_true
  | some served =>
      rcases (truthful_of_reachable reached).draws call seq served
        (Progress.drawn?_of_account account) with ⟨queueWait, rfl⟩
      rw [ran, show (state.limiters (load.ctx call).op).phase call = .dropped from slot]
      change (if (sampleFault lib _ _).isNone = true then 1 else 0) = _
      simp only [Option.isNone_iff_eq_none, Phase.isDropped, true_and]

end EngineState

end Fusecraft
