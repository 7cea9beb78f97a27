import Fusecraft.Engine.Books

namespace Fusecraft

/-!
# What the calls draw and return

From the moment a call has its slot, it carries the fault and the latency that
it drew.  Nothing later changes them, and the call's result is decided by the
fault and by the body alone.  A draw is a function of the seed, the context,
the sequence number and the chosen profiles; the queue wait is the only part
of it that the schedule can reach.
-/

variable {F Call T : Type}

namespace Progress

/-- The sequence number and the draw of a call that was admitted. -/
def drawn? : Progress T -> Option (UInt64 × Served)
  | sampled _ seq served => some (seq, served)
  | sleeping _ seq served _ _ _ => some (seq, served)
  | ready _ seq served _ => some (seq, served)
  | executed _ seq served _ _ => some (seq, served)
  | emitted seq (some served) _ _ => some (seq, served)
  | recorded seq served _ => some (seq, served)
  | returned seq (some served) _ => some (seq, served)
  | unwinding seq served => some (seq, served)
  | panicked seq served => some (seq, served)
  | _ => none

/-- The draw and the result of a call that has one; a refused call drew nothing. -/
def result? : Progress T -> Option (Option Served × Except FsError T)
  | executed _ _ served _ result => some (some served, result)
  | emitted _ served result _ => some (served, result)
  | recorded _ served result => some (some served, result)
  | returned _ served result => some (served, result)
  | _ => none

theorem drawn?_afterReserve {start : Nat} {seq : UInt64} {served : Served} {delay : Duration}
    {now : Nat} :
    (afterReserve start seq served delay now : Progress T).drawn? = some (seq, served) := by
  unfold afterReserve
  split <;> rfl

theorem result?_afterReserve {start : Nat} {seq : UInt64} {served : Served} {delay : Duration}
    {now : Nat} : (afterReserve start seq served delay now : Progress T).result? = none := by
  unfold afterReserve
  split <;> rfl

/-- A call that has emitted its event still carries its draw, if it was admitted. -/
theorem drawn?_of_account {progress : Progress T} {seq : UInt64} {served : Option Served}
    {result : Except FsError T} (account : progress.account = some (seq, served, result)) :
    progress.drawn? = served.map (fun drawn => (seq, drawn)) := by
  cases progress with
  | emitted number drawn reply totalUs => cases account; cases served <;> rfl
  | recorded number drawn reply => cases account; rfl
  | returned number drawn reply => cases account; cases served <;> rfl
  | _ => cases account

/-- The account of a call holds its result. -/
theorem result?_of_account {progress : Progress T} {seq : UInt64} {served : Option Served}
    {result : Except FsError T} (account : progress.account = some (seq, served, result)) :
    progress.result? = some (served, result) := by
  cases progress with
  | emitted number drawn reply totalUs => cases account; rfl
  | recorded number drawn reply => cases account; rfl
  | returned number drawn reply => cases account; rfl
  | _ => cases account

end Progress

namespace SimEngine

variable [F64 F]

/-- A result is what the draw and the body make of it; a refused call returns
the errno of the refusal. -/
def Answers (body : Except FsError T) : Option Served -> Except FsError T -> Prop
  | some served, result => result = reply served body
  | none, result => exists errno, result = .error (.errno errno)

/-- Two engines with one seed draw the same latency and the same fault for one
context and one sequence number, if the chosen profiles agree. -/
theorem draw_eq {first second : SimEngine F} {lib : SamplerLib F} {ctx : OpContext}
    (seed : first.seed = second.seed)
    (latency : (first.choice ctx).latency = (second.choice ctx).latency)
    (faults : (first.choice ctx).faults = (second.choice ctx).faults) (seq : UInt64)
    (firstWait secondWait : Nat) :
    (first.draw lib ctx seq firstWait).latencyUs = (second.draw lib ctx seq secondWait).latencyUs ∧
      (first.draw lib ctx seq firstWait).fault = (second.draw lib ctx seq secondWait).fault := by
  have key : first.sampleKey ctx seq = second.sampleKey ctx seq := by
    unfold sampleKey
    rw [seed]
  constructor
  · change sampleLatencyUs lib _ _ = sampleLatencyUs lib _ _
    rw [latency, key]
  · change sampleFault lib _ _ = sampleFault lib _ _
    rw [faults, key]

end SimEngine

namespace EngineState

variable [F64 F]

/-- Every call carries a draw of its own, and the result that follows from it. -/
structure Truthful (engine : SimEngine F) (lib : SamplerLib F) (load : Workload Call T)
    (state : EngineState F Call T) : Prop where
  draws : forall call seq served, (state.progress call).drawn? = some (seq, served) ->
    exists queueWait, served = engine.draw lib (load.ctx call) seq queueWait
  answers : forall call served result, (state.progress call).result? = some (served, result) ->
    SimEngine.Answers (load.body call) served result

variable {state next : EngineState F Call T} {engine : SimEngine F} {lib : SamplerLib F}
  {load : Workload Call T}

section Steps

variable [DecidableEq Call]

/-- A step keeps the draws and the results right if it does for its own call. -/
theorem Truthful.move (truthful : state.Truthful engine lib load) {call : Call}
    {after : Progress T}
    (draws : forall seq served, after.drawn? = some (seq, served) ->
      exists queueWait, served = engine.draw lib (load.ctx call) seq queueWait)
    (answers : forall served result, after.result? = some (served, result) ->
      SimEngine.Answers (load.body call) served result)
    (moved : next.progress = Function.update state.progress call after) :
    next.Truthful engine lib load := by
  constructor
  · rw [moved]
    intro other
    by_cases same : other = call
    · subst same
      rw [Function.update_self]
      exact draws
    · rw [Function.update_of_ne same]
      exact truthful.draws other
  · rw [moved]
    intro other
    by_cases same : other = call
    · subst same
      rw [Function.update_self]
      exact answers
    · rw [Function.update_of_ne same]
      exact truthful.answers other

/-- In particular if the call keeps what it has. -/
theorem Truthful.keep (truthful : state.Truthful engine lib load) {call : Call}
    {after : Progress T} (draws : after.drawn? = (state.progress call).drawn?)
    (answers : after.result? = (state.progress call).result?)
    (moved : next.progress = Function.update state.progress call after) :
    next.Truthful engine lib load :=
  truthful.move (fun seq served drawn => truthful.draws call seq served (draws.symm.trans drawn))
    (fun served result replied => truthful.answers call served result (answers.symm.trans replied))
    moved

variable [Fintype Call]

theorem Truthful.preserved (truthful : state.Truthful engine lib load)
    {label : EngineLabel Call} (moves : engine.step lib load state label = some next) :
    next.Truthful engine lib load := by
  cases SimEngine.step_cases moves with
  | advances call _ progress local' =>
      generalize stage : state.progress call = before at local'
      cases local' with
      | starts now => exact truthful.keep (by rw [stage]; rfl) (by rw [stage]; rfl) rfl
      | samples start seq queueWait admitted =>
          refine truthful.move (fun number served drawn => ?_) (fun _ _ replied => ?_) rfl
          · cases drawn
            exact ⟨queueWait, rfl⟩
          · cases replied
      | sleeps start seq served delay sleepFor since now =>
          exact truthful.keep (by rw [stage]; rfl) (by rw [stage]; rfl) rfl
  | takes call start started =>
      exact truthful.keep (by rw [started]; rfl) (by rw [started]; rfl) rfl
  | queues call _ start seq limiterLabel limiter waits own steps =>
      exact ⟨truthful.draws, truthful.answers⟩
  | reserves call now start seq served bucket delay sampled reserved =>
      refine truthful.keep ?_ ?_ rfl
      · rw [sampled, Progress.drawn?_afterReserve]
        rfl
      · rw [sampled, Progress.result?_afterReserve]
        rfl
  | executes call start seq served delay awake =>
      refine truthful.move (fun number drawn same => ?_) (fun drawn result replied => ?_) rfl
      · apply truthful.draws call number drawn
        rw [awake]
        exact same
      · cases replied
        rfl
  | emits call now unixNanos seq served delay result totalUs settled =>
      cases settled with
      | executed start seq served delay result ran =>
          exact truthful.keep (by rw [ran]; rfl) (by rw [ran]; rfl) rfl
      | refused start seq err waits refusal =>
          refine truthful.move (fun _ _ drawn => ?_) (fun _ _ replied => ?_) rfl
          · cases drawn
          · cases replied
            exact ⟨_, rfl⟩
  | records call seq served result totalUs emitted =>
      refine truthful.keep ?_ ?_ rfl
      · rw [emitted]
        cases served <;> rfl
      · rw [emitted]
        cases served <;> rfl
  | leaves call notifies progress limiter ends steps =>
      generalize stage : state.progress call = before at ends
      refine truthful.keep ?_ ?_ rfl
      · rw [stage]
        cases ends <;> rfl
      · rw [stage]
        cases ends <;> rfl

theorem truthful_of_reachable {created : Nat}
    {allowed : EngineState F Call T -> EngineLabel Call -> Prop}
    (reached : (engine.system lib load created).ReachableBy allowed state) :
    state.Truthful engine lib load :=
  reached.invariant (fun state => state.Truthful engine lib load)
    ⟨fun _ _ _ drawn => (by cases drawn), fun _ _ _ replied => (by cases replied)⟩
    (fun _ _ _ _ _ moves truthful => truthful.preserved moves)

end Steps

end EngineState

end Fusecraft
