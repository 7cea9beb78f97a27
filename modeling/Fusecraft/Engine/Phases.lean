import Fusecraft.Engine.Moves

namespace Fusecraft

open Transition

/-!
# Calls and their slots

The limiter of each op is a component of the engine: projecting a run of the
engine gives a run of the limiter's own system, so what was proved about every
schedule of a limiter holds here.  The progress of a call also says in which
phase its limiter has it.
-/

namespace Phase

/-- The phases of a call that is acquiring a slot without a deadline. -/
def isAcquiring : Phase -> Bool
  | dropped => false
  | unwound => false
  | _ => true

end Phase

namespace LimiterSystem

variable {Call : Type} [Fintype Call] [DecidableEq Call]
variable {limiter : BlockingLimiter} {system next : LimiterSystem Call}

/-- An acquisition moves no other call, and never unwinds. -/
theorem phase_of_queues (counted : system.Counted limiter) {call : Call}
    {label : LimiterLabel Call} (own : SimEngine.Queues call label)
    (moves : system.step limiter label = some next) :
    (forall other, other ≠ call -> next.phase other = system.phase other) ∧
      ((system.phase call).isAcquiring = true -> (next.phase call).isAcquiring = true) := by
  have mover : label.call = call := by
    cases own <;> rfl
  have fits : label.Representable := by
    cases own <;> trivial
  cases step_cases counted moves with
  | enters moved _ idle state exit overflows deadline entered owner =>
      cases owner.symm.trans mover
      refine ⟨fun other different => Function.update_of_ne different _ _, fun _ => ?_⟩
      simp only [Function.update_self]
      cases entered with
      | unwound _ _ _ overflow => exact absurd fits (deadline overflow)
      | _ => rfl
  | leaves moved waiter timedOut _ parked owner =>
      cases owner.symm.trans mover
      refine ⟨fun other different => Function.update_of_ne different _ _, fun _ => ?_⟩
      simp only [Function.update_self, Phase.isAcquiring]
  | wakes moved waiter now queued state exit woken =>
      cases mover
      refine ⟨fun other different => Function.update_of_ne different _ _, fun _ => ?_⟩
      simp only [LimiterLabel.call, Function.update_self]
      cases woken <;> rfl
  | drops => cases own
  | notifies => cases own

/-- Dropping a guard ends the phase of its call, and at most moves a parked
call to the notified ones. -/
theorem phase_of_drop (counted : system.Counted limiter) {call : Call} {notifies : Option Call}
    (moves : system.step limiter (.drop call notifies) = some next) :
    next.phase call = .dropped ∧
      forall other, other ≠ call -> next.phase other = system.phase other ∨
        exists waiter, system.phase other = .parked waiter ∧
          next.phase other = .notified waiter := by
  generalize shape : LimiterLabel.drop call notifies = label at moves
  cases step_cases counted moves with
  | enters moved _ idle state exit overflows deadline entered owner =>
      subst shape
      cases owner
      have idle : system.phase call = .idle := idle
      simp [step, idle] at moves
  | leaves moved waiter timedOut _ parked owner =>
      subst shape
      cases owner
      have parked : system.phase call = .parked waiter := parked
      simp [step, parked] at moves
  | wakes => cases shape
  | drops moved queueWait left holds inflight nobody =>
      cases shape
      exact ⟨Function.update_self .., fun other different =>
        Or.inl (Function.update_of_ne different _ _)⟩
  | notifies moved target queueWait left waiter holds inflight parked =>
      cases shape
      have different : target ≠ call := by
        rintro rfl
        rw [holds] at parked
        cases parked
      refine ⟨?_, fun other apart => ?_⟩
      · simp only [Function.update_of_ne different.symm, Function.update_self]
      · by_cases same : other = target
        · subst same
          exact Or.inr ⟨waiter, parked, Function.update_self ..⟩
        · left
          simp only [Function.update_of_ne same, Function.update_of_ne apart]

end LimiterSystem

namespace SimEngine

variable {F Call T : Type} [F64 F] [Fintype Call] [DecidableEq Call]
variable {engine : SimEngine F} {lib : SamplerLib F} {load : Workload Call T} {created : Nat}

/-- Seen from the limiter of one op, the engine makes the limiter's steps. -/
theorem limiter_simulation (op : FsOp) :
    System.Simulation (engine.system lib load created)
      ((engine.resources op).limiter.system Call) (fun state => state.limiters op) := by
  refine ⟨rfl, ?_⟩
  intro before label after moves
  have component : forall (call : Call) (limiterLabel : LimiterLabel Call)
      (limiter : LimiterSystem Call),
      (before.limiters (load.ctx call).op).step (engine.resources (load.ctx call).op).limiter
          limiterLabel = some limiter ->
      Function.update before.limiters (load.ctx call).op limiter op = before.limiters op ∨
        exists label',
          ((engine.resources op).limiter.system Call).step (before.limiters op) label' =
            some (Function.update before.limiters (load.ctx call).op limiter op) := by
    intro call limiterLabel limiter steps
    by_cases same : op = (load.ctx call).op
    · subst same
      rw [Function.update_self]
      exact Or.inr ⟨limiterLabel, steps⟩
    · exact Or.inl (Function.update_of_ne same _ _)
  cases step_cases moves with
  | queues call _ start seq limiterLabel limiter waits own steps =>
      exact component call limiterLabel limiter steps
  | leaves call notifies next limiter ends steps => exact component call _ limiter steps
  | _ => exact Or.inl rfl

variable {state : EngineState F Call T}
  {allowed : EngineState F Call T -> EngineLabel Call -> Prop}

/-- In every reachable state the counters of every limiter are right. -/
theorem limiter_counted (reached : (engine.system lib load created).ReachableBy allowed state)
    (op : FsOp) : (state.limiters op).Counted (engine.resources op).limiter :=
  LimiterSystem.counted_of_reachable ((limiter_simulation op).reachable reached)

end SimEngine

/-! ## Progress and phase -/

variable {F Call T : Type}

/-- The phases in which the limiter can have a call. -/
def Progress.Fits : Progress T -> Phase -> Prop
  | .idle, phase => phase = .idle
  | .started _, phase => phase = .idle
  | .sequenced _ _, phase => phase.isAcquiring = true
  | .emitted _ none _ _, phase => phase.isRefused = true
  | .returned _ none _, phase => phase.isRefused = true
  | .returned _ (some _) _, phase => phase = .dropped
  | .panicked _ _, phase => phase = .dropped
  | _, phase => phase.isHolding = true

/-- Whoever may be parked may be notified. -/
theorem Progress.Fits.notified {progress : Progress T} {waiter : Waiter}
    (fits : progress.Fits (.parked waiter)) : progress.Fits (.notified waiter) := by
  cases progress with
  | sequenced start seq => rfl
  | emitted seq served result totalUs => cases served <;> cases fits
  | returned seq served result => cases served <;> cases fits
  | _ => cases fits

/-- The limiter of its op has every call in a phase that fits its progress;
the limiters of other ops have never heard of it. -/
structure EngineState.Slotted (load : Workload Call T) (state : EngineState F Call T) : Prop where
  own : forall call, (state.progress call).Fits ((state.limiters (load.ctx call).op).phase call)
  other : forall call op, op ≠ (load.ctx call).op -> (state.limiters op).phase call = .idle

namespace EngineState

variable {load : Workload Call T} {state next : EngineState F Call T}

/-- The same relation holds between the progress of every call and its phase in
the limiter of its op. -/
def Paired (load : Workload Call T) (relates : Progress T -> Phase -> Prop)
    (state : EngineState F Call T) : Prop :=
  forall call, relates (state.progress call) ((state.limiters (load.ctx call).op).phase call)

variable {relates : Progress T -> Phase -> Prop}

/-- A step of one limiter keeps a relation if it does for the calls of that op. -/
theorem Paired.limiter (paired : state.Paired load relates) {op : FsOp}
    {limiter : LimiterSystem Call}
    (limiters : next.limiters = Function.update state.limiters op limiter)
    (own : forall call, (load.ctx call).op = op ->
      relates (next.progress call) (limiter.phase call))
    (others : forall call, (load.ctx call).op ≠ op ->
      next.progress call = state.progress call) : next.Paired load relates := by
  intro call
  rw [limiters]
  by_cases same : (load.ctx call).op = op
  · rw [same, Function.update_self]
    exact own call same
  · rw [Function.update_of_ne same, others call same]
    exact paired call

/-- A step of one limiter brings in no call of another op. -/
theorem Slotted.elsewhere (slotted : state.Slotted load) {op : FsOp}
    {limiter : LimiterSystem Call}
    (idle : forall call, (state.limiters op).phase call = .idle -> (load.ctx call).op ≠ op ->
      limiter.phase call = .idle) (call : Call) (other : FsOp)
    (different : other ≠ (load.ctx call).op) :
    (Function.update state.limiters op limiter other).phase call = .idle := by
  by_cases same : other = op
  · subst same
    rw [Function.update_self]
    exact idle call (slotted.other call other different) (Ne.symm different)
  · rw [Function.update_of_ne same]
    exact slotted.other call other different

variable [DecidableEq Call]

/-- A step that leaves the limiters alone must move its call between two
stages that the relation gives the same phases. -/
theorem Paired.advance (paired : state.Paired load relates) {call : Call} {progress : Progress T}
    (limiters : next.limiters = state.limiters)
    (moved : next.progress = Function.update state.progress call progress)
    (own : relates progress ((state.limiters (load.ctx call).op).phase call)) :
    next.Paired load relates := by
  intro other
  rw [limiters, moved]
  rcases Counting.update_cases state.progress call other progress with ⟨rfl, now⟩ | ⟨-, now⟩
  · rw [now]
    exact own
  · rw [now]
    exact paired other

theorem Slotted.advance (slotted : state.Slotted load) {call : Call} {progress : Progress T}
    (fits : progress.Fits ((state.limiters (load.ctx call).op).phase call))
    (limiters : next.limiters = state.limiters)
    (moved : next.progress = Function.update state.progress call progress) :
    next.Slotted load := by
  have paired : state.Paired load Progress.Fits := slotted.own
  refine ⟨paired.advance limiters moved fits, ?_⟩
  rw [limiters]
  exact slotted.other

variable [Fintype Call] {engine : SimEngine F}

/-- An acquisition moves no call but its own. -/
theorem Paired.queues (paired : state.Paired load relates)
    (counted : forall op, (state.limiters op).Counted (engine.resources op).limiter)
    {call : Call} {label : LimiterLabel Call} (own : SimEngine.Queues call label)
    {limiter : LimiterSystem Call} (steps : (state.limiters (load.ctx call).op).step
      (engine.resources (load.ctx call).op).limiter label = some limiter)
    (moved : relates (state.progress call) (limiter.phase call)) :
    (state.setLimiter (load.ctx call).op limiter).Paired load relates := by
  rcases LimiterSystem.phase_of_queues (counted _) own steps with ⟨unmoved, -⟩
  refine paired.limiter rfl (fun other sameOp => ?_) (fun _ _ => rfl)
  by_cases same : other = call
  · subst same
    exact moved
  · rw [unmoved other same, ← sameOp]
    exact paired other

/-- An acquisition leaves its call acquiring. -/
theorem Slotted.queues (slotted : state.Slotted load)
    (counted : forall op, (state.limiters op).Counted (engine.resources op).limiter)
    {call : Call} {start : Nat} {seq : UInt64} (waits : state.progress call = .sequenced start seq)
    {label : LimiterLabel Call} (own : SimEngine.Queues call label)
    {limiter : LimiterSystem Call} (steps : (state.limiters (load.ctx call).op).step
      (engine.resources (load.ctx call).op).limiter label = some limiter) :
    (state.setLimiter (load.ctx call).op limiter).Slotted load := by
  have paired : state.Paired load Progress.Fits := slotted.own
  have before := slotted.own call
  rcases LimiterSystem.phase_of_queues (counted _) own steps with ⟨unmoved, acquiring⟩
  constructor
  · apply paired.queues counted own steps
    rw [waits] at before ⊢
    exact acquiring before
  · apply slotted.elsewhere
    intro other idle elsewhere
    have different : other ≠ call := fun same => elsewhere (by rw [same])
    rw [unmoved other different]
    exact idle

/-- A call that drops its guard moves no other, but for the one it notifies. -/
theorem Paired.leaves (paired : state.Paired load relates)
    (counted : forall op, (state.limiters op).Counted (engine.resources op).limiter)
    (notified : forall progress waiter, relates progress (.parked waiter) ->
      relates progress (.notified waiter))
    {call : Call} {notifies : Option Call} {progress : Progress T} {limiter : LimiterSystem Call}
    (steps : (state.limiters (load.ctx call).op).step
      (engine.resources (load.ctx call).op).limiter (.drop call notifies) = some limiter)
    (ended : relates progress .dropped) :
    ((state.setLimiter (load.ctx call).op limiter).setProgress call progress).Paired load
      relates := by
  rcases LimiterSystem.phase_of_drop (counted _) steps with ⟨dropped, others⟩
  apply paired.limiter rfl
  · intro other sameOp
    change relates (Function.update state.progress call progress other) _
    rcases Counting.update_cases state.progress call other progress with
      ⟨rfl, now⟩ | ⟨different, now⟩
    · rw [now, dropped]
      exact ended
    · have before := paired other
      rw [sameOp] at before
      rw [now]
      rcases others other different with unmoved | ⟨waiter, parked, woken⟩
      · rw [unmoved]
        exact before
      · rw [parked] at before
        rw [woken]
        exact notified _ _ before
  · intro other elsewhere
    have different : other ≠ call := fun same => elsewhere (by rw [same])
    exact Function.update_of_ne different _ _

/-- A call that drops its guard ends; whoever it notifies keeps acquiring. -/
theorem Slotted.leaves (slotted : state.Slotted load)
    (counted : forall op, (state.limiters op).Counted (engine.resources op).limiter)
    {call : Call} {notifies : Option Call} {progress : Progress T}
    (ends : SimEngine.Leaves (state.progress call) progress) {limiter : LimiterSystem Call}
    (steps : (state.limiters (load.ctx call).op).step
      (engine.resources (load.ctx call).op).limiter (.drop call notifies) = some limiter) :
    ((state.setLimiter (load.ctx call).op limiter).setProgress call progress).Slotted load := by
  have paired : state.Paired load Progress.Fits := slotted.own
  constructor
  · apply paired.leaves counted (fun _ _ parked => parked.notified) steps
    generalize state.progress call = stage at ends
    cases ends <;> rfl
  · rcases LimiterSystem.phase_of_drop (counted _) steps with ⟨-, others⟩
    apply slotted.elsewhere
    intro other idle elsewhere
    have different : other ≠ call := fun same => elsewhere (by rw [same])
    rcases others other different with unmoved | ⟨waiter, parked, -⟩
    · exact unmoved.trans idle
    · rw [idle] at parked
      cases parked

variable [F64 F] {lib : SamplerLib F}

theorem Slotted.preserved (slotted : state.Slotted load)
    (counted : forall op, (state.limiters op).Counted (engine.resources op).limiter)
    {label : EngineLabel Call} (moves : engine.step lib load state label = some next) :
    next.Slotted load := by
  cases SimEngine.step_cases moves with
  | advances call _ progress local' =>
      have before := slotted.own call
      refine slotted.advance ?_ rfl rfl
      generalize state.progress call = stage at before local'
      cases local' with
      | starts now => exact before
      | samples start seq queueWait admitted =>
          change Phase.isHolding _ = true
          rw [admitted]
          rfl
      | sleeps start seq served delay sleepFor since now => exact before
  | takes call start started =>
      have before := slotted.own call
      rw [started] at before
      have acquiring : Progress.Fits (T := T) (.sequenced start state.seq)
          ((state.limiters (load.ctx call).op).phase call) := by
        rw [show (state.limiters (load.ctx call).op).phase call = .idle from before]
        rfl
      exact slotted.advance acquiring rfl rfl
  | queues call _ start seq limiterLabel limiter waits own steps =>
      exact slotted.queues counted waits own steps
  | reserves call now start seq served bucket delay sampled reserved =>
      have before := slotted.own call
      rw [sampled] at before
      refine slotted.advance (?_ : Progress.Fits (.afterReserve start seq served delay now) _)
        rfl rfl
      unfold Progress.afterReserve
      split <;> exact before
  | executes call start seq served delay awake =>
      have before := slotted.own call
      rw [awake] at before
      exact slotted.advance (show Progress.Fits (.executed start seq served delay
        (SimEngine.reply served (load.body call))) _ from before) rfl rfl
  | emits call now unixNanos seq served delay result totalUs settled =>
      have before := slotted.own call
      refine slotted.advance (?_ : Progress.Fits (.emitted seq served result totalUs) _) rfl rfl
      cases settled with
      | executed start seq served delay result ran =>
          rw [ran] at before
          exact before
      | refused start seq err waits refusal =>
          change Phase.isRefused _ = true
          rw [refusal]
          rfl
  | records call seq served result totalUs emitted =>
      have before := slotted.own call
      rw [emitted] at before
      refine slotted.advance (?_ : Progress.Fits (.afterRecord seq result served) _) rfl rfl
      cases served <;> exact before
  | leaves call notifies progress limiter ends steps => exact slotted.leaves counted ends steps

theorem slotted_of_reachable {created : Nat}
    {allowed : EngineState F Call T -> EngineLabel Call -> Prop}
    (reached : (engine.system lib load created).ReachableBy allowed state) :
    state.Slotted load :=
  reached.invariant (fun state => state.Slotted load) ⟨fun _ => rfl, fun _ _ _ => rfl⟩
    (fun _ _ _ before _ moves slotted =>
      slotted.preserved (SimEngine.limiter_counted before) moves)

end EngineState

end Fusecraft
