import Mathlib.Data.Option.Basic

/-!
# Labelled transition systems with a partial step function

A concurrent component is presented by its initial state and by one partial
step function.  The label of a step carries every choice that the scheduler
or the environment makes: who moves, which sleeper is woken, what the clock
says.  A label that is not enabled has no successor.

Restrictions on the environment are not built into the step function.  They
are a relation between a state and the label taken there, so the same system
can be read under weaker and stronger assumptions.  Every induction over runs
happens here once; a component only supplies its one-step facts.
-/

namespace Transition

/-- An initial state and a partial, executable step function. -/
structure System (State Label : Type*) where
  init : State
  step : State -> Label -> Option State

namespace System

variable {State Label : Type*} (sys : System State Label)

/-- Execute a list of labels in order, failing at the first disabled one. -/
def run : State -> List Label -> Option State
  | state, [] => some state
  | state, label :: rest => (sys.step state label).bind (fun next => run next rest)

/-- The states reached by runs whose every label is allowed where it is taken. -/
inductive ReachableBy (allowed : State -> Label -> Prop) : State -> Prop
  | init : ReachableBy allowed sys.init
  | step {state next : State} {label : Label} (before : ReachableBy allowed state)
      (permitted : allowed state label) (moves : sys.step state label = some next) :
      ReachableBy allowed next

/-- Reachability with no restriction on the environment. -/
abbrev Reachable : State -> Prop := sys.ReachableBy (fun _ _ => True)

variable {sys} {allowed : State -> Label -> Prop}

@[simp] theorem run_nil (state : State) : sys.run state [] = some state := rfl

theorem run_cons (state : State) (label : Label) (rest : List Label) :
    sys.run state (label :: rest) =
      (sys.step state label).bind (fun next => sys.run next rest) := rfl

theorem run_append {start middle : State} {earlier : List Label} (later : List Label)
    (runs : sys.run start earlier = some middle) :
    sys.run start (earlier ++ later) = sys.run middle later := by
  induction earlier generalizing start with
  | nil =>
      rw [run_nil, Option.some_inj] at runs
      rw [List.nil_append, runs]
  | cons label rest ih =>
      rw [run_cons, Option.bind_eq_some_iff] at runs
      rcases runs with ⟨next, moves, runs⟩
      rw [List.cons_append, run_cons, moves]
      exact ih runs

theorem ReachableBy.weaken {weaker : State -> Label -> Prop} {state : State}
    (reached : sys.ReachableBy allowed state)
    (implies : forall before label, allowed before label -> weaker before label) :
    sys.ReachableBy weaker state := by
  induction reached with
  | init => exact .init
  | step _ permitted moves ih => exact .step ih (implies _ _ permitted) moves

theorem ReachableBy.reachable {state : State} (reached : sys.ReachableBy allowed state) :
    sys.Reachable state :=
  reached.weaken (fun _ _ _ => trivial)

/-- The induction rule: a property of the initial state that every allowed
step out of a reachable state preserves holds of every reachable state. -/
theorem ReachableBy.invariant (holds : State -> Prop) (initially : holds sys.init)
    (preserved : forall before label after, sys.ReachableBy allowed before ->
      allowed before label -> sys.step before label = some after ->
      holds before -> holds after)
    {state : State} (reached : sys.ReachableBy allowed state) : holds state := by
  induction reached with
  | init => exact initially
  | step before permitted moves ih => exact preserved _ _ _ before permitted moves ih

theorem ReachableBy.extend {start finish : State} (reached : sys.ReachableBy allowed start)
    (labels : List Label)
    (permitted : forall before label, label ∈ labels -> allowed before label)
    (runs : sys.run start labels = some finish) : sys.ReachableBy allowed finish := by
  induction labels generalizing start with
  | nil =>
      rw [run_nil, Option.some_inj] at runs
      exact runs ▸ reached
  | cons label rest ih =>
      rw [run_cons, Option.bind_eq_some_iff] at runs
      rcases runs with ⟨next, moves, runs⟩
      exact ih (.step reached (permitted _ _ List.mem_cons_self) moves)
        (fun before other member => permitted before other (List.mem_cons_of_mem _ member)) runs

/-- A concrete run from the initial state exhibits its last state as reachable. -/
theorem reachable_of_run {labels : List Label} {state : State}
    (runs : sys.run sys.init labels = some state) : sys.Reachable state :=
  ReachableBy.extend .init labels (fun _ _ _ => trivial) runs

/-! ## Runs that break a restriction -/

variable (sys) in
/-- Every label of a list is allowed in the state where it is taken. -/
def RunAllowed (allowed : State -> Label -> Prop) : State -> List Label -> Prop
  | _, [] => True
  | state, label :: rest =>
      allowed state label ∧ forall next, sys.step state label = some next ->
        RunAllowed allowed next rest

instance decidableRunAllowed [forall state label, Decidable (allowed state label)] :
    forall (labels : List Label) (state : State), Decidable (sys.RunAllowed allowed state labels)
  | [], _ => isTrue trivial
  | label :: rest, state =>
      match moves : sys.step state label with
      | none => decidable_of_iff (allowed state label)
          ⟨fun permitted => ⟨permitted, fun _ steps => nomatch moves.symm.trans steps⟩, And.left⟩
      | some next =>
          have := decidableRunAllowed rest next
          decidable_of_iff (allowed state label ∧ sys.RunAllowed allowed next rest)
            (and_congr_right fun _ =>
              ⟨fun later _ steps => Option.some.inj (moves.symm.trans steps) ▸ later,
                fun later => later next moves⟩)

theorem runAllowed_of_forall {labels : List Label} (state : State)
    (permitted : forall before label, label ∈ labels -> allowed before label) :
    sys.RunAllowed allowed state labels := by
  induction labels generalizing state with
  | nil => trivial
  | cons label rest ih =>
      exact ⟨permitted state label List.mem_cons_self, fun next _ =>
        ih next (fun before other member => permitted before other (List.mem_cons_of_mem _ member))⟩

theorem ReachableBy.extend_allowed {start finish : State} (reached : sys.ReachableBy allowed start)
    {labels : List Label} (permitted : sys.RunAllowed allowed start labels)
    (runs : sys.run start labels = some finish) : sys.ReachableBy allowed finish := by
  induction labels generalizing start with
  | nil =>
      rw [run_nil, Option.some_inj] at runs
      exact runs ▸ reached
  | cons label rest ih =>
      rw [run_cons, Option.bind_eq_some_iff] at runs
      rcases runs with ⟨next, moves, runs⟩
      exact ih (.step reached permitted.1 moves) (permitted.2 next moves) runs

/-- What holds in a state and is kept by every step holds at the end of a run. -/
theorem run_keeps {holds : State -> Prop} {start finish : State} {labels : List Label}
    (keeps : forall before label after, sys.Reachable before ->
      sys.step before label = some after -> holds before -> holds after)
    (reached : sys.Reachable start) (initially : holds start)
    (runs : sys.run start labels = some finish) : holds finish := by
  induction labels generalizing start with
  | nil =>
      rw [run_nil, Option.some_inj] at runs
      exact runs ▸ initially
  | cons label rest ih =>
      rw [run_cons, Option.bind_eq_some_iff] at runs
      rcases runs with ⟨next, moves, runs⟩
      exact ih (.step reached trivial moves) (keeps _ _ _ reached moves initially) runs

/-- The rule for an exact restriction.  If allowed runs keep a state good, if
the first label that is not allowed makes it bad, and if a bad state stays
bad, then a run ends in a good state just if all its labels were allowed. -/
theorem good_iff_runAllowed {good bad : State -> Prop} {labels : List Label} {finish : State}
    (apart : forall state, bad state -> ¬ good state)
    (keeps : forall state, sys.ReachableBy allowed state -> good state)
    (breaks : forall before label after, sys.ReachableBy allowed before ->
      ¬ allowed before label -> sys.step before label = some after -> bad after)
    (stays : forall before label after, sys.Reachable before ->
      sys.step before label = some after -> bad before -> bad after)
    (runs : sys.run sys.init labels = some finish) :
    good finish ↔ sys.RunAllowed allowed sys.init labels := by
  have broken : forall {start : State} {labels : List Label}, sys.ReachableBy allowed start ->
      sys.run start labels = some finish -> ¬ sys.RunAllowed allowed start labels ->
      bad finish := by
    intro start labels reached runs violated
    induction labels generalizing start with
    | nil => exact absurd trivial violated
    | cons label rest ih =>
        rw [run_cons, Option.bind_eq_some_iff] at runs
        rcases runs with ⟨next, moves, runs⟩
        by_cases permitted : allowed start label
        · apply ih (.step reached permitted moves) runs
          intro later
          apply violated
          refine ⟨permitted, fun other moves' => ?_⟩
          rw [moves, Option.some_inj] at moves'
          exact moves' ▸ later
        · exact run_keeps stays (.step reached.reachable trivial moves)
            (breaks _ _ _ reached permitted moves) runs
  constructor
  · intro fine
    by_contra violated
    exact apart finish (broken .init runs violated) fine
  · intro permitted
    exact keeps finish (.extend_allowed .init permitted runs)

/-! ## Projections onto a component -/

/-- Every step of the first system is invisible to the second under the map,
or is one of its steps. -/
structure Simulation {State' Label' : Type*} (sys : System State Label)
    (other : System State' Label') (map : State -> State') : Prop where
  init : map sys.init = other.init
  step : forall before label after, sys.step before label = some after ->
    map after = map before ∨ exists label', other.step (map before) label' = some (map after)

/-- A component of a reachable state is reachable in the component's own system. -/
theorem Simulation.reachable {State' Label' : Type*} {other : System State' Label'}
    {map : State -> State'} (simulates : Simulation sys other map) {state : State}
    (reached : sys.ReachableBy allowed state) : other.Reachable (map state) := by
  induction reached with
  | init => exact simulates.init ▸ .init
  | step _ _ moves ih =>
      rcases simulates.step _ _ _ moves with same | ⟨label', moves'⟩
      · exact same ▸ ih
      · exact .step ih trivial moves'

/-! ## Erased schedules -/

/-- The rule for dropping labels from a schedule.  If the labels that are kept
can be repeated in the other system from any related state, and the labels
that are dropped keep the relation, what is left of a schedule is a schedule
of the other system with the same outcome. -/
theorem run_filter {State' : Type*} {other : System State' Label}
    (related : State -> State' -> Prop) {keeps : Label -> Bool}
    (kept : forall before label after before', keeps label = true ->
      sys.step before label = some after -> related before before' ->
      exists after', other.step before' label = some after' ∧ related after after')
    (dropped : forall before label after before', keeps label = false ->
      sys.step before label = some after -> related before before' -> related after before')
    {labels : List Label} {start finish : State} {start' : State'}
    (runs : sys.run start labels = some finish) (starts : related start start') :
    exists finish', other.run start' (labels.filter keeps) = some finish' ∧
      related finish finish' := by
  induction labels generalizing start start' with
  | nil =>
      rw [run_nil, Option.some_inj] at runs
      exact ⟨start', rfl, runs ▸ starts⟩
  | cons label rest ih =>
      rw [run_cons, Option.bind_eq_some_iff] at runs
      rcases runs with ⟨next, moves, runs⟩
      cases choice : keeps label with
      | true =>
          rcases kept start label next start' choice moves starts with ⟨next', moves', agree⟩
          rcases ih runs agree with ⟨finish', runs', agree'⟩
          refine ⟨finish', ?_, agree'⟩
          rw [List.filter_cons_of_pos choice, run_cons, moves']
          exact runs'
      | false =>
          rw [List.filter_cons_of_neg (by rw [choice]; exact Bool.false_ne_true)]
          exact ih runs (dropped start label next start' choice moves starts)

end System

end Transition
