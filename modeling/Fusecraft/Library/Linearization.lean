import Fusecraft.Library.Transition
import Mathlib.Data.List.Infix
import Mathlib.Data.List.Nodup

/-!
# Linearization

An object is atomic if each of its operations takes effect at one instant.  A
component whose calls take several steps, and overlap, is as good as an atomic
object to its callers if every run of it can be retold as an order of whole
operations.  The atomic object must be able to serve them in this order, the
order must have every answer that was given, and a call that was answered
before another one began must come before it.

Many components show such an order themselves, as a list of calls that only
grows at its end, in which a call stands by the time it is answered and not
before it begins.  The rule below turns the list into a linearization.
-/

namespace Transition

/-- What an object may answer to an operation, and what it is afterwards. -/
structure AtomicObject (Op Result Content : Type*) where
  init : Content
  allows : Content -> Op -> Result -> Content -> Prop

namespace AtomicObject

variable {Op Result Content : Type*} (object : AtomicObject Op Result Content)

/-- Operations and their answers, one whole operation after the other. -/
inductive Serves : Content -> List (Op × Result) -> Content -> Prop
  | nil {content : Content} : Serves content [] content
  | cons {before between after : Content} {op : Op} {result : Result}
      {rest : List (Op × Result)} (allowed : object.allows before op result between)
      (later : Serves between rest after) : Serves before ((op, result) :: rest) after

variable {object}

/-- The rule for objects whose content is known after each number of operations. -/
theorem serves_of_contents {operations : List (Op × Result)} {content : Nat -> Content}
    (allowed : forall index op result, operations[index]? = some (op, result) ->
      object.allows (content index) op result (content (index + 1))) :
    object.Serves (content 0) operations (content operations.length) := by
  induction operations generalizing content with
  | nil => exact .nil
  | cons operation rest ih =>
      apply Serves.cons (allowed 0 operation.1 operation.2 rfl)
      apply @ih (fun index => content (index + 1))
      intro index op result found
      exact allowed (index + 1) op result found

end AtomicObject

/-- What a caller knows of its call. -/
inductive Stage (Result : Type*) where
  | idle
  | pending
  | answered (result : Result)
  deriving DecidableEq

namespace System

variable {State Label Call Op Result Content : Type*} (sys : System State Label)

/-- The calls of a run, with their answers, in an order in which an atomic
object could have served them.  A call that is still pending may be in it,
with an answer that it could get. -/
structure Linearization (stage : State -> Call -> Stage Result) (operation : Call -> Op)
    (object : AtomicObject Op Result Content) (labels : List Label) (finish : State)
    (order : List (Call × Result)) (content : Content) : Prop where
  nodup : (order.map (fun entry => entry.1)).Nodup
  begun : forall call result, (call, result) ∈ order -> stage finish call ≠ .idle
  complete : forall call result, stage finish call = .answered result -> (call, result) ∈ order
  served : object.Serves object.init
    (order.map (fun entry => (operation entry.1, entry.2))) content
  realTime : forall earlier later middle, labels = earlier ++ later ->
    sys.run sys.init earlier = some middle -> forall first second answer answer',
      stage middle first = .answered answer -> stage middle second = .idle ->
      (second, answer') ∈ order ->
      [first, second].Sublist (order.map (fun entry => entry.1))

variable {sys}

/-- The rule for systems that keep a list of their calls.  A call may have its
place from when it begins until it is answered; what it will be answered need
not be known when it takes its place. -/
theorem linearization_of_tickets {stage : State -> Call -> Stage Result} {operation : Call -> Op}
    {object : AtomicObject Op Result Content} (tickets : State -> List Call)
    (grows : forall before label after, sys.step before label = some after ->
      tickets before <+: tickets after)
    (nodup : forall state, sys.Reachable state -> (tickets state).Nodup)
    (begun : forall state call, sys.Reachable state -> stage state call = .idle ->
      call ∉ tickets state)
    (placed : forall state call result, sys.Reachable state ->
      stage state call = .answered result -> call ∈ tickets state)
    {labels : List Label} {finish : State} (runs : sys.run sys.init labels = some finish)
    {answer : Call -> Result}
    (answers : forall call result, stage finish call = .answered result -> answer call = result)
    {content : Content}
    (served : object.Serves object.init
      ((tickets finish).map (fun call => (operation call, answer call))) content) :
    sys.Linearization stage operation object labels finish
      ((tickets finish).map (fun call => (call, answer call))) content := by
  have reached := reachable_of_run runs
  have calls : ((tickets finish).map (fun call => (call, answer call))).map
      (fun entry => entry.1) = tickets finish := by
    rw [List.map_map]
    exact List.map_id _
  have member : forall {call : Call} {result : Result},
      (call, result) ∈ (tickets finish).map (fun call => (call, answer call)) ->
      call ∈ tickets finish := by
    intro call result entry
    rcases List.mem_map.mp entry with ⟨ticket, found, same⟩
    cases same
    exact found
  refine
    { nodup := by rw [calls]; exact nodup finish reached
      begun := fun call result entry idle => begun finish call reached idle (member entry)
      complete := fun call result answered => ?_
      served := by rw [List.map_map]; exact served
      realTime := fun earlier later middle split before first second result result' answered idle
        entry => ?_ }
  · apply List.mem_map.mpr
    exact ⟨call, placed finish call result reached answered,
      by rw [answers call result answered]⟩
  · have arrived := reachable_of_run before
    rw [split, run_append later before] at runs
    have keeps : forall before label after, sys.Reachable before ->
        sys.step before label = some after -> tickets middle <+: tickets before ->
        tickets middle <+: tickets after :=
      fun before label after _ moves kept => kept.trans (grows before label after moves)
    rcases run_keeps keeps arrived (List.prefix_refl _) runs with ⟨rest, whole⟩
    have ahead : first ∈ tickets middle := placed middle first result arrived answered
    have behind : second ∈ rest := by
      have somewhere := member entry
      rw [← whole, List.mem_append] at somewhere
      exact somewhere.resolve_left (begun middle second arrived idle)
    rw [calls, ← whole]
    exact (List.singleton_sublist.mpr ahead).append (List.singleton_sublist.mpr behind)

end System

end Transition
