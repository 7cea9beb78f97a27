import Fusecraft.Library.Counting
import Fusecraft.Library.Transition
import Mathlib.Algebra.BigOperators.Group.Finset.Basic
import Mathlib.Algebra.GroupWithZero.Nat
import Mathlib.Algebra.Order.BigOperators.Group.Finset
import Mathlib.Data.Fintype.Basic

/-!
# Charging the parties and the steps of a run

A finite family of parties owes a total, the sum of what each of them owes.  A
step of one party moves the total by what that party owed and owes, which is
an equation without subtraction.

If every step of a transition system is paid for out of a total of natural
numbers, runs are short: no longer than what is owed at first and what single
labels bring in.  Where only some labels are paid for, a run of these can be
continued until none of them is enabled.
-/

namespace Charging

section Total

variable {Name Amount : Type*} [Fintype Name] [AddCommMonoid Amount]

/-- What all parties owe together. -/
def total (owed : Name -> Amount) : Amount := ∑ name, owed name

variable {before after : Name -> Amount} [DecidableEq Name]

/-- One party trades what it owed for what it owes. -/
theorem total_exchange (name : Name)
    (others : forall other, other ≠ name -> after other = before other) :
    total after + before name = total before + after name := by
  have rest : ∑ other ∈ Finset.univ.erase name, after other =
      ∑ other ∈ Finset.univ.erase name, before other :=
    Finset.sum_congr rfl (fun other member => others other (Finset.ne_of_mem_erase member))
  unfold total
  rw [← Finset.add_sum_erase _ after (Finset.mem_univ name),
    ← Finset.add_sum_erase _ before (Finset.mem_univ name), rest]
  exact (add_right_comm _ _ _).trans (by rw [add_comm (after name)]; exact add_right_comm _ _ _)

/-- So do two of them. -/
theorem total_exchange_two {first second : Name} (different : second ≠ first)
    (others : forall other, other ≠ first -> other ≠ second -> after other = before other) :
    total after + (before first + before second) =
      total before + (after first + after second) := by
  let between := Function.update before first (after first)
  have once : total between + before first = total before + between first :=
    total_exchange first (fun other apart => Function.update_of_ne apart _ _)
  have twice : total after + between second = total between + after second := by
    refine total_exchange second (fun other apart => ?_)
    by_cases same : other = first
    · subst same
      exact (Function.update_self other (after other) before).symm
    · exact (others other same apart).trans (Function.update_of_ne same _ _).symm
  have here : between first = after first := Function.update_self ..
  have there : between second = before second := Function.update_of_ne different _ _
  rw [here] at once
  rw [there] at twice
  calc
    total after + (before first + before second) =
        total after + before second + before first := by
      rw [add_comm (before first), add_assoc]
    _ = total between + before first + after second := by
      rw [twice, add_right_comm]
    _ = total before + (after first + after second) := by
      rw [once, add_assoc]

end Total

/-- If only the parties that pass a test gain, and each of them no more than
the same amount, their number bounds what is gained. -/
theorem total_le_of_rate {Name : Type*} [Fintype Name] {before after : Name -> Nat}
    (active : Name -> Bool) (gain : Nat)
    (grows : forall name, after name ≤ before name + if active name = true then gain else 0) :
    total after ≤ total before + Counting.count id active * gain := by
  calc
    total after ≤ ∑ name, (before name + if active name = true then gain else 0) :=
      Finset.sum_le_sum (fun name _ => grows name)
    _ = total before + Counting.count id active * gain := by
      rw [Finset.sum_add_distrib, ← Finset.sum_filter, Finset.sum_const, Nat.nsmul_eq_mul]
      rfl

end Charging

namespace Transition.System

variable {State Label : Type*} {sys : System State Label} {owed : State -> Nat}

/-- A run in which every step is paid for, out of what is owed at first and
what the labels bring in. -/
theorem length_le {gain : Label -> Nat}
    (pays : forall before label after, sys.Reachable before ->
      sys.step before label = some after -> owed after + 1 ≤ owed before + gain label)
    {start finish : State} {labels : List Label} (reached : sys.Reachable start)
    (runs : sys.run start labels = some finish) :
    labels.length + owed finish ≤ owed start + (labels.map gain).sum := by
  induction labels generalizing start with
  | nil =>
      rw [run_nil, Option.some_inj] at runs
      subst runs
      exact Nat.le_of_eq (Nat.zero_add _)
  | cons label rest ih =>
      rw [run_cons, Option.bind_eq_some_iff] at runs
      rcases runs with ⟨next, moves, runs⟩
      have paid := pays start label next reached moves
      have later := ih (.step reached trivial moves) runs
      rw [List.length_cons, List.map_cons, List.sum_cons]
      omega

/-- If the labels of a kind are paid for, a run of these leads to a state in
which none of them is enabled. -/
theorem exists_quiet {kind : Label -> Prop}
    (pays : forall before label after, sys.Reachable before -> kind label ->
      sys.step before label = some after -> owed after < owed before)
    {start : State} (reached : sys.Reachable start) :
    exists labels finish, (forall label, label ∈ labels -> kind label) ∧
      sys.run start labels = some finish ∧
      forall label, kind label -> sys.step finish label = none := by
  induction budget : owed start using Nat.strong_induction_on generalizing start with
  | _ budget ih =>
      by_cases quiet : forall label, kind label -> sys.step start label = none
      · exact ⟨[], start, (fun _ member => by cases member), rfl, quiet⟩
      · push Not at quiet
        rcases quiet with ⟨label, ofKind, enabled⟩
        rcases Option.ne_none_iff_exists'.mp enabled with ⟨next, moves⟩
        have paid := pays start label next reached ofKind moves
        rcases ih (owed next) (budget ▸ paid) (.step reached trivial moves) rfl with
          ⟨labels, finish, ofKinds, runs, quiet⟩
        refine ⟨label :: labels, finish, fun other member => ?_, ?_, quiet⟩
        · rcases List.mem_cons.mp member with rfl | later
          · exact ofKind
          · exact ofKinds other later
        · rw [run_cons, moves, Option.bind_some]
          exact runs

end Transition.System
