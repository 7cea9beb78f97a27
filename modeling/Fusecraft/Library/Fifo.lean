import Mathlib.Data.List.Nodup
import Mathlib.Data.Fintype.Defs

/-!
# Waiting lines and their order

The record of a line says who arrived, who of them had to wait, and who was
served, each in order.  Nobody is overtaken if everybody who had to wait is
served before all who arrived later.  Serving whoever is first in the line
keeps this, serving anybody else ends it, and nothing brings it back.
-/

namespace Fifo

variable {Name : Type*}

/-- One entry stands before another in a list. -/
def Before (first later : Name) (list : List Name) : Prop := [first, later].Sublist list

instance [DecidableEq Name] (first later : Name) (list : List Name) :
    Decidable (Before first later list) :=
  inferInstanceAs (Decidable ([first, later].Sublist list))

section Before

variable {first later last : Name} {list longer : List Name}

theorem Before.mono (before : Before first later list) (sub : list.Sublist longer) :
    Before first later longer :=
  List.Sublist.trans before sub

theorem Before.mem_first (before : Before first later list) : first ∈ list :=
  List.Sublist.subset before List.mem_cons_self

theorem Before.append (before : Before first later list) (rest : List Name) :
    Before first later (list ++ rest) :=
  before.mono (List.sublist_append_left list rest)

/-- The head stands before everything else. -/
theorem before_cons_self (member : later ∈ list) : Before first later (first :: list) :=
  List.cons_sublist_cons.mpr (List.singleton_sublist.mpr member)

/-- What is already there stands before what is appended. -/
theorem before_append_self (member : first ∈ list) : Before first last (list ++ [last]) :=
  List.Sublist.append (List.singleton_sublist.mpr member) (List.Sublist.refl [last])

theorem before_append_iff :
    Before first later (list ++ [last]) ↔
      Before first later list ∨ first ∈ list ∧ later = last := by
  constructor
  · intro before
    rcases List.sublist_append_iff.mp before with ⟨left, right, split, inList, inLast⟩
    cases left with
    | nil =>
        rw [List.nil_append] at split
        have short := inLast.length_le
        rw [← split] at short
        simp at short
    | cons one left =>
        rw [List.cons_append, List.cons.injEq] at split
        rcases split with ⟨rfl, split⟩
        cases left with
        | nil =>
            rw [List.nil_append] at split
            rw [← split, List.singleton_sublist, List.mem_singleton] at inLast
            exact Or.inr ⟨List.singleton_sublist.mp inList, inLast⟩
        | cons two left =>
            rw [List.cons_append, List.cons.injEq] at split
            rcases split with ⟨rfl, split⟩
            rw [(List.append_eq_nil_iff.mp split.symm).1] at inList
            exact Or.inl inList
  · rintro (before | ⟨member, rfl⟩)
    · exact before.append _
    · exact before_append_self member

/-- In a list without repetition the order is strict. -/
theorem Before.asymm (nodup : list.Nodup) (before : Before first later list) :
    ¬ Before later first list := by
  induction list with
  | nil => cases before
  | cons head tail ih =>
      rcases List.nodup_cons.mp nodup with ⟨fresh, nodup⟩
      intro after
      cases before with
      | cons _ before =>
          cases after with
          | cons _ after => exact ih nodup before after
          | cons_cons _ after =>
              exact fresh (before.subset (List.mem_cons_of_mem _ List.mem_cons_self))
      | cons_cons _ before =>
          cases after with
          | cons _ after => exact fresh (after.subset (List.mem_cons_of_mem _ List.mem_cons_self))
          | cons_cons _ after => exact fresh (List.singleton_sublist.mp after)

end Before

/-- The record of a line. -/
structure Record (Name : Type*) where
  arrived : List Name
  waited : List Name
  served : List Name
  deriving DecidableEq, Repr

namespace Record

variable {record : Record Name} {name : Name}

def initial : Record Name where
  arrived := []
  waited := []
  served := []

/-- Somebody arrives and gets into the line. -/
def joins (record : Record Name) (name : Name) : Record Name :=
  { record with arrived := record.arrived ++ [name], waited := record.waited ++ [name] }

/-- Somebody arrives and leaves at once. -/
def passes (record : Record Name) (name : Name) : Record Name :=
  { record with arrived := record.arrived ++ [name] }

/-- Somebody who has arrived is served. -/
def serves (record : Record Name) (name : Name) : Record Name :=
  { record with served := record.served ++ [name] }

/-- Everybody who had to wait is served before all who arrived later. -/
def InTurn (record : Record Name) : Prop :=
  forall first later, first ∈ record.waited -> Before first later record.arrived ->
    later ∈ record.served -> Before first later record.served

instance [Fintype Name] [DecidableEq Name] (record : Record Name) : Decidable record.InTurn :=
  inferInstanceAs (Decidable (forall first later, first ∈ record.waited ->
    Before first later record.arrived -> later ∈ record.served ->
      Before first later record.served))

theorem inTurn_initial : (initial : Record Name).InTurn := by
  intro first later waited
  cases waited

/-! ## What keeps the turn -/

theorem InTurn.passes (inTurn : record.InTurn) (fresh : name ∉ record.served) :
    (record.passes name).InTurn := by
  intro first later waited before served
  rcases before_append_iff.mp before with before | ⟨-, rfl⟩
  · exact inTurn first later waited before served
  · exact absurd served fresh

theorem InTurn.joins (inTurn : record.InTurn) (fresh : name ∉ record.served)
    (absent : name ∉ record.arrived) : (record.joins name).InTurn := by
  intro first later waited before served
  rcases before_append_iff.mp before with before | ⟨-, rfl⟩
  · have known : first ∈ record.waited := by
      rcases List.mem_append.mp waited with known | new
      · exact known
      · rw [List.mem_singleton.mp new] at before
        exact absurd before.mem_first absent
    exact inTurn first later known before served
  · exact absurd served fresh

/-- Serving somebody before whom nobody is left waiting. -/
theorem InTurn.serves (inTurn : record.InTurn)
    (first_in_line : forall first, first ∈ record.waited -> Before first name record.arrived ->
      first ∈ record.served) : (record.serves name).InTurn := by
  intro first later waited before served
  rcases List.mem_append.mp served with served | new
  · exact (inTurn first later waited before served).append _
  · rw [List.mem_singleton.mp new] at before ⊢
    exact before_append_self (first_in_line first waited before)

/-! ## What ends it -/

/-- Serving somebody past a waiting earlier arrival. -/
theorem not_inTurn_serves {first : Name} (waited : first ∈ record.waited)
    (before : Before first name record.arrived) (waiting : first ∉ record.served) :
    ¬ (record.serves name).InTurn := by
  intro inTurn
  have last : name ∈ (record.serves name).served :=
    List.mem_append_right _ (List.mem_singleton_self _)
  have ordered := inTurn first name waited before last
  rcases before_append_iff.mp ordered with ordered | ⟨served, -⟩
  · exact waiting ordered.mem_first
  · exact waiting served

theorem not_inTurn_passes (broken : ¬ record.InTurn) : ¬ (record.passes name).InTurn :=
  fun inTurn => broken (fun first later waited before served =>
    inTurn first later waited (before.append _) served)

theorem not_inTurn_joins (broken : ¬ record.InTurn) : ¬ (record.joins name).InTurn :=
  fun inTurn => broken (fun first later waited before served =>
    inTurn first later (List.mem_append_left _ waited) (before.append _) served)

theorem not_inTurn_serves_of (broken : ¬ record.InTurn) (fresh : name ∉ record.served) :
    ¬ (record.serves name).InTurn := by
  intro inTurn
  apply broken
  intro first later waited before served
  rcases before_append_iff.mp (inTurn first later waited before (List.mem_append_left _ served))
    with ordered | ⟨-, rfl⟩
  · exact ordered
  · exact absurd served fresh

end Record

end Fifo
