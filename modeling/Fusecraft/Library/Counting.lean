import Mathlib.Data.Fintype.Card

/-!
# Counting the entries of a finite family

A finite family of parties is a function from their names to their local
states.  A step of one party is a `Function.update`, so an invariant that
relates a shared counter to the number of parties in some condition needs
exactly one fact: how the count moves when one entry is replaced.  The fact
is an equation without subtraction, which leaves the rest to arithmetic.
-/

namespace Counting

variable {Name Local : Type*} [Fintype Name]

/-- The number of entries of the family that satisfy the test. -/
def count (test : Local -> Bool) (family : Name -> Local) : Nat :=
  (Finset.univ.filter (fun name => test (family name) = true)).card

/-- Replacing one entry trades its old contribution for the new one. -/
theorem count_update [DecidableEq Name] (test : Local -> Bool) (family : Name -> Local)
    (name : Name) (value : Local) :
    count test (Function.update family name value) + (test (family name)).toNat =
      count test family + (test value).toNat := by
  have split : forall other : Name -> Local,
      count test other = (Finset.univ.filter
        (fun party => party ≠ name ∧ test (other party) = true)).card +
          (test (other name)).toNat := by
    intro other
    unfold count
    cases holds : test (other name) with
    | false =>
        rw [Bool.toNat_false, Nat.add_zero]
        congr 1
        ext party
        simp only [Finset.mem_filter, Finset.mem_univ, true_and]
        refine ⟨fun member => ⟨?_, member⟩, fun member => member.2⟩
        rintro rfl
        rw [holds] at member
        cases member
    | true =>
        rw [Bool.toNat_true, ← Finset.card_insert_of_notMem (a := name) (by simp)]
        congr 1
        ext party
        simp only [Finset.mem_filter, Finset.mem_univ, true_and, Finset.mem_insert]
        by_cases same : party = name
        · simp [same, holds]
        · simp [same]
  have rest : (Finset.univ.filter (fun party => party ≠ name ∧
        test (Function.update family name value party) = true)).card =
      (Finset.univ.filter (fun party => party ≠ name ∧ test (family party) = true)).card := by
    congr 1
    ext party
    simp only [Finset.mem_filter, Finset.mem_univ, true_and]
    apply and_congr_right
    intro different
    rw [Function.update_of_ne different]
  rw [split (Function.update family name value), split family, rest, Function.update_self]
  omega

omit [Fintype Name] in
/-- An entry of a changed family is the new value, or it is what it was. -/
theorem update_cases [DecidableEq Name] (family : Name -> Local) (name other : Name)
    (value : Local) :
    other = name ∧ Function.update family name value other = value ∨
      other ≠ name ∧ Function.update family name value other = family other := by
  by_cases same : other = name
  · exact Or.inl ⟨same, by rw [same, Function.update_self]⟩
  · exact Or.inr ⟨same, Function.update_of_ne same _ _⟩

theorem count_const (test : Local -> Bool) (value : Local) (rejected : test value = false) :
    count test (fun _ : Name => value) = 0 := by
  simp [count, rejected]

theorem count_eq_zero_iff (test : Local -> Bool) (family : Name -> Local) :
    count test family = 0 ↔ forall name, test (family name) = false := by
  simp [count, Finset.filter_eq_empty_iff]

theorem count_pos_iff (test : Local -> Bool) (family : Name -> Local) :
    0 < count test family ↔ exists name, test (family name) = true := by
  simp [count, Finset.card_pos, Finset.filter_nonempty_iff]

/-- Two tests that never hold together count separately. -/
theorem count_or (first second : Local -> Bool)
    (disjoint : forall value, (first value && second value) = false)
    (family : Name -> Local) :
    count (fun value => first value || second value) family =
      count first family + count second family := by
  classical
  unfold count
  rw [← Finset.card_union_of_disjoint]
  · congr 1
    ext name
    simp
  · rw [Finset.disjoint_filter]
    intro name _ holds
    have exclusive := disjoint (family name)
    rw [holds, Bool.true_and] at exclusive
    simp [exclusive]

/-! ## Lists of entries -/

/-- A list of the names whose entries satisfy a test, each of them once. -/
structure Lists (test : Local -> Bool) (family : Name -> Local) (list : List Name) : Prop where
  nodup : list.Nodup
  mem_iff : forall name, name ∈ list ↔ test (family name) = true

namespace Lists

variable [DecidableEq Name] {test : Local -> Bool} {family : Name -> Local} {list : List Name}
  {name : Name} {value : Local}

omit [Fintype Name]

/-- A new value that passes the test as the old one did changes nothing. -/
theorem keep (lists : Lists test family list) (same : test value = test (family name)) :
    Lists test (Function.update family name value) list := by
  refine ⟨lists.nodup, fun other => ?_⟩
  rw [lists.mem_iff]
  rcases update_cases family name other value with ⟨rfl, now⟩ | ⟨-, now⟩
  · rw [now, same]
  · rw [now]

theorem add (lists : Lists test family list) (failed : test (family name) = false)
    (passes : test value = true) :
    Lists test (Function.update family name value) (list ++ [name]) := by
  have absent : name ∉ list := by
    rw [lists.mem_iff, failed]
    exact Bool.false_ne_true
  constructor
  · exact lists.nodup.append (List.nodup_singleton name) (List.disjoint_singleton.mpr absent)
  · intro other
    rw [List.mem_append, List.mem_singleton, lists.mem_iff]
    rcases update_cases family name other value with ⟨rfl, now⟩ | ⟨different, now⟩
    · simp [passes]
    · simp [different]

theorem remove (lists : Lists test family list) (fails : test value = false) :
    Lists test (Function.update family name value) (list.erase name) := by
  refine ⟨lists.nodup.erase name, fun other => ?_⟩
  rw [lists.nodup.mem_erase_iff, lists.mem_iff]
  rcases update_cases family name other value with ⟨rfl, now⟩ | ⟨different, now⟩
  · simp [fails]
  · simp [different]

end Lists

end Counting
