import Mathlib.Data.List.Basic
import Mathlib.Logic.Function.Basic

/-!
# Texts on lines of their own

Entries are written one after another, each as a text that keeps entries apart
and ends where a symbol comes that no text contains.  What is on the lines can
then be read back, also when the end of the last line is missing.
-/

namespace Lines

/-- A text without stops that is followed by one is determined, and so is what
follows. -/
theorem eq_of_stop {Symbol : Type*} {stops : Symbol -> Bool}
    {first second rest rest' : List Symbol} {stop stop' : Symbol}
    (same : first ++ stop :: rest = second ++ stop' :: rest')
    (free : forall b, b ∈ first -> stops b = false)
    (free' : forall b, b ∈ second -> stops b = false)
    (ends : stops stop = true) (ends' : stops stop' = true) :
    first = second ∧ stop = stop' ∧ rest = rest' := by
  induction first generalizing second with
  | nil =>
      cases second with
      | nil =>
          rw [List.nil_append, List.nil_append, List.cons.injEq] at same
          exact ⟨rfl, same⟩
      | cons b second =>
          rw [List.nil_append, List.cons_append, List.cons.injEq] at same
          have inside := free' b List.mem_cons_self
          rw [← same.1, ends] at inside
          cases inside
  | cons b first ih =>
      cases second with
      | nil =>
          rw [List.nil_append, List.cons_append, List.cons.injEq] at same
          have inside := free b List.mem_cons_self
          rw [same.1, ends'] at inside
          cases inside
      | cons b' second =>
          rw [List.cons_append, List.cons_append, List.cons.injEq] at same
          rcases ih same.2 (fun b member => free b (List.mem_cons_of_mem _ member))
            (fun b member => free' b (List.mem_cons_of_mem _ member)) with ⟨rfl, rest⟩
          exact ⟨by rw [same.1], rest⟩

/-- A text for every entry: no two entries have the same, and none contains
what ends a line. -/
structure LineText (Entry : Type*) {Symbol : Type*} (ending : Symbol) where
  text : Entry -> List Symbol
  ending_notMem : forall entry, ending ∉ text entry
  injective : Function.Injective text

namespace LineText

variable {Entry Symbol : Type*} {ending : Symbol} (writing : LineText Entry ending)

/-- The line of an entry. -/
def line (entry : Entry) : List Symbol := writing.text entry ++ [ending]

/-- The entries, each on its line. -/
def lines (entries : List Entry) : List Symbol := entries.flatMap writing.line

variable {writing}

@[simp]
theorem lines_nil : writing.lines [] = [] := rfl

@[simp]
theorem lines_cons (entry : Entry) (entries : List Entry) :
    writing.lines (entry :: entries) = writing.line entry ++ writing.lines entries := rfl

theorem lines_concat (entries : List Entry) (entry : Entry) :
    writing.lines (entries ++ [entry]) = writing.lines entries ++ writing.line entry := by
  rw [lines, List.flatMap_append, List.flatMap_singleton]
  rfl

theorem ending_mem_lines_cons (entry : Entry) (entries : List Entry) (rest : List Symbol) :
    ending ∈ writing.lines (entry :: entries) ++ rest := by
  simp [line]

/-- Lines followed by less than a line are determined, and so is that rest. -/
theorem lines_inj {first second : List Entry} {rest rest' : List Symbol}
    (cut : ending ∉ rest) (cut' : ending ∉ rest')
    (same : writing.lines first ++ rest = writing.lines second ++ rest') :
    first = second ∧ rest = rest' := by
  classical
  have free : forall entry b, b ∈ writing.text entry -> decide (b = ending) = false := by
    intro entry b inside
    exact decide_eq_false (fun last => writing.ending_notMem entry (last ▸ inside))
  induction first generalizing second with
  | nil =>
      cases second with
      | nil => exact ⟨rfl, same⟩
      | cons entry others =>
          rw [lines_nil, List.nil_append] at same
          exact absurd (same ▸ ending_mem_lines_cons entry others rest') cut
  | cons entry others ih =>
      cases second with
      | nil =>
          rw [lines_nil, List.nil_append] at same
          exact absurd (same ▸ ending_mem_lines_cons entry others rest) cut'
      | cons entry' others' =>
          simp only [lines_cons, line, List.append_assoc, List.singleton_append] at same
          rcases eq_of_stop same (free entry) (free entry') (decide_eq_true rfl)
            (decide_eq_true rfl) with ⟨texts, -, later⟩
          rcases ih later with ⟨rfl, rests⟩
          exact ⟨by rw [writing.injective texts], rests⟩

/-- What is cut off a text of lines leaves some of the lines and less than a
line. -/
theorem exists_lines {entries : List Entry} {cut rest : List Symbol}
    (whole : cut ++ rest = writing.lines entries) :
    exists count partialLine, count ≤ entries.length ∧ ending ∉ partialLine ∧
      cut = writing.lines (entries.take count) ++ partialLine := by
  induction entries generalizing cut with
  | nil =>
      rw [lines_nil, List.append_eq_nil_iff] at whole
      exact ⟨0, [], Nat.le_refl _, List.not_mem_nil, by rw [whole.1]; rfl⟩
  | cons entry others ih =>
      rw [lines_cons, List.append_eq_append_iff] at whole
      rcases whole with ⟨missing, first, -⟩ | ⟨later, rfl, whole⟩
      · rcases List.eq_nil_or_concat missing with rfl | ⟨missing, last, rfl⟩
        · refine ⟨1, [], Nat.le_add_left 1 others.length, List.not_mem_nil, ?_⟩
          rw [List.append_nil] at first
          rw [List.append_nil, List.take_succ_cons, List.take_zero, lines_cons, lines_nil,
            List.append_nil, first]
        · have inside : writing.text entry = cut ++ missing := by
            rw [line, List.concat_eq_append, ← List.append_assoc] at first
            exact List.append_inj_left' first rfl
          refine ⟨0, cut, Nat.zero_le _, fun member => ?_, rfl⟩
          apply writing.ending_notMem entry
          rw [inside]
          exact List.mem_append_left _ member
      · rcases ih whole.symm with ⟨count, partialLine, bound, free, rfl⟩
        refine ⟨count + 1, partialLine, Nat.succ_le_succ bound, free, ?_⟩
        rw [List.take_succ_cons, lines_cons, List.append_assoc]

end LineText

end Lines
