import Mathlib.Data.List.Basic
import Mathlib.Data.List.Pairwise

/-!
# Reading a listing page by page

A listing carries a strictly increasing cookie on every entry.  A fetch from a
cookie returns the entries after it; a page is a nonempty prefix of what was
fetched, however its end was decided.  Resuming from the last cookie of a page
then continues exactly where the page stopped, so what has been received and
what is still to come always make up the whole listing.
-/

namespace Paging

variable {Entry : Type*} (cookie : Entry -> Nat)

/-- The cookies of a listing strictly increase. -/
def Sorted (listing : List Entry) : Prop :=
  listing.Pairwise (fun first second => cookie first < cookie second)

/-- The entries after a cookie. -/
def after (listing : List Entry) (position : Nat) : List Entry :=
  listing.filter (fun entry => position < cookie entry)

variable {cookie}

theorem after_of_all {listing : List Entry} {position : Nat}
    (later : forall entry, entry ∈ listing -> position < cookie entry) :
    after cookie listing position = listing :=
  List.filter_eq_self.mpr (fun entry member => decide_eq_true (later entry member))

/-- Resuming after the last entry of a page fetches what the page left out. -/
theorem after_page {received page rest : List Entry} {last : Entry}
    (sorted : Sorted cookie (received ++ (page ++ [last] ++ rest))) :
    after cookie (received ++ (page ++ [last] ++ rest)) (cookie last) = rest := by
  unfold Sorted at sorted
  rw [List.pairwise_append, List.pairwise_append, List.pairwise_append] at sorted
  rcases sorted with ⟨-, ⟨⟨-, -, pageBefore⟩, -, restAfter⟩, receivedBefore⟩
  unfold after
  rw [List.filter_append, List.filter_append, List.filter_append]
  have noReceived : received.filter (fun entry => cookie last < cookie entry) = [] := by
    apply List.filter_eq_nil_iff.mpr
    intro entry member
    have order := receivedBefore entry member last (by simp)
    simp only [decide_eq_true_eq]
    omega
  have noPage : page.filter (fun entry => cookie last < cookie entry) = [] := by
    apply List.filter_eq_nil_iff.mpr
    intro entry member
    have order := pageBefore entry member last (by simp)
    simp only [decide_eq_true_eq]
    omega
  have allRest : rest.filter (fun entry => cookie last < cookie entry) = rest :=
    List.filter_eq_self.mpr (fun entry member =>
      decide_eq_true (restAfter last (by simp) entry member))
  rw [noReceived, noPage, allRest]
  simp

/-! ## Feeding a sink that may stop -/

/-- Push entries until the sink asks to stop, accepting or not the entry on
which it does: the sink decides what its state records. -/
def feed {Sink : Type*} (push : Sink -> Entry -> Sink × Bool) : Sink -> List Entry -> Sink
  | sink, [] => sink
  | sink, entry :: rest =>
      match push sink entry with
      | (next, true) => feed push next rest
      | (next, false) => next

/-- A sink instrumented with the list of entries pushed into it. -/
def traced {Sink : Type*} (push : Sink -> Entry -> Sink × Bool) :
    Sink × List Entry -> Entry -> (Sink × List Entry) × Bool :=
  fun state entry => (((push state.1 entry).1, state.2 ++ [entry]), (push state.1 entry).2)

/-- The instrumented run pushes a prefix of the entries.  It is all of them
unless the sink answered the last pushed one with *stop*. -/
theorem feed_traced {Sink : Type*} (push : Sink -> Entry -> Sink × Bool) (entries : List Entry)
    (sink : Sink) (log : List Entry) :
    exists pushed rest, entries = pushed ++ rest ∧
      feed (traced push) (sink, log) entries =
        (feed push sink entries, log ++ pushed) ∧
      (rest ≠ [] ->
        exists state entry, entry ∈ pushed.getLast? ∧ (push state entry).2 = false) := by
  induction entries generalizing sink log with
  | nil => exact ⟨[], [], rfl, by simp [feed], by simp⟩
  | cons entry rest ih =>
      cases answer : push sink entry with
      | mk next more =>
          cases more with
          | false =>
              have head : traced push (sink, log) entry = ((next, log ++ [entry]), false) := by
                simp only [traced, answer]
              refine ⟨[entry], rest, rfl, ?_, ?_⟩
              · simp only [feed, head, answer]
              · intro _
                exact ⟨sink, entry, by simp, by rw [answer]⟩
          | true =>
              have head : traced push (sink, log) entry = ((next, log ++ [entry]), true) := by
                simp only [traced, answer]
              rcases ih next (log ++ [entry]) with ⟨pushed, left, split, run, stopped⟩
              refine ⟨entry :: pushed, left, by rw [split, List.cons_append], ?_, ?_⟩
              · simp only [feed, head, answer]
                rw [run, List.append_assoc, List.singleton_append]
              · intro unfinished
                rcases stopped unfinished with ⟨state, last, member, answered⟩
                refine ⟨state, last, ?_, answered⟩
                cases pushed with
                | nil => cases member
                | cons head tail => simpa using member

end Paging
