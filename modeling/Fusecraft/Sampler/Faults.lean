import Fusecraft.Sampler.Samples

namespace Fusecraft

/-!
# How fault rules compose

The sampler returns an errno and does not say which rule it came from.  Here
the position of that rule in the configured list is made visible.  A rule for
the key's op consumes one draw whatever its rate, and a rule for another op
consumes none, so each position sees a draw of its own that the rates before
it do not move.
-/

variable {F : Type} [F64 F]

/-- The position of the rule that fires for an op, in the unfiltered list. -/
def firingRule (op : FsOp) : List (FaultRule F) -> (Nat -> F) -> Option Nat
  | [], _ => none
  | rule :: rest, rng =>
      if rule.op = op then
        let (u, rng) := random rng
        if F64.lt u rule.rate then some 0
        else (firingRule op rest rng).map (fun index => index + 1)
      else (firingRule op rest rng).map (fun index => index + 1)

/-- Two rules for the same op and errno, the second at least as likely. -/
structure FaultRule.Raised (rule raised : FaultRule F) : Prop where
  op : rule.op = raised.op
  errno : rule.errno = raised.errno
  rate : F64.le rule.rate raised.rate = true

/-- The uniform streams draw from the interval from 0 to 1, without 1. -/
def SamplerLib.Uniform (lib : SamplerLib F) : Prop :=
  forall seed index, F64.le (F64.literal 0) (lib.seedFromU64 seed index) = true ∧
    F64.lt (lib.seedFromU64 seed index) (F64.literal 1) = true

/-! ## The cases of one rule -/

section Cases

variable {op : FsOp} {rule : FaultRule F} {rng : Nat -> F}

theorem firingRule_foreign (rest : List (FaultRule F)) (foreign : rule.op ≠ op) :
    firingRule op (rule :: rest) rng =
      (firingRule op rest rng).map (fun index => index + 1) := by
  rw [firingRule, if_neg foreign]

theorem firingRule_fires (rest : List (FaultRule F)) (own : rule.op = op)
    (below : F64.lt (rng 0) rule.rate = true) :
    firingRule op (rule :: rest) rng = some 0 := by
  simp only [firingRule, if_pos own, random, below, if_true]

theorem firingRule_passes (rest : List (FaultRule F)) (own : rule.op = op)
    (notBelow : F64.lt (rng 0) rule.rate = false) :
    firingRule op (rule :: rest) rng =
      (firingRule op rest (fun index => rng (index + 1))).map (fun index => index + 1) := by
  simp [firingRule, own, random, notBelow]

end Cases

/-- The errno that is returned is that of the firing rule. -/
theorem firstFault_eq_firingRule (op : FsOp) (rules : List (FaultRule F)) (rng : Nat -> F) :
    firstFault (rules.filter (fun rule => rule.op = op)) rng =
      (firingRule op rules rng).bind (fun index => rules[index]?.map FaultRule.errno) := by
  induction rules generalizing rng with
  | nil => rfl
  | cons rule rest ih =>
      by_cases own : rule.op = op
      · rw [List.filter_cons_of_pos (by simpa using own)]
        cases below : F64.lt (rng 0) rule.rate with
        | true => simp [firstFault, random, below, firingRule_fires rest own below]
        | false =>
            rw [firingRule_passes rest own below, Option.bind_map]
            simp only [firstFault, random, below, Bool.false_eq_true, if_false]
            exact ih _
      · rw [List.filter_cons_of_neg (by simpa using own), firingRule_foreign rest own,
          Option.bind_map]
        exact ih rng

theorem sampleFault_eq_firingRule (lib : SamplerLib F) (rules : List (FaultRule F))
    (key : SampleKey) :
    sampleFault lib rules key =
      (firingRule key.op rules (faultRng lib.seedFromU64 key)).bind
        (fun index => rules[index]?.map FaultRule.errno) :=
  firstFault_eq_firingRule key.op rules _

/-! ## Insertion, raised rates, appended rules -/

/-- A rule for another op leaves no trace, wherever it stands. -/
theorem sampleFault_insert (lib : SamplerLib F) (key : SampleKey)
    (before after : List (FaultRule F)) {rule : FaultRule F} (foreign : rule.op ≠ key.op) :
    sampleFault lib (before ++ rule :: after) key = sampleFault lib (before ++ after) key := by
  unfold sampleFault
  rw [List.filter_append, List.filter_append, List.filter_cons_of_neg (by simpa using foreign)]

/-- Raising rates moves the firing rule forward or leaves it where it is: up
to the old position both lists see the same draws. -/
theorem firingRule_raised [LawfulF64 F] {op : FsOp} {rules raised : List (FaultRule F)}
    (pointwise : List.Forall₂ FaultRule.Raised rules raised) {rng : Nat -> F} {index : Nat}
    (fires : firingRule op rules rng = some index) :
    exists earlier, earlier ≤ index ∧ firingRule op raised rng = some earlier := by
  induction pointwise generalizing rng index with
  | nil => cases fires
  | @cons rule higher rest raised raise pointwise ih =>
      by_cases own : rule.op = op
      · have ownHigher : higher.op = op := raise.op ▸ own
        cases belowHigher : F64.lt (rng 0) higher.rate with
        | true => exact ⟨0, Nat.zero_le _, firingRule_fires raised ownHigher belowHigher⟩
        | false =>
            have notBelow : F64.lt (rng 0) rule.rate = false := by
              apply Bool.eq_false_iff.mpr
              intro below
              rw [LawfulF64.lt_of_lt_of_le below raise.rate] at belowHigher
              cases belowHigher
            rw [firingRule_passes rest own notBelow, Option.map_eq_some_iff] at fires
            rcases fires with ⟨index, fires, rfl⟩
            rcases ih fires with ⟨earlier, bound, fires⟩
            rw [firingRule_passes raised ownHigher belowHigher, fires]
            exact ⟨earlier + 1, Nat.succ_le_succ bound, rfl⟩
      · have foreignHigher : higher.op ≠ op := raise.op ▸ own
        rw [firingRule_foreign rest own, Option.map_eq_some_iff] at fires
        rcases fires with ⟨index, fires, rfl⟩
        rcases ih fires with ⟨earlier, bound, fires⟩
        rw [firingRule_foreign raised foreignHigher, fires]
        exact ⟨earlier + 1, Nat.succ_le_succ bound, rfl⟩

/-- The position at which a list faults is not moved by what follows. -/
theorem firingRule_append (op : FsOp) {rules : List (FaultRule F)} (more : List (FaultRule F))
    {rng : Nat -> F} {index : Nat} (fires : firingRule op rules rng = some index) :
    firingRule op (rules ++ more) rng = some index := by
  induction rules generalizing rng index with
  | nil => cases fires
  | cons rule rest ih =>
      rw [List.cons_append]
      by_cases own : rule.op = op
      · cases below : F64.lt (rng 0) rule.rate with
        | true =>
            rw [firingRule_fires _ own below] at fires ⊢
            exact fires
        | false =>
            rw [firingRule_passes _ own below, Option.map_eq_some_iff] at fires ⊢
            rcases fires with ⟨index, fires, rfl⟩
            exact ⟨index, ih fires, rfl⟩
      · rw [firingRule_foreign _ own, Option.map_eq_some_iff] at fires ⊢
        rcases fires with ⟨index, fires, rfl⟩
        exact ⟨index, ih fires, rfl⟩

/-! ## Rates that always and never fire -/

/-- What is known of the rule that fires: it is in the list, it is for the
op, and one of the draws was below its rate. -/
theorem firingRule_spec {op : FsOp} {rules : List (FaultRule F)} {rng : Nat -> F} {index : Nat}
    (fires : firingRule op rules rng = some index) :
    exists rule draw, rules[index]? = some rule ∧ rule.op = op ∧
      F64.lt (rng draw) rule.rate = true := by
  induction rules generalizing rng index with
  | nil => cases fires
  | cons rule rest ih =>
      by_cases own : rule.op = op
      · cases below : F64.lt (rng 0) rule.rate with
        | true =>
            rw [firingRule_fires rest own below] at fires
            cases fires
            exact ⟨rule, 0, rfl, own, below⟩
        | false =>
            rw [firingRule_passes rest own below, Option.map_eq_some_iff] at fires
            rcases fires with ⟨index, fires, rfl⟩
            rcases ih fires with ⟨found, draw, member, holds, below⟩
            exact ⟨found, draw + 1, member, holds, below⟩
      · rw [firingRule_foreign rest own, Option.map_eq_some_iff] at fires
        rcases fires with ⟨index, fires, rfl⟩
        exact ih fires

/-- No rule is passed over that every draw is below. -/
theorem firingRule_of_certain {op : FsOp} {rules : List (FaultRule F)} {rng : Nat -> F}
    {index : Nat} {rule : FaultRule F} (present : rules[index]? = some rule)
    (own : rule.op = op) (certain : forall draw, F64.lt (rng draw) rule.rate = true) :
    exists earlier, earlier ≤ index ∧ firingRule op rules rng = some earlier := by
  induction rules generalizing rng index with
  | nil => cases present
  | cons first rest ih =>
      by_cases ownFirst : first.op = op
      · cases below : F64.lt (rng 0) first.rate with
        | true => exact ⟨0, Nat.zero_le _, firingRule_fires rest ownFirst below⟩
        | false =>
            cases index with
            | zero =>
                rw [List.getElem?_cons_zero, Option.some_inj] at present
                rw [present, certain 0] at below
                cases below
            | succ index =>
                rcases ih present (fun draw => certain (draw + 1)) with ⟨earlier, bound, fires⟩
                rw [firingRule_passes rest ownFirst below, fires]
                exact ⟨earlier + 1, Nat.succ_le_succ bound, rfl⟩
      · cases index with
        | zero =>
            rw [List.getElem?_cons_zero, Option.some_inj] at present
            exact absurd (present ▸ own) ownFirst
        | succ index =>
            rcases ih present certain with ⟨earlier, bound, fires⟩
            rw [firingRule_foreign rest ownFirst, fires]
            exact ⟨earlier + 1, Nat.succ_le_succ bound, rfl⟩

/-- Nothing fires at a rate of zero or less. -/
theorem rate_pos_of_fires [LawfulF64 F] {lib : SamplerLib F} (uniform : lib.Uniform) {op : FsOp}
    {rules : List (FaultRule F)} {seed : UInt64} {index : Nat} {rule : FaultRule F}
    (fires : firingRule op rules (lib.seedFromU64 seed) = some index)
    (present : rules[index]? = some rule) : F64.le rule.rate (F64.literal 0) = false := by
  rcases firingRule_spec fires with ⟨found, draw, member, -, below⟩
  rw [present, Option.some_inj] at member
  rw [← member] at below
  apply Bool.eq_false_iff.mpr
  intro nonpos
  have negative := LawfulF64.lt_of_lt_of_le below nonpos
  have contradiction := LawfulF64.not_le_of_lt negative
  rw [(uniform seed draw).1] at contradiction
  cases contradiction

/-- How fault rules compose under a fixed key, whatever its stream of uniform
draws.  The result is the errno of one rule, and of that rule's position:
rules for other ops do not matter wherever they stand; pointwise higher rates
keep a fault and fire at the same rule or earlier; appended rules never change
a fault; a matching rule of rate at least one leaves nothing to the rules
after it, and a rule of rate at most zero never fires. -/
theorem fault_rules_compose [LawfulF64 F] (lib : SamplerLib F) (uniform : lib.Uniform)
    (key : SampleKey) :
    (forall rules : List (FaultRule F), sampleFault lib rules key =
      (firingRule key.op rules (faultRng lib.seedFromU64 key)).bind
        (fun index => rules[index]?.map FaultRule.errno)) ∧
    (forall rules others : List (FaultRule F),
      rules.filter (fun rule => rule.op = key.op) = others.filter (fun rule => rule.op = key.op) ->
      sampleFault lib rules key = sampleFault lib others key) ∧
    (forall (before after : List (FaultRule F)) (rule : FaultRule F), rule.op ≠ key.op ->
      sampleFault lib (before ++ rule :: after) key = sampleFault lib (before ++ after) key) ∧
    (forall (rules raised : List (FaultRule F)) (index : Nat),
      List.Forall₂ FaultRule.Raised rules raised ->
      firingRule key.op rules (faultRng lib.seedFromU64 key) = some index ->
      (sampleFault lib raised key).isSome ∧
      exists earlier, earlier ≤ index ∧
        firingRule key.op raised (faultRng lib.seedFromU64 key) = some earlier) ∧
    (forall (rules more : List (FaultRule F)) (errno : Int),
      sampleFault lib rules key = some errno -> sampleFault lib (rules ++ more) key = some errno) ∧
    (forall (rules : List (FaultRule F)) (index : Nat) (rule : FaultRule F),
      rules[index]? = some rule -> rule.op = key.op ->
      F64.le (F64.literal 1) rule.rate = true ->
      exists earlier, earlier ≤ index ∧
        firingRule key.op rules (faultRng lib.seedFromU64 key) = some earlier) ∧
    (forall (rules : List (FaultRule F)) (index : Nat) (rule : FaultRule F),
      rules[index]? = some rule -> F64.le rule.rate (F64.literal 0) = true ->
      firingRule key.op rules (faultRng lib.seedFromU64 key) ≠ some index) := by
  have injects : forall {rules : List (FaultRule F)} {index : Nat},
      firingRule key.op rules (faultRng lib.seedFromU64 key) = some index ->
      exists rule, rules[index]? = some rule ∧ sampleFault lib rules key = some rule.errno := by
    intro rules index fires
    rcases firingRule_spec fires with ⟨rule, draw, present, -, -⟩
    refine ⟨rule, present, ?_⟩
    rw [sampleFault_eq_firingRule, fires, Option.bind_some, present, Option.map_some]
  refine ⟨fun rules => sampleFault_eq_firingRule lib rules key, ?_,
    fun before after rule foreign => sampleFault_insert lib key before after foreign,
    ?_, ?_, ?_, ?_⟩
  · intro rules others same
    unfold sampleFault
    rw [same]
  · intro rules raised index pointwise fires
    rcases firingRule_raised pointwise fires with ⟨earlier, bound, firesRaised⟩
    rcases injects firesRaised with ⟨rule, -, result⟩
    exact ⟨Option.isSome_of_eq_some result, earlier, bound, firesRaised⟩
  · intro rules more errno faulted
    rw [sampleFault_eq_firingRule, Option.bind_eq_some_iff] at faulted
    rcases faulted with ⟨index, fires, errnoOf⟩
    rw [Option.map_eq_some_iff] at errnoOf
    rcases errnoOf with ⟨rule, present, rfl⟩
    have inside : index < rules.length := (List.getElem?_eq_some_iff.mp present).1
    rw [sampleFault_eq_firingRule, firingRule_append key.op more fires, Option.bind_some,
      List.getElem?_append_left inside, present, Option.map_some]
  · intro rules index rule present own atLeastOne
    exact firingRule_of_certain present own
      (fun draw => LawfulF64.lt_of_lt_of_le (uniform _ draw).2 atLeastOne)
  · intro rules index rule present nonpos fires
    rw [rate_pos_of_fires uniform fires present] at nonpos
    cases nonpos

/-- A draw of one half passes a rate of one quarter and falls below the next
rule's three quarters.  With the first rate raised to one, the first rule fires. -/
theorem fault_rules_compose_raised :
    exists earlier, earlier ≤ 1 ∧
      firingRule .read
        [{ op := .read, errno := Libc.eio, rate := (1 : Rat) },
          { op := .read, errno := Libc.eintr, rate := 3 / 4 }] (fun _ => 1 / 2) = some earlier := by
  have composed := fault_rules_compose
    { seedFromU64 := fun _ _ => (1 / 2 : Rat), minPositive := 1 / 8, pi := 3, ln := id, exp := id,
      sqrt := id, cos := id, powf := fun base _ => base }
    (fun _ _ => ⟨(by decide +kernel : F64.le (F64.literal 0) (1 / 2 : Rat) = true),
      (by decide +kernel : F64.lt (1 / 2 : Rat) (F64.literal 1) = true)⟩)
    { seed := 42, op := .read, ino := 100, offset := 0, len := 4096, seq := 0 }
  refine (composed.2.2.2.1
    [{ op := .read, errno := Libc.eio, rate := 1 / 4 },
      { op := .read, errno := Libc.eintr, rate := 3 / 4 }] _ 1 ?_ (by decide +kernel)).2
  exact .cons ⟨rfl, rfl, by decide +kernel⟩ (.cons ⟨rfl, rfl, by decide +kernel⟩ .nil)

end Fusecraft
