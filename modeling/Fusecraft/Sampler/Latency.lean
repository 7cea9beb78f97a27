import Fusecraft.Sampler.Faults
import Mathlib.Analysis.SpecialFunctions.Pow.Real
import Mathlib.Analysis.SpecialFunctions.Trigonometric.Basic

namespace Fusecraft

/-!
# Sampled latency over the reals

Here floats are read as exact reals.  The elementary functions stay abstract:
all that is asked of them is that an exponential is positive and that a power
of a number in (0, 1] to a positive exponent is in (0, 1].  So the lognormal
body is an arbitrary positive number, the Pareto body is its scale divided by
an arbitrary number in (0, 1], and the real functions are one instance.
-/

/-- Floats read as reals. -/
noncomputable instance : ExactF64 ℝ := ⟨fun value => toString ⌊value⌋⟩

namespace F64

/-- Rounding and casting a value that is not negative. -/
theorem real_toU64_round {value : ℝ} (nonneg : 0 ≤ value) :
    (toU64 (round value)).toNat = Min.min ⌊value + 1 / 2⌋.toNat (2 ^ 64 - 1) := by
  change (UInt64.ofNat (Min.min ⌊((Rounding.halfAway value : Int) : ℝ)⌋.toNat _)).toNat = _
  rw [Int.floor_intCast, Rounding.halfAway, if_pos nonneg, UInt64.toNat_ofNat']
  apply Nat.mod_eq_of_lt
  exact lt_of_le_of_lt (Nat.min_le_right _ _) (by decide)

end F64

/-- What the samplers rely on: uniform streams, positive exponentials, and
powers that stay in the unit interval. -/
structure SamplerLib.Lawful (lib : SamplerLib ℝ) : Prop where
  uniform : lib.Uniform
  minPositive_pos : 0 < lib.minPositive
  minPositive_le : lib.minPositive ≤ 1
  exp_pos : forall value, 0 < lib.exp value
  powf_pos : forall {base exponent : ℝ}, 0 < base -> base ≤ 1 -> 0 < exponent ->
    0 < lib.powf base exponent
  powf_le : forall {base exponent : ℝ}, 0 < base -> base ≤ 1 -> 0 < exponent ->
    lib.powf base exponent ≤ 1

/-- The real functions, over given uniform streams. -/
noncomputable def SamplerLib.real (seedFromU64 : UInt64 -> Nat -> ℝ) : SamplerLib ℝ where
  seedFromU64 := seedFromU64
  minPositive := F64.literal (1 / 2 ^ 1022)
  pi := Real.pi
  ln := Real.log
  exp := Real.exp
  sqrt := Real.sqrt
  cos := Real.cos
  powf := fun base exponent => base ^ exponent

theorem SamplerLib.real_lawful {seedFromU64 : UInt64 -> Nat -> ℝ}
    (uniform : (SamplerLib.real seedFromU64).Uniform) : (SamplerLib.real seedFromU64).Lawful where
  uniform := uniform
  minPositive_pos := by
    change (0 : ℝ) < ((1 / 2 ^ 1022 : Rat) : ℝ)
    exact Rat.cast_pos.mpr (by positivity)
  minPositive_le := by
    change ((1 / 2 ^ 1022 : Rat) : ℝ) ≤ 1
    have small : (1 / 2 ^ 1022 : Rat) ≤ 1 :=
      (div_le_one (by positivity)).mpr (one_le_pow₀ (by norm_num))
    exact_mod_cast small
  exp_pos := Real.exp_pos
  powf_pos := fun positive _ _ => Real.rpow_pos_of_pos positive _
  powf_le := fun positive atMostOne exponent =>
    Real.rpow_le_one (le_of_lt positive) atMostOne (le_of_lt exponent)

/-! ## The body and the clamp -/

/-- The mixture: a Pareto tail with the given weight, a lognormal otherwise. -/
noncomputable def latencyBody (lib : SamplerLib ℝ) (profile : LatencyProfile ℝ)
    (rng : Nat -> ℝ) : ℝ :=
  if F64.lt (F64.literal 0) profile.paretoWeight then
    if F64.lt (rng 0) profile.paretoWeight then
      samplePareto lib (fun index => rng (index + 1)) profile.paretoXmUs profile.paretoAlpha
    else
      sampleLognormal lib (fun index => rng (index + 1)) profile.lognormalMedianUs
        profile.lognormalSigma
  else sampleLognormal lib rng profile.lognormalMedianUs profile.lognormalSigma

/-- The two-sided clamp, the rounding and the final bound. -/
noncomputable def clampLatency (total : ℝ) (maxUs : UInt64) : UInt64 :=
  min (F64.toU64 (F64.round (max (min total maxUs.toNat) 0))) maxUs

theorem sampleLatencyUs_eq (lib : SamplerLib ℝ) (profile : LatencyProfile ℝ) (key : SampleKey) :
    sampleLatencyUs lib profile key =
      clampLatency (profile.baseUs.toNat +
        latencyBody lib profile (latencyRng lib.seedFromU64 key)) profile.maxUs := by
  have zero : max (min (F64.add (F64.ofU64 profile.baseUs)
      (latencyBody lib profile (latencyRng lib.seedFromU64 key))) (F64.ofU64 profile.maxUs))
        (F64.literal 0) =
      max (min (profile.baseUs.toNat +
        latencyBody lib profile (latencyRng lib.seedFromU64 key)) (profile.maxUs.toNat : ℝ)) 0 := by
    rw [F64.exact_literal, Rat.cast_zero]
    rfl
  unfold clampLatency
  rw [← zero]
  rfl

section Clamp

variable {total : ℝ} {baseUs maxUs : UInt64}

theorem toNat_clampLatency (total : ℝ) (maxUs : UInt64) :
    (clampLatency total maxUs).toNat =
      min (min ⌊max (min total maxUs.toNat) 0 + 1 / 2⌋.toNat (2 ^ 64 - 1)) maxUs.toNat := by
  have value := F64.real_toU64_round (le_max_right (min total (maxUs.toNat : ℝ)) 0)
  have toNat_min : forall first second : UInt64,
      (min first second).toNat = min first.toNat second.toNat := by
    intro first second
    change (if first ≤ second then first else second).toNat = _
    by_cases ordered : first ≤ second
    · rw [if_pos ordered, min_eq_left (UInt64.le_iff_toNat_le.mp ordered)]
    · rw [if_neg ordered, min_eq_right (le_of_not_ge (mt UInt64.le_iff_toNat_le.mpr ordered))]
  rw [clampLatency, toNat_min, value]

/-- A total that reaches the base keeps it through the clamp. -/
theorem base_le_clampLatency (ordered : baseUs ≤ maxUs) (reaches : baseUs.toNat ≤ total) :
    baseUs ≤ clampLatency total maxUs := by
  have ordered : baseUs.toNat ≤ maxUs.toNat := UInt64.le_iff_toNat_le.mp ordered
  have clamped : (baseUs.toNat : ℝ) ≤ max (min total maxUs.toNat) 0 :=
    le_max_of_le_left (le_min reaches (Nat.cast_le.mpr ordered))
  have floor : (baseUs.toNat : Int) ≤ ⌊max (min total (maxUs.toNat : ℝ)) 0 + 1 / 2⌋ := by
    apply Int.le_floor.mpr
    push_cast
    linarith
  have bound := baseUs.toNat_lt
  apply UInt64.le_iff_toNat_le.mpr
  rw [toNat_clampLatency]
  omega

/-- A total that misses the base by one or more loses it. -/
theorem clampLatency_lt_base (positive : 0 < baseUs.toNat) (misses : total ≤ baseUs.toNat - 1) :
    clampLatency total maxUs < baseUs := by
  have one : (1 : ℝ) ≤ baseUs.toNat := Nat.one_le_cast.mpr positive
  have clamped : max (min total (maxUs.toNat : ℝ)) 0 ≤ baseUs.toNat - 1 :=
    max_le (le_trans (min_le_left _ _) misses) (by linarith)
  have floor : ⌊max (min total (maxUs.toNat : ℝ)) 0 + 1 / 2⌋ < (baseUs.toNat : Int) := by
    apply Int.floor_lt.mpr
    push_cast
    linarith
  apply UInt64.lt_iff_toNat_lt.mpr
  rw [toNat_clampLatency]
  omega

end Clamp

/-! ## The sign of the body -/

section Body

variable {lib : SamplerLib ℝ}

theorem sampleLognormal_nonneg (lawful : lib.Lawful) (rng : Nat -> ℝ) (median sigma : ℝ) :
    0 ≤ sampleLognormal lib rng median sigma := by
  unfold sampleLognormal
  split
  · simp
  · exact le_of_lt (lawful.exp_pos _)

/-- The Pareto body is the scale divided by a number in (0, 1]. -/
theorem samplePareto_eq (lawful : lib.Lawful) (rng : Nat -> ℝ) (xm : ℝ) {alpha : ℝ}
    (shape : 0 < alpha) (below : rng 0 < 1) :
    exists divisor, 0 < divisor ∧ divisor ≤ 1 ∧ samplePareto lib rng xm alpha = xm / divisor := by
  have positive : 0 < max (rng 0) lib.minPositive :=
    lt_max_of_lt_right lawful.minPositive_pos
  have atMostOne : max (rng 0) lib.minPositive ≤ 1 :=
    max_le (le_of_lt below) lawful.minPositive_le
  have exponent : (0 : ℝ) < (1 : Rat) / alpha := by
    rw [Rat.cast_one]
    exact one_div_pos.mpr shape
  exact ⟨_, lawful.powf_pos positive atMostOne exponent, lawful.powf_le positive atMostOne exponent,
    rfl⟩

end Body

/-- What validation establishes of a profile. -/
theorem validateLatency_ok {profile : LatencyProfile ℝ} {path : String}
    (accepted : validateLatency profile path = .ok ()) :
    profile.baseUs ≤ profile.maxUs ∧ 0 ≤ profile.paretoWeight ∧
      (0 < profile.paretoWeight -> 0 < profile.paretoAlpha) := by
  simp only [validateLatency, andThen_eq_ok, refuseIf_eq_ok, F64.exact_lt, F64.exact_le,
    F64.exact_literal, Rat.cast_zero, Bool.or_eq_false_iff, Bool.and_eq_false_iff,
    decide_eq_false_iff_not, not_lt, not_le] at accepted
  rcases accepted with ⟨-, ordered, ⟨weight, -⟩, shape, -, -⟩
  exact ⟨UInt64.not_lt.mp ordered, weight, fun tail => shape.resolve_left (not_le_of_gt tail)⟩

theorem latencyBody_nonneg {lib : SamplerLib ℝ} (lawful : lib.Lawful)
    {profile : LatencyProfile ℝ} {path : String}
    (accepted : validateLatency profile path = .ok ())
    (scale : profile.paretoWeight = 0 ∨ 0 ≤ profile.paretoXmUs) (seed : UInt64) :
    0 ≤ latencyBody lib profile (lib.seedFromU64 seed) := by
  unfold latencyBody
  split
  · rename_i tail
    simp only [F64.exact_lt, F64.exact_literal, Rat.cast_zero, decide_eq_true_eq] at tail
    split
    · have scale := scale.resolve_left (ne_of_gt tail)
      have draw : lib.seedFromU64 seed (0 + 1) < 1 := by
        simpa using (lawful.uniform seed (0 + 1)).2
      rcases samplePareto_eq lawful (fun index => lib.seedFromU64 seed (index + 1))
        profile.paretoXmUs ((validateLatency_ok accepted).2.2 tail) draw with
        ⟨divisor, positive, -, value⟩
      rw [value]
      exact div_nonneg scale (le_of_lt positive)
    · exact sampleLognormal_nonneg lawful _ _ _
  · exact sampleLognormal_nonneg lawful _ _ _

/-- With a negative scale there are streams and powers for which the body
takes a whole microsecond, or more, off the base. -/
theorem exists_latencyBody_le {profile : LatencyProfile ℝ} {path : String}
    (accepted : validateLatency profile path = .ok ()) (tail : profile.paretoWeight ≠ 0)
    (negative : profile.paretoXmUs < 0) :
    exists lib : SamplerLib ℝ, lib.Lawful ∧
      forall seed, latencyBody lib profile (lib.seedFromU64 seed) ≤ -1 := by
  rcases validateLatency_ok accepted with ⟨-, weight, shape⟩
  have tail : 0 < profile.paretoWeight := lt_of_le_of_ne weight (Ne.symm tail)
  have divisor : 0 < min 1 (-profile.paretoXmUs) := lt_min one_pos (neg_pos.mpr negative)
  let lib : SamplerLib ℝ :=
    { SamplerLib.real (fun _ _ => 0) with powf := fun _ _ => min 1 (-profile.paretoXmUs) }
  have uniform : (SamplerLib.real (fun _ _ => 0)).Uniform := by
    intro seed index
    simp [SamplerLib.real]
  have lawful : lib.Lawful :=
    { SamplerLib.real_lawful uniform with
      powf_pos := fun _ _ _ => divisor
      powf_le := fun _ _ _ => min_le_left _ _ }
  refine ⟨lib, lawful, fun seed => ?_⟩
  have drawn : latencyBody lib profile (lib.seedFromU64 seed) =
      profile.paretoXmUs / min 1 (-profile.paretoXmUs) := by
    simp [latencyBody, lib, SamplerLib.real, tail, samplePareto]
  rw [drawn, div_le_iff₀ divisor]
  linarith [min_le_right 1 (-profile.paretoXmUs)]

/-- A base of 100 microseconds under a Pareto tail of full weight and the given
scale, the other fields as in the default profile. -/
noncomputable def LatencyProfile.tail (scale : ℝ) : LatencyProfile ℝ :=
  { (LatencyProfile.default : LatencyProfile ℝ) with
    baseUs := 100
    paretoWeight := 1
    paretoXmUs := scale }

/-- Validation does not look at the scale. -/
theorem LatencyProfile.tail_accepted (scale : ℝ) (path : String) :
    validateLatency (LatencyProfile.tail scale) path = .ok () := by
  have finite : forall fields : List (String × ℝ), validateFinite path fields = .ok () := by
    intro fields
    induction fields with
    | nil => rfl
    | cons field rest ih => exact andThen_eq_ok.mpr ⟨rfl, ih⟩
  simp only [validateLatency, andThen_eq_ok, refuseIf_eq_ok, finite]
  simp [LatencyProfile.tail, LatencyProfile.default, defaultMaxUs, defaultParetoAlpha,
    defaultLognormalMedian, defaultLognormalSigma]

theorem SamplerLib.real_zero_lawful : (SamplerLib.real (fun _ _ => 0)).Lawful := by
  apply SamplerLib.real_lawful
  intro seed index
  simp [SamplerLib.real]

/-- Where the base is a floor.  For every profile that validation accepts,
all streams and all lawful functions give a latency between base and maximum
if and only if the base is zero, there is no Pareto tail, or the scale of the
tail is not negative. -/
theorem latency_bounds_iff (profile : LatencyProfile ℝ) (path : String)
    (accepted : validateLatency profile path = .ok ()) :
    (forall lib : SamplerLib ℝ, lib.Lawful -> forall key : SampleKey,
      profile.baseUs ≤ sampleLatencyUs lib profile key ∧
        sampleLatencyUs lib profile key ≤ profile.maxUs) ↔
      profile.baseUs = 0 ∨ profile.paretoWeight = 0 ∨ 0 ≤ profile.paretoXmUs := by
  constructor
  · intro bounded
    by_contra outside
    rw [not_or, not_or, not_le] at outside
    rcases outside with ⟨base, tail, negative⟩
    rcases exists_latencyBody_le accepted tail negative with ⟨lib, lawful, low⟩
    have key : SampleKey :=
      { seed := 0, op := .read, ino := 0, offset := 0, len := 0, seq := 0 }
    have floor := (bounded lib lawful key).1
    have positive : 0 < profile.baseUs.toNat :=
      Nat.pos_of_ne_zero (fun zero => base (UInt64.toNat_inj.mp zero))
    rw [sampleLatencyUs_eq] at floor
    apply UInt64.not_lt.mpr floor
    apply clampLatency_lt_base positive
    have low : latencyBody lib profile (latencyRng lib.seedFromU64 key) ≤ -1 := low _
    linarith
  · intro condition lib lawful key
    refine ⟨?_, sampleLatencyUs_le lib profile key⟩
    rcases condition with zero | scale
    · rw [zero]
      exact UInt64.zero_le
    · rw [sampleLatencyUs_eq]
      apply base_le_clampLatency (validateLatency_ok accepted).1
      have body : 0 ≤ latencyBody lib profile (latencyRng lib.seedFromU64 key) :=
        latencyBody_nonneg lawful accepted scale _
      linarith

/-- A tail of scale 1000 keeps the samples at or above their base. -/
theorem latency_bounds_iff_tail :
    (LatencyProfile.tail 1000).baseUs ≤ sampleLatencyUs (SamplerLib.real (fun _ _ => 0))
      (LatencyProfile.tail 1000)
      { seed := 42, op := .read, ino := 100, offset := 0, len := 4096, seq := 0 } := by
  have bounds := latency_bounds_iff (LatencyProfile.tail 1000) "ops.read.latency"
    (LatencyProfile.tail_accepted 1000 _)
  have scale : (0 : ℝ) ≤ (LatencyProfile.tail 1000).paretoXmUs := by
    change (0 : ℝ) ≤ 1000
    norm_num
  exact (bounds.mpr (Or.inr (Or.inr scale)) _ SamplerLib.real_zero_lawful _).1

/-- The bounds fail on accepted profiles: with a scale of minus 50, the real
functions take at least 50 microseconds off the base of 100. -/
theorem latency_below_base :
    ¬ forall (profile : LatencyProfile ℝ) (path : String) (lib : SamplerLib ℝ) (key : SampleKey),
      validateLatency profile path = .ok () -> lib.Lawful ->
      profile.baseUs ≤ sampleLatencyUs lib profile key ∧
        sampleLatencyUs lib profile key ≤ profile.maxUs := by
  intro bounded
  let lib : SamplerLib ℝ := SamplerLib.real (fun _ _ => 0)
  let key : SampleKey := { seed := 42, op := .read, ino := 100, offset := 0, len := 4096, seq := 0 }
  have lawful : lib.Lawful := SamplerLib.real_zero_lawful
  have floor := (bounded (LatencyProfile.tail (-50)) "ops.read.latency" lib key
    (LatencyProfile.tail_accepted _ _) lawful).1
  have shape : 0 < (LatencyProfile.tail (-50)).paretoAlpha :=
    (validateLatency_ok (LatencyProfile.tail_accepted (-50) "ops.read.latency")).2.2 one_pos
  rcases samplePareto_eq lawful (fun _ => 0) (-50) shape one_pos with
    ⟨divisor, positive, atMostOne, value⟩
  have body : latencyBody lib (LatencyProfile.tail (-50)) (latencyRng lib.seedFromU64 key) =
      -50 / divisor := by
    rw [← value]
    simp [latencyBody, LatencyProfile.tail, latencyRng, lib, SamplerLib.real]
  have low : (-50 : ℝ) / divisor ≤ -1 := by
    rw [div_le_iff₀ positive]
    linarith
  rw [sampleLatencyUs_eq, body] at floor
  apply UInt64.not_lt.mpr floor
  apply clampLatency_lt_base (by decide)
  linarith

end Fusecraft
