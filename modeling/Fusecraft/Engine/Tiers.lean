import Fusecraft.Engine.RunOp

namespace Fusecraft

/-!
# What a call is routed to has been validated

Validation walks the configuration by entries and nested options; the engine
reads it again by op, with a default for absent ops, builds two bandwidth
limiters on the way, and picks a triple for each request.  The profiles of a
tier, as the configuration has them, are the common ground of the two.
-/

variable {F : Type} [F64 F]

/-- The profiles of a tier in a policy; the large tier need not be configured. -/
def OpPolicy.profiles (policy : OpPolicy F) : Tier -> Option (LargeTierPolicy F)
  | .base =>
      some { latency := policy.latency, bandwidth := policy.bandwidth, faults := policy.faults }
  | .large => policy.sizeTier.map (fun tier => tier.large)

/-- Where the validator finds the profiles of a tier, after the path of the op. -/
def Tier.path : Tier -> String
  | .base => ""
  | .large => ".size_tier.large"

/-- The three validators accept the profiles. -/
structure LargeTierPolicy.Valid (profiles : LargeTierPolicy F) (op : FsOp) (path : String) :
    Prop where
  latency : validateLatency profiles.latency (path ++ ".latency") = .ok ()
  bandwidth : validateBandwidthOption profiles.bandwidth (path ++ ".bandwidth") = .ok ()
  faults : validateFaults profiles.faults op (path ++ ".faults") = .ok ()

/-! ## What a policy passes -/

theorem validateFaultsFrom_op {faults : List (FaultRule F)} {op : FsOp} {path : String}
    {index : Nat} (accepted : validateFaultsFrom op path index faults = .ok ())
    {rule : FaultRule F} (member : rule ∈ faults) : rule.op = op := by
  induction faults generalizing index with
  | nil => cases member
  | cons first rest ih =>
      simp only [validateFaultsFrom, andThen_eq_ok, refuseIf_eq_ok, decide_eq_false_iff_not,
        not_not] at accepted
      rcases List.mem_cons.mp member with rfl | member
      · exact accepted.1
      · exact ih accepted.2.2 member

/-- Every accepted rule is for the op that it is listed under, so filtering by
that op changes nothing. -/
theorem LargeTierPolicy.Valid.filter_faults {profiles : LargeTierPolicy F} {op : FsOp}
    {path : String} (valid : profiles.Valid op path) :
    profiles.faults.filter (fun rule => rule.op = op) = profiles.faults := by
  apply List.filter_eq_self.mpr
  intro rule member
  exact decide_eq_true (validateFaultsFrom_op valid.faults member)

/-- An accepted policy has valid profiles in each of its tiers. -/
theorem valid_profiles {op : FsOp} {policy : OpPolicy F} {path : String}
    (accepted : validateOpPolicy op policy path = .ok ()) {tier : Tier}
    {profiles : LargeTierPolicy F} (present : policy.profiles tier = some profiles) :
    profiles.Valid op (path ++ tier.path) := by
  simp only [validateOpPolicy, andThen_eq_ok] at accepted
  rcases accepted with ⟨-, latency, bandwidth, faults, sizeTier⟩
  cases tier with
  | base =>
      cases present
      rw [Tier.path, String.append_empty]
      exact ⟨latency, bandwidth, faults⟩
  | large =>
      rcases Option.map_eq_some_iff.mp present with ⟨size, configured, rfl⟩
      rw [configured] at sizeTier
      simp only [validateSizeTierOption, validateSizeTier, andThen_eq_ok] at sizeTier
      rcases sizeTier with ⟨-, -, latency, bandwidth, faults⟩
      constructor
      · rw [String.append_assoc]
        exact latency
      · rw [String.append_assoc]
        exact bandwidth
      · rw [String.append_assoc]
        exact faults

/-- An accepted policy has a size tier for data ops only. -/
theorem isData_of_sizeTier {op : FsOp} {policy : OpPolicy F} {path : String}
    (accepted : validateOpPolicy op policy path = .ok ())
    (configured : policy.sizeTier.isSome = true) : op.isData = true := by
  simp only [validateOpPolicy, andThen_eq_ok] at accepted
  rcases Option.isSome_iff_exists.mp configured with ⟨size, configured⟩
  have sizeTier := accepted.2.2.2.2
  rw [configured] at sizeTier
  simp only [validateSizeTierOption, validateSizeTier, andThen_eq_ok, refuseIf_eq_ok] at sizeTier
  simpa using sizeTier.1

/-- The policy that the engine reads for an op is an accepted one. -/
theorem Config.validate_policy_or_default [LawfulF64 F] {config : Config F}
    (accepted : config.validate = .ok ()) (op : FsOp) :
    validateOpPolicy op ((config.ops.get op).getD .default) ("ops." ++ op.asStr) = .ok () := by
  cases present : config.ops.get op with
  | none => exact validateOpPolicy_default op _
  | some policy => exact config.validate_policy accepted present

/-! ## Routing -/

/-- A choice takes its three parts from one tier of a policy, with the limiter
that belongs to that tier, and takes the large tier for data ops only. -/
structure TierChoice.From (choice : TierChoice F) (policy : OpPolicy F) (op : FsOp)
    (profiles : LargeTierPolicy F) : Prop where
  tier : policy.profiles choice.tier = some profiles
  latency : choice.latency = profiles.latency
  faults : choice.faults = profiles.faults
  bandwidth : choice.bandwidth = profiles.bandwidth.map .new
  bucket : choice.bandwidth = (OpResources.new policy).bandwidthOf choice.tier
  large : choice.tier = .large -> op = .read ∨ op = .write

theorem FsOp.isData_iff (op : FsOp) : op.isData = true ↔ op = .read ∨ op = .write := by
  cases op <;> simp [isData]

theorem selectTier_from (policy : OpPolicy F) (op : FsOp) (requestedLen : Nat) :
    exists profiles, (selectTier (.new policy) op requestedLen).From policy op profiles := by
  have base : exists profiles, TierChoice.From
      { tier := .base
        latency := policy.latency
        faults := policy.faults
        bandwidth := policy.bandwidth.map .new } policy op profiles :=
    ⟨_, rfl, rfl, rfl, rfl, rfl, fun large => nomatch large⟩
  unfold selectTier
  by_cases data : op.isData = true
  · rw [if_pos data]
    simp only [OpResources.new]
    cases configured : policy.sizeTier with
    | none => exact base
    | some size =>
        by_cases above : size.thresholdBytes < UInt64.ofNat requestedLen
        · simp only [if_pos above]
          refine ⟨size.large, ?_, rfl, rfl, rfl, ?_, fun _ => op.isData_iff.mp data⟩
          · simp only [OpPolicy.profiles, configured, Option.map_some]
          · simp only [OpResources.bandwidthOf, OpResources.new, configured]
        · simp only [if_neg above]
          exact base
  · rw [if_neg data]
    exact base

/-- Nothing unvalidated reaches the hot path.  In the engine of an accepted
configuration, the latency profile, the fault rules and the bandwidth limiter
that a call is routed to come from one tier, and the profiles of this tier
passed the three validators, the fault rules for the very op of the call.  The
filter by op discards no rule, the op's limiter has a slot, and a size tier
exists and is chosen for reads and writes only. -/
theorem routed_profiles_valid [LawfulF64 F] (config : Config F)
    (accepted : config.validate = .ok ()) (op : FsOp) (requestedLen : Nat) :
    let policy := (config.ops.get op).getD .default
    let resources := (SimEngine.new config).resources op
    let choice := selectTier resources op requestedLen
    (exists profiles, choice.From policy op profiles ∧
      profiles.Valid op ("ops." ++ op.asStr ++ choice.tier.path)) ∧
    choice.faults.filter (fun rule => rule.op = op) = choice.faults ∧
    0 < resources.limiter.cap ∧
    (policy.sizeTier.isSome = true -> op = .read ∨ op = .write) := by
  intro policy resources choice
  have valid := Config.validate_policy_or_default accepted op
  rcases selectTier_from policy op requestedLen with ⟨profiles, chosen⟩
  have profilesValid := valid_profiles valid chosen.tier
  refine ⟨⟨profiles, chosen, profilesValid⟩, ?_, concurrencyCap_pos_of_valid valid,
    fun configured => op.isData_iff.mp (isData_of_sizeTier valid configured)⟩
  have faults : choice.faults = profiles.faults := chosen.faults
  rw [faults]
  exact profilesValid.filter_faults

/-- A read policy whose large tier has a bandwidth limit and a fault rule. -/
def OpPolicy.tiered : OpPolicy Rat :=
  { OpPolicy.default with
    sizeTier := some
      { thresholdBytes := 65536
        large :=
          { latency := .default
            bandwidth := some { bytesPerSec := 1048576, burstBytes := 65536 }
            faults := [{ op := .read, errno := Libc.eio, rate := 1 / 2 }] } } }

/-- A large read under this policy meets its fault rule unfiltered. -/
theorem routed_profiles_valid_large_read :
    (selectTier ((SimEngine.new (Config.reading OpPolicy.tiered)).resources .read) .read
        1048576).faults.filter (fun rule => rule.op = .read) =
      (selectTier ((SimEngine.new (Config.reading OpPolicy.tiered)).resources .read) .read
        1048576).faults :=
  (routed_profiles_valid (Config.reading OpPolicy.tiered) (by decide +kernel) .read 1048576).2.1

end Fusecraft
