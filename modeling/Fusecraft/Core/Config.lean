import Fusecraft.Core.Op
import Fusecraft.Core.Float

namespace Fusecraft

/-!
# Configuration and its validation

The configuration types with their defaults, and the validator with the texts
and field paths of its errors.  Types that hold `f64` fields are generic in
the float type; counts that the source keeps in `usize` are natural numbers.

The map of op policies is a list of entries with distinct keys.  Its order
stands for the hash map's iteration order, which is arbitrary: a statement
about every configuration is a statement about every order.
-/

/-- A map keyed by operation, in some iteration order. -/
structure OpMap (V : Type) where
  entries : List (FsOp × V)
  nodup : (entries.map Prod.fst).Nodup

namespace OpMap

variable {V : Type}

def empty : OpMap V := ⟨[], List.nodup_nil⟩

/-- The value at a key. -/
def get (map : OpMap V) (op : FsOp) : Option V := map.entries.lookup op

theorem ext_entries {first second : OpMap V} (same : first.entries = second.entries) :
    first = second := by
  cases first
  cases second
  cases same
  rfl

theorem mem_of_get {map : OpMap V} {op : FsOp} {value : V} (found : map.get op = some value) :
    (op, value) ∈ map.entries := by
  unfold get at found
  rw [List.lookup_eq_some_iff] at found
  rcases found with ⟨before, after, split, -⟩
  rw [split]
  exact List.mem_append_right _ List.mem_cons_self

end OpMap

/-- Root directory layout strategy. -/
inductive RootLayout where
  | flat
  deriving DecidableEq, Repr

/-- How writes are handled. -/
inductive WriteMode where
  | discard
  deriving DecidableEq, Repr

/-- FUSE mount configuration. -/
structure MountConfig where
  fsName : String
  subtype : String
  autoUnmount : Bool
  defaultPermissions : Bool
  readOnly : Bool
  directIo : Bool
  deriving DecidableEq, Repr

/-- Virtual filesystem layout configuration. -/
structure FilesConfig where
  inodeCount : UInt64
  fileSizeBytes : UInt64
  rootLayout : RootLayout
  writeMode : WriteMode
  deriving DecidableEq, Repr

/-- Telemetry configuration.  A path is an arbitrary byte string. -/
structure MetricsConfig where
  jsonlPath : Option (List UInt8)
  deriving DecidableEq, Repr

/-- Latency injection profile: base, lognormal body and Pareto tail, clamped. -/
structure LatencyProfile (F : Type) where
  baseUs : UInt64
  lognormalMedianUs : F
  lognormalSigma : F
  paretoWeight : F
  paretoXmUs : F
  paretoAlpha : F
  maxUs : UInt64
  deriving DecidableEq

/-- Bandwidth throttling profile. -/
structure BandwidthProfile (F : Type) where
  bytesPerSec : F
  burstBytes : UInt64
  deriving DecidableEq

/-- A fault injection rule: the op it targets, the errno and its probability. -/
structure FaultRule (F : Type) where
  op : FsOp
  errno : Int
  rate : F
  deriving DecidableEq

/-- The triple that replaces the base policy above the size threshold. -/
structure LargeTierPolicy (F : Type) where
  latency : LatencyProfile F
  bandwidth : Option (BandwidthProfile F)
  faults : List (FaultRule F)
  deriving DecidableEq

/-- Size-keyed alternate profile for read and write. -/
structure SizeTier (F : Type) where
  thresholdBytes : UInt64
  large : LargeTierPolicy F
  deriving DecidableEq

/-- Per-operation policy. -/
structure OpPolicy (F : Type) where
  concurrencyCap : Nat
  queueCap : Nat
  latency : LatencyProfile F
  bandwidth : Option (BandwidthProfile F)
  faults : List (FaultRule F)
  sizeTier : Option (SizeTier F)
  deriving DecidableEq

/-- Top-level simulator configuration. -/
structure Config (F : Type) where
  seed : UInt64
  mount : MountConfig
  files : FilesConfig
  ops : OpMap (OpPolicy F)
  metrics : MetricsConfig

/-! ## Defaults -/

def defaultSeed : UInt64 := 42

def defaultFsName : String := "fusecraft"

def defaultSubtype : String := "sim"

def defaultTrue : Bool := true

def defaultInodeCount : UInt64 := 1000

def defaultFileSizeBytes : UInt64 := 65536

def defaultConcurrencyCap : Nat := 64

def defaultMaxUs : UInt64 := 1000000

def MountConfig.default : MountConfig where
  fsName := defaultFsName
  subtype := defaultSubtype
  autoUnmount := true
  defaultPermissions := true
  readOnly := false
  directIo := false

def FilesConfig.default : FilesConfig where
  inodeCount := defaultInodeCount
  fileSizeBytes := defaultFileSizeBytes
  rootLayout := .flat
  writeMode := .discard

def MetricsConfig.default : MetricsConfig where
  jsonlPath := none

section Defaults

variable {F : Type} [F64 F]

def defaultLognormalMedian : F := F64.literal 100

def defaultLognormalSigma : F := F64.literal (1 / 2)

def defaultParetoXm : F := F64.literal 1000

def defaultParetoAlpha : F := F64.literal (3 / 2)

def LatencyProfile.default : LatencyProfile F where
  baseUs := 0
  lognormalMedianUs := defaultLognormalMedian
  lognormalSigma := defaultLognormalSigma
  paretoWeight := F64.literal 0
  paretoXmUs := defaultParetoXm
  paretoAlpha := defaultParetoAlpha
  maxUs := defaultMaxUs

def OpPolicy.default : OpPolicy F where
  concurrencyCap := defaultConcurrencyCap
  queueCap := 0
  latency := .default
  bandwidth := none
  faults := []
  sizeTier := none

def Config.default : Config F where
  seed := defaultSeed
  mount := .default
  files := .default
  ops := .empty
  metrics := .default

/-- The default configuration with a policy for reads. -/
def Config.reading (policy : OpPolicy F) : Config F :=
  { (Config.default : Config F) with ops := ⟨[(.read, policy)], List.nodup_singleton _⟩ }

end Defaults

/-! ## Errno names -/

/-- Parse an errno name into its numeric value. -/
def parseErrno (name : String) : Except FsError Int :=
  match name with
  | "EIO" => .ok Libc.eio
  | "ENOENT" => .ok Libc.enoent
  | "ESTALE" => .ok Libc.estale
  | "ENOSPC" => .ok Libc.enospc
  | "EAGAIN" => .ok Libc.eagain
  | "EINTR" => .ok Libc.eintr
  | other => .error (.config ("unknown errno: " ++ other))

/-! ## Validation -/

section Validation

variable {F : Type} [F64 F]

/-- `if condition { return Err(FsError::Config(message)) }`. -/
def refuseIf (condition : Bool) (message : String) : Except FsError Unit :=
  if condition then .error (.config message) else .ok ()

@[simp] theorem refuseIf_eq_ok {condition : Bool} {message : String} :
    refuseIf condition message = .ok () ↔ condition = false := by
  cases condition <;> simp [refuseIf]

/-- A sequence of checks accepts what each of them accepts. -/
@[simp] theorem andThen_eq_ok {first second : Except FsError Unit} :
    (do first; second) = .ok () ↔ first = .ok () ∧ second = .ok () := by
  cases first with
  | error err => simp [bind, Except.bind]
  | ok value => simp [bind, Except.bind]

/-- The finiteness checks of a latency profile, in the order of the list. -/
def validateFinite (path : String) : List (String × F) -> Except FsError Unit
  | [] => .ok ()
  | (name, value) :: rest => do
      refuseIf (!F64.isFinite value)
        (path ++ "." ++ name ++ " must be finite, got " ++ F64.display value)
      validateFinite path rest

def validateLatency (latency : LatencyProfile F) (path : String) : Except FsError Unit := do
  validateFinite path
    [("lognormal_median_us", latency.lognormalMedianUs),
     ("lognormal_sigma", latency.lognormalSigma),
     ("pareto_weight", latency.paretoWeight),
     ("pareto_xm_us", latency.paretoXmUs),
     ("pareto_alpha", latency.paretoAlpha)]
  refuseIf (latency.maxUs < latency.baseUs)
    (path ++ ".max_us (" ++ toString latency.maxUs ++ ") must be >= base_us (" ++
      toString latency.baseUs ++ ")")
  refuseIf (F64.lt latency.paretoWeight (F64.literal 0) ||
      F64.lt (F64.literal 1) latency.paretoWeight)
    (path ++ ".pareto_weight must be in [0.0, 1.0], got " ++ F64.display latency.paretoWeight)
  refuseIf (F64.lt (F64.literal 0) latency.paretoWeight &&
      F64.le latency.paretoAlpha (F64.literal 0))
    (path ++ ".pareto_alpha must be > 0.0 when pareto_weight > 0")
  refuseIf (F64.lt latency.lognormalMedianUs (F64.literal 0))
    (path ++ ".lognormal_median_us must be >= 0.0")
  refuseIf (F64.lt latency.lognormalSigma (F64.literal 0))
    (path ++ ".lognormal_sigma must be >= 0.0")

/-- Only finiteness of the rate is checked: a rate of zero or less means no
throttling, and a positive one may be arbitrarily small. -/
def validateBandwidth (profile : BandwidthProfile F) (path : String) : Except FsError Unit :=
  refuseIf (!F64.isFinite profile.bytesPerSec)
    (path ++ ".mib_per_sec must be finite, got " ++ F64.display profile.bytesPerSec)

/-- The loop of `validate_faults` from rule number `index` on. -/
def validateFaultsFrom (expectedOp : FsOp) (path : String) :
    Nat -> List (FaultRule F) -> Except FsError Unit
  | _, [] => .ok ()
  | index, fault :: rest => do
      refuseIf (fault.op ≠ expectedOp)
        (path ++ "[" ++ toString index ++ "].op = \"" ++ fault.op.asStr ++
          "\" does not match the enclosing op \"" ++ expectedOp.asStr ++
          "\" (at runtime the sampler filters rules by op, so a mismatch would " ++
          "silently never fire)")
      refuseIf (!F64.isFinite fault.rate || F64.lt fault.rate (F64.literal 0) ||
          F64.lt (F64.literal 1) fault.rate)
        (path ++ "[" ++ toString index ++ "].rate must be a finite value in [0.0, 1.0], got " ++
          F64.display fault.rate)
      validateFaultsFrom expectedOp path (index + 1) rest

def validateFaults (faults : List (FaultRule F)) (expectedOp : FsOp) (path : String) :
    Except FsError Unit :=
  validateFaultsFrom expectedOp path 0 faults

/-- Validate an optional bandwidth profile. -/
def validateBandwidthOption (profile : Option (BandwidthProfile F)) (path : String) :
    Except FsError Unit :=
  match profile with
  | some profile => validateBandwidth profile path
  | none => .ok ()

/-- The checks of a configured size tier. -/
def validateSizeTier (op : FsOp) (tier : SizeTier F) (path : String) : Except FsError Unit := do
  refuseIf (!op.isData)
    (path ++ ".size_tier is only valid on Read or Write ops, not " ++ op.asStr)
  refuseIf (tier.thresholdBytes = 0)
    (path ++ ".size_tier.threshold_bytes must be > 0 (a zero threshold is " ++
      "equivalent to not setting size_tier at all — configure the base policy " ++
      "directly instead)")
  validateLatency tier.large.latency (path ++ ".size_tier.large.latency")
  validateBandwidthOption tier.large.bandwidth (path ++ ".size_tier.large.bandwidth")
  validateFaults tier.large.faults op (path ++ ".size_tier.large.faults")

/-- Validate an optional size tier. -/
def validateSizeTierOption (op : FsOp) (tier : Option (SizeTier F)) (path : String) :
    Except FsError Unit :=
  match tier with
  | some tier => validateSizeTier op tier path
  | none => .ok ()

def validateOpPolicy (op : FsOp) (policy : OpPolicy F) (path : String) :
    Except FsError Unit := do
  refuseIf (policy.concurrencyCap = 0) (path ++ ".concurrency_cap must be > 0")
  validateLatency policy.latency (path ++ ".latency")
  validateBandwidthOption policy.bandwidth (path ++ ".bandwidth")
  validateFaults policy.faults op (path ++ ".faults")
  validateSizeTierOption op policy.sizeTier path

/-- Validate the policies in iteration order. -/
def validateOps : List (FsOp × OpPolicy F) -> Except FsError Unit
  | [] => .ok ()
  | (op, policy) :: rest => do
      validateOpPolicy op policy ("ops." ++ op.asStr)
      validateOps rest

/-- Validate all configuration invariants. -/
def Config.validate (config : Config F) : Except FsError Unit := do
  refuseIf (config.files.inodeCount = 0) "files.inode_count must be > 0"
  refuseIf (config.files.fileSizeBytes = 0) "files.file_size_bytes must be > 0"
  validateOps config.ops.entries

/-! ## What acceptance means -/

theorem validateOps_ok {entries : List (FsOp × OpPolicy F)}
    (accepted : validateOps entries = .ok ()) {op : FsOp} {policy : OpPolicy F}
    (member : (op, policy) ∈ entries) :
    validateOpPolicy op policy ("ops." ++ op.asStr) = .ok () := by
  induction entries with
  | nil => cases member
  | cons entry rest ih =>
      rcases andThen_eq_ok.mp accepted with ⟨head, tail⟩
      rcases List.mem_cons.mp member with same | member
      · cases same
        exact head
      · exact ih tail member

/-- In an accepted configuration every policy present passed its checks. -/
theorem Config.validate_policy {config : Config F} (accepted : config.validate = .ok ())
    {op : FsOp} {policy : OpPolicy F} (present : config.ops.get op = some policy) :
    validateOpPolicy op policy ("ops." ++ op.asStr) = .ok () := by
  simp only [Config.validate, andThen_eq_ok] at accepted
  exact validateOps_ok accepted.2.2 (OpMap.mem_of_get present)

theorem concurrencyCap_pos_of_valid {op : FsOp} {policy : OpPolicy F} {path : String}
    (accepted : validateOpPolicy op policy path = .ok ()) : 0 < policy.concurrencyCap := by
  simp only [validateOpPolicy, andThen_eq_ok, refuseIf_eq_ok, decide_eq_false_iff_not] at accepted
  omega

/-- The default policy passes its own checks, for every op. -/
theorem validateOpPolicy_default [LawfulF64 F] (op : FsOp) (path : String) :
    validateOpPolicy op (OpPolicy.default : OpPolicy F) path = .ok () := by
  have finite : forall value : Rat, |value| ≤ 1000 ->
      F64.isFinite (F64.literal value : F) = true := by
    intro value small
    have range : (1000 : Rat) ≤ 2 ^ 1000 :=
      le_trans (by norm_num : (1000 : Rat) ≤ 2 ^ 10) (pow_le_pow_right₀ (by norm_num) (by norm_num))
    exact LawfulF64.isFinite_literal (le_trans small range)
  have latency : validateLatency (LatencyProfile.default : LatencyProfile F) (path ++ ".latency") =
      .ok () := by
    simp only [validateLatency, validateFinite, andThen_eq_ok, refuseIf_eq_ok,
      LatencyProfile.default, defaultLognormalMedian, defaultLognormalSigma, defaultParetoXm,
      defaultParetoAlpha, Bool.not_eq_false', Bool.or_eq_false_iff, Bool.and_eq_false_iff]
    refine ⟨⟨finite _ ?_, finite _ ?_, finite _ ?_, finite _ ?_, finite _ ?_, trivial⟩, rfl,
      ⟨F64.literal_not_lt ?_, F64.literal_not_lt ?_⟩, Or.inl (F64.literal_not_lt ?_),
      F64.literal_not_lt ?_, F64.literal_not_lt ?_⟩ <;> norm_num [abs_of_pos]
  simp only [validateOpPolicy, andThen_eq_ok]
  exact ⟨rfl, latency, rfl, rfl, rfl⟩

end Validation

end Fusecraft
