import Fusecraft.Library.Serde
import Fusecraft.Core.Config

namespace Fusecraft

open Serde

/-!
# The serialized form of a configuration

What the derived `Serialize` writes, and what `Deserialize` reads, at the
level of the data model: field names, kinds of values, omitted options and
names of enum variants.  Reading goes through a separate struct for bandwidth
profiles and for fault rules.  A struct may be given as a sequence of its
fields, and an enum as a table with the name of a variant.
-/

section Scalars

variable {F : Type}

def writeBool (value : Bool) : Except String (Value F) := .ok (.boolean value)

/-- `serialize_u64`, also for a `usize`. -/
def writeUnsigned (value : Nat) : Except String (Value F) := .ok (.integer value)

def writeU64 (value : UInt64) : Except String (Value F) := writeUnsigned value.toNat

def writeI32 (value : Int) : Except String (Value F) := .ok (.integer value)

def writeF64 (value : F) : Except String (Value F) := .ok (.float value)

def writeString (value : String) : Except String (Value F) := .ok (.string value)

/-- A path is written as a string, and only if it is one. -/
def writePath (path : List UInt8) : Except String (Value F) :=
  match String.fromUTF8? path.toByteArray with
  | some text => .ok (.string text)
  | none => .error "path contains invalid UTF-8 characters"

variable [F64 F]

def readBool : Value F -> Except String Bool
  | .boolean value => .ok value
  | other => invalidType F64.display other "a boolean"

/-- An unsigned integer of 64 bits. -/
def readUnsigned (expected : String) : Value F -> Except String Nat
  | .integer value =>
      if 0 ≤ value ∧ value < 2 ^ 64 then .ok value.toNat
      else if IsWord value then
        .error ("invalid value: integer `" ++ toString value ++ "`, expected " ++ expected)
      else invalidType F64.display (Value.integer (F := F) value) expected
  | other => invalidType F64.display other expected

def readU64 (value : Value F) : Except String UInt64 :=
  (readUnsigned "u64" value).map UInt64.ofNat

def readUsize (value : Value F) : Except String Nat := readUnsigned "usize" value

/-- A float may also be given as an integer of 64 bits. -/
def readF64 : Value F -> Except String F
  | .float value => .ok value
  | .integer value =>
      if ¬ IsWord value then invalidType F64.display (Value.integer (F := F) value) "f64"
      else if 0 ≤ value then .ok (F64.ofU64 (UInt64.ofNat value.toNat))
      else .ok (F64.neg (F64.ofU64 (UInt64.ofNat value.natAbs)))
  | other => invalidType F64.display other "f64"

def readString : Value F -> Except String String
  | .string value => .ok value
  | other => invalidType F64.display other "a string"

def readPath : Value F -> Except String (List UInt8)
  | .string value => .ok (osStr value)
  | other => invalidType F64.display other "path string"

/-- The names that an unknown variant is compared with, as its error lists them. -/
def oneOf : List String -> String
  | [name] => "`" ++ name ++ "`"
  | names => "one of " ++ ", ".intercalate (names.map (fun name => "`" ++ name ++ "`"))

/-- The variant of an enum with a given name. -/
def variantOf {Variant : Type} (names : List (String × Variant)) (name : String) :
    Except String Variant :=
  match names.lookup name with
  | some variant => .ok variant
  | none =>
      .error ("unknown variant `" ++ name ++ "`, expected " ++ oneOf (names.map Prod.fst))

/-- What stands beside the name of a variant without contents. -/
def readUnit : Value F -> Except String Unit
  | .array items => if items.isEmpty then .ok () else .error "expected empty array"
  | .table fields => if fields.isEmpty then .ok () else .error "expected empty table"
  | .boolean _ => .error "expected table, found boolean"
  | .integer _ => .error "expected table, found integer"
  | .float _ => .error "expected table, found float"
  | .string _ => .error "expected table, found string"

/-- An enum is given by the name of a variant, also as the only key of a table. -/
def readVariant {Variant : Type} (names : List (String × Variant)) :
    Value F -> Except String Variant
  | .string name => variantOf names name
  | .table [] => .error "wanted exactly 1 element, found 0 elements"
  | .table [(name, content)] => do
      let variant ← variantOf names name
      readUnit content
      .ok variant
  | .table _ => .error "wanted exactly 1 element, more than 1 element"
  | _ => .error "wanted string or table"

def readArray {α : Type} (read : Value F -> Except String α) : Value F -> Except String (List α)
  | .array items => readItems read items
  | other => invalidType F64.display other "a sequence"

end Scalars

namespace OpMap

variable {V : Type}

/-- `HashMap::insert`: a key that is present gets the new value. -/
def insert (map : OpMap V) (op : FsOp) (value : V) : OpMap V where
  entries := map.entries.filter (fun entry => entry.1 ≠ op) ++ [(op, value)]
  nodup := by
    rw [List.map_append, List.nodup_append]
    refine ⟨?_, List.nodup_singleton _, ?_⟩
    · exact List.Nodup.sublist (List.Sublist.map _ List.filter_sublist) map.nodup
    · intro key member last member'
      rcases List.mem_map.mp member with ⟨entry, kept, rfl⟩
      rw [List.mem_singleton.mp member']
      exact of_decide_eq_true (List.mem_filter.mp kept).2

/-- The map that is built by inserting entries one after the other. -/
def ofEntries (entries : List (FsOp × V)) : OpMap V :=
  entries.foldl (fun map entry => map.insert entry.1 entry.2) .empty

end OpMap

/-! ## Names of enum variants -/

def RootLayout.asStr : RootLayout -> String
  | .flat => "flat"

def WriteMode.asStr : WriteMode -> String
  | .discard => "discard"

section Records

variable {F : Type}

/-! ## What is written -/

def MountConfig.serialize (mount : MountConfig) : Except String (Value F) :=
  writeStruct
    [("fs_name", present (writeString mount.fsName)),
     ("subtype", present (writeString mount.subtype)),
     ("auto_unmount", present (writeBool mount.autoUnmount)),
     ("default_permissions", present (writeBool mount.defaultPermissions)),
     ("read_only", present (writeBool mount.readOnly)),
     ("direct_io", present (writeBool mount.directIo))]

def FilesConfig.serialize (files : FilesConfig) : Except String (Value F) :=
  writeStruct
    [("inode_count", present (writeU64 files.inodeCount)),
     ("file_size_bytes", present (writeU64 files.fileSizeBytes)),
     ("root_layout", present (writeString files.rootLayout.asStr)),
     ("write_mode", present (writeString files.writeMode.asStr))]

def MetricsConfig.serialize (metrics : MetricsConfig) : Except String (Value F) :=
  writeStruct [("jsonl_path", optional writePath metrics.jsonlPath)]

def LatencyProfile.serialize (profile : LatencyProfile F) : Except String (Value F) :=
  writeStruct
    [("base_us", present (writeU64 profile.baseUs)),
     ("lognormal_median_us", present (writeF64 profile.lognormalMedianUs)),
     ("lognormal_sigma", present (writeF64 profile.lognormalSigma)),
     ("pareto_weight", present (writeF64 profile.paretoWeight)),
     ("pareto_xm_us", present (writeF64 profile.paretoXmUs)),
     ("pareto_alpha", present (writeF64 profile.paretoAlpha)),
     ("max_us", present (writeU64 profile.maxUs))]

def BandwidthProfile.serialize (profile : BandwidthProfile F) : Except String (Value F) :=
  writeStruct
    [("bytes_per_sec", present (writeF64 profile.bytesPerSec)),
     ("burst_bytes", present (writeU64 profile.burstBytes))]

def FaultRule.serialize (rule : FaultRule F) : Except String (Value F) :=
  writeStruct
    [("op", present (writeString rule.op.asStr)),
     ("errno", present (writeI32 rule.errno)),
     ("rate", present (writeF64 rule.rate))]

def LargeTierPolicy.serialize (policy : LargeTierPolicy F) : Except String (Value F) :=
  writeStruct
    [("latency", present policy.latency.serialize),
     ("bandwidth", optional BandwidthProfile.serialize policy.bandwidth),
     ("faults", present (writeArray FaultRule.serialize policy.faults))]

def SizeTier.serialize (tier : SizeTier F) : Except String (Value F) :=
  writeStruct
    [("threshold_bytes", present (writeU64 tier.thresholdBytes)),
     ("large", present tier.large.serialize)]

def OpPolicy.serialize (policy : OpPolicy F) : Except String (Value F) :=
  writeStruct
    [("concurrency_cap", present (writeUnsigned policy.concurrencyCap)),
     ("queue_cap", present (writeUnsigned policy.queueCap)),
     ("latency", present policy.latency.serialize),
     ("bandwidth", optional BandwidthProfile.serialize policy.bandwidth),
     ("faults", present (writeArray FaultRule.serialize policy.faults)),
     ("size_tier", optional SizeTier.serialize policy.sizeTier)]

def OpMap.serialize (ops : OpMap (OpPolicy F)) : Except String (Value F) :=
  (writeEntries FsOp.asStr OpPolicy.serialize ops.entries).map .table

def Config.serialize (config : Config F) : Except String (Value F) :=
  writeStruct
    [("seed", present (writeU64 config.seed)),
     ("mount", present config.mount.serialize),
     ("files", present config.files.serialize),
     ("ops", present config.ops.serialize),
     ("metrics", present config.metrics.serialize)]

/-! ## What is read -/

variable [F64 F]

def FsOp.names : List (String × FsOp) := FsOp.all.map (fun op => (op.asStr, op))

/-- The key of a map is the name of a variant. -/
def FsOp.ofName : String -> Except String FsOp := variantOf FsOp.names

def FsOp.deserialize : Value F -> Except String FsOp := readVariant FsOp.names

def RootLayout.deserialize : Value F -> Except String RootLayout := readVariant [("flat", .flat)]

def WriteMode.deserialize : Value F -> Except String WriteMode :=
  readVariant [("discard", .discard)]

def MountConfig.fieldNames : List String :=
  ["fs_name", "subtype", "auto_unmount", "default_permissions", "read_only", "direct_io"]

def MountConfig.deserialize : Value F -> Except String MountConfig :=
  readStruct F64.display "MountConfig" MountConfig.fieldNames fun members => do
    let fsName ← readField members "fs_name" (.ok defaultFsName) readString
    let subtype ← readField members "subtype" (.ok defaultSubtype) readString
    let autoUnmount ← readField members "auto_unmount" (.ok defaultTrue) readBool
    let defaultPermissions ← readField members "default_permissions" (.ok defaultTrue) readBool
    let readOnly ← readField members "read_only" (.ok false) readBool
    let directIo ← readField members "direct_io" (.ok false) readBool
    .ok { fsName, subtype, autoUnmount, defaultPermissions, readOnly, directIo }

def FilesConfig.fieldNames : List String :=
  ["inode_count", "file_size_bytes", "root_layout", "write_mode"]

def FilesConfig.deserialize : Value F -> Except String FilesConfig :=
  readStruct F64.display "FilesConfig" FilesConfig.fieldNames fun members => do
    let inodeCount ← readField members "inode_count" (.ok defaultInodeCount) readU64
    let fileSizeBytes ← readField members "file_size_bytes" (.ok defaultFileSizeBytes) readU64
    let rootLayout ← readField members "root_layout" (.ok .flat) RootLayout.deserialize
    let writeMode ← readField members "write_mode" (.ok .discard) WriteMode.deserialize
    .ok { inodeCount, fileSizeBytes, rootLayout, writeMode }

def MetricsConfig.fieldNames : List String := ["jsonl_path"]

def MetricsConfig.deserialize : Value F -> Except String MetricsConfig :=
  readStruct F64.display "MetricsConfig" MetricsConfig.fieldNames fun members => do
    let jsonlPath ← readField members "jsonl_path" (.ok none) fun value => (readPath value).map some
    .ok { jsonlPath }

def LatencyProfile.fieldNames : List String :=
  ["base_us", "lognormal_median_us", "lognormal_sigma", "pareto_weight", "pareto_xm_us",
   "pareto_alpha", "max_us"]

def LatencyProfile.deserialize : Value F -> Except String (LatencyProfile F) :=
  readStruct F64.display "LatencyProfile" LatencyProfile.fieldNames fun members => do
    let baseUs ← readField members "base_us" (.ok 0) readU64
    let lognormalMedianUs ←
      readField members "lognormal_median_us" (.ok defaultLognormalMedian) readF64
    let lognormalSigma ← readField members "lognormal_sigma" (.ok defaultLognormalSigma) readF64
    let paretoWeight ← readField members "pareto_weight" (.ok (F64.literal 0)) readF64
    let paretoXmUs ← readField members "pareto_xm_us" (.ok defaultParetoXm) readF64
    let paretoAlpha ← readField members "pareto_alpha" (.ok defaultParetoAlpha) readF64
    let maxUs ← readField members "max_us" (.ok defaultMaxUs) readU64
    .ok { baseUs, lognormalMedianUs, lognormalSigma, paretoWeight, paretoXmUs, paretoAlpha, maxUs }

/-- The struct that a bandwidth profile is read through. -/
structure BandwidthProfileRaw (F : Type) where
  mibPerSec : F
  burstBytes : UInt64

def BandwidthProfileRaw.fieldNames : List String := ["mib_per_sec", "burst_bytes"]

def BandwidthProfileRaw.deserialize : Value F -> Except String (BandwidthProfileRaw F) :=
  readStruct F64.display "BandwidthProfileRaw" BandwidthProfileRaw.fieldNames fun members => do
    let mibPerSec ← readRequired members "mib_per_sec" readF64
    let burstBytes ← readRequired members "burst_bytes" readU64
    .ok { mibPerSec, burstBytes }

def BandwidthProfile.deserialize (value : Value F) : Except String (BandwidthProfile F) := do
  let raw ← BandwidthProfileRaw.deserialize value
  .ok
    { bytesPerSec := F64.mul (F64.mul raw.mibPerSec (F64.literal 1024)) (F64.literal 1024)
      burstBytes := raw.burstBytes }

/-- The struct that a fault rule is read through: the errno is a name. -/
structure FaultRuleRaw (F : Type) where
  op : FsOp
  errno : String
  rate : F

def FaultRuleRaw.fieldNames : List String := ["op", "errno", "rate"]

def FaultRuleRaw.deserialize : Value F -> Except String (FaultRuleRaw F) :=
  readStruct F64.display "FaultRuleRaw" FaultRuleRaw.fieldNames fun members => do
    let op ← readRequired members "op" FsOp.deserialize
    let errno ← readRequired members "errno" readString
    let rate ← readRequired members "rate" readF64
    .ok { op, errno, rate }

/-- `Display` of the error type; of an I/O error only the code is kept. -/
def FsError.display : FsError -> String
  | .errno code => "errno(" ++ toString code ++ ")"
  | .config message => "config: " ++ message
  | .io rawOsError => "io: os error " ++ toString (rawOsError.getD Libc.eio)

def FaultRule.deserialize (value : Value F) : Except String (FaultRule F) := do
  let raw ← FaultRuleRaw.deserialize value
  let errno ← (parseErrno raw.errno).mapError FsError.display
  .ok { op := raw.op, errno, rate := raw.rate }

def LargeTierPolicy.fieldNames : List String := ["latency", "bandwidth", "faults"]

def LargeTierPolicy.deserialize : Value F -> Except String (LargeTierPolicy F) :=
  readStruct F64.display "LargeTierPolicy" LargeTierPolicy.fieldNames fun members => do
    let latency ← readField members "latency" (.ok .default) LatencyProfile.deserialize
    let bandwidth ← readField members "bandwidth" (.ok none)
      fun value => (BandwidthProfile.deserialize value).map some
    let faults ← readField members "faults" (.ok []) (readArray FaultRule.deserialize)
    .ok { latency, bandwidth, faults }

def SizeTier.fieldNames : List String := ["threshold_bytes", "large"]

def SizeTier.deserialize : Value F -> Except String (SizeTier F) :=
  readStruct F64.display "SizeTier" SizeTier.fieldNames fun members => do
    let thresholdBytes ← readRequired members "threshold_bytes" readU64
    let large ← readRequired members "large" LargeTierPolicy.deserialize
    .ok { thresholdBytes, large }

def OpPolicy.fieldNames : List String :=
  ["concurrency_cap", "queue_cap", "latency", "bandwidth", "faults", "size_tier"]

def OpPolicy.deserialize : Value F -> Except String (OpPolicy F) :=
  readStruct F64.display "OpPolicy" OpPolicy.fieldNames fun members => do
    let concurrencyCap ←
      readField members "concurrency_cap" (.ok defaultConcurrencyCap) readUsize
    let queueCap ← readField members "queue_cap" (.ok 0) readUsize
    let latency ← readField members "latency" (.ok .default) LatencyProfile.deserialize
    let bandwidth ← readField members "bandwidth" (.ok none)
      fun value => (BandwidthProfile.deserialize value).map some
    let faults ← readField members "faults" (.ok []) (readArray FaultRule.deserialize)
    let sizeTier ← readField members "size_tier" (.ok none)
      fun value => (SizeTier.deserialize value).map some
    .ok { concurrencyCap, queueCap, latency, bandwidth, faults, sizeTier }

def OpMap.deserialize : Value F -> Except String (OpMap (OpPolicy F))
  | .table fields => (readEntries FsOp.ofName OpPolicy.deserialize fields).map .ofEntries
  | other => invalidType F64.display other "a map"

def Config.fieldNames : List String := ["seed", "mount", "files", "ops", "metrics"]

def Config.deserialize : Value F -> Except String (Config F) :=
  readStruct F64.display "Config" Config.fieldNames fun members => do
    let seed ← readField members "seed" (.ok defaultSeed) readU64
    let mount ← readField members "mount" (.ok .default) MountConfig.deserialize
    let files ← readField members "files" (.ok .default) FilesConfig.deserialize
    let ops ← readField members "ops" (.ok .empty) OpMap.deserialize
    let metrics ← readField members "metrics" (.ok .default) MetricsConfig.deserialize
    .ok { seed, mount, files, ops, metrics }

/-! ## Readers by field -/

theorem MountConfig.deserialize_eq_ok {tree : Value F} {mount : MountConfig} :
    MountConfig.deserialize tree = .ok mount ↔
      exists members, tree.members "MountConfig" MountConfig.fieldNames = some members ∧
        readField members "fs_name" (.ok defaultFsName) readString = .ok mount.fsName ∧
        readField members "subtype" (.ok defaultSubtype) readString = .ok mount.subtype ∧
        readField members "auto_unmount" (.ok defaultTrue) readBool = .ok mount.autoUnmount ∧
        readField members "default_permissions" (.ok defaultTrue) readBool =
          .ok mount.defaultPermissions ∧
        readField members "read_only" (.ok false) readBool = .ok mount.readOnly ∧
        readField members "direct_io" (.ok false) readBool = .ok mount.directIo := by
  cases mount
  simp [MountConfig.deserialize, readStruct_eq_ok, bind_eq_ok, -Bool.exists_bool]

theorem FilesConfig.deserialize_eq_ok {tree : Value F} {files : FilesConfig} :
    FilesConfig.deserialize tree = .ok files ↔
      exists members, tree.members "FilesConfig" FilesConfig.fieldNames = some members ∧
        readField members "inode_count" (.ok defaultInodeCount) readU64 = .ok files.inodeCount ∧
        readField members "file_size_bytes" (.ok defaultFileSizeBytes) readU64 =
          .ok files.fileSizeBytes ∧
        readField members "root_layout" (.ok .flat) RootLayout.deserialize =
          .ok files.rootLayout ∧
        readField members "write_mode" (.ok .discard) WriteMode.deserialize =
          .ok files.writeMode := by
  simp only [FilesConfig.deserialize, readStruct_eq_ok, bind_eq_ok]
  refine exists_congr fun members => and_congr_right fun _ => ⟨?_, ?_⟩
  · rintro ⟨_, inodeCount, _, fileSizeBytes, _, rootLayout, _, writeMode, shape⟩
    cases shape
    exact ⟨inodeCount, fileSizeBytes, rootLayout, writeMode⟩
  · rintro ⟨inodeCount, fileSizeBytes, rootLayout, writeMode⟩
    exact ⟨_, inodeCount, _, fileSizeBytes, _, rootLayout, _, writeMode, rfl⟩

theorem MetricsConfig.deserialize_eq_ok {tree : Value F} {metrics : MetricsConfig} :
    MetricsConfig.deserialize tree = .ok metrics ↔
      exists members, tree.members "MetricsConfig" MetricsConfig.fieldNames = some members ∧
        readField members "jsonl_path" (.ok none) (fun value => (readPath value).map some) =
          .ok metrics.jsonlPath := by
  cases metrics
  simp [MetricsConfig.deserialize, readStruct_eq_ok, bind_eq_ok]

theorem LatencyProfile.deserialize_eq_ok {tree : Value F} {profile : LatencyProfile F} :
    LatencyProfile.deserialize tree = .ok profile ↔
      exists members, tree.members "LatencyProfile" LatencyProfile.fieldNames = some members ∧
        readField members "base_us" (.ok 0) readU64 = .ok profile.baseUs ∧
        readField members "lognormal_median_us" (.ok defaultLognormalMedian) readF64 =
          .ok profile.lognormalMedianUs ∧
        readField members "lognormal_sigma" (.ok defaultLognormalSigma) readF64 =
          .ok profile.lognormalSigma ∧
        readField members "pareto_weight" (.ok (F64.literal 0)) readF64 =
          .ok profile.paretoWeight ∧
        readField members "pareto_xm_us" (.ok defaultParetoXm) readF64 = .ok profile.paretoXmUs ∧
        readField members "pareto_alpha" (.ok defaultParetoAlpha) readF64 =
          .ok profile.paretoAlpha ∧
        readField members "max_us" (.ok defaultMaxUs) readU64 = .ok profile.maxUs := by
  cases profile
  simp [LatencyProfile.deserialize, readStruct_eq_ok, bind_eq_ok]

theorem BandwidthProfileRaw.deserialize_eq_ok {tree : Value F} {raw : BandwidthProfileRaw F} :
    BandwidthProfileRaw.deserialize tree = .ok raw ↔
      exists members,
        tree.members "BandwidthProfileRaw" BandwidthProfileRaw.fieldNames = some members ∧
        readRequired members "mib_per_sec" readF64 = .ok raw.mibPerSec ∧
        readRequired members "burst_bytes" readU64 = .ok raw.burstBytes := by
  cases raw
  simp [BandwidthProfileRaw.deserialize, readStruct_eq_ok, bind_eq_ok]

theorem FaultRuleRaw.deserialize_eq_ok {tree : Value F} {raw : FaultRuleRaw F} :
    FaultRuleRaw.deserialize tree = .ok raw ↔
      exists members, tree.members "FaultRuleRaw" FaultRuleRaw.fieldNames = some members ∧
        readRequired members "op" FsOp.deserialize = .ok raw.op ∧
        readRequired members "errno" readString = .ok raw.errno ∧
        readRequired members "rate" readF64 = .ok raw.rate := by
  cases raw
  simp [FaultRuleRaw.deserialize, readStruct_eq_ok, bind_eq_ok]

theorem LargeTierPolicy.deserialize_eq_ok {tree : Value F} {profiles : LargeTierPolicy F} :
    LargeTierPolicy.deserialize tree = .ok profiles ↔
      exists members, tree.members "LargeTierPolicy" LargeTierPolicy.fieldNames = some members ∧
        readField members "latency" (.ok .default) LatencyProfile.deserialize =
          .ok profiles.latency ∧
        readField members "bandwidth" (.ok none)
          (fun value => (BandwidthProfile.deserialize value).map some) = .ok profiles.bandwidth ∧
        readField members "faults" (.ok []) (readArray FaultRule.deserialize) =
          .ok profiles.faults := by
  cases profiles
  simp [LargeTierPolicy.deserialize, readStruct_eq_ok, bind_eq_ok]

theorem SizeTier.deserialize_eq_ok {tree : Value F} {tier : SizeTier F} :
    SizeTier.deserialize tree = .ok tier ↔
      exists members, tree.members "SizeTier" SizeTier.fieldNames = some members ∧
        readRequired members "threshold_bytes" readU64 = .ok tier.thresholdBytes ∧
        readRequired members "large" LargeTierPolicy.deserialize = .ok tier.large := by
  cases tier
  simp [SizeTier.deserialize, readStruct_eq_ok, bind_eq_ok]

theorem OpPolicy.deserialize_eq_ok {tree : Value F} {policy : OpPolicy F} :
    OpPolicy.deserialize tree = .ok policy ↔
      exists members, tree.members "OpPolicy" OpPolicy.fieldNames = some members ∧
        readField members "concurrency_cap" (.ok defaultConcurrencyCap) readUsize =
          .ok policy.concurrencyCap ∧
        readField members "queue_cap" (.ok 0) readUsize = .ok policy.queueCap ∧
        readField members "latency" (.ok .default) LatencyProfile.deserialize =
          .ok policy.latency ∧
        readField members "bandwidth" (.ok none)
          (fun value => (BandwidthProfile.deserialize value).map some) = .ok policy.bandwidth ∧
        readField members "faults" (.ok []) (readArray FaultRule.deserialize) =
          .ok policy.faults ∧
        readField members "size_tier" (.ok none)
          (fun value => (SizeTier.deserialize value).map some) = .ok policy.sizeTier := by
  cases policy
  simp [OpPolicy.deserialize, readStruct_eq_ok, bind_eq_ok]

theorem Config.deserialize_eq_ok {tree : Value F} {config : Config F} :
    Config.deserialize tree = .ok config ↔
      exists members, tree.members "Config" Config.fieldNames = some members ∧
        readField members "seed" (.ok defaultSeed) readU64 = .ok config.seed ∧
        readField members "mount" (.ok .default) MountConfig.deserialize = .ok config.mount ∧
        readField members "files" (.ok .default) FilesConfig.deserialize = .ok config.files ∧
        readField members "ops" (.ok .empty) OpMap.deserialize = .ok config.ops ∧
        readField members "metrics" (.ok .default) MetricsConfig.deserialize =
          .ok config.metrics := by
  cases config
  simp [Config.deserialize, readStruct_eq_ok, bind_eq_ok]

end Records

end Fusecraft
