import Fusecraft.Core.ConfigRoundTrip
import Fusecraft.Library.Documents

namespace Fusecraft

open Serde

/-!
# What a configuration file can say

A file is parsed to a table, the table is read, and what was read is validated.
The text format has all integers of 64 bits and tables with distinct keys;
besides that a file may say anything.  A date in it comes to the readers as a
table with a key of its own.  Here the range of every reader is found, and with
it the configurations that some file gives: it turns out that the format of the
reader has all of them that its texts, its errno names and its unit of
bandwidth can express, also those that the program cannot write in a form that
it would read.
-/

variable {F : Type} [F64 F]

/-- The text format as the readers see it: the integers that its parser hands
to them, which are at least those of 64 bits without a sign. -/
structure TomlFormat where
  integers : Int -> Prop
  words : forall value : Nat, value < 2 ^ 64 -> integers value

/-- A parser that hands on whatever fits 128 bits, with or without a sign. -/
def TomlFormat.wide : TomlFormat where
  integers := fun value => -2 ^ 127 ≤ value ∧ value < 2 ^ 128
  words := by
    intro value small
    omega

/-- A tree that a text gives. -/
abbrev TomlDocument (format : TomlFormat) (tree : Value F) : Prop := Document format.integers tree

variable {format : TomlFormat}

/-- A configuration as `load_config` gives it for the table in its file, or the
error with its context. -/
def loadConfig (path : String) (fields : List (String × Value F)) :
    Except (List String) (Config F) := do
  let config ← (Config.deserialize (.table fields)).mapError fun err =>
    ["invalid TOML in " ++ path, err]
  config.validate.mapError fun err =>
    ["config validation failed for " ++ path, err.display]
  .ok config

/-! ## Scalars -/

section Scalars

theorem ranges_bool : Ranges format.integers (readBool (F := F)) (fun _ => True) := fun value =>
  iff_of_true ⟨.boolean value, .boolean value, rfl⟩ trivial

theorem ranges_string : Ranges format.integers (readString (F := F)) (fun _ => True) := fun value =>
  iff_of_true ⟨.string value, .string value, rfl⟩ trivial

theorem ranges_f64 : Ranges format.integers (readF64 (F := F)) (fun _ => True) := fun value =>
  iff_of_true ⟨.float value, .float value, rfl⟩ trivial

theorem readUnsigned_eq_ok {expected : String} {tree : Value F} {value : Nat} :
    readUnsigned expected tree = .ok value ↔ tree = .integer value ∧ value < 2 ^ 64 := by
  constructor
  · intro reads
    cases tree with
    | integer number =>
        rw [readUnsigned] at reads
        by_cases fits : 0 ≤ number ∧ number < 2 ^ 64
        · rw [if_pos fits] at reads
          cases reads
          exact ⟨by rw [Int.toNat_of_nonneg fits.1], by omega⟩
        · rw [if_neg fits] at reads
          split at reads <;> cases reads
    | _ => cases reads
  · rintro ⟨rfl, fits⟩
    have bounds : 0 ≤ (value : Int) ∧ (value : Int) < 2 ^ 64 := by omega
    rw [readUnsigned, if_pos bounds, Int.toNat_natCast]

theorem ranges_unsigned (expected : String) :
    Ranges format.integers (readUnsigned (F := F) expected) (fun value => value < 2 ^ 64) := by
  intro value
  constructor
  · rintro ⟨tree, document, reads⟩
    exact (readUnsigned_eq_ok.mp reads).2
  · intro fits
    exact ⟨.integer value, .integer (format.words value fits), readUnsigned_eq_ok.mpr ⟨rfl, fits⟩⟩

theorem ranges_usize :
    Ranges format.integers (readUsize (F := F)) (fun value => value < 2 ^ 64) :=
  ranges_unsigned "usize"

theorem ranges_u64 : Ranges format.integers (readU64 (F := F)) (fun _ => True) := by
  intro value
  refine iff_of_true ?_ trivial
  rcases (ranges_unsigned (F := F) "u64" value.toNat).mpr value.toNat_lt with
    ⟨tree, document, reads⟩
  exact ⟨tree, document, map_eq_ok.mpr ⟨value.toNat, reads, UInt64.ofNat_toNat⟩⟩

/-- A path that is read is a text. -/
theorem ranges_path :
    Ranges format.integers (readPath (F := F)) (fun path => isUtf8 path = true) := by
  intro path
  change _ ↔ path.toByteArray.validateUTF8 = true
  rw [ByteArray.validateUTF8_eq_true_iff]
  constructor
  · rintro ⟨tree, document, reads⟩
    cases document with
    | string text =>
        cases reads
        have bytes : (osStr text).toByteArray = text.toByteArray := by
          apply ByteArray.ext
          exact Array.toList_inj.mp List.toList_data_toByteArray
        rw [bytes]
        exact text.isValidUTF8
    | _ => cases reads
  · intro valid
    refine ⟨.string (String.fromUTF8 path.toByteArray valid), .string _, ?_⟩
    exact congrArg Except.ok (List.toList_data_toByteArray (l := path))

theorem ofName_eq_ok (name : String) (op : FsOp) : FsOp.ofName name = .ok op ↔ name = op.asStr := by
  constructor
  · intro reads
    unfold FsOp.ofName variantOf at reads
    split at reads
    · rename_i found
      cases reads
      rcases List.lookup_eq_some_iff.mp found with ⟨before, after, split, -⟩
      have member : (name, op) ∈ FsOp.names := by
        rw [split]
        exact List.mem_append_right _ List.mem_cons_self
      rcases List.mem_map.mp member with ⟨other, -, same⟩
      cases same
      rfl
    · cases reads
  · rintro rfl
    exact ofName_asStr op

omit [F64 F] in
theorem ranges_op : Ranges format.integers (FsOp.deserialize (F := F)) (fun _ => True) := fun op =>
  iff_of_true ⟨.string op.asStr, .string op.asStr, ofName_asStr op⟩ trivial

omit [F64 F] in
theorem ranges_rootLayout :
    Ranges format.integers (RootLayout.deserialize (F := F)) (fun _ => True) := by
  intro layout
  cases layout
  exact iff_of_true ⟨.string "flat", .string "flat", rfl⟩ trivial

omit [F64 F] in
theorem ranges_writeMode :
    Ranges format.integers (WriteMode.deserialize (F := F)) (fun _ => True) := by
  intro mode
  cases mode
  exact iff_of_true ⟨.string "discard", .string "discard", rfl⟩ trivial

end Scalars

/-! ## Records -/

section Records

theorem MountConfig.ranges :
    Ranges format.integers (MountConfig.deserialize (F := F)) (fun _ => True) := by
  apply ranges_struct "MountConfig" MountConfig.fieldNames (fun mount =>
    [("fs_name", fun tree => readValue (.ok defaultFsName) readString tree = .ok mount.fsName),
     ("subtype", fun tree => readValue (.ok defaultSubtype) readString tree = .ok mount.subtype),
     ("auto_unmount", fun tree =>
       readValue (.ok defaultTrue) readBool tree = .ok mount.autoUnmount),
     ("default_permissions", fun tree =>
       readValue (.ok defaultTrue) readBool tree = .ok mount.defaultPermissions),
     ("read_only", fun tree => readValue (.ok false) readBool tree = .ok mount.readOnly),
     ("direct_io", fun tree => readValue (.ok false) readBool tree = .ok mount.directIo)])
  · intro mount
    simp
  · intro mount tree
    simp [MountConfig.deserialize_eq_ok, readField]
  · intro mount
    simp [fieldReads_default ranges_string, fieldReads_default ranges_bool]

theorem FilesConfig.ranges :
    Ranges format.integers (FilesConfig.deserialize (F := F)) (fun _ => True) := by
  apply ranges_struct "FilesConfig" FilesConfig.fieldNames (fun files =>
    [("inode_count", fun tree =>
       readValue (.ok defaultInodeCount) readU64 tree = .ok files.inodeCount),
     ("file_size_bytes", fun tree =>
       readValue (.ok defaultFileSizeBytes) readU64 tree = .ok files.fileSizeBytes),
     ("root_layout", fun tree =>
       readValue (.ok .flat) RootLayout.deserialize tree = .ok files.rootLayout),
     ("write_mode", fun tree =>
       readValue (.ok .discard) WriteMode.deserialize tree = .ok files.writeMode)])
  · intro files
    simp
  · intro files tree
    simp [FilesConfig.deserialize_eq_ok, readField]
  · intro files
    simp [fieldReads_default ranges_u64, fieldReads_default ranges_rootLayout,
      fieldReads_default ranges_writeMode]

theorem MetricsConfig.ranges :
    Ranges format.integers (MetricsConfig.deserialize (F := F)) (fun metrics =>
      forall path, metrics.jsonlPath = some path -> isUtf8 path = true) := by
  apply ranges_struct "MetricsConfig" MetricsConfig.fieldNames (fun metrics =>
    [("jsonl_path", fun tree =>
       readValue (.ok none) (fun value => (readPath value).map some) tree =
         .ok metrics.jsonlPath)])
  · intro metrics
    simp
  · intro metrics tree
    simp [MetricsConfig.deserialize_eq_ok, readField]
  · intro metrics
    simp [fieldReads_optional ranges_path]

theorem LatencyProfile.ranges :
    Ranges format.integers (LatencyProfile.deserialize (F := F)) (fun _ => True) := by
  apply ranges_struct "LatencyProfile" LatencyProfile.fieldNames (fun profile =>
    [("base_us", fun tree => readValue (.ok 0) readU64 tree = .ok profile.baseUs),
     ("lognormal_median_us", fun tree =>
       readValue (.ok defaultLognormalMedian) readF64 tree = .ok profile.lognormalMedianUs),
     ("lognormal_sigma", fun tree =>
       readValue (.ok defaultLognormalSigma) readF64 tree = .ok profile.lognormalSigma),
     ("pareto_weight", fun tree =>
       readValue (.ok (F64.literal 0)) readF64 tree = .ok profile.paretoWeight),
     ("pareto_xm_us", fun tree =>
       readValue (.ok defaultParetoXm) readF64 tree = .ok profile.paretoXmUs),
     ("pareto_alpha", fun tree =>
       readValue (.ok defaultParetoAlpha) readF64 tree = .ok profile.paretoAlpha),
     ("max_us", fun tree => readValue (.ok defaultMaxUs) readU64 tree = .ok profile.maxUs)])
  · intro profile
    simp
  · intro profile tree
    simp [LatencyProfile.deserialize_eq_ok, readField]
  · intro profile
    simp [fieldReads_default ranges_u64, fieldReads_default ranges_f64]

/-- The rate of a bandwidth profile is a number of MiB. -/
def BandwidthProfile.Expressible (profile : BandwidthProfile F) : Prop :=
  exists mibPerSec, profile.bytesPerSec =
    F64.mul (F64.mul mibPerSec (F64.literal 1024)) (F64.literal 1024)

/-- The errno of a fault rule has a name. -/
def FaultRule.Expressible (rule : FaultRule F) : Prop :=
  exists name, parseErrno name = .ok rule.errno

/-- The profiles of a tier can be written down. -/
def LargeTierPolicy.Expressible (profiles : LargeTierPolicy F) : Prop :=
  (forall profile, profiles.bandwidth = some profile -> profile.Expressible) ∧
  forall rule, rule ∈ profiles.faults -> rule.Expressible

/-- A policy can be written down: its caps are words of the machine, and so on
for both tiers. -/
def OpPolicy.Expressible (policy : OpPolicy F) : Prop :=
  policy.concurrencyCap < 2 ^ 64 ∧ policy.queueCap < 2 ^ 64 ∧
  (forall profile, policy.bandwidth = some profile -> profile.Expressible) ∧
  (forall rule, rule ∈ policy.faults -> rule.Expressible) ∧
  forall tier, policy.sizeTier = some tier -> tier.large.Expressible

theorem BandwidthProfileRaw.ranges :
    Ranges format.integers (BandwidthProfileRaw.deserialize (F := F)) (fun _ => True) := by
  apply ranges_struct "BandwidthProfileRaw" BandwidthProfileRaw.fieldNames (fun raw =>
    [("mib_per_sec", fun tree =>
       exists sub, tree = some sub ∧ readF64 sub = .ok raw.mibPerSec),
     ("burst_bytes", fun tree =>
       exists sub, tree = some sub ∧ readU64 sub = .ok raw.burstBytes)])
  · intro raw
    simp
  · intro raw tree
    simp [BandwidthProfileRaw.deserialize_eq_ok, readRequired_eq_ok]
  · intro raw
    simp [fieldReads_required ranges_u64, fieldReads_required ranges_f64]

theorem BandwidthProfile.ranges :
    Ranges format.integers (BandwidthProfile.deserialize (F := F))
      BandwidthProfile.Expressible := by
  intro profile
  refine (BandwidthProfileRaw.ranges.bind _ profile).trans ?_
  constructor
  · rintro ⟨raw, -, converts⟩
    cases converts
    exact ⟨raw.mibPerSec, rfl⟩
  · rintro ⟨mibPerSec, rate⟩
    refine ⟨{ mibPerSec, burstBytes := profile.burstBytes }, trivial, ?_⟩
    cases profile
    cases rate
    rfl

theorem FaultRuleRaw.ranges :
    Ranges format.integers (FaultRuleRaw.deserialize (F := F)) (fun _ => True) := by
  apply ranges_struct "FaultRuleRaw" FaultRuleRaw.fieldNames (fun raw =>
    [("op", fun tree => exists sub, tree = some sub ∧ FsOp.deserialize sub = .ok raw.op),
     ("errno", fun tree => exists sub, tree = some sub ∧ readString sub = .ok raw.errno),
     ("rate", fun tree => exists sub, tree = some sub ∧ readF64 sub = .ok raw.rate)])
  · intro raw
    simp
  · intro raw tree
    simp [FaultRuleRaw.deserialize_eq_ok, readRequired_eq_ok]
  · intro raw
    simp [fieldReads_required ranges_op, fieldReads_required ranges_string,
      fieldReads_required ranges_f64]

theorem FaultRule.ranges :
    Ranges format.integers (FaultRule.deserialize (F := F)) FaultRule.Expressible := by
  intro rule
  refine (FaultRuleRaw.ranges.bind _ rule).trans ?_
  constructor
  · rintro ⟨raw, -, converts⟩
    rcases bind_eq_ok.mp converts with ⟨errno, parses, shape⟩
    cases shape
    cases parsed : parseErrno raw.errno with
    | error err => rw [parsed] at parses; cases parses
    | ok code => rw [parsed] at parses; cases parses; exact ⟨raw.errno, parsed⟩
  · rintro ⟨name, parsed⟩
    refine ⟨{ op := rule.op, errno := name, rate := rule.rate }, trivial, ?_⟩
    refine bind_eq_ok.mpr ⟨rule.errno, ?_, rfl⟩
    change (parseErrno name).mapError FsError.display = .ok rule.errno
    rw [parsed]
    rfl

theorem ranges_faults :
    Ranges format.integers (readArray (FaultRule.deserialize (F := F)))
      (fun faults => forall rule, rule ∈ faults -> rule.Expressible) := by
  intro faults
  refine Iff.trans ?_
    (exists_items_iff (FaultRule.ranges : Ranges format.integers FaultRule.deserialize _))
  constructor
  · rintro ⟨tree, document, reads⟩
    cases document with
    | array all => exact ⟨_, all, reads⟩
    | _ => cases reads
  · rintro ⟨trees, documents, reads⟩
    exact ⟨.array trees, .array documents, reads⟩

theorem LargeTierPolicy.ranges :
    Ranges format.integers (LargeTierPolicy.deserialize (F := F)) LargeTierPolicy.Expressible := by
  apply ranges_struct "LargeTierPolicy" LargeTierPolicy.fieldNames (fun profiles =>
    [("latency", fun tree =>
       readValue (.ok .default) LatencyProfile.deserialize tree = .ok profiles.latency),
     ("bandwidth", fun tree =>
       readValue (.ok none) (fun value => (BandwidthProfile.deserialize value).map some) tree =
         .ok profiles.bandwidth),
     ("faults", fun tree =>
       readValue (.ok []) (readArray FaultRule.deserialize) tree = .ok profiles.faults)])
  · intro profiles
    simp
  · intro profiles tree
    simp [LargeTierPolicy.deserialize_eq_ok, readField]
  · intro profiles
    simp [fieldReads_default LatencyProfile.ranges,
      fieldReads_optional BandwidthProfile.ranges, fieldReads_default ranges_faults,
      LargeTierPolicy.Expressible]

theorem SizeTier.ranges :
    Ranges format.integers (SizeTier.deserialize (F := F))
      (fun tier => tier.large.Expressible) := by
  apply ranges_struct "SizeTier" SizeTier.fieldNames (fun tier =>
    [("threshold_bytes", fun tree =>
       exists sub, tree = some sub ∧ readU64 sub = .ok tier.thresholdBytes),
     ("large", fun tree =>
       exists sub, tree = some sub ∧ LargeTierPolicy.deserialize sub = .ok tier.large)])
  · intro tier
    simp
  · intro tier tree
    simp [SizeTier.deserialize_eq_ok, readRequired_eq_ok]
  · intro tier
    simp [fieldReads_required ranges_u64, fieldReads_required LargeTierPolicy.ranges]

theorem OpPolicy.ranges :
    Ranges format.integers (OpPolicy.deserialize (F := F)) OpPolicy.Expressible := by
  apply ranges_struct "OpPolicy" OpPolicy.fieldNames (fun policy =>
    [("concurrency_cap", fun tree =>
       readValue (.ok defaultConcurrencyCap) readUsize tree = .ok policy.concurrencyCap),
     ("queue_cap", fun tree => readValue (.ok 0) readUsize tree = .ok policy.queueCap),
     ("latency", fun tree =>
       readValue (.ok .default) LatencyProfile.deserialize tree = .ok policy.latency),
     ("bandwidth", fun tree =>
       readValue (.ok none) (fun value => (BandwidthProfile.deserialize value).map some) tree =
         .ok policy.bandwidth),
     ("faults", fun tree =>
       readValue (.ok []) (readArray FaultRule.deserialize) tree = .ok policy.faults),
     ("size_tier", fun tree =>
       readValue (.ok none) (fun value => (SizeTier.deserialize value).map some) tree =
         .ok policy.sizeTier)])
  · intro policy
    simp
  · intro policy tree
    simp [OpPolicy.deserialize_eq_ok, readField]
  · intro policy
    have cap : defaultConcurrencyCap < 2 ^ 64 := by decide
    have queue : 0 < 2 ^ 64 := by decide
    simp [fieldReads_default ranges_usize cap, fieldReads_default ranges_usize queue,
      fieldReads_default LatencyProfile.ranges,
      fieldReads_optional BandwidthProfile.ranges, fieldReads_default ranges_faults,
      fieldReads_optional SizeTier.ranges, OpPolicy.Expressible]

theorem OpMap.ranges :
    Ranges format.integers (OpMap.deserialize (F := F)) (fun ops =>
      forall op policy, (op, policy) ∈ ops.entries -> policy.Expressible) := by
  intro ops
  have injective : Function.Injective FsOp.asStr := fun first second same =>
    Except.ok.inj ((ofName_asStr first).symm.trans ((ofName_eq_ok _ _).mpr same))
  constructor
  · rintro ⟨tree, document, reads⟩
    cases document with
    | @table fields distinct all =>
        rcases map_eq_ok.mp reads with ⟨restored, back, built⟩
        have inside := (exists_entries_iff injective ofName_eq_ok OpPolicy.ranges).mp
          ⟨fields, .table distinct all, back⟩
        have same : ops.entries = restored := by
          rw [← built]
          exact OpMap.ofEntries_entries restored inside.1
        rw [same]
        exact inside.2
    | _ => cases reads
  · intro inside
    rcases (exists_entries_iff injective ofName_eq_ok OpPolicy.ranges).mpr ⟨ops.nodup, inside⟩ with
      ⟨fields, document, reads⟩
    refine ⟨.table fields, document, map_eq_ok.mpr ⟨ops.entries, reads, ?_⟩⟩
    exact OpMap.ext_entries (OpMap.ofEntries_entries ops.entries ops.nodup)

end Records

/-! ## Configurations -/

/-- A configuration can be written down: the path of the log is a text, and so
on for every policy. -/
def Config.Expressible (config : Config F) : Prop :=
  (forall path, config.metrics.jsonlPath = some path -> isUtf8 path = true) ∧
  forall op policy, (op, policy) ∈ config.ops.entries -> policy.Expressible

/-- The tables that a configuration is read from. -/
theorem Config.exists_table_iff (format : TomlFormat) (config : Config F) :
    (exists fields, TomlDocument format (.table fields) ∧
      Config.deserialize (.table fields) = .ok config) ↔ config.Expressible := by
  refine (Serde.exists_table_iff "Config" Config.fieldNames
    [("seed", fun tree => readValue (.ok defaultSeed) readU64 tree = .ok config.seed),
     ("mount", fun tree =>
       readValue (.ok .default) MountConfig.deserialize tree = .ok config.mount),
     ("files", fun tree =>
       readValue (.ok .default) FilesConfig.deserialize tree = .ok config.files),
     ("ops", fun tree => readValue (.ok .empty) OpMap.deserialize tree = .ok config.ops),
     ("metrics", fun tree =>
       readValue (.ok .default) MetricsConfig.deserialize tree = .ok config.metrics)]
    (by simp) (fun tree => ?_)).trans ?_
  · simp [Config.deserialize_eq_ok, readField]
  · have ops : forall op policy, (op, policy) ∈ (OpMap.empty : OpMap (OpPolicy F)).entries ->
        policy.Expressible := fun _ _ member => absurd member List.not_mem_nil
    have metrics : forall path, MetricsConfig.default.jsonlPath = some path ->
        isUtf8 path = true := fun _ absent => by cases absent
    simp [fieldReads_default ranges_u64, fieldReads_default MountConfig.ranges,
      fieldReads_default FilesConfig.ranges, fieldReads_default OpMap.ranges ops,
      fieldReads_default MetricsConfig.ranges metrics, Config.Expressible, and_comm]

/-- Loading succeeds if reading does and what was read is valid. -/
theorem loadConfig_eq_ok {path : String} {fields : List (String × Value F)} {config : Config F} :
    loadConfig path fields = .ok config ↔
      Config.deserialize (.table fields) = .ok config ∧ config.validate = .ok () := by
  unfold loadConfig
  cases reads : Config.deserialize (.table fields) with
  | error err => exact iff_of_false (fun loads => by cases loads) (fun both => by cases both.1)
  | ok found =>
      cases valid : found.validate with
      | error err =>
          refine iff_of_false (fun loads => ?_) (fun both => ?_)
          · simp [Except.mapError, bind, Except.bind, valid] at loads
          · cases both.1
            rw [valid] at both
            cases both.2
      | ok done =>
          constructor
          · intro loads
            simp only [Except.mapError, bind, Except.bind, valid, Except.ok.injEq] at loads
            subst loads
            exact ⟨rfl, valid⟩
          · rintro ⟨same, -⟩
            cases same
            simp [Except.mapError, bind, Except.bind, valid]

/-- What a configuration file can say.  For every configuration there is a
file from which `load_config` gives it, if and only if it passes validation
and it can be written down: its caps are words of the machine, the path of the
log is a text, every errno of a fault rule has a name, and every bandwidth is a
number of MiB. -/
theorem loadConfig_range (format : TomlFormat) (path : String) (config : Config F) :
    (exists fields, TomlDocument format (.table fields) ∧ loadConfig path fields = .ok config) ↔
      config.validate = .ok () ∧ config.Expressible := by
  rw [← config.exists_table_iff format]
  constructor
  · rintro ⟨fields, document, loads⟩
    rcases loadConfig_eq_ok.mp loads with ⟨reads, valid⟩
    exact ⟨valid, fields, document, reads⟩
  · rintro ⟨valid, fields, document, reads⟩
    exact ⟨fields, document, loadConfig_eq_ok.mpr ⟨reads, valid⟩⟩

end Fusecraft
