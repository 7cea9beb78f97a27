import Fusecraft.Core.ConfigSerde

namespace Fusecraft

open Serde

/-!
# Which configurations survive their own serialized form

Every record is written and read back field by field.  Two records do not
survive in any position: a bandwidth profile is written under the name
`bytes_per_sec` and read under the name `mib_per_sec`, and a fault rule is
written with a number for its errno and read with a name.
-/

variable {F : Type} [F64 F]

/-- The largest integer of 64 bits with a sign. -/
def i64Max : Nat := 2 ^ 63 - 1

section Scalars

theorem roundTrips_string {value : String} :
    RoundTrips (writeString (F := F) value) readString value :=
  ⟨_, rfl, rfl⟩

theorem roundTrips_bool {value : Bool} : RoundTrips (writeBool (F := F) value) readBool value :=
  ⟨_, rfl, rfl⟩

theorem roundTrips_f64 {value : F} : RoundTrips (writeF64 value) readF64 value :=
  ⟨_, rfl, rfl⟩

theorem readUnsigned_natCast (expected : String) {value : Nat} (fits : value ≤ i64Max) :
    readUnsigned expected (.integer (F := F) value) = .ok value := by
  have bounds : 0 ≤ (value : Int) ∧ (value : Int) < 2 ^ 64 := by
    unfold i64Max at fits
    omega
  rw [readUnsigned, if_pos bounds, Int.toNat_natCast]

theorem roundTrips_usize {value : Nat} (fits : value ≤ i64Max) :
    RoundTrips (writeUnsigned (F := F) value) readUsize value :=
  ⟨_, rfl, readUnsigned_natCast _ fits⟩

theorem roundTrips_u64 {value : UInt64} (fits : value.toNat ≤ i64Max) :
    RoundTrips (writeU64 (F := F) value) readU64 value := by
  refine ⟨_, rfl, ?_⟩
  rw [readU64, readUnsigned_natCast _ fits]
  simp [Except.map]

/-- A path survives just if it is a text. -/
theorem roundTrips_path {path : List UInt8} :
    RoundTrips (writePath (F := F) path) readPath path ↔ isUtf8 path = true := by
  unfold isUtf8
  rw [ByteArray.validateUTF8_eq_true_iff]
  constructor
  · rintro ⟨tree, writes, -⟩
    by_contra invalid
    rw [writePath, String.fromUTF8?, dif_neg invalid] at writes
    cases writes
  · intro valid
    refine ⟨.string (String.fromUTF8 path.toByteArray valid), ?_, ?_⟩
    · rw [writePath, String.fromUTF8?, dif_pos valid]
    · exact congrArg Except.ok (List.toList_data_toByteArray (l := path))

theorem ofName_asStr (op : FsOp) : FsOp.ofName op.asStr = .ok op := by
  cases op <;> rfl

omit [F64 F] in
theorem roundTrips_rootLayout {layout : RootLayout} :
    RoundTrips (writeString (F := F) layout.asStr) RootLayout.deserialize layout := by
  cases layout
  exact ⟨_, rfl, rfl⟩

omit [F64 F] in
theorem roundTrips_writeMode {mode : WriteMode} :
    RoundTrips (writeString (F := F) mode.asStr) WriteMode.deserialize mode := by
  cases mode
  exact ⟨_, rfl, rfl⟩

end Scalars

/-! ## Records that always survive -/

theorem MountConfig.roundTrips (mount : MountConfig) :
    RoundTrips (mount.serialize (F := F)) MountConfig.deserialize mount := by
  refine (roundTrips_struct
    [.of "fs_name" (present (writeString mount.fsName)) (.ok defaultFsName) readString
       mount.fsName,
     .of "subtype" (present (writeString mount.subtype)) (.ok defaultSubtype) readString
       mount.subtype,
     .of "auto_unmount" (present (writeBool mount.autoUnmount)) (.ok defaultTrue) readBool
       mount.autoUnmount,
     .of "default_permissions" (present (writeBool mount.defaultPermissions)) (.ok defaultTrue)
       readBool mount.defaultPermissions,
     .of "read_only" (present (writeBool mount.readOnly)) (.ok false) readBool mount.readOnly,
     .of "direct_io" (present (writeBool mount.directIo)) (.ok false) readBool mount.directIo]
    (by simp [Field.of]) ?_).mpr ?_
  · intro table
    simp [MountConfig.deserialize_eq_ok, readField, Field.of]
  · simp [survives_present, roundTrips_string, roundTrips_bool]

theorem FilesConfig.roundTrips (files : FilesConfig) (inodes : files.inodeCount.toNat ≤ i64Max)
    (size : files.fileSizeBytes.toNat ≤ i64Max) :
    RoundTrips (files.serialize (F := F)) FilesConfig.deserialize files := by
  refine (roundTrips_struct
    [.of "inode_count" (present (writeU64 files.inodeCount)) (.ok defaultInodeCount) readU64
       files.inodeCount,
     .of "file_size_bytes" (present (writeU64 files.fileSizeBytes)) (.ok defaultFileSizeBytes)
       readU64 files.fileSizeBytes,
     .of "root_layout" (present (writeString files.rootLayout.asStr)) (.ok .flat)
       RootLayout.deserialize files.rootLayout,
     .of "write_mode" (present (writeString files.writeMode.asStr)) (.ok .discard)
       WriteMode.deserialize files.writeMode]
    (by simp [Field.of]) ?_).mpr ?_
  · intro table
    simp [FilesConfig.deserialize_eq_ok, readField, Field.of]
  · simp [survives_present, roundTrips_u64, inodes, size, roundTrips_rootLayout,
      roundTrips_writeMode]

theorem LatencyProfile.roundTrips {profile : LatencyProfile F}
    (base : profile.baseUs.toNat ≤ i64Max) (max : profile.maxUs.toNat ≤ i64Max) :
    RoundTrips profile.serialize LatencyProfile.deserialize profile := by
  refine (roundTrips_struct
    [.of "base_us" (present (writeU64 profile.baseUs)) (.ok 0) readU64 profile.baseUs,
     .of "lognormal_median_us" (present (writeF64 profile.lognormalMedianUs))
       (.ok defaultLognormalMedian) readF64 profile.lognormalMedianUs,
     .of "lognormal_sigma" (present (writeF64 profile.lognormalSigma)) (.ok defaultLognormalSigma)
       readF64 profile.lognormalSigma,
     .of "pareto_weight" (present (writeF64 profile.paretoWeight)) (.ok (F64.literal 0)) readF64
       profile.paretoWeight,
     .of "pareto_xm_us" (present (writeF64 profile.paretoXmUs)) (.ok defaultParetoXm) readF64
       profile.paretoXmUs,
     .of "pareto_alpha" (present (writeF64 profile.paretoAlpha)) (.ok defaultParetoAlpha) readF64
       profile.paretoAlpha,
     .of "max_us" (present (writeU64 profile.maxUs)) (.ok defaultMaxUs) readU64 profile.maxUs]
    (by simp [Field.of]) ?_).mpr ?_
  · intro table
    simp [LatencyProfile.deserialize_eq_ok, readField, Field.of]
  · simp [survives_present, roundTrips_u64, roundTrips_f64, base, max]

/-- The metrics survive if the path is a text. -/
theorem MetricsConfig.roundTrips {metrics : MetricsConfig} :
    RoundTrips (metrics.serialize (F := F)) MetricsConfig.deserialize metrics ↔
      forall path, metrics.jsonlPath = some path -> isUtf8 path = true := by
  refine (roundTrips_struct
    [.of "jsonl_path" (optional writePath metrics.jsonlPath) (.ok none)
       (fun value => (readPath value).map some) metrics.jsonlPath]
    (by simp [Field.of]) ?_).trans ?_
  · intro table
    simp [MetricsConfig.deserialize_eq_ok, readField, Field.of]
  · simp [survives_optional, roundTrips_path]

/-! ## Records that never survive -/

/-- No bandwidth profile survives: the field that is read is never written. -/
theorem BandwidthProfile.not_roundTrips (profile : BandwidthProfile F) :
    ¬ RoundTrips profile.serialize BandwidthProfile.deserialize profile := by
  rintro ⟨tree, writes, reads⟩
  unfold serialize writeStruct at writes
  rcases map_eq_ok.mp writes with ⟨table, wrote, rfl⟩
  have absent : table.lookup "mib_per_sec" = none :=
    lookup_writeFields_of_notMem wrote (by simp)
  rcases bind_eq_ok.mp reads with ⟨raw, reads, -⟩
  rcases BandwidthProfileRaw.deserialize_eq_ok.mp reads with ⟨members, found, rate, -⟩
  cases found
  rcases readRequired_eq_ok.mp rate with ⟨tree, present, -⟩
  exact absurd (absent.symm.trans present) (by simp)

/-- No fault rule survives: the errno is written as a number and read as a name. -/
theorem FaultRule.not_roundTrips (rule : FaultRule F) :
    ¬ RoundTrips rule.serialize FaultRule.deserialize rule := by
  rintro ⟨tree, writes, reads⟩
  unfold serialize writeStruct at writes
  rcases map_eq_ok.mp writes with ⟨table, wrote, rfl⟩
  have number : Except.ok (some (.integer rule.errno)) = .ok (table.lookup "errno") :=
    lookup_writeFields (by simp) wrote (List.mem_cons_of_mem _ List.mem_cons_self)
  rcases bind_eq_ok.mp reads with ⟨raw, reads, -⟩
  rcases FaultRuleRaw.deserialize_eq_ok.mp reads with ⟨members, found, -, errno, -⟩
  cases found
  rcases readRequired_eq_ok.mp errno with ⟨tree, present, name⟩
  cases (Except.ok.inj number).trans present
  cases name

theorem roundTrips_array {α : Type} {write : α -> Except String (Value F)}
    {read : Value F -> Except String α} {items : List α} :
    RoundTrips (writeArray write items) (readArray read) items ↔
      forall item, item ∈ items -> RoundTrips (write item) read item := by
  rw [← roundTrips_items]
  constructor
  · rintro ⟨tree, writes, reads⟩
    rcases map_eq_ok.mp writes with ⟨values, wrote, rfl⟩
    exact ⟨values, wrote, reads⟩
  · rintro ⟨values, writes, reads⟩
    exact ⟨.array values, map_eq_ok.mpr ⟨values, writes, rfl⟩, reads⟩

/-- So a list of fault rules survives only if it is empty. -/
theorem roundTrips_faults {faults : List (FaultRule F)} :
    RoundTrips (writeArray FaultRule.serialize faults) (readArray FaultRule.deserialize) faults ↔
      faults = [] := by
  rw [roundTrips_array, List.eq_nil_iff_forall_not_mem]
  exact forall_congr' fun rule => imp_congr_right fun _ => iff_false_intro rule.not_roundTrips

/-- And an optional bandwidth profile only if it is absent. -/
theorem roundTrips_bandwidth {bandwidth : Option (BandwidthProfile F)} :
    (forall profile, bandwidth = some profile ->
      RoundTrips profile.serialize BandwidthProfile.deserialize profile) ↔ bandwidth = none := by
  rw [Option.eq_none_iff_forall_ne_some]
  exact forall_congr' fun profile => imp_congr_right fun _ =>
    iff_false_intro profile.not_roundTrips

/-! ## Policies -/

/-- The integers of a latency profile are at most `i64::MAX`. -/
def LatencyProfile.IntegersFit (profile : LatencyProfile F) : Prop :=
  profile.baseUs.toNat ≤ i64Max ∧ profile.maxUs.toNat ≤ i64Max

/-- And so are those of a policy, in both tiers. -/
def OpPolicy.IntegersFit (policy : OpPolicy F) : Prop :=
  policy.concurrencyCap ≤ i64Max ∧ policy.queueCap ≤ i64Max ∧ policy.latency.IntegersFit ∧
  (forall profile, policy.bandwidth = some profile -> profile.burstBytes.toNat ≤ i64Max) ∧
  forall tier, policy.sizeTier = some tier ->
    tier.thresholdBytes.toNat ≤ i64Max ∧ tier.large.latency.IntegersFit ∧
    forall profile, tier.large.bandwidth = some profile -> profile.burstBytes.toNat ≤ i64Max

/-- The policy has neither a bandwidth profile nor a fault rule, in either tier. -/
def OpPolicy.Plain (policy : OpPolicy F) : Prop :=
  policy.bandwidth = none ∧ policy.faults = [] ∧
  forall tier, policy.sizeTier = some tier ->
    tier.large.bandwidth = none ∧ tier.large.faults = []

theorem LargeTierPolicy.roundTrips_iff {large : LargeTierPolicy F}
    (fits : large.latency.IntegersFit) :
    RoundTrips large.serialize LargeTierPolicy.deserialize large ↔
      large.bandwidth = none ∧ large.faults = [] := by
  refine (roundTrips_struct
    [.of "latency" (present large.latency.serialize) (.ok .default) LatencyProfile.deserialize
       large.latency,
     .of "bandwidth" (optional BandwidthProfile.serialize large.bandwidth) (.ok none)
       (fun value => (BandwidthProfile.deserialize value).map some) large.bandwidth,
     .of "faults" (present (writeArray FaultRule.serialize large.faults)) (.ok [])
       (readArray FaultRule.deserialize) large.faults]
    (by simp [Field.of]) ?_).trans ?_
  · intro table
    simp [LargeTierPolicy.deserialize_eq_ok, readField, Field.of]
  · simp [survives_present, survives_optional, roundTrips_bandwidth, roundTrips_faults,
      LatencyProfile.roundTrips fits.1 fits.2]

theorem SizeTier.roundTrips_iff {tier : SizeTier F} (threshold : tier.thresholdBytes.toNat ≤ i64Max)
    (fits : tier.large.latency.IntegersFit) :
    RoundTrips tier.serialize SizeTier.deserialize tier ↔
      tier.large.bandwidth = none ∧ tier.large.faults = [] := by
  refine (roundTrips_struct
    [.required "threshold_bytes" (writeU64 tier.thresholdBytes) readU64 tier.thresholdBytes,
     .required "large" tier.large.serialize LargeTierPolicy.deserialize tier.large]
    (by simp [Field.required]) ?_).trans ?_
  · intro table
    simp [SizeTier.deserialize_eq_ok, readRequired_eq_ok, Field.required]
  · simp [survives_required, roundTrips_u64 threshold, LargeTierPolicy.roundTrips_iff fits]

theorem OpPolicy.roundTrips_iff {policy : OpPolicy F} (fits : policy.IntegersFit) :
    RoundTrips policy.serialize OpPolicy.deserialize policy ↔ policy.Plain := by
  rcases fits with ⟨cap, queue, latency, -, tiers⟩
  have tier : forall tier, policy.sizeTier = some tier ->
      (RoundTrips tier.serialize SizeTier.deserialize tier ↔
        tier.large.bandwidth = none ∧ tier.large.faults = []) := fun tier present =>
    SizeTier.roundTrips_iff (tiers tier present).1 (tiers tier present).2.1
  refine (roundTrips_struct
    [.of "concurrency_cap" (present (writeUnsigned policy.concurrencyCap))
       (.ok defaultConcurrencyCap) readUsize policy.concurrencyCap,
     .of "queue_cap" (present (writeUnsigned policy.queueCap)) (.ok 0) readUsize policy.queueCap,
     .of "latency" (present policy.latency.serialize) (.ok .default) LatencyProfile.deserialize
       policy.latency,
     .of "bandwidth" (optional BandwidthProfile.serialize policy.bandwidth) (.ok none)
       (fun value => (BandwidthProfile.deserialize value).map some) policy.bandwidth,
     .of "faults" (present (writeArray FaultRule.serialize policy.faults)) (.ok [])
       (readArray FaultRule.deserialize) policy.faults,
     .of "size_tier" (optional SizeTier.serialize policy.sizeTier) (.ok none)
       (fun value => (SizeTier.deserialize value).map some) policy.sizeTier]
    (by simp [Field.of]) ?_).trans ?_
  · intro table
    simp [OpPolicy.deserialize_eq_ok, readField, Field.of]
  · have tiersPlain := forall_congr' fun tier' => imp_congr_ctx Iff.rfl (tier tier')
    simp [survives_present, survives_optional, roundTrips_bandwidth, roundTrips_faults,
      roundTrips_usize cap, roundTrips_usize queue, LatencyProfile.roundTrips latency.1 latency.2,
      tiersPlain, OpPolicy.Plain]

/-! ## Maps of policies -/

theorem OpMap.insert_entries {V : Type} {map : OpMap V} {op : FsOp} (value : V)
    (absent : op ∉ map.entries.map Prod.fst) :
    (map.insert op value).entries = map.entries ++ [(op, value)] := by
  have kept : map.entries.filter (fun entry => entry.1 ≠ op) = map.entries := by
    apply List.filter_eq_self.mpr
    intro entry member
    rw [decide_eq_true_iff]
    rintro rfl
    exact absent (List.mem_map_of_mem member)
  change map.entries.filter _ ++ _ = _
  rw [kept]

/-- Inserting entries with distinct keys keeps all of them, in order. -/
theorem OpMap.ofEntries_entries {V : Type} (entries : List (FsOp × V))
    (distinct : (entries.map Prod.fst).Nodup) : (OpMap.ofEntries entries).entries = entries := by
  have accumulates : forall (rest : List (FsOp × V)) (map : OpMap V),
      ((map.entries ++ rest).map Prod.fst).Nodup ->
      (rest.foldl (fun map entry => map.insert entry.1 entry.2) map).entries =
        map.entries ++ rest := by
    intro rest
    induction rest with
    | nil =>
        intro map _
        rw [List.foldl_nil, List.append_nil]
    | cons entry rest ih =>
        intro map distinct
        have absent : entry.1 ∉ map.entries.map Prod.fst := by
          intro member
          rw [List.map_append, List.nodup_append] at distinct
          exact distinct.2.2 _ member _ List.mem_cons_self rfl
        have next := map.insert_entries entry.2 absent
        rw [List.foldl_cons, ih (map.insert entry.1 entry.2) (by rw [next]; simpa using distinct),
          next, List.append_assoc]
        rfl
  exact accumulates entries .empty distinct

theorem OpMap.roundTrips_iff {ops : OpMap (OpPolicy F)}
    (fits : forall op policy, (op, policy) ∈ ops.entries -> policy.IntegersFit) :
    RoundTrips ops.serialize OpMap.deserialize ops ↔
      forall op policy, (op, policy) ∈ ops.entries -> policy.Plain := by
  have entries := roundTrips_entries ofName_asStr OpPolicy.serialize OpPolicy.deserialize
    ops.entries
  have plain : (forall entry, entry ∈ ops.entries ->
        RoundTrips entry.2.serialize OpPolicy.deserialize entry.2) ↔
      forall op policy, (op, policy) ∈ ops.entries -> policy.Plain := by
    rw [Prod.forall]
    exact forall₂_congr fun op policy => imp_congr_ctx Iff.rfl fun member =>
      OpPolicy.roundTrips_iff (fits op policy member)
  rw [← plain, ← entries]
  constructor
  · rintro ⟨tree, writes, reads⟩
    rcases map_eq_ok.mp writes with ⟨fields, wrote, rfl⟩
    rcases map_eq_ok.mp reads with ⟨restored, back, built⟩
    have keys : (restored.map Prod.fst).Nodup := by
      rw [keys_readEntries ofName_asStr wrote back]
      exact ops.nodup
    have same : ops.entries = restored := by
      rw [← built]
      exact OpMap.ofEntries_entries restored keys
    exact ⟨fields, wrote, same ▸ back⟩
  · rintro ⟨fields, writes, reads⟩
    refine ⟨.table fields, map_eq_ok.mpr ⟨fields, writes, rfl⟩,
      map_eq_ok.mpr ⟨ops.entries, reads, ?_⟩⟩
    exact OpMap.ext_entries (OpMap.ofEntries_entries ops.entries ops.nodup)

/-! ## Configurations -/

/-- The integers of a configuration are at most `i64::MAX`. -/
def Config.IntegersFit (config : Config F) : Prop :=
  config.seed.toNat ≤ i64Max ∧ config.files.inodeCount.toNat ≤ i64Max ∧
  config.files.fileSizeBytes.toNat ≤ i64Max ∧
  forall op policy, (op, policy) ∈ config.ops.entries -> policy.IntegersFit

/-- The round trip of a configuration through its own serialized form.  For
every configuration with integers in range, writing succeeds and reading gives
back the same configuration if and only if the log path, when there is one, is
a text and no policy has a bandwidth profile or a fault rule, in the base or
in the large tier. -/
theorem config_round_trip_iff (config : Config F) (fits : config.IntegersFit) :
    (exists tree, config.serialize = .ok tree ∧ Config.deserialize tree = .ok config) ↔
      (forall path, config.metrics.jsonlPath = some path -> isUtf8 path = true) ∧
      forall op policy, (op, policy) ∈ config.ops.entries ->
        policy.bandwidth = none ∧ policy.faults = [] ∧
        forall tier, policy.sizeTier = some tier ->
          tier.large.bandwidth = none ∧ tier.large.faults = [] := by
  rcases fits with ⟨seed, inodes, size, policies⟩
  refine (roundTrips_struct
    [.of "seed" (present (writeU64 config.seed)) (.ok defaultSeed) readU64 config.seed,
     .of "mount" (present config.mount.serialize) (.ok .default) MountConfig.deserialize
       config.mount,
     .of "files" (present config.files.serialize) (.ok .default) FilesConfig.deserialize
       config.files,
     .of "ops" (present config.ops.serialize) (.ok .empty) OpMap.deserialize config.ops,
     .of "metrics" (present config.metrics.serialize) (.ok .default) MetricsConfig.deserialize
       config.metrics]
    (by simp [Field.of]) ?_).trans ?_
  · intro table
    simp [Config.deserialize_eq_ok, readField, Field.of]
  · simp [survives_present, roundTrips_u64 seed, MountConfig.roundTrips,
      FilesConfig.roundTrips _ inodes size, OpMap.roundTrips_iff policies,
      MetricsConfig.roundTrips, OpPolicy.Plain, and_comm]

theorem Config.reading_integersFit {policy : OpPolicy Rat} (fits : policy.IntegersFit) :
    (Config.reading policy).IntegersFit := by
  refine ⟨(by decide : defaultSeed.toNat ≤ i64Max), (by decide : defaultInodeCount.toNat ≤ i64Max),
    (by decide : defaultFileSizeBytes.toNat ≤ i64Max), ?_⟩
  intro op other member
  cases List.mem_singleton.mp member
  exact fits

/-- A configuration with a two-tier read policy and a log path survives. -/
theorem config_round_trip_two_tiers :
    let large : LargeTierPolicy Rat := { latency := .default, bandwidth := none, faults := [] }
    let policy : OpPolicy Rat :=
      { OpPolicy.default with sizeTier := some { thresholdBytes := 131072, large } }
    let config : Config Rat :=
      { Config.reading policy with metrics := { jsonlPath := some (osStr "events.jsonl") } }
    exists tree, config.serialize = .ok tree ∧ Config.deserialize tree = .ok config := by
  intro large policy config
  have fits : policy.IntegersFit := by
    refine ⟨by decide, by decide, ⟨by decide, by decide⟩, ?_, ?_⟩
    · intro profile present
      cases present
    · intro tier present
      cases present
      refine ⟨by decide, ⟨by decide, by decide⟩, ?_⟩
      intro profile present
      cases present
  refine (config_round_trip_iff config (Config.reading_integersFit fits)).mpr ⟨?_, ?_⟩
  · intro path present
    cases present
    decide
  · intro op policy member
    cases List.mem_singleton.mp member
    refine ⟨rfl, rfl, fun tier present => ?_⟩
    cases present
    exact ⟨rfl, rfl⟩

/-- A bandwidth profile makes the serialized form unreadable, and so does a
fault rule, although its errno has a name. -/
theorem config_round_trip_fails :
    let throttled : Config Rat := .reading { OpPolicy.default with
      bandwidth := some { bytesPerSec := 26214400, burstBytes := 65536 } }
    let faulty : Config Rat := .reading { OpPolicy.default with
      faults := [{ op := .read, errno := Libc.eio, rate := 1 }] }
    (throttled.IntegersFit ∧
      throttled.serialize.bind Config.deserialize =
        (.error "missing field `mib_per_sec`" : Except String (Config Rat))) ∧
    (faulty.IntegersFit ∧ parseErrno "EIO" = .ok Libc.eio ∧
      faulty.serialize.bind Config.deserialize =
        (.error "invalid type: integer `5`, expected a string" : Except String (Config Rat))) := by
  refine ⟨⟨Config.reading_integersFit ?_, rfl⟩, Config.reading_integersFit ?_, rfl, rfl⟩
  · refine ⟨by decide, by decide, ⟨by decide, by decide⟩, ?_, ?_⟩
    · intro profile present
      cases present
      decide
    · intro tier present
      cases present
  · refine ⟨by decide, by decide, ⟨by decide, by decide⟩, ?_, ?_⟩
    · intro profile present
      cases present
    · intro tier present
      cases present

end Fusecraft
