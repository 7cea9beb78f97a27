import Fusecraft.Core.ConfigDocuments
import Fusecraft.Library.Blame

namespace Fusecraft

open Serde

/-!
# An error of validation points at its cause

The texts of the validator name the fields of a configuration by paths that
are put together from prefixes; the names and the places of the fields in a
file are given by the readers, with defaults for what is absent and with a
struct in between for bandwidths and for rules.  Here the two are connected:
the path at the beginning of an error leads to a struct in the file that was
read, in which the field stands under its name or at its place, and this
struct is the cause.  Whatever else is changed in the file, it is refused.
-/

variable {F : Type}

/-! ## Shapes -/

def FilesConfig.shape : Shape :=
  .record "FilesConfig" (FilesConfig.fieldNames.map fun name => (name, .leaf))

def MountConfig.shape : Shape :=
  .record "MountConfig" (MountConfig.fieldNames.map fun name => (name, .leaf))

def MetricsConfig.shape : Shape :=
  .record "MetricsConfig" (MetricsConfig.fieldNames.map fun name => (name, .leaf))

def LatencyProfile.shape : Shape :=
  .record "LatencyProfile" (LatencyProfile.fieldNames.map fun name => (name, .leaf))

/-- A bandwidth profile as it is read. -/
def BandwidthProfileRaw.shape : Shape :=
  .record "BandwidthProfileRaw" (BandwidthProfileRaw.fieldNames.map fun name => (name, .leaf))

/-- A fault rule as it is read. -/
def FaultRuleRaw.shape : Shape :=
  .record "FaultRuleRaw" (FaultRuleRaw.fieldNames.map fun name => (name, .leaf))

def LargeTierPolicy.shape : Shape :=
  .record "LargeTierPolicy"
    [("latency", LatencyProfile.shape),
     ("bandwidth", BandwidthProfileRaw.shape),
     ("faults", .list FaultRuleRaw.shape)]

def SizeTier.shape : Shape :=
  .record "SizeTier"
    [("threshold_bytes", .leaf),
     ("large", LargeTierPolicy.shape)]

def OpPolicy.shape : Shape :=
  .record "OpPolicy"
    [("concurrency_cap", .leaf),
     ("queue_cap", .leaf),
     ("latency", LatencyProfile.shape),
     ("bandwidth", BandwidthProfileRaw.shape),
     ("faults", .list FaultRuleRaw.shape),
     ("size_tier", SizeTier.shape)]

def Config.shape : Shape :=
  .record "Config"
    [("seed", .leaf),
     ("mount", MountConfig.shape),
     ("files", FilesConfig.shape),
     ("ops", .map OpPolicy.shape),
     ("metrics", MetricsConfig.shape)]

/-! ## What stands in a struct -/

/-- The field of the same struct that a field is compared with. -/
def comparedWith : String -> Option String
  | "max_us" => some "base_us"
  | "pareto_alpha" => some "pareto_weight"
  | _ => none

/-- A field stands in a struct, or the field that it is compared with does. -/
def Stands (name : String) (struct : Node F) : Prop :=
  (struct.child (.field name)).isSome = true ∨
    exists other, comparedWith name = some other ∧ (struct.child (.field other)).isSome = true

/-- A declared field that is found stands in its struct. -/
theorem stands_of_present {struct : String} {fields : List (String × Shape)} {tree : Value F}
    {members : Members F} (found : tree.members struct (fields.map Prod.fst) = some members)
    {name : String} {part : Shape} (declared : fields.lookup name = some part)
    (present : (members.find name).isSome = true) :
    (Node.child (.field name) ⟨.record struct fields, tree⟩).isSome = true := by
  rcases Option.isSome_iff_exists.mp present with ⟨sub, stands⟩
  have leads : Node.child (.field name) ⟨.record struct fields, tree⟩ = some ⟨part, sub⟩ :=
    child_eq_some.mpr ⟨declared, (child_record found name).trans stands⟩
  rw [leads]
  rfl

/-- A field of which something holds that does not hold of its default is
present. -/
theorem present_of_bad {β : Type} (bad : β -> Bool) {members : Members F} {name : String}
    {default value : β} {readField' : Value F -> Except String β}
    (reads : readField members name (.ok default) readField' = .ok value)
    (wrong : bad value = true) (passes : bad default = false) :
    (members.find name).isSome = true := by
  cases found : members.find name with
  | none =>
      rw [readField, found] at reads
      cases reads
      exact absurd (passes.symm.trans wrong) Bool.false_ne_true
  | some sub => rfl

/-- A required field is present. -/
theorem present_of_required {β : Type} {members : Members F} {name : String} {value : β}
    {readField' : Value F -> Except String β}
    (reads : readRequired members name readField' = .ok value) :
    (members.find name).isSome = true := by
  rcases readRequired_eq_ok.mp reads with ⟨sub, found, -⟩
  rw [found]
  rfl

/-- A check of what a reader gives blames well, where its texts begin with a
context. -/
abbrev BlamesWell {α : Type} (format : TomlFormat) (shape : Shape)
    (read : Value F -> Except String α) (check : α -> Except FsError Unit) (context : String) :
    Prop :=
  Blames FsError.config Stands shape (ReadsAs format.integers read) check (below context)

section Checks

variable {α : Type} {format : TomlFormat} {shape : Shape} {read : Value F -> Except String α}
variable {context : String}

/-- One check of the validator. -/
theorem blamesWell_refuseIf (name : String) {bad : α -> Bool} {text : α -> String}
    (begins : forall value, Begins (below context [.field name] ++ " ") (text value))
    (stands : forall tree value, read tree = .ok value -> bad value = true ->
      Stands name ⟨shape, tree⟩) :
    BlamesWell format shape read (fun value => refuseIf (bad value) (text value)) context := by
  refine Blames.single ?_ begins fun tree value reads wrong => stands tree value reads.2 wrong
  intro tree first second reads reads'
  exact Except.ok.inj (reads.2.symm.trans reads'.2)

/-- A check of a field blames well if it blames well below the field and
passes where the field is absent. -/
theorem blamesWell_field {β : Type} {struct : String} {fields : List (String × Shape)}
    {part : Shape} (name : String) (get : α -> β) (missing : Members F -> Except String β)
    {below' : String} {readField' : Value F -> Except String β}
    {check : β -> Except FsError Unit} (inner : BlamesWell format part readField' check below')
    (place : below' = context ++ ("." ++ name)) (declared : fields.lookup name = some part)
    (opens : forall tree value, read tree = .ok value ->
      exists members, tree.members struct (fields.map Prod.fst) = some members ∧
        readField members name (missing members) readField' = .ok (get value))
    (absent : forall members value, missing members = .ok value -> check value = .ok ()) :
    BlamesWell format (.record struct fields) read (fun value => check (get value)) context := by
  subst place
  refine Blames.field declared inner ?_
  rintro tree value ⟨document, reads⟩
  rcases opens tree value reads with ⟨members, found, own⟩
  rw [child_record found]
  refine ⟨fun none => ?_, fun sub stands => ?_⟩
  · rw [readField, none] at own
    exact absent _ _ own
  · rw [readField, stands] at own
    exact ⟨document_of_find document found stands, own⟩

end Checks

variable [F64 F] {format : TomlFormat}

theorem BandwidthProfile.deserialize_eq_ok {tree : Value F} {profile : BandwidthProfile F}
    (reads : BandwidthProfile.deserialize tree = .ok profile) :
    exists members mibPerSec,
      tree.members "BandwidthProfileRaw" BandwidthProfileRaw.fieldNames = some members ∧
      readRequired members "mib_per_sec" readF64 = .ok mibPerSec := by
  rcases bind_eq_ok.mp reads with ⟨raw, own, -⟩
  rcases BandwidthProfileRaw.deserialize_eq_ok.mp own with ⟨members, found, rate, -⟩
  exact ⟨members, raw.mibPerSec, found, rate⟩

theorem FaultRule.deserialize_eq_ok {tree : Value F} {rule : FaultRule F}
    (reads : FaultRule.deserialize tree = .ok rule) :
    exists members, tree.members "FaultRuleRaw" FaultRuleRaw.fieldNames = some members ∧
      readRequired members "op" FsOp.deserialize = .ok rule.op ∧
      readRequired members "rate" readF64 = .ok rule.rate := by
  rcases bind_eq_ok.mp reads with ⟨raw, own, converts⟩
  rcases bind_eq_ok.mp converts with ⟨errno, -, shape⟩
  cases shape
  rcases FaultRuleRaw.deserialize_eq_ok.mp own with ⟨members, found, op, -, rate⟩
  exact ⟨members, found, op, rate⟩

/-! ## Checks of the records -/

/-- The checks of finiteness blame the fields that are not finite. -/
theorem validateFinite_blames {α : Type} {shape : Shape} {read : Value F -> Except String α}
    (path : String) (fields : List (String × (α -> F)))
    (stands : forall name get, (name, get) ∈ fields -> forall tree value, read tree = .ok value ->
      F64.isFinite (get value) = false -> Stands name ⟨shape, tree⟩) :
    BlamesWell format shape read
      (fun value => validateFinite path (fields.map fun field => (field.1, field.2 value)))
      path := by
  induction fields with
  | nil => exact Blames.pass fun _ => rfl
  | cons field rest ih =>
      refine Blames.andThen (blamesWell_refuseIf field.1 (fun value => ?_) ?_)
        (ih fun name get member => stands name get (List.mem_cons_of_mem _ member))
      · have text : path ++ "." ++ field.1 ++ " must be finite, got " =
            path ++ ("." ++ field.1 ++ " must be finite, got ") := by
          simp only [String.append_assoc]
        rw [text]
        refine (begins_below "must be finite, got " ?_).append _
        simp only [String.append_assoc]
        rfl
      · intro tree value reads infinite
        exact stands field.1 field.2 List.mem_cons_self tree value reads (by simpa using infinite)

/-- The float fields of a latency profile, in the order of their checks. -/
def LatencyProfile.floats : List (String × (LatencyProfile F -> F)) :=
  [("lognormal_median_us", lognormalMedianUs),
   ("lognormal_sigma", lognormalSigma),
   ("pareto_weight", paretoWeight),
   ("pareto_xm_us", paretoXmUs),
   ("pareto_alpha", paretoAlpha)]

/-- What the validator says about the default profile, check by check. -/
theorem LatencyProfile.default_passes [LawfulF64 F] :
    validateFinite "" (floats.map fun field => (field.1, field.2 (.default : LatencyProfile F))) =
        .ok () ∧
      (F64.lt (F64.literal 0 : F) (F64.literal 0) || F64.lt (F64.literal 1 : F) (F64.literal 0)) =
        false ∧
      F64.lt (defaultLognormalMedian : F) (F64.literal 0) = false ∧
      F64.lt (defaultLognormalSigma : F) (F64.literal 0) = false := by
  have default := validateOpPolicy_default (F := F) .read ""
  simp only [validateOpPolicy, validateLatency, andThen_eq_ok, refuseIf_eq_ok, OpPolicy.default,
    LatencyProfile.default] at default
  rcases default with ⟨-, ⟨finite, -, range, -, median, sigma⟩, -⟩
  refine ⟨?_, range, median, sigma⟩
  simp only [validateFinite, andThen_eq_ok, refuseIf_eq_ok] at finite
  simpa only [floats, LatencyProfile.default, List.map_cons, List.map_nil, validateFinite,
    andThen_eq_ok, refuseIf_eq_ok] using finite

/-- A float that is not finite stands in the profile. -/
theorem LatencyProfile.stands_of_infinite [LawfulF64 F] {tree : Value F}
    {profile : LatencyProfile F} (reads : LatencyProfile.deserialize tree = .ok profile)
    {name : String} {get : LatencyProfile F -> F} (member : (name, get) ∈ floats)
    (infinite : F64.isFinite (get profile) = false) :
    Stands name ⟨LatencyProfile.shape, tree⟩ := by
  rcases LatencyProfile.deserialize_eq_ok.mp reads with
    ⟨members, found, -, readMedian, readSigma, readWeight, readXm, readAlpha, -⟩
  have present : forall {name : String} {default value : F},
      readField members name (.ok default) readF64 = .ok value -> F64.isFinite value = false ->
      F64.isFinite default = true -> (members.find name).isSome = true := by
    intro name default value reads infinite finite
    exact present_of_bad (fun value => !F64.isFinite value) reads (by simp [infinite])
      (by simp [finite])
  have finite := (LatencyProfile.default_passes (F := F)).1
  simp only [floats, List.map_cons, List.map_nil, validateFinite, andThen_eq_ok, refuseIf_eq_ok,
    Bool.not_eq_false', LatencyProfile.default] at finite
  rcases finite with ⟨median, sigma, weight, xm, alpha, -⟩
  simp only [floats, List.mem_cons, Prod.mk.injEq, List.not_mem_nil, or_false] at member
  rcases member with ⟨rfl, rfl⟩ | ⟨rfl, rfl⟩ | ⟨rfl, rfl⟩ | ⟨rfl, rfl⟩ | ⟨rfl, rfl⟩
  · exact Or.inl (stands_of_present found rfl (present readMedian infinite median))
  · exact Or.inl (stands_of_present found rfl (present readSigma infinite sigma))
  · exact Or.inl (stands_of_present found rfl (present readWeight infinite weight))
  · exact Or.inl (stands_of_present found rfl (present readXm infinite xm))
  · exact Or.inl (stands_of_present found rfl (present readAlpha infinite alpha))

/-- The defaults pass every check by themselves, so what is wrong is written in
the file.  A maximum below the base is the one case in which the field that is
named may be absent: then the base is there, above the default maximum. -/
theorem validateLatency_blames [LawfulF64 F] (path : String) :
    BlamesWell format LatencyProfile.shape LatencyProfile.deserialize
      (fun profile : LatencyProfile F => validateLatency profile path) path := by
  rcases LatencyProfile.default_passes (F := F) with ⟨-, range, median, sigma⟩
  refine Blames.andThen ?_ (Blames.andThen (blamesWell_refuseIf "max_us" ?_ ?_)
    (Blames.andThen (blamesWell_refuseIf "pareto_weight" ?_ ?_)
      (Blames.andThen (blamesWell_refuseIf "pareto_alpha" ?_ ?_)
        (Blames.andThen (blamesWell_refuseIf "lognormal_median_us" ?_ ?_)
          (blamesWell_refuseIf "lognormal_sigma" ?_ ?_)))))
  · exact validateFinite_blames path LatencyProfile.floats
      fun name get member tree profile reads => LatencyProfile.stands_of_infinite reads member
  · exact fun profile => ((((begins_below "(" rfl).append _).append _).append _).append _
  · intro tree profile reads wrong
    rcases LatencyProfile.deserialize_eq_ok.mp reads with ⟨members, found, readBase, -⟩
    exact Or.inr ⟨"base_us", rfl, stands_of_present found rfl
      (present_of_bad (fun base => profile.maxUs < base) readBase wrong (by simp))⟩
  · exact fun profile => (begins_below "must be in [0.0, 1.0], got " rfl).append _
  · intro tree profile reads wrong
    rcases LatencyProfile.deserialize_eq_ok.mp reads with
      ⟨members, found, -, -, -, readWeight, -⟩
    exact Or.inl (stands_of_present found rfl (present_of_bad
      (fun weight => F64.lt weight (F64.literal 0) || F64.lt (F64.literal 1) weight)
      readWeight wrong range))
  · exact fun profile => begins_below "must be > 0.0 when pareto_weight > 0" rfl
  · intro tree profile reads wrong
    rcases LatencyProfile.deserialize_eq_ok.mp reads with
      ⟨members, found, -, -, -, readWeight, -⟩
    have positive := ((Bool.and_eq_true _ _).mp wrong).1
    exact Or.inr ⟨"pareto_weight", rfl, stands_of_present found rfl
      (present_of_bad (fun weight => F64.lt (F64.literal 0) weight) readWeight positive
        (F64.literal_not_lt le_rfl))⟩
  · exact fun profile => begins_below "must be >= 0.0" rfl
  · intro tree profile reads wrong
    rcases LatencyProfile.deserialize_eq_ok.mp reads with ⟨members, found, -, readMedian, -⟩
    exact Or.inl (stands_of_present found rfl
      (present_of_bad (fun value => F64.lt value (F64.literal 0)) readMedian wrong median))
  · exact fun profile => begins_below "must be >= 0.0" rfl
  · intro tree profile reads wrong
    rcases LatencyProfile.deserialize_eq_ok.mp reads with ⟨members, found, -, -, readSigma, -⟩
    exact Or.inl (stands_of_present found rfl
      (present_of_bad (fun value => F64.lt value (F64.literal 0)) readSigma wrong sigma))

/-- The rate is named as it is written, in MiB, although the validator sees
bytes. -/
theorem validateBandwidthOption_blames (path : String) :
    BlamesWell format BandwidthProfileRaw.shape
      (fun tree => (BandwidthProfile.deserialize tree).map some)
      (fun profile : Option (BandwidthProfile F) => validateBandwidthOption profile path)
      path := by
  have each : BlamesWell format BandwidthProfileRaw.shape BandwidthProfile.deserialize
      (fun profile : BandwidthProfile F => validateBandwidth profile path) path := by
    refine blamesWell_refuseIf "mib_per_sec" (fun profile => ?_) ?_
    · exact (begins_below "must be finite, got " rfl).append _
    · intro tree profile reads _
      rcases BandwidthProfile.deserialize_eq_ok reads with ⟨members, mibPerSec, found, rate⟩
      exact Or.inl (stands_of_present found rfl (present_of_required rate))
  have same : (fun profile : Option (BandwidthProfile F) => validateBandwidthOption profile path) =
      checkOption (fun profile => validateBandwidth profile path) := by
    funext profile
    cases profile <;> rfl
  rw [same]
  exact each.optional

/-- The loop over the rules checks them one by one. -/
theorem validateFaultsFrom_eq (op : FsOp) (path : String) (index : Nat)
    (faults : List (FaultRule F)) :
    validateFaultsFrom op path index faults =
      checkItems (fun index fault => validateFaultsFrom op path index [fault]) index faults := by
  induction faults generalizing index with
  | nil => rfl
  | cons fault rest ih =>
      rw [checkItems, ← ih]
      simp only [validateFaultsFrom, bind_assoc]
      rfl

/-- One pass of the loop names the rule by its place. -/
theorem validateFault_blames (op : FsOp) (path : String) (index : Nat) :
    BlamesWell format FaultRuleRaw.shape FaultRule.deserialize
      (fun fault : FaultRule F => validateFaultsFrom op path index [fault])
      (path ++ ("[" ++ toString index ++ "]")) := by
  refine Blames.andThen (blamesWell_refuseIf "op" (fun fault => ?_) ?_)
    (Blames.andThen (blamesWell_refuseIf "rate" (fun fault => ?_) ?_) (Blames.pass fun _ => rfl))
  · exact (((((begins_item path index "= \"" rfl).append _).append _).append _).append _).append _
  · intro tree fault reads _
    rcases FaultRule.deserialize_eq_ok reads with ⟨members, found, target, -⟩
    exact Or.inl (stands_of_present found rfl (present_of_required target))
  · exact (begins_item path index "must be a finite value in [0.0, 1.0], got " rfl).append _
  · intro tree fault reads _
    rcases FaultRule.deserialize_eq_ok reads with ⟨members, found, -, rate⟩
    exact Or.inl (stands_of_present found rfl (present_of_required rate))

theorem validateFaults_blames (op : FsOp) (path : String) :
    BlamesWell format (.list FaultRuleRaw.shape) (readArray FaultRule.deserialize)
      (fun faults : List (FaultRule F) => validateFaults faults op path) path := by
  have loop : (fun faults : List (FaultRule F) => validateFaults faults op path) =
      checkItems (fun index fault => validateFaultsFrom op path index [fault]) 0 := by
    funext faults
    exact validateFaultsFrom_eq op path 0 faults
  rw [loop]
  have each : forall index, BlamesWell format FaultRuleRaw.shape FaultRule.deserialize
      (fun fault : FaultRule F => validateFaultsFrom op path index [fault])
      (path ++ ("[" ++ toString index ++ "]")) := validateFault_blames op path
  refine (Blames.items each).imp ?_
  rintro tree faults ⟨document, reads⟩
  cases tree with
  | array trees => exact ⟨trees, rfl, document, reads⟩
  | _ => cases reads

/-- The checks that the two tiers share. -/
theorem validateProfiles_blames [LawfulF64 F] {α : Type} (shape : Shape) {struct : String}
    {fields : List (String × Shape)} (record : shape = .record struct fields)
    {read : Value F -> Except String α} (op : FsOp) (path : String)
    (profiles : α -> LargeTierPolicy F)
    (latency : fields.lookup "latency" = some LatencyProfile.shape)
    (bandwidth : fields.lookup "bandwidth" = some BandwidthProfileRaw.shape)
    (faults : fields.lookup "faults" = some (.list FaultRuleRaw.shape))
    (opens : forall tree value, read tree = .ok value ->
      exists members, tree.members struct (fields.map Prod.fst) = some members ∧
        readField members "latency" (.ok .default) LatencyProfile.deserialize =
          .ok (profiles value).latency ∧
        readField members "bandwidth" (.ok none)
          (fun value => (BandwidthProfile.deserialize value).map some) =
            .ok (profiles value).bandwidth ∧
        readField members "faults" (.ok []) (readArray FaultRule.deserialize) =
          .ok (profiles value).faults) :
    BlamesWell format shape read
        (fun value => validateLatency (profiles value).latency (path ++ ".latency")) path ∧
      BlamesWell format shape read
        (fun value => validateBandwidthOption (profiles value).bandwidth (path ++ ".bandwidth"))
        path ∧
      BlamesWell format shape read
        (fun value => validateFaults (profiles value).faults op (path ++ ".faults")) path := by
  subst record
  have default := validateOpPolicy_default (F := F) op path
  simp only [validateOpPolicy, andThen_eq_ok] at default
  refine ⟨?_, ?_, ?_⟩
  · refine blamesWell_field "latency" (fun value => (profiles value).latency)
      (fun _ => .ok .default) (validateLatency_blames _) rfl latency (fun tree value reads => ?_)
      (fun _ value same => ?_)
    · rcases opens tree value reads with ⟨members, found, latency, -⟩
      exact ⟨members, found, latency⟩
    · cases same
      exact default.2.1
  · refine blamesWell_field "bandwidth" (fun value => (profiles value).bandwidth)
      (fun _ => .ok none) (validateBandwidthOption_blames _) rfl bandwidth
      (fun tree value reads => ?_) (fun _ value same => ?_)
    · rcases opens tree value reads with ⟨members, found, -, bandwidth, -⟩
      exact ⟨members, found, bandwidth⟩
    · cases same
      rfl
  · refine blamesWell_field "faults" (fun value => (profiles value).faults) (fun _ => .ok [])
      (validateFaults_blames op _) rfl faults (fun tree value reads => ?_)
      (fun _ value same => ?_)
    · rcases opens tree value reads with ⟨members, found, -, -, faults⟩
      exact ⟨members, found, faults⟩
    · cases same
      rfl

/-- On a data op the size tier is checked below its own name. -/
theorem validateSizeTier_blames [LawfulF64 F] {op : FsOp} (data : op.isData = true)
    (path : String) :
    BlamesWell format SizeTier.shape SizeTier.deserialize
      (fun tier : SizeTier F => validateSizeTier op tier path) (path ++ ".size_tier") := by
  have large : BlamesWell format LargeTierPolicy.shape LargeTierPolicy.deserialize
      (fun profiles : LargeTierPolicy F => do
        validateLatency profiles.latency (path ++ ".size_tier.large.latency")
        validateBandwidthOption profiles.bandwidth (path ++ ".size_tier.large.bandwidth")
        validateFaults profiles.faults op (path ++ ".size_tier.large.faults"))
      (path ++ ".size_tier.large") := by
    rcases validateProfiles_blames LargeTierPolicy.shape rfl op (path ++ ".size_tier.large")
      (fun profiles : LargeTierPolicy F => profiles) rfl rfl rfl
      (fun _ _ reads => LargeTierPolicy.deserialize_eq_ok.mp reads) with
      ⟨latency, bandwidth, faults⟩
    simp only [String.append_assoc] at latency bandwidth faults
    exact latency.andThen (bandwidth.andThen faults)
  refine Blames.andThen (Blames.pass fun tier => refuseIf_eq_ok.mpr ?_)
    (Blames.andThen (blamesWell_refuseIf "threshold_bytes" (fun tier => ?_) ?_) ?_)
  · rw [data]
    rfl
  · exact ((begins_within ".size_tier" "must be > 0 (a zero threshold is " rfl).append _).append _
  · intro tree tier reads _
    rcases SizeTier.deserialize_eq_ok.mp reads with ⟨members, found, threshold, -⟩
    exact Or.inl (stands_of_present found rfl (present_of_required threshold))
  · refine blamesWell_field "large" SizeTier.large
      (fun members => .error (members.missing "large")) large
      (by simp only [String.append_assoc]; rfl) rfl (fun tree tier reads => ?_) ?_
    · rcases SizeTier.deserialize_eq_ok.mp reads with ⟨members, found, -, own⟩
      exact ⟨members, found, own⟩
    · rintro _ _ missing
      cases missing

/-- On other ops the tier as a whole is the cause, whatever stands in it; it
stands in the policy. -/
theorem validateSizeTierOption_blames [LawfulF64 F] (op : FsOp) (path : String) :
    BlamesWell format OpPolicy.shape OpPolicy.deserialize
      (fun policy : OpPolicy F => validateSizeTierOption op policy.sizeTier path) path := by
  cases data : op.isData with
  | true =>
      have checks : (fun tier : Option (SizeTier F) => validateSizeTierOption op tier path) =
          checkOption (fun tier => validateSizeTier op tier path) := by
        funext tier
        cases tier <;> rfl
      have inner : BlamesWell format SizeTier.shape _ _ _ :=
        (validateSizeTier_blames (F := F) data path).optional
      rw [← checks] at inner
      refine blamesWell_field "size_tier" OpPolicy.sizeTier (fun _ => .ok none) inner rfl rfl
        (fun tree policy reads => ?_) (fun _ value same => ?_)
      · rcases OpPolicy.deserialize_eq_ok.mp reads with ⟨members, found, -, -, -, -, -, tier⟩
        exact ⟨members, found, tier⟩
      · cases same
        rfl
  | false =>
      have checks : (fun policy : OpPolicy F => validateSizeTierOption op policy.sizeTier path) =
          fun policy => refuseIf policy.sizeTier.isSome
            (path ++ ".size_tier is only valid on Read or Write ops, not " ++ op.asStr) := by
        funext policy
        cases policy.sizeTier with
        | none => rfl
        | some tier =>
            simp only [validateSizeTierOption, validateSizeTier, data, Option.isSome_some]
            rfl
      rw [checks]
      refine blamesWell_refuseIf "size_tier" (fun policy => ?_) ?_
      · exact (begins_below "is only valid on Read or Write ops, not " rfl).append _
      · intro tree policy reads wrong
        rcases OpPolicy.deserialize_eq_ok.mp reads with ⟨members, found, -, -, -, -, -, tier⟩
        exact Or.inl (stands_of_present found rfl
          (present_of_bad Option.isSome tier wrong rfl))

theorem validateOpPolicy_blames [LawfulF64 F] (op : FsOp) (path : String) :
    BlamesWell format OpPolicy.shape OpPolicy.deserialize
      (fun policy : OpPolicy F => validateOpPolicy op policy path) path := by
  rcases validateProfiles_blames OpPolicy.shape rfl op path
    (fun policy : OpPolicy F => { latency := policy.latency, bandwidth := policy.bandwidth,
                                  faults := policy.faults }) rfl rfl rfl
    (fun tree policy (reads : OpPolicy.deserialize tree = .ok policy) => by
      rcases OpPolicy.deserialize_eq_ok.mp reads with
        ⟨members, found, -, -, latency, bandwidth, faults, -⟩
      exact ⟨members, found, latency, bandwidth, faults⟩) with
    ⟨latency, bandwidth, faults⟩
  refine Blames.andThen (blamesWell_refuseIf "concurrency_cap" (fun policy => ?_) ?_)
    (latency.andThen (bandwidth.andThen (faults.andThen (validateSizeTierOption_blames op path))))
  · exact begins_below "must be > 0" rfl
  · intro tree policy reads wrong
    rcases OpPolicy.deserialize_eq_ok.mp reads with ⟨members, found, cap, -⟩
    exact Or.inl (stands_of_present found rfl
      (present_of_bad (fun cap => decide (cap = 0)) cap wrong rfl))

/-! ## Configurations -/

/-- The same configuration with its policies in another order. -/
structure Config.Reorders (config other : Config F) : Prop where
  same : other = { config with ops := other.ops }
  entries : other.ops.entries.Perm config.ops.entries

/-- A configuration that is read from a tree, in some order of its hash map. -/
def ConfigReads (format : TomlFormat) (tree : Value F) (config : Config F) : Prop :=
  TomlDocument format tree ∧ exists read, Config.deserialize tree = .ok read ∧ read.Reorders config

/-- The loop over the policies checks them one by one. -/
theorem validateOps_eq (entries : List (FsOp × OpPolicy F)) :
    validateOps entries =
      checkEntries (fun op policy => validateOpPolicy op policy ("ops." ++ op.asStr)) entries := by
  induction entries with
  | nil => rfl
  | cons entry rest ih => rw [validateOps, checkEntries, ih]

/-- A check of the file layout blames well from the root. -/
theorem validateFiles_blames (name : String) (bad : FilesConfig -> Bool) {text : String}
    (begins : Begins ("files" ++ ("." ++ name) ++ " ") text)
    (stands : forall (tree : Value F) files, FilesConfig.deserialize tree = .ok files ->
      bad files = true -> Stands name ⟨FilesConfig.shape, tree⟩)
    (absent : bad .default = false) :
    Blames FsError.config Stands Config.shape (ConfigReads format)
      (fun config : Config F => refuseIf (bad config.files) text) pathText := by
  have inner : Blames FsError.config Stands FilesConfig.shape
      (ReadsAs format.integers (FilesConfig.deserialize (F := F)))
      (fun files => refuseIf (bad files) text) (fun path => pathText (.field "files" :: path)) :=
    blamesWell_refuseIf name (fun _ => begins) stands
  refine Blames.field rfl inner ?_
  rintro tree config ⟨document, read, reads, order⟩
  rcases Config.deserialize_eq_ok.mp reads with ⟨members, found, -, -, files, -⟩
  have same : config.files = read.files := by rw [order.same]
  have child : tree.child Config.shape (.field "files") = members.find "files" :=
    child_record found "files"
  rw [child, same]
  refine ⟨fun lookup => ?_, fun sub lookup => ?_⟩
  · rw [readField, lookup] at files
    rw [← Except.ok.inj files, absent]
    rfl
  · rw [readField, lookup] at files
    exact ⟨document_of_find document found lookup, files⟩

theorem asStr_injective : Function.Injective FsOp.asStr := fun first _ same =>
  Except.ok.inj ((ofName_asStr first).symm.trans ((ofName_eq_ok _ _).mpr same))

/-- Keys are read by the names that the validator builds its paths of, and the
keys of a file are distinct, so a path leads to the policy it was built for. -/
theorem validateOps_blames [LawfulF64 F] :
    Blames FsError.config Stands Config.shape (ConfigReads format)
      (fun config : Config F => validateOps config.ops.entries) pathText := by
  have each : forall op, Blames FsError.config Stands OpPolicy.shape
      (ReadsAs format.integers (OpPolicy.deserialize (F := F)))
      (fun policy => validateOpPolicy op policy ("ops." ++ op.asStr))
      (fun path => pathText (.field "ops" :: .field op.asStr :: path)) := by
    intro op
    have place : "ops." ++ op.asStr = "ops" ++ ("." ++ op.asStr) := by
      rw [← String.append_assoc]
      rfl
    rw [place]
    exact validateOpPolicy_blames op _
  have every : Blames FsError.config Stands (.map OpPolicy.shape) _
      (checkEntries fun op (policy : OpPolicy F) => validateOpPolicy op policy ("ops." ++ op.asStr))
      (fun path => pathText (.field "ops" :: path)) :=
    Blames.entries ofName_eq_ok asStr_injective each
  simp only [validateOps_eq]
  refine Blames.field rfl every ?_
  rintro tree config ⟨document, read, reads, order⟩
  rcases Config.deserialize_eq_ok.mp reads with ⟨members, found, -, -, -, ops, -⟩
  have child : tree.child Config.shape (.field "ops") = members.find "ops" :=
    child_record found "ops"
  rw [child]
  refine ⟨fun lookup => ?_, fun sub lookup => ?_⟩
  · rw [readField, lookup] at ops
    have none : config.ops.entries.Perm [] := by
      have same := order.entries
      rwa [← Except.ok.inj ops] at same
    rw [none.eq_nil]
    rfl
  · rw [readField, lookup] at ops
    have own := document_of_find document found lookup
    cases sub with
    | table entries =>
        rcases map_eq_ok.mp ops with ⟨restored, back, built⟩
        have distinct := ((exists_entries_iff asStr_injective ofName_eq_ok OpPolicy.ranges).mp
          ⟨entries, own, back⟩).1
        refine ⟨entries, restored, rfl, own, back, ?_⟩
        rw [← OpMap.ofEntries_entries restored distinct, built]
        exact order.entries
    | _ => cases ops

theorem validate_blames [LawfulF64 F] :
    Blames FsError.config Stands Config.shape (ConfigReads format)
      (fun config : Config F => config.validate) pathText := by
  refine Blames.andThen
    (validateFiles_blames "inode_count" (fun files => files.inodeCount = 0) ?_ ?_ ?_)
    (Blames.andThen
      (validateFiles_blames "file_size_bytes" (fun files => files.fileSizeBytes = 0) ?_ ?_ ?_)
      validateOps_blames)
  · exact ⟨"must be > 0", rfl⟩
  · intro tree files reads wrong
    rcases FilesConfig.deserialize_eq_ok.mp reads with ⟨members, found, inodes, -⟩
    exact Or.inl (stands_of_present found rfl
      (present_of_bad (fun count => decide (count = 0)) inodes wrong (by decide)))
  · decide
  · exact ⟨"must be > 0", rfl⟩
  · intro tree files reads wrong
    rcases FilesConfig.deserialize_eq_ok.mp reads with ⟨members, found, -, size, -⟩
    exact Or.inl (stands_of_present found rfl
      (present_of_bad (fun count => decide (count = 0)) size wrong (by decide)))
  · decide

/-- An error of validation points at its cause.  If the configuration that a
file gives, in any order of its policies, is refused, then the text of the
error begins with a path and a blank.  The path leads to a struct of the file
in which its last name stands, or the name that it is compared with, each
under the name or at the place that the struct has declared for it; and no
file that has this struct in this place is accepted by `load_config`, whatever
else is in it. -/
theorem refusal_points_at_cause [LawfulF64 F] {fields : List (String × Value F)}
    {config : Config F} {err : FsError} (read : ConfigReads format (.table fields) config)
    (refused : config.validate = .error err) :
    exists text path name struct,
      err = .config text ∧ Begins (pathText (path ++ [.field name]) ++ " ") text ∧
      Node.follow path ⟨Config.shape, .table fields⟩ = some struct ∧ Stands name struct ∧
      forall other, TomlDocument format (.table other) ->
        Node.follow path ⟨Config.shape, .table other⟩ = some struct ->
        forall file loaded, loadConfig file other ≠ .ok loaded := by
  rcases validate_blames (.table fields) config err read refused with
    ⟨text, path, name, struct, reported, begins, leads, stands, cause⟩
  refine ⟨text, path, name, struct, reported, begins, leads, stands, ?_⟩
  intro other document same file loaded loads
  rcases loadConfig_eq_ok.mp loads with ⟨reads, valid⟩
  exact cause (.table other) same loaded ⟨document, loaded, reads, rfl, List.Perm.refl _⟩ valid

/-- A file that gives the layout as a sequence: no name of a field stands in
it, and the error names the first one. -/
theorem refusal_points_at_cause_sequence :
    exists text path name struct,
      FsError.config "files.inode_count must be > 0" = .config text ∧
      Begins (pathText (path ++ [.field name]) ++ " ") text ∧
      Node.follow path ⟨Config.shape, .table [("files", .array
        [.integer 0, (.integer 4096 : Value Rat)])]⟩ = some struct ∧
      Stands name struct ∧
      forall other, TomlDocument .wide (.table other) ->
        Node.follow path ⟨Config.shape, .table other⟩ = some struct ->
        forall file loaded, loadConfig file other ≠ .ok loaded := by
  refine refusal_points_at_cause ⟨?_, { Config.default with
    files := { FilesConfig.default with inodeCount := 0, fileSizeBytes := 4096 } }, rfl,
    ⟨rfl, List.Perm.refl _⟩⟩ rfl
  refine .table (List.nodup_singleton _) fun other item member => ?_
  cases List.mem_singleton.mp member
  refine .array fun item member => ?_
  rcases List.mem_cons.mp member with rfl | member
  · exact .integer ⟨by decide, by decide⟩
  · cases List.mem_singleton.mp member
    exact .integer ⟨by decide, by decide⟩

end Fusecraft
