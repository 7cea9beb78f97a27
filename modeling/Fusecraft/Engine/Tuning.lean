import Fusecraft.Engine.Replay
import Fusecraft.Engine.Tiers
import Fusecraft.Sampler.Latency

namespace Fusecraft

open Transition

/-!
# Turning a policy up

A call draws from streams that its key fixes, so two policies can be compared
call by call and not only in distribution.  Raising the base, the median, the
scale of the tail or the maximum of a latency profile never makes a call
faster, and raising fault rates never un-faults one, under any schedules.
Floats are read as exact reals, as in the bounds of a sampled latency.
-/

/-- Functions that keep the order of their arguments, besides what the bounds
ask for. -/
structure SamplerLib.Increasing (lib : SamplerLib ℝ) : Prop extends lib.Lawful where
  exp_le : forall {first second : ℝ}, first ≤ second -> lib.exp first ≤ lib.exp second
  ln_le : forall {first second : ℝ}, 0 < first -> first ≤ second -> lib.ln first ≤ lib.ln second

/-- The real functions do. -/
theorem SamplerLib.real_increasing {seedFromU64 : UInt64 -> Nat -> ℝ}
    (uniform : (SamplerLib.real seedFromU64).Uniform) :
    (SamplerLib.real seedFromU64).Increasing :=
  { SamplerLib.real_lawful uniform with
    exp_le := Real.exp_le_exp.mpr
    ln_le := Real.log_le_log }

/-- The second profile has the shape of the first, and nothing in it is lower. -/
structure LatencyProfile.Raised (profile raised : LatencyProfile ℝ) : Prop where
  base : profile.baseUs ≤ raised.baseUs
  median : profile.lognormalMedianUs ≤ raised.lognormalMedianUs
  sigma : profile.lognormalSigma = raised.lognormalSigma
  weight : profile.paretoWeight = raised.paretoWeight
  scale : profile.paretoXmUs ≤ raised.paretoXmUs
  alpha : profile.paretoAlpha = raised.paretoAlpha
  max : profile.maxUs ≤ raised.maxUs

/-! ## One draw -/

section Draw

variable {lib : SamplerLib ℝ}

theorem sampleLognormal_le (increasing : lib.Increasing) (rng : Nat -> ℝ) {median raised : ℝ}
    (higher : median ≤ raised) (sigma : ℝ) :
    sampleLognormal lib rng median sigma ≤ sampleLognormal lib rng raised sigma := by
  have flat : forall {value : ℝ}, value ≤ 0 ∨ sigma ≤ 0 ->
      sampleLognormal lib rng value sigma = max value 0 := by
    intro value low
    unfold sampleLognormal
    rw [if_pos (by simpa using low)]
    simp
  by_cases still : sigma ≤ 0
  · rw [flat (Or.inr still), flat (Or.inr still)]
    exact max_le_max_right 0 higher
  · by_cases low : median ≤ 0
    · rw [flat (Or.inl low), max_eq_right low]
      exact sampleLognormal_nonneg increasing.toLawful rng raised sigma
    · have positive : 0 < median := lt_of_not_ge low
      have moves : forall {value : ℝ}, 0 < value -> sampleLognormal lib rng value sigma =
          lib.exp (lib.ln value + sigma * (sampleStandardNormal lib rng).1) := by
        intro value positive
        unfold sampleLognormal
        rw [if_neg (by simpa using ⟨positive, lt_of_not_ge still⟩)]
        rfl
      rw [moves positive, moves (lt_of_lt_of_le positive higher)]
      apply increasing.exp_le
      exact add_le_add_left (increasing.ln_le positive higher) _

theorem samplePareto_le (lawful : lib.Lawful) (rng : Nat -> ℝ) {scale raised alpha : ℝ}
    (higher : scale ≤ raised) (shape : 0 < alpha) (below : rng 0 < 1) :
    samplePareto lib rng scale alpha ≤ samplePareto lib rng raised alpha := by
  have positive : 0 < max (rng 0) lib.minPositive :=
    lt_max_of_lt_right lawful.minPositive_pos
  have atMostOne : max (rng 0) lib.minPositive ≤ 1 :=
    max_le (le_of_lt below) lawful.minPositive_le
  have exponent : (0 : ℝ) < (1 : Rat) / alpha := by
    rw [Rat.cast_one]
    exact one_div_pos.mpr shape
  have divisor := lawful.powf_pos positive atMostOne exponent
  change scale / lib.powf (max (rng 0) lib.minPositive) ((1 : Rat) / alpha) ≤
    raised / lib.powf (max (rng 0) lib.minPositive) ((1 : Rat) / alpha)
  exact div_le_div_of_nonneg_right higher (le_of_lt divisor)

/-- The clamp keeps the order of the totals, also under a higher maximum. -/
theorem clampLatency_le {total higher : ℝ} {maxUs raised : UInt64} (ordered : total ≤ higher)
    (room : maxUs ≤ raised) : clampLatency total maxUs ≤ clampLatency higher raised := by
  have room : maxUs.toNat ≤ raised.toNat := UInt64.le_iff_toNat_le.mp room
  have clamped : max (min total (maxUs.toNat : ℝ)) 0 ≤ max (min higher (raised.toNat : ℝ)) 0 :=
    max_le_max_right 0 (min_le_min ordered (Nat.cast_le.mpr room))
  have floors : ⌊max (min total (maxUs.toNat : ℝ)) 0 + 1 / 2⌋ ≤
      ⌊max (min higher (raised.toNat : ℝ)) 0 + 1 / 2⌋ :=
    Int.floor_le_floor (add_le_add_left clamped _)
  apply UInt64.le_iff_toNat_le.mpr
  rw [toNat_clampLatency, toNat_clampLatency]
  omega

theorem latencyBody_le (increasing : lib.Increasing) {profile raised : LatencyProfile ℝ}
    {path : String} (accepted : validateLatency profile path = .ok ())
    (higher : profile.Raised raised) (seed : UInt64) :
    latencyBody lib profile (lib.seedFromU64 seed) ≤
      latencyBody lib raised (lib.seedFromU64 seed) := by
  unfold latencyBody
  rw [← higher.weight, ← higher.sigma, ← higher.alpha]
  split
  · rename_i tail
    simp only [F64.exact_lt, F64.exact_literal, Rat.cast_zero, decide_eq_true_eq] at tail
    split
    · have draw : lib.seedFromU64 seed (0 + 1) < 1 := by
        simpa using (increasing.uniform seed (0 + 1)).2
      exact samplePareto_le increasing.toLawful _ higher.scale
        ((validateLatency_ok accepted).2.2 tail) draw
    · exact sampleLognormal_le increasing _ higher.median _
  · exact sampleLognormal_le increasing _ higher.median _

/-- Under one key a raised profile draws no less. -/
theorem sampleLatencyUs_le_raised (increasing : lib.Increasing) {profile raised : LatencyProfile ℝ}
    {path : String} (accepted : validateLatency profile path = .ok ())
    (higher : profile.Raised raised) (key : SampleKey) :
    sampleLatencyUs lib profile key ≤ sampleLatencyUs lib raised key := by
  have base : (profile.baseUs.toNat : ℝ) ≤ raised.baseUs.toNat :=
    Nat.cast_le.mpr (UInt64.le_iff_toNat_le.mp higher.base)
  have body : latencyBody lib profile (latencyRng lib.seedFromU64 key) ≤
      latencyBody lib raised (latencyRng lib.seedFromU64 key) :=
    latencyBody_le increasing accepted higher _
  rw [sampleLatencyUs_eq, sampleLatencyUs_eq]
  exact clampLatency_le (add_le_add base body) higher.max

/-- What faults under the first rules faults under the raised ones, perhaps
with the error of an earlier rule. -/
theorem sampleFault_isSome_raised {rules raised : List (FaultRule ℝ)}
    (pointwise : List.Forall₂ FaultRule.Raised rules raised) {key : SampleKey}
    (faults : (sampleFault lib rules key).isSome = true) :
    (sampleFault lib raised key).isSome = true := by
  rw [sampleFault_eq_firingRule] at faults ⊢
  rcases Option.isSome_iff_exists.mp faults with ⟨errno, faults⟩
  rcases Option.bind_eq_some_iff.mp faults with ⟨index, fires, -⟩
  rcases firingRule_raised pointwise fires with ⟨earlier, -, fires⟩
  rcases firingRule_spec fires with ⟨rule, -, found, -, -⟩
  rw [fires, Option.bind_some, found]
  rfl

end Draw

/-! ## Policies -/

/-- Every profile of the second policy is raised, and its tiers are told apart
at the same length. -/
structure OpPolicy.Raised (policy raised : OpPolicy ℝ) : Prop where
  threshold : policy.sizeTier.map (fun tier => tier.thresholdBytes) =
    raised.sizeTier.map (fun tier => tier.thresholdBytes)
  latency : forall {tier profiles profiles'}, policy.profiles tier = some profiles ->
    raised.profiles tier = some profiles' -> profiles.latency.Raised profiles'.latency
  faults : forall {tier profiles profiles'}, policy.profiles tier = some profiles ->
    raised.profiles tier = some profiles' ->
    List.Forall₂ FaultRule.Raised profiles.faults profiles'.faults

/-- The second configuration has the seed of the first and raised policies;
its caps, queues and limits on bandwidth may be any. -/
structure Config.Raised (config raised : Config ℝ) : Prop where
  seed : config.seed = raised.seed
  policy : forall op, ((config.ops.get op).getD .default).Raised
    ((raised.ops.get op).getD .default)

/-- A request is routed to one tier under both policies. -/
theorem selectTier_tier_raised {policy raised : OpPolicy ℝ} (higher : policy.Raised raised)
    (op : FsOp) (requestedLen : Nat) :
    (selectTier (.new policy) op requestedLen).tier =
      (selectTier (.new raised) op requestedLen).tier := by
  have threshold := higher.threshold
  unfold selectTier
  split
  · simp only [OpResources.new]
    cases size : policy.sizeTier with
    | none =>
        cases size' : raised.sizeTier with
        | none => rfl
        | some tier' =>
            rw [size, size'] at threshold
            cases threshold
    | some tier =>
        cases size' : raised.sizeTier with
        | none =>
            rw [size, size'] at threshold
            cases threshold
        | some tier' =>
            rw [size, size'] at threshold
            have same : tier.thresholdBytes = tier'.thresholdBytes := Option.some.inj threshold
            simp only [same]
            split <;> rfl
  · rfl

/-- The profiles that a call is routed to are raised ones. -/
theorem Config.Raised.choice {config raised : Config ℝ} (higher : config.Raised raised)
    (ctx : OpContext) :
    ((SimEngine.new config).choice ctx).latency.Raised
        ((SimEngine.new raised).choice ctx).latency ∧
      List.Forall₂ FaultRule.Raised ((SimEngine.new config).choice ctx).faults
        ((SimEngine.new raised).choice ctx).faults := by
  have policy := higher.policy ctx.op
  have tier := selectTier_tier_raised policy ctx.op ctx.requestedLen
  unfold SimEngine.choice SimEngine.new
  rcases selectTier_from ((config.ops.get ctx.op).getD .default) ctx.op ctx.requestedLen with
    ⟨profiles, chosen⟩
  rcases selectTier_from ((raised.ops.get ctx.op).getD .default) ctx.op ctx.requestedLen with
    ⟨profiles', chosen'⟩
  have present := chosen.tier
  rw [tier] at present
  constructor
  · rw [chosen.latency, chosen'.latency]
    exact policy.latency present chosen'.tier
  · rw [chosen.faults, chosen'.faults]
    exact policy.faults present chosen'.tier

/-! ## Runs -/

section Runs

variable {Call Call' T : Type} [Fintype Call] [DecidableEq Call] [Fintype Call']
variable [DecidableEq Call'] {lib : SamplerLib ℝ} {config raised : Config ℝ}
variable {load : Workload Call T} {load' : Workload Call' T} {created created' : Nat}

/-- A call draws no less under a raised policy. -/
theorem Config.Raised.draw (higher : config.Raised raised) (increasing : lib.Increasing)
    (accepted : config.validate = .ok ()) (ctx : OpContext) (seq : UInt64) (wait wait' : Nat) :
    ((SimEngine.new config).draw lib ctx seq wait).latencyUs ≤
        ((SimEngine.new raised).draw lib ctx seq wait').latencyUs ∧
      (((SimEngine.new config).draw lib ctx seq wait).fault.isSome = true ->
        ((SimEngine.new raised).draw lib ctx seq wait').fault.isSome = true) := by
  have key : (SimEngine.new config).sampleKey ctx seq =
      (SimEngine.new raised).sampleKey ctx seq := by
    unfold SimEngine.sampleKey SimEngine.new
    rw [higher.seed]
  rcases selectTier_from ((config.ops.get ctx.op).getD .default) ctx.op ctx.requestedLen with
    ⟨profiles, chosen⟩
  have valid := (valid_profiles (Config.validate_policy_or_default accepted ctx.op)
    chosen.tier).latency
  rw [← chosen.latency] at valid
  unfold SimEngine.draw
  rw [← key]
  exact ⟨sampleLatencyUs_le_raised increasing valid (higher.choice ctx).1 _,
    sampleFault_isSome_raised (higher.choice ctx).2⟩

/-- What two sequential executions of the same calls log, row by row. -/
theorem Config.Raised.replayRows (higher : config.Raised raised) (increasing : lib.Increasing)
    (accepted : config.validate = .ok ()) (calls : List (OpContext × Except FsError T)) :
    List.Forall₂ (fun row row' : ReplayRow => row.injectedLatencyUs ≤ row'.injectedLatencyUs ∧
        (row.outcome = .error -> row'.outcome = .error))
      ((SimEngine.new config).replayRows lib calls)
      ((SimEngine.new raised).replayRows lib calls) := by
  unfold SimEngine.replayRows
  apply List.forall₂_iff_get.mpr
  refine ⟨by rw [List.length_mapIdx, List.length_mapIdx], fun index bound bound' => ?_⟩
  simp only [List.get_eq_getElem, List.getElem_mapIdx]
  have inside : index < calls.length := by
    rw [List.length_mapIdx] at bound
    exact bound
  rcases calls[index] with ⟨ctx, body⟩
  have drawn := higher.draw increasing accepted ctx (UInt64.ofNat index) 0 0
  refine ⟨drawn.1, fun failed => ?_⟩
  simp only [SimEngine.replayRow] at failed ⊢
  cases fault : ((SimEngine.new raised).draw lib ctx (UInt64.ofNat index) 0).fault with
  | some errno => simp [SimEngine.reply, fault, classify]
  | none =>
      have clear : ((SimEngine.new config).draw lib ctx (UInt64.ofNat index) 0).fault = none := by
        apply Option.not_isSome_iff_eq_none.mp
        intro faulted
        have faulted' := drawn.2 faulted
        rw [fault] at faulted'
        cases faulted'
      simp only [SimEngine.reply, fault, clear] at failed ⊢
      exact failed

end Runs

/-- Raised policies only cost.  In any two runs of configurations of which the
second is raised, under any schedules, clocks, caps and limits on bandwidth, a
call that draws under one context and sequence number in both draws no less
latency in the second, and fails there where it was made to fail in the first;
the events say so.  When one set of calls is executed one after another under
both, the logs compare row by row, in latency and in failures. -/
theorem raised_policies_only_cost {lib : SamplerLib ℝ} (increasing : lib.Increasing)
    {config raised : Config ℝ} (accepted : config.validate = .ok ())
    (higher : config.Raised raised) {Call Call' T : Type}
    [Fintype Call] [DecidableEq Call] [Fintype Call'] [DecidableEq Call']
    (load : Workload Call T) (load' : Workload Call' T) (created created' : Nat) :
    (forall (state : EngineState ℝ Call T) (state' : EngineState ℝ Call' T),
      ((SimEngine.new config).system lib load created).Reachable state ->
      ((SimEngine.new raised).system lib load' created').Reachable state' ->
      forall (call : Call) (call' : Call') (seq : UInt64) (served served' : Served),
        load.ctx call = load'.ctx call' ->
        (state.progress call).drawn? = some (seq, served) ->
        (state'.progress call').drawn? = some (seq, served') ->
        (served.latencyUs ≤ served'.latencyUs ∧
          (served.fault.isSome = true -> served'.fault.isSome = true)) ∧
        forall event event', (call, event) ∈ state.events -> (call', event') ∈ state'.events ->
          event.injectedLatencyUs ≤ event'.injectedLatencyUs ∧
          (served.fault.isSome = true -> event'.outcome = .error)) ∧
    ((forall op, 0 < ((raised.ops.get op).getD .default).concurrencyCap) ->
      forall (state : EngineState ℝ Call T) (state' : EngineState ℝ Call' T),
      ((SimEngine.new config).system lib load created).ReachableBy EngineState.Sequential state ->
      ((SimEngine.new raised).system lib load' created').ReachableBy
        EngineState.Sequential state' ->
      (forall call, (state.progress call).atRest = true) ->
      (forall call, (state'.progress call).atRest = true) ->
      state.issued.map (fun call => (load.ctx call, load.body call)) =
        state'.issued.map (fun call => (load'.ctx call, load'.body call)) ->
      List.Forall₂ (fun entry entry' =>
          entry.2.injectedLatencyUs ≤ entry'.2.injectedLatencyUs ∧
          (entry.2.outcome = .error -> entry'.2.outcome = .error))
        state.events state'.events) := by
  constructor
  · intro state state' reached reached' call call' seq served served' ctx drawn drawn'
    have truthful := EngineState.truthful_of_reachable reached
    have truthful' := EngineState.truthful_of_reachable reached'
    have costs : served.latencyUs ≤ served'.latencyUs ∧
        (served.fault.isSome = true -> served'.fault.isSome = true) := by
      rcases truthful.draws call seq served drawn with ⟨wait, rfl⟩
      rcases truthful'.draws call' seq served' drawn' with ⟨wait', rfl⟩
      rw [← ctx]
      exact higher.draw increasing accepted (load.ctx call) seq wait wait'
    refine ⟨costs, fun event event' member member' => ?_⟩
    have shows := (EngineState.logged_of_reachable reached).shows_drawn truthful drawn member
    have shows' :=
      (EngineState.logged_of_reachable reached').shows_drawn truthful' drawn' member'
    rw [shows.1, shows'.1]
    refine ⟨costs.1, fun faulted => ?_⟩
    rcases Option.isSome_iff_exists.mp (costs.2 faulted) with ⟨errno, fault⟩
    exact (shows'.2 errno fault).1
  · intro positive state state' reached reached' rest rest' same
    have rows := higher.replayRows increasing accepted
      (state.issued.map (fun call => (load.ctx call, load.body call)))
    rw [← EngineState.replayRows_of_sequential reached (SimEngine.cap_pos_of_valid accepted) rest,
      same, ← EngineState.replayRows_of_sequential reached' positive rest',
      List.forall₂_map_left_iff, List.forall₂_map_right_iff] at rows
    exact rows

/-- A policy for reads whose latency has a Pareto tail of the given scale, and
which fails at the given rate. -/
noncomputable def OpPolicy.tail (scale rate : ℝ) : OpPolicy ℝ :=
  { OpPolicy.default with
    latency := .tail scale
    faults := [{ op := .read, errno := Libc.eio, rate := rate }] }

theorem OpPolicy.tail_accepted (scale : ℝ) {rate : ℝ} (nonneg : 0 ≤ rate) (atMostOne : rate ≤ 1) :
    (Config.reading (OpPolicy.tail scale rate)).validate = .ok () := by
  have latency := LatencyProfile.tail_accepted scale ("ops." ++ FsOp.read.asStr ++ ".latency")
  have policy : validateOpPolicy .read (OpPolicy.tail scale rate) ("ops." ++ FsOp.read.asStr) =
      .ok () := by
    simp only [validateOpPolicy, andThen_eq_ok]
    refine ⟨rfl, latency, rfl, ?_, rfl⟩
    have finite : F64.isFinite rate = true := rfl
    simp [OpPolicy.tail, validateFaults, validateFaultsFrom, andThen_eq_ok, refuseIf_eq_ok,
      nonneg, atMostOne, finite]
  exact andThen_eq_ok.mpr ⟨rfl, andThen_eq_ok.mpr ⟨rfl, andThen_eq_ok.mpr ⟨policy, rfl⟩⟩⟩

theorem OpPolicy.tail_raised {scale scale' rate rate' : ℝ} (scales : scale ≤ scale')
    (rates : rate ≤ rate') :
    (Config.reading (OpPolicy.tail scale rate)).Raised
      (Config.reading (OpPolicy.tail scale' rate')) where
  seed := rfl
  policy := by
    have same : forall profile : LatencyProfile ℝ, profile.Raised profile := fun profile =>
      ⟨UInt64.le_refl _, le_rfl, rfl, rfl, le_rfl, rfl, UInt64.le_refl _⟩
    have reads : (OpPolicy.tail scale rate).Raised (OpPolicy.tail scale' rate') := by
      refine ⟨rfl, fun {tier} {profiles} {profiles'} present present' => ?_,
        fun {tier} {profiles} {profiles'} present present' => ?_⟩
      · cases tier with
        | base =>
            cases present
            cases present'
            exact { same (.tail scale) with scale := scales }
        | large => cases present
      · cases tier with
        | base =>
            cases present
            cases present'
            exact .cons ⟨rfl, rfl, decide_eq_true rates⟩ .nil
        | large => cases present
    have others : (OpPolicy.default : OpPolicy ℝ).Raised OpPolicy.default := by
      refine ⟨rfl, fun {tier} {profiles} {profiles'} present present' => ?_,
        fun {tier} {profiles} {profiles'} present present' => ?_⟩
      · rw [present] at present'
        cases present'
        exact same _
      · cases tier with
        | base =>
            cases present
            cases present'
            exact .nil
        | large => cases present
    intro op
    by_cases own : op = .read
    · subst own
      exact reads
    · have absent : forall policy : OpPolicy ℝ, (Config.reading policy).ops.get op = none := by
        intro policy
        cases op <;> first | rfl | exact absurd rfl own
      rw [absent, absent]
      exact others

/-- Two reads one after the other under this policy. -/
theorem OpPolicy.exists_tail_run (scale : ℝ) {rate : ℝ} (nonneg : 0 ≤ rate) (atMostOne : rate ≤ 1) :
    exists state : EngineState ℝ (Fin 2) Unit,
      ((SimEngine.new (Config.reading (OpPolicy.tail scale rate))).system
        (.real (fun _ _ => 0)) (.reads (Fin 2)) 0).ReachableBy EngineState.Sequential state ∧
      (forall call, (state.progress call).atRest = true) ∧ state.issued = [0, 1] := by
  apply EngineState.exists_sequential
    (SimEngine.cap_pos_of_valid (OpPolicy.tail_accepted scale nonneg atMostOne))
  · rintro ⟨op, ino, offset, len, requestedLen⟩
    cases op <;> rfl
  · decide

/-- The same reads under a longer tail and a higher rate. -/
theorem raised_policies_only_cost_tail :
    exists state state' : EngineState ℝ (Fin 2) Unit,
      ((SimEngine.new (Config.reading (OpPolicy.tail 1000 (1 / 4)))).system
        (.real (fun _ _ => 0)) (.reads (Fin 2)) 0).Reachable state ∧
      ((SimEngine.new (Config.reading (OpPolicy.tail 2000 (1 / 2)))).system
        (.real (fun _ _ => 0)) (.reads (Fin 2)) 0).Reachable state' ∧
      state.events.length = 2 ∧
      List.Forall₂ (fun entry entry' =>
          entry.2.injectedLatencyUs ≤ entry'.2.injectedLatencyUs ∧
          (entry.2.outcome = .error -> entry'.2.outcome = .error))
        state.events state'.events := by
  rcases OpPolicy.exists_tail_run 1000 (by norm_num : (0 : ℝ) ≤ 1 / 4) (by norm_num) with
    ⟨state, reached, rest, issued⟩
  rcases OpPolicy.exists_tail_run 2000 (by norm_num : (0 : ℝ) ≤ 1 / 2) (by norm_num) with
    ⟨state', reached', rest', issued'⟩
  have increasing : (SamplerLib.real (fun _ _ => 0)).Increasing :=
    SamplerLib.real_increasing SamplerLib.real_zero_lawful.uniform
  have accepted : (Config.reading (OpPolicy.tail 1000 (1 / 4))).validate = .ok () :=
    OpPolicy.tail_accepted 1000 (by norm_num) (by norm_num)
  have positive := SimEngine.cap_pos_of_valid
    (OpPolicy.tail_accepted 2000 (by norm_num : (0 : ℝ) ≤ 1 / 2) (by norm_num))
  have higher := OpPolicy.tail_raised (by norm_num : (1000 : ℝ) ≤ 2000)
    (by norm_num : (1 / 4 : ℝ) ≤ 1 / 2)
  refine ⟨state, state', reached.reachable, reached'.reachable, ?_, ?_⟩
  · have order := congrArg List.length ((EngineState.ordered_of_sequential reached).issued_eq rest)
    rw [issued, List.length_map] at order
    exact order.symm
  · apply (raised_policies_only_cost increasing accepted higher (.reads (Fin 2)) (.reads (Fin 2))
      0 0).2 positive state state' reached reached' rest rest'
    rw [issued, issued']

end Fusecraft
