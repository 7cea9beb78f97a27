import Fusecraft.Engine.Delay
import Fusecraft.Engine.Timing
import Fusecraft.Library.Charging

namespace Fusecraft

open Transition Charging

/-!
# What a bandwidth limit lets through

The bucket of an op and a tier only computes waits; it is the calls that sleep
them.  Over a whole run the bytes of the calls whose bodies have run stay below
the burst and what has flowed in since the engine was created.  Every wait is
rounded to the nearest nanosecond, but the calls do not add up what they gain
by it: half a nanosecond is the error for all of them together.
-/

/-! ## One reservation -/

namespace BandwidthLimiter

variable {limiter : BandwidthLimiter Rat} {bytes : UInt64} {now : Nat} {bucket : BucketState Rat}

/-- No more flows in than the rate allows since the last refill. -/
theorem available_le (limiter : BandwidthLimiter Rat) (later : bucket.last ≤ now) :
    limiter.available now bucket ≤
      bucket.tokens + limiter.rate * (seconds now - seconds bucket.last) := by
  unfold available
  by_cases same : now ≤ bucket.last
  · rw [if_pos same, Nat.le_antisymm same later, sub_self, mul_zero, add_zero]
  · rw [if_neg same, Nat.cast_sub later]
    refine le_trans (min_le_left _ _) (le_of_eq ?_)
    unfold seconds
    ring

/-- A reservation takes its bytes out of what there is at its reading. -/
theorem reserve_bucket (positive : 0 < limiter.rate) (nonzero : bytes ≠ 0)
    (later : bucket.last ≤ now) :
    (limiter.reserve bytes now bucket).1.last = now ∧
      (limiter.reserve bytes now bucket).1.tokens =
        limiter.available now bucket - bytes.toNat := by
  have tokens := refill_tokens positive now
    { bucket with totalBytesReserved := saturatingAdd bucket.totalBytesReserved bytes }
  have last : (limiter.refill now { bucket with
      totalBytesReserved := saturatingAdd bucket.totalBytesReserved bytes }).last = now := by
    unfold refill
    by_cases same : now - bucket.last = 0
    · rw [if_pos same]
      exact Nat.le_antisymm later (Nat.le_of_sub_eq_zero same)
    · rw [if_neg same]
      split <;> rfl
  change (limiter.reserveSecs bytes now bucket).1.last = now ∧
    (limiter.reserveSecs bytes now bucket).1.tokens = _
  rw [reserveSecs_eq positive nonzero]
  simp only
  split
  · exact ⟨last, congrArg (fun held => held - (bytes.toNat : Rat)) tokens⟩
  · exact ⟨last, congrArg (fun held => held - (bytes.toNat : Rat)) tokens⟩

/-- No bytes are no reservation. -/
theorem reserve_nothing (limiter : BandwidthLimiter Rat) (now : Nat) (bucket : BucketState Rat) :
    (limiter.reserve 0 now bucket).1 = bucket := rfl

/-- A wait that did not saturate is long enough for what is missing, up to half
a nanosecond. -/
theorem missing_le_of_wait (positive : 0 < limiter.rate) (nonzero : bytes ≠ 0)
    (fits : (limiter.reserve bytes now bucket).2.nanos < Duration.maxNanos) :
    bytes.toNat - limiter.available now bucket ≤
      limiter.rate * (((limiter.reserve bytes now bucket).2.nanos + 1 / 2) / 10 ^ 9) := by
  rw [reserve_delay positive nonzero] at fits ⊢
  by_cases enough : (bytes.toNat : Rat) ≤ limiter.available now bucket
  · have flows : 0 ≤ limiter.rate * (((Duration.zero.nanos : Rat) + 1 / 2) / 10 ^ 9) := by
      have whole : (0 : Rat) ≤ Duration.zero.nanos := Nat.cast_nonneg _
      exact mul_nonneg positive.le (by linarith)
    rw [if_pos enough]
    linarith
  · rw [if_neg enough] at fits ⊢
    let secs := (bytes.toNat - limiter.available now bucket) / limiter.rate
    have some : 0 < secs := div_pos (sub_pos.mpr (lt_of_not_ge enough)) positive
    have nonneg : 0 ≤ Rounding.halfEven (secs * 10 ^ 9) :=
      Rounding.halfEven_nonneg (mul_nonneg some.le (by norm_num))
    have nanos : ((waitDuration (Option.some secs)).nanos : Rat) =
        Rounding.halfEven (secs * 10 ^ 9) := by
      have short := fits
      rw [Duration.wait_nanos some] at short ⊢
      rw [min_eq_left (by omega)]
      exact_mod_cast Int.toNat_of_nonneg nonneg
    have rounded := Rounding.le_halfEven_add (secs * 10 ^ 9)
    have whole : limiter.rate * secs = bytes.toNat - limiter.available now bucket :=
      mul_div_cancel₀ _ positive.ne'
    change bytes.toNat - limiter.available now bucket ≤
      limiter.rate * (((waitDuration (Option.some secs)).nanos + 1 / 2) / 10 ^ 9)
    rw [← whole, nanos]
    apply mul_le_mul_of_nonneg_left _ positive.le
    linarith

end BandwidthLimiter

/-! ## The bytes of the calls -/

namespace Progress

variable {T : Type}

/-- By some moment the call has slept as long as its bytes take. -/
def releasedBy (moment : Nat) : Progress T -> Bool
  | sleeping _ _ _ delay _ since => decide (since + delay.nanos ≤ moment)
  | ready _ _ _ _ => true
  | executed _ _ _ _ _ => true
  | emitted _ (some _) _ _ => true
  | recorded _ _ _ => true
  | returned _ (some _) _ => true
  | _ => false

/-- Whoever is released has reserved. -/
theorem reserved_of_releasedBy {moment : Nat} {progress : Progress T}
    (released : progress.releasedBy moment = true) : progress.slept?.isSome = true := by
  cases progress with
  | emitted seq served result totalUs => cases served <;> first | cases released; done | rfl
  | returned seq served result => cases served <;> first | cases released; done | rfl
  | _ => first | rfl | cases released

end Progress

namespace SimEngine

variable {Call T : Type} (engine : SimEngine Rat) (load : Workload Call T)

/-- The bytes of a call that is routed to a tier of an op. -/
def demand (op : FsOp) (tier : Tier) (call : Call) : Nat :=
  if (load.ctx call).op = op ∧ (engine.choice (load.ctx call)).tier = tier then
    (load.ctx call).len
  else 0

/-- A call takes the bandwidth limiter of the tier that it is routed to. -/
theorem choice_bandwidth {F : Type} [F64 F] (engine : SimEngine F) (ctx : OpContext) :
    (engine.choice ctx).bandwidth =
      (engine.resources ctx.op).bandwidthOf (engine.choice ctx).tier := by
  unfold choice selectTier
  split
  · split
    · split <;> rfl
    · rfl
  · rfl

/-- What a reservation of a call of some op and tier does to their bucket. -/
theorem bandwidthDelay_eq {limiter : BandwidthLimiter Rat} {ctx : OpContext} {tier : Tier}
    (data : ctx.op.isData = true) (routed : (engine.choice ctx).tier = tier)
    (configured : (engine.resources ctx.op).bandwidthOf tier = some limiter) (now : Nat)
    (bucket : BucketState Rat) :
    engine.bandwidthDelay ctx now bucket = limiter.reserve (UInt64.ofNat ctx.len) now bucket := by
  unfold bandwidthDelay
  rw [choice_bandwidth, routed, configured]
  simp only [data, if_true]

end SimEngine

namespace TimedEngine

variable {Call T : Type} [Fintype Call] [DecidableEq Call]
variable {engine : SimEngine Rat} {lib : SamplerLib Rat} {load : Workload Call T}
  {timed : TimedEngine Rat Call T}

/-- The bytes of an op and a tier that were reserved. -/
def reserved (engine : SimEngine Rat) (load : Workload Call T) (op : FsOp) (tier : Tier)
    (state : EngineState Rat Call T) (call : Call) : Nat :=
  if (state.progress call).slept?.isSome = true then engine.demand load op tier call else 0

/-- The bytes of an op and a tier that were waited for by some moment. -/
def released (engine : SimEngine Rat) (load : Workload Call T) (op : FsOp) (tier : Tier)
    (moment : Nat) (state : EngineState Rat Call T) (call : Call) : Nat :=
  if (state.progress call).releasedBy moment = true then engine.demand load op tier call else 0

/-- A bucket never gives out what has not flowed in, and nobody is released
before the bytes reserved up to then have flowed in. -/
structure Metered (engine : SimEngine Rat) (load : Workload Call T) (op : FsOp) (tier : Tier)
    (limiter : BandwidthLimiter Rat) (created : Nat) (timed : TimedEngine Rat Call T) : Prop where
  last_le : (timed.state.buckets op tier).last ≤ timed.clock
  reserved_le : ((total (reserved engine load op tier timed.state) : Nat) : Rat) ≤
    limiter.capacity + limiter.rate *
      (BandwidthLimiter.seconds (timed.state.buckets op tier).last -
        BandwidthLimiter.seconds created) - (timed.state.buckets op tier).tokens
  released_le : forall moment, timed.clock ≤ moment -> moment ≤ instantMax ->
    ((total (released engine load op tier moment timed.state) : Nat) : Rat) ≤
      limiter.capacity + limiter.rate * (((moment : Rat) - created + 1 / 2) / 10 ^ 9)

omit [Fintype Call] [DecidableEq Call] in
theorem demand_if_le {test before : Bool} (implies : test = true -> before = true)
    (engine : SimEngine Rat) (load : Workload Call T) (op : FsOp) (tier : Tier) (call : Call) :
    (if test = true then engine.demand load op tier call else 0) ≤
      if before = true then engine.demand load op tier call else 0 := by
  by_cases holds : test = true
  · rw [if_pos holds, if_pos (implies holds)]
  · rw [if_neg holds]
    exact Nat.zero_le _

/-- Apart from a reservation, no step reserves or releases anything. -/
theorem released_of_step (timely : timed.Timely load) {label : EngineLabel Call}
    (punctual : timed.Punctual label) {next : EngineState Rat Call T}
    (moves : engine.step lib load timed.state label = some next) :
    (next.buckets = timed.state.buckets ∧
      (forall call, (next.progress call).slept? = (timed.state.progress call).slept?) ∧
      forall moment call, label.time timed.clock ≤ moment ->
        (next.progress call).releasedBy moment = true ->
        (timed.state.progress call).releasedBy moment = true) ∨
    exists call now start seq served bucket delay, label = .reserve call now ∧
      timed.state.progress call = .sampled start seq served ∧
      engine.bandwidthDelay (load.ctx call) now
        (timed.state.buckets (load.ctx call).op (engine.choice (load.ctx call)).tier) =
          (bucket, delay) ∧
      next = (timed.state.setBucket (load.ctx call).op (engine.choice (load.ctx call)).tier
        bucket).setProgress call (.afterReserve start seq served delay now) := by
  have keeps : forall {call : Call} {after : Progress T},
      next.progress = Function.update timed.state.progress call after ->
      next.buckets = timed.state.buckets ->
      after.slept? = (timed.state.progress call).slept? ->
      (forall moment, label.time timed.clock ≤ moment -> after.releasedBy moment = true ->
        (timed.state.progress call).releasedBy moment = true) ->
      next.buckets = timed.state.buckets ∧
        (forall call, (next.progress call).slept? = (timed.state.progress call).slept?) ∧
        forall moment call, label.time timed.clock ≤ moment ->
          (next.progress call).releasedBy moment = true ->
          (timed.state.progress call).releasedBy moment = true := by
    intro call after moved buckets same implies
    refine ⟨buckets, fun other => ?_, fun moment other passes holds => ?_⟩
    · rw [moved]
      exact EngineState.observe_update Progress.slept? same other
    · rw [moved] at holds
      rcases Counting.update_cases timed.state.progress call other after with
        ⟨rfl, now⟩ | ⟨-, now⟩
      · exact implies moment passes (now ▸ holds)
      · exact now ▸ holds
  cases SimEngine.step_cases moves with
  | advances call _ progress local' =>
      left
      have before := timely.calls call
      have wakes : forall now, label = .slept call now ->
          (timed.state.progress call).sleepsUntil ≤ now := by
        rintro now rfl
        exact punctual.2
      refine keeps rfl rfl ?_ ?_
      · generalize timed.state.progress call = stage at local'
        cases local' <;> rfl
      · generalize timed.state.progress call = stage at before local' wakes
        cases local' with
        | sleeps start seq served delay sleepFor since now =>
            intro moment passes _
            have rested : since + sleepFor.nanos ≤ now := wakes now rfl
            have whole : sleepFor.nanos = served.sleepNanos delay := before.2
            have passes : now ≤ moment := passes
            unfold Served.sleepNanos at whole
            exact decide_eq_true (by omega)
        | _ => exact fun _ _ holds => by cases holds
  | takes call start started =>
      left
      refine keeps rfl rfl ?_ (fun _ _ holds => by cases holds)
      rw [started]
      rfl
  | queues call _ start seq limiterLabel limiter waits own steps =>
      exact Or.inl ⟨rfl, fun _ => rfl, fun _ _ _ holds => holds⟩
  | reserves call now start seq served bucket delay sampled reserved =>
      exact Or.inr ⟨call, now, start, seq, served, bucket, delay, rfl, sampled, reserved, rfl⟩
  | executes call start seq served delay awake =>
      left
      refine keeps rfl rfl ?_ ?_ <;> rw [awake]
      · rfl
      · exact fun _ _ holds => holds
  | emits call now unixNanos seq served delay result totalUs settled =>
      left
      cases settled with
      | executed start seq served delay result ran =>
          refine keeps rfl rfl ?_ ?_ <;> rw [ran]
          · rfl
          · exact fun _ _ holds => holds
      | refused start seq err waits refusal =>
          refine keeps rfl rfl ?_ ?_ <;> rw [waits]
          · rfl
          · exact fun _ _ holds => holds
  | records call seq served result totalUs emitted =>
      left
      refine keeps rfl rfl ?_ ?_ <;> rw [emitted] <;> cases served
      · rfl
      · rfl
      · exact fun _ _ holds => holds
      · exact fun _ _ holds => holds
  | leaves call notifies progress limiter ends steps =>
      left
      refine keeps rfl rfl ?_ ?_
      · generalize timed.state.progress call = stage at ends
        cases ends <;> rfl
      · generalize timed.state.progress call = stage at ends
        cases ends <;> exact fun _ _ holds => holds

variable {op : FsOp} {tier : Tier} {limiter : BandwidthLimiter Rat} {created : Nat}

omit [DecidableEq Call] in
/-- The clock may go on where nothing is reserved. -/
theorem Metered.keep (metered : timed.Metered engine load op tier limiter created)
    {next : TimedEngine Rat Call T} (passes : timed.clock ≤ next.clock)
    (bucket : next.state.buckets op tier = timed.state.buckets op tier)
    (reserved_le : forall call, reserved engine load op tier next.state call ≤
      reserved engine load op tier timed.state call)
    (released_le : forall moment call, next.clock ≤ moment ->
      released engine load op tier moment next.state call ≤
        released engine load op tier moment timed.state call) :
    next.Metered engine load op tier limiter created := by
  constructor
  · rw [bucket]
    exact metered.last_le.trans passes
  · rw [bucket]
    refine le_trans (Nat.cast_le.mpr ?_) metered.reserved_le
    exact Finset.sum_le_sum (fun call _ => reserved_le call)
  · intro moment later bounded
    refine le_trans (Nat.cast_le.mpr ?_)
      (metered.released_le moment (passes.trans later) bounded)
    exact Finset.sum_le_sum (fun call _ => released_le moment call later)

/-- A reservation moves the bytes of its call from the bucket to those that
were reserved, and releases them once they have flowed in. -/
theorem Metered.reserve (metered : timed.Metered engine load op tier limiter created)
    (positive : 0 < limiter.rate) {next : TimedEngine Rat Call T} {call : Call} {now start : Nat}
    {seq : UInt64} {served : Served} {bytes : UInt64} (nonzero : bytes ≠ 0)
    (passes : timed.clock ≤ now) (clock : next.clock = now)
    (demanded : engine.demand load op tier call = bytes.toNat)
    (sampled : timed.state.progress call = .sampled start seq served)
    (bucket : next.state.buckets op tier =
      (limiter.reserve bytes now (timed.state.buckets op tier)).1)
    (moved : next.state.progress = Function.update timed.state.progress call
      (.afterReserve start seq served
        (limiter.reserve bytes now (timed.state.buckets op tier)).2 now)) :
    next.Metered engine load op tier limiter created := by
  let held := timed.state.buckets op tier
  let delay := (limiter.reserve bytes now held).2
  have later : held.last ≤ now := metered.last_le.trans passes
  rcases BandwidthLimiter.reserve_bucket positive nonzero later with ⟨last, tokens⟩
  have inflow := BandwidthLimiter.available_le limiter later
  have others : forall other, other ≠ call ->
      next.state.progress other = timed.state.progress other := by
    intro other different
    rw [moved, Function.update_of_ne different]
  have reserved_total : total (reserved engine load op tier next.state) =
      total (reserved engine load op tier timed.state) + bytes.toNat := by
    have traded : total (reserved engine load op tier next.state) +
        reserved engine load op tier timed.state call =
          total (reserved engine load op tier timed.state) +
            reserved engine load op tier next.state call := by
      apply total_exchange
      intro other different
      unfold reserved
      rw [others other different]
    have before : reserved engine load op tier timed.state call = 0 := by
      unfold reserved
      rw [sampled]
      rfl
    have after : reserved engine load op tier next.state call = bytes.toNat := by
      unfold reserved
      rw [moved, Function.update_self, Progress.slept?_afterReserve, Option.isSome_some,
        if_pos rfl, demanded]
    rw [before, after, Nat.add_zero] at traded
    exact traded
  have reserved_le : ((total (reserved engine load op tier next.state) : Nat) : Rat) ≤
      limiter.capacity + limiter.rate *
        (BandwidthLimiter.seconds now - BandwidthLimiter.seconds created) -
          (limiter.available now held - bytes.toNat) := by
    have before := metered.reserved_le
    rw [reserved_total]
    push_cast
    linarith
  constructor
  · rw [bucket, last, clock]
  · rw [bucket, last, tokens]
    exact reserved_le
  · intro moment after bounded
    rw [clock] at after
    by_cases free : (next.state.progress call).releasedBy moment = true
    · -- Its bytes have flowed in, so those of everybody have.
      have wakes : now + delay.nanos ≤ moment := by
        rw [moved, Function.update_self] at free
        unfold Progress.afterReserve at free
        split at free
        · exact of_decide_eq_true free
        · cases free
      have short : delay.nanos < Duration.maxNanos := by
        unfold instantMax at bounded
        unfold Duration.maxNanos
        omega
      have missing := BandwidthLimiter.missing_le_of_wait positive nonzero short
      have everybody : total (released engine load op tier moment next.state) ≤
          total (reserved engine load op tier next.state) :=
        Finset.sum_le_sum (fun other _ =>
          demand_if_le Progress.reserved_of_releasedBy engine load op tier other)
      have everybody : ((total (released engine load op tier moment next.state) : Nat) : Rat) ≤
          ((total (reserved engine load op tier next.state) : Nat) : Rat) :=
        Nat.cast_le.mpr everybody
      have times : ((now : Rat) + delay.nanos) ≤ moment := by exact_mod_cast wakes
      have scaled : limiter.rate * (((delay.nanos : Rat) + 1 / 2) / 10 ^ 9) +
          limiter.rate * (BandwidthLimiter.seconds now - BandwidthLimiter.seconds created) ≤
            limiter.rate * (((moment : Rat) - created + 1 / 2) / 10 ^ 9) := by
        rw [← mul_add]
        apply mul_le_mul_of_nonneg_left _ positive.le
        unfold BandwidthLimiter.seconds
        linarith
      have missing : (bytes.toNat : Rat) - limiter.available now held ≤
          limiter.rate * (((delay.nanos : Rat) + 1 / 2) / 10 ^ 9) := missing
      linarith
    · refine le_trans (Nat.cast_le.mpr ?_)
        (metered.released_le moment (passes.trans after) bounded)
      refine Finset.sum_le_sum (fun other _ => ?_)
      by_cases same : other = call
      · subst same
        unfold released
        rw [if_neg free]
        exact Nat.zero_le _
      · unfold released
        rw [others other same]

theorem Metered.preserved (metered : timed.Metered engine load op tier limiter created)
    (positive : 0 < limiter.rate) (data : op.isData = true)
    (configured : (engine.resources op).bandwidthOf tier = some limiter)
    (small : forall call, (load.ctx call).len < 2 ^ 64)
    (timely : timed.Timely load) {label : EngineLabel Call} (punctual : timed.Punctual label)
    {next : EngineState Rat Call T} (moves : engine.step lib load timed.state label = some next) :
    (timed.tick label next).Metered engine load op tier limiter created := by
  rcases released_of_step timely punctual moves with ⟨buckets, same, implies⟩ |
    ⟨call, now, start, seq, served, bucket, delay, rfl, sampled, reserved_eq, rfl⟩
  · refine metered.keep punctual.1 ?_ (fun call => ?_) (fun moment call later => ?_)
    · exact congrFun (congrFun buckets op) tier
    · exact demand_if_le (fun slept => by rw [← same call]; exact slept) engine load op tier call
    · exact demand_if_le (implies moment call later) engine load op tier call
  · generalize shape : timed.tick (.reserve call now) _ = after
    have clock : after.clock = now := by rw [← shape]; rfl
    have moved : after.state.progress = Function.update timed.state.progress call
        (.afterReserve start seq served delay now) := by rw [← shape]; rfl
    have passes : timed.clock ≤ now := punctual.1
    have unmetered : engine.demand load op tier call = 0 ->
        after.state.buckets op tier = timed.state.buckets op tier ->
        after.Metered engine load op tier limiter created := by
      intro free bucket
      have each : forall (test : Progress T -> Bool) (other : Call),
          (if test (after.state.progress other) = true then engine.demand load op tier other
            else 0) ≤
          if test (timed.state.progress other) = true then engine.demand load op tier other
            else 0 := by
        intro test other
        by_cases same : other = call
        · subst same
          rw [free, ite_self]
          exact Nat.zero_le _
        · rw [moved, Function.update_of_ne same]
      exact metered.keep (clock ▸ passes) bucket (each (fun progress => progress.slept?.isSome))
        (fun moment other _ => each (Progress.releasedBy moment) other)
    by_cases routed : (load.ctx call).op = op ∧ (engine.choice (load.ctx call)).tier = tier
    · have demanded : engine.demand load op tier call = (load.ctx call).len := if_pos routed
      rcases routed with ⟨rfl, rfl⟩
      have own : after.state.buckets (load.ctx call).op (engine.choice (load.ctx call)).tier =
          bucket := by
        rw [← shape]
        change Function.update timed.state.buckets _ (Function.update _ _ bucket) _ _ = bucket
        rw [Function.update_self, Function.update_self]
      rw [SimEngine.bandwidthDelay_eq engine data rfl configured] at reserved_eq
      have bytes : (UInt64.ofNat (load.ctx call).len).toNat = (load.ctx call).len := by
        rw [UInt64.toNat_ofNat', Nat.mod_eq_of_lt (small call)]
      by_cases nothing : UInt64.ofNat (load.ctx call).len = 0
      · refine unmetered ?_ (own.trans ?_)
        · rw [demanded, ← bytes, nothing]
          rfl
        · rw [nothing] at reserved_eq
          exact (congrArg Prod.fst reserved_eq).symm.trans (limiter.reserve_nothing now _)
      · apply metered.reserve positive nothing passes clock (demanded.trans bytes.symm) sampled
        · exact own.trans (congrArg Prod.fst reserved_eq).symm
        · rw [moved, reserved_eq]
    · apply unmetered (if_neg routed)
      rw [← shape]
      change Function.update timed.state.buckets _ (Function.update _ _ bucket) op tier = _
      by_cases same : op = (load.ctx call).op
      · subst same
        rw [Function.update_self, Function.update_of_ne]
        exact fun sameTier => routed ⟨rfl, sameTier.symm⟩
      · rw [Function.update_of_ne same]

end TimedEngine

end Fusecraft
