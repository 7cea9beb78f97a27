import Fusecraft.Limiter.BandwidthRuns

namespace Fusecraft

/-!
# The waits of a bucket as durations

A reservation whose wait is not representable returns the largest duration, so
adding anything to it overflows.  The sum of a latency and of the wait of a
reservation fits exactly if the latency is zero or the exact wait stays clear
of the end of the range.  Floats are read as exact rationals here.
-/

namespace Duration

theorem zero_add_isSome (duration : Duration) :
    ((fromMicros 0).add duration).isSome = true := by
  rw [add_isSome]
  change 0 + duration.nanos ≤ maxNanos
  rw [Nat.zero_add]
  exact duration.le_max

/-- The wait of a positive number of seconds, rounded and saturated. -/
theorem wait_nanos {secs : Rat} (positive : 0 < secs) :
    (BandwidthLimiter.waitDuration (some secs)).nanos =
      min (Rounding.halfEven (secs * 10 ^ 9)).toNat maxNanos := by
  change ((tryFromSecsExact secs).getD .max).nanos = _
  rw [tryFromSecsExact, if_neg (not_lt_of_gt positive), ofNanos?]
  by_cases fits : (Rounding.halfEven (secs * 10 ^ 9)).toNat ≤ maxNanos
  · rw [dif_pos fits, min_eq_left fits]
    rfl
  · rw [dif_neg fits, min_eq_right (le_of_not_ge fits)]
    rfl

/-- A latency and a wait of a positive number of seconds, as rounded and
saturated by a reservation, overflow unless they stay below the range. -/
theorem add_wait_isSome {latencyUs : UInt64} (drawn : latencyUs ≠ 0) {secs : Rat}
    (positive : 0 < secs) :
    ((fromMicros latencyUs).add (BandwidthLimiter.waitDuration (some secs))).isSome = true ↔
      secs * 10 ^ 9 + 1000 * latencyUs.toNat + 1 / 2 < 2 ^ 64 * 10 ^ 9 := by
  have nonneg : 0 ≤ Rounding.halfEven (secs * 10 ^ 9) :=
    Rounding.halfEven_nonneg (mul_nonneg positive.le (by norm_num))
  have least : 0 < latencyUs.toNat :=
    Nat.pos_of_ne_zero (fun zero => drawn (UInt64.toNat_inj.mp zero))
  have bound := latencyUs.toNat_lt
  let limit : Int := 2 ^ 64 * 10 ^ 9 - 1 - 1000 * latencyUs.toNat
  have odd : limit % 2 = 1 := by
    change (2 ^ 64 * 10 ^ 9 - 1 - 1000 * (latencyUs.toNat : Int)) % 2 = 1
    omega
  have rounded : ((fromMicros latencyUs).add (BandwidthLimiter.waitDuration (some secs))).isSome =
      true ↔ Rounding.halfEven (secs * 10 ^ 9) ≤ limit := by
    rw [add_isSome, wait_nanos positive]
    change latencyUs.toNat * 1000 + min (Rounding.halfEven (secs * 10 ^ 9)).toNat maxNanos ≤
      maxNanos ↔ _ ≤ (2 ^ 64 * 10 ^ 9 - 1 - 1000 * (latencyUs.toNat : Int))
    unfold maxNanos
    omega
  rw [rounded, Rounding.halfEven_le_iff_of_odd _ odd]
  constructor
  · intro below
    push_cast [limit] at below
    linarith
  · intro below
    push_cast [limit]
    linarith

end Duration

namespace BandwidthLimiter

variable (limiter : BandwidthLimiter Rat)

/-- The bytes that a bucket holds at a reading of the clock. -/
def available (now : Nat) (bucket : BucketState Rat) : Rat :=
  if now ≤ bucket.last then bucket.tokens
  else min (bucket.tokens + ((now - bucket.last : Nat) : Rat) / 10 ^ 9 * limiter.rate)
    limiter.capacity

/-- The latency is zero, or nothing is reserved, or what is missing in the
bucket flows in early enough before the end of the range of a duration. -/
def DelayFits (bytes latencyUs : UInt64) (now : Nat) (bucket : BucketState Rat) : Prop :=
  latencyUs = 0 ∨ bytes = 0 ∨ limiter.rate ≤ 0 ∨
    (bytes.toNat - limiter.available now bucket) / limiter.rate * 10 ^ 9 +
      1000 * latencyUs.toNat + 1 / 2 < 2 ^ 64 * 10 ^ 9

variable {limiter}

theorem refill_tokens (positive : 0 < limiter.rate) (now : Nat) (bucket : BucketState Rat) :
    (limiter.refill now bucket).tokens = limiter.available now bucket := by
  unfold refill available
  by_cases earlier : now ≤ bucket.last
  · rw [if_pos earlier, if_pos (Nat.sub_eq_zero_of_le earlier)]
  · rw [if_neg earlier, if_neg (Nat.sub_ne_zero_of_lt (lt_of_not_ge earlier))]
    simp only [F64.exact_lt, F64.exact_literal, Rat.cast_id, positive, decide_true, if_true,
      F64.exact_min, F64.exact_add, F64.exact_mul, F64.exact_asSecs]

/-- The wait of a reservation, by what the bucket holds. -/
theorem reserve_delay (positive : 0 < limiter.rate) {bytes : UInt64} (nonzero : bytes ≠ 0)
    (now : Nat) (bucket : BucketState Rat) :
    (limiter.reserve bytes now bucket).2 =
      if (bytes.toNat : Rat) ≤ limiter.available now bucket then .zero
      else waitDuration
        (some ((bytes.toNat - limiter.available now bucket) / limiter.rate)) := by
  change waitDuration (limiter.reserveSecs bytes now bucket).2 = _
  have tokens : (limiter.refill now { bucket with
      totalBytesReserved := saturatingAdd bucket.totalBytesReserved bytes }).tokens =
        limiter.available now bucket := refill_tokens positive now _
  rw [reserveSecs_eq positive nonzero]
  simp only [tokens]
  by_cases enough : (bytes.toNat : Rat) ≤ limiter.available now bucket
  · rw [if_pos (sub_nonneg.mpr enough), if_pos enough]
    rfl
  · rw [if_neg (fun nonneg => enough (sub_nonneg.mp nonneg)), if_neg enough]
    change waitDuration (some (-(limiter.available now bucket - bytes.toNat) / limiter.rate)) = _
    rw [neg_sub]

/-- Nothing is reserved for no bytes, or without a positive rate. -/
theorem reserve_unlimited {bytes : UInt64} (unlimited : bytes = 0 ∨ limiter.rate ≤ 0) (now : Nat)
    (bucket : BucketState Rat) : (limiter.reserve bytes now bucket).2 = .zero := by
  change waitDuration (limiter.reserveSecs bytes now bucket).2 = _
  unfold reserveSecs
  by_cases nothing : bytes = 0
  · rw [if_pos nothing]
    rfl
  · rw [if_neg nothing]
    have slow : limiter.rate ≤ 0 := unlimited.resolve_left nothing
    simp only [F64.exact_le, F64.exact_literal, Rat.cast_id, slow, decide_true, if_true]
    rfl

/-- The sum of a latency and the wait of a reservation is a duration exactly
under the condition. -/
theorem reserve_fits_iff (bytes latencyUs : UInt64) (now : Nat) (bucket : BucketState Rat) :
    ((Duration.fromMicros latencyUs).add (limiter.reserve bytes now bucket).2).isSome = true ↔
      limiter.DelayFits bytes latencyUs now bucket := by
  unfold DelayFits
  by_cases instant : latencyUs = 0
  · subst instant
    exact iff_of_true (Duration.zero_add_isSome _) (Or.inl rfl)
  · by_cases unlimited : bytes = 0 ∨ limiter.rate ≤ 0
    · rw [reserve_unlimited unlimited, Duration.add_zero]
      exact iff_of_true rfl (Or.inr (unlimited.elim Or.inl (fun slow => Or.inr (Or.inl slow))))
    · rcases not_or.mp unlimited with ⟨nonzero, fast⟩
      have positive : 0 < limiter.rate := lt_of_not_ge fast
      have condition : forall bound : Prop,
          (latencyUs = 0 ∨ bytes = 0 ∨ limiter.rate ≤ 0 ∨ bound) ↔ bound := by
        intro bound
        simp only [instant, nonzero, fast, false_or]
      rw [condition, reserve_delay positive nonzero]
      by_cases enough : (bytes.toNat : Rat) ≤ limiter.available now bucket
      · rw [if_pos enough, Duration.add_zero]
        apply iff_of_true rfl
        have missing : (bytes.toNat - limiter.available now bucket) / limiter.rate ≤ 0 :=
          div_nonpos_of_nonpos_of_nonneg (sub_nonpos.mpr enough) positive.le
        have bound : (latencyUs.toNat : Rat) < 2 ^ 64 := by
          exact_mod_cast latencyUs.toNat_lt
        linarith
      · rw [if_neg enough]
        exact Duration.add_wait_isSome instant
          (div_pos (sub_pos.mpr (lt_of_not_ge enough)) positive)

end BandwidthLimiter

end Fusecraft
