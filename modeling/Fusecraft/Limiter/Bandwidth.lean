import Fusecraft.Core.Config

namespace Fusecraft

/-!
# Token-bucket bandwidth limiter

The limiter only computes how long its caller must wait.  Both operations run
under the limiter's mutex, and both may first refill the bucket; the clock
reading that a refill makes is an argument here, in nanoseconds.

A reservation returns a rounded and possibly saturated `Duration`.  The number
of seconds that is rounded is returned by an operation of its own, so that it
can be studied before rounding.
-/

/-- Mutable state of a bucket. -/
structure BucketState (F : Type) where
  tokens : F
  last : Nat
  totalBytesReserved : UInt64
  totalThrottled : UInt64
  deriving DecidableEq

/-- A bucket's rate in bytes per second and its capacity in bytes. -/
structure BandwidthLimiter (F : Type) where
  rate : F
  capacity : F
  deriving DecidableEq

/-- Statistics snapshot of a bandwidth limiter. -/
structure BandwidthStats (F : Type) where
  tokensAvailable : F
  bytesPerSec : F
  burstBytes : UInt64
  totalBytesReserved : UInt64
  totalThrottled : UInt64

/-- `u64::saturating_add`. -/
def saturatingAdd (first second : UInt64) : UInt64 :=
  if first.toNat + second.toNat < 2 ^ 64 then first + second else UInt64.ofNat (2 ^ 64 - 1)

theorem saturatingAdd_toNat (first second : UInt64) :
    (saturatingAdd first second).toNat = min (2 ^ 64 - 1) (first.toNat + second.toNat) := by
  unfold saturatingAdd
  by_cases fits : first.toNat + second.toNat < 2 ^ 64
  · rw [if_pos fits, UInt64.toNat_add, Nat.mod_eq_of_lt fits]
    omega
  · rw [if_neg fits]
    have top : (UInt64.ofNat (2 ^ 64 - 1)).toNat = 2 ^ 64 - 1 := rfl
    omega

namespace BandwidthLimiter

variable {F : Type} [F64 F]

/-- The limiter of a profile; it starts with a full bucket. -/
def new (profile : BandwidthProfile F) : BandwidthLimiter F where
  rate := profile.bytesPerSec
  capacity := F64.ofU64 profile.burstBytes

variable (limiter : BandwidthLimiter F)

/-- The state behind the mutex of a new limiter. -/
def initial (now : Nat) : BucketState F where
  tokens := limiter.capacity
  last := now
  totalBytesReserved := 0
  totalThrottled := 0

/-- Refill tokens by the time elapsed since the last refill.  A reading before
the last one counts as no time. -/
def refill (now : Nat) (state : BucketState F) : BucketState F :=
  let elapsed := now - state.last
  if elapsed = 0 then state
  else if F64.lt (F64.literal 0) limiter.rate then
    let added := F64.mul (F64.asSecs elapsed) limiter.rate
    { state with tokens := F64.min (F64.add state.tokens added) limiter.capacity, last := now }
  else { state with last := now }

/-- Reserve bytes, up to the number of seconds to wait; none means no wait. -/
def reserveSecs (bytes : UInt64) (now : Nat) (state : BucketState F) :
    BucketState F × Option F :=
  if bytes = 0 then (state, none)
  else
    let state := { state with
      totalBytesReserved := saturatingAdd state.totalBytesReserved bytes }
    if F64.le limiter.rate (F64.literal 0) then (state, none)
    else
      let state := limiter.refill now state
      let state := { state with tokens := F64.sub state.tokens (F64.ofU64 bytes) }
      if F64.le (F64.literal 0) state.tokens then (state, none)
      else
        ({ state with totalThrottled := state.totalThrottled + 1 },
          some (F64.div (F64.neg state.tokens) limiter.rate))

/-- The duration that a number of seconds is turned into. -/
def waitDuration : Option F -> Duration
  | none => .zero
  | some secs => (F64.tryFromSecs secs).getD .max

/-- Reserve `bytes` worth of bandwidth: the duration the caller must wait. -/
def reserve (bytes : UInt64) (now : Nat) (state : BucketState F) : BucketState F × Duration :=
  let (state, secs) := limiter.reserveSecs bytes now state
  (state, waitDuration secs)

/-- A snapshot of the statistics. -/
def stats (now : Nat) (state : BucketState F) : BucketState F × BandwidthStats F :=
  let state := limiter.refill now state
  (state,
    { tokensAvailable := F64.max state.tokens (F64.literal 0)
      bytesPerSec := limiter.rate
      burstBytes := F64.toU64 limiter.capacity
      totalBytesReserved := state.totalBytesReserved
      totalThrottled := state.totalThrottled })

end BandwidthLimiter

end Fusecraft
