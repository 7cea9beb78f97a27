import Fusecraft.Sampler.Key
import Fusecraft.Core.Config

namespace Fusecraft

/-!
# Fault and latency sampling

Both samplers seed a generator with the mixed key and draw uniform floats from
it.  The generator and the elementary functions come from outside the
repository; a generator is the stream of the floats that it will draw, a
function of its seed.  The samplers are pure: what they return is a function
of the profile and the key.
-/

/-- The uniform streams of `StdRng` and the elementary functions of `f64`. -/
structure SamplerLib (F : Type) where
  seedFromU64 : UInt64 -> Nat -> F
  minPositive : F
  pi : F
  ln : F -> F
  exp : F -> F
  sqrt : F -> F
  cos : F -> F
  powf : F -> F -> F

/-- Draw the next uniform float. -/
def random {F : Type} (rng : Nat -> F) : F × (Nat -> F) :=
  (rng 0, fun index => rng (index + 1))

variable {F : Type} [F64 F]

/-! ## Faults -/

/-- The first of the rules whose draw is below its rate. -/
def firstFault : List (FaultRule F) -> (Nat -> F) -> Option Int
  | [], _ => none
  | rule :: rest, rng =>
      let (u, rng) := random rng
      if F64.lt u rule.rate then some rule.errno else firstFault rest rng

/-- Sample whether a fault should be injected: the rules for the key's op are
tried in order. -/
def sampleFault (lib : SamplerLib F) (rules : List (FaultRule F)) (key : SampleKey) : Option Int :=
  firstFault (rules.filter (fun rule => rule.op = key.op)) (faultRng lib.seedFromU64 key)

/-! ## Latency -/

section Latency

variable (lib : SamplerLib F)

/-- A standard normal variate by the Box-Muller transform. -/
def sampleStandardNormal (rng : Nat -> F) : F × (Nat -> F) :=
  let (u1, rng) := random rng
  let u1 := F64.max u1 lib.minPositive
  let (u2, rng) := random rng
  let radius := lib.sqrt (F64.mul (F64.literal (-2)) (lib.ln u1))
  let angle := F64.mul (F64.mul (F64.literal 2) lib.pi) u2
  (F64.mul radius (lib.cos angle), rng)

def sampleLognormal (rng : Nat -> F) (median sigma : F) : F :=
  if F64.le median (F64.literal 0) || F64.le sigma (F64.literal 0) then
    F64.max median (F64.literal 0)
  else
    let mu := lib.ln median
    let (z, _) := sampleStandardNormal lib rng
    lib.exp (F64.add mu (F64.mul sigma z))

/-- A Pareto variate by inversion of its distribution function. -/
def samplePareto (rng : Nat -> F) (xm alpha : F) : F :=
  let (u, _) := random rng
  let u := F64.max u lib.minPositive
  F64.div xm (lib.powf u (F64.div (F64.literal 1) alpha))

/-- Sample a latency in microseconds: base plus body, clamped and rounded. -/
def sampleLatencyUs (profile : LatencyProfile F) (key : SampleKey) : UInt64 :=
  let rng := latencyRng lib.seedFromU64 key
  let base := F64.ofU64 profile.baseUs
  let body :=
    if F64.lt (F64.literal 0) profile.paretoWeight then
      let (u, rng) := random rng
      if F64.lt u profile.paretoWeight then
        samplePareto lib rng profile.paretoXmUs profile.paretoAlpha
      else sampleLognormal lib rng profile.lognormalMedianUs profile.lognormalSigma
    else sampleLognormal lib rng profile.lognormalMedianUs profile.lognormalSigma
  let total := F64.add base body
  let clamped := F64.max (F64.min total (F64.ofU64 profile.maxUs)) (F64.literal 0)
  let rounded := F64.toU64 (F64.round clamped)
  min rounded profile.maxUs

/-- A sampled latency never exceeds the profile's maximum. -/
theorem sampleLatencyUs_le (profile : LatencyProfile F) (key : SampleKey) :
    sampleLatencyUs lib profile key ≤ profile.maxUs := by
  change min _ profile.maxUs ≤ profile.maxUs
  exact Std.min_le_right

end Latency

end Fusecraft
