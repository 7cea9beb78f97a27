import Fusecraft.Library.TokenBucket
import Fusecraft.Limiter.Bandwidth

namespace Fusecraft

/-!
# Runs of the bandwidth limiter

A run is the list of operations in the order in which they take the mutex.
At the rationals the limiter refines the ideal token bucket: whatever the
statistics calls and the empty reservations in between, its state determines
the level of the ideal bucket at every later moment.
-/

/-- One operation on a limiter, with the clock reading made under the lock. -/
inductive BucketCall where
  | reserve (bytes : UInt64) (now : Nat)
  | stats (now : Nat)
  deriving DecidableEq, Repr

namespace BucketCall

def now : BucketCall -> Nat
  | reserve _ now => now
  | stats now => now

/-- The bytes and the reading of a positive reservation. -/
def demand : BucketCall -> Option (UInt64 × Nat)
  | reserve bytes now => if bytes = 0 then none else some (bytes, now)
  | stats _ => none

end BucketCall

theorem BucketCall.demand_now {call : BucketCall} {bytes : UInt64} {now : Nat}
    (demands : call.demand = some (bytes, now)) : call.now = now := by
  cases call with
  | stats reading => cases demands
  | reserve amount reading =>
      simp only [demand, Option.ite_none_left_eq_some, Option.some.injEq, Prod.mk.injEq] at demands
      exact demands.2.2

/-- The positive reservations of a run, in order. -/
def reservations (calls : List BucketCall) : List (UInt64 × Nat) :=
  calls.filterMap BucketCall.demand

theorem reservations_ordered {calls : List BucketCall}
    (ordered : calls.Pairwise (fun first second => first.now ≤ second.now)) :
    (reservations calls).Pairwise (fun first second => first.2 ≤ second.2) := by
  apply List.Pairwise.filterMap BucketCall.demand _ ordered
  intro first second inOrder _ demanded _ demandedLater
  rw [BucketCall.demand_now demanded, BucketCall.demand_now demandedLater] at inOrder
  exact inOrder

namespace BandwidthLimiter

section Runs

variable {F : Type} [F64 F] (limiter : BandwidthLimiter F)

/-- The effect of one operation, and the wait of a positive reservation. -/
def serve (state : BucketState F) : BucketCall -> BucketState F × List (Option F)
  | .reserve bytes now =>
      let (next, secs) := limiter.reserveSecs bytes now state
      (next, if bytes = 0 then [] else [secs])
  | .stats now => ((limiter.stats now state).1, [])

/-- The final state of a run and the waits of its positive reservations. -/
def run : BucketState F -> List BucketCall -> BucketState F × List (Option F)
  | state, [] => (state, [])
  | state, call :: rest =>
      let (next, served) := limiter.serve state call
      let (final, waits) := run next rest
      (final, served ++ waits)

variable {limiter}

theorem serve_positive {state next : BucketState F} {secs : Option F} {bytes : UInt64} {now : Nat}
    (nonzero : bytes ≠ 0) (serves : limiter.reserveSecs bytes now state = (next, secs)) :
    limiter.serve state (.reserve bytes now) = (next, [secs]) := by
  rw [serve, serves]
  simp only [if_neg nonzero]

theorem run_cons {state next final : BucketState F} {call : BucketCall} {rest : List BucketCall}
    {served waits : List (Option F)} (serves : limiter.serve state call = (next, served))
    (runs : limiter.run next rest = (final, waits)) :
    limiter.run state (call :: rest) = (final, served ++ waits) := by
  rw [run, serves]
  simp only [runs]

end Runs

/-! ## The refinement -/

/-- A clock reading in seconds. -/
def seconds (nanos : Nat) : Rat := nanos / 10 ^ 9

/-- The bucket state determines the level of the ideal bucket from the last
refill on. -/
structure Tracks (limiter : BandwidthLimiter Rat) (amount time : Nat -> Rat) (count : Nat)
    (state : BucketState Rat) : Prop where
  tokens_le : state.tokens ≤ limiter.capacity
  level : forall now, state.last ≤ now ->
    min limiter.capacity (state.tokens + limiter.rate * (seconds now - seconds state.last)) =
      TokenBucket.level limiter.rate limiter.capacity amount time count (seconds now)

variable {limiter : BandwidthLimiter Rat} {amount time : Nat -> Rat} {count : Nat}
  {state : BucketState Rat}

theorem seconds_le {first second : Nat} (ordered : first ≤ second) :
    seconds first ≤ seconds second := by
  unfold seconds
  exact div_le_div_of_nonneg_right (Nat.cast_le.mpr ordered) (by norm_num)

/-- With a positive rate a refill adds what has flowed in since the last one. -/
theorem refill_eq (positive : 0 < limiter.rate) (capped : state.tokens ≤ limiter.capacity)
    {now : Nat} (later : state.last ≤ now) :
    limiter.refill now state =
      { state with
        tokens := min limiter.capacity
          (state.tokens + limiter.rate * (seconds now - seconds state.last))
        last := now } := by
  unfold refill
  by_cases same : now - state.last = 0
  · have equal : state.last = now := by omega
    rw [if_pos same, equal, sub_self, mul_zero, add_zero, min_eq_right capped, ← equal]
  · have elapsed : ((now - state.last : Nat) : Rat) / 10 ^ 9 =
        seconds now - seconds state.last := by
      rw [Nat.cast_sub later, seconds, seconds]
      ring
    have flows : F64.lt (F64.literal 0) limiter.rate = true := decide_eq_true positive
    rw [if_neg same]
    simp only [flows, if_true, F64.exact_min, F64.exact_add, F64.exact_mul, F64.exact_asSecs,
      elapsed]
    rw [min_comm, mul_comm]

/-- So it sets the tokens to the ideal level and changes no later level. -/
theorem Tracks.refill (tracks : limiter.Tracks amount time count state)
    (positive : 0 < limiter.rate) {now : Nat} (later : state.last ≤ now) :
    (limiter.refill now state).tokens =
      TokenBucket.level limiter.rate limiter.capacity amount time count (seconds now) ∧
    limiter.Tracks amount time count (limiter.refill now state) := by
  rw [refill_eq positive tracks.tokens_le later]
  refine ⟨tracks.level now later, min_le_left _ _, ?_⟩
  intro latest inOrder
  rw [← tracks.level latest (Nat.le_trans later inOrder),
    TokenBucket.refill_split positive.le _ (sub_nonneg.mpr (seconds_le inOrder))]
  congr 3
  ring

/-- Taking a reservation out of a bucket at the ideal level gives the ideal
bucket after one more request. -/
theorem Tracks.take (tracks : limiter.Tracks amount time count state)
    (taken : 0 ≤ amount count) (moment : time count = seconds state.last)
    (level : state.tokens = TokenBucket.level limiter.rate limiter.capacity amount time count
      (seconds state.last)) (throttled : UInt64) :
    limiter.Tracks amount time (count + 1)
      { state with tokens := state.tokens - amount count, totalThrottled := throttled } := by
  constructor
  · have capped := tracks.tokens_le
    change state.tokens - amount count ≤ limiter.capacity
    linarith
  · intro now later
    rw [TokenBucket.level, moment, level]

/-- What a positive reservation does after its refill. -/
theorem reserveSecs_eq (positive : 0 < limiter.rate) {bytes : UInt64} (nonzero : bytes ≠ 0)
    (now : Nat) (state : BucketState Rat) :
    limiter.reserveSecs bytes now state =
      let refilled := limiter.refill now
        { state with totalBytesReserved := saturatingAdd state.totalBytesReserved bytes }
      let balance := refilled.tokens - bytes.toNat
      if 0 ≤ balance then ({ refilled with tokens := balance }, none)
      else
        ({ refilled with tokens := balance, totalThrottled := refilled.totalThrottled + 1 },
          some (-balance / limiter.rate)) := by
  unfold reserveSecs
  rw [if_neg nonzero]
  simp only [F64.exact_le, F64.exact_literal, Rat.cast_id, F64.exact_sub, F64.exact_ofU64,
    F64.exact_neg, F64.exact_div, decide_eq_true_eq]
  rw [if_neg (not_le_of_gt positive)]

/-- A positive reservation is one request to the ideal bucket, and it waits as
long as that one. -/
theorem Tracks.reserve (tracks : limiter.Tracks amount time count state)
    (positive : 0 < limiter.rate) {bytes : UInt64} (nonzero : bytes ≠ 0) {now : Nat}
    (later : state.last ≤ now) (taken : amount count = bytes.toNat)
    (moment : time count = seconds now) :
    exists next secs, limiter.reserveSecs bytes now state = (next, secs) ∧
      limiter.Tracks amount time (count + 1) next ∧ next.last = now ∧
      secs.getD 0 = TokenBucket.wait limiter.rate limiter.capacity amount time count ∧
      next.totalBytesReserved = saturatingAdd state.totalBytesReserved bytes ∧
      next.totalThrottled = state.totalThrottled + if 0 < secs.getD 0 then 1 else 0 := by
  have counted : limiter.Tracks amount time count
      { state with totalBytesReserved := saturatingAdd state.totalBytesReserved bytes } :=
    ⟨tracks.tokens_le, tracks.level⟩
  have refilled := counted.refill positive later
  have shape := refill_eq positive counted.tokens_le later
  rw [reserveSecs_eq positive nonzero]
  generalize limiter.refill now _ = after at refilled shape ⊢
  rcases refilled with ⟨level, tracks⟩
  have last : after.last = now := by rw [shape]
  have balance : after.tokens - bytes.toNat =
      TokenBucket.balance limiter.rate limiter.capacity amount time count := by
    rw [level, TokenBucket.balance, moment, taken]
  have taken_nonneg : 0 ≤ amount count := by
    rw [taken]
    exact Nat.cast_nonneg _
  have served := fun throttled => tracks.take taken_nonneg (by rw [moment, last])
    (by rw [level, last]) throttled
  rw [taken] at served
  simp only
  by_cases credit : 0 ≤ after.tokens - bytes.toNat
  · rw [if_pos credit]
    have waits : TokenBucket.wait limiter.rate limiter.capacity amount time count = 0 := by
      rw [TokenBucket.wait, ← balance]
      exact max_eq_left (div_nonpos_of_nonpos_of_nonneg (neg_nonpos.mpr credit) positive.le)
    refine ⟨_, _, rfl, served after.totalThrottled, last, waits.symm, ?_, ?_⟩
    · rw [shape]
    · rw [shape]
      simp
  · rw [if_neg credit]
    have debt : 0 < -(after.tokens - bytes.toNat) / limiter.rate :=
      div_pos (neg_pos.mpr (lt_of_not_ge credit)) positive
    refine ⟨_, _, rfl, served (after.totalThrottled + 1), last, ?_, ?_, ?_⟩
    · rw [TokenBucket.wait, ← balance]
      exact (max_eq_right debt.le).symm
    · rw [shape]
    · rw [Option.getD_some, if_pos debt, shape]

/-- The numbered requests `amount` and `time` from number `count` on are the
given reservations. -/
def Numbers (amount time : Nat -> Rat) (count : Nat) (demands : List (UInt64 × Nat)) : Prop :=
  forall index bytes now, demands[index]? = some (bytes, now) ->
    amount (count + index) = bytes.toNat ∧ time (count + index) = seconds now

theorem Numbers.tail {bytes : UInt64} {now : Nat} {rest : List (UInt64 × Nat)}
    (numbers : Numbers amount time count ((bytes, now) :: rest)) :
    Numbers amount time (count + 1) rest := by
  intro index other later found
  rw [Nat.add_assoc, Nat.add_comm 1 index]
  exact numbers (index + 1) other later found

/-- Reservations are numbered by their places. -/
theorem numbers_getD (demands : List (UInt64 × Nat)) :
    Numbers (fun index => (demands.getD index (0, 0)).1.toNat)
      (fun index => seconds (demands.getD index (0, 0)).2) 0 demands := by
  intro index bytes now found
  rw [Nat.zero_add]
  simp only [List.getD_eq_getElem?_getD, found, Option.getD_some, and_self]

/-- Readings in order number times in order. -/
theorem Numbers.time_le {demands : List (UInt64 × Nat)} (numbers : Numbers amount time 0 demands)
    (ordered : demands.Pairwise (fun first second => first.2 ≤ second.2)) {index : Nat}
    (inside : index + 1 < demands.length) : time index ≤ time (index + 1) := by
  have before := Nat.lt_of_succ_lt inside
  have sorted := List.pairwise_iff_getElem.mp ordered index (index + 1) before inside
    (Nat.lt_succ_self index)
  have first := (numbers index _ _ (List.getElem?_eq_getElem before)).2
  have second := (numbers (index + 1) _ _ (List.getElem?_eq_getElem inside)).2
  rw [Nat.zero_add] at first second
  rw [first, second]
  exact seconds_le sorted

/-- A run of the limiter is a run of the ideal bucket: the waits are those of
the reservations in order, and the totals count them. -/
theorem Tracks.run (positive : 0 < limiter.rate) (calls : List BucketCall)
    (tracks : limiter.Tracks amount time count state)
    (later : forall call, call ∈ calls -> state.last ≤ call.now)
    (ordered : calls.Pairwise (fun first second => first.now ≤ second.now))
    (numbers : Numbers amount time count (reservations calls)) :
    exists final waits, limiter.run state calls = (final, waits) ∧
      waits.map (fun secs => secs.getD 0) =
        (List.range' count (reservations calls).length).map
          (TokenBucket.wait limiter.rate limiter.capacity amount time) ∧
      final.totalThrottled = state.totalThrottled +
        UInt64.ofNat ((waits.map (fun secs => secs.getD 0)).countP (fun secs => 0 < secs)) ∧
      final.totalBytesReserved.toNat = min (2 ^ 64 - 1)
        (state.totalBytesReserved.toNat +
          ((reservations calls).map (fun demand => demand.1.toNat)).sum) := by
  induction calls generalizing state count with
  | nil =>
      refine ⟨state, [], rfl, rfl, (UInt64.add_zero _).symm, ?_⟩
      have bound := state.totalBytesReserved.toNat_lt
      simp only [reservations, List.filterMap_nil, List.map_nil, List.sum_nil]
      omega
  | cons call rest ih =>
      rw [List.pairwise_cons] at ordered
      have restLater := fun call member => later call (List.mem_cons_of_mem _ member)
      cases call with
      | stats now =>
          have onTime : state.last ≤ now := later _ List.mem_cons_self
          have refilled := tracks.refill positive onTime
          have shape := refill_eq positive tracks.tokens_le onTime
          have skipped : reservations (.stats now :: rest) = reservations rest := rfl
          rw [skipped] at numbers ⊢
          rcases ih refilled.2 (by rw [shape]; exact ordered.1) ordered.2 numbers with
            ⟨final, waits, runs, waited, throttled, reserved⟩
          refine ⟨final, waits, run_cons rfl runs, waited, ?_, ?_⟩
          · rw [throttled, shape]
          · rw [reserved, shape]
      | reserve bytes now =>
          have onTime : state.last ≤ now := later _ List.mem_cons_self
          by_cases zero : bytes = 0
          · have skipped : reservations (.reserve bytes now :: rest) = reservations rest := by
              simp [reservations, BucketCall.demand, zero]
            rw [skipped] at numbers ⊢
            rcases ih tracks restLater ordered.2 numbers with ⟨final, waits, runs, facts⟩
            subst zero
            exact ⟨final, waits, run_cons rfl runs, facts⟩
          · have counted : reservations (.reserve bytes now :: rest) =
                (bytes, now) :: reservations rest := by
              simp [reservations, BucketCall.demand, zero]
            rw [counted] at numbers ⊢
            have first := numbers 0 bytes now rfl
            rcases tracks.reserve positive zero onTime first.1 first.2 with
              ⟨next, secs, serves, tracksNext, last, waited, reserved, throttled⟩
            rcases ih tracksNext (by rw [last]; exact ordered.1) ordered.2 numbers.tail with
              ⟨final, waits, runs, waitedRest, throttledRest, reservedRest⟩
            refine ⟨final, secs :: waits, run_cons (serve_positive zero serves) runs, ?_, ?_, ?_⟩
            · rw [List.map_cons, waitedRest, waited, List.length_cons, List.range'_succ,
                List.map_cons]
            · have one : (UInt64.ofNat (if decide (0 < secs.getD 0) = true then 1 else 0)) =
                  if 0 < secs.getD 0 then 1 else 0 := by
                simp only [decide_eq_true_eq]
                split <;> rfl
              rw [throttledRest, throttled, List.map_cons, List.countP_cons, UInt64.ofNat_add, one,
                UInt64.add_assoc, UInt64.add_comm (if 0 < secs.getD 0 then 1 else 0)]
            · rw [reservedRest, reserved, saturatingAdd_toNat, List.map_cons, List.sum_cons]
              simp only
              omega

/-- A new limiter tracks the full bucket. -/
theorem tracks_initial (profile : BandwidthProfile Rat) (positive : 0 < profile.bytesPerSec)
    (created : Nat) (amount time : Nat -> Rat) :
    (new profile).Tracks amount time 0 ((new profile).initial created) := by
  refine ⟨le_refl _, fun now later => ?_⟩
  have flowed : 0 ≤ profile.bytesPerSec * (seconds now - seconds created) :=
    mul_nonneg positive.le (sub_nonneg.mpr (seconds_le later))
  exact min_eq_left (le_add_of_nonneg_right flowed)

/-- The limiter is the ideal token bucket.  Take any profile with a positive
rate and any run of reservations and statistics calls with readings in order,
and read floats as exact numbers.  The wait of each positive reservation,
before it is rounded, is the largest backlog over the windows that end with
it.  So releases keep the order of the reservations, and between two of them
no more than the burst and the refill goes through.  The number of throttled
reservations is kept modulo `2 ^ 64`, and the number of bytes up to
`2 ^ 64 - 1`. -/
theorem run_is_token_bucket (profile : BandwidthProfile Rat)
    (positive : 0 < profile.bytesPerSec) (created : Nat) (calls : List BucketCall)
    (ordered : (created :: calls.map BucketCall.now).Pairwise
      (fun first second => first ≤ second)) :
    let rate := profile.bytesPerSec
    let burst : Rat := profile.burstBytes.toNat
    let demands := reservations calls
    let bytes : Nat -> Rat := fun i => (demands.getD i (0, 0)).1.toNat
    let time : Nat -> Rat := fun i => seconds (demands.getD i (0, 0)).2
    let outcome := (new profile).run ((new profile).initial created) calls
    let waits := outcome.2.map (fun secs => secs.getD 0)
    let wait : Nat -> Rat := fun i => waits.getD i 0
    let release : Nat -> Rat := fun i => time i + wait i
    waits.length = demands.length ∧
    (forall i, i < demands.length -> wait i =
      max 0 ((Finset.range (i + 1)).sup' Finset.nonempty_range_add_one
        (fun j => ((∑ k ∈ Finset.Icc j i, bytes k) - burst) / rate - (time i - time j)))) ∧
    (forall i j, i ≤ j -> j < demands.length -> release i ≤ release j) ∧
    (forall j k, j < k -> k < demands.length ->
      ∑ l ∈ Finset.Ioc j k, bytes l ≤ burst + rate * (release k - release j)) ∧
    outcome.1.totalThrottled = UInt64.ofNat (waits.countP (fun secs => 0 < secs)) ∧
    outcome.1.totalBytesReserved.toNat =
      min (2 ^ 64 - 1) (demands.map (fun demand => demand.1.toNat)).sum := by
  intro rate burst demands bytes time outcome waits wait release
  rw [List.pairwise_cons] at ordered
  have numbers : Numbers bytes time 0 demands := numbers_getD demands
  rcases Tracks.run positive calls (tracks_initial profile positive created bytes time)
    (fun call member => ordered.1 _ (List.mem_map_of_mem member)) (List.pairwise_map.mp ordered.2)
    numbers with ⟨final, served, runs, waited, throttled, reserved⟩
  have finished : outcome = (final, served) := runs
  have ideal :
      waits = (List.range demands.length).map (TokenBucket.wait rate burst bytes time) := by
    rw [List.range_eq_range']
    refine Eq.trans ?_ waited
    simp only [waits, finished]
  have waitAt : forall i, i < demands.length ->
      wait i = TokenBucket.wait rate burst bytes time i := by
    intro i inside
    simp only [wait, ideal]
    simp [inside]
  have bytes_nonneg : forall i, 0 ≤ bytes i := fun i => Nat.cast_nonneg _
  have times : forall i, i + 1 < demands.length -> time i ≤ time (i + 1) :=
    fun i inside =>
      numbers.time_le (reservations_ordered (List.pairwise_map.mp ordered.2)) inside
  refine ⟨?_, ?_, ?_, ?_, ?_, ?_⟩
  · rw [ideal, List.length_map, List.length_range]
  · intro i inside
    rw [waitAt i inside]
    exact TokenBucket.wait_eq positive i
  · intro i j before inside
    simp only [release, waitAt i (Nat.lt_of_le_of_lt before inside), waitAt j inside]
    exact TokenBucket.release_le positive bytes_nonneg before
      (fun k earlier => times k (Nat.lt_of_le_of_lt earlier inside))
  · intro j k before inside
    simp only [release, waitAt j (Nat.lt_trans before inside), waitAt k inside]
    exact TokenBucket.window_le positive (Nat.cast_nonneg _) bytes_nonneg (Nat.le_of_lt before)
  · simp only [waits, finished]
    rw [throttled]
    exact UInt64.zero_add _
  · simp only [finished]
    rw [reserved]
    exact congrArg (min _) (Nat.zero_add _)

/-- Two reservations of 3 bytes out of a bucket of 4 that refills 1 byte a
second: the second one, a second later, waits for a second. -/
theorem run_is_token_bucket_pair :
    let profile : BandwidthProfile Rat := { bytesPerSec := 1, burstBytes := 4 }
    let calls : List BucketCall :=
      [.reserve 3 0, .reserve 0 5, .stats 500000000, .reserve 3 1000000000]
    let outcome := (new profile).run ((new profile).initial 0) calls
    outcome.1.totalThrottled = UInt64.ofNat
        ((outcome.2.map (fun secs => secs.getD 0)).countP (fun secs => 0 < secs)) ∧
      outcome.1.totalBytesReserved.toNat = 6 := by
  intro profile calls outcome
  have facts := run_is_token_bucket profile (by decide) 0 calls (by decide)
  exact facts.2.2.2.2

/-- With an empty burst every reservation is throttled. -/
theorem throttled_replicate (count : Nat) :
    let profile : BandwidthProfile Rat := { bytesPerSec := 1, burstBytes := 0 }
    let outcome := (new profile).run ((new profile).initial 0) (List.replicate count (.reserve 1 0))
    (outcome.2.map (fun secs => secs.getD 0)).countP (fun secs => 0 < secs) = count ∧
      outcome.1.totalThrottled = UInt64.ofNat count := by
  intro profile outcome
  have demands : reservations (List.replicate count (.reserve 1 0)) =
      List.replicate count (1, 0) :=
    List.filterMap_replicate_of_some rfl
  have numbers : Numbers (fun _ => 1) (fun _ => 0) 0
      (reservations (List.replicate count (.reserve 1 0))) := by
    rw [demands]
    intro index bytes now found
    have same := List.eq_of_mem_replicate (List.mem_of_getElem? found)
    cases same
    exact ⟨rfl, by simp [seconds]⟩
  rcases Tracks.run (by decide) (List.replicate count (.reserve 1 0))
    (tracks_initial profile (by decide) 0 (fun _ => 1) (fun _ => 0))
    (fun call member => Nat.zero_le _)
    (List.pairwise_replicate.mpr (Or.inr (Nat.le_refl _))) numbers with
    ⟨final, waits, runs, waited, throttled, -⟩
  have finished : outcome = (final, waits) := runs
  have all : (waits.map (fun secs => secs.getD 0)).countP (fun secs => 0 < secs) = count := by
    have length : (waits.map (fun secs => secs.getD 0)).length = count := by
      rw [waited, demands]
      simp
    rw [← length, List.countP_eq_length, waited]
    intro secs member
    rcases List.mem_map.mp member with ⟨index, -, rfl⟩
    exact decide_eq_true (TokenBucket.wait_pos (by decide) (by decide))
  refine ⟨?_, ?_⟩
  · simp only [finished, all]
  · simp only [finished]
    rw [throttled, all]
    exact UInt64.zero_add _

/-- A run of `2 ^ 64` throttled reservations ends with a count of zero. -/
theorem run_throttled_wraps :
    exists (profile : BandwidthProfile Rat) (calls : List BucketCall), 0 < profile.bytesPerSec ∧
      (0 :: calls.map BucketCall.now).Pairwise (fun first second => first ≤ second) ∧
      ((new profile).run ((new profile).initial 0) calls).1.totalThrottled.toNat ≠
        (((new profile).run ((new profile).initial 0) calls).2.map (fun secs => secs.getD 0)).countP
          (fun secs => 0 < secs) := by
  refine ⟨{ bytesPerSec := 1, burstBytes := 0 }, List.replicate (2 ^ 64) (.reserve 1 0),
    by decide, ?_, ?_⟩
  · rw [List.map_replicate, List.pairwise_cons]
    exact ⟨fun _ _ => Nat.zero_le _, List.pairwise_replicate.mpr (Or.inr (Nat.le_refl _))⟩
  · rcases throttled_replicate (2 ^ 64) with ⟨all, throttled⟩
    rw [all, throttled, UInt64.toNat_ofNat', Nat.mod_self]
    exact Nat.ne_of_lt (Nat.two_pow_pos 64)

end BandwidthLimiter

end Fusecraft
