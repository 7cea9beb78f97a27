import Fusecraft.Core.Word
import Fusecraft.Core.Op

namespace Fusecraft

/-!
# Deterministic per-call keys

Each sampling event is described by a key, and the key is mixed with a stream
constant into the seed of the generator that serves the event.
-/

/-- Stream constant for latency sampling. -/
def latencyStream : UInt64 := 0xA5A5A5A5A5A5A5A5

/-- Stream constant for fault sampling. -/
def faultStream : UInt64 := 0x5A5A5A5A5A5A5A5A

/-- Every dimension of a single sampling event. -/
structure SampleKey where
  seed : UInt64
  op : FsOp
  ino : UInt64
  offset : UInt64
  len : UInt32
  seq : UInt64
  deriving DecidableEq, Repr

namespace SampleKey

/-- The exclusive or of all fields and the stream, before the finalizer. -/
def combine (key : SampleKey) (stream : UInt64) : UInt64 :=
  key.seed
    ^^^ rotateLeft key.op.toU64 11
    ^^^ rotateLeft key.ino 23
    ^^^ rotateLeft key.offset 37
    ^^^ rotateLeft key.len.toUInt64 47
    ^^^ rotateLeft key.seq 53
    ^^^ stream

end SampleKey

/-- The splitmix64 finalizer. -/
def finalize (word : UInt64) : UInt64 :=
  let first := (word ^^^ (word >>> 30)) * 0xbf58476d1ce4e5b9
  let second := (first ^^^ (first >>> 27)) * 0x94d049bb133111eb
  second ^^^ (second >>> 31)

/-- Mix all key fields with a stream constant. -/
def mix (key : SampleKey) (stream : UInt64) : UInt64 :=
  finalize (key.combine stream)

section Generators

variable {Rng : Type} (seedFromU64 : UInt64 -> Rng)

/-- The generator of the latency stream for a key. -/
def latencyRng (key : SampleKey) : Rng := seedFromU64 (mix key latencyStream)

/-- The generator of the fault stream for a key. -/
def faultRng (key : SampleKey) : Rng := seedFromU64 (mix key faultStream)

end Generators

/-! ## The finalizer loses nothing -/

theorem finalize_injective (first second : UInt64) (same : finalize first = finalize second) :
    first = second := by
  have multiplied := xorShift_injective (by decide) _ _ same
  have folded := wrappingMul_injective 0x319642b2d24d8ec3 (by decide) _ _ multiplied
  have multiplied := xorShift_injective (by decide) _ _ folded
  have folded := wrappingMul_injective 0x96de1b173f119089 (by decide) _ _ multiplied
  exact xorShift_injective (by decide) _ _ folded

/-! ## Keys that differ in one field -/

namespace SampleKey

/-- The fields of a key. -/
inductive Field where
  | seed
  | op
  | ino
  | offset
  | len
  | seq
  deriving DecidableEq, Repr

/-- Two keys hold the same value in a field. -/
def Agree (first second : SampleKey) : Field -> Prop
  | .seed => first.seed = second.seed
  | .op => first.op = second.op
  | .ino => first.ino = second.ino
  | .offset => first.offset = second.offset
  | .len => first.len = second.len
  | .seq => first.seq = second.seq

/-- Two keys differ in the named field and in no other. -/
def DifferIn (field : Field) (first second : SampleKey) : Prop :=
  ¬ first.Agree second field ∧ forall other, other ≠ field -> first.Agree second other

/-- What a field adds to the exclusive or. -/
def contribution (key : SampleKey) : Field -> UInt64
  | .seed => key.seed
  | .op => rotateLeft key.op.toU64 11
  | .ino => rotateLeft key.ino 23
  | .offset => rotateLeft key.offset 37
  | .len => rotateLeft key.len.toUInt64 47
  | .seq => rotateLeft key.seq 53

theorem combine_eq_contributions (key : SampleKey) (stream : UInt64) :
    key.combine stream =
      key.contribution .seed ^^^ key.contribution .op ^^^ key.contribution .ino ^^^
        key.contribution .offset ^^^ key.contribution .len ^^^ key.contribution .seq ^^^
        stream := rfl

theorem contribution_of_agree {first second : SampleKey} {field : Field}
    (agree : first.Agree second field) : first.contribution field = second.contribution field := by
  cases field with
  | seed => exact agree
  | op => exact congrArg (fun op : FsOp => rotateLeft op.toU64 11) agree
  | ino => exact congrArg (rotateLeft . 23) agree
  | offset => exact congrArg (rotateLeft . 37) agree
  | len => exact congrArg (fun len : UInt32 => rotateLeft len.toUInt64 47) agree
  | seq => exact congrArg (rotateLeft . 53) agree

end SampleKey

theorem FsOp.toU64_injective {first second : FsOp} (same : first.toU64 = second.toU64) :
    first = second := by
  cases first <;> cases second <;> first | rfl | exact absurd same (by decide)

namespace SampleKey

/-- No field loses anything on its way into the exclusive or: the number of an
op is its own, a length is only extended, and a rotation can be undone. -/
theorem agree_of_contribution {first second : SampleKey} {field : Field}
    (same : first.contribution field = second.contribution field) :
    first.Agree second field := by
  cases field with
  | seed => exact same
  | op => exact FsOp.toU64_injective (rotateLeft_injective_word (by decide) same)
  | ino => exact rotateLeft_injective_word (by decide) same
  | offset => exact rotateLeft_injective_word (by decide) same
  | len =>
      have extended := rotateLeft_injective_word (by decide) same
      apply UInt32.toNat_inj.mp
      have values := congrArg UInt64.toNat extended
      simpa using values
  | seq => exact rotateLeft_injective_word (by decide) same

/-- Where all other fields agree, the exclusive or shows the remaining one. -/
theorem contribution_of_combine {first second : SampleKey} {stream : UInt64} {field : Field}
    (same : first.combine stream = second.combine stream)
    (others : forall other, other ≠ field -> first.Agree second other) :
    first.contribution field = second.contribution field := by
  rw [combine_eq_contributions, combine_eq_contributions, UInt64.xor_left_inj] at same
  have equal : forall other, other ≠ field ->
      first.contribution other = second.contribution other :=
    fun other different => contribution_of_agree (others other different)
  cases field <;>
    simpa [equal .seed, equal .op, equal .ino, equal .offset, equal .len, equal .seq] using same

/-- Keys that differ in one field are mixed to different seeds. -/
theorem mix_ne_of_differIn {field : Field} {first second : SampleKey}
    (differ : DifferIn field first second) (stream : UInt64) :
    mix first stream ≠ mix second stream := by
  intro same
  apply differ.1
  apply agree_of_contribution
  exact contribution_of_combine (finalize_injective _ _ same) differ.2

end SampleKey

/-- Every field of a key matters.  Two keys that differ in exactly one field,
whichever it is, get different seeds on either stream; and the two streams of
one key have different seeds. -/
theorem every_field_matters :
    (forall (field : SampleKey.Field) (first second : SampleKey),
      SampleKey.DifferIn field first second ->
      mix first latencyStream ≠ mix second latencyStream ∧
      mix first faultStream ≠ mix second faultStream) ∧
    forall key : SampleKey, mix key latencyStream ≠ mix key faultStream := by
  constructor
  · intro field first second differ
    exact ⟨SampleKey.mix_ne_of_differIn differ _, SampleKey.mix_ne_of_differIn differ _⟩
  · intro key same
    have streams := finalize_injective _ _ same
    simp only [SampleKey.combine, UInt64.xor_right_inj] at streams
    exact absurd streams (by decide)

/-- The next call on the same byte range draws from other streams. -/
theorem every_field_matters_next_seq :
    mix { seed := 42, op := .read, ino := 1, offset := 0, len := 4096, seq := 0 } faultStream ≠
      mix { seed := 42, op := .read, ino := 1, offset := 0, len := 4096, seq := 1 } faultStream :=
  (every_field_matters.1 .seq _ _ ⟨by simp [SampleKey.Agree], fun other different => by
    cases other <;> first | rfl | exact absurd rfl different⟩).2

/-! ## Keys that differ in the offset and the sequence number -/

namespace SampleKey

/-- The same event at another offset and sequence number. -/
def moveTo (key : SampleKey) (offset seq : UInt64) : SampleKey :=
  { key with offset := offset, seq := seq }

/-- The two fields enter the combination through their rotations only. -/
theorem combine_moveTo (key : SampleKey) (offset seq stream : UInt64) :
    (key.moveTo offset seq).combine stream =
      (key.seed ^^^ rotateLeft key.op.toU64 11 ^^^ rotateLeft key.ino 23 ^^^
        rotateLeft key.len.toUInt64 47 ^^^ stream) ^^^
      (rotateLeft offset 37 ^^^ rotateLeft seq 53) := by
  simp only [combine, moveTo]
  ac_rfl

end SampleKey

/-- Two events that agree in all other fields get the same seed just if their
offsets differ in the bits in which their sequence numbers do, sixteen places
up. -/
theorem mix_moveTo_eq_iff (key : SampleKey) (stream offset offset' : UInt64) {seq seq' : UInt64}
    (small : seq.toNat < 2 ^ 48) (small' : seq'.toNat < 2 ^ 48) :
    mix (key.moveTo offset seq) stream = mix (key.moveTo offset' seq') stream ↔
      offset ^^^ offset' = (seq ^^^ seq') <<< 16 := by
  calc
    mix (key.moveTo offset seq) stream = mix (key.moveTo offset' seq') stream
        ↔ (key.moveTo offset seq).combine stream = (key.moveTo offset' seq').combine stream :=
      ⟨finalize_injective _ _, congrArg finalize⟩
    _ ↔ rotateLeft offset 37 ^^^ rotateLeft seq 53 =
          rotateLeft offset' 37 ^^^ rotateLeft seq' 53 := by
      rw [SampleKey.combine_moveTo, SampleKey.combine_moveTo, UInt64.xor_right_inj]
    _ ↔ offset ^^^ offset' = (seq ^^^ seq') <<< 16 :=
      @rotated_pair_eq_iff 37 16 48 (by decide) (by decide) offset offset' _ _ small small'

/-- The reads of a sequential scan: equal sizes, each under its own sequence
number. -/
def SampleKey.scan (key : SampleKey) (size : Nat) (seq : Nat -> UInt64) (index : Nat) : SampleKey :=
  key.moveTo (key.offset + UInt64.ofNat (index * size)) (seq index)

/-- Where the events of one run draw from distinct streams.  For every key and
any two different pairs of an offset and a sequence number below `2 ^ 32`,
both streams get different seeds if and only if the exclusive or of the
offsets is not that of the sequence numbers moved up by sixteen bits.  A scan
with equal-sized reads repeats no seed if and only if this holds of any two of
its reads. -/
theorem streams_differ_iff (key : SampleKey) :
    (forall offset seq offset' seq' : UInt64, offset < 2 ^ 32 -> seq < 2 ^ 32 ->
      offset' < 2 ^ 32 -> seq' < 2 ^ 32 -> (offset, seq) ≠ (offset', seq') ->
      ((mix (key.moveTo offset seq) latencyStream ≠
            mix (key.moveTo offset' seq') latencyStream ∧
          mix (key.moveTo offset seq) faultStream ≠
            mix (key.moveTo offset' seq') faultStream) ↔
        offset ^^^ offset' ≠ (seq ^^^ seq') <<< 16)) ∧
    (forall (size count : Nat) (seq : Nat -> UInt64),
      (forall i, i < count -> seq i < 2 ^ 32) ->
      ((forall i j, i < j -> j < count ->
          mix (key.scan size seq i) latencyStream ≠ mix (key.scan size seq j) latencyStream ∧
          mix (key.scan size seq i) faultStream ≠ mix (key.scan size seq j) faultStream) ↔
        forall i j, i < j -> j < count ->
          (key.scan size seq i).offset ^^^ (key.scan size seq j).offset ≠
            (seq i ^^^ seq j) <<< 16)) := by
  have pair : forall offset seq offset' seq' : UInt64, seq < 2 ^ 32 -> seq' < 2 ^ 32 ->
      ((mix (key.moveTo offset seq) latencyStream ≠
            mix (key.moveTo offset' seq') latencyStream ∧
          mix (key.moveTo offset seq) faultStream ≠
            mix (key.moveTo offset' seq') faultStream) ↔
        offset ^^^ offset' ≠ (seq ^^^ seq') <<< 16) := by
    intro offset seq offset' seq' small small'
    have wide : forall word : UInt64, word < 2 ^ 32 -> word.toNat < 2 ^ 48 := by
      intro word below
      have below : word.toNat < 2 ^ 32 := below
      omega
    rw [Ne, Ne, mix_moveTo_eq_iff key _ offset offset' (wide seq small) (wide seq' small'),
      mix_moveTo_eq_iff key _ offset offset' (wide seq small) (wide seq' small'), and_self]
  constructor
  · intro offset seq offset' seq' _ small _ small' _
    exact pair offset seq offset' seq' small small'
  · intro size count seq small
    constructor
    · intro distinct i j less inside
      exact (pair _ _ _ _ (small i (by omega)) (small j inside)).mp (distinct i j less inside)
    · intro apart i j less inside
      exact (pair _ _ _ _ (small i (by omega)) (small j inside)).mpr (apart i j less inside)

/-- The second and the third page of a file, read by the second and the third
call of a run, keep their streams apart: the sequence numbers reach no bit
below the sixteenth, and there the offsets differ. -/
theorem streams_differ_pages :
    mix (({ seed := 42, op := .read, ino := 100, offset := 0, len := 4096, seq := 0 } :
        SampleKey).moveTo 4096 1) latencyStream ≠
      mix (({ seed := 42, op := .read, ino := 100, offset := 0, len := 4096, seq := 0 } :
        SampleKey).moveTo 8192 2) latencyStream :=
  (((streams_differ_iff _).1 4096 1 8192 2 (by decide) (by decide) (by decide) (by decide)
    (by decide)).mpr (by decide)).1

/-- Two different events of one run can share both seeds: the first two reads
of 64 KiB in a run that scans a file from its start. -/
theorem streams_collide :
    ¬ forall (key : SampleKey) (offset seq offset' seq' : UInt64), offset < 2 ^ 32 ->
      seq < 2 ^ 32 -> offset' < 2 ^ 32 -> seq' < 2 ^ 32 -> (offset, seq) ≠ (offset', seq') ->
      mix (key.moveTo offset seq) latencyStream ≠ mix (key.moveTo offset' seq') latencyStream ∧
      mix (key.moveTo offset seq) faultStream ≠ mix (key.moveTo offset' seq') faultStream := by
  intro distinct
  have apart := distinct
    { seed := 42, op := .read, ino := 100, offset := 0, len := 65536, seq := 0 } 0 0 65536 1
    (by decide) (by decide) (by decide) (by decide) (by decide)
  exact apart.1 (by decide)

/-- The whole scan does: 64 KiB reads from the start of a file, issued as the
first calls of a run, all get the seed of the first one. -/
theorem scan_64k_shares_seed (key : SampleKey) (stream : UInt64) {index : Nat}
    (inside : index < 2 ^ 32) (start : key.offset = 0) :
    mix (key.scan 65536 UInt64.ofNat index) stream =
      mix (key.scan 65536 UInt64.ofNat 0) stream := by
  have value : (UInt64.ofNat index).toNat = index := by
    rw [UInt64.toNat_ofNat']
    omega
  apply (mix_moveTo_eq_iff key stream _ _ (by omega) (by decide)).mpr
  apply UInt64.toNat_inj.mp
  rw [start]
  simp [Nat.shiftLeft_eq]

end Fusecraft
