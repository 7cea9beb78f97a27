import Fusecraft.Core.Word
import Fusecraft.Core.Op

namespace Fusecraft

/-!
# Deterministic synthetic content

A byte of a file is a function of the inode, the offset and the seed.  The
three are turned, combined and finalized into a word, and the byte is the low
end of that word.  The finalizer loses nothing, so two positions share their
word exactly where the turned inodes and offsets cancel each other.
-/

/-- The combination of the three inputs. -/
def synthInput (ino offset seed : UInt64) : UInt64 :=
  seed ^^^ rotateLeft ino 17 ^^^ rotateLeft offset 31

/-- The Murmur-style finalizer. -/
def synthFinalize (word : UInt64) : UInt64 :=
  let first := (word ^^^ (word >>> 33)) * 0xff51afd7ed558ccd
  let second := (first ^^^ (first >>> 33)) * 0xc4ceb9fe1a85ec53
  second ^^^ (second >>> 33)

/-- The 64-bit word of a position, before it is truncated to a byte. -/
def synthWord (ino offset seed : UInt64) : UInt64 := synthFinalize (synthInput ino offset seed)

/-- Generate a single byte from inode, offset and seed. -/
def synthByte (ino offset seed : UInt64) : UInt8 := (synthWord ino offset seed).toUInt8

/-- Deterministic content store: every file has the same length. -/
structure DeterministicContent where
  seed : UInt64
  fileLen : UInt64
  deriving DecidableEq, Repr

namespace DeterministicContent

variable (content : DeterministicContent)

/-- The logical length of a file. -/
def lengthOf (_ino : UInt64) : UInt64 := content.fileLen

/-- Fill the buffer with the bytes from the offset on.  The offset wraps and
the length of the file is not looked at. -/
def readAt (ino offset : UInt64) (dst : List UInt8) : List UInt8 :=
  dst.mapIdx (fun index _ => synthByte ino (offset + UInt64.ofNat index) content.seed)

/-- Discard a write and acknowledge its length. -/
def writeAt (_ino _offset : UInt64) (data : List UInt8) : Except FsError Nat := .ok data.length

end DeterministicContent

/-! ## The bytes of a file -/

namespace DeterministicContent

variable {content : DeterministicContent} {ino : UInt64}

/-- The bytes of a file from one position up to another. -/
def slice (content : DeterministicContent) (ino : UInt64) (first last : Nat) : List UInt8 :=
  (List.range' first (last - first)).map
    (fun position => synthByte ino (UInt64.ofNat position) content.seed)

@[simp] theorem length_slice (content : DeterministicContent) (ino : UInt64) (first last : Nat) :
    (content.slice ino first last).length = last - first := by
  rw [slice, List.length_map, List.length_range']

/-- Adjacent slices join. -/
theorem slice_append {first middle last : Nat} (left : first ≤ middle) (right : middle ≤ last) :
    content.slice ino first middle ++ content.slice ino middle last =
      content.slice ino first last := by
  have joined := @List.range'_append first (middle - first) (last - middle) 1
  rw [Nat.one_mul, Nat.add_sub_cancel' left] at joined
  unfold slice
  rw [← List.map_append, joined]
  congr 2
  omega

/-- A filled buffer holds the slice of its length, whatever was in it. -/
theorem readAt_eq_slice (offset : UInt64) (dst : List UInt8) :
    content.readAt ino offset dst =
      content.slice ino offset.toNat (offset.toNat + dst.length) := by
  apply List.ext_getElem
  · simp [readAt]
  · intro index inside _
    have wrapped : offset + UInt64.ofNat index = UInt64.ofNat (offset.toNat + index) := by
      rw [UInt64.ofNat_add, UInt64.ofNat_toNat]
    simp only [readAt, slice, List.getElem_mapIdx, List.getElem_map, List.getElem_range',
      Nat.one_mul, wrapped]

end DeterministicContent

/-! ## Positions that share their word -/

theorem synthFinalize_injective (first second : UInt64)
    (same : synthFinalize first = synthFinalize second) : first = second := by
  have multiplied := xorShift_injective (by decide) _ _ same
  have folded := wrappingMul_injective 0x9cb4b2f8129337db (by decide) _ _ multiplied
  have multiplied := xorShift_injective (by decide) _ _ folded
  have folded := wrappingMul_injective 0x4f74430c22a54005 (by decide) _ _ multiplied
  exact xorShift_injective (by decide) _ _ folded

/-- Two positions with offsets below `2 ^ 50` share their word, under any seed,
just if the inodes differ in the bits in which the offsets do, fourteen places
up. -/
theorem synthWord_eq_iff (ino ino' seed : UInt64) {offset offset' : UInt64}
    (small : offset.toNat < 2 ^ 50) (small' : offset'.toNat < 2 ^ 50) :
    synthWord ino offset seed = synthWord ino' offset' seed ↔
      ino ^^^ ino' = (offset ^^^ offset') <<< 14 := by
  calc
    synthWord ino offset seed = synthWord ino' offset' seed
        ↔ synthInput ino offset seed = synthInput ino' offset' seed :=
      ⟨synthFinalize_injective _ _, congrArg synthFinalize⟩
    _ ↔ rotateLeft ino 17 ^^^ rotateLeft offset 31 =
          rotateLeft ino' 17 ^^^ rotateLeft offset' 31 := by
      unfold synthInput
      rw [UInt64.xor_assoc, UInt64.xor_assoc, UInt64.xor_right_inj]
    _ ↔ ino ^^^ ino' = (offset ^^^ offset') <<< 14 :=
      @rotated_pair_eq_iff 17 14 50 (by decide) (by decide) ino ino' _ _ small small'

end Fusecraft
