import Fusecraft.Content.Deterministic
import Fusecraft.Namespace.Views
import Mathlib.Data.Nat.Bitwise

namespace Fusecraft

open FlatObjectNamespace

/-!
# Files that share content

The turned inodes and offsets overlap: inode bit 14 and offset bit 0 land on
the same place.  So two inodes that differ by a multiple of `2 ^ 14` are
cancelled by offsets that differ in their low bits, and one of the two files
is the other with its bytes permuted.  A namespace is free of this as long as
its inodes do not reach around `2 ^ 14`.
-/

/-- Inodes whose difference is a shifted word agree below the shift. -/
theorem mod_eq_of_xor_eq_shiftLeft {ino ino' word : UInt64} (same : ino ^^^ ino' = word <<< 14) :
    ino.toNat % 2 ^ 14 = ino'.toNat % 2 ^ 14 := by
  have values : ino.toNat ^^^ ino'.toNat = word.toNat * 2 ^ 14 % 2 ^ 64 := by
    have values := congrArg UInt64.toNat same
    rw [UInt64.toNat_xor, UInt64.toNat_shiftLeft, Nat.shiftLeft_eq] at values
    exact values
  have low : (ino.toNat ^^^ ino'.toNat) % 2 ^ 14 = 0 := by
    rw [values]
    omega
  rw [Nat.xor_mod_two_pow] at low
  exact Nat.xor_eq_zero_iff.mp low

/-- Nothing below `2 ^ 50` is lost when it is shifted by fourteen bits. -/
theorem eq_of_shiftLeft_eq_zero {offset offset' : UInt64} (small : offset.toNat < 2 ^ 50)
    (small' : offset'.toNat < 2 ^ 50) (zero : (offset ^^^ offset') <<< 14 = 0) :
    offset = offset' := by
  have room := xor_lt small small'
  have values := congrArg UInt64.toNat zero
  rw [UInt64.toNat_shiftLeft, Nat.shiftLeft_eq] at values
  change (offset ^^^ offset').toNat * 2 ^ 14 % 2 ^ 64 = 0 at values
  have none : (offset ^^^ offset').toNat = 0 := by omega
  exact UInt64.xor_eq_zero_iff.mp (UInt64.toNat_inj.mp none)

/-- Two different positions in files of a namespace, with 32-bit offsets. -/
structure FlatObjectNamespace.Positions (ns : FlatObjectNamespace)
    (ino ino' offset offset' : UInt64) : Prop where
  file : (ns.inoToIndex ino.toNat).isSome
  file' : (ns.inoToIndex ino'.toNat).isSome
  small : offset < 2 ^ 32
  small' : offset' < 2 ^ 32
  different : (ino, offset) ≠ (ino', offset')

theorem small_of_lt {offset : UInt64} (below : offset < 2 ^ 32) : offset.toNat < 2 ^ 50 := by
  have below : offset.toNat < 2 ^ 32 := below
  omega

/-- In a namespace of at most `2 ^ 14` files no two inodes agree in their low
fourteen bits. -/
theorem FlatObjectNamespace.Positions.word_ne {ns : FlatObjectNamespace}
    {ino ino' offset offset' : UInt64} (positions : ns.Positions ino ino' offset offset')
    (few : ns.inodeCount ≤ 2 ^ 14) (seed : UInt64) :
    synthWord ino offset seed ≠ synthWord ino' offset' seed := by
  intro same
  have small := small_of_lt positions.small
  have small' := small_of_lt positions.small'
  have cancel := (synthWord_eq_iff ino ino' seed small small').mp same
  rcases (ns.inoToIndex_isSome _).mp positions.file with ⟨index, inside, number⟩
  rcases (ns.inoToIndex_isSome _).mp positions.file' with ⟨index', inside', number'⟩
  have low := mod_eq_of_xor_eq_shiftLeft cancel
  have inodes : ino = ino' := by
    apply UInt64.toNat_inj.mp
    unfold firstFileIno at number number'
    omega
  rw [inodes, UInt64.xor_self] at cancel
  have offsets := eq_of_shiftLeft_eq_zero small small' cancel.symm
  exact positions.different (by rw [inodes, offsets])

/-- Where the content of a namespace does not alias.  Under every seed, two
different positions have different words if and only if the exclusive or of
their inodes is not that of their offsets moved up by fourteen bits, and
positions that share a word carry the same byte under all seeds.  All
positions of a namespace have different words if and only if it has at most
`2 ^ 14` files. -/
theorem content_distinct_iff (ns : FlatObjectNamespace) (seed : UInt64) :
    (forall ino ino' offset offset' : UInt64, ns.Positions ino ino' offset offset' ->
      (synthWord ino offset seed ≠ synthWord ino' offset' seed ↔
        ino ^^^ ino' ≠ (offset ^^^ offset') <<< 14) ∧
      (synthWord ino offset seed = synthWord ino' offset' seed ->
        forall other : UInt64, synthByte ino offset other = synthByte ino' offset' other)) ∧
    ((forall ino ino' offset offset' : UInt64, ns.Positions ino ino' offset offset' ->
        synthWord ino offset seed ≠ synthWord ino' offset' seed) ↔
      ns.inodeCount ≤ 2 ^ 14) := by
  constructor
  · intro ino ino' offset offset' positions
    have word : forall other : UInt64, synthWord ino offset other = synthWord ino' offset' other ↔
        ino ^^^ ino' = (offset ^^^ offset') <<< 14 :=
      fun other => synthWord_eq_iff ino ino' other (small_of_lt positions.small)
        (small_of_lt positions.small')
    refine ⟨not_congr (word seed), fun same other => ?_⟩
    exact congrArg UInt64.toUInt8 ((word other).mpr ((word seed).mp same))
  · constructor
    · intro distinct
      by_contra many
      have file : forall index : Nat, index ≤ 2 ^ 14 ->
          (ns.inoToIndex (firstFileIno + index)).isSome = true :=
        fun index bound => (ns.inoToIndex_isSome _).mpr ⟨index, by omega, rfl⟩
      have positions : ns.Positions 100 16484 0 1 :=
        { file := file 0 (by decide)
          file' := file (2 ^ 14) (Nat.le_refl _)
          small := by decide
          small' := by decide
          different := by decide }
      apply distinct 100 16484 0 1 positions
      exact (synthWord_eq_iff 100 16484 seed (by decide) (by decide)).mpr (by decide)
    · intro few ino ino' offset offset' positions
      exact positions.word_ne few seed

/-- A file and its neighbour differ at their first word. -/
theorem content_distinct_iff_neighbours :
    synthWord 100 0 0 ≠ synthWord 101 0 0 :=
  (((content_distinct_iff (.new .default 0 0 0) 0).1 100 101 0 0
    ⟨by decide, by decide, by decide, by decide, by decide⟩).1).mpr (by decide)

/-- With 20000 files, the first byte of file 0 and the second byte of file
16384 come from one word, whatever the seed. -/
theorem content_aliases :
    ¬ forall (ns : FlatObjectNamespace) (seed ino ino' offset offset' : UInt64),
      ns.Positions ino ino' offset offset' ->
      synthWord ino offset seed ≠ synthWord ino' offset' seed := by
  intro distinct
  let ns : FlatObjectNamespace := .new { FilesConfig.default with inodeCount := 20000 } 0 0 0
  apply distinct ns 42 100 16484 0 1 ⟨by decide, by decide, by decide, by decide, by decide⟩
  exact (synthWord_eq_iff 100 16484 42 (by decide) (by decide)).mpr (by decide)

end Fusecraft
