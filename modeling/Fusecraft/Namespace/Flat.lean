import Fusecraft.Library.Decimal
import Fusecraft.Library.Paging
import Fusecraft.Core.Config

namespace Fusecraft

/-!
# The flat object namespace

One directory `objects/` under the root, holding files with six-digit
zero-padded decimal names.  Names are byte strings and may be anything.
Inodes, cookies and file indices are natural numbers: the file count is at
most 999999, so no sum below comes near `2^64`.
-/

inductive FileKind where
  | dir
  | file
  deriving DecidableEq, Repr

/-- Full file attributes for a namespace entry. -/
structure FileAttrSpec where
  ino : Nat
  size : UInt64
  kind : FileKind
  mode : Nat
  nlink : Nat
  uid : Nat
  gid : Nat
  mtime : Nat
  deriving DecidableEq, Repr

/-- A directory entry as it is pushed into a sink; the offset is its cookie. -/
structure DirEntry where
  ino : Nat
  offset : Nat
  kind : FileKind
  name : List UInt8
  deriving DecidableEq, Repr

def dotName : List UInt8 := osStr "."

def dotDotName : List UInt8 := osStr ".."

def objectsName : List UInt8 := osStr "objects"

/-- The root inode number used by FUSE. -/
def fuseRootIno : Nat := 1

/-- Bound of the six-digit name scheme. -/
def maxFiles : Nat := 1000000

/-- The namespace.  Its constructor clamps the file count, and the count
carries that bound. -/
structure FlatObjectNamespace where
  inodeCount : Nat
  fileSizeBytes : UInt64
  uid : Nat
  gid : Nat
  ctime : Nat
  inodeCount_lt : inodeCount < maxFiles

namespace FlatObjectNamespace

/-- Inode of the `objects/` directory. -/
def objectsIno : Nat := 2

/-- File number `n` has inode `firstFileIno + n`. -/
def firstFileIno : Nat := 100

/-- Build the namespace from a configuration, the process credentials and the
current time. -/
def new (config : FilesConfig) (uid gid ctime : Nat) : FlatObjectNamespace where
  inodeCount := min config.inodeCount.toNat (maxFiles - 1)
  fileSizeBytes := config.fileSizeBytes
  uid := uid
  gid := gid
  ctime := ctime
  inodeCount_lt := by
    have bound := Nat.min_le_right config.inodeCount.toNat (maxFiles - 1)
    unfold maxFiles at bound ⊢
    omega

/-- The six-digit zero-padded name of a file index. -/
def indexToName (n : Nat) : List UInt8 := Decimal.padded 6 n

variable (ns : FlatObjectNamespace)

/-- The file index of an inode, if it is a file inode. -/
def inoToIndex (ino : Nat) : Option Nat :=
  if firstFileIno ≤ ino then
    if ino - firstFileIno < ns.inodeCount then some (ino - firstFileIno) else none
  else none

/-- The file index named by a byte string: valid UTF-8, exactly six bytes, all
of them ASCII digits, and in range. -/
def parseName (name : List UInt8) : Option Nat :=
  if isUtf8 name = false then none
  else if name.length ≠ 6 || !name.all Decimal.isDigit then none
  else if Decimal.value name < ns.inodeCount then some (Decimal.value name) else none

def dirAttr (ino : Nat) : FileAttrSpec where
  ino := ino
  size := 0
  kind := .dir
  mode := 0o755
  nlink := 2
  uid := ns.uid
  gid := ns.gid
  mtime := ns.ctime

def fileAttr (ino : Nat) : FileAttrSpec where
  ino := ino
  size := ns.fileSizeBytes
  kind := .file
  mode := 0o644
  nlink := 1
  uid := ns.uid
  gid := ns.gid
  mtime := ns.ctime

/-- Look up a child by name within a parent directory. -/
def lookup (parent : Nat) (name : List UInt8) : Option Nat :=
  if parent = fuseRootIno then
    if name = objectsName then some objectsIno else none
  else if parent = objectsIno then
    (ns.parseName name).map (fun n => firstFileIno + n)
  else none

/-- The attributes of an inode, if it exists. -/
def attr (ino : Nat) : Option FileAttrSpec :=
  if ino = fuseRootIno then some (ns.dirAttr fuseRootIno)
  else if ino = objectsIno then some (ns.dirAttr objectsIno)
  else if (ns.inoToIndex ino).isSome then some (ns.fileAttr ino)
  else none

/-- The fixed entries of the root directory. -/
def rootEntries : List DirEntry :=
  [{ ino := fuseRootIno, offset := 1, kind := .dir, name := dotName },
   { ino := fuseRootIno, offset := 2, kind := .dir, name := dotDotName },
   { ino := objectsIno, offset := 3, kind := .dir, name := objectsName }]

def objectsDot : DirEntry where
  ino := objectsIno
  offset := 1
  kind := .dir
  name := dotName

def objectsDotDot : DirEntry where
  ino := fuseRootIno
  offset := 2
  kind := .dir
  name := dotDotName

def fileEntry (n : Nat) : DirEntry where
  ino := firstFileIno + n
  offset := n + 3
  kind := .file
  name := indexToName n

section Readdir

variable {Sink : Type} (push : Sink -> DirEntry -> Sink × Bool)

/-- The loop over the root entries: skip those at or before the cookie, push
the others until the sink asks to stop. -/
def rootLoop (offset : Nat) : Sink -> List DirEntry -> Sink
  | sink, [] => sink
  | sink, entry :: rest =>
      if entry.offset ≤ offset then rootLoop offset sink rest
      else
        match push sink entry with
        | (next, true) => rootLoop offset next rest
        | (next, false) => next

/-- The loop `for n in start..inode_count` over the files. -/
def fileLoop : Sink -> List Nat -> Sink
  | sink, [] => sink
  | sink, n :: rest =>
      match push sink (fileEntry n) with
      | (next, true) => fileLoop next rest
      | (next, false) => next

/-- `cookie > offset && !sink.push(..)`: push an entry unless it lies at or
before the offset, and report whether to go on. -/
def pushIfAfter (offset : Nat) (entry : DirEntry) (sink : Sink) : Sink × Bool :=
  if entry.offset > offset then push sink entry else (sink, true)

/-- Push the entries of a directory after a cookie, in order, until the sink
asks to stop. -/
def readdir (ino offset : Nat) (sink : Sink) : Except FsError Sink :=
  if ino = fuseRootIno then
    .ok (rootLoop push offset sink rootEntries)
  else if ino = objectsIno then
    match pushIfAfter push offset objectsDot sink with
    | (sink, false) => .ok sink
    | (sink, true) =>
        match pushIfAfter push offset objectsDotDot sink with
        | (sink, false) => .ok sink
        | (sink, true) =>
            .ok (fileLoop push sink
              (List.range' (offset - 2) (ns.inodeCount - (offset - 2))))
  else .error (.errno Libc.enotdir)

end Readdir

/-- A sink that keeps every entry and never stops. -/
def collect (entries : List DirEntry) (entry : DirEntry) : List DirEntry × Bool :=
  (entries ++ [entry], true)

/-- Everything that `readdir` pushes into a sink that never stops. -/
def listing (ino offset : Nat) : Except FsError (List DirEntry) :=
  ns.readdir collect ino offset []

/-! ## The entries of a directory -/

/-- All entries of a directory inode. -/
def entries (ino : Nat) : List DirEntry :=
  if ino = fuseRootIno then rootEntries
  else objectsDot :: objectsDotDot :: (List.range ns.inodeCount).map fileEntry

/-- The two inodes that are directories. -/
def IsDirIno (ino : Nat) : Prop := ino = fuseRootIno ∨ ino = objectsIno

instance (ino : Nat) : Decidable (IsDirIno ino) :=
  inferInstanceAs (Decidable (_ ∨ _))

theorem entries_root : ns.entries fuseRootIno = rootEntries := if_pos rfl

theorem entries_objects : ns.entries objectsIno =
    objectsDot :: objectsDotDot :: (List.range ns.inodeCount).map fileEntry :=
  if_neg (by decide)

theorem entries_sorted (ino : Nat) : Paging.Sorted DirEntry.offset (ns.entries ino) := by
  unfold entries Paging.Sorted
  by_cases root : ino = fuseRootIno
  · rw [if_pos root]
    decide
  · rw [if_neg root, List.pairwise_cons, List.pairwise_cons, List.pairwise_map]
    refine ⟨?_, ?_, ?_⟩
    · intro entry member
      rcases List.mem_cons.mp member with rfl | member
      · decide
      · rcases List.mem_map.mp member with ⟨n, -, rfl⟩
        simp only [objectsDot, fileEntry]
        omega
    · intro entry member
      rcases List.mem_map.mp member with ⟨n, -, rfl⟩
      simp only [objectsDotDot, fileEntry]
      omega
    · apply List.pairwise_lt_range.imp
      intro order
      simp only [fileEntry]
      omega

/-! ## What a call of `readdir` pushes -/

section Feeding

variable {Sink : Type} (push : Sink -> DirEntry -> Sink × Bool)

theorem rootLoop_eq_feed (offset : Nat) (entries : List DirEntry) (sink : Sink) :
    rootLoop push offset sink entries =
      Paging.feed push sink (Paging.after DirEntry.offset entries offset) := by
  induction entries generalizing sink with
  | nil => rfl
  | cons entry rest ih =>
      unfold rootLoop Paging.after
      by_cases before : entry.offset ≤ offset
      · rw [if_pos before, List.filter_cons_of_neg (by simpa using before), ih]
        rfl
      · have later : offset < entry.offset := Nat.lt_of_not_le before
        rw [if_neg before, List.filter_cons_of_pos (by simpa using later), Paging.feed]
        rcases push sink entry with ⟨next, more⟩
        cases more with
        | false => rfl
        | true => exact ih next

theorem fileLoop_eq_feed (indices : List Nat) (sink : Sink) :
    fileLoop push sink indices = Paging.feed push sink (indices.map fileEntry) := by
  induction indices generalizing sink with
  | nil => rfl
  | cons n rest ih =>
      rw [fileLoop, List.map_cons, Paging.feed]
      rcases push sink (fileEntry n) with ⟨next, more⟩
      cases more with
      | false => rfl
      | true => exact ih next

/-- The resumption index `offset.saturating_sub(2)` selects exactly the files
whose cookies lie after the offset. -/
theorem after_files (offset count : Nat) :
    Paging.after DirEntry.offset ((List.range count).map fileEntry) offset =
      (List.range' (offset - 2) (count - (offset - 2))).map fileEntry := by
  have split : List.range count =
      List.range' 0 (min (offset - 2) count) ++
        List.range' (offset - 2) (count - (offset - 2)) := by
    rw [List.range_eq_range']
    by_cases beyond : count ≤ offset - 2
    · rw [Nat.min_eq_right beyond, Nat.sub_eq_zero_of_le beyond]
      simp
    · have inside : offset - 2 ≤ count := by omega
      rw [Nat.min_eq_left inside]
      have joined := @List.range'_append 0 (offset - 2) (count - (offset - 2)) 1
      rw [Nat.one_mul, Nat.zero_add, Nat.add_sub_cancel' inside] at joined
      exact joined.symm
  unfold Paging.after
  rw [split, List.map_append, List.filter_append]
  have skipped : List.filter (fun entry : DirEntry => offset < entry.offset)
      ((List.range' 0 (min (offset - 2) count)).map fileEntry) = [] := by
    apply List.filter_eq_nil_iff.mpr
    intro entry member
    rcases List.mem_map.mp member with ⟨n, inRange, rfl⟩
    rw [List.mem_range'_1] at inRange
    have before : ¬ offset < n + 3 := by omega
    exact fun selected => before (of_decide_eq_true selected)
  have kept : List.filter (fun entry : DirEntry => offset < entry.offset)
      ((List.range' (offset - 2) (count - (offset - 2))).map fileEntry) =
        (List.range' (offset - 2) (count - (offset - 2))).map fileEntry := by
    apply List.filter_eq_self.mpr
    intro entry member
    rcases List.mem_map.mp member with ⟨n, inRange, rfl⟩
    rw [List.mem_range'_1] at inRange
    have later : offset < n + 3 := by omega
    exact decide_eq_true later
  rw [skipped, kept, List.nil_append]

/-- A conditional push is a feed of the entries after the offset. -/
theorem pushIfAfter_feed (offset : Nat) (entry : DirEntry) (rest : List DirEntry) (sink : Sink) :
    Paging.feed push sink (Paging.after DirEntry.offset (entry :: rest) offset) =
      match pushIfAfter push offset entry sink with
      | (next, true) => Paging.feed push next (Paging.after DirEntry.offset rest offset)
      | (next, false) => next := by
  unfold pushIfAfter Paging.after
  by_cases later : offset < entry.offset
  · rw [if_pos later, List.filter_cons_of_pos (by simpa using later), Paging.feed]
    rcases push sink entry with ⟨next, more⟩
    cases more <;> rfl
  · rw [if_neg later, List.filter_cons_of_neg (by simpa using later)]

/-- On a directory, `readdir` feeds the sink the entries after the offset. -/
theorem readdir_eq_feed {ino : Nat} (directory : IsDirIno ino) (offset : Nat) (sink : Sink) :
    ns.readdir push ino offset sink =
      .ok (Paging.feed push sink (Paging.after DirEntry.offset (ns.entries ino) offset)) := by
  rcases directory with rfl | rfl
  · rw [readdir, if_pos rfl, entries_root, rootLoop_eq_feed]
  · rw [readdir, if_neg (by decide), if_pos rfl, entries_objects, pushIfAfter_feed]
    rcases pushIfAfter push offset objectsDot sink with ⟨first, more⟩
    cases more with
    | false => rfl
    | true =>
        simp only
        rw [pushIfAfter_feed]
        rcases pushIfAfter push offset objectsDotDot first with ⟨second, more⟩
        cases more with
        | false => rfl
        | true =>
            simp only
            rw [after_files, fileLoop_eq_feed]

/-- Elsewhere it fails, whatever the offset and the sink. -/
theorem readdir_of_not_dir {ino : Nat} (other : ¬ IsDirIno ino) (offset : Nat) (sink : Sink) :
    ns.readdir push ino offset sink = .error (.errno Libc.enotdir) := by
  unfold IsDirIno at other
  rw [readdir, if_neg (fun root => other (Or.inl root)),
    if_neg (fun objects => other (Or.inr objects))]

end Feeding

theorem feed_collect (entries : List DirEntry) (log : List DirEntry) :
    Paging.feed collect log entries = log ++ entries := by
  induction entries generalizing log with
  | nil => exact (List.append_nil log).symm
  | cons entry rest ih =>
      rw [Paging.feed, collect]
      simp only
      rw [ih, List.append_assoc, List.singleton_append]

theorem listing_of_dir {ino : Nat} (directory : IsDirIno ino) (offset : Nat) :
    ns.listing ino offset = .ok (Paging.after DirEntry.offset (ns.entries ino) offset) := by
  rw [listing, readdir_eq_feed ns collect directory, feed_collect, List.nil_append]

theorem listing_zero {ino : Nat} (directory : IsDirIno ino) :
    ns.listing ino 0 = .ok (ns.entries ino) := by
  rw [listing_of_dir ns directory, Paging.after_of_all]
  intro entry member
  unfold entries at member
  by_cases root : ino = fuseRootIno
  · rw [if_pos root] at member
    revert entry
    decide
  · rw [if_neg root, List.mem_cons, List.mem_cons] at member
    rcases member with rfl | rfl | member
    · decide
    · decide
    · rcases List.mem_map.mp member with ⟨n, -, rfl⟩
      simp only [fileEntry]
      omega

theorem listing_of_not_dir {ino : Nat} (other : ¬ IsDirIno ino) (offset : Nat) :
    ns.listing ino offset = .error (.errno Libc.enotdir) :=
  readdir_of_not_dir ns collect other offset []

end FlatObjectNamespace

end Fusecraft
