import Mathlib.Data.List.Nodup
import Mathlib.Data.List.Count
import Fusecraft.Namespace.Flat

namespace Fusecraft

/-!
# The three views of the namespace agree

`lookup` parses names, `readdir` prints them, and `attr` tests an inode on its
own.  The codec of file names is a bijection between indices and the names it
accepts, which makes the three functions descriptions of one tree.
-/

namespace FlatObjectNamespace

/-! ## The name codec -/

theorem isValidUTF8_digit {digit : Nat} (small : digit < 10) :
    [Decimal.byte digit].toByteArray.IsValidUTF8 := by
  refine ⟨[Nat.digitChar digit], ?_⟩
  interval_cases digit <;> rfl

/-- Digits are ASCII, and ASCII is valid UTF-8. -/
theorem isUtf8_of_digits (name : List UInt8)
    (digits : forall b, b ∈ name -> Decimal.isDigit b = true) : isUtf8 name = true := by
  unfold isUtf8
  rw [ByteArray.validateUTF8_eq_true_iff]
  induction name with
  | nil => exact ByteArray.isValidUTF8_empty
  | cons b rest ih =>
      have digit := digits b List.mem_cons_self
      have bounds := Decimal.isDigit_toNat digit
      have head : [b].toByteArray.IsValidUTF8 := by
        rw [← Decimal.byte_of_isDigit digit]
        exact isValidUTF8_digit (by omega)
      have tail := ih (fun other member => digits other (List.mem_cons_of_mem b member))
      have joined := head.append tail
      rwa [← List.toByteArray_append] at joined

variable (ns : FlatObjectNamespace)

theorem index_lt {n : Nat} (inRange : n < ns.inodeCount) : n < 10 ^ (5 + 1) :=
  Nat.lt_trans inRange ns.inodeCount_lt

/-- A name is parsed to an index exactly if it is the printed form of that
index and the index is in range. -/
theorem parseName_eq_some {name : List UInt8} {n : Nat} :
    ns.parseName name = some n ↔ n < ns.inodeCount ∧ name = indexToName n := by
  constructor
  · intro parsed
    unfold parseName at parsed
    by_cases utf8 : isUtf8 name = false
    · rw [if_pos utf8] at parsed
      cases parsed
    · rw [if_neg utf8] at parsed
      by_cases malformed : (name.length ≠ 6 || !name.all Decimal.isDigit) = true
      · rw [if_pos malformed] at parsed
        cases parsed
      · rw [if_neg malformed] at parsed
        simp only [ne_eq, Bool.or_eq_true, decide_eq_true_eq, Bool.not_eq_true', not_or,
          Decidable.not_not, Bool.not_eq_false, List.all_eq_true] at malformed
        by_cases inRange : Decimal.value name < ns.inodeCount
        · rw [if_pos inRange, Option.some_inj] at parsed
          subst parsed
          exact ⟨inRange, (Decimal.padded_value malformed.1 malformed.2).symm⟩
        · rw [if_neg inRange] at parsed
          cases parsed
  · rintro ⟨inRange, rfl⟩
    have small := ns.index_lt inRange
    have digits := Decimal.padded_isDigit small
    have length : (indexToName n).length = 6 := Decimal.padded_length small
    have value : Decimal.value (indexToName n) = n := Decimal.value_padded small
    have all : (indexToName n).all Decimal.isDigit = true := List.all_eq_true.mpr digits
    unfold parseName
    have utf8 : isUtf8 (indexToName n) = true := isUtf8_of_digits _ digits
    rw [utf8, if_neg (by simp), length, all, if_neg (by simp), value, if_pos inRange]

theorem indexToName_injective {first second : Nat} (inRange : first < ns.inodeCount)
    (inRange' : second < ns.inodeCount) (same : indexToName first = indexToName second) :
    first = second := by
  have parsed := (ns.parseName_eq_some).mpr ⟨inRange, rfl⟩
  rw [same, (ns.parseName_eq_some).mpr ⟨inRange', rfl⟩, Option.some_inj] at parsed
  exact parsed.symm

/-- A file name is neither of the directory's own two names. -/
theorem indexToName_length {n : Nat} (inRange : n < ns.inodeCount) :
    (indexToName n).length = 6 :=
  Decimal.padded_length (ns.index_lt inRange)

theorem inoToIndex_isSome (ino : Nat) :
    (ns.inoToIndex ino).isSome = true ↔ exists n, n < ns.inodeCount ∧ ino = firstFileIno + n := by
  unfold inoToIndex
  by_cases above : firstFileIno ≤ ino
  · rw [if_pos above]
    by_cases inRange : ino - firstFileIno < ns.inodeCount
    · rw [if_pos inRange]
      exact ⟨fun _ => ⟨_, inRange, by omega⟩, fun _ => rfl⟩
    · rw [if_neg inRange]
      constructor
      · intro impossible
        cases impossible
      · rintro ⟨n, small, rfl⟩
        omega
  · rw [if_neg above]
    constructor
    · intro impossible
      cases impossible
    · rintro ⟨n, -, rfl⟩
      omega

/-! ## Entries of a listing -/

/-- The name is one of the directory's own two names. -/
def IsDot (name : List UInt8) : Prop := name = dotName ∨ name = dotDotName

instance (name : List UInt8) : Decidable (IsDot name) :=
  inferInstanceAs (Decidable (_ ∨ _))

theorem indexToName_not_dot {n : Nat} (inRange : n < ns.inodeCount) :
    ¬ IsDot (indexToName n) := by
  have length := ns.indexToName_length inRange
  rintro (same | same) <;> rw [same] at length <;> revert length <;> decide

/-- A child of a directory: the only one of the root, or a file of `objects`. -/
theorem lookup_eq_some {parent : Nat} {name : List UInt8} {ino : Nat} :
    ns.lookup parent name = some ino ↔
      (parent = fuseRootIno ∧ name = objectsName ∧ ino = objectsIno) ∨
      (parent = objectsIno ∧ exists n, n < ns.inodeCount ∧ name = indexToName n ∧
        ino = firstFileIno + n) := by
  unfold lookup
  by_cases root : parent = fuseRootIno
  · have notObjects : parent ≠ objectsIno := by
      rw [root]
      decide
    rw [if_pos root, Option.ite_none_right_eq_some, Option.some_inj]
    constructor
    · rintro ⟨named, rfl⟩
      exact Or.inl ⟨root, named, rfl⟩
    · rintro (⟨-, named, rfl⟩ | ⟨impossible, -⟩)
      · exact ⟨named, rfl⟩
      · exact absurd impossible notObjects
  · rw [if_neg root]
    by_cases objects : parent = objectsIno
    · rw [if_pos objects, Option.map_eq_some_iff]
      constructor
      · rintro ⟨n, parsed, rfl⟩
        rcases ns.parseName_eq_some.mp parsed with ⟨inRange, named⟩
        exact Or.inr ⟨objects, n, inRange, named, rfl⟩
      · rintro (⟨impossible, -⟩ | ⟨-, n, inRange, named, rfl⟩)
        · exact absurd impossible root
        · exact ⟨n, ns.parseName_eq_some.mpr ⟨inRange, named⟩, rfl⟩
    · rw [if_neg objects]
      simp [root, objects]

/-- The children among the entries of a directory, by name and inode. -/
theorem mem_entries_child {parent : Nat} (directory : IsDirIno parent) {entry : DirEntry}
    (child : ¬ IsDot entry.name) :
    entry ∈ ns.entries parent ↔
      (parent = fuseRootIno ∧
        entry = { ino := objectsIno, offset := 3, kind := .dir, name := objectsName }) ∨
      (parent = objectsIno ∧ exists n, n < ns.inodeCount ∧ entry = fileEntry n) := by
  rcases directory with rfl | rfl
  · rw [entries_root]
    constructor
    · intro member
      simp only [rootEntries, List.mem_cons, List.not_mem_nil, or_false] at member
      rcases member with rfl | rfl | rfl
      · exact absurd (Or.inl rfl) child
      · exact absurd (Or.inr rfl) child
      · exact Or.inl ⟨rfl, rfl⟩
    · rintro (⟨-, rfl⟩ | ⟨impossible, -⟩)
      · simp [rootEntries]
      · exact absurd impossible (by decide)
  · rw [entries_objects]
    constructor
    · intro member
      rcases List.mem_cons.mp member with rfl | member
      · exact absurd (Or.inl rfl) child
      · rcases List.mem_cons.mp member with rfl | member
        · exact absurd (Or.inr rfl) child
        · rcases List.mem_map.mp member with ⟨n, inRange, rfl⟩
          exact Or.inr ⟨rfl, n, List.mem_range.mp inRange, rfl⟩
    · rintro (⟨impossible, -⟩ | ⟨-, n, inRange, rfl⟩)
      · exact absurd impossible (by decide)
      · exact List.mem_cons_of_mem _ (List.mem_cons_of_mem _
          (List.mem_map.mpr ⟨n, List.mem_range.mpr inRange, rfl⟩))

theorem entries_nodup (ino : Nat) : (ns.entries ino).Nodup :=
  (ns.entries_sorted ino).imp (fun order same => by
    rw [same] at order
    exact Nat.lt_irrefl _ order)

/-- Among all entries of a directory, a child is determined by its name. -/
theorem eq_of_name_eq {parent : Nat} (directory : IsDirIno parent) {entry other : DirEntry}
    (child : ¬ IsDot entry.name) (member : entry ∈ ns.entries parent)
    (member' : other ∈ ns.entries parent) (same : other.name = entry.name) : other = entry := by
  have child' : ¬ IsDot other.name := same ▸ child
  rcases (ns.mem_entries_child directory child).mp member with
    ⟨root, rfl⟩ | ⟨objects, n, inRange, rfl⟩ <;>
  rcases (ns.mem_entries_child directory child').mp member' with
    ⟨root', rfl⟩ | ⟨objects', n', inRange', rfl⟩
  · rfl
  · exact absurd (root.symm.trans objects') (by decide)
  · exact absurd (root'.symm.trans objects) (by decide)
  · rw [ns.indexToName_injective inRange' inRange same]

/-- And by its inode: the directory's own two entries name directories. -/
theorem eq_of_ino_eq {parent : Nat} (directory : IsDirIno parent) {entry other : DirEntry}
    (child : ¬ IsDot entry.name) (member : entry ∈ ns.entries parent)
    (member' : other ∈ ns.entries parent) (same : other.ino = entry.ino) : other = entry := by
  rcases directory with rfl | rfl
  · rw [entries_root] at member member'
    revert child same
    simp only [rootEntries, List.mem_cons, List.not_mem_nil, or_false] at member member'
    rcases member with rfl | rfl | rfl <;> rcases member' with rfl | rfl | rfl <;>
      simp [IsDot, fuseRootIno, objectsIno]
  · rcases (ns.mem_entries_child (Or.inr rfl) child).mp member with
      ⟨impossible, -⟩ | ⟨-, n, inRange, rfl⟩
    · exact absurd impossible (by decide)
    · rw [entries_objects] at member'
      rcases List.mem_cons.mp member' with rfl | member'
      · simp only [objectsDot, fileEntry, objectsIno, firstFileIno] at same
        omega
      · rcases List.mem_cons.mp member' with rfl | member'
        · simp only [objectsDotDot, fileEntry, fuseRootIno, firstFileIno] at same
          omega
        · rcases List.mem_map.mp member' with ⟨n', -, rfl⟩
          simp only [fileEntry, Nat.add_left_cancel_iff] at same
          rw [same]

/-- In a duplicate-free list a test that only one member passes keeps that
member alone. -/
theorem filter_eq_singleton {Entry : Type} {list : List Entry} (nodup : list.Nodup)
    {entry : Entry} (member : entry ∈ list) (test : Entry -> Bool) (passes : test entry = true)
    (only : forall other, other ∈ list -> test other = true -> other = entry) :
    list.filter test = [entry] := by
  classical
  have same : list.filter test = list.filter (fun other => decide (other = entry)) := by
    apply List.filter_congr
    intro other inList
    by_cases equal : other = entry
    · rw [equal, passes, decide_eq_true rfl]
    · rw [decide_eq_false equal]
      exact Bool.eq_false_iff.mpr (fun holds => equal (only other inList holds))
  rw [same, List.filter_eq, List.count_eq_one_of_mem nodup member]
  rfl

/-! ## Attributes and reachability -/

theorem attr_isSome (ino : Nat) :
    (ns.attr ino).isSome = true ↔
      IsDirIno ino ∨ exists n, n < ns.inodeCount ∧ ino = firstFileIno + n := by
  unfold attr IsDirIno
  by_cases root : ino = fuseRootIno
  · simp [root]
  · by_cases objects : ino = objectsIno
    · rw [if_neg root, if_pos objects]
      simp [objects]
    · rw [if_neg root, if_neg objects, ← ns.inoToIndex_isSome]
      by_cases file : (ns.inoToIndex ino).isSome = true
      · simp [file]
      · simp [file, root, objects]

theorem attr_dir {ino : Nat} (directory : IsDirIno ino) :
    ns.attr ino = some (ns.dirAttr ino) := by
  rcases directory with rfl | rfl <;> rfl

theorem attr_file {n : Nat} (inRange : n < ns.inodeCount) :
    ns.attr (firstFileIno + n) = some (ns.fileAttr (firstFileIno + n)) := by
  have notRoot : firstFileIno + n ≠ fuseRootIno := by
    unfold firstFileIno fuseRootIno
    omega
  have notObjects : firstFileIno + n ≠ objectsIno := by
    unfold firstFileIno objectsIno
    omega
  rw [attr, if_neg notRoot, if_neg notObjects,
    if_pos ((ns.inoToIndex_isSome _).mpr ⟨n, inRange, rfl⟩)]

/-- The kind tells directories from files. -/
theorem attr_kind_dir (ino : Nat) :
    (exists spec, ns.attr ino = some spec ∧ spec.kind = .dir) ↔ IsDirIno ino := by
  constructor
  · rintro ⟨spec, found, kind⟩
    rcases (ns.attr_isSome ino).mp (by rw [found]; rfl) with directory | ⟨n, inRange, rfl⟩
    · exact directory
    · rw [ns.attr_file inRange, Option.some_inj] at found
      subst found
      cases kind
  · intro directory
    exact ⟨_, ns.attr_dir directory, rfl⟩

/-- The inodes met by following listings from the root. -/
inductive Reaches (ns : FlatObjectNamespace) : Nat -> Prop
  | root : Reaches ns fuseRootIno
  | entry {dir : Nat} {listing : List DirEntry} {entry : DirEntry} (reached : Reaches ns dir)
      (lists : ns.listing dir 0 = .ok listing) (member : entry ∈ listing) :
      Reaches ns entry.ino

/-- The parent of the root is the root; elsewhere it is the directory that
lists the inode as a child. -/
def IsParent (ns : FlatObjectNamespace) (parent ino : Nat) : Prop :=
  (ino = fuseRootIno ∧ parent = fuseRootIno) ∨
    exists listing entry, ns.listing parent 0 = .ok listing ∧ entry ∈ listing ∧
      ¬ IsDot entry.name ∧ entry.ino = ino

theorem eq_entries_of_listing {dir : Nat} {listing : List DirEntry}
    (lists : ns.listing dir 0 = .ok listing) :
    IsDirIno dir ∧ listing = ns.entries dir := by
  by_cases directory : IsDirIno dir
  · rw [ns.listing_zero directory] at lists
    cases lists
    exact ⟨directory, rfl⟩
  · rw [ns.listing_of_not_dir directory] at lists
    cases lists

/-- Every listed inode has attributes, of the listed kind. -/
theorem attr_of_mem {dir : Nat} (directory : IsDirIno dir) {entry : DirEntry}
    (member : entry ∈ ns.entries dir) :
    exists spec, ns.attr entry.ino = some spec ∧ spec.ino = entry.ino ∧
      spec.kind = entry.kind := by
  rcases directory with rfl | rfl
  · rw [entries_root] at member
    simp only [rootEntries, List.mem_cons, List.not_mem_nil, or_false] at member
    rcases member with rfl | rfl | rfl <;> exact ⟨_, rfl, rfl, rfl⟩
  · rw [entries_objects] at member
    rcases List.mem_cons.mp member with rfl | member
    · exact ⟨_, rfl, rfl, rfl⟩
    · rcases List.mem_cons.mp member with rfl | member
      · exact ⟨_, rfl, rfl, rfl⟩
      · rcases List.mem_map.mp member with ⟨n, inRange, rfl⟩
        exact ⟨_, ns.attr_file (List.mem_range.mp inRange), rfl, rfl⟩

theorem attr_isSome_iff_reaches (ino : Nat) :
    (ns.attr ino).isSome = true ↔ ns.Reaches ino := by
  have objects : ns.Reaches objectsIno :=
    .entry .root (ns.listing_zero (Or.inl rfl))
      (by rw [entries_root]; simp [rootEntries] :
        { ino := objectsIno, offset := 3, kind := .dir, name := objectsName } ∈
          ns.entries fuseRootIno)
  constructor
  · intro found
    rcases (ns.attr_isSome ino).mp found with directory | ⟨n, inRange, rfl⟩
    · rcases directory with rfl | rfl
      · exact .root
      · exact objects
    · refine .entry objects (ns.listing_zero (Or.inr rfl)) (?_ : fileEntry n ∈ _)
      rw [entries_objects]
      exact List.mem_cons_of_mem _ (List.mem_cons_of_mem _
        (List.mem_map.mpr ⟨n, List.mem_range.mpr inRange, rfl⟩))
  · intro reached
    cases reached with
    | root => rfl
    | entry _ lists member =>
        rcases ns.eq_entries_of_listing lists with ⟨directory, rfl⟩
        rcases ns.attr_of_mem directory member with ⟨spec, found, -⟩
        rw [found]
        rfl

/-- `lookup` finds exactly the children that the full listing shows. -/
theorem lookup_iff_listed (dir : Nat) (name : List UInt8) (ino : Nat) (child : ¬ IsDot name) :
    ns.lookup dir name = some ino ↔
      exists listing entry, ns.listing dir 0 = .ok listing ∧ entry ∈ listing ∧
        entry.ino = ino ∧ entry.name = name := by
  rw [ns.lookup_eq_some]
  constructor
  · rintro (⟨rfl, rfl, rfl⟩ | ⟨rfl, n, inRange, rfl, rfl⟩)
    · exact ⟨_, _, ns.listing_zero (Or.inl rfl),
        (ns.mem_entries_child (Or.inl rfl) (by decide)).mpr (Or.inl ⟨rfl, rfl⟩), rfl, rfl⟩
    · exact ⟨_, fileEntry n, ns.listing_zero (Or.inr rfl),
        (ns.mem_entries_child (Or.inr rfl) child).mpr (Or.inr ⟨rfl, n, inRange, rfl⟩), rfl, rfl⟩
  · rintro ⟨listing, entry, lists, member, rfl, rfl⟩
    rcases ns.eq_entries_of_listing lists with ⟨directory, rfl⟩
    rcases (ns.mem_entries_child directory child).mp member with
      ⟨root, rfl⟩ | ⟨objects, n, inRange, rfl⟩
    · exact Or.inl ⟨root, rfl, rfl⟩
    · exact Or.inr ⟨objects, n, inRange, rfl, rfl⟩

/-- The two dot entries of a directory name it and its parent. -/
theorem dots_listed {dir : Nat} (directory : IsDirIno dir) :
    (exists entry, entry ∈ ns.entries dir ∧ entry.name = dotName) ∧
    (exists entry, entry ∈ ns.entries dir ∧ entry.name = dotDotName) ∧
    forall entry, entry ∈ ns.entries dir ->
      (entry.name = dotName -> entry.ino = dir) ∧
      (entry.name = dotDotName -> ns.IsParent entry.ino dir) := by
  have objectsChild : ns.IsParent fuseRootIno objectsIno :=
    Or.inr ⟨_, _, ns.listing_zero (Or.inl rfl),
      (ns.mem_entries_child (Or.inl rfl) (by decide)).mpr (Or.inl ⟨rfl, rfl⟩), by decide, rfl⟩
  rcases directory with rfl | rfl
  · rw [entries_root]
    refine ⟨⟨_, List.mem_cons_self, rfl⟩, ⟨_, List.mem_cons_of_mem _ List.mem_cons_self, rfl⟩, ?_⟩
    intro entry member
    simp only [rootEntries, List.mem_cons, List.not_mem_nil, or_false] at member
    rcases member with rfl | rfl | rfl
    · exact ⟨fun _ => rfl, fun impossible => absurd impossible (by decide)⟩
    · exact ⟨fun impossible => absurd impossible (by decide), fun _ => Or.inl ⟨rfl, rfl⟩⟩
    · exact ⟨fun impossible => absurd impossible (by decide),
        fun impossible => absurd impossible (by decide)⟩
  · rw [entries_objects]
    refine ⟨⟨_, List.mem_cons_self, rfl⟩, ⟨_, List.mem_cons_of_mem _ List.mem_cons_self, rfl⟩, ?_⟩
    intro entry member
    rcases List.mem_cons.mp member with rfl | member
    · exact ⟨fun _ => rfl, fun impossible => absurd impossible (by decide)⟩
    · rcases List.mem_cons.mp member with rfl | member
      · exact ⟨fun impossible => absurd impossible (by decide), fun _ => objectsChild⟩
      · rcases List.mem_map.mp member with ⟨n, inRange, rfl⟩
        have child := ns.indexToName_not_dot (List.mem_range.mp inRange)
        exact ⟨fun dot => absurd (Or.inl dot) child, fun dots => absurd (Or.inr dots) child⟩

end FlatObjectNamespace

open FlatObjectNamespace

/-- The three views of the namespace built from any configuration agree:
`lookup` finds exactly the listed children; a listed child is alone with its
name and with its inode, and `attr` knows it with its kind; the dot entries
name the directory and its parent; `attr` knows exactly the inodes reachable
by listings; and `readdir` succeeds, at every offset and with every sink, on
exactly the inodes whose kind is a directory. -/
theorem namespace_views_agree (config : FilesConfig) (uid gid ctime : Nat) :
    let ns := FlatObjectNamespace.new config uid gid ctime
    (forall dir name ino, ¬ IsDot name ->
      (ns.lookup dir name = some ino ↔
        exists listing entry, ns.listing dir 0 = .ok listing ∧ entry ∈ listing ∧
          entry.ino = ino ∧ entry.name = name)) ∧
    (forall dir listing entry, ns.listing dir 0 = .ok listing -> entry ∈ listing ->
      ¬ IsDot entry.name ->
        listing.filter (fun other => other.name = entry.name) = [entry] ∧
        listing.filter (fun other => other.ino = entry.ino) = [entry] ∧
        exists spec, ns.attr entry.ino = some spec ∧ spec.ino = entry.ino ∧
          spec.kind = entry.kind) ∧
    (forall dir listing, ns.listing dir 0 = .ok listing ->
      (exists entry, entry ∈ listing ∧ entry.name = dotName) ∧
      (exists entry, entry ∈ listing ∧ entry.name = dotDotName) ∧
      forall entry, entry ∈ listing ->
        (entry.name = dotName -> entry.ino = dir) ∧
        (entry.name = dotDotName -> ns.IsParent entry.ino dir)) ∧
    (forall ino, (ns.attr ino).isSome = true ↔ ns.Reaches ino) ∧
    (forall (Sink : Type) (push : Sink -> DirEntry -> Sink × Bool) ino offset sink,
      (exists next, ns.readdir push ino offset sink = .ok next) ↔
        exists spec, ns.attr ino = some spec ∧ spec.kind = .dir) := by
  intro ns
  refine ⟨ns.lookup_iff_listed, ?_, ?_, ns.attr_isSome_iff_reaches, ?_⟩
  · intro dir listing entry lists member child
    rcases ns.eq_entries_of_listing lists with ⟨directory, rfl⟩
    refine ⟨?_, ?_, ns.attr_of_mem directory member⟩
    · apply filter_eq_singleton (ns.entries_nodup dir) member _ (decide_eq_true rfl)
      intro other member' same
      exact ns.eq_of_name_eq directory child member member' (of_decide_eq_true same)
    · apply filter_eq_singleton (ns.entries_nodup dir) member _ (decide_eq_true rfl)
      intro other member' same
      exact ns.eq_of_ino_eq directory child member member' (of_decide_eq_true same)
  · intro dir listing lists
    rcases ns.eq_entries_of_listing lists with ⟨directory, rfl⟩
    exact ns.dots_listed directory
  · intro Sink push ino offset sink
    rw [ns.attr_kind_dir]
    constructor
    · rintro ⟨next, succeeds⟩
      by_contra other
      rw [ns.readdir_of_not_dir push other] at succeeds
      cases succeeds
    · intro directory
      exact ⟨_, ns.readdir_eq_feed push directory offset sink⟩

end Fusecraft
