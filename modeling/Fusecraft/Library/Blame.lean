import Fusecraft.Library.Documents

/-!
# Whom a check of what was read blames

A tree is read to a value and the value is checked; what the check complains
about is written in the tree.  A check blames well if its error begins with
the path of an entry, the entry stands in the tree, and the part of the tree
around this entry is a cause: no tree that has it in the same place is read to
a value that passes.  Where a field stands depends on what the tree is read as:
in a table it stands under its name, in a sequence at its place in the
declaration of the struct.  So paths lead into trees of a given shape.  The
rules follow the ways to build a reader and a check: checks one after the
other, a field, an optional value, the items of a sequence, the entries of a
map.
-/

namespace Serde

variable {F α β E : Type}

/-! ## Paths -/

/-- What a tree is read as: a value without parts, a struct with its fields in
the order of their declaration, a map, or a list. -/
inductive Shape where
  | leaf
  | record (struct : String) (fields : List (String × Shape))
  | map (entries : Shape)
  | list (items : Shape)

/-- A step into a tree: to the field or the entry with a name, or to an item. -/
inductive Segment where
  | field (name : String)
  | item (index : Nat)
  deriving DecidableEq, Repr

/-- A step as it is written behind the path that it continues. -/
def Segment.text : Segment -> String
  | .field name => "." ++ name
  | .item index => "[" ++ toString index ++ "]"

/-- The shape of a part. -/
def Shape.child : Segment -> Shape -> Option Shape
  | .field name, .record _ fields => fields.lookup name
  | .field _, .map entries => some entries
  | .item _, .list items => some items
  | _, _ => none

/-- The part of a tree that is read as a part of its shape. -/
def Value.child : Shape -> Segment -> Value F -> Option (Value F)
  | .record struct fields, .field name, tree =>
      (tree.members struct (fields.map Prod.fst)).bind (fun members => members.find name)
  | .map _, .field name, .table fields => fields.lookup name
  | .list _, .item index, .array items => items[index]?
  | _, _, _ => none

/-- A tree with the shape that it is read in. -/
structure Node (F : Type) where
  shape : Shape
  tree : Value F

def Node.child (segment : Segment) (node : Node F) : Option (Node F) := do
  let shape ← node.shape.child segment
  let tree ← node.tree.child node.shape segment
  some ⟨shape, tree⟩

/-- What stands in a tree under a path. -/
def Node.follow : List Segment -> Node F -> Option (Node F)
  | [], node => some node
  | segment :: rest, node => (node.child segment).bind (follow rest)

/-- A path as it is written behind a context. -/
def below (context : String) (path : List Segment) : String :=
  path.foldl (fun text segment => text ++ segment.text) context

/-- A text begins with another one. -/
def Begins (start text : String) : Prop := exists rest, text = start ++ rest

theorem Begins.append {start text : String} (begins : Begins start text) (more : String) :
    Begins start (text ++ more) := by
  rcases begins with ⟨rest, rfl⟩
  exact ⟨rest ++ more, String.append_assoc⟩

/-- A context that is continued by a path, a name and a blank. -/
theorem begins_within {context name text : String} (outer more : String)
    (split : text = outer ++ "." ++ name ++ " " ++ more) :
    Begins (below (context ++ outer) [.field name] ++ " ") (context ++ text) := by
  refine ⟨more, ?_⟩
  rw [split, below, List.foldl_cons, List.foldl_nil, Segment.text]
  simp only [String.append_assoc]

/-- A context that is continued by a name and a blank. -/
theorem begins_below {context name text : String} (more : String)
    (split : text = "." ++ name ++ " " ++ more) :
    Begins (below context [.field name] ++ " ") (context ++ text) := by
  have begins : Begins (below (context ++ "") [.field name] ++ " ") (context ++ text) :=
    begins_within "" more (by rw [split, String.empty_append])
  rwa [String.append_empty] at begins

/-- A context that is continued by a place, a name and a blank. -/
theorem begins_item {name text : String} (context : String) (index : Nat) (more : String)
    (split : text = "]." ++ name ++ " " ++ more) :
    Begins (below (context ++ ("[" ++ toString index ++ "]")) [.field name] ++ " ")
      (context ++ "[" ++ toString index ++ text) := by
  have close : "]." = "]" ++ "." := rfl
  have place : context ++ "[" ++ toString index ++ text =
      context ++ ("[" ++ toString index ++ "]" ++ "." ++ name ++ " " ++ more) := by
    rw [split, close]
    simp only [String.append_assoc]
  rw [place]
  exact begins_within _ more rfl

/-- The text of a path that begins with a name. -/
def pathText : List Segment -> String
  | .field name :: rest => below name rest
  | path => below "" path

theorem child_eq_some {segment : Segment} {node sub : Node F} :
    node.child segment = some sub ↔
      node.shape.child segment = some sub.shape ∧
        node.tree.child node.shape segment = some sub.tree := by
  simp only [Node.child, Option.bind_eq_bind, Option.bind_eq_some_iff, Option.some.injEq]
  constructor
  · rintro ⟨shape, part, tree, stands, rfl⟩
    exact ⟨part, stands⟩
  · rintro ⟨part, stands⟩
    exact ⟨_, part, _, stands, rfl⟩

theorem follow_cons_eq_some {segment : Segment} {path : List Segment} {node place : Node F} :
    node.follow (segment :: path) = some place ↔
      exists sub, node.child segment = some sub ∧ sub.follow path = some place :=
  Option.bind_eq_some_iff

/-- A field that a struct is read from. -/
theorem child_record {struct : String} {fields : List (String × Shape)} {tree : Value F}
    {members : Members F} (found : tree.members struct (fields.map Prod.fst) = some members)
    (name : String) : tree.child (.record struct fields) (.field name) = members.find name := by
  rw [Value.child, found]
  rfl

/-! ## Blame -/

/-- A tree of the format is read to a value. -/
def ReadsAs (bound : Int -> Prop) (read : Value F -> Except String α) (tree : Value F)
    (value : α) : Prop :=
  Document bound tree ∧ read tree = .ok value

section Blame

variable (report : String -> E) (named : String -> Node F -> Prop) (shape : Shape)

/-- An error that begins with a path to a name, where the name stands in the
part that the path before it leads to, and what has this part there is
refused. -/
def Blamed (place : List Segment -> String) (err : E) (tree : Value F)
    (refused : Value F -> Prop) : Prop :=
  exists text path name part,
    err = report text ∧ Begins (place (path ++ [.field name]) ++ " ") text ∧
    Node.follow path ⟨shape, tree⟩ = some part ∧ named name part ∧
    forall other, Node.follow path ⟨shape, other⟩ = some part -> refused other

/-- No value that is read from a tree passes. -/
def Refuses (reads : Value F -> α -> Prop) (check : α -> Except E Unit) (tree : Value F) : Prop :=
  forall value, reads tree value -> check value ≠ .ok ()

/-- A check blames well what was read. -/
def Blames (reads : Value F -> α -> Prop) (check : α -> Except E Unit)
    (place : List Segment -> String) : Prop :=
  forall tree value err, reads tree value -> check value = .error err ->
    Blamed report named shape place err tree (Refuses reads check)

end Blame

section Rules

variable {report : String -> E} {named : String -> Node F -> Prop} {bound : Int -> Prop}
variable {shape part : Shape} {reads : Value F -> α -> Prop} {place : List Segment -> String}

theorem Blamed.imp {err : E} {tree : Value F} {refused refused' : Value F -> Prop}
    (blamed : Blamed report named shape place err tree refused)
    (weaker : forall other, refused other -> refused' other) :
    Blamed report named shape place err tree refused' := by
  rcases blamed with ⟨text, path, name, part, reported, begins, leads, stands, cause⟩
  exact ⟨text, path, name, part, reported, begins, leads, stands,
    fun other same => weaker other (cause other same)⟩

/-- What is blamed below a step is blamed from above it. -/
theorem Blamed.step {err : E} {segment : Segment} {tree sub : Value F}
    {refused : Value F -> Prop} (inside : shape.child segment = some part)
    (leads : tree.child shape segment = some sub)
    (blamed : Blamed report named part (fun path => place (segment :: path)) err sub refused) :
    Blamed report named shape place err tree
      (fun other => exists sub, other.child shape segment = some sub ∧ refused sub) := by
  rcases blamed with ⟨text, path, name, blame, reported, begins, leads', stands, cause⟩
  refine ⟨text, segment :: path, name, blame, reported, begins, ?_, stands, ?_⟩
  · exact follow_cons_eq_some.mpr ⟨⟨part, sub⟩, child_eq_some.mpr ⟨inside, leads⟩, leads'⟩
  · intro other same
    rcases follow_cons_eq_some.mp same with ⟨⟨part', sub'⟩, found, same⟩
    rcases child_eq_some.mp found with ⟨inside', found⟩
    cases inside.symm.trans inside'
    exact ⟨sub', found, cause sub' same⟩

theorem Blames.imp {reads' : Value F -> α -> Prop} {check : α -> Except E Unit}
    (blames : Blames report named shape reads check place)
    (reading : forall {tree value}, reads' tree value -> reads tree value) :
    Blames report named shape reads' check place := by
  intro tree value err read refused
  refine (blames tree value err (reading read) refused).imp fun other refuses value' read' => ?_
  exact refuses value' (reading read')

theorem sequence_eq_ok {first second : Except E Unit} :
    (do first; second) = .ok () ↔ first = .ok () ∧ second = .ok () := by
  cases first with
  | error err => simp [bind, Except.bind]
  | ok value => simp [bind, Except.bind]

theorem sequence_eq_error {first second : Except E Unit} {err : E} :
    (do first; second) = .error err ↔
      first = .error err ∨ first = .ok () ∧ second = .error err := by
  cases first with
  | error err => simp [bind, Except.bind]
  | ok value => simp [bind, Except.bind]

/-- A single check blames the tree that was read, if it is a condition on what
was read, and the name it begins with stands in the tree. -/
theorem Blames.single {name : String} {bad : α -> Bool} {text : α -> String}
    (unique : forall {tree first second}, reads tree first -> reads tree second -> first = second)
    (begins : forall value, Begins (place [.field name] ++ " ") (text value))
    (stands : forall tree value, reads tree value -> bad value = true ->
      named name ⟨shape, tree⟩) :
    Blames report named shape reads
      (fun value => if bad value then .error (report (text value)) else .ok ()) place := by
  intro tree value err read refused
  dsimp only at refused
  split at refused
  next wrong =>
    cases refused
    refine ⟨text value, [], name, ⟨shape, tree⟩, rfl, begins value, rfl,
      stands tree value read wrong, ?_⟩
    rintro other same value' read'
    cases Option.some.inj same
    cases unique read' read
    intro accepted
    dsimp only at accepted
    rw [if_pos wrong] at accepted
    cases accepted
  next => cases refused

/-- A check that passes always. -/
theorem Blames.pass {check : α -> Except E Unit} (passes : forall value, check value = .ok ()) :
    Blames report named shape reads check place := by
  intro tree value err _ refused
  rw [passes value] at refused
  cases refused

/-- Checks one after the other. -/
theorem Blames.andThen {first second : α -> Except E Unit}
    (left : Blames report named shape reads first place)
    (right : Blames report named shape reads second place) :
    Blames report named shape reads (fun value => do first value; second value) place := by
  intro tree value err read refused
  rcases sequence_eq_error.mp refused with refused | ⟨-, refused⟩
  · refine (left tree value err read refused).imp fun other refuses value' read' accepted => ?_
    exact refuses value' read' (sequence_eq_ok.mp accepted).1
  · refine (right tree value err read refused).imp fun other refuses value' read' accepted => ?_
    exact refuses value' read' (sequence_eq_ok.mp accepted).2

/-- A check of a field, which passes where the field is absent. -/
theorem Blames.field {readsField : Value F -> β -> Prop} {name : String} {get : α -> β}
    {check : β -> Except E Unit}
    (inside : shape.child (.field name) = some part)
    (inner : Blames report named part readsField check (fun path => place (.field name :: path)))
    (opens : forall tree value, reads tree value ->
      (tree.child shape (.field name) = none -> check (get value) = .ok ()) ∧
      forall sub, tree.child shape (.field name) = some sub -> readsField sub (get value)) :
    Blames report named shape reads (fun value => check (get value)) place := by
  intro tree value err read refused
  rcases opens tree value read with ⟨absent, present⟩
  cases leads : tree.child shape (.field name) with
  | none => exact absurd ((absent leads).symm.trans refused) (fun same => by cases same)
  | some sub =>
      have blamed := inner sub (get value) err (present sub leads) refused
      refine (Blamed.step inside leads blamed).imp ?_
      rintro other ⟨sub', leads', refuses⟩ value' read'
      exact refuses (get value') ((opens other value' read').2 sub' leads')

/-- Check an optional value. -/
def checkOption (check : α -> Except E Unit) : Option α -> Except E Unit
  | some value => check value
  | none => .ok ()

/-- A check of an optional value. -/
theorem Blames.optional {read : Value F -> Except String α} {check : α -> Except E Unit}
    (inner : Blames report named shape (ReadsAs bound read) check place) :
    Blames report named shape (ReadsAs bound fun tree => (read tree).map some)
      (checkOption check) place := by
  rintro tree value err ⟨document, reads⟩ refused
  rcases map_eq_ok.mp reads with ⟨item, own, rfl⟩
  refine (inner tree item err ⟨document, own⟩ refused).imp ?_
  rintro other refuses value' ⟨document', reads'⟩
  rcases map_eq_ok.mp reads' with ⟨item', own', rfl⟩
  exact refuses item' ⟨document', own'⟩

/-! ### Items -/

/-- Check the items of a sequence in order, each with its place. -/
def checkItems (check : Nat -> α -> Except E Unit) : Nat -> List α -> Except E Unit
  | _, [] => .ok ()
  | index, item :: rest => do
      check index item
      checkItems check (index + 1) rest

theorem checkItems_eq_ok {check : Nat -> α -> Except E Unit} {start : Nat} {items : List α}
    (accepted : checkItems check start items = .ok ()) {index : Nat} {item : α}
    (present : items[index]? = some item) : check (start + index) item = .ok () := by
  induction items generalizing start index with
  | nil => simp at present
  | cons first rest ih =>
      rcases sequence_eq_ok.mp accepted with ⟨head, tail⟩
      cases index with
      | zero =>
          cases present
          exact head
      | succ index =>
          rw [show start + (index + 1) = start + 1 + index by omega]
          exact ih tail present

theorem checkItems_eq_error {check : Nat -> α -> Except E Unit} {start : Nat} {items : List α}
    {err : E} (refused : checkItems check start items = .error err) :
    exists index item, items[index]? = some item ∧ check (start + index) item = .error err := by
  induction items generalizing start with
  | nil => cases refused
  | cons first rest ih =>
      rcases sequence_eq_error.mp refused with head | ⟨-, tail⟩
      · exact ⟨0, first, rfl, head⟩
      · rcases ih tail with ⟨index, item, present, bad⟩
        refine ⟨index + 1, item, present, ?_⟩
        rw [show start + (index + 1) = start + 1 + index by omega]
        exact bad

/-- Items and the trees that they are read from have the same places. -/
theorem readItems_getElem? {read : Value F -> Except String α} {trees : List (Value F)}
    {items : List α} (reads : readItems read trees = .ok items) {index : Nat} :
    (forall tree, trees[index]? = some tree ->
      exists item, items[index]? = some item ∧ read tree = .ok item) ∧
    forall item, items[index]? = some item ->
      exists tree, trees[index]? = some tree ∧ read tree = .ok item := by
  induction trees generalizing items index with
  | nil =>
      cases reads
      simp
  | cons tree rest ih =>
      rcases bind_eq_ok.mp reads with ⟨item, head, reads⟩
      rcases bind_eq_ok.mp reads with ⟨others, tail, shape⟩
      cases shape
      cases index with
      | zero => simp [head]
      | succ index => simpa using ih tail

/-- A check of every item of a sequence. -/
theorem Blames.items {read : Value F -> Except String α} {check : Nat -> α -> Except E Unit}
    (inner : forall index, Blames report named part (ReadsAs bound read) (check index)
      (fun path => place (.item index :: path))) :
    Blames report named (.list part)
      (fun tree items => exists trees, tree = .array trees ∧ Document bound (.array trees) ∧
        readItems read trees = .ok items)
      (checkItems check 0) place := by
  rintro tree items err ⟨trees, rfl, document, reads⟩ refused
  rcases checkItems_eq_error refused with ⟨index, item, present, bad⟩
  rw [Nat.zero_add] at bad
  rcases (readItems_getElem? reads).2 item present with ⟨sub, found, own⟩
  have leads : (Value.array trees).child (.list part) (.item index) = some sub := found
  have documentOf : forall {trees : List (Value F)} {sub : Value F},
      Document bound (.array trees) -> trees[index]? = some sub -> Document bound sub := by
    intro trees sub document found
    cases document with
    | array all => exact all sub (List.mem_of_getElem? found)
  have blamed := inner index sub item err ⟨documentOf document found, own⟩ bad
  refine (Blamed.step rfl leads blamed).imp ?_
  rintro other ⟨sub', found', refuses⟩ items' ⟨trees', rfl, document', reads'⟩ accepted
  rcases (readItems_getElem? reads').1 sub' found' with ⟨item', present', own'⟩
  have passes := checkItems_eq_ok accepted present'
  rw [Nat.zero_add] at passes
  exact refuses item' ⟨documentOf document' found', own'⟩ passes

/-! ### Entries -/

section Entries

variable {Key : Type} {keyName : Key -> String} {readKey : String -> Except String Key}

/-- Check the entries of a map in order. -/
def checkEntries (check : Key -> α -> Except E Unit) : List (Key × α) -> Except E Unit
  | [] => .ok ()
  | (key, item) :: rest => do
      check key item
      checkEntries check rest

theorem checkEntries_eq_ok {check : Key -> α -> Except E Unit} {entries : List (Key × α)}
    (accepted : checkEntries check entries = .ok ()) {key : Key} {item : α}
    (present : (key, item) ∈ entries) : check key item = .ok () := by
  induction entries with
  | nil => cases present
  | cons entry rest ih =>
      rcases sequence_eq_ok.mp accepted with ⟨head, tail⟩
      rcases List.mem_cons.mp present with same | present
      · cases same
        exact head
      · exact ih tail present

theorem checkEntries_eq_error {check : Key -> α -> Except E Unit} {entries : List (Key × α)}
    {err : E} (refused : checkEntries check entries = .error err) :
    exists key item, (key, item) ∈ entries ∧ check key item = .error err := by
  induction entries with
  | nil => cases refused
  | cons entry rest ih =>
      rcases sequence_eq_error.mp refused with head | ⟨-, tail⟩
      · exact ⟨entry.1, entry.2, List.mem_cons_self, head⟩
      · rcases ih tail with ⟨key, item, present, bad⟩
        exact ⟨key, item, List.mem_cons_of_mem _ present, bad⟩

/-- In a table with distinct keys an entry is what stands under its name. -/
theorem mem_readEntries_iff (keys : forall name key, readKey name = .ok key ↔ name = keyName key)
    (injective : Function.Injective keyName) {read : Value F -> Except String α}
    {fields : List (String × Value F)} (distinct : (fields.map Prod.fst).Nodup)
    {entries : List (Key × α)} (reads : readEntries readKey read fields = .ok entries) {key : Key}
    {item : α} :
    (key, item) ∈ entries ↔
      exists sub, fields.lookup (keyName key) = some sub ∧ read sub = .ok item := by
  induction fields generalizing entries with
  | nil =>
      cases reads
      simp
  | cons field rest ih =>
      rcases bind_eq_ok.mp reads with ⟨first, named, reads⟩
      rcases bind_eq_ok.mp reads with ⟨value, own, reads⟩
      rcases bind_eq_ok.mp reads with ⟨others, tail, shape⟩
      cases shape
      rw [List.map_cons, List.nodup_cons] at distinct
      have name : field.1 = keyName first := (keys _ _).mp named
      rw [List.mem_cons, ih distinct.2 tail]
      by_cases same : key = first
      · subst same
        have absent : rest.lookup (keyName key) = none := by
          rw [← name]
          exact lookup_eq_none_of_notMem distinct.1
        rw [List.lookup_cons, name, beq_self_eq_true, absent]
        simp [own, eq_comm]
      · have different : keyName key ≠ field.1 := fun equal =>
          same (injective (equal.trans name))
        rw [List.lookup_cons, beq_false_of_ne different]
        simp [same]

theorem exists_item_of_lookup {read : Value F -> Except String α}
    {fields : List (String × Value F)} {entries : List (Key × α)}
    (reads : readEntries readKey read fields = .ok entries) {name : String} {sub : Value F}
    (found : fields.lookup name = some sub) : exists item, read sub = .ok item := by
  induction fields generalizing entries with
  | nil => cases found
  | cons field rest ih =>
      rcases bind_eq_ok.mp reads with ⟨first, -, reads⟩
      rcases bind_eq_ok.mp reads with ⟨value, own, reads⟩
      rcases bind_eq_ok.mp reads with ⟨others, tail, -⟩
      rw [List.lookup_cons] at found
      split at found
      · cases found
        exact ⟨value, own⟩
      · exact ih tail found

/-- A check of every entry of a map, in any order. -/
theorem Blames.entries (keys : forall name key, readKey name = .ok key ↔ name = keyName key)
    (injective : Function.Injective keyName) {read : Value F -> Except String α}
    {check : Key -> α -> Except E Unit}
    (inner : forall key, Blames report named part (ReadsAs bound read) (check key)
      (fun path => place (.field (keyName key) :: path))) :
    Blames report named (.map part)
      (fun tree entries => exists fields restored, tree = .table fields ∧
        Document bound (.table fields) ∧ readEntries readKey read fields = .ok restored ∧
        entries.Perm restored)
      (checkEntries check) place := by
  have distinctOf : forall {fields : List (String × Value F)},
      Document bound (.table fields) -> (fields.map Prod.fst).Nodup := by
    intro fields document
    cases document with
    | table distinct _ => exact distinct
  rintro tree entries err ⟨fields, restored, rfl, document, reads, order⟩ refused
  rcases checkEntries_eq_error refused with ⟨key, item, present, bad⟩
  rcases (mem_readEntries_iff keys injective (distinctOf document) reads).mp
    (order.mem_iff.mp present) with ⟨sub, found, own⟩
  have leads : (Value.table fields).child (.map part) (.field (keyName key)) = some sub := found
  have blamed := inner key sub item err ⟨document_of_lookup document found, own⟩ bad
  refine (Blamed.step rfl leads blamed).imp ?_
  rintro other ⟨sub', found', refuses⟩ entries' ⟨fields', restored', rfl, document', reads', order'⟩
    accepted
  rcases exists_item_of_lookup reads' found' with ⟨item', own'⟩
  have present' := (mem_readEntries_iff keys injective (distinctOf document') reads').mpr
    ⟨sub', found', own'⟩
  exact refuses item' ⟨document_of_lookup document' found', own'⟩
    (checkEntries_eq_ok accepted (order'.mem_iff.mpr present'))

end Entries

end Rules

end Serde
