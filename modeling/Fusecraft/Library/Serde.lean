import Mathlib.Algebra.Ring.Int.Defs
import Mathlib.Data.List.Nodup

/-!
# Serialization in a self-describing data model

Structs, sequences, maps and optional values are written to a tree of named
values and read back field by field.  A struct is written as a table; a field
without a value is left out, and a reader says what an absent field means.  A
struct may also be read from a sequence, with its fields in the order of their
declaration.  What has no field is ignored.  The keys of a table are distinct,
as the text format guarantees; of two equal keys the first one counts.

Whether a value survives the trip is decided field by field, item by item and
entry by entry.  Both directions are stated, so a single field that does not
survive shows that the value does not.
-/

namespace Serde

/-- The data model. -/
inductive Value (F : Type) where
  | boolean (value : Bool)
  | integer (value : Int)
  | float (value : F)
  | string (value : String)
  | array (items : List (Value F))
  | table (fields : List (String × Value F))

variable {F α : Type}

/-- An integer of 64 bits, with or without a sign.  The readers are handed
others in 128 bits. -/
def IsWord (value : Int) : Prop := -2 ^ 63 ≤ value ∧ value < 2 ^ 64

instance (value : Int) : Decidable (IsWord value) := inferInstanceAs (Decidable (_ ∧ _))

/-- How a value is named in an error about its type. -/
def Value.unexpected (display : F -> String) : Value F -> String
  | boolean value => "boolean `" ++ toString value ++ "`"
  | integer value =>
      "integer `" ++ toString value ++ "`" ++
        if IsWord value then "" else if value < 2 ^ 127 then " as i128" else " as u128"
  | float value => "floating point `" ++ display value ++ "`"
  | string value => "string " ++ value.quote
  | array _ => "sequence"
  | table _ => "map"

/-- The error of a reader that meets a value of another kind. -/
def invalidType (display : F -> String) (value : Value F) (expected : String) :
    Except String α :=
  .error ("invalid type: " ++ value.unexpected display ++ ", expected " ++ expected)

/-! ## Writers -/

/-- A field whose value is always written. -/
def present (written : Except String (Value F)) : Except String (Option (Value F)) :=
  written.map some

/-- A field that is left out when there is no value. -/
def optional (write : α -> Except String (Value F)) : Option α -> Except String (Option (Value F))
  | none => .ok none
  | some value => present (write value)

/-- The fields of a struct in order, without those that are left out. -/
def writeFields : List (String × Except String (Option (Value F))) ->
    Except String (List (String × Value F))
  | [] => .ok []
  | (name, written) :: rest => do
      let value ← written
      let fields ← writeFields rest
      .ok ((value.map (fun value => (name, value))).toList ++ fields)

def writeStruct (fields : List (String × Except String (Option (Value F)))) :
    Except String (Value F) :=
  (writeFields fields).map .table

/-- The items of a sequence in order. -/
def writeItems (write : α -> Except String (Value F)) : List α -> Except String (List (Value F))
  | [] => .ok []
  | item :: rest => do
      let value ← write item
      let values ← writeItems write rest
      .ok (value :: values)

def writeArray (write : α -> Except String (Value F)) (items : List α) : Except String (Value F) :=
  (writeItems write items).map .array

/-- The entries of a map in order, with their keys as names. -/
def writeEntries {Key : Type} (keyName : Key -> String) (write : α -> Except String (Value F)) :
    List (Key × α) -> Except String (List (String × Value F))
  | [] => .ok []
  | (key, item) :: rest => do
      let value ← write item
      let fields ← writeEntries keyName write rest
      .ok ((keyName key, value) :: fields)

/-! ## Readers -/

/-- Read a field that may be absent. -/
def readValue (missing : Except String α) (read : Value F -> Except String α) :
    Option (Value F) -> Except String α
  | none => missing
  | some value => read value

/-- The fields of a struct as its reader finds them, with the error about a
required one that is absent. -/
structure Members (F : Type) where
  find : String -> Option (Value F)
  missing : String -> String

/-- A table has a field under its name. -/
def Members.ofTable (fields : List (String × Value F)) : Members F where
  find := fun name => fields.lookup name
  missing := fun name => "missing field `" ++ name ++ "`"

/-- A sequence has a field at its place in the declaration. -/
def Members.ofArray (struct : String) (names : List String) (items : List (Value F)) :
    Members F where
  find := fun name => items[names.idxOf name]?
  missing := fun name =>
    "invalid length " ++ toString (names.idxOf name) ++ ", expected struct " ++ struct ++
      " with " ++ toString names.length ++ if names.length = 1 then " element" else " elements"

/-- The fields of a struct in a tree. -/
def Value.members (struct : String) (names : List String) : Value F -> Option (Members F)
  | .table fields => some (.ofTable fields)
  | .array items => some (.ofArray struct names items)
  | _ => none

/-- Read a struct from its fields. -/
def readStruct (display : F -> String) (struct : String) (names : List String)
    (build : Members F -> Except String α) (tree : Value F) : Except String α :=
  match tree.members struct names with
  | some members => build members
  | none => invalidType display tree ("struct " ++ struct)

/-- Read the field of a struct under a name. -/
def readField (members : Members F) (name : String) (missing : Except String α)
    (read : Value F -> Except String α) : Except String α :=
  readValue missing read (members.find name)

/-- Read a field that must be present. -/
def readRequired (members : Members F) (name : String) (read : Value F -> Except String α) :
    Except String α :=
  readField members name (.error (members.missing name)) read

def readItems (read : Value F -> Except String α) : List (Value F) -> Except String (List α)
  | [] => .ok []
  | value :: rest => do
      let item ← read value
      let items ← readItems read rest
      .ok (item :: items)

def readEntries {Key : Type} (readKey : String -> Except String Key)
    (read : Value F -> Except String α) :
    List (String × Value F) -> Except String (List (Key × α))
  | [] => .ok []
  | (name, value) :: rest => do
      let key ← readKey name
      let item ← read value
      let entries ← readEntries readKey read rest
      .ok ((key, item) :: entries)

/-! ## Sequencing -/

theorem bind_eq_ok {β : Type} {first : Except String α} {next : α -> Except String β} {result : β} :
    (first >>= next) = .ok result ↔ exists value, first = .ok value ∧ next value = .ok result := by
  cases first with
  | error err => simp [bind, Except.bind]
  | ok value => simp [bind, Except.bind]

theorem map_eq_ok {β : Type} {first : Except String α} {convert : α -> β} {result : β} :
    first.map convert = .ok result ↔ exists value, first = .ok value ∧ convert value = result := by
  cases first with
  | error err => simp [Except.map]
  | ok value => simp [Except.map]

/-! ## Fields that are found -/

theorem readStruct_eq_ok {display : F -> String} {struct : String} {names : List String}
    {build : Members F -> Except String α} {tree : Value F} {value : α} :
    readStruct display struct names build tree = .ok value ↔
      exists members, tree.members struct names = some members ∧ build members = .ok value := by
  unfold readStruct
  cases tree.members struct names with
  | none => simp [invalidType]
  | some members => simp

@[simp]
theorem members_table {struct : String} {names : List String} (fields : List (String × Value F)) :
    (Value.table fields).members struct names = some (.ofTable fields) := rfl

@[simp]
theorem find_ofTable (fields : List (String × Value F)) (name : String) :
    (Members.ofTable fields).find name = fields.lookup name := rfl

theorem readRequired_eq_ok {members : Members F} {name : String}
    {read : Value F -> Except String α} {value : α} :
    readRequired members name read = .ok value ↔
      exists tree, members.find name = some tree ∧ read tree = .ok value := by
  unfold readRequired readField
  cases members.find name with
  | none => simp [readValue]
  | some tree => simp [readValue]

/-! ## Round trips -/

/-- Writing succeeds, and reading what is written gives the value back. -/
def RoundTrips (written : Except String (Value F)) (read : Value F -> Except String α)
    (value : α) : Prop :=
  exists tree, written = .ok tree ∧ read tree = .ok value

/-- A field of a struct as the round trip sees it: what is written under its
name, and when what is read under that name is the original value. -/
structure Field (F : Type) where
  name : String
  written : Except String (Option (Value F))
  restored : Option (Value F) -> Prop

/-- The field that is read back by a given reader. -/
def Field.of (name : String) (written : Except String (Option (Value F)))
    (missing : Except String α) (read : Value F -> Except String α) (value : α) : Field F where
  name := name
  written := written
  restored := fun tree => readValue missing read tree = .ok value

/-- The field that is read back by a given reader and must be present. -/
def Field.required (name : String) (written : Except String (Value F))
    (read : Value F -> Except String α) (value : α) : Field F where
  name := name
  written := present written
  restored := fun tree => exists sub, tree = some sub ∧ read sub = .ok value

/-- The field comes back as it was. -/
def Field.Survives (field : Field F) : Prop :=
  exists tree, field.written = .ok tree ∧ field.restored tree

theorem survives_present {name : String} {written : Except String (Value F)}
    {missing : Except String α} {read : Value F -> Except String α} {value : α} :
    (Field.of name (present written) missing read value).Survives ↔
      RoundTrips written read value := by
  constructor
  · rintro ⟨tree, writes, restores⟩
    rcases map_eq_ok.mp writes with ⟨value, wrote, rfl⟩
    exact ⟨value, wrote, restores⟩
  · rintro ⟨tree, writes, reads⟩
    exact ⟨some tree, map_eq_ok.mpr ⟨tree, writes, rfl⟩, reads⟩

theorem survives_required {name : String} {written : Except String (Value F)}
    {read : Value F -> Except String α} {value : α} :
    (Field.required name written read value).Survives ↔ RoundTrips written read value := by
  constructor
  · rintro ⟨tree, writes, sub, rfl, reads⟩
    rcases map_eq_ok.mp writes with ⟨written, wrote, same⟩
    cases same
    exact ⟨sub, wrote, reads⟩
  · rintro ⟨tree, writes, reads⟩
    exact ⟨some tree, map_eq_ok.mpr ⟨tree, writes, rfl⟩, tree, rfl, reads⟩

/-- An absent optional value survives, and a present one if its value does. -/
theorem survives_optional {name : String} {write : α -> Except String (Value F)}
    {read : Value F -> Except String α} {value : Option α} :
    (Field.of name (optional write value) (.ok none)
        (fun tree => (read tree).map some) value).Survives ↔
      forall item, value = some item -> RoundTrips (write item) read item := by
  cases value with
  | none =>
      constructor
      · intro _ item none
        cases none
      · intro _
        exact ⟨none, rfl, rfl⟩
  | some item =>
      have reads : forall tree, (read tree).map some = .ok (some item) ↔ read tree = .ok item := by
        intro tree
        rw [map_eq_ok]
        simp
      change (Field.of name (present (write item)) _ _ _).Survives ↔ _
      rw [survives_present]
      simp only [RoundTrips, reads, Option.some.injEq, forall_eq']

/-! ### Structs -/

theorem exists_writeFields {fields : List (String × Except String (Option (Value F)))}
    (written : forall field, field ∈ fields -> exists tree, field.2 = .ok tree) :
    exists table, writeFields fields = .ok table := by
  induction fields with
  | nil => exact ⟨[], rfl⟩
  | cons field rest ih =>
      rcases field with ⟨name, emitted⟩
      rcases written _ List.mem_cons_self with ⟨tree, head⟩
      rcases ih (fun field member => written field (List.mem_cons_of_mem _ member)) with
        ⟨table, tail⟩
      refine ⟨_, bind_eq_ok.mpr ⟨tree, head, bind_eq_ok.mpr ⟨table, tail, rfl⟩⟩⟩

/-- A written table holds no name that its fields do not have. -/
theorem lookup_writeFields_of_notMem {fields : List (String × Except String (Option (Value F)))}
    {table : List (String × Value F)} (written : writeFields fields = .ok table) {name : String}
    (absent : name ∉ fields.map Prod.fst) : table.lookup name = none := by
  induction fields generalizing table with
  | nil =>
      cases written
      rfl
  | cons field rest ih =>
      rcases bind_eq_ok.mp written with ⟨tree, head, others⟩
      rcases bind_eq_ok.mp others with ⟨tail, wrote, shape⟩
      cases shape
      rw [List.map_cons, List.mem_cons, not_or] at absent
      have below := ih wrote absent.2
      cases tree with
      | none => exact below
      | some tree =>
          change List.lookup name ((field.1, tree) :: tail) = none
          rw [List.lookup_cons, beq_false_of_ne absent.1]
          exact below

/-- Looking a field up in the written table gives what was written for it. -/
theorem lookup_writeFields {fields : List (String × Except String (Option (Value F)))}
    (distinct : (fields.map Prod.fst).Nodup) {table : List (String × Value F)}
    (written : writeFields fields = .ok table) {name : String}
    {emitted : Except String (Option (Value F))} (member : (name, emitted) ∈ fields) :
    emitted = .ok (table.lookup name) := by
  induction fields generalizing table with
  | nil => cases member
  | cons field rest ih =>
      rcases bind_eq_ok.mp written with ⟨tree, head, others⟩
      rcases bind_eq_ok.mp others with ⟨tail, wrote, shape⟩
      cases shape
      rw [List.map_cons, List.nodup_cons] at distinct
      rcases List.mem_cons.mp member with same | later
      · cases same
        have head : emitted = .ok tree := head
        rw [head]
        cases tree with
        | none =>
            change _ = Except.ok (tail.lookup name)
            rw [lookup_writeFields_of_notMem wrote distinct.1]
        | some tree =>
            change _ = Except.ok (List.lookup name ((name, tree) :: tail))
            rw [List.lookup_cons, beq_self_eq_true]
      · have below := ih distinct.2 wrote later
        have different : name ≠ field.1 := by
          rintro rfl
          exact distinct.1 (List.mem_map.mpr ⟨_, later, rfl⟩)
        rw [below]
        cases tree with
        | none => rfl
        | some tree =>
            change _ = Except.ok (List.lookup name ((field.1, tree) :: tail))
            rw [List.lookup_cons, beq_false_of_ne different]

/-- A struct survives just if each of its fields does. -/
theorem roundTrips_struct (fields : List (Field F)) (distinct : (fields.map Field.name).Nodup)
    {read : Value F -> Except String α} {value : α}
    (reads : forall table, read (.table table) = .ok value ↔
      forall field, field ∈ fields -> field.restored (table.lookup field.name)) :
    RoundTrips (writeStruct (fields.map (fun field => (field.name, field.written)))) read value ↔
      forall field, field ∈ fields -> field.Survives := by
  have names : ((fields.map (fun field => (field.name, field.written))).map Prod.fst).Nodup := by
    rw [List.map_map]
    exact distinct
  have lookups : forall table,
      writeFields (fields.map (fun field => (field.name, field.written))) = .ok table ->
      forall field, field ∈ fields -> field.written = .ok (table.lookup field.name) := by
    intro table written field member
    exact lookup_writeFields names written (List.mem_map_of_mem member)
  constructor
  · rintro ⟨tree, writes, restores⟩ field member
    rcases map_eq_ok.mp writes with ⟨table, wrote, rfl⟩
    exact ⟨_, lookups table wrote field member, (reads table).mp restores field member⟩
  · intro survives
    have written : exists table,
        writeFields (fields.map (fun field => (field.name, field.written))) = .ok table := by
      apply exists_writeFields
      intro entry member
      rcases List.mem_map.mp member with ⟨field, present, rfl⟩
      rcases survives field present with ⟨tree, writes, -⟩
      exact ⟨tree, writes⟩
    rcases written with ⟨table, writes⟩
    refine ⟨.table table, map_eq_ok.mpr ⟨table, writes, rfl⟩, (reads table).mpr ?_⟩
    intro field member
    rcases survives field member with ⟨tree, emitted, restores⟩
    rw [lookups table writes field member] at emitted
    cases emitted
    exact restores

/-! ### Sequences and maps -/

/-- A sequence survives just if each of its items does. -/
theorem roundTrips_items {write : α -> Except String (Value F)}
    {read : Value F -> Except String α} {items : List α} :
    (exists values, writeItems write items = .ok values ∧ readItems read values = .ok items) ↔
      forall item, item ∈ items -> RoundTrips (write item) read item := by
  induction items with
  | nil => exact ⟨fun _ _ member => absurd member List.not_mem_nil, fun _ => ⟨[], rfl, rfl⟩⟩
  | cons item rest ih =>
      rw [List.forall_mem_cons, ← ih]
      constructor
      · rintro ⟨values, writes, reads⟩
        rcases bind_eq_ok.mp writes with ⟨value, head, writesRest⟩
        rcases bind_eq_ok.mp writesRest with ⟨tail, wrote, shape⟩
        cases shape
        rcases bind_eq_ok.mp reads with ⟨first, headBack, readsRest⟩
        rcases bind_eq_ok.mp readsRest with ⟨others, tailBack, shape⟩
        cases shape
        exact ⟨⟨value, head, headBack⟩, ⟨tail, wrote, tailBack⟩⟩
      · rintro ⟨⟨value, head, headBack⟩, ⟨tail, writes, tailBack⟩⟩
        exact ⟨value :: tail, bind_eq_ok.mpr ⟨value, head, bind_eq_ok.mpr ⟨tail, writes, rfl⟩⟩,
          bind_eq_ok.mpr ⟨item, headBack, bind_eq_ok.mpr ⟨rest, tailBack, rfl⟩⟩⟩

/-- What is read from a written map has the keys of the map. -/
theorem keys_readEntries {Key : Type} {keyName : Key -> String}
    {readKey : String -> Except String Key} (keys : forall key, readKey (keyName key) = .ok key)
    {write : α -> Except String (Value F)} {read : Value F -> Except String α}
    {entries restored : List (Key × α)} {fields : List (String × Value F)}
    (writes : writeEntries keyName write entries = .ok fields)
    (reads : readEntries readKey read fields = .ok restored) :
    restored.map Prod.fst = entries.map Prod.fst := by
  induction entries generalizing fields restored with
  | nil =>
      cases writes
      cases reads
      rfl
  | cons entry rest ih =>
      rcases bind_eq_ok.mp writes with ⟨value, _, writesRest⟩
      rcases bind_eq_ok.mp writesRest with ⟨tail, wrote, shape⟩
      cases shape
      rcases bind_eq_ok.mp reads with ⟨key, keyBack, readsItem⟩
      rcases bind_eq_ok.mp readsItem with ⟨item, _, readsRest⟩
      rcases bind_eq_ok.mp readsRest with ⟨others, tailBack, shape⟩
      cases shape
      have same : key = entry.1 := Except.ok.inj (keyBack.symm.trans (keys entry.1))
      rw [List.map_cons, List.map_cons, ih wrote tailBack, same]

/-- A map whose keys are read back from their names survives just if each of
its values does. -/
theorem roundTrips_entries {Key : Type} {keyName : Key -> String}
    {readKey : String -> Except String Key} (keys : forall key, readKey (keyName key) = .ok key)
    (write : α -> Except String (Value F)) (read : Value F -> Except String α)
    (entries : List (Key × α)) :
    (exists fields, writeEntries keyName write entries = .ok fields ∧
      readEntries readKey read fields = .ok entries) ↔
      forall entry, entry ∈ entries -> RoundTrips (write entry.2) read entry.2 := by
  induction entries with
  | nil => exact ⟨fun _ _ member => absurd member List.not_mem_nil, fun _ => ⟨[], rfl, rfl⟩⟩
  | cons entry rest ih =>
      rcases entry with ⟨key, item⟩
      rw [List.forall_mem_cons, ← ih]
      constructor
      · rintro ⟨fields, writes, reads⟩
        rcases bind_eq_ok.mp writes with ⟨value, head, writesRest⟩
        rcases bind_eq_ok.mp writesRest with ⟨tail, wrote, shape⟩
        cases shape
        rcases bind_eq_ok.mp reads with ⟨sameKey, _, readsItem⟩
        rcases bind_eq_ok.mp readsItem with ⟨first, headBack, readsRest⟩
        rcases bind_eq_ok.mp readsRest with ⟨others, tailBack, shape⟩
        cases shape
        exact ⟨⟨value, head, headBack⟩, ⟨tail, wrote, tailBack⟩⟩
      · rintro ⟨⟨value, head, headBack⟩, ⟨tail, writes, tailBack⟩⟩
        exact ⟨(keyName key, value) :: tail,
          bind_eq_ok.mpr ⟨value, head, bind_eq_ok.mpr ⟨tail, writes, rfl⟩⟩,
          bind_eq_ok.mpr ⟨key, keys key, bind_eq_ok.mpr ⟨item, headBack,
            bind_eq_ok.mpr ⟨rest, tailBack, rfl⟩⟩⟩⟩

end Serde
