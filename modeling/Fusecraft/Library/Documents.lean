import Fusecraft.Library.Serde

/-!
# The range of a reader

A text format does not have all trees.  Its integers are bounded, and a table
has no key twice.  The range of a reader are the values that it gives for some
tree of the format; it is found field by field, item by item and entry by
entry, and no writer is needed to say what it is.
-/

namespace Serde

variable {F α β : Type}

/-- A tree of a text format whose integers are bounded. -/
inductive Document (bound : Int -> Prop) : Value F -> Prop
  | boolean (value : Bool) : Document bound (.boolean value)
  | integer {value : Int} (bounded : bound value) : Document bound (.integer value)
  | float (value : F) : Document bound (.float value)
  | string (value : String) : Document bound (.string value)
  | array {items : List (Value F)} (all : forall item, item ∈ items -> Document bound item) :
      Document bound (.array items)
  | table {fields : List (String × Value F)} (distinct : (fields.map Prod.fst).Nodup)
      (all : forall name item, (name, item) ∈ fields -> Document bound item) :
      Document bound (.table fields)

/-- The values that a reader gives for the trees of the format. -/
def Ranges (bound : Int -> Prop) (read : Value F -> Except String α) (range : α -> Prop) : Prop :=
  forall value, (exists tree, Document bound tree ∧ read tree = .ok value) ↔ range value

variable {bound : Int -> Prop}

/-- Converting what was read. -/
theorem Ranges.bind {read : Value F -> Except String α} {range : α -> Prop}
    (ranges : Ranges bound read range) (convert : α -> Except String β) :
    Ranges bound (fun tree => read tree >>= convert)
      (fun value => exists raw, range raw ∧ convert raw = .ok value) := by
  intro value
  constructor
  · rintro ⟨tree, document, reads⟩
    rcases bind_eq_ok.mp reads with ⟨raw, reads, converts⟩
    exact ⟨raw, (ranges raw).mp ⟨tree, document, reads⟩, converts⟩
  · rintro ⟨raw, inside, converts⟩
    rcases (ranges raw).mpr inside with ⟨tree, document, reads⟩
    exact ⟨tree, document, bind_eq_ok.mpr ⟨raw, reads, converts⟩⟩

/-! ## Fields -/

/-- What a field of a struct may read: a tree of the format, or none. -/
def FieldReads (bound : Int -> Prop) (accepts : Option (Value F) -> Prop) : Prop :=
  exists tree : Option (Value F), (forall item, tree = some item -> Document bound item) ∧
    accepts tree

/-- A field that may be absent gives its default or what its reader gives. -/
theorem fieldReads_iff {missing : Except String α} {read : Value F -> Except String α}
    {range : α -> Prop} (ranges : Ranges bound read range) {value : α} :
    FieldReads bound (fun tree => readValue missing read tree = .ok value) ↔
      missing = .ok value ∨ range value := by
  rw [← ranges value]
  constructor
  · rintro ⟨tree, documents, reads⟩
    cases tree with
    | none => exact Or.inl reads
    | some tree => exact Or.inr ⟨tree, documents tree rfl, reads⟩
  · rintro (absent | ⟨tree, document, reads⟩)
    · exact ⟨none, (fun _ none => by cases none), absent⟩
    · exact ⟨some tree, (fun _ same => Option.some.inj same ▸ document), reads⟩

/-- A field with a default that is in range itself. -/
theorem fieldReads_default {read : Value F -> Except String α} {range : α -> Prop}
    (ranges : Ranges bound read range) {default value : α} (inside : range default) :
    FieldReads bound (fun tree => readValue (.ok default) read tree = .ok value) ↔
      range value := by
  rw [fieldReads_iff ranges]
  constructor
  · rintro (same | inside)
    · exact Except.ok.inj same ▸ inside
    · exact inside
  · exact Or.inr

/-- A required field. -/
theorem fieldReads_required {read : Value F -> Except String α} {range : α -> Prop}
    (ranges : Ranges bound read range) {value : α} :
    FieldReads bound (fun tree => exists sub, tree = some sub ∧ read sub = .ok value) ↔
      range value := by
  rw [← ranges value]
  constructor
  · rintro ⟨tree, documents, sub, rfl, reads⟩
    exact ⟨sub, documents sub rfl, reads⟩
  · rintro ⟨tree, document, reads⟩
    exact ⟨some tree, (fun _ same => Option.some.inj same ▸ document), tree, rfl, reads⟩

/-- A field for an optional value. -/
theorem fieldReads_optional {read : Value F -> Except String α} {range : α -> Prop}
    (ranges : Ranges bound read range) {value : Option α} :
    FieldReads bound
        (fun tree => readValue (.ok none) (fun tree => (read tree).map some) tree = .ok value) ↔
      forall item, value = some item -> range item := by
  have some_ranges : Ranges bound (fun tree => (read tree).map some)
      (fun value => exists item, value = some item ∧ range item) := by
    intro value
    constructor
    · rintro ⟨tree, document, reads⟩
      rcases map_eq_ok.mp reads with ⟨item, own, rfl⟩
      exact ⟨item, rfl, (ranges item).mp ⟨tree, document, own⟩⟩
    · rintro ⟨item, rfl, inside⟩
      rcases (ranges item).mpr inside with ⟨tree, document, reads⟩
      exact ⟨tree, document, map_eq_ok.mpr ⟨item, reads, rfl⟩⟩
  rw [fieldReads_iff some_ranges]
  cases value with
  | none => exact iff_of_true (Or.inl rfl) (fun _ none => by cases none)
  | some item => simp

theorem document_of_lookup {fields : List (String × Value F)}
    (document : Document bound (.table fields)) {name : String} {item : Value F}
    (found : fields.lookup name = some item) : Document bound item := by
  cases document with
  | table _ all =>
      rcases List.lookup_eq_some_iff.mp found with ⟨before, after, rfl, -⟩
      exact all name item (List.mem_append_right _ List.mem_cons_self)

/-- What is found for a field of a struct is a part of the document. -/
theorem document_of_find {tree : Value F} (document : Document bound tree) {struct : String}
    {names : List String} {members : Members F} (found : tree.members struct names = some members)
    {name : String} {item : Value F} (present : members.find name = some item) :
    Document bound item := by
  cases document with
  | table distinct all =>
      cases found
      exact document_of_lookup (.table distinct all) present
  | array all =>
      cases found
      exact all item (List.mem_of_getElem? present)
  | _ => cases found

theorem lookup_eq_none_of_notMem {fields : List (String × Value F)} {name : String}
    (absent : name ∉ fields.map Prod.fst) : fields.lookup name = none := by
  rw [List.lookup_eq_none_iff]
  rintro entry member
  rw [bne_iff_ne]
  rintro rfl
  exact absent (List.mem_map_of_mem member)

/-- A table with no other keys than those of the fields. -/
theorem exists_table_of_fieldReads {fields : List (String × (Option (Value F) -> Prop))}
    (distinct : (fields.map Prod.fst).Nodup)
    (reads : forall field, field ∈ fields -> FieldReads bound field.2) :
    exists table, Document bound (.table table) ∧ table.map Prod.fst ⊆ fields.map Prod.fst ∧
      forall field, field ∈ fields -> field.2 (table.lookup field.1) := by
  induction fields with
  | nil =>
      exact ⟨[], .table List.nodup_nil (fun _ _ member => absurd member List.not_mem_nil),
        List.Subset.refl _, fun _ member => absurd member List.not_mem_nil⟩
  | cons field rest ih =>
      rw [List.map_cons, List.nodup_cons] at distinct
      rw [List.forall_mem_cons] at reads
      rcases reads with ⟨⟨tree, documents, accepted⟩, later⟩
      rcases ih distinct.2 later with ⟨table, document, keys, others⟩
      have absent : field.1 ∉ table.map Prod.fst := fun member => distinct.1 (keys member)
      cases tree with
      | none =>
          refine ⟨table, document, fun key member => List.mem_cons_of_mem _ (keys member),
            List.forall_mem_cons.mpr ⟨?_, others⟩⟩
          rw [lookup_eq_none_of_notMem absent]
          exact accepted
      | some item =>
          refine ⟨(field.1, item) :: table, ?_, List.cons_subset_cons _ keys,
            List.forall_mem_cons.mpr ⟨?_, fun other member => ?_⟩⟩
          · cases document with
            | table distinct all =>
                refine .table (List.nodup_cons.mpr ⟨absent, distinct⟩) ?_
                intro name entry member
                rcases List.mem_cons.mp member with same | member
                · cases same
                  exact documents item rfl
                · exact all name entry member
          · rw [List.lookup_cons, beq_self_eq_true]
            exact accepted
          · have different : other.1 ≠ field.1 := fun same =>
              distinct.1 (same ▸ List.mem_map_of_mem member)
            rw [List.lookup_cons, beq_false_of_ne different]
            exact others other member

/-- What the fields of a struct accept in a document is there for them to read. -/
theorem fieldReads_of_members {tree : Value F} (document : Document bound tree) {struct : String}
    {names : List String} {members : Members F} (found : tree.members struct names = some members)
    {fields : List (String × (Option (Value F) -> Prop))}
    (accepts : forall field, field ∈ fields -> field.2 (members.find field.1)) :
    forall field, field ∈ fields -> FieldReads bound field.2 := fun field member =>
  ⟨members.find field.1, fun _ present => document_of_find document found present,
    accepts field member⟩

section Structs

variable {read : Value F -> Except String α} (struct : String) (names : List String)

/-- Fields are read independently of each other: there is a table that a struct
is read from just if there is something to read for each of its fields. -/
theorem exists_table_iff (fields : List (String × (Option (Value F) -> Prop))) {value : α}
    (distinct : (fields.map Prod.fst).Nodup)
    (reads : forall tree, read tree = .ok value ↔
      exists members, tree.members struct names = some members ∧
        forall field, field ∈ fields -> field.2 (members.find field.1)) :
    (exists table, Document bound (.table table) ∧ read (.table table) = .ok value) ↔
      forall field, field ∈ fields -> FieldReads bound field.2 := by
  constructor
  · rintro ⟨table, document, succeeds⟩
    rcases (reads _).mp succeeds with ⟨members, found, accepts⟩
    exact fieldReads_of_members document found accepts
  · intro each
    rcases exists_table_of_fieldReads distinct each with ⟨table, document, -, accepted⟩
    exact ⟨table, document, (reads _).mpr ⟨_, members_table table, accepted⟩⟩

/-- The range of a struct, from what there is to read for each field.  Nothing
more is read from sequences. -/
theorem ranges_struct {range : α -> Prop}
    (fields : α -> List (String × (Option (Value F) -> Prop)))
    (distinct : forall value, ((fields value).map Prod.fst).Nodup)
    (reads : forall value tree, read tree = .ok value ↔
      exists members, tree.members struct names = some members ∧
        forall field, field ∈ fields value -> field.2 (members.find field.1))
    (ranges : forall value, (forall field, field ∈ fields value ->
      FieldReads bound field.2) ↔ range value) :
    Ranges bound read range := by
  intro value
  rw [← ranges value]
  constructor
  · rintro ⟨tree, document, succeeds⟩
    rcases (reads value tree).mp succeeds with ⟨members, found, accepts⟩
    exact fieldReads_of_members document found accepts
  · intro each
    rcases (exists_table_iff struct names _ (distinct value) (reads value)).mpr each with
      ⟨table, document, succeeds⟩
    exact ⟨.table table, document, succeeds⟩

end Structs

/-! ## Items and entries -/

/-- A sequence is in range just if each of its items is. -/
theorem exists_items_iff {read : Value F -> Except String α} {range : α -> Prop}
    (ranges : Ranges bound read range) {items : List α} :
    (exists trees, (forall tree, tree ∈ trees -> Document bound tree) ∧
      readItems read trees = .ok items) ↔ forall item, item ∈ items -> range item := by
  induction items with
  | nil =>
      exact ⟨fun _ _ member => absurd member List.not_mem_nil,
        fun _ => ⟨[], fun _ member => absurd member List.not_mem_nil, rfl⟩⟩
  | cons item rest ih =>
      rw [List.forall_mem_cons, ← ih, ← ranges item]
      constructor
      · rintro ⟨trees, documents, reads⟩
        cases trees with
        | nil => cases reads
        | cons tree trees =>
            rcases bind_eq_ok.mp reads with ⟨first, head, others⟩
            rcases bind_eq_ok.mp others with ⟨later, tail, shape⟩
            cases shape
            exact ⟨⟨tree, documents tree List.mem_cons_self, head⟩, trees,
              fun tree member => documents tree (List.mem_cons_of_mem _ member), tail⟩
      · rintro ⟨⟨tree, document, head⟩, trees, documents, tail⟩
        refine ⟨tree :: trees, List.forall_mem_cons.mpr ⟨document, documents⟩, ?_⟩
        exact bind_eq_ok.mpr ⟨item, head, bind_eq_ok.mpr ⟨rest, tail, rfl⟩⟩

section Entries

variable {Key : Type} {keyName : Key -> String} {readKey : String -> Except String Key}
variable {read : Value F -> Except String α} {range : α -> Prop}

/-- What is read from a map has the keys of the map, under their names. -/
theorem names_of_readEntries (keys : forall name key, readKey name = .ok key ↔ name = keyName key)
    {fields : List (String × Value F)} {entries : List (Key × α)}
    (reads : readEntries readKey read fields = .ok entries) :
    fields.map Prod.fst = (entries.map Prod.fst).map keyName := by
  induction fields generalizing entries with
  | nil =>
      cases reads
      rfl
  | cons field rest ih =>
      rcases bind_eq_ok.mp reads with ⟨key, named, reads⟩
      rcases bind_eq_ok.mp reads with ⟨item, -, reads⟩
      rcases bind_eq_ok.mp reads with ⟨others, tail, shape⟩
      cases shape
      rw [List.map_cons, List.map_cons, List.map_cons, ih tail, (keys field.1 key).mp named]

theorem exists_entries (keys : forall name key, readKey name = .ok key ↔ name = keyName key)
    (ranges : Ranges bound read range) {entries : List (Key × α)} :
    (exists fields, (forall name item, (name, item) ∈ fields -> Document bound item) ∧
      readEntries readKey read fields = .ok entries) ↔
      forall key item, (key, item) ∈ entries -> range item := by
  induction entries with
  | nil =>
      exact ⟨fun _ _ _ member => absurd member List.not_mem_nil,
        fun _ => ⟨[], fun _ _ member => absurd member List.not_mem_nil, rfl⟩⟩
  | cons entry rest ih =>
      rcases entry with ⟨key, item⟩
      constructor
      · rintro ⟨fields, documents, reads⟩ other item' member
        cases fields with
        | nil => cases reads
        | cons field fields =>
            rcases bind_eq_ok.mp reads with ⟨first, -, reads⟩
            rcases bind_eq_ok.mp reads with ⟨head, own, reads⟩
            rcases bind_eq_ok.mp reads with ⟨later, tail, shape⟩
            cases shape
            rcases List.mem_cons.mp member with same | member
            · cases same
              exact (ranges _).mp ⟨field.2, documents field.1 field.2 List.mem_cons_self, own⟩
            · exact ih.mp ⟨fields, fun name tree member =>
                documents name tree (List.mem_cons_of_mem _ member), tail⟩ other item' member
      · intro inside
        rcases (ranges item).mpr (inside key item List.mem_cons_self) with ⟨tree, document, own⟩
        rcases ih.mpr (fun other item member =>
          inside other item (List.mem_cons_of_mem _ member)) with ⟨fields, documents, tail⟩
        refine ⟨(keyName key, tree) :: fields, fun name tree' member => ?_, ?_⟩
        · rcases List.mem_cons.mp member with same | member
          · cases same
            exact document
          · exact documents name tree' member
        · exact bind_eq_ok.mpr ⟨key, (keys _ key).mpr rfl,
            bind_eq_ok.mpr ⟨item, own, bind_eq_ok.mpr ⟨rest, tail, rfl⟩⟩⟩

/-- A map is in range just if its keys are distinct and its items are in range. -/
theorem exists_entries_iff (injective : Function.Injective keyName)
    (keys : forall name key, readKey name = .ok key ↔ name = keyName key)
    (ranges : Ranges bound read range) {entries : List (Key × α)} :
    (exists fields, Document bound (.table fields) ∧
      readEntries readKey read fields = .ok entries) ↔
      (entries.map Prod.fst).Nodup ∧ forall key item, (key, item) ∈ entries -> range item := by
  rw [← exists_entries keys ranges]
  constructor
  · rintro ⟨fields, document, reads⟩
    cases document with
    | table distinct all =>
        rw [names_of_readEntries keys reads] at distinct
        exact ⟨distinct.of_map _, fields, all, reads⟩
  · rintro ⟨distinct, fields, documents, reads⟩
    refine ⟨fields, .table ?_ documents, reads⟩
    rw [names_of_readEntries keys reads]
    exact distinct.map injective

end Entries

end Serde
