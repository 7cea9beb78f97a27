import Fusecraft.Library.Decimal
import Fusecraft.Library.Lines

/-!
# Flat JSON objects on one line

The compact JSON text of a list of members whose values are integers or names
that need no escapes.  Each piece of the text ends where a byte comes that it
cannot contain, so the text determines the members, and it has no newline in it.
-/

namespace Json

open Lines

/-- The value of a member. -/
inductive Scalar where
  | number (value : Int)
  | name (bytes : List UInt8)
  deriving DecidableEq, Repr

/-- The bytes of `"`, `,`, `:`, `{`, `}`, `-` and the newline. -/
def quote : UInt8 := 34
def comma : UInt8 := 44
def colon : UInt8 := 58
def opening : UInt8 := 123
def closing : UInt8 := 125
def minus : UInt8 := 45
def newline : UInt8 := 10

/-- A decimal integer. -/
def integer : Int -> List UInt8
  | .ofNat value => Decimal.print value
  | .negSucc value => minus :: Decimal.print (value + 1)

/-- A name between quotes. -/
def quoted (bytes : List UInt8) : List UInt8 := quote :: bytes ++ [quote]

def Scalar.text : Scalar -> List UInt8
  | .number value => integer value
  | .name bytes => quoted bytes

def member (entry : List UInt8 × Scalar) : List UInt8 :=
  quoted entry.1 ++ colon :: entry.2.text

/-- The members that follow another one, up to the closing brace. -/
def following : List (List UInt8 × Scalar) -> List UInt8
  | [] => [closing]
  | entry :: rest => comma :: (member entry ++ following rest)

/-- The text of an object. -/
def object : List (List UInt8 × Scalar) -> List UInt8
  | [] => [opening, closing]
  | entry :: rest => opening :: (member entry ++ following rest)

/-- A byte that stands in a name for itself. -/
def isPlain (b : UInt8) : Bool := 32 ≤ b && b ≠ quote && b ≠ 92

/-- The names that need no escapes. -/
def Plain (bytes : List UInt8) : Prop := forall b, b ∈ bytes -> isPlain b = true

instance (bytes : List UInt8) : Decidable (Plain bytes) :=
  List.decidableBAll (fun b => isPlain b = true) bytes

def Scalar.Plain : Scalar -> Prop
  | .number _ => True
  | .name bytes => Json.Plain bytes

/-! ## Where a piece ends -/

/-- A quoted plain name ends at its second quote. -/
theorem quoted_inj {name name' rest rest' : List UInt8} (plain : Plain name) (plain' : Plain name')
    (same : quoted name ++ rest = quoted name' ++ rest') : name = name' ∧ rest = rest' := by
  have free : forall {name : List UInt8}, Plain name ->
      forall b, b ∈ name -> (b == quote) = false := by
    intro name plain b member
    have here := plain b member
    simp only [isPlain, Bool.and_eq_true, decide_eq_true_eq] at here
    exact beq_false_of_ne here.1.2
  simp only [quoted, List.cons_append, List.append_assoc, List.nil_append, List.cons.injEq,
    true_and] at same
  rcases eq_of_stop same (free plain) (free plain') rfl rfl with ⟨names, -, rests⟩
  exact ⟨names, rests⟩

/-- The bytes of a decimal integer. -/
def isNumeral (b : UInt8) : Bool := Decimal.isDigit b || b == minus

theorem integer_isNumeral (value : Int) : forall b, b ∈ integer value -> isNumeral b = true := by
  intro b inside
  cases value with
  | ofNat value =>
      unfold isNumeral
      rw [Decimal.print_isDigit value b inside, Bool.true_or]
  | negSucc value =>
      rcases List.mem_cons.mp inside with rfl | inside
      · rfl
      · unfold isNumeral
        rw [Decimal.print_isDigit _ b inside, Bool.true_or]

/-- Printing keeps integers apart. -/
theorem integer_injective {value value' : Int} (same : integer value = integer value') :
    value = value' := by
  have sign : forall positive negative : Nat,
      Decimal.print positive ≠ minus :: Decimal.print negative := by
    intro positive negative printed
    have digit := Decimal.print_isDigit positive minus (by rw [printed]; exact List.mem_cons_self)
    cases digit
  cases value with
  | ofNat value =>
      cases value' with
      | ofNat value' => exact congrArg Int.ofNat (Decimal.print_injective same)
      | negSucc value' => exact absurd same (sign _ _)
  | negSucc value =>
      cases value' with
      | ofNat value' => exact absurd same.symm (sign _ _)
      | negSucc value' =>
          have printed := Decimal.print_injective (List.cons.inj same).2
          exact congrArg Int.negSucc (Nat.succ.inj printed)

/-- What follows a value in an object. -/
def endsValue (b : UInt8) : Bool := b == comma || b == closing

theorem text_inj {value value' : Scalar} {rest rest' : List UInt8} {stop stop' : UInt8}
    (plain : value.Plain) (plain' : value'.Plain)
    (ends : endsValue stop = true) (ends' : endsValue stop' = true)
    (same : value.text ++ stop :: rest = value'.text ++ stop' :: rest') :
    value = value' ∧ stop = stop' ∧ rest = rest' := by
  have free : forall (value : Int) (b : UInt8), b ∈ integer value -> endsValue b = false := by
    intro value b inside
    have numeral := integer_isNumeral value b inside
    simp only [endsValue, Bool.or_eq_false_iff, beq_eq_false_iff_ne]
    constructor
    · rintro rfl
      cases numeral
    · rintro rfl
      cases numeral
  have mixed : forall (value : Int) (name rest : List UInt8) (stop : UInt8),
      endsValue stop = true ->
      forall rest', integer value ++ stop :: rest ≠ quoted name ++ rest' := by
    intro value name rest stop ends rest' same
    cases shape : integer value with
    | nil =>
        rw [shape] at same
        cases (List.cons.inj same).1
        cases ends
    | cons b numeral =>
        rw [shape] at same
        have digit := integer_isNumeral value b (by rw [shape]; exact List.mem_cons_self)
        cases (List.cons.inj same).1
        cases digit
  cases value with
  | number value =>
      cases value' with
      | number value' =>
          rcases eq_of_stop same (free value) (free value') ends ends' with ⟨values, stops⟩
          exact ⟨congrArg Scalar.number (integer_injective values), stops⟩
      | name bytes => exact absurd same (mixed value bytes rest stop ends _)
  | name bytes =>
      cases value' with
      | number value' => exact absurd same.symm (mixed value' bytes rest' stop' ends' _)
      | name bytes' =>
          rcases quoted_inj plain plain' same with ⟨names, stops⟩
          exact ⟨congrArg Scalar.name names, List.cons.inj stops⟩

/-! ## Members -/

/-- Members that need no escapes. -/
def PlainEntries (entries : List (List UInt8 × Scalar)) : Prop :=
  forall entry, entry ∈ entries -> Plain entry.1 ∧ entry.2.Plain

theorem member_inj {entry entry' : List UInt8 × Scalar} {rest rest' : List UInt8}
    {stop stop' : UInt8} (plain : Plain entry.1 ∧ entry.2.Plain)
    (plain' : Plain entry'.1 ∧ entry'.2.Plain)
    (ends : endsValue stop = true) (ends' : endsValue stop' = true)
    (same : member entry ++ stop :: rest = member entry' ++ stop' :: rest') :
    entry = entry' ∧ stop = stop' ∧ rest = rest' := by
  simp only [member, List.append_assoc, List.cons_append] at same
  rcases quoted_inj plain.1 plain'.1 same with ⟨names, values⟩
  rcases text_inj plain.2 plain'.2 ends ends' (List.cons.inj values).2 with ⟨texts, stops⟩
  exact ⟨Prod.ext names texts, stops⟩

theorem exists_following (entries : List (List UInt8 × Scalar)) :
    exists stop rest, following entries = stop :: rest ∧ endsValue stop = true := by
  cases entries with
  | nil => exact ⟨closing, [], rfl, rfl⟩
  | cons entry rest => exact ⟨comma, _, rfl, rfl⟩

theorem following_inj {entries entries' : List (List UInt8 × Scalar)} {rest rest' : List UInt8}
    (plain : PlainEntries entries) (plain' : PlainEntries entries')
    (same : following entries ++ rest = following entries' ++ rest') :
    entries = entries' ∧ rest = rest' := by
  induction entries generalizing entries' with
  | nil =>
      cases entries' with
      | nil => exact ⟨rfl, (List.cons.inj same).2⟩
      | cons entry' others' => cases (List.cons.inj same).1
  | cons entry others ih =>
      cases entries' with
      | nil => cases (List.cons.inj same).1
      | cons entry' others' =>
          have same := (List.cons.inj same).2
          rcases exists_following others with ⟨stop, tail, shape, ends⟩
          rcases exists_following others' with ⟨stop', tail', shape', ends'⟩
          change (member entry ++ following others) ++ rest =
            (member entry' ++ following others') ++ rest' at same
          rw [shape, shape', List.append_assoc, List.append_assoc] at same
          rcases member_inj (plain entry List.mem_cons_self) (plain' entry' List.mem_cons_self)
            ends ends' same with ⟨rfl, rfl, tails⟩
          have later : following others ++ rest = following others' ++ rest' := by
            rw [shape, shape']
            exact congrArg (List.cons stop) tails
          rcases ih (fun entry inside => plain entry (List.mem_cons_of_mem _ inside))
            (fun entry inside => plain' entry (List.mem_cons_of_mem _ inside)) later with
            ⟨rfl, rests⟩
          exact ⟨rfl, rests⟩

/-- The text of an object determines its members, whatever follows it. -/
theorem object_inj {entries entries' : List (List UInt8 × Scalar)} {rest rest' : List UInt8}
    (plain : PlainEntries entries) (plain' : PlainEntries entries')
    (same : object entries ++ rest = object entries' ++ rest') :
    entries = entries' ∧ rest = rest' := by
  cases entries with
  | nil =>
      cases entries' with
      | nil => exact ⟨rfl, (List.cons.inj (List.cons.inj same).2).2⟩
      | cons entry' others' => cases (List.cons.inj (List.cons.inj same).2).1
  | cons entry others =>
      cases entries' with
      | nil => cases (List.cons.inj (List.cons.inj same).2).1
      | cons entry' others' =>
          have later :
              following (entry :: others) ++ rest = following (entry' :: others') ++ rest' :=
            congrArg (List.cons comma) (List.cons.inj same).2
          exact following_inj plain plain' later

/-! ## One line -/

theorem newline_notMem_quoted {name : List UInt8} (plain : Plain name) :
    newline ∉ quoted name := by
  intro inside
  simp only [quoted, List.cons_append, List.mem_cons, List.mem_append, List.not_mem_nil,
    or_false] at inside
  rcases inside with head | inside | last
  · cases head
  · cases plain newline inside
  · cases last

theorem newline_notMem_member {entry : List UInt8 × Scalar}
    (plain : Plain entry.1 ∧ entry.2.Plain) : newline ∉ member entry := by
  intro inside
  rw [member, List.mem_append, List.mem_cons] at inside
  rcases inside with inside | middle | inside
  · exact newline_notMem_quoted plain.1 inside
  · cases middle
  · cases value : entry.2 with
    | number value' =>
        rw [value] at inside
        cases integer_isNumeral value' newline inside
    | name bytes =>
        have plain := plain.2
        rw [value] at inside plain
        exact newline_notMem_quoted plain inside

theorem newline_notMem_following {entries : List (List UInt8 × Scalar)}
    (plain : PlainEntries entries) : newline ∉ following entries := by
  induction entries with
  | nil => decide
  | cons entry rest ih =>
      intro inside
      rw [following, List.mem_cons, List.mem_append] at inside
      rcases inside with head | inside | inside
      · cases head
      · exact newline_notMem_member (plain entry List.mem_cons_self) inside
      · exact ih (fun other member => plain other (List.mem_cons_of_mem _ member)) inside

/-- An object has no newline in it. -/
theorem newline_notMem_object {entries : List (List UInt8 × Scalar)}
    (plain : PlainEntries entries) : newline ∉ object entries := by
  cases entries with
  | nil => decide
  | cons entry rest =>
      intro inside
      rcases List.mem_cons.mp inside with head | inside
      · cases head
      · exact newline_notMem_following plain (List.mem_cons_of_mem comma inside)

end Json
