/-
FilterQuery.Schema.Basic — the fields that queries may name.

A schema maps field names to descriptions. It is kept as a list in the
order of the names, compared character by character by code point, with
no name twice; the order is part of the type, so two schemas with the
same fields are the same schema.

A schema may hold any name. `validate` finds the first field, in the
order of the names, that no query could use: its name is not a name of
the language, or is a reserved word, or it is an enumeration with nothing
in it.
-/
import FilterQuery.Operator
import FilterQuery.Text.Character

namespace FilterQuery

/-- The declared type of a field. -/
inductive FieldType where
  | string
  /-- Whole and decimal numbers alike. -/
  | number
  | boolean
  /-- Dates and date-times, with the format in which they may be written
  besides the ISO forms. -/
  | date (format : Option String)
  /-- Strings out of a fixed list. -/
  | enum (variants : List String)
deriving DecidableEq, Repr

namespace FieldType

/-- The word for the type. -/
def name : FieldType → String
  | string => "string"
  | number => "number"
  | boolean => "boolean"
  | date _ => "date"
  | enum _ => "enum"

/-- What a literal for a field of this type has to be, in the words of
messages. -/
def expectation : FieldType → String
  | string => "a string"
  | number => "a number"
  | boolean => "a boolean"
  | date (some format) => "a date string in format '" ++ format ++ "' or ISO 8601"
  | date none => "an ISO 8601 date string"
  | enum variants =>
    "one of " ++ String.intercalate ", " (variants.map fun v => "'" ++ v ++ "'")

end FieldType

/-- The description of a field. -/
structure Field where
  type : FieldType
  nullable : Bool := false
deriving DecidableEq, Repr

/-- Fields by name, in the order of the names. -/
structure Schema where
  fields : List (String × Field)
  ordered : fields.Pairwise fun a b => a.1 < b.1

namespace Schema

instance : Repr Schema where
  reprPrec s n := reprPrec s.fields n

instance : DecidableEq Schema := fun a b =>
  if h : a.fields = b.fields then
    isTrue (by obtain ⟨fa, _⟩ := a; obtain ⟨fb, _⟩ := b; subst h; rfl)
  else isFalse fun e => h (congrArg fields e)

/-- The schema with no fields. -/
def empty : Schema := ⟨[], .nil⟩

/-- Put a field into a list that is in order, in the place of a field of the
same name if there is one. -/
def insertInto (name : String) (field : Field) :
    List (String × Field) → List (String × Field)
  | [] => [(name, field)]
  | (n, f) :: rest =>
    if name < n then (name, field) :: (n, f) :: rest
    else if name = n then (name, field) :: rest
    else (n, f) :: insertInto name field rest

theorem mem_insertInto {name : String} {field : Field} {fs : List (String × Field)}
    {x : String × Field} (h : x ∈ insertInto name field fs) : x = (name, field) ∨ x ∈ fs := by
  induction fs with
  | nil => simpa [insertInto] using h
  | cons a rest ih =>
    obtain ⟨n, f⟩ := a
    unfold insertInto at h
    split at h
    · simpa using h
    · split at h
      · rcases List.mem_cons.mp h with h | h
        · exact .inl h
        · exact .inr (List.mem_cons_of_mem _ h)
      · rcases List.mem_cons.mp h with h | h
        · exact .inr (h ▸ List.mem_cons_self)
        · rcases ih h with h | h
          · exact .inl h
          · exact .inr (List.mem_cons_of_mem _ h)

/-- Of two different names that are not in one order, the other order holds. -/
theorem lt_of_not_lt_of_ne {a b : String} (h : ¬a < b) (hne : a ≠ b) : b < a :=
  Classical.byContradiction fun h' =>
    hne (String.le_antisymm (String.not_lt.mp h') (String.not_lt.mp h))

theorem ordered_insertInto (name : String) (field : Field) {fs : List (String × Field)}
    (h : fs.Pairwise fun a b => a.1 < b.1) :
    (insertInto name field fs).Pairwise fun a b => a.1 < b.1 := by
  induction fs with
  | nil => simp [insertInto]
  | cons a rest ih =>
    obtain ⟨n, f⟩ := a
    obtain ⟨hn, hrest⟩ := List.pairwise_cons.mp h
    unfold insertInto
    split
    · next hlt =>
      refine List.pairwise_cons.mpr ⟨fun x hx => ?_, h⟩
      rcases List.mem_cons.mp hx with rfl | hx
      · exact hlt
      · exact String.lt_trans hlt (hn x hx)
    · next hnlt =>
      split
      · next heq =>
        subst heq
        exact List.pairwise_cons.mpr ⟨hn, hrest⟩
      · next hne =>
        refine List.pairwise_cons.mpr ⟨fun x hx => ?_, ih hrest⟩
        rcases mem_insertInto hx with rfl | hx
        · exact lt_of_not_lt_of_ne hnlt hne
        · exact hn x hx

/-- Add a field, or replace the one of the same name. -/
def insert (s : Schema) (name : String) (field : Field) : Schema :=
  ⟨insertInto name field s.fields, ordered_insertInto name field s.ordered⟩

/-- The description of a field. -/
def get? (s : Schema) (name : String) : Option Field := s.fields.lookup name

/-- How many fields there are. -/
def size (s : Schema) : Nat := s.fields.length

/-- Whether there is no field. -/
def isEmpty (s : Schema) : Bool := s.fields.isEmpty

end Schema

/-- A field that no query could use. -/
inductive FieldError where
  | invalidName (name : String)
  | reservedName (name : String)
  | emptyEnum (name : String)
deriving DecidableEq, Repr

/-- The message of the error. -/
def FieldError.message : FieldError → String
  | invalidName name => "field name '" ++ name ++ "' is not a valid identifier"
  | reservedName name => "field name '" ++ name ++ "' is a reserved word"
  | emptyEnum name => "enum field '" ++ name ++ "' declares no variants"

/-- Why no query could use a field. -/
def Field.error? (name : String) (field : Field) : Option FieldError :=
  if !isName name then some (.invalidName name)
  else if isReserved name then some (.reservedName name)
  else if field.type = .enum [] then some (.emptyEnum name)
  else none

/-- The first field that no query could use. -/
def Schema.validate (s : Schema) : Except FieldError Unit :=
  match s.fields.findSome? fun (name, field) => field.error? name with
  | some e => .error e
  | none => .ok ()

end FilterQuery
