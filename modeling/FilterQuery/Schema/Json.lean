/-
FilterQuery.Schema.Json — schemas as JSON.

A schema is an object with one member for each field, and a field is an
object with a `type`, an optional flag `nullable`, and what belongs to
the type: an optional `format` for dates, a list `variants` for
enumerations. Members that do not belong to the type are ignored.

The text is taken from left to right. A flag `nullable` is looked at as
soon as it has been read, the rest of a field when its object is
complete, so of two mistakes the one that shows first is reported. Only
when the whole text has the right shape are the fields validated.
-/
import FilterQuery.Json.Basic
import FilterQuery.Json.Reading
import FilterQuery.Schema.Basic

namespace FilterQuery

/-- Why a text is no schema. -/
inductive JsonError where
  /-- It is not JSON. -/
  | notJson (fault : Json.Fault)
  /-- It is JSON of the wrong shape. -/
  | wrongShape
deriving DecidableEq, Repr

/-- Why a schema cannot be used. -/
inductive SchemaError where
  | json (e : JsonError)
  | field (e : FieldError)
deriving DecidableEq, Repr

/-- What is wrong with a text that is no schema. These are words of this library's
own: in the program they are those of the JSON reader it is built with, which
differ from one of its versions to the next. -/
def JsonError.text : JsonError → String
  | notJson .truncated => "the text ends too early"
  | notJson .malformed => "the text is not JSON"
  | wrongShape => "the JSON does not describe a schema"

/-- The message of the error. -/
def SchemaError.message : SchemaError → String
  | json e => "invalid schema JSON: " ++ e.text
  | field e => e.message

/-! ## Writing -/

/-- A field as JSON. -/
def Field.toJson (field : Field) : Json :=
  let nullable := ("nullable", Json.boolean field.nullable)
  let type := ("type", Json.string field.type.name)
  match field.type with
  | .date (some format) => .object [("format", .string format), nullable, type]
  | .date none => .object [("format", .null), nullable, type]
  | .enum variants => .object [nullable, type, ("variants", .array (variants.map .string))]
  | _ => .object [nullable, type]

/-- A schema as JSON. -/
def Schema.toJson (s : Schema) : Json :=
  .object (s.fields.map fun (name, field) => (name, field.toJson))

/-! ## Reading -/

namespace Json

/-- The one member of a name, if there is one; two are a mistake. -/
def onlyMember? (key : String) (members : List (String × Reading)) :
    Except JsonError (Option Reading) :=
  match members.filter (·.1 == key) with
  | [] => .ok none
  | [(_, r)] => .ok (some r)
  | _ => .error .wrongShape

/-- The name of a type, or its place in the list of types. -/
def typeName? : Reading → Option String
  | .string s => some s
  | .integer n =>
    if n = 0 then some "string"
    else if n = 1 then some "number"
    else if n = 2 then some "boolean"
    else if n = 3 then some "date"
    else if n = 4 then some "enum"
    else none
  | _ => none

/-- The format of a date field, which may be absent or null. -/
def dateFormat (members : List (String × Reading)) : Except JsonError (Option String) := do
  match ← onlyMember? "format" members with
  | none => .ok none
  | some .null => .ok none
  | some (.string s) => .ok (some s)
  | some _ => .error .wrongShape

/-- A list of strings. -/
def strings? (items : List Reading) : Option (List String) :=
  items.mapM fun
    | .string s => some s
    | _ => none

/-- The list of an enumeration. -/
def enumVariants (members : List (String × Reading)) : Except JsonError (List String) := do
  match ← onlyMember? "variants" members with
  | some (.array items) =>
    match strings? items with
    | some vs => .ok vs
    | none => .error .wrongShape
  | _ => .error .wrongShape

/-- The type that the members of a field describe. -/
def fieldType (members : List (String × Reading)) : Except JsonError FieldType := do
  match (← onlyMember? "type" members).bind typeName? with
  | some "string" => .ok .string
  | some "number" => .ok .number
  | some "boolean" => .ok .boolean
  | some "date" => .ok (.date (← dateFormat members))
  | some "enum" => .ok (.enum (← enumVariants members))
  | _ => .error .wrongShape

/-- Look at the members of a field in the order of the text: the flag
`nullable` is taken out, and any other value only has to be JSON. -/
def nullableFlag (flag : Option Bool) : List (String × Reading) → Except JsonError (Option Bool)
  | [] => .ok flag
  | (key, value) :: rest =>
    if key = "nullable" then
      match flag, value with
      | some _, _ => .error .wrongShape
      | none, .boolean b => nullableFlag (some b) rest
      | none, .fault f => .error (.notJson f)
      | none, _ => .error .wrongShape
    else
      match value.fault? with
      | some f => .error (.notJson f)
      | none => nullableFlag flag rest

/-- The field that a value describes. -/
def field : Reading → Except JsonError Field
  | .object members broken => do
    let flag ← nullableFlag none members
    match broken with
    | some f => .error (.notJson f)
    | none =>
      let type ← fieldType members
      .ok { type, nullable := flag.getD false }
  | .fault f => .error (.notJson f)
  | _ => .error .wrongShape

/-- Add the fields that some members describe, one after the other. -/
def addFields (s : Schema) : List (String × Reading) → Except JsonError Schema
  | [] => .ok s
  | (name, value) :: rest => do
    let f ← field value
    addFields (s.insert name f) rest

/-- The schema that a value describes, its fields unchecked. -/
def schema : Reading → Except JsonError Schema
  | .object members broken => do
    let s ← addFields .empty members
    match broken with
    | some f => .error (.notJson f)
    | none => .ok s
  | .fault f => .error (.notJson f)
  | _ => .error .wrongShape

end Json

namespace Schema

/-- A schema whose fields have been checked. -/
def checked (s : Schema) : Except SchemaError Schema :=
  match s.validate with
  | .error e => .error (.field e)
  | .ok () => .ok s

/-- The schema that a JSON value describes. -/
def ofReading (r : Json.Reading) : Except SchemaError Schema :=
  match Json.schema r with
  | .error e => .error (.json e)
  | .ok s => s.checked

/-- How many brackets may be nested in a schema text. -/
def maxBrackets : Nat := 127

/-- The schema that a JSON text describes. -/
def ofText (text : String) : Except SchemaError Schema :=
  let document := Json.read maxBrackets text
  match Json.schema document.value with
  | .error e => .error (.json e)
  | .ok s => if document.trailing then .error (.json (.notJson .malformed)) else s.checked

end Schema

end FilterQuery
