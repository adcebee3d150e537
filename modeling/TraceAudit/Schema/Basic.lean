import TraceAudit.Json.Printer
import TraceAudit.Text.Split

/-!
# Schemas for JSON values

A `Schema` is a constraint on JSON values. Every constructor is one keyword, which constrains
values of one type and lets all others pass; `Schema.all` joins several.

* `Schema.findings` lists what is wrong with a value, in the order of the keywords, and inside a
  keyword in the order of the members or items;
* `Schema.accepts` holds when there is nothing wrong;
* `Finding` is a fault with the place and the value it is about, and `Finding.message` words it.
-/

namespace TraceAudit

/-- The types of JSON values that a schema can name. -/
inductive JsonType where
  | array
  | boolean
  | integer
  | null
  | number
  | object
  | string
deriving DecidableEq, Repr

/-- A value that a schema lists. -/
inductive Literal where
  | int (value : Int)
  | str (value : String)
deriving DecidableEq, Repr

/-- A pattern that texts have to match from end to end. -/
inductive Pattern where
  /-- One digit or more. -/
  | digits
  /-- One digit or more, possibly after a minus sign. -/
  | signedDigits
deriving DecidableEq, Repr

/-- A constraint on JSON values. -/
inductive Schema where
  /-- The value has one of the types. -/
  | type (allowed : List JsonType)
  /-- The value is this text. -/
  | const (text : String)
  /-- The value is one of the literals. -/
  | enum (options : List Literal)
  /-- A number is at least `bound`. -/
  | minimum (bound : Int)
  /-- A number is at most `bound`. -/
  | maximum (bound : Int)
  /-- A text is not empty. -/
  | nonEmpty
  /-- An array has at least `count` items. -/
  | minItems (count : Nat)
  /-- An array has at most `count` items. -/
  | maxItems (count : Nat)
  /-- An object has these members. -/
  | required (keys : List String)
  /-- A text matches the pattern. -/
  | pattern (form : Pattern)
  /-- Members of an object, where present, satisfy a schema each. -/
  | properties (schemas : List (String × Schema))
  /-- All members of an object satisfy the schema. -/
  | members (schema : Schema)
  /-- The keys of an object match the pattern. -/
  | keys (form : Pattern)
  /-- All items of an array satisfy the schema. -/
  | items (schema : Schema)
  /-- The first items of an array, where present, satisfy a schema each. -/
  | leading (schemas : List Schema)
  /-- The value satisfies all schemas. -/
  | all (schemas : List Schema)
  /-- A value that satisfies the condition satisfies the second schema, any other the third. -/
  | branch (condition yes no : Schema)
deriving Inhabited

/-! ## Places in a value -/

/-- One step into a value: to a member or to an item. -/
inductive Segment where
  | key (name : String)
  | index (position : Nat)
deriving DecidableEq, Repr

/-- A place in a value, from the outside in. -/
abbrev Pointer := List Segment

def escapeKey (key : List Char) : List Char :=
  key.flatMap fun c => if c = '~' then ['~', '0'] else if c = '/' then ['~', '1'] else [c]

def Segment.text : Segment → List Char
  | .key name => escapeKey name.toList
  | .index position => (toString position).toList

def Pointer.render (p : Pointer) : String :=
  String.ofList (p.flatMap fun s => '/' :: s.text)

/-! ## Faults -/

/-- Why a value does not satisfy a keyword. -/
inductive Fault where
  | wrongType (allowed : List JsonType)
  | notConst (expected : String)
  | notListed (options : List Literal)
  | belowMinimum (bound : Int)
  | aboveMaximum (bound : Int)
  | emptyText
  | fewItems (count : Nat)
  | manyItems (count : Nat)
  | missing (key : String)
  | mismatch (form : Pattern)
deriving DecidableEq, Repr, Inhabited

/-- A fault, the place where it is found and the value it is about. -/
structure Finding where
  place : Pointer
  value : Json
  fault : Fault
deriving Inhabited

namespace JsonType

def name : JsonType → String
  | .array => "array"
  | .boolean => "boolean"
  | .integer => "integer"
  | .null => "null"
  | .number => "number"
  | .object => "object"
  | .string => "string"

/-- The value has the type; a double without fraction counts as an integer. -/
def admits : JsonType → Json → Bool
  | .array, .arr _ => true
  | .boolean, .bool _ => true
  | .integer, .num n => n.isIntegral
  | .null, .null => true
  | .number, .num _ => true
  | .object, .obj _ => true
  | .string, .str _ => true
  | _, _ => false

end JsonType

namespace Literal

def text : Literal → String
  | .int i => toString i
  | .str s => String.ofList (Json.quote s)

/-- The value equals the literal; numbers are compared by value. -/
def equals : Literal → Json → Bool
  | .int i, .num n => n.cmpInt i == .eq
  | .str s, .str t => s == t
  | _, _ => false

end Literal

namespace Pattern

def text : Pattern → String
  | .digits => "^[0-9]+$"
  | .signedDigits => "^-?[0-9]+$"

def accepts (form : Pattern) (text : List Char) : Bool :=
  let digits : List Char :=
    match form, text with
    | .signedDigits, '-' :: rest => rest
    | _, text => text
  !digits.isEmpty && digits.all Text.isDigit

end Pattern

namespace Finding

/-- Up to three options are all listed; of more, the first two and the number of the others. -/
def listOptions : List Literal → String
  | [] => ""
  | [a] => a.text
  | [a, b] => s!"{a.text} or {b.text}"
  | [a, b, c] => s!"{a.text}, {b.text} or {c.text}"
  | a :: b :: rest => s!"{a.text}, {b.text} or {rest.length} other candidates"

def listTypes (allowed : List JsonType) : String :=
  Text.join ", " (allowed.map fun t => "\"" ++ t.name ++ "\"")

def message (f : Finding) : String :=
  let value := f.value.compact
  match f.fault with
  | .wrongType [t] => s!"{value} is not of type {listTypes [t]}"
  | .wrongType allowed => s!"{value} is not of types {listTypes allowed}"
  | .notConst expected => s!"{(Literal.str expected).text} was expected"
  | .notListed options => s!"{value} is not one of {listOptions options}"
  | .belowMinimum bound => s!"{value} is less than the minimum of {bound}"
  | .aboveMaximum bound => s!"{value} is greater than the maximum of {bound}"
  | .emptyText => s!"{value} is shorter than 1 character"
  | .fewItems count => s!"{value} has less than {count} items"
  | .manyItems count => s!"{value} has more than {count} items"
  | .missing key => s!"{(Literal.str key).text} is a required property"
  | .mismatch form => value ++ " does not match \"" ++ form.text ++ "\""

end Finding

/-! ## Checking -/

namespace Schema

def ensure (holds : Bool) (place : Pointer) (value : Json) (fault : Fault) : List Finding :=
  if holds then [] else [⟨place, value, fault⟩]

mutual
/-- What is wrong with `value`, which stands at `place`. -/
def findings (schema : Schema) (place : Pointer) (value : Json) : List Finding :=
  match schema with
  | .type allowed => ensure (allowed.any (·.admits value)) place value (.wrongType allowed)
  | .const text => ensure ((Literal.str text).equals value) place value (.notConst text)
  | .enum options => ensure (options.any (·.equals value)) place value (.notListed options)
  | .minimum bound =>
    match value with
    | .num n => ensure (n.cmpInt bound != .lt) place value (.belowMinimum bound)
    | _ => []
  | .maximum bound =>
    match value with
    | .num n => ensure (n.cmpInt bound != .gt) place value (.aboveMaximum bound)
    | _ => []
  | .nonEmpty =>
    match value with
    | .str s => ensure (s != "") place value .emptyText
    | _ => []
  | .minItems count =>
    match value with
    | .arr vs => ensure (count ≤ vs.length) place value (.fewItems count)
    | _ => []
  | .maxItems count =>
    match value with
    | .arr vs => ensure (vs.length ≤ count) place value (.manyItems count)
    | _ => []
  | .required names =>
    match value with
    | .obj _ => names.flatMap fun k => ensure (value.get? k).isSome place value (.missing k)
    | _ => []
  | .pattern form =>
    match value with
    | .str s => ensure (form.accepts s.toList) place value (.mismatch form)
    | _ => []
  | .properties schemas => propertyFindings schemas place value
  | .members schema =>
    match value with
    | .obj ms => ms.flatMap fun (k, v) => findings schema (place ++ [.key k]) v
    | _ => []
  | .keys form =>
    match value with
    | .obj ms => ms.flatMap fun (k, _) =>
        ensure (form.accepts k.toList) place (.str k) (.mismatch form)
    | _ => []
  | .items schema =>
    match value with
    | .arr vs => vs.zipIdx.flatMap fun (v, i) => findings schema (place ++ [.index i]) v
    | _ => []
  | .leading schemas =>
    match value with
    | .arr vs => leadingFindings schemas place 0 vs
    | _ => []
  | .all schemas => allFindings schemas place value
  | .branch condition yes no =>
    if (findings condition place value).isEmpty then findings yes place value
    else findings no place value

/-- What is wrong with the members that the schemas name. -/
def propertyFindings (schemas : List (String × Schema)) (place : Pointer) (value : Json) :
    List Finding :=
  match schemas with
  | [] => []
  | (key, schema) :: rest =>
    (match value.get? key with
      | some v => findings schema (place ++ [.key key]) v
      | none => []) ++ propertyFindings rest place value

/-- What is wrong with the items from position `i` on, for as long as there are schemas. -/
def leadingFindings (schemas : List Schema) (place : Pointer) (i : Nat) (values : List Json) :
    List Finding :=
  match schemas, values with
  | schema :: rest, v :: vs =>
    findings schema (place ++ [.index i]) v ++ leadingFindings rest place (i + 1) vs
  | _, _ => []

/-- What is wrong with the value by each of the schemas. -/
def allFindings (schemas : List Schema) (place : Pointer) (value : Json) : List Finding :=
  match schemas with
  | [] => []
  | schema :: rest => findings schema place value ++ allFindings rest place value
end

def accepts (schema : Schema) (value : Json) : Bool := (schema.findings [] value).isEmpty

def anything : Schema := .all []

end Schema
end TraceAudit
