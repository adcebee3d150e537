import TraceAudit.Text.Quoted

/-!
# Reading structures out of JSON values

A value of the wrong form is reported by the first fault met. `ShapeError` lists the faults and
`ShapeError.message` words them. The readers below are the building blocks for structures with
named members, which may also be given as arrays of their members in order:

* `Shape.text`, `Shape.u16`, `Shape.optional`, `Shape.list`, `Shape.pair` read single values;
* `Shape.member` reads a named member, `Shape.takeOr` and `Shape.take` read members by position.
-/

namespace TraceAudit

/-- What a value was expected to be. -/
inductive Expected where
  | text
  | u16
  | sequence
  | pair
  | object (name : String)
deriving DecidableEq, Repr

/-- Why a value has the wrong form. -/
inductive ShapeError where
  | missingMember (name : String)
  | wrongType (found : Json) (expected : Expected)
  | outOfRange (found : Int) (expected : Expected)
  | tooShort (length : Nat) (expected : String)
  | tooLong (length : Nat)
deriving Inhabited

def Expected.name : Expected → String
  | .text => "a string"
  | .u16 => "u16"
  | .sequence => "a sequence"
  | .pair => "a tuple of size 2"
  | .object name => "struct " ++ name

/-- How a value of the wrong type is described. -/
def Json.describe : Json → String
  | .null => "null"
  | .bool true => "boolean `true`"
  | .bool false => "boolean `false`"
  | .num (.int i) => "integer `" ++ toString i ++ "`"
  | .num (.double d) => "floating point `" ++ d.render ++ "`"
  | .str s => "string " ++ Text.quoted s
  | .arr _ => "sequence"
  | .obj _ => "map"

def ShapeError.message : ShapeError → String
  | .missingMember name => "missing field `" ++ name ++ "`"
  | .wrongType found expected =>
    "invalid type: " ++ found.describe ++ ", expected " ++ expected.name
  | .outOfRange found expected =>
    "invalid value: " ++ (Json.int found).describe ++ ", expected " ++ expected.name
  | .tooShort length expected => s!"invalid length {length}, expected {expected}"
  | .tooLong length => s!"invalid length {length}, expected fewer elements in array"

namespace Shape

def text : Json → Except ShapeError String
  | .str s => .ok s
  | other => .error (.wrongType other .text)

def u16 : Json → Except ShapeError Nat
  | .num (.int i) =>
    if 0 ≤ i ∧ i < 65536 then .ok i.toNat else .error (.outOfRange i .u16)
  | other => .error (.wrongType other .u16)

def optional {α : Type} (read : Json → Except ShapeError α) : Json → Except ShapeError (Option α)
  | .null => .ok none
  | other => some <$> read other

def each {α : Type} (read : Json → Except ShapeError α) : List Json → Except ShapeError (List α)
  | [] => .ok []
  | item :: rest => do
    let a ← read item
    let more ← each read rest
    .ok (a :: more)

def list {α : Type} (read : Json → Except ShapeError α) : Json → Except ShapeError (List α)
  | .arr items => each read items
  | other => .error (.wrongType other .sequence)

def pair : Json → Except ShapeError (String × String)
  | .arr items =>
    match items with
    | [] => .error (.tooShort 0 Expected.pair.name)
    | first :: rest => do
      let a ← text first
      match rest with
      | [] => .error (.tooShort 1 Expected.pair.name)
      | second :: rest => do
        let b ← text second
        match rest with
        | [] => .ok (a, b)
        | _ => .error (.tooLong items.length)
  | other => .error (.wrongType other .pair)

/-- The member `key` of an object, when it is present. -/
def member {α : Type} (read : Json → Except ShapeError α) (key : String)
    (members : List (String × Json)) : Except ShapeError (Option α) :=
  match Members.find? key members with
  | none => .ok none
  | some value => some <$> read value

/-- The next element of an array, or `default` when there is none left. -/
def takeOr {α : Type} (read : Json → Except ShapeError α) (default : α) :
    List Json → Except ShapeError (α × List Json)
  | [] => .ok (default, [])
  | item :: rest => do
    let a ← read item
    .ok (a, rest)

/-- The next element of an array, which is number `index` of the structure `expected`. -/
def take {α : Type} (read : Json → Except ShapeError α) (index : Nat) (expected : String) :
    List Json → Except ShapeError (α × List Json)
  | [] => .error (.tooShort index expected)
  | item :: rest => do
    let a ← read item
    .ok (a, rest)

/-- `value`, unless elements of the array `items` are left over. -/
def complete {α : Type} (items rest : List Json) (value : α) : Except ShapeError α :=
  match rest with
  | [] => .ok value
  | _ => .error (.tooLong items.length)

end Shape
end TraceAudit
