import TraceAudit.Json.Tree

/-!
# Reading structures out of JSON texts

A structure is read directly from a text that was taken apart. Members that the structure does not
know are passed over, whatever they hold, while a member that it knows may occur only once. A
structure may also be given as an array of its members in order.

* `JsonTree.text?`, `JsonTree.natural?`, `JsonTree.optional?`, `JsonTree.list?`, `JsonTree.pair?`
  read single values;
* `Fields` are the members of a structure that is being read, given by key or by position, and
  `Fields.get?` looks one up.
-/

namespace TraceAudit

namespace JsonTree

def text? : JsonTree → Option String
  | .string value => value
  | _ => none

def natural? (max : Nat) : JsonTree → Option Nat
  | .number numeral =>
    match numeral.value? with
    | some (.int i) => if 0 ≤ i ∧ i ≤ max then some i.toNat else none
    | _ => none
  | _ => none

def optional? {α : Type} (read : JsonTree → Option α) : JsonTree → Option (Option α)
  | .null => some none
  | tree => (read tree).map some

def list? {α : Type} (read : JsonTree → Option α) : JsonTree → Option (List α)
  | .array items => items.mapM read
  | _ => none

def pair? : JsonTree → Option (String × String)
  | .array [a, b] => do
    let x ← text? a
    let y ← text? b
    some (x, y)
  | _ => none

end JsonTree

/-- The members of a structure that is being read: under keys, or as many of them as an array
gives, in the order of the structure. -/
inductive Fields where
  | keyed (members : List (String × JsonTree))
  | positional (items : List JsonTree)

namespace Fields

/-- The members of an object, whose keys have to be texts, or of an array of at most `count`
items. -/
def ofTree? (count : Nat) : JsonTree → Option Fields
  | .object members => do
    let members ← members.mapM fun (key, value) => key.map (·, value)
    some (.keyed members)
  | .array items => if items.length ≤ count then some (.positional items) else none
  | _ => none

/-- The member of a key and a position, if it is present; nothing when the key is repeated. -/
def get? (fields : Fields) (key : String) (position : Nat) : Option (Option JsonTree) :=
  match fields with
  | .keyed members =>
    match members.filter fun (k, _) => k = key with
    | [] => some none
    | [(_, value)] => some (some value)
    | _ => none
  | .positional items => some items[position]?

def required? {α : Type} (fields : Fields) (key : String) (position : Nat)
    (read : JsonTree → Option α) : Option α := do
  let tree ← fields.get? key position
  tree.bind read

def default? {α : Type} (fields : Fields) (key : String) (position : Nat)
    (read : JsonTree → Option α) (default : α) : Option α := do
  match ← fields.get? key position with
  | none => some default
  | some tree => read tree

/-- A member that may be missing under its key, but not at its position. -/
def keyedDefault? {α : Type} (fields : Fields) (key : String) (position : Nat)
    (read : JsonTree → Option α) (default : α) : Option α :=
  match fields with
  | .keyed _ => fields.default? key position read default
  | .positional _ => fields.required? key position read

end Fields
end TraceAudit
