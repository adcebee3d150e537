import TraceAudit.Number.Double
import TraceAudit.Number.Word

/-!
# JSON values

* `Number` is an integer of 64 bits, signed or unsigned, or a double;
* `Json` is a JSON value; the members of an object are kept in the order of their keys, each key
  once, by `Members.insert`;
* `Json.get?`, `Json.asString?`, `Json.asArray?`, `Json.asObject?` look into a value, and
  `Number.asU64?`, `Number.asI64?`, `Number.toDouble` read a number.
-/

namespace TraceAudit

/-- A JSON number: an integer between `-2 ^ 63` and `2 ^ 64 - 1`, or a double. -/
inductive Number where
  | int (value : Int)
  | double (value : Double)
deriving DecidableEq, Repr, Inhabited

/-- A JSON value. -/
inductive Json where
  | null
  | bool (value : Bool)
  | num (value : Number)
  | str (value : String)
  | arr (items : List Json)
  | obj (members : List (String × Json))
deriving Inhabited

namespace Number

/-- The number as an unsigned 64-bit integer, when it is written as one. -/
def asU64? : Number → Option Nat
  | .int i => if 0 ≤ i ∧ i < Word.count64 then some i.toNat else none
  | .double _ => none

/-- The number as a signed 64-bit integer, when it is written as one. -/
def asI64? : Number → Option Int
  | .int i => if -(Word.half64 : Int) ≤ i ∧ i < Word.half64 then some i else none
  | .double _ => none

/-- The number as a double, an integer rounded to the nearest one. -/
def toDouble : Number → Double
  | .int i => Double.ofInt i
  | .double d => d

/-- The exact order of a number against an integer. -/
def cmpInt : Number → Int → Ordering
  | .int i, bound => compare i bound
  | .double d, bound => d.cmpInt bound

def isIntegral : Number → Bool
  | .int _ => true
  | .double d => d.isIntegral

end Number

/-! ## Lists of pairs ordered by key -/

namespace Members

/-- Put `value` under `key` into a list ordered by key; an earlier value of that key is replaced. -/
def insert {α : Type} (key : String) (value : α) : List (String × α) → List (String × α)
  | [] => [(key, value)]
  | (k, v) :: rest =>
    if key = k then (key, value) :: rest
    else if key < k then (key, value) :: (k, v) :: rest
    else (k, v) :: insert key value rest

def find? {α : Type} (key : String) : List (String × α) → Option α
  | [] => none
  | (k, v) :: rest => if key = k then some v else find? key rest

/-- The pairs in the order of their keys, the last value of each key. -/
def ofList {α : Type} (pairs : List (String × α)) : List (String × α) :=
  pairs.foldl (fun acc (k, v) => insert k v acc) []

end Members

namespace Json

def int (i : Int) : Json := .num (.int i)

def nat (n : Nat) : Json := .num (.int n)

def ofOption {α : Type} (encode : α → Json) : Option α → Json
  | none => .null
  | some a => encode a

def object (members : List (String × Json)) : Json := .obj (Members.ofList members)

/-- The member `key` of an object; nothing for any other value. -/
def get? (key : String) : Json → Option Json
  | .obj members => Members.find? key members
  | _ => none

def asString? : Json → Option String
  | .str s => some s
  | _ => none

def asArray? : Json → Option (List Json)
  | .arr items => some items
  | _ => none

def asObject? : Json → Option (List (String × Json))
  | .obj members => some members
  | _ => none

/-- The value of a number as a double. -/
def asDouble? : Json → Option Double
  | .num n => some n.toDouble
  | _ => none

def isObject : Json → Bool
  | .obj _ => true
  | _ => false

def isNull : Json → Bool
  | .null => true
  | _ => false

mutual
/-- The same value with the members of every object in the order of their keys. -/
def sorted : Json → Json
  | .arr items => .arr (sortedItems items)
  | .obj members => .obj (Members.ofList (sortedMembers members))
  | other => other

def sortedItems : List Json → List Json
  | [] => []
  | item :: rest => sorted item :: sortedItems rest

def sortedMembers : List (String × Json) → List (String × Json)
  | [] => []
  | (key, value) :: rest => (key, sorted value) :: sortedMembers rest
end

end Json
end TraceAudit
