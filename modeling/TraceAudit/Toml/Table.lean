/-!
# TOML tables

A TOML document defines its tables piece by piece, in headers and in dotted keys, and no piece may
define a second time what another one defined. This file keeps the tables while they are being
defined:

* `TomlValue` is a finished value;
* `TomlItem` is what stands under a key of a table that is still being defined;
* `TomlTable.openTable?`, `TomlTable.openElement?` and `TomlTable.put?` are the effects of a header
  `[a.b]`, of a header `[[a.b]]` and of a pair `a.b = value`; each refuses what was defined before.
-/

namespace TraceAudit

/-- A finished value. Floats and times are read but not kept, since no configuration key takes
one. -/
inductive TomlValue where
  | string (text : String)
  | integer (value : Int)
  | boolean (value : Bool)
  | other
  | array (items : List TomlValue)
  | table (members : List (String × TomlValue))
deriving Inhabited

/-- How a table came about: by a header or braces of its own, as a step in the header of another
table, or as a step in a dotted key. -/
inductive TableOrigin where
  | defined
  | implied
  | dotted
deriving DecidableEq, Repr

/-- What stands under a key of a table that is still being defined. -/
inductive TomlItem where
  | value (value : TomlValue)
  | table (origin : TableOrigin) (entries : List (String × TomlItem))
  | elements (tables : List (List (String × TomlItem)))
deriving Inhabited

/-- The entries of a table that is still being defined. -/
abbrev TomlTable := List (String × TomlItem)

namespace TomlItem

mutual
def finish : TomlItem → TomlValue
  | .value v => v
  | .table _ entries => .table (finishEntries entries)
  | .elements tables => .array (finishTables tables)

def finishEntries : List (String × TomlItem) → List (String × TomlValue)
  | [] => []
  | (key, item) :: rest => (key, finish item) :: finishEntries rest

def finishTables : List (List (String × TomlItem)) → List TomlValue
  | [] => []
  | entries :: rest => .table (finishEntries entries) :: finishTables rest
end

end TomlItem

namespace TomlTable

def find? (key : String) (table : TomlTable) : Option TomlItem :=
  (List.find? (fun entry => entry.1 == key) table).map (·.2)

def set (key : String) (item : TomlItem) : TomlTable → TomlTable
  | [] => [(key, item)]
  | (k, i) :: rest => if k = key then (key, item) :: rest else (k, i) :: set key item rest

/-- Change the table that is reached along `path`. Tables on the way that do not exist are made;
along a dotted key, a table that has a definition of its own is closed. Through an array of tables
the way leads into the last one. -/
def update? (isDotted : Bool) (change : TableOrigin → TomlTable → Option TomlTable) :
    List String → TableOrigin → TomlTable → Option TomlTable
  | [], origin, table => change origin table
  | key :: rest, _, table =>
    match find? key table with
    | none => do
      let origin : TableOrigin := if isDotted then .dotted else .implied
      let entries ← update? isDotted change rest origin []
      some (set key (.table origin entries) table)
    | some (.value _) => none
    | some (.table origin entries) =>
      if isDotted ∧ origin = .defined then none
      else do
        let entries ← update? isDotted change rest origin entries
        some (set key (.table origin entries) table)
    | some (.elements tables) => do
      let last ← tables.getLast?
      let entries ← update? isDotted change rest .defined last
      some (set key (.elements (tables.dropLast ++ [entries])) table)

/-- Define the table `key` of a table, unless it was defined before. -/
def defineTable? (key : String) (_ : TableOrigin) (table : TomlTable) : Option TomlTable :=
  match find? key table with
  | none => some (set key (.table .defined []) table)
  | some (.table .implied entries) => some (set key (.table .defined entries) table)
  | _ => none

/-- Start a new table in the array `key` of a table. -/
def defineElement? (key : String) (_ : TableOrigin) (table : TomlTable) : Option TomlTable :=
  match find? key table with
  | none => some (set key (.elements [[]]) table)
  | some (.elements tables) => some (set key (.elements (tables ++ [[]])) table)
  | _ => none

/-- Define the value `key` of a table, unless it was defined before. A table that a dotted key leads
into has to stem from dotted keys itself. -/
def defineValue? (isDotted : Bool) (key : String) (value : TomlValue) (origin : TableOrigin)
    (table : TomlTable) : Option TomlTable :=
  if isDotted ∧ origin ≠ .dotted then none
  else
    match find? key table with
    | none => some (set key (.value value) table)
    | some _ => none

/-- The effect of a header on the whole document. -/
def openTable? (path : List String) (root : TomlTable) : Option TomlTable := do
  let key ← path.getLast?
  update? false (defineTable? key) path.dropLast .defined root

/-- The effect of an array header on the whole document. -/
def openElement? (path : List String) (root : TomlTable) : Option TomlTable := do
  let key ← path.getLast?
  update? false (defineElement? key) path.dropLast .defined root

/-- The effect of a pair below the header `current`. -/
def put? (current path : List String) (value : TomlValue) (root : TomlTable) :
    Option TomlTable := do
  let key ← path.getLast?
  let steps := path.dropLast
  let change (origin : TableOrigin) (table : TomlTable) : Option TomlTable :=
    update? true (defineValue? (!steps.isEmpty) key value) steps origin table
  update? false change current .defined root

end TomlTable
end TraceAudit
