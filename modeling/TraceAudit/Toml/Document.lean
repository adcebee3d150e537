import TraceAudit.Toml.Scalar

/-!
# TOML documents

`TomlDocument.read?` reads a document: lines that hold a header, a pair or nothing, each possibly
with a comment. Arrays and tables in braces nest up to `nestingLimit` levels, and a key has at most
as many steps. The readers below take a text and give what they read together with what follows;
those that nest carry a budget, for which the length of the document is always enough.
-/

namespace TraceAudit.TomlDocument

def skipBlanks (text : List Char) : List Char := text.dropWhile fun c => c == ' ' || c == '\t'

def lineEnd? : List Char → Option (List Char)
  | [] => some []
  | '\n' :: rest => some rest
  | '\r' :: '\n' :: rest => some rest
  | _ => none

/-- The text without a comment at its start. -/
def skipComment : List Char → List Char
  | '#' :: rest => rest.dropWhile TomlText.isLineChar
  | text => text

/-- What follows the rest of a line that holds nothing more than a comment. -/
def endOfLine? (text : List Char) : Option (List Char) :=
  lineEnd? (skipComment (skipBlanks text))

/-- The text without leading white space, line ends and comments. -/
def skipLayout (inComment : Bool) : List Char → List Char
  | [] => []
  | c :: rest =>
    if c = '\n' then skipLayout false rest
    else if c = '\r' then
      match rest with
      | '\n' :: rest => skipLayout false rest
      | _ => c :: rest
    else if inComment then
      if TomlText.isLineChar c then skipLayout true rest else c :: rest
    else if c = ' ' ∨ c = '\t' then skipLayout false rest
    else if c = '#' then skipLayout true rest
    else c :: rest

/-! ## Keys -/

def isBareChar (c : Char) : Bool := Text.isAlphanumeric c || c == '_' || c == '-'

def keyStep? (text : List Char) : Option (String × List Char) :=
  match text with
  | '"' :: rest => (TomlText.basic? (.plain false) rest).map fun (s, r) => (String.ofList s, r)
  | '\'' :: rest => (TomlText.literal? rest).map fun (s, r) => (String.ofList s, r)
  | text =>
    let bare := text.takeWhile isBareChar
    if bare = [] then none else some (String.ofList bare, text.dropWhile isBareChar)

/-- The most levels of arrays and tables in braces around a value, and the most steps of a key. -/
def nestingLimit : Nat := 79

/-- A key of at most as many steps as the first argument says, with points between them. -/
def keySteps? : Nat → List Char → Option (List String × List Char)
  | 0, _ => none
  | limit + 1, text => do
    let (step, rest) ← keyStep? (skipBlanks text)
    match skipBlanks rest with
    | '.' :: rest => do
      let (steps, rest) ← keySteps? limit rest
      some (step :: steps, rest)
    | rest => some ([step], rest)

def key? (text : List Char) : Option (List String × List Char) := keySteps? nestingLimit text

/-! ## Values -/

/-- A string at the start of a text. -/
def string? : List Char → Option (List Char × List Char)
  | '"' :: '"' :: '"' :: rest => TomlText.multiBasic? (.plain false) (TomlText.dropLineEnd rest)
  | '"' :: rest => TomlText.basic? (.plain false) rest
  | '\'' :: '\'' :: '\'' :: rest => TomlText.multiLiteral? (TomlText.dropLineEnd rest)
  | '\'' :: rest => TomlText.literal? rest
  | _ => none

mutual
/-- A value around which `depth` more levels may be opened. -/
def value? (depth : Nat) : Nat → List Char → Option (TomlValue × List Char)
  | 0, _ => none
  | budget + 1, text =>
    match text with
    | '"' :: _ | '\'' :: _ =>
      (string? text).map fun (s, rest) => (.string (String.ofList s), rest)
    | '[' :: rest =>
      if depth = 0 then none
      else (items? (depth - 1) budget rest).map fun (vs, rest) => (.array vs, rest)
    | '\x7b' :: rest =>
      if depth = 0 then none
      else
        match skipBlanks rest with
        | '\x7d' :: rest => some (.table [], rest)
        | rest =>
          (members? (depth - 1) budget [] rest).map fun (table, rest) =>
            (.table (TomlItem.finishEntries table), rest)
    | text => TomlScalar.read? text

/-- The items of an array, from behind its bracket or a comma. -/
def items? (depth : Nat) : Nat → List Char → Option (List TomlValue × List Char)
  | 0, _ => none
  | budget + 1, text =>
    match skipLayout false text with
    | ']' :: rest => some ([], rest)
    | text => do
      let (v, rest) ← value? depth budget text
      match skipLayout false rest with
      | ']' :: rest => some ([v], rest)
      | ',' :: rest => do
        let (vs, rest) ← items? depth budget rest
        some (v :: vs, rest)
      | _ => none

/-- The members of a table in braces, from behind the brace or a comma, added to `table`. -/
def members? (depth : Nat) : Nat → TomlTable → List Char → Option (TomlTable × List Char)
  | 0, _, _ => none
  | budget + 1, table, text => do
    let (path, rest) ← key? text
    let rest ← TomlScalar.after? '=' rest
    let (v, rest) ← value? depth budget (skipBlanks rest)
    let table ← TomlTable.put? [] path v table
    match skipBlanks rest with
    | '\x7d' :: rest => some (table, rest)
    | ',' :: rest => members? depth budget table rest
    | _ => none
end

/-! ## Lines -/

/-- The document so far: its tables, and the header under which pairs are read. -/
structure State where
  root : TomlTable
  current : List String

def line? (budget : Nat) (s : State) (text : List Char) : Option (State × List Char) :=
  match skipBlanks text with
  | '[' :: '[' :: rest => do
    let (path, rest) ← key? rest
    let rest ← TomlScalar.after? ']' rest
    let rest ← TomlScalar.after? ']' rest
    let root ← TomlTable.openElement? path s.root
    let rest ← endOfLine? rest
    some (⟨root, path⟩, rest)
  | '[' :: rest => do
    let (path, rest) ← key? rest
    let rest ← TomlScalar.after? ']' rest
    let root ← TomlTable.openTable? path s.root
    let rest ← endOfLine? rest
    some (⟨root, path⟩, rest)
  | text =>
    match endOfLine? text with
    | some rest => some (s, rest)
    | none => do
      let (path, rest) ← key? text
      let rest ← TomlScalar.after? '=' rest
      let (v, rest) ← value? nestingLimit budget (skipBlanks rest)
      let root ← TomlTable.put? s.current path v s.root
      let rest ← endOfLine? rest
      some (⟨root, s.current⟩, rest)

/-- Read lines up to the end of the text. -/
def lines? : Nat → State → List Char → Option TomlTable
  | _, s, [] => some s.root
  | 0, _, _ :: _ => none
  | budget + 1, s, text => do
    let (s, rest) ← line? (budget + 1) s text
    lines? budget s rest

/-- Read a document, which may start with a byte order mark. -/
def read? (text : List Char) : Option (List (String × TomlValue)) :=
  let text := match text with
    | '\uFEFF' :: rest => rest
    | text => text
  (lines? (2 * text.length + 2) ⟨[], []⟩ text).map TomlItem.finishEntries

end TraceAudit.TomlDocument
