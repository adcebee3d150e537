import TraceAudit.Json.Basic
import TraceAudit.Number.Shortest
import TraceAudit.Text.Utf8

/-!
# Written JSON

* `Json.compact` writes a value without any white space;
* `Json.pretty` writes it over several lines, two spaces per level.

Members are written in the order in which they stand. In strings only the quote, the backslash and
the characters below `U+0020` are escaped.
-/

namespace TraceAudit.Json

def hexDigit (n : Nat) : Char :=
  if n < 10 then Char.ofNat ('0'.toNat + n) else Char.ofNat ('a'.toNat + n - 10)

def escapeChar (c : Char) : List Char :=
  if c = '"' then ['\\', '"']
  else if c = '\\' then ['\\', '\\']
  else if c = '\x08' then ['\\', 'b']
  else if c = '\x0c' then ['\\', 'f']
  else if c = '\n' then ['\\', 'n']
  else if c = '\r' then ['\\', 'r']
  else if c = '\t' then ['\\', 't']
  else if c.toNat < 0x20 then
    ['\\', 'u', '0', '0', hexDigit (c.toNat / 16), hexDigit (c.toNat % 16)]
  else [c]

def quote (s : String) : List Char :=
  '"' :: s.toList.flatMap escapeChar ++ ['"']

def numberText : Number → List Char
  | .int i => (toString i).toList
  | .double d => d.render.toList

mutual
def compactText : Json → List Char
  | .null => ['n', 'u', 'l', 'l']
  | .bool true => ['t', 'r', 'u', 'e']
  | .bool false => ['f', 'a', 'l', 's', 'e']
  | .num n => numberText n
  | .str s => quote s
  | .arr items => '[' :: compactItems items ++ [']']
  | .obj members => '\x7b' :: compactMembers members ++ ['\x7d']

def compactItems : List Json → List Char
  | [] => []
  | [item] => compactText item
  | item :: rest => compactText item ++ ',' :: compactItems rest

def compactMembers : List (String × Json) → List Char
  | [] => []
  | [(key, value)] => quote key ++ ':' :: compactText value
  | (key, value) :: rest => quote key ++ ':' :: (compactText value ++ ',' :: compactMembers rest)
end

def compact (value : Json) : String := String.ofList (compactText value)

def toBytes (value : Json) : Bytes := Utf8.encode (compactText value)

def newline (level : Nat) : List Char := '\n' :: List.replicate (2 * level) ' '

mutual
/-- The characters of the pretty form of a value that stands at nesting `level`. -/
def prettyText (level : Nat) : Json → List Char
  | .arr (item :: rest) =>
    '[' :: prettyItems (level + 1) (item :: rest) ++ newline level ++ [']']
  | .obj (member :: rest) =>
    '\x7b' :: prettyMembers (level + 1) (member :: rest) ++ newline level ++ ['\x7d']
  | other => compactText other

/-- Items, each on a line of its own. -/
def prettyItems (level : Nat) : List Json → List Char
  | [] => []
  | [item] => newline level ++ prettyText level item
  | item :: rest => newline level ++ prettyText level item ++ ',' :: prettyItems level rest

/-- Members, each on a line of its own. -/
def prettyMembers (level : Nat) : List (String × Json) → List Char
  | [] => []
  | [(key, value)] => newline level ++ quote key ++ ':' :: ' ' :: prettyText level value
  | (key, value) :: rest =>
    newline level ++ quote key ++ ':' :: ' ' :: prettyText level value ++
      ',' :: prettyMembers level rest
end

def pretty (value : Json) : String := String.ofList (prettyText 0 value)

end TraceAudit.Json
