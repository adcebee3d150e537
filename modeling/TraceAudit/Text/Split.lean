import TraceAudit.Text.Blank

/-!
# Cutting text

Searching and cutting of character lists:

* `Text.splitOn`, the pieces between occurrences of a separator (always at least one piece);
* `Text.splitOnce`, the text before and after the first separator;
* `Text.cutAt`, the text before and after the first occurrence of a pattern;
* `Text.removeAll`, the text without every occurrence of a pattern, leftmost first;
* `Text.lines`, the lines of a text, each without its line end.
-/

namespace TraceAudit.Text

/-- The pieces of `text` between occurrences of `sep`; the empty text has one empty piece. -/
def splitOn (sep : Char) : List Char → List (List Char)
  | [] => [[]]
  | c :: rest =>
    if c = sep then [] :: splitOn sep rest
    else
      match splitOn sep rest with
      | [] => [[c]]
      | piece :: pieces => (c :: piece) :: pieces

/-- The text before and after the first `sep`. -/
def splitOnce (sep : Char) : List Char → Option (List Char × List Char)
  | [] => none
  | c :: rest =>
    if c = sep then some ([], rest)
    else (splitOnce sep rest).map fun (before, after) => (c :: before, after)

/-- The text before and after the first occurrence of `pattern`. -/
def cutAt (pattern : List Char) : List Char → Option (List Char × List Char)
  | [] => if pattern = [] then some ([], []) else none
  | c :: rest =>
    match pattern.isPrefixOf? (c :: rest) with
    | some after => some ([], after)
    | none => (cutAt pattern rest).map fun (before, after) => (c :: before, after)

def contains (pattern text : List Char) : Bool := (cutAt pattern text).isSome

/-- Drop `skip` characters, then remove the occurrences of `pattern` from the rest, leftmost first
and without overlap. -/
def removeAfter (pattern : List Char) : Nat → List Char → List Char
  | _, [] => []
  | skip + 1, _ :: rest => removeAfter pattern skip rest
  | 0, c :: rest =>
    if pattern.isPrefixOf (c :: rest) then removeAfter pattern (pattern.length - 1) rest
    else c :: removeAfter pattern 0 rest

/-- Remove every occurrence of the non-empty text `pattern`, leftmost first. -/
def removeAll (pattern text : List Char) : List Char := removeAfter pattern 0 text

/-- The lines of a text. A line ends at a line feed, which may follow a carriage return; neither
belongs to the line. What stands after the last line feed is a line only when it is not empty, and
keeps a final carriage return. -/
def lines (text : List Char) : List (List Char) :=
  let pieces := splitOn '\n' text
  let chomp (line : List Char) : List Char :=
    if line.getLast? = some '\r' then line.dropLast else line
  let ended := pieces.dropLast.map chomp
  match pieces.getLast? with
  | some (c :: last) => ended ++ [c :: last]
  | _ => ended

def join (sep : String) : List String → String
  | [] => ""
  | [piece] => piece
  | piece :: pieces => piece ++ sep ++ join sep pieces

/-- Pad on the left with spaces to at least `width` characters. -/
def padStart (width : Nat) (text : String) : String :=
  String.ofList (List.replicate (width - text.length) ' ') ++ text

/-- Pad on the right with spaces to at least `width` characters. -/
def padEnd (width : Nat) (text : String) : String :=
  text ++ String.ofList (List.replicate (width - text.length) ' ')

end TraceAudit.Text
