import TraceAudit.Json.Fault
import TraceAudit.Text.Blank

/-!
# Scanning a log file

A log file holds either one JSON document or one JSON value per line. A `Cursor` tells how much of
a file was consumed. `Cursor.scan` looks at the octets beyond it and gives the entries that they
hold, each a value or a broken piece, together with the new cursor:

* the layout of a file is settled by its first line, `Layout.detect`;
* a piece at the end that does not parse may still be growing: unless the scan is `final`, it is
  left for a later scan and the cursor is marked as deferred;
* in a final scan a broken document that holds an object on a line of its own is read as lines.
-/

namespace TraceAudit

/-- How the entries of a log file are laid out. -/
inductive Layout where
  | unknown
  | lines
  | document
deriving DecidableEq, Repr, Inhabited

/-- How far a log file was read. -/
structure Cursor where
  layout : Layout
  /-- The number of octets that became entries. -/
  offset : Nat
  /-- The number of complete lines among them. -/
  lines : Nat
  /-- Octets beyond the offset wait for more. -/
  deferred : Bool
  /-- The length of the file when it was last read. -/
  seen : Nat
deriving DecidableEq, Repr, Inhabited

/-- What one piece of a log file holds: a value, or octets that are no JSON text. Pieces of
line-delimited files have line numbers, from 1. -/
inductive Entry where
  | value (line : Option Nat) (json : Json)
  | broken (line : Option Nat) (fault : JsonFault)
deriving Inhabited

namespace Scan

def isBlank (bytes : Bytes) : Bool := bytes.all Text.isAsciiBlank

/-- The lines that end with a line feed, without it, and what follows the last of them. -/
def splitLines : Bytes → List Bytes × Bytes
  | [] => ([], [])
  | b :: rest =>
    match splitLines rest with
    | (lines, last) =>
      if b = 0x0A then ([] :: lines, last)
      else
        match lines with
        | [] => ([], b :: last)
        | line :: lines => ((b :: line) :: lines, last)

/-- The entry of a line, if it is not blank. -/
def lineEntry (number : Nat) (line : Bytes) : Option Entry :=
  if isBlank line then none
  else
    match Json.ofBytes line with
    | .ok json => some (.value (some number) json)
    | .error fault => some (.broken (some number) fault)

/-- The entries of lines that are numbered from `number` on. -/
def lineEntries (number : Nat) : List Bytes → List Entry
  | [] => []
  | line :: rest => (lineEntry number line).toList ++ lineEntries (number + 1) rest

def holdsObjectLine (bytes : Bytes) : Bool :=
  let (lines, last) := splitLines bytes
  (lines ++ [last]).any fun line => (Json.ofBytes? line).any Json.isObject

end Scan

/-- The layout of a file that starts with `bytes`. A first line that is a JSON value on its own
makes the file line-delimited. Without a line feed the layout is settled only when the line is
complete, or in a final scan. -/
def Layout.detect (bytes : Bytes) (final : Bool) : Layout :=
  let body := bytes.dropWhile Text.isAsciiBlank
  if body.isEmpty then .unknown
  else
    let (whole, last) := Scan.splitLines body
    match whole with
    | first :: _ => if (Json.ofBytes? first).isSome then .lines else .document
    | [] => if final || (Json.ofBytes? last).isSome then .lines else .unknown

namespace Cursor

def start : Cursor := ⟨.unknown, 0, 0, false, 0⟩

/-- Scan lines. What follows the last line feed is an entry when it is complete or the scan is
final. -/
def scanLines (c : Cursor) (bytes : Bytes) (final : Bool) : Cursor × List Entry :=
  let (lines, last) := Scan.splitLines bytes
  let entries := Scan.lineEntries (c.lines + 1) lines
  let number := c.lines + lines.length + 1
  let c := { c with layout := .lines, lines := c.lines + lines.length }
  match Scan.lineEntry number last with
  | some (.broken line fault) =>
    if final then
      ({ c with offset := c.offset + bytes.length, deferred := false },
        entries ++ [.broken line fault])
    else
      ({ c with offset := c.offset + (bytes.length - last.length), deferred := true }, entries)
  | entry =>
    ({ c with offset := c.offset + bytes.length, deferred := false }, entries ++ entry.toList)

def scanDocument (c : Cursor) (bytes : Bytes) (final : Bool) : Cursor × List Entry :=
  match Json.ofBytes bytes with
  | .ok json =>
    ({ c with offset := c.offset + bytes.length, deferred := false }, [.value none json])
  | .error fault =>
    if !final then ({ c with deferred := true }, [])
    else if Scan.holdsObjectLine bytes then c.scanLines bytes true
    else ({ c with offset := c.offset + bytes.length, deferred := false }, [.broken none fault])

def scan (c : Cursor) (bytes : Bytes) (final : Bool) : Cursor × List Entry :=
  let layout := if c.layout = .unknown then Layout.detect bytes final else c.layout
  let c := { c with layout, seen := c.offset + bytes.length }
  match layout with
  | .unknown => ({ c with deferred := !bytes.isEmpty }, [])
  | .document => c.scanDocument bytes final
  | .lines => c.scanLines bytes final

end Cursor
end TraceAudit
