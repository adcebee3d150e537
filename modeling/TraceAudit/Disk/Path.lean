import TraceAudit.Text.Split
import TraceAudit.Text.Utf8

/-!
# Paths

A path is kept as it was written, since diagnostics repeat it. Two spellings of a path, such as
`a/b` and `a//b/.`, have the same steps.

* `Path.join` puts a relative path below a folder, `Path.parent` takes the last step off;
* `Path.steps` lists the steps of a path, `Path.orderKey` is what paths are ordered by;
* `OsPath` is a path as the system has it, which need not be a text.
-/

namespace TraceAudit

/-- A path as the system has it: octets, which are mostly those of a text. -/
inductive OsPath where
  | text (path : String)
  /-- The octets are no text. -/
  | raw (octets : Bytes) (foreign : Utf8.decode octets = none)
deriving DecidableEq, Repr

namespace OsPath

/-- The text of a path that has one. -/
def text? : OsPath → Option String
  | .text path => some path
  | .raw _ _ => none

end OsPath

namespace Path

/-- The steps of a path as written, with empty ones where slashes meet. -/
def pieces (path : String) : List String :=
  (Text.splitOn '/' path.toList).map String.ofList

def isAbsolute (path : String) : Bool := path.toList.head? == some '/'

def join (folder name : String) : String :=
  if isAbsolute name || folder.isEmpty then name
  else if folder.toList.getLast? = some '/' then folder ++ name
  else folder ++ "/" ++ name

/-- The steps of a path: steps that stay in place are left out. -/
def steps (path : String) : List String :=
  (pieces path).filter fun s => !(s.isEmpty || s == ".")

/-- Where a path starts: at the root, or at a place that it names by a leading point. -/
def startKey (path : String) : List String :=
  if isAbsolute path then ["0"] else if (pieces path).head? = some "." then ["1"] else []

/-- What a step counts as: the step to the parent comes before all names. -/
def stepKey (step : String) : String := if step = ".." then "2" else "3" ++ step

/-- What paths are ordered by: where they start, and then their steps. Paths with the same key are
spellings of one path. -/
def orderKey (path : String) : List String := startKey path ++ (steps path).map stepKey

/-- The path before its last step, as written; empty for a single relative step. -/
def parent (path : String) : String :=
  let trimmed := Text.dropEndWhile (· == '/') path.toList
  let folder := Text.dropEndWhile (· != '/') trimmed
  String.ofList (Text.dropEndWhile (· == '/') folder)

end Path
end TraceAudit
