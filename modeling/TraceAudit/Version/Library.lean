import TraceAudit.Version.Component

/-!
# The library under test

A `LibraryVersion` names the library under test and, when known, its version. It answers questions
put as `name` or `name@version`:

* `LibraryVersion.satisfies`: this library, at this version when one is given;
* `LibraryVersion.atLeast` and `LibraryVersion.olderThan`: this library, at or above or strictly
  below the version.

Versions of different libraries never compare. `VersionError` lists what may go wrong.
-/

namespace TraceAudit

/-- Why a version, or a question about one, is refused. -/
inductive VersionError where
  | invalid (raw component : String)
  | nameWithVersion (library : String)
  | unreported (library version : String)
  | questionWithoutVersion (question : String)
deriving DecidableEq, Repr

def VersionError.message : VersionError → String
  | .invalid raw component => s!"'{raw}' is not a valid {component} version"
  | .nameWithVersion library => s!"library name '{library}' must not contain '@'"
  | .unreported library version =>
    s!"cannot compare against '{library}@{version}': the weblog did not report a {library} version"
  | .questionWithoutVersion question =>
    s!"'{question}' has no version; expected <library>@<version>"

/-- The wording of a refusal on its own. -/
def VersionError.refusal (e : VersionError) : String := s!"invalid version: {e.message}"

/-- The version that a component reports, or a refusal. -/
def Version.ofReport (component raw : String) : Except VersionError Version :=
  match Version.ofReport? component raw with
  | some v => .ok v
  | none => .error (.invalid raw component)

/-- The library under test and, when known, its version. -/
structure LibraryVersion where
  library : Option String
  version : Option Version
deriving DecidableEq, Repr, Inhabited

namespace LibraryVersion

def unknown : LibraryVersion := ⟨none, none⟩

/-- The library `library`, whose report of its version is `raw`. -/
def ofReport (library : String) (raw : Option String) : Except VersionError LibraryVersion :=
  if library.toList.contains '@' then .error (.nameWithVersion library)
  else
    match raw with
    | none => .ok ⟨some library, none⟩
    | some raw => do
      let v ← Version.ofReport library raw
      .ok ⟨some library, some v⟩

def is (l : LibraryVersion) (library : String) : Bool := l.library == some library

/-- How the version under test compares with a version of `library`; nothing when the library under
test is another one. -/
def compareWith (l : LibraryVersion) (library version : String) :
    Except VersionError (Option Ordering) :=
  if l.is library then
    match l.version with
    | none => .error (.unreported library version)
    | some own => do
      let other ← Version.ofReport library version
      .ok (some (own.compare other))
  else .ok none

/-- The library and the version of a question. -/
def splitQuestion (question : String) : Except VersionError (String × String) :=
  match Text.splitOnce '@' question.toList with
  | some (library, version) => .ok (String.ofList library, String.ofList version)
  | none => .error (.questionWithoutVersion question)

/-- The library under test is the one in question, at the version in question when there is one. -/
def satisfies (l : LibraryVersion) (question : String) : Except VersionError Bool :=
  match Text.splitOnce '@' question.toList with
  | none => .ok (l.is question)
  | some (library, version) => do
    let order ← l.compareWith (String.ofList library) (String.ofList version)
    .ok (order == some .eq)

/-- The library under test is the one in question, at or above the version in question. -/
def atLeast (l : LibraryVersion) (question : String) : Except VersionError Bool := do
  let (library, version) ← splitQuestion question
  let order ← l.compareWith library version
  .ok (order == some .eq || order == some .gt)

/-- The library under test is the one in question, strictly below the version in question. -/
def olderThan (l : LibraryVersion) (question : String) : Except VersionError Bool := do
  let (library, version) ← splitQuestion question
  let order ← l.compareWith library version
  .ok (order == some .lt)

def render (l : LibraryVersion) : String :=
  match l.library, l.version with
  | none, _ => "None"
  | some library, none => library
  | some library, some version => library ++ "@" ++ version.render

end LibraryVersion
end TraceAudit
