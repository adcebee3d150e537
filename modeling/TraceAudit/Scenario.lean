import TraceAudit.Config.Basic
import TraceAudit.Text.Distinct
import TraceAudit.Version.Library

/-!
# Scenarios

A `Scenario` is the read-only description of what is under test. It is built once, from the
configuration, and all validators see the same one.
-/

namespace TraceAudit

/-- What is under test. -/
structure Scenario where
  name : String
  library : LibraryVersion
  weblogVariant : Option String
  agentVersion : Option Version
  /-- The declared features in order, each once. -/
  features : List String
  /-- The number of auxiliary applications. -/
  buddies : UInt8
deriving DecidableEq, Repr, Inhabited

namespace Scenario

/-- The scenario that is configured. A version without a library means nothing. -/
def ofSettings (settings : ScenarioSettings) : Except VersionError Scenario := do
  let library ← match settings.library with
    | some library => LibraryVersion.ofReport library settings.libraryVersion
    | none => .ok LibraryVersion.unknown
  let agentVersion ← settings.agentVersion.mapM (Version.ofReport "agent")
  .ok
    { name := settings.name
      library
      weblogVariant := settings.weblogVariant
      agentVersion
      features := Text.distinct settings.features
      buddies := settings.buddies }

/-- The default scenario with the library `library`, whose report of its version is `raw`. -/
def forLibrary (library : String) (raw : Option String) : Except VersionError Scenario := do
  let scenario ← ofSettings {}
  let library ← LibraryVersion.ofReport library raw
  .ok { scenario with library }

def hasFeature (scenario : Scenario) (feature : String) : Bool :=
  scenario.features.contains feature

end Scenario
end TraceAudit
