import TraceAudit.Session.Basic
import TraceAudit.Session.Report

/-!
# Finishing a session

`Session.finish` waits for the data, picks up what arrived late, runs every queue once and gathers
the report. Interfaces are waited for one after the other, each for its own time and none past the
time of the whole session. In a cancelled session no queue is run.
-/

namespace TraceAudit

namespace Session

/-- The reason that is given for validators that were not run. -/
def interruptedReason : String := "session interrupted before evaluation"

/-- The interfaces in the course of teardown, how waits ended, and what went wrong. -/
structure Teardown where
  session : Session
  waits : List (String × WaitOutcome)
  errors : List String
  /-- The time that is left for the session, in milliseconds. -/
  leftMs : Nat

namespace Teardown

def note (t : Teardown) (source : Source) (error : StoreError) : Teardown :=
  { t with errors := t.errors ++ [s!"{source.name}: {error.message}"] }

def waitOn (disk : Disk) (t : Teardown) (source : Source) : Teardown :=
  match t.session.interface? source with
  | none => t
  | some i =>
    let engine := t.session.engine
    let library := t.session.scenario.library.library
    let budgetMs := min (1000 * engine.timeoutOf library source) t.leftMs
    match i.wait disk engine budgetMs t.session.cancelled with
    | (i, .error e) => { t with session := t.session.setInterface i }.note source e
    | (i, .ok outcome) =>
      { t with
        session := t.session.setInterface i
        waits := Members.insert source.name outcome t.waits
        leftMs := t.leftMs - Interface.spentMs engine budgetMs outcome }

def settleOn (disk : Disk) (t : Teardown) (source : Source) : Teardown :=
  match t.session.interface? source with
  | none => t
  | some i =>
    match i.settle disk with
    | (i, .error e) => { t with session := t.session.setInterface i }.note source e
    | (i, .ok _) => { t with session := t.session.setInterface i }

end Teardown

def teardown (s : Session) (disk : Disk) : Teardown :=
  let start : Teardown := ⟨s, [], [], 1000 * s.engine.timeoutS⟩
  let waited := s.scenario.teardownOrder.foldl (Teardown.waitOn disk) start
  s.scenario.sources.foldl (Teardown.settleOn disk) waited

/-- The verdicts of an interface at the end of a session. -/
def verdictsOf (s : Session) (i : Interface) : List Verdict :=
  if s.cancelled then (i.abandon interruptedReason).2
  else (i.evaluate s.scenario s.engine.timingFallback).2

def corruptByName (interfaces : List Interface) : List (String × List CorruptEntry) :=
  Members.ofList
    ((interfaces.filter fun i => !i.corruptEntries.isEmpty).map fun i =>
      (i.source.name, i.corruptEntries))

def finish (s : Session) (disk : Disk) : SessionReport :=
  let t := s.teardown disk
  { scenario := s.scenario.name
    mode := s.mode
    verdicts := t.session.interfaces.flatMap t.session.verdictsOf
    waits := t.waits
    corrupt := corruptByName t.session.interfaces
    errors := t.errors
    detail := .full }

end Session
end TraceAudit
