import TraceAudit.Proofs.Session.Ledger

/-!
# The course of a session

`Session.Course.run` takes a session through any operations on it. `Session.Moves` says once in
which ways an operation can go, and `Session.Started.ledgers` what all sessions start from.
-/

namespace TraceAudit.Session

/-- An operation on a session, or a change of the files around it. A wait is given the state of the
token that may interrupt it. -/
inductive Action where
  | append (source : Source) (record : Record)
  | register (source : Source) (testId : String) (assertion : Assertion)
  | except (source : Source) (traceId : Nat)
  | wait (source : Source) (budgetMs : Nat) (cancelled : Bool)
  | settle (source : Source)
  | evaluate (source : Source)
  | abandon (source : Source) (reason : String)
  | cancel
  | call (testId : String)
  | change (disk : Disk)

/-- The operation ends the registrations on an interface. -/
def Action.closes (source : Source) : Action → Prop
  | .evaluate s => s = source
  | .abandon s _ => s = source
  | _ => False

/-- A verdict, the interface that returned it and whether it was by abandoning its queue. -/
structure Returned where
  caller : Source
  abandoned : Bool
  verdict : Verdict

/-- A session on its way, with the registrations that succeeded and the verdicts that were
returned. -/
structure Course where
  session : Session
  disk : Disk
  registered : List Receipt
  returned : List Returned

namespace Course

def start (session : Session) (disk : Disk) : Course :=
  { session, disk, registered := [], returned := [] }

/-- Apply an operation to the interface of a source, if there is one. -/
def on (c : Course) (source : Source) (operation : Interface → Interface) : Course :=
  match c.session.interface? source with
  | none => c
  | some i => { c with session := c.session.setInterface (operation i) }

/-- Empty the queue of an interface, if there is one, by an operation that returns verdicts. -/
def drain (c : Course) (source : Source) (abandoned : Bool)
    (operation : Interface → Interface × List Verdict) : Course :=
  match c.session.interface? source with
  | none => c
  | some i =>
    { c with
      session := c.session.setInterface (operation i).1
      returned := c.returned ++ (operation i).2.map fun v => ⟨source, abandoned, v⟩ }

/-- One operation. Where it fails, the session stays as it is. -/
def step (c : Course) : Action → Course
  | .append source record =>
    match c.session.append source record with
    | .ok (session, _) => { c with session }
    | .error _ => c
  | .register source testId assertion =>
    match c.session.register source testId assertion with
    | .ok (session, id) =>
      { c with
        session
        registered := c.registered ++ [⟨id, testId, source, assertion.describe⟩] }
    | .error _ => c
  | .except source traceId => c.on source (·.except traceId)
  | .wait source budgetMs cancelled =>
    c.on source fun i => (i.wait c.disk c.session.engine budgetMs cancelled).1
  | .settle source => c.on source fun i => (i.settle c.disk).1
  | .evaluate source =>
    c.drain source false (·.evaluate c.session.scenario c.session.engine.timingFallback)
  | .abandon source reason => c.drain source true (·.abandon reason)
  | .cancel => { c with session := c.session.cancel }
  | .call testId => { c with session := (c.session.call testId).1 }
  | .change disk => { c with disk }

/-- Operations in order. -/
def run (c : Course) (actions : List Action) : Course := actions.foldl step c

end Course

/-! ## Sessions that start -/

/-- A session that nothing was done with yet. -/
inductive Started : Session → Prop
  | inMemory (scenario : Scenario) (engine : EngineSettings) :
      Started (Session.inMemory scenario engine)
  | live (scenario : Scenario) (engine : EngineSettings) (logFolder : String) :
      Started (Session.live scenario engine logFolder)
  | replay {disk : Disk} {scenario : Scenario} {engine : EngineSettings} {logFolder : String}
      {s : Session} : Session.replay disk scenario engine logFolder = .ok s → Started s
  | answered {s : Session} (calls : CallReplay) : Started s → Started { s with calls := some calls }

/-- The ledger of an interface that nothing was done with yet. -/
def blankLedger (source : Source) : Ledger := ⟨source, [], false, 0⟩

theorem replay_eq_ok {disk : Disk} {source : Source} {logFolder : String} {i : Interface}
    (h : Interface.replay disk source logFolder = .ok i) :
    ∃ store, i = (Interface.fresh source .replay none).takeStaged store := by
  unfold Interface.replay at h
  generalize (Store.forLogFolder logFolder source).load disk = loaded at h
  rcases loaded with ⟨store, result⟩
  cases result with
  | error e => cases h
  | ok n =>
    have hi := Except.ok.inj h
    exact ⟨store, hi.symm⟩

theorem ledger_replay {disk : Disk} {source : Source} {logFolder : String} {i : Interface}
    (h : Interface.replay disk source logFolder = .ok i) : i.ledger = blankLedger source := by
  rcases replay_eq_ok h with ⟨store, hi⟩
  have hledger := Interface.ledger_takeStaged (Interface.fresh source .replay none) store
  rw [hi, hledger]
  rfl

/-- The session over the interfaces and the journal of a folder. -/
def opened (scenario : Scenario) (engine : EngineSettings) (logFolder : String)
    (interfaces : List Interface) (journal : Journal) : Session :=
  { scenario, engine, mode := .replay, logFolder := some logFolder, interfaces
    cancelled := false, calls := some (CallReplay.start journal) }

/-- What opening a replay takes: the folder, its log files and its journal. -/
theorem replay_parts {disk : Disk} {scenario : Scenario} {engine : EngineSettings}
    {logFolder : String} {s : Session} (h : replay disk scenario engine logFolder = .ok s) :
    ∃ interfaces journal,
      scenario.sources.mapM (Interface.replay disk · logFolder) = .ok interfaces ∧
      Journal.load disk logFolder = .ok journal ∧
      s = opened scenario engine logFolder interfaces journal := by
  rw [replay] at h
  split at h
  · cases hinterfaces : scenario.sources.mapM (Interface.replay disk · logFolder) with
    | error e => simp [hinterfaces, bind, Except.bind, Except.mapError] at h
    | ok interfaces =>
      cases hjournal : Journal.load disk logFolder with
      | error e => simp [hinterfaces, hjournal, bind, Except.bind, Except.mapError] at h
      | ok journal =>
        simp only [hinterfaces, hjournal, bind, Except.bind, Except.mapError] at h
        cases h
        exact ⟨interfaces, journal, rfl, rfl, rfl⟩
  · cases h

theorem map_of_mapM_ok {α β γ ε : Type} {f : α → Except ε β} {g : β → γ} {k : α → γ}
    {xs : List α} {ys : List β} (hone : ∀ x y, f x = .ok y → g y = k x)
    (h : xs.mapM f = .ok ys) : ys.map g = xs.map k := by
  induction xs generalizing ys with
  | nil =>
    rw [List.mapM_nil] at h
    cases h
    rfl
  | cons x rest ih =>
    rw [List.mapM_cons] at h
    cases hx : f x with
    | error e => simp [hx, bind, Except.bind] at h
    | ok y =>
      cases hrest : rest.mapM f with
      | error e => simp [hx, hrest, bind, Except.bind] at h
      | ok more =>
        simp only [hx, hrest, bind, Except.bind] at h
        cases h
        rw [List.map_cons, List.map_cons, hone x y hx, ih hrest]

theorem sources_nodup (scenario : Scenario) : scenario.sources.Nodup := by
  -- The number of auxiliary applications fits an octet, so no two of them get the same number.
  have hbuddies : scenario.buddySources.Nodup := by
    refine List.pairwise_map.2 (List.nodup_range.imp_of_mem ?_)
    intro a b ha hb hne heq
    have hbound : scenario.buddies.toNat < 256 := scenario.buddies.toNat_lt
    have ha' : a < 256 := Nat.lt_trans (List.mem_range.1 ha) hbound
    have hb' : b < 256 := Nat.lt_trans (List.mem_range.1 hb) hbound
    have hsame : (UInt8.ofNat a).toNat = (UInt8.ofNat b).toNat := by
      injection heq with heq
      rw [heq]
    simp only [UInt8.toNat_ofNat', Nat.mod_eq_of_lt ha', Nat.mod_eq_of_lt hb'] at hsame
    exact hne hsame
  -- The other sources are no auxiliary applications.
  refine List.nodup_append.2 ⟨by decide, hbuddies, ?_⟩
  intro a ha b hb heq
  rcases List.mem_map.1 hb with ⟨n, -, rfl⟩
  rw [heq] at ha
  simp at ha

theorem Started.ledgers {s : Session} (h : s.Started) :
    ∃ sources : List Source, sources.Nodup ∧ s.ledgers = sources.map blankLedger ∧
      s.cancelled = false := by
  induction h with
  | inMemory scenario engine =>
    refine ⟨scenario.sources, sources_nodup scenario, ?_, rfl⟩
    rw [Session.ledgers, Session.inMemory, List.map_map]
    rfl
  | live scenario engine logFolder =>
    refine ⟨scenario.sources, sources_nodup scenario, ?_, rfl⟩
    rw [Session.ledgers, Session.live, List.map_map]
    rfl
  | @replay disk scenario engine logFolder s hreplay =>
    refine ⟨scenario.sources, sources_nodup scenario, ?_⟩
    rcases replay_parts hreplay with ⟨interfaces, journal, hinterfaces, -, rfl⟩
    exact ⟨map_of_mapM_ok (fun source i hi => ledger_replay hi) hinterfaces, rfl⟩
  | answered calls _ ih => exact ih

/-! ## What an operation can do -/

/-- The ways in which an operation can go. -/
inductive Moves (c : Course) : Course → Prop
  /-- The books stay as they are. -/
  | kept {next : Course} : next.session.ledgers = c.session.ledgers →
      next.registered = c.registered → next.returned = c.returned → Moves c next
  /-- An open interface queues a validator. -/
  | queued {source : Source} {i : Interface} (testId : String) (assertion : Assertion) :
      c.session.interface? source = some i → i.closed = false →
      Moves c
        { c with
          session := c.session.setInterface { i with
            queue := i.queue ++ [⟨i.nextId, testId, i.source, assertion⟩], nextId := i.nextId + 1 }
          registered := c.registered ++ [⟨i.nextId, testId, source, assertion.describe⟩] }
  /-- An interface answers its queue, and closes. -/
  | answered {source : Source} {abandoned : Bool} {i : Interface} {verdicts : List Verdict} :
      c.session.interface? source = some i →
      verdicts.map Verdict.receipt = i.queue.map Validator.receipt →
      (∀ v ∈ verdicts, v.isNotEvaluated = abandoned) →
      Moves c
        { c with
          session := c.session.setInterface i.close
          returned := c.returned ++ verdicts.map fun v => ⟨source, abandoned, v⟩ }

section Moves

variable {c : Course} (hdistinct : (c.session.ledgers.map (·.source)).Nodup)

include hdistinct

theorem moves_on {operation : Interface → Interface}
    (hledger : ∀ i, (operation i).ledger = i.ledger) (source : Source) :
    Moves c (c.on source operation) := by
  rw [Course.on]
  cases hfind : c.session.interface? source with
  | none => exact .kept rfl rfl rfl
  | some i => exact .kept (ledgers_setInterface hdistinct hfind (hledger i)) rfl rfl

theorem moves_append (source : Source) (record : Record) :
    Moves c (c.step (.append source record)) := by
  rw [Course.step, Session.append, Session.on]
  cases hfind : c.session.interface? source with
  | none => exact .kept rfl rfl rfl
  | some i =>
    cases happend : i.append record with
    | error e =>
      -- The record is of another source.
      simp only [happend, bind, Except.bind, Except.map]
      exact .kept rfl rfl rfl
    | ok next =>
      have hledger := Interface.ledger_append happend
      simp only [happend, bind, Except.bind, Except.map]
      exact .kept (ledgers_setInterface hdistinct hfind hledger) rfl rfl

omit hdistinct in
theorem moves_register (source : Source) (testId : String) (assertion : Assertion) :
    Moves c (c.step (.register source testId assertion)) := by
  rw [Course.step, Session.register, Session.on]
  cases hfind : c.session.interface? source with
  | none => exact .kept rfl rfl rfl
  | some i =>
    cases hclosed : i.closed with
    | true =>
      -- The registration fails, and the session stays as it is.
      simp only [Interface.register, hclosed, bind, Except.bind, if_true]
      exact .kept rfl rfl rfl
    | false =>
      have hqueued := Moves.queued testId assertion hfind hclosed
      simpa [Interface.register, hclosed, bind, Except.bind] using hqueued

omit hdistinct in
theorem moves_drain (source : Source) {abandoned : Bool}
    {operation : Interface → Interface × List Verdict} (hclose : ∀ i, (operation i).1 = i.close)
    (hreceipts : ∀ i, (operation i).2.map Verdict.receipt = i.queue.map Validator.receipt)
    (htold : ∀ i, ∀ v ∈ (operation i).2, v.isNotEvaluated = abandoned) :
    Moves c (c.drain source abandoned operation) := by
  rw [Course.drain]
  cases hfind : c.session.interface? source with
  | none => exact .kept rfl rfl rfl
  | some i =>
    simp only [hclose]
    exact .answered hfind (hreceipts i) (htold i)

/-- One case for each operation. -/
theorem moves_step (action : Action) : Moves c (c.step action) := by
  cases action with
  | append source record => exact moves_append hdistinct source record
  | register source testId assertion => exact moves_register source testId assertion
  | except source traceId =>
    have hledger : ∀ i : Interface, (i.except traceId).ledger = i.ledger := fun i => rfl
    exact moves_on hdistinct hledger source
  | wait source budgetMs cancelled =>
    have hledger : ∀ i : Interface,
        (i.wait c.disk c.session.engine budgetMs cancelled).1.ledger = i.ledger :=
      fun i => i.ledger_wait c.disk c.session.engine budgetMs cancelled
    exact moves_on hdistinct hledger source
  | settle source =>
    have hledger : ∀ i : Interface, (i.settle c.disk).1.ledger = i.ledger :=
      fun i => i.ledger_settle c.disk
    exact moves_on hdistinct hledger source
  | evaluate source =>
    refine moves_drain source (fun i => rfl) (fun i => ?_) (fun i v hv => ?_)
    · simp [Interface.evaluate, Function.comp_def, Validator.receipt_evaluate]
    · rcases List.mem_map.1 hv with ⟨validator, -, rfl⟩
      exact validator.isNotEvaluated_evaluate _
  | abandon source reason =>
    refine moves_drain source (fun i => rfl) (fun i => ?_) (fun i v hv => ?_)
    · simp [Interface.abandon, Function.comp_def, Validator.receipt_notEvaluated]
    · rcases List.mem_map.1 hv with ⟨validator, -, rfl⟩
      exact validator.isNotEvaluated_notEvaluated reason
  | cancel => exact .kept rfl rfl rfl
  | call testId =>
    rw [Course.step, Session.call]
    split <;> exact .kept rfl rfl rfl
  | change disk => exact .kept rfl rfl rfl

end Moves

end TraceAudit.Session
