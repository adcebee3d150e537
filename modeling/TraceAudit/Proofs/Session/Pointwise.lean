import TraceAudit.Proofs.Session.Course

/-!
# A session, interface by interface

An operation is about one interface and leaves the others alone. So what a run makes of an interface
can be told from the operations on it.

* `Session.mapAt` applies an operation to one interface, `Session.mapAll` to all of them;
* `Interface.after` is what one operation makes of an interface, `Session.Course.step_session` says
  that it is all that the operation does;
* `Session.Course.run_session`: every interface goes through the operations on it, one after the
  other.
-/

namespace TraceAudit

namespace Interface

theorem source_wait (i : Interface) (disk : Disk) (engine : EngineSettings)
    (budgetMs : Nat) (cancelled : Bool) :
    (i.wait disk engine budgetMs cancelled).1.source = i.source :=
  congrArg Ledger.source (i.ledger_wait disk engine budgetMs cancelled)

theorem source_settle (i : Interface) (disk : Disk) : (i.settle disk).1.source = i.source :=
  congrArg Ledger.source (i.ledger_settle disk)

end Interface

namespace Session

/-! ## One interface among the others -/

/-- No two interfaces are of the same source. -/
def Distinct (s : Session) : Prop := (s.interfaces.map (·.source)).Nodup

/-- There is one interface for each source of the scenario. -/
def Complete (s : Session) : Prop := s.interfaces.map (·.source) = s.scenario.sources

theorem complete_of_sources {s : Session} (each : Source → Interface)
    (h : s.interfaces = s.scenario.sources.map each)
    (heach : ∀ source, (each source).source = source) : s.Complete := by
  rw [Complete, h, List.map_map]
  exact (List.map_congr_left fun source _ => heach source).trans (List.map_id' _)

/-- Where there is one interface for each source, it is found. -/
theorem interface?_of_each {s : Session} {sources : List Source} {each : Source → Interface}
    (h : s.interfaces = sources.map each) (heach : ∀ source, (each source).source = source)
    {source : Source} (hsource : source ∈ sources) :
    s.interface? source = some (each source) := by
  have hfind : sources.find? (· = source) = some source := by
    cases hfound : sources.find? (· = source) with
    | none => simpa using List.find?_eq_none.1 hfound source hsource
    | some other => simpa using List.find?_some hfound
  have hsame : ((fun i : Interface => decide (i.source = source)) ∘ each) =
      fun other => decide (other = source) := by
    funext other
    rw [Function.comp_apply, heach]
  rw [interface?, h, List.find?_map, hsame, hfind, Option.map_some]

theorem Complete.distinct {s : Session} (h : s.Complete) : s.Distinct := by
  rw [Distinct, h]
  exact sources_nodup s.scenario

theorem Complete.known {s : Session} (h : s.Complete) {i : Interface} (hi : i ∈ s.interfaces) :
    i.source ∈ s.scenario.sources := by
  rw [← h]
  exact List.mem_map_of_mem hi

/-- Apply an operation to every interface. -/
def mapAll (s : Session) (operation : Interface → Interface) : Session :=
  { s with interfaces := s.interfaces.map operation }

/-- Apply an operation to the interface of a source. -/
def mapAt (s : Session) (source : Source) (operation : Interface → Interface) : Session :=
  s.mapAll fun i => if i.source = source then operation i else i

theorem mapAll_congr {s : Session} {f g : Interface → Interface}
    (h : ∀ i ∈ s.interfaces, f i = g i) : s.mapAll f = s.mapAll g := by
  rw [mapAll, mapAll, List.map_congr_left h]

theorem mapAll_id (s : Session) : s.mapAll (fun i => i) = s := by
  rw [mapAll, List.map_id']

theorem mapAll_mapAll (s : Session) (f g : Interface → Interface) :
    (s.mapAll f).mapAll g = s.mapAll fun i => g (f i) := by
  rw [mapAll, mapAll, List.map_map]
  rfl

/-- Only one interface is found. -/
theorem Distinct.eq_of_interface? {s : Session} (h : s.Distinct) {source : Source}
    {i j : Interface} (hfind : s.interface? source = some i) (hj : j ∈ s.interfaces)
    (hsource : j.source = source) : j = i := by
  rcases interface?_mem hfind with ⟨hi, hisource⟩
  exact List.inj_on_of_nodup_map h hj hi (hsource.trans hisource.symm)

theorem Distinct.interface?_eq {s : Session} (h : s.Distinct) {i : Interface}
    (hi : i ∈ s.interfaces) : s.interface? i.source = some i := by
  cases hfind : s.interface? i.source with
  | none => simpa using List.find?_eq_none.1 hfind i hi
  | some j => rw [h.eq_of_interface? hfind hi rfl]

theorem mapAt_eq_self {s : Session} {source : Source} {operation : Interface → Interface}
    (h : ∀ i ∈ s.interfaces, i.source = source → operation i = i) :
    s.mapAt source operation = s := by
  have hsame : ∀ i ∈ s.interfaces, (if i.source = source then operation i else i) = i := by
    intro i hi
    split
    · rename_i hsource
      exact h i hi hsource
    · rfl
  exact (mapAll_congr hsame).trans s.mapAll_id

theorem mapAt_congr {s : Session} (source : Source) {f g : Interface → Interface}
    (h : ∀ i ∈ s.interfaces, f i = g i) : s.mapAt source f = s.mapAt source g :=
  mapAll_congr fun i hi => by rw [h i hi]

theorem mapAt_of_interface?_none {s : Session} {source : Source}
    (hfind : s.interface? source = none) (operation : Interface → Interface) :
    s.mapAt source operation = s := by
  have hnone : ∀ i ∈ s.interfaces, i.source ≠ source := by
    simpa [interface?] using hfind
  exact mapAt_eq_self fun i hi hsource => absurd hsource (hnone i hi)

theorem setInterface_eq_mapAt {s : Session} (h : s.Distinct) {source : Source} {i : Interface}
    (hfind : s.interface? source = some i) (operation : Interface → Interface)
    (hsource : (operation i).source = i.source) :
    s.setInterface (operation i) = s.mapAt source operation := by
  rcases interface?_mem hfind with ⟨-, rfl⟩
  rw [setInterface, mapAt, mapAll, hsource]
  congr 1
  apply List.map_congr_left
  intro old hold
  -- What is replaced is of the source, and only the interface that was found is.
  by_cases hsame : old.source = i.source
  · rw [if_pos hsame, if_pos hsame, h.eq_of_interface? hfind hold hsame]
  · rw [if_neg hsame, if_neg hsame]

theorem sources_mapAll (s : Session) {operation : Interface → Interface}
    (hsource : ∀ i, (operation i).source = i.source) :
    (s.mapAll operation).interfaces.map (·.source) = s.interfaces.map (·.source) := by
  rw [mapAll, List.map_map]
  exact List.map_congr_left fun i _ => hsource i

theorem Distinct.mapAll {s : Session} (h : s.Distinct) {operation : Interface → Interface}
    (hsource : ∀ i, (operation i).source = i.source) : (s.mapAll operation).Distinct := by
  rw [Distinct, sources_mapAll s hsource]
  exact h

theorem Complete.mapAll {s : Session} (h : s.Complete) {operation : Interface → Interface}
    (hsource : ∀ i, (operation i).source = i.source) : (s.mapAll operation).Complete :=
  (sources_mapAll s hsource).trans h

theorem Distinct.mapAt {s : Session} (h : s.Distinct) (source : Source)
    {operation : Interface → Interface} (hsource : ∀ i, (operation i).source = i.source) :
    (s.mapAt source operation).Distinct := by
  refine h.mapAll fun i => ?_
  split
  · exact hsource i
  · rfl

/-! ## Operations -/

/-- The interface that an operation is about. -/
def Action.target? : Action → Option Source
  | .append source _ => some source
  | .register source _ _ => some source
  | .except source _ => some source
  | .wait source _ _ => some source
  | .settle source => some source
  | .evaluate source => some source
  | .abandon source _ => some source
  | .cancel | .call _ | .change _ => none

/-- The operation is about the interface of a source. -/
def Action.isOn (source : Source) (action : Action) : Bool := action.target? = some source

/-- The operation looks at the log files, unless nobody writes them any more. -/
def Action.looks : Action → Bool
  | .wait .. => true
  | .settle _ => true
  | _ => false

end Session

namespace Interface

open Session (Action)

/-- The interface after a wait that had nothing to wait for. -/
def waited (i : Interface) : Interface := { i with lastWait := some .complete }

/-- The interface after an operation. Where it fails, the interface stays as it is. -/
def orSelf {α : Type} (i : Interface) : Except SessionError (Interface × α) → Interface
  | .ok (j, _) => j
  | .error _ => i

/-- What an operation makes of the interface that it is about, where it does not look at log
files. -/
def after (i : Interface) : Action → Interface
  | .append _ record => i.orSelf ((i.append record).map (·, ()))
  | .register _ testId assertion => i.orSelf (i.register testId assertion)
  | .except _ traceId => i.except traceId
  | .wait .. => i.waited
  | .evaluate _ => i.close
  | .abandon .. => i.close
  | .settle _ => i
  | .cancel => i
  | .call _ => i
  | .change _ => i

/-- The interface after all operations of a list that are about it. -/
def afterAll (i : Interface) (actions : List Action) : Interface :=
  (actions.filter (Action.isOn i.source)).foldl after i

/-- The interface with one more validator in its queue. -/
def enqueue (i : Interface) (testId : String) (assertion : Assertion) : Interface :=
  { i with queue := i.queue ++ [⟨i.nextId, testId, i.source, assertion⟩], nextId := i.nextId + 1 }

/-- A record of another source leaves the interface as it is. -/
theorem after_append (i : Interface) (source : Source) (record : Record) :
    i.after (.append source record) = if record.source = i.source then i.push record else i := by
  rw [after, append]
  split <;> rfl

/-- Once the interface is closed, nothing is registered for it. -/
theorem after_register (i : Interface) (source : Source) (testId : String)
    (assertion : Assertion) :
    i.after (.register source testId assertion) =
      if i.closed then i else i.enqueue testId assertion := by
  rw [after, register]
  split <;> rfl

theorem wait_of_mode {i : Interface} (h : i.mode ≠ .live) (disk : Disk) (engine : EngineSettings)
    (budgetMs : Nat) (cancelled : Bool) :
    i.wait disk engine budgetMs cancelled = (i.waited, .ok .complete) := by
  unfold wait
  split
  · rename_i hlive _
    exact absurd hlive h
  · rfl

theorem settle_of_mode {i : Interface} (h : i.mode ≠ .live) (disk : Disk) :
    i.settle disk = (i, .ok 0) := by
  unfold settle
  split
  · rename_i hlive _
    exact absurd hlive h
  · rfl

/-- No operation moves an interface to another source or gives its data another origin. -/
theorem origin_after (i : Interface) (action : Action) :
    (i.after action).source = i.source ∧ (i.after action).mode = i.mode := by
  cases action with
  | append source record =>
    rw [after_append]
    split <;> exact ⟨rfl, rfl⟩
  | register source testId assertion =>
    rw [after_register]
    split <;> exact ⟨rfl, rfl⟩
  | _ => exact ⟨rfl, rfl⟩

theorem source_after (i : Interface) (action : Action) : (i.after action).source = i.source :=
  (i.origin_after action).1

/-- What operations preserve, a list of operations preserves. -/
theorem afterAll_induct {P : Interface → Prop} (hafter : ∀ i action, P i → P (i.after action))
    {i : Interface} (hi : P i) (actions : List Action) : P (i.afterAll actions) := by
  rw [afterAll]
  generalize actions.filter (Action.isOn i.source) = own
  induction own generalizing i with
  | nil => exact hi
  | cons action rest ih => exact ih (hafter i action hi)

theorem origin_afterAll (i : Interface) (actions : List Action) :
    (i.afterAll actions).source = i.source ∧ (i.afterAll actions).mode = i.mode := by
  refine afterAll_induct (P := fun j => j.source = i.source ∧ j.mode = i.mode) ?_ ⟨rfl, rfl⟩ actions
  intro j action hj
  rw [(j.origin_after action).1, (j.origin_after action).2]
  exact hj

end Interface

namespace Session

/-- An operation that may fail changes the interface of a source, or nothing. -/
theorem on_mapAt {α : Type} {s : Session} (h : s.Distinct) (source : Source)
    {operation : Interface → Except SessionError (Interface × α)}
    (hsource : ∀ i : Interface, (i.orSelf (operation i)).source = i.source) :
    (match s.on source operation with
      | .ok (t, _) => t
      | .error _ => s) = s.mapAt source fun i => i.orSelf (operation i) := by
  rw [Session.on]
  cases hfind : s.interface? source with
  | none => exact (mapAt_of_interface?_none hfind _).symm
  | some i =>
    cases hoperation : operation i with
    | ok pair =>
      have hset : s.setInterface (i.orSelf (operation i)) =
          s.mapAt source fun i => i.orSelf (operation i) :=
        setInterface_eq_mapAt h hfind (fun i => i.orSelf (operation i)) (hsource i)
      simp only [hoperation, bind, Except.bind]
      rw [hoperation] at hset
      exact hset
    | error e =>
      -- The only interface that the operation would change stays as it is.
      have hsame : ∀ j ∈ s.interfaces, j.source = source → j.orSelf (operation j) = j := by
        intro j hj hj'
        rw [h.eq_of_interface? hfind hj hj', hoperation]
        rfl
      simp only [hoperation, bind, Except.bind]
      exact (mapAt_eq_self hsame).symm

theorem mapAt_of_target {s : Session} {source : Source} {action : Action}
    (h : action.target? = some source) :
    s.mapAt source (·.after action) =
      s.mapAll fun i => if action.isOn i.source then i.after action else i := by
  refine mapAll_congr fun i _ => ?_
  by_cases hsource : i.source = source
  · simp [Action.isOn, h, hsource]
  · simp [Action.isOn, h, hsource, Ne.symm hsource]

theorem mapAll_of_target {s : Session} {action : Action} (h : action.target? = none) :
    (s.mapAll fun i => if action.isOn i.source then i.after action else i) = s := by
  simp [Action.isOn, h, mapAll_id]

namespace Course

/-- No operation looks at log files that somebody still writes. -/
def Blind (c : Course) (actions : List Action) : Prop :=
  ∀ action ∈ actions, action.looks = true → ∀ i ∈ c.session.interfaces, i.mode ≠ .live

variable {c : Course} (hdistinct : c.session.Distinct)

include hdistinct

theorem on_session (source : Source) {operation : Interface → Interface}
    (hsource : ∀ i, (operation i).source = i.source) :
    (c.on source operation).session = c.session.mapAt source operation := by
  rw [Course.on]
  cases hfind : c.session.interface? source with
  | none => exact (mapAt_of_interface?_none hfind operation).symm
  | some i => exact setInterface_eq_mapAt hdistinct hfind operation (hsource i)

theorem drain_session (source : Source) (abandoned : Bool)
    {operation : Interface → Interface × List Verdict} (hclose : ∀ i, (operation i).1 = i.close) :
    (c.drain source abandoned operation).session = c.session.mapAt source Interface.close := by
  rw [Course.drain]
  cases hfind : c.session.interface? source with
  | none => exact (mapAt_of_interface?_none hfind Interface.close).symm
  | some i =>
    simp only [hclose]
    exact setInterface_eq_mapAt hdistinct hfind Interface.close rfl

theorem append_session (source : Source) (record : Record) :
    (c.step (.append source record)).session =
      c.session.mapAt source (·.after (.append source record)) := by
  have happend := on_mapAt hdistinct source fun i => i.source_after (.append source record)
  refine Eq.trans ?_ happend
  rw [Course.step, Session.append]
  split
  · rename_i h
    rw [h]
  · rename_i h
    rw [h]

theorem register_session (source : Source) (testId : String) (assertion : Assertion) :
    (c.step (.register source testId assertion)).session =
      c.session.mapAt source (·.after (.register source testId assertion)) := by
  have hregister := on_mapAt hdistinct source fun i =>
    i.source_after (.register source testId assertion)
  refine Eq.trans ?_ hregister
  rw [Course.step, Session.register]
  split
  · rename_i h
    rw [h]
  · rename_i h
    rw [h]

/-- An operation that is about an interface, and looks at no log files, changes that interface and
nothing else. -/
theorem step_mapAt {action : Action} {source : Source} (htarget : action.target? = some source)
    (hlooks : action.looks = true → ∀ i ∈ c.session.interfaces, i.mode ≠ .live) :
    (c.step action).session = c.session.mapAt source (·.after action) := by
  cases action with
  | append _ record =>
    cases htarget
    exact append_session hdistinct source record
  | register _ testId assertion =>
    cases htarget
    exact register_session hdistinct source testId assertion
  | except _ traceId =>
    cases htarget
    exact on_session hdistinct source fun i => rfl
  | wait _ budgetMs cancelled =>
    cases htarget
    have hstep := on_session hdistinct source fun i =>
      i.source_wait c.disk c.session.engine budgetMs cancelled
    refine hstep.trans (mapAt_congr source fun i hi => ?_)
    rw [Interface.wait_of_mode (hlooks rfl i hi)]
    rfl
  | settle _ =>
    cases htarget
    have hstep := on_session hdistinct source fun i => i.source_settle c.disk
    refine hstep.trans (mapAt_congr source fun i hi => ?_)
    rw [Interface.settle_of_mode (hlooks rfl i hi)]
    rfl
  | evaluate _ =>
    cases htarget
    exact drain_session hdistinct source false fun i => rfl
  | abandon _ reason =>
    cases htarget
    exact drain_session hdistinct source true fun i => rfl
  | cancel => cases htarget
  | call testId => cases htarget
  | change disk => cases htarget

omit hdistinct in
/-- An operation that is about no interface may cancel the session or answer a call. -/
theorem step_of_target_none {action : Action} (htarget : action.target? = none) :
    ∃ cancelled calls, (c.step action).session = { c.session with cancelled, calls } := by
  cases action with
  | cancel => exact ⟨true, c.session.calls, rfl⟩
  | call testId =>
    refine ⟨c.session.cancelled, (c.session.call testId).1.calls, ?_⟩
    rw [Course.step, Session.call]
    split <;> rfl
  | change disk => exact ⟨c.session.cancelled, c.session.calls, rfl⟩
  | _ => cases htarget

/-- An operation that looks at no log files changes the interface that it is about, and leaves the
others alone. Besides it may cancel the session, or answer a call. -/
theorem step_session {action : Action}
    (hlooks : action.looks = true → ∀ i ∈ c.session.interfaces, i.mode ≠ .live) :
    ∃ cancelled calls, (c.step action).session =
      { c.session.mapAll fun i => if action.isOn i.source then i.after action else i with
        cancelled, calls } := by
  cases htarget : action.target? with
  | some source =>
    rw [step_mapAt hdistinct htarget hlooks, mapAt_of_target htarget]
    exact ⟨c.session.cancelled, c.session.calls, rfl⟩
  | none =>
    rw [mapAll_of_target htarget]
    exact step_of_target_none htarget

/-- Every interface goes through the operations on it, one after the other. -/
theorem run_session {actions : List Action} (hblind : c.Blind actions) :
    ∃ cancelled calls, (c.run actions).session =
      { c.session.mapAll fun i => i.afterAll actions with cancelled, calls } := by
  induction actions generalizing c with
  | nil =>
    have hsame : (c.session.mapAll fun i => i.afterAll []) = c.session := mapAll_id c.session
    rw [hsame]
    exact ⟨c.session.cancelled, c.session.calls, rfl⟩
  | cons action rest ih =>
    rcases step_session hdistinct (hblind action List.mem_cons_self) with
      ⟨cancelled', calls', hstep⟩
    -- Sources and modes stay as they are, so the rest of the operations may rely on them too.
    have horigin : ∀ i : Interface, (if action.isOn i.source then i.after action else i).source =
          i.source ∧ (if action.isOn i.source then i.after action else i).mode = i.mode := by
      intro i
      split
      · exact i.origin_after action
      · exact ⟨rfl, rfl⟩
    have hdistinct' : (c.step action).session.Distinct := by
      rw [hstep]
      exact hdistinct.mapAll fun i => (horigin i).1
    have hblind' : (c.step action).Blind rest := by
      intro later hlater hlooks i hi
      rw [hstep] at hi
      rcases List.mem_map.1 hi with ⟨old, hold, rfl⟩
      rw [(horigin old).2]
      exact hblind later (List.mem_cons_of_mem action hlater) hlooks old hold
    -- The operation comes before the others, on the interface that it is about.
    have hboth : ∀ i : Interface,
        (if action.isOn i.source then i.after action else i).afterAll rest =
          i.afterAll (action :: rest) := by
      intro i
      rw [Interface.afterAll, (horigin i).1, Interface.afterAll, List.filter_cons]
      split <;> rfl
    rcases ih hdistinct' hblind' with ⟨cancelled, calls, hrest⟩
    refine ⟨cancelled, calls, hrest.trans ?_⟩
    rw [hstep]
    simp only [mapAll, List.map_map, Function.comp_def, hboth]

omit hdistinct in
theorem run_complete (h : c.session.Complete) {actions : List Action} (hblind : c.Blind actions) :
    (c.run actions).session.Complete := by
  rcases run_session h.distinct hblind with ⟨cancelled, calls, hrun⟩
  rw [hrun]
  exact h.mapAll fun i => (i.origin_afterAll actions).1

end Course

end Session
end TraceAudit
