import TraceAudit.Proofs.Session.Books
import TraceAudit.Proofs.Session.Pointwise

/-!
# Preparing a session

Before data is looked at, validators and exceptions are registered.

* `Interface.afterAll_prepares`: what is registered does not depend on the data, and leaves the data
  alone;
* `Session.prepared_session`: preparing a session prepares its interfaces, and does not end it.
-/

namespace TraceAudit

/-- The operation registers a validator or an exception. -/
def Session.Action.prepares : Session.Action → Bool
  | .register .. => true
  | .except .. => true
  | _ => false

namespace Interface

open Session (Action)

/-- Two interfaces that were asked for the same. -/
structure Alike (i j : Interface) : Prop where
  ledger : i.ledger = j.ledger
  exceptions : i.exceptions = j.exceptions

/-- What an operation leaves alone when it only registers something. -/
structure SameData (i j : Interface) : Prop where
  mode : j.mode = i.mode
  records : j.records = i.records
  store : j.store = i.store

theorem SameData.trans {i j k : Interface} (hij : i.SameData j) (hjk : j.SameData k) :
    i.SameData k :=
  ⟨hjk.mode.trans hij.mode, hjk.records.trans hij.records, hjk.store.trans hij.store⟩

theorem SameData.corruptEntries {i j : Interface} (h : i.SameData j) :
    j.corruptEntries = i.corruptEntries := by
  rw [Interface.corruptEntries, Interface.corruptEntries, h.store]

theorem sameData_after (i : Interface) {action : Action} (h : action.prepares = true) :
    i.SameData (i.after action) := by
  cases action with
  | register source testId assertion =>
    rw [after_register]
    split <;> exact ⟨rfl, rfl, rfl⟩
  | except source traceId => exact ⟨rfl, rfl, rfl⟩
  | _ => cases h

theorem Alike.after {i j : Interface} (h : i.Alike j) {action : Action}
    (hprepares : action.prepares = true) : (i.after action).Alike (j.after action) := by
  have hledger := h.ledger
  simp only [Interface.ledger, Ledger.mk.injEq] at hledger
  rcases hledger with ⟨hsource, hqueue, hclosed, hnext⟩
  cases action with
  | register source testId assertion =>
    rw [after_register, after_register, hclosed]
    split
    · exact h
    · refine ⟨?_, h.exceptions⟩
      simp only [enqueue, Interface.ledger, hsource, hqueue, hclosed, hnext]
  | except source traceId => exact ⟨h.ledger, congrArg (List.cons traceId) h.exceptions⟩
  | _ => cases hprepares

/-- Two interfaces of one source go through the same operations. -/
theorem afterAll_prepares {i j : Interface} (h : i.Alike j) {actions : List Action}
    (hprepares : ∀ action ∈ actions, action.prepares = true) :
    (i.afterAll actions).Alike (j.afterAll actions) ∧ i.SameData (i.afterAll actions) ∧
      j.SameData (j.afterAll actions) := by
  have hsource : i.source = j.source := congrArg Ledger.source h.ledger
  rw [afterAll, afterAll, hsource]
  -- From here on only the operations on this source count.
  have hown : ∀ action ∈ actions.filter (Action.isOn j.source), action.prepares = true :=
    fun action hmem => hprepares action (List.mem_of_mem_filter hmem)
  generalize actions.filter (Action.isOn j.source) = own at hown
  clear hsource hprepares
  induction own generalizing i j with
  | nil => exact ⟨h, ⟨rfl, rfl, rfl⟩, ⟨rfl, rfl, rfl⟩⟩
  | cons action rest ih =>
    have hfirst := hown action List.mem_cons_self
    have hrest : ∀ later ∈ rest, later.prepares = true :=
      fun later hlater => hown later (List.mem_cons_of_mem action hlater)
    rcases ih (h.after hfirst) hrest with ⟨halike, hleft, hright⟩
    exact ⟨halike, (i.sameData_after hfirst).trans hleft, (j.sameData_after hfirst).trans hright⟩

end Interface

namespace Session

variable {actions : List Action} (hprepares : ∀ action ∈ actions, action.prepares = true)

include hprepares

theorem blind_of_prepares (c : Course) : c.Blind actions := by
  intro action hmem hlooks
  have hprepare := hprepares action hmem
  cases action with
  | register source testId assertion => cases hlooks
  | except source traceId => cases hlooks
  | _ => cases hprepare

/-- Besides its interfaces, one by one, at most the answered calls of the session change. -/
theorem prepared_session {s : Session} (h : s.Complete) (disk : Disk) :
    ∃ calls, ((Course.start s disk).run actions).session =
      { s.mapAll fun i => i.afterAll actions with calls } := by
  have hblind := blind_of_prepares hprepares (Course.start s disk)
  rcases Course.run_session (c := Course.start s disk) h.distinct hblind with
    ⟨cancelled, calls, hrun⟩
  have hcancel : Action.cancel ∉ actions := by
    intro hmem
    cases hprepares Action.cancel hmem
  have hsame : cancelled = s.cancelled := by
    have hcancelled := cancelled_run (Course.start s disk) actions
    rw [hrun] at hcancelled
    refine Bool.eq_iff_iff.2 (hcancelled.trans ?_)
    simp [hcancel, Course.start]
  refine ⟨calls, ?_⟩
  rw [hrun, hsame]
  rfl

theorem prepared_complete {s : Session} (h : s.Complete) (disk : Disk) :
    ((Course.start s disk).run actions).session.Complete :=
  Course.run_complete (c := Course.start s disk) h (blind_of_prepares hprepares _)

end Session
end TraceAudit
