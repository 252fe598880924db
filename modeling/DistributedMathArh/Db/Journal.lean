import DistributedMathArh.Db.Store

namespace DistributedMathArh.Db

open Transition

structure LogEntry where
  nodeId : Option Nat
  experimentId : Option Nat
  severity : LogSeverity
  message : Text
  timestamp : String
  deriving DecidableEq

def LogRow.entry (row : LogRow) : LogEntry :=
  ⟨row.nodeId, row.experimentId, row.severity, row.message, row.timestamp⟩

namespace Event

def note (e : Event) (experimentId nodeId : Option Nat) (message : String) : List LogEntry :=
  [⟨nodeId, experimentId, .info, param message, e.now⟩]

def entries (e : Event) : List LogEntry :=
  match e.call, e.reply with
  | .base (.createExperiment userId _), .of (.id _) =>
    e.note none none ("User " ++ toString userId.toNat ++ " created experiment ")
  | .base (.updateExperimentStatus experimentId status), .of .unit =>
    e.note none none ("Experiment " ++ toString experimentId ++ "  status updated to " ++ status)
  | .base (.createIteration experimentId nodeId _), .of (.id k) =>
    e.note (some experimentId.toNat) (some nodeId.toNat)
      ("Iteration " ++ toString k ++ " created for experiment " ++ toString experimentId)
  | .base (.updateIterationStatus iterationId status _), .of .unit =>
    e.note none none ("Iteration " ++ toString iterationId ++ " status updated to " ++ status)
  | .log experimentId nodeId severity message, .of (.id _) =>
    (kLogSeverityMappings.lookup (param severity).val).toList.map fun sev =>
      ⟨nodeId.map UInt64.toNat, experimentId.map UInt64.toNat, sev, param message, e.now⟩
  | .registerNode ipAddress _, .of (.id k) =>
    e.note none (some k) ("Node registered with IP " ++ ipAddress)
  | .updateNodeStatus nodeId _, .of .unit =>
    e.note none (some nodeId.toNat) ("Node status updated to " ++ toString nodeId)
  | .unregisterNode nodeId, .of .unit =>
    e.note none (some nodeId.toNat) ("Node " ++ toString nodeId ++ " unregistered.")
  | _, _ => []

def source : ServiceCall → Option Sequence
  | .base (.createUser ..) => some .user
  | .base (.createExperiment ..) => some .experiment
  | .base (.createIteration ..) => some .iteration
  | .log .. => some .log
  | .registerNode .. => some .node
  | _ => none

def key (q : Sequence) (e : Event) : Option Nat :=
  match e.reply with
  | .of (.id k) => if source e.call = some q then some k else none
  | _ => none

end Event

theorem entries_halt {now : String} {call : ServiceCall} {err : DbHalt} :
    Event.entries ⟨now, call, .of (.halt err)⟩ = [] := by
  cases call with
  | base c => cases c <;> rfl
  | _ => rfl

variable {J : JsonColumn} {cols : Columns}

namespace Stored

variable {σ τ : Store} {e : Event}

theorem logs (h : Stored J cols σ e τ) :
    (τ.logs = σ.logs ∧ e.entries = []) ∨
    ∃ row, τ.logs = σ.logs ++ [row] ∧ e.entries = [row.entry] ∧ row.logId = σ.next .log ∧
      τ.drawn .log = σ.next .log := by
  cases h with
  | failed h => exact .inl ⟨rfl, entries_halt⟩
  | idle h => cases h <;> exact .inl ⟨rfl, rfl⟩
  | createUser hrole hlogin hfresh => exact .inl ⟨rfl, rfl⟩
  | authenticated hu hlogin hpassword => exact .inl ⟨rfl, rfl⟩
  | deleteUser h => exact .inl ⟨rfl, rfl⟩
  | log hseverity hexperiment hnode =>
    refine .inr ⟨_, rfl, ?_, rfl, rfl⟩
    simp only [Event.entries, hseverity]
    rfl
  | _ => exact .inr ⟨_, rfl, rfl, rfl, rfl⟩

theorem key (h : Stored J cols σ e τ) (q : Sequence) :
    (e.key q = none ∧ σ.drawn q ≤ τ.drawn q) ∨ e.key q = some (σ.next q) ∧ τ.drawn q = σ.next q := by
  cases h with
  | failed h => exact .inl ⟨rfl, h q⟩
  | idle h => cases h <;> exact .inl ⟨rfl, Nat.le_refl _⟩
  | authenticated hu hlogin hpassword => exact .inl ⟨rfl, Nat.le_refl _⟩
  | deleteUser h => exact .inl ⟨rfl, Nat.le_refl _⟩
  | _ =>
    cases q <;> first
      | exact .inr ⟨rfl, rfl⟩
      | exact .inl ⟨rfl, Nat.le_refl _⟩
      | exact .inl ⟨rfl, Nat.le_succ _⟩

end Stored

variable {σ₀ σ : Store} {history : List Event}

theorem journal_of_stored (run : Run (Stored J cols) σ₀ history σ) :
    ∃ new, σ.logs = σ₀.logs ++ new ∧ new.map LogRow.entry = history.flatMap Event.entries ∧
      Serial (σ₀.drawn .log) (new.map LogRow.logId) (σ.drawn .log) := by
  apply run.invariant_trace (I := fun history σ => ∃ new, σ.logs = σ₀.logs ++ new ∧
    new.map LogRow.entry = history.flatMap Event.entries ∧
      Serial (σ₀.drawn .log) (new.map LogRow.logId) (σ.drawn .log))
  · exact ⟨[], (List.append_nil _).symm, rfl, .nil⟩
  · rintro history σ e τ ⟨new, hlogs, hentries, hserial⟩ step
    obtain ⟨heq, hnone⟩ | ⟨row, heq, hrow, hid, hdrawn⟩ := step.logs
    · refine ⟨new, heq.trans hlogs, by simp [hentries, hnone], hserial.skip ?_⟩
      obtain ⟨-, hle⟩ | ⟨-, hle⟩ := step.key .log
      · exact hle
      · exact hle ▸ Nat.le_succ _
    · refine ⟨new ++ [row], ?_, by simp [hentries, hrow], ?_⟩
      · rw [heq, hlogs, List.append_assoc]
      · rw [List.map_append, List.map_singleton, hid, hdrawn]
        exact hserial.draw

theorem keys_of_stored (run : Run (Stored J cols) σ₀ history σ) (q : Sequence) :
    Serial (σ₀.drawn q) (history.filterMap (Event.key q)) (σ.drawn q) := by
  apply run.invariant_trace (I := fun history σ =>
    Serial (σ₀.drawn q) (history.filterMap (Event.key q)) (σ.drawn q)) .nil
  intro history σ e τ hserial step
  rw [List.filterMap_append]
  obtain ⟨hnone, hle⟩ | ⟨hkey, hdrawn⟩ := step.key q
  · rw [List.filterMap_cons_none hnone, List.filterMap_nil, List.append_nil]
    exact hserial.skip hle
  · rw [List.filterMap_cons_some hkey, List.filterMap_nil, hdrawn]
    exact hserial.draw

namespace NodeService

variable {s t : NodeService}

/-- Whatever the calls were, the log of the service grows by one entry for each call that changed
an experiment, an iteration or a node, in their order, and by the entries that were asked for;
no entry is ever changed or lost, and calls that fail leave none. -/
theorem journal_of_run (run : Run (Step J cols) s history t) :
    ∃ new, t.base.db.logs.rows = s.base.db.logs.rows ++ new ∧
      new.map LogRow.entry = history.flatMap Event.entries ∧
      Serial s.base.db.logs.last (new.map LogRow.logId) t.base.db.logs.last :=
  journal_of_stored (stored_run run)

theorem journal_of_run_experiment : ∃ new,
    withExperiment.base.db.logs.rows = noNodes.base.db.logs.rows ++ new ∧
      new.map LogRow.entry = [userCreated, experimentCreated].flatMap Event.entries ∧
      Serial noNodes.base.db.logs.last (new.map LogRow.logId) withExperiment.base.db.logs.last :=
  journal_of_run run_experimentCreated

/-- The keys that the calls of a run return grow: none is returned twice, not even after its row
was deleted or another call failed. -/
theorem keys_of_run (run : Run (Step J cols) s history t) (q : Sequence) :
    Serial (s.store.drawn q) (history.filterMap (Event.key q)) (t.store.drawn q) :=
  keys_of_stored (stored_run run) q

theorem keys_of_run_experiment : Serial (noNodes.store.drawn .experiment)
    ([userCreated, experimentCreated].filterMap (Event.key .experiment))
    (withExperiment.store.drawn .experiment) :=
  keys_of_run run_experimentCreated .experiment

end NodeService

end DistributedMathArh.Db
