import DistributedMathArh.Db.Store

namespace DistributedMathArh.Db

open Transition

abbrev Timeline (S : Type) := List (S × String)

namespace Timeline

variable {S : Type} {p : S → Bool} {l : Timeline S} {st init : S} {now : String}
  {start : Option String}

def status (l : Timeline S) (init : S) : S := (l.getLast?.map Prod.fst).getD init

def since (p : S → Bool) (l : Timeline S) (start : Option String) : Option String :=
  ((l.filter fun c => p c.1).getLast?.map Prod.snd).or start

@[simp] theorem status_snoc : status (l ++ [(st, now)]) init = st := by
  simp [status]

@[simp] theorem since_snoc :
    since p (l ++ [(st, now)]) start = if p st then some now else since p l start := by
  unfold since
  rw [List.filter_append]
  split
  · rename_i h
    simp [h]
  · rename_i h
    simp [h]

end Timeline

namespace Event

def experimentChange (k : Nat) (e : Event) : Option (ExperimentStatus × String) :=
  match e.reply, e.call with
  | .of .unit, .base (.updateExperimentStatus experimentId status) =>
    if experimentId.toNat = k then
      (kExpStatusMappings.lookup (param status).val).map fun st => (st, e.now)
    else none
  | _, _ => none

def iterationChange (J : JsonColumn) (k : Nat) (e : Event) :
    Option (IterationStatus × Option String × String) :=
  match e.reply, e.call with
  | .of .unit, .base (.updateIterationStatus iterationId status outputData) =>
    if iterationId.toNat = k then
      (kIterStatusMappings.lookup (param status).val).map fun st =>
        (st, if DbService.isNull outputData then none else J.cast (J.write outputData), e.now)
    else none
  | _, _ => none

def nodeChange (k : Nat) (e : Event) : Option (NodeStatus × String) :=
  match e.reply, e.call with
  | .of .unit, .updateNodeStatus nodeId status =>
    if nodeId.toNat = k then
      (kNodeStMappings.lookup (param status).val).map fun st => (st, e.now)
    else none
  | .of .unit, .unregisterNode nodeId => if nodeId.toNat = k then some (.inactive, e.now) else none
  | _, _ => none

end Event

section Replay

def ExperimentRow.replay (l : Timeline ExperimentStatus) (r : ExperimentRow) : ExperimentRow :=
  { r with
    status := l.status r.status
    startTime := l.since (· = .running) r.startTime
    endTime := l.since (fun st => st = .succeeded ∨ st = .error) r.endTime }

def IterationRow.replay (l : List (IterationStatus × Option String × String)) (r : IterationRow) :
    IterationRow :=
  let times : Timeline IterationStatus := l.map fun c => (c.1, c.2.2)
  { r with
    status := times.status r.status
    outputData := (l.filterMap fun c => c.2.1).getLast?.or r.outputData
    endTime := times.since (fun st => st = .succeeded ∨ st = .error) r.endTime }

/-- Every change of the status counts as a sign of life. -/
def NodeRow.replay (l : Timeline NodeStatus) (r : NodeRow) : NodeRow :=
  { r with status := l.status r.status, lastPing := l.since (fun _ => true) r.lastPing }

def ExperimentRow.after (r : ExperimentRow) (e : Event) : ExperimentRow :=
  (e.experimentChange r.experimentId).elim r fun c => r.setStatus r.experimentId c.1 c.2

def IterationRow.after (J : JsonColumn) (r : IterationRow) (e : Event) : IterationRow :=
  (e.iterationChange J r.iterationId).elim r fun c => r.setStatus r.iterationId c.1 c.2.1 c.2.2

def NodeRow.after (r : NodeRow) (e : Event) : NodeRow :=
  (e.nodeChange r.nodeId).elim r fun c => r.setStatus r.nodeId c.1 c.2

theorem ExperimentRow.setStatus_replay {l : Timeline ExperimentStatus} {r : ExperimentRow}
    {c : ExperimentStatus × String} :
    (r.replay l).setStatus r.experimentId c.1 c.2 = r.replay (l ++ [c]) := by
  obtain ⟨st, now⟩ := c
  simp [setStatus, replay]

theorem IterationRow.setStatus_replay {l : List (IterationStatus × Option String × String)}
    {r : IterationRow} {c : IterationStatus × Option String × String} :
    (r.replay l).setStatus r.iterationId c.1 c.2.1 c.2.2 = r.replay (l ++ [c]) := by
  obtain ⟨st, _ | output, now⟩ := c <;> simp [setStatus, replay]

theorem NodeRow.setStatus_replay {l : Timeline NodeStatus} {r : NodeRow} {c : NodeStatus × String} :
    (r.replay l).setStatus r.nodeId c.1 c.2 = r.replay (l ++ [c]) := by
  obtain ⟨st, now⟩ := c
  simp [setStatus, replay]

theorem foldl_eq_replay {R C : Type} (key : R → Nat) (change : Nat → Event → Option C)
    (set : R → C → R) (replay : List C → R → R) (r : R) (hnil : replay [] r = r)
    (hkey : ∀ l, key (replay l r) = key r) (hset : ∀ l c, set (replay l r) c = replay (l ++ [c]) r)
    (history : List Event) :
    history.foldl (fun r e => (change (key r) e).elim r (set r)) r =
      replay (history.filterMap (change (key r))) r := by
  induction history using List.reverseRecOn with
  | nil => exact hnil.symm
  | append_singleton history e ih =>
    rw [List.foldl_append, ih, List.foldl_cons, List.foldl_nil, List.filterMap_append, hkey]
    cases h : change (key r) e with
    | none => simp [h]
    | some c => simp [h, hset]

theorem ExperimentRow.foldl_after (r : ExperimentRow) (history : List Event) :
    history.foldl after r = r.replay (history.filterMap (Event.experimentChange r.experimentId)) :=
  foldl_eq_replay experimentId Event.experimentChange (fun r c => r.setStatus r.experimentId c.1 c.2)
    replay r rfl (fun _ => rfl) (fun _ _ => setStatus_replay) history

theorem IterationRow.foldl_after (J : JsonColumn) (r : IterationRow) (history : List Event) :
    history.foldl (after J) r =
      r.replay (history.filterMap (Event.iterationChange J r.iterationId)) :=
  foldl_eq_replay iterationId (Event.iterationChange J)
    (fun r c => r.setStatus r.iterationId c.1 c.2.1 c.2.2)
    replay r rfl (fun _ => rfl) (fun _ _ => setStatus_replay) history

theorem NodeRow.foldl_after (r : NodeRow) (history : List Event) :
    history.foldl after r = r.replay (history.filterMap (Event.nodeChange r.nodeId)) :=
  foldl_eq_replay nodeId Event.nodeChange (fun r c => r.setStatus r.nodeId c.1 c.2)
    replay r rfl (fun _ => rfl) (fun _ _ => setStatus_replay) history

end Replay

namespace Stored

variable {J : JsonColumn} {cols : Columns} {σ τ : Store} {e : Event}

theorem after_experiment (h : Stored J cols σ e τ) :
    ∀ r ∈ σ.experiments, r.after e ∈ τ.experiments := by
  intro r hr
  cases h with
  | failed h => exact hr
  | idle h => cases h <;> exact hr
  | createExperiment hcast huser => exact List.mem_append_left _ hr
  | @updateExperimentStatus now experimentId status st hstatus =>
    refine List.mem_map.mpr ⟨r, hr, ?_⟩
    simp only [ExperimentRow.after, Event.experimentChange, hstatus, ExperimentRow.setStatus]
    split
    · rename_i hk
      simp [hk]
    · rename_i hk
      simp [Ne.symm hk]
  | _ => exact hr

theorem after_iteration (h : Stored J cols σ e τ) :
    ∀ r ∈ σ.iterations, r.after J e ∈ τ.iterations := by
  intro r hr
  cases h with
  | failed h => exact hr
  | idle h => cases h <;> exact hr
  | createIteration htype hexperiment hnode => exact List.mem_append_left _ hr
  | @updateIterationStatus now iterationId status outputData st output hstatus houtput =>
    have htext : (if DbService.isNull outputData then none else J.cast (J.write outputData)) =
        output := by
      split at houtput
      · rename_i hnull
        cases houtput
        rw [if_pos hnull]
      · rename_i hnull
        obtain ⟨text, htext, rfl⟩ := Option.map_eq_some_iff.mp houtput
        rw [if_neg hnull, htext]
    refine List.mem_map.mpr ⟨r, hr, ?_⟩
    simp only [IterationRow.after, Event.iterationChange, hstatus, htext, IterationRow.setStatus]
    split
    · rename_i hk
      simp [hk]
    · rename_i hk
      simp [Ne.symm hk]
  | _ => exact hr

theorem after_node (h : Stored J cols σ e τ) : ∀ r ∈ σ.nodes, r.after e ∈ τ.nodes := by
  intro r hr
  cases h with
  | failed h => exact hr
  | idle h => cases h <;> exact hr
  | registerNode hrow => exact List.mem_append_left _ hr
  | @updateNodeStatus now nodeId status st hstatus hnode =>
    refine List.mem_map.mpr ⟨r, hr, ?_⟩
    simp only [NodeRow.after, Event.nodeChange, hstatus, NodeRow.setStatus]
    split
    · rename_i hk
      simp [hk]
    · rename_i hk
      simp [Ne.symm hk]
  | @unregisterNode now nodeId hnode =>
    refine List.mem_map.mpr ⟨r, hr, ?_⟩
    simp only [NodeRow.after, Event.nodeChange, NodeRow.setStatus]
    split
    · rename_i hk
      simp [hk]
    · rename_i hk
      simp [Ne.symm hk]
  | _ => exact hr

end Stored

section Read

variable {J : JsonColumn} {cols : Columns} {mktime : Tm → Int}

theorem DbService.selectOne_of_mem {R D : Type} {key : R → Nat} (table : Database → Table R key)
    {query : String} {ofRow : R → Except DbHalt D} {id : UInt64} {s : DbService} {row : R}
    (hc : s.connected = true) (hid : bigint id = some (key row))
    (hrow : row ∈ (table s.db).rows) :
    s.selectOne query (fun db k => (table db).select k) ofRow id = ofRow row := by
  have hselect : (table s.db).select (key row) = [row] :=
    filter_eq_of_nodup_map key (table s.db).nodup hrow
  have hquery : ∀ x : Except DbHalt D, s.read (fun _ => x) = x := by
    intro x
    cases x <;> simp [read, executeTransaction, hc]
  rw [← hquery (ofRow row)]
  simp only [selectOne, read, executeTransaction, hc, hid, hselect, oneRow, if_true]
  rfl

theorem NodeService.getNode_of_mem {id : UInt64} {s : NodeService} {row : NodeRow}
    (hc : s.base.connected = true) (hid : bigint id = some row.nodeId) (hrow : row ∈ s.nodes.rows) :
    s.getNode cols mktime id = Node.ofRow cols mktime row := by
  simp only [getNode, hid, select_of_mem hrow, DbService.read, DbService.executeTransaction, hc]
  rfl

end Read

namespace NodeService

variable {J : JsonColumn} {cols : Columns} {s t : NodeService} {history : List Event}

/-- An experiment, an iteration or a node that is in its table is never lost: after any calls the
service reads it as its row with the changes of its status that were committed in between. -/
theorem replayed_of_run (run : Run (Step J cols) s history t) (hc : t.base.connected = true)
    (mktime : Tm → Int) {id : UInt64} {k : Nat} (hid : bigint id = some k) :
    (∀ r ∈ s.base.db.experiments.rows, r.experimentId = k →
      t.base.getExperiment mktime id =
        Experiment.ofRow mktime (r.replay (history.filterMap (Event.experimentChange k)))) ∧
    (∀ r ∈ s.base.db.iterations.rows, r.iterationId = k →
      t.base.getIteration mktime id =
        Iteration.ofRow mktime (r.replay (history.filterMap (Event.iterationChange J k)))) ∧
    (∀ r ∈ s.nodes.rows, r.nodeId = k →
      t.getNode cols mktime id =
        Node.ofRow cols mktime (r.replay (history.filterMap (Event.nodeChange k)))) := by
  have stored := stored_run run
  refine ⟨?_, ?_, ?_⟩
  · rintro r hr rfl
    have hmem := stored.mem_foldl Store.experiments (fun _ _ _ h => h.after_experiment) hr
    rw [ExperimentRow.foldl_after] at hmem
    exact DbService.selectOne_of_mem Database.experiments hc hid hmem
  · rintro r hr rfl
    have hmem := stored.mem_foldl Store.iterations (fun _ _ _ h => h.after_iteration) hr
    rw [IterationRow.foldl_after] at hmem
    exact DbService.selectOne_of_mem Database.iterations hc hid hmem
  · rintro r hr rfl
    have hmem := stored.mem_foldl Store.nodes (fun _ _ _ h => h.after_node) hr
    rw [NodeRow.foldl_after] at hmem
    exact getNode_of_mem hc hid hmem

theorem replayed_of_run_running : ∃ t,
    Run (Step plainText plainColumns) withExperiment [⟨"2025-05-01 12:00:00.5",
      .base (.updateExperimentStatus 1 "running"), .of .unit⟩] t ∧
    t.base.getExperiment DbService.sampleTime 1 = Experiment.ofRow DbService.sampleTime
      ⟨1, 1, .running, "null", "2025-05-01 11:00:01.5", some "2025-05-01 12:00:00.5", none⟩ := by
  have run : Run (Step plainText plainColumns) withExperiment [⟨"2025-05-01 12:00:00.5",
    .base (.updateExperimentStatus 1 "running"), .of .unit⟩] _ := .single rfl
  have hkey : bigint 1 = some 1 := rfl
  have hread := (replayed_of_run run rfl DbService.sampleTime hkey).1
  exact ⟨_, run, hread _ (List.mem_singleton_self _) rfl⟩

end NodeService

end DistributedMathArh.Db
