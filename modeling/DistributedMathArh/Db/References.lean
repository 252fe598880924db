import DistributedMathArh.Db.Store

namespace DistributedMathArh.Db

open Transition

namespace Store

structure Refers (σ : Store) : Prop where
  user : ∀ e ∈ σ.experiments, σ.HasUser e.userId
  experiment : ∀ i ∈ σ.iterations, σ.HasExperiment i.experimentId
  node : ∀ i ∈ σ.iterations, σ.HasNode i.nodeId
  logExperiment : ∀ l ∈ σ.logs, ∀ k ∈ l.experimentId, σ.HasExperiment k
  logNode : ∀ l ∈ σ.logs, ∀ k ∈ l.nodeId, σ.HasNode k

variable {σ : Store}

theorem exists_map {R : Type} {key : R → Nat} {f : R → R} (hf : ∀ r, key (f r) = key r)
    {rows : List R} {k : Nat} (h : ∃ r ∈ rows, key r = k) : ∃ r ∈ rows.map f, key r = k := by
  obtain ⟨r, hr, rfl⟩ := h
  exact ⟨f r, List.mem_map_of_mem hr, hf r⟩

theorem exists_append {R : Type} {key : R → Nat} {rows new : List R} {k : Nat}
    (h : ∃ r ∈ rows, key r = k) : ∃ r ∈ rows ++ new, key r = k := by
  obtain ⟨r, hr, hk⟩ := h
  exact ⟨r, List.mem_append_left _ hr, hk⟩

namespace Refers

theorem logged (h : σ.Refers) {experimentId nodeId : Option Nat} {severity : LogSeverity}
    {message now : String} (hexperiment : ∀ k ∈ experimentId, σ.HasExperiment k)
    (hnode : ∀ k ∈ nodeId, σ.HasNode k) :
    (σ.logged experimentId nodeId severity message now).Refers where
  user := h.user
  experiment := h.experiment
  node := h.node
  logExperiment l hl := by
    cases List.mem_append.mp hl with
    | inl hl => exact h.logExperiment l hl
    | inr hl => exact List.mem_singleton.mp hl ▸ hexperiment
  logNode l hl := by
    cases List.mem_append.mp hl with
    | inl hl => exact h.logNode l hl
    | inr hl => exact List.mem_singleton.mp hl ▸ hnode

theorem note (h : σ.Refers) {severity : LogSeverity} {message now : String} :
    (σ.logged none none severity message now).Refers :=
  h.logged (fun _ hk => by cases hk) fun _ hk => by cases hk

theorem noteNode (h : σ.Refers) {k : Nat} {severity : LogSeverity} {message now : String}
    (hnode : σ.HasNode k) : (σ.logged none (some k) severity message now).Refers := by
  refine h.logged (fun _ hk => by cases hk) fun l hl => ?_
  cases hl
  exact hnode

theorem setUsers (h : σ.Refers) {users : List UserRow}
    (husers : ∀ e ∈ σ.experiments, ∃ u ∈ users, u.userId = e.userId) :
    ({ σ with users } : Store).Refers :=
  ⟨husers, h.experiment, h.node, h.logExperiment, h.logNode⟩

theorem addUser (h : σ.Refers) {login : Varchar 255} {hashedPassword : Text} {role : UserRole}
    {now : String} : (σ.addUser login hashedPassword role now).Refers :=
  ⟨fun e he => exists_append (h.user e he), h.experiment, h.node, h.logExperiment, h.logNode⟩

theorem addExperiment (h : σ.Refers) {userId : Nat} {parameters now : String}
    (huser : σ.HasUser userId) : (σ.addExperiment userId parameters now).Refers where
  user e he := by
    cases List.mem_append.mp he with
    | inl he => exact h.user e he
    | inr he => exact List.mem_singleton.mp he ▸ huser
  experiment i hi := exists_append (h.experiment i hi)
  node := h.node
  logExperiment l hl k hk := exists_append (h.logExperiment l hl k hk)
  logNode := h.logNode

theorem addIteration (h : σ.Refers) {experimentId nodeId : Nat} {iterT : IterationType}
    {now : String} (hexperiment : σ.HasExperiment experimentId) (hnode : σ.HasNode nodeId) :
    (σ.addIteration experimentId nodeId iterT now).Refers where
  user := h.user
  experiment i hi := by
    cases List.mem_append.mp hi with
    | inl hi => exact h.experiment i hi
    | inr hi => exact List.mem_singleton.mp hi ▸ hexperiment
  node i hi := by
    cases List.mem_append.mp hi with
    | inl hi => exact h.node i hi
    | inr hi => exact List.mem_singleton.mp hi ▸ hnode
  logExperiment := h.logExperiment
  logNode := h.logNode

theorem addNode (h : σ.Refers) {row : NodeRow} : (σ.addNode row).Refers :=
  ⟨h.user, h.experiment, fun i hi => exists_append (h.node i hi), h.logExperiment,
    fun l hl k hk => exists_append (h.logNode l hl k hk)⟩

theorem setExperiments (h : σ.Refers) {k : Nat} {st : ExperimentStatus} {now : String} :
    ({ σ with experiments := σ.experiments.map (ExperimentRow.setStatus k st now) } : Store).Refers where
  user e he := by
    obtain ⟨r, hr, rfl⟩ := List.mem_map.mp he
    have huser : (r.setStatus k st now).userId = r.userId := by
      unfold ExperimentRow.setStatus
      split <;> rfl
    exact huser ▸ h.user r hr
  experiment i hi := exists_map (ExperimentRow.experimentId_setStatus k st now) (h.experiment i hi)
  node := h.node
  logExperiment l hl k' hk :=
    exists_map (ExperimentRow.experimentId_setStatus k st now) (h.logExperiment l hl k' hk)
  logNode := h.logNode

theorem setIterations (h : σ.Refers) {k : Nat} {st : IterationStatus} {output : Option String}
    {now : String} :
    ({ σ with iterations := σ.iterations.map (IterationRow.setStatus k st output now) } : Store).Refers := by
  have hsame : ∀ i : IterationRow, (i.setStatus k st output now).experimentId = i.experimentId ∧
      (i.setStatus k st output now).nodeId = i.nodeId := by
    intro i
    unfold IterationRow.setStatus
    split <;> exact ⟨rfl, rfl⟩
  refine ⟨h.user, fun i hi => ?_, fun i hi => ?_, h.logExperiment, h.logNode⟩
  · obtain ⟨r, hr, rfl⟩ := List.mem_map.mp hi
    exact (hsame r).1 ▸ h.experiment r hr
  · obtain ⟨r, hr, rfl⟩ := List.mem_map.mp hi
    exact (hsame r).2 ▸ h.node r hr

theorem setNodes (h : σ.Refers) {k : Nat} {st : NodeStatus} {now : String} :
    ({ σ with nodes := σ.nodes.map (NodeRow.setStatus k st now) } : Store).Refers :=
  ⟨h.user, h.experiment, fun i hi => exists_map (NodeRow.nodeId_setStatus k st now) (h.node i hi),
    h.logExperiment,
    fun l hl k' hk => exists_map (NodeRow.nodeId_setStatus k st now) (h.logNode l hl k' hk)⟩

end Refers

end Store

variable {J : JsonColumn} {cols : Columns} {σ τ : Store} {e : Event}

theorem Stored.refers (h : Stored J cols σ e τ) (hσ : σ.Refers) : τ.Refers := by
  cases h with
  | failed h => exact ⟨hσ.user, hσ.experiment, hσ.node, hσ.logExperiment, hσ.logNode⟩
  | idle h => exact hσ
  | createUser hrole hlogin hfresh => exact hσ.addUser
  | authenticated hu hlogin hpassword =>
    exact hσ.setUsers fun e he =>
      Store.exists_map (UserRow.userId_setLastLogin _ _) (hσ.user e he)
  | deleteUser h =>
    -- whoever has experiments is not deleted
    refine hσ.setUsers fun e he => ?_
    obtain ⟨u, hu, hk⟩ := hσ.user e he
    refine ⟨u, List.mem_filter.mpr ⟨hu, decide_eq_true fun hdel => ?_⟩, hk⟩
    exact h ⟨u, hu, hdel⟩ e he (hk ▸ hdel)
  | createExperiment hcast huser => exact (hσ.addExperiment huser).note
  | updateExperimentStatus hstatus => exact hσ.setExperiments.note
  | createIteration htype hexperiment hnode =>
    refine (hσ.addIteration hexperiment hnode).logged (fun k hk => ?_) fun k hk => ?_
    · cases hk
      exact hexperiment
    · cases hk
      exact hnode
  | updateIterationStatus hstatus houtput => exact hσ.setIterations.note
  | log hseverity hexperiment hnode =>
    refine hσ.logged (fun k hk => ?_) fun k hk => ?_
    · obtain ⟨id, hid, rfl⟩ := Option.mem_map.mp hk
      exact hexperiment id hid
    · obtain ⟨id, hid, rfl⟩ := Option.mem_map.mp hk
      exact hnode id hid
  | registerNode hrow =>
    refine hσ.addNode.noteNode ⟨_, List.mem_append_right _ (List.mem_singleton_self _), ?_⟩
    exact NodeService.nodeId_of_newRow hrow
  | updateNodeStatus hstatus hnode =>
    exact hσ.setNodes.noteNode (Store.exists_map (NodeRow.nodeId_setStatus _ _ _) hnode)
  | unregisterNode hnode =>
    exact hσ.setNodes.noteNode (Store.exists_map (NodeRow.nodeId_setStatus _ _ _) hnode)

theorem Stored.owner (h : Stored J cols σ e τ) {k : Nat} (hk : ∃ x ∈ σ.experiments, x.userId = k) :
    ∃ x ∈ τ.experiments, x.userId = k := by
  cases h with
  | failed h => exact hk
  | idle h => exact hk
  | createExperiment hcast huser => exact Store.exists_append hk
  | updateExperimentStatus hstatus =>
    refine Store.exists_map (fun x => ?_) hk
    unfold ExperimentRow.setStatus
    split <;> rfl
  | _ => exact hk

theorem Stored.owner_not_deleted (h : Stored J cols σ e τ) (hσ : σ.Refers) {userId : UInt64}
    (hk : ∃ x ∈ σ.experiments, x.userId = userId.toNat) (he : e.call = .base (.deleteUser userId)) :
    e.reply ≠ .of .unit := by
  intro hreply
  cases h with
  | @deleteUser now id hfree =>
    cases he
    obtain ⟨x, hx, hxk⟩ := hk
    obtain ⟨u, hu, huk⟩ := hσ.user x hx
    exact hfree ⟨u, hu, huk.trans hxk⟩ x hx hxk
  | failed h => cases hreply
  | idle h => cases h <;> cases he
  | _ => cases he

namespace NodeService

variable {s t : NodeService} {history : List Event}

/-- Over any run of calls every foreign key keeps its row: no call leaves an experiment without its
user, an iteration without its experiment or its node, or an entry about nothing. -/
theorem refers_of_run (run : Run (Step J cols) s history t) (hs : s.store.Refers) :
    t.store.Refers :=
  (stored_run run).invariant (fun _ _ _ hσ step => step.refers hσ) hs

theorem noNodes_refers : noNodes.store.Refers where
  user _ h := absurd h List.not_mem_nil
  experiment _ h := absurd h List.not_mem_nil
  node _ h := absurd h List.not_mem_nil
  logExperiment _ h := absurd h List.not_mem_nil
  logNode _ h := absurd h List.not_mem_nil

theorem refers_of_run_experiment : withExperiment.store.Refers :=
  refers_of_run run_experimentCreated noNodes_refers

theorem deleteUser_of_owner {userId : UInt64} {k : Nat} (hs : s.store.Refers)
    (hc : s.base.connected = true) (hid : bigint userId = some k)
    (hk : ∃ x ∈ s.base.db.experiments.rows, x.userId = k) :
    (s.base.deleteUser userId).1 =
      .error (.sqlError "DELETE FROM \"User\" WHERE user_id = $1" .foreignKey) := by
  obtain ⟨x, hx, hxk⟩ := hk
  obtain ⟨u, hu, huk⟩ := hs.user x hx
  have huser : s.base.db.users.select k ≠ [] :=
    Database.select_ne_nil.mpr ⟨u, hu, huk.trans hxk⟩
  have hdelete : s.base.db.deleteUser k = (.error .foreignKey, s.base.db) :=
    if_pos ⟨huser, x, hx, hxk⟩
  simp [DbService.deleteUser, DbService.executeTransaction, hc, hid, Txn.bind, Txn.orFail, Txn.exec,
    hdelete]

/-- Who ever created an experiment is a user forever: `DeleteUser` never returns for them, and on
a connected service it is refused with `23503`. -/
theorem owner_of_run {now : String} {userId : UInt64} {parameters : Json.Value} {k : Nat}
    {s₁ : NodeService} (hs : s.store.Refers)
    (hcreate : s.Step J cols ⟨now, .base (.createExperiment userId parameters), .of (.id k)⟩ s₁)
    (run : Run (Step J cols) s₁ history t) :
    t.store.HasUser userId.toNat ∧
      (∀ e ∈ history, e.call = .base (.deleteUser userId) → e.reply ≠ .of .unit) ∧
      (t.base.connected = true → ∀ id, bigint userId = some id →
        (t.base.deleteUser userId).1 =
          .error (.sqlError "DELETE FROM \"User\" WHERE user_id = $1" .foreignKey)) := by
  have hrefers := (stored_step hcreate).refers hs
  have howner : ∃ x ∈ s₁.store.experiments, x.userId = userId.toNat := by
    cases hstore : s₁.store with
    | mk users experiments iterations nodes logs drawn =>
      have hstep := hstore ▸ stored_step hcreate
      cases hstep with
      | createExperiment hcast huser =>
        exact ⟨_, List.mem_append_right _ (List.mem_singleton_self _), rfl⟩
      | idle h => cases h
  have hrun : t.store.Refers ∧ (∃ x ∈ t.store.experiments, x.userId = userId.toNat) ∧
      ∀ e ∈ history, e.call = .base (.deleteUser userId) → e.reply ≠ .of .unit := by
    apply (stored_run run).invariant_trace (I := fun history σ => σ.Refers ∧
      (∃ x ∈ σ.experiments, x.userId = userId.toNat) ∧
      ∀ e ∈ history, e.call = .base (.deleteUser userId) → e.reply ≠ .of .unit)
      ⟨hrefers, howner, fun e he => absurd he List.not_mem_nil⟩
    rintro history σ e τ ⟨hσ, hown, hall⟩ step
    refine ⟨step.refers hσ, step.owner hown, fun e' he' hcall => ?_⟩
    cases List.mem_append.mp he' with
    | inl he' => exact hall e' he' hcall
    | inr he' =>
      cases List.mem_singleton.mp he'
      exact step.owner_not_deleted hσ hown hcall
  obtain ⟨hσ, hown, hall⟩ := hrun
  refine ⟨?_, hall, fun hc id hid => ?_⟩
  · obtain ⟨x, hx, hxk⟩ := hown
    exact hxk ▸ hσ.user x hx
  · cases toNat_of_bigint hid
    exact deleteUser_of_owner hσ hc hid hown

def refused : Event :=
  ⟨"2025-05-01 12:00:00.5", .base (.deleteUser 1), .of (.halt
    (.sqlError "DELETE FROM \"User\" WHERE user_id = $1" .foreignKey))⟩

theorem owner_of_run_refused : ∃ t, Run (Step plainText plainColumns) withExperiment [refused] t ∧
    t.store.HasUser 1 ∧
      (∀ e ∈ [refused], e.call = .base (.deleteUser 1) → e.reply ≠ .of .unit) ∧
      (t.base.connected = true → ∀ id, bigint 1 = some id →
        (t.base.deleteUser 1).1 =
          .error (.sqlError "DELETE FROM \"User\" WHERE user_id = $1" .foreignKey)) := by
  have hrefers := (stored_step step_userCreated).refers noNodes_refers
  have run : Run (Step plainText plainColumns) withExperiment [refused] _ := .single rfl
  exact ⟨_, run, owner_of_run hrefers step_experimentCreated run⟩

end NodeService

end DistributedMathArh.Db
