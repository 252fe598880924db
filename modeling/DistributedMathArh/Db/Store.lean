import Mathlib.Logic.Function.Basic
import DistributedMathArh.Db.Calls

namespace DistributedMathArh.Db

open Transition

inductive Sequence
  | user | experiment | iteration | node | log
  deriving DecidableEq

/-- The rows of the tables, and the last key drawn from each sequence. -/
@[ext] structure Store where
  users : List UserRow
  experiments : List ExperimentRow
  iterations : List IterationRow
  nodes : List NodeRow
  logs : List LogRow
  drawn : Sequence → Nat

namespace Store

def HasUser (σ : Store) (k : Nat) : Prop := ∃ u ∈ σ.users, u.userId = k

def HasExperiment (σ : Store) (k : Nat) : Prop := ∃ e ∈ σ.experiments, e.experimentId = k

def HasNode (σ : Store) (k : Nat) : Prop := ∃ n ∈ σ.nodes, n.nodeId = k

def next (σ : Store) (q : Sequence) : Nat := σ.drawn q + 1

def draw (σ : Store) (q : Sequence) : Store :=
  { σ with drawn := Function.update σ.drawn q (σ.next q) }

def logged (σ : Store) (experimentId nodeId : Option Nat) (severity : LogSeverity)
    (message now : String) : Store :=
  { σ.draw .log with
    logs := σ.logs ++ [⟨σ.next .log, nodeId, experimentId, severity, param message, now⟩] }

def addUser (σ : Store) (login : Varchar 255) (hashedPassword : Text) (role : UserRole)
    (now : String) : Store :=
  { σ.draw .user with
    users := σ.users ++ [⟨σ.next .user, login, hashedPassword, role, now, none⟩] }

def addExperiment (σ : Store) (userId : Nat) (parameters now : String) : Store :=
  { σ.draw .experiment with
    experiments := σ.experiments ++
      [⟨σ.next .experiment, userId, .created, parameters, now, none, none⟩] }

def addIteration (σ : Store) (experimentId nodeId : Nat) (iterT : IterationType)
    (now : String) : Store :=
  { σ.draw .iteration with
    iterations := σ.iterations ++
      [⟨σ.next .iteration, experimentId, nodeId, iterT, .queued, none, now, none⟩] }

def addNode (σ : Store) (row : NodeRow) : Store :=
  { σ.draw .node with nodes := σ.nodes ++ [row] }

end Store

inductive Event.Idle : Event → Prop
  | wrongPassword {now login password} :
    Idle ⟨now, .base (.authenticateUser login password), .of (.flag false)⟩
  | connected {now} : Idle ⟨now, .connect true, .of (.flag true)⟩
  | alreadyConnected {now reachable service target} :
    Idle ⟨now, .connect reachable, .alreadyConnected service target⟩
  | disconnected {now} : Idle ⟨now, .disconnect, .of .unit⟩

variable (J : JsonColumn) (cols : Columns)

inductive Stored (σ : Store) : Event → Store → Prop
  /-- Keys that were drawn are gone. -/
  | failed {now call e drawn} (h : ∀ q, σ.drawn q ≤ drawn q) :
    Stored σ ⟨now, call, .of (.halt e)⟩ { σ with drawn }
  | idle {e} (h : e.Idle) : Stored σ e σ
  | createUser {now login password role l r} (hrole : kUserRoleMappings.lookup (param role).val = some r)
    (hlogin : toVarchar 255 (param login) = some l) (hfresh : l ∉ σ.users.map UserRow.login) :
    Stored σ ⟨now, .base (.createUser login password role), .of (.id (σ.next .user))⟩
      (σ.addUser l (param password) r now)
  | authenticated {now login password u} (hu : u ∈ σ.users) (hlogin : u.login.text = param login)
    (hpassword : u.hashedPassword.val = password) :
    Stored σ ⟨now, .base (.authenticateUser login password), .of (.flag true)⟩
      { σ with users := σ.users.map (UserRow.setLastLogin (param login) now) }
  | deleteUser {now userId}
    (h : σ.HasUser userId.toNat → ∀ e ∈ σ.experiments, e.userId ≠ userId.toNat) :
    Stored σ ⟨now, .base (.deleteUser userId), .of .unit⟩
      { σ with users := σ.users.filter fun u => u.userId ≠ userId.toNat }
  | createExperiment {now userId parameters text} (hcast : J.cast (J.write parameters) = some text)
    (huser : σ.HasUser userId.toNat) :
    Stored σ ⟨now, .base (.createExperiment userId parameters), .of (.id (σ.next .experiment))⟩
      ((σ.addExperiment userId.toNat text now).logged none none .info
        ("User " ++ toString userId.toNat ++ " created experiment ") now)
  | updateExperimentStatus {now experimentId status st}
    (hstatus : kExpStatusMappings.lookup (param status).val = some st) :
    Stored σ ⟨now, .base (.updateExperimentStatus experimentId status), .of .unit⟩
      ({ σ with
        experiments := σ.experiments.map (ExperimentRow.setStatus experimentId.toNat st now) }.logged
          none none .info ("Experiment " ++ toString experimentId ++ "  status updated to " ++ status)
          now)
  | createIteration {now experimentId nodeId iterType iterT}
    (htype : kIterTypeMappings.lookup (param iterType).val = some iterT)
    (hexperiment : σ.HasExperiment experimentId.toNat) (hnode : σ.HasNode nodeId.toNat) :
    Stored σ ⟨now, .base (.createIteration experimentId nodeId iterType),
        .of (.id (σ.next .iteration))⟩
      ((σ.addIteration experimentId.toNat nodeId.toNat iterT now).logged
        (some experimentId.toNat) (some nodeId.toNat) .info
        ("Iteration " ++ toString (σ.next .iteration) ++ " created for experiment " ++
          toString experimentId) now)
  | updateIterationStatus {now iterationId status outputData st output}
    (hstatus : kIterStatusMappings.lookup (param status).val = some st)
    (houtput : (if DbService.isNull outputData then some none
      else (J.cast (J.write outputData)).map some) = some output) :
    Stored σ ⟨now, .base (.updateIterationStatus iterationId status outputData), .of .unit⟩
      ({ σ with
        iterations := σ.iterations.map (IterationRow.setStatus iterationId.toNat st output now) }.logged
          none none .info
          ("Iteration " ++ toString iterationId ++ " status updated to " ++ status) now)
  | log {now experimentId nodeId severity message sev}
    (hseverity : kLogSeverityMappings.lookup (param severity).val = some sev)
    (hexperiment : ∀ k ∈ experimentId, σ.HasExperiment k.toNat)
    (hnode : ∀ k ∈ nodeId, σ.HasNode k.toNat) :
    Stored σ ⟨now, .log experimentId nodeId severity message, .of (.id (σ.next .log))⟩
      (σ.logged (experimentId.map UInt64.toNat) (nodeId.map UInt64.toNat) sev message now)
  | registerNode {now ipAddress benchmarkScore row}
    (hrow : NodeService.newRow cols ipAddress benchmarkScore now (σ.next .node) = .ok row) :
    Stored σ ⟨now, .registerNode ipAddress benchmarkScore, .of (.id (σ.next .node))⟩
      ((σ.addNode row).logged none (some (σ.next .node)) .info
        ("Node registered with IP " ++ ipAddress) now)
  | updateNodeStatus {now nodeId status st}
    (hstatus : kNodeStMappings.lookup (param status).val = some st) (hnode : σ.HasNode nodeId.toNat) :
    Stored σ ⟨now, .updateNodeStatus nodeId status, .of .unit⟩
      ({ σ with nodes := σ.nodes.map (NodeRow.setStatus nodeId.toNat st now) }.logged
        none (some nodeId.toNat) .info ("Node status updated to " ++ toString nodeId) now)
  | unregisterNode {now nodeId} (hnode : σ.HasNode nodeId.toNat) :
    Stored σ ⟨now, .unregisterNode nodeId, .of .unit⟩
      ({ σ with nodes := σ.nodes.map (NodeRow.setStatus nodeId.toNat .inactive now) }.logged
        none (some nodeId.toNat) .info ("Node " ++ toString nodeId ++ " unregistered.") now)

namespace Database

variable {db db' : Database} {nodes : Table NodeRow NodeRow.nodeId} {k : Nat} {now : String}

def store (db : Database) (nodes : Table NodeRow NodeRow.nodeId) : Store where
  users := db.users.rows
  experiments := db.experiments.rows
  iterations := db.iterations.rows
  nodes := nodes.rows
  logs := db.logs.rows
  drawn
    | .user => db.users.last
    | .experiment => db.experiments.last
    | .iteration => db.iterations.last
    | .node => nodes.last
    | .log => db.logs.last

theorem select_ne_nil {R : Type} {key : R → Nat} {t : Table R key} :
    t.select k ≠ [] ↔ ∃ r ∈ t.rows, key r = k := by
  simp [Table.select, List.filter_eq_nil_iff]

theorem store_insertUser (nodes : Table NodeRow NodeRow.nodeId) {l : Varchar 255} {hashedPassword : Text} {role : UserRole}
    (h : db.insertUser l hashedPassword role now = (.ok k, db')) :
    k = (db.store nodes).next .user ∧ l ∉ (db.store nodes).users.map UserRow.login ∧
      db'.store nodes = (db.store nodes).addUser l hashedPassword role now := by
  unfold insertUser at h
  split at h
  · cases h
  · split at h
    · cases h
    · rename_i hfresh
      cases h
      refine ⟨rfl, hfresh, Store.ext rfl rfl rfl rfl rfl ?_⟩
      funext q
      cases q <;> rfl

theorem store_deleteUser (nodes : Table NodeRow NodeRow.nodeId) (h : db.deleteUser k = (.ok (), db')) :
    ((db.store nodes).HasUser k → ∀ e ∈ (db.store nodes).experiments, e.userId ≠ k) ∧
      db'.store nodes =
        { db.store nodes with users := (db.store nodes).users.filter fun u => u.userId ≠ k } := by
  unfold deleteUser at h
  split at h
  · cases h
  · rename_i hfree
    cases h
    refine ⟨fun huser e he hk => hfree ⟨select_ne_nil.mpr huser, e, he, hk⟩, rfl⟩

theorem store_insertExperiment (nodes : Table NodeRow NodeRow.nodeId) {userId : Nat} {parameters : String}
    (h : db.insertExperiment userId parameters now = (.ok k, db')) :
    k = (db.store nodes).next .experiment ∧ (db.store nodes).HasUser userId ∧
      db'.store nodes = (db.store nodes).addExperiment userId parameters now := by
  unfold insertExperiment at h
  split at h
  · cases h
  · split at h
    · cases h
    · rename_i huser
      cases h
      refine ⟨rfl, select_ne_nil.mp huser, Store.ext rfl rfl rfl rfl rfl ?_⟩
      funext q
      cases q <;> rfl

theorem hasNode_iff (hkeys : db.nodes = nodes.rows.map NodeRow.nodeId) :
    (db.store nodes).HasNode k ↔ k ∈ db.nodes := by
  rw [hkeys, List.mem_map]
  rfl

theorem store_insertIteration {experimentId nodeId : Nat} {iterT : IterationType}
    (hkeys : db.nodes = nodes.rows.map NodeRow.nodeId)
    (h : db.insertIteration experimentId nodeId iterT now = (.ok k, db')) :
    k = (db.store nodes).next .iteration ∧ (db.store nodes).HasExperiment experimentId ∧
      (db.store nodes).HasNode nodeId ∧
      db'.store nodes = (db.store nodes).addIteration experimentId nodeId iterT now := by
  unfold insertIteration at h
  split at h
  · cases h
  · split at h
    · cases h
    · rename_i hrefers
      obtain ⟨hexperiment, hnode⟩ := not_or.mp hrefers
      cases h
      refine ⟨rfl, select_ne_nil.mp hexperiment, (hasNode_iff hkeys).mpr (not_not.mp hnode),
        Store.ext rfl rfl rfl rfl rfl ?_⟩
      funext q
      cases q <;> rfl

theorem store_insertLog {experimentId nodeId : Option Nat} {severity : LogSeverity}
    {message : String} (hkeys : db.nodes = nodes.rows.map NodeRow.nodeId)
    (h : db.insertLog experimentId nodeId severity (param message) now = (.ok k, db')) :
    k = (db.store nodes).next .log ∧ (∀ e ∈ experimentId, (db.store nodes).HasExperiment e) ∧
      (∀ n ∈ nodeId, (db.store nodes).HasNode n) ∧
      db'.store nodes = (db.store nodes).logged experimentId nodeId severity message now := by
  unfold insertLog at h
  split at h
  · cases h
  · split at h
    · cases h
    · rename_i hrefers
      obtain ⟨hexperiment, hnode⟩ := not_or.mp hrefers
      cases h
      refine ⟨rfl, ?_, ?_, Store.ext rfl rfl rfl rfl rfl ?_⟩
      · intro e he
        exact select_ne_nil.mp fun hnil => hexperiment ⟨e, he, hnil⟩
      · intro n hn
        exact (hasNode_iff hkeys).mpr (not_not.mp fun hno => hnode ⟨n, hn, hno⟩)
      · funext q
        cases q <;> rfl

theorem store_rollback (db db' : Database) (nodes : Table NodeRow NodeRow.nodeId) :
    ∃ drawn, (∀ q, (db.store nodes).drawn q ≤ drawn q) ∧
      (db.rollback db').store nodes = { db.store nodes with drawn } := by
  refine ⟨((db.rollback db').store nodes).drawn, fun q => ?_, rfl⟩
  cases q with
  | node => exact Nat.le_refl _
  | _ => exact Nat.le_max_left _ _

end Database

namespace DbService

variable {J : JsonColumn} {cols : Columns} {nodes : Table NodeRow NodeRow.nodeId} {s t : DbService}
  {db db' : Database} {k : Nat} {now : String}

theorem store_innerLog {experimentId nodeId : Option Nat} {severity message : String}
    (hkeys : db.nodes = nodes.rows.map NodeRow.nodeId)
    (h : innerLog experimentId nodeId severity message now db = (.ok k, db')) :
    ∃ sev, kLogSeverityMappings.lookup severity = some sev ∧ k = (db.store nodes).next .log ∧
      (∀ e ∈ experimentId, (db.store nodes).HasExperiment e) ∧
      (∀ n ∈ nodeId, (db.store nodes).HasNode n) ∧
      db'.store nodes = (db.store nodes).logged experimentId nodeId sev message now := by
  obtain ⟨sev, hsev, h⟩ := Txn.bind_orFail_eq_ok.mp h
  exact ⟨sev, hsev, Database.store_insertLog hkeys (Txn.exec_eq_ok.mp h)⟩

theorem store_innerLog_info {experimentId nodeId : Option Nat} {message : String}
    (hkeys : db.nodes = nodes.rows.map NodeRow.nodeId)
    (h : innerLog experimentId nodeId "info" message now db = (.ok k, db')) :
    (∀ e ∈ experimentId, (db.store nodes).HasExperiment e) ∧
      (∀ n ∈ nodeId, (db.store nodes).HasNode n) ∧
      db'.store nodes = (db.store nodes).logged experimentId nodeId .info message now := by
  obtain ⟨sev, hsev, -, hrefers⟩ := store_innerLog hkeys h
  cases hsev
  exact hrefers

theorem stored_executeTransaction {α : Type} {func : Txn α} {reply : α → Reply} {r : Reply}
    {call : ServiceCall}
    (h : ∀ a db, func s.db = (.ok a, db) →
      Stored J cols (s.db.store nodes) ⟨now, call, .of (reply a)⟩ (db.store nodes))
    (ht : (executeTransaction func s).map (.of reply) id = (r, t)) :
    Stored J cols (s.db.store nodes) ⟨now, call, .of r⟩ (t.db.store nodes) := by
  cases hx : executeTransaction func s with
  | mk x u =>
    rw [hx] at ht
    cases ht
    obtain ⟨a, db, -, rfl, hfunc, rfl⟩ | ⟨⟨e, rfl⟩, hu⟩ := executeTransaction_cases hx
    · exact h a db hfunc
    · cases hu with
      | inl hu => exact hu ▸ .failed fun q => Nat.le_refl _
      | inr hu =>
        obtain ⟨db, rfl⟩ := hu
        obtain ⟨drawn, hle, heq⟩ := Database.store_rollback s.db db nodes
        exact heq ▸ .failed hle

theorem stored_authenticate {login password : String} {b : Bool}
    (h : authenticateTxn login password now db = (.ok b, db')) :
    Stored J cols (db.store nodes)
      ⟨now, .base (.authenticateUser login password), .of (.flag b)⟩ (db'.store nodes) := by
  unfold authenticateTxn at h
  split at h
  · rename_i u hrow
    have hu : u ∈ db.users.rows.filter fun u => u.login.text = param login :=
      hrow ▸ List.mem_singleton_self u
    obtain ⟨hmem, hlogin⟩ := List.mem_filter.mp hu
    split at h
    · rename_i hpassword
      cases h
      exact .authenticated hmem (of_decide_eq_true hlogin) hpassword
    · cases h
      exact .idle .wrongPassword
  · cases h

theorem store_bind_innerLog {α β : Type} {x : Txn α} {experimentId nodeId : Option Nat}
    {message : α → String} {g : α → β} {b : β}
    (h : x.bind (fun a => Txn.bind (innerLog experimentId nodeId "info" (message a) now) fun _ db =>
      (.ok (g a), db)) db = (.ok b, db'))
    (hkeys : db.nodes = nodes.rows.map NodeRow.nodeId)
    (hx : ∀ a db₁, x db = (.ok a, db₁) → db₁.nodes = db.nodes) :
    ∃ a db₁, x db = (.ok a, db₁) ∧ b = g a ∧
      db'.store nodes = (db₁.store nodes).logged experimentId nodeId .info (message a) now := by
  obtain ⟨a, db₁, hxa, h⟩ := Txn.bind_eq_ok.mp h
  obtain ⟨k, db₂, hlog, h⟩ := Txn.bind_eq_ok.mp h
  cases h
  have hkeys₁ : db₁.nodes = nodes.rows.map NodeRow.nodeId := (hx a db₁ hxa).trans hkeys
  exact ⟨a, db₁, hxa, rfl, (store_innerLog_info hkeys₁ hlog).2.2⟩

theorem nodes_insertExperiment {userId : Nat} {parameters : String}
    (h : db.insertExperiment userId parameters now = (.ok k, db')) : db'.nodes = db.nodes := by
  obtain ⟨_, _, rfl, -⟩ := Database.insertExperiment_eq_ok h
  rfl

theorem nodes_insertIteration {experimentId nodeId : Nat} {iterT : IterationType}
    (h : db.insertIteration experimentId nodeId iterT now = (.ok k, db')) : db'.nodes = db.nodes := by
  obtain ⟨_, _, rfl, -⟩ := Database.insertIteration_eq_ok h
  rfl

theorem stored_call {c : Call} {r : Reply} (hkeys : s.db.nodes = nodes.rows.map NodeRow.nodeId)
    (h : s.call J now c = (r, t)) :
    Stored J cols (s.db.store nodes) ⟨now, .base c, .of r⟩ (t.db.store nodes) := by
  cases c with
  | createUser login password role =>
    refine stored_executeTransaction (fun k db hfunc => ?_) h
    obtain ⟨r, hr, hfunc⟩ := Txn.bind_orFail_eq_ok.mp hfunc
    obtain ⟨l, hl, hfunc⟩ := Txn.bind_orFail_eq_ok.mp hfunc
    obtain ⟨rfl, hfresh, hstore⟩ := Database.store_insertUser nodes (Txn.exec_eq_ok.mp hfunc)
    exact hstore ▸ .createUser hr hl hfresh
  | authenticateUser login password =>
    exact stored_executeTransaction (fun b db hfunc => stored_authenticate hfunc) h
  | deleteUser userId =>
    refine stored_executeTransaction (fun _ db hfunc => ?_) h
    obtain ⟨k, hk, hfunc⟩ := Txn.bind_orFail_eq_ok.mp hfunc
    cases toNat_of_bigint hk
    obtain ⟨hfree, hstore⟩ := Database.store_deleteUser nodes (Txn.exec_eq_ok.mp hfunc)
    exact hstore ▸ .deleteUser hfree
  | createExperiment userId parameters =>
    refine stored_executeTransaction (fun k db hfunc => ?_) h
    obtain ⟨user, huser, hfunc⟩ := Txn.bind_orFail_eq_ok.mp hfunc
    obtain ⟨text, htext, hfunc⟩ := Txn.bind_orFail_eq_ok.mp hfunc
    cases toNat_of_bigint huser
    obtain ⟨k', db₁, hinsert, rfl, hstore⟩ := store_bind_innerLog hfunc hkeys
      fun _ _ hx => nodes_insertExperiment (Txn.exec_eq_ok.mp hx)
    obtain ⟨rfl, hhas, hstore₁⟩ :=
      Database.store_insertExperiment nodes (Txn.exec_eq_ok.mp hinsert)
    rw [hstore, hstore₁]
    exact .createExperiment htext hhas
  | updateExperimentStatus experimentId status =>
    refine stored_executeTransaction (fun _ db hfunc => ?_) h
    obtain ⟨st, hst, hfunc⟩ := Txn.bind_orFail_eq_ok.mp hfunc
    obtain ⟨experiment, hexperiment, hfunc⟩ := Txn.bind_orFail_eq_ok.mp hfunc
    cases toNat_of_bigint hexperiment
    obtain ⟨_, db₁, hupdate, -, hstore⟩ := store_bind_innerLog hfunc hkeys
      fun _ _ hx => by cases hx; rfl
    cases hupdate
    exact hstore ▸ .updateExperimentStatus hst
  | createIteration experimentId nodeId iterType =>
    refine stored_executeTransaction (fun k db hfunc => ?_) h
    obtain ⟨experiment, hexperiment, hfunc⟩ := Txn.bind_orFail_eq_ok.mp hfunc
    obtain ⟨node, hnode, hfunc⟩ := Txn.bind_orFail_eq_ok.mp hfunc
    obtain ⟨iterT, hiter, hfunc⟩ := Txn.bind_orFail_eq_ok.mp hfunc
    cases toNat_of_bigint hexperiment
    cases toNat_of_bigint hnode
    obtain ⟨k', db₁, hinsert, rfl, hstore⟩ := store_bind_innerLog hfunc hkeys
      fun _ _ hx => nodes_insertIteration (Txn.exec_eq_ok.mp hx)
    obtain ⟨rfl, hhas, hhasNode, hstore₁⟩ :=
      Database.store_insertIteration hkeys (Txn.exec_eq_ok.mp hinsert)
    rw [hstore, hstore₁]
    exact .createIteration hiter hhas hhasNode
  | updateIterationStatus iterationId status outputData =>
    refine stored_executeTransaction (fun _ db hfunc => ?_) h
    obtain ⟨st, hst, hfunc⟩ := Txn.bind_orFail_eq_ok.mp hfunc
    obtain ⟨output, houtput, hfunc⟩ := Txn.bind_orFail_eq_ok.mp hfunc
    obtain ⟨iteration, hiteration, hfunc⟩ := Txn.bind_orFail_eq_ok.mp hfunc
    cases toNat_of_bigint hiteration
    obtain ⟨_, db₁, hupdate, -, hstore⟩ := store_bind_innerLog hfunc hkeys
      fun _ _ hx => by cases hx; rfl
    cases hupdate
    exact hstore ▸ .updateIterationStatus hst houtput

theorem of_bigintOpt {k : Option UInt64} {n : Option Nat} (h : bigintOpt k = some n) :
    n = k.map UInt64.toNat := by
  cases k with
  | none =>
    cases h
    rfl
  | some k =>
    obtain ⟨m, hm, rfl⟩ := Option.map_eq_some_iff.mp h
    rw [Option.map_some, toNat_of_bigint hm]

theorem stored_log {experimentId nodeId : Option UInt64} {severity message : String} {r : Reply}
    (hkeys : s.db.nodes = nodes.rows.map NodeRow.nodeId)
    (h : (s.log experimentId nodeId severity message now).map (.of .id) id = (r, t)) :
    Stored J cols (s.db.store nodes) ⟨now, .log experimentId nodeId severity message, .of r⟩
      (t.db.store nodes) := by
  refine stored_executeTransaction (fun k db hfunc => ?_) h
  obtain ⟨node, hnode, hfunc⟩ := Txn.bind_orFail_eq_ok.mp hfunc
  obtain ⟨experiment, hexperiment, hfunc⟩ := Txn.bind_orFail_eq_ok.mp hfunc
  obtain ⟨sev, hsev, rfl, hhas, hhasNode, hstore⟩ := store_innerLog hkeys hfunc
  rw [hstore, of_bigintOpt hnode, of_bigintOpt hexperiment]
  refine .log hsev ?_ ?_
  · intro e he
    exact hhas _ (of_bigintOpt hexperiment ▸ Option.mem_map_of_mem _ he)
  · intro n hn
    exact hhasNode _ (of_bigintOpt hnode ▸ Option.mem_map_of_mem _ hn)

end DbService

namespace NodeService

variable {J : JsonColumn} {cols : Columns} {s t : NodeService} {now : String}

def store (s : NodeService) : Store := s.base.db.store s.nodes

theorem stored_registerNode {ipAddress : String} {benchmarkScore : BenchResVec}
    {x : Except DbHalt Nat} (h : s.registerNode cols ipAddress benchmarkScore now = (x, t)) :
    Stored J cols s.store
      ⟨now, .registerNode ipAddress benchmarkScore, .of (.of .id x)⟩ t.store := by
  unfold registerNode at h
  split at h
  · dsimp only at h
    split at h
    · cases h
      exact .failed fun q => Nat.le_refl _
    · rename_i row hrow
      split at h
      · cases h
        exact .failed fun q => Nat.le_refl _
      · split at h
        · cases h
          refine @Stored.failed _ _ _ _ _ _ (store _).drawn fun q => ?_
          cases q with
          | _ => exact Nat.le_max_left _ _
        · rename_i k db' hlog
          cases h
          have hnodes := s.keys_insert (nodeId_of_newRow hrow)
          obtain ⟨-, -, hstore⟩ := DbService.store_innerLog_info hnodes hlog
          have hadd : Database.store { s.base.db with nodes := s.base.db.nodes ++ [s.nodes.last + 1] }
              (s.nodes.insert row (nodeId_of_newRow hrow)) = s.store.addNode row := by
            refine Store.ext rfl rfl rfl rfl rfl (funext fun q => ?_)
            cases q <;> rfl
          change Stored J cols s.store _ (db'.store _)
          rw [hstore, hadd]
          exact .registerNode hrow
  · cases h
    exact .failed fun q => Nat.le_refl _

theorem stored_updateNode {query message : String} {status : Option NodeStatus} {nodeId : UInt64}
    {x : Except DbHalt Unit} {call : ServiceCall}
    (h : s.updateNode query status nodeId message now = (x, t))
    (hok : ∀ st, status = some st → s.store.HasNode nodeId.toNat →
      Stored J cols s.store ⟨now, call, .of .unit⟩
        ({ s.store with nodes := s.store.nodes.map (NodeRow.setStatus nodeId.toNat st now) }.logged
          none (some nodeId.toNat) .info message now)) :
    Stored J cols s.store ⟨now, call, .of (.of (fun _ => .unit) x)⟩ t.store := by
  unfold updateNode at h
  split at h
  · split at h
    · cases h
      exact .failed fun q => Nat.le_refl _
    · cases h
      exact .failed fun q => Nat.le_refl _
    · rename_i st k hk
      cases toNat_of_bigint hk
      split at h
      · cases h
        refine @Stored.failed _ _ _ _ _ _ (store _).drawn fun q => ?_
        cases q with
        | node => exact Nat.le_refl _
        | _ => exact Nat.le_max_left _ _
      · rename_i db' hlog
        cases h
        obtain ⟨-, hnode, hstore⟩ := DbService.store_innerLog_info s.keys hlog
        change Stored J cols s.store _
          { db'.store s.nodes with nodes := s.nodes.rows.map (NodeRow.setStatus nodeId.toNat st now) }
        rw [hstore]
        exact hok st rfl (hnode _ rfl)
  · cases h
    exact .failed fun q => Nat.le_refl _

theorem stored_connect {reachable : Bool} :
    Stored J cols s.store ⟨now, .connect reachable, (s.connect reachable).1⟩
      (s.connect reachable).2.store := by
  unfold connect
  split
  · exact .idle .alreadyConnected
  · split
    · rename_i hreachable
      cases hreachable
      exact .idle .connected
    · exact .failed fun q => Nat.le_refl _

theorem stored_call (J : JsonColumn) (cols : Columns) (s : NodeService) (now : String)
    (c : ServiceCall) :
    Stored J cols s.store ⟨now, c, (s.call J cols now c).1⟩ (s.call J cols now c).2.store := by
  cases c with
  | base c => exact DbService.stored_call s.keys rfl
  | log experimentId nodeId severity message => exact DbService.stored_log s.keys rfl
  | registerNode ipAddress benchmarkScore => exact stored_registerNode rfl
  | updateNodeStatus nodeId status =>
    exact stored_updateNode rfl fun st hst hnode => .updateNodeStatus hst hnode
  | unregisterNode nodeId =>
    refine stored_updateNode rfl fun st hst hnode => ?_
    cases hst
    exact .unregisterNode hnode
  | connect reachable => exact stored_connect
  | disconnect => exact .idle .disconnected

theorem stored_step {e : Event} (h : s.Step J cols e t) : Stored J cols s.store e t.store := by
  have hcall := stored_call J cols s e.now e.call
  rwa [show s.call J cols e.now e.call = (e.reply, t) from h] at hcall

theorem stored_run {s₀ : NodeService} {history : List Event}
    (run : Run (Step J cols) s₀ history s) : Run (Stored J cols) s₀.store history s.store := by
  induction run with
  | nil => exact .nil
  | snoc _ step ih => exact .snoc ih (stored_step step)

def userCreated : Event :=
  ⟨"2025-05-01 11:00:00.5", .base (.createUser "alice" "secret" "user"), .of (.id 1)⟩

def experimentCreated : Event :=
  ⟨"2025-05-01 11:00:01.5", .base (.createExperiment 1 .null), .of (.id 1)⟩

def withUser : NodeService := (noNodes.call plainText plainColumns userCreated.now userCreated.call).2

def withExperiment : NodeService :=
  (withUser.call plainText plainColumns experimentCreated.now experimentCreated.call).2

theorem step_userCreated : Step plainText plainColumns noNodes userCreated withUser := rfl

theorem step_experimentCreated :
    Step plainText plainColumns withUser experimentCreated withExperiment := rfl

theorem run_experimentCreated :
    Run (Step plainText plainColumns) noNodes [userCreated, experimentCreated] withExperiment :=
  .pair step_userCreated step_experimentCreated

end NodeService

end DistributedMathArh.Db
