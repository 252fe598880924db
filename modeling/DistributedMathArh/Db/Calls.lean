import DistributedMathArh.Db.Documents
import DistributedMathArh.Db.Nodes

namespace DistributedMathArh.Db

open Transition

def NodeRow.setStatus (nodeId : Nat) (status : NodeStatus) (now : String) (n : NodeRow) : NodeRow :=
  if n.nodeId = nodeId then { n with status, lastPing := some now } else n

theorem NodeRow.nodeId_setStatus (nodeId : Nat) (status : NodeStatus) (now : String) (n : NodeRow) :
    (n.setStatus nodeId status now).nodeId = n.nodeId := by
  unfold setStatus
  split <;> rfl

def bigintOpt : Option UInt64 → Option (Option Nat)
  | none => some none
  | some k => (bigint k).map some

namespace DbService

def log (experimentId nodeId : Option UInt64) (severity message now : String) :
    DbService → Except DbHalt Nat × DbService :=
  let query := "INSERT INTO \"Log\" (node_id,experiment_id, severity, message) " ++
    "VALUES ($1,$2, $3::log_severity, $4) RETURNING log_id"
  executeTransaction <|
    Txn.bind (.orFail query .outOfRange (bigintOpt nodeId)) fun node =>
      Txn.bind (.orFail query .outOfRange (bigintOpt experimentId)) fun experiment =>
        innerLog experiment node (param severity).val message now

theorem stable_nodes (nodes : List Nat) :
    Stable (fun db => db.nodes = nodes) fun _ => False where
  rollback _ _ h := h
  users _ _ _ h := h
  logs _ _ h := h
  insertExperiment _ _ _ _ _ _ h hk := by
    obtain ⟨_, _, rfl, -⟩ := Database.insertExperiment_eq_ok hk
    exact h
  setExperimentStatus _ _ _ _ h := h
  insertIteration _ _ _ _ _ _ _ h hk := by
    obtain ⟨_, _, rfl, -⟩ := Database.insertIteration_eq_ok hk
    exact h
  setIterationStatus _ _ _ _ _ _ h := h

theorem nodes_call {J : JsonColumn} {now : String} {s : DbService} {c : Call} :
    (s.call J now c).2.db.nodes = s.db.nodes := by
  refine (stable_nodes s.db.nodes).step (J := J) (a := (c, (s.call J now c).1)) ⟨now, rfl⟩ ?_ rfl
  intro h
  cases c with
  | updateIterationStatus => exact h.1
  | _ => exact h

theorem nodes_log {experimentId nodeId : Option UInt64} {severity message now : String}
    {s : DbService} : (s.log experimentId nodeId severity message now).2.db.nodes = s.db.nodes := by
  have hlog : (s.log experimentId nodeId severity message now).map (Reply.of .id) id =
      (_, (s.log experimentId nodeId severity message now).2) := rfl
  refine (stable_nodes s.db.nodes).executeTransaction ?_ hlog rfl
  exact .bind .orFail fun node => .bind .orFail fun experiment => keeps_innerLog fun _ _ => id

end DbService

namespace NodeService

theorem keys_update (s : NodeService) {f : NodeRow → NodeRow} (h : ∀ n, (f n).nodeId = n.nodeId) :
    s.base.db.nodes = (s.nodes.update f h).rows.map NodeRow.nodeId := by
  rw [s.keys, Table.update, List.map_map, show NodeRow.nodeId ∘ f = NodeRow.nodeId from funext h]

def onBase {α : Type} (s : NodeService) (x : α × DbService) (h : x.2.db.nodes = s.base.db.nodes) :
    α × NodeService := (x.1, { s with base := x.2, keys := h.trans s.keys })

def updateNode (query : String) (status : Option NodeStatus) (nodeId : UInt64)
    (message now : String) (s : NodeService) : Except DbHalt Unit × NodeService :=
  if s.base.connected then
    match status, bigint nodeId with
    | none, _ => (.error (.sqlError query .invalidText), s)
    | some _, none => (.error (.sqlError query .outOfRange), s)
    | some status, some k =>
      match hlog : DbService.innerLog none (some k) "info" message now s.base.db with
      | (.error e, db') =>
        (.error e, {
          base := { s.base with db := s.base.db.rollback db' }
          nodes := s.nodes
          keys := s.keys })
      | (.ok _, db') =>
        (.ok (), {
          base := { s.base with db := db' }
          nodes := s.nodes.update (NodeRow.setStatus k status now)
            (NodeRow.nodeId_setStatus k status now)
          keys := (nodes_innerLog hlog).trans (s.keys_update _) })
  else (.error (.brokenConnection "DbService" s.base.connStr.getVerboseName), s)

def updateNodeStatus (nodeId : UInt64) (status now : String) :
    NodeService → Except DbHalt Unit × NodeService :=
  updateNode
    "UPDATE \"Node\" SET status = $1::node_status, last_ping = NOW() WHERE node_id = $2"
    (kNodeStMappings.lookup (param status).val) nodeId
    ("Node status updated to " ++ toString nodeId) now

def unregisterNode (nodeId : UInt64) (now : String) :
    NodeService → Except DbHalt Unit × NodeService :=
  updateNode "UPDATE \"Node\" SET status = 'inactive', last_ping = NOW() WHERE node_id = $1"
    (some .inactive) nodeId ("Node " ++ toString nodeId ++ " unregistered.") now

/-- The first row of the result: without a row, its columns have no value to convert. -/
def getNode (cols : Columns) (mktime : Tm → Int) (nodeId : UInt64) (s : NodeService) :
    Except RowHalt Node := do
  let query := "SELECT * FROM \"Node\" WHERE node_id = $1"
  let rows ← (s.base.read fun _ =>
    match bigint nodeId with
    | some k => .ok (s.nodes.select k)
    | none => .error (.sqlError query .outOfRange)).mapError .db
  match rows with
  | row :: _ => Node.ofRow cols mktime row
  | [] => .error .conversion

end NodeService

inductive ServiceCall
  | base (c : Call)
  | log (experimentId nodeId : Option UInt64) (severity message : String)
  | registerNode (ipAddress : String) (benchmarkScore : BenchResVec)
  | updateNodeStatus (nodeId : UInt64) (status : String)
  | unregisterNode (nodeId : UInt64)
  | connect (reachable : Bool)
  | disconnect

inductive ServiceReply
  | of (r : Reply)
  | alreadyConnected (service target : String)
  deriving DecidableEq

structure Event where
  now : String
  call : ServiceCall
  reply : ServiceReply

namespace NodeService

def setConnected (s : NodeService) (connected : Bool) : NodeService :=
  { s with base := { s.base with connected } }

def connect (reachable : Bool) (s : NodeService) : ServiceReply × NodeService :=
  if s.base.connected then (.alreadyConnected "DbService" s.base.connStr.getVerboseName, s)
  else if reachable then (.of (.flag true), s.setConnected true)
  else (.of (.halt (.brokenConnection "DbService" s.base.connStr.getVerboseName)), s)

variable (J : JsonColumn) (cols : Columns)

def call (now : String) (s : NodeService) : ServiceCall → ServiceReply × NodeService
  | .base c => (s.onBase (s.base.call J now c) DbService.nodes_call).map .of id
  | .log experimentId nodeId severity message =>
    (s.onBase (s.base.log experimentId nodeId severity message now) DbService.nodes_log).map
      (.of ∘ Reply.of .id) id
  | .registerNode ipAddress benchmarkScore =>
    (s.registerNode cols ipAddress benchmarkScore now).map (.of ∘ Reply.of .id) id
  | .updateNodeStatus nodeId status =>
    (s.updateNodeStatus nodeId status now).map (.of ∘ Reply.of fun _ => .unit) id
  | .unregisterNode nodeId =>
    (s.unregisterNode nodeId now).map (.of ∘ Reply.of fun _ => .unit) id
  | .connect reachable => s.connect reachable
  | .disconnect => (.of .unit, s.setConnected false)

def Step (s : NodeService) (e : Event) (t : NodeService) : Prop :=
  s.call J cols e.now e.call = (e.reply, t)

end NodeService

end DistributedMathArh.Db
