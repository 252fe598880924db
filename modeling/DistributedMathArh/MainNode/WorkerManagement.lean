import Mathlib.Logic.Function.Basic
import DistributedMathArh.Common.Valarray
import DistributedMathArh.Lib.FinmapSum

namespace DistributedMathArh

open Json FinmapSum

inductive ReqResult
  | ok | badResponse | networkFailure | badServerAddress | timeout | handshakeError
  | invalidCertificate | encryptionFailure
  deriving DecidableEq

structure Response where
  statusCode : Nat
  json : Option Value

/-- What `sendRequest` returns; the response pointer may be null. -/
structure HttpReply where
  result : ReqResult
  response : Option Response

def HttpReply.accepted (reply : HttpReply) : Bool :=
  reply.result ≠ .badServerAddress && reply.response.any fun resp => resp.statusCode < 400

inductive NodeStatus
  | active | inactive | failed
  deriving DecidableEq

def kNodeStatusToStr : NodeStatus → String
  | .active => "Active"
  | .inactive => "Inactive"
  | .failed => "Failed"

/-- What the main node leaves to other code: the styled JSON writer, and the decoder that
`RecomputeCoefficients` applies to the benchmark of a worker. -/
structure Env where
  toStyledString : Value → String
  decodeBench : Value → Except Exn BenchResVec

structure ComputationalNode where
  httpClient : Option String
  benchResult : BenchResVec
  nodeSpeed : BenchResVec
  deriving DecidableEq

namespace ComputationalNode

/-- A node that `operator[]` of the map creates: the client pointer is null. -/
instance : Inhabited ComputationalNode := ⟨⟨none, [], []⟩⟩

/-- `RecomputeCoefficients`; the speed is only computed for a node that has none. -/
def recomputeCoefficients (E : Env) (val : Value) (n : ComputationalNode) :
    ComputationalNode × Except Halt Unit :=
  match E.decodeBench val with
  | .error e => (n, .error (.exn e))
  | .ok bench =>
    let n := { n with benchResult := bench }
    if n.nodeSpeed.length = 0 then
      match BenchResVec.divInto kBenchInfinity n.benchResult with
      | .error h => (n, .error h)
      | .ok speed => ({ n with nodeSpeed := speed }, .ok ())
    else (n, .ok ())

end ComputationalNode

/-- The call that `RecomputeCoefficients` makes: `true` is converted to the size `1`. -/
def benchOfJson (val : Value) : Except Exn BenchResVec :=
  jsonToContinuous Value.asUInt64 val (some 1) true

abbrev NodeMap := Map String ComputationalNode

structure WorkerManagement where
  workerNodes : NodeStatus → NodeMap
  normalized : BenchResVec

namespace WorkerManagement

def init : WorkerManagement := ⟨fun _ => ∅, defaultBench 0⟩

def getSum (w : WorkerManagement) : BenchResVec := w.normalized

def active (w : WorkerManagement) : NodeMap := w.workerNodes .active

def inactive (w : WorkerManagement) : NodeMap := w.workerNodes .inactive

def setNodes (w : WorkerManagement) (st : NodeStatus) (m : NodeMap) : WorkerManagement :=
  { w with workerNodes := Function.update w.workerNodes st m }

def nodeAt (w : WorkerManagement) (st : NodeStatus) (hostPort : String) : ComputationalNode :=
  ((w.workerNodes st).lookup hostPort).getD default

def putNode (w : WorkerManagement) (st : NodeStatus) (hostPort : String)
    (n : ComputationalNode) : WorkerManagement :=
  w.setNodes st ((w.workerNodes st).insert hostPort n)

/-- The side effect of `worker_nodes_[st][hostPort]`: the entry exists afterwards. -/
def touch (w : WorkerManagement) (st : NodeStatus) (hostPort : String) : WorkerManagement :=
  w.putNode st hostPort (w.nodeAt st hostPort)

def moveNode (w : WorkerManagement) (hostPort : String) (source target : NodeStatus) :
    WorkerManagement :=
  let aa := w.nodeAt source hostPort
  let w := w.touch source hostPort
  let w := w.setNodes source ((w.workerNodes source).erase hostPort)
  w.putNode target hostPort aa

def conflict (message : String) : Value :=
  .object [("status", .int 409), ("message", .string message)]

def addNewNode (w : WorkerManagement) (hostPort : String) : WorkerManagement × Value :=
  if hostPort ∉ w.inactive ∧ hostPort ∉ w.active then
    (w.putNode .inactive hostPort { (default : ComputationalNode) with
      httpClient := some s!"http://{hostPort}" }, .null)
  else if hostPort ∈ w.active then
    (w, conflict s!"Worker node {hostPort} is already connected to cluster!")
  else (w, .null)

def unreachable (hostPort : String) : Value :=
  .object
    [("message", .string s!"Unable to access worker on {hostPort}! Is working node running?"),
      ("status", .int 504)]

def refused (E : Env) (message : String) (resp : Response) : Except Halt Value :=
  match resp.json with
  | none => .error (.fault .nullPointer)
  | some body => .ok (.object
      [("message", .string message), ("status", .int (Int64.ofNat resp.statusCode)),
        ("node_output", .string (E.toStyledString body))])

def activate (E : Env) (w : WorkerManagement) (hostPort : String) (body : Value) :
    WorkerManagement × Except Halt Value :=
  match body.resolveReference "bench" with
  | .error e => (w, .error (.exn e))
  | .ok (body, bench) =>
    let (node, res) := (w.nodeAt .inactive hostPort).recomputeCoefficients E bench
    let w := w.putNode .inactive hostPort node
    match res with
    | .error h => (w, .error h)
    | .ok () =>
      let w := w.moveNode hostPort .inactive .active
      match w.normalized.add (w.nodeAt .active hostPort).nodeSpeed with
      | .error h => (w, .error h)
      | .ok s => ({ w with normalized := s }, .ok body)

def connectNode (E : Env) (w : WorkerManagement) (hostPort : String) (reply : HttpReply) :
    WorkerManagement × Except Halt Value :=
  let w := w.touch .inactive hostPort
  if (w.nodeAt .inactive hostPort).httpClient = none then (w, .error (.fault .nullPointer))
  else if reply.result = .badServerAddress then (w, .ok (unreachable hostPort))
  else match reply.response with
    | none => (w, .error (.fault .nullPointer))
    | some resp =>
      if 400 ≤ resp.statusCode then
        (w, refused E s!"Error occurred during worker {hostPort} connection!" resp)
      else match resp.json with
        | none => (w, .error (.fault .nullPointer))
        | some body => w.activate E hostPort body

def deactivate (w : WorkerManagement) (hostPort : String) (body : Value) :
    WorkerManagement × Except Halt Value :=
  let w := w.moveNode hostPort .active .inactive
  match w.normalized.sub (w.nodeAt .inactive hostPort).nodeSpeed with
  | .error h => (w, .error h)
  | .ok s => ({ w with normalized := s }, .ok body)

def disconnectNode (E : Env) (w : WorkerManagement) (hostPort : String) (reply : HttpReply) :
    WorkerManagement × Except Halt Value :=
  if hostPort ∉ w.active then
    (w, .ok (conflict s!"Worker node {hostPort} was not connected to cluster!"))
  else if (w.nodeAt .active hostPort).httpClient = none then (w, .error (.fault .nullPointer))
  else if reply.result = .badServerAddress then (w, .ok (unreachable hostPort))
  else match reply.response with
    | none => (w, .error (.fault .nullPointer))
    | some resp =>
      if 400 ≤ resp.statusCode then
        (w, refused E s!"Unable to disconnect worker {hostPort} from cluster!" resp)
      else match resp.json with
        | none => (w, .error (.fault .nullPointer))
        | some body => w.deactivate hostPort body

def indexed : List Value → Value
  | [] => .null
  | xs => .array xs

def getStatus (maps : List (NodeStatus × List (Σ _ : String, ComputationalNode))) : Value :=
  indexed (maps.map fun (status, map) => .object [("status", .string (kNodeStatusToStr status)),
    ("data", indexed (map.map fun ⟨str, node⟩ => .object [("host", .string str),
      ("benchRes", continuousToJson .uint node.benchResult true false)]))])

section Lemmas

variable (w : WorkerManagement) (hostPort : String)

@[simp] theorem workerNodes_setNodes_self (st : NodeStatus) (m : NodeMap) :
    (w.setNodes st m).workerNodes st = m := Function.update_self ..

@[simp] theorem workerNodes_setNodes_of_ne {st st' : NodeStatus} (h : st' ≠ st) (m : NodeMap) :
    (w.setNodes st m).workerNodes st' = w.workerNodes st' := Function.update_of_ne h ..

@[simp] theorem workerNodes_putNode_self (st : NodeStatus) (n : ComputationalNode) :
    (w.putNode st hostPort n).workerNodes st = (w.workerNodes st).insert hostPort n :=
  workerNodes_setNodes_self ..

@[simp] theorem workerNodes_putNode_of_ne {st st' : NodeStatus} (h : st' ≠ st)
    (n : ComputationalNode) : (w.putNode st hostPort n).workerNodes st' = w.workerNodes st' :=
  workerNodes_setNodes_of_ne _ h _

@[simp] theorem active_putNode_inactive (n : ComputationalNode) :
    (w.putNode .inactive hostPort n).active = w.active :=
  workerNodes_putNode_of_ne _ _ (by decide) n

@[simp] theorem inactive_putNode_inactive (n : ComputationalNode) :
    (w.putNode .inactive hostPort n).inactive = w.inactive.insert hostPort n :=
  workerNodes_putNode_self ..

@[simp] theorem normalized_setNodes (st : NodeStatus) (m : NodeMap) :
    (w.setNodes st m).normalized = w.normalized := rfl

@[simp] theorem normalized_putNode (st : NodeStatus) (n : ComputationalNode) :
    (w.putNode st hostPort n).normalized = w.normalized := rfl

variable {w hostPort}

theorem nodeAt_of_lookup {st : NodeStatus} {n : ComputationalNode}
    (h : (w.workerNodes st).lookup hostPort = some n) : w.nodeAt st hostPort = n := by
  rw [nodeAt, h, Option.getD_some]

theorem putNode_of_lookup {st : NodeStatus} {n : ComputationalNode}
    (h : (w.workerNodes st).lookup hostPort = some n) : w.putNode st hostPort n = w := by
  rw [putNode, insert_lookup h, setNodes, Function.update_eq_self]

theorem touch_of_lookup {st : NodeStatus} {n : ComputationalNode}
    (h : (w.workerNodes st).lookup hostPort = some n) : w.touch st hostPort = w := by
  rw [touch, nodeAt_of_lookup h, putNode_of_lookup h]

theorem moveNode_of_lookup {source target : NodeStatus} {n : ComputationalNode}
    (h : (w.workerNodes source).lookup hostPort = some n) :
    w.moveNode hostPort source target =
      (w.setNodes source ((w.workerNodes source).erase hostPort)).putNode target hostPort n := by
  rw [moveNode, touch_of_lookup h, nodeAt_of_lookup h]

end Lemmas

end WorkerManagement

end DistributedMathArh
