import DistributedMathArh.MainNode.WorkerManagement
import DistributedMathArh.Network.AmqpService
import DistributedMathArh.Network.TestSolveParam

/-! `main_services::MainNodeService`: the requests that the main node serves. -/

namespace DistributedMathArh

open Json FinmapSum

/-- A task handed to a broker; the body of the envelope is the styled document of `task`. -/
structure Message where
  broker : String
  exchange : String
  routingKey : String
  task : TestSolveParam

structure JsonAuthHandler where
  user : String
  password : String

namespace JsonAuthHandler

def toJson (auth : JsonAuthHandler) : Members :=
  [("user", .string auth.user), ("password", .string auth.password)]

end JsonAuthHandler

structure ConnectOutcome where
  getExchanges : Except Exn (List String)
  createExchange : Except Exn Unit
  publisher : String

structure QueueOutcome where
  listQueues : Except Exn (List String)
  createQueue : Except Exn Unit
  bindQueueToExchange : Except Exn Unit

structure MainNode where
  auth : JsonAuthHandler
  publisher : Publisher
  workers : WorkerManagement
  qHost : String

abbrev ActiveNode := Σ _ : String, ComputationalNode

inductive Dispatch
  | answered (res : Except Halt Value)
  | sent (request : Value)

namespace MainNode

def init (auth : JsonAuthHandler) : MainNode := ⟨auth, .init, .init, ""⟩

def answer (request : String) (ms : Members) : Value := .object (("request", .string request) :: ms)

def queueUnavailable (request : String) : Value :=
  answer request [("status", .int 409),
    ("message", .string "Queue service is currently unavailable try using connect_publisher/ request")]

/-- The answer when a call to the broker's REST interface has thrown; `curl` says whether the
caller catches `CurlError` as well. -/
def restFailure (request : String) (curl : Bool) : Exn → Except Halt Value
  | .httpError code reason => .ok (answer request
      [("status", .int 409), ("message", .string "Error during queue creation"),
        ("exception", .object [("message", .string reason), ("code", .int (Int64.ofNat code))])])
  | .curlError what =>
    if curl then .ok (answer request
      [("status", .int 409), ("message", .string "Error during http curl request"),
        ("exception", .object [("message", .string what)])])
    else .error (.exn (.curlError what))
  | e => .error (.exn e)

/-- `Status`; the service has one name while it is connected and another while it is not. -/
def status (m : MainNode) (maps : List (NodeStatus × List ActiveNode)) : Value :=
  answer "status" [
    if m.publisher.isConnected then ("rabbitmq_service", .object [("status", .string "Connected"),
      ("c_string", .string ((m.publisher.cString.map AMQPSQLCStr.formatted).getD ""))])
    else ("RabbitmqService", .object [("status", .string "Not Connected")]),
    ("clients", WorkerManagement.getStatus maps), ("status", .int 200)]

def relay (request : String) (js1 : Value) : Except Exn Value := do
  if ← js1.isMember "status" then
    let status ← js1.member "status"
    let output ← js1.removeMember "status"
    return answer request [("balancer_output", output), ("status", status)]
  else return answer request [("balancer_output", js1), ("status", .int 200)]

def relayResult (request : String) : Except Halt Value → Except Halt Value
  | .error h => .error h
  | .ok js1 => (relay request js1).mapError .exn

def ensureQueue (name : String) (r : QueueOutcome) : Except Exn Unit := do
  let ls ← r.listQueues
  if name ∈ ls then return ()
  r.createQueue
  r.bindQueueToExchange

def connectRequest (m : MainNode) (name : String) : Value :=
  .object (m.auth.toJson ++ [("ip", .string m.qHost), ("name", .string name)])

def dispatchConnect (m : MainNode) (hostPort name : String) (r : QueueOutcome) :
    MainNode × Dispatch :=
  if !m.publisher.isConnected then (m, .answered (.ok (queueUnavailable "connect_node")))
  else
    let (w, js1) := m.workers.addNewNode hostPort
    let m := { m with workers := w }
    match js1.isMember "status" with
    | .error e => (m, .answered (.error (.exn e)))
    | .ok true => (m, .answered (relayResult "connect_node" (.ok js1)))
    | .ok false =>
      match ensureQueue name r with
      | .error e => (m, .answered (restFailure "connect_node" false e))
      | .ok () => (m, .sent (m.connectRequest name))

def finishConnect (E : Env) (m : MainNode) (hostPort : String) (reply : HttpReply) :
    MainNode × Except Halt Value :=
  let (w, res) := m.workers.connectNode E hostPort reply
  ({ m with workers := w }, relayResult "connect_node" res)

def connectNode (E : Env) (m : MainNode) (hostPort name : String) (r : QueueOutcome)
    (reply : HttpReply) : MainNode × Except Halt Value :=
  match m.dispatchConnect hostPort name r with
  | (m, .answered res) => (m, res)
  | (m, .sent _) => m.finishConnect E hostPort reply

def disconnectNode (E : Env) (m : MainNode) (hostPort : String) (reply : HttpReply) :
    MainNode × Except Halt Value :=
  if !m.publisher.isConnected then (m, .ok (queueUnavailable "disconnect_node"))
  else
    let (w, res) := m.workers.disconnectNode E hostPort reply
    ({ m with workers := w }, relayResult "disconnect_node" res)

def ensureExchange (p : Publisher) (r : ConnectOutcome) : Except Exn Unit := do
  let exchanges ← r.getExchanges
  if p.defaultExchange ∈ exchanges then return ()
  r.createExchange

def configured (m : MainNode) (qip : String) : Publisher :=
  m.publisher.setParameters ⟨qip, m.auth.user, m.auth.password, false⟩ "testexch"

def connect (m : MainNode) (qip : String) (r : ConnectOutcome) : MainNode × Except Halt Value :=
  if m.publisher.isConnected then
    (m, .ok (answer "connect_publisher" [("status", .int 409),
      ("message", .string ("Queue service is currently working " ++
        (m.publisher.cString.map AMQPSQLCStr.formatted).getD ""))]))
  else
    let m := { m with qHost := qip, publisher := m.configured qip }
    match ensureExchange m.publisher r with
    | .error e => (m, restFailure "connect_publisher" true e)
    | .ok () =>
      match m.publisher.connect r.publisher with
      | (p, .ok ()) =>
        ({ m with publisher := p }, .ok (answer "connect_publisher" [("status", .int 200)]))
      | (p, .error (.exn (.runtimeError what))) =>
        ({ m with publisher := p }, .ok (answer "connect_publisher" [("status", .int 409),
          ("message", .string ("Publisher connection error, msg \"" ++ what ++ "\"!"))]))
      | (p, .error h) => ({ m with publisher := p }, .error h)

def disconnect (m : MainNode) : MainNode × Value :=
  if !m.publisher.isConnected then (m, queueUnavailable "disconnect_publisher")
  else ({ m with publisher := m.publisher.disconnect },
    answer "disconnect_publisher" [("status", .int 200)])

/-- `PublishMessage`: what goes out to the broker, and the answer. -/
def publishMessage (m : MainNode) (ts : TestSolveParam) (node : String) : List Message × Value :=
  match m.publisher.connection with
  | none => ([], answer "message" [("status", .int 409),
      ("message", .string "Queue service is already shut down")])
  | some c => ([⟨c.hostPort, m.publisher.defaultExchange, node, ts⟩],
      answer "message" [("status", .int 200)])

/-- The number of iterations for one worker: `(node_speed_ * itercount / GetSum())[NIndex(n)]`. -/
def itersToSlice (m : MainNode) (itercount n : UInt64) (val : ComputationalNode) :
    Except Halt UInt64 := do
  let iters ← (BenchResVec.scale val.nodeSpeed itercount).div m.workers.getSum
  iters.get (nIndex n)

/-- The loop over the active nodes: the rest of the task that `ts` holds is cut up among the node
at the iterator and the nodes after it, the last of which gets what is left.  The answers of
`PublishMessage` are dropped. -/
def sendBlocks (m : MainNode) (itercount : UInt64) (ts : TestSolveParam) :
    ActiveNode → List ActiveNode → List Message × Except Halt Unit
  | ⟨key, _⟩, [] => ((m.publishMessage ts key).1, .ok ())
  | ⟨key, val⟩, next :: rest =>
    match m.itersToSlice itercount ts.N val with
    | .error h => ([], .error h)
    | .ok iters =>
      match ts.sliceAway iters with
      | .error e => ([], .error (.exn e))
      | .ok (block, ts) =>
        let (msgs, res) := m.sendBlocks itercount ts next rest
        ((m.publishMessage block key).1 ++ msgs, res)

def sendToExecution (m : MainNode) (ts : TestSolveParam) :
    List ActiveNode → List Message × Except Halt Value
  | [] => ([], .ok (answer "send_task"
      [("message", .string "No nodes to compute task"), ("status", .int 409)]))
  | node :: rest =>
    match m.sendBlocks (ts.range.2 - ts.range.1 + 1) ts node rest with
    | (msgs, .error h) => (msgs, .error h)
    | (msgs, .ok ()) => (msgs, .ok (answer "send_task" [("status", .int 200)]))

end MainNode

end DistributedMathArh
