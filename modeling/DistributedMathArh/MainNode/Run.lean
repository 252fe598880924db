import DistributedMathArh.Lib.Transition
import DistributedMathArh.MainNode.Registry

namespace DistributedMathArh.MainNode

open Json Transition

inductive Event
  | connect (qip : String) (r : ConnectOutcome)
  | disconnect
  | connectNode (hostPort name : String) (r : QueueOutcome) (reply : HttpReply)
  | disconnectNode (hostPort : String) (reply : HttpReply)
  | sendToExecution (ts : TestSolveParam) (order : List ActiveNode)
  | publisherClosed

/-- The state after an event, the messages that it sends to the broker, and the answer. -/
def serve (E : Env) (m : MainNode) : Event → MainNode × List Message × Except Halt Value
  | .connect qip r => ((m.connect qip r).1, [], (m.connect qip r).2)
  | .disconnect => (m.disconnect.1, [], .ok m.disconnect.2)
  | .connectNode hostPort name r reply =>
    ((m.connectNode E hostPort name r reply).1, [], (m.connectNode E hostPort name r reply).2)
  | .disconnectNode hostPort reply =>
    ((m.disconnectNode E hostPort reply).1, [], (m.disconnectNode E hostPort reply).2)
  | .sendToExecution ts order => (m, m.sendToExecution ts order)
  | .publisherClosed =>
    ({ m with publisher := { m.publisher with toAMQPService := m.publisher.closed } }, [], .ok .null)

/-- A task is cut up in an order in which the hash map can list its entries. -/
def Offers (m : MainNode) : Event → Prop
  | .sendToExecution _ order => (order : Multiset ActiveNode) = m.workers.active.entries
  | _ => True

instance (m : MainNode) (e : Event) : Decidable (m.Offers e) := by
  cases e <;> unfold Offers <;> infer_instance

/-- One event; there is no next state when the process terminates or the behaviour is undefined. -/
def step (E : Env) (m : MainNode) (e : Event) : Option MainNode :=
  if m.Offers e ∧ Halt.alive (m.serve E e).2.2 then some (m.serve E e).1 else none

variable {E : Env} {m m' : MainNode} {e : Event}

theorem step_eq_some (h : m.step E e = some m') :
    m.Offers e ∧ Halt.alive (m.serve E e).2.2 ∧ m' = (m.serve E e).1 := by
  rw [step, Option.ite_none_right_eq_some] at h
  exact ⟨h.1.1, h.1.2, (Option.some.inj h.2).symm⟩

def dispatched (m : MainNode) (hostPort : String) : MainNode :=
  { m with workers := (m.workers.addNewNode hostPort).1 }

theorem connectNode_of_idle (E : Env) {m : MainNode} {hostPort : String}
    (hconn : m.publisher.isConnected) (hnot : hostPort ∉ m.workers.active) (name : String)
    (r : QueueOutcome) (reply : HttpReply) :
    m.connectNode E hostPort name r reply =
      match ensureQueue name r with
      | .error e => (m.dispatched hostPort, restFailure "connect_node" false e)
      | .ok () => (m.dispatched hostPort).finishConnect E hostPort reply := by
  rcases m.workers.addNewNode_cases hostPort with ⟨hmem, -⟩ | ⟨-, -, -, hnull⟩
  · exact absurd hmem hnot
  · simp only [connectNode, dispatchConnect, hconn, hnull, Value.isMember, dispatched]
    cases ensureQueue name r <;> rfl

theorem dispatchConnect_cases (m : MainNode) (hostPort name : String) (r : QueueOutcome) :
    (∃ res, m.dispatchConnect hostPort name r = (m, .answered res)) ∨
    (m.publisher.isConnected ∧ hostPort ∉ m.workers.active ∧
      ((∃ res, m.dispatchConnect hostPort name r = (m.dispatched hostPort, .answered res)) ∨
        m.dispatchConnect hostPort name r =
          (m.dispatched hostPort, .sent (m.connectRequest name)))) := by
  unfold dispatchConnect
  cases hconn : m.publisher.isConnected with
  | false => exact .inl ⟨_, rfl⟩
  | true =>
    rcases m.workers.addNewNode_cases hostPort with ⟨-, hw, hs⟩ | ⟨hnot, -, -, hs⟩
    · refine .inl ⟨relayResult "connect_node" (.ok (m.workers.addNewNode hostPort).2), ?_⟩
      simp [hw, hs]
    · refine .inr ⟨rfl, hnot, ?_⟩
      simp only [hs, Value.isMember, dispatched]
      cases ensureQueue name r with
      | error e => exact .inl ⟨_, rfl⟩
      | ok => exact .inr rfl

theorem connect_cases (m : MainNode) (qip : String) (r : ConnectOutcome) :
    (m.publisher.isConnected ∧ (m.connect qip r).1 = m) ∨
    (m.publisher.isConnected = false ∧
      ∃ p, (m.connect qip r).1 = { m with qHost := qip, publisher := p } ∧
        (p = m.configured qip ∨ p = ((m.configured qip).connect r.publisher).1)) := by
  cases hconn : m.publisher.isConnected with
  | true =>
    simp only [connect, hconn, if_true]
    exact .inl ⟨trivial, trivial⟩
  | false =>
    simp only [connect, hconn, Bool.false_eq_true, if_false]
    refine .inr ⟨trivial, ?_⟩
    cases ensureExchange (m.configured qip) r with
    | error e => exact ⟨_, rfl, .inl rfl⟩
    | ok =>
      cases hp : (m.configured qip).connect r.publisher with
      | mk p res =>
        refine ⟨p, ?_, .inr rfl⟩
        simp only
        split <;> simp_all

theorem workers_connect (m : MainNode) (qip : String) (r : ConnectOutcome) :
    (m.connect qip r).1.workers = m.workers := by
  rcases m.connect_cases qip r with ⟨-, h⟩ | ⟨-, p, h, -⟩ <;> rw [h]

theorem workers_disconnect (m : MainNode) : m.disconnect.1.workers = m.workers := by
  unfold disconnect
  split <;> rfl

theorem alive_relayResult {request : String} {res : Except Halt Value}
    (h : Halt.alive (relayResult request res)) : Halt.alive res := by
  cases res with
  | ok v => rfl
  | error e => exact h

theorem mem_inactive_dispatched {hostPort : String} (h : hostPort ∉ m.workers.active) :
    hostPort ∈ (m.dispatched hostPort).workers.inactive := by
  rcases m.workers.addNewNode_cases hostPort with ⟨hmem, -⟩ | ⟨-, hin, -⟩
  · exact absurd hmem h
  · exact hin

theorem active_dispatched {hostPort : String} (h : hostPort ∉ m.workers.active) :
    (m.dispatched hostPort).workers.active = m.workers.active := by
  rcases m.workers.addNewNode_cases hostPort with ⟨hmem, -⟩ | ⟨-, -, hact, -⟩
  · exact absurd hmem h
  · exact hact

theorem nodeSpeed_dispatched {hostPort : String} {n : ComputationalNode}
    (hnot : hostPort ∉ m.workers.active)
    (hlook : (m.dispatched hostPort).workers.inactive.lookup hostPort = some n) :
    n.nodeSpeed = (m.workers.nodeAt .inactive hostPort).nodeSpeed := by
  unfold dispatched WorkerManagement.addNewNode at hlook
  by_cases hin : hostPort ∈ m.workers.inactive
  · rw [if_neg fun h => h.1 hin, if_neg hnot] at hlook
    rw [WorkerManagement.nodeAt_of_lookup hlook]
  · rw [if_pos ⟨hin, hnot⟩, WorkerManagement.inactive_putNode_inactive, Finmap.lookup_insert] at hlook
    rw [WorkerManagement.nodeAt, show (m.workers.workerNodes .inactive).lookup hostPort = none from
      Finmap.lookup_eq_none.mpr hin]
    cases hlook
    rfl

theorem workers_step {P : WorkerManagement → Prop} (hreg : ∀ w, P w → w.Registered)
    (change : ∀ w w', P w → WorkerManagement.Change E w w' → P w') (m : MainNode) (e : Event)
    (m' : MainNode) (hm : P m.workers) (h : ofFun (step E) m e m') : P m'.workers := by
  obtain ⟨-, halive, rfl⟩ := step_eq_some h
  cases e with
  | connect qip r =>
    simp only [serve, workers_connect]
    exact hm
  | disconnect =>
    simp only [serve, workers_disconnect]
    exact hm
  | connectNode hostPort name r reply =>
    simp only [serve, connectNode] at halive ⊢
    have hadd : P (m.dispatched hostPort).workers :=
      change _ _ hm (WorkerManagement.change_addNewNode _ _)
    rcases m.dispatchConnect_cases hostPort name r with
      ⟨res, hd⟩ | ⟨-, hnot, ⟨res, hd⟩ | hd⟩
    · rw [hd]
      exact hm
    · rw [hd]
      exact hadd
    · rw [hd] at halive ⊢
      exact change _ _ hadd (WorkerManagement.change_connectNode (hreg _ hadd)
        (mem_inactive_dispatched hnot) reply (alive_relayResult halive))
  | disconnectNode hostPort reply =>
    simp only [serve, disconnectNode] at halive ⊢
    split
    · exact hm
    · rename_i hconn
      rw [if_neg hconn] at halive
      exact change _ _ hm
        (WorkerManagement.change_disconnectNode (hreg _ hm) reply (alive_relayResult halive))
  | sendToExecution ts order => exact hm
  | publisherClosed => exact hm

/-- In every state that a run reaches, no host is both ACTIVE and INACTIVE, every node has a
client, and the normalization vector is the sum of the speeds of the ACTIVE nodes. -/
theorem consistent_of_run (hE : ∀ val bench, E.decodeBench val = .ok bench → bench.length = 13)
    {auth : JsonAuthHandler} {es : List Event} (run : Run (ofFun (step E)) (init auth) es m) :
    m.workers.Consistent :=
  run.invariant (workers_step (fun _ h => h.toRegistered) fun _ _ hw h => hw.change hE h)
    WorkerManagement.consistent_init

def uniformEnv (value : UInt64) : Env := ⟨fun _ => "", fun _ => .ok (defaultBench value)⟩

def okReply (ms : Members) : HttpReply := ⟨.ok, some ⟨200, some (.object ms)⟩⟩

def connectWorker (host worker : String) : List Event :=
  [.connect host ⟨.ok ["testexch"], .ok (), ""⟩,
    .connectNode worker worker ⟨.ok [], .ok (), .ok ()⟩ (okReply [("bench", .null)])]

theorem consistent_of_run_connect :
    ∃ m, Run (ofFun (step (uniformEnv 5))) (init ⟨"sysadmin", "syspassword"⟩)
        (connectWorker "q" "w") m ∧
      "w" ∈ m.workers.active ∧ m.workers.normalized = defaultBench 200000000000 ∧
      m.workers.Consistent := by
  have run := run_ofFun_iff.mpr (rfl : exec (step (uniformEnv 5))
    (init ⟨"sysadmin", "syspassword"⟩) (connectWorker "q" "w") = some _)
  refine ⟨_, run, by decide, rfl, consistent_of_run (fun _ _ h => ?_) run⟩
  cases h
  rfl

end DistributedMathArh.MainNode
