import DistributedMathArh.MainNode.Run
import DistributedMathArh.MainNode.Sharding

namespace DistributedMathArh

open Json Transition

structure Ack where
  node : MainNode
  brokerOf : String → Option String
  task : TestSolveParam
  order : List ActiveNode
  messages : List Message

namespace Ack

/-- Every worker was handed one block, the blocks are the task, and each went to the broker that
its worker was told at its last connection. -/
structure Delivered (a : Ack) : Prop where
  keys : a.messages.map Message.routingKey = a.order.map Sigma.fst
  blocks : Consecutive a.task.range.1 a.task.range.2 (a.messages.map fun x => x.task.range)
  task : ∀ x ∈ a.messages, x.task = { a.task with range := x.task.range }
  broker : ∀ x ∈ a.messages, a.brokerOf x.routingKey = some x.broker

/-- The publisher is connected, and every active worker was told the present broker. -/
structure Ready (a : Ack) : Prop where
  connected : a.node.publisher.isConnected
  current : ∀ h ∈ a.node.workers.active, a.brokerOf h = some a.node.qHost

end Ack

structure Cluster where
  main : MainNode
  brokerOf : String → Option String
  acks : List Ack

namespace Cluster

def init (auth : JsonAuthHandler) : Cluster := ⟨.init auth, fun _ => none, []⟩

def told (s : Cluster) : MainNode.Event → String → Option String
  | .connectNode hostPort name r reply =>
    match s.main.dispatchConnect hostPort name r with
    | (_, .sent _) =>
      if reply.accepted then Function.update s.brokerOf hostPort (some s.main.qHost)
      else s.brokerOf
    | (_, .answered _) => s.brokerOf
  | _ => s.brokerOf

def acknowledged (s : Cluster) : MainNode.Event → List Ack
  | .sendToExecution ts order =>
    if MainNode.statusOf (s.main.sendToExecution ts order).2 = some 200 then
      [⟨s.main, s.brokerOf, ts, order, (s.main.sendToExecution ts order).1⟩]
    else []
  | _ => []

def step (E : Env) (s : Cluster) (e : MainNode.Event) : Option Cluster :=
  (s.main.step E e).map fun main => ⟨main, s.told e, s.acks ++ s.acknowledged e⟩

variable {E : Env} {s s' : Cluster} {e : MainNode.Event}

theorem step_eq_some (h : s.step E e = some s') : s.main.step E e = some s'.main ∧
    s'.brokerOf = s.told e ∧ s'.acks = s.acks ++ s.acknowledged e := by
  obtain ⟨main, hmain, rfl⟩ := Option.map_eq_some_iff.mp h
  exact ⟨hmain, rfl, rfl⟩

def HostAgrees (m : MainNode) : Prop := ∀ c, m.publisher.connection = some c → c.hostPort = m.qHost

theorem hostAgrees_connect {m : MainNode} (hm : HostAgrees m) (qip : String) (r : ConnectOutcome) :
    HostAgrees (m.connect qip r).1 := by
  rcases m.connect_cases qip r with ⟨-, h⟩ | ⟨hconn, p, h, hp⟩
  · rw [h]
    exact hm
  · rw [h]
    intro c hc
    rcases hp with rfl | rfl
    · simp [AMQPService.isConnected] at hconn
      exact absurd (hconn.symm.trans hc) (by simp)
    · rw [← Option.some.inj (AMQPService.connection_connect
        (s := (m.configured qip).toAMQPService) hconn hc)]

theorem hostAgrees_step (E : Env) (m : MainNode) (e : MainNode.Event) (m' : MainNode)
    (hm : HostAgrees m) (h : m.step E e = some m') : HostAgrees m' := by
  obtain ⟨-, -, rfl⟩ := MainNode.step_eq_some h
  cases e with
  | connect qip r => exact hostAgrees_connect hm qip r
  | disconnect =>
    simp only [MainNode.serve, MainNode.disconnect]
    split
    · exact hm
    · rintro c ⟨⟩
  | connectNode hostPort name r reply =>
    simp only [MainNode.serve, MainNode.connectNode]
    rcases m.dispatchConnect_cases hostPort name r with
      ⟨res, hd⟩ | ⟨-, -, ⟨res, hd⟩ | hd⟩ <;> rw [hd] <;> exact hm
  | disconnectNode hostPort reply =>
    simp only [MainNode.serve, MainNode.disconnectNode]
    split <;> exact hm
  | sendToExecution ts order => exact hm
  | publisherClosed => rintro c ⟨⟩

theorem mem_active_iff {m : MainNode} {order : List ActiveNode}
    (horder : (order : Multiset ActiveNode) = m.workers.active.entries) (h : String) :
    h ∈ m.workers.active ↔ h ∈ order.map Sigma.fst := by
  rw [Finmap.mem_def, ← horder]
  rfl

theorem delivered_iff_of_status {m : MainNode} {brokerOf : String → Option String}
    {ts : TestSolveParam} {order : List ActiveNode} (hm : HostAgrees m)
    (horder : (order : Multiset ActiveNode) = m.workers.active.entries)
    (hstatus : MainNode.statusOf (m.sendToExecution ts order).2 = some 200) :
    Ack.Delivered ⟨m, brokerOf, ts, order, (m.sendToExecution ts order).1⟩ ↔
      Ack.Ready ⟨m, brokerOf, ts, order, (m.sendToExecution ts order).1⟩ := by
  cases order with
  | nil => cases hstatus
  | cons node rest =>
    have hok := ((MainNode.statusOf_sendToExecution ts node rest).mp hstatus).2
    rw [MainNode.sendToExecution_fst]
    cases hc : m.publisher.connection with
    | none =>
      constructor
      · intro h
        have hkeys := h.keys
        rw [MainNode.sendBlocks_of_disconnected hc] at hkeys
        cases hkeys
      · intro h
        have hconn := h.connected
        simp [AMQPService.isConnected, hc] at hconn
    | some c =>
      obtain ⟨hkeys, htasks, hblocks⟩ := MainNode.sendBlocks_ok hc (Prod.ext rfl hok)
      have hbroker : ∀ x ∈ (m.sendBlocks (ts.range.2 - ts.range.1 + 1) ts node rest).1,
          x.broker = m.qHost := fun x hx => (htasks x hx).1.trans (hm c hc)
      constructor
      · intro h
        refine ⟨by simp [AMQPService.isConnected, hc], fun w hw => ?_⟩
        rw [mem_active_iff horder, ← hkeys] at hw
        obtain ⟨x, hx, rfl⟩ := List.mem_map.mp hw
        exact (h.broker x hx).trans (congrArg some (hbroker x hx))
      · intro h
        refine ⟨hkeys, hblocks, fun x hx => (htasks x hx).2, fun x hx => ?_⟩
        have hmem : x.routingKey ∈ m.workers.active :=
          (mem_active_iff horder _).mpr (hkeys ▸ List.mem_map_of_mem hx)
        exact (h.current _ hmem).trans (congrArg some (hbroker x hx).symm)

structure Accountable (s : Cluster) : Prop where
  host : HostAgrees s.main
  acks : ∀ a ∈ s.acks, a.Delivered ↔ a.Ready

theorem accountable_step (E : Env) (s : Cluster) (e : MainNode.Event) (s' : Cluster)
    (hs : Accountable s) (h : ofFun (step E) s e s') : Accountable s' := by
  obtain ⟨hmain, -, hacks⟩ := step_eq_some h
  refine ⟨hostAgrees_step E _ e _ hs.host hmain, fun a ha => ?_⟩
  rw [hacks, List.mem_append] at ha
  rcases ha with ha | ha
  · exact hs.acks a ha
  · cases e with
    | sendToExecution ts order =>
      simp only [acknowledged] at ha
      split at ha
      · obtain rfl := List.mem_singleton.mp ha
        exact delivered_iff_of_status hs.host (MainNode.step_eq_some hmain).1 ‹_›
      · cases ha
    | _ => cases ha

theorem accountable_init (auth : JsonAuthHandler) : Accountable (init auth) where
  host := by rintro c ⟨⟩
  acks := by simp [init]

/-- In every run, a task that is answered with 200 is delivered if and only if at that moment the
publisher is connected and no active worker was connected through another broker. -/
theorem delivered_iff_ready {auth : JsonAuthHandler} {es : List MainNode.Event}
    (run : Run (ofFun (step E)) (init auth) es s) : ∀ a ∈ s.acks, a.Delivered ↔ a.Ready :=
  (run.invariant (accountable_step E) (accountable_init auth)).acks

def workerNode : ActiveNode :=
  ⟨"w", some "http://w", defaultBench 5, defaultBench 200000000000⟩

def sendTask : MainNode.Event := .sendToExecution ⟨1, 1, (0, 9), ∅⟩ [workerNode]

def acksOf (es : List MainNode.Event) : Option (List Ack) :=
  (exec (step (MainNode.uniformEnv 5)) (init ⟨"sysadmin", "syspassword"⟩) es).map Cluster.acks

theorem delivered_iff_ready_connected :
    ∃ s, Run (ofFun (step (MainNode.uniformEnv 5))) (init ⟨"sysadmin", "syspassword"⟩)
        (MainNode.connectWorker "q" "w" ++ [sendTask]) s ∧
      s.acks.length = 1 ∧ ∀ a ∈ s.acks, a.Delivered ↔ a.Ready := by
  have run := run_ofFun_iff.mpr (rfl : exec (step (MainNode.uniformEnv 5))
    (init ⟨"sysadmin", "syspassword"⟩) (MainNode.connectWorker "q" "w" ++ [sendTask]) = some _)
  exact ⟨_, run, rfl, delivered_iff_ready run⟩

theorem not_delivered :
    (∃ a, acksOf (MainNode.connectWorker "q" "w" ++ [.disconnect, sendTask]) = some [a] ∧
      a.messages = [] ∧ ¬ a.Delivered) ∧
    ∃ a, acksOf (MainNode.connectWorker "q" "w" ++
        [.disconnect, .connect "r" ⟨.ok ["testexch"], .ok (), ""⟩, sendTask]) = some [a] ∧
      a.messages.map Message.broker = ["r"] ∧ a.brokerOf "w" = some "q" ∧ ¬ a.Delivered := by
  refine ⟨⟨_, rfl, rfl, fun h => ?_⟩, ⟨_, rfl, rfl, rfl, fun h => ?_⟩⟩
  · cases h.keys
  · exact absurd (h.broker _ List.mem_cons_self) (by decide)

end Cluster

end DistributedMathArh
