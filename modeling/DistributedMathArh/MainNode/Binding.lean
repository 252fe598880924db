import DistributedMathArh.Lib.Transition
import DistributedMathArh.MainNode.Run
import DistributedMathArh.MainNode.Sharding

namespace DistributedMathArh

open Json Transition

structure QueueBinding where
  exchange : String
  queue : String
  routingKey : String
  deriving DecidableEq

/-- The queues and bindings of one virtual host; only a queue that exists has bindings. -/
structure Broker where
  queues : List String
  bindings : List QueueBinding
  known : ∀ x ∈ bindings, x.queue ∈ queues

structure RestPattern where
  listQueues : Except Exn Unit
  createQueue : Except Exn Unit
  bindQueueToExchange : Except Exn Unit

namespace Broker

def perform (b : Broker) (effect : Broker → Broker) : Except Exn Unit → Broker × Except Exn Unit
  | .error e => (b, .error e)
  | .ok () => (effect b, .ok ())

def createQueue (name : String) (b : Broker) : Broker where
  queues := name :: b.queues
  bindings := b.bindings
  known x hx := List.mem_cons_of_mem _ (b.known x hx)

def bindQueueToExchange (name exchange routingKey : String) (b : Broker) : Broker :=
  if h : name ∈ b.queues then
    { b with
      bindings := ⟨exchange, name, routingKey⟩ :: b.bindings
      known := List.forall_mem_cons.mpr ⟨h, b.known⟩ }
  else b

def outcome (b : Broker) (r : RestPattern) : QueueOutcome :=
  ⟨r.listQueues.map fun _ => b.queues, r.createQueue, r.bindQueueToExchange⟩

def ensureQueue (b : Broker) (exchange name : String) (r : RestPattern) :
    Broker × Except Exn Unit :=
  match b.perform id r.listQueues with
  | (b, .error e) => (b, .error e)
  | (b, .ok ()) =>
    if name ∈ b.queues then (b, .ok ())
    else
      match b.perform (createQueue name) r.createQueue with
      | (b, .error e) => (b, .error e)
      | (b, .ok ()) => b.perform (bindQueueToExchange name exchange name) r.bindQueueToExchange

structure Serves (b : Broker) (exchange name : String) : Prop where
  queue : name ∈ b.queues
  binding : ⟨exchange, name, name⟩ ∈ b.bindings

structure Unbound (b : Broker) (exchange name : String) : Prop where
  queue : name ∈ b.queues
  binding : ⟨exchange, name, name⟩ ∉ b.bindings

structure HalfCreates (b : Broker) (name : String) (r : RestPattern) : Prop where
  listed : r.listQueues = .ok ()
  missing : name ∉ b.queues
  created : r.createQueue = .ok ()
  failed : r.bindQueueToExchange ≠ .ok ()

variable {b : Broker} {exchange name : String} {r : RestPattern}

theorem ensureQueue_snd (b : Broker) (exchange name : String) (r : RestPattern) :
    (b.ensureQueue exchange name r).2 = MainNode.ensureQueue name (b.outcome r) := by
  simp only [ensureQueue, MainNode.ensureQueue, outcome, perform]
  cases r.listQueues with
  | error e => rfl
  | ok u =>
    simp only [Except.map, bind, Except.bind, id]
    split
    · rfl
    · cases r.createQueue with
      | error e => rfl
      | ok u => cases r.bindQueueToExchange <;> rfl

theorem not_serves_iff (h : name ∈ b.queues) :
    ¬ b.Serves exchange name ↔ b.Unbound exchange name := by
  constructor
  · intro hs
    exact ⟨h, fun hb => hs ⟨h, hb⟩⟩
  · intro hu hs
    exact hu.binding hs.binding

theorem mem_createQueue : name ∈ (b.createQueue name).queues := List.mem_cons_self

theorem unbound_createQueue {x : String} (h : name ∉ b.queues) :
    (b.createQueue name).Unbound exchange x ↔ b.Unbound exchange x ∨ x = name := by
  constructor
  · intro hu
    cases List.mem_cons.mp hu.queue with
    | inl hx => exact .inr hx
    | inr hx => exact .inl ⟨hx, hu.binding⟩
  · intro hor
    cases hor with
    | inl hu => exact ⟨List.mem_cons_of_mem _ hu.queue, hu.binding⟩
    | inr hx =>
      subst hx
      exact ⟨List.mem_cons_self, fun hb => h (b.known _ hb)⟩

theorem serves_bind (name exchange : String) :
    ((b.createQueue name).bindQueueToExchange name exchange name).Serves exchange name := by
  rw [bindQueueToExchange, dif_pos mem_createQueue]
  exact ⟨List.mem_cons_self, List.mem_cons_self⟩

theorem unbound_bind {x : String} :
    ((b.createQueue name).bindQueueToExchange name exchange name).Unbound exchange x ↔
      x ≠ name ∧ b.Unbound exchange x := by
  rw [bindQueueToExchange, dif_pos mem_createQueue]
  constructor
  · intro hu
    have hne : x ≠ name := fun h => hu.binding (by simp [h])
    exact ⟨hne, List.mem_of_ne_of_mem hne hu.queue, fun hb =>
      hu.binding (List.mem_cons_of_mem _ hb)⟩
  · rintro ⟨hne, hu⟩
    refine ⟨List.mem_cons_of_mem _ hu.queue, fun hb => ?_⟩
    cases List.mem_cons.mp hb with
    | inl h => exact hne (QueueBinding.mk.inj h).2.1
    | inr h => exact hu.binding h

theorem ensureQueue_cases (b : Broker) (exchange name : String) (r : RestPattern) :
    ((b.ensureQueue exchange name r).1 = b ∧ ¬ b.HalfCreates name r ∧
      ((b.ensureQueue exchange name r).2 = .ok () → name ∈ b.queues)) ∨
    (b.HalfCreates name r ∧ (b.ensureQueue exchange name r).1 = b.createQueue name ∧
      (b.ensureQueue exchange name r).2 ≠ .ok ()) ∨
    (name ∉ b.queues ∧ r.bindQueueToExchange = .ok () ∧ (b.ensureQueue exchange name r).1 =
      (b.createQueue name).bindQueueToExchange name exchange name) := by
  by_cases hlist : r.listQueues = .ok ()
  · by_cases hmem : name ∈ b.queues
    · refine .inl ⟨?_, fun h => h.missing hmem, fun _ => hmem⟩
      simp [ensureQueue, perform, hlist, hmem]
    · by_cases hcreate : r.createQueue = .ok ()
      · by_cases hbind : r.bindQueueToExchange = .ok ()
        · refine .inr (.inr ⟨hmem, hbind, ?_⟩)
          simp [ensureQueue, perform, hlist, hmem, hcreate, hbind]
        · refine .inr (.inl ⟨⟨hlist, hmem, hcreate, hbind⟩, ?_⟩)
          cases hb : r.bindQueueToExchange with
          | ok u => exact absurd hb hbind
          | error e => simp [ensureQueue, perform, hlist, hmem, hcreate, hb]
      · refine .inl ⟨?_, fun h => hcreate h.created, ?_⟩ <;>
          cases hc : r.createQueue <;> simp_all [ensureQueue, perform]
  · refine .inl ⟨?_, fun h => hlist h.listed, ?_⟩ <;>
      cases hl : r.listQueues <;> simp_all [ensureQueue, perform]

theorem unbound_ensureQueue {x : String} : (b.ensureQueue exchange name r).1.Unbound exchange x ↔
    b.Unbound exchange x ∨ x = name ∧ b.HalfCreates name r := by
  obtain ⟨hb, hnot, -⟩ | ⟨hhalf, hb, -⟩ | ⟨hmem, hbind, hb⟩ :=
    ensureQueue_cases b exchange name r <;> rw [hb]
  · simp [hnot]
  · rw [unbound_createQueue hhalf.missing]
    simp [hhalf]
  · have hnot : ¬ b.HalfCreates name r := fun h => h.failed hbind
    rw [unbound_bind]
    simp only [hnot, and_false, or_false, and_iff_right_iff_imp]
    rintro hu rfl
    exact hmem hu.queue

theorem serves_ensureQueue (h : (b.ensureQueue exchange name r).2 = .ok ()) :
    (b.ensureQueue exchange name r).1.Serves exchange name ↔ ¬ b.Unbound exchange name := by
  obtain ⟨hb, -, hmem⟩ | ⟨-, -, hne⟩ | ⟨hmem, -, hb⟩ := ensureQueue_cases b exchange name r
  · rw [hb, ← not_serves_iff (hmem h), not_not]
  · exact absurd h hne
  · rw [hb]
    exact iff_of_true (serves_bind name exchange) fun hu => hmem hu.queue

end Broker

namespace MainNode

variable {E : Env} {m : MainNode}

theorem statusOf_restFailure (request : String) (e : Exn) :
    statusOf (restFailure request false e) ≠ some 200 := by
  cases e <;> exact fun h => by cases h

theorem ensureQueue_of_connectNode {hostPort name : String} {r : QueueOutcome} {reply : HttpReply}
    (h : statusOf (m.connectNode E hostPort name r reply).2 = some 200) :
    (m.publisher.isConnected ∧ hostPort ∉ m.workers.active) ∧ ensureQueue name r = .ok () := by
  simp only [connectNode, dispatchConnect] at h
  cases hconn : m.publisher.isConnected with
  | false =>
    simp only [hconn] at h
    cases h
  | true =>
    by_cases hact : hostPort ∈ m.workers.active
    · have hnew : m.workers.addNewNode hostPort = (m.workers, WorkerManagement.conflict
          s!"Worker node {hostPort} is already connected to cluster!") := by
        simp [WorkerManagement.addNewNode, hact]
      simp only [hconn, hnew] at h
      cases h
    · obtain ⟨hmem, -⟩ | ⟨-, -, -, hnew⟩ := m.workers.addNewNode_cases hostPort
      · exact absurd hmem hact
      · simp only [hconn, hnew, Value.isMember] at h
        cases hq : ensureQueue name r with
        | ok u => exact ⟨⟨rfl, hact⟩, rfl⟩
        | error e =>
          rw [hq] at h
          exact absurd h (statusOf_restFailure _ e)

end MainNode

structure NodeCall where
  hostPort : String
  name : String
  rest : RestPattern
  reply : HttpReply

structure Site where
  main : MainNode
  broker : Broker

namespace Site

def exchange (s : Site) : String := s.main.publisher.defaultExchange

def Asks (s : Site) (c : NodeCall) : Prop :=
  s.main.publisher.isConnected ∧ c.hostPort ∉ s.main.workers.active

instance (s : Site) (c : NodeCall) : Decidable (s.Asks c) := inferInstanceAs (Decidable (_ ∧ _))

def connectNode (E : Env) (s : Site) (c : NodeCall) : Site × Except Halt Value :=
  let (main, res) := s.main.connectNode E c.hostPort c.name (s.broker.outcome c.rest) c.reply
  (⟨main, if s.Asks c then (s.broker.ensureQueue s.exchange c.name c.rest).1 else s.broker⟩, res)

/-- One request; there is no next state when the process terminates or the behaviour is undefined. -/
def step (E : Env) (s : Site) (c : NodeCall) : Option Site :=
  if Halt.alive (s.connectNode E c).2 then some (s.connectNode E c).1 else none

def Succeeds (E : Env) (s : Site) (c : NodeCall) : Prop :=
  MainNode.statusOf (s.connectNode E c).2 = some 200

variable {E : Env} {s s' : Site} {c : NodeCall}

theorem exchange_connectNode : (s.connectNode E c).1.exchange = s.exchange := by
  simp only [connectNode, exchange, MainNode.connectNode]
  obtain ⟨res, h⟩ | ⟨-, -, ⟨res, h⟩ | h⟩ :=
    s.main.dispatchConnect_cases c.hostPort c.name (s.broker.outcome c.rest) <;> rw [h] <;> rfl

theorem ensureQueue_of_succeeds (h : Succeeds E s c) :
    s.Asks c ∧ (s.broker.ensureQueue s.exchange c.name c.rest).2 = .ok () := by
  rw [Broker.ensureQueue_snd]
  exact MainNode.ensureQueue_of_connectNode h

def LeftUnbound (E : Env) (s : Site) (cs : List NodeCall) (name : String) : Prop :=
  Somewhere (ofFun (step E)) (fun t c => t.Asks c ∧ c.name = name ∧ t.broker.HalfCreates name c.rest)
    s cs

theorem leftUnbound_snoc {s₀ t : Site} {cs : List NodeCall} {name : String}
    (run : Run (ofFun (step E)) s₀ cs t) : LeftUnbound E s₀ (cs ++ [c]) name ↔
      LeftUnbound E s₀ cs name ∨ t.Asks c ∧ c.name = name ∧ t.broker.HalfCreates name c.rest := by
  apply somewhere_snoc.trans
  apply or_congr_right
  constructor
  · rintro ⟨t', run', h⟩
    exact run.unique run' ▸ h
  · exact fun h => ⟨t, run, h⟩

theorem unbound_connectNode {name : String} :
    (s.connectNode E c).1.broker.Unbound s.exchange name ↔ s.broker.Unbound s.exchange name ∨
      s.Asks c ∧ c.name = name ∧ s.broker.HalfCreates name c.rest := by
  have hbroker : (s.connectNode E c).1.broker =
      if s.Asks c then (s.broker.ensureQueue s.exchange c.name c.rest).1 else s.broker := rfl
  rw [hbroker]
  split
  · rename_i hasks
    rw [Broker.unbound_ensureQueue]
    simp only [hasks, true_and]
    apply or_congr_right
    constructor
    · rintro ⟨rfl, hhalf⟩
      exact ⟨rfl, hhalf⟩
    · rintro ⟨rfl, hhalf⟩
      exact ⟨rfl, hhalf⟩
  · simp [*]

theorem unbound_of_run {s₀ : Site} {cs : List NodeCall} (run : Run (ofFun (step E)) s₀ cs s) :
    s.exchange = s₀.exchange ∧ ∀ name, s.broker.Unbound s₀.exchange name ↔
      s₀.broker.Unbound s₀.exchange name ∨ LeftUnbound E s₀ cs name := by
  induction run with
  | nil => exact ⟨rfl, fun name => (or_iff_left not_somewhere_nil).symm⟩
  | @snoc cs t c u run hstep ih =>
    obtain ⟨hex, hunbound⟩ := ih
    obtain ⟨-, rfl⟩ := (Option.ite_none_right_eq_some.mp hstep).imp_right Option.some.inj
    refine ⟨exchange_connectNode.trans hex, fun name => ?_⟩
    rw [← hex, unbound_connectNode, hex, hunbound, leftUnbound_snoc run, or_assoc]

/-- Whenever a request of a run succeeds, its queue is bound, unless an earlier request created
the queue without binding it, or it was without its binding from the start. -/
theorem serves_iff {s₀ : Site} {cs : List NodeCall} (run : Run (ofFun (step E)) s₀ cs s)
    (hc : Succeeds E s c) : (s.connectNode E c).1.broker.Serves s.exchange c.name ↔
      ¬ s₀.broker.Unbound s₀.exchange c.name ∧ ¬ LeftUnbound E s₀ cs c.name := by
  obtain ⟨hasks, hok⟩ := ensureQueue_of_succeeds hc
  obtain ⟨hex, hunbound⟩ := unbound_of_run run
  have hbroker : (s.connectNode E c).1.broker =
      (s.broker.ensureQueue s.exchange c.name c.rest).1 := if_pos hasks
  rw [hbroker, Broker.serves_ensureQueue hok, ← not_or, hex, hunbound]

def fresh : Site :=
  ⟨((MainNode.init ⟨"sysadmin", "syspassword"⟩).connect "q" ⟨.ok ["testexch"], .ok (), ""⟩).1,
    [], [], by simp⟩

def connectW (bind : Except Exn Unit) : NodeCall :=
  ⟨"w", "w", ⟨.ok (), .ok (), bind⟩, MainNode.okReply [("bench", .null)]⟩

theorem serves_iff_connectW :
    ∃ s, Run (ofFun (step (MainNode.uniformEnv 5))) fresh [connectW (.error (.httpError 500 ""))] s ∧
      ((s.connectNode (MainNode.uniformEnv 5) (connectW (.ok ()))).1.broker.Serves s.exchange "w" ↔
        ¬ fresh.broker.Unbound fresh.exchange "w" ∧
          ¬ LeftUnbound (MainNode.uniformEnv 5) fresh [connectW (.error (.httpError 500 ""))] "w") := by
  have run := run_ofFun_iff.mpr (rfl : exec (step (MainNode.uniformEnv 5)) fresh
    [connectW (.error (.httpError 500 ""))] = some _)
  exact ⟨_, run, serves_iff run rfl⟩

theorem not_serves :
    ∃ s, Run (ofFun (step (MainNode.uniformEnv 5))) fresh [connectW (.error (.httpError 500 ""))] s ∧
      Succeeds (MainNode.uniformEnv 5) s (connectW (.ok ())) ∧
      "w" ∈ (s.connectNode (MainNode.uniformEnv 5) (connectW (.ok ()))).1.main.workers.active ∧
      ¬ (s.connectNode (MainNode.uniformEnv 5) (connectW (.ok ()))).1.broker.Serves "testexch" "w" := by
  have run := run_ofFun_iff.mpr (rfl : exec (step (MainNode.uniformEnv 5)) fresh
    [connectW (.error (.httpError 500 ""))] = some _)
  refine ⟨_, run, rfl, by decide, fun h => ?_⟩
  exact absurd h.binding (by decide)

end Site

end DistributedMathArh
