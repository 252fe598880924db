import DistributedMathArh.CompNode.Service
import DistributedMathArh.MainNode.Run

/-! The registry of the main node against the consumers of the workers: requests of the main node,
their replies, and brokers that end connections at any moment. -/

namespace DistributedMathArh

open Json Transition

inductive RequestKind
  | connect | disconnect
  deriving DecidableEq

structure Flight where
  host : String
  kind : RequestKind
  reply : HttpReply

structure System where
  main : MainNode
  workers : String → ComputationNode
  flight : Option Flight
  settled : Option String

namespace System

def init (auth : JsonAuthHandler) (bench : String → BenchResVec) : System where
  main := .init auth
  workers h := ⟨.init, bench h⟩
  flight := none
  settled := none

inductive Event
  | connect (qip : String) (r : ConnectOutcome)
  | disconnect
  /-- The request reaches the worker or not; `error` is the outcome of the worker's attempt. -/
  | connectNode (hostPort name : String) (r : QueueOutcome) (reached : Bool) (error : String)
  | disconnectNode (hostPort : String) (reached : Bool)
  | receive
  | closed (hostPort : String)
  | benched (hostPort : String) (bench : BenchResVec)

def unreachableReply : HttpReply := ⟨.badServerAddress, none⟩

def putWorker (s : System) (hostPort : String) (node : ComputationNode) : System :=
  { s with workers := Function.update s.workers hostPort node, settled := none }

def replied (s : System) (hostPort : String) (kind : RequestKind) :
    ComputationNode × Except Halt Value → Option System
  | (node, .ok v) =>
    match ComputationNode.toReply v with
    | .ok reply => some { s.putWorker hostPort node with flight := some ⟨hostPort, kind, reply⟩ }
    | .error _ => none
  | (_, .error _) => none

variable (E : Env) (realText : Double → String)

def sendConnect (s : System) (hostPort name : String) (r : QueueOutcome) (reached : Bool)
    (error : String) : Option System :=
  match s.main.dispatchConnect hostPort name r with
  | (main, .answered res) =>
    if Halt.alive res then some { s with main, settled := none } else none
  | (main, .sent request) =>
    if reached then
      { s with main }.replied hostPort .connect
        ((s.workers hostPort).connect realText (some request.reread) error)
    else some { s with
      main, flight := some ⟨hostPort, .connect, unreachableReply⟩, settled := none }

def Asks (s : System) (hostPort : String) : Prop :=
  s.main.publisher.isConnected ∧ hostPort ∈ s.main.workers.active

instance (s : System) (hostPort : String) : Decidable (s.Asks hostPort) :=
  inferInstanceAs (Decidable (_ ∧ _))

def sendDisconnect (s : System) (hostPort : String) (reached : Bool) : Option System :=
  if s.Asks hostPort then
    if reached then
      s.replied hostPort .disconnect
        ((s.workers hostPort).disconnect.1, .ok (s.workers hostPort).disconnect.2)
    else some { s with
      flight := some ⟨hostPort, .disconnect, unreachableReply⟩, settled := none }
  else some { s with settled := none }

def finish (m : MainNode) (f : Flight) : MainNode × Except Halt Value :=
  match f.kind with
  | .connect => m.finishConnect E f.host f.reply
  | .disconnect => m.disconnectNode E f.host f.reply

def receive (s : System) (f : Flight) : Option System :=
  if Halt.alive (finish E s.main f).2 then
    some { s with
      main := (finish E s.main f).1
      flight := none
      settled := if f.reply.result = .ok then some f.host else none }
  else none

def step (s : System) (e : Event) : Option System :=
  match s.flight, e with
  | _, .closed h => some (s.putWorker h { s.workers h with consumer := (s.workers h).consumer.closed })
  | _, .benched h bench => some (s.putWorker h { s.workers h with benchRes := bench })
  | none, .connect qip r =>
    (s.main.step E (.connect qip r)).map fun main => { s with main, settled := none }
  | none, .disconnect =>
    (s.main.step E .disconnect).map fun main => { s with main, settled := none }
  | none, .connectNode hostPort name r reached error =>
    s.sendConnect realText hostPort name r reached error
  | none, .disconnectNode hostPort reached => s.sendDisconnect hostPort reached
  | some f, .receive => s.receive E f
  | _, _ => none

def Agrees (s : System) (h : String) : Prop :=
  h ∈ s.main.workers.active ↔ (s.workers h).consumer.isConnected

/-- No consumer is cut off while the acceptance of its connection is on its way, and no worker is
asked to disconnect whose consumer was cut off. -/
def Undisturbed (s : System) : Event → Prop
  | .closed h => ∀ reply, s.flight = some ⟨h, .connect, reply⟩ → ¬ reply.accepted
  | .disconnectNode h reached => s.Asks h → reached → (s.workers h).consumer.isConnected
  | _ => True

def Welcomes (reply : HttpReply) : Prop :=
  ∃ (node : ComputationNode) (i : ComputationNode.ConnectInput) (ms : Members) (status : Nat),
    status < 400 ∧ reply = ⟨.ok, some ⟨status, some (node.connectAnswer i ms).reread⟩⟩

structure Inv (s : System) : Prop where
  registered : s.main.workers.Registered
  idle : ∀ h, h ∉ s.main.workers.active → (s.workers h).consumer.isConnected →
    ∃ reply, s.flight = some ⟨h, .connect, reply⟩ ∧ reply.accepted
  connecting : ∀ h reply, s.flight = some ⟨h, .connect, reply⟩ → h ∈ s.main.workers.inactive ∧
    (reply.accepted → (s.workers h).consumer.isConnected ∧ Welcomes reply)
  disconnecting : ∀ h reply, s.flight = some ⟨h, .disconnect, reply⟩ → s.Asks h ∧
    (reply.result = .ok → reply.accepted) ∧
    (reply.accepted → (s.workers h).consumer.isConnected = false)
  settled : ∀ h, s.settled = some h → s.Agrees h

variable {E realText} {s s' : System}

@[simp] theorem workers_putWorker_self (s : System) (h : String) (node : ComputationNode) :
    (s.putWorker h node).workers h = node := by simp [putWorker]

theorem workers_putWorker_ne {h x : String} (hx : x ≠ h) (node : ComputationNode) :
    (s.putWorker h node).workers x = s.workers x := by simp [putWorker, hx]

theorem inv_init (auth : JsonAuthHandler) (bench : String → BenchResVec) :
    Inv (init auth bench) where
  registered := WorkerManagement.registered_init
  idle h _ hconn := by cases hconn
  connecting h reply hf := by cases hf
  disconnecting h reply hf := by cases hf
  settled h hs := by cases hs

theorem inv_quiet {main : MainNode} {workers : String → ComputationNode} {settled : Option String}
    (hreg : main.workers.Registered)
    (hidle : ∀ h, h ∉ main.workers.active → (workers h).consumer.isConnected = false)
    (hsettled : ∀ h, settled = some h → Agrees ⟨main, workers, none, settled⟩ h) :
    Inv ⟨main, workers, none, settled⟩ where
  registered := hreg
  idle h hnot hconn := by simp [hidle h hnot] at hconn
  connecting h reply h' := by cases h'
  disconnecting h reply h' := by cases h'
  settled := hsettled

theorem Inv.disconnected_of_flight (hs : Inv s) {h : String} (hnot : h ∉ s.main.workers.active)
    (hf : ∀ reply, s.flight = some ⟨h, .connect, reply⟩ → ¬ reply.accepted) :
    (s.workers h).consumer.isConnected = false := by
  by_contra hconn
  obtain ⟨reply, hfl, hacc⟩ := hs.idle h hnot (by simpa using hconn)
  exact hf reply hfl hacc

theorem Inv.disconnected (hs : Inv s) (hf : s.flight = none) (h : String)
    (hnot : h ∉ s.main.workers.active) : (s.workers h).consumer.isConnected = false := by
  apply hs.disconnected_of_flight hnot
  intro reply hfl
  rw [hf] at hfl
  cases hfl

theorem inv_local {main : MainNode} (hs : Inv s) (hf : s.flight = none)
    (hreg : main.workers.Registered) (hact : main.workers.active = s.main.workers.active) :
    Inv { s with main, settled := none } := by
  rw [hf]
  exact inv_quiet hreg (fun h hnot => hs.disconnected hf h (hact ▸ hnot)) (by rintro h ⟨⟩)

theorem inv_benched (hs : Inv s) (h : String) (bench : BenchResVec) :
    Inv (s.putWorker h { s.workers h with benchRes := bench }) := by
  have hsame : ∀ x, ((s.putWorker h { s.workers h with benchRes := bench }).workers x).consumer =
      (s.workers x).consumer := by
    intro x
    by_cases hx : x = h
    · subst hx
      rw [workers_putWorker_self]
    · rw [workers_putWorker_ne hx]
  constructor
  · exact hs.registered
  · intro x hnot hconn
    exact hs.idle x hnot (hsame x ▸ hconn)
  · intro x reply hf
    rw [hsame]
    exact hs.connecting x reply hf
  · intro x reply hf
    rw [hsame]
    exact hs.disconnecting x reply hf
  · rintro x ⟨⟩

theorem inv_closed (hs : Inv s) (h : String) (hok : s.Undisturbed (.closed h)) :
    Inv (s.putWorker h { s.workers h with consumer := (s.workers h).consumer.closed }) := by
  have hself : ∀ x, ((s.putWorker h { s.workers h with
      consumer := (s.workers h).consumer.closed }).workers x).consumer.isConnected =
      (decide (x ≠ h) && (s.workers x).consumer.isConnected) := by
    intro x
    by_cases hx : x = h
    · subst hx
      simp [Consumer.closed]
    · simp [workers_putWorker_ne hx, hx]
  constructor
  · exact hs.registered
  · intro x hnot hconn
    rw [hself] at hconn
    exact hs.idle x hnot (by simp_all)
  · intro x reply hf
    refine ⟨(hs.connecting x reply hf).1, fun hacc => ?_⟩
    obtain ⟨hconn, hwel⟩ := (hs.connecting x reply hf).2 hacc
    have hx : x ≠ h := by
      rintro rfl
      exact hok reply hf hacc
    rw [hself]
    exact ⟨by simp [hx, hconn], hwel⟩
  · intro x reply hf
    obtain ⟨hasks, hok, hdone⟩ := hs.disconnecting x reply hf
    refine ⟨hasks, hok, fun hacc => ?_⟩
    rw [hself]
    simp [hdone hacc]
  · rintro x ⟨⟩

theorem replied_eq_some {hostPort : String} {kind : RequestKind}
    {r : ComputationNode × Except Halt Value} (h : s.replied hostPort kind r = some s') :
    ∃ v reply, r.2 = .ok v ∧ ComputationNode.toReply v = .ok reply ∧
      s' = { s.putWorker hostPort r.1 with flight := some ⟨hostPort, kind, reply⟩ } := by
  obtain ⟨node, res⟩ := r
  cases res with
  | error e => cases h
  | ok v =>
    simp only [replied] at h
    split at h
    · rename_i reply hreply
      exact ⟨v, reply, rfl, hreply, (Option.some.inj h).symm⟩
    · cases h

theorem inv_connecting {main : MainNode} {hostPort : String} {node : ComputationNode}
    {reply : HttpReply} (hs : Inv s) (hf : s.flight = none) (hreg : main.workers.Registered)
    (hact : main.workers.active = s.main.workers.active) (hin : hostPort ∈ main.workers.inactive)
    (hreply : reply.accepted = node.consumer.isConnected)
    (hwel : reply.accepted → Welcomes reply) :
    Inv { { s with main }.putWorker hostPort node with
      flight := some ⟨hostPort, .connect, reply⟩ } := by
  constructor
  · exact hreg
  · intro x hnot hconn
    by_cases hx : x = hostPort
    · subst hx
      exact ⟨reply, rfl, by simpa [hreply, putWorker] using hconn⟩
    · have := hs.disconnected hf x (hact ▸ hnot)
      simp [putWorker, hx, this] at hconn
  · rintro x reply' ⟨⟩
    exact ⟨hin, fun hacc => ⟨by simpa [putWorker, hreply] using hacc, hwel hacc⟩⟩
  · rintro x reply' ⟨⟩
  · rintro x ⟨⟩

theorem inv_disconnecting {hostPort : String} {node : ComputationNode} {reply : HttpReply}
    (hs : Inv s) (hf : s.flight = none) (hasks : s.Asks hostPort)
    (hok : reply.result = .ok → reply.accepted)
    (hconn : reply.accepted → node.consumer.isConnected = false) :
    Inv { s.putWorker hostPort node with flight := some ⟨hostPort, .disconnect, reply⟩ } := by
  constructor
  · exact hs.registered
  · intro x hnot hconn
    have hx : x ≠ hostPort := by
      rintro rfl
      exact hnot hasks.2
    simp [putWorker, hx, hs.disconnected hf x hnot] at hconn
  · rintro x reply ⟨⟩
  · rintro x reply ⟨⟩
    refine ⟨hasks, hok, fun hacc => ?_⟩
    simpa [putWorker] using hconn hacc
  · rintro x ⟨⟩

theorem inv_sendConnect {hostPort name : String} {r : QueueOutcome} {reached : Bool}
    {error : String} (hs : Inv s) (hf : s.flight = none)
    (h : s.sendConnect realText hostPort name r reached error = some s') : Inv s' := by
  unfold sendConnect at h
  rcases s.main.dispatchConnect_cases hostPort name r with ⟨res, hd⟩ | ⟨-, hnot, ⟨res, hd⟩ | hd⟩
  · simp only [hd, Option.ite_none_right_eq_some, Option.some.injEq] at h
    obtain ⟨-, rfl⟩ := h
    exact inv_local hs hf hs.registered rfl
  · have hreg := hs.registered.change
      (WorkerManagement.change_addNewNode (E := ⟨fun _ => "", fun _ => .ok []⟩) _ hostPort)
    simp only [hd, Option.ite_none_right_eq_some, Option.some.injEq] at h
    obtain ⟨-, rfl⟩ := h
    exact inv_local hs hf hreg (MainNode.active_dispatched hnot)
  · have hreg := hs.registered.change
      (WorkerManagement.change_addNewNode (E := ⟨fun _ => "", fun _ => .ok []⟩) _ hostPort)
    have hidle := hs.disconnected hf hostPort hnot
    simp only [hd] at h
    cases reached with
    | false =>
      simp only [Bool.false_eq_true, if_false, Option.some.injEq] at h
      subst h
      have hinv : Inv { { s with main := s.main.dispatched hostPort }.putWorker hostPort
          (s.workers hostPort) with flight := some ⟨hostPort, .connect, unreachableReply⟩ } :=
        inv_connecting hs hf hreg (MainNode.active_dispatched hnot)
          (MainNode.mem_inactive_dispatched hnot) (by rw [hidle]; rfl) (by rintro ⟨⟩)
      simpa [putWorker] using hinv
    | true =>
      simp only [if_true] at h
      obtain ⟨v, reply, hv, hreply, rfl⟩ := replied_eq_some h
      obtain ⟨i, ⟨rfl, hconn⟩ | ⟨text, rfl, hconn⟩⟩ :=
        ComputationNode.connect_cases hidle (Prod.ext rfl hv)
      · obtain rfl := Except.ok.inj ((ComputationNode.toReply_connected i).symm.trans hreply)
        refine inv_connecting hs hf hreg (MainNode.active_dispatched hnot)
          (MainNode.mem_inactive_dispatched hnot) (by rw [hconn]; rfl) fun _ => ?_
        exact ⟨s.workers hostPort, i, _, 200, by decide, rfl⟩
      · obtain rfl := Except.ok.inj ((ComputationNode.toReply_conflict i text).symm.trans hreply)
        exact inv_connecting hs hf hreg (MainNode.active_dispatched hnot)
          (MainNode.mem_inactive_dispatched hnot) (by rw [hconn]; rfl) (by rintro ⟨⟩)

theorem inv_sendDisconnect {hostPort : String} {reached : Bool} (hs : Inv s)
    (hf : s.flight = none) (hok : s.Undisturbed (.disconnectNode hostPort reached))
    (h : s.sendDisconnect hostPort reached = some s') : Inv s' := by
  unfold sendDisconnect at h
  by_cases hasks : s.Asks hostPort
  · rw [if_pos hasks] at h
    cases reached with
    | false =>
      simp only [Bool.false_eq_true, if_false, Option.some.injEq] at h
      subst h
      have hinv : Inv { s.putWorker hostPort (s.workers hostPort) with
          flight := some ⟨hostPort, .disconnect, unreachableReply⟩ } :=
        inv_disconnecting hs hf hasks (by rintro ⟨⟩) (by rintro ⟨⟩)
      simpa [putWorker] using hinv
    | true =>
      have hconn := hok hasks rfl
      simp only [if_true, ComputationNode.disconnect_of_connected hconn] at h
      obtain ⟨v, reply, hv, hreply, rfl⟩ := replied_eq_some h
      cases hv
      cases hreply
      exact inv_disconnecting hs hf hasks (fun _ => rfl) fun _ => by simp [Consumer.disconnect]
  · rw [if_neg hasks] at h
    obtain rfl := Option.some.inj h
    exact inv_local hs hf hs.registered rfl

theorem inv_receive_connect
    (hE : ∀ bench, ∃ vec, E.decodeBench (ComputationNode.encodeBench bench).reread = .ok vec)
    {hostPort : String} {reply : HttpReply} (hs : Inv s)
    (hf : s.flight = some ⟨hostPort, .connect, reply⟩)
    (h : s.receive E ⟨hostPort, .connect, reply⟩ = some s') : Inv s' := by
  obtain ⟨hin, hacc⟩ := hs.connecting hostPort reply hf
  obtain ⟨n, hlook⟩ := Finmap.mem_iff.mp hin
  have hclient := hs.registered.client .inactive _ _ hlook
  have hnot := hs.registered.notMem_active hlook
  simp only [receive, finish, MainNode.finishConnect, Option.ite_none_right_eq_some,
    Option.some.injEq] at h
  obtain ⟨halive, rfl⟩ := h
  have halive := MainNode.alive_relayResult halive
  by_cases haccepted : reply.accepted
  · -- the worker is connected, and the node becomes ACTIVE
    obtain ⟨hconn, node, i, ms, status, hstatus, rfl⟩ := hacc haccepted
    obtain ⟨vec, hvec⟩ := hE node.benchRes
    rw [WorkerManagement.connectNode_of_accepted E hlook hclient hstatus] at halive ⊢
    rcases WorkerManagement.activate_of_decode hlook (node.resolve_bench i ms) hvec with
      ⟨-, f, h⟩ | ⟨-, h⟩
    · rw [h] at halive
      cases halive
    · rw [h]
      refine inv_quiet (hs.registered.enter hclient) (fun x hx => ?_) (fun x hx => ?_)
      · rw [WorkerManagement.active_entered, Finmap.mem_insert, not_or] at hx
        apply hs.disconnected_of_flight hx.2
        intro reply hfl
        rw [hf] at hfl
        cases hfl
        exact absurd rfl hx.1
      · cases hx
        exact ⟨fun _ => hconn, fun _ => by simp⟩
  · -- the worker is not connected, and the node stays INACTIVE
    have hidle : ∀ x, x ∉ s.main.workers.active → (s.workers x).consumer.isConnected = false := by
      intro x hx
      apply hs.disconnected_of_flight hx
      intro reply' hfl
      rw [hf] at hfl
      cases hfl
      exact haccepted
    rcases WorkerManagement.connectNode_cases E hlook hclient reply with
      ⟨f, h⟩ | ⟨h, -⟩ | ⟨hacc', -⟩
    · rw [h] at halive
      cases halive
    · rw [h]
      refine inv_quiet hs.registered hidle fun x hx => ?_
      obtain ⟨-, hx⟩ := Option.ite_none_right_eq_some.mp hx
      cases hx
      exact ⟨fun hmem => absurd hmem hnot, fun hconn => by simp [hidle _ hnot] at hconn⟩
    · exact absurd hacc' haccepted

theorem inv_receive_disconnect {hostPort : String} {reply : HttpReply} (hs : Inv s)
    (hf : s.flight = some ⟨hostPort, .disconnect, reply⟩)
    (h : s.receive E ⟨hostPort, .disconnect, reply⟩ = some s') : Inv s' := by
  obtain ⟨⟨hpub, hact⟩, hok, hdone⟩ := hs.disconnecting hostPort reply hf
  obtain ⟨n, hlook⟩ := Finmap.mem_iff.mp hact
  have hidle : ∀ x, x ∉ s.main.workers.active → (s.workers x).consumer.isConnected = false := by
    intro x hx
    apply hs.disconnected_of_flight hx
    intro reply' hfl
    rw [hf] at hfl
    cases hfl
  simp only [receive, finish, MainNode.disconnectNode, hpub, Bool.not_true, Bool.false_eq_true,
    if_false, Option.ite_none_right_eq_some, Option.some.injEq] at h
  obtain ⟨halive, rfl⟩ := h
  have halive := MainNode.alive_relayResult halive
  rcases WorkerManagement.disconnectNode_cases E hlook
    (hs.registered.client .active _ _ hlook) reply with ⟨f, h⟩ | ⟨h, hacc⟩ | ⟨hacc, h⟩
  · rw [h] at halive
    cases halive
  · -- the request did not reach the worker
    rw [h]
    refine inv_quiet hs.registered hidle fun x hx => ?_
    obtain ⟨hres, -⟩ := Option.ite_none_right_eq_some.mp hx
    exact absurd (hok hres) hacc
  · rw [h]
    refine inv_quiet (hs.registered.leave hlook) (fun x hx => ?_) (fun x hx => ?_)
    · by_cases hx' : x = hostPort
      · subst hx'
        exact hdone hacc
      · rw [WorkerManagement.active_left, Finmap.mem_erase, not_and] at hx
        exact hidle x (hx hx')
    · obtain ⟨-, hx⟩ := Option.ite_none_right_eq_some.mp hx
      cases hx
      refine ⟨fun hmem => ?_, fun hconn => by simp [hdone hacc] at hconn⟩
      exact absurd hmem Finmap.notMem_erase_self

theorem inv_step (hE : ∀ bench, ∃ vec,
      E.decodeBench (ComputationNode.encodeBench bench).reread = .ok vec)
    (s : System) (e : Event) (s' : System) (hs : Inv s)
    (h : Guarded (ofFun (step E realText)) Undisturbed s e s') : Inv s' := by
  obtain ⟨hok, h⟩ := h
  unfold ofFun step at h
  split at h
  · cases h
    exact inv_closed hs _ hok
  · cases h
    exact inv_benched hs _ _
  · obtain ⟨main, hmain, rfl⟩ := Option.map_eq_some_iff.mp h
    obtain ⟨-, -, rfl⟩ := MainNode.step_eq_some hmain
    have hw := s.main.workers_connect ‹_› ‹_›
    exact inv_local hs ‹_› (hw ▸ hs.registered) (congrArg _ hw)
  · obtain ⟨main, hmain, rfl⟩ := Option.map_eq_some_iff.mp h
    obtain ⟨-, -, rfl⟩ := MainNode.step_eq_some hmain
    have hw := s.main.workers_disconnect
    exact inv_local hs ‹_› (hw ▸ hs.registered) (congrArg _ hw)
  · exact inv_sendConnect hs ‹_› h
  · exact inv_sendDisconnect hs ‹_› hok h
  · rename_i f hf
    obtain ⟨hostPort, kind, reply⟩ := f
    cases kind with
    | connect => exact inv_receive_connect hE hs hf h
    | disconnect => exact inv_receive_disconnect hs hf h
  · cases h

/-- In an undisturbed run the two sides agree on a worker whenever a reply of it was handled. -/
theorem agrees_of_run (hE : ∀ bench, ∃ vec,
      E.decodeBench (ComputationNode.encodeBench bench).reread = .ok vec)
    {auth : JsonAuthHandler} {bench : String → BenchResVec} {es : List Event}
    (run : Run (Guarded (ofFun (step E realText)) Undisturbed) (init auth bench) es s) :
    ∀ h, s.settled = some h → s.Agrees h :=
  (run.invariant (inv_step hE) (inv_init auth bench)).settled

def sampleInit : System := init ⟨"sysadmin", "syspassword"⟩ fun _ => defaultBench 5

def connectW : List Event :=
  [.connect "q" ⟨.ok ["testexch"], .ok (), ""⟩,
    .connectNode "w" "w" ⟨.ok [], .ok (), .ok ()⟩ true "", .receive]

theorem agrees_of_run_connectW :
    ∃ s, Run (Guarded (ofFun (step (MainNode.uniformEnv 5) fun _ => "")) Undisturbed) sampleInit
        connectW s ∧
      s.settled = some "w" ∧ "w" ∈ s.main.workers.active ∧ ∀ h, s.settled = some h → s.Agrees h := by
  have run : Run (Guarded (ofFun (step (MainNode.uniformEnv 5) fun _ => "")) Undisturbed)
      sampleInit connectW _ :=
    (run_ofFun_iff.mpr rfl).guarded (by simp [connectW, Undisturbed])
  exact ⟨_, run, rfl, by decide, agrees_of_run (fun _ => ⟨_, rfl⟩) run⟩

theorem not_agrees :
    ∃ s, Run (ofFun (step (MainNode.uniformEnv 5) fun _ => "")) sampleInit
        (connectW ++ [.closed "w", .disconnectNode "w" true, .receive]) s ∧
      s.settled = some "w" ∧ ¬ s.Agrees "w" := by
  refine ⟨_, run_ofFun_iff.mpr rfl, rfl, fun h => ?_⟩
  exact absurd (h.mp (by decide)) (by decide)

end System

end DistributedMathArh
