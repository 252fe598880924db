import DistributedMathArh.MainNode.Survival

namespace DistributedMathArh

open Json FinmapSum Transition

structure HttpResponse where
  status : UInt32
  body : Value

namespace ClusterConfigController

/-- The requests, with the answers of the broker and of the workers.  A body is what `getJsonObject`
points to: without JSON the pointer is null. -/
inductive Request
  | getStatus (maps : List (NodeStatus × List ActiveNode))
  | connectNodeHandler (hostPort : String) (r : QueueOutcome) (reply : HttpReply)
  | disconnectNodeHandler (hostPort : String) (reply : HttpReply)
  | sentToExecution (json : Option Value) (order : List ActiveNode)
  | connectQ (json : Option Value) (r : ConnectOutcome)
  | disconnectQ

inductive Event
  | request (q : Request)
  | publisherClosed

def jsonResponse (json : Value) : Except Exn HttpResponse := do
  let status ← (← json.member "status").asUInt
  return ⟨status, json⟩

def respond (json : Value) : Except Halt HttpResponse := (jsonResponse json).mapError .exn

variable (E : Env) (realText : Double → String)

def queueHost (json : Value) : Except Exn String := do
  let qname ← (← json.member "queue_host").asString realText
  let _ ← json.member "queues"
  return qname

def handle (m : MainNode) : Request → MainNode × Except Halt HttpResponse
  | .getStatus maps => (m, respond (m.status maps))
  | .connectNodeHandler hostPort r reply =>
    let (m, res) := m.connectNode E hostPort hostPort r reply
    (m, res >>= respond)
  | .disconnectNodeHandler hostPort reply =>
    let (m, res) := m.disconnectNode E hostPort reply
    (m, res >>= respond)
  | .sentToExecution none _ => (m, .error (.fault .nullPointer))
  | .sentToExecution (some json) order =>
    match TestSolveParam.ofJson json with
    | .error e => (m, .error (.exn e))
    | .ok ts => (m, (m.sendToExecution ts order).2 >>= respond)
  | .connectQ none _ => (m, .error (.fault .nullPointer))
  | .connectQ (some json) r =>
    match queueHost realText json with
    | .error e => (m, .error (.exn e))
    | .ok qname =>
      let (m, res) := m.connect qname r
      (m, res >>= respond)
  | .disconnectQ =>
    let (m, res) := m.disconnect
    (m, respond res)

def Offers (m : MainNode) : Event → Prop
  | .request (.sentToExecution _ order) =>
    (order : Multiset ActiveNode) = m.workers.active.entries
  | _ => True

instance (m : MainNode) (e : Event) : Decidable (Offers m e) := by
  unfold Offers
  split <;> infer_instance

/-- One event.  There is no next state when the process aborts, terminates or runs into undefined
behaviour, of which nothing is said.  An exception that escapes a handler becomes an error
response. -/
def step (m : MainNode) (e : Event) : Option MainNode :=
  match e with
  | .request q => if Offers m (.request q) ∧ Halt.alive (handle E realText m q).2 then
      some (handle E realText m q).1 else none
  | .publisherClosed =>
    some { m with publisher := { m.publisher with toAMQPService := m.publisher.closed } }

def event : Event → Option MainNode.Event
  | .request (.getStatus _) => none
  | .request (.connectNodeHandler hostPort r reply) => some (.connectNode hostPort hostPort r reply)
  | .request (.disconnectNodeHandler hostPort reply) => some (.disconnectNode hostPort reply)
  | .request (.sentToExecution json order) => json.bind fun json =>
    (TestSolveParam.ofJson json).toOption.map fun ts => .sendToExecution ts order
  | .request (.connectQ json r) => json.bind fun json =>
    (queueHost realText json).toOption.map fun qname => .connect qname r
  | .request .disconnectQ => some .disconnect
  | .publisherClosed => some .publisherClosed

def Request.Null : Request → Prop
  | .sentToExecution json _ | .connectQ json _ => json = none
  | _ => False

/-- The events that abort or terminate the process, or are undefined behaviour. -/
def Fatal (m : MainNode) : Event → Prop
  | .request q => q.Null ∨ ∃ b, event realText (.request q) = some b ∧ m.Fatal E b
  | .publisherClosed => False

theorem alive_respond (json : Value) : Halt.alive (respond json) = true := by
  unfold respond
  cases jsonResponse json <;> rfl

theorem alive_bind_respond (res : Except Halt Value) :
    Halt.alive (res >>= respond) = Halt.alive res := by
  cases res with
  | ok json => exact alive_respond json
  | error h => cases h <;> rfl

variable {E realText} {m m' : MainNode} {e : Event} {q : Request} {b : MainNode.Event}

theorem handle_of_event (m : MainNode) (h : event realText (.request q) = some b) :
    ¬q.Null ∧ (Offers m (.request q) → m.Offers b) ∧
      (handle E realText m q).1 = (m.serve E b).1 ∧
      Halt.alive (handle E realText m q).2 = Halt.alive (m.serve E b).2.2 := by
  cases q with
  | getStatus maps => cases h
  | connectNodeHandler hostPort r reply =>
    cases h
    exact ⟨id, id, rfl, alive_bind_respond _⟩
  | disconnectNodeHandler hostPort reply =>
    cases h
    exact ⟨id, id, rfl, alive_bind_respond _⟩
  | disconnectQ =>
    cases h
    exact ⟨id, id, rfl, alive_respond _⟩
  | sentToExecution json order =>
    obtain ⟨json, rfl, hb⟩ := Option.bind_eq_some_iff.mp h
    cases hts : TestSolveParam.ofJson json with
    | error e =>
      rw [hts] at hb
      cases hb
    | ok ts =>
      rw [hts] at hb
      cases hb
      simp only [handle, hts]
      exact ⟨nofun, id, rfl, alive_bind_respond _⟩
  | connectQ json r =>
    obtain ⟨json, rfl, hb⟩ := Option.bind_eq_some_iff.mp h
    cases hq : queueHost realText json with
    | error e =>
      rw [hq] at hb
      cases hb
    | ok qname =>
      rw [hq] at hb
      cases hb
      simp only [handle, hq]
      exact ⟨nofun, id, rfl, alive_bind_respond _⟩

theorem handle_of_silent (m : MainNode) (h : event realText (.request q) = none) :
    (handle E realText m q).1 = m ∧ (Halt.alive (handle E realText m q).2 ↔ ¬q.Null) := by
  cases q with
  | getStatus maps => exact ⟨rfl, iff_of_true (alive_respond _) id⟩
  | connectNodeHandler hostPort r reply => cases h
  | disconnectNodeHandler hostPort reply => cases h
  | disconnectQ => cases h
  | sentToExecution json order =>
    cases json with
    | none => exact ⟨rfl, iff_of_false (fun h => by cases h) fun h => h rfl⟩
    | some json =>
      cases hts : TestSolveParam.ofJson json with
      | error e =>
        simp only [handle, hts]
        exact ⟨trivial, iff_of_true rfl nofun⟩
      | ok ts =>
        rw [event, Option.bind_some, hts] at h
        cases h
  | connectQ json r =>
    cases json with
    | none => exact ⟨rfl, iff_of_false (fun h => by cases h) fun h => h rfl⟩
    | some json =>
      cases hq : queueHost realText json with
      | error e =>
        simp only [handle, hq]
        exact ⟨trivial, iff_of_true rfl nofun⟩
      | ok qname =>
        rw [event, Option.bind_some, hq] at h
        cases h

theorem step_event (h : step E realText m e = some m') :
    (event realText e).elim (m' = m) fun b => MainNode.step E m b = some m' := by
  cases e with
  | publisherClosed => exact h
  | request q =>
    obtain ⟨⟨hoffers, halive⟩, hm⟩ := Option.ite_none_right_eq_some.mp h
    obtain rfl := Option.some.inj hm
    cases hb : event realText (.request q) with
    | none => exact (handle_of_silent m hb).1
    | some b =>
      obtain ⟨-, hoffers', hstate, halive'⟩ := handle_of_event (E := E) m hb
      rw [Option.elim_some, MainNode.step, if_pos ⟨hoffers' hoffers, halive' ▸ halive⟩, hstate]

theorem run_event {auth : JsonAuthHandler} {es : List Event}
    (run : Run (ofFun (step E realText)) (.init auth) es m) :
    Run (ofFun (MainNode.step E)) (.init auth) (es.filterMap (event realText)) m :=
  run.simulate id (event realText) fun _ _ _ h => step_event h

/-- Exactly which events are not answered in defined behaviour, in any state that can be reached. -/
theorem survives_iff {auth : JsonAuthHandler} {es : List Event}
    (run : Run (ofFun (step E realText)) (.init auth) es m) (hoffers : Offers m e) :
    (step E realText m e).isSome ↔ ¬Fatal E realText m e := by
  have hm := MainNode.measured_of_run (run_event run)
  cases e with
  | publisherClosed => exact iff_of_true rfl id
  | request q =>
    have hstep : (step E realText m (.request q)).isSome ↔
        Halt.alive (handle E realText m q).2 := by
      simp only [step, hoffers, true_and]
      split <;> simp_all
    rw [hstep]
    cases hb : event realText (.request q) with
    | none => simp [(handle_of_silent m hb).2, Fatal, hb]
    | some b =>
      obtain ⟨hnull, hoffers', -, halive⟩ := handle_of_event (E := E) m hb
      have hsurvives := MainNode.survives_serve (E := E) hm (hoffers' hoffers)
      rw [halive, hsurvives.alive_iff]
      simp [Fatal, hb, hnull]

def connectToQ : Request :=
  .connectQ (some (.object [("queue_host", .string "q")])) ⟨.ok ["testexch"], .ok (), ""⟩

theorem survives_iff_reconnect :
    ∃ m, Run (ofFun (step (MainNode.uniformEnv 5) fun _ => "")) (.init ⟨"sysadmin", "syspassword"⟩)
        [.request connectToQ, .publisherClosed] m ∧
      ((step (MainNode.uniformEnv 5) (fun _ => "") m (.request connectToQ)).isSome ↔
        ¬Fatal (MainNode.uniformEnv 5) (fun _ => "") m (.request connectToQ)) ∧
      step (MainNode.uniformEnv 5) (fun _ => "") m (.request connectToQ) = none := by
  have run := run_ofFun_iff.mpr (rfl : exec (step (MainNode.uniformEnv 5) fun _ => "")
    (.init ⟨"sysadmin", "syspassword"⟩) [.request connectToQ, .publisherClosed] = some _)
  exact ⟨_, run, survives_iff run trivial, rfl⟩

end ClusterConfigController

end DistributedMathArh
