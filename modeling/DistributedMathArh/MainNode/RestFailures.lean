import DistributedMathArh.MainNode.Replies
import DistributedMathArh.Network.AmqpRestService

namespace DistributedMathArh

open Json RabbitMQRestService

/-- The handlers of the two requests: both catch `HttpError`, only `Connect` catches `CurlError`. -/
def Exn.caught (curl : Bool) : Exn → Bool
  | .httpError .. => true
  | .curlError _ => curl
  | _ => false

def Fine {α : Type} (curl : Bool) (P : α → Prop) : Except Exn α → Prop
  | .error e => e.caught curl
  | .ok a => P a

def Transfer.Allows (curl : Bool) (next : String → Prop) : Transfer → Prop
  | .noHandle => False
  | .failed _ => curl = true
  | .completed httpCode body => 400 ≤ httpCode ∨ next body

section Fine

variable {α β : Type} {curl : Bool} {P : β → Prop}

theorem fine_bind (x : Except Exn α) (k : α → Except Exn β) :
    Fine curl P (x >>= k) ↔ Fine curl (fun a => Fine curl P (k a)) x := by
  cases x <;> rfl

theorem Transfer.allows_congr {next next' : String → Prop} (h : ∀ body, next body ↔ next' body)
    (t : Transfer) : t.Allows curl next ↔ t.Allows curl next' := by
  cases t with
  | noHandle => rfl
  | failed what => rfl
  | completed httpCode body => exact or_congr_right (h body)

theorem fine_performCurlRequest (next : String → Prop) (t : Transfer) :
    Fine curl next (performCurlRequest t) ↔ t.Allows curl next := by
  cases t with
  | noHandle => exact iff_of_false (fun h => by cases h) id
  | failed what => rfl
  | completed httpCode body =>
    simp only [performCurlRequest]
    by_cases h : 400 ≤ httpCode
    · rw [if_pos h]
      exact iff_of_true rfl (.inl h)
    · rw [if_neg h]
      exact (or_iff_right h).symm

theorem fine_command (P : Unit → Prop) (t : Transfer) :
    Fine curl P (command t) ↔ t.Allows curl fun _ => P () := by
  rw [← fine_performCurlRequest]
  unfold command
  cases performCurlRequest t <;> rfl

theorem fine_of_errorsIn {x : Except Exn β} (h : ErrorsIn (fun e => e.ofHttp = false) x) :
    Fine curl P x ↔ ∃ b, x = .ok b ∧ P b := by
  cases x with
  | ok b => simp [Fine]
  | error e =>
    have he := h e rfl
    refine iff_of_false ?_ (by simp)
    cases e with
    | httpError => cases he
    | curlError => cases he
    | _ => exact fun h => by cases h

theorem fine_call {read : String → Except Exn α}
    (hread : ∀ body, ErrorsIn (fun e => e.ofHttp = false) (read body)) (t : Transfer)
    (k : α → Except Exn β) : Fine curl P (performCurlRequest t >>= read >>= k) ↔
      t.Allows curl fun body => ∃ a, read body = .ok a ∧ Fine curl P (k a) := by
  rw [fine_bind, fine_bind, fine_performCurlRequest]
  apply Transfer.allows_congr
  intro body
  exact fine_of_errorsIn (hread body)

theorem fine_ite {c : Prop} [Decidable c] {b : β} (x : Except Exn β) :
    Fine curl P (if c then .ok b else x) ↔ if c then P b else Fine curl P x := by
  split <;> rfl

end Fine

structure ConnectTransfers where
  exchanges : Transfer
  create : Transfer
  publisher : String

structure NodeTransfers where
  queues : Transfer
  create : Transfer
  bind : Transfer

def ConnectTransfers.outcome (J : JsonText) (r : ConnectTransfers) : ConnectOutcome where
  getExchanges := (getExchanges J r.exchanges).map (·.map Exchange.name)
  createExchange := createExchange r.create
  publisher := r.publisher

def NodeTransfers.outcome (J : JsonText) (r : NodeTransfers) : QueueOutcome where
  listQueues := listQueues J r.queues
  createQueue := createQueue r.create
  bindQueueToExchange := bindQueueToExchange r.bind

namespace MainNode

variable {E : Env} {J : JsonText} {m : MainNode} {hostPort name qip : String}

theorem fine_ensureExchange (p : Publisher) (P : Unit → Prop) (r : ConnectTransfers) :
    Fine true P (ensureExchange p (r.outcome J)) ↔
      r.exchanges.Allows true fun body => ∃ exchanges, exchangesIn J body = .ok exchanges ∧
        if p.defaultExchange ∈ exchanges.map Exchange.name then P ()
        else r.create.Allows true fun _ => P () := by
  have hcalls : ensureExchange p (r.outcome J) =
      performCurlRequest r.exchanges >>= exchangesIn J >>= fun exchanges =>
        if p.defaultExchange ∈ exchanges.map Exchange.name then .ok ()
        else createExchange r.create := by
    simp only [ensureExchange, ConnectTransfers.outcome, getExchanges]
    cases performCurlRequest r.exchanges >>= exchangesIn J <;> rfl
  rw [hcalls, fine_call (errorsIn_exchangesIn J)]
  apply Transfer.allows_congr
  intro body
  apply exists_congr
  intro exchanges
  apply and_congr_right
  intro _
  rw [fine_ite, createExchange, fine_command]

theorem fine_ensureQueue (name : String) (P : Unit → Prop) (r : NodeTransfers) :
    Fine false P (ensureQueue name (r.outcome J)) ↔
      r.queues.Allows false fun body => ∃ queues, queuesIn J body = .ok queues ∧
        if name ∈ queues then P ()
        else r.create.Allows false fun _ => r.bind.Allows false fun _ => P () := by
  have hcalls : ensureQueue name (r.outcome J) =
      performCurlRequest r.queues >>= queuesIn J >>= fun queues =>
        if name ∈ queues then .ok ()
        else createQueue r.create >>= fun _ => bindQueueToExchange r.bind := by
    simp only [ensureQueue, NodeTransfers.outcome, listQueues]
    cases performCurlRequest r.queues >>= queuesIn J <;> rfl
  rw [hcalls, fine_call (errorsIn_queuesIn J)]
  apply Transfer.allows_congr
  intro body
  apply exists_congr
  intro queues
  apply and_congr_right
  intro _
  rw [fine_ite, fine_bind, createQueue, fine_command]
  simp only [bindQueueToExchange, fine_command]

def HasStatus (res : Except Halt Value) : Prop :=
  ∃ v s, res = .ok v ∧ v.member "status" = .ok s ∧ s.isNumeric

theorem not_hasStatus_error {h : Halt} : ¬HasStatus (.error h) := by
  rintro ⟨v, s, hv, -⟩
  cases hv

/-- A request answers a document with a numeric status; when a REST call of it failed, that is an
error status, and nothing has been connected. -/
structure Answers (m : MainNode) (failed : Prop) (out : MainNode × Except Halt Value) : Prop where
  status : HasStatus out.2
  failure : failed → ∃ code, statusOf out.2 = some code ∧ 400 ≤ code
  publisher : failed → out.1.publisher.isConnected → m.publisher.isConnected
  active : failed → ∀ h ∈ out.1.workers.active, h ∈ m.workers.active

def ConnectFails (m : MainNode) (qip : String) (r : ConnectOutcome) : Prop :=
  m.publisher.isConnected = false ∧ ∃ e, ensureExchange (m.configured qip) r = .error e

def NodeFails (m : MainNode) (hostPort name : String) (r : QueueOutcome) : Prop :=
  m.publisher.isConnected ∧ hostPort ∉ m.workers.active ∧ ∃ e, ensureQueue name r = .error e

theorem restFailure_of_caught (request : String) {curl : Bool} {e : Exn} (h : e.caught curl) :
    ∃ ms, restFailure request curl e = .ok (answer request (("status", .int 409) :: ms)) := by
  cases e with
  | httpError code reason => exact ⟨_, rfl⟩
  | curlError what => exact ⟨_, if_pos h⟩
  | _ => cases h

theorem restFailure_of_not_caught {request : String} {curl : Bool} {e : Exn}
    (h : ¬e.caught curl) : restFailure request curl e = .error (.exn e) := by
  cases e with
  | httpError code reason => exact absurd rfl h
  | curlError what => exact if_neg h
  | _ => rfl

theorem answers_conflict (failed : Prop) (request : String) (ms : Members) {m' : MainNode}
    (hpub : m'.publisher.isConnected → m.publisher.isConnected)
    (hact : m'.workers.active = m.workers.active) :
    Answers m failed (m', .ok (answer request (("status", .int 409) :: ms))) where
  status := ⟨_, .int 409, rfl, rfl, rfl⟩
  failure _ := ⟨409, rfl, by decide⟩
  publisher _ := hpub
  active _ := by
    rw [hact]
    exact fun _ h => h

theorem answers_restFailure_iff {failed : Prop} {request : String} {curl : Bool} {e : Exn}
    {m' : MainNode} (hpub : m'.publisher.isConnected → m.publisher.isConnected)
    (hact : m'.workers.active = m.workers.active) :
    Answers m failed (m', restFailure request curl e) ↔ e.caught curl := by
  by_cases h : e.caught curl
  · obtain ⟨ms, hms⟩ := restFailure_of_caught request h
    rw [hms]
    exact iff_of_true (answers_conflict failed request ms hpub hact) h
  · rw [restFailure_of_not_caught h]
    exact iff_of_false (fun h' => not_hasStatus_error h'.status) h

theorem answers_connect_iff (qip : String) (r : ConnectOutcome) :
    Answers m (m.ConnectFails qip r) (m.connect qip r) ↔ m.publisher.isConnected ∨
      Fine true (fun _ => m.publisher.joinable = false) (ensureExchange (m.configured qip) r) := by
  unfold connect
  cases hconn : m.publisher.isConnected with
  | true =>
    rw [if_pos rfl]
    exact iff_of_true (answers_conflict _ _ _ id rfl) (.inl rfl)
  | false =>
    rw [if_neg Bool.false_ne_true, or_iff_right Bool.false_ne_true]
    cases hrest : ensureExchange (m.configured qip) r with
    | error e =>
      simp only [hrest]
      exact answers_restFailure_iff (fun h => h) rfl
    | ok u =>
      have hnot : ¬m.ConnectFails qip r := by
        rintro ⟨-, e, he⟩
        rw [hrest] at he
        cases he
      have hthread : (m.configured qip).joinable = m.publisher.joinable := rfl
      rcases Publisher.connect_cases (p := m.configured qip) rfl hconn r.publisher with
        ⟨hjoin, hp⟩ | ⟨hjoin, -, hp⟩ | ⟨hjoin, -, hp⟩ <;> rw [hthread] at hjoin
      · simp only [hrest, hp, Fine, hjoin]
        exact iff_of_false (fun h => not_hasStatus_error h.status) (by decide)
      · simp only [hrest, hp, Fine, hjoin]
        exact iff_of_true ⟨⟨_, .int 200, rfl, rfl, rfl⟩, fun h => absurd h hnot,
          fun h => absurd h hnot, fun h => absurd h hnot⟩ trivial
      · simp only [hrest, hp, Fine, hjoin]
        exact iff_of_true ⟨⟨_, .int 409, rfl, rfl, rfl⟩, fun h => absurd h hnot,
          fun h => absurd h hnot, fun h => absurd h hnot⟩ trivial

theorem hasStatus_relayResult (request : String) (ms : Members) :
    HasStatus (relayResult request (.ok (.object ms))) ↔
      ∀ s, ms.lookup "status" = some s → s.isNumeric := by
  cases hstatus : ms.lookup "status" with
  | none =>
    have hrelay : relayResult request (.ok (.object ms)) =
        .ok (answer request [("balancer_output", .object ms), ("status", .int 200)]) := by
      simp [relayResult, relay, Value.isMember, hstatus, bind, Except.bind, pure, Except.pure,
        Except.mapError]
    rw [hrelay]
    exact iff_of_true ⟨_, .int 200, rfl, rfl, rfl⟩ (fun s h => by cases h)
  | some status =>
    have hrelay : relayResult request (.ok (.object ms)) = .ok (answer request
        [("balancer_output", .object (ms.filter fun m => m.1 ≠ "status")), ("status", status)]) := by
      simp [relayResult, relay, Value.isMember, Value.member, Value.removeMember, hstatus, bind,
        Except.bind, pure, Except.pure, Except.mapError]
    rw [hrelay]
    constructor
    · rintro ⟨v, s, hv, hs, hnum⟩ s' hs'
      cases hv
      cases hs
      cases hs'
      exact hnum
    · intro h
      exact ⟨_, status, rfl, rfl, h status rfl⟩

end MainNode

namespace WorkerManagement

variable {E : Env} {w : WorkerManagement} {hostPort : String} {n : ComputationalNode}

theorem activate_eq_ok_iff (hlook : w.inactive.lookup hostPort = some n) {body body' val : Value}
    {bench : BenchResVec} (hbody : body.resolveReference "bench" = .ok (body', val))
    (hdec : E.decodeBench val = .ok bench) (v : Value) :
    (w.activate E hostPort body).2 = .ok v ↔ Fits n bench w.normalized ∧ v = body' := by
  rcases activate_of_decode hlook hbody hdec with ⟨hfits, f, h⟩ | ⟨hfits, h⟩
  · rw [h]
    exact iff_of_false (fun h => by cases h) fun h => hfits h.1
  · rw [h, and_iff_right hfits, Except.ok.injEq, eq_comm]

end WorkerManagement

namespace MainNode

variable {E : Env} {J : JsonText} {m : MainNode} {hostPort name qip : String}
  {w : WorkerManagement} {n : ComputationalNode}

/-- The worker's part of `ConnectNode` ends in an answer with a numeric status: the worker is not
reached, or refuses with a JSON body, or accepts with a benchmark that fits and no status of its own
that is no number. -/
def WorkerAnswers (E : Env) (m : MainNode) (hostPort : String) (reply : HttpReply) : Prop :=
  reply.result = .badServerAddress ∨
    ∃ resp body, reply.response = some resp ∧ resp.json = some body ∧
      (400 ≤ resp.statusCode ∨ ∃ ms val bench, body.resolveReference "bench" = .ok (.object ms, val) ∧
        E.decodeBench val = .ok bench ∧
        WorkerManagement.Fits (m.workers.nodeAt .inactive hostPort) bench m.workers.normalized ∧
        ∀ s, ms.lookup "status" = some s → s.isNumeric)

theorem resolveReference_object {key : String} {v v' x : Value}
    (h : v.resolveReference key = .ok (v', x)) : ∃ ms, v' = .object ms := by
  unfold Value.resolveReference at h
  obtain ⟨y, -, h⟩ := bind_eq_ok.mp h
  obtain ⟨z, hset, h⟩ := bind_eq_ok.mp h
  cases h
  cases v with
  | null =>
    cases hset
    exact ⟨_, rfl⟩
  | object ms =>
    cases hset
    exact ⟨_, rfl⟩
  | _ => cases hset

theorem hasStatus_activate (hlook : w.inactive.lookup hostPort = some n) (body : Value) :
    HasStatus (relayResult "connect_node" (w.activate E hostPort body).2) ↔
      ∃ ms val bench, body.resolveReference "bench" = .ok (.object ms, val) ∧
        E.decodeBench val = .ok bench ∧ WorkerManagement.Fits n bench w.normalized ∧
        ∀ s, ms.lookup "status" = some s → s.isNumeric := by
  cases hbody : body.resolveReference "bench" with
  | error e =>
    simp only [WorkerManagement.activate, hbody]
    refine iff_of_false not_hasStatus_error ?_
    rintro ⟨ms, val, bench, h, -⟩
    cases h
  | ok r =>
    obtain ⟨body', val⟩ := r
    obtain ⟨ms, rfl⟩ := resolveReference_object hbody
    cases hdec : E.decodeBench val with
    | error e =>
      simp only [WorkerManagement.activate, hbody, ComputationalNode.recomputeCoefficients, hdec]
      refine iff_of_false not_hasStatus_error ?_
      rintro ⟨ms', val', bench, h, hdec', -⟩
      cases h
      rw [hdec] at hdec'
      cases hdec'
    | ok bench =>
      have hok := WorkerManagement.activate_eq_ok_iff hlook hbody hdec
      constructor
      · intro h
        cases hres : (w.activate E hostPort body).2 with
        | error e =>
          rw [hres] at h
          exact absurd h not_hasStatus_error
        | ok v =>
          obtain ⟨hfits, rfl⟩ := (hok v).mp hres
          rw [hres, hasStatus_relayResult] at h
          exact ⟨ms, val, bench, rfl, hdec, hfits, h⟩
      · rintro ⟨ms', val', bench', h, hdec', hfits, hnum⟩
        cases h
        obtain rfl := Except.ok.inj (hdec.symm.trans hdec')
        rw [(hok _).mpr ⟨hfits, rfl⟩, hasStatus_relayResult]
        exact hnum

theorem hasStatus_exchange (message : String) (reply : HttpReply) :
    HasStatus (relayResult "connect_node"
        (w.exchange E hostPort message (w.activate E hostPort) reply).2) ↔
      reply.result = .badServerAddress ∨
        ∃ resp body, reply.response = some resp ∧ resp.json = some body ∧
          (400 ≤ resp.statusCode ∨
            HasStatus (relayResult "connect_node" (w.activate E hostPort body).2)) := by
  rcases w.exchange_cases E hostPort message (w.activate E hostPort) reply with
    ⟨haddr, h⟩ | ⟨haddr, hnone, h⟩ | ⟨resp, body, haddr, hresp, hjson, ⟨hstatus, h⟩ | ⟨hstatus, h⟩⟩
  · rw [h]
    exact iff_of_true ⟨_, .int 504, rfl, rfl, rfl⟩ (.inl haddr)
  · rw [h, or_iff_right haddr]
    refine iff_of_false not_hasStatus_error ?_
    rintro ⟨resp, body, hresp, hjson, -⟩
    rw [hresp, Option.bind_some, hjson] at hnone
    cases hnone
  · rw [h]
    simp only [WorkerManagement.refused, hjson]
    exact iff_of_true ⟨_, .int (Int64.ofNat resp.statusCode), rfl, rfl, rfl⟩
      (.inr ⟨resp, body, hresp, hjson, .inl hstatus⟩)
  · rw [h, or_iff_right haddr]
    constructor
    · exact fun hres => ⟨resp, body, hresp, hjson, .inr hres⟩
    · rintro ⟨resp', body', hresp', hjson', hor⟩
      obtain rfl := Option.some.inj (hresp.symm.trans hresp')
      obtain rfl := Option.some.inj (hjson.symm.trans hjson')
      exact hor.resolve_left hstatus

theorem fits_congr {n n' : ComputationalNode} (h : n.nodeSpeed = n'.nodeSpeed)
    (bench sum : BenchResVec) :
    WorkerManagement.Fits n bench sum ↔ WorkerManagement.Fits n' bench sum := by
  unfold WorkerManagement.Fits WorkerManagement.rated
  rw [h]

theorem hasStatus_finishConnect (hw : m.workers.Registered) (hnot : hostPort ∉ m.workers.active)
    (reply : HttpReply) :
    HasStatus ((m.dispatched hostPort).finishConnect E hostPort reply).2 ↔
      m.WorkerAnswers E hostPort reply := by
  obtain ⟨n, hlook⟩ := Finmap.mem_iff.mp (mem_inactive_dispatched hnot)
  have hclient := (hw.change (E := E) (WorkerManagement.change_addNewNode m.workers hostPort)).client
  have hspeed := nodeSpeed_dispatched hnot hlook
  have hsum : (m.dispatched hostPort).workers.normalized = m.workers.normalized := by
    unfold dispatched WorkerManagement.addNewNode
    rw [if_neg hnot]
    split <;> rfl
  have hres : ((m.dispatched hostPort).finishConnect E hostPort reply).2 = relayResult "connect_node"
      ((m.dispatched hostPort).workers.connectNode E hostPort reply).2 := rfl
  rw [hres, WorkerManagement.connectNode_eq_exchange hlook (hclient .inactive _ _ hlook),
    hasStatus_exchange]
  unfold WorkerAnswers
  simp only [hasStatus_activate hlook, hsum, fits_congr hspeed]

theorem answers_connectNode_iff (hw : m.workers.Registered) (name : String) (r : QueueOutcome)
    (reply : HttpReply) :
    Answers m (m.NodeFails hostPort name r) (m.connectNode E hostPort name r reply) ↔
      m.publisher.isConnected = false ∨ hostPort ∈ m.workers.active ∨
        Fine false (fun _ => m.WorkerAnswers E hostPort reply) (ensureQueue name r) := by
  cases hconn : m.publisher.isConnected with
  | false =>
    have hres : m.connectNode E hostPort name r reply = (m, .ok (queueUnavailable "connect_node")) := by
      simp [connectNode, dispatchConnect, hconn]
    rw [hres]
    exact iff_of_true (answers_conflict _ _ _ id rfl) (.inl rfl)
  | true =>
    rw [or_iff_right (by decide)]
    by_cases hact : hostPort ∈ m.workers.active
    · refine iff_of_true ?_ (.inl hact)
      have hnew : m.workers.addNewNode hostPort = (m.workers, WorkerManagement.conflict
          s!"Worker node {hostPort} is already connected to cluster!") := by
        simp [WorkerManagement.addNewNode, hact]
      have hres : ∃ out, m.connectNode E hostPort name r reply =
          (m, .ok (answer "connect_node" [("balancer_output", out), ("status", .int 409)])) := by
        simp only [connectNode, dispatchConnect, hconn, hnew]
        exact ⟨_, rfl⟩
      obtain ⟨out, hres⟩ := hres
      rw [hres]
      exact ⟨⟨_, .int 409, rfl, rfl, rfl⟩, fun _ => ⟨409, rfl, by decide⟩, fun _ h => h,
        fun _ _ h => h⟩
    · rw [or_iff_right hact, connectNode_of_idle E hconn hact]
      cases hrest : ensureQueue name r with
      | error e => exact answers_restFailure_iff (fun h => h) (active_dispatched hact)
      | ok u =>
        have hnot : ¬m.NodeFails hostPort name r := by
          rintro ⟨-, -, e, he⟩
          rw [hrest] at he
          cases he
        simp only [Fine, ← hasStatus_finishConnect hw hact reply]
        constructor
        · exact fun h => h.status
        · exact fun h => ⟨h, fun h => absurd h hnot, fun h => absurd h hnot,
            fun h => absurd h hnot⟩

/-- The outcomes that `Connect` takes as it should: its publisher is connected already; or the first
failure among the transfers is one of HTTP or of curl; or none fails, every answer can be read, and
there is no unjoined thread of an earlier connection. -/
def ConnectHolds (m : MainNode) (J : JsonText) (r : ConnectTransfers) : Prop :=
  m.publisher.isConnected ∨
    r.exchanges.Allows true fun body => ∃ exchanges, exchangesIn J body = .ok exchanges ∧
      if "testexch" ∈ exchanges.map Exchange.name then m.publisher.joinable = false
      else r.create.Allows true fun _ => m.publisher.joinable = false

/-- The outcomes that `ConnectNode` takes as it should: no call is made; or the first failure among
the transfers is one of HTTP; or none fails, and so does the worker's part. -/
def NodeHolds (m : MainNode) (E : Env) (J : JsonText) (hostPort name : String) (r : NodeTransfers)
    (reply : HttpReply) : Prop :=
  m.publisher.isConnected = false ∨ hostPort ∈ m.workers.active ∨
    r.queues.Allows false fun body => ∃ queues, queuesIn J body = .ok queues ∧
      if name ∈ queues then m.WorkerAnswers E hostPort reply
      else r.create.Allows false fun _ => r.bind.Allows false fun _ =>
        m.WorkerAnswers E hostPort reply

/-- Exactly which outcomes of the REST calls the two requests answer as they should. -/
theorem answers_iff (E : Env) (J : JsonText) (hw : m.workers.Registered) :
    (∀ qip (r : ConnectTransfers), Answers m (m.ConnectFails qip (r.outcome J))
        (m.connect qip (r.outcome J)) ↔ m.ConnectHolds J r) ∧
      ∀ hostPort name (r : NodeTransfers) (reply : HttpReply),
        Answers m (m.NodeFails hostPort name (r.outcome J))
          (m.connectNode E hostPort name (r.outcome J) reply) ↔
        m.NodeHolds E J hostPort name r reply := by
  constructor
  · intro qip r
    rw [answers_connect_iff, fine_ensureExchange]
    rfl
  · intro hostPort name r reply
    rw [answers_connectNode_iff hw, fine_ensureQueue]
    rfl

def sampleText : JsonText where
  parse s := if s = "[]" then .ok (.array [])
    else if s = "delayed" then .ok (.array [.object [("type", .string "x-delayed-message")]])
    else .error "Syntax error"
  realText _ := ""

def start : MainNode := init ⟨"sysadmin", "syspassword"⟩

def started : MainNode := (start.connect "q" ⟨.ok ["testexch"], .ok (), ""⟩).1

theorem answers_iff_start :
    (∀ qip (r : ConnectTransfers), Answers start (start.ConnectFails qip (r.outcome sampleText))
        (start.connect qip (r.outcome sampleText)) ↔ start.ConnectHolds sampleText r) ∧
      ∀ hostPort name (r : NodeTransfers) (reply : HttpReply),
        Answers start (start.NodeFails hostPort name (r.outcome sampleText))
          (start.connectNode (uniformEnv 5) hostPort name (r.outcome sampleText) reply) ↔
        start.NodeHolds (uniformEnv 5) sampleText hostPort name r reply :=
  answers_iff (uniformEnv 5) sampleText WorkerManagement.registered_init

theorem exists_not_answers :
    start.connect "q" (ConnectTransfers.outcome sampleText ⟨.completed 200 "<html>", .noHandle, ""⟩) =
        ({ start with qHost := "q", publisher := start.configured "q" },
          .error (.exn (.runtimeError "JSON parse error: Syntax error"))) ∧
      (start.connect "q"
        (ConnectTransfers.outcome sampleText ⟨.completed 200 "delayed", .noHandle, ""⟩)).2 =
          .error (.exn (.invalidOption "x-delayed-message")) ∧
      (started.connectNode (uniformEnv 5) "w" "w"
        (NodeTransfers.outcome sampleText ⟨.failed "Timeout was reached", .noHandle, .noHandle⟩)
        (okReply [("bench", .null)])).2 = .error (.exn (.curlError "Timeout was reached")) ∧
      ∃ r, ¬Answers start (start.ConnectFails "q" (ConnectTransfers.outcome sampleText r))
        (start.connect "q" (r.outcome sampleText)) := by
  refine ⟨rfl, rfl, rfl, ⟨.completed 200 "<html>", .noHandle, ""⟩, ?_⟩
  rintro ⟨⟨v, s, hv, -⟩, -⟩
  cases hv

end MainNode

end DistributedMathArh
