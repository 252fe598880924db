import DistributedMathArh.MainNode.WorkerManagement
import DistributedMathArh.Network.AmqpService

namespace DistributedMathArh

open Json

/-- `benchRes` is empty until the benchmark job of the worker has ended. -/
structure ComputationNode where
  consumer : Consumer
  benchRes : BenchResVec

namespace ComputationNode

def init : ComputationNode := ⟨.init, []⟩

def encodeBench (bench : BenchResVec) : Value := continuousToJson .uint bench true true

def disconnect (n : ComputationNode) : ComputationNode × Value :=
  if !n.consumer.isConnected then
    (n, .object [("request", .string "disconnect"), ("status", .int 409),
      ("message", .string "This worker node is currently not connected to any cluster")])
  else
    ({ n with consumer := n.consumer.disconnect },
      .object [("request", .string "disconnect"), ("status", .int 200)])

structure ConnectInput where
  ip : String
  name : String
  user : String
  pass : String

def connectInput (realText : Double → String) (val : Value) : Except Exn ConnectInput := do
  let ip ← (← val.member "ip").asString realText
  let name ← (← val.member "name").asString realText
  let user ← (← val.member "user").asString realText
  let pass ← (← val.member "password").asString realText
  return ⟨ip, name, user, pass⟩

def connectAnswer (n : ComputationNode) (i : ConnectInput) (ms : Members) : Value :=
  .object ([("request", .string "connect"), ("input", .string i.ip), ("name", .string i.name),
    ("bench", encodeBench n.benchRes)] ++ ms)

/-- `Connect`; `body` is the parsed request, none if it does not parse, and `error` the outcome of
the connection attempt.  The status 415 is set on the wrong document. -/
def connect (realText : Double → String) (n : ComputationNode) (body : Option Value)
    (error : String) : ComputationNode × Except Halt Value :=
  match body with
  | none => (n, .ok (.object [("request", .string "connect")]))
  | some val =>
    match connectInput realText val with
    | .error e => (n, .error (.exn e))
    | .ok i =>
      if n.consumer.isConnected then
        (n, .ok (n.connectAnswer i [("status", .int 409),
          ("message", .string ("Node is already connected to RabbitMQ " ++
            (n.consumer.cString.map AMQPSQLCStr.getVerboseName).getD "" ++ "!"))]))
      else
        let consumer := n.consumer.setParameters ⟨i.ip, i.user, i.pass, false⟩ i.name
        match consumer.connect error with
        | (consumer, .ok ()) =>
          ({ n with consumer }, .ok (n.connectAnswer i [("status", .int 200)]))
        | (consumer, .error (.exn (.runtimeError what))) =>
          ({ n with consumer }, .ok (n.connectAnswer i [("status", .int 409),
            ("message", .string ("Queue connection error msg :\"" ++ what ++ "\"!"))]))
        | (consumer, .error h) => ({ n with consumer }, .error h)

def toReply (v : Value) : Except Exn HttpReply := do
  let status ← (← v.member "status").asUInt
  return ⟨.ok, some ⟨status.toNat, some v.reread⟩⟩

variable {realText : Double → String} {n : ComputationNode}

theorem resolve_bench (i : ConnectInput) (ms : Members) :
    (n.connectAnswer i ms).reread.resolveReference "bench" =
      .ok ((n.connectAnswer i ms).reread, (encodeBench n.benchRes).reread) := by
  simp [connectAnswer, Value.reread, Value.rereadMembers, Value.resolveReference, Value.member,
    Value.set, Members.set, List.lookup_cons, bind, Except.bind, pure, Except.pure]

theorem connect_answer {val v : Value} {error : String} {n' : ComputationNode}
    (h : n.connect realText (some val) error = (n', .ok v)) :
    ∃ i ms, v = n.connectAnswer i ms := by
  simp only [connect] at h
  cases hi : connectInput realText val with
  | error e =>
    rw [hi] at h
    cases h
  | ok i =>
    rw [hi] at h
    refine ⟨i, ?_⟩
    simp only at h
    split at h
    · cases h
      exact ⟨_, rfl⟩
    · split at h
      · cases h
        exact ⟨_, rfl⟩
      · cases h
        exact ⟨_, rfl⟩
      · cases h

theorem connect_cases {val v : Value} {error : String} {n' : ComputationNode}
    (hidle : n.consumer.isConnected = false)
    (h : n.connect realText (some val) error = (n', .ok v)) :
    ∃ i, (v = n.connectAnswer i [("status", .int 200)] ∧ n'.consumer.isConnected) ∨
      (∃ text, v = n.connectAnswer i [("status", .int 409), ("message", .string text)] ∧
        n'.consumer.isConnected = false) := by
  simp only [connect] at h
  cases hi : connectInput realText val with
  | error e =>
    rw [hi] at h
    cases h
  | ok i =>
    rw [hi] at h
    simp only [hidle, Bool.false_eq_true, if_false] at h
    have hconn := Consumer.isConnected_connect
      (p := n.consumer.setParameters ⟨i.ip, i.user, i.pass, false⟩ i.name) hidle error
    split at h <;> rename_i heq <;> rw [heq] at hconn <;> cases h
    · exact ⟨i, .inl ⟨rfl, hconn⟩⟩
    · exact ⟨i, .inr ⟨_, rfl, hconn⟩⟩

theorem toReply_connected (i : ConnectInput) :
    toReply (n.connectAnswer i [("status", .int 200)]) =
      .ok ⟨.ok, some ⟨200, some (n.connectAnswer i [("status", .int 200)]).reread⟩⟩ := rfl

theorem toReply_conflict (i : ConnectInput) (text : String) :
    toReply (n.connectAnswer i [("status", .int 409), ("message", .string text)]) =
      .ok ⟨.ok, some ⟨409, some (n.connectAnswer i
        [("status", .int 409), ("message", .string text)]).reread⟩⟩ := rfl

theorem toReply_eq_ok {v : Value} {reply : HttpReply} (h : toReply v = .ok reply) :
    ∃ status, reply = ⟨.ok, some ⟨status, some v.reread⟩⟩ := by
  obtain ⟨x, -, h⟩ := bind_eq_ok.mp h
  obtain ⟨status, -, h⟩ := bind_eq_ok.mp h
  exact ⟨status.toNat, (Except.ok.inj h).symm⟩

theorem disconnect_of_connected (h : n.consumer.isConnected) :
    n.disconnect = ({ n with consumer := n.consumer.disconnect },
      .object [("request", .string "disconnect"), ("status", .int 200)]) := by
  simp [disconnect, h]

end ComputationNode

end DistributedMathArh
