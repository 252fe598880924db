import DistributedMathArh.CompNode.Service

namespace DistributedMathArh

open Json

/-- The outcome of `reader.parse`: whether it succeeded, and the document it leaves. -/
structure ParsedBody where
  successful : Bool
  val : Value

namespace ComputationNode

/-- The handler from the body on; what it sets on a document that is no object throws. -/
def connectRequest (realText : Double → String) (n : ComputationNode) (body : ParsedBody)
    (error : String) : ComputationNode × Except Halt Value :=
  if body.successful then n.connect realText (some body.val) error
  else
    match Value.set "status" (.int 415) body.val with
    | .error e => (n, .error (.exn e))
    | .ok _ => n.connect realText none error

def ConnectInput.cString (i : ConnectInput) : AMQPSQLCStr := ⟨i.ip, i.user, i.pass, false⟩

def ConnectedWith (p : Consumer) (i : ConnectInput) : Prop :=
  p.connection = some i.cString ∧ p.cString = some i.cString ∧ p.queue = i.name

/-- The reply has a numeric status, and is 200 exactly for a consumer that is connected as it was
asked for; otherwise the consumer is as before. -/
def Replies (n n' : ComputationNode) (input : Except Exn ConnectInput)
    (res : Except Halt Value) : Prop :=
  ∃ v status, res = .ok v ∧ v.member "status" = .ok (.int status) ∧
    (status = 200 ↔ ∃ i, input = .ok i ∧ ConnectedWith n'.consumer i) ∧
    (status ≠ 200 → n'.consumer.connection = n.consumer.connection ∧
      n'.consumer.cString = n.consumer.cString ∧ n'.consumer.queue = n.consumer.queue)

section Connect

variable {realText : Double → String} {n n' : ComputationNode} {body : ParsedBody}
  {error : String} {res : Except Halt Value}

theorem connect_of_input {val : Value} {i : ConnectInput}
    (hinput : connectInput realText val = .ok i) :
    n.connect realText (some val) error =
      if n.consumer.isConnected then
        (n, .ok (n.connectAnswer i [("status", .int 409),
          ("message", .string ("Node is already connected to RabbitMQ " ++
            (n.consumer.cString.map AMQPSQLCStr.getVerboseName).getD "" ++ "!"))]))
      else
        match (n.consumer.setParameters i.cString i.name).connect error with
        | (consumer, .ok ()) =>
          ({ n with consumer }, .ok (n.connectAnswer i [("status", .int 200)]))
        | (consumer, .error (.exn (.runtimeError what))) =>
          ({ n with consumer }, .ok (n.connectAnswer i [("status", .int 409),
            ("message", .string ("Queue connection error msg :\"" ++ what ++ "\"!"))]))
        | (consumer, .error h) => ({ n with consumer }, .error h) := by
  simp only [connect, hinput]
  rfl

structure Handled (realText : Double → String) (n n' : ComputationNode) (body : ParsedBody)
    (error : String) (res : Except Halt Value) : Prop where
  connected : n.consumer.isConnected = true → n' = n
  unparsed : body.successful = false → n' = n
  unread : body.successful = true → ∀ e, connectInput realText body.val = .error e →
    n' = n ∧ res = .error (.exn e)
  replies : body.successful = true → ∀ i, connectInput realText body.val = .ok i →
    ∃ v status, res = .ok v ∧ v.member "status" = .ok (.int status) ∧
      (status = 200 ∨ status = 409) ∧
      (status = 200 ↔ n.consumer.isConnected = false ∧ error = "") ∧
      (status = 200 → ConnectedWith n'.consumer i) ∧
      (status = 409 → n.consumer.isConnected = false → n'.consumer.connection = none ∧
        n'.consumer.cString = some i.cString ∧ n'.consumer.queue = i.name)

theorem handled_of_reply {i : ConnectInput} (hbody : body.successful = true)
    (hinput : connectInput realText body.val = .ok i)
    (hsame : n.consumer.isConnected = true → n' = n)
    (hreply : ∃ v status, res = .ok v ∧ v.member "status" = .ok (.int status) ∧
      (status = 200 ∨ status = 409) ∧
      (status = 200 ↔ n.consumer.isConnected = false ∧ error = "") ∧
      (status = 200 → ConnectedWith n'.consumer i) ∧
      (status = 409 → n.consumer.isConnected = false → n'.consumer.connection = none ∧
        n'.consumer.cString = some i.cString ∧ n'.consumer.queue = i.name)) :
    Handled realText n n' body error res where
  connected := hsame
  unparsed h := by cases hbody.symm.trans h
  unread _ e he := by cases hinput.symm.trans he
  replies _ j hj := by
    cases hinput.symm.trans hj
    exact hreply

theorem handled_of_input {i : ConnectInput} (hbody : body.successful = true)
    (hinput : connectInput realText body.val = .ok i)
    (h : n.connectRequest realText body error = (n', res))
    (halive : ∀ f, res ≠ .error (.fault f)) : Handled realText n n' body error res := by
  rw [connectRequest, if_pos hbody, connect_of_input hinput] at h
  cases hconn : n.consumer.isConnected with
  | true =>
    rw [hconn, if_pos rfl] at h
    cases h
    refine handled_of_reply hbody hinput (fun _ => rfl) ⟨_, 409, rfl, rfl, .inr rfl, ?_, nofun, ?_⟩
    · simp [hconn]
    · intro _ hidle
      cases hconn.symm.trans hidle
  | false =>
    have hidle : n.consumer.isConnected = true → n' = n := fun h => by cases hconn.symm.trans h
    rw [hconn, if_neg Bool.false_ne_true] at h
    obtain ⟨-, hterm⟩ | ⟨-, herror, hok⟩ | ⟨-, herror, hfail⟩ := Consumer.connect_cases
      (p := n.consumer.setParameters i.cString i.name) rfl hconn error
    · rw [hterm] at h
      cases h
      exact absurd rfl (halive .terminate)
    · rw [hok] at h
      cases h
      exact handled_of_reply hbody hinput hidle ⟨_, 200, rfl, rfl, .inl rfl,
        ⟨fun _ => ⟨hconn, herror⟩, fun _ => rfl⟩, fun _ => ⟨rfl, rfl, rfl⟩, nofun⟩
    · rw [hfail] at h
      cases h
      exact handled_of_reply hbody hinput hidle ⟨_, 409, rfl, rfl, .inr rfl,
        ⟨nofun, fun h => absurd h.2 herror⟩, nofun, fun _ _ => ⟨rfl, rfl, rfl⟩⟩

/-- Every request that the process survives: its consumer stays as it is, or gets the parameters of
the request and the connection that the reply reports. -/
theorem connectRequest_handled (h : n.connectRequest realText body error = (n', res))
    (halive : ∀ f, res ≠ .error (.fault f)) : Handled realText n n' body error res := by
  cases hbody : body.successful with
  | false =>
    have hsame : n' = n := by
      rw [connectRequest, if_neg (by simp [hbody])] at h
      split at h
      · cases h
        rfl
      · cases h
        rfl
    refine ⟨fun _ => hsame, fun _ => hsame, ?_, ?_⟩
    · intro hparsed
      cases hbody.symm.trans hparsed
    · intro hparsed
      cases hbody.symm.trans hparsed
  | true =>
    cases hinput : connectInput realText body.val with
    | ok i => exact handled_of_input hbody hinput h halive
    | error e =>
      rw [connectRequest, if_pos hbody, connect, hinput] at h
      cases h
      refine ⟨fun _ => rfl, fun _ => rfl, ?_, ?_⟩
      · intro _ e' he
        cases hinput.symm.trans he
        exact ⟨rfl, rfl⟩
      · intro _ i hi
        cases hinput.symm.trans hi

section Sample

def sampleBody : Value := .object [("ip", .string "mq:5672"), ("name", .string "w"),
  ("user", .string "u"), ("password", .string "p")]

def sampleInput : ConnectInput := ⟨"mq:5672", "w", "u", "p"⟩

def sampleConnected : ComputationNode :=
  ((init.connectRequest (fun _ => "") ⟨true, sampleBody⟩ "").1)

theorem connectRequest_handled_sample :
    Handled (fun _ => "") init sampleConnected ⟨true, sampleBody⟩ ""
      (init.connectRequest (fun _ => "") ⟨true, sampleBody⟩ "").2 := by
  refine connectRequest_handled rfl ?_
  intro f h
  cases h

theorem not_replies :
    (∃ n' res, init.connectRequest (fun _ => "") ⟨false, .null⟩ "" = (n', res) ∧
      ∀ input, ¬ Replies init n' input res) ∧
    (∃ n' res, init.connectRequest (fun _ => "") ⟨true, sampleBody⟩ "refused" = (n', res) ∧
      n'.consumer.cString = some sampleInput.cString ∧
      ¬ Replies init n' (.ok sampleInput) res) ∧
    ∃ n' res, sampleConnected.connectRequest (fun _ => "") ⟨true, sampleBody⟩ "" = (n', res) ∧
      ConnectedWith n'.consumer sampleInput ∧
      ¬ Replies sampleConnected n' (.ok sampleInput) res := by
  refine ⟨⟨_, _, rfl, ?_⟩, ⟨_, _, rfl, rfl, ?_⟩, ⟨_, _, rfl, ⟨rfl, rfl, rfl⟩, ?_⟩⟩
  · rintro input ⟨v, status, hres, hstatus, -⟩
    cases hres
    cases hstatus
  · rintro ⟨v, status, hres, hstatus, -, hsame⟩
    cases hres
    cases hstatus
    exact nomatch (hsame (by decide)).2.1
  · rintro ⟨v, status, hres, hstatus, hiff, -⟩
    cases hres
    cases hstatus
    exact absurd (hiff.mpr ⟨sampleInput, rfl, rfl, rfl, rfl⟩) (by decide)

end Sample

end Connect

end ComputationNode

end DistributedMathArh
