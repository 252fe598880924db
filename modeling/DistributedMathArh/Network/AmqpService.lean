import Mathlib.Data.Option.Basic
import DistributedMathArh.Common.Outcome

namespace DistributedMathArh

structure AMQPSQLCStr where
  hostPort : String
  user : String
  password : String
  secure : Bool
  deriving DecidableEq

namespace AMQPSQLCStr

def formatted (c : AMQPSQLCStr) : String :=
  "amqp" ++ (if c.secure then "s" else "") ++ "://" ++ c.user ++ ":" ++ c.password ++ "@" ++
    c.hostPort ++ "/"

def getVerboseName (c : AMQPSQLCStr) : String :=
  c.hostPort ++ " secure:" ++ if c.secure then "1" else "0"

end AMQPSQLCStr

/-- `cString` is none as long as the connection string was never set.  An open connection keeps
the string it was made with; `joinable` tells about `service_thread_`. -/
structure AMQPService where
  cString : Option AMQPSQLCStr
  connection : Option AMQPSQLCStr
  joinable : Bool

namespace AMQPService

def init : AMQPService := ⟨none, none, false⟩

def isConnected (s : AMQPService) : Bool := s.connection.isSome

def disconnect (s : AMQPService) : AMQPService := { s with connection := none, joinable := false }

/-- `onClosed` and `onError`: the loop ends, but nobody joins the thread. -/
def closed (s : AMQPService) : AMQPService := { s with connection := none }

/-- `Connect`; `error` is the text that arrives through the promise, empty for success. -/
def connect (name : String) (s : AMQPService) (error : String) : AMQPService × Except Halt Unit :=
  match s.cString with
  | none =>
    (s, .error (.exn (if s.isConnected then .alreadyConnected name "" else .zeroSize "c_string_")))
  | some c =>
    if s.isConnected then (s, .error (.exn (.alreadyConnected name c.formatted)))
    else if s.joinable then (s, .error (.fault .terminate))
    else if error = "" then ({ s with connection := some c, joinable := true }, .ok ())
    else (s.disconnect, .error (.exn (.runtimeError error)))

@[simp] theorem isConnected_closed (s : AMQPService) : s.closed.isConnected = false := rfl

@[simp] theorem isConnected_disconnect (s : AMQPService) : s.disconnect.isConnected = false := rfl

theorem connect_cases {s : AMQPService} {c : AMQPSQLCStr} (hc : s.cString = some c)
    (hidle : s.isConnected = false) (name error : String) :
    (s.joinable = true ∧ s.connect name error = (s, .error (.fault .terminate))) ∨
    (s.joinable = false ∧ error = "" ∧
      s.connect name error = ({ s with connection := some c, joinable := true }, .ok ())) ∨
    (s.joinable = false ∧ error ≠ "" ∧
      s.connect name error = (s.disconnect, .error (.exn (.runtimeError error)))) := by
  simp only [connect, hc, hidle, Bool.false_eq_true, if_false]
  cases s.joinable with
  | true => exact .inl ⟨rfl, rfl⟩
  | false =>
    by_cases herror : error = ""
    · exact .inr (.inl ⟨rfl, herror, if_pos herror⟩)
    · exact .inr (.inr ⟨rfl, herror, if_neg herror⟩)

theorem connection_connect {name : String} {s : AMQPService} {error : String} {c : AMQPSQLCStr}
    (hs : s.isConnected = false) (h : (s.connect name error).1.connection = some c) :
    s.cString = some c := by
  have hnone : s.connection = none := by simpa [isConnected] using hs
  unfold connect at h
  repeat' split at h
  all_goals simp_all [disconnect]

theorem isConnected_connect {name : String} {s : AMQPService} {error : String}
    (hs : s.isConnected = false) :
    (s.connect name error).1.isConnected = (s.connect name error).2.toBool := by
  have hnone : s.connection = none := by simpa [isConnected] using hs
  unfold connect
  repeat' split
  all_goals simp_all [disconnect, isConnected, Except.toBool]

theorem joinable_connect {name : String} {s : AMQPService} {error : String}
    (hs : s.isConnected = false) (h : (s.connect name error).1.isConnected) :
    (s.connect name error).1.joinable := by
  have hnone : s.connection = none := by simpa [isConnected] using hs
  unfold connect at h ⊢
  repeat' split
  all_goals simp_all [isConnected, disconnect]

structure Stranded (s : AMQPService) : Prop where
  idle : s.isConnected = false
  joinable : s.joinable

theorem stranded_closed {s : AMQPService} (h : s.joinable) : s.closed.Stranded := ⟨rfl, h⟩

theorem Stranded.not_alive_connect {s : AMQPService} (h : s.Stranded) (name : String)
    (c : AMQPSQLCStr) (error : String) :
    Halt.alive ({ s with cString := some c }.connect name error).2 = false := by
  have hnone : s.connection = none := by simpa [isConnected] using h.idle
  simp [connect, isConnected, hnone, h.joinable, Halt.alive]

end AMQPService

structure Publisher extends AMQPService where
  defaultExchange : String

namespace Publisher

def init : Publisher := { AMQPService.init with defaultExchange := "" }

def setParameters (p : Publisher) (c : AMQPSQLCStr) (exchange : String) : Publisher :=
  { p with cString := some c, defaultExchange := exchange }

def connect (p : Publisher) (error : String) : Publisher × Except Halt Unit :=
  let (s, res) := p.toAMQPService.connect "AMQPPublisherService" error
  ({ p with toAMQPService := s }, res)

def disconnect (p : Publisher) : Publisher := { p with toAMQPService := p.toAMQPService.disconnect }

theorem connect_cases {p : Publisher} {c : AMQPSQLCStr} (hc : p.cString = some c)
    (hidle : p.isConnected = false) (error : String) :
    (p.joinable = true ∧ p.connect error = (p, .error (.fault .terminate))) ∨
    (p.joinable = false ∧ error = "" ∧
      p.connect error = ({ p with connection := some c, joinable := true }, .ok ())) ∨
    (p.joinable = false ∧ error ≠ "" ∧
      p.connect error = (p.disconnect, .error (.exn (.runtimeError error)))) := by
  rcases AMQPService.connect_cases hc hidle "AMQPPublisherService" error with
    ⟨hjoin, h⟩ | ⟨hjoin, herror, h⟩ | ⟨hjoin, herror, h⟩
  · exact .inl ⟨hjoin, by rw [connect, h]⟩
  · exact .inr (.inl ⟨hjoin, herror, by rw [connect, h]⟩)
  · exact .inr (.inr ⟨hjoin, herror, by rw [connect, h]; rfl⟩)

end Publisher

structure Consumer extends AMQPService where
  queue : String

namespace Consumer

def init : Consumer := { AMQPService.init with queue := "" }

def setParameters (p : Consumer) (c : AMQPSQLCStr) (queueName : String) : Consumer :=
  { p with cString := some c, queue := queueName }

def connect (p : Consumer) (error : String) : Consumer × Except Halt Unit :=
  let (s, res) := p.toAMQPService.connect "AMQPConsumerService" error
  ({ p with toAMQPService := s }, res)

def disconnect (p : Consumer) : Consumer := { p with toAMQPService := p.toAMQPService.disconnect }

def closed (p : Consumer) : Consumer := { p with toAMQPService := p.toAMQPService.closed }

theorem connect_cases {p : Consumer} {c : AMQPSQLCStr} (hc : p.cString = some c)
    (hidle : p.isConnected = false) (error : String) :
    (p.joinable = true ∧ p.connect error = (p, .error (.fault .terminate))) ∨
    (p.joinable = false ∧ error = "" ∧
      p.connect error = ({ p with connection := some c, joinable := true }, .ok ())) ∨
    (p.joinable = false ∧ error ≠ "" ∧
      p.connect error = (p.disconnect, .error (.exn (.runtimeError error)))) := by
  rcases AMQPService.connect_cases hc hidle "AMQPConsumerService" error with
    ⟨hjoin, h⟩ | ⟨hjoin, herror, h⟩ | ⟨hjoin, herror, h⟩
  · exact .inl ⟨hjoin, by rw [connect, h]⟩
  · exact .inr (.inl ⟨hjoin, herror, by rw [connect, h]⟩)
  · exact .inr (.inr ⟨hjoin, herror, by rw [connect, h]; rfl⟩)

theorem isConnected_connect {p : Consumer} (h : p.isConnected = false) (error : String) :
    (p.connect error).1.isConnected = (p.connect error).2.toBool :=
  AMQPService.isConnected_connect h

theorem joinable_connect {p : Consumer} {error : String} (h : p.isConnected = false)
    (hconn : (p.connect error).1.isConnected) : (p.connect error).1.joinable :=
  AMQPService.joinable_connect h hconn

end Consumer

end DistributedMathArh
