import DistributedMathArh.Lib.Transition
import DistributedMathArh.Network.AmqpService

/-! `AMQPService` step by step: the caller of `Connect` and `Disconnect`, the thread that runs the
event loop, and the broker, whose events reach the handler on that thread. -/

namespace DistributedMathArh

/-- `boost::asio::io_service`: posted handlers stay queued over `stop` and `reset`. -/
structure IoService (H : Type) where
  posted : List H
  stopped : Bool
  deriving DecidableEq

namespace IoService

variable {H : Type}

def post (h : H) (io : IoService H) : IoService H := { io with posted := io.posted ++ [h] }

def stop (io : IoService H) : IoService H := { io with stopped := true }

def reset (io : IoService H) : IoService H := { io with stopped := false }

/-- `run` returns when it was stopped, or when there is neither work nor a handler. -/
def Returns (io : IoService H) (work : Bool) : Prop := io.stopped ∨ work = false ∧ io.posted = []

instance [DecidableEq H] (io : IoService H) (work : Bool) : Decidable (io.Returns work) :=
  inferInstanceAs (Decidable (_ ∨ _))

end IoService

/-- How far a connection has got: opened, accepted by the broker, with a channel, lost. -/
inductive Phase
  | opening | established | ready | ended
  deriving DecidableEq

structure Connection where
  cString : AMQPSQLCStr
  phase : Phase
  deriving DecidableEq

inductive Thread
  | none | running | finished
  deriving DecidableEq

/-- Where the caller is: outside, in `Connect` waiting for the future, in `Disconnect` waiting for
the thread (with the error of a failed `Connect`), or past `std::terminate`. -/
inductive Caller
  | idle
  | waiting
  | closing (error : Option String)
  | terminated
  deriving DecidableEq

/-- The members of the service.  A close handler is represented by the number of connections that
had been made when it was posted. -/
structure EventLoop where
  cString : Option AMQPSQLCStr
  caller : Caller
  connected : Bool
  work : Bool
  io : IoService Nat
  thread : Thread
  connection : Option Connection
  made : Nat
  promise : Option String
  deriving DecidableEq

inductive Action
  | setParameters (c : AMQPSQLCStr)
  /-- `Connect`, up to the future. -/
  | connect
  /-- `Connect`, from the future on. -/
  | connectReturns
  /-- `Disconnect`, up to the thread. -/
  | disconnect
  /-- `Disconnect`, from the thread on. -/
  | joined
  | runHandler
  | onConnected
  | onClosed
  | onError
  | onReady
  | onChannelError (message : String)
  | loopReturns
  deriving DecidableEq

namespace EventLoop

def init : EventLoop := ⟨none, .idle, false, false, ⟨[], false⟩, .none, none, 0, none⟩

def phase (s : EventLoop) : Option Phase := s.connection.map Connection.phase

def makeConnection (s : EventLoop) (c : AMQPSQLCStr) : EventLoop :=
  { s with connection := some ⟨c, .opening⟩, made := s.made + 1 }

/-- `Reconnect`, which keeps a connection that is ready; the flag tells whether it returned. -/
def reconnect (s : EventLoop) : EventLoop × Bool :=
  if s.connected ∨ s.phase = some .ready then (s, true)
  else match s.cString with
    | none => (s, false)
    | some c => (s.makeConnection c, true)

def prepare (s : EventLoop) : EventLoop :=
  { s with io := s.io.reset, work := true, promise := none }

def startThread (s : EventLoop) : EventLoop :=
  if s.thread = .none then { s with thread := .running, caller := .waiting }
  else { s with caller := .terminated }

def connect (s : EventLoop) : EventLoop :=
  if s.connected then s
  else
    match s.prepare.reconnect with
    | (s, false) => s
    | (s, true) => s.startThread

def postClose (s : EventLoop) (error : Option String) : EventLoop :=
  { s with io := s.io.post s.made, caller := .closing error }

def connectReturns (s : EventLoop) (error : String) : EventLoop :=
  if error = "" then { s with caller := .idle } else s.postClose (some error)

def release (s : EventLoop) : EventLoop :=
  { s with
    thread := .none, io := s.io.stop, work := false, connection := none, caller := .idle }

def lose (s : EventLoop) : EventLoop :=
  { s with
    work := false, connected := false
    connection := s.connection.map fun c => { c with phase := .ended } }

def advance (s : EventLoop) (phase : Phase) : EventLoop :=
  { s with connection := s.connection.map fun c => { c with phase } }

/-- `connection_promise_.set_value`, which only the first caller gets to. -/
def setPromise (s : EventLoop) (message : String) : EventLoop :=
  { s with promise := s.promise.or (some message) }

def Runs (s : EventLoop) : Prop :=
  s.caller ≠ .terminated ∧ s.thread = .running ∧ s.io.stopped = false

instance (s : EventLoop) : Decidable s.Runs := inferInstanceAs (Decidable (_ ∧ _))

/-- One action; a connection goes through its phases in order, it can be lost in each of them, and
errors come with a text. -/
def step (s : EventLoop) : Action → Option EventLoop
  | .setParameters c => if s.caller = .idle then some { s with cString := some c } else none
  | .connect => if s.caller = .idle then some s.connect else none
  | .connectReturns =>
    if s.caller = .waiting then s.promise.map s.connectReturns else none
  | .disconnect => if s.caller = .idle then some (s.postClose none) else none
  | .joined =>
    match s.caller with
    | .closing _ => if s.thread = .running then none else some s.release
    | _ => none
  | .runHandler =>
    match s.io.posted with
    | _ :: rest => if s.Runs then some { s with io := { s.io with posted := rest } } else none
    | [] => none
  | .onConnected =>
    if s.Runs ∧ s.phase = some .opening then
      some { s.advance .established with connected := true }
    else none
  | .onClosed =>
    if s.Runs ∧ (s.phase = some .established ∨ s.phase = some .ready) then some s.lose else none
  | .onError => if s.Runs ∧ s.phase ≠ none ∧ s.phase ≠ some .ended then some s.lose else none
  | .onReady =>
    if s.Runs ∧ s.phase = some .established then some ((s.advance .ready).setPromise "") else none
  | .onChannelError message =>
    if s.Runs ∧ s.phase ≠ none ∧ message ≠ "" then some (s.setPromise message) else none
  | .loopReturns =>
    if s.caller ≠ .terminated ∧ s.thread = .running ∧ s.io.Returns s.work then
      some { s with thread := .finished, io := s.io.stop }
    else none

end EventLoop

end DistributedMathArh
