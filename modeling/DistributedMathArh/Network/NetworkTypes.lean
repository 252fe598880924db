import DistributedMathArh.Network.AmqpRestService

namespace DistributedMathArh

open Json

def exchangeTypeToStr (type : ExchangeType) : String :=
  ((kExchangeTypeMappings.find? fun m => m.2 = type).map Prod.fst).getD ""

def Exchange.toJson (e : Exchange) : Value :=
  .object [("name", .string e.name), ("user_who_performed_action", .string e.creator),
    ("type", .string (exchangeTypeToStr e.type)), ("auto_delete", .bool e.autoDelete),
    ("durable", .bool e.durable), ("internal", .bool e.internal)]

namespace NetworkTypes

def castUInt (n : UInt64) : Value := .uint n.toUInt32.toUInt64

structure Queue where
  name : String
  creator : String
  autoDelete : Bool
  durable : Bool

def Queue.toJson (q : Queue) : Value :=
  .object [("name", .string q.name), ("user_who_performed_action", .string q.creator),
    ("auto_delete", .bool q.autoDelete), ("durable", .bool q.durable)]

structure Connection where
  channels : UInt64
  host : String
  name : String
  peerHost : String
  port : UInt64
  peerPort : UInt64
  connectedAt : UInt64
  user : String

def Connection.toJson (c : Connection) : Value :=
  .object [("channels", castUInt c.channels), ("host", .string c.host), ("name", .string c.name),
    ("peer_host", .string c.peerHost), ("port", castUInt c.port),
    ("peer_port", castUInt c.peerPort), ("connected_at", .uint c.connectedAt),
    ("user", .string c.user)]

structure Channel where
  name : String
  channelNumber : UInt64
  connectionName : String
  user : String
  vhost : String
  state : String
  consumerCount : UInt64

def Channel.toJson (c : Channel) : Value :=
  .object [("name", .string c.name), ("number", castUInt c.channelNumber),
    ("connection_name", .string c.connectionName), ("user", .string c.user),
    ("vhost", .string c.vhost), ("state", .string c.state),
    ("consumer_count", .uint c.consumerCount)]

structure Message where
  routingKey : String
  payload : String
  payloadEncoding : String

def Message.toJson (m : Message) : Value :=
  .object [("properties", .object []), ("routing_key", .string m.routingKey),
    ("payload", .string m.payload), ("payload_encoding", .string m.payloadEncoding)]

structure GlobalParam where
  name : String
  value : Value

def GlobalParam.toJson (p : GlobalParam) : Value :=
  .object [("name", .string p.name), ("value", p.value)]

section Read

variable (realText : Double → String)

def Queue.ofJson (val : Value) : Except Exn Queue := do
  let name ← (← val.member "name").asString realText
  let creator ← (← val.member "user_who_performed_action").asString realText
  let autoDelete ← (← val.member "auto_delete").asBool
  let durable ← (← val.member "durable").asBool
  return { name, creator, autoDelete, durable }

def Connection.ofJson (val : Value) : Except Exn Connection := do
  let channels ← (← val.member "channels").asUInt
  let host ← (← val.member "host").asString realText
  let name ← (← val.member "name").asString realText
  let peerHost ← (← val.member "peer_host").asString realText
  let port ← (← val.member "port").asUInt
  let peerPort ← (← val.member "peer_port").asUInt
  let connectedAt ← (← val.member "connected_at").asUInt64
  let user ← (← val.member "user").asString realText
  return {
    channels := channels.toUInt64, host, name, peerHost, port := port.toUInt64,
    peerPort := peerPort.toUInt64, connectedAt, user }

/-- The name of the connection is looked for in a member of its own. -/
def Channel.ofJson (val : Value) : Except Exn Channel := do
  let name ← (← val.member "name").asString realText
  let channelNumber ← (← val.member "number").asUInt
  let connectionName ← (← (← val.member "connection_details").member "name").asString realText
  let user ← (← val.member "user").asString realText
  let vhost ← (← val.member "vhost").asString realText
  let state ← (← val.member "state").asString realText
  let consumerCount ← (← val.member "consumer_count").asUInt
  return {
    name, channelNumber := channelNumber.toUInt64, connectionName, user, vhost, state,
    consumerCount := consumerCount.toUInt64 }

def Message.ofJson (val : Value) : Except Exn Message := do
  let routingKey ← (← val.member "routing_key").asString realText
  let payload ← (← val.member "payload").asString realText
  let payloadEncoding ← (← val.member "payload_encoding").asString realText
  return { routingKey, payload, payloadEncoding }

def GlobalParam.ofJson (val : Value) : Except Exn GlobalParam := do
  let name ← (← val.member "name").asString realText
  let value ← val.member "value"
  return { name, value }

end Read

structure Connection.Fits (c : Connection) : Prop where
  channels : c.channels.toNat < 4294967296
  port : c.port.toNat < 4294967296
  peerPort : c.peerPort.toNat < 4294967296

def Channel.Fits (c : Channel) : Prop := c.channelNumber.toNat < 4294967296

section Restored

variable {realText : Double → String}

theorem exchange_restored (e : Exchange) : Exchange.ofJson realText e.toJson = .ok e := by
  obtain ⟨name, creator, type, autoDelete, durable, internal⟩ := e
  cases type <;> rfl

theorem queue_restored (q : Queue) : Queue.ofJson realText q.toJson = .ok q := rfl

theorem message_restored (m : Message) : Message.ofJson realText m.toJson = .ok m := rfl

theorem globalParam_restored (p : GlobalParam) : GlobalParam.ofJson realText p.toJson = .ok p := rfl

theorem toUInt64_toUInt32 {n : UInt64} (h : n.toNat < 4294967296) : n.toUInt32.toUInt64 = n := by
  apply UInt64.toNat.inj
  rw [UInt32.toNat_toUInt64, UInt64.toNat_toUInt32]
  exact Nat.mod_eq_of_lt h

theorem asUInt_uint {n : UInt64} (h : n.toNat < 4294967296) :
    (Value.uint n).asUInt = .ok n.toUInt32 := by
  rw [Value.asUInt, Value.asUnsigned_uint (by omega)]
  rfl

theorem asUInt_uint_error {n : UInt64} (h : 4294967296 ≤ n.toNat) :
    ∃ e, (Value.uint n).asUInt = .error e := by
  have hmax : ¬ n.toNat ≤ 4294967295 := by omega
  rw [Value.asUInt, Value.asUnsigned]
  exact ⟨_, congrArg (Except.map UInt32.ofNat) (if_neg hmax)⟩

theorem asUInt_castUInt {n : UInt64} (h : n.toNat < 4294967296) :
    (castUInt n).asUInt = .ok n.toUInt32 := by
  rw [castUInt, toUInt64_toUInt32 h, asUInt_uint h]

theorem asUInt64_uint (n : UInt64) : (Value.uint n).asUInt64 = .ok n := by
  have hn := n.toNat_lt
  rw [Value.asUInt64, Value.asUnsigned_uint (by omega)]
  exact congrArg Except.ok UInt64.ofNat_toNat

theorem connection_restored {c : Connection} (h : c.Fits) :
    Connection.ofJson realText c.toJson = .ok c := by
  have hread : Connection.ofJson realText c.toJson = (do
      let channels ← (castUInt c.channels).asUInt
      let port ← (castUInt c.port).asUInt
      let peerPort ← (castUInt c.peerPort).asUInt
      let connectedAt ← (Value.uint c.connectedAt).asUInt64
      return { c with
        channels := channels.toUInt64, port := port.toUInt64, peerPort := peerPort.toUInt64,
        connectedAt }) := rfl
  rw [hread, asUInt_castUInt h.channels, asUInt_castUInt h.port, asUInt_castUInt h.peerPort,
    asUInt64_uint]
  simp only [bind, Except.bind, pure, Except.pure, toUInt64_toUInt32 h.channels,
    toUInt64_toUInt32 h.port, toUInt64_toUInt32 h.peerPort]

theorem channel_restored_iff {c : Channel} (h : c.Fits) :
    Channel.ofJson realText c.toJson = .ok c ↔
      c.connectionName = "" ∧ c.consumerCount.toNat < 4294967296 := by
  have hread : Channel.ofJson realText c.toJson = (do
      let channelNumber ← (castUInt c.channelNumber).asUInt
      let consumerCount ← (Value.uint c.consumerCount).asUInt
      return { c with
        channelNumber := channelNumber.toUInt64, connectionName := "",
        consumerCount := consumerCount.toUInt64 }) := rfl
  rw [hread, asUInt_castUInt h]
  cases Nat.lt_or_ge c.consumerCount.toNat 4294967296 with
  | inl hlt =>
    rw [asUInt_uint hlt, and_iff_left hlt]
    simp only [bind, Except.bind, pure, Except.pure, toUInt64_toUInt32 h, toUInt64_toUInt32 hlt,
      Except.ok.injEq]
    constructor
    · intro hc
      exact (congrArg Channel.connectionName hc).symm
    · intro hname
      rw [← hname]
  | inr hge =>
    obtain ⟨e, he⟩ := asUInt_uint_error hge
    rw [he]
    refine iff_of_false ?_ fun hc => absurd hc.2 hge.not_gt
    simp [bind, Except.bind]

/-- Every type but the channel is restored from its own document. -/
theorem networkTypes_restored_iff (realText : Double → String) :
    (∀ e : Exchange, Exchange.ofJson realText e.toJson = .ok e) ∧
    (∀ q : Queue, Queue.ofJson realText q.toJson = .ok q) ∧
    (∀ c : Connection, c.Fits → Connection.ofJson realText c.toJson = .ok c) ∧
    (∀ c : Channel, c.Fits → (Channel.ofJson realText c.toJson = .ok c ↔
      c.connectionName = "" ∧ c.consumerCount.toNat < 4294967296)) ∧
    (∀ m : Message, Message.ofJson realText m.toJson = .ok m) ∧
    ∀ p : GlobalParam, GlobalParam.ofJson realText p.toJson = .ok p :=
  ⟨exchange_restored, queue_restored, fun _ => connection_restored, fun _ => channel_restored_iff,
    message_restored, globalParam_restored⟩

theorem networkTypes_restored_channel :
    Channel.ofJson (fun _ => "") (Channel.toJson ⟨"c", 1, "", "guest", "/", "running", 2⟩) =
      .ok ⟨"c", 1, "", "guest", "/", "running", 2⟩ ∧
    Connection.ofJson (fun _ => "") (Connection.toJson ⟨1, "h", "n", "p", 5672, 40000, 7, "u"⟩) =
      .ok ⟨1, "h", "n", "p", 5672, 40000, 7, "u"⟩ := by
  have h := networkTypes_restored_iff fun _ => ""
  exact ⟨(h.2.2.2.1 _ (by unfold Channel.Fits; decide)).mpr ⟨rfl, by decide⟩,
    h.2.2.1 _ ⟨by decide, by decide, by decide⟩⟩

theorem not_networkTypes_restored :
    Channel.ofJson (fun _ => "") (Channel.toJson ⟨"c", 1, "conn", "guest", "/", "running", 2⟩) ≠
      .ok ⟨"c", 1, "conn", "guest", "/", "running", 2⟩ ∧
    Channel.ofJson (fun _ => "")
        (Channel.toJson ⟨"c", 1, "", "guest", "/", "running", 4294967296⟩) ≠
      .ok ⟨"c", 1, "", "guest", "/", "running", 4294967296⟩ := by
  constructor
  · intro h
    have hname := ((channel_restored_iff (by unfold Channel.Fits; decide)).mp h).1
    exact absurd hname (by decide)
  · intro h
    have hcount := ((channel_restored_iff (by unfold Channel.Fits; decide)).mp h).2
    exact absurd hcount (by decide)

end Restored

end NetworkTypes

end DistributedMathArh
