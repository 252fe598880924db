import DistributedMathArh.Common.Json

namespace DistributedMathArh

open Json

/-- How a transfer of libcurl ends: without a handle, with an error, or with an answer. -/
inductive Transfer
  | noHandle
  | failed (what : String)
  | completed (httpCode : Nat) (body : String)

/-- The reader of JSON texts, which gives a document or the text of its errors, and the printer of
numbers. -/
structure JsonText where
  parse : String → Except String Value
  realText : Double → String

def performCurlRequest : Transfer → Except Exn String
  | .noHandle => .error (.runtimeError "CURL initialization failed")
  | .failed what => .error (.curlError what)
  | .completed httpCode body =>
    if 400 ≤ httpCode then .error (.httpError httpCode body) else .ok body

inductive ExchangeType
  | fanout | direct | topic | headers | consistentHash | messageDeduplication
  deriving DecidableEq

def kExchangeTypeMappings : List (String × ExchangeType) :=
  [("fanout", .fanout), ("direct", .direct), ("topic", .topic), ("headers", .headers),
    ("consistent_hash", .consistentHash), ("message_deduplication", .messageDeduplication)]

def strToExchangeType (str : String) : Except Exn ExchangeType :=
  match kExchangeTypeMappings.lookup str with
  | some type => .ok type
  | none => .error (.invalidOption str)

structure Exchange where
  name : String
  creator : String
  type : ExchangeType
  autoDelete : Bool
  durable : Bool
  internal : Bool

def Exchange.ofJson (realText : Double → String) (val : Value) : Except Exn Exchange := do
  let name ← (← val.member "name").asString realText
  let creator ← (← val.member "user_who_performed_action").asString realText
  let type ← strToExchangeType (← (← val.member "type").asString realText)
  let autoDelete ← (← val.member "auto_delete").asBool
  let durable ← (← val.member "durable").asBool
  let internal ← (← val.member "internal").asBool
  return { name, creator, type, autoDelete, durable, internal }

namespace RabbitMQRestService

def parseJson (J : JsonText) (jsonStr : String) : Except Exn Value :=
  match J.parse jsonStr with
  | .error errs => .error (.runtimeError ("JSON parse error: " ++ errs))
  | .ok root => .ok root

def queuesIn (J : JsonText) (response : String) : Except Exn (List String) := do
  let j ← parseJson J response
  j.elements.mapM fun item => do (← item.find "name").asString J.realText

def listQueues (J : JsonText) (t : Transfer) : Except Exn (List String) :=
  performCurlRequest t >>= queuesIn J

/-- The exchanges in the answer to `GetExchanges`; a document that is no array has none. -/
def exchangesIn (J : JsonText) (response : String) : Except Exn (List Exchange) := do
  let res ← parseJson J response
  match res with
  | .array xs => xs.mapM (Exchange.ofJson J.realText)
  | _ => return []

def getExchanges (J : JsonText) (t : Transfer) : Except Exn (List Exchange) :=
  performCurlRequest t >>= exchangesIn J

def command (t : Transfer) : Except Exn Unit := (performCurlRequest t).map fun _ => ()

def createQueue : Transfer → Except Exn Unit := command

def createExchange : Transfer → Except Exn Unit := command

def bindQueueToExchange : Transfer → Except Exn Unit := command

end RabbitMQRestService

def Exn.ofHttp : Exn → Bool
  | .httpError .. => true
  | .curlError _ => true
  | _ => false

namespace Json.Value

variable {key : String} {v : Value}

theorem errorsIn_member : ErrorsIn (fun e => e.ofHttp = false) (v.member key) := by
  unfold member
  split
  · exact .ok _
  · exact .ok _
  · exact .error rfl

theorem errorsIn_find : ErrorsIn (fun e => e.ofHttp = false) (v.find key) := by
  unfold find
  split
  · exact .ok _
  · exact .ok _
  · exact .error rfl

theorem errorsIn_asString {realText : Double → String} :
    ErrorsIn (fun e => e.ofHttp = false) (v.asString realText) := by
  cases v with
  | array xs => exact .error rfl
  | object ms => exact .error rfl
  | _ => exact .ok _

theorem errorsIn_asBool : ErrorsIn (fun e => e.ofHttp = false) v.asBool := by
  cases v with
  | string s => exact .error rfl
  | array xs => exact .error rfl
  | object ms => exact .error rfl
  | _ => exact .ok _

end Json.Value

open Json.Value

theorem errorsIn_strToExchangeType (str : String) :
    ErrorsIn (fun e => e.ofHttp = false) (strToExchangeType str) := by
  unfold strToExchangeType
  split
  · exact .ok _
  · exact .error rfl

theorem errorsIn_exchange_ofJson (realText : Double → String) (val : Value) :
    ErrorsIn (fun e => e.ofHttp = false) (Exchange.ofJson realText val) := by
  refine errorsIn_member.bind fun _ => errorsIn_asString.bind fun _ => ?_
  refine errorsIn_member.bind fun _ => errorsIn_asString.bind fun _ => ?_
  refine errorsIn_member.bind fun _ => errorsIn_asString.bind fun _ => ?_
  refine (errorsIn_strToExchangeType _).bind fun _ => ?_
  refine errorsIn_member.bind fun _ => errorsIn_asBool.bind fun _ => ?_
  refine errorsIn_member.bind fun _ => errorsIn_asBool.bind fun _ => ?_
  refine errorsIn_member.bind fun _ => errorsIn_asBool.bind fun _ => ?_
  exact .ok _

namespace RabbitMQRestService

theorem errorsIn_parseJson (J : JsonText) (jsonStr : String) :
    ErrorsIn (fun e => e.ofHttp = false) (parseJson J jsonStr) := by
  unfold parseJson
  split
  · exact .error rfl
  · exact .ok _

theorem errorsIn_queuesIn (J : JsonText) (response : String) :
    ErrorsIn (fun e => e.ofHttp = false) (queuesIn J response) := by
  apply (errorsIn_parseJson J response).bind
  intro j
  apply ErrorsIn.mapM
  intro item
  apply errorsIn_find.bind
  intro name
  exact errorsIn_asString

theorem errorsIn_exchangesIn (J : JsonText) (response : String) :
    ErrorsIn (fun e => e.ofHttp = false) (exchangesIn J response) := by
  apply (errorsIn_parseJson J response).bind
  intro res
  cases res with
  | array xs =>
    apply ErrorsIn.mapM
    exact errorsIn_exchange_ofJson J.realText
  | _ => exact .ok _

end RabbitMQRestService

end DistributedMathArh
