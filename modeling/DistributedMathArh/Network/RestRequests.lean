import DistributedMathArh.Network.NetworkTypes

namespace DistributedMathArh

open Json

inductive HttpMethod
  | get | post | put | delete | head | options | patch | connect | trace
  deriving DecidableEq

structure RestRequest where
  method : HttpMethod
  path : String
  body : Option Value

namespace Json.Value

def empty : Value → Bool
  | .null => true
  | .array xs => xs.isEmpty
  | .object ms => ms.isEmpty
  | _ => false

def assign (v : Value) (key : String) (x : Value) : Value :=
  match v with
  | .object ms => .object (Members.set key x ms)
  | _ => .object [(key, x)]

end Json.Value

inductive RestCall
  | whoami
  | createQueue (vhost : String) (queue : NetworkTypes.Queue) (arguments : Value)
  | deleteQueue (vhost queueName : String)
  | createExchange (vhost : String) (exchange : Exchange) (arguments : Value)
  | deleteExchange (vhost exchangeName : String)
  | getQueueStats (vhost queueName : String)
  | publishMessage (vhost exchangeName : String) (message : NetworkTypes.Message)
  | getMessageCount (vhost queueName : String)
  | globalParam (param : NetworkTypes.GlobalParam) (type : HttpMethod)
  | listGlobalParams
  | listQueues (vhost : String)
  | listConnections
  | listChannels
  | bindQueueToExchange (vhost queueName exchangeName routingKey : String)
  | unbindQueueFromExchange (vhost queueName exchangeName routingKey : String)
  | createUser (user pass : String)
  | deleteUser (user : String)
  | listUsers (vhost : String)
  | getQueueBindings (vhost queue : String)
  | getExchanges (vhost : String)

namespace RestCall

def request : RestCall → RestRequest
  | .whoami => ⟨.get, "/api/whoami", none⟩
  | .createQueue vhost queue arguments => ⟨.put, "/api/queues/" ++ vhost ++ "/" ++ queue.name,
      if arguments.empty then queue.toJson else queue.toJson.assign "arguments" arguments⟩
  | .deleteQueue vhost queueName => ⟨.delete, "/api/queues/" ++ vhost ++ "/" ++ queueName, none⟩
  | .createExchange vhost exchange _ =>
    ⟨.put, "/api/exchanges/" ++ vhost ++ "/" ++ exchange.name, exchange.toJson⟩
  | .deleteExchange vhost exchangeName =>
    ⟨.delete, "/api/exchanges/" ++ vhost ++ "/" ++ exchangeName, none⟩
  | .getQueueStats vhost queueName => ⟨.get, "/api/queues/" ++ vhost ++ "/" ++ queueName, none⟩
  | .publishMessage vhost exchangeName message =>
    ⟨.post, "/api/exchanges/" ++ vhost ++ "/" ++ exchangeName ++ "/publish", message.toJson⟩
  | .getMessageCount vhost queueName =>
    ⟨.post, "/api/queues/" ++ vhost ++ "/" ++ queueName ++ "/get",
      some (.object [("count", .int 1000), ("ackmode", .string "ack_requeue_true"),
        ("encoding", .string "auto"), ("truncate", .int 50000)])⟩
  | .globalParam param type => ⟨type, "/api/global-parameters/" ++ param.name,
      if type = .put then some param.toJson else none⟩
  | .listGlobalParams => ⟨.get, "/api/global-parameters", none⟩
  | .listQueues vhost => ⟨.get, "/api/queues/" ++ vhost, none⟩
  | .listConnections => ⟨.get, "/api/connections", none⟩
  | .listChannels => ⟨.get, "/api/channels", none⟩
  | .bindQueueToExchange vhost queueName exchangeName routingKey =>
    ⟨.post, "/api/bindings/" ++ vhost ++ "/e/" ++ exchangeName ++ "/q/" ++ queueName,
      some (.object [("routing_key", .string routingKey)])⟩
  | .unbindQueueFromExchange vhost queueName exchangeName routingKey =>
    ⟨.delete, "/api/bindings/" ++ vhost ++ "/e/" ++ exchangeName ++ "/q/" ++ queueName ++ "/" ++
      routingKey, none⟩
  | .createUser user pass => ⟨.put, "/api/users/" ++ user,
      some (.object [("password", .string pass), ("tags", .string "worker")])⟩
  | .deleteUser user => ⟨.delete, "/api/users/" ++ user, none⟩
  | .listUsers _ => ⟨.get, "/api/users/", none⟩
  | .getQueueBindings vhost queue =>
    ⟨.get, "/api/queues/" ++ vhost ++ "/" ++ queue ++ "/bindings", none⟩
  | .getExchanges vhost => ⟨.get, "/api/exchanges/" ++ vhost, none⟩

def segments : RestCall → List String
  | .whoami => ["api", "whoami"]
  | .createQueue vhost queue _ => ["api", "queues", vhost, queue.name]
  | .deleteQueue vhost queueName => ["api", "queues", vhost, queueName]
  | .createExchange vhost exchange _ => ["api", "exchanges", vhost, exchange.name]
  | .deleteExchange vhost exchangeName => ["api", "exchanges", vhost, exchangeName]
  | .getQueueStats vhost queueName => ["api", "queues", vhost, queueName]
  | .publishMessage vhost exchangeName _ => ["api", "exchanges", vhost, exchangeName, "publish"]
  | .getMessageCount vhost queueName => ["api", "queues", vhost, queueName, "get"]
  | .globalParam param _ => ["api", "global-parameters", param.name]
  | .listGlobalParams => ["api", "global-parameters"]
  | .listQueues vhost => ["api", "queues", vhost]
  | .listConnections => ["api", "connections"]
  | .listChannels => ["api", "channels"]
  | .bindQueueToExchange vhost queueName exchangeName _ =>
    ["api", "bindings", vhost, "e", exchangeName, "q", queueName]
  | .unbindQueueFromExchange vhost queueName exchangeName routingKey =>
    ["api", "bindings", vhost, "e", exchangeName, "q", queueName, routingKey]
  | .createUser user _ => ["api", "users", user]
  | .deleteUser user => ["api", "users", user]
  | .listUsers _ => ["api", "users", ""]
  | .getQueueBindings vhost queue => ["api", "queues", vhost, queue, "bindings"]
  | .getExchanges vhost => ["api", "exchanges", vhost]

def SlashFree (c : RestCall) : Prop := ∀ s ∈ c.segments, '/' ∉ s.toList

/-- The call without the arguments that do not go into the request. -/
def effective : RestCall → RestCall
  | .createQueue vhost queue arguments =>
    .createQueue vhost queue (if arguments.empty then .null else arguments)
  | .createExchange vhost exchange _ => .createExchange vhost exchange .null
  | .globalParam param type =>
    .globalParam (if type = .put then param else { param with value := .null }) type
  | .listUsers _ => .listUsers ""
  | c => c

def read : HttpMethod → List String → Option Value → Option RestCall
  | .get, ["api", "whoami"], _ => some .whoami
  | .put, ["api", "queues", vhost, _], some body => do
    let queue ← (NetworkTypes.Queue.ofJson (fun _ => "") body).toOption
    let arguments ← (body.member "arguments").toOption
    return .createQueue vhost queue arguments
  | .delete, ["api", "queues", vhost, queueName], _ => some (.deleteQueue vhost queueName)
  | .put, ["api", "exchanges", vhost, _], some body => do
    let exchange ← (Exchange.ofJson (fun _ => "") body).toOption
    return .createExchange vhost exchange .null
  | .delete, ["api", "exchanges", vhost, exchangeName], _ =>
    some (.deleteExchange vhost exchangeName)
  | .get, ["api", "queues", vhost, queueName], _ => some (.getQueueStats vhost queueName)
  | .post, ["api", "exchanges", vhost, exchangeName, "publish"], some body => do
    let message ← (NetworkTypes.Message.ofJson (fun _ => "") body).toOption
    return .publishMessage vhost exchangeName message
  | .post, ["api", "queues", vhost, queueName, "get"], _ => some (.getMessageCount vhost queueName)
  | .put, ["api", "global-parameters", _], some body => do
    let param ← (NetworkTypes.GlobalParam.ofJson (fun _ => "") body).toOption
    return .globalParam param .put
  | type, ["api", "global-parameters", name], none => some (.globalParam ⟨name, .null⟩ type)
  | .get, ["api", "global-parameters"], _ => some .listGlobalParams
  | .get, ["api", "queues", vhost], _ => some (.listQueues vhost)
  | .get, ["api", "connections"], _ => some .listConnections
  | .get, ["api", "channels"], _ => some .listChannels
  | .post, ["api", "bindings", vhost, "e", exchangeName, "q", queueName], some body => do
    let routingKey ← ((do (← body.member "routing_key").asString fun _ => "") :
      Except Exn String).toOption
    return .bindQueueToExchange vhost queueName exchangeName routingKey
  | .delete, ["api", "bindings", vhost, "e", exchangeName, "q", queueName, routingKey], _ =>
    some (.unbindQueueFromExchange vhost queueName exchangeName routingKey)
  | .put, ["api", "users", user], some body => do
    let pass ← ((do (← body.member "password").asString fun _ => "") :
      Except Exn String).toOption
    return .createUser user pass
  | .delete, ["api", "users", user], _ => some (.deleteUser user)
  | .get, ["api", "users", _], _ => some (.listUsers "")
  | .get, ["api", "queues", vhost, queue, "bindings"], _ => some (.getQueueBindings vhost queue)
  | .get, ["api", "exchanges", vhost], _ => some (.getExchanges vhost)
  | _, _, _ => none

def pathChars : List String → List Char
  | [] => []
  | s :: ss => '/' :: (s.toList ++ pathChars ss)

theorem path_request (c : RestCall) : c.request.path.toList = pathChars c.segments := by
  cases c <;> simp [request, segments, pathChars]

theorem read_request (c : RestCall) :
    read c.request.method c.segments c.request.body = some c.effective := by
  cases c with
  | createQueue vhost queue arguments =>
    cases harguments : arguments.empty with
    | true =>
      simp only [request, effective, harguments, if_true]
      rfl
    | false =>
      simp only [request, effective, harguments, Bool.false_eq_true, if_false]
      rfl
  | createExchange vhost exchange _ =>
    change (Exchange.ofJson _ exchange.toJson).toOption.bind
      (fun e => some (createExchange vhost e .null)) = _
    rw [NetworkTypes.exchange_restored]
    rfl
  | globalParam param type =>
    cases type <;> rfl
  | _ => rfl

theorem request_effective (c : RestCall) : c.effective.request = c.request := by
  cases c with
  | createQueue vhost queue arguments =>
    cases harguments : arguments.empty with
    | true =>
      simp only [request, effective, harguments, if_true]
      rfl
    | false => simp only [request, effective, harguments, Bool.false_eq_true, if_false]
  | globalParam param type => cases type <;> rfl
  | _ => rfl

theorem takeWhile_pathChars (ss : List String) :
    (pathChars ss).takeWhile (· ≠ '/') = [] := by
  cases ss <;> rfl

theorem pathChars_inj {ss ss' : List String} (h : ∀ s ∈ ss, '/' ∉ s.toList)
    (h' : ∀ s ∈ ss', '/' ∉ s.toList) (heq : pathChars ss = pathChars ss') : ss = ss' := by
  induction ss generalizing ss' with
  | nil =>
    cases ss' with
    | nil => rfl
    | cons s' ss' => cases heq
  | cons s ss ih =>
    cases ss' with
    | nil => cases heq
    | cons s' ss' =>
      have htail : s.toList ++ pathChars ss = s'.toList ++ pathChars ss' := (List.cons.inj heq).2
      have hs : s.toList = s'.toList := by
        have := congrArg (List.takeWhile (· ≠ '/')) htail
        rwa [List.takeWhile_append_of_pos, List.takeWhile_append_of_pos, takeWhile_pathChars,
          takeWhile_pathChars, List.append_nil, List.append_nil] at this
        · intro c hc
          exact decide_eq_true fun e => h' s' List.mem_cons_self (e ▸ hc)
        · intro c hc
          exact decide_eq_true fun e => h s List.mem_cons_self (e ▸ hc)
      rw [hs] at htail
      rw [String.toList_injective hs, ih (fun x hx => h x (List.mem_cons_of_mem _ hx))
        (fun x hx => h' x (List.mem_cons_of_mem _ hx)) (List.append_cancel_left htail)]

/-- Two calls send the same request exactly if they are the same but for the arguments that no
request carries. -/
theorem request_eq_iff {c c' : RestCall} (hc : c.SlashFree) (hc' : c'.SlashFree) :
    c.request = c'.request ↔ c.effective = c'.effective := by
  constructor
  · intro heq
    have hsegments : c.segments = c'.segments := by
      apply pathChars_inj hc hc'
      rw [← path_request, ← path_request, heq]
    apply Option.some.inj
    rw [← read_request, ← read_request, hsegments, heq]
  · intro heq
    rw [← request_effective c, heq, request_effective]

example : (getQueueStats "v" "q/bindings").request = (getQueueBindings "v" "q").request ∧
    (getQueueStats "v" "q/bindings").effective ≠ (getQueueBindings "v" "q").effective :=
  ⟨rfl, RestCall.noConfusion⟩

theorem request_eq_iff_bindings :
    (getQueueStats "v" "q").request = (getQueueBindings "v" "q").request ↔
      (getQueueStats "v" "q").effective = (getQueueBindings "v" "q").effective :=
  request_eq_iff (by simp [SlashFree, segments]) (by simp [SlashFree, segments])

end RestCall

end DistributedMathArh
