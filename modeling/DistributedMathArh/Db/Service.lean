import DistributedMathArh.Lib.Transition
import DistributedMathArh.Common.Json
import DistributedMathArh.Common.Timing
import DistributedMathArh.Db.Schema
import DistributedMathArh.Network.ConnectionString

/-! `db_service::DbService`: one transaction for each call. -/

namespace DistributedMathArh.Db

open Transition

inductive DbHalt
  | brokenConnection (service target : String)
  | sqlError (query : String) (state : SqlState)
  /-- `pqxx::unexpected_rows`, which is no `sql_error`. -/
  | unexpectedRows (query : String) (expected got : Nat)
  | invalidOption (option : String)
  /-- Undefined behaviour: an empty `optional` is dereferenced. -/
  | emptyOptional
  | fault (f : Fault)
  deriving DecidableEq

def strToEnum {E : Type} (mappings : List (String × E)) (s : String) : Except DbHalt E :=
  match mappings.lookup s with
  | some e => .ok e
  | none => .error (.invalidOption s)

def enumToStr {E : Type} [DecidableEq E] (mappings : List (String × E)) (e : E) : String :=
  ((mappings.find? fun m => m.2 = e).map Prod.fst).getD ""

/-- What is used of the JSON library and of `jsonb` columns: the text of a value, the value of a
text, and the text that a column returns for a text that was cast to it. -/
structure JsonColumn where
  write : Json.Value → String
  parse : String → Option Json.Value
  cast : String → Option String
  parse_cast : ∀ v t, cast (write v) = some t → parse t = parse (write v)
  parse_write_string : ∀ s, parse (write (.string s)) = some (.string s)
  length_lt : ∀ t s, parse t = some (.string s) → s.length < t.length

def plainText : JsonColumn where
  write
    | .bool b => if b then "true" else "false"
    | .int i => toString i.toInt
    | .uint n => toString n.toNat
    | .string s => "\"" ++ s ++ "\""
    | _ => "null"
  parse t :=
    match t.toList with
    | '"' :: rest =>
      if rest.getLast? = some '"' then some (.string (String.ofList rest.dropLast)) else none
    | _ =>
      if t = "null" then some .null
      else if t = "true" then some (.bool true)
      else if t = "false" then some (.bool false)
      else t.toInt?.map fun i => .int (Int64.ofInt i)
  cast := some
  parse_cast v t h := by
    cases h
    rfl
  parse_write_string s := by
    simp
  length_lt t s h := by
    split at h
    · rename_i rest ht
      obtain ⟨-, ⟨⟩⟩ := Option.ite_none_right_eq_some.mp h
      rw [String.length_ofList, List.length_dropLast, ← String.length_toList (s := t), ht,
        List.length_cons]
      exact Nat.lt_succ_of_le (Nat.sub_le _ _)
    · split at h
      · cases h
      · split at h
        · cases h
        · split at h
          · cases h
          · obtain ⟨_, -, ⟨⟩⟩ := Option.map_eq_some_iff.mp h

structure DbService where
  connStr : PostgreSQLCStr
  connected : Bool
  db : Database

abbrev Txn (α : Type) := Database → Except DbHalt α × Database

namespace Txn

def exec {α : Type} (query : String) (statement : Database → Except SqlState α × Database) : Txn α :=
  fun db =>
    match statement db with
    | (.ok a, db) => (.ok a, db)
    | (.error state, db) => (.error (.sqlError query state), db)

def bind {α β : Type} (x : Txn α) (f : α → Txn β) : Txn β := fun db =>
  match x db with
  | (.ok a, db) => f a db
  | (.error e, db) => (.error e, db)

def orFail {α : Type} (query : String) (state : SqlState) : Option α → Txn α
  | some a => fun db => (.ok a, db)
  | none => fun db => (.error (.sqlError query state), db)

theorem bind_eq_ok {α β : Type} {x : Txn α} {f : α → Txn β} {db db' : Database} {b : β} :
    bind x f db = (.ok b, db') ↔ ∃ a db₁, x db = (.ok a, db₁) ∧ f a db₁ = (.ok b, db') := by
  unfold bind
  split
  · rename_i a db₁ h
    constructor
    · intro hf
      exact ⟨a, db₁, h, hf⟩
    · rintro ⟨a', db₂, h', hf⟩
      cases h.symm.trans h'
      exact hf
  · rename_i e db₁ h
    constructor
    · intro hf
      cases hf
    · rintro ⟨a', db₂, h', -⟩
      cases h.symm.trans h'

theorem bind_orFail_eq_ok {α β : Type} {query : String} {state : SqlState} {o : Option α}
    {f : α → Txn β} {db db' : Database} {b : β} :
    (orFail query state o).bind f db = (.ok b, db') ↔ ∃ a, o = some a ∧ f a db = (.ok b, db') := by
  cases o with
  | none => simp [bind, orFail]
  | some a => simp [bind, orFail]

theorem exec_eq_ok {α : Type} {query : String} {statement : Database → Except SqlState α × Database}
    {db db' : Database} {a : α} :
    exec query statement db = (.ok a, db') ↔ statement db = (.ok a, db') := by
  unfold exec
  split
  · rename_i h
    simp [h]
  · rename_i h
    simp [h]

def Keeps {α : Type} (P : Database → Prop) (x : Txn α) : Prop :=
  ∀ db a db', P db → x db = (.ok a, db') → P db'

variable {α β : Type} {P : Database → Prop}

theorem Keeps.bind {x : Txn α} {g : α → Txn β} (hx : x.Keeps P) (hg : ∀ a, (g a).Keeps P) :
    (x.bind g).Keeps P := by
  intro db b db' hdb h
  obtain ⟨a, db₁, h₁, h₂⟩ := bind_eq_ok.mp h
  exact hg a db₁ b db' (hx db a db₁ hdb h₁) h₂

theorem Keeps.orFail {query : String} {state : SqlState} {o : Option α} :
    (Txn.orFail query state o).Keeps P := by
  intro db a db' hdb h
  cases o with
  | none => cases h
  | some a =>
    cases h
    exact hdb

theorem Keeps.bind_orFail {query : String} {state : SqlState} {o : Option α} {g : α → Txn β}
    (hg : ∀ a, o = some a → (g a).Keeps P) : ((Txn.orFail query state o).bind g).Keeps P := by
  intro db b db' hdb h
  obtain ⟨a, ho, hga⟩ := bind_orFail_eq_ok.mp h
  exact hg a ho db b db' hdb hga

theorem Keeps.exec {query : String} {statement : Database → Except SqlState α × Database}
    (hs : ∀ db a db', P db → statement db = (.ok a, db') → P db') :
    (Txn.exec query statement).Keeps P := fun db a db' hdb h => hs db a db' hdb (exec_eq_ok.mp h)

theorem Keeps.pure {a : α} : Keeps P fun db => (.ok a, db) := by
  intro db b db' hdb h
  cases h
  exact hdb

end Txn

def bigint (k : UInt64) : Option Nat := if k.toNat ≤ Database.maxSerial then some k.toNat else none

theorem toNat_of_bigint {n : UInt64} {k : Nat} (h : bigint n = some k) : n.toNat = k := by
  unfold bigint at h
  simpa using (Option.ite_none_right_eq_some.mp h).2

namespace DbService

def executeTransaction {α : Type} (func : Txn α) (s : DbService) : Except DbHalt α × DbService :=
  if s.connected then
    match func s.db with
    | (.ok a, db) => (.ok a, { s with db })
    | (.error e, db) => (.error e, { s with db := s.db.rollback db })
  else (.error (.brokenConnection "DbService" s.connStr.getVerboseName), s)

theorem executeTransaction_ok {α : Type} {func : Txn α} {s : DbService} {a : α} {db : Database}
    (hc : s.connected = true) (h : func s.db = (.ok a, db)) :
    executeTransaction func s = (.ok a, { s with db }) := by
  rw [executeTransaction, if_pos hc, h]

theorem executeTransaction_error {α : Type} {func : Txn α} {s : DbService} {e : DbHalt}
    {db : Database} (hc : s.connected = true) (h : func s.db = (.error e, db)) :
    executeTransaction func s = (.error e, { s with db := s.db.rollback db }) := by
  rw [executeTransaction, if_pos hc, h]

theorem executeTransaction_of_not_connected {α : Type} {s : DbService} (func : Txn α)
    (hc : s.connected = false) : executeTransaction func s =
      (.error (.brokenConnection "DbService" s.connStr.getVerboseName), s) := by
  rw [executeTransaction, if_neg (by simp [hc])]

theorem executeTransaction_cases {α : Type} {func : Txn α} {s t : DbService} {r : Except DbHalt α}
    (h : executeTransaction func s = (r, t)) :
    (∃ a db, s.connected = true ∧ r = .ok a ∧ func s.db = (.ok a, db) ∧ t = { s with db }) ∨
    (∃ e, r = .error e) ∧ (t = s ∨ ∃ db, t = { s with db := s.db.rollback db }) := by
  unfold executeTransaction at h
  split at h
  · rename_i hc
    split at h
    · rename_i a db hf
      cases h
      exact .inl ⟨a, db, hc, rfl, hf, rfl⟩
    · cases h
      exact .inr ⟨⟨_, rfl⟩, .inr ⟨_, rfl⟩⟩
  · cases h
    exact .inr ⟨⟨_, rfl⟩, .inl rfl⟩

def innerLog (experimentId nodeId : Option Nat) (severity message now : String) : Txn Nat :=
  let query := "INSERT INTO \"Log\" (node_id,experiment_id, severity, message) " ++
    "VALUES ($1,$2, $3::log_severity, $4) RETURNING log_id"
  Txn.bind (.orFail query .invalidText (kLogSeverityMappings.lookup severity)) fun severity =>
    .exec query fun db => db.insertLog experimentId nodeId severity (param message) now

theorem keeps_innerLog {P : Database → Prop} (hP : ∀ db logs, P db → P { db with logs })
    {experimentId nodeId : Option Nat} {severity message now : String} :
    (innerLog experimentId nodeId severity message now).Keeps P := by
  refine .bind .orFail fun severity => .exec fun db k db' hdb h => ?_
  obtain ⟨logs, rfl⟩ := Database.insertLog_eq_ok h
  exact hP db logs hdb

def createUser (login password role now : String) : DbService → Except DbHalt Nat × DbService :=
  let query := "INSERT INTO \"User\" (login, hashed_password, role) VALUES ($1, $2, $3) " ++
    "RETURNING user_id"
  executeTransaction <|
    Txn.bind (.orFail query .invalidText (kUserRoleMappings.lookup (param role).val)) fun role =>
      Txn.bind (.orFail query .stringTruncation (toVarchar 255 (param login))) fun login =>
        .exec query fun db => db.insertUser login (param password) role now

def authenticateTxn (login password now : String) : Txn Bool := fun db =>
  match db.users.rows.filter fun u => u.login.text = param login with
  | [u] =>
    if u.hashedPassword.val = password then (.ok true, db.setLastLogin (param login) now)
    else (.ok false, db)
  | rows =>
    let query := "SELECT hashed_password FROM \"User\" WHERE login = $1"
    (.error (.unexpectedRows query 1 rows.length), db)

def authenticateUser (login password now : String) : DbService → Except DbHalt Bool × DbService :=
  executeTransaction (authenticateTxn login password now)

def deleteUser (userId : UInt64) : DbService → Except DbHalt Unit × DbService :=
  let query := "DELETE FROM \"User\" WHERE user_id = $1"
  executeTransaction <|
    Txn.bind (.orFail query .outOfRange (bigint userId)) fun userId =>
      .exec query fun db => db.deleteUser userId

variable (J : JsonColumn)

def createExperiment (userId : UInt64) (parameters : Json.Value) (now : String) :
    DbService → Except DbHalt Nat × DbService :=
  let query := "INSERT INTO \"Experiment\" (user_id, parameters) VALUES ($1, $2::jsonb) " ++
    "RETURNING experiment_id"
  executeTransaction <|
    Txn.bind (.orFail query .outOfRange (bigint userId)) fun user =>
      Txn.bind (.orFail query .invalidText (J.cast (J.write parameters))) fun text =>
        Txn.bind (.exec query fun db => db.insertExperiment user text now) fun experimentId =>
          Txn.bind (innerLog none none "info" ("User " ++ toString user ++ " created experiment ") now)
            fun _ db => (.ok experimentId, db)

def updateExperimentStatus (experimentId : UInt64) (status now : String) :
    DbService → Except DbHalt Unit × DbService :=
  let query := "UPDATE \"Experiment\" SET status = $1, start_time = CASE WHEN " ++
    "$1 = 'running'::status THEN NOW() ELSE start_time END, " ++
    "end_time = CASE WHEN $1 IN ('succeeded'::status, 'error'::status) " ++
    "THEN NOW() ELSE end_time END WHERE experiment_id = $2"
  executeTransaction <|
    Txn.bind (.orFail query .invalidText (kExpStatusMappings.lookup (param status).val)) fun st =>
      Txn.bind (.orFail query .outOfRange (bigint experimentId)) fun experiment =>
        Txn.bind (.exec query fun db => (.ok (), db.setExperimentStatus experiment st now)) fun _ =>
          Txn.bind (innerLog none none "info"
              ("Experiment " ++ toString experimentId ++ "  status updated to " ++ status) now)
            fun _ db => (.ok (), db)

def createIteration (experimentId nodeId : UInt64) (iterType now : String) :
    DbService → Except DbHalt Nat × DbService :=
  let query := "INSERT INTO \"Iteration\" (experiment_id, node_id, iter_t) VALUES ($1, $2, $3) " ++
    "RETURNING iteration_id"
  executeTransaction <|
    Txn.bind (.orFail query .outOfRange (bigint experimentId)) fun experiment =>
      Txn.bind (.orFail query .outOfRange (bigint nodeId)) fun node =>
        Txn.bind (.orFail query .invalidText (kIterTypeMappings.lookup (param iterType).val)) fun iterT =>
          Txn.bind (.exec query fun db => db.insertIteration experiment node iterT now)
            fun iterationId =>
              Txn.bind (innerLog (some experiment) (some node) "info"
                  ("Iteration " ++ toString iterationId ++ " created for experiment " ++
                    toString experimentId) now)
                fun _ db => (.ok iterationId, db)

def isNull : Json.Value → Bool
  | .null => true
  | _ => false

def updateIterationStatus (iterationId : UInt64) (status : String) (outputData : Json.Value)
    (now : String) : DbService → Except DbHalt Unit × DbService :=
  let query :=
    if isNull outputData then
      "UPDATE \"Iteration\" SET status = $1::iteration_status, end_time = CASE WHEN " ++
        "$1 IN ('succeeded', 'error') THEN NOW() ELSE end_time END  WHERE iteration_id = $2"
    else
      "UPDATE \"Iteration\" SET status = $1::iteration_status, output_data = $2::jsonb, " ++
        "end_time = CASE WHEN $1 IN ('succeeded', 'error') THEN NOW() ELSE end_time END " ++
        "WHERE iteration_id = $3"
  executeTransaction <|
    Txn.bind (.orFail query .invalidText (kIterStatusMappings.lookup (param status).val)) fun st =>
      Txn.bind (.orFail query .invalidText
          (if isNull outputData then some none else (J.cast (J.write outputData)).map some))
        fun output =>
          Txn.bind (.orFail query .outOfRange (bigint iterationId)) fun iteration =>
            Txn.bind (.exec query fun db => (.ok (), db.setIterationStatus iteration st output now))
              fun _ =>
                Txn.bind (innerLog none none "info"
                    ("Iteration " ++ toString iterationId ++ " status updated to " ++ status) now)
                  fun _ db => (.ok (), db)

end DbService

def timepoint (mktime : Tm → Int) (text : String) : Except DbHalt UInt64 :=
  match Timing.strToTimepoint mktime text with
  | .ok (some t) => .ok t
  | .ok none => .error .emptyOptional
  | .error f => .error (.fault f)

def timepointOpt (mktime : Tm → Int) : Option String → Except DbHalt (Option UInt64)
  | none => .ok none
  | some text => (timepoint mktime text).map some

structure Experiment where
  experimentId : Nat
  userId : Nat
  status : ExperimentStatus
  parameters : Json.Value
  createdAt : UInt64
  startTime : Option UInt64
  endTime : Option UInt64

/-- The column text of the parameters becomes a string value: it is not parsed. -/
def Experiment.ofRow (mktime : Tm → Int) (row : ExperimentRow) : Except DbHalt Experiment := do
  let status ← strToEnum kExpStatusMappings (enumToStr kExpStatusMappings row.status)
  let createdAt ← timepoint mktime row.createdAt
  let startTime ← timepointOpt mktime row.startTime
  let endTime ← timepointOpt mktime row.endTime
  return {
    experimentId := row.experimentId, userId := row.userId, status,
    parameters := .string row.parameters, createdAt, startTime, endTime }

structure Iteration where
  iterationId : Nat
  experimentId : Nat
  nodeId : Nat
  iterT : IterationType
  status : IterationStatus
  outputData : Json.Value
  startTime : UInt64
  endTime : Option UInt64

def Iteration.ofRow (mktime : Tm → Int) (row : IterationRow) : Except DbHalt Iteration := do
  let iterT ← strToEnum kIterTypeMappings (enumToStr kIterTypeMappings row.iterT)
  let status ← strToEnum kIterStatusMappings (enumToStr kIterStatusMappings row.status)
  let startTime ← timepoint mktime row.startTime
  let endTime ← timepointOpt mktime row.endTime
  return {
    iterationId := row.iterationId, experimentId := row.experimentId, nodeId := row.nodeId, iterT,
    status, outputData := .string (row.outputData.getD "\x7b\x7d"), startTime, endTime }

/-- The order in which the server yields rows when a query asks for none. -/
structure Scan where
  order : {R : Type} → List R → List R
  perm : ∀ {R : Type} (rows : List R), (order rows).Perm rows

/-- `PaginateRequest`: `LIMIT page_size OFFSET (page_num - 1) * page_size`. -/
def paginate {R : Type} (query : String) (pageNum pageSize : UInt64) (rows : List R) :
    Except DbHalt (List R) :=
  let offset := (pageNum - 1) * pageSize
  match bigint pageSize, bigint offset with
  | some limit, some start => .ok ((rows.drop start).take limit)
  | _, _ => .error (.sqlError
      (query ++ " LIMIT " ++ toString pageSize ++ " OFFSET " ++ toString offset) .outOfRange)

namespace DbService

variable (mktime : Tm → Int)

def oneRow {R : Type} (query : String) : List R → Except DbHalt R
  | [row] => .ok row
  | rows => .error (.unexpectedRows query 1 rows.length)

def read {α : Type} (s : DbService) (query : Database → Except DbHalt α) : Except DbHalt α :=
  (s.executeTransaction fun db => (query db, db)).1

def selectOne {R D : Type} (query : String) (select : Database → Nat → List R)
    (ofRow : R → Except DbHalt D) (key : UInt64) (s : DbService) : Except DbHalt D :=
  s.read fun db => do
    let some k := bigint key | .error (.sqlError query .outOfRange)
    let row ← oneRow query (select db k)
    ofRow row

def selectPage {R D : Type} (scan : Scan) (query : String) (select : Database → Nat → List R)
    (ofRow : R → Except DbHalt D) (key pageNum pageSize : UInt64) (s : DbService) :
    Except DbHalt (List D) :=
  s.read fun db => do
    let some k := bigint key | .error (.sqlError query .outOfRange)
    let rows ← paginate query pageNum pageSize (scan.order (select db k))
    rows.mapM ofRow

def getExperiment : UInt64 → DbService → Except DbHalt Experiment :=
  selectOne "SELECT * FROM \"Experiment\" WHERE experiment_id = $1"
    (fun db experimentId => db.experiments.select experimentId) (Experiment.ofRow mktime)

def listExperiments (scan : Scan) : UInt64 → UInt64 → UInt64 → DbService →
    Except DbHalt (List Experiment) :=
  selectPage scan "SELECT * FROM \"Experiment\" WHERE user_id =$1"
    (fun db userId => db.experiments.rows.filter fun e => e.userId = userId) (Experiment.ofRow mktime)

def getIteration : UInt64 → DbService → Except DbHalt Iteration :=
  selectOne "SELECT * FROM \"Iteration\" WHERE iteration_id = $1"
    (fun db iterationId => db.iterations.select iterationId) (Iteration.ofRow mktime)

def listIterations (scan : Scan) : UInt64 → UInt64 → UInt64 → DbService →
    Except DbHalt (List Iteration) :=
  selectPage scan "SELECT * FROM \"Iteration\" WHERE experiment_id =$1"
    (fun db experimentId => db.iterations.rows.filter fun i => i.experimentId = experimentId)
    (Iteration.ofRow mktime)

end DbService

inductive Call
  | createUser (login password role : String)
  | authenticateUser (login password : String)
  | deleteUser (userId : UInt64)
  | createExperiment (userId : UInt64) (parameters : Json.Value)
  | updateExperimentStatus (experimentId : UInt64) (status : String)
  | createIteration (experimentId nodeId : UInt64) (iterType : String)
  | updateIterationStatus (iterationId : UInt64) (status : String) (outputData : Json.Value)

inductive Reply
  | id (k : Nat)
  | flag (b : Bool)
  | unit
  | halt (e : DbHalt)
  deriving DecidableEq

def Reply.of {α : Type} (f : α → Reply) : Except DbHalt α → Reply
  | .ok a => f a
  | .error e => .halt e

namespace DbService

variable (J : JsonColumn)

def call (now : String) (s : DbService) : Call → Reply × DbService
  | .createUser login password role => (s.createUser login password role now).map (.of .id) id
  | .authenticateUser login password => (s.authenticateUser login password now).map (.of .flag) id
  | .deleteUser userId => (s.deleteUser userId).map (.of fun _ => .unit) id
  | .createExperiment userId parameters =>
    (s.createExperiment J userId parameters now).map (.of .id) id
  | .updateExperimentStatus experimentId status =>
    (s.updateExperimentStatus experimentId status now).map (.of fun _ => .unit) id
  | .createIteration experimentId nodeId iterType =>
    (s.createIteration experimentId nodeId iterType now).map (.of .id) id
  | .updateIterationStatus iterationId status outputData =>
    (s.updateIterationStatus J iterationId status outputData now).map (.of fun _ => .unit) id

def Step (s : DbService) (a : Call × Reply) (t : DbService) : Prop :=
  ∃ now, s.call J now a.1 = (a.2, t)

def fresh (nodes : List Nat) : DbService :=
  ⟨⟨"user", "pass", "host", "dbname", 5432⟩, true, { Database.empty with nodes }⟩

end DbService

end DistributedMathArh.Db
