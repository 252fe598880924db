import Mathlib.Data.List.TakeWhile
import DistributedMathArh.Lib.Table
import DistributedMathArh.Common.Outcome

namespace DistributedMathArh.Db

/-- A value of type `text`: parameters are sent as C strings. -/
@[ext] structure Text where
  val : String
  no_nul : '\x00' ∉ val.toList
  deriving DecidableEq

@[ext] structure Varchar (n : Nat) where
  text : Text
  length_le : text.val.length ≤ n
  deriving DecidableEq

/-- A text parameter of a query ends at its first NUL character. -/
def param (s : String) : Text :=
  ⟨String.ofList (s.toList.takeWhile (· ≠ '\x00')), by
    intro h
    rw [String.toList_ofList] at h
    simpa using List.mem_takeWhile_imp h⟩

theorem param_val (t : Text) : (param t.val).val = t.val := by
  have hall : ∀ c ∈ t.val.toList, decide (c ≠ '\x00') = true := fun c hc =>
    decide_eq_true fun e => t.no_nul (e ▸ hc)
  change String.ofList (t.val.toList.takeWhile fun c => decide (c ≠ '\x00')) = t.val
  rw [List.takeWhile_eq_self_iff.mpr hall, String.ofList_toList]

/-- The assignment to a column of type `varchar(n)`: excess blanks are cut off. -/
def toVarchar (n : Nat) (s : Text) : Option (Varchar n) :=
  if h : s.val.length ≤ n then some ⟨s, h⟩
  else if (s.val.toList.drop n).all (· = ' ') then
    some ⟨⟨String.ofList (s.val.toList.take n), by
      rw [String.toList_ofList]
      exact fun h => s.no_nul (List.mem_of_mem_take h)⟩, by
      rw [String.length_ofList]
      exact List.length_take_le n _⟩
  else none

inductive UserRole
  | user | administrator
  deriving DecidableEq

def kUserRoleMappings : List (String × UserRole) :=
  [("user", .user), ("admin", .administrator)]

inductive ExperimentStatus
  | created | queued | running | succeeded | error | archived
  deriving DecidableEq

def kExpStatusMappings : List (String × ExperimentStatus) :=
  [("created", .created), ("queued", .queued), ("running", .running), ("succeeded", .succeeded),
    ("error", .error), ("archived", .archived)]

inductive IterationStatus
  | queued | running | succeeded | error
  deriving DecidableEq

def kIterStatusMappings : List (String × IterationStatus) :=
  [("queued", .queued), ("running", .running), ("succeeded", .succeeded), ("error", .error)]

inductive IterationType
  | generate | solve | mesh
  deriving DecidableEq

def kIterTypeMappings : List (String × IterationType) :=
  [("generate", .generate), ("solve", .solve), ("mesh", .mesh)]

inductive LogSeverity
  | info | warning | error
  deriving DecidableEq

def kLogSeverityMappings : List (String × LogSeverity) :=
  [("info", .info), ("warning", .warning), ("error", .error)]

/-- Timestamps are texts as the server prints them. -/
structure UserRow where
  userId : Nat
  login : Varchar 255
  hashedPassword : Text
  role : UserRole
  createdAt : String
  lastLogin : Option String

/-- A `jsonb` column is the text that the server prints for it. -/
structure ExperimentRow where
  experimentId : Nat
  userId : Nat
  status : ExperimentStatus
  parameters : String
  createdAt : String
  startTime : Option String
  endTime : Option String

structure IterationRow where
  iterationId : Nat
  experimentId : Nat
  nodeId : Nat
  iterT : IterationType
  status : IterationStatus
  outputData : Option String
  startTime : String
  endTime : Option String

structure LogRow where
  logId : Nat
  nodeId : Option Nat
  experimentId : Option Nat
  severity : LogSeverity
  message : Text
  timestamp : String

section Update

def UserRow.setLastLogin (login : Text) (now : String) (u : UserRow) : UserRow :=
  if u.login.text = login then { u with lastLogin := some now } else u

theorem UserRow.userId_setLastLogin (login : Text) (now : String) (u : UserRow) :
    (u.setLastLogin login now).userId = u.userId := by
  unfold setLastLogin
  split <;> rfl

theorem UserRow.login_setLastLogin (login : Text) (now : String) (u : UserRow) :
    (u.setLastLogin login now).login = u.login := by
  unfold setLastLogin
  split <;> rfl

def ExperimentRow.setStatus (experimentId : Nat) (status : ExperimentStatus) (now : String)
    (e : ExperimentRow) : ExperimentRow :=
  if e.experimentId = experimentId then
    { e with
      status
      startTime := if status = .running then some now else e.startTime
      endTime := if status = .succeeded ∨ status = .error then some now else e.endTime }
  else e

theorem ExperimentRow.experimentId_setStatus (experimentId : Nat) (status : ExperimentStatus)
    (now : String) (e : ExperimentRow) :
    (e.setStatus experimentId status now).experimentId = e.experimentId := by
  unfold setStatus
  split <;> rfl

theorem ExperimentRow.parameters_setStatus (experimentId : Nat) (status : ExperimentStatus)
    (now : String) (e : ExperimentRow) :
    (e.setStatus experimentId status now).parameters = e.parameters := by
  unfold setStatus
  split <;> rfl

/-- The output data stay unless there are new ones. -/
def IterationRow.setStatus (iterationId : Nat) (status : IterationStatus)
    (outputData : Option String) (now : String) (i : IterationRow) : IterationRow :=
  if i.iterationId = iterationId then
    { i with
      status
      outputData := outputData.or i.outputData
      endTime := if status = .succeeded ∨ status = .error then some now else i.endTime }
  else i

theorem IterationRow.iterationId_setStatus (iterationId : Nat) (status : IterationStatus)
    (outputData : Option String) (now : String) (i : IterationRow) :
    (i.setStatus iterationId status outputData now).iterationId = i.iterationId := by
  unfold setStatus
  split <;> rfl

theorem IterationRow.outputData_setStatus {iterationId : Nat} {status : IterationStatus}
    {outputData : Option String} {now : String} {i : IterationRow}
    (h : i.iterationId = iterationId → outputData = none) :
    (i.setStatus iterationId status outputData now).outputData = i.outputData := by
  unfold setStatus
  split
  · rename_i hi
    rw [h hi, Option.none_or]
  · rfl

end Update

/-- Of the nodes only the keys matter to what refers to them. -/
structure Database where
  users : Table UserRow UserRow.userId
  login_nodup : (users.rows.map UserRow.login).Nodup
  experiments : Table ExperimentRow ExperimentRow.experimentId
  iterations : Table IterationRow IterationRow.iterationId
  nodes : List Nat
  logs : Table LogRow LogRow.logId

inductive SqlState
  | stringTruncation | outOfRange | sequenceLimit | invalidText | foreignKey | unique
  deriving DecidableEq

def SqlState.code : SqlState → String
  | .stringTruncation => "22001"
  | .outOfRange => "22003"
  | .sequenceLimit => "2200H"
  | .invalidText => "22P02"
  | .foreignKey => "23503"
  | .unique => "23505"

namespace Database

def empty : Database := ⟨.empty, List.nodup_nil, .empty, .empty, [], .empty⟩

def rollback (db db' : Database) : Database where
  users := db.users.rollback db'.users
  login_nodup := db.login_nodup
  experiments := db.experiments.rollback db'.experiments
  iterations := db.iterations.rollback db'.iterations
  nodes := db.nodes
  logs := db.logs.rollback db'.logs

def maxSerial : Nat := 9223372036854775807

def insertUser (db : Database) (login : Varchar 255) (hashedPassword : Text) (role : UserRole)
    (now : String) : Except SqlState Nat × Database :=
  if db.users.last = maxSerial then (.error .sequenceLimit, db)
  else if h : login ∈ db.users.rows.map UserRow.login then
    (.error .unique, { db with users := db.users.skip, login_nodup := db.login_nodup })
  else
    let k := db.users.last + 1
    (.ok k, { db with
      users := db.users.insert ⟨k, login, hashedPassword, role, now, none⟩ rfl
      login_nodup := by
        rw [Table.insert, List.map_append]
        refine List.nodup_append.mpr ⟨db.login_nodup, List.nodup_singleton _, ?_⟩
        intro a ha b hb e
        have hb : b = login := List.mem_singleton.mp hb
        exact h (hb ▸ e ▸ ha) })

def setLastLogin (db : Database) (login : Text) (now : String) : Database :=
  { db with
    users := db.users.update (UserRow.setLastLogin login now) (UserRow.userId_setLastLogin login now)
    login_nodup := by
      have hlogin : UserRow.login ∘ UserRow.setLastLogin login now = UserRow.login :=
        funext (UserRow.login_setLastLogin login now)
      rw [Table.update, List.map_map, hlogin]
      exact db.login_nodup }

def deleteUser (db : Database) (userId : Nat) : Except SqlState Unit × Database :=
  if db.users.select userId ≠ [] ∧ ∃ e ∈ db.experiments.rows, e.userId = userId then
    (.error .foreignKey, db)
  else
    (.ok (), { db with
      users := db.users.delete userId
      login_nodup := db.login_nodup.sublist (List.filter_sublist.map UserRow.login) })

def insertExperiment (db : Database) (userId : Nat) (parameters now : String) :
    Except SqlState Nat × Database :=
  if db.experiments.last = maxSerial then (.error .sequenceLimit, db)
  else if db.users.select userId = [] then
    (.error .foreignKey, { db with experiments := db.experiments.skip })
  else
    let k := db.experiments.last + 1
    (.ok k, { db with
      experiments := db.experiments.insert ⟨k, userId, .created, parameters, now, none, none⟩ rfl })

def setExperimentStatus (db : Database) (experimentId : Nat) (status : ExperimentStatus)
    (now : String) : Database :=
  { db with
    experiments := db.experiments.update (ExperimentRow.setStatus experimentId status now)
      (ExperimentRow.experimentId_setStatus experimentId status now) }

def insertIteration (db : Database) (experimentId nodeId : Nat) (iterT : IterationType)
    (now : String) : Except SqlState Nat × Database :=
  if db.iterations.last = maxSerial then (.error .sequenceLimit, db)
  else if db.experiments.select experimentId = [] ∨ nodeId ∉ db.nodes then
    (.error .foreignKey, { db with iterations := db.iterations.skip })
  else
    let k := db.iterations.last + 1
    (.ok k, { db with
      iterations :=
        db.iterations.insert ⟨k, experimentId, nodeId, iterT, .queued, none, now, none⟩ rfl })

def setIterationStatus (db : Database) (iterationId : Nat) (status : IterationStatus)
    (outputData : Option String) (now : String) : Database :=
  { db with
    iterations := db.iterations.update (IterationRow.setStatus iterationId status outputData now)
      (IterationRow.iterationId_setStatus iterationId status outputData now) }

def insertLog (db : Database) (experimentId nodeId : Option Nat) (severity : LogSeverity)
    (message : Text) (now : String) : Except SqlState Nat × Database :=
  if db.logs.last = maxSerial then (.error .sequenceLimit, db)
  else if (∃ k ∈ experimentId, db.experiments.select k = []) ∨ ∃ k ∈ nodeId, k ∉ db.nodes then
    (.error .foreignKey, { db with logs := db.logs.skip })
  else
    let k := db.logs.last + 1
    (.ok k, { db with
      logs := db.logs.insert ⟨k, nodeId, experimentId, severity, message, now⟩ rfl })

variable {db db' : Database} {k : Nat} {now : String}

theorem insertUser_eq_ok {login : Varchar 255} {hashedPassword : Text} {role : UserRole}
    (h : db.insertUser login hashedPassword role now = (.ok k, db')) :
    ∃ users hnodup, db' = { db with users, login_nodup := hnodup } := by
  unfold insertUser at h
  split at h
  · cases h
  · split at h
    · cases h
    · cases h
      exact ⟨_, _, rfl⟩

theorem deleteUser_eq_ok (h : db.deleteUser k = (.ok (), db')) :
    ∃ users hnodup, db' = { db with users, login_nodup := hnodup } := by
  unfold deleteUser at h
  split at h
  · cases h
  · cases h
    exact ⟨_, _, rfl⟩

theorem insertExperiment_eq_ok {userId : Nat} {parameters : String}
    (h : db.insertExperiment userId parameters now = (.ok k, db')) :
    ∃ experiments row, db' = { db with experiments } ∧
      experiments.rows = db.experiments.rows ++ [row] ∧
      row.experimentId = k ∧ row.userId = userId ∧ row.parameters = parameters := by
  unfold insertExperiment at h
  split at h
  · cases h
  · split at h
    · cases h
    · cases h
      exact ⟨_, _, rfl, rfl, rfl, rfl, rfl⟩

theorem insertIteration_eq_ok {experimentId nodeId : Nat} {iterT : IterationType}
    (h : db.insertIteration experimentId nodeId iterT now = (.ok k, db')) :
    ∃ iterations row, db' = { db with iterations } ∧
      iterations.rows = db.iterations.rows ++ [row] ∧ row.iterationId = k := by
  unfold insertIteration at h
  split at h
  · cases h
  · split at h
    · cases h
    · cases h
      exact ⟨_, _, rfl, rfl, rfl⟩

theorem insertLog_eq_ok {experimentId nodeId : Option Nat} {severity : LogSeverity} {message : Text}
    (h : db.insertLog experimentId nodeId severity message now = (.ok k, db')) :
    ∃ logs, db' = { db with logs } := by
  unfold insertLog at h
  split at h
  · cases h
  · split at h
    · cases h
    · cases h
      exact ⟨_, rfl⟩

end Database

end DistributedMathArh.Db
