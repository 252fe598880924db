import Mathlib.Data.Set.Insert
import DistributedMathArh.Lib.Transition
import DistributedMathArh.Network.ConnectionString

namespace DistributedMathArh.Db

open Transition

def sampleTempDb : String := "template1"

inductive Statement
  | checkDatabaseExistence (dbName : String)
  | createDatabase (dbName : String)
  | grant (dbName user : String)
  | terminateAllDbConnections (dbName : String)
  | dropDatabase (dbName : String)
  /-- A script, in a transaction of its own. -/
  | script (sql : String)

def Statement.text : Statement → String
  | .checkDatabaseExistence n => "SELECT 1 FROM pg_database WHERE datname = '" ++ n ++ "';"
  | .createDatabase n => "CREATE DATABASE \"" ++ n ++ "\";"
  | .grant n user => "GRANT ALL ON DATABASE \"" ++ n ++ "\" TO " ++ user ++ ";"
  | .terminateAllDbConnections n => "SELECT pg_terminate_backend(pg_stat_activity.pid)\n" ++
      "FROM pg_stat_activity WHERE pg_stat_activity.datname = '" ++ n ++
      "'  AND pid <> pg_backend_pid();"
  | .dropDatabase n => "DROP DATABASE \"" ++ n ++ "\";"
  | .script sql => sql

/-- What a statement that fails throws: `pqxx::sql_error`, or an exception that is none. -/
inductive Refusal
  | sqlError (sqlstate : String)
  | lost

def duplicateDatabase : String := "42P04"

inductive AdminHalt
  | brokenConnection (service target : String)
  | sqlError (query sqlstate : String)
  /-- An exception out of a statement or a commit that is no `sql_error`. -/
  | escaped

def Refusal.halt (query : String) : Refusal → AdminHalt
  | .sqlError sqlstate => .sqlError query sqlstate
  | .lost => .escaped

inductive Script
  | done (result : Except AdminHalt Unit)
  | tryConnect (connStr : PostgreSQLCStr) (service : String) (next : Script)
  | exec (s : Statement) (next : Bool → Script)
  /-- `commit` and `abort` of a `nontransaction`, which send nothing. -/
  | finish (next : Script)
  | disconnect (next : Script)

def createDatabase (cString : PostgreSQLCStr) (dbName : String) : Script :=
  let cString := { cString with dbname := dbName }
  let tString := { cString with dbname := sampleTempDb }
  let outer := Script.tryConnect cString "Outer" (.done (.ok ()))
  .tryConnect tString "OuterService" <|
    .exec (.checkDatabaseExistence cString.dbname) fun found =>
      if found then .finish <| .disconnect outer
      else .exec (.createDatabase cString.dbname) fun _ =>
        .exec (.grant cString.dbname cString.user) fun _ => .finish <| .disconnect outer

def dropDatabase (cString : PostgreSQLCStr) (dbName : String) : Script :=
  let cString := { cString with dbname := dbName }
  let tString := { cString with dbname := sampleTempDb }
  .tryConnect tString "Outer" <|
    .exec (.checkDatabaseExistence cString.dbname) fun found =>
      if found then
        .exec (.terminateAllDbConnections cString.dbname) fun _ =>
          .exec (.dropDatabase cString.dbname) fun _ => .finish <| .disconnect (.done (.ok ()))
      else .finish <| .disconnect (.done (.ok ()))

def fillDatabase (cString : PostgreSQLCStr) (sql : String) : Script :=
  .tryConnect cString "Outer" <| .exec (.script sql) fun _ => .disconnect (.done (.ok ()))

inductive AdminCall
  | createDatabase (cString : PostgreSQLCStr) (dbName : String)
  | dropDatabase (cString : PostgreSQLCStr) (dbName : String)
  | fillDatabase (cString : PostgreSQLCStr) (sql : String)
  | tryConnect (connStr : PostgreSQLCStr) (service : String)

def AdminCall.script : AdminCall → Script
  | .createDatabase c n => Db.createDatabase c n
  | .dropDatabase c n => Db.dropDatabase c n
  | .fillDatabase c sql => Db.fillDatabase c sql
  | .tryConnect c service => .tryConnect c service (.done (.ok ()))

def Unreserved (s : String) : Prop := ∀ c ∈ s.toList, c.isAlphanum ∨ c ∈ ['-', '.', '_', '~']

/-- A name that a quoted identifier, a text constant and a URI each carry unchanged. -/
structure PlainName (n : String) : Prop where
  unreserved : Unreserved n
  size : 0 < n.utf8ByteSize ∧ n.utf8ByteSize < 64

def Statement.Plain : Statement → Prop
  | .checkDatabaseExistence n => PlainName n
  | .createDatabase n => PlainName n
  | .grant n user => PlainName n ∧ Unreserved user
  | .terminateAllDbConnections n => PlainName n
  | .dropDatabase n => PlainName n
  | .script _ => False

/-- The server at an address, as far as its manual goes: a database is copied from the template, to
which nobody else may be connected; one to which anybody is connected is not dropped; whoever loses
the connection during a statement does not learn whether it has taken its effect.  What it does
with texts that are not plain is left open. -/
structure DbServer (κ : Type) where
  host : String
  port : UInt32
  State : Type
  databases : State → Set String
  sessions : State → Set (κ × String)
  Connect : State → κ → PostgreSQLCStr → State → Prop
  Exec : State → κ → Statement → Except Refusal Bool → State → Prop
  Close : State → κ → State → Prop
  databases_connect : ∀ {s k c s'}, Connect s k c s' → databases s' = databases s
  sessions_connect : ∀ {s k c s'}, Connect s k c s' → c.host = host → c.port = port →
    Unreserved c.user → Unreserved c.password → Unreserved c.host → PlainName c.dbname →
    c.dbname ∈ databases s ∧ sessions s' ⊆ insert (k, c.dbname) (sessions s)
  databases_close : ∀ {s k s'}, Close s k s' → databases s' = databases s
  sessions_close : ∀ {s k s'}, Close s k s' → sessions s' ⊆ {x ∈ sessions s | x.1 ≠ k}
  sessions_exec : ∀ {s k q r s'}, Exec s k q r s' → sessions s' ⊆ sessions s
  connected_exec : ∀ {s k q r s'}, Exec s k q r s' → r ≠ .error .lost → ∃ n, (k, n) ∈ sessions s
  check_exec : ∀ {s k n rows s'}, PlainName n →
    Exec s k (.checkDatabaseExistence n) (.ok rows) s' →
    (rows = true ↔ n ∈ databases s) ∧ databases s' = databases s
  create_exec : ∀ {s k n rows s'}, PlainName n → Exec s k (.createDatabase n) (.ok rows) s' →
    n ∉ databases s ∧ (∀ j, (j, sampleTempDb) ∈ sessions s → j = k) ∧
      databases s' = insert n (databases s)
  grant_exec : ∀ {s k n user rows s'}, PlainName n → Unreserved user →
    Exec s k (.grant n user) (.ok rows) s' → databases s' = databases s
  terminate_exec : ∀ {s k n rows s'}, PlainName n →
    Exec s k (.terminateAllDbConnections n) (.ok rows) s' → databases s' = databases s
  drop_exec : ∀ {s k n rows s'}, PlainName n → Exec s k (.dropDatabase n) (.ok rows) s' →
    (∀ j, (j, n) ∉ sessions s) ∧ databases s' = databases s \ {n}
  failed_exec : ∀ {s k q sqlstate s'}, Exec s k q (.error (.sqlError sqlstate)) s' →
    databases s' = databases s
  lost_exec : ∀ {s k q s'}, Exec s k q (.error .lost) s' → databases s' = databases s ∨
    ∃ rows t, Exec s k q (.ok rows) t ∧ databases s' = databases t
  duplicate_exec : ∀ {s k q s'}, q.Plain →
    Exec s k q (.error (.sqlError duplicateDatabase)) s' →
    ∃ n, q = .createDatabase n ∧ n ∈ databases s

namespace DbServer

variable {κ : Type} (S : DbServer κ)

structure Serves (c : PostgreSQLCStr) : Prop where
  host : c.host = S.host
  port : c.port = S.port
  plain : Unreserved c.user ∧ Unreserved c.password ∧ Unreserved c.host
  dbname : PlainName c.dbname

/-- A script that has nothing to do with the list of databases. -/
def Harmless (sql : String) : Prop :=
  ∀ s k r s', S.Exec s k (.script sql) r s' →
    S.databases s' = S.databases s ∧ r ≠ .error (.sqlError duplicateDatabase)

def Admits : Statement → Prop
  | .script sql => S.Harmless sql
  | q => q.Plain

def Handles : AdminCall → Prop
  | .createDatabase c n => S.Serves { c with dbname := n }
  | .dropDatabase c n => S.Serves { c with dbname := n }
  | .fillDatabase c sql => S.Serves c ∧ S.Harmless sql
  | .tryConnect c _ => S.Serves c

end DbServer

structure Site {κ : Type} (S : DbServer κ) where
  server : S.State
  script : κ → Script

namespace Site

variable {κ : Type} [DecidableEq κ] {S : DbServer κ}

inductive Act
  | call (c : AdminCall)
  | next
  | close
  | lost

def init (server : S.State) : Site S := ⟨server, fun _ => .done (.ok ())⟩

def goOn (s : Site S) (server : S.State) (k : κ) (p : Script) : Site S :=
  ⟨server, Function.update s.script k p⟩

@[simp] theorem script_goOn (s : Site S) (server : S.State) (k : κ) (p : Script) :
    (s.goOn server k p).script k = p := Function.update_self _ _ _

/-- An exception out of the scope of the connection closes it. -/
def raise (halt : AdminHalt) : Script := .disconnect (.done (.error halt))

inductive Step : Site S → κ × Act → Site S → Prop
  | called {s k c result} (hdone : s.script k = .done result)
    (hfree : ∀ n, (k, n) ∉ S.sessions s.server) :
    Step s (k, .call c) (s.goOn s.server k c.script)
  | connected {s k c service next server} (hscript : s.script k = .tryConnect c service next)
    (hconnect : S.Connect s.server k c server) : Step s (k, .next) (s.goOn server k next)
  | broken {s k c service next} (hscript : s.script k = .tryConnect c service next) :
    Step s (k, .next)
      (s.goOn s.server k (.done (.error (.brokenConnection service c.getVerboseName))))
  | executed {s k q next rows server} (hscript : s.script k = .exec q next)
    (hexec : S.Exec s.server k q (.ok rows) server) : Step s (k, .next) (s.goOn server k (next rows))
  | thrown {s k q next refusal server} (hscript : s.script k = .exec q next)
    (hexec : S.Exec s.server k q (.error refusal) server) :
    Step s (k, .next) (s.goOn server k (raise (refusal.halt q.text)))
  | finished {s k next} (hscript : s.script k = .finish next) :
    Step s (k, .next) (s.goOn s.server k next)
  | unfinished {s k next} (hscript : s.script k = .finish next) :
    Step s (k, .next) (s.goOn s.server k (raise .escaped))
  | disconnected {s k next server} (hscript : s.script k = .disconnect next)
    (hclose : S.Close s.server k server) : Step s (k, .next) (s.goOn server k next)
  | closed {s k result server} (hdone : s.script k = .done result)
    (hclose : S.Close s.server k server) : Step s (k, .close) { s with server }
  | lost {s k server} (hclose : S.Close s.server k server) : Step s (k, .lost) { s with server }

end Site

def Script.creates : Script → Option String
  | .exec (.createDatabase n) _ => some n
  | _ => none

def Statement.movesDatabases : Statement → Bool
  | .createDatabase _ => true
  | .dropDatabase _ => true
  | _ => false

def Script.Settled : Script → Prop
  | .done _ => True
  | .tryConnect _ _ next => next.Settled
  | .exec q next => (∀ n, q ≠ .createDatabase n) ∧ ∀ rows, (next rows).Settled
  | .finish next => next.Settled
  | .disconnect next => next.Settled

def Script.Disciplined {κ : Type} (S : DbServer κ) : Script → Option String → Prop
  | .done result, _ => ∀ query, result ≠ .error (.sqlError query duplicateDatabase)
  | .tryConnect c _ next, place =>
    place = none ∧ S.Serves c ∧ next.creates = none ∧ next.Disciplined S (some c.dbname)
  | .exec q next, place => S.Admits q ∧ (q.movesDatabases = true → place = some sampleTempDb) ∧
      (∀ rows m, (next rows).creates = some m → q = .checkDatabaseExistence m ∧ rows = false) ∧
      ∀ rows, (next rows).Disciplined S place ∧
        ((∃ n, q = .createDatabase n) → (next rows).Settled)
  | .finish next, place => next.creates = none ∧ next.Disciplined S place
  | .disconnect next, _ => next.creates = none ∧ next.Disciplined S none

theorem plainName_sampleTempDb : PlainName sampleTempDb :=
  ⟨by simp [Unreserved, sampleTempDb], by decide⟩

section Calls

variable {κ : Type} {S : DbServer κ}

theorem DbServer.Serves.template {c : PostgreSQLCStr} (h : S.Serves c) :
    S.Serves { c with dbname := sampleTempDb } :=
  ⟨h.host, h.port, h.plain, plainName_sampleTempDb⟩

theorem creates_script (call : AdminCall) : call.script.creates = none := by
  cases call <;> rfl

theorem disciplined_script {call : AdminCall} (h : S.Handles call) :
    call.script.Disciplined S none := by
  cases call with
  | createDatabase c n =>
    have hc : S.Serves { c with dbname := n } := h
    refine ⟨rfl, hc.template, rfl, hc.dbname, by simp [Statement.movesDatabases], ?_, ?_⟩
    · intro rows m hm
      cases rows <;> simp_all [Script.creates]
    · intro rows
      cases rows with
      | true => simp [Script.Disciplined, Script.creates, hc]
      | false =>
        have hgrant : S.Admits (.grant n c.user) := ⟨hc.dbname, hc.plain.1⟩
        have hcreate : S.Admits (.createDatabase n) := hc.dbname
        simp [Script.Disciplined, Script.creates, Statement.movesDatabases, Script.Settled, hc,
          hgrant, hcreate]
  | dropDatabase c n =>
    have hc : S.Serves { c with dbname := n } := h
    refine ⟨rfl, hc.template, rfl, hc.dbname, by simp [Statement.movesDatabases], ?_, ?_⟩
    · intro rows m hm
      cases rows <;> simp_all [Script.creates]
    · intro rows
      have hterminate : S.Admits (.terminateAllDbConnections n) := hc.dbname
      have hdrop : S.Admits (.dropDatabase n) := hc.dbname
      cases rows <;>
        simp [Script.Disciplined, Script.creates, Statement.movesDatabases, hterminate, hdrop]
  | fillDatabase c sql =>
    have hscript : S.Admits (.script sql) := h.2
    simp [AdminCall.script, fillDatabase, Script.Disciplined, Script.creates,
      Statement.movesDatabases, h.1, hscript]
  | tryConnect c service =>
    have hc : S.Serves c := h
    simp [AdminCall.script, Script.Disciplined, Script.creates, hc]

end Calls

namespace DbServer

variable {κ : Type} {S : DbServer κ} {s s' : S.State} {k : κ}

theorem Serves.connect {c : PostgreSQLCStr} (hc : S.Serves c) (h : S.Connect s k c s') :
    c.dbname ∈ S.databases s ∧ S.sessions s' ⊆ insert (k, c.dbname) (S.sessions s) :=
  S.sessions_connect h hc.host hc.port hc.plain.1 hc.plain.2.1 hc.plain.2.2 hc.dbname

inductive Executes (S : DbServer κ) (s : S.State) (k : κ) : Statement → Bool → S.State → Prop
  | checked {n rows s'} (hrows : rows = true ↔ n ∈ S.databases s)
    (hdatabases : S.databases s' = S.databases s) :
    Executes S s k (.checkDatabaseExistence n) rows s'
  | created {n rows s'} (habsent : n ∉ S.databases s)
    (halone : ∀ j, (j, sampleTempDb) ∈ S.sessions s → j = k)
    (hdatabases : S.databases s' = insert n (S.databases s)) :
    Executes S s k (.createDatabase n) rows s'
  | dropped {n rows s'} (hfree : ∀ j, (j, n) ∉ S.sessions s)
    (hdatabases : S.databases s' = S.databases s \ {n}) :
    Executes S s k (.dropDatabase n) rows s'
  | other {q rows s'} (hq : ∀ n, q ≠ .checkDatabaseExistence n) (hmoves : q.movesDatabases = false)
    (hdatabases : S.databases s' = S.databases s) : Executes S s k q rows s'

theorem executes_of_exec {q : Statement} (hq : S.Admits q) {rows : Bool}
    (h : S.Exec s k q (.ok rows) s') : S.Executes s k q rows s' := by
  cases q with
  | checkDatabaseExistence n =>
    obtain ⟨hrows, hdatabases⟩ := S.check_exec hq h
    exact .checked hrows hdatabases
  | createDatabase n =>
    obtain ⟨habsent, halone, hdatabases⟩ := S.create_exec hq h
    exact .created habsent halone hdatabases
  | grant n user =>
    exact .other (fun _ => Statement.noConfusion) rfl (S.grant_exec hq.1 hq.2 h)
  | terminateAllDbConnections n =>
    exact .other (fun _ => Statement.noConfusion) rfl (S.terminate_exec hq h)
  | dropDatabase n =>
    obtain ⟨hfree, hdatabases⟩ := S.drop_exec hq h
    exact .dropped hfree hdatabases
  | script sql => exact .other (fun _ => Statement.noConfusion) rfl (hq _ _ _ _ h).1

theorem Executes.of_databases {t : S.State} {q : Statement} {rows : Bool}
    (h : S.Executes s k q rows t) (ht : S.databases s' = S.databases t) :
    S.Executes s k q rows s' := by
  cases h with
  | checked hrows hdatabases => exact .checked hrows (ht.trans hdatabases)
  | created habsent halone hdatabases => exact .created habsent halone (ht.trans hdatabases)
  | dropped hfree hdatabases => exact .dropped hfree (ht.trans hdatabases)
  | other hq hmoves hdatabases => exact .other hq hmoves (ht.trans hdatabases)

theorem databases_of_error {q : Statement} (hq : S.Admits q) {refusal : Refusal}
    (h : S.Exec s k q (.error refusal) s') :
    S.databases s' = S.databases s ∨
      (∃ n, (k, n) ∈ S.sessions s) ∧ ∃ rows, S.Executes s k q rows s' := by
  cases refusal with
  | sqlError sqlstate => exact .inl (S.failed_exec h)
  | lost =>
    rcases S.lost_exec h with hsame | ⟨rows, t, hexec, ht⟩
    · exact .inl hsame
    · have hlive := S.connected_exec hexec (by simp)
      exact .inr ⟨hlive, rows, (executes_of_exec hq hexec).of_databases ht⟩

theorem mem_of_duplicate {q : Statement} (hq : S.Admits q)
    (h : S.Exec s k q (.error (.sqlError duplicateDatabase)) s') :
    ∃ n, q = .createDatabase n ∧ n ∈ S.databases s := by
  cases q with
  | script sql => exact absurd rfl (hq _ _ _ _ h).2
  | _ => exact S.duplicate_exec hq h

end DbServer

end DistributedMathArh.Db
