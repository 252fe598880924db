import DistributedMathArh.Db.Catalog

namespace DistributedMathArh.Db

open Transition

namespace Site

variable {κ : Type} {S : DbServer κ} {s t : Site S} {k : κ}

def Connected (s : Site S) (k : κ) : Prop := ∃ n, (k, n) ∈ S.sessions s.server

structure Sound (s : Site S) : Prop where
  template : sampleTempDb ∈ S.databases s.server
  placed : ∀ x ∈ S.sessions s.server, x.2 ∈ S.databases s.server
  follows : ∀ k, ∃ place, (s.script k).Disciplined S place ∧
    ∀ n, (k, n) ∈ S.sessions s.server → place = some n
  absent : ∀ k n, (s.script k).creates = some n → s.Connected k → n ∉ S.databases s.server

theorem mem_template {q : Statement} {next : Bool → Script} {place : Option String}
    (hscript : (Script.exec q next).Disciplined S place)
    (hplace : ∀ n, (k, n) ∈ S.sessions s.server → place = some n) (hq : q.movesDatabases = true)
    {n : String} (hn : (k, n) ∈ S.sessions s.server) : n = sampleTempDb :=
  Option.some.inj ((hplace n hn).symm.trans (hscript.2.1 hq))

theorem exec_of_creates {p : Script} {n : String} (h : p.creates = some n) :
    ∃ next, p = .exec (.createDatabase n) next := by
  cases p with
  | exec q next =>
    cases q with
    | createDatabase m =>
      cases h
      exact ⟨next, rfl⟩
    | _ => cases h
  | _ => cases h

theorem Sound.mem_template_of_creates (hs : s.Sound) {n m : String}
    (hcreates : (s.script k).creates = some n) (hm : (k, m) ∈ S.sessions s.server) :
    m = sampleTempDb := by
  obtain ⟨place, hdisciplined, hplace⟩ := hs.follows k
  obtain ⟨next, hscript⟩ := exec_of_creates hcreates
  rw [hscript] at hdisciplined
  exact mem_template hdisciplined hplace rfl hm

theorem sessions_close {server : S.State} (h : S.Close s.server k server) {x : κ × String}
    (hx : x ∈ S.sessions server) : x ∈ S.sessions s.server ∧ x.1 ≠ k := S.sessions_close h hx

theorem Sound.close (hs : s.Sound) {server : S.State} (h : S.Close s.server k server) :
    Sound { s with server } where
  template := by rw [S.databases_close h]; exact hs.template
  placed x hx := by
    rw [S.databases_close h]
    exact hs.placed x (sessions_close h hx).1
  follows j := by
    obtain ⟨place, hdisciplined, hplace⟩ := hs.follows j
    exact ⟨place, hdisciplined, fun n hn => hplace n (sessions_close h hn).1⟩
  absent j n hcreates hlive := by
    obtain ⟨m, hm⟩ := hlive
    rw [S.databases_close h]
    exact hs.absent j n hcreates ⟨m, (sessions_close h hm).1⟩

variable [DecidableEq κ]

theorem Sound.goOn (hs : s.Sound) {server : S.State} {p : Script}
    (htemplate : sampleTempDb ∈ S.databases server)
    (hplaced : ∀ x ∈ S.sessions server, x.2 ∈ S.databases server)
    (hsub : ∀ x ∈ S.sessions server, x.1 ≠ k → x ∈ S.sessions s.server)
    (hfollows : ∃ place, p.Disciplined S place ∧ ∀ n, (k, n) ∈ S.sessions server → place = some n)
    (habsent : ∀ n, p.creates = some n → n ∉ S.databases server)
    (hothers : ∀ j n, j ≠ k → (s.script j).creates = some n → s.Connected j →
      n ∉ S.databases server) : (s.goOn server k p).Sound where
  template := htemplate
  placed := hplaced
  follows j := by
    by_cases hj : j = k
    · subst hj
      rw [script_goOn]
      exact hfollows
    · obtain ⟨place, hdisciplined, hplace⟩ := hs.follows j
      refine ⟨place, by simpa [Site.goOn, hj] using hdisciplined, fun n hn => ?_⟩
      exact hplace n (hsub _ hn hj)
  absent j n hcreates hlive := by
    by_cases hj : j = k
    · subst hj
      rw [script_goOn] at hcreates
      exact habsent n hcreates
    · obtain ⟨m, hm⟩ := hlive
      exact hothers j n hj (by simpa [Site.goOn, hj] using hcreates) ⟨m, hsub _ hm hj⟩

theorem Sound.goOn_same (hs : s.Sound) {server : S.State} {p : Script}
    (hdatabases : S.databases server = S.databases s.server)
    (hplaced : ∀ x ∈ S.sessions server, x.2 ∈ S.databases server)
    (hsub : ∀ x ∈ S.sessions server, x.1 ≠ k → x ∈ S.sessions s.server)
    (hfollows : ∃ place, p.Disciplined S place ∧ ∀ n, (k, n) ∈ S.sessions server → place = some n)
    (habsent : ∀ n, p.creates = some n → n ∉ S.databases server) : (s.goOn server k p).Sound := by
  refine hs.goOn (hdatabases ▸ hs.template) hplaced hsub hfollows habsent ?_
  intro j n _ hcreates hlive
  rw [hdatabases]
  exact hs.absent j n hcreates hlive

theorem Sound.connect (hs : s.Sound) {c : PostgreSQLCStr} {service : String} {next : Script}
    {server : S.State} (hscript : s.script k = .tryConnect c service next)
    (hconnect : S.Connect s.server k c server) : (s.goOn server k next).Sound := by
  obtain ⟨place, hdisciplined, hplace⟩ := hs.follows k
  rw [hscript] at hdisciplined
  obtain ⟨rfl, hc, hcreates, hnext⟩ := hdisciplined
  obtain ⟨hmem, hsub⟩ := hc.connect hconnect
  have hdatabases := S.databases_connect hconnect
  refine hs.goOn_same hdatabases ?_ ?_ ⟨some c.dbname, hnext, fun m hm => ?_⟩ ?_
  · intro x hx
    rw [hdatabases]
    rcases hsub hx with rfl | hx
    · exact hmem
    · exact hs.placed x hx
  · intro x hx hne
    rcases hsub hx with rfl | hx
    · exact absurd rfl hne
    · exact hx
  · rcases hsub hm with heq | hm
    · exact congrArg some (Prod.ext_iff.mp heq).2.symm
    · cases hplace m hm
  · intro m hm
    rw [hcreates] at hm
    cases hm

theorem Sound.exec (hs : s.Sound) {q : Statement} {next : Bool → Script} {rows : Bool}
    {server : S.State} {p : Script} (hscript : s.script k = .exec q next) (hlive : s.Connected k)
    (hsub : S.sessions server ⊆ S.sessions s.server) (h : S.Executes s.server k q rows server)
    (hfollows : ∃ place, p.Disciplined S place ∧ ∀ n, (k, n) ∈ S.sessions server → place = some n)
    (hchecked : ∀ m, p.creates = some m → q = .checkDatabaseExistence m ∧ rows = false) :
    (s.goOn server k p).Sound := by
  obtain ⟨place, hdisciplined, hplace⟩ := hs.follows k
  rw [hscript] at hdisciplined
  cases h with
  | @checked n rows _ hrows hdatabases =>
    refine hs.goOn_same hdatabases (fun x hx => ?_) (fun x hx _ => hsub hx) hfollows fun m hm => ?_
    · rw [hdatabases]
      exact hs.placed x (hsub hx)
    · obtain ⟨hq, rfl⟩ := hchecked m hm
      cases hq
      rw [hdatabases, ← hrows]
      exact Bool.false_ne_true
  | @created n rows _ habsent halone hdatabases =>
    refine hs.goOn ?_ (fun x hx => ?_) (fun x hx _ => hsub hx) hfollows
      (fun m hm => by cases (hchecked m hm).1) fun j m hj hcreates hj' => ?_
    · rw [hdatabases]
      exact .inr hs.template
    · rw [hdatabases]
      exact .inr (hs.placed x (hsub hx))
    · -- `j` is connected to the template too, but `k` was alone there
      obtain ⟨m', hm'⟩ := hj'
      obtain rfl := hs.mem_template_of_creates hcreates hm'
      exact absurd (halone j hm') hj
  | @dropped n rows _ hfree hdatabases =>
    obtain ⟨m', hm'⟩ := hlive
    refine hs.goOn ?_ (fun x hx => ?_) (fun x hx _ => hsub hx) hfollows
      (fun m hm => by cases (hchecked m hm).1) fun j m hj hcreates hj' hm => ?_
    · rw [hdatabases]
      refine ⟨hs.template, ?_⟩
      -- the caller's own connection keeps the template
      rintro rfl
      obtain rfl := mem_template hdisciplined hplace rfl hm'
      exact hfree _ hm'
    · rw [hdatabases]
      refine ⟨hs.placed x (hsub hx), ?_⟩
      rintro rfl
      exact hfree x.1 (hsub hx)
    · rw [hdatabases] at hm
      exact hs.absent j m hcreates hj' hm.1
  | other hq _ hdatabases =>
    refine hs.goOn_same hdatabases (fun x hx => ?_) (fun x hx _ => hsub hx) hfollows ?_
    · rw [hdatabases]
      exact hs.placed x (hsub hx)
    · intro m hm
      exact absurd (hchecked m hm).1 (hq m)

omit [DecidableEq κ] in
theorem disciplined_raise {halt : AdminHalt} {place : Option String}
    (h : ∀ query, halt ≠ .sqlError query duplicateDatabase) :
    (raise halt).Disciplined S place :=
  ⟨rfl, fun query heq => h query (Except.error.inj heq)⟩

theorem Sound.raise (hs : s.Sound) {server : S.State} {halt : AdminHalt}
    (hdatabases : S.databases server = S.databases s.server)
    (hsub : S.sessions server ⊆ S.sessions s.server)
    (h : ∀ query, halt ≠ .sqlError query duplicateDatabase) :
    (s.goOn server k (raise halt)).Sound := by
  obtain ⟨place, -, hplace⟩ := hs.follows k
  refine hs.goOn_same hdatabases (fun x hx => ?_) (fun x hx _ => hsub hx)
    ⟨place, disciplined_raise h, fun n hn => hplace n (hsub hn)⟩ (fun m hm => by cases hm)
  rw [hdatabases]
  exact hs.placed x (hsub hx)

theorem Sound.throw (hs : s.Sound) {q : Statement} {next : Bool → Script} {refusal : Refusal}
    {server : S.State} (hscript : s.script k = .exec q next)
    (hexec : S.Exec s.server k q (.error refusal) server) :
    (s.goOn server k (Site.raise (refusal.halt q.text))).Sound := by
  obtain ⟨place, hdisciplined, hplace⟩ := hs.follows k
  rw [hscript] at hdisciplined
  have hsub := S.sessions_exec hexec
  have hhalt : ∀ query, refusal.halt q.text ≠ .sqlError query duplicateDatabase := by
    intro query h
    cases refusal with
    | lost => cases h
    | sqlError sqlstate =>
      obtain rfl := (AdminHalt.sqlError.inj h).2
      obtain ⟨n, rfl, hmem⟩ := DbServer.mem_of_duplicate hdisciplined.1 hexec
      have hlive := S.connected_exec hexec (by simp)
      exact hs.absent k n (by rw [hscript]; rfl) hlive hmem
  rcases DbServer.databases_of_error hdisciplined.1 hexec with hsame | ⟨hlive, rows, heffect⟩
  · exact hs.raise hsame hsub hhalt
  · exact hs.exec hscript hlive hsub heffect
      ⟨place, disciplined_raise hhalt, fun n hn => hplace n (hsub hn)⟩ (fun m hm => by cases hm)

theorem Sound.step (hs : s.Sound) {a : κ × Act} (hcall : ∀ c, a.2 = .call c → S.Handles c)
    (h : Step s a t) : t.Sound := by
  cases h with
  | @called k c result hdone hfree =>
    exact hs.goOn_same rfl hs.placed (fun x hx _ => hx)
      ⟨none, disciplined_script (hcall c rfl), fun n hn => absurd hn (hfree n)⟩
      fun n hn => by rw [creates_script] at hn; cases hn
  | connected hscript hconnect => exact hs.connect hscript hconnect
  | @broken k c service next hscript =>
    obtain ⟨place, -, hplace⟩ := hs.follows k
    refine hs.goOn_same rfl hs.placed (fun x hx _ => hx) ⟨place, ?_, hplace⟩ fun m hm => ?_
    · intro query h
      cases h
    · cases hm
  | @executed k q next rows server hscript hexec =>
    obtain ⟨place, hdisciplined, hplace⟩ := hs.follows k
    rw [hscript] at hdisciplined
    have hsub := S.sessions_exec hexec
    exact hs.exec hscript (S.connected_exec hexec (by simp)) hsub
      (DbServer.executes_of_exec hdisciplined.1 hexec)
      ⟨place, (hdisciplined.2.2.2 rows).1, fun n hn => hplace n (hsub hn)⟩
      (hdisciplined.2.2.1 rows)
  | thrown hscript hexec => exact hs.throw hscript hexec
  | @finished k next hscript =>
    obtain ⟨place, hdisciplined, hplace⟩ := hs.follows k
    rw [hscript] at hdisciplined
    refine hs.goOn_same rfl hs.placed (fun x hx _ => hx) ⟨place, hdisciplined.2, hplace⟩ ?_
    intro m hm
    rw [hdisciplined.1] at hm
    cases hm
  | unfinished hscript => exact hs.raise rfl (Set.Subset.refl _) fun _ => AdminHalt.noConfusion
  | @disconnected k next server hscript hclose =>
    obtain ⟨place, hdisciplined, -⟩ := hs.follows k
    rw [hscript] at hdisciplined
    have hdatabases := S.databases_close hclose
    refine hs.goOn_same hdatabases (fun x hx => ?_) (fun x hx _ => (sessions_close hclose hx).1)
      ⟨none, hdisciplined.2, fun n hn => ?_⟩ ?_
    · rw [hdatabases]
      exact hs.placed x (sessions_close hclose hx).1
    · exact absurd rfl (sessions_close hclose hn).2
    · intro m hm
      rw [hdisciplined.1] at hm
      cases hm
  | closed _ hclose => exact hs.close hclose
  | lost hclose => exact hs.close hclose

/-- Every call names the server and its databases plainly, and no script has to do with the list of
databases. -/
def Handled (S : DbServer κ) (es : List (κ × Act)) : Prop :=
  ∀ k call, (k, .call call) ∈ es → S.Handles call

theorem Sound.run (hs : s.Sound) {es : List (κ × Act)} (hes : Handled S es)
    (run : Run Step s es t) : t.Sound := by
  have hguarded : Run (Guarded Step fun _ a => ∀ c, a.2 = .call c → S.Handles c) s es t := by
    apply run.guarded
    rintro ⟨k, act⟩ ha - c rfl
    exact hes k c ha
  exact hguarded.invariant (fun _ _ _ hs h => hs.step h.1 h.2) hs

omit [DecidableEq κ] in
theorem sound_init {server : S.State} (htemplate : sampleTempDb ∈ S.databases server)
    (hnone : S.sessions server = ∅) : (init server : Site S).Sound where
  template := htemplate
  placed x hx := by
    rw [init, hnone] at hx
    exact hx.elim
  follows _ := ⟨none, by simp [init, Script.Disciplined], fun n hn => by
    rw [init, hnone] at hn
    exact hn.elim⟩
  absent _ _ h := by cases h

/-- However the calls overlap: the template stays, nobody is connected to a database that is gone,
and a database that a caller is about to create is not there; no `CREATE DATABASE` fails for a
duplicate. -/
theorem databases_of_run {server : S.State} (htemplate : sampleTempDb ∈ S.databases server)
    (hnone : S.sessions server = ∅) {es : List (κ × Act)} (hes : Handled S es)
    (run : Run Step (init server) es s) :
    sampleTempDb ∈ S.databases s.server ∧
      (∀ x ∈ S.sessions s.server, x.2 ∈ S.databases s.server) ∧
      (∀ k n, (s.script k).creates = some n → s.Connected k → n ∉ S.databases s.server) ∧
      ∀ k query, s.script k ≠ .done (.error (.sqlError query duplicateDatabase)) := by
  have hs := (sound_init htemplate hnone).run hes run
  refine ⟨hs.template, hs.placed, hs.absent, fun k query hscript => ?_⟩
  obtain ⟨place, hdisciplined, -⟩ := hs.follows k
  rw [hscript] at hdisciplined
  exact hdisciplined query rfl

def sampleServer : DbServer Bool := Catalog.server Bool "h" 5432

def sampleStr : PostgreSQLCStr := ⟨"u", "p", "h", "d", 5432⟩

def sampleSite : Site sampleServer := init (S := sampleServer) (Catalog.mk [sampleTempDb] [])

theorem sessions_sampleSite : sampleServer.sessions sampleSite.server = ∅ := by
  ext x
  exact List.mem_nil_iff x

theorem serves_sampleStr : sampleServer.Serves { sampleStr with dbname := "a" } :=
  ⟨rfl, rfl, by simp [sampleStr, Unreserved], by simp [Unreserved], by decide⟩

def overlapping : List (Bool × Act) :=
  let call : Act := .call (.createDatabase sampleStr "a")
  [(false, call), (true, call), (false, .next), (true, .next), (false, .next), (true, .next)]

theorem handled_overlapping : Handled sampleServer overlapping := by
  intro k call h
  have hcall : call = .createDatabase sampleStr "a" := by
    cases k <;> simpa [overlapping] using h
  subst hcall
  exact serves_sampleStr

theorem exists_run_overlapping : ∃ s : Site sampleServer, Run Step sampleSite overlapping s ∧
      (∃ n, (s.script false).creates = some n) ∧ ∃ n, (s.script true).creates = some n :=
  ⟨_, Catalog.run_of_exec rfl, ⟨_, rfl⟩, ⟨_, rfl⟩⟩

theorem databases_of_run_overlapping : ∃ s : Site sampleServer,
    Run Step sampleSite overlapping s ∧ sampleTempDb ∈ sampleServer.databases s.server ∧
      (∀ x ∈ sampleServer.sessions s.server, x.2 ∈ sampleServer.databases s.server) ∧
      (∀ k n, (s.script k).creates = some n → s.Connected k →
        n ∉ sampleServer.databases s.server) ∧
      ∀ k query, s.script k ≠ .done (.error (.sqlError query duplicateDatabase)) := by
  obtain ⟨s, run, -⟩ := exists_run_overlapping
  exact ⟨s, run, databases_of_run (List.mem_singleton.mpr rfl) sessions_sampleSite
    handled_overlapping run⟩

end Site

end DistributedMathArh.Db
