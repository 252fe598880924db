import DistributedMathArh.Db.Databases

namespace DistributedMathArh.Db

open Transition

structure Catalog (κ : Type) where
  databases : List String
  sessions : List (κ × String)

namespace Catalog

variable {κ : Type} [DecidableEq κ]

def answer (s : Catalog κ) (k : κ) : Statement → Except String (Bool × Catalog κ)
  | .checkDatabaseExistence n => .ok (n ∈ s.databases, s)
  | .createDatabase n =>
    if n ∈ s.databases then .error duplicateDatabase
    else if ∀ x ∈ s.sessions, x.2 = sampleTempDb → x.1 = k then
      .ok (false, { s with databases := n :: s.databases })
    else .error "55006"
  | .grant n _ => if n ∈ s.databases then .ok (false, s) else .error "3D000"
  | .terminateAllDbConnections n =>
    .ok (true, { s with sessions := s.sessions.filter fun x => x.1 = k ∨ x.2 ≠ n })
  | .dropDatabase n =>
    if n ∉ s.databases then .error "3D000"
    else if ∃ x ∈ s.sessions, x.2 = n then .error "55006"
    else .ok (false, { s with databases := s.databases.filter (· ≠ n) })
  | .script _ => .ok (false, s)

def close (s : Catalog κ) (k : κ) : Catalog κ :=
  { s with sessions := s.sessions.filter fun x => x.1 ≠ k }

inductive Exec (s : Catalog κ) (k : κ) (q : Statement) : Except Refusal Bool → Catalog κ → Prop
  | ok {n rows s'} (hlive : (k, n) ∈ s.sessions) (h : s.answer k q = .ok (rows, s')) :
    Exec s k q (.ok rows) s'
  | error {n sqlstate} (hlive : (k, n) ∈ s.sessions) (h : s.answer k q = .error sqlstate) :
    Exec s k q (.error (.sqlError sqlstate)) s
  | lost (hlost : ∀ n, (k, n) ∉ s.sessions) : Exec s k q (.error .lost) s

variable {s s' : Catalog κ} {k : κ} {q : Statement} {rows : Bool} {n : String}

theorem create_answer (h : s.answer k (.createDatabase n) = .ok (rows, s')) :
    n ∉ s.databases ∧ (∀ x ∈ s.sessions, x.2 = sampleTempDb → x.1 = k) ∧
      s' = { s with databases := n :: s.databases } := by
  simp only [answer] at h
  split at h
  · cases h
  · split at h
    · cases h
      exact ⟨‹_›, ‹_›, rfl⟩
    · cases h

theorem grant_answer {user : String} (h : s.answer k (.grant n user) = .ok (rows, s')) :
    s' = s := by
  simp only [answer] at h
  split at h
  · cases h
    rfl
  · cases h

theorem drop_answer (h : s.answer k (.dropDatabase n) = .ok (rows, s')) :
    (∀ x ∈ s.sessions, x.2 ≠ n) ∧ s' = { s with databases := s.databases.filter (· ≠ n) } := by
  simp only [answer] at h
  split at h
  · cases h
  · split at h
    · cases h
    · cases h
      exact ⟨fun x hx hn => ‹¬∃ x ∈ s.sessions, x.2 = n› ⟨x, hx, hn⟩, rfl⟩

theorem sessions_answer (h : s.answer k q = .ok (rows, s')) : s'.sessions ⊆ s.sessions := by
  cases q with
  | createDatabase n => exact (create_answer h).2.2 ▸ List.Subset.refl _
  | grant n user => exact grant_answer h ▸ List.Subset.refl _
  | dropDatabase n => exact (drop_answer h).2 ▸ List.Subset.refl _
  | terminateAllDbConnections n =>
    cases h
    exact List.filter_subset_self _
  | _ =>
    cases h
    exact List.Subset.refl _

theorem mem_of_duplicate (h : s.answer k q = .error duplicateDatabase) :
    ∃ n, q = .createDatabase n ∧ n ∈ s.databases := by
  cases q with
  | createDatabase n =>
    simp only [answer] at h
    split at h
    · exact ⟨n, rfl, ‹_›⟩
    · split at h <;> simp [duplicateDatabase] at h
  | dropDatabase n =>
    simp only [answer] at h
    split at h
    · simp [duplicateDatabase] at h
    · split at h <;> simp [duplicateDatabase] at h
  | grant n user =>
    simp only [answer] at h
    split at h <;> simp [duplicateDatabase] at h
  | _ => cases h

def server (κ : Type) [DecidableEq κ] (host : String) (port : UInt32) : DbServer κ where
  host
  port
  State := Catalog κ
  databases s := { n | n ∈ s.databases }
  sessions s := { x | x ∈ s.sessions }
  Connect s k c s' :=
    c.dbname ∈ s.databases ∧ s' = { s with sessions := (k, c.dbname) :: s.sessions }
  Exec := Exec
  Close s k s' := s' = s.close k
  databases_connect := by
    rintro s k c s' ⟨-, rfl⟩
    rfl
  sessions_connect := by
    rintro s k c s' ⟨hmem, rfl⟩ - - - - - -
    exact ⟨hmem, fun x hx => List.mem_cons.mp hx⟩
  databases_close := by
    rintro s k s' rfl
    rfl
  sessions_close := by
    rintro s k s' rfl x hx
    simpa [close] using hx
  sessions_exec := by
    intro s k q r s' h
    cases h with
    | ok _ h => exact sessions_answer h
    | _ => exact Set.Subset.refl _
  connected_exec := by
    intro s k q r s' h hr
    cases h with
    | ok hlive _ => exact ⟨_, hlive⟩
    | error hlive _ => exact ⟨_, hlive⟩
    | lost _ => exact absurd rfl hr
  check_exec := by
    rintro s k n rows s' - ⟨_, h⟩
    cases h
    simp
  create_exec := by
    rintro s k n rows s' - ⟨_, h⟩
    obtain ⟨habsent, halone, rfl⟩ := create_answer h
    refine ⟨habsent, fun j hj => halone _ hj rfl, ?_⟩
    ext
    simp
  grant_exec := by
    rintro s k n user rows s' - - ⟨_, h⟩
    rw [grant_answer h]
  terminate_exec := by
    rintro s k n rows s' - ⟨_, h⟩
    cases h
    rfl
  drop_exec := by
    rintro s k n rows s' - ⟨_, h⟩
    obtain ⟨hfree, rfl⟩ := drop_answer h
    refine ⟨fun j hj => hfree _ hj rfl, ?_⟩
    ext
    simp
  failed_exec := by
    rintro s k q sqlstate s' ⟨_, _⟩
    rfl
  lost_exec := by
    rintro s k q s' ⟨_⟩
    exact .inl rfl
  duplicate_exec := by
    intro s k q s' _ h
    cases h with
    | error _ h => exact mem_of_duplicate h

def step {host : String} {port : UInt32} (s : Site (server κ host port)) :
    κ × Site.Act → Option (Site (server κ host port))
  | (k, .call c) =>
    match s.script k with
    | .done _ => if ∀ x ∈ s.server.sessions, x.1 ≠ k then some (s.goOn s.server k c.script) else none
    | _ => none
  | (k, .next) =>
    match s.script k with
    | .done _ => none
    | .tryConnect c service next =>
      if c.dbname ∈ s.server.databases then
        some (s.goOn { s.server with sessions := (k, c.dbname) :: s.server.sessions } k next)
      else some (s.goOn s.server k (.done (.error (.brokenConnection service c.getVerboseName))))
    | .exec q next =>
      match s.server.sessions.find? fun x => x.1 = k, s.server.answer k q with
      | none, _ => some (s.goOn s.server k (Site.raise .escaped))
      | some _, .error sqlstate => some (s.goOn s.server k (Site.raise (.sqlError q.text sqlstate)))
      | some _, .ok (rows, t) => some (s.goOn t k (next rows))
    | .finish next => some (s.goOn s.server k next)
    | .disconnect next => some (s.goOn (s.server.close k) k next)
  | (k, .close) =>
    match s.script k with
    | .done _ => some { s with server := s.server.close k }
    | _ => none
  | (k, .lost) => some { s with server := s.server.close k }

theorem thrown {host : String} {port : UInt32} {s : Site (server κ host port)} {k : κ}
    {q : Statement} {next : Bool → Script} {refusal : Refusal} (hscript : s.script k = .exec q next)
    (hexec : Exec s.server k q (.error refusal) s.server) :
    Site.Step s (k, .next) (s.goOn s.server k (Site.raise (refusal.halt q.text))) :=
  .thrown hscript hexec

theorem exec_sound {host : String} {port : UInt32} {s t : Site (server κ host port)} {k : κ}
    {q : Statement} {next : Bool → Script} (hscript : s.script k = .exec q next)
    (h : step s (k, .next) = some t) : Site.Step s (k, .next) t := by
  simp only [step, hscript] at h
  split at h
  · rename_i hfind
    cases h
    have hexec : Exec s.server k q (.error .lost) s.server := .lost fun n hn => by
      simpa using List.find?_eq_none.mp hfind _ hn
    exact thrown hscript hexec
  · rename_i x sqlstate hfind hanswer
    cases h
    obtain rfl : x.1 = k := by simpa using List.find?_some hfind
    have hexec : Exec s.server x.1 q (.error (.sqlError sqlstate)) s.server :=
      .error (List.mem_of_find?_eq_some hfind) hanswer
    exact thrown hscript hexec
  · rename_i x rows t hfind hanswer
    cases h
    obtain rfl : x.1 = k := by simpa using List.find?_some hfind
    exact .executed hscript (.ok (List.mem_of_find?_eq_some hfind) hanswer)

theorem step_sound {host : String} {port : UInt32} {s t : Site (server κ host port)}
    {a : κ × Site.Act} (h : step s a = some t) : Site.Step s a t := by
  obtain ⟨k, act⟩ := a
  cases act with
  | call c =>
    simp only [step] at h
    split at h
    · split at h
      · cases h
        exact .called ‹_› fun n hn => ‹∀ x ∈ s.server.sessions, x.1 ≠ k› _ hn rfl
      · cases h
    · cases h
  | next =>
    cases hscript : s.script k with
    | done result =>
      simp only [step, hscript] at h
      cases h
    | tryConnect c service next =>
      simp only [step, hscript] at h
      split at h
      · cases h
        exact .connected hscript ⟨‹_›, rfl⟩
      · cases h
        exact .broken hscript
    | exec q next => exact exec_sound hscript h
    | finish next =>
      simp only [step, hscript] at h
      cases h
      exact .finished hscript
    | disconnect next =>
      simp only [step, hscript] at h
      cases h
      exact .disconnected hscript rfl
  | close =>
    simp only [step] at h
    split at h
    · cases h
      exact .closed ‹_› rfl
    · cases h
  | lost =>
    cases h
    exact .lost rfl

theorem run_of_exec {host : String} {port : UInt32} {s t : Site (server κ host port)}
    {es : List (κ × Site.Act)} (h : exec step s es = some t) : Run Site.Step s es t :=
  (run_ofFun_iff.mpr h).mono fun _ _ _ h => step_sound h

end Catalog

end DistributedMathArh.Db
