import Mathlib.Logic.Function.Basic
import DistributedMathArh.Db.Service

namespace DistributedMathArh.Db

open Transition

abbrev Directory := String → Option (Nat × String)

namespace Directory

def create (d : Directory) (login : String) (userId : Nat) (password : String) : Directory :=
  Function.update d login (some (userId, password))

def delete (d : Directory) (userId : Nat) : Directory := fun login =>
  (d login).filter fun p => p.1 ≠ userId

def after (d : Directory) : Call × Reply → Directory
  | (.createUser login password _, .id k) =>
    match toVarchar 255 (param login) with
    | some l => d.create l.text.val k (param password).val
    | none => d
  | (.deleteUser userId, .unit) => d.delete userId.toNat
  | _ => d

theorem after_createUser {d : Directory} {login password role : String} {l : Varchar 255} {k : Nat}
    (h : toVarchar 255 (param login) = some l) :
    d.after (.createUser login password role, .id k) =
      d.create l.text.val k (param password).val := by
  simp only [after, h]

end Directory

def UserRow.entry (u : UserRow) : Nat × String := (u.userId, u.hashedPassword.val)

def Database.directory (db : Database) : Directory := fun login =>
  (db.users.rows.find? fun u => u.login.text.val = login).map UserRow.entry

namespace Database

variable {db : Database} {u : UserRow} {login : String} {p : Nat × String}

theorem filter_login (hu : u ∈ db.users.rows) :
    (db.users.rows.filter fun x => x.login.text = u.login.text) = [u] := by
  rw [← filter_eq_of_nodup_map UserRow.login db.login_nodup hu]
  apply congrArg (List.filter · _)
  funext x
  exact decide_eq_decide.mpr Varchar.ext_iff.symm

theorem directory_eq_some :
    db.directory login = some p ↔ ∃ u ∈ db.users.rows, u.login.text.val = login ∧ u.entry = p := by
  rw [directory, Option.map_eq_some_iff]
  constructor
  · rintro ⟨u, hu, hp⟩
    have hlogin := List.find?_some hu
    exact ⟨u, List.mem_of_find?_eq_some hu, by simpa using hlogin, hp⟩
  · rintro ⟨u, hu, rfl, hp⟩
    refine ⟨u, ?_, hp⟩
    have hfilter := filter_login hu
    simp only [Text.ext_iff] at hfilter
    rw [← List.head?_filter, hfilter, List.head?_cons]

theorem directory_congr {db' : Database} (h : db'.users.rows = db.users.rows) :
    db'.directory = db.directory := by
  funext login
  rw [directory, directory, h]

theorem directory_insertUser {l : Varchar 255} {hashedPassword : Text} {role : UserRole}
    {now : String} {k : Nat} {db' : Database}
    (h : db.insertUser l hashedPassword role now = (.ok k, db')) :
    db'.directory = db.directory.create l.text.val k hashedPassword.val := by
  unfold insertUser at h
  split at h
  · cases h
  · split at h
    · cases h
    · rename_i hfresh
      cases h
      funext login
      apply Option.ext
      intro p
      rw [directory_eq_some, Directory.create, Function.update_apply]
      simp only [Table.mem_insert]
      split
      · rename_i hlogin
        subst hlogin
        constructor
        · rintro ⟨u, hu | rfl, hul, rfl⟩
          · exact absurd (List.mem_map.mpr ⟨u, hu, Varchar.ext (Text.ext hul)⟩) hfresh
          · rfl
        · intro hp
          cases hp
          exact ⟨_, .inr rfl, rfl, rfl⟩
      · rename_i hlogin
        rw [directory_eq_some]
        constructor
        · rintro ⟨u, hu | rfl, hul, hp⟩
          · exact ⟨u, hu, hul, hp⟩
          · exact absurd hul.symm hlogin
        · rintro ⟨u, hu, hul, hp⟩
          exact ⟨u, .inl hu, hul, hp⟩

theorem directory_setLastLogin (db : Database) (login : Text) (now : String) :
    (db.setLastLogin login now).directory = db.directory := by
  have hentry (u : UserRow) : (u.setLastLogin login now).entry = u.entry := by
    unfold UserRow.setLastLogin
    split <;> rfl
  funext l
  apply Option.ext
  intro p
  rw [directory_eq_some, directory_eq_some, setLastLogin]
  simp only [Table.mem_update]
  constructor
  · rintro ⟨v, ⟨u, hu, rfl⟩, hl, hp⟩
    exact ⟨u, hu, UserRow.login_setLastLogin login now u ▸ hl, hentry u ▸ hp⟩
  · rintro ⟨u, hu, rfl, hp⟩
    exact ⟨_, ⟨u, hu, rfl⟩, by rw [UserRow.login_setLastLogin], hentry u ▸ hp⟩

theorem directory_deleteUser {k : Nat} {db' : Database} (h : db.deleteUser k = (.ok (), db')) :
    db'.directory = db.directory.delete k := by
  unfold deleteUser at h
  split at h
  · cases h
  · cases h
    funext l
    apply Option.ext
    intro p
    rw [directory_eq_some, Directory.delete, Option.filter_eq_some_iff, directory_eq_some]
    simp only [Table.delete, List.mem_filter]
    constructor
    · rintro ⟨u, ⟨hu, hk⟩, hl, rfl⟩
      exact ⟨⟨u, hu, hl, rfl⟩, hk⟩
    · rintro ⟨⟨u, hu, hl, rfl⟩, hk⟩
      exact ⟨u, ⟨hu, hk⟩, hl, rfl⟩

end Database

namespace DbService

variable {J : JsonColumn} {s t : DbService}

theorem after_halt (d : Directory) (c : Call) (e : DbHalt) : d.after (c, .halt e) = d := by
  cases c <;> rfl

theorem directory_executeTransaction {α : Type} {func : Txn α} {reply : α → Reply} {c : Call}
    {r : Reply}
    (h : ∀ a db, func s.db = (.ok a, db) → db.directory = s.db.directory.after (c, reply a))
    (ht : (executeTransaction func s).map (.of reply) id = (r, t)) :
    t.db.directory = s.db.directory.after (c, r) := by
  cases hx : executeTransaction func s with
  | mk x u =>
    rw [hx] at ht
    cases ht
    obtain ⟨a, db, -, rfl, hfunc, rfl⟩ | ⟨⟨e, rfl⟩, hu⟩ := executeTransaction_cases hx
    · exact h a db hfunc
    · rw [Reply.of, after_halt]
      cases hu with
      | inl hu => exact hu ▸ rfl
      | inr hu =>
        obtain ⟨db, rfl⟩ := hu
        exact Database.directory_congr rfl

theorem directory_of_keeps {α : Type} {func : Txn α} {reply : α → Reply} {c : Call} {r : Reply}
    (h : func.Keeps fun db => db.users.rows = s.db.users.rows)
    (hc : ∀ d : Directory, ∀ r, d.after (c, r) = d)
    (ht : (executeTransaction func s).map (.of reply) id = (r, t)) :
    t.db.directory = s.db.directory.after (c, r) := by
  apply directory_executeTransaction _ ht
  intro a db hfunc
  rw [hc]
  exact Database.directory_congr (h _ a db rfl hfunc)

theorem keeps_users_innerLog {rows : List UserRow} {experimentId nodeId : Option Nat}
    {severity message now : String} :
    (innerLog experimentId nodeId severity message now).Keeps fun db => db.users.rows = rows :=
  keeps_innerLog fun _ _ => id

theorem directory_step {a : Call × Reply} (h : s.Step J a t) :
    t.db.directory = s.db.directory.after a := by
  obtain ⟨c, r⟩ := a
  obtain ⟨now, h⟩ := h
  cases c with
  | createUser login password role =>
    apply directory_executeTransaction _ h
    intro k db hfunc
    obtain ⟨_, -, hfunc⟩ := Txn.bind_orFail_eq_ok.mp hfunc
    obtain ⟨_, hl, hfunc⟩ := Txn.bind_orFail_eq_ok.mp hfunc
    rw [Directory.after_createUser hl]
    exact Database.directory_insertUser (Txn.exec_eq_ok.mp hfunc)
  | authenticateUser login password =>
    apply directory_executeTransaction _ h
    intro b db hfunc
    unfold authenticateTxn at hfunc
    split at hfunc
    · split at hfunc
      · cases hfunc
        exact Database.directory_setLastLogin _ _ _
      · cases hfunc
        rfl
    · cases hfunc
  | deleteUser userId =>
    apply directory_executeTransaction _ h
    intro _ db hfunc
    obtain ⟨k, hk, hfunc⟩ := Txn.bind_orFail_eq_ok.mp hfunc
    cases toNat_of_bigint hk
    exact Database.directory_deleteUser (Txn.exec_eq_ok.mp hfunc)
  | createExperiment userId parameters =>
    refine directory_of_keeps ?_ (fun _ _ => rfl) h
    refine .bind .orFail fun user => .bind .orFail fun text => .bind (.exec ?_) fun k =>
      .bind keeps_users_innerLog fun _ => .pure
    intro db k db' hdb hk
    obtain ⟨_, _, rfl, -⟩ := Database.insertExperiment_eq_ok hk
    exact hdb
  | updateExperimentStatus experimentId status =>
    refine directory_of_keeps ?_ (fun _ _ => rfl) h
    refine .bind .orFail fun st => .bind .orFail fun experiment => .bind (.exec ?_) fun _ =>
      .bind keeps_users_innerLog fun _ => .pure
    intro db _ db' hdb hk
    cases hk
    exact hdb
  | createIteration experimentId nodeId iterType =>
    refine directory_of_keeps ?_ (fun _ _ => rfl) h
    refine .bind .orFail fun experiment => .bind .orFail fun node => .bind .orFail fun iterT =>
      .bind (.exec ?_) fun k => .bind keeps_users_innerLog fun _ => .pure
    intro db k db' hdb hk
    obtain ⟨_, _, rfl, -⟩ := Database.insertIteration_eq_ok hk
    exact hdb
  | updateIterationStatus iterationId status outputData =>
    refine directory_of_keeps ?_ (fun _ _ => rfl) h
    refine .bind .orFail fun st => .bind .orFail fun output => .bind .orFail fun iteration =>
      .bind (.exec ?_) fun _ => .bind keeps_users_innerLog fun _ => .pure
    intro db _ db' hdb hk
    cases hk
    exact hdb

theorem directory_of_run {s₀ : DbService} {history : List (Call × Reply)}
    (run : Run (Step J) s₀ history s) :
    s.db.directory = history.foldl Directory.after s₀.db.directory := by
  apply run.invariant_trace (I := fun history s =>
    s.db.directory = history.foldl Directory.after s₀.db.directory) rfl
  intro history s a t hs hstep
  rw [directory_step hstep, hs, List.foldl_append]
  rfl

theorem authenticateTxn_of_none {db : Database} {login : String} (password now : String)
    (h : db.directory (param login).val = none) :
    ∃ e, authenticateTxn login password now db = (.error e, db) := by
  have hnil : (db.users.rows.filter fun u => u.login.text = param login) = [] := by
    apply List.filter_eq_nil_iff.mpr
    intro u hu
    have hne : u.login.text ≠ param login := by
      intro e
      have hsome := Database.directory_eq_some.mpr ⟨u, hu, congrArg Text.val e, rfl⟩
      cases h.symm.trans hsome
    simpa using hne
  rw [authenticateTxn, hnil]
  exact ⟨_, rfl⟩

theorem authenticateTxn_of_some {db : Database} {login : String} {k : Nat} {stored : String}
    (password now : String) (h : db.directory (param login).val = some (k, stored)) :
    authenticateTxn login password now db =
      if stored = password then (.ok true, db.setLastLogin (param login) now)
      else (.ok false, db) := by
  obtain ⟨u, hu, hlogin, hentry⟩ := Database.directory_eq_some.mp h
  cases hentry
  have hlogin : u.login.text = param login := Text.ext hlogin
  have hrow := Database.filter_login hu
  rw [hlogin] at hrow
  rw [authenticateTxn, hrow]

def Authenticates (s : DbService) (d : Directory) (login password now : String) : Prop :=
  ((∃ k, d login = some (k, password)) → (s.authenticateUser login password now).1 = .ok true) ∧
  ((¬ ∃ k, d login = some (k, password)) → s.authenticateUser login password now = (.ok false, s))

theorem not_authenticates_of_error {d : Directory} {login password now : String} {e : DbHalt}
    (h : s.authenticateUser login password now = (.error e, t)) :
    ¬ s.Authenticates d login password now := by
  unfold Authenticates
  rw [h]
  rintro ⟨hstored, hother⟩
  cases Classical.em (∃ k, d login = some (k, password)) with
  | inl hd => cases hstored hd
  | inr hd => cases hother hd

theorem param_eq_of_directory {db : Database} {login : String} {p : Nat × String}
    (h : db.directory login = some p) : (param login).val = login := by
  obtain ⟨u, -, rfl, -⟩ := Database.directory_eq_some.mp h
  exact param_val u.login.text

/-- After any calls `AuthenticateUser` tells whether the password is the stored one exactly if the
service is connected and the login, up to its first NUL, has a user; a login with a NUL in it has
none, so then the password must be a wrong one. -/
theorem authenticates_iff {s₀ : DbService} {history : List (Call × Reply)}
    (run : Run (Step J) s₀ history s) (login password now : String) :
    s.Authenticates (history.foldl Directory.after s₀.db.directory) login password now ↔
      s.connected = true ∧ ∃ k stored,
        (history.foldl Directory.after s₀.db.directory) (param login).val = some (k, stored) ∧
          ((param login).val = login ∨ stored ≠ password) := by
  rw [← directory_of_run run]
  cases hc : s.connected with
  | false =>
    apply iff_of_false (not_authenticates_of_error (executeTransaction_of_not_connected _ hc))
    simp
  | true =>
    cases hd : s.db.directory (param login).val with
    | none =>
      obtain ⟨e, he⟩ := authenticateTxn_of_none password now hd
      apply iff_of_false (not_authenticates_of_error (executeTransaction_error hc he))
      simp
    | some p =>
      obtain ⟨k, stored⟩ := p
      have hauth := authenticateTxn_of_some password now hd
      unfold Authenticates authenticateUser
      split at hauth
      · rename_i heq
        subst heq
        rw [executeTransaction_ok hc hauth]
        constructor
        · rintro ⟨-, hother⟩
          obtain ⟨k', hk'⟩ := not_not.mp fun hno => by cases hother hno
          exact ⟨rfl, k, stored, rfl, .inl (param_eq_of_directory hk')⟩
        · rintro ⟨-, _, _, hp, hlogin⟩
          cases hp
          have hlogin := hlogin.resolve_right fun hne => hne rfl
          exact ⟨fun _ => rfl, fun hno => absurd ⟨k, hlogin ▸ hd⟩ hno⟩
      · rename_i hne
        rw [executeTransaction_ok hc hauth]
        apply iff_of_true
        · refine ⟨fun ⟨k', hk'⟩ => ?_, fun _ => rfl⟩
          rw [param_eq_of_directory hk', hk'] at hd
          cases hd
          exact absurd rfl hne
        · exact ⟨rfl, k, stored, rfl, .inr hne⟩

theorem authenticates_iff_alice :
    ∃ t, Run (Step plainText) (fresh []) [(.createUser "alice" "secret" "user", .id 1)] t ∧
      t.Authenticates
        ([(.createUser "alice" "secret" "user", .id 1)].foldl Directory.after (fresh []).db.directory)
        "alice" "secret" "2025-05-01 12:00:00.5" := by
  have run : Run (Step plainText) (fresh []) [(.createUser "alice" "secret" "user", .id 1)] _ :=
    .single ⟨"2025-05-01 11:00:00.5", rfl⟩
  exact ⟨_, run, (authenticates_iff run _ _ _).mpr ⟨rfl, 1, "secret", by decide, .inl (by decide)⟩⟩

theorem not_authenticates :
    Run (Step plainText) (fresh []) [] (fresh []) ∧
      ((fresh []).authenticateUser "bob" "secret" "2025-05-01 12:00:00.5").1 =
        .error (.unexpectedRows "SELECT hashed_password FROM \"User\" WHERE login = $1" 1 0) ∧
      ¬ (fresh []).Authenticates ([].foldl Directory.after (fresh []).db.directory) "bob" "secret"
        "2025-05-01 12:00:00.5" := by
  have hcall : ((fresh []).authenticateUser "bob" "secret" "2025-05-01 12:00:00.5").1 =
      .error (.unexpectedRows "SELECT hashed_password FROM \"User\" WHERE login = $1" 1 0) := rfl
  exact ⟨.nil, hcall, not_authenticates_of_error (Prod.ext hcall rfl)⟩

end DbService

end DistributedMathArh.Db
