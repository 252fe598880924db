import DistributedMathArh.Db.Service

namespace DistributedMathArh.Db

open Transition

structure Stable (P : Database → Prop) (touched : Nat → Prop) : Prop where
  rollback : ∀ db db', P db → P (db.rollback db')
  users : ∀ db users h, P db → P { db with users, login_nodup := h }
  logs : ∀ db logs, P db → P { db with logs }
  insertExperiment : ∀ db userId text now k db', P db →
    db.insertExperiment userId text now = (.ok k, db') → P db'
  setExperimentStatus : ∀ db k status now, P db → P (db.setExperimentStatus k status now)
  insertIteration : ∀ db experimentId nodeId iterT now k db', P db →
    db.insertIteration experimentId nodeId iterT now = (.ok k, db') → P db'
  setIterationStatus : ∀ db k status output now, (touched k → output = none) → P db →
    P (db.setIterationStatus k status output now)

def Call.Overwrites (touched : Nat → Prop) : Call → Prop
  | .updateIterationStatus iterationId _ outputData => touched iterationId.toNat ∧ DbService.isNull outputData = false
  | _ => False

section Stable

variable {J : JsonColumn} {P : Database → Prop} {touched : Nat → Prop} {s t : DbService}

theorem Stable.executeTransaction {α : Type} {func : Txn α} {reply : α → Reply} {r : Reply}
    (hP : Stable P touched) (h : func.Keeps P)
    (ht : (DbService.executeTransaction func s).map (.of reply) id = (r, t)) (hs : P s.db) :
    P t.db := by
  cases hx : DbService.executeTransaction func s with
  | mk x u =>
    rw [hx] at ht
    cases ht
    obtain ⟨a, db, -, -, hfunc, rfl⟩ | ⟨-, rfl | ⟨db, rfl⟩⟩ := DbService.executeTransaction_cases hx
    · exact h _ a db hs hfunc
    · exact hs
    · exact hP.rollback _ db hs

theorem Stable.step (hP : Stable P touched) {a : Call × Reply} (h : s.Step J a t)
    (ha : ¬ a.1.Overwrites touched) (hs : P s.db) : P t.db := by
  obtain ⟨c, r⟩ := a
  obtain ⟨now, h⟩ := h
  cases c with
  | createUser login password role =>
    refine hP.executeTransaction (.bind .orFail fun role => .bind .orFail fun login => .exec ?_) h hs
    intro db k db' hdb hk
    obtain ⟨_, _, rfl⟩ := Database.insertUser_eq_ok hk
    exact hP.users _ _ _ hdb
  | authenticateUser login password =>
    refine hP.executeTransaction ?_ h hs
    intro db b db' hdb hk
    unfold DbService.authenticateTxn at hk
    split at hk
    · split at hk
      · cases hk
        exact hP.users _ _ _ hdb
      · cases hk
        exact hdb
    · cases hk
  | deleteUser userId =>
    refine hP.executeTransaction (.bind .orFail fun k => .exec ?_) h hs
    intro db _ db' hdb hk
    obtain ⟨_, _, rfl⟩ := Database.deleteUser_eq_ok hk
    exact hP.users _ _ _ hdb
  | createExperiment userId parameters =>
    refine hP.executeTransaction (.bind .orFail fun user => .bind .orFail fun text =>
      .bind (.exec ?_) fun k => .bind (DbService.keeps_innerLog hP.logs) fun _ => .pure) h hs
    exact fun db k db' hdb hk => hP.insertExperiment _ _ _ _ _ _ hdb hk
  | updateExperimentStatus experimentId status =>
    refine hP.executeTransaction (.bind .orFail fun st => .bind .orFail fun experiment =>
      .bind (.exec ?_) fun _ => .bind (DbService.keeps_innerLog hP.logs) fun _ => .pure) h hs
    intro db _ db' hdb hk
    cases hk
    exact hP.setExperimentStatus _ _ _ _ hdb
  | createIteration experimentId nodeId iterType =>
    refine hP.executeTransaction (.bind .orFail fun experiment => .bind .orFail fun node =>
      .bind .orFail fun iterT => .bind (.exec ?_) fun k =>
        .bind (DbService.keeps_innerLog hP.logs) fun _ => .pure) h hs
    exact fun db k db' hdb hk => hP.insertIteration _ _ _ _ _ _ _ hdb hk
  | updateIterationStatus iterationId status outputData =>
    refine hP.executeTransaction (.bind .orFail fun st => .bind_orFail fun output houtput =>
      .bind_orFail fun iteration hiteration => .bind (.exec ?_) fun _ =>
        .bind (DbService.keeps_innerLog hP.logs) fun _ => .pure) h hs
    intro db _ db' hdb hk
    cases hk
    refine hP.setIterationStatus _ _ _ _ _ (fun htouched => ?_) hdb
    split at houtput
    · cases houtput
      rfl
    · rename_i hnull
      rw [← toNat_of_bigint hiteration] at htouched
      exact absurd ⟨htouched, by simpa using hnull⟩ ha

theorem Stable.run (hP : Stable P touched) {history : List (Call × Reply)}
    (run : Run (DbService.Step J) s history t) (hs : P s.db)
    (h : ∀ a ∈ history, ¬ a.1.Overwrites touched) : P t.db := by
  have hall : (∀ a ∈ history, ¬ a.1.Overwrites touched) → P t.db := by
    apply run.invariant_trace (I := fun history t =>
      (∀ a ∈ history, ¬ a.1.Overwrites touched) → P t.db) (fun _ => hs)
    intro history t a u ih hstep hhistory
    have ht := ih fun a ha => hhistory a (List.mem_append_left _ ha)
    exact hP.step hstep (hhistory a (List.mem_append_right _ (List.mem_singleton_self a))) ht
  exact hall h

end Stable

namespace Database

def HasParameters (k : Nat) (text : String) (db : Database) : Prop :=
  ∃ row ∈ db.experiments.rows, row.experimentId = k ∧ row.parameters = text

def HasOutput (k : Nat) (text : String) (db : Database) : Prop :=
  ∃ row ∈ db.iterations.rows, row.iterationId = k ∧ row.outputData = some text

theorem stable_hasParameters (k : Nat) (text : String) :
    Stable (HasParameters k text) fun _ => False where
  rollback _ _ h := h
  users _ _ _ h := h
  logs _ _ h := h
  insertExperiment db userId text now k db' h hk := by
    obtain ⟨row, hrow, hp⟩ := h
    obtain ⟨experiments, _, rfl, hrows, -⟩ := insertExperiment_eq_ok hk
    exact ⟨row, hrows ▸ List.mem_append_left _ hrow, hp⟩
  setExperimentStatus db k status now h := by
    obtain ⟨row, hrow, hp⟩ := h
    refine ⟨_, List.mem_map_of_mem hrow, ?_⟩
    rwa [ExperimentRow.experimentId_setStatus, ExperimentRow.parameters_setStatus]
  insertIteration db experimentId nodeId iterT now k db' h hk := by
    obtain ⟨_, _, rfl, -⟩ := insertIteration_eq_ok hk
    exact h
  setIterationStatus _ _ _ _ _ _ h := h

theorem stable_hasOutput (k : Nat) (text : String) : Stable (HasOutput k text) (· = k) where
  rollback _ _ h := h
  users _ _ _ h := h
  logs _ _ h := h
  insertExperiment db userId text now k db' h hk := by
    obtain ⟨_, _, rfl, -⟩ := insertExperiment_eq_ok hk
    exact h
  setExperimentStatus _ _ _ _ h := h
  insertIteration db experimentId nodeId iterT now k db' h hk := by
    obtain ⟨row, hrow, hp⟩ := h
    obtain ⟨iterations, _, rfl, hrows, -⟩ := insertIteration_eq_ok hk
    exact ⟨row, hrows ▸ List.mem_append_left _ hrow, hp⟩
  setIterationStatus db l status output now hoverwrite h := by
    obtain ⟨row, hrow, hk, htext⟩ := h
    refine ⟨_, List.mem_map_of_mem hrow, ?_⟩
    rw [IterationRow.iterationId_setStatus,
      IterationRow.outputData_setStatus fun hl => hoverwrite (hl.symm.trans hk)]
    exact ⟨hk, htext⟩

end Database

section Read

variable {mktime : Tm → Int} {scan : Scan} {s : DbService}

theorem Experiment.ofRow_eq_ok {row : ExperimentRow} {e : Experiment}
    (h : ofRow mktime row = .ok e) :
    e.experimentId = row.experimentId ∧ e.parameters = .string row.parameters := by
  obtain ⟨_, -, h⟩ := bind_eq_ok.mp h
  obtain ⟨_, -, h⟩ := bind_eq_ok.mp h
  obtain ⟨_, -, h⟩ := bind_eq_ok.mp h
  obtain ⟨_, -, h⟩ := bind_eq_ok.mp h
  cases h
  exact ⟨rfl, rfl⟩

theorem Iteration.ofRow_eq_ok {row : IterationRow} {i : Iteration} (h : ofRow mktime row = .ok i) :
    i.iterationId = row.iterationId ∧
      i.outputData = .string (row.outputData.getD "\x7b\x7d") := by
  obtain ⟨_, -, h⟩ := bind_eq_ok.mp h
  obtain ⟨_, -, h⟩ := bind_eq_ok.mp h
  obtain ⟨_, -, h⟩ := bind_eq_ok.mp h
  obtain ⟨_, -, h⟩ := bind_eq_ok.mp h
  cases h
  exact ⟨rfl, rfl⟩

theorem paginate_eq_ok {R : Type} {query : String} {pageNum pageSize : UInt64}
    {rows page : List R} : paginate query pageNum pageSize rows = .ok page ↔
      pageSize.toNat ≤ Database.maxSerial ∧
        ((pageNum - 1) * pageSize).toNat ≤ Database.maxSerial ∧
        page = (rows.drop ((pageNum - 1) * pageSize).toNat).take pageSize.toNat := by
  unfold paginate bigint
  generalize (pageNum - 1) * pageSize = offset
  dsimp only
  split_ifs with hsize hoffset
  · simp [hsize, hoffset, eq_comm]
  · simp [hoffset]
  · simp [hsize]

namespace DbService

theorem read_eq_ok {α : Type} {query : Database → Except DbHalt α} {a : α} :
    s.read query = .ok a ↔ s.connected = true ∧ query s.db = .ok a := by
  unfold read executeTransaction
  split
  · rename_i hc
    cases hq : query s.db <;> simp [hc, hq]
  · rename_i hc
    simp [hc]

theorem oneRow_eq_ok {R : Type} {query : String} {rows : List R} {row : R}
    (h : oneRow query rows = .ok row) : row ∈ rows := by
  unfold oneRow at h
  split at h
  · cases h
    exact List.mem_singleton_self row
  · cases h

theorem mem_of_paginate {R : Type} {query : String} {pageNum pageSize : UInt64} {rows page : List R}
    {row : R} (h : paginate query pageNum pageSize rows = .ok page) (hrow : row ∈ page) :
    row ∈ rows := by
  obtain ⟨-, -, rfl⟩ := paginate_eq_ok.mp h
  exact List.mem_of_mem_drop (List.mem_of_mem_take hrow)

theorem selectOne_eq_ok {R D : Type} {query : String} {select : Database → Nat → List R}
    {ofRow : R → Except DbHalt D} {key : UInt64} {d : D}
    (h : s.selectOne query select ofRow key = .ok d) : ∃ k, ∃ row ∈ select s.db k, ofRow row = .ok d := by
  have hquery := (read_eq_ok.mp h).2
  split at hquery
  · obtain ⟨row, hrow, hof⟩ := bind_eq_ok.mp hquery
    exact ⟨_, row, oneRow_eq_ok hrow, hof⟩
  · cases hquery

theorem selectPage_eq_ok {R D : Type} {query : String} {select : Database → Nat → List R}
    {ofRow : R → Except DbHalt D} {key pageNum pageSize : UInt64} {ds : List D} :
    s.selectPage scan query select ofRow key pageNum pageSize = .ok ds ↔
      (s.connected = true ∧ key.toNat ≤ Database.maxSerial) ∧
        ∃ page, paginate query pageNum pageSize (scan.order (select s.db key.toNat)) = .ok page ∧
          page.mapM ofRow = .ok ds := by
  rw [selectPage, read_eq_ok, bigint]
  split_ifs with hkey
  · simp [hkey, bind_eq_ok]
  · simp [hkey]

theorem mem_selectPage {R D : Type} {query : String} {select : Database → Nat → List R}
    {ofRow : R → Except DbHalt D} {key pageNum pageSize : UInt64} {ds : List D} {d : D}
    (h : s.selectPage scan query select ofRow key pageNum pageSize = .ok ds) (hd : d ∈ ds) :
    ∃ k, ∃ row ∈ select s.db k, ofRow row = .ok d := by
  obtain ⟨-, page, hpage, hof⟩ := selectPage_eq_ok.mp h
  obtain ⟨row, hrow, hof⟩ := mem_of_mapM hof hd
  exact ⟨_, row, (scan.perm _).mem_iff.mp (mem_of_paginate hpage hrow), hof⟩

def ReadsExperiment (mktime : Tm → Int) (scan : Scan) (s : DbService) (e : Experiment) : Prop :=
  (∃ k, s.getExperiment mktime k = .ok e) ∨
  ∃ user pageNum pageSize es, s.listExperiments mktime scan user pageNum pageSize = .ok es ∧ e ∈ es

def ReadsIteration (mktime : Tm → Int) (scan : Scan) (s : DbService) (i : Iteration) : Prop :=
  (∃ k, s.getIteration mktime k = .ok i) ∨
  ∃ experiment pageNum pageSize is,
    s.listIterations mktime scan experiment pageNum pageSize = .ok is ∧ i ∈ is

theorem ReadsExperiment.row {e : Experiment} (h : ReadsExperiment mktime scan s e) :
    ∃ row ∈ s.db.experiments.rows,
      e.experimentId = row.experimentId ∧ e.parameters = .string row.parameters := by
  obtain ⟨k, h⟩ | ⟨user, pageNum, pageSize, es, h, he⟩ := h
  · obtain ⟨k, row, hrow, hof⟩ := selectOne_eq_ok h
    exact ⟨row, (Table.mem_select.mp hrow).1, Experiment.ofRow_eq_ok hof⟩
  · obtain ⟨k, row, hrow, hof⟩ := mem_selectPage h he
    exact ⟨row, List.mem_of_mem_filter hrow, Experiment.ofRow_eq_ok hof⟩

theorem ReadsIteration.row {i : Iteration} (h : ReadsIteration mktime scan s i) :
    ∃ row ∈ s.db.iterations.rows, i.iterationId = row.iterationId ∧
      i.outputData = .string (row.outputData.getD "\x7b\x7d") := by
  obtain ⟨k, h⟩ | ⟨experiment, pageNum, pageSize, is, h, hi⟩ := h
  · obtain ⟨k, row, hrow, hof⟩ := selectOne_eq_ok h
    exact ⟨row, (Table.mem_select.mp hrow).1, Iteration.ofRow_eq_ok hof⟩
  · obtain ⟨k, row, hrow, hof⟩ := mem_selectPage h hi
    exact ⟨row, List.mem_of_mem_filter hrow, Iteration.ofRow_eq_ok hof⟩

theorem ReadsExperiment.parameters_eq {e : Experiment} {text : String}
    (h : ReadsExperiment mktime scan s e) (hp : s.db.HasParameters e.experimentId text) :
    e.parameters = .string text := by
  obtain ⟨row, hrow, hkey, hparameters⟩ := h.row
  obtain ⟨row', hrow', hkey', rfl⟩ := hp
  rw [hparameters, Table.eq_of_key_eq hrow hrow' (hkey'.trans hkey).symm]

theorem ReadsIteration.outputData_eq {i : Iteration} {text : String}
    (h : ReadsIteration mktime scan s i) (ho : s.db.HasOutput i.iterationId text) :
    i.outputData = .string text := by
  obtain ⟨row, hrow, hkey, houtput⟩ := h.row
  obtain ⟨row', hrow', hkey', htext⟩ := ho
  rw [houtput, Table.eq_of_key_eq hrow hrow' (hkey'.trans hkey).symm, htext, Option.getD_some]

end DbService

end Read

section Restore

variable {J : JsonColumn} {mktime : Tm → Int} {scan : Scan} {s s₁ t : DbService}
  {history : List (Call × Reply)} {now : String}

theorem string_ne_of_parse {text : String} {v : Json.Value}
    (h : J.parse text = J.parse (J.write v)) : Json.Value.string text ≠ v := by
  rintro rfl
  have hparse := J.parse_write_string text
  rw [← h] at hparse
  exact Nat.lt_irrefl _ (J.length_lt text text hparse)

namespace DbService

theorem hasParameters_of_createExperiment {userId : UInt64} {p : Json.Value} {k : Nat}
    (h : s.createExperiment J userId p now = (.ok k, s₁)) :
    ∃ text, J.cast (J.write p) = some text ∧ s₁.db.HasParameters k text := by
  obtain ⟨_, db, -, ⟨⟩, hfunc, rfl⟩ | ⟨⟨e, ⟨⟩⟩, -⟩ := executeTransaction_cases h
  obtain ⟨user, -, hfunc⟩ := Txn.bind_orFail_eq_ok.mp hfunc
  obtain ⟨text, htext, hfunc⟩ := Txn.bind_orFail_eq_ok.mp hfunc
  obtain ⟨k', db₁, hinsert, hfunc⟩ := Txn.bind_eq_ok.mp hfunc
  obtain ⟨_, db₂, hlog, ⟨⟩⟩ := Txn.bind_eq_ok.mp hfunc
  refine ⟨text, htext, ?_⟩
  obtain ⟨experiments, row, rfl, hrows, hkey, -, hp⟩ :=
    Database.insertExperiment_eq_ok (Txn.exec_eq_ok.mp hinsert)
  refine keeps_innerLog (fun _ _ h => h) _ _ _ ?_ hlog
  exact ⟨row, hrows ▸ List.mem_append_right _ (List.mem_singleton_self row), hkey, hp⟩

theorem outputData_of_updateIterationStatus {iterationId : UInt64} {status : String}
    {d : Json.Value} (hd : isNull d = false)
    (h : s.updateIterationStatus J iterationId status d now = (.ok (), s₁)) :
    ∃ text, J.cast (J.write d) = some text ∧ ∀ row ∈ s₁.db.iterations.rows,
      row.iterationId = iterationId.toNat → row.outputData = some text := by
  obtain ⟨_, db, -, -, hfunc, rfl⟩ | ⟨⟨e, ⟨⟩⟩, -⟩ := executeTransaction_cases h
  obtain ⟨st, -, hfunc⟩ := Txn.bind_orFail_eq_ok.mp hfunc
  obtain ⟨output, houtput, hfunc⟩ := Txn.bind_orFail_eq_ok.mp hfunc
  obtain ⟨k, hk, hfunc⟩ := Txn.bind_orFail_eq_ok.mp hfunc
  obtain ⟨_, db₁, hupdate, hfunc⟩ := Txn.bind_eq_ok.mp hfunc
  obtain ⟨_, db₂, hlog, ⟨⟩⟩ := Txn.bind_eq_ok.mp hfunc
  rw [if_neg (by simp [hd])] at houtput
  obtain ⟨text, htext, rfl⟩ := Option.map_eq_some_iff.mp houtput
  refine ⟨text, htext, keeps_innerLog
    (P := fun db => ∀ row ∈ db.iterations.rows, row.iterationId = iterationId.toNat →
      row.outputData = some text) (fun _ _ h => h) _ _ _ ?_ hlog⟩
  cases Txn.exec_eq_ok.mp hupdate
  intro row hrow hkey
  obtain ⟨row, -, rfl⟩ := List.mem_map.mp hrow
  rw [IterationRow.iterationId_setStatus, toNat_of_bigint hk] at hkey
  rw [IterationRow.setStatus, if_pos hkey]
  rfl

/-- Whenever parameters are read back, they are the text of the column as a string value, which is
never the value that was written; and so are output data, at once and, of an iteration that is
there, for as long as no new ones are written. -/
theorem not_readBack (J : JsonColumn) (mktime : Tm → Int) (scan : Scan) :
    (∀ (s : DbService) userId p now k s₁ history t e,
      s.createExperiment J userId p now = (.ok k, s₁) → Run (Step J) s₁ history t →
      ReadsExperiment mktime scan t e → e.experimentId = k → e.parameters ≠ p) ∧
    ∀ (s : DbService) (iterationId : UInt64) status d now s₁, isNull d = false →
      s.updateIterationStatus J iterationId status d now = (.ok (), s₁) →
      (∀ i, ReadsIteration mktime scan s₁ i → i.iterationId = iterationId.toNat →
        i.outputData ≠ d) ∧
      (s₁.db.iterations.select iterationId.toNat ≠ [] → ∀ history t i, Run (Step J) s₁ history t →
        (∀ a ∈ history, ¬ a.1.Overwrites (· = iterationId.toNat)) →
        ReadsIteration mktime scan t i → i.iterationId = iterationId.toNat → i.outputData ≠ d) := by
  constructor
  · rintro s userId p now k s₁ history t e hcreate run hread rfl
    obtain ⟨text, htext, hp⟩ := hasParameters_of_createExperiment hcreate
    have hpt := (Database.stable_hasParameters _ text).run run hp fun a _ hover => by
      unfold Call.Overwrites at hover
      split at hover
      · exact hover.1
      · exact hover
    rw [hread.parameters_eq hpt]
    exact string_ne_of_parse (J.parse_cast p text htext)
  · intro s iterationId status d now s₁ hd hupdate
    obtain ⟨text, htext, hrows⟩ := outputData_of_updateIterationStatus hd hupdate
    have hne := string_ne_of_parse (J.parse_cast d text htext)
    constructor
    · intro i hread hi
      obtain ⟨row, hrow, hkey, houtput⟩ := hread.row
      rw [houtput, hrows row hrow (hkey ▸ hi), Option.getD_some]
      exact hne
    · intro hsome history t i run hover hread hi
      obtain ⟨row, hrow⟩ := List.exists_mem_of_ne_nil _ hsome
      obtain ⟨hrow, hkey⟩ := Table.mem_select.mp hrow
      have ho := (Database.stable_hasOutput _ text).run run ⟨row, hrow, hkey, hrows row hrow hkey⟩ hover
      rw [hread.outputData_eq (hi ▸ ho)]
      exact hne

/-- Rows in the order of the table. -/
def tableOrder : Scan := ⟨id, fun rows => List.Perm.refl rows⟩

def sampleTime : Tm → Int := fun _ => 1746097200

def withUser : DbService :=
  ((fresh [1]).createUser "alice" "secret" "user" "2025-05-01 11:00:00.5").2

def withExperiment : DbService :=
  (withUser.createExperiment plainText 1 .null "2025-05-01 11:00:00.5").2

def withIteration : DbService :=
  (withExperiment.createIteration 1 1 "solve" "2025-05-01 11:00:00.5").2

def withOutput : DbService := (withIteration.updateIterationStatus plainText 1 "running" (.bool true)
  "2025-05-01 11:00:00.5").2

theorem not_readBack_sample :
    ∃ e i, ReadsExperiment sampleTime tableOrder withExperiment e ∧ e.parameters ≠ .null ∧
      ReadsIteration sampleTime tableOrder withOutput i ∧ i.outputData ≠ .bool true := by
  have hcreate : withUser.createExperiment plainText 1 .null "2025-05-01 11:00:00.5" =
    (.ok 1, withExperiment) := Prod.ext rfl rfl
  have hupdate : withIteration.updateIterationStatus plainText 1 "running" (.bool true)
    "2025-05-01 11:00:00.5" = (.ok (), withOutput) := Prod.ext rfl rfl
  have hexperiment : ∃ e, withExperiment.getExperiment sampleTime 1 = .ok e ∧ e.experimentId = 1 :=
    ⟨_, rfl, rfl⟩
  have hiteration : ∃ i, withOutput.getIteration sampleTime 1 = .ok i ∧ i.iterationId = 1 :=
    ⟨_, rfl, rfl⟩
  obtain ⟨e, he, hkey⟩ := hexperiment
  obtain ⟨i, hi, hkey'⟩ := hiteration
  have hread : ReadsExperiment sampleTime tableOrder withExperiment e := .inl ⟨1, he⟩
  have hread' : ReadsIteration sampleTime tableOrder withOutput i := .inl ⟨1, hi⟩
  have hne := not_readBack plainText sampleTime tableOrder
  exact ⟨e, i, hread, hne.1 _ _ _ _ _ _ _ _ _ hcreate .nil hread hkey, hread',
    (hne.2 _ _ _ _ _ _ rfl hupdate).1 i hread' hkey'⟩

theorem reads_column_text :
    (withExperiment.getExperiment sampleTime 1).map Experiment.parameters = .ok (.string "null") ∧
    (withOutput.getIteration sampleTime 1).map Iteration.outputData = .ok (.string "true") ∧
    Json.Value.string "null" ≠ .null ∧ Json.Value.string "true" ≠ .bool true :=
  ⟨rfl, rfl, by simp, by simp⟩

end DbService

end Restore

end DistributedMathArh.Db
