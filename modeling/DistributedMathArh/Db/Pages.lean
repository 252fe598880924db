import Mathlib.Data.Int.GCD
import Mathlib.Data.List.Rotate
import Mathlib.Data.Nat.Prime.Basic
import DistributedMathArh.Db.Documents
import DistributedMathArh.Db.Nodes

namespace DistributedMathArh.Db

structure User where
  userId : Nat
  login : String
  hashedPassword : String
  role : UserRole
  createdAt : UInt64
  lastLogin : Option UInt64

def User.ofRow (mktime : Tm → Int) (row : UserRow) : Except DbHalt User := do
  let role ← strToEnum kUserRoleMappings (enumToStr kUserRoleMappings row.role)
  let createdAt ← timepoint mktime row.createdAt
  let lastLogin ← timepointOpt mktime row.lastLogin
  return {
    userId := row.userId, login := row.login.text.val, hashedPassword := row.hashedPassword.val,
    role, createdAt, lastLogin }

inductive Severity
  | info | warning | error | fatal
  deriving DecidableEq

def kStrToSev : List (String × Severity) :=
  [("info", .info), ("warning", .warning), ("error", .error), ("fatal", .fatal)]

structure Log where
  logId : Nat
  nodeId : Option Nat
  experimentId : Option Nat
  severity : Severity
  message : String
  timestamp : UInt64

def Log.ofRow (mktime : Tm → Int) (row : LogRow) : Except RowHalt Log := do
  let sev := enumToStr kLogSeverityMappings row.severity
  let some severity := kStrToSev.lookup sev | .error (.exn (.missingKey sev))
  let timestamp ← (timepoint mktime row.timestamp).mapError .db
  return {
    logId := row.logId, nodeId := row.nodeId, experimentId := row.experimentId, severity,
    message := row.message.val, timestamp }

namespace DbService

variable (mktime : Tm → Int)

def listUsers (scan : Scan) (pageNum pageSize : UInt64) (s : DbService) :
    Except DbHalt (List User) := do
  let rows ← s.read fun db =>
    paginate "SELECT * FROM \"User\"" pageNum pageSize (scan.order db.users.rows)
  rows.mapM (User.ofRow mktime)

def listLogs (scan : Scan) (pageNum pageSize : UInt64) (s : DbService) :
    Except RowHalt (List Log) := do
  let rows ← (s.read fun db =>
    paginate "SELECT * FROM \"Log\"" pageNum pageSize (scan.order db.logs.rows)).mapError .db
  rows.mapM (Log.ofRow mktime)

end DbService

def NodeService.listNodes (cols : Columns) (mktime : Tm → Int) (scan : Scan)
    (pageNum pageSize : UInt64) (s : NodeService) : Except RowHalt (List Node) := do
  let rows ← (s.base.read fun _ =>
    paginate "SELECT * FROM \"Node\"" pageNum pageSize (scan.order s.nodes.rows)).mapError .db
  rows.mapM (Node.ofRow cols mktime)

def Scan.rotated (k : Nat) : Scan :=
  ⟨fun rows => rows.rotate (rows.length - k), fun rows => List.rotate_perm rows _⟩

theorem Scan.drop_rotated {R : Type} {k : Nat} {rows : List R} (h : k ≤ rows.length) :
    ((rotated k).order rows).drop k = rows.take (rows.length - k) := by
  have hlen : (rows.drop (rows.length - k)).length = k := by
    rw [List.length_drop]
    omega
  change (rows.rotate (rows.length - k)).drop k = _
  rw [List.rotate_eq_drop_append_take (Nat.sub_le _ _), List.drop_left' hlen]

section Offset

def before (pageNum pageSize : UInt64) : Nat := (pageNum.toNat - 1) * pageSize.toNat

/-- The offset of a page reaches `2^64`, and what is left of it is the place of one of `n` rows. -/
def Wraps (pageNum pageSize : UInt64) (n : Nat) : Prop :=
  2 ^ 64 ≤ before pageNum pageSize ∧ before pageNum pageSize % 2 ^ 64 < n ∧
    before pageNum pageSize % 2 ^ 64 ≤ Database.maxSerial ∧ pageSize.toNat ≤ Database.maxSerial

variable {R : Type} {query : String} {pageNum pageSize : UInt64} {rows page : List R}

theorem toNat_offset (hnum : 1 ≤ pageNum) :
    ((pageNum - 1) * pageSize).toNat = before pageNum pageSize % 2 ^ 64 := by
  rw [UInt64.toNat_mul, UInt64.toNat_sub_of_le _ _ hnum]
  rfl

theorem own_rows_iff (hnum : 1 ≤ pageNum) (hsize : 1 ≤ pageSize) (hrows : rows.Nodup) :
    (∀ page, paginate query pageNum pageSize rows = .ok page →
      page = (rows.drop (before pageNum pageSize)).take pageSize.toNat) ↔
    ¬ Wraps pageNum pageSize rows.length := by
  have hpos : 0 < pageSize.toNat := UInt64.le_iff_toNat_le.mp hsize
  simp only [paginate_eq_ok, toNat_offset hnum]
  constructor
  · rintro h ⟨hwrap, hlt, hoffset, hfits⟩
    have heq := h _ ⟨hfits, hoffset, rfl⟩
    have hhead := congrArg (·[0]?) heq
    simp only [List.getElem?_take_of_lt hpos, List.getElem?_drop, Nat.add_zero] at hhead
    have hplace := (List.getElem?_inj hlt hrows).mp hhead
    omega
  · rintro hwraps page ⟨hfits, hoffset, rfl⟩
    by_cases hlt : before pageNum pageSize < 2 ^ 64
    · rw [Nat.mod_eq_of_lt hlt]
    · have hover : 2 ^ 64 ≤ before pageNum pageSize := Nat.le_of_not_lt hlt
      have hpast : rows.length ≤ before pageNum pageSize % 2 ^ 64 := by
        by_contra hrow
        exact hwraps ⟨hover, Nat.lt_of_not_le hrow, hoffset, hfits⟩
      rw [List.drop_eq_nil_of_le hpast, List.drop_eq_nil_of_le]
      exact hpast.trans (Nat.mod_le _ _)

theorem dvd_of_dvd_mul_odd {k s : Nat} (hodd : s % 2 = 1) (h : 2 ^ 64 ∣ k * s) : 2 ^ 64 ∣ k :=
  ((Nat.coprime_two_left.mpr (Nat.odd_iff.mpr hodd)).pow_left 64).dvd_of_dvd_mul_right h

theorem exists_offset_one {s : Nat} (hodd : s % 2 = 1) (hlow : 1 < s) (hhigh : s < 2 ^ 64 - 1) :
    ∃ k, k + 1 < 2 ^ 64 ∧ 2 ^ 64 ≤ k * s ∧ k * s % 2 ^ 64 = 1 := by
  have hcoprime : s.Coprime (2 ^ 64) := (Nat.coprime_two_right.mpr (Nat.odd_iff.mpr hodd)).pow_right 64
  obtain ⟨k, hk, hone⟩ := Nat.exists_mul_mod_eq_one_of_coprime hcoprime (by decide)
  rw [Nat.mul_comm] at hone
  refine ⟨k, lt_of_le_of_ne hk ?_, ?_, hone⟩
  · -- the last word is its own inverse
    intro hlast
    have hsum : (k + 1) * s = 2 ^ 64 * s := by rw [hlast]
    rw [Nat.succ_mul] at hsum
    omega
  · by_contra hsmall
    rw [Nat.mod_eq_of_lt (Nat.lt_of_not_le hsmall)] at hone
    exact hlow.ne' (Nat.eq_one_of_mul_eq_one_left hone)

theorem exists_wraps {k n : Nat} (hsize : pageSize.toNat ≤ Database.maxSerial) (hk : k + 1 < 2 ^ 64)
    (hwrap : 2 ^ 64 ≤ k * pageSize.toNat) (hlt : k * pageSize.toNat % 2 ^ 64 < n)
    (hoffset : k * pageSize.toNat % 2 ^ 64 ≤ Database.maxSerial) :
    ∃ pageNum, 1 ≤ pageNum ∧ Wraps pageNum pageSize n := by
  have hnum : (UInt64.ofNat (k + 1)).toNat = k + 1 := UInt64.toNat_ofNat_of_lt' hk
  have hbefore : before (UInt64.ofNat (k + 1)) pageSize = k * pageSize.toNat := by
    rw [before, hnum, Nat.add_sub_cancel]
  refine ⟨UInt64.ofNat (k + 1), ?_, ?_⟩
  · rw [UInt64.le_iff_toNat_le, hnum]
    exact Nat.succ_pos k
  · rw [Wraps, hbefore]
    exact ⟨hwrap, hlt, hoffset, hsize⟩

theorem forall_not_wraps_iff {n : Nat} (hn : n ≤ pageSize.toNat) (hpos : 0 < pageSize.toNat)
    (hsize : pageSize.toNat ≤ Database.maxSerial) :
    (∀ pageNum, 1 ≤ pageNum → ¬ Wraps pageNum pageSize n) ↔
      n = 0 ∨ n = 1 ∧ pageSize.toNat % 2 = 1 := by
  have hmax : Database.maxSerial < 2 ^ 63 := by decide
  constructor
  · intro h
    by_contra hrows
    rw [not_or, not_and] at hrows
    have hexists : ∃ pageNum, 1 ≤ pageNum ∧ Wraps pageNum pageSize n := by
      rcases Nat.mod_two_eq_zero_or_one pageSize.toNat with heven | hodd
      · have hmod : 2 ^ 63 * pageSize.toNat % 2 ^ 64 = 0 := by omega
        refine exists_wraps (k := 2 ^ 63) hsize (by decide) (by omega) ?_ ?_
        · rw [hmod]
          exact Nat.pos_of_ne_zero hrows.1
        · rw [hmod]
          exact Nat.zero_le _
      · have htwo : 1 < n := by
          have := hrows.1
          have hne : n ≠ 1 := fun hone => hrows.2 hone hodd
          omega
        obtain ⟨k, hk, hwrap, hone⟩ := exists_offset_one hodd (by omega) (by omega)
        refine exists_wraps hsize hk hwrap ?_ ?_
        · rwa [hone]
        · rw [hone]
          decide
    obtain ⟨pageNum, hnum, hwraps⟩ := hexists
    exact h pageNum hnum hwraps
  · rintro (rfl | ⟨rfl, hodd⟩) pageNum hnum ⟨hwrap, hlt, -, -⟩
    · exact absurd hlt (Nat.not_lt_zero _)
    · have hdvd := dvd_of_dvd_mul_odd hodd (Nat.dvd_of_mod_eq_zero (Nat.lt_one_iff.mp hlt))
      have hsmall : pageNum.toNat - 1 < 2 ^ 64 := by
        have := pageNum.toNat_lt
        omega
      rw [before, Nat.eq_zero_of_dvd_of_lt hdvd hsmall, Nat.zero_mul] at hwrap
      exact absurd hwrap (by decide)

end Offset

inductive Collects {ε D : Type} (page : UInt64 → Except ε (List D)) (pageSize : UInt64) :
    UInt64 → List D → Prop
  | last {n : UInt64} {ds : List D} (h : page n = .ok ds) (hshort : ds.length < pageSize.toNat) :
      Collects page pageSize n ds
  | more {n : UInt64} {ds rest : List D} (h : page n = .ok ds)
      (hfull : pageSize.toNat ≤ ds.length) (hrest : Collects page pageSize (n + 1) rest) :
      Collects page pageSize n (ds ++ rest)

theorem Collects.first {ε D : Type} {page : UInt64 → Except ε (List D)} {pageSize n : UInt64}
    {ds : List D} (h : Collects page pageSize n ds) :
    ∃ shown rest, page n = .ok shown ∧ ds = shown ++ rest := by
  cases h with
  | last h => exact ⟨ds, [], h, (List.append_nil ds).symm⟩
  | more h => exact ⟨_, _, h, rfl⟩

/-- A list of the service: its query and the rows that this selects, what is made of a row, and
whether the query can be sent. -/
structure Listing (ε D : Type) where
  Row : Type
  query : String
  rows : List Row
  ofRow : Row → Except ε D
  sent : Prop
  list : Scan → UInt64 → UInt64 → Except ε (List D)
  list_eq_ok : ∀ {scan pageNum pageSize ds}, list scan pageNum pageSize = .ok ds ↔
    sent ∧ ∃ page, paginate query pageNum pageSize (scan.order rows) = .ok page ∧
      page.mapM ofRow = .ok ds
  rowKey : Row → Nat
  key : D → Nat
  nodup : (rows.map rowKey).Nodup
  key_ofRow : ∀ {row d}, ofRow row = .ok d → key d = rowKey row

namespace Listing

variable {ε D : Type} (l : Listing ε D)

def EachOnce (pageSize : UInt64) : Prop :=
  ∀ scans : UInt64 → Scan, ∃ (shown : List l.Row) (ds : List D),
    Collects (fun pageNum => l.list (scans pageNum) pageNum pageSize) pageSize 1 ds ∧
      shown.Perm l.rows ∧ shown.mapM l.ofRow = .ok ds

def OnePage (pageSize : UInt64) : Prop :=
  l.sent ∧ pageSize.toNat ≤ Database.maxSerial ∧ l.rows.length ≤ pageSize.toNat ∧
    ∀ row ∈ l.rows, ∃ d, l.ofRow row = .ok d

def OwnRows (scan : Scan) (pageNum pageSize : UInt64) : Prop :=
  ∀ page, paginate l.query pageNum pageSize (scan.order l.rows) = .ok page →
    page = ((scan.order l.rows).drop (before pageNum pageSize)).take pageSize.toNat

/-- What a client of the pages relies on. -/
structure Paginated (pageSize : UInt64) : Prop where
  each : l.EachOnce pageSize
  own : ∀ scan pageNum, 1 ≤ pageNum → l.OwnRows scan pageNum pageSize

/-- There is no row, or a single one and an odd page size. -/
def Lone (pageSize : UInt64) : Prop :=
  l.rows.length = 0 ∨ l.rows.length = 1 ∧ pageSize.toNat % 2 = 1

variable {l} {pageSize : UInt64}

theorem map_key {rows : List l.Row} {ds : List D} (h : rows.mapM l.ofRow = .ok ds) :
    ds.map l.key = rows.map l.rowKey := by
  induction mapM_eq_ok_iff.mp h with
  | nil => rfl
  | cons hd _ ih => rw [List.map_cons, List.map_cons, l.key_ofRow hd, ih (mapM_eq_ok_iff.mpr ‹_›)]

theorem length_of_mapM {rows : List l.Row} {ds : List D} (h : rows.mapM l.ofRow = .ok ds) :
    ds.length = rows.length := by
  simpa using congrArg List.length (map_key h)

theorem first_page {scan : Scan} {ds : List D} : l.list scan 1 pageSize = .ok ds ↔
    l.sent ∧ pageSize.toNat ≤ Database.maxSerial ∧
      ((scan.order l.rows).take pageSize.toNat).mapM l.ofRow = .ok ds := by
  simp [l.list_eq_ok, paginate_eq_ok, and_assoc]

theorem second_page {scan : Scan} {ds : List D} : l.list scan (1 + 1) pageSize = .ok ds ↔
    l.sent ∧ pageSize.toNat ≤ Database.maxSerial ∧
      (((scan.order l.rows).drop pageSize.toNat).take pageSize.toNat).mapM l.ofRow = .ok ds := by
  simp [l.list_eq_ok, paginate_eq_ok, and_assoc]

theorem length_le_of_eachOnce (hsize : 1 ≤ pageSize) (h : l.EachOnce pageSize) :
    l.rows.length ≤ pageSize.toNat := by
  by_contra hlong
  have hpos : 0 < pageSize.toNat := UInt64.le_iff_toNat_le.mp hsize
  obtain ⟨shown, ds, hds, hperm, hshown⟩ :=
    h fun n => if n = 1 then DbService.tableOrder else .rotated pageSize.toNat
  have hnodup : (ds.map l.key).Nodup := by
    rw [map_key hshown]
    exact (hperm.map l.rowKey).nodup_iff.mpr l.nodup
  obtain ⟨row, rest, hrows⟩ := List.exists_cons_of_length_pos (hpos.trans (Nat.lt_of_not_le hlong))
  have htop {k : Nat} (hk : 0 < k) : l.rowKey row ∈ (l.rows.take k).map l.rowKey := by
    obtain ⟨j, rfl⟩ := Nat.exists_eq_succ_of_ne_zero hk.ne'
    rw [hrows, List.take_succ_cons, List.map_cons]
    exact List.mem_cons_self
  cases hds with
  | last hpage hshort =>
    obtain ⟨-, -, hmap⟩ := first_page.mp hpage
    have hlen := length_of_mapM hmap
    rw [List.length_take, (Scan.perm _ l.rows).length_eq] at hlen
    omega
  | more hpage hfull hrest =>
    obtain ⟨ds₂, rest, hpage₂, rfl⟩ := hrest.first
    obtain ⟨-, -, hmap⟩ := first_page.mp hpage
    obtain ⟨-, -, hmap₂⟩ := second_page.mp hpage₂
    rw [if_neg (by decide), Scan.drop_rotated (Nat.le_of_not_le hlong), List.take_take] at hmap₂
    rw [List.map_append, List.map_append, map_key hmap, map_key hmap₂] at hnodup
    refine (List.nodup_append.mp hnodup).2.2 _ (htop hpos) _ ?_ rfl
    apply List.mem_append_left
    apply htop
    omega

theorem eachOnce_of_onePage (hsize : 1 ≤ pageSize) (h : l.OnePage pageSize) :
    l.EachOnce pageSize := by
  obtain ⟨hsent, hfits, hlen, hread⟩ := h
  intro scans
  have hperm := (scans 1).perm l.rows
  obtain ⟨ds, hds⟩ := exists_mapM_eq_ok fun row hrow => hread row (hperm.mem_iff.mp hrow)
  have hpage : l.list (scans 1) 1 pageSize = .ok ds := by
    refine first_page.mpr ⟨hsent, hfits, ?_⟩
    rwa [List.take_of_length_le (hperm.length_eq ▸ hlen)]
  by_cases hfull : pageSize.toNat ≤ ds.length
  · have hnext : l.list (scans (1 + 1)) (1 + 1) pageSize = .ok [] := by
      refine second_page.mpr ⟨hsent, hfits, ?_⟩
      rw [List.drop_eq_nil_of_le (((scans (1 + 1)).perm l.rows).length_eq ▸ hlen), List.take_nil]
      rfl
    have hend : Collects (fun n => l.list (scans n) n pageSize) pageSize 1 (ds ++ []) :=
      .more hpage hfull (.last hnext (UInt64.le_iff_toNat_le.mp hsize))
    rw [List.append_nil] at hend
    exact ⟨_, ds, hend, hperm, hds⟩
  · exact ⟨_, ds, .last hpage (Nat.lt_of_not_le hfull), hperm, hds⟩

theorem once_iff (hsize : 1 ≤ pageSize) : l.EachOnce pageSize ↔ l.OnePage pageSize := by
  constructor
  · intro h
    obtain ⟨shown, ds, hds, hperm, hshown⟩ := h fun _ => DbService.tableOrder
    obtain ⟨first, -, hfirst, -⟩ := hds.first
    obtain ⟨hsent, hfits, -⟩ := first_page.mp hfirst
    exact ⟨hsent, hfits, length_le_of_eachOnce hsize h, fun row hrow =>
      ok_of_mem hshown (hperm.mem_iff.mpr hrow)⟩
  · exact eachOnce_of_onePage hsize

theorem ownRows_iff {scan : Scan} {pageNum : UInt64} (hnum : 1 ≤ pageNum) (hsize : 1 ≤ pageSize) :
    l.OwnRows scan pageNum pageSize ↔ ¬ Wraps pageNum pageSize l.rows.length := by
  have hperm := scan.perm l.rows
  rw [← hperm.length_eq]
  exact own_rows_iff hnum hsize (hperm.nodup_iff.mpr l.nodup.of_map)

theorem paginated_iff (hsize : 1 ≤ pageSize) :
    l.Paginated pageSize ↔ l.OnePage pageSize ∧ l.Lone pageSize := by
  have hlone (h : l.OnePage pageSize) := forall_not_wraps_iff h.2.2.1
    (UInt64.le_iff_toNat_le.mp hsize) h.2.1
  constructor
  · intro h
    have hpage := (once_iff hsize).mp h.each
    exact ⟨hpage, (hlone hpage).mp fun pageNum hnum =>
      (ownRows_iff hnum hsize).mp (h.own DbService.tableOrder pageNum hnum)⟩
  · rintro ⟨hpage, hrows⟩
    exact ⟨(once_iff hsize).mpr hpage, fun scan pageNum hnum =>
      (ownRows_iff hnum hsize).mpr ((hlone hpage).mpr hrows pageNum hnum)⟩

end Listing

section Lists

variable {mktime : Tm → Int} {cols : Columns}

theorem User.key_ofRow {row : UserRow} {u : User} (h : ofRow mktime row = .ok u) :
    u.userId = row.userId := by
  obtain ⟨_, -, h⟩ := bind_eq_ok.mp h
  obtain ⟨_, -, h⟩ := bind_eq_ok.mp h
  obtain ⟨_, -, h⟩ := bind_eq_ok.mp h
  cases h
  rfl

theorem Log.key_ofRow {row : LogRow} {e : Log} (h : ofRow mktime row = .ok e) :
    e.logId = row.logId := by
  simp only [ofRow] at h
  split at h
  · obtain ⟨_, -, h⟩ := bind_eq_ok.mp h
    cases h
    rfl
  · cases h

theorem Node.key_ofRow {row : NodeRow} {n : Node} (h : ofRow cols mktime row = .ok n) :
    n.nodeId = row.nodeId := by
  simp only [ofRow] at h
  split at h
  · obtain ⟨_, -, h⟩ := bind_eq_ok.mp h
    obtain ⟨_, -, h⟩ := bind_eq_ok.mp h
    obtain ⟨_, -, h⟩ := bind_eq_ok.mp h
    obtain ⟨_, -, h⟩ := bind_eq_ok.mp h
    cases h
    rfl
  · cases h

variable (mktime cols)

def DbService.users (s : DbService) : Listing DbHalt User where
  Row := UserRow
  query := "SELECT * FROM \"User\""
  rows := s.db.users.rows
  ofRow := User.ofRow mktime
  sent := s.connected = true
  list scan pageNum pageSize := s.listUsers mktime scan pageNum pageSize
  list_eq_ok := by
    simp [listUsers, bind_eq_ok, read_eq_ok, and_assoc]
  rowKey := UserRow.userId
  key := User.userId
  nodup := s.db.users.nodup
  key_ofRow := User.key_ofRow

def DbService.experiments (s : DbService) (userId : UInt64) : Listing DbHalt Experiment where
  Row := ExperimentRow
  query := "SELECT * FROM \"Experiment\" WHERE user_id =$1"
  rows := s.db.experiments.rows.filter fun e => e.userId = userId.toNat
  ofRow := Experiment.ofRow mktime
  sent := s.connected = true ∧ userId.toNat ≤ Database.maxSerial
  list scan pageNum pageSize := s.listExperiments mktime scan userId pageNum pageSize
  list_eq_ok := selectPage_eq_ok
  rowKey := ExperimentRow.experimentId
  key := Experiment.experimentId
  nodup := s.db.experiments.nodup.sublist (List.filter_sublist.map _)
  key_ofRow h := (Experiment.ofRow_eq_ok h).1

def DbService.iterations (s : DbService) (experimentId : UInt64) : Listing DbHalt Iteration where
  Row := IterationRow
  query := "SELECT * FROM \"Iteration\" WHERE experiment_id =$1"
  rows := s.db.iterations.rows.filter fun i => i.experimentId = experimentId.toNat
  ofRow := Iteration.ofRow mktime
  sent := s.connected = true ∧ experimentId.toNat ≤ Database.maxSerial
  list scan pageNum pageSize := s.listIterations mktime scan experimentId pageNum pageSize
  list_eq_ok := selectPage_eq_ok
  rowKey := IterationRow.iterationId
  key := Iteration.iterationId
  nodup := s.db.iterations.nodup.sublist (List.filter_sublist.map _)
  key_ofRow h := (Iteration.ofRow_eq_ok h).1

def DbService.logs (s : DbService) : Listing RowHalt Log where
  Row := LogRow
  query := "SELECT * FROM \"Log\""
  rows := s.db.logs.rows
  ofRow := Log.ofRow mktime
  sent := s.connected = true
  list scan pageNum pageSize := s.listLogs mktime scan pageNum pageSize
  list_eq_ok := by
    simp [listLogs, bind_eq_ok, mapError_eq_ok, read_eq_ok, and_assoc]
  rowKey := LogRow.logId
  key := Log.logId
  nodup := s.db.logs.nodup
  key_ofRow := Log.key_ofRow

def NodeService.listing (s : NodeService) : Listing RowHalt Node where
  Row := NodeRow
  query := "SELECT * FROM \"Node\""
  rows := s.nodes.rows
  ofRow := Node.ofRow cols mktime
  sent := s.base.connected = true
  list scan pageNum pageSize := s.listNodes cols mktime scan pageNum pageSize
  list_eq_ok := by
    simp [listNodes, bind_eq_ok, mapError_eq_ok, DbService.read_eq_ok, and_assoc]
  rowKey := NodeRow.nodeId
  key := Node.nodeId
  nodup := s.nodes.nodup
  key_ofRow := Node.key_ofRow

/-- Each of the lists shows every row once, on pages with rows of their own, just if its query can
be sent and it has no row, or a single one that can be read and an odd page size. -/
theorem lists_paginated_iff (s : NodeService) (userId experimentId pageSize : UInt64)
    (hsize : 1 ≤ pageSize) :
    ((s.base.users mktime).Paginated pageSize ↔
      (s.base.users mktime).OnePage pageSize ∧ (s.base.users mktime).Lone pageSize) ∧
    ((s.base.experiments mktime userId).Paginated pageSize ↔
      (s.base.experiments mktime userId).OnePage pageSize ∧
        (s.base.experiments mktime userId).Lone pageSize) ∧
    ((s.base.iterations mktime experimentId).Paginated pageSize ↔
      (s.base.iterations mktime experimentId).OnePage pageSize ∧
        (s.base.iterations mktime experimentId).Lone pageSize) ∧
    ((s.listing mktime cols).Paginated pageSize ↔
      (s.listing mktime cols).OnePage pageSize ∧ (s.listing mktime cols).Lone pageSize) ∧
    ((s.base.logs mktime).Paginated pageSize ↔
      (s.base.logs mktime).OnePage pageSize ∧ (s.base.logs mktime).Lone pageSize) :=
  ⟨Listing.paginated_iff hsize, Listing.paginated_iff hsize, Listing.paginated_iff hsize,
    Listing.paginated_iff hsize, Listing.paginated_iff hsize⟩

section Sample

open DbService (sampleTime withUser withExperiment tableOrder)

def twoExperiments : DbService :=
  (withExperiment.createExperiment plainText 1 .null "2025-05-01 11:00:00.5").2

def withNode : NodeService where
  base := withExperiment
  nodes := Table.empty.insert ⟨1, "127.0.0.1", some [3, 5], .active, none⟩ rfl
  keys := rfl

theorem lists_paginated_iff_one : (withNode.base.experiments sampleTime 1).Paginated 1 := by
  refine (lists_paginated_iff sampleTime plainColumns withNode 1 1 1 (by decide)).2.1.mpr
    ⟨⟨⟨rfl, by decide⟩, by decide, by decide, fun row hrow => ok_of_mem rfl hrow⟩, ?_⟩
  exact .inr ⟨rfl, rfl⟩

theorem not_paginated :
    (∀ row ∈ (twoExperiments.experiments sampleTime 1).rows,
      ∃ e, Experiment.ofRow sampleTime row = .ok e) ∧
    ¬ (twoExperiments.experiments sampleTime 1).EachOnce 1 ∧
    ¬ (twoExperiments.experiments sampleTime 1).OwnRows tableOrder 9223372036854775809 2 := by
  refine ⟨?_, ?_, ?_⟩
  · exact fun row hrow => ok_of_mem rfl hrow
  · intro h
    exact absurd (Listing.length_le_of_eachOnce (by decide) h) (by decide)
  · intro h
    refine (Listing.ownRows_iff (by decide) (by decide)).mp h ⟨?_, ?_, ?_, ?_⟩
    all_goals decide

end Sample

end Lists

end DistributedMathArh.Db
