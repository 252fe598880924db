import DistributedMathArh.Common.VectorText
import DistributedMathArh.Db.Service

namespace DistributedMathArh.Db

open PrintUtils TextStream
open Words (words IsWord)

inductive NodeStatus
  | active | busy | inactive | error
  deriving DecidableEq

def kNodeStMappings : List (String × NodeStatus) :=
  [("active", .active), ("busy", .busy), ("inactive", .inactive), ("error", .error)]

/-- An address is the text that the server prints for it. -/
structure NodeRow where
  nodeId : Nat
  ipAddress : String
  benchmarkScore : Option (List Int64)
  status : NodeStatus
  lastPing : Option String

/-- What is used of `inet` and `bigint[]` columns: the text that is printed for an address, the
array that a text stands for, and the text that is printed for an array. -/
structure Columns where
  inet : Text → Option String
  arrayIn : Text → Except SqlState (List Int64)
  arrayOut : List Int64 → String

def arrayText (v : List Int64) : List Char :=
  '{' :: ([','].intercalate (v.map fun x => integerText x.toInt) ++ ['}'])

structure Columns.Documented (cols : Columns) : Prop where
  arrayOut_eq : ∀ v, (cols.arrayOut v).toList = arrayText v
  arrayIn_eq : ∀ s v, s.val.toList = arrayText v → cols.arrayIn s = .ok v

def benchNumbers : Numbers UInt64 where
  size := TextStream.decimal
  value := unsigned64

theorem benchNumbers_exact : benchNumbers.Exact := ⟨decimal_ascii, unsigned64_ascii⟩

structure NodeService where
  base : DbService
  nodes : Table NodeRow NodeRow.nodeId
  keys : base.db.nodes = nodes.rows.map NodeRow.nodeId

namespace NodeService

def registration : String :=
  "INSERT INTO \"Node\" (ip_address, benchmark_score, status, last_ping)" ++
    " VALUES ($1, $2, 'active', NOW())" ++ "RETURNING node_id"

/-- The row that is inserted, if its parameters convert to the types of their columns. -/
def newRow (cols : Columns) (ipAddress : String) (benchmarkScore : BenchResVec) (now : String)
    (k : Nat) : Except SqlState NodeRow :=
  let benchVec := oneDimToString benchNumbers benchmarkScore false (kEnumTo .vectorDbFormat)
  match cols.inet (param ipAddress), cols.arrayIn (param (String.ofList benchVec)) with
  | some ip, .ok scores => .ok ⟨k, ip, some scores, .active, some now⟩
  | none, _ => .error .invalidText
  | _, .error state => .error state

theorem nodeId_of_newRow {cols : Columns} {ipAddress now : String} {benchmarkScore : BenchResVec}
    {k : Nat} {row : NodeRow} (h : newRow cols ipAddress benchmarkScore now k = .ok row) :
    row.nodeId = k := by
  simp only [newRow] at h
  split at h
  · cases h
    rfl
  · cases h
  · cases h

theorem nodes_innerLog {experimentId nodeId : Option Nat} {severity message now : String}
    {db db' : Database} {k : Nat}
    (h : DbService.innerLog experimentId nodeId severity message now db = (.ok k, db')) :
    db'.nodes = db.nodes :=
  DbService.keeps_innerLog (P := fun d => d.nodes = db.nodes) (fun _ _ hdb => hdb) db k db' rfl h

theorem keys_insert (s : NodeService) {row : NodeRow} (h : row.nodeId = s.nodes.last + 1) :
    s.base.db.nodes ++ [s.nodes.last + 1] = (s.nodes.insert row h).rows.map NodeRow.nodeId := by
  rw [s.keys, Table.insert, List.map_append, List.map_singleton, h]

def registerNode (cols : Columns) (ipAddress : String) (benchmarkScore : BenchResVec)
    (now : String) (s : NodeService) : Except DbHalt Nat × NodeService :=
  if s.base.connected then
    let k := s.nodes.last + 1
    match hrow : newRow cols ipAddress benchmarkScore now k with
    | .error state => (.error (.sqlError registration state), s)
    | .ok row =>
      if s.nodes.last = Database.maxSerial then
        (.error (.sqlError registration .sequenceLimit), s)
      else
        let nodes := s.nodes.insert row (nodeId_of_newRow hrow)
        let db := { s.base.db with nodes := s.base.db.nodes ++ [k] }
        let message := "Node registered with IP " ++ ipAddress
        match hlog : DbService.innerLog none (some k) "info" message now db with
        | (.error e, db') =>
          (.error e, {
            base := { s.base with db := s.base.db.rollback db' }
            nodes := s.nodes.rollback nodes
            keys := s.keys })
        | (.ok _, db') =>
          (.ok k, {
            base := { s.base with db := db' }
            nodes
            keys := (nodes_innerLog hlog).trans (s.keys_insert (nodeId_of_newRow hrow)) })
  else (.error (.brokenConnection "DbService" s.base.connStr.getVerboseName), s)

end NodeService

inductive RowHalt
  | db (e : DbHalt)
  | exn (e : Exn)
  | conversion
  deriving DecidableEq

structure Node where
  nodeId : Nat
  ipAddress : String
  benchmarkScore : BenchResVec
  status : NodeStatus
  lastPing : Option UInt64

def sqlArraySize (scores : List Int64) : Except RowHalt Nat :=
  if scores.all fun x => 0 ≤ x.toInt then .ok scores.length else .error .conversion

def Node.ofRow (cols : Columns) (mktime : Tm → Int) (row : NodeRow) : Except RowHalt Node := do
  let some scores := row.benchmarkScore | .error .conversion
  let sqlArr := cols.arrayOut scores
  let size ← sqlArraySize scores
  let benchmarkScore ← (parseOneDimS benchNumbers sqlArr.toList (some size)
    (kEnumTo .vectorDbFormat)).mapError .exn
  let status ← (strToEnum kNodeStMappings (enumToStr kNodeStMappings row.status)).mapError .db
  let lastPing ← (timepointOpt mktime row.lastPing).mapError .db
  return { nodeId := row.nodeId, ipAddress := row.ipAddress, benchmarkScore, status, lastPing }

section Restored

variable {cols : Columns}

def bigints (v : BenchResVec) : List Int64 := v.map fun x => Int64.ofInt x.toNat

theorem toInt_bigint {x : UInt64} (h : x.toNat ≤ Database.maxSerial) :
    (Int64.ofInt x.toNat).toInt = x.toNat := by
  unfold Database.maxSerial at h
  apply Int64.toInt_ofInt_of_le <;> omega

theorem oneDimToString_bench {v : BenchResVec} (hv : v ≠ [])
    (hfits : ∀ x ∈ v, x.toNat ≤ Database.maxSerial) :
    oneDimToString benchNumbers v false (kEnumTo .vectorDbFormat) =
      arrayText (bigints v) := by
  have hcells : (bigints v).map (fun x => integerText x.toInt) =
      v.map benchNumbers.value.print := by
    rw [bigints, List.map_map]
    apply List.map_congr_left
    intro x hx
    rw [Function.comp_apply, toInt_bigint (hfits x hx), integerText_natCast]
    rfl
  have htext : oneDimToString benchNumbers v false (kEnumTo .vectorDbFormat) =
      format benchNumbers.value (kEnumTo .vectorDbFormat) [v] := rfl
  rw [htext, format_kEnumTo _ hv, arrayText, hcells]
  simp [kEnumTo]

theorem bench_clean (x : UInt64) : '\x00' ∉ benchNumbers.value.print x := by
  intro h
  have hdigit : Char.isDigit '\x00' = true := isDigit_of_mem_print h
  exact absurd hdigit (by decide)

theorem parse_arrayText {v : BenchResVec} (hv : v ≠ [])
    (hfits : ∀ x ∈ v, x.toNat ≤ Database.maxSerial) :
    parseOneDimS benchNumbers (arrayText (bigints v)) (some v.length)
      (kEnumTo .vectorDbFormat) = .ok v := by
  rw [← oneDimToString_bench hv hfits]
  exact parseOneDimS_oneDimToString benchNumbers_exact bench_clean .vectorDbFormat hv

theorem ok_bind {ε α β : Type} (a : α) (f : α → Except ε β) : (Except.ok a >>= f) = f a := rfl

theorem Node.ofRow_eq (hcols : cols.Documented) (mktime : Tm → Int) {v : BenchResVec} (hv : v ≠ [])
    (hfits : ∀ x ∈ v, x.toNat ≤ Database.maxSerial) (k : Nat) (ip : String) (status : NodeStatus)
    (lastPing : Option String) :
    Node.ofRow cols mktime
        ⟨k, ip, some (bigints v), status, lastPing⟩ =
      ((timepointOpt mktime lastPing).mapError RowHalt.db).map fun t => ⟨k, ip, v, status, t⟩ := by
  have hsize : sqlArraySize (bigints v) = .ok v.length := by
    rw [sqlArraySize, if_pos, bigints, List.length_map]
    rw [List.all_eq_true]
    intro y hy
    obtain ⟨x, hx, rfl⟩ := List.mem_map.mp hy
    rw [toInt_bigint (hfits x hx)]
    exact decide_eq_true (Int.natCast_nonneg _)
  have hstatus : strToEnum kNodeStMappings (enumToStr kNodeStMappings status) = .ok status := by
    cases status <;> rfl
  have hparse := parse_arrayText hv hfits
  rw [← hcols.arrayOut_eq] at hparse
  unfold Node.ofRow
  dsimp only
  rw [hsize, ok_bind, hparse, Except.mapError, ok_bind, hstatus, Except.mapError, ok_bind]
  cases timepointOpt mktime lastPing <;> rfl

theorem newRow_eq_ok (hcols : cols.Documented) {ipAddress now : String} {v : BenchResVec}
    (hv : v ≠ []) (hfits : ∀ x ∈ v, x.toNat ≤ Database.maxSerial) {k : Nat} {row : NodeRow}
    (h : NodeService.newRow cols ipAddress v now k = .ok row) :
    ∃ ip, row = ⟨k, ip, some (bigints v), .active, some now⟩ := by
  have htext := oneDimToString_bench hv hfits
  have hclean : '\x00' ∉ arrayText (bigints v) := htext ▸ format_clean bench_clean .vectorDbFormat hv
  have hparam : (param (String.ofList (arrayText (bigints v)))).val.toList =
      arrayText (bigints v) := by
    simp only [param, String.toList_ofList]
    exact data_of_not_mem hclean
  have harray := hcols.arrayIn_eq _ _ hparam
  simp only [NodeService.newRow, htext, harray] at h
  split at h
  · rename_i hscores
    cases hscores
    cases h
    exact ⟨_, rfl⟩
  · cases h
  · cases h

namespace NodeService

variable {s t : NodeService}

theorem registerNode_eq_ok {ipAddress now : String} {v : BenchResVec} {k : Nat}
    (h : registerNode cols ipAddress v now s = (.ok k, t)) :
    ∃ row, newRow cols ipAddress v now k = .ok row ∧ row.nodeId = k ∧ row ∈ t.nodes.rows := by
  unfold registerNode at h
  split at h
  · dsimp only at h
    split at h
    · cases h
    · rename_i row hrow
      split at h
      · cases h
      · split at h
        · cases h
        · cases h
          exact ⟨row, hrow, nodeId_of_newRow hrow, (Table.mem_insert (h := nodeId_of_newRow hrow)).mpr (.inr rfl)⟩
  · cases h

theorem select_of_mem {row : NodeRow} (h : row ∈ t.nodes.rows) :
    t.nodes.select row.nodeId = [row] :=
  filter_eq_of_nodup_map NodeRow.nodeId t.nodes.nodup h

end NodeService

/-- Vectors of unsigned numbers are restored from their strings in every format, and so is the
benchmark of a registered node from its row; only the timestamp can keep the node from being
read. -/
theorem vectors_restored (hcols : cols.Documented) :
    (∀ (f : EigenPrintFormats) (v : BenchResVec), v ≠ [] →
      parseOneDimS benchNumbers (oneDimToString benchNumbers v false (kEnumTo f)) (some v.length)
        (kEnumTo f) = .ok v) ∧
    ∀ (ipAddress now : String) (v : BenchResVec) (s t : NodeService) (k : Nat), v ≠ [] →
      (∀ x ∈ v, x.toNat ≤ Database.maxSerial) →
      s.registerNode cols ipAddress v now = (.ok k, t) →
      ∃ row, t.nodes.select k = [row] ∧ ∀ mktime, Node.ofRow cols mktime row =
        ((timepointOpt mktime row.lastPing).mapError RowHalt.db).map fun lastPing =>
          ⟨k, row.ipAddress, v, .active, lastPing⟩ := by
  refine ⟨fun f v hv => parseOneDimS_oneDimToString benchNumbers_exact bench_clean f hv, ?_⟩
  intro ipAddress now v s t k hv hfits h
  obtain ⟨row, hrow, hkey, hmem⟩ := NodeService.registerNode_eq_ok h
  have hselect := NodeService.select_of_mem hmem
  obtain ⟨ip, rfl⟩ := newRow_eq_ok hcols hv hfits hrow
  exact ⟨_, hselect, fun mktime => Node.ofRow_eq hcols mktime hv hfits k ip .active (some now)⟩

end Restored

section Plain

def plainEntry (w : List Char) : Except SqlState Int64 :=
  match readSigned w with
  | (some p, []) =>
    if -9223372036854775808 ≤ ofSign p ∧ ofSign p < 9223372036854775808 then
      .ok (Int64.ofInt (ofSign p))
    else .error .outOfRange
  | _ => .error .invalidText

def plainColumns : Columns where
  inet s := some s.val
  arrayIn s :=
    match s.val.toList with
    | '{' :: body =>
      if body.getLast? = some '}' then (words (· = ',') body.dropLast).mapM plainEntry
      else .error .invalidText
    | _ => .error .invalidText
  arrayOut v := String.ofList (arrayText v)

theorem plainEntry_text (x : Int64) : plainEntry (integerText x.toInt) = .ok x := by
  have hend : Words.Ends ascii.stop [] := trivial
  have hread := readSigned_text x.toInt hend
  have hlower := x.le_toInt
  have hupper := x.toInt_lt
  rw [List.append_nil] at hread
  simp only [plainEntry, hread, ofSign_natAbs, Int64.ofInt_toInt]
  exact if_pos ⟨by simpa using hlower, by simpa using hupper⟩

theorem mapM_plainEntry (v : List Int64) :
    (v.map fun x => integerText x.toInt).mapM plainEntry = .ok v := by
  induction v with
  | nil => rfl
  | cons x v ih =>
    rw [List.map_cons, List.mapM_cons, plainEntry_text, ih]
    rfl

theorem isWord_integerText (z : Int) : IsWord (· = ',') (integerText z) where
  ne_nil := by
    obtain ⟨a, w, htext, -⟩ := integerText_cons z
    rw [htext]
    exact List.cons_ne_nil a w
  not_sep a ha := by
    have hsymbol : a = '-' ∨ a.isDigit = true := by
      cases List.mem_append.mp ha with
      | inl hsign =>
        split at hsign
        · exact .inl (List.mem_singleton.mp hsign)
        · cases hsign
      | inr hdigit => exact .inr (isDigit_of_mem_print hdigit)
    refine decide_eq_false ?_
    rintro rfl
    rcases hsymbol with h | h <;> exact absurd h (by decide)

theorem plainColumns_documented : plainColumns.Documented where
  arrayOut_eq v := String.toList_ofList
  arrayIn_eq s v h := by
    have hwords : words (· = ',') ([','].intercalate (v.map fun x => integerText x.toInt)) =
        v.map fun x => integerText x.toInt := by
      apply Words.words_intercalate (by decide)
      intro w hw
      obtain ⟨x, -, rfl⟩ := List.mem_map.mp hw
      exact isWord_integerText x.toInt
    simp only [plainColumns, h, arrayText, List.getLast?_concat, if_true, List.dropLast_concat,
      hwords, mapM_plainEntry]

def noNodes : NodeService := ⟨DbService.fresh [], .empty, rfl⟩

theorem vectors_restored_registered : ∃ t row,
    noNodes.registerNode plainColumns "127.0.0.1" [3, 5] "2024-05-01 10:00:00.123456" = (.ok 1, t) ∧
    t.nodes.select 1 = [row] ∧ ∀ mktime, Node.ofRow plainColumns mktime row =
      ((timepointOpt mktime row.lastPing).mapError RowHalt.db).map fun lastPing =>
        ⟨1, row.ipAddress, [3, 5], .active, lastPing⟩ := by
  have hreply : (noNodes.registerNode plainColumns "127.0.0.1" [3, 5]
      "2024-05-01 10:00:00.123456").1 = .ok 1 := by decide +kernel
  cases hregister : noNodes.registerNode plainColumns "127.0.0.1" [3, 5]
      "2024-05-01 10:00:00.123456" with
  | mk r t =>
    rw [hregister] at hreply
    cases hreply
    have hfits : ∀ x ∈ ([3, 5] : BenchResVec), x.toNat ≤ Database.maxSerial :=
      List.forall_mem_cons.mpr ⟨by decide, List.forall_mem_singleton.mpr (by decide)⟩
    obtain ⟨row, hselect, hrow⟩ := (vectors_restored plainColumns_documented).2 _ _ _ _ t 1
      (List.cons_ne_nil 3 [5]) hfits hregister
    exact ⟨t, row, rfl, hselect, hrow⟩

end Plain

end DistributedMathArh.Db
