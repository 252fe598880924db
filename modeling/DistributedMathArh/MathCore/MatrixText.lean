import DistributedMathArh.MathCore.MeshReading

namespace DistributedMathArh

open PrintUtils TextStream TextStream.IStream
open Words (Ends)

@[ext] structure MatrixType (K : Type) where
  cols : Nat
  rows : List (List K)
  shape : ∀ row ∈ rows, row.length = cols

namespace MatrixType

variable {K : Type}

def matrixPrint2D (t : Numbers K) (matr : MatrixType K) (printDims : Bool) (ef : EFormat) :
    List Char :=
  (if printDims then MeshCreator.dimsText t (matr.rows.length, matr.cols) else []) ++
    format t.value ef matr.rows

section Read

def readInto (t : Numbers K) : List K → IStream Char → List K × IStream Char
  | [], s => ([], s)
  | x :: xs, s =>
    let (y, s) := s.extract ascii t.value x
    let (ys, s) := readInto t xs s
    (y :: ys, s)

def readRowsInto (t : Numbers K) : List (List K) → IStream Char → List (List K) × IStream Char
  | [], s => ([], s)
  | row :: rows, s =>
    let (row, s) := readInto t row s
    let (rows, s) := readRowsInto t rows s
    (row :: rows, s)

theorem readInto_of_fail {t : Numbers K} {s : IStream Char} (h : s.fail = true) (xs : List K) :
    readInto t xs s = (xs, s) := by
  induction xs with
  | nil => rfl
  | cons x xs ih => simp only [readInto, extract_of_fail h, ih]

theorem readRowsInto_of_fail {t : Numbers K} {s : IStream Char} (h : s.fail = true) (rows : List (List K)) :
    readRowsInto t rows s = (rows, s) := by
  induction rows with
  | nil => rfl
  | cons row rows ih => simp only [readRowsInto, readInto_of_fail h, ih]

theorem length_readInto (t : Numbers K) (xs : List K) (s : IStream Char) :
    (readInto t xs s).1.length = xs.length := by
  induction xs generalizing s with
  | nil => rfl
  | cons x xs ih => exact congrArg Nat.succ (ih _)

theorem length_of_mem_readRowsInto {t : Numbers K} {cols : Nat} {rows : List (List K)}
    (h : ∀ row ∈ rows, row.length = cols) {s : IStream Char} {row : List K}
    (hrow : row ∈ (readRowsInto t rows s).1) : row.length = cols := by
  induction rows generalizing s with
  | nil => cases hrow
  | cons r rows ih =>
    obtain ⟨hr, hrows⟩ := List.forall_mem_cons.mp h
    cases List.mem_cons.mp hrow with
    | inl e => rw [e, length_readInto, hr]
    | inr hmem => exact ih hrows hmem

/-- The entries of a new matrix, which are not initialised. -/
def fresh (memory : Nat → Nat → K) (dims : DimType) : List (List K) :=
  (List.range dims.1).map fun i => (List.range dims.2).map fun j => memory i j

theorem length_of_mem_fresh {memory : Nat → Nat → K} {dims : DimType} {row : List K}
    (h : row ∈ fresh memory dims) : row.length = dims.2 := by
  obtain ⟨i, -, rfl⟩ := List.mem_map.mp h
  simp

/-- `ParseMatrix`; the given format is not used. -/
def parseMatrix (t : Numbers K) (memory : Nat → Nat → K) (dimOpt : Option DimType) (_ef : EFormat)
    (s : IStream Char) : Except Halt (MatrixType K) × IStream Char :=
  let (dims, s) : DimType × IStream Char :=
    match dimOpt with
    | some dims => (dims, s)
    | none => MeshCreator.readDims t s
  if s.fail then (.error (.exn (ioError s)), s)
  else
    let rows := readRowsInto t (fresh memory dims) s
    -- the counters of the loops are `int`s
    (if kIntMax < dims.1 ∨ 0 < dims.1 ∧ kIntMax < dims.2 then .error (.fault .signedOverflow)
      else .ok ⟨dims.2, rows.1, fun _ => length_of_mem_readRowsInto fun _ => length_of_mem_fresh⟩,
      rows.2)

end Read

section Print

def MatrixFormat (f : EigenPrintFormats) : Prop := f = .matrixFormat ∨ f = .matrixFormat1

def rowText (t : Numbers K) (f : EigenPrintFormats) (row : List K) : List Char :=
  (kEnumTo f).rowPrefix.toList ++ ['\t'].intercalate (row.map t.value.print) ++
    (kEnumTo f).rowSuffix.toList

theorem format_matrix (t : Numbers K) {f : EigenPrintFormats} (hf : MatrixFormat f)
    {rows : List (List K)} (h : rows.flatten ≠ []) :
    format t.value (kEnumTo f) rows = ['\n'].intercalate (rows.map (rowText t f)) ++ ['\n'] := by
  have hcell : cell t.value (kEnumTo f) 0 = t.value.print := by
    funext x
    rw [cell, Nat.zero_sub]
    rfl
  rcases hf with rfl | rfl
  · have hrow : rowText t .matrixFormat =
        fun r => '[' :: (['\t'].intercalate (r.map t.value.print) ++ [']']) := by
      funext r
      simp [rowText, kEnumTo]
    simp [format, kEnumTo, dontAlignCols, h] at hcell ⊢
    rw [hcell, hrow]
  · have hrow : rowText t .matrixFormat1 = fun r => ['\t'].intercalate (r.map t.value.print) := by
      funext r
      simp [rowText, kEnumTo]
    simp [format, kEnumTo, dontAlignCols, h] at hcell ⊢
    rw [hcell, hrow]

end Print

section Plain

variable [Zero K] {t : Numbers K}

theorem readInto_print (ht : t.Exact) {rest : List Char} (hrest : Ends ascii.stop rest)
    (xs memory : List K) (hlen : memory.length = xs.length) (hxs : xs ≠ []) {blanks : List Char}
    (hblanks : ∀ b ∈ blanks, ascii.space b = true) :
    readInto t memory
      (ofText (blanks ++ (['\t'].intercalate (xs.map t.value.print) ++ rest))) =
      (xs, upTo rest) := by
  induction xs generalizing memory blanks with
  | nil => exact absurd rfl hxs
  | cons x xs ih =>
    obtain ⟨m, memory, rfl⟩ := List.exists_cons_of_length_eq_add_one hlen
    cases xs with
    | nil =>
      obtain rfl := List.length_eq_zero_iff.mp (Nat.succ.inj hlen)
      have hread := extract_print ht.value blanks hblanks m x rest hrest
      simp only [List.map_cons, List.map_nil, List.intercalate_singleton, readInto]
      rw [← List.append_assoc, hread]
    | cons y xs =>
      have hread := extract_print ht.value blanks hblanks m x
        ('\t' :: (['\t'].intercalate ((y :: xs).map t.value.print) ++ rest)) rfl
      have htab : ∀ b ∈ ['\t'], ascii.space b = true := List.forall_mem_singleton.mpr rfl
      have hnext := ih memory (Nat.succ.inj hlen) (List.cons_ne_nil y xs) htab
      simp only [List.map_cons, List.append_assoc, List.cons_append, List.nil_append,
        upTo_cons] at hread hnext
      rw [List.map_cons, List.map_cons, List.intercalate_cons_cons]
      simp only [readInto, List.append_assoc, List.cons_append, List.nil_append, hread, hnext]

theorem readRowsInto_print (ht : t.Exact) {cols : Nat} (hcols : cols ≠ 0) (rows memory : List (List K))
    (hlen : memory.length = rows.length) (hmemory : ∀ row ∈ memory, row.length = cols)
    (hshape : ∀ row ∈ rows, row.length = cols) (hrows : rows ≠ []) {blanks : List Char}
    (hblanks : ∀ b ∈ blanks, ascii.space b = true) :
    readRowsInto t memory
      (ofText (blanks ++ (['\n'].intercalate (rows.map (rowText t .matrixFormat1)) ++ ['\n']))) =
      (rows, ofText ['\n']) := by
  induction rows generalizing memory blanks with
  | nil => exact absurd rfl hrows
  | cons row rows ih =>
    obtain ⟨m, memory, rfl⟩ := List.exists_cons_of_length_eq_add_one hlen
    obtain ⟨hm, hmemory⟩ := List.forall_mem_cons.mp hmemory
    obtain ⟨hrow, hshape⟩ := List.forall_mem_cons.mp hshape
    have hne : row ≠ [] := List.ne_nil_of_length_pos (hrow ▸ Nat.pos_of_ne_zero hcols)
    have htext : rowText t .matrixFormat1 row = ['\t'].intercalate (row.map t.value.print) := by
      simp [rowText, kEnumTo]
    have hends : ∀ l, Ends ascii.stop ('\n' :: l) := fun _ => rfl
    cases rows with
    | nil =>
      obtain rfl := List.length_eq_zero_iff.mp (Nat.succ.inj hlen)
      have hread := readInto_print ht (hends []) row m (hm.trans hrow.symm) hne hblanks
      simp only [List.map_cons, List.map_nil, List.intercalate_singleton, readRowsInto, htext,
        hread, upTo_cons]
    | cons r rows =>
      have hread := readInto_print ht (hends (['\n'].intercalate
        ((r :: rows).map (rowText t .matrixFormat1)) ++ ['\n'])) row m (hm.trans hrow.symm) hne
        hblanks
      have hnewline : ∀ b ∈ ['\n'], ascii.space b = true := List.forall_mem_singleton.mpr rfl
      have hnext := ih memory (Nat.succ.inj hlen) hmemory hshape (List.cons_ne_nil r rows) hnewline
      simp only [List.map_cons, List.cons_append, List.nil_append, upTo_cons] at hread hnext
      rw [List.map_cons, List.map_cons, List.intercalate_cons_cons]
      simp only [readRowsInto, htext, List.append_assoc, List.cons_append, List.nil_append, hread,
        hnext]

end Plain

section Restored

variable [Zero K] {t : Numbers K} {matr : MatrixType K}

theorem readRowsInto_bracket (ht : t.Exact) {blanks : List Char}
    (hblanks : ∀ b ∈ blanks, ascii.space b = true) (l : List Char) (m : K) (row : List K)
    (rows : List (List K)) :
    (readRowsInto t ((m :: row) :: rows) (ofText (blanks ++ '[' :: l))).1 = (0 :: row) :: rows := by
  obtain ⟨hzero, hfail⟩ := extract_other ht.value hblanks (a := '[') rfl (by decide) m l
  simp only [readRowsInto, readInto, readInto_of_fail hfail, readRowsInto_of_fail hfail, hzero]

theorem parseMatrix_header (ht : t.Exact) (memory : Nat → Nat → K) (matr : MatrixType K)
    (printDims : Bool) (ef : EFormat) :
    ∃ blanks, (∀ b ∈ blanks, ascii.space b = true) ∧
      ((parseMatrix t memory (if printDims then none else some (matr.rows.length, matr.cols)) ef
          (ofText (matr.matrixPrint2D t printDims ef))).1 = .ok matr ↔
        ¬ (kIntMax < matr.rows.length ∨ 0 < matr.rows.length ∧ kIntMax < matr.cols) ∧
        (readRowsInto t (fresh memory (matr.rows.length, matr.cols))
          (ofText (blanks ++ format t.value ef matr.rows))).1 = matr.rows) := by
  have hresult : ∀ s : IStream Char, s.fail = false →
      ((parseMatrix t memory (some (matr.rows.length, matr.cols)) ef s).1 = .ok matr ↔
        ¬ (kIntMax < matr.rows.length ∨ 0 < matr.rows.length ∧ kIntMax < matr.cols) ∧
        (readRowsInto t (fresh memory (matr.rows.length, matr.cols)) s).1 = matr.rows) := by
    intro s hs
    simp only [parseMatrix, hs, Bool.false_eq_true, if_false]
    split
    · rename_i hover
      simp [hover]
    · rename_i hover
      simp only [hover, not_false_eq_true, true_and, Except.ok.injEq]
      exact ⟨fun h => congrArg rows h, fun h => MatrixType.ext rfl h⟩
  cases printDims with
  | false => exact ⟨[], List.forall_mem_nil _, hresult _ rfl⟩
  | true =>
    have hdims := MeshCreator.readDims_print ht [] (List.forall_mem_nil _)
      (matr.rows.length, matr.cols) (format t.value ef matr.rows)
    refine ⟨['\n'], List.forall_mem_singleton.mpr rfl, (Iff.of_eq ?_).trans (hresult _ rfl)⟩
    rw [List.nil_append] at hdims
    simp only [matrixPrint2D, if_true, parseMatrix, hdims]
    rfl

def Restored (t : Numbers K) (f : EigenPrintFormats) (matr : MatrixType K) : Prop :=
  ∀ (memory : Nat → Nat → K) (printDims : Bool),
    (parseMatrix t memory (if printDims then none else some (matr.rows.length, matr.cols))
      (kEnumTo f) (ofText (matr.matrixPrint2D t printDims (kEnumTo f)))).1 = .ok matr

omit [Zero K] in
theorem flatten_ne_nil (hrows : matr.rows ≠ []) (hcols : matr.cols ≠ 0) :
    matr.rows.flatten ≠ [] := by
  obtain ⟨row, rows, h⟩ := List.exists_cons_of_ne_nil hrows
  have hrow : row.length = matr.cols := matr.shape row (h ▸ List.mem_cons_self)
  rw [h, List.flatten_cons]
  apply List.append_ne_nil_of_left_ne_nil
  exact List.ne_nil_of_length_pos (hrow ▸ Nat.pos_of_ne_zero hcols)

omit [Zero K] in
theorem fresh_succ (memory : Nat → Nat → K) (m n : Nat) : fresh memory (m + 1, n + 1) =
    (memory 0 0 :: (List.range n).map fun j => memory 0 (j + 1)) ::
      (List.range m).map fun i => (List.range (n + 1)).map fun j => memory (i + 1) j := by
  have hrow : (List.range (n + 1)).map (fun j => memory 0 j) =
      memory 0 0 :: (List.range n).map fun j => memory 0 (j + 1) := by
    rw [List.range_succ_eq_map, List.map_cons, List.map_map]
    rfl
  rw [← hrow]
  change (List.range (m + 1)).map (fun i => (List.range (n + 1)).map fun j => memory i j) = _
  rw [List.range_succ_eq_map (n := m), List.map_cons, List.map_map]
  rfl

theorem restored_matrixFormat1 (ht : t.Exact) (hrows : matr.rows ≠ []) (hcols : matr.cols ≠ 0) :
    Restored t .matrixFormat1 matr ↔ matr.rows.length ≤ kIntMax ∧ matr.cols ≤ kIntMax := by
  have hpos := List.length_pos_of_ne_nil hrows
  have hloops : ¬ (kIntMax < matr.rows.length ∨ 0 < matr.rows.length ∧ kIntMax < matr.cols) ↔
      matr.rows.length ≤ kIntMax ∧ matr.cols ≤ kIntMax := by
    simp [hpos]
  have hread (memory : Nat → Nat → K) {blanks : List Char}
      (hblanks : ∀ b ∈ blanks, ascii.space b = true) :
      (readRowsInto t (fresh memory (matr.rows.length, matr.cols))
        (ofText (blanks ++ format t.value (kEnumTo .matrixFormat1) matr.rows))).1 = matr.rows := by
    rw [format_matrix t (.inr rfl) (flatten_ne_nil hrows hcols), readRowsInto_print ht hcols
      matr.rows _ (by simp [fresh]) (fun _ => length_of_mem_fresh) matr.shape hrows hblanks]
  constructor
  · intro h
    obtain ⟨blanks, -, hiff⟩ :=
      parseMatrix_header ht (fun _ _ => 0) matr true (kEnumTo .matrixFormat1)
    exact hloops.mp (hiff.mp (h (fun _ _ => 0) true)).1
  · intro h memory printDims
    obtain ⟨blanks, hblanks, hiff⟩ :=
      parseMatrix_header ht memory matr printDims (kEnumTo .matrixFormat1)
    exact hiff.mpr ⟨hloops.mpr h, hread memory hblanks⟩

theorem restored_matrixFormat [Nontrivial K] (ht : t.Exact) (hrows : matr.rows ≠ [])
    (hcols : matr.cols ≠ 0) : Restored t .matrixFormat matr ↔ matr.rows = [[0]] := by
  obtain ⟨m, hm⟩ := Nat.exists_eq_succ_of_ne_zero (mt List.length_eq_zero_iff.mp hrows)
  obtain ⟨n, hn⟩ := Nat.exists_eq_succ_of_ne_zero hcols
  have hbracket : ∃ l, format t.value (kEnumTo .matrixFormat) matr.rows = '[' :: l := by
    obtain ⟨row, rows, h⟩ := List.exists_cons_of_ne_nil hrows
    rw [format_matrix t (.inl rfl) (flatten_ne_nil hrows hcols), h, List.map_cons]
    cases rows with
    | nil => exact ⟨_, rfl⟩
    | cons r rows =>
      rw [List.map_cons, List.intercalate_cons_cons]
      exact ⟨_, rfl⟩
  obtain ⟨l, hl⟩ := hbracket
  have hread (memory : Nat → Nat → K) {blanks : List Char}
      (hblanks : ∀ b ∈ blanks, ascii.space b = true) :
      (readRowsInto t (fresh memory (matr.rows.length, matr.cols))
        (ofText (blanks ++ format t.value (kEnumTo .matrixFormat) matr.rows))).1 =
        (0 :: (List.range n).map fun j => memory 0 (j + 1)) ::
          (List.range m).map fun i => (List.range (n + 1)).map fun j => memory (i + 1) j := by
    rw [hm, hn, hl, fresh_succ, readRowsInto_bracket ht hblanks]
  constructor
  · intro h
    obtain ⟨x, hx⟩ := exists_ne (0 : K)
    have hrestored (y : K) : (0 :: (List.range n).map fun _ => y) ::
        (List.range m).map (fun _ => (List.range (n + 1)).map fun _ => y) = matr.rows := by
      obtain ⟨blanks, hblanks, hiff⟩ :=
        parseMatrix_header ht (fun _ _ => y) matr true (kEnumTo .matrixFormat)
      rw [← hread (fun _ _ => y) hblanks]
      exact (hiff.mp (h (fun _ _ => y) true)).2
    have heq := (hrestored x).trans (hrestored 0).symm
    simp only [List.map_const', List.length_range, List.cons.injEq, true_and] at heq
    have hn0 : n = 0 := by
      by_contra hne
      exact hx ((List.replicate_right_inj hne).mp heq.1)
    have hm0 : m = 0 := by
      by_contra hne
      exact hx ((List.replicate_right_inj n.succ_ne_zero).mp
        ((List.replicate_right_inj hne).mp heq.2))
    rw [← hrestored 0, hn0, hm0]
    rfl
  · intro h memory printDims
    obtain ⟨blanks, hblanks, hiff⟩ :=
      parseMatrix_header ht memory matr printDims (kEnumTo .matrixFormat)
    have hm0 : m = 0 := by simpa [h] using hm.symm
    have hcols1 : matr.cols = 1 := (matr.shape [0] (h ▸ List.mem_cons_self)).symm
    have hn0 : n = 0 := by omega
    refine hiff.mpr ⟨?_, ?_⟩
    · simp [h, hcols1, kIntMax]
    · rw [hread memory hblanks, hm0, hn0, h]
      rfl

end Restored

end MatrixType

namespace MeshCreator

variable {K : Type} [Field K] {t : Numbers K}

def OneDimensional (f : EigenPrintFormats) : Prop :=
  f = .basicOneDimensionalVector ∨ f = .vectorFormat1 ∨ f = .vectorDbFormat

theorem parseElements_other (ht : t.Exact) (sep : String) {blanks : List Char}
    (hblanks : ∀ b ∈ blanks, ascii.space b = true) {a : Char} (hspace : ascii.space a = false)
    (ha : ascii.start a = false) (n : Nat) (l : List Char) :
    (parseElements t sep n (ofText (blanks ++ a :: l))).1 = List.replicate n 0 := by
  cases n with
  | zero => rfl
  | succ n =>
    obtain ⟨hzero, hfail⟩ := extract_other ht.value hblanks hspace ha 0 l
    simp only [parseElements, hzero, parseDelim_of_fail hfail, ite_self,
      parseElements_of_fail hfail]
    rfl

theorem parseOneDim_bracket (ht : t.Exact) {f : EigenPrintFormats} (hf : OneDimensional f)
    (hplain : f ≠ .vectorFormat1) {v : Valarray K} (hv : v ≠ []) {blanks : List Char}
    (hblanks : ∀ b ∈ blanks, ascii.space b = true) (n : Nat) :
    (parseOneDim t (some n) .default (ofText (blanks ++ format t.value (kEnumTo f) [v]))).1 =
      .ok (List.replicate n 0) := by
  have hbracket : ∃ a l, format t.value (kEnumTo f) [v] = a :: l ∧ ascii.space a = false ∧
      ascii.start a = false := by
    rw [format_kEnumTo t.value hv]
    rcases hf with rfl | rfl | rfl
    · exact ⟨'[', _, rfl, rfl, by decide⟩
    · exact absurd rfl hplain
    · exact ⟨'{', _, rfl, rfl, by decide⟩
  obtain ⟨a, l, hl, hspace, ha⟩ := hbracket
  have hnone : ∀ s, parseDelim EFormat.default.rowPrefix s = s := fun s => rfl
  rw [hl, parseOneDim_given rfl, hnone]
  exact congrArg Except.ok (parseElements_other ht _ hblanks hspace ha n l)

variable [DecidableEq K]

def Restored (t : Numbers K) (pi junk : K) (f : EigenPrintFormats) (m : MeshCreator K) : Prop :=
  ∀ printDims printLims, ∃ text m',
    m.printMesh t .serializable printDims printLims (kEnumTo f) = .ok text ∧
    (parseMeshFrom pi junk t .serializable (if printDims then none else some m.dimensions)
      (if printLims then none else some m.limits) (kEnumTo f) (ofText text)).1 = .ok m' ∧
    m'.data 2 = m.data 2

theorem restored_iff_of_shape (ht : t.Exact) {dims : DimType} {lims : LimType K}
    (h : Accepted dims lims) (hsize : sizeMul dims.1 dims.2 = dims.1 * dims.2)
    {f : EigenPrintFormats} (hf : OneDimensional f) (pi junk : K) (func : DirectionGraph K) :
    Restored t pi junk f
        (withGrids dims lims (RowMajor.grid func (phis dims lims) (thetas dims lims))) ↔
      f = .vectorFormat1 ∨
        ∀ x ∈ RowMajor.grid func (phis dims lims) (thetas dims lims), x = 0 := by
  by_cases hplain : f = .vectorFormat1
  · subst hplain
    refine iff_of_true ?_ (.inl rfl)
    intro printDims printLims
    have hread := parseSerializable_print ht h hsize pi func printDims printLims
    exact ⟨_, _, rfl, congrArg (Except.mapError Halt.exn) hread, rfl⟩
  · rw [or_iff_right hplain]
    have hread : ∀ printDims printLims : Bool, (parseSerializable pi t
        (if printDims then none else some dims) (if printLims then none else some lims)
        (ofText ((if printDims then dimsText t dims else []) ++
          (if printLims then limsText t lims else []) ++ format t.value (kEnumTo f)
            [RowMajor.grid func (phis dims lims) (thetas dims lims)]))).1 =
        .ok (withGrids dims lims (List.replicate (dims.1 * dims.2) 0)) := by
      intro printDims printLims
      obtain ⟨blanks, hblanks, hread⟩ := parseSerializable_header ht pi dims lims printDims
        printLims (format t.value (kEnumTo f)
          [RowMajor.grid func (phis dims lims) (thetas dims lims)])
      rw [hread, parseOneDim_bracket ht hf hplain (values_ne_nil h func) hblanks, hsize]
      exact (constructed_eq h _).trans (by rw [data_setData])
    have hzero : List.replicate (dims.1 * dims.2) 0 =
          RowMajor.grid func (phis dims lims) (thetas dims lims) ↔
        ∀ x ∈ RowMajor.grid func (phis dims lims) (thetas dims lims), x = 0 := by
      rw [eq_comm, List.eq_replicate_iff, length_values, and_iff_right rfl]
    rw [← hzero]
    constructor
    · intro hrestored
      obtain ⟨text, m', htext, hm', hdata⟩ := hrestored true true
      cases htext
      cases (congrArg (Except.mapError Halt.exn) (hread true true)).symm.trans hm'
      exact hdata
    · intro heq printDims printLims
      exact ⟨_, _, rfl, congrArg (Except.mapError Halt.exn) (hread printDims printLims), heq⟩

omit [Field K] [DecidableEq K] in
theorem sizeMul_of_le {m n : Nat} (hm : m ≤ kIntMax) (hn : n ≤ kIntMax) : sizeMul m n = m * n :=
  Nat.mod_eq_of_lt (lt_of_le_of_lt (Nat.mul_le_mul hm hn) (by decide))

theorem mesh_restored_iff (ht : t.Exact) {dims : DimType} {lims : LimType K} {ms ms₁ m : MeshCreator K}
    {func : DirectionGraph K} (hbuild : ms.buildMeshes dims lims = (ms₁, .ok ()))
    (happly : ms₁.applyFunction func = .ok m) {f : EigenPrintFormats} (hf : OneDimensional f)
    (pi junk : K) : Restored t pi junk f m ↔ f = .vectorFormat1 ∨ ∀ x ∈ m.data 2, x = 0 := by
  obtain ⟨hacc, hphi, htheta, rfl⟩ := buildMeshes_eq_ok hbuild
  cases (applyFunction_eq hacc ms func).symm.trans happly
  exact restored_iff_of_shape ht hacc (sizeMul_of_le htheta hphi) hf pi junk func

/-- The readers do not use the format that they are given: matrices and meshes are restored exactly
in the formats without brackets, or where every number is a zero. -/
theorem formats_restored_iff (ht : t.Exact) (pi junk : K) :
    (∀ matr : MatrixType K, matr.rows ≠ [] → matr.cols ≠ 0 → ∀ f, MatrixType.MatrixFormat f →
      (matr.Restored t f ↔
        f = .matrixFormat1 ∧ matr.rows.length ≤ kIntMax ∧ matr.cols ≤ kIntMax ∨
          matr.rows = [[0]])) ∧
    ∀ (dims : DimType) (lims : LimType K) (func : DirectionGraph K) (ms ms₁ m : MeshCreator K),
      2 ≤ dims.1 → 2 ≤ dims.2 → ms.buildMeshes dims lims = (ms₁, .ok ()) →
      ms₁.applyFunction func = .ok m → ∀ f, OneDimensional f →
      (Restored t pi junk f m ↔ f = .vectorFormat1 ∨ ∀ x ∈ m.data 2, x = 0) := by
  refine ⟨fun matr hrows hcols f hf => ?_, fun dims lims func ms ms₁ m _ _ hbuild happly f hf =>
    mesh_restored_iff ht hbuild happly hf pi junk⟩
  rcases hf with rfl | rfl
  · rw [matr.restored_matrixFormat ht hrows hcols]
    simp
  · rw [matr.restored_matrixFormat1 ht hrows hcols, and_iff_right rfl]
    refine (or_iff_left_of_imp fun h => ?_).symm
    have hone : matr.cols = 1 := (matr.shape [0] (h ▸ List.mem_cons_self)).symm
    rw [h, hone]
    simp [kIntMax]

def oneByOne (q : ℚ) : MatrixType ℚ := ⟨1, [[q]], by simp⟩

theorem formats_restored_iff_small :
    (oneByOne 5).Restored rationalNumbers .matrixFormat1 ∧
    ∃ m : MeshCreator ℚ,
      (withGrids (2, 3) unitLims ((init 3).data 2)).applyFunction (fun x y => x + y) = .ok m ∧
      Restored rationalNumbers 3 9 .vectorFormat1 m := by
  have hiff := formats_restored_iff rationalNumbers_exact (3 : ℚ) 9
  have hacc : Accepted (2, 3) unitLims := unitLims_accepted two_ne_zero three_ne_zero
  have hbuild := buildMeshes_of_accepted hacc (by decide) (by decide) (init 3)
  constructor
  · exact (hiff.1 (oneByOne 5) (List.cons_ne_nil _ _) one_ne_zero _ (.inr rfl)).mpr
      (.inl ⟨rfl, by decide⟩)
  · exact ⟨_, applyFunction_eq hacc (init 3) _, (hiff.2 _ _ _ _ _ _ le_rfl (by decide) hbuild
      (applyFunction_eq hacc (init 3) _) _ (.inr (.inl rfl))).mpr (.inl rfl)⟩

theorem not_formats_restored :
    ¬ (oneByOne 5).Restored rationalNumbers .matrixFormat ∧
    ∃ m : MeshCreator ℚ,
      (withGrids (2, 2) unitLims ((init 3).data 2)).applyFunction (fun _ _ => 1) = .ok m ∧
      ¬ Restored rationalNumbers 3 9 .basicOneDimensionalVector m := by
  have hacc : Accepted (2, 2) unitLims := unitLims_accepted two_ne_zero two_ne_zero
  have hbuild := buildMeshes_of_accepted hacc (by decide) (by decide) (init 3)
  have happly := applyFunction_eq hacc (init 3) fun _ _ => (1 : ℚ)
  constructor
  · rw [(oneByOne 5).restored_matrixFormat rationalNumbers_exact (List.cons_ne_nil _ _)
      one_ne_zero]
    decide
  · refine ⟨_, happly, ?_⟩
    rw [mesh_restored_iff rationalNumbers_exact hbuild happly (.inl rfl)]
    rintro (h | h)
    · cases h
    · have hmem : (1 : ℚ) ∈ RowMajor.grid (fun _ _ => 1) (phis (2, 2) unitLims)
          (thetas (2, 2) unitLims) := by decide +kernel
      exact one_ne_zero (h 1 hmem)

end MeshCreator

end DistributedMathArh
