import DistributedMathArh.Common.PrintUtils
import DistributedMathArh.MathCore.Mesh

namespace DistributedMathArh

open Json PrintUtils TextStream TextStream.IStream

/-- How `Json::Value` holds a floating point number and gives it back. -/
structure JsonNumbers (K : Type) where
  ofDouble : K → Value
  asDouble : Value → Except Exn K

structure JsonNumbers.Exact {K : Type} (j : JsonNumbers K) : Prop where
  asDouble_ofDouble : ∀ x, j.asDouble (j.ofDouble x) = .ok x

def kSizeRange : Nat := 18446744073709551616

def sizeMul (a b : Nat) : Nat := a * b % kSizeRange

def sizeSub (a b : Nat) : Nat := if b ≤ a then a - b else a + kSizeRange - b

def meshTitle : String := "Функция I(phi,th)"

def meshCorner : String := "phi\\th"

namespace LimType

variable {K : Type}

def toList (lims : LimType K) : List K :=
  [lims.thetaLower, lims.thetaUpper, lims.phiLower, lims.phiUpper]

end LimType

namespace MeshCreator

section Print

variable {K : Type}

def toJson (j : JsonNumbers K) (mesh : MeshCreator K) (printDims printLims : Bool) :
    Except Exn Value := do
  let res := continuousToJson j.ofDouble (mesh.data 2) false false
  let res ←
    if printDims then
      let dims := [mesh.dimensions.1, mesh.dimensions.2].map fun n => Value.uint (UInt64.ofNat n)
      Value.set "dimensions" (.array dims) res
    else pure res
  if printLims then Value.set "limits" (.array (mesh.limits.toList.map j.ofDouble)) res else pure res

def dimsText (t : Numbers K) (dims : DimType) : List Char :=
  t.size.print dims.1 ++ '\t' :: t.size.print dims.2 ++ ['\n']

def limsText (t : Numbers K) (lims : LimType K) : List Char :=
  t.value.print lims.thetaLower ++ '\t' :: t.value.print lims.thetaUpper ++ '\n' ::
    t.value.print lims.phiLower ++ '\t' :: t.value.print lims.phiUpper ++ ['\n']

variable [Zero K]

def printDec (t : Numbers K) (mesh : MeshCreator K) : Except Fault (List Char) :=
  let ext0 := mesh.dimensions.1
  let ext1 := mesh.dimensions.2
  let text (k : Fin 3) (i : Nat) := t.value.print ((mesh.data k).getD i 0)
  -- the last index that each of the loops reaches
  if ext0 = 0 ∨ (mesh.data 1).length ≤ (ext0 - 1) * ext1 ∨
      0 < ext1 ∧ ((mesh.data 0).length < ext1 ∨ (mesh.data 2).length < ext0 * ext1) then
    .error .outOfBounds
  else
    .ok (dimsText t mesh.dimensions ++ meshTitle.toList ++ '\n' :: meshCorner.toList ++
      ['\t', '\t'] ++ (List.range (ext0 - 1)).flatMap (fun i => text 1 (i * ext1) ++ ['\t']) ++
      text 1 ((ext0 - 1) * ext1) ++ '\n' ::
      (List.range ext1).flatMap fun i =>
        text 0 i ++ '\t' :: (List.range (ext0 - 1)).flatMap (fun j =>
          text 2 (j * ext1 + i) ++ ['\t']) ++ text 2 ((ext0 - 1) * ext1 + i) ++ ['\n'])

def printMesh (t : Numbers K) (mesh : MeshCreator K) (form : IoFormat)
    (printDims printLims : Bool) (ef : EFormat) : Except Fault (List Char) :=
  match form with
  | .serializable =>
    .ok ((if printDims then dimsText t mesh.dimensions else []) ++
      (if printLims then limsText t mesh.limits else []) ++ format t.value ef [mesh.data 2])
  | .humanReadable => printDec t mesh

end Print

section Parse

variable {K : Type} [Field K] [DecidableEq K]

def setData (ms : MeshCreator K) (mesh : Valarray K) : MeshCreator K :=
  { ms with data := Function.update ms.data 2 mesh }

def constructed (ms : MeshCreator K) (dims : DimType) (lims : LimType K) :
    Except Exn (MeshCreator K) :=
  (ms.constructMeshes dims lims).2.map fun _ => (ms.constructMeshes dims lims).1

def jsonDims (val : Value) : Except Exn DimType := do
  let dimensions ← val.member "dimensions"
  let ext0 ← (← dimensions.item 0).asUInt
  let ext1 ← (← dimensions.item 1).asUInt
  return (ext0.toNat, ext1.toNat)

def jsonLims (j : JsonNumbers K) (val : Value) : Except Exn (LimType K) := do
  let limits ← val.member "limits"
  let thetaLower ← j.asDouble (← limits.item 0)
  let thetaUpper ← j.asDouble (← limits.item 1)
  let phiLower ← j.asDouble (← limits.item 2)
  let phiUpper ← j.asDouble (← limits.item 3)
  return ⟨thetaLower, thetaUpper, phiLower, phiUpper⟩

def fromJson (pi : K) (j : JsonNumbers K) (val : Value) (dimOpt : Option DimType)
    (limOpt : Option (LimType K)) : Except Exn (MeshCreator K) := do
  let dims ← dimOpt.elim (jsonDims val) .ok
  let lims ← limOpt.elim (jsonLims j val) .ok
  let mm ← (init pi).constructed dims lims
  let mesh ← jsonToContinuous j.asDouble val (some (sizeMul dims.1 dims.2)) false
  return mm.setData mesh

def readDims (t : Numbers K) (s : IStream Char) : DimType × IStream Char :=
  let (ext0, s) := s.extract ascii t.size 0
  let (ext1, s) := s.extract ascii t.size 0
  ((ext0, ext1), s)

def readLims (t : Numbers K) (s : IStream Char) : LimType K × IStream Char :=
  let (thetaLower, s) := s.extract ascii t.value 0
  let (thetaUpper, s) := s.extract ascii t.value 0
  let (phiLower, s) := s.extract ascii t.value 0
  let (phiUpper, s) := s.extract ascii t.value 0
  (⟨thetaLower, thetaUpper, phiLower, phiUpper⟩, s)

def orRead {α : Type} (opt : Option α) (read : IStream Char → α × IStream Char)
    (s : IStream Char) : Except Exn α × IStream Char :=
  match opt with
  | some x => (.ok x, s)
  | none => if (read s).2.fail then (.error (ioError (read s).2), (read s).2) else
      (.ok (read s).1, (read s).2)

def readValues (t : Numbers K) (junk : K) : Nat → IStream Char → List K × IStream Char
  | 0, s => ([], s)
  | n + 1, s =>
    let (x, s) := s.extract ascii t.value junk
    let (xs, s) := readValues t junk n s
    (x :: xs, s)

def readRows (t : Numbers K) (junk : K) (ext0 : Nat) :
    Nat → IStream Char → List (K × List K) × IStream Char
  | 0, s => ([], s)
  | n + 1, s =>
    let (phi, s) := s.extract ascii t.value 0
    let (row, s) := readValues t junk ext0 s
    let (rows, s) := readRows t junk ext0 n s
    ((phi, row) :: rows, s)

def parseSerializable (pi : K) (t : Numbers K) (dimOpt : Option DimType)
    (limOpt : Option (LimType K)) (s : IStream Char) : Except Exn (MeshCreator K) × IStream Char :=
  match orRead dimOpt (readDims t) s with
  | (.error e, s) => (.error e, s)
  | (.ok dims, s) =>
    match orRead limOpt (readLims t) s with
    | (.error e, s) => (.error e, s)
    | (.ok lims, s) =>
      match parseOneDim t (some (sizeMul dims.1 dims.2)) .default s with
      | (.error e, s) => (.error e, s)
      | (.ok mesh, s) => (((init pi).setData mesh).constructed dims lims, s)

def readThetas (t : Numbers K) (junk : K) (ext0 : Nat) (s : IStream Char) :
    (K × K) × IStream Char :=
  let (lower, s) := s.extract ascii t.value 0
  let (_, s) := readValues t junk (sizeSub ext0 2) s
  let (upper, s) := s.extract ascii t.value 0
  ((lower, upper), s)

def ofRows (pi : K) (dims : DimType) (thetas : K × K) (rows : List (K × List K)) :
    Except Exn (MeshCreator K) := do
  let phi := rows.map Prod.fst
  let lims := ⟨thetas.1, thetas.2, phi.head?.getD 0, phi.getLast?.getD 0⟩
  let mm ← (init pi).constructed dims lims
  let mesh := (List.range dims.1).flatMap fun j => rows.map fun row => row.2.getD j 0
  (mm.setData mesh).constructed dims lims

def parseHumanReadable (pi junk : K) (t : Numbers K) (s : IStream Char) :
    Except Halt (MeshCreator K) × IStream Char :=
  let (dims, s) := readDims t s
  if s.fail then (.error (.exn (ioError s)), s)
  -- the counters of the loops are `int`s
  else if kIntMax < sizeSub dims.1 2 ∨ kIntMax < dims.2 ∨ 0 < dims.2 ∧ kIntMax < dims.1 then
    (.error (.fault .signedOverflow), s)
  else
    let s := ((s.skipLine '\n').skipLine '\n').skipWord ascii.space
    let (thetas, s) := readThetas t junk dims.1 s
    let (rows, s) := readRows t junk dims.1 dims.2 s
    ((ofRows pi dims thetas rows).mapError .exn, s)

/-- `ParseMeshFrom`; the given format is not used. -/
def parseMeshFrom (pi junk : K) (t : Numbers K) (form : IoFormat) (dimOpt : Option DimType)
    (limOpt : Option (LimType K)) (_ef : EFormat) (s : IStream Char) :
    Except Halt (MeshCreator K) × IStream Char :=
  match form with
  | .serializable =>
    let (mm, s) := parseSerializable pi t dimOpt limOpt s
    (mm.mapError .exn, s)
  | .humanReadable => parseHumanReadable pi junk t s

end Parse

section Shape

open RowMajor (grid)

variable {K : Type} [Field K] [DecidableEq K]

def linspace (lower upper : K) (n : Nat) : Valarray K :=
  (List.range n).map fun i : Nat => (i : K) * ((upper - lower) / (n - 1 : Nat)) + lower

omit [DecidableEq K] in
@[simp] theorem length_linspace (lower upper : K) (n : Nat) :
    (linspace lower upper n).length = n := by simp [linspace]

omit [DecidableEq K] in
theorem linspace_eq [CharZero K] (lower upper : K) (n : Nat) :
    ∃ mid : List K, mid.length = n ∧ linspace lower upper (n + 2) = lower :: mid ++ [upper] := by
  have hlast : ((n + 1 : Nat) : K) ≠ 0 := Nat.cast_ne_zero.mpr n.succ_ne_zero
  refine ⟨(List.range n).map fun i : Nat =>
    ((i + 1 : Nat) : K) * ((upper - lower) / (n + 1 : Nat)) + lower, by simp, ?_⟩
  rw [linspace, List.range_succ, List.range_succ_eq_map, List.map_append, List.map_cons,
    List.map_map, List.map_singleton]
  simp only [Nat.add_succ_sub_one, Nat.cast_zero, zero_mul, zero_add, Function.comp_def]
  rw [mul_div_cancel₀ _ hlast, sub_add_cancel]

structure Proper (dims : DimType) (lims : LimType K) : Prop where
  theta : 2 ≤ dims.1
  phi : 2 ≤ dims.2
  size : dims.1 * dims.2 ≤ kIntMax
  theta_ne : lims.thetaLower ≠ lims.thetaUpper
  phi_ne : lims.phiLower ≠ lims.phiUpper

omit [Field K] [DecidableEq K] in
theorem Proper.accepted {dims : DimType} {lims : LimType K} (h : Proper dims lims) :
    Accepted dims lims :=
  ⟨Nat.ne_of_gt (lt_of_lt_of_le Nat.zero_lt_two h.phi), h.phi_ne,
    Nat.ne_of_gt (lt_of_lt_of_le Nat.zero_lt_two h.theta), h.theta_ne⟩

omit [Field K] [DecidableEq K] in
theorem Proper.theta_le {dims : DimType} {lims : LimType K} (h : Proper dims lims) :
    dims.1 ≤ kIntMax :=
  le_trans (Nat.le_mul_of_pos_right _ (lt_of_lt_of_le Nat.zero_lt_two h.phi)) h.size

omit [Field K] [DecidableEq K] in
theorem Proper.phi_le {dims : DimType} {lims : LimType K} (h : Proper dims lims) :
    dims.2 ≤ kIntMax :=
  le_trans (Nat.le_mul_of_pos_left _ (lt_of_lt_of_le Nat.zero_lt_two h.theta)) h.size

omit [Field K] [DecidableEq K] in
theorem Proper.sizeMul_eq {dims : DimType} {lims : LimType K} (h : Proper dims lims) :
    sizeMul dims.1 dims.2 = dims.1 * dims.2 :=
  Nat.mod_eq_of_lt (lt_of_le_of_lt h.size (by decide))

def thetas (dims : DimType) (lims : LimType K) : Valarray K :=
  linspace lims.thetaLower lims.thetaUpper dims.1

def phis (dims : DimType) (lims : LimType K) : Valarray K :=
  linspace lims.phiLower lims.phiUpper dims.2

def withGrids (dims : DimType) (lims : LimType K) (mesh : Valarray K) : MeshCreator K :=
  ⟨dims, lims, ![grid (fun x _ => x) (phis dims lims) (thetas dims lims),
    grid (fun _ y => y) (phis dims lims) (thetas dims lims), mesh]⟩

variable {dims : DimType} {lims : LimType K}

theorem constructMeshes_eq (h : Accepted dims lims) (ms : MeshCreator K) :
    ms.constructMeshes dims lims = (withGrids dims lims (ms.data 2), .ok ()) := by
  have hphi := MeshStorage.myLinspace_of_ne h.phi h.phi_ne
  have htheta := MeshStorage.myLinspace_of_ne h.theta h.theta_ne
  simp only [constructMeshes, grids, hphi, htheta, bind, Except.bind, pure, Except.pure]
  simp only [MeshStorage.myMeshGrid, withGrids, grid, thetas, phis, linspace, List.map_id']

theorem constructed_eq (h : Accepted dims lims) (ms : MeshCreator K) :
    ms.constructed dims lims = .ok (withGrids dims lims (ms.data 2)) := by
  rw [constructed, constructMeshes_eq h]
  rfl

omit [Field K] [DecidableEq K] in
@[simp] theorem data_setData (ms : MeshCreator K) (mesh : Valarray K) :
    (ms.setData mesh).data 2 = mesh := by simp [setData]

omit [DecidableEq K] in
theorem setData_withGrids (mesh mesh' : Valarray K) :
    (withGrids dims lims mesh).setData mesh' = withGrids dims lims mesh' := by
  simp only [setData, withGrids, MeshCreator.mk.injEq, true_and]
  funext k
  refine Fin.cases rfl (fun k => Fin.cases rfl (fun k => Fin.cases rfl (fun k => ?_) k) k) k
  exact k.elim0

omit [DecidableEq K] in
@[simp] theorem length_values (func : DirectionGraph K) :
    (grid func (phis dims lims) (thetas dims lims)).length = dims.1 * dims.2 := by
  simp [phis, thetas]

omit [DecidableEq K] in
theorem values_ne_nil (h : Accepted dims lims) (func : DirectionGraph K) :
    grid func (phis dims lims) (thetas dims lims) ≠ [] := by
  apply List.ne_nil_of_length_pos
  rw [length_values]
  exact Nat.mul_pos (Nat.pos_of_ne_zero h.theta) (Nat.pos_of_ne_zero h.phi)

omit [DecidableEq K] in
theorem applyFunction_eq (h : Accepted dims lims) (ms : MeshCreator K) (func : DirectionGraph K) :
    (withGrids dims lims (ms.data 2)).applyFunction func =
      .ok (withGrids dims lims (grid func (phis dims lims) (thetas dims lims))) := by
  have hmesh : MeshStorage.computeFunction (grid (fun x _ => x) (phis dims lims) (thetas dims lims))
      (grid (fun _ y => y) (phis dims lims) (thetas dims lims)) func =
      .ok (grid func (phis dims lims) (thetas dims lims)) := by
    rw [MeshStorage.computeFunction, if_neg (by simp [values_ne_nil h]), if_neg (by simp),
      RowMajor.zipWith_grid]
  have hset : (withGrids dims lims (ms.data 2)).setData
      (grid func (phis dims lims) (thetas dims lims)) =
      withGrids dims lims (grid func (phis dims lims) (thetas dims lims)) :=
    setData_withGrids _ _
  simp only [applyFunction, withGrids, Matrix.cons_val_zero, Matrix.cons_val_one, hmesh, bind,
    Except.bind, pure, Except.pure]
  exact congrArg Except.ok hset

end Shape

section Text

open RowMajor (grid)
open Words (Ends)

variable {K : Type} {t : Numbers K}

def tabbed (t : Numbers K) (xs : List K) : List Char := xs.flatMap fun x => '\t' :: t.value.print x

theorem tabbed_cons (x : K) (xs : List K) :
    tabbed t (x :: xs) = '\t' :: t.value.print x ++ tabbed t xs := rfl

theorem tabbed_append (xs ys : List K) : tabbed t (xs ++ ys) = tabbed t xs ++ tabbed t ys :=
  List.flatMap_append

theorem tabbed_range (f : Nat → K) (n : Nat) :
    '\t' :: ((List.range n).flatMap (fun i => t.value.print (f i) ++ ['\t']) ++
      t.value.print (f n)) = tabbed t ((List.range (n + 1)).map f) := by
  have hshift : ∀ xs : List Nat, '\t' :: xs.flatMap (fun i => t.value.print (f i) ++ ['\t']) =
      tabbed t (xs.map f) ++ ['\t'] := by
    intro xs
    induction xs with
    | nil => rfl
    | cons i xs ih =>
      rw [List.map_cons, tabbed_cons, List.append_assoc _ _ ['\t'], ← ih, List.flatMap_cons]
      simp
  rw [List.range_succ, List.map_append, tabbed_append, ← List.cons_append, hshift]
  simp [tabbed]

theorem ends_tabbed (xs : List K) {c : Char} (hc : ascii.stop c = true) (rest : List Char) :
    Ends ascii.stop (tabbed t xs ++ c :: rest) := by
  cases xs with
  | nil => exact hc
  | cons x xs => exact rfl

def rowText (t : Numbers K) (row : K × List K) : List Char :=
  t.value.print row.1 ++ tabbed t row.2 ++ ['\n']

theorem readDims_print [Zero K] (ht : t.Exact) (blanks : List Char)
    (hblanks : ∀ b ∈ blanks, ascii.space b = true) (dims : DimType) (rest : List Char) :
    readDims t (ofText (blanks ++ (dimsText t dims ++ rest))) = (dims, ofText ('\n' :: rest)) := by
  have h0 := extract_print ht.size blanks hblanks 0 dims.1
    ('\t' :: (t.size.print dims.2 ++ '\n' :: rest)) rfl
  have h1 := extract_print ht.size ['\t'] (List.forall_mem_singleton.mpr rfl) 0 dims.2
    ('\n' :: rest) rfl
  simp only [upTo_cons, List.cons_append, List.nil_append, List.append_assoc] at h0 h1
  simp only [readDims, dimsText, List.cons_append, List.nil_append, List.append_assoc, h0, h1]

section Read

variable [Field K]

theorem readValues_tabbed (ht : t.Exact) (junk : K) (xs : List K) {c : Char}
    (hc : ascii.stop c = true) (rest : List Char) :
    readValues t junk xs.length (ofText (tabbed t xs ++ c :: rest)) = (xs, ofText (c :: rest)) := by
  induction xs with
  | nil => rfl
  | cons x xs ih =>
    have hread := extract_print ht.value ['\t'] (List.forall_mem_singleton.mpr rfl) junk x
      (tabbed t xs ++ c :: rest) (ends_tabbed xs hc rest)
    rw [upTo_append_cons] at hread
    rw [tabbed_cons, List.append_assoc, List.length_cons, readValues]
    simp only [List.cons_append, List.nil_append] at hread ⊢
    rw [hread]
    simp only [ih]

theorem readRows_print (ht : t.Exact) (junk : K) (ext0 : Nat) (rows : List (K × List K))
    (h : ∀ row ∈ rows, row.2.length = ext0) (rest : List Char) :
    readRows t junk ext0 rows.length (ofText ('\n' :: (rows.flatMap (rowText t) ++ rest))) =
      (rows, ofText ('\n' :: rest)) := by
  induction rows with
  | nil => rfl
  | cons row rows ih =>
    obtain ⟨phi, row⟩ := row
    have hlen : row.length = ext0 := h (phi, row) List.mem_cons_self
    have hphi := extract_print ht.value ['\n'] (List.forall_mem_singleton.mpr rfl) 0 phi
      (tabbed t row ++ '\n' :: (rows.flatMap (rowText t) ++ rest)) (ends_tabbed row rfl _)
    have hrow := readValues_tabbed ht junk row (c := '\n') rfl (rows.flatMap (rowText t) ++ rest)
    have hnext := ih fun r hr => h r (List.mem_cons_of_mem _ hr)
    rw [upTo_append_cons] at hphi
    rw [hlen] at hrow
    rw [List.flatMap_cons, rowText, List.length_cons, readRows]
    simp only [List.cons_append, List.nil_append, List.append_assoc] at hphi ⊢
    rw [hphi]
    simp only [hrow, hnext]

theorem readLims_print (ht : t.Exact) (blanks : List Char)
    (hblanks : ∀ b ∈ blanks, ascii.space b = true) (lims : LimType K) (rest : List Char) :
    readLims t (ofText (blanks ++ (limsText t lims ++ rest))) = (lims, ofText ('\n' :: rest)) := by
  have h0 := extract_print ht.value blanks hblanks 0 lims.thetaLower
    ('\t' :: (t.value.print lims.thetaUpper ++ '\n' :: (t.value.print lims.phiLower ++
      '\t' :: (t.value.print lims.phiUpper ++ '\n' :: rest)))) rfl
  have h1 := extract_print ht.value ['\t'] (List.forall_mem_singleton.mpr rfl) 0 lims.thetaUpper
    ('\n' :: (t.value.print lims.phiLower ++
      '\t' :: (t.value.print lims.phiUpper ++ '\n' :: rest))) rfl
  have h2 := extract_print ht.value ['\n'] (List.forall_mem_singleton.mpr rfl) 0 lims.phiLower
    ('\t' :: (t.value.print lims.phiUpper ++ '\n' :: rest)) rfl
  have h3 := extract_print ht.value ['\t'] (List.forall_mem_singleton.mpr rfl) 0 lims.phiUpper
    ('\n' :: rest) rfl
  simp only [upTo_cons, List.cons_append, List.nil_append, List.append_assoc] at h0 h1 h2 h3
  simp only [readLims, limsText, List.cons_append, List.nil_append, List.append_assoc, h0, h1, h2,
    h3]

end Read

end Text

section HumanReadable

open RowMajor (grid)

variable {K : Type} [Field K] {t : Numbers K}

def decRows (xs ys : List K) (func : DirectionGraph K) : List (K × List K) :=
  xs.map fun x => (x, ys.map (func x))

def decText (t : Numbers K) (xs ys : List K) (func : DirectionGraph K) : List Char :=
  dimsText t (ys.length, xs.length) ++ (meshTitle.toList ++ '\n' :: (meshCorner.toList ++
    '\t' :: (tabbed t ys ++ '\n' :: (decRows xs ys func).flatMap (rowText t))))

theorem flatMap_rowText (t : Numbers K) (xs ys : List K) (func : DirectionGraph K) (hy : ys ≠ []) :
    ((List.range xs.length).flatMap fun i =>
      t.value.print ((grid (fun x _ => x) xs ys).getD i 0) ++ tabbed t ((List.range ys.length).map
        fun j => (grid func xs ys).getD (j * xs.length + i) 0) ++ ['\n']) =
      (decRows xs ys func).flatMap (rowText t) := by
  have hrows : decRows xs ys func = (List.range xs.length).map fun i =>
      ((grid (fun x _ => x) xs ys).getD i 0,
        (List.range ys.length).map fun j => (grid func xs ys).getD (j * xs.length + i) 0) := by
    apply List.ext_getElem
    · simp [decRows]
    · intro i hi _
      have hlt : i < xs.length := by simpa [decRows] using hi
      have hphi := RowMajor.getD_grid (fun x _ => x) hlt (List.length_pos_of_ne_nil hy) (0 : K)
      rw [Nat.zero_mul, Nat.zero_add] at hphi
      simp only [decRows, List.getElem_map, List.getElem_range, hphi,
        RowMajor.map_range_grid func ys hlt]
  rw [hrows, List.flatMap_map]
  rfl

theorem printDec_grid {xs ys : List K} (hx : xs ≠ []) (hy : ys ≠ []) (lims : LimType K)
    (func : DirectionGraph K) :
    printDec t ⟨(ys.length, xs.length), lims, ![grid (fun x _ => x) xs ys,
      grid (fun _ y => y) xs ys, grid func xs ys]⟩ = .ok (decText t xs ys func) := by
  have hxpos := List.length_pos_of_ne_nil hx
  obtain ⟨n, hn⟩ := Nat.exists_eq_succ_of_ne_zero (List.length_pos_of_ne_nil hy).ne'
  have hlen : ∀ f : DirectionGraph K, (grid f xs ys).length = ys.length * xs.length :=
    fun f => RowMajor.length_grid f xs ys
  have hbounds : ¬ (ys.length = 0 ∨ ys.length * xs.length ≤ (ys.length - 1) * xs.length ∨
      0 < xs.length ∧ (ys.length * xs.length < xs.length ∨
        ys.length * xs.length < ys.length * xs.length)) := by
    rw [hn, Nat.succ_sub_one, Nat.succ_mul]
    omega
  have hheader := RowMajor.map_range_grid (fun (_ : K) y => y) ys hxpos (0 : K)
  simp only [Nat.add_zero, List.map_id'] at hheader
  have hfirst := tabbed_range (t := t)
    (fun i => (grid (fun _ y => y) xs ys).getD (i * xs.length) 0) n
  have hrow := fun i => tabbed_range (t := t)
    (fun j => (grid func xs ys).getD (j * xs.length + i) 0) n
  rw [← Nat.succ_eq_add_one, ← hn] at hfirst hrow
  rw [hheader] at hfirst
  simp only [printDec, Matrix.cons_val_zero, Matrix.cons_val_one, Matrix.cons_val, hlen]
  rw [if_neg hbounds, decText, ← flatMap_rowText t xs ys func hy, hn,
    Nat.succ_sub_one]
  simp only [hn] at hfirst hrow
  simp only [← hfirst, ← hrow]
  simp

theorem printDec_withGrids {dims : DimType} {lims : LimType K} (h : Proper dims lims)
    (func : DirectionGraph K) :
    printDec t (withGrids dims lims (grid func (phis dims lims) (thetas dims lims))) =
      .ok (decText t (phis dims lims) (thetas dims lims) func) := by
  have htheta : (thetas dims lims).length = dims.1 := length_linspace _ _ _
  have hphi : (phis dims lims).length = dims.2 := length_linspace _ _ _
  have hx : phis dims lims ≠ [] := List.ne_nil_of_length_pos
    (hphi ▸ lt_of_lt_of_le Nat.zero_lt_two h.phi)
  have hy : thetas dims lims ≠ [] := List.ne_nil_of_length_pos
    (htheta ▸ lt_of_lt_of_le Nat.zero_lt_two h.theta)
  have hprint := printDec_grid (t := t) hx hy lims func
  rwa [htheta, hphi] at hprint

theorem ends_linspace [CharZero K] (lower upper : K) {n : Nat} (hn : 2 ≤ n) :
    ∃ mid : List K, mid.length = n - 2 ∧ linspace lower upper n = lower :: mid ++ [upper] := by
  obtain ⟨k, rfl⟩ := Nat.exists_eq_add_of_le' hn
  exact linspace_eq lower upper k

theorem sizeSub_of_le {a b : Nat} (h : b ≤ a) : sizeSub a b = a - b := if_pos h

theorem skip_header (rest : List Char) :
    (((ofText ('\n' :: (meshTitle.toList ++ '\n' :: (meshCorner.toList ++ '\t' :: rest)))).skipLine
      '\n').skipLine '\n').skipWord ascii.space = ofText ('\t' :: rest) := by
  have hcorner : meshCorner.toList = 'p' :: "hi\\th".toList := by decide
  have htitle : '\n' ∉ meshTitle.toList := by decide
  have hword : (ofText ('p' :: "hi\\th".toList ++ '\t' :: rest)).skipWord ascii.space =
      ofText ('\t' :: rest) := skipWord_append rfl rfl rfl rest
  have hline := skipLine_append (List.not_mem_nil (a := '\n'))
    (meshTitle.toList ++ '\n' :: (meshCorner.toList ++ '\t' :: rest))
  rw [List.nil_append] at hline
  rw [hline, skipLine_append htitle, hcorner, hword]

variable [DecidableEq K] [CharZero K] {dims : DimType} {lims : LimType K}

omit [DecidableEq K] in
theorem readThetas_print (ht : t.Exact) (h : Proper dims lims) (junk : K) (rest : List Char) :
    readThetas t junk dims.1 (ofText ('\t' :: (tabbed t (thetas dims lims) ++ '\n' :: rest))) =
      ((lims.thetaLower, lims.thetaUpper), ofText ('\n' :: rest)) := by
  obtain ⟨mid, hmid, htheta⟩ := ends_linspace lims.thetaLower lims.thetaUpper h.theta
  have hlower := extract_print ht.value ['\t', '\t'] (by simp [ascii]) 0 lims.thetaLower
    (tabbed t mid ++ '\t' :: (t.value.print lims.thetaUpper ++ '\n' :: rest))
    (ends_tabbed mid rfl _)
  have hvalues := readValues_tabbed ht junk mid (c := '\t') rfl
    (t.value.print lims.thetaUpper ++ '\n' :: rest)
  have hupper := extract_print ht.value ['\t'] (List.forall_mem_singleton.mpr rfl) 0
    lims.thetaUpper ('\n' :: rest) rfl
  have htext : '\t' :: (tabbed t (thetas dims lims) ++ '\n' :: rest) =
      ['\t', '\t'] ++ t.value.print lims.thetaLower ++ (tabbed t mid ++ '\t' ::
        (t.value.print lims.thetaUpper ++ '\n' :: rest)) := by
    rw [thetas, htheta]
    simp [tabbed]
  rw [upTo_append_cons] at hlower
  rw [hmid, ← sizeSub_of_le h.theta] at hvalues
  simp only [upTo_cons, List.cons_append, List.nil_append] at hupper
  rw [htext, readThetas, hlower]
  simp only [hvalues, hupper]

theorem ofRows_decRows (h : Proper dims lims) (pi : K) (func : DirectionGraph K) :
    ofRows pi dims (lims.thetaLower, lims.thetaUpper)
      (decRows (phis dims lims) (thetas dims lims) func) =
      .ok (withGrids dims lims (grid func (phis dims lims) (thetas dims lims))) := by
  obtain ⟨mid, -, hphi⟩ := ends_linspace lims.phiLower lims.phiUpper h.phi
  have hfst : (decRows (phis dims lims) (thetas dims lims) func).map Prod.fst =
      phis dims lims := by
    rw [decRows, List.map_map]
    exact List.map_id _
  have hlims : (⟨lims.thetaLower, lims.thetaUpper, (phis dims lims).head?.getD 0,
      (phis dims lims).getLast?.getD 0⟩ : LimType K) = lims := by
    rw [phis, hphi, List.getLast?_concat]
    rfl
  have hmesh : ((List.range dims.1).flatMap fun j =>
      (decRows (phis dims lims) (thetas dims lims) func).map fun row => row.2.getD j 0) =
      grid func (phis dims lims) (thetas dims lims) := by
    have hcolumns := RowMajor.grid_eq_columns func (phis dims lims) (thetas dims lims) 0
    have hlen : (thetas dims lims).length = dims.1 := length_linspace _ _ _
    rw [hlen] at hcolumns
    simp only [decRows, List.map_map, Function.comp_def, hcolumns]
  simp only [ofRows, hfst, hlims, hmesh, constructed_eq h.accepted, bind, Except.bind, data_setData]

theorem parseHumanReadable_decText (ht : t.Exact) (h : Proper dims lims) (pi junk : K)
    (func : DirectionGraph K) :
    (parseHumanReadable pi junk t
      (ofText (decText t (phis dims lims) (thetas dims lims) func))).1 =
      .ok (withGrids dims lims (grid func (phis dims lims) (thetas dims lims))) := by
  have htheta : (thetas dims lims).length = dims.1 := length_linspace _ _ _
  have hphi : (phis dims lims).length = dims.2 := length_linspace _ _ _
  have hloops : ¬ (kIntMax < sizeSub dims.1 2 ∨ kIntMax < dims.2 ∨
      0 < dims.2 ∧ kIntMax < dims.1) := by
    rw [sizeSub_of_le h.theta]
    simp only [not_or, not_and, not_lt]
    exact ⟨le_trans (Nat.sub_le _ _) h.theta_le, h.phi_le, fun _ => h.theta_le⟩
  have hlen : (decRows (phis dims lims) (thetas dims lims) func).length = dims.2 := by
    rw [decRows, List.length_map, hphi]
  have hdims := readDims_print ht [] (List.forall_mem_nil _) dims (meshTitle.toList ++ '\n' ::
    (meshCorner.toList ++ '\t' :: (tabbed t (thetas dims lims) ++ '\n' ::
      (decRows (phis dims lims) (thetas dims lims) func).flatMap (rowText t))))
  have hthetas := readThetas_print ht h junk
    ((decRows (phis dims lims) (thetas dims lims) func).flatMap (rowText t))
  have hrows := readRows_print ht junk dims.1 (decRows (phis dims lims) (thetas dims lims) func)
    (by simp [decRows, htheta]) []
  rw [List.nil_append] at hdims
  rw [hlen, List.append_nil] at hrows
  rw [decText, htheta, hphi]
  simp only [parseHumanReadable, hdims, if_neg hloops, skip_header, hthetas, hrows,
    ofRows_decRows h]
  rfl

end HumanReadable

section Serializable

open RowMajor (grid)

variable {K : Type} [Field K] {t : Numbers K}

theorem orRead_print {α : Type} {read : IStream Char → α × IStream Char} {text blanks : List Char}
    {x : α} (hblanks : ∀ b ∈ blanks, ascii.space b = true) (rest : List Char)
    (hread : read (ofText (blanks ++ (text ++ rest))) = (x, ofText ('\n' :: rest)))
    (printed : Bool) :
    ∃ blanks', (∀ b ∈ blanks', ascii.space b = true) ∧
      orRead (if printed then none else some x) read
        (ofText (blanks ++ ((if printed then text else []) ++ rest))) =
        (.ok x, ofText (blanks' ++ rest)) := by
  cases printed with
  | false => exact ⟨blanks, hblanks, rfl⟩
  | true =>
    refine ⟨['\n'], List.forall_mem_singleton.mpr rfl, ?_⟩
    simp only [if_true, orRead, hread]
    rfl

theorem tab_blank : isOnlyWhitespace "\t".toList = true := rfl

theorem parseOneDim_vector (ht : t.Exact) {v : Valarray K} (hv : v ≠ []) {blanks : List Char}
    (hblanks : ∀ b ∈ blanks, ascii.space b = true) :
    ∃ s, parseOneDim t (some v.length) .default
      (ofText (blanks ++ format t.value (kEnumTo .vectorFormat1) [v])) = (.ok v, s) := by
  have htab : "\t".toList = ['\t'] := rfl
  have helements := parseElements_print ht htab rfl ['\n'] rfl v hv blanks hblanks
  have htext : blanks ++ format t.value (kEnumTo .vectorFormat1) [v] =
      blanks ++ "\t".toList.intercalate (v.map t.value.print) ++ ['\n'] := by
    rw [format_kEnumTo t.value hv]
    simp [kEnumTo]
  have hnone : ∀ s, parseDelim EFormat.default.rowPrefix s = s := fun s => rfl
  have hsep : isOnlyWhitespace EFormat.default.coeffSeparator.toList = true := rfl
  rw [htext, parseOneDim_given rfl, hnone, parseElements_blank hsep tab_blank, helements]
  exact ⟨_, rfl⟩

variable [DecidableEq K] {dims : DimType} {lims : LimType K}

theorem parseSerializable_header (ht : t.Exact) (pi : K) (dims : DimType) (lims : LimType K)
    (printDims printLims : Bool) (rest : List Char) :
    ∃ blanks, (∀ b ∈ blanks, ascii.space b = true) ∧
      (parseSerializable pi t (if printDims then none else some dims)
        (if printLims then none else some lims)
        (ofText ((if printDims then dimsText t dims else []) ++
          (if printLims then limsText t lims else []) ++ rest))).1 =
        ((parseOneDim t (some (sizeMul dims.1 dims.2)) .default (ofText (blanks ++ rest))).1.bind
          fun mesh => ((init pi).setData mesh).constructed dims lims) := by
  obtain ⟨blanks, hblanks, hdims⟩ := orRead_print (List.forall_mem_nil _)
    ((if printLims then limsText t lims else []) ++ rest)
    (readDims_print ht [] (List.forall_mem_nil _) dims _) printDims
  obtain ⟨blanks', hblanks', hlims⟩ := orRead_print hblanks rest
    (readLims_print ht blanks hblanks lims _) printLims
  rw [List.nil_append] at hdims
  refine ⟨blanks', hblanks', ?_⟩
  rw [List.append_assoc, parseSerializable, hdims]
  simp only [hlims]
  cases parseOneDim t (some (sizeMul dims.1 dims.2)) .default (ofText (blanks' ++ rest)) with
  | mk r s => cases r <;> rfl

theorem parseSerializable_print (ht : t.Exact) (h : Accepted dims lims)
    (hsize : sizeMul dims.1 dims.2 = dims.1 * dims.2) (pi : K)
    (func : DirectionGraph K) (printDims printLims : Bool) :
    (parseSerializable pi t (if printDims then none else some dims)
      (if printLims then none else some lims)
      (ofText ((if printDims then dimsText t dims else []) ++
        (if printLims then limsText t lims else []) ++
        format t.value (kEnumTo .vectorFormat1)
          [grid func (phis dims lims) (thetas dims lims)]))).1 =
      .ok (withGrids dims lims (grid func (phis dims lims) (thetas dims lims))) := by
  obtain ⟨blanks, hblanks, hread⟩ := parseSerializable_header ht pi dims lims printDims printLims
    (format t.value (kEnumTo .vectorFormat1) [grid func (phis dims lims) (thetas dims lims)])
  obtain ⟨s, hmesh⟩ := parseOneDim_vector ht (values_ne_nil h func) hblanks
  rw [length_values, ← hsize] at hmesh
  rw [hread, hmesh]
  exact (constructed_eq h _).trans (by rw [data_setData])

end Serializable

section JsonText

open RowMajor (grid)

variable {K : Type} [Field K] [DecidableEq K] {j : JsonNumbers K} {dims : DimType}
  {lims : LimType K}

def dimsValue (dims : DimType) : Value :=
  .array ([dims.1, dims.2].map fun n => .uint (UInt64.ofNat n))

def limsValue (j : JsonNumbers K) (lims : LimType K) : Value :=
  .array (lims.toList.map j.ofDouble)

def meshMembers (j : JsonNumbers K) (mesh : MeshCreator K) (printDims printLims : Bool) : Members :=
  ("data", .array ((mesh.data 2).map j.ofDouble)) ::
    ((if printDims then [("dimensions", dimsValue mesh.dimensions)] else []) ++
      if printLims then [("limits", limsValue j mesh.limits)] else [])

omit [Field K] [DecidableEq K] in
theorem toJson_eq (mesh : MeshCreator K) (h : mesh.data 2 ≠ []) (printDims printLims : Bool) :
    mesh.toJson j printDims printLims =
      .ok (.object (meshMembers j mesh printDims printLims)) := by
  cases printDims <;> cases printLims <;>
    simp [toJson, continuousToJson, h, Value.set, Members.set, meshMembers, dimsValue, limsValue,
      pure, Except.pure, bind, Except.bind]

theorem asUInt_ofNat {n : Nat} (h : n ≤ kIntMax) :
    (Value.uint (UInt64.ofNat n)).asUInt = .ok (UInt32.ofNat n) ∧ (UInt32.ofNat n).toNat = n := by
  have hmax : n < 4294967296 := lt_of_le_of_lt h (by decide)
  have h64 : (UInt64.ofNat n).toNat = n := UInt64.toNat_ofNat_of_lt (lt_trans hmax (by decide))
  have hle : (UInt64.ofNat n).toNat ≤ 4294967295 := by
    rw [h64]
    exact Nat.le_of_lt_succ hmax
  have hvalue : (Value.uint (UInt64.ofNat n)).asUnsigned 4294967295 "UInt" =
      .ok (UInt64.ofNat n).toNat := Value.asUnsigned_uint hle
  constructor
  · have hmap := congrArg (Except.map UInt32.ofNat) hvalue
    rw [h64] at hmap
    exact hmap
  · exact UInt32.toNat_ofNat_of_lt hmax

omit [Field K] [DecidableEq K] in
theorem jsonDims_eq (h : Proper dims lims) {val : Value}
    (hval : val.member "dimensions" = .ok (dimsValue dims)) : jsonDims val = .ok dims := by
  obtain ⟨h0, h0'⟩ := asUInt_ofNat h.theta_le
  obtain ⟨h1, h1'⟩ := asUInt_ofNat h.phi_le
  simp [jsonDims, hval, dimsValue, Value.item, h0, h1, h0', h1', bind, Except.bind, pure,
    Except.pure]

omit [Field K] [DecidableEq K] in
theorem jsonLims_eq (hj : j.Exact) {val : Value}
    (hval : val.member "limits" = .ok (limsValue j lims)) : jsonLims j val = .ok lims := by
  simp [jsonLims, hval, limsValue, LimType.toList, Value.item, hj.asDouble_ofDouble, bind,
    Except.bind, pure, Except.pure]

theorem elim_passed {α : Type} {x : α} (read : Except Exn α) (printed : Bool)
    (h : printed = true → read = .ok x) :
    (if printed then none else some x).elim read .ok = .ok x := by
  cases printed with
  | false => rfl
  | true => exact h rfl

theorem fromJson_eq (hj : j.Exact) (h : Proper dims lims) (pi : K) (func : DirectionGraph K)
    {val : Value} {printDims printLims : Bool}
    (hdata : val.member "data" =
      .ok (.array ((grid func (phis dims lims) (thetas dims lims)).map j.ofDouble)))
    (hdims : printDims = true → val.member "dimensions" = .ok (dimsValue dims))
    (hlims : printLims = true → val.member "limits" = .ok (limsValue j lims)) :
    fromJson pi j val (if printDims then none else some dims)
      (if printLims then none else some lims) =
      .ok (withGrids dims lims (grid func (phis dims lims) (thetas dims lims))) := by
  have hmesh := jsonToContinuous_array hdata hj.asDouble_ofDouble
  rw [length_values, ← h.sizeMul_eq] at hmesh
  have hdims' := elim_passed (jsonDims val) printDims fun e => jsonDims_eq h (hdims e)
  have hlims' := elim_passed (jsonLims j val) printLims fun e => jsonLims_eq hj (hlims e)
  simp only [fromJson, hdims', hlims', hmesh, constructed_eq h.accepted, setData_withGrids, bind,
    Except.bind, pure, Except.pure]

theorem fromJson_toJson (hj : j.Exact) (h : Proper dims lims) (pi : K) (func : DirectionGraph K)
    (printDims printLims : Bool) :
    fromJson pi j (.object (meshMembers j
        (withGrids dims lims (grid func (phis dims lims) (thetas dims lims))) printDims printLims))
      (if printDims then none else some dims) (if printLims then none else some lims) =
      .ok (withGrids dims lims (grid func (phis dims lims) (thetas dims lims))) := by
  apply fromJson_eq hj h pi func rfl
  · rintro rfl
    rfl
  · rintro rfl
    cases printDims <;> rfl

end JsonText

section RoundTrip

open RowMajor (grid)

variable {K : Type} [Field K] [DecidableEq K] [CharZero K]

/-- Decoding undoes all three encodings; what is left out is passed, and the form for readers
leaves nothing out. -/
theorem mesh_restored {t : Numbers K} {j : JsonNumbers K} (ht : t.Exact) (hj : j.Exact)
    {dims : DimType} {lims : LimType K} (h : Proper dims lims) {ms ms₁ m : MeshCreator K}
    {func : DirectionGraph K} (hc : ms.constructMeshes dims lims = (ms₁, .ok ()))
    (ha : ms₁.applyFunction func = .ok m) (pi junk : K) :
    (∀ printDims printLims, (m.toJson j printDims printLims >>= fun val =>
      fromJson pi j val (if printDims then none else some m.dimensions)
        (if printLims then none else some m.limits)) = .ok m) ∧
    (∀ printDims printLims, ∃ text,
      m.printMesh t .serializable printDims printLims (kEnumTo .vectorFormat1) = .ok text ∧
      (parseMeshFrom pi junk t .serializable (if printDims then none else some m.dimensions)
        (if printLims then none else some m.limits) .default (ofText text)).1 = .ok m) ∧
    ∀ printDims printLims dimOpt limOpt, ∃ text,
      m.printMesh t .humanReadable printDims printLims (kEnumTo .vectorFormat1) = .ok text ∧
      (parseMeshFrom pi junk t .humanReadable dimOpt limOpt .default (ofText text)).1 = .ok m := by
  rw [constructMeshes_eq h.accepted] at hc
  cases hc
  rw [applyFunction_eq h.accepted] at ha
  cases ha
  refine ⟨fun printDims printLims => ?_, fun printDims printLims => ⟨_, rfl, ?_⟩,
    fun printDims printLims dimOpt limOpt =>
      ⟨decText t (phis dims lims) (thetas dims lims) func, ?_, ?_⟩⟩
  · rw [toJson_eq _ (values_ne_nil h.accepted func)]
    exact fromJson_toJson hj h pi func printDims printLims
  · have hread := parseSerializable_print ht h.accepted h.sizeMul_eq pi func printDims printLims
    rw [parseMeshFrom]
    exact congrArg (Except.mapError Halt.exn) hread
  · exact printDec_withGrids h func
  · exact parseHumanReadable_decText ht h pi junk func

def rationalJson : JsonNumbers ℚ where
  ofDouble q := .real (.num q)
  asDouble
    | .real (.num q) => .ok q
    | .int i => .ok i.toInt
    | .uint n => .ok n.toNat
    | .null => .ok 0
    | .bool b => .ok (if b then 1 else 0)
    | _ => .error (.logicError "Value is not convertible to double.")

theorem rationalJson_exact : rationalJson.Exact := ⟨fun _ => rfl⟩

def rationalNumbers : Numbers ℚ := ⟨decimal, fraction⟩

theorem rationalNumbers_exact : rationalNumbers.Exact := ⟨decimal_ascii, fraction_ascii⟩

def unitLims : LimType ℚ := ⟨0, 1, 0, 1⟩

theorem unitLims_proper : Proper (2, 3) unitLims where
  theta := le_rfl
  phi := Nat.le_succ 2
  size := by decide
  theta_ne := zero_ne_one
  phi_ne := zero_ne_one

theorem mesh_restored_rational :
    ∃ m : MeshCreator ℚ, m.data 2 = [0, 1 / 2, 1, 1, 3 / 2, 2] ∧
      (m.toJson rationalJson true false >>= fun val =>
        fromJson 3 rationalJson val none (some m.limits)) = .ok m ∧
      (∃ text, m.printMesh rationalNumbers .serializable false true (kEnumTo .vectorFormat1) =
        .ok text ∧ (parseMeshFrom 3 7 rationalNumbers .serializable (some m.dimensions) none .default
          (ofText text)).1 = .ok m) ∧
      ∃ text, m.printMesh rationalNumbers .humanReadable true true (kEnumTo .vectorFormat1) =
        .ok text ∧ (parseMeshFrom 3 7 rationalNumbers .humanReadable none none .default
          (ofText text)).1 = .ok m := by
  have hrestored := mesh_restored rationalNumbers_exact rationalJson_exact unitLims_proper
    (constructMeshes_eq unitLims_proper.accepted (init 3))
    (applyFunction_eq unitLims_proper.accepted (init 3) fun x y => x + y) 3 7
  refine ⟨_, ?_, hrestored.1 true false, hrestored.2.1 false true,
    hrestored.2.2 true true none none⟩
  decide +kernel

end RoundTrip

end MeshCreator

end DistributedMathArh
