import Mathlib.Algebra.Ring.Defs
import DistributedMathArh.Common.PrintUtils

namespace DistributedMathArh.PrintUtils

open TextStream TextStream.IStream
open Words (Ends)

variable {K : Type}

structure Components (K : Type) where
  ax : K
  bx : K
  ay : K
  by' : K

def solutionTitle : String := "Решение системы диполей"

def solutionHeader : String := " Ai(x\\ny)\tBi(x\\ny)\tCi(x\\ny)"

section Print

variable [Semiring K]

def components (solution : Valarray K) (n i : Nat) : Components K where
  ax := solution.getD (2 * i) 0
  bx := solution.getD (2 * i + 2 * n) 0
  ay := solution.getD (2 * i + 1) 0
  by' := solution.getD (2 * i + 1 + 2 * n) 0

def lineText (t : Numbers K) (a b c : K) : List Char :=
  t.value.print a ++ '\t' :: t.value.print b ++ '\t' :: t.value.print c ++ ['\n']

def componentsText (t : Numbers K) (sqrt : K → K) (r : Components K) : List Char :=
  let cx := sqrt (r.ax * r.ax + r.bx * r.bx)
  let cy := sqrt (r.ay * r.ay + r.by' * r.by')
  lineText t r.ax r.bx cx ++ lineText t r.ay r.by' cy

def printSolutionFormat1 (t : Numbers K) (sqrt : K → K) (solution : Valarray K) :
    Except Fault (List Char) :=
  let n := solution.length / 4
  intLoop (4 * n - 1) (t.size.print n ++ '\n' :: solutionTitle.toList ++
    '\n' :: solutionHeader.toList ++ '\n' ::
      (List.range n).flatMap fun i => componentsText t sqrt (components solution n i))

def printSolution (t : Numbers K) (sqrt : K → K) (sol : Valarray K) (format : IoFormat)
    (printSize : Bool) (ef : EFormat) : Except Fault (List Char) :=
  match format with
  | .serializable => .ok (oneDimSerialize t sol printSize ef)
  | .humanReadable => printSolutionFormat1 t sqrt sol

end Print

section Parse

variable [Zero K]

def parseLine (t : Numbers K) (junk : K) (s : IStream Char) : (K × K) × IStream Char :=
  let (a, s) := s.extract ascii t.value junk
  let (b, s) := s.extract ascii t.value junk
  let (_, s) := s.extract ascii t.value junk
  ((a, b), s)

/-- The loop of `ParseSolution` over the dipoles; its variables hold anything at first. -/
def parseRecords (t : Numbers K) (junk : K) : Nat → IStream Char → List (Components K) × IStream Char
  | 0, s => ([], s)
  | n + 1, s =>
    let ((ax, bx), s) := parseLine t junk s
    let ((ay, by'), s) := parseLine t junk s
    let (rs, s) := parseRecords t junk n s
    (⟨ax, bx, ay, by'⟩ :: rs, s)

def ofRecords (rs : List (Components K)) : Valarray K :=
  (rs.flatMap fun r => [r.ax, r.ay]) ++ rs.flatMap fun r => [r.bx, r.by']

/-- `ParseSolution`; `2 * i + 1` is an `int` for every dipole `i`. -/
def parseSolution (t : Numbers K) (junk : K) (format : IoFormat) (sizeOpt : Option Nat)
    (ef : EFormat) (s : IStream Char) : Except Halt (Valarray K) × IStream Char :=
  match format with
  | .serializable => (parseOneDim t sizeOpt ef s).map (Except.mapError .exn) id
  | .humanReadable =>
    let (n, s) := s.extract ascii t.size 0
    let s := ((s.skipLine '\n').skipLine '\n').skipLine '\n'
    if s.fail then (.error (.exn (ioError s)), s)
    else
      let (rs, s) := parseRecords t junk n s
      ((intLoop (2 * n - 1) (ofRecords rs)).mapError .fault, s)

end Parse

section Records

theorem flatMap_pairs {α : Type} (f : Nat → α) (n : Nat) :
    ((List.range n).flatMap fun i => [f (2 * i), f (2 * i + 1)]) = (List.range (2 * n)).map f := by
  induction n with
  | zero => rfl
  | succ n ih =>
    rw [List.range_succ, List.flatMap_append, ih, Nat.mul_succ, List.range_succ, List.range_succ]
    simp

variable [Semiring K] {t : Numbers K}

theorem ofRecords_components {sol : Valarray K} {n : Nat} (h : sol.length = 4 * n) :
    ofRecords ((List.range n).map (components sol n)) = sol := by
  have hfst := RowMajor.map_getD_range sol 0 (k := 0) (n := 2 * n) (by omega)
  have hsnd := RowMajor.map_getD_range sol 0 (k := 2 * n) (n := 2 * n) (by omega)
  have hrest : (sol.drop (2 * n)).take (2 * n) = sol.drop (2 * n) := by
    apply List.take_of_length_le
    rw [List.length_drop]
    omega
  simp only [Nat.add_zero, List.drop_zero] at hfst
  rw [ofRecords, List.flatMap_map, List.flatMap_map]
  simp only [components]
  rw [flatMap_pairs fun i => sol.getD i 0, flatMap_pairs fun i => sol.getD (i + 2 * n) 0, hfst, hsnd,
    hrest, List.take_append_drop]

theorem parseLine_print (ht : t.Exact) (junk a b c : K) {blanks : List Char}
    (hblanks : ∀ x ∈ blanks, ascii.space x = true) (rest : List Char) :
    parseLine t junk (ofText (blanks ++ (lineText t a b c ++ rest))) =
      ((a, b), ofText ('\n' :: rest)) := by
  have htab : ∀ x ∈ ['\t'], ascii.space x = true := List.forall_mem_singleton.mpr rfl
  have ha := extract_print ht.value blanks hblanks junk a
    ('\t' :: (t.value.print b ++ '\t' :: (t.value.print c ++ '\n' :: rest))) rfl
  have hb := extract_print ht.value ['\t'] htab junk b ('\t' :: (t.value.print c ++ '\n' :: rest)) rfl
  have hc := extract_print ht.value ['\t'] htab junk c ('\n' :: rest) rfl
  simp only [List.append_assoc, List.cons_append, List.nil_append, upTo_cons] at ha hb hc
  simp only [parseLine, lineText, List.append_assoc, List.cons_append, List.nil_append, ha, hb, hc]

theorem parseRecords_print (ht : t.Exact) (sqrt : K → K) (junk : K) (rs : List (Components K))
    {blanks : List Char} (hblanks : ∀ b ∈ blanks, ascii.space b = true) :
    (parseRecords t junk rs.length (ofText (blanks ++ rs.flatMap (componentsText t sqrt)))).1 =
      rs := by
  induction rs generalizing blanks with
  | nil => rfl
  | cons r rs ih =>
    have hnewline : ∀ b ∈ ['\n'], ascii.space b = true := List.forall_mem_singleton.mpr rfl
    have hx := parseLine_print ht junk r.ax r.bx (sqrt (r.ax * r.ax + r.bx * r.bx)) hblanks
      (lineText t r.ay r.by' (sqrt (r.ay * r.ay + r.by' * r.by')) ++
        rs.flatMap (componentsText t sqrt))
    have hy := parseLine_print ht junk r.ay r.by' (sqrt (r.ay * r.ay + r.by' * r.by')) hnewline
      (rs.flatMap (componentsText t sqrt))
    have hrest := ih hnewline
    simp only [List.cons_append, List.nil_append] at hy hrest
    rw [List.flatMap_cons, List.length_cons, componentsText, List.append_assoc]
    simp only [parseRecords, hx, hy, hrest]

theorem skip_header (rest : List Char) :
    (((ofText ('\n' :: (solutionTitle.toList ++ '\n' :: (solutionHeader.toList ++ '\n' :: rest)))
      ).skipLine '\n').skipLine '\n').skipLine '\n' = ofText rest := by
  have htitle : '\n' ∉ solutionTitle.toList := by decide
  have hheader : '\n' ∉ solutionHeader.toList := by decide
  have hline := skipLine_append (List.not_mem_nil (a := '\n')) (solutionTitle.toList ++
    '\n' :: (solutionHeader.toList ++ '\n' :: rest))
  rw [List.nil_append] at hline
  rw [hline, skipLine_append htitle, skipLine_append hheader]

theorem solution_restored (ht : t.Exact) (sqrt : K → K) (junk : K) {n : Nat}
    (hn : 4 * n < 2147483648) {sol : Valarray K} (hsol : sol.length = 4 * n) (printSize : Bool)
    (sizeOpt : Option Nat) (ef ef' : EFormat) :
    ∃ text, printSolution t sqrt sol .humanReadable printSize ef = .ok text ∧
      (parseSolution t junk .humanReadable sizeOpt ef' (ofText text)).1 = .ok sol := by
  have hquarter : sol.length / 4 = n := by omega
  have hwrite : ¬ kIntMax < 4 * n - 1 := by
    unfold kIntMax
    omega
  have hread : ¬ kIntMax < 2 * n - 1 := by
    unfold kIntMax
    omega
  have hsize := size_read ht [] (List.forall_mem_nil _) n (solutionTitle.toList ++
    '\n' :: (solutionHeader.toList ++ '\n' ::
      ((List.range n).map (components sol n)).flatMap (componentsText t sqrt)))
  have hrecords := parseRecords_print ht sqrt junk ((List.range n).map (components sol n))
    (List.forall_mem_nil _)
  rw [List.length_map, List.length_range, List.nil_append] at hrecords
  rw [List.nil_append] at hsize
  refine ⟨_, if_neg (hquarter.symm ▸ hwrite), ?_⟩
  simp only [hquarter, List.append_assoc, List.cons_append]
  rw [← List.flatMap_map (f := components sol n) (g := componentsText t sqrt)]
  simp only [parseSolution, hsize, skip_header, hrecords, ofRecords_components hsol, intLoop,
    if_neg hread]
  rfl

omit [Semiring K] in
theorem coordinates_restored [Zero K] (ht : t.Exact) {n : Nat} (hn : 4 * n < 2147483648)
    {coord : Valarray K} (hcoord : coord.length = 2 * n) (printSize : Bool) (sizeOpt : Option Nat)
    (ef ef' : EFormat) :
    ∃ text, printCoordinates t coord .humanReadable printSize ef = .ok text ∧
      (parseCoordinates t .humanReadable sizeOpt ef' (ofText text)).1 = .ok coord := by
  have heven : Even coord.length := ⟨n, by omega⟩
  have hhalf : coord.length / 2 ≤ kIntMax := by
    unfold kIntMax
    omega
  have hread := parseCoordinates_print ht heven hhalf ef' []
  rw [List.append_nil] at hread
  refine ⟨_, (printCoordinates_eq_ok ef).mpr ⟨hhalf, rfl⟩, ?_⟩
  exact congrArg Prod.fst hread

/-- One solution and one vector of coordinates are restored from what people read. -/
theorem records_restored (ht : t.Exact) (sqrt : K → K) (junk : K) (printSize : Bool)
    (sizeOpt : Option Nat) (ef ef' : EFormat) (n : Nat) (hn : 4 * n < 2147483648) :
    (∀ sol : Valarray K, sol.length = 4 * n →
      ∃ text, printSolution t sqrt sol .humanReadable printSize ef = .ok text ∧
        (parseSolution t junk .humanReadable sizeOpt ef' (ofText text)).1 = .ok sol) ∧
    ∀ coord : Valarray K, coord.length = 2 * n →
      ∃ text, printCoordinates t coord .humanReadable printSize ef = .ok text ∧
        (parseCoordinates t .humanReadable sizeOpt ef' (ofText text)).1 = .ok coord :=
  ⟨fun _ hsol => solution_restored ht sqrt junk hn hsol printSize sizeOpt ef ef',
    fun _ hcoord => coordinates_restored ht hn hcoord printSize sizeOpt ef ef'⟩

theorem records_restored_pair :
    (∃ text, printSolution decimalNumbers Nat.sqrt [1, 2, 3, 4, 5, 6, 7, 8] .humanReadable true
        EFormat.default = .ok text ∧
      (parseSolution decimalNumbers 9 .humanReadable none EFormat.default (ofText text)).1 =
        .ok [1, 2, 3, 4, 5, 6, 7, 8]) ∧
    ∃ text, printCoordinates decimalNumbers [1, 2, 3, 4] .humanReadable true EFormat.default =
        .ok text ∧
      (parseCoordinates decimalNumbers .humanReadable none EFormat.default (ofText text)).1 =
        .ok [1, 2, 3, 4] := by
  have h := records_restored decimalNumbers_exact Nat.sqrt 9 true none EFormat.default
    EFormat.default 2 (by decide)
  exact ⟨h.1 _ rfl, h.2 _ rfl⟩

end Records

end DistributedMathArh.PrintUtils
