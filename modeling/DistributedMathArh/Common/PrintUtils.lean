import Mathlib.Algebra.Group.Even
import DistributedMathArh.Lib.RowMajor
import DistributedMathArh.Lib.TextStream
import DistributedMathArh.Common.Valarray

namespace DistributedMathArh.PrintUtils

open TextStream TextStream.IStream
open Words (Ends)

structure EFormat where
  precision : Int
  flags : Int
  coeffSeparator : String
  rowSeparator : String
  rowPrefix : String
  rowSuffix : String
  matPrefix : String
  matSuffix : String
  fill : Char
  deriving DecidableEq

def streamPrecision : Int := -1

def dontAlignCols : Int := 1

def EFormat.default : EFormat := ⟨streamPrecision, 0, " ", "\n", "", "", "", "", ' '⟩

inductive EigenPrintFormats
  | basicOneDimensionalVector
  | vectorFormat1
  | matrixFormat
  | matrixFormat1
  | vectorDbFormat
  deriving DecidableEq

def kEnumTo : EigenPrintFormats → EFormat
  | .basicOneDimensionalVector =>
    ⟨streamPrecision, dontAlignCols, ",", "", "[", "]", "", "\n", ' '⟩
  | .vectorFormat1 => ⟨streamPrecision, dontAlignCols, "\t", "", "", "", "", "\n", ' '⟩
  | .matrixFormat => ⟨streamPrecision, dontAlignCols, "\t", "\n", "[", "]", "", "\n", ' '⟩
  | .matrixFormat1 => ⟨streamPrecision, dontAlignCols, "\t", "\n", "", "", "", "\n", ' '⟩
  | .vectorDbFormat => ⟨streamPrecision, dontAlignCols, ",", "", "\x7b", "\x7d", "", "", ' '⟩

inductive IoFormat
  | serializable
  | humanReadable
  deriving DecidableEq

/-- How the standard streams print and read sizes and the elements of the vectors. -/
structure Numbers (K : Type) where
  size : Codec Char Nat
  value : Codec Char K

structure Numbers.Exact {K : Type} [Zero K] (t : Numbers K) : Prop where
  size : t.size.Exact ascii
  value : t.value.Exact ascii

variable {K : Type}

/-- The text of one coefficient; `0` is no width at all. -/
def cell (c : Codec Char K) (fmt : EFormat) (width : Nat) (x : K) : List Char :=
  List.replicate (width - (c.print x).length) fmt.fill ++ c.print x

/-- `operator<<` of a matrix with a format.  Unless the flags say otherwise the columns are
aligned, and the later rows are moved to below the end of the matrix prefix. -/
def format (c : Codec Char K) (fmt : EFormat) (rows : List (List K)) : List Char :=
  if rows.flatten = [] then fmt.matPrefix.toList ++ fmt.matSuffix.toList
  else
    let aligned := fmt.flags % 2 = 0
    let width := if aligned then (rows.flatten.map fun x => (c.print x).length).foldr max 0 else 0
    let rowSpacer :=
      if aligned then
        List.replicate (fmt.matPrefix.toList.reverse.takeWhile (· ≠ '\n')).length ' '
      else []
    let row (r : List K) :=
      fmt.rowPrefix.toList ++ fmt.coeffSeparator.toList.intercalate (r.map (cell c fmt width)) ++
        fmt.rowSuffix.toList
    fmt.matPrefix.toList ++
      (fmt.rowSeparator.toList ++ rowSpacer).intercalate (rows.map row) ++ fmt.matSuffix.toList

def oneDimSerialize (t : Numbers K) (col : Valarray K) (printSize : Bool) (ef : EFormat) :
    List Char :=
  (if printSize then t.size.print col.length ++ ['\n'] else []) ++ format t.value ef [col]

def title : String := "Координаты диполей"

def kIntMax : Nat := 2147483647

/-- A loop with an `int` counter up to `n` ends, or the counter overflows. -/
def intLoop {α : Type} (n : Nat) (x : α) : Except Fault α :=
  if kIntMax < n then .error .signedOverflow else .ok x

def printCoordinates2 [Zero K] (t : Numbers K) (col : Valarray K) : Except Fault (List Char) :=
  let n := col.length / 2
  intLoop n (title.toList ++ '\n' :: t.size.print n ++ '\n' ::
    (List.range n).flatMap fun i =>
      t.value.print (col.getD i 0) ++ '\t' :: t.value.print (col.getD (i + n) 0) ++ ['\n'])

def printCoordinates [Zero K] (t : Numbers K) (coord : Valarray K) (format : IoFormat)
    (printSize : Bool) (ef : EFormat) : Except Fault (List Char) :=
  match format with
  | .serializable => .ok (oneDimSerialize t coord printSize ef)
  | .humanReadable => printCoordinates2 t coord

section Read

def rdstate (s : IStream Char) : Nat := (if s.eof then 2 else 0) + if s.fail then 4 else 0

def ioError (s : IStream Char) : Exn := .ioError (toString (rdstate s))

def isOnlyWhitespace (text : List Char) : Bool := !text.isEmpty && text.all ascii.space

def matchText : List Char → IStream Char → IStream Char
  | [], s => s
  | k :: ks, s =>
    match s.get with
    | (some c, s) => if c = k then matchText ks s else s.failed
    | (none, s) => s.failed

def parseDelim (str : String) (s : IStream Char) : IStream Char :=
  if isOnlyWhitespace str.toList then s else matchText str.toList s

variable [Zero K]

/-- The loop of `ParseOneDim` over the elements, which are zero at first. -/
def parseElements (t : Numbers K) (separator : String) :
    Nat → IStream Char → List K × IStream Char
  | 0, s => ([], s)
  | n + 1, s =>
    let (x, s) := s.extract ascii t.value 0
    let s := if n = 0 then s else parseDelim separator s
    let (xs, s) := parseElements t separator n s
    (x :: xs, s)

def parseOneDim (t : Numbers K) (sizeOpt : Option Nat) (ef : EFormat) (s : IStream Char) :
    Except Exn (Valarray K) × IStream Char :=
  let (size, s) : Nat × IStream Char :=
    match sizeOpt with
    | some size => (size, s)
    | none => s.extract ascii t.size 0
  if s.fail then (.error (ioError s), s)
  else
    let s := parseDelim ef.rowPrefix s
    let (res, s) := parseElements t ef.coeffSeparator size s
    (.ok res, parseDelim ef.rowSuffix s)

def parsePoints (t : Numbers K) : Nat → IStream Char → List (K × K) × IStream Char
  | 0, s => ([], s)
  | n + 1, s =>
    let (x, s) := s.extract ascii t.value 0
    let (y, s) := s.extract ascii t.value 0
    let (ps, s) := parsePoints t n s
    ((x, y) :: ps, s)

def parseCoordinates (t : Numbers K) (format : IoFormat) (sizeOpt : Option Nat) (ef : EFormat)
    (s : IStream Char) : Except Halt (Valarray K) × IStream Char :=
  match format with
  | .serializable => (parseOneDim t sizeOpt ef s).map (Except.mapError .exn) id
  | .humanReadable =>
    let (n, s) := (s.skipLine '\n').extract ascii t.size 0
    if s.fail then (.error (.exn (ioError s)), s)
    else
      let (ps, s) := parsePoints t n s
      ((intLoop n (ps.map Prod.fst ++ ps.map Prod.snd)).mapError .fault, s)

def readAll {ε α : Type} (parse : IStream Char → Except ε α × IStream Char) :
    Nat → IStream Char → Except ε (List α)
  | 0, _ => .ok []
  | n + 1, s =>
    match parse s with
    | (.error e, _) => .error e
    | (.ok v, s) => (readAll parse n s).map (v :: ·)

end Read

section Delimiters

variable {s : IStream Char}

theorem matchText_of_fail (h : s.fail = true) (ks : List Char) : matchText ks s = s := by
  cases ks with
  | nil => rfl
  | cons k ks =>
    have hget : s.get = (none, s) := by
      rw [IStream.get.eq_def, good_of_fail h, if_neg Bool.false_ne_true, failed_of_fail h]
    rw [matchText, hget]
    exact failed_of_fail h

theorem parseDelim_of_fail (h : s.fail = true) (str : String) : parseDelim str s = s := by
  unfold parseDelim
  split
  · rfl
  · exact matchText_of_fail h _

theorem matchText_append (ks rest : List Char) :
    matchText ks (ofText (ks ++ rest)) = ofText rest := by
  induction ks with
  | nil => rfl
  | cons k ks ih => simp [matchText, ih]

theorem parseDelim_append (str : String) (rest : List Char) :
    ∃ blanks, (∀ b ∈ blanks, ascii.space b = true) ∧
      parseDelim str (ofText (str.toList ++ rest)) = ofText (blanks ++ rest) := by
  unfold parseDelim
  split
  · rename_i h
    rw [isOnlyWhitespace, Bool.and_eq_true, List.all_eq_true] at h
    exact ⟨str.toList, h.2, rfl⟩
  · exact ⟨[], by simp, matchText_append str.toList rest⟩

theorem fail_parseDelim {str : String} {k c : Char} {ks : List Char}
    (hstr : str.toList = k :: ks) (hk : ascii.space k = false) (hc : c ≠ k) (rest : List Char) :
    (parseDelim str (ofText (c :: rest))).fail = true := by
  rw [parseDelim, hstr]
  simp [isOnlyWhitespace, hk, matchText, hc]

end Delimiters

section OneDim

theorem format_kEnumTo (c : Codec Char K) {v : Valarray K} (hv : v ≠ []) (f : EigenPrintFormats) :
    format c (kEnumTo f) [v] = (kEnumTo f).rowPrefix.toList ++
      (kEnumTo f).coeffSeparator.toList.intercalate (v.map c.print) ++
      (kEnumTo f).rowSuffix.toList ++ (kEnumTo f).matSuffix.toList := by
  have hcell : cell c (kEnumTo f) 0 = c.print := by
    funext x
    rw [cell, Nat.zero_sub]
    rfl
  cases f <;> simp [format, kEnumTo, dontAlignCols, hv] at hcell ⊢ <;> rw [hcell]

theorem oneDimSerialize_kEnumTo (t : Numbers K) {v : Valarray K} (hv : v ≠ [])
    (f : EigenPrintFormats) :
    oneDimSerialize t v true (kEnumTo f) = t.size.print v.length ++ '\n' ::
      ((kEnumTo f).rowPrefix.toList ++
        (kEnumTo f).coeffSeparator.toList.intercalate (v.map t.value.print) ++
        (kEnumTo f).rowSuffix.toList ++ (kEnumTo f).matSuffix.toList) := by
  rw [oneDimSerialize, format_kEnumTo t.value hv]
  simp

variable [Zero K] {t : Numbers K}

theorem size_read (ht : t.Exact) (blanks : List Char)
    (hblanks : ∀ b ∈ blanks, ascii.space b = true) (n : Nat) (rest : List Char) :
    (ofText (blanks ++ t.size.print n ++ '\n' :: rest)).extract ascii t.size 0 =
      (n, ofText ('\n' :: rest)) :=
  extract_print ht.size blanks hblanks 0 n ('\n' :: rest) rfl

theorem parseElements_of_fail {s : IStream Char} (h : s.fail = true) (sep : String) (n : Nat) :
    parseElements t sep n s = (List.replicate n 0, s) := by
  induction n with
  | zero => rfl
  | succ n ih =>
    rw [parseElements, extract_of_fail h]
    simp only [parseDelim_of_fail h, ite_self, ih]
    rfl

theorem parseElements_blank {sep sep' : String} (h : isOnlyWhitespace sep.toList = true)
    (h' : isOnlyWhitespace sep'.toList = true) (n : Nat) (s : IStream Char) :
    parseElements t sep n s = parseElements t sep' n s := by
  induction n generalizing s with
  | zero => rfl
  | succ n ih => simp only [parseElements, parseDelim, if_pos h, if_pos h', ih]

theorem parseElements_print (ht : t.Exact) {sep : String} {k : Char} {ks : List Char}
    (hsep : sep.toList = k :: ks) (hk : ascii.stop k = true) (rest : List Char)
    (hrest : Ends ascii.stop rest) (v : Valarray K) (hv : v ≠ []) (blanks : List Char)
    (hblanks : ∀ b ∈ blanks, ascii.space b = true) :
    parseElements t sep v.length
      (ofText (blanks ++ sep.toList.intercalate (v.map t.value.print) ++ rest)) =
      (v, upTo rest) := by
  induction v generalizing blanks with
  | nil => exact absurd rfl hv
  | cons x v ih =>
    cases v with
    | nil =>
      simp only [List.map_cons, List.map_nil, List.intercalate_singleton]
      rw [List.length_singleton, parseElements,
        extract_print ht.value blanks hblanks 0 x rest hrest]
      rfl
    | cons y v =>
      obtain ⟨blanks', hblanks', hdelim⟩ := parseDelim_append sep
        (sep.toList.intercalate ((y :: v).map t.value.print) ++ rest)
      have hread := extract_print ht.value blanks hblanks 0 x
        (sep.toList ++ (sep.toList.intercalate ((y :: v).map t.value.print) ++ rest))
        (hsep ▸ hk)
      have hupTo : upTo (sep.toList ++
          (sep.toList.intercalate ((y :: v).map t.value.print) ++ rest)) =
          ofText (sep.toList ++
            (sep.toList.intercalate ((y :: v).map t.value.print) ++ rest)) := by
        rw [hsep]
        rfl
      rw [List.map_cons, List.map_cons, List.intercalate_cons_cons, List.length_cons,
        parseElements]
      simp only [List.append_assoc, List.map_cons] at hread hupTo hdelim ⊢
      rw [hread, hupTo]
      simp only [List.length_cons, Nat.succ_ne_zero, if_false, hdelim]
      have hnext := ih (List.cons_ne_nil y v) blanks' hblanks'
      simp only [List.append_assoc, List.map_cons, List.length_cons] at hnext
      rw [hnext]

theorem parseOneDim_of_size {s s' : IStream Char} {n : Nat}
    (h : s.extract ascii t.size 0 = (n, s')) (hs : s'.fail = false) (ef : EFormat) :
    parseOneDim t none ef s =
      (.ok (parseElements t ef.coeffSeparator n (parseDelim ef.rowPrefix s')).1,
        parseDelim ef.rowSuffix
          (parseElements t ef.coeffSeparator n (parseDelim ef.rowPrefix s')).2) := by
  simp [parseOneDim, h, hs]

theorem parseOneDim_given {s : IStream Char} (hs : s.fail = false) (n : Nat) (ef : EFormat) :
    parseOneDim t (some n) ef s =
      (.ok (parseElements t ef.coeffSeparator n (parseDelim ef.rowPrefix s)).1,
        parseDelim ef.rowSuffix
          (parseElements t ef.coeffSeparator n (parseDelim ef.rowPrefix s)).2) := by
  simp [parseOneDim, hs]

theorem parseOneDim_of_fail {s : IStream Char} (h : s.fail = true) (ef : EFormat) :
    parseOneDim t none ef s = (.error (ioError s), s) := by
  simp [parseOneDim, extract_of_fail h, h]

def Plain (f : EigenPrintFormats) : Prop := f = .vectorFormat1 ∨ f = .matrixFormat1

theorem parseOneDim_plain (ht : t.Exact) {f : EigenPrintFormats} (hf : Plain f) {v : Valarray K}
    (hv : v ≠ []) {blanks : List Char} (hblanks : ∀ b ∈ blanks, ascii.space b = true)
    (rest : List Char) :
    parseOneDim t none (kEnumTo f)
      (ofText (blanks ++ oneDimSerialize t v true (kEnumTo f) ++ rest)) =
      (.ok v, ofText ('\n' :: rest)) := by
  have hformat : (kEnumTo f).rowPrefix = "" ∧ (kEnumTo f).rowSuffix = "" ∧
      (kEnumTo f).coeffSeparator = "\t" ∧ (kEnumTo f).matSuffix = "\n" := by
    cases hf with
    | inl h => cases h; exact ⟨rfl, rfl, rfl, rfl⟩
    | inr h => cases h; exact ⟨rfl, rfl, rfl, rfl⟩
  obtain ⟨hrow, hsuffix, hsep, hmat⟩ := hformat
  have htext : blanks ++ oneDimSerialize t v true (kEnumTo f) ++ rest =
      blanks ++ t.size.print v.length ++
        '\n' :: ("\t".toList.intercalate (v.map t.value.print) ++ '\n' :: rest) := by
    rw [oneDimSerialize_kEnumTo t hv, hrow, hsuffix, hsep, hmat]
    simp
  have htab : "\t".toList = ['\t'] := rfl
  have helements := parseElements_print ht htab rfl ('\n' :: rest) rfl v hv ['\n']
    (List.forall_mem_singleton.mpr rfl)
  rw [htext, parseOneDim_of_size (size_read ht blanks hblanks v.length _) rfl, hrow, hsuffix, hsep]
  simp only [upTo_cons, List.cons_append, List.nil_append] at helements
  simp only [parseDelim, isOnlyWhitespace, matchText, String.toList_empty, List.isEmpty_nil,
    Bool.not_true, Bool.false_and, Bool.false_eq_true, if_false, helements]

theorem parseOneDim_prefixed (ht : t.Exact) {f : EigenPrintFormats} (hf : ¬ Plain f)
    {v : Valarray K} (hv : v ≠ []) (rest : List Char) :
    ∃ s, s.fail = true ∧
      parseOneDim t none (kEnumTo f) (ofText (oneDimSerialize t v true (kEnumTo f) ++ rest)) =
        (.ok (List.replicate v.length 0), s) := by
  have hrow : ∃ k, (kEnumTo f).rowPrefix.toList = [k] ∧ ascii.space k = false ∧ '\n' ≠ k := by
    cases f with
    | basicOneDimensionalVector => exact ⟨'[', rfl, rfl, by decide⟩
    | vectorFormat1 => exact absurd (.inl rfl) hf
    | matrixFormat => exact ⟨'[', rfl, rfl, by decide⟩
    | matrixFormat1 => exact absurd (.inr rfl) hf
    | vectorDbFormat => exact ⟨'{', rfl, rfl, by decide⟩
  obtain ⟨k, hk, hspace, hne⟩ := hrow
  rw [oneDimSerialize_kEnumTo t hv, List.append_assoc, List.cons_append]
  have hsize := size_read ht [] (List.forall_mem_nil _) v.length
    ((kEnumTo f).rowPrefix.toList ++
        (kEnumTo f).coeffSeparator.toList.intercalate (v.map t.value.print) ++
        (kEnumTo f).rowSuffix.toList ++ (kEnumTo f).matSuffix.toList ++ rest)
  rw [List.nil_append] at hsize
  rw [parseOneDim_of_size hsize rfl]
  have hfail := fail_parseDelim hk hspace hne ((kEnumTo f).rowPrefix.toList ++
        (kEnumTo f).coeffSeparator.toList.intercalate (v.map t.value.print) ++
        (kEnumTo f).rowSuffix.toList ++ (kEnumTo f).matSuffix.toList ++ rest)
  rw [parseElements_of_fail hfail, parseDelim_of_fail hfail]
  exact ⟨_, hfail, rfl⟩

theorem readAll_plain (ht : t.Exact) {f : EigenPrintFormats} (hf : Plain f)
    (vs : List (Valarray K)) (hvs : ∀ v ∈ vs, v ≠ []) (blanks : List Char)
    (hblanks : ∀ b ∈ blanks, ascii.space b = true) :
    readAll (parseOneDim t none (kEnumTo f)) vs.length
      (ofText (blanks ++ vs.flatMap fun v => oneDimSerialize t v true (kEnumTo f))) =
      .ok vs := by
  induction vs generalizing blanks with
  | nil => rfl
  | cons v vs ih =>
    have hv := parseOneDim_plain ht hf (hvs v List.mem_cons_self) hblanks
      (vs.flatMap fun v => oneDimSerialize t v true (kEnumTo f))
    have hnext := ih (fun w hw => hvs w (List.mem_cons_of_mem v hw)) ['\n']
      (List.forall_mem_singleton.mpr rfl)
    rw [List.flatMap_cons, ← List.append_assoc, List.length_cons, readAll, hv]
    simp only [List.cons_append, List.nil_append] at hnext
    simp only [hnext, Except.map]

def OneDimRestored (t : Numbers K) (ef : EFormat) (vs : List (Valarray K)) : Prop :=
  readAll (parseOneDim t none ef) vs.length
    (ofText (vs.flatMap fun v => oneDimSerialize t v true ef)) = .ok vs

theorem oneDimRestored_iff (ht : t.Exact) (f : EigenPrintFormats) {vs : List (Valarray K)}
    (hvs : ∀ v ∈ vs, v ≠ []) :
    OneDimRestored t (kEnumTo f) vs ↔
      Plain f ∨ vs = [] ∨ ∃ n, vs = [List.replicate n 0] := by
  by_cases hf : Plain f
  · apply iff_of_true _ (.inl hf)
    exact readAll_plain ht hf vs hvs [] (List.forall_mem_nil _)
  rw [OneDimRestored, or_iff_right hf]
  cases vs with
  | nil => exact iff_of_true rfl (.inl rfl)
  | cons v vs =>
    obtain ⟨s, hs, hv⟩ := parseOneDim_prefixed ht hf (hvs v List.mem_cons_self)
      (vs.flatMap fun v => oneDimSerialize t v true (kEnumTo f))
    rw [List.flatMap_cons, List.length_cons, readAll, hv]
    cases vs with
    | nil =>
      simp only [readAll, List.length_nil, Except.map, Except.ok.injEq, List.cons.injEq, and_true,
        List.cons_ne_nil, false_or]
      constructor
      · intro h
        exact ⟨v.length, h.symm⟩
      · rintro ⟨n, rfl⟩
        rw [List.length_replicate]
    | cons w vs =>
      simp [readAll, parseOneDim_of_fail hs, Except.map]

end OneDim

section Coordinates

variable {t : Numbers K}

def pointsText (t : Numbers K) (ps : List (K × K)) : List Char :=
  ps.flatMap fun p => t.value.print p.1 ++ '\t' :: t.value.print p.2 ++ ['\n']

variable [Zero K]

def points (col : Valarray K) : List (K × K) :=
  (List.range (col.length / 2)).map fun i => (col.getD i 0, col.getD (i + col.length / 2) 0)

@[simp] theorem length_points (col : Valarray K) : (points col).length = col.length / 2 := by
  simp [points]

theorem points_unzip {col : Valarray K} (h : Even col.length) :
    (points col).map Prod.fst ++ (points col).map Prod.snd = col := by
  obtain ⟨n, hn⟩ := h
  have hhalf : col.length / 2 = n := by omega
  have hfst := RowMajor.map_getD_range col 0 (k := 0) (n := n) (by omega)
  have hsnd := RowMajor.map_getD_range col 0 (k := n) (n := n) hn.ge
  simp only [Nat.add_zero, List.drop_zero] at hfst
  have hdrop : (col.drop n).take n = col.drop n := by
    apply List.take_of_length_le
    rw [List.length_drop, hn, Nat.add_sub_cancel]
  rw [points, hhalf, List.map_map, List.map_map]
  simp only [Function.comp_def]
  rw [hfst, hsnd, hdrop, List.take_append_drop]

theorem printCoordinates2_eq (t : Numbers K) (col : Valarray K) :
    printCoordinates2 t col = intLoop (col.length / 2) (title.toList ++ '\n' ::
      (t.size.print (col.length / 2) ++ '\n' :: pointsText t (points col))) := by
  rw [printCoordinates2, pointsText, points, List.flatMap_map]
  simp

theorem parsePoints_print (ht : t.Exact) (ps : List (K × K)) (rest : List Char) :
    parsePoints t ps.length (ofText ('\n' :: (pointsText t ps ++ rest))) =
      (ps, ofText ('\n' :: rest)) := by
  induction ps with
  | nil => rfl
  | cons p ps ih =>
    obtain ⟨x, y⟩ := p
    have hx := extract_print ht.value ['\n'] (List.forall_mem_singleton.mpr rfl) 0 x
      ('\t' :: (t.value.print y ++ '\n' :: (pointsText t ps ++ rest))) rfl
    have hy := extract_print ht.value ['\t'] (List.forall_mem_singleton.mpr rfl) 0 y
      ('\n' :: (pointsText t ps ++ rest)) rfl
    have htext : '\n' :: (pointsText t ((x, y) :: ps) ++ rest) = ['\n'] ++ t.value.print x ++
        '\t' :: (t.value.print y ++ '\n' :: (pointsText t ps ++ rest)) := by
      simp [pointsText]
    simp only [upTo_cons, List.cons_append, List.nil_append] at hy
    rw [htext, List.length_cons, parsePoints, hx]
    simp only [upTo_cons, hy, ih]

theorem title_line : '\n' ∉ title.toList := by decide

theorem parseCoordinates_print (ht : t.Exact) {col : Valarray K} (heven : Even col.length)
    (hn : col.length / 2 ≤ kIntMax) (ef : EFormat) (rest : List Char) :
    parseCoordinates t .humanReadable none ef (ofText (title.toList ++ '\n' ::
      (t.size.print (col.length / 2) ++ '\n' :: (pointsText t (points col) ++ rest)))) =
      (.ok col, ofText ('\n' :: rest)) := by
  have hline := skipLine_append title_line
    (t.size.print (col.length / 2) ++ '\n' :: (pointsText t (points col) ++ rest))
  have hsize := size_read ht [] (List.forall_mem_nil _) (col.length / 2)
    (pointsText t (points col) ++ rest)
  have hpoints := parsePoints_print ht (points col) rest
  rw [List.nil_append] at hsize
  rw [length_points] at hpoints
  simp only [parseCoordinates, hline, hsize, hpoints, points_unzip heven, intLoop,
    if_neg hn.not_gt, Except.mapError]
  rfl

theorem parseCoordinates_next (ht : t.Exact) (ef : EFormat) (rest : List Char) :
    ∃ e s, parseCoordinates t .humanReadable none ef
      (ofText ('\n' :: (title.toList ++ rest))) = (.error e, s) := by
  have hline := skipLine_append (List.not_mem_nil (a := '\n')) (title.toList ++ rest)
  have hfail := fail_extract ht.size (a := 'К') rfl (by decide) 0
    ("оординаты диполей".toList ++ rest)
  have htitle : title.toList = 'К' :: "оординаты диполей".toList := by decide
  rw [htitle, List.nil_append, List.cons_append] at hline
  simp only [parseCoordinates, htitle, List.cons_append, hline, hfail, if_true]
  exact ⟨_, _, rfl⟩

def writeAll {ε α : Type} (print : α → Except ε (List Char)) : List α → Except ε (List Char)
  | [] => .ok []
  | v :: vs => do
    let text ← print v
    let texts ← writeAll print vs
    return text ++ texts

omit [Zero K] in
theorem writeAll_cons {ε α : Type} {print : α → Except ε (List Char)} {v : α} {vs : List α}
    {text : List Char} :
    writeAll print (v :: vs) = .ok text ↔
      ∃ a b, print v = .ok a ∧ writeAll print vs = .ok b ∧ a ++ b = text := by
  simp only [writeAll, bind_eq_ok, pure, Except.pure, Except.ok.injEq, exists_and_left]

theorem printCoordinates_eq_ok {col : Valarray K} {text : List Char} (ef : EFormat) :
    printCoordinates t col .humanReadable true ef = .ok text ↔
      col.length / 2 ≤ kIntMax ∧ title.toList ++ '\n' ::
        (t.size.print (col.length / 2) ++ '\n' :: pointsText t (points col)) = text := by
  rw [printCoordinates, printCoordinates2_eq, intLoop]
  split
  · rename_i h
    simp [h]
  · rename_i h
    simp [not_lt.mp h]

def CoordinatesRestored (t : Numbers K) (vs : List (Valarray K)) : Prop :=
  ∃ text, writeAll (fun v => printCoordinates t v .humanReadable true (kEnumTo .vectorFormat1)) vs =
      .ok text ∧
    readAll (parseCoordinates t .humanReadable none EFormat.default) vs.length (ofText text) =
      .ok vs

theorem not_coordinatesRestored (ht : t.Exact) {v w : Valarray K} {vs : List (Valarray K)}
    (hv : Even v.length) : ¬ CoordinatesRestored t (v :: w :: vs) := by
  rintro ⟨text, hwrite, hread⟩
  obtain ⟨a, b, ha, hb, rfl⟩ := writeAll_cons.mp hwrite
  obtain ⟨c, d, hc, -, rfl⟩ := writeAll_cons.mp hb
  obtain ⟨hn, rfl⟩ := (printCoordinates_eq_ok _).mp ha
  obtain ⟨-, rfl⟩ := (printCoordinates_eq_ok _).mp hc
  have hfirst := parseCoordinates_print ht hv hn EFormat.default (title.toList ++ '\n' ::
    (t.size.print (w.length / 2) ++ '\n' :: pointsText t (points w)) ++ d)
  obtain ⟨e, s, hsecond⟩ := parseCoordinates_next ht EFormat.default ('\n' ::
    (t.size.print (w.length / 2) ++ '\n' :: pointsText t (points w)) ++ d)
  simp only [List.append_assoc, List.cons_append] at hfirst hsecond hread
  rw [List.length_cons, readAll, hfirst] at hread
  simp only [List.length_cons, readAll, hsecond, Except.map] at hread
  cases hread

theorem coordinatesRestored_iff (ht : t.Exact) {vs : List (Valarray K)}
    (hvs : ∀ v ∈ vs, Even v.length) :
    CoordinatesRestored t vs ↔ vs.length ≤ 1 ∧ ∀ v ∈ vs, v.length / 2 ≤ kIntMax := by
  match vs with
  | [] => exact iff_of_true ⟨[], rfl, rfl⟩ ⟨Nat.zero_le 1, by simp⟩
  | [v] =>
    constructor
    · rintro ⟨text, hwrite, -⟩
      obtain ⟨a, b, ha, -, -⟩ := writeAll_cons.mp hwrite
      exact ⟨le_rfl, by simpa using ((printCoordinates_eq_ok _).mp ha).1⟩
    · rintro ⟨-, h⟩
      have hn := h v List.mem_cons_self
      have hprint := (printCoordinates_eq_ok (t := t) (kEnumTo .vectorFormat1)).mpr ⟨hn, rfl⟩
      refine ⟨_, writeAll_cons.mpr ⟨_, [], hprint, rfl, rfl⟩, ?_⟩
      have hread := parseCoordinates_print ht (hvs v List.mem_cons_self) hn EFormat.default []
      simp only [List.append_nil] at hread ⊢
      rw [List.length_singleton, readAll, hread]
      rfl
  | v :: w :: vs =>
    apply iff_of_false (not_coordinatesRestored ht (hvs v List.mem_cons_self))
    rintro ⟨h, -⟩
    simp at h

end Coordinates

section Records

/-- The formats that open the row with a delimiter restore next to nothing, and a second record of
coordinates is never reached: the newline behind a size or a record is read by nobody. -/
theorem records_restored_iff [Zero K] {t : Numbers K} (ht : t.Exact) :
    (∀ (f : EigenPrintFormats) (vs : List (Valarray K)), (∀ v ∈ vs, v ≠ []) →
      (OneDimRestored t (kEnumTo f) vs ↔
        Plain f ∨ vs = [] ∨ ∃ n, vs = [List.replicate n 0])) ∧
    ∀ vs : List (Valarray K), (∀ v ∈ vs, Even v.length) →
      (CoordinatesRestored t vs ↔ vs.length ≤ 1 ∧ ∀ v ∈ vs, v.length / 2 ≤ kIntMax) :=
  ⟨fun f _ hvs => oneDimRestored_iff ht f hvs, fun _ hvs => coordinatesRestored_iff ht hvs⟩

def decimalNumbers : Numbers Nat := ⟨decimal, decimal⟩

theorem decimalNumbers_exact : decimalNumbers.Exact := ⟨decimal_ascii, decimal_ascii⟩

theorem records_restored_decimal :
    OneDimRestored decimalNumbers (kEnumTo .vectorFormat1) [[1, 2], [3]] ∧
      CoordinatesRestored decimalNumbers [[1, 2]] :=
  ⟨((records_restored_iff decimalNumbers_exact).1 .vectorFormat1 [[1, 2], [3]] (by simp)).mpr
      (.inl (.inl rfl)),
    ((records_restored_iff decimalNumbers_exact).2 [[1, 2]] (by simp)).mpr
      ⟨le_rfl, by decide⟩⟩

theorem records_not_restored :
    decimalNumbers.Exact ∧
      ¬ OneDimRestored decimalNumbers (kEnumTo .basicOneDimensionalVector) [[1, 2]] ∧
      ¬ OneDimRestored decimalNumbers (kEnumTo .matrixFormat) [[1, 2]] ∧
      ¬ OneDimRestored decimalNumbers (kEnumTo .vectorDbFormat) [[1, 2]] ∧
      ¬ CoordinatesRestored decimalNumbers [[1, 2], [3, 4]] := by
  have hformat : ∀ f, ¬ Plain f → ¬ OneDimRestored decimalNumbers (kEnumTo f) [[1, 2]] := by
    intro f hf
    rw [oneDimRestored_iff decimalNumbers_exact f (by simp)]
    rintro (h | h | ⟨n, h⟩)
    · exact hf h
    · cases h
    · have hone : 1 ∈ List.replicate n 0 := (List.cons.inj h).1 ▸ List.mem_cons_self
      exact absurd (List.eq_of_mem_replicate hone) one_ne_zero
  refine ⟨decimalNumbers_exact, hformat _ ?_, hformat _ ?_, hformat _ ?_,
    not_coordinatesRestored decimalNumbers_exact ⟨1, rfl⟩⟩
  all_goals simp [Plain]

end Records

end DistributedMathArh.PrintUtils
