import DistributedMathArh.Lib.Integers
import DistributedMathArh.Lib.Quoted
import DistributedMathArh.Common.PrintUtils

namespace DistributedMathArh.PrintUtils

open TextStream TextStream.IStream
open Words (Ends)

def quotes : Quotes Char := ⟨'"', '\\', by decide⟩

namespace EFormat

def eq (lhs rhs : EFormat) : Bool :=
  lhs.precision = rhs.precision &&
    lhs.flags = rhs.flags &&
    lhs.coeffSeparator = rhs.coeffSeparator &&
    lhs.rowSeparator = rhs.rowSeparator &&
    lhs.rowPrefix = rhs.rowPrefix &&
    lhs.rowSuffix = rhs.rowSuffix &&
    lhs.matPrefix = rhs.matPrefix &&
    lhs.matSuffix = rhs.matSuffix &&
    lhs.fill = rhs.fill

def quoted (str : String) : List Char := quotes.quote str.toList

def write (fmt : EFormat) : List Char :=
  signed32.print fmt.precision ++ ' ' ::
    (signed32.print fmt.flags ++ ' ' ::
    (quoted fmt.coeffSeparator ++ ' ' ::
    (quoted fmt.rowSeparator ++ ' ' ::
    (quoted fmt.rowPrefix ++ ' ' ::
    (quoted fmt.rowSuffix ++ ' ' ::
    (quoted fmt.matPrefix ++ ' ' ::
    (quoted fmt.matSuffix ++ ' ' ::
    quoted (String.singleton fmt.fill))))))))

def readQuoted (s : IStream Char) : String × IStream Char :=
  (quotes.extract ascii.space [] s).map String.ofList id

/-- `operator>>`.  The integers are not initialised, and only looked at if they were read. -/
def read (fmt : EFormat) (s : IStream Char) : EFormat × IStream Char :=
  let (precision, s) := s.extract ascii signed32 0
  let (flags, s) := s.extract ascii signed32 0
  let (coeffSeparator, s) := readQuoted s
  let (rowSeparator, s) := readQuoted s
  let (rowPrefix, s) := readQuoted s
  let (rowSuffix, s) := readQuoted s
  let (matPrefix, s) := readQuoted s
  let (matSuffix, s) := readQuoted s
  let (fillStr, s) := readQuoted s
  match fillStr.toList with
  | [fill] =>
    (⟨precision, flags, coeffSeparator, rowSeparator, rowPrefix, rowSuffix, matPrefix, matSuffix,
      fill⟩, s)
  | _ => (fmt, s.failed)

def writeFormats (fmts : List (List Char × EFormat)) : List Char := fmts.flatMap fun p => p.1 ++ p.2.write

def readFormats (old : EFormat) : Nat → IStream Char → List EFormat × IStream Char
  | 0, s => ([], s)
  | n + 1, s =>
    let (fmt, s) := read old s
    let (fmts, s) := readFormats old n s
    (fmt :: fmts, s)

structure Fits (fmt : EFormat) : Prop where
  precision : FitsInt fmt.precision
  flags : FitsInt fmt.flags

@[simp] theorem eq_iff {lhs rhs : EFormat} : lhs.eq rhs = true ↔ lhs = rhs := by
  cases lhs
  cases rhs
  simp [eq, and_assoc]

theorem readQuoted_quoted (str : String) (rest : List Char) :
    readQuoted (ofText (' ' :: (quoted str ++ rest))) = (str, ofText rest) := by
  have hdelim : ascii.space quotes.delim = false := by decide
  have hblank : ∀ b ∈ [' '], ascii.space b = true := List.forall_mem_singleton.mpr rfl
  have hread := quotes.extract_quote hdelim hblank [] str.toList rest
  simp only [List.cons_append, List.nil_append] at hread
  simp only [readQuoted, quoted, hread, Prod.map, String.ofList_toList, id]

theorem read_write {fmt : EFormat} (h : fmt.Fits) (old : EFormat) {blanks : List Char}
    (hblanks : ∀ b ∈ blanks, ascii.space b = true) (rest : List Char) :
    read old (ofText (blanks ++ (fmt.write ++ rest))) = (fmt, ofText rest) := by
  have hspace : ∀ b ∈ [' '], ascii.space b = true := List.forall_mem_singleton.mpr rfl
  have hends : ∀ rest, Ends ascii.stop (' ' :: rest) := fun _ => rfl
  have hprecision := fun rest =>
    extract_restores (signed32_restores h.precision) hblanks 0 (hends rest)
  have hflags := fun rest => extract_restores (signed32_restores h.flags) hspace 0 (hends rest)
  simp only [List.cons_append, List.nil_append, upTo_cons] at hprecision hflags
  unfold read
  simp only [write, List.append_assoc, List.cons_append, hprecision, hflags, readQuoted_quoted,
    String.toList_singleton]

theorem readFormats_writeFormats (old : EFormat) (fmts : List (List Char × EFormat))
    (hblanks : ∀ p ∈ fmts, ∀ b ∈ p.1, ascii.space b = true) (hfits : ∀ p ∈ fmts, p.2.Fits)
    (rest : List Char) :
    readFormats old fmts.length (ofText (writeFormats fmts ++ rest)) =
      (fmts.map Prod.snd, ofText rest) := by
  induction fmts with
  | nil => rfl
  | cons p fmts ih =>
    obtain ⟨hb, hblanks⟩ := List.forall_mem_cons.mp hblanks
    obtain ⟨hp, hfits⟩ := List.forall_mem_cons.mp hfits
    have hread := read_write hp old hb (writeFormats fmts ++ rest)
    have hrest := ih hblanks hfits
    have htext : writeFormats (p :: fmts) ++ rest = p.1 ++ (p.2.write ++ (writeFormats fmts ++ rest)) := by
      simp [writeFormats]
    rw [htext, List.length_cons]
    simp only [readFormats, hread, hrest, List.map_cons]

/-- Formats of any integers and strings are restored one by one, and the stream does not fail. -/
theorem formats_restored (old : EFormat) (fmts : List (List Char × EFormat))
    (hblanks : ∀ p ∈ fmts, ∀ b ∈ p.1, ascii.space b = true) (hfits : ∀ p ∈ fmts, p.2.Fits)
    (rest : List Char) :
    List.Forall₂ (fun fmt p => fmt.eq p.2 = true)
        (readFormats old fmts.length (ofText (writeFormats fmts ++ rest))).1 fmts ∧
      (readFormats old fmts.length (ofText (writeFormats fmts ++ rest))).2.fail = false := by
  rw [readFormats_writeFormats old fmts hblanks hfits]
  refine ⟨?_, rfl⟩
  rw [List.forall₂_map_left_iff]
  exact List.forall₂_same.mpr fun p _ => eq_iff.mpr rfl

def awkwardFormats : List (List Char × EFormat) :=
  [([], kEnumTo .matrixFormat), (['\n'], ⟨-1, 1, "", " ", "\"\\\n", "", "", "", '"'⟩)]

theorem formats_restored_awkward :
    List.Forall₂ (fun fmt p => fmt.eq p.2 = true)
        (readFormats .default 2 (ofText (writeFormats awkwardFormats ++ []))).1 awkwardFormats ∧
      (readFormats .default 2 (ofText (writeFormats awkwardFormats ++ []))).2.fail = false := by
  apply formats_restored .default awkwardFormats _ _ []
  · exact List.forall_mem_cons.mpr ⟨List.forall_mem_nil _,
      List.forall_mem_singleton.mpr (List.forall_mem_singleton.mpr rfl)⟩
  · simp only [awkwardFormats, List.forall_mem_cons, List.not_mem_nil, false_implies, implies_true,
      and_true]
    exact ⟨⟨by decide, by decide⟩, ⟨by decide, by decide⟩⟩

end EFormat

end DistributedMathArh.PrintUtils
