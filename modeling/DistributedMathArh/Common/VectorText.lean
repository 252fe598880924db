import DistributedMathArh.Lib.Integers
import DistributedMathArh.Common.PrintUtils

namespace DistributedMathArh.PrintUtils

open TextStream TextStream.IStream
open Words (Ends)

variable {K : Type}

def oneDimToString (t : Numbers K) (col : Valarray K) (printSize : Bool) (ef : EFormat) :
    List Char :=
  oneDimSerialize t col printSize ef

/-- The text at `str.data()` ends at the first NUL. -/
def data (str : List Char) : List Char := str.takeWhile (· ≠ '\x00')

theorem data_of_not_mem {str : List Char} (h : '\x00' ∉ str) : data str = str :=
  List.takeWhile_eq_self_iff.mpr fun _ hc => decide_eq_true fun e => h (e ▸ hc)

def parseOneDimS [Zero K] (t : Numbers K) (str : List Char) (sizeOpt : Option Nat) (ef : EFormat) :
    Except Exn (Valarray K) :=
  (parseOneDim t sizeOpt ef (ofText (data str))).1

theorem kEnumTo_delimiters (f : EigenPrintFormats) :
    (∃ k, (kEnumTo f).coeffSeparator.toList = [k] ∧ ascii.stop k = true) ∧
      Ends ascii.stop ((kEnumTo f).rowSuffix.toList ++ (kEnumTo f).matSuffix.toList) := by
  cases f <;> exact ⟨⟨_, rfl, by decide⟩, rfl⟩

theorem not_mem_intercalate {α : Type} {a : α} {sep : List α} (hsep : a ∉ sep) {ls : List (List α)}
    (h : ∀ l ∈ ls, a ∉ l) : a ∉ sep.intercalate ls := by
  induction ls with
  | nil => exact List.not_mem_nil
  | cons l ls ih =>
    obtain ⟨hl, hls⟩ := List.forall_mem_cons.mp h
    cases ls with
    | nil => rwa [List.intercalate_singleton]
    | cons l' ls =>
      rw [List.intercalate_cons_cons]
      simp only [List.mem_append, not_or]
      exact ⟨⟨hl, hsep⟩, ih hls⟩

theorem format_clean {c : Codec Char K} (hnul : ∀ x, '\x00' ∉ c.print x) (f : EigenPrintFormats)
    {v : Valarray K} (hv : v ≠ []) : '\x00' ∉ format c (kEnumTo f) [v] := by
  have hparts : '\x00' ∉ (kEnumTo f).rowPrefix.toList ∧
      '\x00' ∉ (kEnumTo f).coeffSeparator.toList ∧ '\x00' ∉ (kEnumTo f).rowSuffix.toList ∧
      '\x00' ∉ (kEnumTo f).matSuffix.toList := by
    cases f <;> decide
  obtain ⟨hopen, hsep, hsuffix, hmat⟩ := hparts
  have hcells : ∀ l ∈ v.map c.print, '\x00' ∉ l := by
    intro l hl
    obtain ⟨x, -, rfl⟩ := List.mem_map.mp hl
    exact hnul x
  rw [format_kEnumTo c hv]
  simp only [List.mem_append, not_or]
  exact ⟨⟨⟨hopen, not_mem_intercalate hsep hcells⟩, hsuffix⟩, hmat⟩

section Begins

def Delim (str : String) (text rest : List Char) : Prop :=
  if isOnlyWhitespace str.toList then
    ∃ blanks, blanks ≠ [] ∧ (∀ b ∈ blanks, ascii.space b = true) ∧ text = blanks ++ rest
  else text = str.toList ++ rest

inductive Numeral (c : Codec Char K) (x : K) : List Char → List Char → Prop
  | mk {blanks rest : List Char} : (∀ b ∈ blanks, ascii.space b = true) →
    c.read (c.print x ++ rest) = (.ok x, rest) →
    Numeral c x (blanks ++ (c.print x ++ rest)) rest

inductive Elements (c : Codec Char K) (sep : String) :
    Valarray K → List Char → List Char → Prop
  | last {x : K} {text rest : List Char} : Numeral c x text rest → Elements c sep [x] text rest
  | more {x y : K} {v : Valarray K} {text text₁ text₂ rest : List Char} :
    Numeral c x text text₁ → Delim sep text₁ text₂ → Elements c sep (y :: v) text₂ rest →
    Elements c sep (x :: y :: v) text rest

def Begins (t : Numbers K) (ef : EFormat) (v : Valarray K) (text : List Char) : Prop :=
  v = [] ∨ ∃ row afterRow rest, Delim ef.rowPrefix text row ∧
    Elements t.value ef.coeffSeparator v row afterRow ∧ Delim ef.rowSuffix afterRow rest

variable {t : Numbers K}

theorem numeral_print [Zero K] (ht : t.Exact) {blanks : List Char}
    (hblanks : ∀ b ∈ blanks, ascii.space b = true) (x : K) {rest : List Char}
    (hrest : Ends ascii.stop rest) :
    Numeral t.value x (blanks ++ (t.value.print x ++ rest)) rest :=
  .mk hblanks (ht.value.read_print x rest hrest)

theorem elements_print [Zero K] (ht : t.Exact) {sep : String} {k : Char} (hsep : sep.toList = [k])
    (hk : ascii.stop k = true) {rest : List Char} (hrest : Ends ascii.stop rest) {v : Valarray K}
    (hv : v ≠ []) :
    Elements t.value sep v (sep.toList.intercalate (v.map t.value.print) ++ rest) rest := by
  have hnone : ∀ b ∈ ([] : List Char), ascii.space b = true := List.forall_mem_nil _
  induction v with
  | nil => exact absurd rfl hv
  | cons x v ih =>
    cases v with
    | nil =>
      rw [List.map_cons, List.map_nil, List.intercalate_singleton]
      exact .last (numeral_print ht hnone x hrest)
    | cons y v =>
      have htext := ih (List.cons_ne_nil y v)
      rw [List.map_cons] at htext
      rw [List.map_cons, List.map_cons, List.intercalate_cons_cons, List.append_assoc,
        List.append_assoc]
      refine .more (numeral_print ht hnone x (hsep ▸ hk)) ?_ htext
      unfold Delim
      split
      · rename_i h
        rw [isOnlyWhitespace, Bool.and_eq_true, List.all_eq_true] at h
        exact ⟨sep.toList, hsep ▸ List.cons_ne_nil k [], h.2, rfl⟩
      · rfl

theorem delim_iff_of_visible {str : String} (h : isOnlyWhitespace str.toList = false)
    {text rest : List Char} : Delim str text rest ↔ text = str.toList ++ rest := by
  unfold Delim
  rw [if_neg (by simp [h])]

theorem kEnumTo_visible (f : EigenPrintFormats) :
    isOnlyWhitespace (kEnumTo f).rowPrefix.toList = false ∧
      isOnlyWhitespace (kEnumTo f).rowSuffix.toList = false := by
  cases f <;> decide

theorem begins_format [Zero K] (ht : t.Exact) (f : EigenPrintFormats) (v : Valarray K) (rest : List Char) :
    Begins t (kEnumTo f) v (format t.value (kEnumTo f) [v] ++ rest) := by
  by_cases hv : v = []
  · exact .inl hv
  obtain ⟨⟨k, hsep, hk⟩, hends⟩ := kEnumTo_delimiters f
  obtain ⟨hopen, hsuffix⟩ := kEnumTo_visible f
  have hends' : Ends ascii.stop
      ((kEnumTo f).rowSuffix.toList ++ ((kEnumTo f).matSuffix.toList ++ rest)) := by
    cases f <;> exact hends
  rw [format_kEnumTo t.value hv]
  simp only [List.append_assoc]
  exact .inr ⟨_, _, _, (delim_iff_of_visible hopen).mpr rfl,
    elements_print ht hsep hk hends' hv, (delim_iff_of_visible hsuffix).mpr rfl⟩

theorem Begins.singleton {f : EigenPrintFormats} {x : K} {text : List Char}
    (h : Begins t (kEnumTo f) [x] text) :
    ∃ blanks rest, (∀ b ∈ blanks, ascii.space b = true) ∧ text = (kEnumTo f).rowPrefix.toList ++
      (blanks ++ (t.value.print x ++ ((kEnumTo f).rowSuffix.toList ++ rest))) := by
  obtain ⟨hopen, hsuffix⟩ := kEnumTo_visible f
  rcases h with h | ⟨row, afterRow, rest, hrow, helements, hafter⟩
  · cases h
  · cases helements with
    | last hx =>
      obtain ⟨hblanks, -⟩ := hx
      obtain rfl := (delim_iff_of_visible hopen).mp hrow
      obtain rfl := (delim_iff_of_visible hsuffix).mp hafter
      exact ⟨_, rest, hblanks, rfl⟩

end Begins

section Parse

variable [Zero K] {t : Numbers K}

theorem Numeral.extract (ht : t.Exact) {x : K} {text rest : List Char}
    (h : Numeral t.value x text rest) {blanks : List Char}
    (hblanks : ∀ b ∈ blanks, ascii.space b = true) :
    (ofText (blanks ++ text)).extract ascii t.value 0 = (x, upTo rest) := by
  obtain ⟨hblanks', hread⟩ := h
  obtain ⟨a, w, hprint, ha⟩ := ht.value.start x
  rw [hprint, List.cons_append] at hread ⊢
  rw [← List.append_assoc]
  exact extract_of_read (List.forall_mem_append.mpr ⟨hblanks, hblanks'⟩) (space_of_start ha)
    hread 0

theorem Elements.ne_nil (ht : t.Exact) {sep : String} {v : Valarray K} {text rest : List Char}
    (h : Elements t.value sep v text rest) : text ≠ [] := by
  have hnumeral : ∀ {x : K} {text rest : List Char}, Numeral t.value x text rest → text ≠ [] := by
    rintro x _ rest ⟨-, -⟩
    obtain ⟨a, w, hprint, -⟩ := ht.value.start x
    simp [hprint]
  cases h with
  | last h => exact hnumeral h
  | more h _ _ => exact hnumeral h

theorem Delim.parse {str : String} {text rest : List Char} (h : Delim str text rest) :
    ∃ blanks, (∀ b ∈ blanks, ascii.space b = true) ∧
      parseDelim str (ofText text) = ofText (blanks ++ rest) := by
  unfold Delim at h
  unfold parseDelim
  split at h
  · rename_i hstr
    obtain ⟨blanks, -, hblanks, rfl⟩ := h
    exact ⟨blanks, hblanks, if_pos hstr⟩
  · rename_i hstr
    subst h
    exact ⟨[], List.forall_mem_nil _, (if_neg hstr).trans (matchText_append _ rest)⟩

theorem Elements.parse (ht : t.Exact) {sep : String} {v : Valarray K} {text rest : List Char}
    (h : Elements t.value sep v text rest) {blanks : List Char}
    (hblanks : ∀ b ∈ blanks, ascii.space b = true) :
    (parseElements t sep v.length (ofText (blanks ++ text))).1 = v := by
  induction h generalizing blanks with
  | last hx =>
    rw [List.length_singleton, parseElements, hx.extract ht hblanks]
    rfl
  | @more x y v text text₁ text₂ rest hx hsep hv ih =>
    obtain ⟨blanks', hblanks', hdelim⟩ := hsep.parse
    have htext : text₁ ≠ [] := by
      rintro rfl
      have hnil := hv.ne_nil ht
      unfold Delim at hsep
      split at hsep
      · obtain ⟨b, hb, -, hnone⟩ := hsep
        exact hb (List.append_eq_nil_iff.mp hnone.symm).1
      · exact hnil (List.append_eq_nil_iff.mp hsep.symm).2
    obtain ⟨a, w, rfl⟩ := List.exists_cons_of_ne_nil htext
    rw [List.length_cons, parseElements, hx.extract ht hblanks]
    simp only [upTo_cons, List.length_cons, Nat.succ_ne_zero, if_false, hdelim]
    rw [← List.length_cons (a := y), ih hblanks']

theorem Begins.parse (ht : t.Exact) {ef : EFormat} {v : Valarray K} {text : List Char}
    (h : Begins t ef v text) :
    (parseOneDim t (some v.length) ef (ofText text)).1 = .ok v := by
  rw [parseOneDim_given rfl]
  rcases h with rfl | ⟨row, afterRow, rest, hopen, helements, -⟩
  · rfl
  · obtain ⟨blanks, hblanks, hdelim⟩ := hopen.parse
    rw [hdelim]
    exact congrArg Except.ok (helements.parse ht hblanks)

theorem Begins.unique (ht : t.Exact) {ef : EFormat} {v w : Valarray K} {text : List Char}
    (hlen : v.length = w.length) (hv : Begins t ef v text) (hw : Begins t ef w text) : v = w := by
  have hread := hv.parse ht
  rw [hlen, hw.parse ht] at hread
  exact (Except.ok.inj hread).symm

end Parse

section RoundTrip

variable [Zero K] {t : Numbers K}

theorem parseOneDim_format (ht : t.Exact) (f : EigenPrintFormats) (v : Valarray K) :
    (parseOneDim t (some v.length) (kEnumTo f)
      (ofText (format t.value (kEnumTo f) [v]))).1 = .ok v := by
  have h := (begins_format ht f v []).parse ht
  rwa [List.append_nil] at h

theorem parseOneDimS_oneDimToString (ht : t.Exact)
    (hnul : ∀ x, '\x00' ∉ t.value.print x) (f : EigenPrintFormats) {v : Valarray K} (hv : v ≠ []) :
    parseOneDimS t (oneDimToString t v false (kEnumTo f)) (some v.length) (kEnumTo f) = .ok v := by
  have htext : oneDimToString t v false (kEnumTo f) = format t.value (kEnumTo f) [v] := rfl
  rw [htext, parseOneDimS, data_of_not_mem (format_clean hnul f hv),
    parseOneDim_format ht f v]

end RoundTrip

section Checked

variable [Zero K] {t : Numbers K}

end Checked

end DistributedMathArh.PrintUtils
