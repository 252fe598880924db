import Mathlib.Algebra.Order.Ring.Cast
import Mathlib.Algebra.Order.Ring.Rat
import DistributedMathArh.Lib.Words

/-! Input streams over a text: single symbols, lines, and formatted reads of values that were
printed; the decimal numerals and the fractions as such values. -/

universe u v

namespace DistributedMathArh.TextStream

open Words (Ends)

/-- What a formatted read tells apart: the blanks it skips, what a value can start with, and what
ends one. -/
structure Alphabet (σ : Type u) where
  space : σ → Bool
  start : σ → Bool
  stop : σ → Bool
  start_of_space : ∀ a, space a = true → start a = false

/-- A value as text.  Reading yields the value, or what a failed conversion stores in its place (a
zero, or the bound that a number exceeds), and what is left. -/
structure Codec (σ : Type u) (α : Type v) where
  print : α → List σ
  read : List σ → Except α α × List σ

structure Codec.Exact {σ : Type u} {α : Type v} [Zero α] (ab : Alphabet σ) (c : Codec σ α) :
    Prop where
  start : ∀ x, ∃ a w, c.print x = a :: w ∧ ab.start a = true
  read_print : ∀ x rest, Ends ab.stop rest → c.read (c.print x ++ rest) = (.ok x, rest)
  read_other : ∀ a rest, ab.start a = false → (c.read (a :: rest)).1 = .error 0

structure IStream (σ : Type u) where
  rest : List σ
  eof : Bool
  fail : Bool

namespace IStream

variable {σ : Type u} {α : Type v}

def ofText (l : List σ) : IStream σ := ⟨l, false, false⟩

/-- The stream after a read that stopped in front of `l`; at the end it has seen that end. -/
def upTo (l : List σ) : IStream σ := ⟨l, l.isEmpty, false⟩

def failed (s : IStream σ) : IStream σ := { s with fail := true }

def good (s : IStream σ) : Bool := !s.eof && !s.fail

def get (s : IStream σ) : Option σ × IStream σ :=
  if s.good then
    match s.rest with
    | [] => (none, ⟨[], true, true⟩)
    | a :: rest => (some a, ofText rest)
  else (none, s.failed)

def skipLine [DecidableEq σ] (newline : σ) (s : IStream σ) : IStream σ :=
  if s.good then
    match s.rest.dropWhile (· ≠ newline) with
    | [] => ⟨[], true, s.rest.isEmpty⟩
    | _ :: rest => ofText rest
  else s.failed

def skipBlanks (space : σ → Bool) (s : IStream σ) : IStream σ :=
  if s.good then
    match s.rest.dropWhile space with
    | [] => ⟨[], true, true⟩
    | a :: rest => ofText (a :: rest)
  else s.failed

/-- A formatted read into a variable that holds `x`; a failed stream leaves it alone. -/
def extract (ab : Alphabet σ) (c : Codec σ α) (x : α) (s : IStream σ) : α × IStream σ :=
  let s := s.skipBlanks ab.space
  if s.fail then (x, s) else
    match c.read s.rest with
    | (.ok y, rest) => (y, upTo rest)
    | (.error y, rest) => (y, (upTo rest).failed)

def skipWord (space : σ → Bool) (s : IStream σ) : IStream σ :=
  let s := s.skipBlanks space
  if s.fail then s else upTo (s.rest.dropWhile fun a => !space a)

@[simp] theorem upTo_cons (a : σ) (l : List σ) : upTo (a :: l) = ofText (a :: l) := rfl

theorem upTo_append_cons (l : List σ) (a : σ) (rest : List σ) :
    upTo (l ++ a :: rest) = ofText (l ++ a :: rest) := by
  cases l <;> rfl

@[simp] theorem good_ofText (l : List σ) : (ofText l).good = true := rfl

@[simp] theorem fail_failed (s : IStream σ) : s.failed.fail = true := rfl

theorem good_of_fail {s : IStream σ} (h : s.fail = true) : s.good = false := by simp [good, h]

theorem failed_of_fail {s : IStream σ} (h : s.fail = true) : s.failed = s := by
  cases s
  cases h
  rfl

@[simp] theorem get_cons (a : σ) (l : List σ) : (ofText (a :: l)).get = (some a, ofText l) := rfl

theorem skipLine_append [DecidableEq σ] {l : List σ} {newline : σ} (h : newline ∉ l)
    (rest : List σ) : (ofText (l ++ newline :: rest)).skipLine newline = ofText rest := by
  have hl : (l ++ newline :: rest).dropWhile (· ≠ newline) = newline :: rest := by
    apply (List.dropWhile_append_of_pos _).trans
    · apply List.dropWhile_cons_of_neg
      simp
    · intro a ha
      simpa using fun e : a = newline => h (e ▸ ha)
  rw [skipLine, good_ofText, if_pos rfl]
  simp only [ofText, hl]

theorem skipWord_append {space : σ → Bool} {a b : σ} {w : List σ} (ha : space a = false)
    (hw : w.all (fun c => !space c) = true) (hb : space b = true) (rest : List σ) :
    (ofText (a :: w ++ b :: rest)).skipWord space = ofText (b :: rest) := by
  have hskip : (ofText (a :: w ++ b :: rest)).skipBlanks space = ofText (a :: w ++ b :: rest) := by
    simp [skipBlanks, ofText, good, ha]
  have hdrop : (a :: w ++ b :: rest).dropWhile (fun c => !space c) = b :: rest := by
    apply (List.dropWhile_append_of_pos _).trans
    · apply List.dropWhile_cons_of_neg
      simp [hb]
    · simpa [ha] using hw
  rw [skipWord, hskip]
  exact congrArg upTo hdrop

section Extract

variable {ab : Alphabet σ} {c : Codec σ α}

theorem skipBlanks_append {space : σ → Bool} {blanks : List σ} {a : σ}
    (hb : ∀ b ∈ blanks, space b = true) (ha : space a = false) (l : List σ) :
    (ofText (blanks ++ a :: l)).skipBlanks space = ofText (a :: l) := by
  have hl : (blanks ++ a :: l).dropWhile space = a :: l := by
    apply (List.dropWhile_append_of_pos hb).trans
    apply List.dropWhile_cons_of_neg
    simp [ha]
  rw [skipBlanks, good_ofText, if_pos rfl]
  simp only [ofText, hl]

theorem skipBlanks_of_fail {s : IStream σ} (h : s.fail = true) (space : σ → Bool) :
    s.skipBlanks space = s := by
  rw [skipBlanks, good_of_fail h]
  exact failed_of_fail h

theorem space_of_start {a : σ} (h : ab.start a = true) : ab.space a = false := by
  cases hs : ab.space a with
  | false => rfl
  | true => cases h.symm.trans (ab.start_of_space a hs)

theorem extract_of_fail {s : IStream σ} (h : s.fail = true) (x : α) :
    s.extract ab c x = (x, s) := by
  rw [extract, skipBlanks_of_fail h, if_pos h]

theorem extract_of_read {blanks : List σ} (hb : ∀ b ∈ blanks, ab.space b = true) {a : σ}
    (ha : ab.space a = false) {w rest : List σ} {y : α} (hread : c.read (a :: w) = (.ok y, rest))
    (x : α) : (ofText (blanks ++ a :: w)).extract ab c x = (y, upTo rest) := by
  rw [extract, skipBlanks_append hb ha]
  simp only [ofText, hread]
  rfl

variable [Zero α]

theorem extract_print (h : c.Exact ab) (blanks : List σ) (hb : ∀ b ∈ blanks, ab.space b = true)
    (x y : α) (rest : List σ) (hrest : Ends ab.stop rest) :
    (ofText (blanks ++ c.print y ++ rest)).extract ab c x = (y, upTo rest) := by
  obtain ⟨a, w, hprint, ha⟩ := h.start y
  have hread := h.read_print y rest hrest
  rw [hprint, List.cons_append] at hread
  rw [hprint, List.append_assoc, List.cons_append]
  exact extract_of_read hb (space_of_start ha) hread x

theorem fail_extract (h : c.Exact ab) {a : σ} (hspace : ab.space a = false)
    (ha : ab.start a = false) (x : α) (l : List σ) :
    ((ofText (a :: l)).extract ab c x).2.fail = true := by
  have hread := h.read_other a l ha
  have hskip := skipBlanks_append (List.forall_mem_nil _) hspace l
  rw [List.nil_append] at hskip
  rw [extract, hskip]
  cases hc : c.read (a :: l) with
  | mk y rest =>
    cases y with
    | error y => simp [ofText, hc]
    | ok y => rw [hc] at hread; cases hread

end Extract

end IStream

section Numerals

def ascii : Alphabet Char where
  space c := c ∈ [' ', '\t', '\n', '\x0b', '\x0c', '\r']
  start c := c.isDigit || c ∈ ['+', '-', '.']
  stop c := c ∈ [' ', '\t', '\n', '\x0b', '\x0c', '\r', ',', ']', '}']
  start_of_space c h := by
    revert c
    simp only [decide_eq_true_eq, List.forall_mem_cons, List.not_mem_nil, false_implies,
      implies_true, and_true]
    decide

def readDigits (s : List Char) : Option Nat × List Char :=
  let digits := s.takeWhile Char.isDigit
  if digits.isEmpty then (none, s) else
    (some (Nat.ofDigitChars 10 digits 0), s.dropWhile Char.isDigit)

def decimal : Codec Char Nat where
  print := Nat.toDigits 10
  read s := (readDigits s).map (Option.elim · (.error 0) .ok) id

theorem isDigit_of_mem_print {n : Nat} {c : Char} (h : c ∈ decimal.print n) : c.isDigit = true :=
  Nat.isDigit_of_mem_toDigits (by decide) (by decide) h

theorem decimal_print_ne_nil (n : Nat) : decimal.print n ≠ [] := Nat.toDigits_ne_nil

theorem readDigits_print (n : Nat) (rest : List Char)
    (h : ∀ c ∈ rest.head?, c.isDigit = false) :
    readDigits (decimal.print n ++ rest) = (some n, rest) := by
  have hdigits : ∀ c ∈ decimal.print n, c.isDigit = true := fun c => isDigit_of_mem_print
  have hrest : rest.takeWhile Char.isDigit = [] ∧ rest.dropWhile Char.isDigit = rest := by
    cases rest with
    | nil => exact ⟨rfl, rfl⟩
    | cons c rest =>
      have hc := h c rfl
      exact ⟨List.takeWhile_cons_of_neg (by simp [hc]), List.dropWhile_cons_of_neg (by simp [hc])⟩
  have hne : (decimal.print n).isEmpty = false := by
    simpa using decimal_print_ne_nil n
  simp only [decimal] at hdigits hne ⊢
  rw [readDigits, List.takeWhile_append_of_pos hdigits, List.dropWhile_append_of_pos hdigits,
    hrest.1, hrest.2, List.append_nil, hne]
  simp

theorem readDigits_other {c : Char} (h : c.isDigit = false) (rest : List Char) :
    readDigits (c :: rest) = (none, c :: rest) := by
  simp [readDigits, h]

theorem head_of_ends {rest : List Char} (h : Ends ascii.stop rest) :
    ∀ c ∈ rest.head?, c.isDigit = false ∧ c ≠ '/' := by
  intro c hc
  cases rest with
  | nil => cases hc
  | cons a rest =>
    cases hc
    revert h
    simp only [Ends, ascii, decide_eq_true_eq]
    revert c
    simp only [List.forall_mem_cons, List.not_mem_nil, false_implies, implies_true, and_true]
    decide

theorem readDigits_ascii (n : Nat) {rest : List Char} (h : Ends ascii.stop rest) :
    readDigits (decimal.print n ++ rest) = (some n, rest) :=
  readDigits_print n rest fun c hc => (head_of_ends h c hc).1

theorem decimal_ascii : decimal.Exact ascii where
  start n := by
    cases h : decimal.print n with
    | nil => exact absurd h (decimal_print_ne_nil n)
    | cons c w =>
      have hc : c ∈ decimal.print n := h ▸ List.mem_cons_self
      exact ⟨c, w, rfl, by simp [ascii, isDigit_of_mem_print hc]⟩
  read_print n rest h := by
    have hread := readDigits_ascii n h
    simp only [decimal] at hread ⊢
    rw [hread]
    rfl
  read_other c rest h := by
    simp only [ascii, Bool.or_eq_false_iff] at h
    simp only [decimal, readDigits_other h.1]
    rfl

end Numerals

section Fractions

def readQuotient (sign : ℚ) (s : List Char) : Except ℚ ℚ × List Char :=
  match readDigits s with
  | (some n, '/' :: s) =>
    match readDigits s with
    | (some d, s) => (.ok (sign * n / d), s)
    | (none, s) => (.error 0, s)
  | (some n, s) => (.ok (sign * n), s)
  | (none, s) => (.error 0, s)

def quotientText (n d : Nat) : List Char :=
  decimal.print n ++ if d = 1 then [] else '/' :: decimal.print d

def fraction : Codec Char ℚ where
  print q := (if q.num < 0 then ['-'] else []) ++ quotientText q.num.natAbs q.den
  read s :=
    match s with
    | '-' :: s => readQuotient (-1) s
    | s => readQuotient 1 s

theorem readQuotient_text (sign : ℚ) (n d : Nat) {rest : List Char} (h : Ends ascii.stop rest) :
    readQuotient sign (quotientText n d ++ rest) = (.ok (sign * n / d), rest) := by
  rw [quotientText]
  split
  · rename_i hone
    rw [List.append_nil, readQuotient, readDigits_ascii n h, hone]
    cases rest with
    | nil => simp
    | cons c rest =>
      have hc : c ≠ '/' := (head_of_ends h c rfl).2
      simp [hc]
  · have hslash := readDigits_print n ('/' :: (decimal.print d ++ rest)) (by simp)
    rw [List.append_assoc, List.cons_append, readQuotient, hslash]
    simp only [readDigits_ascii d h]

theorem quotientText_cons (n d : Nat) : ∃ c w, quotientText n d = c :: w ∧ c.isDigit = true := by
  obtain ⟨c, w, hprint, hc⟩ := decimal_ascii.start n
  have hmem : c ∈ decimal.print n := hprint ▸ List.mem_cons_self
  exact ⟨c, _, by rw [quotientText, hprint, List.cons_append], isDigit_of_mem_print hmem⟩

theorem fraction_read_print (q : ℚ) {rest : List Char} (h : Ends ascii.stop rest) :
    fraction.read (fraction.print q ++ rest) = (.ok q, rest) := by
  have hquotient : ∀ sign : ℚ, sign * q.num.natAbs = q.num →
      readQuotient sign (quotientText q.num.natAbs q.den ++ rest) = (.ok q, rest) := by
    intro sign hsign
    rw [readQuotient_text sign q.num.natAbs q.den h, hsign, Rat.num_div_den]
  simp only [fraction]
  cases lt_or_ge q.num 0 with
  | inl hneg =>
    rw [if_pos hneg]
    apply hquotient
    rw [Nat.cast_natAbs, abs_of_neg hneg, Int.cast_neg, neg_one_mul, neg_neg]
  | inr hpos =>
    have hone := hquotient 1 (by rw [Nat.cast_natAbs, abs_of_nonneg hpos, one_mul])
    obtain ⟨c, w, htext, hc⟩ := quotientText_cons q.num.natAbs q.den
    have hminus : c ≠ '-' := fun e => by rw [e] at hc; cases hc
    rw [htext] at hone
    rw [if_neg hpos.not_gt, List.nil_append, htext]
    simpa [hminus] using hone

theorem fraction_ascii : fraction.Exact ascii where
  start q := by
    obtain ⟨c, w, htext, hc⟩ := quotientText_cons q.num.natAbs q.den
    simp only [fraction, htext]
    split
    · exact ⟨'-', c :: w, rfl, by decide⟩
    · exact ⟨c, w, rfl, by simp [ascii, hc]⟩
  read_print q _ h := fraction_read_print q h
  read_other c rest h := by
    simp only [ascii, Bool.or_eq_false_iff, decide_eq_false_iff_not, List.mem_cons, not_or] at h
    obtain ⟨hdigit, -, hminus, -⟩ := h
    simp [fraction, hminus, readQuotient, readDigits_other hdigit]

end Fractions

end DistributedMathArh.TextStream
