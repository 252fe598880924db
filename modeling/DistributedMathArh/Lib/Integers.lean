import Mathlib.Data.UInt
import DistributedMathArh.Lib.TextStream

universe u v

namespace DistributedMathArh.TextStream

open Words (Ends)

section Restores

variable {σ : Type u} {α : Type v} {ab : Alphabet σ} {c : Codec σ α}

structure Codec.Restores (ab : Alphabet σ) (c : Codec σ α) (x : α) : Prop where
  start : ∃ a w, c.print x = a :: w ∧ ab.start a = true
  read_print : ∀ rest, Ends ab.stop rest → c.read (c.print x ++ rest) = (.ok x, rest)

namespace IStream

theorem extract_restores {y : α} (h : c.Restores ab y) {blanks : List σ}
    (hb : ∀ b ∈ blanks, ab.space b = true) (x : α) {rest : List σ} (hrest : Ends ab.stop rest) :
    (ofText (blanks ++ (c.print y ++ rest))).extract ab c x = (y, upTo rest) := by
  obtain ⟨a, w, hprint, ha⟩ := h.start
  have hread := h.read_print rest hrest
  rw [hprint, List.cons_append] at hread ⊢
  exact extract_of_read hb (space_of_start ha) hread x

end IStream

end Restores

section Signed

def integerText (z : Int) : List Char := (if z < 0 then ['-'] else []) ++ decimal.print z.natAbs

theorem integerText_natCast (n : Nat) : integerText n = decimal.print n := by
  rw [integerText, if_neg (by omega), List.nil_append, Int.natAbs_natCast]

def readSigned : List Char → Option (Bool × Nat) × List Char
  | '-' :: s => (readDigits s).map (Option.map (Prod.mk true)) id
  | '+' :: s => (readDigits s).map (Option.map (Prod.mk false)) id
  | s => (readDigits s).map (Option.map (Prod.mk false)) id

def ofSign (p : Bool × Nat) : Int := if p.1 then -p.2 else p.2

theorem ofSign_natAbs (z : Int) : ofSign (decide (z < 0), z.natAbs) = z := by
  simp only [ofSign, decide_eq_true_eq]
  split <;> omega

theorem readSigned_of_digit {c : Char} (hc : c.isDigit = true) (w : List Char) :
    readSigned (c :: w) = (readDigits (c :: w)).map (Option.map (Prod.mk false)) id := by
  have hminus : c ≠ '-' := fun e => by rw [e] at hc; cases hc
  have hplus : c ≠ '+' := fun e => by rw [e] at hc; cases hc
  simp [readSigned, hminus, hplus]

theorem readSigned_decimal (n : Nat) {rest : List Char} (h : Ends ascii.stop rest) :
    readSigned (decimal.print n ++ rest) = (some (false, n), rest) := by
  obtain ⟨c, w, hprint, hc⟩ := decimal_ascii.start n
  have hdigit : c.isDigit = true := isDigit_of_mem_print (hprint ▸ List.mem_cons_self)
  have hread := readDigits_ascii n h
  rw [hprint, List.cons_append] at hread ⊢
  rw [readSigned_of_digit hdigit, hread]
  rfl

theorem readSigned_text (z : Int) {rest : List Char} (h : Ends ascii.stop rest) :
    readSigned (integerText z ++ rest) = (some (decide (z < 0), z.natAbs), rest) := by
  unfold integerText
  split
  · rename_i hneg
    change readSigned ('-' :: (decimal.print z.natAbs ++ rest)) = _
    rw [readSigned, readDigits_ascii _ h, decide_eq_true hneg]
    rfl
  · rename_i hpos
    rw [List.nil_append, readSigned_decimal _ h, decide_eq_false hpos]

theorem integerText_cons (z : Int) : ∃ a w, integerText z = a :: w ∧ ascii.start a = true := by
  obtain ⟨c, w, hprint, hc⟩ := decimal_ascii.start z.natAbs
  unfold integerText
  split
  · exact ⟨'-', decimal.print z.natAbs, rfl, by decide⟩
  · exact ⟨c, w, hprint, hc⟩

theorem readSigned_other {a : Char} (h : ascii.start a = false) (rest : List Char) :
    (readSigned (a :: rest)).1 = none := by
  simp only [ascii, Bool.or_eq_false_iff, decide_eq_false_iff_not, List.mem_cons, not_or] at h
  obtain ⟨hdigit, hplus, hminus, -⟩ := h
  simp [readSigned, hminus, hplus, readDigits_other hdigit]

end Signed

section Widths

/-- A number that does not fit fails, after all of it is read. -/
def readFitting {α : Type} [Zero α] (fit : Bool × Nat → Except α α) (s : List Char) :
    Except α α × List Char :=
  (readSigned s).map (Option.elim · (.error 0) fit) id

def FitsInt (z : Int) : Prop := -2147483648 ≤ z ∧ z < 2147483648

instance (z : Int) : Decidable (FitsInt z) := inferInstanceAs (Decidable (_ ∧ _))

def signed32 : Codec Char Int where
  print := integerText
  read := readFitting fun p =>
    if FitsInt (ofSign p) then .ok (ofSign p)
    else .error (if p.1 then -2147483648 else 2147483647)

theorem signed32_restores {z : Int} (h : FitsInt z) : signed32.Restores ascii z where
  start := integerText_cons z
  read_print rest hrest := by
    simp only [signed32, readFitting, readSigned_text z hrest, ofSign_natAbs, if_pos h, Prod.map,
      Option.elim_some, id]

def wordRange : Nat := 18446744073709551616

/-- A minus sign in front of an unsigned number is read, and the number is negated. -/
def unsigned64 : Codec Char UInt64 where
  print n := decimal.print n.toNat
  read := readFitting fun p =>
    if p.2 < wordRange then .ok (if p.1 then 0 - UInt64.ofNat p.2 else UInt64.ofNat p.2)
    else .error (UInt64.ofNat (wordRange - 1))

theorem unsigned64_ascii : unsigned64.Exact ascii where
  start n := decimal_ascii.start n.toNat
  read_print n rest hrest := by
    have hlt : n.toNat < wordRange := n.toNat_lt
    simp only [unsigned64, readFitting, readSigned_decimal _ hrest, Prod.map, Option.elim_some,
      if_pos hlt, Bool.false_eq_true, if_false, UInt64.ofNat_toNat, id]
  read_other a rest h := by
    simp [unsigned64, readFitting, readSigned_other h]

end Widths

end DistributedMathArh.TextStream
