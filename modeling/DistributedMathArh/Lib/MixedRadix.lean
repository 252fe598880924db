import Mathlib.Algebra.BigOperators.Group.List.Basic
import Mathlib.Data.Set.Function

namespace DistributedMathArh.MixedRadix

def digits : List Nat → Nat → List Nat
  | [], _ => []
  | _ :: sizes, i => i / sizes.prod :: digits sizes (i % sizes.prod)

def value : List Nat → List Nat → Nat
  | _ :: sizes, d :: ds => d * sizes.prod + value sizes ds
  | _, _ => 0

abbrev Below (ds sizes : List Nat) : Prop := List.Forall₂ (· < ·) ds sizes

variable {sizes ds : List Nat} {i j : Nat}

theorem value_lt_prod (h : Below ds sizes) : value sizes ds < sizes.prod := by
  induction h with
  | nil => exact Nat.one_pos
  | @cons d size ds sizes hd _ ih =>
    calc
      d * sizes.prod + value sizes ds < d * sizes.prod + sizes.prod := Nat.add_lt_add_left ih _
      _ = (d + 1) * sizes.prod := (Nat.succ_mul d sizes.prod).symm
      _ ≤ size * sizes.prod := Nat.mul_le_mul_right _ hd
      _ = (size :: sizes).prod := List.prod_cons.symm

theorem digits_below (hi : i < sizes.prod) : Below (digits sizes i) sizes := by
  induction sizes generalizing i with
  | nil => exact .nil
  | cons size sizes ih =>
    rw [List.prod_cons] at hi
    have hpos : 0 < sizes.prod := Nat.pos_of_mul_pos_left (Nat.zero_lt_of_lt hi)
    exact .cons (Nat.div_lt_of_lt_mul (Nat.mul_comm size _ ▸ hi)) (ih (Nat.mod_lt i hpos))

theorem value_digits (hi : i < sizes.prod) : value sizes (digits sizes i) = i := by
  induction sizes generalizing i with
  | nil => exact (Nat.lt_one_iff.mp hi).symm
  | cons size sizes ih =>
    rw [List.prod_cons] at hi
    have hpos : 0 < sizes.prod := Nat.pos_of_mul_pos_left (Nat.zero_lt_of_lt hi)
    rw [digits, value, ih (Nat.mod_lt i hpos), Nat.mul_comm, Nat.div_add_mod]

theorem digits_value (h : Below ds sizes) : digits sizes (value sizes ds) = ds := by
  induction h with
  | nil => rfl
  | @cons d size ds sizes hd htail ih =>
    have hlt := value_lt_prod htail
    rw [value, digits, Nat.mul_comm, Nat.mul_add_div (Nat.zero_lt_of_lt hlt), Nat.div_eq_of_lt hlt,
      Nat.add_zero, Nat.mul_add_mod, Nat.mod_eq_of_lt hlt, ih]

theorem digits_bijOn (sizes : List Nat) :
    Set.BijOn (digits sizes) {i | i < sizes.prod} {ds | Below ds sizes} := by
  refine ⟨fun i hi => digits_below hi, ?_, ?_⟩
  · intro i hi j hj h
    calc
      i = value sizes (digits sizes i) := (value_digits hi).symm
      _ = value sizes (digits sizes j) := congrArg (value sizes) h
      _ = j := value_digits hj
  · intro ds h
    exact ⟨value sizes ds, value_lt_prod h, digits_value h⟩

theorem digits_lex (h : i < j) (hj : j < sizes.prod) :
    List.Lex (· < ·) (digits sizes i) (digits sizes j) := by
  induction sizes generalizing i j with
  | nil => exact absurd h (Nat.lt_one_iff.mp hj ▸ Nat.not_lt_zero i)
  | cons size sizes ih =>
    rw [List.prod_cons] at hj
    have hpos : 0 < sizes.prod := Nat.pos_of_mul_pos_left (Nat.zero_lt_of_lt hj)
    cases Nat.lt_or_eq_of_le (Nat.div_le_div_right (c := sizes.prod) h.le) with
    | inl hlt => exact .rel hlt
    | inr heq =>
      have hmod : i % sizes.prod < j % sizes.prod := by
        have hi := Nat.div_add_mod i sizes.prod
        have hj := Nat.div_add_mod j sizes.prod
        rw [heq] at hi
        omega
      rw [digits, digits, heq]
      exact .cons (ih hmod (Nat.mod_lt j hpos))

theorem digits_cons_mod (size : Nat) (sizes : List Nat) (i : Nat) :
    digits (size :: sizes) (i % (size :: sizes).prod) =
      i / sizes.prod % size :: digits sizes (i % sizes.prod) := by
  rw [digits, List.prod_cons, Nat.mod_mul_left_div_self, Nat.mod_mul_left_mod]

end DistributedMathArh.MixedRadix
