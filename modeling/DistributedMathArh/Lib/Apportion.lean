import Mathlib.Algebra.Order.Field.Basic
import Mathlib.Algebra.Order.Ring.Cast
import Mathlib.Tactic.FieldSimp
import Mathlib.Tactic.Linarith

/-! Sharing out an amount in proportion to weights: every party but the last gets its exact share
rounded down, the last one gets what is left. -/

namespace DistributedMathArh.Apportion

def floors (amount total : Nat) (ws : List Nat) : List Nat := ws.map fun w => amount * w / total

variable (amount : Nat) {total : Nat}

theorem mul_sum_floors_le (total : Nat) (ws : List Nat) :
    total * (floors amount total ws).sum ≤ amount * ws.sum := by
  induction ws with
  | nil => simp [floors]
  | cons w ws ih =>
    have hw := Nat.mul_div_le (amount * w) total
    simp only [floors, List.map_cons, List.sum_cons, Nat.mul_add] at ih ⊢
    apply Nat.add_le_add hw ih

theorem le_mul_sum_floors (htotal : 0 < total) (ws : List Nat) :
    amount * ws.sum ≤ total * ((floors amount total ws).sum + ws.length) := by
  induction ws with
  | nil => simp
  | cons w ws ih =>
    have hw := (Nat.lt_mul_div_succ (amount * w) htotal).le
    simp only [floors, List.map_cons, List.sum_cons, List.length_cons, Nat.mul_add] at ih hw ⊢
    omega

section Rest

variable {ws : List Nat} {w : Nat}

theorem mul_le_mul_rest (h : ws.sum + w = total) :
    amount * w ≤ total * (amount - (floors amount total ws).sum) := by
  have hle := mul_sum_floors_le amount total ws
  have hsplit : total * amount = amount * ws.sum + amount * w := by
    rw [← h, Nat.mul_comm, Nat.mul_add]
  rw [Nat.mul_sub]
  omega

theorem mul_rest_le (htotal : 0 < total) (h : ws.sum + w = total) :
    total * (amount - (floors amount total ws).sum) ≤ amount * w + total * ws.length := by
  have hle := le_mul_sum_floors amount htotal ws
  have hsplit : total * amount = amount * ws.sum + amount * w := by
    rw [← h, Nat.mul_comm, Nat.mul_add]
  rw [Nat.mul_sub]
  rw [Nat.mul_add] at hle
  omega

theorem sum_floors_lt {amount : Nat} (hamount : 0 < amount) (hw : 0 < w) (h : ws.sum + w = total) :
    (floors amount total ws).sum < amount := by
  have hrest := mul_le_mul_rest amount h
  have hpos : 0 < amount * w := Nat.mul_pos hamount hw
  have hne : amount - (floors amount total ws).sum ≠ 0 := fun h0 => by simp [h0] at hrest; omega
  omega

theorem rest_bounds (htotal : 0 < total) (h : ws.sum + w = total) :
    (amount * w / total : ℚ) ≤ (amount - (floors amount total ws).sum : Nat) ∧
      ((amount - (floors amount total ws).sum : Nat) : ℚ) ≤ amount * w / total + ws.length := by
  have hpos : (0 : ℚ) < total := by exact_mod_cast htotal
  constructor
  · rw [div_le_iff₀ hpos, mul_comm _ (total : ℚ)]
    exact_mod_cast mul_le_mul_rest amount h
  · rw [div_add' _ _ _ hpos.ne', le_div_iff₀ hpos, mul_comm _ (total : ℚ),
      mul_comm (ws.length : ℚ)]
    exact_mod_cast mul_rest_le amount htotal h

end Rest

end DistributedMathArh.Apportion
