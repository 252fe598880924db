import DistributedMathArh.Lib.Literals

namespace DistributedMathArh

open Real

abbrev Plane := Fin 2 → ℝ

namespace Plane

def dot (u v : Plane) : ℝ := u 0 * v 0 + u 1 * v 1

def cross (u v : Plane) : ℝ := u 0 * v 1 - u 1 * v 0

noncomputable def direction (phi : ℝ) : Plane := ![cos phi, sin phi]

noncomputable def rotate (alpha : ℝ) (v : Plane) : Plane :=
  ![cos alpha * v 0 - sin alpha * v 1, sin alpha * v 0 + cos alpha * v 1]

variable (alpha phi : ℝ) (u v : Plane)

theorem dot_rotate : dot (rotate alpha u) (rotate alpha v) = dot u v := by
  simp [dot, rotate]
  linear_combination (u 0 * v 0 + u 1 * v 1) * sin_sq_add_cos_sq alpha

theorem cross_rotate : cross (rotate alpha u) (rotate alpha v) = cross u v := by
  simp [cross, rotate]
  linear_combination (u 0 * v 1 - u 1 * v 0) * sin_sq_add_cos_sq alpha

theorem rotate_direction : rotate alpha (direction phi) = direction (phi + alpha) := by
  ext k
  fin_cases k
  · simp [rotate, direction, cos_add]
    ring
  · simp [rotate, direction, sin_add]
    ring

theorem dot_rotate_direction :
    dot (rotate alpha u) (direction (phi + alpha)) = dot u (direction phi) := by
  rw [← rotate_direction, dot_rotate]

theorem cross_rotate_direction :
    cross (rotate alpha u) (direction (phi + alpha)) = cross u (direction phi) := by
  rw [← rotate_direction, cross_rotate]

theorem sum_mul_self : ∑ k, u k * u k =
    dot u (direction phi) ^ 2 + cross u (direction phi) ^ 2 := by
  simp [dot, cross, direction, Fin.sum_univ_two]
  linear_combination -(u 0 ^ 2 + u 1 ^ 2) * sin_sq_add_cos_sq phi

theorem exists_dot_mul_cross_ne_zero (hu : dot u u = 1) :
    ∃ v, dot v u * cross v (direction phi) ≠ 0 := by
  have hone := sin_sq_add_cos_sq phi
  by_contra! h
  have hacross := h ![sin phi, -cos phi]
  have hsum := h ![u 0 + sin phi, u 1 - cos phi]
  simp only [dot, cross, direction, Matrix.cons_val_zero, Matrix.cons_val_one] at hu hacross hsum
  have hdot : u 0 * sin phi - u 1 * cos phi = 0 := by
    linear_combination hacross - (u 0 * sin phi - u 1 * cos phi) * hone
  have hcontra : (1 : ℝ) = 0 := by
    linear_combination hsum - (sin phi ^ 2 + cos phi ^ 2) * hu - hone -
      (u 0 * u 0 + u 1 * u 1 + (sin phi ^ 2 + cos phi ^ 2) + (u 0 * sin phi - u 1 * cos phi)) * hdot
  exact one_ne_zero hcontra

end Plane

end DistributedMathArh
