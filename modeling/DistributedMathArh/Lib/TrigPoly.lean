import DistributedMathArh.Lib.Literals

namespace DistributedMathArh

open Real Finset

/-- The coefficients of `cos (k * x)` and those of `sin (k * x)`, for `k < N`. -/
abbrev TrigPoly (N : Nat) := (Fin N → ℝ) × (Fin N → ℝ)

namespace TrigPoly

variable {N : Nat}

noncomputable def eval (p : TrigPoly N) (x : ℝ) : ℝ :=
  ∑ k : Fin N, (p.1 k * cos (k * x) + p.2 k * sin (k * x))

noncomputable def dot (p q : TrigPoly N) : ℝ :=
  ∑ k : Fin N, if (k : Nat) = 0 then p.1 k * q.1 k else (p.1 k * q.1 k + p.2 k * q.2 k) / 2

theorem eval_add (p q : TrigPoly N) (x : ℝ) : (p + q).eval x = p.eval x + q.eval x := by
  simp only [eval, Prod.fst_add, Prod.snd_add, Pi.add_apply, ← sum_add_distrib]
  apply sum_congr rfl
  intro k _
  ring

theorem eval_smul (c : ℝ) (p : TrigPoly N) (x : ℝ) : (c • p).eval x = c * p.eval x := by
  simp only [eval, Prod.smul_fst, Prod.smul_snd, Pi.smul_apply, smul_eq_mul, mul_sum]
  apply sum_congr rfl
  intro k _
  ring

theorem eval_zero (x : ℝ) : (0 : TrigPoly N).eval x = 0 := by simp [eval]

theorem eval_sum {ι : Type*} (s : Finset ι) (p : ι → TrigPoly N) (x : ℝ) :
    (∑ i ∈ s, p i).eval x = ∑ i ∈ s, (p i).eval x := by
  classical
  induction s using Finset.induction_on with
  | empty => exact eval_zero x
  | insert i s hi ih => rw [sum_insert hi, sum_insert hi, eval_add, ih]

theorem dot_comm (p q : TrigPoly N) : p.dot q = q.dot p := by
  apply sum_congr rfl
  intro k _
  simp only [mul_comm]

theorem dot_add (p q r : TrigPoly N) : p.dot (q + r) = p.dot q + p.dot r := by
  simp only [dot, Prod.fst_add, Prod.snd_add, Pi.add_apply, ← sum_add_distrib]
  apply sum_congr rfl
  intro k _
  split <;> ring

theorem add_dot (p q r : TrigPoly N) : (p + q).dot r = p.dot r + q.dot r := by
  rw [dot_comm, dot_add, dot_comm r, dot_comm r]

theorem dot_smul (c : ℝ) (p q : TrigPoly N) : p.dot (c • q) = c * p.dot q := by
  simp only [dot, Prod.smul_fst, Prod.smul_snd, Pi.smul_apply, smul_eq_mul, mul_sum]
  apply sum_congr rfl
  intro k _
  split <;> ring

theorem smul_dot (c : ℝ) (p q : TrigPoly N) : (c • p).dot q = c * p.dot q := by
  rw [dot_comm, dot_smul, dot_comm]

theorem dot_sum {ι : Type*} (s : Finset ι) (p : TrigPoly N) (q : ι → TrigPoly N) :
    p.dot (∑ i ∈ s, q i) = ∑ i ∈ s, p.dot (q i) := by
  classical
  induction s using Finset.induction_on with
  | empty => simp [dot]
  | insert i s hi ih => rw [sum_insert hi, sum_insert hi, dot_add, ih]

theorem sum_dot {ι : Type*} (s : Finset ι) (p : ι → TrigPoly N) (q : TrigPoly N) :
    (∑ i ∈ s, p i).dot q = ∑ i ∈ s, (p i).dot q := by
  rw [dot_comm, dot_sum]
  apply sum_congr rfl
  intro i _
  exact dot_comm q (p i)

theorem continuous_eval (p : TrigPoly N) : Continuous p.eval := by
  unfold eval
  fun_prop

theorem integral_cos_int_mul (m : ℤ) :
    ∫ x in (0 : ℝ)..2 * π, cos (m * x) = if m = 0 then 2 * π else 0 := by
  by_cases hm : m = 0
  · simp [hm]
  · have hcast : (m : ℝ) ≠ 0 := Int.cast_ne_zero.mpr hm
    rw [if_neg hm, intervalIntegral.integral_comp_mul_left (fun x => cos x) hcast, integral_cos,
      mul_zero, sin_zero, ← mul_assoc, mul_comm (m : ℝ) 2]
    simpa [hcast] using sin_int_mul_pi (2 * m)

theorem integral_sin_int_mul (m : ℤ) : ∫ x in (0 : ℝ)..2 * π, sin (m * x) = 0 := by
  by_cases hm : m = 0
  · simp [hm]
  · have hcast : (m : ℝ) ≠ 0 := Int.cast_ne_zero.mpr hm
    rw [intervalIntegral.integral_comp_mul_left (fun x => sin x) hcast, integral_sin, mul_zero,
      cos_zero, cos_int_mul_two_pi, sub_self, smul_zero]

theorem integral_harmonic_mul_harmonic (a b c d : ℝ) (j k : Nat) :
    ∫ x in (0 : ℝ)..2 * π,
        (a * cos (j * x) + b * sin (j * x)) * (c * cos (k * x) + d * sin (k * x)) =
      if j = k then 2 * π * (if j = 0 then a * c else (a * c + b * d) / 2) else 0 := by
  have hprod (x : ℝ) :
      (a * cos (j * x) + b * sin (j * x)) * (c * cos (k * x) + d * sin (k * x)) =
        (a * c + b * d) / 2 * cos (((j - k : ℤ) : ℝ) * x) +
        (a * c - b * d) / 2 * cos (((j + k : ℤ) : ℝ) * x) +
        ((b * c + a * d) / 2 * sin (((j + k : ℤ) : ℝ) * x) +
        (b * c - a * d) / 2 * sin (((j - k : ℤ) : ℝ) * x)) := by
    push_cast
    rw [sub_mul, add_mul (j : ℝ), cos_sub, cos_add, sin_add, sin_sub]
    ring
  have hint {f : ℝ → ℝ} (hf : Continuous f) : IntervalIntegrable f MeasureTheory.volume 0 (2 * π) :=
    hf.intervalIntegrable _ _
  simp only [hprod]
  rw [intervalIntegral.integral_add (hint (by fun_prop)) (hint (by fun_prop)),
    intervalIntegral.integral_add (hint (by fun_prop)) (hint (by fun_prop)),
    intervalIntegral.integral_add (hint (by fun_prop)) (hint (by fun_prop))]
  simp only [intervalIntegral.integral_const_mul, integral_cos_int_mul, integral_sin_int_mul]
  by_cases hjk : j = k
  · subst hjk
    by_cases hj : j = 0
    · simp [hj]
      ring
    · simp [hj]
      ring
  · have h₁ : ((j : ℤ) - k) ≠ 0 := by omega
    have h₂ : ((j : ℤ) + k) ≠ 0 := by omega
    simp [hjk, h₁, h₂]

theorem integral_eval_mul_eval_two_pi (p q : TrigPoly N) :
    ∫ x in (0 : ℝ)..2 * π, p.eval x * q.eval x = 2 * π * p.dot q := by
  simp only [eval, sum_mul_sum]
  rw [intervalIntegral.integral_finsetSum fun j _ =>
    Continuous.intervalIntegrable (by fun_prop) _ _]
  have hrow (j : Fin N) :
      ∫ x in (0 : ℝ)..2 * π, ∑ k : Fin N, (p.1 j * cos (j * x) + p.2 j * sin (j * x)) *
          (q.1 k * cos (k * x) + q.2 k * sin (k * x)) =
        2 * π * (if (j : Nat) = 0 then p.1 j * q.1 j else (p.1 j * q.1 j + p.2 j * q.2 j) / 2) := by
    rw [intervalIntegral.integral_finsetSum fun k _ =>
      Continuous.intervalIntegrable (by fun_prop) _ _]
    simp only [integral_harmonic_mul_harmonic, Fin.val_inj, sum_ite_eq, mem_univ, if_true]
  rw [sum_congr rfl fun j _ => hrow j, ← mul_sum, dot]

theorem integral_eval_mul_eval {ω : ℝ} (hω : ω ≠ 0) (p q : TrigPoly N) :
    ∫ t in (0 : ℝ)..2 * π / ω, p.eval (ω * t) * q.eval (ω * t) = 2 * π / ω * p.dot q := by
  rw [intervalIntegral.integral_comp_mul_left (fun x => p.eval x * q.eval x) hω, mul_zero,
    mul_div_cancel₀ _ hω, integral_eval_mul_eval_two_pi, smul_eq_mul]
  ring

end TrigPoly

end DistributedMathArh
