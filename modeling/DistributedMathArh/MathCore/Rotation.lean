import DistributedMathArh.Lib.Plane
import DistributedMathArh.MathCore.Period

namespace DistributedMathArh

open Real Finset Matrix Plane

variable {n : Nat}

namespace Coordinates

def point (xi : Coordinates n) (i : Fin n) : Plane := fun coord => xi.element coord i

noncomputable def rotate (xi : Coordinates n) (alpha : ℝ) : Coordinates n :=
  ofElements fun coord i => (xi.point i).rotate alpha coord

@[simp] theorem point_rotate (xi : Coordinates n) (alpha : ℝ) (i : Fin n) :
    (xi.rotate alpha).point i = (xi.point i).rotate alpha := by
  funext coord
  exact element_ofElements _ coord i

end Coordinates

noncomputable def Solution.rotate (sol : Solution n) (alpha : ℝ) : Solution n :=
  ofParts (fun i => Plane.rotate alpha (sol.a i)) fun i => Plane.rotate alpha (sol.b i)

namespace Dipole

variable (p : Dipole) (theta phi alpha x : ℝ)

noncomputable def rotate : Dipole := ⟨Plane.rotate alpha p.a, Plane.rotate alpha p.b, p.ys⟩

theorem argument_rotate : (p.rotate alpha).argument = p.argument := rfl

noncomputable def waveAcross : ℝ :=
  cross p.a (direction phi) * cos (x - p.argument) +
    cross p.b (direction phi) * sin (x - p.argument)

theorem aDot_eq : p.aDot phi = dot p.a (direction phi) := rfl

theorem bDot_eq : p.bDot phi = dot p.b (direction phi) := rfl

theorem twist_eq : p.twist = params.omega / params.c * cross p.a p.b := rfl

theorem waveZ_rotate : ((p.rotate alpha).waveZ (phi + alpha)).eval x = (p.waveZ phi).eval x := by
  rw [eval_waveZ, eval_waveZ, aDot_eq, aDot_eq, bDot_eq, bDot_eq]
  simp only [rotate, dot_rotate_direction]
  rfl

theorem waveAcross_rotate : (p.rotate alpha).waveAcross (phi + alpha) x = p.waveAcross phi x := by
  simp only [waveAcross, rotate, cross_rotate_direction]
  rfl

theorem twist_rotate : (p.rotate alpha).twist = p.twist := by
  rw [twist_eq, twist_eq, rotate, cross_rotate]

theorem waveXY_along : (p.waveXY theta phi 0).eval x * cos phi +
    (p.waveXY theta phi 1).eval x * sin phi = -cos theta ^ 2 * (p.waveZ phi).eval x := by
  rw [eval_waveXY, eval_waveXY, eval_waveZ]
  simp only [cons_val_zero, cons_val_one, aDot, bDot]
  linear_combination ((p.a 0 * cos phi + p.a 1 * sin phi) * cos (x - p.argument) +
    (p.b 0 * cos phi + p.b 1 * sin phi) * sin (x - p.argument)) *
      (sin theta ^ 2 * sin_sq_add_cos_sq phi + sin_sq_add_cos_sq theta)

theorem waveXY_across : (p.waveXY theta phi 0).eval x * sin phi -
    (p.waveXY theta phi 1).eval x * cos phi = -p.waveAcross phi x := by
  rw [eval_waveXY, eval_waveXY, waveAcross]
  simp [cross, direction]
  ring

theorem eval_slip_of_parallel (hsin : sin alpha = 0) :
    (p.rotate alpha).slip.eval x = p.slip.eval x := by
  have hcos : cos alpha ^ 2 = 1 := by rw [cos_sq', hsin]; norm_num
  rw [eval_slip, eval_slip, argument_rotate]
  simp only [rotate, Plane.rotate, cons_val_zero, cons_val_one, hsin]
  linear_combination params.omega / params.c * p.a 1 *
    ((sin (x - p.argument) - sin params.omega) *
      (p.a 0 * cos (x - p.argument) + p.b 0 * sin (x - p.argument))) * hcos

end Dipole

namespace Dipoles

open Dipole

variable (xi : Coordinates n) (sol : Solution n) (theta phi alpha x : ℝ)

theorem ys_eq (i : Fin n) :
    ys xi theta phi i = -cross (xi.point i) (direction phi) * sin theta := by
  simp [ys, cross, direction, Coordinates.point]

theorem dipole_rotate (i : Fin n) :
    dipole (xi.rotate alpha) (sol.rotate alpha) theta (phi + alpha) i =
      (dipole xi sol theta phi i).rotate alpha := by
  simp [dipole, Dipole.rotate, Solution.rotate, ys_eq, cross_rotate_direction]

noncomputable def acrossSum : ℝ :=
  ∑ i, (sin theta * (dipole xi sol theta phi i).twist -
    (dipole xi sol theta phi i).waveAcross phi x)

theorem field_along : dot (fun k => (field xi sol theta phi k).eval x) (direction phi) =
    -cos theta ^ 2 * (waveSumZ xi sol theta phi).eval x := by
  have hsum := sum_congr rfl fun i (_ : i ∈ univ) =>
    (dipole xi sol theta phi i).waveXY_along theta phi x
  simp only [field, waveSum, waveSumZ, TrigPoly.eval_add, TrigPoly.eval_smul, TrigPoly.eval_sum]
  rw [mul_sum, ← hsum, sum_add_distrib, ← sum_mul, ← sum_mul]
  simp only [dot, direction, across, cons_val_zero, cons_val_one]
  ring

theorem field_across : cross (fun k => (field xi sol theta phi k).eval x) (direction phi) =
    acrossSum xi sol theta phi x + sin theta * (slipSum xi sol theta phi).eval x := by
  have hsum := sum_congr rfl fun i (_ : i ∈ univ) =>
    (dipole xi sol theta phi i).waveXY_across theta phi x
  rw [sum_sub_distrib, ← sum_mul, ← sum_mul, sum_neg_distrib] at hsum
  simp only [field, waveSum, twistSum, TrigPoly.eval_add, TrigPoly.eval_smul, TrigPoly.eval_sum,
    eval_twistPoly]
  simp only [cross, direction, across, acrossSum, sum_sub_distrib, ← mul_sum, cons_val_zero,
    cons_val_one]
  linear_combination hsum + sin theta * (∑ i, (dipole xi sol theta phi i).twist +
    (slipSum xi sol theta phi).eval x) * sin_sq_add_cos_sq phi

theorem ifunction_eq_components (t : ℝ) : ifunction xi sol theta phi t = params.omega ^ 4 *
    (cos theta ^ 2 * (waveSumZ xi sol theta phi).eval (params.omega * t) ^ 2 +
      (acrossSum xi sol theta phi (params.omega * t) +
        sin theta * (slipSum xi sol theta phi).eval (params.omega * t)) ^ 2) := by
  have hone := sin_sq_add_cos_sq theta
  rw [ifunction_eq, sum_mul_self phi fun k => (field xi sol theta phi k).eval (params.omega * t),
    field_along, field_across]
  linear_combination params.omega ^ 4 * cos theta ^ 2 *
    (waveSumZ xi sol theta phi).eval (params.omega * t) ^ 2 * hone

theorem waveSumZ_rotate : (waveSumZ (xi.rotate alpha) (sol.rotate alpha) theta (phi + alpha)).eval x =
    (waveSumZ xi sol theta phi).eval x := by
  simp only [waveSumZ, TrigPoly.eval_sum, dipole_rotate, waveZ_rotate]

theorem acrossSum_rotate : acrossSum (xi.rotate alpha) (sol.rotate alpha) theta (phi + alpha) x =
    acrossSum xi sol theta phi x := by
  simp only [acrossSum, dipole_rotate, twist_rotate, waveAcross_rotate]

noncomputable def slipValue : ℝ := (slipSum xi sol theta phi).eval x

theorem ifunction_rotate_iff_slip (t : ℝ) :
    ifunction (xi.rotate alpha) (sol.rotate alpha) theta (phi + alpha) t =
        ifunction xi sol theta phi t ↔
      sin theta * slipValue (xi.rotate alpha) (sol.rotate alpha) theta (phi + alpha)
          (params.omega * t) = sin theta * slipValue xi sol theta phi (params.omega * t) ∨
      sin theta * slipValue (xi.rotate alpha) (sol.rotate alpha) theta (phi + alpha)
          (params.omega * t) + sin theta * slipValue xi sol theta phi (params.omega * t) =
        -2 * acrossSum xi sol theta phi (params.omega * t) := by
  have hpow : params.omega ^ 4 ≠ 0 := pow_ne_zero 4 omega_ne_zero
  rw [ifunction_eq_components, ifunction_eq_components, waveSumZ_rotate, acrossSum_rotate,
    mul_right_inj' hpow, add_right_inj, sq_eq_sq_iff_eq_or_eq_neg, add_right_inj]
  apply or_congr Iff.rfl
  rw [slipValue, slipValue]
  constructor <;> intro h <;> linear_combination h

noncomputable def probeCoordinates (n : Nat) (theta phi t psi : ℝ) : Coordinates n :=
  .ofElements fun coord _ => params.c / params.omega * (params.omega * t - psi) / sin theta *
    ![-sin phi, cos phi] coord

noncomputable def probeSolution (n : Nat) (lam : ℝ) (b : Plane) : Solution (n + 1) :=
  .first ![lam, 0] b

theorem argument_probe (hsin : sin theta ≠ 0) (t psi : ℝ) (i : Fin n) :
    (dipole (probeCoordinates n theta phi t psi) sol theta phi i).argument =
      params.omega * t - psi := by
  have hc : params.c ≠ 0 := by norm_num [params]
  have homega := omega_ne_zero
  have hone := sin_sq_add_cos_sq phi
  simp only [argument, dipole, ys, probeCoordinates, Coordinates.element_ofElements, cons_val_zero,
    cons_val_one]
  field_simp
  linear_combination (params.omega * t - psi) * hone

theorem probe_a (xi : Coordinates (n + 1)) (lam : ℝ) (b : Plane) :
    (dipole xi (probeSolution n lam b) theta phi 0).a = ![lam, 0] := by
  simp [dipole, probeSolution]

theorem probe_b (xi : Coordinates (n + 1)) (lam : ℝ) (b : Plane) :
    (dipole xi (probeSolution n lam b) theta phi 0).b = b := by
  simp [dipole, probeSolution]

theorem slipValue_probe (xi : Coordinates (n + 1)) (lam : ℝ) (b : Plane) :
    slipValue xi (probeSolution n lam b) theta phi x = 0 := by
  rw [slipValue, slipSum, TrigPoly.eval_sum, probeSolution,
    sum_first theta phi _ _ _ (fun p => p.slip.eval x), ← probeSolution]
  · rw [eval_slip, probe_a]
    simp
  · intro p ha hb
    simp [eval_slip, ha]

section Probe

variable {theta phi} {psi : ℝ} (hsin : sin theta ≠ 0) (hpsi : cos psi = 0) (lam t : ℝ) (b : Plane)
include hsin hpsi

theorem acrossSum_probe : acrossSum (probeCoordinates (n + 1) theta phi t psi)
      (probeSolution n lam b) theta phi (params.omega * t) =
    sin theta * (params.omega / params.c) * lam * b 1 -
      cross b (direction phi) * sin psi := by
  rw [acrossSum, probeSolution, sum_first theta phi _ _ _
    (fun p => sin theta * p.twist - p.waveAcross phi (params.omega * t)), ← probeSolution]
  · rw [waveAcross, twist_eq, argument_probe _ _ _ hsin, probe_a, probe_b, sub_sub_cancel, hpsi]
    simp [cross]
    ring
  · intro p ha hb
    simp [twist, waveAcross, cross, ha, hb]

theorem slipValue_rotate_probe : slipValue ((probeCoordinates (n + 1) theta phi t psi).rotate alpha)
    ((probeSolution n lam b).rotate alpha) theta (phi + alpha) (params.omega * t) =
      params.omega / params.c * sin alpha * (sin psi - sin params.omega) * sin psi *
        (lam * (cos alpha * b 0 - sin alpha * b 1)) := by
  simp only [slipValue, slipSum, TrigPoly.eval_sum, dipole_rotate]
  rw [probeSolution, sum_first theta phi _ _ _
    (fun p => (p.rotate alpha).slip.eval (params.omega * t)), ← probeSolution]
  · rw [eval_slip, argument_rotate, argument_probe _ _ _ hsin, sub_sub_cancel, hpsi]
    simp [Dipole.rotate, Plane.rotate, probe_a, probe_b]
    ring
  · intro p ha hb
    simp [eval_slip, Dipole.rotate, Plane.rotate, ha]

theorem turn_mul_cross_eq_zero (halpha : sin alpha ≠ 0) (hne : sin psi ≠ sin params.omega)
    (hzero : sin psi ≠ 0) (h : ∀ lam : ℝ,
      ifunction ((probeCoordinates (n + 1) theta phi t psi).rotate alpha)
          ((probeSolution n lam b).rotate alpha) theta (phi + alpha) t =
        ifunction (probeCoordinates (n + 1) theta phi t psi) (probeSolution n lam b) theta phi t) :
    (cos alpha * b 0 - sin alpha * b 1) * cross b (direction phi) = 0 := by
  have hc : params.c ≠ 0 := by norm_num [params]
  let K := params.omega / params.c * sin alpha * (sin psi - sin params.omega) * sin psi
  have hK : K ≠ 0 := mul_ne_zero (mul_ne_zero (mul_ne_zero (div_ne_zero omega_ne_zero hc) halpha)
    (sub_ne_zero.mpr hne)) hzero
  have hquad (lam : ℝ) : sin theta * (K * (lam * (cos alpha * b 0 - sin alpha * b 1))) *
      (sin theta * (K * (lam * (cos alpha * b 0 - sin alpha * b 1))) +
        2 * (sin theta * (params.omega / params.c) * lam * b 1 -
          cross b (direction phi) * sin psi)) = 0 := by
    have hkey := (ifunction_rotate_iff_slip _ _ _ _ _ _).mp (h lam)
    rw [slipValue_rotate_probe _ hsin hpsi, slipValue_probe, acrossSum_probe hsin hpsi,
      mul_zero, add_zero] at hkey
    rcases hkey with hkeep | hturn
    · rw [hkeep, zero_mul]
    · rw [hturn]
      ring
  have hprod : 4 * sin theta * K * sin psi *
      ((cos alpha * b 0 - sin alpha * b 1) * cross b (direction phi)) = 0 := by
    linear_combination hquad (-1) - hquad 1
  apply (mul_eq_zero.mp hprod).resolve_left
  exact mul_ne_zero (mul_ne_zero (mul_ne_zero four_ne_zero hsin) hK) hzero

end Probe

theorem exists_phase : ∃ psi : ℝ, cos psi = 0 ∧ sin psi ≠ sin params.omega ∧ sin psi ≠ 0 := by
  by_cases h : sin params.omega = 1
  · exact ⟨-(π / 2), by simp, by norm_num [h], by norm_num⟩
  · exact ⟨π / 2, by simp, by simpa using Ne.symm h, by norm_num⟩

/-- For a single system, the rotation keeps the value exactly where it keeps the error of the
velocities or turns the whole component across the view.  It keeps the value of all systems of
a size at an angle exactly if there is no dipole, the view is from above, or the rotation is by a
multiple of `π`. -/
theorem ifunction_rotate_iff (n : Nat) (theta phi t alpha : ℝ) :
    (∀ (xi : Coordinates n) (sol : Solution n),
      ifunction (xi.rotate alpha) (sol.rotate alpha) theta (phi + alpha) t =
          ifunction xi sol theta phi t ↔
        sin theta * slipValue (xi.rotate alpha) (sol.rotate alpha) theta (phi + alpha)
            (params.omega * t) = sin theta * slipValue xi sol theta phi (params.omega * t) ∨
        sin theta * slipValue (xi.rotate alpha) (sol.rotate alpha) theta (phi + alpha)
            (params.omega * t) + sin theta * slipValue xi sol theta phi (params.omega * t) =
          -2 * acrossSum xi sol theta phi (params.omega * t)) ∧
    ((∀ (xi : Coordinates n) (sol : Solution n),
      ifunction (xi.rotate alpha) (sol.rotate alpha) theta (phi + alpha) t =
        ifunction xi sol theta phi t) ↔ n = 0 ∨ sin theta = 0 ∨ sin alpha = 0) := by
  constructor
  · intro xi sol
    exact ifunction_rotate_iff_slip xi sol theta phi alpha t
  constructor
  · intro h
    cases n with
    | zero => exact .inl rfl
    | succ n =>
      right
      by_contra! hne
      obtain ⟨hsin, halpha⟩ := hne
      obtain ⟨psi, hpsi, hphase, hzero⟩ := exists_phase
      have hunit : dot (direction (-alpha)) (direction (-alpha)) = 1 := by
        simp [dot, direction, ← sq]
      obtain ⟨b, hb⟩ := exists_dot_mul_cross_ne_zero phi _ hunit
      apply hb
      have hdot : dot b (direction (-alpha)) = cos alpha * b 0 - sin alpha * b 1 := by
        simp [dot, direction]
        ring
      rw [hdot]
      exact turn_mul_cross_eq_zero alpha hsin hpsi t b halpha hphase hzero fun lam => h _ _
  · intro h xi sol
    rw [ifunction_rotate_iff_slip]
    left
    rcases h with rfl | hsin | halpha
    · simp [slipValue, slipSum]
    · rw [hsin, zero_mul, zero_mul]
    · simp only [slipValue, slipSum, TrigPoly.eval_sum, dipole_rotate,
        eval_slip_of_parallel _ _ _ halpha]

theorem sin_omega_ne_one : sin params.omega ≠ 1 := by
  intro h
  obtain ⟨k, hk⟩ := sin_eq_one_iff.mp h
  have hint : (1 + 4 * k : ℤ) ≠ 0 := by omega
  have hreal : (1 + 4 * k : ℝ) ≠ 0 := by exact_mod_cast hint
  apply irrational_pi
  refine ⟨2 * 10 ^ 15 / (1 + 4 * k), ?_⟩
  push_cast
  rw [div_eq_iff hreal]
  simp only [params] at hk
  linear_combination -2 * hk

theorem probeCoordinates_origin (n : Nat) :
    probeCoordinates n theta phi (π / 2 / params.omega) (π / 2) = 0 := by
  funext k
  simp [probeCoordinates, Coordinates.ofElements, mul_div_cancel₀ _ omega_ne_zero]

def turningSolution : Solution 1 := ![1, 0, 0, 1]

theorem probeSolution_turning : probeSolution 0 1 ![0, 1] = turningSolution := by
  funext k
  fin_cases k <;> rfl

theorem ifunction_rotate_ne :
    ifunction ((0 : Coordinates 1).rotate (π / 2)) (turningSolution.rotate (π / 2))
        (π / 2) (0 + π / 2) (π / 2 / params.omega) ≠
      ifunction 0 turningSolution (π / 2) 0 (π / 2 / params.omega) := by
  have hsin : sin (π / 2) ≠ 0 := by simp
  have hscale : 0 < params.omega / params.c := by norm_num [params]
  have hne : 1 - sin params.omega ≠ 0 := sub_ne_zero.mpr sin_omega_ne_one.symm
  have hnonneg := mul_nonneg hscale.le (neg_le_iff_add_nonneg'.mp (neg_one_le_sin params.omega))
  rw [← probeSolution_turning, ← probeCoordinates_origin (π / 2) 0 1, Ne, ifunction_rotate_iff_slip,
    slipValue_rotate_probe _ hsin cos_pi_div_two, slipValue_probe,
    acrossSum_probe hsin cos_pi_div_two]
  simp only [cross, direction, sin_pi_div_two, cos_pi_div_two, sin_zero, cos_zero, cons_val_zero,
    cons_val_one]
  rintro (hkeep | hturn)
  · apply mul_ne_zero hscale.ne' hne
    linear_combination -hkeep
  · linarith

end Dipoles

end DistributedMathArh
