import DistributedMathArh.Lib.TrigPoly
import DistributedMathArh.MathCore.FullFunction

namespace DistributedMathArh

open Real Finset Matrix

theorem omega_ne_zero : params.omega ≠ 0 := by norm_num [params]

namespace Dipole

variable (p q : Dipole) (theta phi : ℝ)

noncomputable def across (phi : ℝ) : Fin 2 → ℝ := ![sin phi, -cos phi]

noncomputable def twist : ℝ := params.omega / params.c * (p.a 0 * p.b 1 - p.a 1 * p.b 0)

noncomputable def waveXY (k : Fin 2) : TrigPoly 3 :=
  (![0, p.pc1 theta phi k, 0], ![0, p.ps1 theta phi k, 0])

noncomputable def acrossWave : TrigPoly 3 :=
  (![0, (∑ k, across phi k * p.b k) * sin p.argument - (∑ k, across phi k * p.a k) * cos p.argument,
      0],
    ![0, -(∑ k, across phi k * p.a k) * sin p.argument -
      (∑ k, across phi k * p.b k) * cos p.argument, 0])

noncomputable def waveZ : TrigPoly 3 := (![0, p.pc phi, 0], ![0, p.ps phi, 0])

noncomputable def twistPoly : TrigPoly 3 := (![p.twist, 0, 0], 0)

/-- What the sine at `omega` adds: `(sin (x - argument) - sin omega) * di[0]` by its harmonics. -/
noncomputable def slip : TrigPoly 3 :=
  (params.omega / params.c * p.a 1) •
    (![p.b 0 / 2,
        -sin params.omega * (p.a 0 * cos p.argument - p.b 0 * sin p.argument),
        -(p.a 0 * sin (2 * p.argument) + p.b 0 * cos (2 * p.argument)) / 2],
      ![0,
        -sin params.omega * (p.a 0 * sin p.argument + p.b 0 * cos p.argument),
        (p.a 0 * cos (2 * p.argument) - p.b 0 * sin (2 * p.argument)) / 2])

theorem eval_three (r : TrigPoly 3) (x : ℝ) : r.eval x =
    r.1 0 + (r.1 1 * cos x + r.2 1 * sin x) + (r.1 2 * cos (2 * x) + r.2 2 * sin (2 * x)) := by
  simp [TrigPoly.eval, Fin.sum_univ_three]

theorem dot_three (r s : TrigPoly 3) : r.dot s =
    r.1 0 * s.1 0 + (r.1 1 * s.1 1 + r.2 1 * s.2 1) / 2 + (r.1 2 * s.1 2 + r.2 2 * s.2 2) / 2 := by
  simp [TrigPoly.dot, Fin.sum_univ_three]

theorem eval_waveXY (k : Fin 2) (x : ℝ) : (p.waveXY theta phi k).eval x =
    (![cos phi, sin phi] k * p.aDot phi * sin theta ^ 2 - p.a k) * cos (x - p.argument) +
      (![cos phi, sin phi] k * p.bDot phi * sin theta ^ 2 - p.b k) * sin (x - p.argument) := by
  rw [eval_three, cos_sub, sin_sub]
  simp [waveXY, pc1, ps1]
  ring

theorem eval_waveZ (x : ℝ) : (p.waveZ phi).eval x =
    p.aDot phi * cos (x - p.argument) + p.bDot phi * sin (x - p.argument) := by
  rw [eval_three, cos_sub, sin_sub]
  simp [waveZ, pc, ps]
  ring

theorem eval_twistPoly (x : ℝ) : p.twistPoly.eval x = p.twist := by
  rw [eval_three]
  simp [twistPoly]

theorem eval_slip (x : ℝ) : p.slip.eval x = params.omega / params.c * p.a 1 *
    ((sin (x - p.argument) - sin params.omega) *
      (p.a 0 * cos (x - p.argument) + p.b 0 * sin (x - p.argument))) := by
  have h₁ : cos (2 * (x - p.argument)) =
      cos (2 * x) * cos (2 * p.argument) + sin (2 * x) * sin (2 * p.argument) := by
    rw [mul_sub, cos_sub]
  have h₂ : sin (2 * (x - p.argument)) =
      sin (2 * x) * cos (2 * p.argument) - cos (2 * x) * sin (2 * p.argument) := by
    rw [mul_sub, sin_sub]
  rw [cos_two_mul (x - p.argument)] at h₁
  rw [sin_two_mul (x - p.argument)] at h₂
  have hone := sin_sq_add_cos_sq (x - p.argument)
  rw [slip, TrigPoly.eval_smul, eval_three]
  simp only [cons_val_zero, cons_val_one, cons_val_two, head_cons, tail_cons]
  congr 1
  linear_combination sin params.omega * p.a 0 * cos_sub x p.argument +
    sin params.omega * p.b 0 * sin_sub x p.argument - p.a 0 / 2 * h₂ + p.b 0 / 2 * h₁ - p.b 0 * hone

theorem fieldTerm_castSucc (t : ℝ) (k : Fin 2) :
    p.fieldTerm theta phi t k.castSucc = -params.omega ^ 2 * TrigPoly.eval
      (p.waveXY theta phi k + (sin theta * across phi k) • (p.twistPoly + p.slip))
      (params.omega * t) := by
  have hphase : params.omega * (t - p.ys / params.c) = params.omega * t - p.argument := by
    rw [argument]
    ring
  have hone := sin_sq_add_cos_sq (params.omega * t - p.argument)
  rw [TrigPoly.eval_add, TrigPoly.eval_smul, TrigPoly.eval_add, eval_waveXY, eval_twistPoly,
    eval_slip]
  fin_cases k
  · simp [fieldTerm, hphase, across, twist, aDot, bDot]
    linear_combination -params.omega ^ 2 * sin theta * sin phi * (params.omega / params.c) *
      (p.a 0 * p.b 1 - p.a 1 * p.b 0) * hone
  · simp [fieldTerm, hphase, across, twist, aDot, bDot]
    linear_combination params.omega ^ 2 * sin theta * cos phi * (params.omega / params.c) *
      (p.a 0 * p.b 1 - p.a 1 * p.b 0) * hone

theorem fieldTerm_last (t : ℝ) : p.fieldTerm theta phi t (Fin.last 2) =
    -params.omega ^ 2 * (sin theta * cos theta) * (p.waveZ phi).eval (params.omega * t) := by
  have hphase : params.omega * (t - p.ys / params.c) = params.omega * t - p.argument := by
    rw [argument]
    ring
  rw [eval_waveZ]
  simp [fieldTerm, hphase, aDot, bDot, Fin.last]
  ring

noncomputable def crossXY (k : Fin 2) : ℝ :=
  p.pc1 theta phi k * q.pc1 theta phi k + p.ps1 theta phi k * q.ps1 theta phi k +
    2 * (p.pcom p theta phi k * q.pcom q theta phi k)

/-- What a change of `b[1]` of the inner dipole by `delta`, and the `b` of the outer dipole in its
`pcomj`, add to the terms of a pair. -/
noncomputable def pairSlip (delta : ℝ) : ℝ :=
  delta * (∑ k, (![0, 1] k - ![cos phi, sin phi] k * sin phi * sin theta ^ 2) *
      (p.pc1 theta phi k * sin q.argument - p.ps1 theta phi k * cos q.argument)) +
    (sin theta * cos theta) ^ 2 * delta * sin phi *
      (p.ps phi * cos q.argument - p.pc phi * sin q.argument) +
    2 * sin theta ^ 2 * p.twist * (params.omega / params.c) *
      (delta * sin phi * (∑ k, across phi k * q.a k) +
        q.aDot phi * ∑ k, across phi k * (q.b k - p.b k))

def shift (delta : ℝ) : Dipole := { q with b := ![q.b 0, q.b 1 + delta] }

theorem pair_shift (delta : ℝ) :
    (∑ k, p.rijXY (q.shift delta) theta phi k) +
        (sin theta * cos theta) ^ 2 * p.rijZ (q.shift delta) phi =
      (∑ k, p.crossXY q theta phi k) + (sin theta * cos theta) ^ 2 * p.rijZ q phi +
        p.pairSlip q theta phi delta := by
  simp [Fin.sum_univ_two, rijXY, rijZ, crossXY, pairSlip, shift, pc1, ps1, pc, ps, pcom, twist,
    across, aDot, bDot, argument]
  ring

theorem pcom_self (k : Fin 2) :
    p.pcom p theta phi k = -(sin theta * across phi k) * p.twist := by
  fin_cases k <;> simp [pcom, across, twist, aDot, bDot] <;> ring

end Dipole

namespace Dipoles

open Dipole

variable {n : Nat} (xi : Coordinates n) (sol : Solution n) (theta phi : ℝ)

theorem sum_first {M : Type} [AddCommMonoid M] (xi : Coordinates (n + 1)) (a b : Fin 2 → ℝ)
    (f : Dipole → M) (hf : ∀ p : Dipole, p.a = 0 → p.b = 0 → f p = 0) :
    ∑ i, f (dipole xi (.first a b) theta phi i) = f (dipole xi (.first a b) theta phi 0) := by
  rw [Fin.sum_univ_succ, sum_eq_zero, add_zero]
  intro i _
  exact hf _ (Solution.a_first_succ i a b) (Solution.b_first_succ i a b)

noncomputable def waveSum (k : Fin 2) : TrigPoly 3 :=
  ∑ i, (dipole xi sol theta phi i).waveXY theta phi k

noncomputable def acrossWaveSum : TrigPoly 3 := ∑ i, (dipole xi sol theta phi i).acrossWave phi

noncomputable def waveSumZ : TrigPoly 3 := ∑ i, (dipole xi sol theta phi i).waveZ phi

noncomputable def twistSum : TrigPoly 3 := ∑ i, (dipole xi sol theta phi i).twistPoly

noncomputable def slipSum : TrigPoly 3 := ∑ i, (dipole xi sol theta phi i).slip

noncomputable def field (k : Fin 2) : TrigPoly 3 :=
  waveSum xi sol theta phi k +
    (sin theta * across phi k) • (twistSum xi sol theta phi + slipSum xi sol theta phi)

def delta (j : Fin n) : ℝ := sol.bInner j 1 - sol.b j 1

noncomputable def pairDefect : ℝ :=
  kRr * params.omega ^ 4 * ∑ i, ∑ j ∈ Iio i, (dipole xi sol theta phi i).pairSlip
    (dipole xi sol theta phi j) theta phi (delta sol j)

/-- The value that both functions would have without their slips. -/
noncomputable def power : ℝ :=
  kRr * params.omega ^ 4 *
    ((∑ k, (waveSum xi sol theta phi k).dot (waveSum xi sol theta phi k)) +
      sin theta ^ 2 * (twistSum xi sol theta phi).dot (twistSum xi sol theta phi) +
      (sin theta * cos theta) ^ 2 * (waveSumZ xi sol theta phi).dot (waveSumZ xi sol theta phi))

/-- What the sine at `omega` adds to the integral. -/
noncomputable def velocityDefect : ℝ :=
  kRr * params.omega ^ 4 *
    (2 * sin theta * (acrossWaveSum xi sol theta phi).dot (slipSum xi sol theta phi) +
      sin theta ^ 2 * (2 * (twistSum xi sol theta phi).dot (slipSum xi sol theta phi) +
        (slipSum xi sol theta phi).dot (slipSum xi sol theta phi)))

theorem ifunction_eq (t : ℝ) : ifunction xi sol theta phi t =
    params.omega ^ 4 * ((∑ k, (field xi sol theta phi k).eval (params.omega * t) *
        (field xi sol theta phi k).eval (params.omega * t)) +
      (sin theta * cos theta) ^ 2 * ((waveSumZ xi sol theta phi).eval (params.omega * t) *
        (waveSumZ xi sol theta phi).eval (params.omega * t))) := by
  have hxy (k : Fin 2) : (∑ i, (dipole xi sol theta phi i).fieldTerm theta phi t) k.castSucc =
      -params.omega ^ 2 * (field xi sol theta phi k).eval (params.omega * t) := by
    simp only [Finset.sum_apply, fieldTerm_castSucc, ← mul_sum, ← TrigPoly.eval_sum, field, waveSum,
      twistSum, slipSum, sum_add_distrib, ← smul_sum]
  have hz : (∑ i, (dipole xi sol theta phi i).fieldTerm theta phi t) (Fin.last 2) =
      -params.omega ^ 2 * (sin theta * cos theta) *
        (waveSumZ xi sol theta phi).eval (params.omega * t) := by
    simp only [Finset.sum_apply, fieldTerm_last, ← mul_sum, ← TrigPoly.eval_sum, waveSumZ]
  simp only [ifunction]
  rw [Fin.sum_univ_castSucc, hz]
  simp only [hxy]
  rw [mul_add, mul_sum]
  congr 1
  · apply sum_congr rfl
    intro k _
    ring
  · ring

theorem integral_ifunction : ∫ t in (0 : ℝ)..kRr, ifunction xi sol theta phi t =
    kRr * params.omega ^ 4 * ((∑ k, (field xi sol theta phi k).dot (field xi sol theta phi k)) +
      (sin theta * cos theta) ^ 2 *
        (waveSumZ xi sol theta phi).dot (waveSumZ xi sol theta phi)) := by
  have hcont (r : TrigPoly 3) :
      Continuous fun t => r.eval (params.omega * t) * r.eval (params.omega * t) := by
    have := r.continuous_eval
    fun_prop
  simp only [ifunction_eq, intervalIntegral.integral_const_mul]
  rw [intervalIntegral.integral_add, intervalIntegral.integral_finsetSum,
    intervalIntegral.integral_const_mul]
  · simp only [kRr, TrigPoly.integral_eval_mul_eval omega_ne_zero, ← mul_sum]
    ring
  · exact fun k _ => (hcont _).intervalIntegrable _ _
  · exact (continuous_finsetSum _ fun k _ => hcont _).intervalIntegrable _ _
  · exact (continuous_const.mul (hcont _)).intervalIntegrable _ _

theorem waveSum_dot_twistSum (k : Fin 2) :
    (waveSum xi sol theta phi k).dot (twistSum xi sol theta phi) = 0 := by
  rw [waveSum, twistSum, TrigPoly.sum_dot]
  apply sum_eq_zero
  intro i _
  rw [TrigPoly.dot_sum]
  apply sum_eq_zero
  intro j _
  rw [dot_three]
  simp [waveXY, twistPoly]

theorem across_sq (phi : ℝ) : across phi 0 ^ 2 + across phi 1 ^ 2 = 1 := by
  simp [across, sin_sq_add_cos_sq]

theorem sum_across_smul_waveXY (p : Dipole) :
    ∑ k, across phi k • p.waveXY theta phi k = p.acrossWave phi := by
  ext m <;> fin_cases m <;>
    simp [Fin.sum_univ_two, waveXY, acrossWave, across, pc1, ps1] <;> ring

theorem sum_across_dot (r : TrigPoly 3) :
    ∑ k, across phi k * (waveSum xi sol theta phi k).dot r = (acrossWaveSum xi sol theta phi).dot r := by
  have hsum : acrossWaveSum xi sol theta phi = ∑ k, across phi k • waveSum xi sol theta phi k := by
    simp only [acrossWaveSum, waveSum, smul_sum]
    rw [sum_comm]
    exact sum_congr rfl fun i _ => (sum_across_smul_waveXY theta phi _).symm
  simp only [hsum, TrigPoly.sum_dot, TrigPoly.smul_dot]

theorem integral_ifunction_eq : ∫ t in (0 : ℝ)..kRr, ifunction xi sol theta phi t =
    power xi sol theta phi + velocityDefect xi sol theta phi := by
  have hfield (k : Fin 2) : (field xi sol theta phi k).dot (field xi sol theta phi k) =
      (waveSum xi sol theta phi k).dot (waveSum xi sol theta phi k) +
        2 * (sin theta * across phi k) *
          (waveSum xi sol theta phi k).dot (slipSum xi sol theta phi) +
        (sin theta * across phi k) ^ 2 *
          ((twistSum xi sol theta phi).dot (twistSum xi sol theta phi) +
            2 * (twistSum xi sol theta phi).dot (slipSum xi sol theta phi) +
            (slipSum xi sol theta phi).dot (slipSum xi sol theta phi)) := by
    have hzero := waveSum_dot_twistSum xi sol theta phi k
    rw [field]
    simp only [TrigPoly.add_dot, TrigPoly.dot_add, TrigPoly.smul_dot, TrigPoly.dot_smul]
    rw [TrigPoly.dot_comm (twistSum xi sol theta phi) (waveSum xi sol theta phi k),
      TrigPoly.dot_comm (slipSum xi sol theta phi) (waveSum xi sol theta phi k),
      TrigPoly.dot_comm (slipSum xi sol theta phi) (twistSum xi sol theta phi), hzero]
    ring
  rw [integral_ifunction, power, velocityDefect, ← sum_across_dot]
  simp only [hfield, Fin.sum_univ_two]
  linear_combination kRr * params.omega ^ 4 * sin theta ^ 2 *
    ((twistSum xi sol theta phi).dot (twistSum xi sol theta phi) +
      2 * (twistSum xi sol theta phi).dot (slipSum xi sol theta phi) +
      (slipSum xi sol theta phi).dot (slipSum xi sol theta phi)) * across_sq phi

theorem sum_pairs {n : Nat} (u : Fin n → ℝ) :
    ∑ i, ((∑ j ∈ Iio i, u i * u j) + u i * u i / 2) = (∑ i, u i) ^ 2 / 2 := by
  induction n with
  | zero => simp
  | succ n ih =>
    rw [Fin.sum_univ_castSucc, Fin.sum_univ_castSucc u, Fin.Iio_last_eq_map, sum_map]
    simp only [← Fin.map_castSuccEmb_Iio, sum_map, Fin.coe_castSuccEmb]
    rw [ih fun i => u i.castSucc, ← mul_sum]
    ring

theorem waveSum_eq (k : Fin 2) : waveSum xi sol theta phi k =
    (![0, ∑ i, (dipole xi sol theta phi i).pc1 theta phi k, 0],
      ![0, ∑ i, (dipole xi sol theta phi i).ps1 theta phi k, 0]) := by
  ext m <;> fin_cases m <;> simp [waveSum, waveXY, Prod.fst_sum, Prod.snd_sum]

theorem waveSumZ_eq : waveSumZ xi sol theta phi =
    (![0, ∑ i, (dipole xi sol theta phi i).pc phi, 0],
      ![0, ∑ i, (dipole xi sol theta phi i).ps phi, 0]) := by
  ext m <;> fin_cases m <;> simp [waveSumZ, waveZ, Prod.fst_sum, Prod.snd_sum]

theorem twistSum_eq : twistSum xi sol theta phi =
    (![∑ i, (dipole xi sol theta phi i).twist, 0, 0], 0) := by
  ext m <;> fin_cases m <;> simp [twistSum, twistPoly, Prod.fst_sum, Prod.snd_sum]

theorem sum_crossXY (k : Fin 2) :
    ∑ i, ((∑ j ∈ Iio i, (dipole xi sol theta phi i).crossXY (dipole xi sol theta phi j) theta phi k) +
        (dipole xi sol theta phi i).riXY theta phi k) =
      (waveSum xi sol theta phi k).dot (waveSum xi sol theta phi k) +
        (sin theta * across phi k) ^ 2 * (twistSum xi sol theta phi).dot (twistSum xi sol theta phi) := by
  have hsplit (i : Fin n) :
      (∑ j ∈ Iio i, (dipole xi sol theta phi i).crossXY (dipole xi sol theta phi j) theta phi k) +
          (dipole xi sol theta phi i).riXY theta phi k =
        ((∑ j ∈ Iio i, (dipole xi sol theta phi i).pc1 theta phi k *
            (dipole xi sol theta phi j).pc1 theta phi k) +
          (dipole xi sol theta phi i).pc1 theta phi k *
            (dipole xi sol theta phi i).pc1 theta phi k / 2) +
        ((∑ j ∈ Iio i, (dipole xi sol theta phi i).ps1 theta phi k *
            (dipole xi sol theta phi j).ps1 theta phi k) +
          (dipole xi sol theta phi i).ps1 theta phi k *
            (dipole xi sol theta phi i).ps1 theta phi k / 2) +
        2 * (sin theta * across phi k) ^ 2 *
          ((∑ j ∈ Iio i, (dipole xi sol theta phi i).twist * (dipole xi sol theta phi j).twist) +
            (dipole xi sol theta phi i).twist * (dipole xi sol theta phi i).twist / 2) := by
    simp only [crossXY, riXY, pcom_self, sum_add_distrib, ← mul_sum]
    ring
  rw [sum_congr rfl fun i _ => hsplit i, sum_add_distrib, sum_add_distrib, ← mul_sum, sum_pairs,
    sum_pairs, sum_pairs, waveSum_eq, twistSum_eq, dot_three, dot_three]
  simp
  ring

theorem sum_rijZ :
    ∑ i, ((∑ j ∈ Iio i, (dipole xi sol theta phi i).rijZ (dipole xi sol theta phi j) phi) +
        (dipole xi sol theta phi i).riZ phi) =
      (waveSumZ xi sol theta phi).dot (waveSumZ xi sol theta phi) := by
  have hsplit (i : Fin n) :
      (∑ j ∈ Iio i, (dipole xi sol theta phi i).rijZ (dipole xi sol theta phi j) phi) +
          (dipole xi sol theta phi i).riZ phi =
        ((∑ j ∈ Iio i, (dipole xi sol theta phi i).pc phi * (dipole xi sol theta phi j).pc phi) +
          (dipole xi sol theta phi i).pc phi * (dipole xi sol theta phi i).pc phi / 2) +
        ((∑ j ∈ Iio i, (dipole xi sol theta phi i).ps phi * (dipole xi sol theta phi j).ps phi) +
          (dipole xi sol theta phi i).ps phi * (dipole xi sol theta phi i).ps phi / 2) := by
    simp only [rijZ, riZ, sum_add_distrib]
    ring
  rw [sum_congr rfl fun i _ => hsplit i, sum_add_distrib, sum_pairs, sum_pairs, waveSumZ_eq,
    dot_three]
  simp
  ring

theorem innerDipole_eq (j : Fin n) :
    innerDipole xi sol theta phi j = (dipole xi sol theta phi j).shift (delta sol j) := by
  simp [innerDipole, dipole, shift, delta, Solution.b, Solution.bInner]

theorem i2Function_eq : i2Function xi sol phi theta =
    power xi sol theta phi + pairDefect xi sol theta phi := by
  have hrow (i : Fin n) :
      (∑ k, ((∑ j ∈ Iio i, (dipole xi sol theta phi i).rijXY
          (innerDipole xi sol theta phi j) theta phi k) +
            (dipole xi sol theta phi i).riXY theta phi k)) +
          (sin theta * cos theta) ^ 2 * ((∑ j ∈ Iio i, (dipole xi sol theta phi i).rijZ
            (innerDipole xi sol theta phi j) phi) + (dipole xi sol theta phi i).riZ phi) =
        (∑ k, ((∑ j ∈ Iio i, (dipole xi sol theta phi i).crossXY
          (dipole xi sol theta phi j) theta phi k) +
            (dipole xi sol theta phi i).riXY theta phi k)) +
          (sin theta * cos theta) ^ 2 * ((∑ j ∈ Iio i, (dipole xi sol theta phi i).rijZ
            (dipole xi sol theta phi j) phi) + (dipole xi sol theta phi i).riZ phi) +
        ∑ j ∈ Iio i, (dipole xi sol theta phi i).pairSlip
          (dipole xi sol theta phi j) theta phi (delta sol j) := by
    have hpair := sum_congr rfl fun j (_ : j ∈ Iio i) => pair_shift
      (dipole xi sol theta phi i) (dipole xi sol theta phi j) theta phi (delta sol j)
    simp only [innerDipole_eq, Fin.sum_univ_two, sum_add_distrib, ← mul_sum] at hpair ⊢
    linear_combination hpair
  have hsum := sum_congr rfl fun i (_ : i ∈ univ) => hrow i
  have hx := sum_crossXY xi sol theta phi 0
  have hy := sum_crossXY xi sol theta phi 1
  have hz := sum_rijZ xi sol theta phi
  simp only [i2Function, power, pairDefect, kRr]
  simp only [Fin.sum_univ_two, sum_add_distrib, ← mul_sum] at hsum hx hy hz ⊢
  linear_combination 2 * π / params.omega * params.omega ^ 4 *
    (hsum + hx + hy + (sin theta * cos theta) ^ 2 * hz + sin theta ^ 2 *
      (twistSum xi sol theta phi).dot (twistSum xi sol theta phi) * across_sq phi)

end Dipoles

end DistributedMathArh
