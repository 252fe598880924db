import DistributedMathArh.MathCore.Period

namespace DistributedMathArh

open Real Finset Matrix

namespace Dipole

variable {p q : Dipole} {theta phi : ℝ}

theorem pairSlip_of_zero (ha : p.a = 0) (hb : p.b = 0) (delta : ℝ) :
    p.pairSlip q theta phi delta = 0 := by
  simp [pairSlip, pc1, ps1, pc, ps, twist, aDot, bDot, ha, hb]

theorem pairSlip_zero : p.pairSlip q theta phi 0 = 2 * sin theta ^ 2 * p.twist *
    (params.omega / params.c) * (q.aDot phi * ∑ k, across phi k * (q.b k - p.b k)) := by
  simp [pairSlip]

theorem pairSlip_of_sin_eq_zero (hsin : sin theta = 0) (hp : p.ys = 0) (hq : q.ys = 0)
    (delta : ℝ) : p.pairSlip q theta phi delta = delta * p.b 1 := by
  simp [pairSlip, pc1, ps1, argument, hsin, hp, hq]

end Dipole

namespace Dipoles

open Dipole

variable {n : Nat} (xi : Coordinates n) (sol : Solution n) (theta phi : ℝ)

theorem velocityDefect_of_zero (h : ∀ i, sol.a i 1 = 0) :
    velocityDefect xi sol theta phi = 0 := by
  have hslip : slipSum xi sol theta phi = (0 : ℝ) • 0 := by
    rw [zero_smul]
    apply sum_eq_zero
    intro i _
    simp [slip, dipole, h]
  simp only [velocityDefect, hslip, TrigPoly.dot_smul]
  simp

theorem pairDefect_of_le_one (hn : n ≤ 1) : pairDefect xi sol theta phi = 0 := by
  rw [pairDefect, sum_eq_zero, mul_zero]
  intro i _
  apply sum_eq_zero
  intro j hj
  have := mem_Iio.mp hj
  omega

theorem velocityDefect_of_sin_eq_zero (hsin : sin theta = 0) :
    velocityDefect xi sol theta phi = 0 := by
  simp [velocityDefect, hsin]

theorem pairDefect_eq_row (i : Fin n) (h : ∀ i' ≠ i, ∀ j < i', (dipole xi sol theta phi i').pairSlip
      (dipole xi sol theta phi j) theta phi (delta sol j) = 0) :
    pairDefect xi sol theta phi = kRr * params.omega ^ 4 * ∑ j ∈ Iio i,
      (dipole xi sol theta phi i).pairSlip (dipole xi sol theta phi j) theta phi (delta sol j) := by
  rw [pairDefect, sum_eq_single_of_mem i (mem_univ i)]
  intro i' _ hi'
  exact sum_eq_zero fun j hj => h i' hi' j (mem_Iio.mp hj)

theorem delta_zero (sol : Solution (n + 1)) : delta sol 0 = 0 := by
  simp [delta, Solution.b, Solution.bInner]

theorem pairDefect_of_two (xi : Coordinates (n + 2)) (sol : Solution (n + 2))
    (h : ∀ i, i ≠ 0 → i ≠ 1 → sol.a i = 0 ∧ sol.b i = 0) : pairDefect xi sol theta phi =
      kRr * params.omega ^ 4 * (dipole xi sol theta phi 1).pairSlip (dipole xi sol theta phi 0)
        theta phi 0 := by
  have hIio : Iio (1 : Fin (n + 2)) = {0} := by
    ext j
    simp
  rw [pairDefect_eq_row xi sol theta phi 1, hIio, sum_singleton, delta_zero]
  intro i hi j hj
  obtain ⟨ha, hb⟩ := h i (Fin.ne_zero_of_lt hj) hi
  exact pairSlip_of_zero ha hb _

theorem pairDefect_of_sin_eq_zero (hsin : sin theta = 0) : pairDefect xi sol theta phi =
    kRr * params.omega ^ 4 * ∑ i, ∑ j ∈ Iio i, delta sol j * sol.b i 1 := by
  have hys (i : Fin n) : (dipole xi sol theta phi i).ys = 0 := by
    rw [dipole, ys, hsin, mul_zero]
  rw [pairDefect]
  simp only [pairSlip_of_sin_eq_zero hsin (hys _) (hys _)]
  rfl

theorem third_ne : (2 : Fin (n + 3)) ≠ 0 ∧ (2 : Fin (n + 3)) ≠ 1 :=
  ⟨Fin.ne_of_val_ne (by rw [Fin.val_zero, Fin.val_two]; norm_num),
    Fin.ne_of_val_ne (by rw [Fin.val_one, Fin.val_two]; norm_num)⟩

theorem pairDefect_of_three (xi : Coordinates (n + 3)) (sol : Solution (n + 3))
    (hsin : sin theta = 0) (h : ∀ i ≠ 2, sol.b i 1 = 0) : pairDefect xi sol theta phi =
      kRr * params.omega ^ 4 * (sol.b 1 0 * sol.b 2 1) := by
  have hIio : Iio (2 : Fin (n + 3)) = {0, 1} := by
    ext j
    simp only [mem_Iio, mem_insert, mem_singleton, Fin.lt_def, Fin.ext_iff, Fin.val_two,
      Fin.val_one, Fin.val_zero]
    omega
  have hdelta : delta sol 1 = sol.b 1 0 := by
    rw [delta, h 1 third_ne.2.symm, sub_zero]
    simp [Solution.b, Solution.bInner]
  rw [pairDefect_of_sin_eq_zero _ _ _ _ hsin, sum_eq_single_of_mem 2 (mem_univ _), hIio]
  · rw [sum_pair Fin.zero_ne_one, delta_zero, hdelta, zero_mul, zero_add]
  · intro i _ hi
    simp [h i hi]

theorem scale_ne_zero : kRr * params.omega ^ 4 ≠ 0 := by
  simp [kRr, params, pi_ne_zero]

theorem pairDefect_of_le_two (hn : n ≤ 2) (hsin : sin theta = 0) :
    pairDefect xi sol theta phi = 0 := by
  obtain hle | rfl := Nat.le_succ_iff.mp hn
  · exact pairDefect_of_le_one xi sol theta phi hle
  · rw [pairDefect_of_two, pairSlip_zero, hsin]
    · simp
    · intro i h₀ h₁
      fin_cases i
      · exact absurd rfl h₀
      · exact absurd rfl h₁

def crossedPair (n : Nat) : Solution (n + 3) :=
  Solution.ofParts 0 fun i => if i = 1 then ![1, 0] else if i = 2 then ![0, 1] else 0

theorem pairDefect_crossedPair (n : Nat) (hsin : sin theta = 0) :
    pairDefect 0 (crossedPair n) theta phi = kRr * params.omega ^ 4 := by
  rw [pairDefect_of_three _ _ _ _ hsin]
  · simp [crossedPair, third_ne]
  · intro i hi
    simp only [crossedPair, Solution.b_ofParts, if_neg hi]
    split <;> rfl

def lonely (n : Nat) (lam : ℝ) : Solution (n + 1) := .first ![lam, lam] 0

theorem sum_lonely (lam : ℝ) (f : Dipole → TrigPoly 3)
    (hf : ∀ p : Dipole, p.a = 0 → p.b = 0 → f p = 0) :
    ∑ i, f (dipole 0 (lonely n lam) theta phi i) = f ⟨![lam, lam], 0, 0⟩ := by
  rw [lonely, sum_first theta phi 0 _ _ f hf]
  simp [dipole, ys, Coordinates.element]

theorem velocityDefect_lonely (n : Nat) (lam : ℝ) :
    velocityDefect 0 (lonely n lam) theta phi = kRr * params.omega ^ 4 *
      (params.omega / params.c * sin theta * (sin params.omega * lam ^ 3 * (sin phi - cos phi)) +
        (params.omega / params.c * sin theta) ^ 2 * lam ^ 4 *
          (1 / 8 + sin params.omega ^ 2 / 2)) := by
  have hacross := sum_lonely (n := n) theta phi lam (acrossWave · phi)
    (fun p ha hb => by simp [acrossWave, ha, hb])
  have htwist := sum_lonely (n := n) theta phi lam twistPoly
    (fun p ha hb => by simp [twistPoly, twist, ha])
  have hslip := sum_lonely (n := n) theta phi lam slip
    (fun p ha hb => by simp [slip, ha])
  rw [velocityDefect, acrossWaveSum, twistSum, slipSum, hacross, htwist, hslip]
  simp only [dot_three]
  congr 1
  simp [acrossWave, twistPoly, twist, slip, across, argument]
  ring

theorem pairDefect_lonely (n : Nat) (lam : ℝ) :
    pairDefect 0 (lonely n lam) theta phi = 0 := by
  rw [pairDefect_eq_row _ _ _ _ 0, sum_eq_zero, mul_zero]
  · intro j hj
    exact absurd (mem_Iio.mp hj) (Fin.not_lt_zero j)
  · intro i hi j _
    obtain ⟨k, rfl⟩ := Fin.exists_succ_eq.mpr hi
    exact pairSlip_of_zero (Solution.a_first_succ k _ _) (Solution.b_first_succ k _ _) _

theorem sin_eq_zero_of_lonely (h : ∀ lam, velocityDefect 0 (lonely n lam) theta phi =
    pairDefect 0 (lonely n lam) theta phi) : sin theta = 0 := by
  have hone := h 1
  have hneg := h (-1)
  rw [pairDefect_lonely, velocityDefect_lonely, mul_eq_zero, or_iff_right scale_ne_zero]
    at hone hneg
  have hsum : (params.omega / params.c * sin theta) ^ 2 * (1 / 8 + sin params.omega ^ 2 / 2) = 0 := by
    linear_combination hone / 2 + hneg / 2
  have hpos : 1 / 8 + sin params.omega ^ 2 / 2 ≠ 0 := by positivity
  have hscale : params.omega / params.c ≠ 0 := by norm_num [params]
  have hsin := (mul_eq_zero_iff_right hpos).mp hsum
  exact (mul_eq_zero_iff_left hscale).mp (pow_eq_zero_iff two_ne_zero |>.mp hsin)

theorem integral_ifunction_iff_defects :
    ∫ t in (0 : ℝ)..kRr, ifunction xi sol theta phi t = i2Function xi sol phi theta ↔
      velocityDefect xi sol theta phi = pairDefect xi sol theta phi := by
  rw [integral_ifunction_eq, i2Function_eq, add_right_inj]

theorem integral_ifunction_iff_forall (n : Nat) :
    (∀ (xi : Coordinates n) (sol : Solution n), ∫ t in (0 : ℝ)..kRr, ifunction xi sol theta phi t =
      i2Function xi sol phi theta) ↔ n = 0 ∨ n ≤ 2 ∧ sin theta = 0 := by
  simp only [integral_ifunction_iff_defects]
  constructor
  · intro h
    cases n with
    | zero => exact .inl rfl
    | succ n =>
      have hsin := sin_eq_zero_of_lonely theta phi fun lam => h 0 (lonely n lam)
      refine .inr ⟨?_, hsin⟩
      by_contra hn
      -- of three dipoles or more, the second and the third make up a pair that is read wrong
      obtain ⟨m, rfl⟩ : ∃ m, n = m + 2 := ⟨n - 2, by omega⟩
      have hcrossed := h 0 (crossedPair m)
      rw [velocityDefect_of_sin_eq_zero _ _ _ _ hsin, pairDefect_crossedPair _ _ _ hsin] at hcrossed
      exact scale_ne_zero hcrossed.symm
  · rintro (rfl | ⟨hn, hsin⟩) xi sol
    · rw [velocityDefect_of_zero _ _ _ _ fun i => i.elim0, pairDefect_of_le_one _ _ _ _ (Nat.zero_le 1)]
    · rw [velocityDefect_of_sin_eq_zero _ _ _ _ hsin, pairDefect_of_le_two _ _ _ _ hn hsin]

theorem applyIntegrate_eq_iff (n : Nat) (ms : MeshCreator ℝ) :
    (∀ (xi : Coordinates n) (sol : Solution n), ms.applyIntegrate (fun f a b => ∫ t in a..b, f t)
      (ifunction xi sol) 0 kRr = ms.applyFunction (i2Function xi sol)) ↔
      ((ms.data 0).length = (ms.data 1).length →
        ∀ theta ∈ ms.data 1, n = 0 ∨ n ≤ 2 ∧ sin theta = 0) := by
  have hagree (xi : Coordinates n) (sol : Solution n) := ms.applyFunction_inj_iff
    (f := fun x y => ∫ t in (0 : ℝ)..kRr, ifunction xi sol y x t) (g := i2Function xi sol)
  constructor
  · intro h hlen theta htheta
    have hsnd : ((ms.data 0).zip (ms.data 1)).map Prod.snd = ms.data 1 := List.map_snd_zip hlen.ge
    rw [← hsnd] at htheta
    obtain ⟨p, hp, rfl⟩ := List.mem_map.mp htheta
    rw [← integral_ifunction_iff_forall p.2 p.1 n]
    intro xi sol
    exact (hagree xi sol).mp (h xi sol) hlen p hp
  · intro h xi sol
    refine (hagree xi sol).mpr fun hlen p hp => ?_
    exact (integral_ifunction_iff_forall p.2 p.1 n).mpr (h hlen p.2 (List.of_mem_zip hp).2) xi sol

/-- For a single system the integral over a period is the direction graph exactly where the error of
the velocity and that of the pairs cancel.  For all systems it is where there is no dipole, or at
most two that are seen from above; the two ways to fill a mesh agree where all its angles are so. -/
theorem integral_ifunction_iff (n : Nat) :
    (∀ (xi : Coordinates n) (sol : Solution n) (theta phi : ℝ),
      ∫ t in (0 : ℝ)..kRr, ifunction xi sol theta phi t = i2Function xi sol phi theta ↔
        velocityDefect xi sol theta phi = pairDefect xi sol theta phi) ∧
    (∀ theta phi : ℝ, (∀ (xi : Coordinates n) (sol : Solution n),
      ∫ t in (0 : ℝ)..kRr, ifunction xi sol theta phi t = i2Function xi sol phi theta) ↔
        n = 0 ∨ n ≤ 2 ∧ sin theta = 0) ∧
    ∀ ms : MeshCreator ℝ, (∀ (xi : Coordinates n) (sol : Solution n),
      ms.applyIntegrate (fun f a b => ∫ t in a..b, f t) (ifunction xi sol) 0 kRr =
        ms.applyFunction (i2Function xi sol)) ↔
      ((ms.data 0).length = (ms.data 1).length →
        ∀ theta ∈ ms.data 1, n = 0 ∨ n ≤ 2 ∧ sin theta = 0) :=
  ⟨fun xi sol theta phi => integral_ifunction_iff_defects xi sol theta phi,
    fun theta phi => integral_ifunction_iff_forall theta phi n, applyIntegrate_eq_iff n⟩

def sampleSolution : Solution 1 := ![0, 1, 1, 0]

theorem dipole_sample (i : Fin 1) :
    dipole (0 : Coordinates 1) sampleSolution theta phi i = ⟨![0, 1], ![1, 0], 0⟩ := by
  fin_cases i
  simp [dipole, ys, sampleSolution, Coordinates.element, Solution.a, Solution.b]

theorem velocityDefect_sample : velocityDefect (0 : Coordinates 1) sampleSolution (π / 2) 0 =
    kRr * params.omega ^ 4 * (params.omega / params.c) ^ 2 *
      (-5 / 8 + sin params.omega ^ 2 / 2) := by
  rw [velocityDefect]
  simp only [acrossWaveSum, twistSum, slipSum, univ_unique, sum_singleton, dipole_sample, dot_three]
  simp [acrossWave, twistPoly, slip, twist, across, argument]
  ring

theorem integral_ifunction_ne : ∃ (n : Nat) (xi : Coordinates n) (sol : Solution n)
    (theta phi : ℝ), ∫ t in (0 : ℝ)..kRr, ifunction xi sol theta phi t ≠
      i2Function xi sol phi theta := by
  refine ⟨1, 0, sampleSolution, π / 2, 0, ?_⟩
  rw [integral_ifunction_eq, i2Function_eq, pairDefect_of_le_one _ _ _ _ le_rfl,
    velocityDefect_sample]
  have hscale : 0 < kRr * params.omega ^ 4 * (params.omega / params.c) ^ 2 := by
    have := pi_pos
    norm_num [kRr, params]
    positivity
  have hsin := sin_sq_le_one params.omega
  have hneg := mul_neg_of_pos_of_neg hscale (show -5 / 8 + sin params.omega ^ 2 / 2 < 0 by linarith)
  intro h
  linarith

end Dipoles

end DistributedMathArh
