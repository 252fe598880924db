import DistributedMathArh.MathCore.Defects

namespace DistributedMathArh

open Real Finset Matrix

namespace Dipoles

open Dipole

variable {n : Nat} (xi : Coordinates n) (sol : Solution n) (theta phi : ℝ)
  (σ : Equiv.Perm (Fin n))

theorem dipole_permute (i : Fin n) : dipole (xi.permute σ) (sol.permute σ) theta phi i =
    dipole xi sol theta phi (σ.symm i) := by
  simp [dipole, ys]

theorem power_permute : power (xi.permute σ) (sol.permute σ) theta phi =
    power xi sol theta phi := by
  have hsum (f : Dipole → TrigPoly 3) :
      ∑ i, f (dipole (xi.permute σ) (sol.permute σ) theta phi i) =
        ∑ i, f (dipole xi sol theta phi i) := by
    simp only [dipole_permute]
    exact Equiv.sum_comp σ.symm fun i => f (dipole xi sol theta phi i)
  have hxy (k : Fin 2) := hsum fun p => p.waveXY theta phi k
  simp only [power, waveSum, twistSum, waveSumZ, hxy]
  rw [hsum twistPoly, hsum (waveZ · phi)]

theorem i2Function_permute_iff_pairDefect :
    i2Function (xi.permute σ) (sol.permute σ) phi theta = i2Function xi sol phi theta ↔
      pairDefect (xi.permute σ) (sol.permute σ) theta phi = pairDefect xi sol theta phi := by
  rw [i2Function_eq, i2Function_eq, power_permute, add_right_inj]

noncomputable def twistedPair (n : Nat) (phi : ℝ) : Solution (n + 2) :=
  Solution.ofParts (fun i => if i = 0 ∨ i = 1 then ![cos phi, sin phi] else 0)
    fun i => if i = 1 then across phi else 0

theorem pairDefect_twistedPair (n : Nat) : pairDefect 0 (twistedPair n phi) theta phi =
    kRr * params.omega ^ 4 * (2 * sin theta ^ 2 * (params.omega / params.c) ^ 2) := by
  have hone := sin_sq_add_cos_sq phi
  rw [pairDefect_of_two, pairSlip_zero]
  · simp [dipole, twistedPair, twist, aDot, across]
    left
    linear_combination 2 * sin theta ^ 2 * (params.omega / params.c) ^ 2 *
      ((sin phi ^ 2 + cos phi ^ 2) ^ 2 + (sin phi ^ 2 + cos phi ^ 2) + 1) * hone
  · intro i h₀ h₁
    simp [twistedPair, h₀, h₁]

theorem pairDefect_permute_twistedPair (n : Nat) :
    pairDefect ((0 : Coordinates (n + 2)).permute (Equiv.swap 0 1))
      ((twistedPair n phi).permute (Equiv.swap 0 1)) theta phi = 0 := by
  rw [pairDefect_of_two, pairSlip_zero]
  · simp [dipole, twistedPair, twist]
  · intro i h₀ h₁
    simp [twistedPair, Equiv.swap_apply_of_ne_of_ne h₀ h₁, h₀, h₁]

theorem pairDefect_permute_crossedPair (n : Nat) (hsin : sin theta = 0) :
    pairDefect ((0 : Coordinates (n + 3)).permute (Equiv.swap 0 1))
      ((crossedPair n).permute (Equiv.swap 0 1)) theta phi = 0 := by
  rw [pairDefect_of_three _ _ _ _ hsin]
  · simp [crossedPair, third_ne.1.symm]
  · intro i hi
    have hswap : Equiv.swap 0 1 i ≠ 2 := by
      rw [← Equiv.swap_apply_of_ne_of_ne third_ne.1 third_ne.2]
      simpa using hi
    simp only [crossedPair, Solution.b_permute, Equiv.symm_swap, Solution.b_ofParts, if_neg hswap]
    split <;> rfl

theorem sin_eq_zero_of_twistedPair (h : i2Function ((0 : Coordinates (n + 2)).permute
      (Equiv.swap 0 1)) ((twistedPair n phi).permute (Equiv.swap 0 1)) phi theta =
    i2Function 0 (twistedPair n phi) phi theta) : sin theta = 0 := by
  have hc : params.c ≠ 0 := by norm_num [params]
  rw [i2Function_permute_iff_pairDefect, pairDefect_permute_twistedPair, pairDefect_twistedPair,
    zero_eq_mul] at h
  simpa [omega_ne_zero, hc] using h.resolve_left scale_ne_zero

/-- The numbering of the dipoles does not matter for a single system exactly where the error of the
pairs is the same in both orders.  It matters for no system of at most one dipole, for none of
two dipoles seen from above, and for some systems of any other number at any other angle. -/
theorem i2Function_permute_iff (n : Nat) (theta phi : ℝ) :
    (∀ (xi : Coordinates n) (sol : Solution n) (σ : Equiv.Perm (Fin n)),
      i2Function (xi.permute σ) (sol.permute σ) phi theta = i2Function xi sol phi theta ↔
        pairDefect (xi.permute σ) (sol.permute σ) theta phi = pairDefect xi sol theta phi) ∧
    ((∀ (xi : Coordinates n) (sol : Solution n) (σ : Equiv.Perm (Fin n)),
      i2Function (xi.permute σ) (sol.permute σ) phi theta = i2Function xi sol phi theta) ↔
        n ≤ 1 ∨ n = 2 ∧ sin theta = 0) := by
  constructor
  · intro xi sol σ
    exact i2Function_permute_iff_pairDefect xi sol theta phi σ
  constructor
  · intro h
    cases n with
    | zero => exact .inl (Nat.zero_le 1)
    | succ n =>
      cases n with
      | zero => exact .inl le_rfl
      | succ n =>
        have hsin := sin_eq_zero_of_twistedPair _ _ (h 0 (twistedPair n phi) (Equiv.swap 0 1))
        cases n with
        | zero => exact .inr ⟨rfl, hsin⟩
        | succ n =>
          have hcrossed := h 0 (crossedPair n) (Equiv.swap 0 1)
          rw [i2Function_permute_iff_pairDefect, pairDefect_permute_crossedPair _ _ _ hsin,
            pairDefect_crossedPair _ _ _ hsin] at hcrossed
          exact absurd hcrossed.symm scale_ne_zero
  · rintro (hn | ⟨rfl, hsin⟩) xi sol σ
    · rw [i2Function_permute_iff_pairDefect, pairDefect_of_le_one _ _ _ _ hn,
        pairDefect_of_le_one _ _ _ _ hn]
    · rw [i2Function_permute_iff_pairDefect, pairDefect_of_le_two _ _ _ _ le_rfl hsin,
        pairDefect_of_le_two _ _ _ _ le_rfl hsin]

theorem i2Function_permute_ne : i2Function ((0 : Coordinates 2).permute (Equiv.swap 0 1))
      ((twistedPair 0 0).permute (Equiv.swap 0 1)) 0 (π / 2) ≠
    i2Function 0 (twistedPair 0 0) 0 (π / 2) := by
  intro h
  simpa using sin_eq_zero_of_twistedPair _ _ h

end Dipoles

end DistributedMathArh
