import DistributedMathArh.MathCore.Containers
import DistributedMathArh.MathCore.Permutation
import DistributedMathArh.MathCore.Rotation
import DistributedMathArh.MathCore.Solve

namespace DistributedMathArh

open Real Finset Matrix BlockSystem Plane
open scoped Kronecker

variable {n : Nat}

namespace Plane

noncomputable def turn (alpha : ℝ) : Matrix (Fin 2) (Fin 2) ℝ :=
  !![cos alpha, -sin alpha; sin alpha, cos alpha]

theorem turn_mulVec (alpha : ℝ) (v : Plane) : turn alpha *ᵥ v = rotate alpha v := by
  ext k
  fin_cases k <;> simp [turn, rotate, mulVec, dotProduct, Fin.sum_univ_two]
  ring

theorem turn_mul_turn (alpha : ℝ) : turn alpha * turn (-alpha) = 1 := by
  have hone := sin_sq_add_cos_sq alpha
  ext i j
  fin_cases i <;> fin_cases j <;> simp [turn, Matrix.mul_apply, Fin.sum_univ_two]
  · linear_combination hone
  · ring
  · ring
  · linear_combination hone

end Plane

namespace Coordinates

def shift (xi : Coordinates n) (v : Plane) : Coordinates n :=
  ofElements fun coord i => xi.element coord i + v coord

@[simp] theorem element_shift (xi : Coordinates n) (v : Plane) (coord : Fin 2) (i : Fin n) :
    (xi.shift v).element coord i = xi.element coord i + v coord :=
  element_ofElements _ coord i

theorem element_rotate (xi : Coordinates n) (alpha : ℝ) (coord : Fin 2) (i : Fin n) :
    (xi.rotate alpha).element coord i = (xi.point i).rotate alpha coord :=
  element_ofElements _ coord i

end Coordinates

noncomputable def Solution.phase (sol : Solution n) (alpha : ℝ) : Solution n :=
  ofParts (fun i => cos alpha • sol.a i - sin alpha • sol.b i)
    fun i => sin alpha • sol.a i + cos alpha • sol.b i

namespace Dipoles

open Container (twoDVecDifference getDistance arg block1 block2)

variable (xi : Coordinates n) (an : ℝ)

noncomputable def solution (d : Dipoles n) : Solution n :=
  .ofParts (fun i coord => d.solve (.inl (i, coord))) fun i coord => d.solve (.inr (i, coord))

section Permute

variable (σ : Equiv.Perm (Fin n))

def before : Equiv.Perm (Index n) := Equiv.prodCongr σ.symm (Equiv.refl _)

theorem block_permute (i m : Fin n) :
    block1 an (.flat (xi.permute σ)) i m = block1 an (.flat xi) (σ.symm i) (σ.symm m) ∧
      block2 an (.flat (xi.permute σ)) i m = block2 an (.flat xi) (σ.symm i) (σ.symm m) := by
  have h := Container.block_permute an (.flat xi) σ (σ.symm i) (σ.symm m)
  rw [σ.apply_symm_apply, σ.apply_symm_apply] at h
  exact h

theorem f_comp_before : (initArrays n).f ∘ Sum.map (before σ) (before σ) = (initArrays n).f := by
  funext x
  cases x <;> rfl

theorem solve_permute : (ofCoordinates (xi.permute σ)).solve =
    (ofCoordinates xi).solve ∘ Sum.map (before σ) (before σ) := by
  have hm1 : (ofCoordinates (xi.permute σ)).m1 =
      (ofCoordinates xi).m1.submatrix (before σ) (before σ) := by
    ext x y
    exact congrFun (congrFun (block_permute xi _ σ x.1 y.1).1 x.2) y.2
  have hm2 : (ofCoordinates (xi.permute σ)).m2 =
      (ofCoordinates xi).m2.submatrix (before σ) (before σ) := by
    ext x y
    exact congrFun (congrFun (block_permute xi _ σ x.1 y.1).2 x.2) y.2
  rw [solve_eq_eliminate, solve_eq_eliminate, hm1, hm2, ← eliminate_submatrix]
  exact congrArg _ (f_comp_before σ).symm

theorem solution_permute : (ofCoordinates (xi.permute σ)).solution =
    (ofCoordinates xi).solution.permute σ := by
  simp only [solution, solve_permute, Solution.permute, Solution.a_ofParts, Solution.b_ofParts]
  rfl

end Permute

section Shift

variable (v : Plane)

theorem getDistance_shift (i m : Fin n) :
    getDistance (.flat (xi.shift v)) i m = getDistance (.flat xi) i m := by
  simp [getDistance]

theorem twoDVecDifference_shift (i m : Fin n) :
    twoDVecDifference (.flat (xi.shift v)) i m = twoDVecDifference (.flat xi) i m := by
  simp [twoDVecDifference]

theorem ofCoordinates_shift : ofCoordinates (xi.shift v) = ofCoordinates xi := by
  simp only [ofCoordinates, setMatrixes, Container.setMatrixes, block1, block2, arg,
    getDistance_shift, twoDVecDifference_shift]

end Shift

section Rotate

variable (alpha : ℝ)

theorem twoDVecDifference_rotate (i m : Fin n) :
    twoDVecDifference (.flat (xi.rotate alpha)) i m =
      Plane.rotate alpha (twoDVecDifference (.flat xi) i m) := by
  ext coord
  fin_cases coord <;>
    simp [twoDVecDifference, Coordinates.element_rotate, Plane.rotate, Coordinates.point] <;> ring

theorem getDistance_rotate (i m : Fin n) :
    getDistance (.flat (xi.rotate alpha)) i m = getDistance (.flat xi) i m := by
  have hdot (eta : Container n) : getDistance eta i m =
      √(dot (twoDVecDifference eta i m) (twoDVecDifference eta i m)) := rfl
  rw [hdot, hdot, twoDVecDifference_rotate, dot_rotate]

theorem getK1_rotate (u : Plane) (r : ℝ) :
    getK1 (Plane.rotate alpha u) r = turn alpha * getK1 u r * turn (-alpha) := by
  have hone := sin_sq_add_cos_sq alpha
  ext p q
  fin_cases p <;> fin_cases q <;>
    simp [getK1, turn, Plane.rotate, Matrix.mul_apply, Fin.sum_univ_two]
  · linear_combination (1 / r ^ 3) * hone
  · ring
  · ring
  · linear_combination (1 / r ^ 3) * hone

theorem smul_one_conj (k : ℝ) : turn alpha * (k • (1 : Matrix (Fin 2) (Fin 2) ℝ)) * turn (-alpha) =
    k • 1 := by
  rw [Matrix.mul_smul, Matrix.smul_mul, Matrix.mul_one, turn_mul_turn]

theorem getK2_conj (r : ℝ) : turn alpha * getK2 r * turn (-alpha) = getK2 r := by
  have hsmul : getK2 r = (params.omega / (params.c * r ^ 2)) • 1 := by
    ext p q
    fin_cases p <;> fin_cases q <;> simp [getK2]
  rw [hsmul, smul_one_conj]

theorem block1_rotate (i m : Fin n) :
    block1 an (.flat (xi.rotate alpha)) i m =
      turn alpha * block1 an (.flat xi) i m * turn (-alpha) := by
  by_cases h : i = m
  · rw [block1, block1, if_pos h, if_pos h, smul_one_conj]
  · rw [block1, block1, if_neg h, if_neg h, arg, arg, getDistance_rotate, twoDVecDifference_rotate,
      getK1_rotate, Matrix.mul_smul, Matrix.smul_mul, Matrix.mul_sub, Matrix.sub_mul,
      Matrix.mul_smul, Matrix.smul_mul, Matrix.mul_smul, Matrix.smul_mul, getK2_conj]

theorem block2_rotate (i m : Fin n) :
    block2 an (.flat (xi.rotate alpha)) i m =
      turn alpha * block2 an (.flat xi) i m * turn (-alpha) := by
  by_cases h : i = m
  · rw [block2, block2, if_pos h, if_pos h, Matrix.mul_neg, Matrix.neg_mul, smul_one_conj]
  · rw [block2, block2, if_neg h, if_neg h, arg, arg, getDistance_rotate, twoDVecDifference_rotate,
      getK1_rotate, Matrix.mul_smul, Matrix.smul_mul, Matrix.mul_add, Matrix.add_mul,
      Matrix.mul_smul, Matrix.smul_mul, Matrix.mul_smul, Matrix.smul_mul, getK2_conj]

noncomputable def turnAll (n : Nat) (alpha : ℝ) : Matrix (Index n) (Index n) ℝ :=
  (1 : Matrix (Fin n) (Fin n) ℝ) ⊗ₖ turn alpha

theorem turnAll_mul : turnAll n alpha * turnAll n (-alpha) = 1 := by
  rw [turnAll, turnAll, ← mul_kronecker_mul, Matrix.one_mul, turn_mul_turn, one_kronecker_one]

theorem turnAll_mulVec (v : Index n → ℝ) (x : Index n) :
    (turnAll n alpha *ᵥ v) x = Plane.rotate alpha (fun coord => v (x.1, coord)) x.2 := by
  rw [turnAll, one_kronecker_mulVec, turn_mulVec]

theorem m_rotate : (ofCoordinates (xi.rotate alpha)).m1 =
      turnAll n alpha * (ofCoordinates xi).m1 * turnAll n (-alpha) ∧
    (ofCoordinates (xi.rotate alpha)).m2 =
      turnAll n alpha * (ofCoordinates xi).m2 * turnAll n (-alpha) := by
  constructor
  · ext x y
    rw [turnAll, turnAll, one_kronecker_conj]
    exact congrFun (congrFun (block1_rotate xi _ alpha x.1 y.1) x.2) y.2
  · ext x y
    rw [turnAll, turnAll, one_kronecker_conj]
    exact congrFun (congrFun (block2_rotate xi _ alpha x.1 y.1) x.2) y.2

theorem turnAll_f : turnAll n (-alpha) *ᵥ ((initArrays n).f ∘ Sum.inl) =
      cos alpha • ((initArrays n).f ∘ Sum.inl) - sin alpha • ((initArrays n).f ∘ Sum.inr) ∧
    turnAll n (-alpha) *ᵥ ((initArrays n).f ∘ Sum.inr) =
      sin alpha • ((initArrays n).f ∘ Sum.inl) + cos alpha • ((initArrays n).f ∘ Sum.inr) := by
  constructor
  · ext ⟨i, coord⟩
    rw [turnAll_mulVec]
    fin_cases coord <;> simp [initArrays, Plane.rotate]
  · ext ⟨i, coord⟩
    rw [turnAll_mulVec]
    fin_cases coord <;> simp [initArrays, Plane.rotate]

theorem solve_rotate : (ofCoordinates (xi.rotate alpha)).solve = Sum.elim
    (turnAll n alpha *ᵥ (cos alpha • ((ofCoordinates xi).solve ∘ Sum.inl) -
      sin alpha • ((ofCoordinates xi).solve ∘ Sum.inr)))
    (turnAll n alpha *ᵥ (sin alpha • ((ofCoordinates xi).solve ∘ Sum.inl) +
      cos alpha • ((ofCoordinates xi).solve ∘ Sum.inr))) := by
  obtain ⟨hm1, hm2⟩ := m_rotate xi alpha
  obtain ⟨hf₁, hf₂⟩ := turnAll_f (n := n) alpha
  have hf : (ofCoordinates (xi.rotate alpha)).f =
      Sum.elim ((initArrays n).f ∘ Sum.inl) ((initArrays n).f ∘ Sum.inr) :=
    (Sum.elim_comp_inl_inr _).symm
  rw [solve_eq_eliminate, hm1, hm2, hf, eliminate_conj (turnAll_mul alpha), hf₁, hf₂,
    eliminate_phase, Sum.elim_comp_inl, Sum.elim_comp_inr, Sum.elim_comp_inl_inr,
    solve_eq_eliminate]
  rfl

/-- The amplitudes of rotated dipoles are rotated with them, and turned in their phase by the same
angle: the light is circular. -/
theorem solution_rotate : (ofCoordinates (xi.rotate alpha)).solution =
    ((ofCoordinates xi).solution.phase alpha).rotate alpha := by
  simp only [solution, solve_rotate, Solution.rotate, Solution.phase, Solution.a_ofParts,
    Solution.b_ofParts, Sum.elim_inl, Sum.elim_inr, turnAll_mulVec]
  rfl

end Rotate

section Field

open Dipole

variable (sol : Solution n) (theta phi t : ℝ) (σ : Equiv.Perm (Fin n)) (v : Plane)

theorem ifunction_permute : ifunction (xi.permute σ) (sol.permute σ) theta phi t =
    ifunction xi sol theta phi t := by
  simp only [ifunction, dipole_permute]
  rw [Equiv.sum_comp σ.symm fun i => (dipole xi sol theta phi i).fieldTerm theta phi t]

noncomputable def delay : ℝ := (v 1 * cos phi - v 0 * sin phi) * sin theta / params.c

theorem fieldTerm_add_ys (p : Dipole) (s : ℝ) :
    Dipole.fieldTerm { p with ys := p.ys + s } theta phi t =
      p.fieldTerm theta phi (t - s / params.c) := by
  have ht : t - (p.ys + s) / params.c = t - s / params.c - p.ys / params.c := by ring
  simp only [fieldTerm, ht]

theorem ifunction_shift : ifunction (xi.shift v) sol theta phi t =
    ifunction xi sol theta phi (t - delay theta phi v) := by
  have hdipole (i : Fin n) : dipole (xi.shift v) sol theta phi i =
      { dipole xi sol theta phi i with
        ys := ys xi theta phi i + (v 1 * cos phi - v 0 * sin phi) * sin theta } := by
    simp only [dipole, ys, Coordinates.element_shift]
    congr 1
    ring
  have hterm (i : Fin n) := fieldTerm_add_ys theta phi t (dipole xi sol theta phi i)
    ((v 1 * cos phi - v 0 * sin phi) * sin theta)
  simp only [ifunction, hdipole]
  simp only [dipole] at hterm ⊢
  simp only [hterm, delay]

theorem fieldTerm_add_period (p : Dipole) :
    p.fieldTerm theta phi (t + kRr) = p.fieldTerm theta phi t := by
  have ht : params.omega * (t + kRr - p.ys / params.c) =
      params.omega * (t - p.ys / params.c) + 2 * π := by
    rw [kRr]
    field_simp [omega_ne_zero]
    ring
  simp only [fieldTerm, ht, cos_add_two_pi, sin_add_two_pi]

theorem periodic_ifunction : Function.Periodic (ifunction xi sol theta phi) kRr := by
  intro t
  simp only [ifunction, fieldTerm_add_period]

theorem integral_shift : ∫ t in (0 : ℝ)..kRr, ifunction (xi.shift v) sol theta phi t =
    ∫ t in (0 : ℝ)..kRr, ifunction xi sol theta phi t := by
  simp only [ifunction_shift]
  rw [intervalIntegral.integral_comp_sub_right (ifunction xi sol theta phi), sub_eq_neg_add,
    sub_eq_neg_add, add_zero,
    (periodic_ifunction xi sol theta phi).intervalIntegral_add_eq _ 0, zero_add]

/-- From the coordinates to the field: the numbering of the dipoles does not matter, and a shift of
all of them only delays what is seen, so that the integral over a period stays the same. -/
theorem ifunction_solution_move :
    ifunction ((xi.permute σ).shift v) (ofCoordinates ((xi.permute σ).shift v)).solution theta phi t =
        ifunction xi (ofCoordinates xi).solution theta phi (t - delay theta phi v) ∧
      ∫ t in (0 : ℝ)..kRr, ifunction ((xi.permute σ).shift v)
          (ofCoordinates ((xi.permute σ).shift v)).solution theta phi t =
        ∫ t in (0 : ℝ)..kRr, ifunction xi (ofCoordinates xi).solution theta phi t := by
  rw [ofCoordinates_shift, solution_permute, integral_shift, ifunction_shift]
  simp only [ifunction_permute, and_self]

end Field

end Dipoles

end DistributedMathArh
