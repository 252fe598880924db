import DistributedMathArh.MathCore.Dipoles

namespace DistributedMathArh.Dipoles

open Matrix BlockSystem

variable {n : Nat} {d : Dipoles n}

def Solves (d : Dipoles n) : Prop := d.getMatrixx *ᵥ d.solve = d.getRightPart

theorem solve_eq_eliminate (d : Dipoles n) : d.solve = eliminate d.m1 d.m2 d.f := rfl

/-- The two half-size solves give a solution exactly if the system has one on whose halves the
blocks commute; they do so for every right part exactly if the blocks commute. -/
theorem solves_iff (h : IsUnit (d.m1 * d.m1 + d.m2 * d.m2)) :
    (d.Solves ↔ ∃ y, d.getMatrixx *ᵥ y = d.getRightPart ∧ Commuting d.m1 d.m2 y) ∧
      ((∀ f, Solves { d with f }) ↔ Commute d.m1 d.m2) := by
  constructor
  · rw [Solves, solve_eq_eliminate]
    exact block_mulVec_eliminate_iff h
  · simp only [Solves, solve_eq_eliminate]
    exact forall_block_mulVec_eliminate_iff h

def single (M : Matrix (Fin 2) (Fin 2) ℝ) : Matrix (Index 1) (Index 1) ℝ :=
  M.submatrix (Equiv.uniqueProd _ _) (Equiv.uniqueProd _ _)

theorem single_mul (M N : Matrix (Fin 2) (Fin 2) ℝ) : single M * single N = single (M * N) :=
  submatrix_mul_equiv _ _ _ _ _

theorem single_add (M N : Matrix (Fin 2) (Fin 2) ℝ) : single M + single N = single (M + N) := rfl

theorem single_one : single 1 = 1 := submatrix_one_equiv _

theorem isUnit_single {M : Matrix (Fin 2) (Fin 2) ℝ} : IsUnit (single M) ↔ M.det ≠ 0 := by
  rw [single, isUnit_submatrix_equiv, isUnit_iff_isUnit_det, isUnit_iff_ne_zero]

theorem solves_iff_single :
    ((loadFromMatrix (block (single 1) 0)).Solves ↔
        ∃ y, (loadFromMatrix (block (single 1) 0)).getMatrixx *ᵥ y =
          (loadFromMatrix (block (single 1) 0)).getRightPart ∧ Commuting (single 1) 0 y) ∧
      ((∀ f, Solves { loadFromMatrix (block (single 1) 0) with f }) ↔ Commute (single 1) 0) := by
  have hunit : IsUnit (single 1 * single 1 + 0 * 0) := by
    rw [single_one, mul_one, mul_zero, add_zero]
    exact isUnit_one
  exact solves_iff (d := loadFromMatrix (block (single 1) 0)) hunit

def sampleA : Matrix (Fin 2) (Fin 2) ℝ := !![1, 0; 0, 2]

def sampleB : Matrix (Fin 2) (Fin 2) ℝ := !![0, 1; 1, 0]

theorem commutator_sample :
    blockCommutator (single sampleA) (single sampleB) = single !![0, -1; 1, 0] := by
  rw [blockCommutator, single_mul, single_mul]
  ext x y
  obtain ⟨_, p⟩ := x
  obtain ⟨_, q⟩ := y
  fin_cases p <;> fin_cases q <;> norm_num [single, sampleA, sampleB, Matrix.mul_apply]

theorem eq_zero_of_commuting_sample {y : FullIndex 1 → ℝ}
    (h : Commuting (single sampleA) (single sampleB) y) : y = 0 := by
  have hunit : IsUnit (blockCommutator (single sampleA) (single sampleB)) := by
    rw [commutator_sample, isUnit_single]
    norm_num [det_fin_two]
  rw [← Sum.elim_comp_inl_inr y, (mulVec_eq_zero_iff hunit).mp h.1,
    (mulVec_eq_zero_iff hunit).mp h.2]
  exact Sum.elim_zero_zero

theorem not_solves :
    (single sampleA).IsSymm ∧ (single sampleB).IsSymm ∧
      IsUnit (single sampleA * single sampleA + single sampleB * single sampleB) ∧
      ¬ (loadFromMatrix (block (single sampleA) (single sampleB))).Solves := by
  have hunit : IsUnit (single sampleA * single sampleA + single sampleB * single sampleB) := by
    rw [single_mul, single_mul, single_add, isUnit_single]
    norm_num [sampleA, sampleB, det_fin_two]
  refine ⟨?_, ?_, hunit, ?_⟩
  · apply IsSymm.submatrix
    ext p q
    fin_cases p <;> fin_cases q <;> rfl
  · apply IsSymm.submatrix
    ext p q
    fin_cases p <;> fin_cases q <;> rfl
  · intro h
    obtain ⟨y, hy, hcomm⟩ := (block_mulVec_eliminate_iff hunit).mp h
    rw [eq_zero_of_commuting_sample hcomm, mulVec_zero] at hy
    have hentry := congrFun hy (.inl (0, 0))
    norm_num [loadFromMatrix, initArrays, params] at hentry

end DistributedMathArh.Dipoles
