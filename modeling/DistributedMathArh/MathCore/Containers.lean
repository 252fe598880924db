import DistributedMathArh.MathCore.Dipoles

namespace DistributedMathArh

open Matrix

namespace Container

open Dipoles

variable {n : Nat}

def SamePoints (xi eta : Container n) : Prop :=
  ∀ coord i, xi.element coord i = eta.element coord i

def permute (σ : Equiv.Perm (Fin n)) : Container n → Container n
  | flat xi => flat (xi.permute σ)
  | nested xi => nested fun coord i => xi coord (σ.symm i)

@[simp] theorem element_permute (xi : Container n) (σ : Equiv.Perm (Fin n)) (coord : Fin 2)
    (i : Fin n) : (xi.permute σ).element coord i = xi.element coord (σ.symm i) := by
  cases xi with
  | flat xi => exact xi.element_permute σ coord i
  | nested xi => rfl

theorem setMatrixes_congr {xi eta : Container n} (h : xi.SamePoints eta) (d : Dipoles n) :
    setMatrixes d xi = setMatrixes d eta := by
  have hdiff (i m : Fin n) : xi.twoDVecDifference i m = eta.twoDVecDifference i m := by
    rw [twoDVecDifference, twoDVecDifference, h, h, h, h]
  have hdist (i m : Fin n) : xi.getDistance i m = eta.getDistance i m := by
    rw [getDistance, getDistance, h, h, h, h]
  simp only [setMatrixes, block1, block2, arg, hdiff, hdist]

theorem block_permute (an : ℝ) (xi : Container n) (σ : Equiv.Perm (Fin n)) (i m : Fin n) :
    block1 an (xi.permute σ) (σ i) (σ m) = block1 an xi i m ∧
      block2 an (xi.permute σ) (σ i) (σ m) = block2 an xi i m := by
  have hdiff (i m : Fin n) :
      (xi.permute σ).twoDVecDifference (σ i) (σ m) = xi.twoDVecDifference i m := by
    simp [twoDVecDifference]
  have hdist (i m : Fin n) : (xi.permute σ).getDistance (σ i) (σ m) = xi.getDistance i m := by
    simp [getDistance]
  simp only [block1, block2, arg, hdiff, hdist, σ.apply_eq_iff_eq, and_self]

/-- The matrices are symmetric, do not depend on the form of the container, and their blocks move
with the dipoles. -/
theorem setMatrixes_container (n : Nat) (d : Dipoles n) (xi : Container n) :
    ((setMatrixes d xi).m1.IsSymm ∧ (setMatrixes d xi).m2.IsSymm) ∧
    (∀ eta, xi.SamePoints eta → (setMatrixes d xi).m1 = (setMatrixes d eta).m1 ∧
      (setMatrixes d xi).m2 = (setMatrixes d eta).m2) ∧
    ∀ (σ : Equiv.Perm (Fin n)) (i m : Fin n) (row col : Fin 2),
      (setMatrixes d (xi.permute σ)).m1 (σ i, row) (σ m, col) =
        (setMatrixes d xi).m1 (i, row) (m, col) ∧
      (setMatrixes d (xi.permute σ)).m2 (σ i, row) (σ m, col) =
        (setMatrixes d xi).m2 (i, row) (m, col) := by
  refine ⟨isSymm_setMatrixes d xi, ?_, ?_⟩
  · intro eta h
    rw [setMatrixes_congr h]
    exact ⟨rfl, rfl⟩
  · intro σ i m row col
    obtain ⟨h₁, h₂⟩ := block_permute d.an xi σ i m
    exact ⟨congrFun (congrFun h₁ row) col, congrFun (congrFun h₂ row) col⟩

theorem setMatrixes_container_two :
    (setMatrixes (initArrays 2) (flat ![0, 3, 1, 5])).m1 =
        (setMatrixes (initArrays 2) (nested ![![0, 3], ![1, 5]])).m1 ∧
      (setMatrixes (initArrays 2) (flat ![0, 3, 1, 5])).m2 =
        (setMatrixes (initArrays 2) (nested ![![0, 3], ![1, 5]])).m2 := by
  apply (setMatrixes_container 2 _ _).2.1
  intro coord i
  fin_cases coord <;> fin_cases i <;> rfl

end Container

end DistributedMathArh
