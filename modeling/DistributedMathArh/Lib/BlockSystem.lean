import Mathlib

namespace DistributedMathArh.BlockSystem

open Matrix

variable {m K : Type*} [Fintype m] [DecidableEq m] [Field K]
variable {A B : Matrix m m K} {f : m ⊕ m → K}

abbrev block (A B : Matrix m m K) : Matrix (m ⊕ m) (m ⊕ m) K := fromBlocks A (-B) B A

def blockCommutator (A B : Matrix m m K) : Matrix m m K := A * B - B * A

noncomputable def eliminate (A B : Matrix m m K) (f : m ⊕ m → K) : m ⊕ m → K :=
  Sum.elim ((A * A + B * B)⁻¹ *ᵥ (A *ᵥ (f ∘ Sum.inl) + B *ᵥ (f ∘ Sum.inr)))
    ((A * A + B * B)⁻¹ *ᵥ (A *ᵥ (f ∘ Sum.inr) - B *ᵥ (f ∘ Sum.inl)))

def Commuting (A B : Matrix m m K) (y : m ⊕ m → K) : Prop :=
  blockCommutator A B *ᵥ (y ∘ Sum.inl) = 0 ∧ blockCommutator A B *ᵥ (y ∘ Sum.inr) = 0

omit [DecidableEq m] in
theorem blockCommutator_eq_zero : blockCommutator A B = 0 ↔ Commute A B := sub_eq_zero

omit [DecidableEq m] in
theorem upper_mulVec (y₁ y₂ : m → K) :
    A *ᵥ (A *ᵥ y₁ + -B *ᵥ y₂) + B *ᵥ (B *ᵥ y₁ + A *ᵥ y₂) =
      (A * A + B * B) *ᵥ y₁ - blockCommutator A B *ᵥ y₂ := by
  simp only [blockCommutator, mulVec_add, add_mulVec, sub_mulVec, neg_mulVec, mulVec_neg, mulVec_mulVec]
  abel

omit [DecidableEq m] in
theorem lower_mulVec (y₁ y₂ : m → K) :
    A *ᵥ (B *ᵥ y₁ + A *ᵥ y₂) - B *ᵥ (A *ᵥ y₁ + -B *ᵥ y₂) =
      (A * A + B * B) *ᵥ y₂ + blockCommutator A B *ᵥ y₁ := by
  simp only [blockCommutator, mulVec_add, add_mulVec, sub_mulVec, neg_mulVec, mulVec_neg, mulVec_mulVec]
  abel

theorem inv_mulVec_cancel (h : IsUnit (A * A + B * B)) (v : m → K) :
    (A * A + B * B)⁻¹ *ᵥ ((A * A + B * B) *ᵥ v) = v := by
  rw [mulVec_mulVec, nonsing_inv_mul _ ((isUnit_iff_isUnit_det _).mp h), one_mulVec]

theorem mulVec_eq_zero_iff {M : Matrix m m K} (h : IsUnit M) {v : m → K} : M *ᵥ v = 0 ↔ v = 0 := by
  have hinj := (mulVec_injective_iff_isUnit.mpr h).eq_iff (a := v) (b := 0)
  rwa [mulVec_zero] at hinj

theorem inv_mulVec_eq_zero (h : IsUnit (A * A + B * B)) (v : m → K) :
    (A * A + B * B)⁻¹ *ᵥ v = 0 ↔ v = 0 :=
  mulVec_eq_zero_iff ((isUnit_nonsing_inv_iff).mpr h)

theorem eliminate_mulVec (h : IsUnit (A * A + B * B)) (y : m ⊕ m → K) :
    eliminate A B (block A B *ᵥ y) = Sum.elim
      (y ∘ Sum.inl - (A * A + B * B)⁻¹ *ᵥ (blockCommutator A B *ᵥ (y ∘ Sum.inr)))
      (y ∘ Sum.inr + (A * A + B * B)⁻¹ *ᵥ (blockCommutator A B *ᵥ (y ∘ Sum.inl))) := by
  rw [eliminate, block, fromBlocks_mulVec, Sum.elim_comp_inl, Sum.elim_comp_inr, upper_mulVec,
    lower_mulVec, mulVec_sub, mulVec_add, inv_mulVec_cancel h, inv_mulVec_cancel h]

theorem eliminate_mulVec_eq_iff (h : IsUnit (A * A + B * B)) (y : m ⊕ m → K) :
    eliminate A B (block A B *ᵥ y) = y ↔ Commuting A B y := by
  rw [eliminate_mulVec h]
  conv_lhs => rhs; rw [← Sum.elim_comp_inl_inr y]
  rw [Sum.elim_eq_iff, sub_eq_self, add_eq_left, inv_mulVec_eq_zero h, inv_mulVec_eq_zero h]
  exact and_comm

theorem block_mulVec_eliminate_iff (h : IsUnit (A * A + B * B)) :
    block A B *ᵥ eliminate A B f = f ↔ ∃ y, block A B *ᵥ y = f ∧ Commuting A B y := by
  constructor
  · intro hf
    refine ⟨eliminate A B f, hf, ?_⟩
    rw [← eliminate_mulVec_eq_iff h, hf]
  · rintro ⟨y, rfl, hy⟩
    rw [(eliminate_mulVec_eq_iff h y).mpr hy]

theorem forall_mulVec_eq_iff {n : Type*} [Fintype n] [DecidableEq n] {M : Matrix n n K} :
    (∀ v, M *ᵥ v = v) ↔ M = 1 := by
  constructor
  · intro h
    apply mulVec_injective
    funext v
    rw [h, one_mulVec]
  · rintro rfl v
    exact one_mulVec v

theorem eliminate_eq_mulVec (f : m ⊕ m → K) :
    eliminate A B f = fromBlocks ((A * A + B * B)⁻¹ * A) ((A * A + B * B)⁻¹ * B)
      (-((A * A + B * B)⁻¹ * B)) ((A * A + B * B)⁻¹ * A) *ᵥ f := by
  rw [eliminate, fromBlocks_mulVec]
  congr 1
  · rw [mulVec_add, mulVec_mulVec, mulVec_mulVec]
  · rw [mulVec_sub, mulVec_mulVec, mulVec_mulVec, neg_mulVec, neg_add_eq_sub]

omit [DecidableEq m] in
theorem forall_commuting_iff : (∀ y, Commuting A B y) ↔ Commute A B := by
  rw [← blockCommutator_eq_zero]
  constructor
  · intro h
    apply mulVec_injective
    funext v
    rw [zero_mulVec]
    exact (h (Sum.elim v v)).1
  · intro h y
    rw [Commuting, h, zero_mulVec, zero_mulVec]
    exact ⟨rfl, rfl⟩

theorem forall_block_mulVec_eliminate_iff (h : IsUnit (A * A + B * B)) :
    (∀ f, block A B *ᵥ eliminate A B f = f) ↔ Commute A B := by
  rw [← forall_commuting_iff]
  simp only [← eliminate_mulVec_eq_iff h, eliminate_eq_mulVec, mulVec_mulVec, forall_mulVec_eq_iff]
  exact mul_eq_one_comm

section Symmetry

theorem eliminate_elim (f₁ f₂ : m → K) : eliminate A B (Sum.elim f₁ f₂) =
    Sum.elim ((A * A + B * B)⁻¹ *ᵥ (A *ᵥ f₁ + B *ᵥ f₂))
      ((A * A + B * B)⁻¹ *ᵥ (A *ᵥ f₂ - B *ᵥ f₁)) := rfl

theorem eliminate_submatrix (e : m ≃ m) (f : m ⊕ m → K) :
    eliminate (A.submatrix e e) (B.submatrix e e) (f ∘ Sum.map e e) =
      eliminate A B f ∘ Sum.map e e := by
  have hmul (M : Matrix m m K) (v : m → K) : M.submatrix e e *ᵥ (v ∘ e) = (M *ᵥ v) ∘ e := by
    rw [submatrix_mulVec_equiv, Function.comp_assoc, Equiv.self_comp_symm, Function.comp_id]
  have hinv : (A.submatrix e e * A.submatrix e e + B.submatrix e e * B.submatrix e e)⁻¹ =
      ((A * A + B * B)⁻¹).submatrix e e := by
    rw [submatrix_mul_equiv, submatrix_mul_equiv, ← inv_submatrix_equiv]
    rfl
  rw [← Sum.elim_comp_inl_inr f, Sum.elim_comp_map, eliminate_elim, eliminate_elim,
    Sum.elim_comp_map, hinv, hmul A, hmul B, hmul A, hmul B]
  exact congrArg₂ Sum.elim (hmul _ (A *ᵥ (f ∘ Sum.inl) + B *ᵥ (f ∘ Sum.inr)))
    (hmul _ (A *ᵥ (f ∘ Sum.inr) - B *ᵥ (f ∘ Sum.inl)))

theorem eliminate_conj {P Q : Matrix m m K} (h : P * Q = 1) (f₁ f₂ : m → K) :
    eliminate (P * A * Q) (P * B * Q) (Sum.elim f₁ f₂) =
      Sum.elim (P *ᵥ (eliminate A B (Sum.elim (Q *ᵥ f₁) (Q *ᵥ f₂)) ∘ Sum.inl))
        (P *ᵥ (eliminate A B (Sum.elim (Q *ᵥ f₁) (Q *ᵥ f₂)) ∘ Sum.inr)) := by
  have h' : Q * P = 1 := mul_eq_one_comm.mp h
  have hsquare (M : Matrix m m K) : P * M * Q * (P * M * Q) = P * (M * M) * Q := by
    simp only [Matrix.mul_assoc]
    rw [← Matrix.mul_assoc Q P, h', Matrix.one_mul]
  have hinv : (P * A * Q * (P * A * Q) + P * B * Q * (P * B * Q))⁻¹ =
      P * (A * A + B * B)⁻¹ * Q := by
    rw [hsquare, hsquare, ← Matrix.add_mul, ← Matrix.mul_add, Matrix.mul_inv_rev,
      Matrix.mul_inv_rev,
      inv_eq_left_inv h, inv_eq_left_inv h', Matrix.mul_assoc]
  have hcancel (M : Matrix m m K) (v : m → K) : (P * M * Q) *ᵥ (P *ᵥ v) = P *ᵥ (M *ᵥ v) := by
    rw [mulVec_mulVec, Matrix.mul_assoc, h', Matrix.mul_one, ← mulVec_mulVec]
  have hout (M : Matrix m m K) (v : m → K) : (P * M * Q) *ᵥ v = P *ᵥ (M *ᵥ (Q *ᵥ v)) := by
    rw [mulVec_mulVec, mulVec_mulVec, Matrix.mul_assoc]
  simp only [eliminate_elim, hinv, Sum.elim_comp_inl, Sum.elim_comp_inr]
  rw [hout A, hout B, hout A, hout B, ← mulVec_add, ← mulVec_sub, hcancel, hcancel]

theorem eliminate_phase (c s : K) (f₁ f₂ : m → K) :
    eliminate A B (Sum.elim (c • f₁ - s • f₂) (s • f₁ + c • f₂)) =
      Sum.elim
        (c • (eliminate A B (Sum.elim f₁ f₂) ∘ Sum.inl) -
          s • (eliminate A B (Sum.elim f₁ f₂) ∘ Sum.inr))
        (s • (eliminate A B (Sum.elim f₁ f₂) ∘ Sum.inl) +
          c • (eliminate A B (Sum.elim f₁ f₂) ∘ Sum.inr)) := by
  simp only [eliminate_elim, Sum.elim_comp_inl, Sum.elim_comp_inr, mulVec_add, mulVec_sub,
    mulVec_smul, smul_add, smul_sub]
  congr 1 <;> abel

end Symmetry

section Kronecker

open scoped Kronecker

variable {ι κ : Type*} [Fintype ι] [DecidableEq ι] [Fintype κ]

theorem one_kronecker_mulVec (R : Matrix κ κ K) (v : ι × κ → K) (x : ι × κ) :
    ((1 : Matrix ι ι K) ⊗ₖ R *ᵥ v) x = (R *ᵥ fun k => v (x.1, k)) x.2 := by
  simp [mulVec, dotProduct, kroneckerMap_apply, Fintype.sum_prod_type, one_apply, ite_mul]

theorem one_kronecker_conj (R S : Matrix κ κ K) (M : Matrix (ι × κ) (ι × κ) K) (x y : ι × κ) :
    ((1 : Matrix ι ι K) ⊗ₖ R * M * (1 : Matrix ι ι K) ⊗ₖ S) x y =
      (R * (Matrix.of fun p q => M (x.1, p) (y.1, q)) * S) x.2 y.2 := by
  simp [Matrix.mul_apply, kroneckerMap_apply, Fintype.sum_prod_type, one_apply, ite_mul, mul_ite]

end Kronecker

end DistributedMathArh.BlockSystem
