import DistributedMathArh.Lib.Literals
import DistributedMathArh.Lib.BlockSystem

/-! `dipoles::Dipoles`: the system of equations of `n` dipoles and its solution, over the reals. -/

namespace DistributedMathArh

open Matrix

structure Params where
  c : ℝ
  yo : ℝ
  omega : ℝ
  omega0 : ℝ
  a : ℝ
  eps : ℝ

noncomputable def params : Params where
  c := 3 * 10 ^ 8
  yo := 10 ^ 7
  omega := 10 ^ 15
  omega0 := 10 ^ 15
  a := 1
  eps := 1

/-- The index `2 * i + coord` of the source is the pair of the dipole and the coordinate. -/
abbrev Index (n : Nat) := Fin n × Fin 2

/-- Index of the whole system; what the source shifts by `2 * n` is on the right. -/
abbrev FullIndex (n : Nat) := Index n ⊕ Index n

/-- The coordinates of the dipoles in one container: first all `x`, then all `y`. -/
abbrev Coordinates (n : Nat) := Fin (2 * n) → ℝ

def Coordinates.element {n : Nat} (xi : Coordinates n) (coord : Fin 2) (i : Fin n) : ℝ :=
  xi ⟨coord * n + i, by
    have := Nat.mul_le_mul_right n (Nat.le_of_lt_succ coord.isLt)
    omega⟩

namespace Coordinates

variable {n : Nat}

def ofElements (x : Fin 2 → Fin n → ℝ) : Coordinates n :=
  fun k => x (finProdFinEquiv.symm k).1 (finProdFinEquiv.symm k).2

def permute (xi : Coordinates n) (σ : Equiv.Perm (Fin n)) : Coordinates n :=
  ofElements fun coord i => xi.element coord (σ.symm i)

theorem element_eq (xi : Coordinates n) (coord : Fin 2) (i : Fin n) :
    xi.element coord i = xi (finProdFinEquiv (coord, i)) := by
  apply congrArg xi
  apply Fin.ext
  change coord * n + i = i + n * coord
  rw [Nat.add_comm, Nat.mul_comm]

@[simp] theorem element_ofElements (x : Fin 2 → Fin n → ℝ) (coord : Fin 2) (i : Fin n) :
    (ofElements x).element coord i = x coord i := by
  rw [element_eq, ofElements, Equiv.symm_apply_apply]

@[simp] theorem element_permute (xi : Coordinates n) (σ : Equiv.Perm (Fin n)) (coord : Fin 2)
    (i : Fin n) : (xi.permute σ).element coord i = xi.element coord (σ.symm i) :=
  element_ofElements _ coord i

end Coordinates

/-- One array with all `x` before all `y`, or an array of two arrays. -/
inductive Container (n : Nat)
  | flat (xi : Coordinates n)
  | nested (xi : Fin 2 → Fin n → ℝ)

noncomputable def getK1 (rim : Fin 2 → ℝ) (rMode : ℝ) : Matrix (Fin 2) (Fin 2) ℝ :=
  !![3 * rim 0 * rim 0 / rMode ^ 5 - 1 / rMode ^ 3, 3 * rim 0 * rim 1 / rMode ^ 5;
     3 * rim 0 * rim 1 / rMode ^ 5, 3 * rim 1 * rim 1 / rMode ^ 5 - 1 / rMode ^ 3]

noncomputable def getK2 (rMode : ℝ) : Matrix (Fin 2) (Fin 2) ℝ :=
  !![params.omega / (params.c * rMode ^ 2), 0;
     0, params.omega / (params.c * rMode ^ 2)]

namespace Container

variable {n : Nat}

def size : Container n → Nat
  | flat _ => 2 * n
  | nested _ => 2

def element : Container n → Fin 2 → Fin n → ℝ
  | flat xi => xi.element
  | nested xi => xi

@[simp] theorem element_flat (xi : Coordinates n) : (flat xi).element = xi.element := rfl

def twoDVecDifference (xi : Container n) (i1 i2 : Fin n) : Fin 2 → ℝ :=
  ![xi.element 0 i1 - xi.element 0 i2, xi.element 1 i1 - xi.element 1 i2]

noncomputable def getDistance (xi : Container n) (i1 i2 : Fin n) : ℝ :=
  let d1 := xi.element 0 i1 - xi.element 0 i2
  let d2 := xi.element 1 i1 - xi.element 1 i2
  √(d1 * d1 + d2 * d2)

noncomputable def arg (xi : Container n) (i m : Fin n) : ℝ :=
  params.omega * xi.getDistance i m / params.c

noncomputable def block1 (an : ℝ) (xi : Container n) (i m : Fin n) : Matrix (Fin 2) (Fin 2) ℝ :=
  if i = m then (params.omega0 * params.omega0 - params.omega * params.omega) • 1
  else -an • (Real.cos (xi.arg i m) • getK1 (xi.twoDVecDifference m i) (xi.getDistance i m) -
    Real.sin (xi.arg i m) • getK2 (xi.getDistance i m))

noncomputable def block2 (an : ℝ) (xi : Container n) (i m : Fin n) : Matrix (Fin 2) (Fin 2) ℝ :=
  if i = m then -((params.yo * params.omega) • 1)
  else -an • (Real.cos (xi.arg i m) • getK2 (xi.getDistance i m) +
    Real.sin (xi.arg i m) • getK1 (xi.twoDVecDifference m i) (xi.getDistance i m))

end Container

structure Dipoles (n : Nat) where
  m1 : Matrix (Index n) (Index n) ℝ
  m2 : Matrix (Index n) (Index n) ℝ
  f : FullIndex n → ℝ
  an : ℝ

noncomputable def Container.setMatrixes {n : Nat} (d : Dipoles n) (xi : Container n) : Dipoles n :=
  { d with
    m1 := Matrix.of fun x y => block1 d.an xi x.1 y.1 x.2 y.2
    m2 := Matrix.of fun x y => block2 d.an xi x.1 y.1 x.2 y.2 }

namespace Dipoles

variable {n : Nat}

/-- `InitArrays`: the right part; the resized blocks are overwritten by every caller. -/
noncomputable def initArrays (n : Nat) : Dipoles n where
  m1 := 0
  m2 := 0
  f := Sum.elim (fun x => ![params.a / n * params.eps, 0] x.2)
    (fun x => ![0, params.a / n * params.eps] x.2)
  an := params.a / n

noncomputable def setMatrixes (d : Dipoles n) (xi : Coordinates n) : Dipoles n :=
  Container.setMatrixes d (.flat xi)

noncomputable def ofCoordinates (xi : Coordinates n) : Dipoles n := (initArrays n).setMatrixes xi

noncomputable def loadFromMatrix (xi : Matrix (FullIndex n) (FullIndex n) ℝ) : Dipoles n :=
  { initArrays n with m1 := xi.toBlocks₁₁, m2 := xi.toBlocks₂₁ }

def getRightPart (d : Dipoles n) : FullIndex n → ℝ := d.f

def getMatrixx (d : Dipoles n) : Matrix (FullIndex n) (FullIndex n) ℝ :=
  fromBlocks d.m1 (-d.m2) d.m2 d.m1

/-- `Solve`, with the LU solver taken as the exact inverse. -/
noncomputable def solve (d : Dipoles n) : FullIndex n → ℝ :=
  let tt := (d.m1 * d.m1 + d.m2 * d.m2)⁻¹
  Sum.elim (tt *ᵥ (d.m1 *ᵥ (d.f ∘ Sum.inl) + d.m2 *ᵥ (d.f ∘ Sum.inr)))
    (tt *ᵥ (d.m1 *ᵥ (d.f ∘ Sum.inr) - d.m2 *ᵥ (d.f ∘ Sum.inl)))

end Dipoles

namespace Container

variable {n : Nat}

theorem getDistance_comm (xi : Container n) (i m : Fin n) :
    xi.getDistance i m = xi.getDistance m i := by
  simp only [getDistance]
  congr 1
  ring

theorem arg_comm (xi : Container n) (i m : Fin n) : xi.arg i m = xi.arg m i := by
  rw [arg, arg, getDistance_comm]

theorem getK1_transpose (rim : Fin 2 → ℝ) (rMode : ℝ) : (getK1 rim rMode)ᵀ = getK1 rim rMode := by
  ext p q
  fin_cases p <;> fin_cases q <;> rfl

theorem getK2_transpose (rMode : ℝ) : (getK2 rMode)ᵀ = getK2 rMode := by
  ext p q
  fin_cases p <;> fin_cases q <;> rfl

theorem getK1_comm (xi : Container n) (i m : Fin n) (rMode : ℝ) :
    getK1 (xi.twoDVecDifference i m) rMode = getK1 (xi.twoDVecDifference m i) rMode := by
  simp only [getK1, twoDVecDifference, cons_val_zero, cons_val_one]
  congr! 3 <;> ring_nf

theorem block1_transpose (an : ℝ) (xi : Container n) (i m : Fin n) :
    (block1 an xi i m)ᵀ = block1 an xi m i := by
  by_cases h : i = m
  · simp [block1, h]
  · rw [block1, block1, if_neg h, if_neg (Ne.symm h), transpose_smul, transpose_sub,
      transpose_smul, transpose_smul, getK1_transpose, getK2_transpose, arg_comm, getDistance_comm,
      getK1_comm]

theorem block2_transpose (an : ℝ) (xi : Container n) (i m : Fin n) :
    (block2 an xi i m)ᵀ = block2 an xi m i := by
  by_cases h : i = m
  · simp [block2, h]
  · rw [block2, block2, if_neg h, if_neg (Ne.symm h), transpose_smul, transpose_add,
      transpose_smul, transpose_smul, getK1_transpose, getK2_transpose, arg_comm, getDistance_comm,
      getK1_comm]

theorem isSymm_setMatrixes (d : Dipoles n) (xi : Container n) :
    (setMatrixes d xi).m1.IsSymm ∧ (setMatrixes d xi).m2.IsSymm := by
  constructor
  · ext x y
    exact congrFun (congrFun (block1_transpose d.an xi y.1 x.1) x.2) y.2
  · ext x y
    exact congrFun (congrFun (block2_transpose d.an xi y.1 x.1) x.2) y.2

end Container

end DistributedMathArh
