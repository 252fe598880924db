import DistributedMathArh.MathCore.Dipoles
import DistributedMathArh.MathCore.Mesh

namespace DistributedMathArh

open Real Finset

abbrev Solution (n : Nat) := Fin (4 * n) → ℝ

namespace Solution

variable {n : Nat} (sol : Solution n) (i : Fin n)

def a : Fin 2 → ℝ := ![sol ⟨2 * i, by omega⟩, sol ⟨2 * i + 1, by omega⟩]

def b : Fin 2 → ℝ := ![sol ⟨2 * i + 2 * n, by omega⟩, sol ⟨2 * i + 1 + 2 * n, by omega⟩]

/-- `bj` of the inner loop, with another index in its second entry. -/
def bInner : Fin 2 → ℝ := ![sol ⟨2 * i + 2 * n, by omega⟩, sol ⟨i + 1 + 2 * n, by omega⟩]

def ofParts (a b : Fin n → Fin 2 → ℝ) : Solution n := fun k =>
  if h : k < 2 * n then a ⟨k / 2, by omega⟩ ⟨k % 2, by omega⟩
  else b ⟨(k - 2 * n) / 2, by omega⟩ ⟨(k - 2 * n) % 2, by omega⟩

/-- The solution in which every dipole but the first is zero. -/
def first (a b : Fin 2 → ℝ) : Solution (n + 1) := ofParts (Fin.cons a 0) (Fin.cons b 0)

def permute (σ : Equiv.Perm (Fin n)) : Solution n :=
  ofParts (fun i => sol.a (σ.symm i)) fun i => sol.b (σ.symm i)

@[simp] theorem a_ofParts (a b : Fin n → Fin 2 → ℝ) : (ofParts a b).a i = a i := by
  have hlt : 2 * (i : Nat) + 1 < 2 * n := by omega
  have hdiv : (2 * (i : Nat) + 1) / 2 = i := by omega
  funext coord
  fin_cases coord
  · simp [Solution.a, ofParts]
  · simp [Solution.a, ofParts, hlt, hdiv]

@[simp] theorem b_ofParts (a b : Fin n → Fin 2 → ℝ) : (ofParts a b).b i = b i := by
  have hdiv : (2 * (i : Nat) + 1) / 2 = i := by omega
  funext coord
  fin_cases coord
  · simp [Solution.b, ofParts]
  · simp [Solution.b, ofParts, hdiv]

@[simp] theorem a_first_zero (a b : Fin 2 → ℝ) : (first a b : Solution (n + 1)).a 0 = a :=
  a_ofParts 0 _ _

@[simp] theorem b_first_zero (a b : Fin 2 → ℝ) : (first a b : Solution (n + 1)).b 0 = b :=
  b_ofParts 0 _ _

@[simp] theorem a_first_succ (a b : Fin 2 → ℝ) : (first a b).a i.succ = 0 := a_ofParts i.succ _ _

@[simp] theorem b_first_succ (a b : Fin 2 → ℝ) : (first a b).b i.succ = 0 := b_ofParts i.succ _ _

@[simp] theorem a_permute (σ : Equiv.Perm (Fin n)) : (sol.permute σ).a i = sol.a (σ.symm i) :=
  a_ofParts i _ _

@[simp] theorem b_permute (σ : Equiv.Perm (Fin n)) : (sol.permute σ).b i = sol.b (σ.symm i) :=
  b_ofParts i _ _

end Solution

structure Dipole where
  a : Fin 2 → ℝ
  b : Fin 2 → ℝ
  ys : ℝ

namespace Dipole

variable (p q : Dipole) (theta phi : ℝ)

/-- The contribution of a dipole to `ress` at the time `t`.  Of the two sines of `vi`, the second
is taken at `omega` itself. -/
noncomputable def fieldTerm (t : ℝ) : Fin 3 → ℝ :=
  let s : Fin 2 → ℝ := ![cos phi, sin phi]
  let t0 := t - p.ys / params.c
  let di : Fin 2 → ℝ :=
    ![p.a 0 * cos (params.omega * t0) + p.b 0 * sin (params.omega * t0),
      p.a 1 * cos (params.omega * t0) + p.b 1 * sin (params.omega * t0)]
  let vi : Fin 2 → ℝ :=
    ![params.omega * (p.b 0 * cos (params.omega * t0) - p.a 0 * sin (params.omega * t0)) / params.c,
      params.omega * (p.b 1 * cos (params.omega * t0) - p.a 1 * sin params.omega) / params.c]
  let ai : Fin 2 → ℝ := ![-params.omega ^ 2 * di 0, -params.omega ^ 2 * di 1]
  let vsi := vi 0 * s 0 + vi 1 * s 1
  let asi := ai 0 * s 0 + ai 1 * s 1
  let ttt (coord : Fin 2) : ℝ := ai coord * (vsi * sin theta - 1) +
    s coord * asi * sin theta ^ 2 - vi coord * asi * sin theta
  ![ttt 0, ttt 1, asi * sin theta * cos theta]

noncomputable def argument : ℝ := params.omega * p.ys / params.c

noncomputable def aDot : ℝ := p.a 0 * cos phi + p.a 1 * sin phi

noncomputable def bDot : ℝ := p.b 0 * cos phi + p.b 1 * sin phi

noncomputable def pc1 (k : Fin 2) : ℝ :=
  (![cos phi, sin phi] k * p.aDot phi * sin theta ^ 2 - p.a k) * cos p.argument -
    (![cos phi, sin phi] k * p.bDot phi * sin theta ^ 2 - p.b k) * sin p.argument

noncomputable def ps1 (k : Fin 2) : ℝ :=
  (![cos phi, sin phi] k * p.aDot phi * sin theta ^ 2 - p.a k) * sin p.argument +
    (![cos phi, sin phi] k * p.bDot phi * sin theta ^ 2 - p.b k) * cos p.argument

noncomputable def pc : ℝ := p.aDot phi * cos p.argument - p.bDot phi * sin p.argument

noncomputable def ps : ℝ := p.aDot phi * sin p.argument + p.bDot phi * cos p.argument

/-- `pcomi` is `p.pcom p`; in `pcomj` the vector `b` of the outer dipole `q` is used. -/
noncomputable def pcom (k : Fin 2) : ℝ :=
  -(params.omega / params.c) * sin theta * (p.a k * p.bDot phi - q.b k * p.aDot phi)

/-- `rij_xy`, for the outer dipole `p` and the inner dipole `q`. -/
noncomputable def rijXY (k : Fin 2) : ℝ :=
  p.pc1 theta phi k * q.pc1 theta phi k + p.ps1 theta phi k * q.ps1 theta phi k +
    2 * (p.pcom p theta phi k * q.pcom p theta phi k)

noncomputable def rijZ : ℝ := p.pc phi * q.pc phi + p.ps phi * q.ps phi

noncomputable def riXY (k : Fin 2) : ℝ :=
  (p.pc1 theta phi k * p.pc1 theta phi k + p.ps1 theta phi k * p.ps1 theta phi k +
    2 * (p.pcom p theta phi k * p.pcom p theta phi k)) / 2

noncomputable def riZ : ℝ := (p.pc phi * p.pc phi + p.ps phi * p.ps phi) / 2

end Dipole

namespace Dipoles

variable {n : Nat} (xi : Coordinates n) (sol : Solution n) (theta phi : ℝ)

noncomputable def ys (i : Fin n) : ℝ :=
  (xi.element 1 i * cos phi - xi.element 0 i * sin phi) * sin theta

noncomputable def dipole (i : Fin n) : Dipole := ⟨sol.a i, sol.b i, ys xi theta phi i⟩

noncomputable def innerDipole (j : Fin n) : Dipole := ⟨sol.a j, sol.bInner j, ys xi theta phi j⟩

noncomputable def ifunction : IntegrableFunction ℝ := fun theta phi t =>
  let ress : Fin 3 → ℝ := ∑ i, (dipole xi sol theta phi i).fieldTerm theta phi t
  ∑ k, ress k * ress k

noncomputable def i2Function : DirectionGraph ℝ := fun phi theta =>
  let t0 := π * 2 / params.omega
  let o2 := params.omega ^ 2
  let resxy (k : Fin 2) : ℝ := ∑ i, ((∑ j ∈ Iio i, (dipole xi sol theta phi i).rijXY
    (innerDipole xi sol theta phi j) theta phi k) + (dipole xi sol theta phi i).riXY theta phi k)
  let resz : ℝ := ∑ i, ((∑ j ∈ Iio i, (dipole xi sol theta phi i).rijZ
    (innerDipole xi sol theta phi j) phi) + (dipole xi sol theta phi i).riZ phi)
  (∑ k, resxy k * t0 * o2 * o2) + resz * t0 * (o2 * o2 * (sin theta * cos theta) ^ 2)

noncomputable def kRr : ℝ := 2 * π / params.omega

end Dipoles

end DistributedMathArh
