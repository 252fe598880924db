import DistributedMathArh.Lib.Literals
import DistributedMathArh.Common.Valarray

/-! `mesh_storage`: the angle grids, and the meshes that are computed over them.  Numbers are exact:
`K` is any field and `pi` the constant `M_PI`. -/

namespace DistributedMathArh

abbrev DimType := Nat × Nat

structure LimType (K : Type) where
  thetaLower : K
  thetaUpper : K
  phiLower : K
  phiUpper : K

abbrev DirectionGraph (K : Type) := K → K → K

abbrev IntegrableFunction (K : Type) := K → K → K → K

namespace MeshStorage

variable {K : Type} [Field K] [DecidableEq K]

/-- `MyLinspace` with both ends; for one point the source divides by zero as well. -/
def myLinspace (lower upper : K) (n : Nat) : Except Exn (Valarray K) :=
  if n = 0 ∨ lower - upper = 0 then .error (.invalidArgument "Zero linspace size")
  else
    let step := (upper - lower) / (n - 1 : Nat)
    .ok ((List.range n).map fun i : Nat => (i : K) * step + lower)

def myMeshGrid (a b : Valarray K) : Valarray K × Valarray K :=
  (b.flatMap fun _ => a, b.flatMap fun y => a.map fun _ => y)

def computeFunction (a b : Valarray K) (func : DirectionGraph K) : Except Exn (Valarray K) :=
  if a = [] ∨ b = [] then
    .error (.myException
      s!"Zero container sizes: a.size() = {a.length},b.size() = {b.length}")
  else if a.length ≠ b.length then .error (.mismatchedSizes a.length b.length)
  else .ok (List.zipWith func a b)

theorem myLinspace_of_ne {lower upper : K} {n : Nat} (hn : n ≠ 0) (h : lower ≠ upper) :
    myLinspace lower upper n =
      .ok ((List.range n).map fun i : Nat => (i : K) * ((upper - lower) / (n - 1 : Nat)) + lower) :=
  if_neg fun hor => hor.elim hn fun hsub => h (sub_eq_zero.mp hsub)

theorem myLinspace_of_refused {lower upper : K} {n : Nat} (h : n = 0 ∨ lower = upper) :
    myLinspace lower upper n = .error (.invalidArgument "Zero linspace size") :=
  if_pos (h.imp_right sub_eq_zero.mpr)

omit [Field K] [DecidableEq K] in
theorem length_myMeshGrid (a b : Valarray K) :
    (myMeshGrid a b).1.length = b.length * a.length ∧
      (myMeshGrid a b).2.length = b.length * a.length := by
  simp [myMeshGrid, List.length_flatMap]

omit [Field K] [DecidableEq K] in
theorem myMeshGrid_getElem? {a b : Valarray K} (hb : b ≠ []) {j : Nat} (hj : j < a.length) :
    (myMeshGrid a b).1[j]? = a[j]? := by
  cases b with
  | nil => exact absurd rfl hb
  | cons y b => simp [myMeshGrid, List.getElem?_append_left hj]

end MeshStorage

def kDefaultDims : DimType := (7, 25)

def kDefaultLims {K : Type} [Field K] (pi : K) : LimType K := ⟨0, pi / 2, 0, pi * 2⟩

structure Accepted {K : Type} (dims : DimType) (lims : LimType K) : Prop where
  phi : dims.2 ≠ 0
  phi_ne : lims.phiLower ≠ lims.phiUpper
  theta : dims.1 ≠ 0
  theta_ne : lims.thetaLower ≠ lims.thetaUpper

theorem accepted_iff {K : Type} {dims : DimType} {lims : LimType K} : Accepted dims lims ↔
    (dims.2 ≠ 0 ∧ lims.phiLower ≠ lims.phiUpper) ∧
      dims.1 ≠ 0 ∧ lims.thetaLower ≠ lims.thetaUpper :=
  ⟨fun h => ⟨⟨h.phi, h.phi_ne⟩, h.theta, h.theta_ne⟩, fun h => ⟨h.1.1, h.1.2, h.2.1, h.2.2⟩⟩

instance {K : Type} [DecidableEq K] (dims : DimType) (lims : LimType K) :
    Decidable (Accepted dims lims) := decidable_of_iff' _ accepted_iff

structure MeshCreator (K : Type) where
  dimensions : DimType
  limits : LimType K
  data : Fin 3 → Valarray K

namespace MeshCreator

variable {K : Type} [Field K] [DecidableEq K]

def grids (dims : DimType) (lims : LimType K) : Except Exn (Valarray K × Valarray K) := do
  let phi ← MeshStorage.myLinspace lims.phiLower lims.phiUpper dims.2
  let theta ← MeshStorage.myLinspace lims.thetaLower lims.thetaUpper dims.1
  return MeshStorage.myMeshGrid phi theta

def init (pi : K) : MeshCreator K :=
  ⟨kDefaultDims, kDefaultLims pi, fun _ => List.replicate (kDefaultDims.1 * kDefaultDims.2) 0⟩

/-- The dimensions and limits are stored before anything is computed. -/
def constructMeshes (ms : MeshCreator K) (dims : DimType) (lims : LimType K) :
    MeshCreator K × Except Exn Unit :=
  let ms := { ms with dimensions := dims, limits := lims }
  match grids dims lims with
  | .error e => (ms, .error e)
  | .ok rrr => ({ ms with data := ![rrr.1, rrr.2, ms.data 2] }, .ok ())

def constructDefault (ms : MeshCreator K) : MeshCreator K × Except Exn Unit :=
  ms.constructMeshes ms.dimensions ms.limits

def applyFunction (ms : MeshCreator K) (func : DirectionGraph K) : Except Exn (MeshCreator K) := do
  let mesh ← MeshStorage.computeFunction (ms.data 0) (ms.data 1) func
  return { ms with data := Function.update ms.data 2 mesh }

/-- `ApplyIntegrate`; `integrate` is the quadrature of a function over an interval. -/
def applyIntegrate (integrate : (K → K) → K → K → K) (ms : MeshCreator K)
    (func : IntegrableFunction K) (a b : K) : Except Exn (MeshCreator K) :=
  ms.applyFunction fun x y => integrate (fun t => func y x t) a b

omit [Field K] [DecidableEq K] in
theorem zipWith_inj_iff {xs ys : List K} {f g : DirectionGraph K} :
    List.zipWith f xs ys = List.zipWith g xs ys ↔ ∀ p ∈ xs.zip ys, f p.1 p.2 = g p.1 p.2 := by
  rw [← List.map_uncurry_zip_eq_zipWith, ← List.map_uncurry_zip_eq_zipWith, List.map_inj_left]
  rfl

omit [Field K] [DecidableEq K] in
theorem applyFunction_inj_iff (ms : MeshCreator K) {f g : DirectionGraph K} :
    ms.applyFunction f = ms.applyFunction g ↔ ((ms.data 0).length = (ms.data 1).length →
      ∀ p ∈ (ms.data 0).zip (ms.data 1), f p.1 p.2 = g p.1 p.2) := by
  by_cases hnil : ms.data 0 = [] ∨ ms.data 1 = []
  · have hzip : (ms.data 0).zip (ms.data 1) = [] := List.zip_eq_nil_iff.mpr hnil
    simp [applyFunction, MeshStorage.computeFunction, hnil, hzip]
  · by_cases hlen : (ms.data 0).length = (ms.data 1).length
    · simp only [applyFunction, MeshStorage.computeFunction, if_neg hnil, hlen, ne_eq,
        not_true_eq_false, if_false, forall_const, ← zipWith_inj_iff]
      constructor
      · intro h
        have hdata := congrArg (fun m : MeshCreator K => m.data 2) (Except.ok.inj h)
        simpa using hdata
      · intro h
        rw [h]
    · simp [applyFunction, MeshStorage.computeFunction, hnil, hlen]

variable {pi : K}

theorem constructDefault_init [CharZero K] (hpi : pi ≠ 0) :
    ∃ ms, (init pi).constructDefault = (ms, .ok ()) ∧ (ms.data 0).length = 175 ∧
      (ms.data 0).getD 1 0 = pi * 2 / 24 := by
  have htwo : (2 : K) ≠ 0 := OfNat.ofNat_ne_zero 2
  have hphi := MeshStorage.myLinspace_of_ne (n := 25) (by decide)
    (mul_ne_zero hpi htwo).symm
  have htheta := MeshStorage.myLinspace_of_ne (n := 7) (by decide)
    (div_ne_zero hpi htwo).symm
  simp only [constructDefault, constructMeshes, init, grids, kDefaultDims, kDefaultLims, hphi,
    htheta, bind, Except.bind, pure, Except.pure]
  refine ⟨_, rfl, ?_, ?_⟩
  · exact (MeshStorage.length_myMeshGrid _ _).1.trans (by simp)
  · rw [List.getD_eq_getElem?_getD]
    refine (congrArg (Option.getD · 0) (MeshStorage.myMeshGrid_getElem? ?_ ?_)).trans ?_
    · simp
    · simp
    · simp

end MeshCreator

end DistributedMathArh
