import DistributedMathArh.MathCore.MeshText

namespace DistributedMathArh

open PrintUtils
open RowMajor (grid)

namespace MeshStorage

variable {K : Type} [Field K] [DecidableEq K]

/-- What `MyLinspace` divides by. -/
def linspaceDivisor (n : Nat) : K := (n - 1 : Nat)

def linspaceLoop (lower upper : K) (n : Nat) : Except Halt (Valarray K) := do
  let points ← (myLinspace lower upper n).mapError .exn
  (intLoop n points).mapError .fault

def unflatten (mm : Valarray K) (dims : DimType) : Except Fault (List (List K)) :=
  if mm.length < dims.1 * dims.2 then .error .outOfBounds
  else .ok ((List.range dims.1).map fun i =>
    (List.range dims.2).map fun j => mm.getD (i * dims.2 + j) 0)

theorem linspaceLoop_of_ne {lower upper : K} {n : Nat} (hn : n ≠ 0) (h : lower ≠ upper) :
    linspaceLoop lower upper n =
      if kIntMax < n then .error (.fault .signedOverflow)
      else .ok ((List.range n).map fun i : Nat =>
        (i : K) * ((upper - lower) / linspaceDivisor n) + lower) := by
  rw [linspaceLoop, myLinspace_of_ne hn h]
  change (intLoop n _).mapError Halt.fault = _
  rw [intLoop]
  split <;> rfl

theorem linspaceLoop_of_refused {lower upper : K} {n : Nat} (h : n = 0 ∨ lower = upper) :
    linspaceLoop lower upper n = .error (.exn (.invalidArgument "Zero linspace size")) := by
  rw [linspaceLoop, myLinspace_of_refused h]
  rfl

omit [DecidableEq K] in
theorem unflatten_grid (f : K → K → K) (xs ys : List K) :
    unflatten (grid f xs ys) (ys.length, xs.length) =
      .ok (ys.map fun y => xs.map fun x => f x y) := by
  rw [unflatten, if_neg (by simp)]
  apply congrArg Except.ok
  apply List.ext_getElem
  · simp
  · intro i hi _
    have hy : i < ys.length := by simpa using hi
    rw [List.getElem_map, List.getElem_map, List.getElem_range]
    apply List.ext_getElem
    · simp
    · intro j hj _
      have hx : j < xs.length := by simpa using hj
      simp only [List.getElem_map, List.getElem_range, RowMajor.getD_grid f hx hy]

end MeshStorage

namespace MeshCreator

section Build

variable {K : Type} [Field K] [DecidableEq K]

def gridLoops (dims : DimType) (lims : LimType K) : Except Halt (Valarray K × Valarray K) := do
  let phi ← MeshStorage.linspaceLoop lims.phiLower lims.phiUpper dims.2
  let theta ← MeshStorage.linspaceLoop lims.thetaLower lims.thetaUpper dims.1
  return MeshStorage.myMeshGrid phi theta

/-- `ConstructMeshes` with the counters of its loops. -/
def buildMeshes (ms : MeshCreator K) (dims : DimType) (lims : LimType K) :
    MeshCreator K × Except Halt Unit :=
  let ms := { ms with dimensions := dims, limits := lims }
  match gridLoops dims lims with
  | .error h => (ms, .error h)
  | .ok rrr => ({ ms with data := ![rrr.1, rrr.2, ms.data 2] }, .ok ())

variable {dims : DimType} {lims : LimType K} {ms ms₁ : MeshCreator K}

theorem linspaceLoop_eq {lower upper : K} {n : Nat} (hn : n ≤ kIntMax) :
    MeshStorage.linspaceLoop lower upper n =
      (MeshStorage.myLinspace lower upper n).mapError .exn := by
  rw [MeshStorage.linspaceLoop]
  cases MeshStorage.myLinspace lower upper n with
  | error e => rfl
  | ok points => exact congrArg (Except.mapError Halt.fault) (if_neg hn.not_gt)

theorem buildMeshes_eq (hphi : dims.2 ≤ kIntMax) (htheta : dims.1 ≤ kIntMax)
    (ms : MeshCreator K) (lims : LimType K) :
    ms.buildMeshes dims lims =
      (ms.constructMeshes dims lims).map id (Except.mapError Halt.exn) := by
  have hloops : gridLoops dims lims = (grids dims lims).mapError .exn := by
    rw [gridLoops, grids, linspaceLoop_eq hphi, linspaceLoop_eq htheta]
    cases MeshStorage.myLinspace lims.phiLower lims.phiUpper dims.2 with
    | error e => rfl
    | ok phi => cases MeshStorage.myLinspace lims.thetaLower lims.thetaUpper dims.1 <;> rfl
  rw [buildMeshes, constructMeshes, hloops]
  cases grids dims lims <;> rfl

theorem buildMeshes_of_accepted (h : Accepted dims lims) (hphi : dims.2 ≤ kIntMax)
    (htheta : dims.1 ≤ kIntMax) (ms : MeshCreator K) :
    ms.buildMeshes dims lims = (withGrids dims lims (ms.data 2), .ok ()) := by
  rw [buildMeshes_eq hphi htheta, constructMeshes_eq h]
  rfl

theorem buildMeshes_eq_error {e : Halt} (h : ms.buildMeshes dims lims = (ms₁, .error e)) :
    ms₁ = { ms with dimensions := dims, limits := lims } := by
  simp only [buildMeshes] at h
  split at h
  · cases h
    rfl
  · cases h

theorem gridLoops_eq_ok {rrr : Valarray K × Valarray K} (h : gridLoops dims lims = .ok rrr) :
    Accepted dims lims ∧ dims.2 ≤ kIntMax ∧ dims.1 ≤ kIntMax := by
  have haxis : ∀ {lower upper : K} {n : Nat} {points : Valarray K},
      MeshStorage.linspaceLoop lower upper n = .ok points →
        (n ≠ 0 ∧ lower ≠ upper) ∧ n ≤ kIntMax := by
    intro lower upper n points hloop
    by_cases href : n = 0 ∨ lower = upper
    · cases hloop.symm.trans (MeshStorage.linspaceLoop_of_refused href)
    · rw [not_or] at href
      rw [MeshStorage.linspaceLoop_of_ne href.1 href.2] at hloop
      split at hloop
      · cases hloop
      · rename_i hn
        exact ⟨href, not_lt.mp hn⟩
  obtain ⟨phi, hphi, h⟩ := bind_eq_ok.mp h
  obtain ⟨theta, htheta, -⟩ := bind_eq_ok.mp h
  obtain ⟨hp, hpn⟩ := haxis hphi
  obtain ⟨ht, htn⟩ := haxis htheta
  exact ⟨accepted_iff.mpr ⟨hp, ht⟩, hpn, htn⟩

theorem buildMeshes_eq_ok (h : ms.buildMeshes dims lims = (ms₁, .ok ())) :
    Accepted dims lims ∧ dims.2 ≤ kIntMax ∧ dims.1 ≤ kIntMax ∧
      ms₁ = withGrids dims lims (ms.data 2) := by
  cases hloops : gridLoops dims lims with
  | error e =>
    simp only [buildMeshes, hloops] at h
    cases h
  | ok rrr =>
    obtain ⟨hacc, hphi, htheta⟩ := gridLoops_eq_ok hloops
    rw [buildMeshes_of_accepted hacc hphi htheta] at h
    cases h
    exact ⟨hacc, hphi, htheta, rfl⟩

theorem gridLoops_of_accepted (h : Accepted dims lims) :
    gridLoops dims lims = .error (.fault .signedOverflow) ∨
      ∃ rrr, gridLoops dims lims = .ok rrr := by
  rw [gridLoops, MeshStorage.linspaceLoop_of_ne h.phi h.phi_ne,
    MeshStorage.linspaceLoop_of_ne h.theta h.theta_ne]
  split
  · exact .inl rfl
  · split
    · exact .inl rfl
    · exact .inr ⟨_, rfl⟩

theorem refused_of_throw {e : Exn} (h : ms.buildMeshes dims lims = (ms₁, .error (.exn e))) :
    ¬ Accepted dims lims := by
  intro hacc
  rcases gridLoops_of_accepted hacc with hloops | ⟨rrr, hloops⟩
  · simp [buildMeshes, hloops] at h
  · simp [buildMeshes, hloops] at h

end Build

section Points

variable {K : Type} [Field K]

def point (lower upper : K) (n j : Nat) : K := lower + j * (upper - lower) / ((n : K) - 1)

theorem cast_pred {n : Nat} (hn : n ≠ 0) : ((n - 1 : Nat) : K) = (n : K) - 1 := by
  rw [Nat.cast_sub (Nat.one_le_iff_ne_zero.mpr hn), Nat.cast_one]

theorem linspace_eq_map_point (lower upper : K) {n : Nat} (hn : n ≠ 0) :
    linspace lower upper n = (List.range n).map (point lower upper n) := by
  apply List.map_congr_left
  intro j _
  rw [point, cast_pred hn, mul_div_assoc, add_comm]

variable {dims : DimType} {lims : LimType K}

theorem phis_eq (h : Accepted dims lims) :
    phis dims lims = (List.range dims.2).map (point lims.phiLower lims.phiUpper dims.2) :=
  linspace_eq_map_point _ _ h.phi

theorem thetas_eq (h : Accepted dims lims) :
    thetas dims lims = (List.range dims.1).map (point lims.thetaLower lims.thetaUpper dims.1) :=
  linspace_eq_map_point _ _ h.theta

theorem getElem?_grid_points (h : Accepted dims lims) (f : DirectionGraph K) {i j : Nat}
    (hi : i < dims.1) (hj : j < dims.2) :
    (grid f (phis dims lims) (thetas dims lims))[i * dims.2 + j]? =
      some (f (point lims.phiLower lims.phiUpper dims.2 j)
        (point lims.thetaLower lims.thetaUpper dims.1 i)) := by
  have hlt : j < ((List.range dims.2).map (point lims.phiLower lims.phiUpper dims.2)).length := by
    simpa using hj
  have hget := RowMajor.getElem?_grid f (thetas dims lims) i hlt
  rw [List.length_map, List.length_range] at hget
  rw [phis_eq h, hget, thetas_eq h]
  simp [hi]

theorem unflatten_grid_points (h : Accepted dims lims) (f : DirectionGraph K) :
    MeshStorage.unflatten (grid f (phis dims lims) (thetas dims lims)) dims =
      .ok ((List.range dims.1).map fun i => (List.range dims.2).map fun j =>
        f (point lims.phiLower lims.phiUpper dims.2 j)
          (point lims.thetaLower lims.thetaUpper dims.1 i)) := by
  have htable := MeshStorage.unflatten_grid f (phis dims lims) (thetas dims lims)
  rw [phis, thetas, length_linspace, length_linspace] at htable
  refine htable.trans ?_
  rw [← phis, ← thetas, thetas_eq h, phis_eq h, List.map_map]
  simp only [List.map_map, Function.comp_def]

end Points

section Tabulates

variable {K : Type} [Field K] [LinearOrder K] [IsStrictOrderedRing K]

structure Spans (lower upper : K) (n : Nat) : Prop where
  mem : ∀ j < n, point lower upper n j ∈ Set.uIcc lower upper
  first : point lower upper n 0 = lower
  last : point lower upper n (n - 1) = upper

structure Tabulates (dims : DimType) (lims : LimType K) (func : DirectionGraph K)
    (m : MeshCreator K) : Prop where
  divisors : MeshStorage.linspaceDivisor dims.2 ≠ (0 : K) ∧
    MeshStorage.linspaceDivisor dims.1 ≠ (0 : K)
  phi : Spans lims.phiLower lims.phiUpper dims.2
  theta : Spans lims.thetaLower lims.thetaUpper dims.1
  coordinates : ∀ i < dims.1, ∀ j < dims.2,
    (m.data 0)[i * dims.2 + j]? = some (point lims.phiLower lims.phiUpper dims.2 j) ∧
    (m.data 1)[i * dims.2 + j]? = some (point lims.thetaLower lims.thetaUpper dims.1 i)
  table : MeshStorage.unflatten (m.data 2) dims = .ok ((List.range dims.1).map fun i =>
    (List.range dims.2).map fun j => func (point lims.phiLower lims.phiUpper dims.2 j)
      (point lims.thetaLower lims.thetaUpper dims.1 i))

theorem linspaceDivisor_eq_zero_iff {n : Nat} (hn : n ≠ 0) :
    MeshStorage.linspaceDivisor n = (0 : K) ↔ n = 1 := by
  rw [MeshStorage.linspaceDivisor, Nat.cast_eq_zero]
  omega

theorem add_mul_mem_uIcc (lower upper : K) {t : K} (h₀ : 0 ≤ t) (h₁ : t ≤ 1) :
    lower + t * (upper - lower) ∈ Set.uIcc lower upper := by
  rw [Set.mem_uIcc]
  cases le_total lower upper with
  | inl h =>
    have hlen := sub_nonneg.mpr h
    left
    constructor
    · exact le_add_of_nonneg_right (mul_nonneg h₀ hlen)
    · linarith [mul_le_of_le_one_left hlen h₁]
  | inr h =>
    have hlen := sub_nonneg.mpr h
    right
    constructor
    · linarith [mul_le_of_le_one_left hlen h₁]
    · linarith [mul_nonneg h₀ hlen]

theorem spans_of_two_le (lower upper : K) {n : Nat} (hn : 2 ≤ n) : Spans lower upper n where
  mem j hj := by
    have hpos : 0 < (n : K) - 1 := sub_pos.mpr (Nat.one_lt_cast.mpr hn)
    have hle : (j : K) ≤ (n : K) - 1 := by
      rw [← cast_pred (Nat.ne_of_gt (lt_of_lt_of_le Nat.zero_lt_two hn)), Nat.cast_le]
      exact Nat.le_sub_one_of_lt hj
    rw [point, mul_div_right_comm]
    exact add_mul_mem_uIcc lower upper (div_nonneg (Nat.cast_nonneg j) hpos.le)
      ((div_le_one hpos).mpr hle)
  first := by simp [point]
  last := by
    have hpos : 0 < (n : K) - 1 := sub_pos.mpr (Nat.one_lt_cast.mpr hn)
    rw [point, cast_pred (Nat.ne_of_gt (lt_of_lt_of_le Nat.zero_lt_two hn)),
      mul_div_cancel_left₀ _ hpos.ne', add_sub_cancel]

theorem tabulates_withGrids {dims : DimType} {lims : LimType K} (h : Accepted dims lims)
    (hphi : dims.2 ≠ 1) (htheta : dims.1 ≠ 1) (func : DirectionGraph K) :
    Tabulates dims lims func
      (withGrids dims lims (grid func (phis dims lims) (thetas dims lims))) where
  divisors := ⟨mt (linspaceDivisor_eq_zero_iff h.phi).mp hphi,
    mt (linspaceDivisor_eq_zero_iff h.theta).mp htheta⟩
  phi := spans_of_two_le _ _ (by have := h.phi; omega)
  theta := spans_of_two_le _ _ (by have := h.theta; omega)
  coordinates i hi j hj :=
    ⟨getElem?_grid_points h (fun x _ => x) hi hj, getElem?_grid_points h (fun _ y => y) hi hj⟩
  table := unflatten_grid_points h func

theorem Tabulates.ne_one {dims : DimType} {lims : LimType K} (h : Accepted dims lims)
    {func : DirectionGraph K} {m : MeshCreator K} (hm : Tabulates dims lims func m) :
    dims.1 ≠ 1 ∧ dims.2 ≠ 1 :=
  ⟨fun e => hm.divisors.2 ((linspaceDivisor_eq_zero_iff h.theta).mpr e),
    fun e => hm.divisors.1 ((linspaceDivisor_eq_zero_iff h.phi).mpr e)⟩

/-- A call that returns and a function that is applied give the table of the function, except that
a single point on an axis is computed with a division by zero. -/
theorem tabulates_iff {dims : DimType} {lims : LimType K} {ms ms₁ : MeshCreator K}
    (h : ms.buildMeshes dims lims = (ms₁, .ok ())) (func : DirectionGraph K) :
    (∃ m, ms₁.applyFunction func = .ok m ∧ Tabulates dims lims func m) ↔
      dims.1 ≠ 1 ∧ dims.2 ≠ 1 := by
  obtain ⟨hacc, -, -, rfl⟩ := buildMeshes_eq_ok h
  constructor
  · rintro ⟨m, -, hm⟩
    exact hm.ne_one hacc
  · rintro ⟨htheta, hphi⟩
    exact ⟨_, applyFunction_eq hacc ms func, tabulates_withGrids hacc hphi htheta func⟩

theorem unitLims_accepted {dims : DimType} (htheta : dims.1 ≠ 0) (hphi : dims.2 ≠ 0) :
    Accepted dims unitLims := ⟨hphi, zero_ne_one, htheta, zero_ne_one⟩

theorem tabulates_iff_small : ∃ m : MeshCreator ℚ,
    (withGrids (2, 3) unitLims ((init 3).data 2)).applyFunction (fun x y => x + y) = .ok m ∧
      Tabulates (2, 3) unitLims (fun x y => x + y) m :=
  (tabulates_iff (buildMeshes_of_accepted (unitLims_accepted two_ne_zero three_ne_zero)
    (by decide) (by decide) (init 3)) _).mpr ⟨by decide, by decide⟩

theorem not_tabulates : ∃ ms₁ : MeshCreator ℚ,
    (init 3).buildMeshes (1, 3) unitLims = (ms₁, .ok ()) ∧
      ¬ ∃ m, ms₁.applyFunction (fun x y => x + y) = .ok m ∧
        Tabulates (1, 3) unitLims (fun x y => x + y) m := by
  have hacc : Accepted (1, 3) unitLims := unitLims_accepted one_ne_zero three_ne_zero
  refine ⟨_, buildMeshes_of_accepted hacc (by decide) (by decide) _, ?_⟩
  rintro ⟨m, -, hm⟩
  exact (hm.ne_one hacc).1 rfl

end Tabulates

end MeshCreator

end DistributedMathArh
