import DistributedMathArh.MathCore.MeshText
import DistributedMathArh.MathCore.Reuse
import DistributedMathArh.MathCore.Symmetry

/-! `coordGenerate`: the mean of the direction graphs of many configurations, in one process and in
each of the modes of the program. -/

namespace DistributedMathArh

open Real MeshCreator
open RowMajor (grid)

inductive StateT
  | new | old | openmpNew | openmpOld | print

noncomputable def Square.view (m : Square) (k : Nat) : Matrix (Index k) (Index k) ℝ :=
  Matrix.of fun x y => if h : x.1 < m.1 ∧ y.1 < m.1 then
    m.2 (⟨x.1, h.1⟩, x.2) (⟨y.1, h.2⟩, y.2) else 0

theorem Square.view_self {k : Nat} (m : Matrix (Index k) (Index k) ℝ) :
    Square.view ⟨k, m⟩ k = m := by
  ext x y
  simp [Square.view]

def Solution.view {n : Nat} (sol : Solution n) (k : Nat) : Solution k :=
  fun j => if h : j < 4 * n then sol ⟨j, h⟩ else 0

theorem Solution.view_self {n : Nat} (sol : Solution n) : sol.view n = sol := by
  funext j
  simp [Solution.view]

namespace DipolesObject

variable {n : Nat}

noncomputable def toDipoles (o : DipolesObject) : Dipoles o.n where
  m1 := o.m1.view o.n
  m2 := o.m2.view o.n
  f := Sum.elim (fun x => o.f.getD (x.1 * 2 + x.2) 0)
    fun x => o.f.getD (2 * o.n + (x.1 * 2 + x.2)) 0
  an := o.an

theorem getD_flatMap_pair (f : Index n → ℝ) (x : Index n) :
    ((List.finRange n).flatMap fun i => [f (i, 0), f (i, 1)]).getD (x.1 * 2 + x.2) 0 = f x := by
  obtain ⟨i, k⟩ := x
  have hi : (i : Nat) < (List.finRange n).length := by simp
  have hk : (k : Nat) < [(0 : Fin 2), 1].length := k.isLt
  have hgrid := RowMajor.getD_grid (fun (k : Fin 2) i => f (i, k)) hk hi 0
  refine hgrid.trans ?_
  fin_cases k <;> simp

theorem length_flatMap_pair (f : Index n → ℝ) :
    ((List.finRange n).flatMap fun i => [f (i, 0), f (i, 1)]).length = 2 * n := by
  simp [List.length_flatMap]
  omega

theorem getD_entries_inl (f : FullIndex n → ℝ) (x : Index n) :
    (entries f).getD (x.1 * 2 + x.2) 0 = f (.inl x) := by
  have hlen := length_flatMap_pair (f ∘ Sum.inl)
  refine (List.getD_append _ _ _ _ ?_).trans (getD_flatMap_pair (f ∘ Sum.inl) x)
  exact lt_of_lt_of_eq (by omega) hlen.symm

theorem getD_entries_inr (f : FullIndex n → ℝ) (x : Index n) :
    (entries f).getD (2 * n + (x.1 * 2 + x.2)) 0 = f (.inr x) := by
  have hlen := length_flatMap_pair (f ∘ Sum.inl)
  refine (List.getD_append_right _ _ _ _ (le_of_eq_of_le hlen (Nat.le_add_right _ _))).trans ?_
  rw [hlen, Nat.add_sub_cancel_left]
  exact getD_flatMap_pair (f ∘ Sum.inr) x

theorem toDipoles_ofDipoles (d : Dipoles n) : (ofDipoles d).toDipoles = d := by
  have hf : (ofDipoles d).toDipoles.f = d.f := by
    funext x
    cases x with
    | inl x => exact getD_entries_inl d.f x
    | inr x => exact getD_entries_inr d.f x
  have h1 : (ofDipoles d).toDipoles.m1 = d.m1 := Square.view_self d.m1
  have h2 : (ofDipoles d).toDipoles.m2 = d.m2 := Square.view_self d.m2
  exact (Dipoles.mk.injEq ..).mpr ⟨h1, h2, hf, rfl⟩

noncomputable def configure (o : DipolesObject) (xi : Coordinates n) : DipolesObject × Solution n :=
  let o := o.setNewCoordinates (.flat xi)
  (o, o.toDipoles.solution.view n)

theorem Reachable.configure_eq {o : DipolesObject} (ho : o.Reachable) (hn : 1 ≤ n) (xi : Coordinates n) :
    o.configure xi = (ofDipoles (.ofCoordinates xi), (Dipoles.ofCoordinates xi).solution) := by
  have hset : o.setNewCoordinates (.flat xi) = ofDipoles (.ofCoordinates xi) :=
    ((setNewCoordinates_eq_construct ho hn _).mpr (Container.count_eq (.flat xi))).trans
      (construct_eq _)
  have hsolution : (ofDipoles (.ofCoordinates xi)).toDipoles.solution.view n =
      (Dipoles.ofCoordinates xi).solution :=
    (Solution.view_self _).trans (congrArg Dipoles.solution (toDipoles_ofDipoles _))
  rw [← hsolution]
  exact congrArg (fun o => (o, o.toDipoles.solution.view n)) hset

end DipolesObject

namespace CoordGenerate

structure Copies where
  dipoles1 : DipolesObject
  mesh : MeshCreator ℝ

structure State (T : Type) where
  copies : T → Copies
  result : Valarray ℝ

variable {T : Type} [DecidableEq T] {n : Nat}

abbrev Filling (n : Nat) :=
  Coordinates n → Solution n → MeshCreator ℝ → Except Exn (MeshCreator ℝ)

noncomputable def fillNew : Filling n := fun xi sol mesh =>
  mesh.applyFunction (Dipoles.i2Function xi sol)

noncomputable def fillOld (integrate : (ℝ → ℝ) → ℝ → ℝ → ℝ) : Filling n := fun xi sol mesh =>
  mesh.applyIntegrate integrate (Dipoles.ifunction xi sol) 0 Dipoles.kRr

noncomputable def iterate (fill : Filling n) (coordinates : Nat → Coordinates n) (s : State T)
    (x : T × Nat) : Except Halt (State T) := do
  let (dipoles1, solution) := (s.copies x.1).dipoles1.configure (coordinates x.2)
  let mesh ← (fill (coordinates x.2) solution (s.copies x.1).mesh).mapError .exn
  let result ← Valarray.zipOp (· + ·) s.result (mesh.data 2)
  return ⟨Function.update s.copies x.1 ⟨dipoles1, mesh⟩, result⟩

noncomputable def parallelFor (fill : Filling n) (coordinates : Nat → Coordinates n)
    (copies : T → Copies) (result : Valarray ℝ) (order : List (T × Nat)) :
    Except Halt (State T) :=
  order.foldlM (iterate fill coordinates) ⟨copies, result⟩

noncomputable def sequentialFor (fill : Filling n) (coordinates : Nat → Coordinates n)
    (nsym : Nat) (start : Copies) (result : Valarray ℝ) : Except Halt (State Unit) :=
  parallelFor fill coordinates (fun _ => start) result ((List.range nsym).map (Prod.mk ()))

noncomputable def prepare (coordinates : Nat → Coordinates n) (nsym : Nat) : Except Halt Copies :=
  if nsym = 0 then .error (.fault .outOfBounds)
  else match (MeshCreator.init π).constructDefault with
    | (_, .error e) => .error (.exn e)
    | (mesh, .ok ()) => .ok ⟨.construct (.flat (coordinates 0)), mesh⟩

noncomputable def finish (nsym : Nat) (mesh : MeshCreator ℝ) (result : Valarray ℝ) :
    MeshCreator ℝ := mesh.setData (result.map (· / nsym))

/-- The program, once the configurations are drawn.  `firstprivate` copies the objects to each
thread; `private` has each thread construct its own, with `unset` for what its constructor leaves
open. -/
noncomputable def run (integrate : (ℝ → ℝ) → ℝ → ℝ → ℝ) (unset : T → Nat) (state : StateT)
    (coordinates : Nat → Coordinates n) (nsym : Nat) (order : List (T × Nat)) :
    Except Halt (MeshCreator ℝ) := do
  let start ← prepare coordinates nsym
  let result := start.mesh.data 2
  match state with
  | .openmpNew =>
    let s ← parallelFor fillNew coordinates (fun _ => start) result order
    return finish nsym start.mesh s.result
  | .openmpOld =>
    let s ← parallelFor (fillOld integrate) coordinates
      (fun t => ⟨.default (unset t), MeshCreator.init π⟩) result order
    return finish nsym start.mesh s.result
  | .new | .print =>
    let s ← sequentialFor fillNew coordinates nsym start result
    return finish nsym (s.copies ()).mesh s.result
  | .old =>
    let s ← sequentialFor (fillOld integrate) coordinates nsym start result
    return finish nsym (s.copies ()).mesh s.result

def Covers (order : List (T × Nat)) (nsym : Nat) : Prop :=
  (order.map Prod.snd).Perm (List.range nsym)

def Tabulates (fill : Filling n) (graph : Coordinates n → DirectionGraph ℝ) : Prop :=
  ∀ xi mesh, fill xi (Dipoles.ofCoordinates xi).solution mesh = mesh.applyFunction (graph xi)

structure Ready (mesh₀ : MeshCreator ℝ) (c : Copies) : Prop where
  reachable : c.dipoles1.Reachable
  mesh : ∃ v, c.mesh = mesh₀.setData v

section Loop

variable {fill : Filling n} {graph : Coordinates n → DirectionGraph ℝ} {mesh₀ : MeshCreator ℝ}
  {coordinates : Nat → Coordinates n}

theorem applyFunction_setData {K : Type} (ms : MeshCreator K) (v : Valarray K)
    (f : DirectionGraph K) (hne : ms.data 0 ≠ []) (hlen : (ms.data 0).length = (ms.data 1).length) :
    (ms.setData v).applyFunction f =
      .ok (ms.setData (List.zipWith f (ms.data 0) (ms.data 1))) := by
  have h₀ : Function.update ms.data 2 v 0 = ms.data 0 := Function.update_of_ne (by decide) ..
  have h₁ : Function.update ms.data 2 v 1 = ms.data 1 := Function.update_of_ne (by decide) ..
  have hne₁ : ms.data 1 ≠ [] := fun h => hne (List.length_eq_zero_iff.mp (by rw [hlen, h]; rfl))
  have hmesh : MeshStorage.computeFunction (ms.data 0) (ms.data 1) f =
      .ok (List.zipWith f (ms.data 0) (ms.data 1)) := by
    rw [MeshStorage.computeFunction, if_neg (not_or.mpr ⟨hne, hne₁⟩), if_neg (not_not.mpr hlen)]
  simp only [MeshCreator.applyFunction, MeshCreator.setData, h₀, h₁, hmesh, bind, Except.bind,
    pure, Except.pure, Function.update_idem]

theorem zipWith_zipWith {α β γ δ ε : Type} (op : γ → δ → ε) (f : α → β → γ) (g : α → β → δ)
    (a : List α) (b : List β) : List.zipWith op (List.zipWith f a b) (List.zipWith g a b) =
      List.zipWith (fun x y => op (f x y) (g x y)) a b := by
  induction a generalizing b with
  | nil => rfl
  | cons x a ih =>
    cases b with
    | nil => rfl
    | cons y b => simp only [List.zipWith_cons_cons, ih]

theorem iterate_eq (hn : 1 ≤ n) (hfill : Tabulates fill graph) (hne : mesh₀.data 0 ≠ [])
    (hlen : (mesh₀.data 0).length = (mesh₀.data 1).length) {s : State T}
    (hready : ∀ t, Ready mesh₀ (s.copies t)) {f : DirectionGraph ℝ}
    (hresult : s.result = List.zipWith f (mesh₀.data 0) (mesh₀.data 1)) (x : T × Nat) :
    ∃ s', iterate fill coordinates s x = .ok s' ∧ (∀ t, Ready mesh₀ (s'.copies t)) ∧
      s'.result = List.zipWith (fun a b => f a b + graph (coordinates x.2) a b)
        (mesh₀.data 0) (mesh₀.data 1) := by
  obtain ⟨t, i⟩ := x
  obtain ⟨v, hv⟩ := (hready t).mesh
  have hconf := (hready t).reachable.configure_eq hn (coordinates i)
  have hmesh := applyFunction_setData mesh₀ v (graph (coordinates i)) hne hlen
  have hadd : Valarray.zipOp (· + ·) s.result
      (List.zipWith (graph (coordinates i)) (mesh₀.data 0) (mesh₀.data 1)) =
      .ok (List.zipWith (fun a b => f a b + graph (coordinates i) a b)
        (mesh₀.data 0) (mesh₀.data 1)) := by
    rw [hresult, Valarray.zipOp_of_length (by simp), zipWith_zipWith]
  have hiterate : iterate fill coordinates s (t, i) = .ok ⟨Function.update s.copies t
      ⟨.ofDipoles (.ofCoordinates (coordinates i)), mesh₀.setData
        (List.zipWith (graph (coordinates i)) (mesh₀.data 0) (mesh₀.data 1))⟩,
      List.zipWith (fun a b => f a b + graph (coordinates i) a b)
        (mesh₀.data 0) (mesh₀.data 1)⟩ := by
    simp only [iterate, hconf, hv, bind, Except.bind]
    rw [hfill, hmesh]
    simp only [Except.mapError, MeshCreator.data_setData, hadd]
    rfl
  refine ⟨_, hiterate, fun t' => ?_, rfl⟩
  by_cases ht : t' = t
  · subst ht
    simp only [Function.update_self]
    refine ⟨?_, _, rfl⟩
    have hreach : (DipolesObject.construct (.flat (coordinates i))).Reachable :=
      .construct hn (.flat (coordinates i))
    rwa [DipolesObject.construct_eq] at hreach
  · simp only [Function.update_of_ne ht]
    exact hready t'

theorem parallelFor_eq (coordinates : Nat → Coordinates n) (hn : 1 ≤ n) (hfill : Tabulates fill graph) (hne : mesh₀.data 0 ≠ [])
    (hlen : (mesh₀.data 0).length = (mesh₀.data 1).length) {copies : T → Copies}
    (hready : ∀ t, Ready mesh₀ (copies t)) {f : DirectionGraph ℝ} {result : Valarray ℝ}
    (hresult : result = List.zipWith f (mesh₀.data 0) (mesh₀.data 1)) (order : List (T × Nat)) :
    ∃ s, parallelFor fill coordinates copies result order = .ok s ∧
      (∀ t, Ready mesh₀ (s.copies t)) ∧
      s.result = List.zipWith
        (fun a b => f a b + (order.map fun x => graph (coordinates x.2) a b).sum)
        (mesh₀.data 0) (mesh₀.data 1) := by
  induction order generalizing copies result f with
  | nil => exact ⟨_, rfl, hready, by simp [hresult]⟩
  | cons x order ih =>
    obtain ⟨s, hs, hready', hresult'⟩ :=
      iterate_eq (s := ⟨copies, result⟩) hn hfill hne hlen hready hresult x
    obtain ⟨s', hs', hready'', hresult''⟩ := ih hready' hresult'
    refine ⟨s', ?_, hready'', ?_⟩
    · rw [parallelFor, List.foldlM_cons, hs]
      exact hs'
    · rw [hresult'']
      simp only [List.map_cons, List.sum_cons, add_assoc]

end Loop

noncomputable def mean (graph : Coordinates n → DirectionGraph ℝ) (coordinates : Nat → Coordinates n)
    (nsym : Nat) : DirectionGraph ℝ :=
  fun phi theta => (∑ i ∈ Finset.range nsym, graph (coordinates i) phi theta) / nsym

noncomputable def graphNew (xi : Coordinates n) : DirectionGraph ℝ :=
  Dipoles.i2Function xi (Dipoles.ofCoordinates xi).solution

noncomputable def graphOld (integrate : (ℝ → ℝ) → ℝ → ℝ → ℝ) (xi : Coordinates n) :
    DirectionGraph ℝ :=
  fun phi theta => integrate
    (fun t => Dipoles.ifunction xi (Dipoles.ofCoordinates xi).solution theta phi t) 0 Dipoles.kRr

theorem tabulates_fillNew : Tabulates (fillNew (n := n)) graphNew := fun _ _ => rfl

theorem tabulates_fillOld (integrate : (ℝ → ℝ) → ℝ → ℝ → ℝ) :
    Tabulates (fillOld (n := n) integrate) (graphOld integrate) := fun _ _ => rfl

noncomputable def tabulated (f : DirectionGraph ℝ) : MeshCreator ℝ :=
  withGrids kDefaultDims (kDefaultLims π)
    (grid f (phis kDefaultDims (kDefaultLims π)) (thetas kDefaultDims (kDefaultLims π)))

theorem accepted_default : Accepted kDefaultDims (kDefaultLims π) where
  phi := by decide
  phi_ne := (mul_pos pi_pos two_pos).ne
  theta := by decide
  theta_ne := (div_pos pi_pos two_pos).ne

noncomputable def initial : MeshCreator ℝ := tabulated fun _ _ => 0

theorem grid_const {α β γ : Type} (c : γ) (xs : List α) (ys : List β) :
    grid (fun _ _ => c) xs ys = List.replicate (ys.length * xs.length) c := by
  rw [List.eq_replicate_iff, RowMajor.length_grid]
  refine ⟨rfl, fun z hz => ?_⟩
  obtain ⟨y, -, hz⟩ := List.mem_flatMap.mp hz
  obtain ⟨x, -, rfl⟩ := List.mem_map.mp hz
  rfl

theorem constructDefault_eq : (MeshCreator.init π).constructDefault = (initial, .ok ()) := by
  refine (MeshCreator.constructMeshes_eq accepted_default _).trans ?_
  rw [initial, tabulated, grid_const, thetas, phis, length_linspace, length_linspace]
  rfl

theorem prepare_eq (coordinates : Nat → Coordinates n) {nsym : Nat} (hnsym : nsym ≠ 0) :
    prepare coordinates nsym = .ok ⟨.construct (.flat (coordinates 0)), initial⟩ := by
  rw [prepare, if_neg hnsym, constructDefault_eq]

theorem ready_self {mesh₀ : MeshCreator ℝ} {o : DipolesObject} (ho : o.Reachable) :
    Ready mesh₀ ⟨o, mesh₀⟩ where
  reachable := ho
  mesh := ⟨mesh₀.data 2, by rw [MeshCreator.setData, Function.update_eq_self]⟩

theorem setData_setData (ms : MeshCreator ℝ) (v w : Valarray ℝ) :
    (ms.setData v).setData w = ms.setData w := by
  simp only [MeshCreator.setData, Function.update_idem]

theorem data_initial {mesh₀ : MeshCreator ℝ} (h₀ : (mesh₀.data 0).length = 175)
    (h₁ : (mesh₀.data 1).length = 175) :
    initial.data 2 = List.zipWith (fun _ _ => 0) (mesh₀.data 0) (mesh₀.data 1) := by
  have hinitial : initial.data 2 = List.replicate 175 0 := by
    refine (grid_const 0 _ _).trans ?_
    rw [thetas, phis, length_linspace, length_linspace]
    rfl
  rw [hinitial]
  refine (List.eq_replicate_iff.mpr ⟨by simp [h₀, h₁], fun x hx => ?_⟩).symm
  obtain ⟨i, hi, rfl⟩ := List.mem_iff_getElem.mp hx
  rw [List.getElem_zipWith]

theorem finish_parallelFor {fill : Filling n} {graph : Coordinates n → DirectionGraph ℝ}
    (hn : 1 ≤ n) (hfill : Tabulates fill graph) {mesh₀ : MeshCreator ℝ}
    (h₀ : (mesh₀.data 0).length = 175) (h₁ : (mesh₀.data 1).length = 175) {copies : T → Copies}
    (hready : ∀ t, Ready mesh₀ (copies t)) (coordinates : Nat → Coordinates n) {nsym : Nat}
    {order : List (T × Nat)} (horder : Covers order nsym) :
    ∃ s, parallelFor fill coordinates copies (initial.data 2) order = .ok s ∧
      (∀ t, Ready mesh₀ (s.copies t)) ∧ s.result.map (· / (nsym : ℝ)) =
        List.zipWith (mean graph coordinates nsym) (mesh₀.data 0) (mesh₀.data 1) := by
  obtain ⟨s, hs, hready', hresult⟩ := parallelFor_eq coordinates hn hfill
    (List.ne_nil_of_length_pos (by omega)) (h₀.trans h₁.symm) hready (data_initial h₀ h₁) order
  refine ⟨s, hs, hready', ?_⟩
  rw [hresult, List.map_zipWith]
  congr 1
  funext phi theta
  have hsum := (horder.map fun i => graph (coordinates i) phi theta).sum_eq
  rw [List.map_map] at hsum
  rw [zero_add, mean]
  exact congrArg (· / (nsym : ℝ)) hsum

section Grids

variable (f : DirectionGraph ℝ)

theorem length_initial : (initial.data 0).length = 175 ∧ (initial.data 1).length = 175 :=
  ⟨length_values _, length_values _⟩

theorem length_init :
    ((MeshCreator.init π).data 0).length = 175 ∧ ((MeshCreator.init π).data 1).length = 175 :=
  ⟨List.length_replicate, List.length_replicate⟩

theorem setData_initial :
    initial.setData (List.zipWith f (initial.data 0) (initial.data 1)) = tabulated f := by
  refine (setData_withGrids _ _).trans ?_
  exact congrArg _ (RowMajor.zipWith_grid f (fun x _ => x) (fun _ y => y) _ _)

theorem setData_init : initial.setData (List.zipWith f ((MeshCreator.init π).data 0)
    ((MeshCreator.init π).data 1)) = tabulated fun _ _ => f 0 0 := by
  refine (setData_withGrids _ _).trans ?_
  rw [tabulated, grid_const, thetas, phis, length_linspace, length_linspace]
  exact congrArg _ (List.zipWith_replicate' ..)

theorem tabulated_eq_iff (g : DirectionGraph ℝ) : tabulated f = tabulated g ↔
    ∀ phi ∈ phis kDefaultDims (kDefaultLims π), ∀ theta ∈ thetas kDefaultDims (kDefaultLims π),
      f phi theta = g phi theta := by
  constructor
  · intro h phi hphi theta htheta
    obtain ⟨i, hi, rfl⟩ := List.mem_iff_getElem.mp hphi
    obtain ⟨j, hj, rfl⟩ := List.mem_iff_getElem.mp htheta
    have hdata := congrFun (congrArg MeshCreator.data h) 2
    rw [← RowMajor.getD_grid f hi hj 0, ← RowMajor.getD_grid g hi hj 0]
    exact congrArg (fun v : Valarray ℝ => v.getD _ 0) hdata
  · intro h
    refine congrArg (withGrids _ _) (List.flatMap_congr fun theta htheta => ?_)
    exact List.map_congr_left fun phi hphi => h phi hphi theta htheta

end Grids

section Main

variable {integrate : (ℝ → ℝ) → ℝ → ℝ → ℝ} {unset : T → Nat} {coordinates : Nat → Coordinates n}
  {nsym : Nat} {order : List (T × Nat)}

theorem sequentialFor_eq {fill : Filling n} {graph : Coordinates n → DirectionGraph ℝ}
    (hn : 1 ≤ n) (hfill : Tabulates fill graph) (coordinates : Nat → Coordinates n) (nsym : Nat) :
    ∃ s, sequentialFor fill coordinates nsym ⟨.construct (.flat (coordinates 0)), initial⟩
        (initial.data 2) = .ok s ∧
      finish nsym (s.copies ()).mesh s.result = tabulated (mean graph coordinates nsym) := by
  have horder : Covers ((List.range nsym).map (Prod.mk ())) nsym := by
    rw [Covers, List.map_map]
    exact .of_eq (List.map_id _)
  obtain ⟨s, hs, hready, hresult⟩ := finish_parallelFor hn hfill length_initial.1 length_initial.2
    (fun _ : Unit => ready_self (.construct hn (.flat (coordinates 0)))) coordinates horder
  obtain ⟨v, hv⟩ := (hready ()).mesh
  refine ⟨s, hs, ?_⟩
  rw [finish, hv, setData_setData, hresult, setData_initial]

theorem run_sequential (hn : 1 ≤ n) (hnsym : nsym ≠ 0) :
    run integrate unset .new coordinates nsym order =
        .ok (tabulated (mean graphNew coordinates nsym)) ∧
      run integrate unset .print coordinates nsym order =
        .ok (tabulated (mean graphNew coordinates nsym)) := by
  obtain ⟨s, hs, hfinish⟩ := sequentialFor_eq hn tabulates_fillNew coordinates nsym
  simp only [run, prepare_eq coordinates hnsym, bind, Except.bind, hs, hfinish]
  exact ⟨rfl, rfl⟩

/-- `openmp_new` prints what `new` and `printImpl` print, on however many threads and whichever
iterations they take in whatever order: the mean of the direction graphs. -/
theorem run_new (hn : 1 ≤ n) (hnsym : nsym ≠ 0) (horder : Covers order nsym) :
    run integrate unset .openmpNew coordinates nsym order =
        .ok (tabulated (mean graphNew coordinates nsym)) ∧
      run integrate unset .new coordinates nsym order =
        .ok (tabulated (mean graphNew coordinates nsym)) ∧
      run integrate unset .print coordinates nsym order =
        .ok (tabulated (mean graphNew coordinates nsym)) := by
  refine ⟨?_, run_sequential hn hnsym⟩
  obtain ⟨s, hs, -, hresult⟩ := finish_parallelFor hn tabulates_fillNew length_initial.1
    length_initial.2 (fun _ => ready_self (.construct hn (.flat (coordinates 0)))) coordinates horder
  simp only [run, prepare_eq coordinates hnsym, bind, Except.bind, hs, finish, hresult,
    setData_initial]
  rfl

noncomputable def pairCoordinates (i : Nat) : Coordinates 1 := fun _ => i

theorem run_new_pair :
    run (fun f a b => ∫ t in a..b, f t) id .openmpNew pairCoordinates 2 [(1, 1), (0, 0)] =
        .ok (tabulated (mean graphNew pairCoordinates 2)) ∧
      run (fun f a b => ∫ t in a..b, f t) id .new pairCoordinates 2 [(1, 1), (0, 0)] =
        .ok (tabulated (mean graphNew pairCoordinates 2)) ∧
      run (fun f a b => ∫ t in a..b, f t) id .print pairCoordinates 2 [(1, 1), (0, 0)] =
        .ok (tabulated (mean graphNew pairCoordinates 2)) :=
  run_new le_rfl two_ne_zero (List.Perm.swap 0 1 [])

/-- `openmp_old` has each thread integrate over a mesh of its own whose angles are all zero: on
every schedule it prints one value, the mean at the angles zero, and agrees with `old` exactly if
that mean is the same in all directions of the mesh. -/
theorem run_old (hn : 1 ≤ n) (hnsym : nsym ≠ 0) (horder : Covers order nsym) :
    run integrate unset .old coordinates nsym order =
        .ok (tabulated (mean (graphOld integrate) coordinates nsym)) ∧
      run integrate unset .openmpOld coordinates nsym order =
        .ok (tabulated fun _ _ => mean (graphOld integrate) coordinates nsym 0 0) ∧
      (run integrate unset .openmpOld coordinates nsym order =
          run integrate unset .old coordinates nsym order ↔
        ∀ phi ∈ phis kDefaultDims (kDefaultLims π), ∀ theta ∈ thetas kDefaultDims (kDefaultLims π),
          mean (graphOld integrate) coordinates nsym 0 0 =
            mean (graphOld integrate) coordinates nsym phi theta) := by
  have hold : run integrate unset .old coordinates nsym order =
      .ok (tabulated (mean (graphOld integrate) coordinates nsym)) := by
    obtain ⟨s, hs, hfinish⟩ := sequentialFor_eq hn (tabulates_fillOld integrate) coordinates nsym
    simp only [run, prepare_eq coordinates hnsym, bind, Except.bind, hs, hfinish]
    rfl
  have hopenmp : run integrate unset .openmpOld coordinates nsym order =
      .ok (tabulated fun _ _ => mean (graphOld integrate) coordinates nsym 0 0) := by
    obtain ⟨s, hs, -, hresult⟩ := finish_parallelFor hn (tabulates_fillOld integrate) length_init.1
      length_init.2 (fun t => ready_self (.default (unset t))) coordinates horder
    simp only [run, prepare_eq coordinates hnsym, bind, Except.bind, hs, finish, hresult,
      setData_init]
    rfl
  refine ⟨hold, hopenmp, ?_⟩
  rw [hold, hopenmp, Except.ok.injEq, tabulated_eq_iff]

theorem run_old_pair :
    run (fun f a b => ∫ t in a..b, f t) id .old pairCoordinates 2 [(1, 1), (0, 0)] =
        .ok (tabulated (mean (graphOld fun f a b => ∫ t in a..b, f t) pairCoordinates 2)) ∧
      run (fun f a b => ∫ t in a..b, f t) id .openmpOld pairCoordinates 2 [(1, 1), (0, 0)] =
        .ok (tabulated fun _ _ =>
          mean (graphOld fun f a b => ∫ t in a..b, f t) pairCoordinates 2 0 0) ∧
      (run (fun f a b => ∫ t in a..b, f t) id .openmpOld pairCoordinates 2 [(1, 1), (0, 0)] =
          run (fun f a b => ∫ t in a..b, f t) id .old pairCoordinates 2 [(1, 1), (0, 0)] ↔
        ∀ phi ∈ phis kDefaultDims (kDefaultLims π), ∀ theta ∈ thetas kDefaultDims (kDefaultLims π),
          mean (graphOld fun f a b => ∫ t in a..b, f t) pairCoordinates 2 0 0 =
            mean (graphOld fun f a b => ∫ t in a..b, f t) pairCoordinates 2 phi theta) :=
  run_old le_rfl two_ne_zero (List.Perm.swap 0 1 [])

end Main

end CoordGenerate

end DistributedMathArh
