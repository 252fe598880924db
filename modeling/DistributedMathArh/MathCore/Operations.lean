import DistributedMathArh.Lib.Transition
import DistributedMathArh.MathCore.Tabulation

namespace DistributedMathArh.MeshCreator

open PrintUtils Transition

inductive Operation (K : Type)
  | constructMeshes (dims : DimType) (lims : LimType K)
  | applyFunction (func : DirectionGraph K)

section Step

variable {K : Type} [Field K] [DecidableEq K]

def step (ms : MeshCreator K) : Operation K → MeshCreator K × Except Halt Unit
  | .constructMeshes dims lims => ms.buildMeshes dims lims
  | .applyFunction func =>
    match ms.applyFunction func with
    | .error e => (ms, .error (.exn e))
    | .ok m => (m, .ok ())

def Step (ms : MeshCreator K) (op : Operation K) (ms' : MeshCreator K) : Prop :=
  ∃ r, Halt.alive r = true ∧ ms.step op = (ms', r)

end Step

def Sized {K : Type} (ms : MeshCreator K) : Prop :=
  ∀ k, (ms.data k).length = ms.dimensions.1 * ms.dimensions.2

/-- The sizes as the operations ask for them: those of the coordinates, those that the values were
computed for, and whether every call since the last change of the coordinates has returned. -/
structure Shape where
  grid : DimType
  mesh : DimType
  current : Bool
  deriving DecidableEq

namespace Shape

variable {K : Type} [DecidableEq K]

def init : Shape := ⟨kDefaultDims, kDefaultDims, true⟩

def after (s : Shape) : Operation K → Shape
  | .constructMeshes dims lims =>
    if Accepted dims lims then { s with grid := dims, current := true }
    else { s with current := false }
  | .applyFunction _ => { s with mesh := s.grid }

def ofRun (ops : List (Operation K)) : Shape := ops.foldl after init

theorem ofRun_snoc (ops : List (Operation K)) (op : Operation K) :
    ofRun (ops ++ [op]) = (ofRun ops).after op := by
  rw [ofRun, List.foldl_append]
  rfl

end Shape

structure Shaped {K : Type} (s : Shape) (ms : MeshCreator K) : Prop where
  theta : s.grid.1 ≠ 0
  phi : s.grid.2 ≠ 0
  first : (ms.data 0).length = s.grid.1 * s.grid.2
  second : (ms.data 1).length = s.grid.1 * s.grid.2
  values : (ms.data 2).length = s.mesh.1 * s.mesh.2
  dimensions : s.current = true → ms.dimensions = s.grid

section Shaped

variable {K : Type} {s : Shape} {ms : MeshCreator K}

theorem Shaped.computeFunction (h : Shaped s ms) (func : DirectionGraph K) :
    MeshStorage.computeFunction (ms.data 0) (ms.data 1) func =
      .ok (List.zipWith func (ms.data 0) (ms.data 1)) := by
  have hpos : 0 < s.grid.1 * s.grid.2 :=
    Nat.mul_pos (Nat.pos_of_ne_zero h.theta) (Nat.pos_of_ne_zero h.phi)
  have hne : ¬ (ms.data 0 = [] ∨ ms.data 1 = []) := by
    rintro (e | e)
    · simp [← h.first, e] at hpos
    · simp [← h.second, e] at hpos
  rw [MeshStorage.computeFunction, if_neg hne, if_neg (not_not.mpr (h.first.trans h.second.symm))]

theorem Shaped.applyFunction (h : Shaped s ms) (func : DirectionGraph K) :
    ms.applyFunction func = .ok (ms.setData (List.zipWith func (ms.data 0) (ms.data 1))) := by
  rw [MeshCreator.applyFunction, h.computeFunction]
  rfl

theorem Shaped.sized (h : Shaped s ms) (hcurrent : s.current = true)
    (hmesh : s.mesh.1 * s.mesh.2 = s.grid.1 * s.grid.2) : Sized ms := by
  intro k
  rw [h.dimensions hcurrent]
  refine Fin.cases h.first (fun k => Fin.cases h.second (fun k => Fin.cases ?_ (fun k => ?_) k) k) k
  · exact h.values.trans hmesh
  · exact k.elim0

theorem printDec_of_sized [Zero K] (h : Sized ms) (htheta : ms.dimensions.1 ≠ 0)
    (hphi : ms.dimensions.2 ≠ 0) (t : Numbers K) : ∃ text, ms.printDec t = .ok text := by
  have hpos := Nat.pos_of_ne_zero hphi
  obtain ⟨n, hn⟩ := Nat.exists_eq_succ_of_ne_zero htheta
  simp only [printDec, h 0, h 1, h 2, hn, Nat.succ_sub_one, Nat.succ_mul]
  rw [if_neg]
  · exact ⟨_, rfl⟩
  · have := Nat.zero_le (n * ms.dimensions.2)
    omega

end Shaped

section Run

variable {K : Type} [Field K] [DecidableEq K] {s : Shape} {ms ms' : MeshCreator K}

omit [DecidableEq K] in
theorem shaped_init (pi : K) : Shaped .init (init pi) where
  theta := by decide
  phi := by decide
  first := List.length_replicate
  second := List.length_replicate
  values := List.length_replicate
  dimensions _ := rfl

theorem shaped_constructMeshes (h : Shaped s ms) {dims : DimType} {lims : LimType K}
    {r : Except Halt Unit} (hr : Halt.alive r = true) (hms : ms.buildMeshes dims lims = (ms', r)) :
    Shaped (s.after (.constructMeshes dims lims)) ms' := by
  rw [Shape.after]
  cases r with
  | ok _ =>
    obtain ⟨hacc, -, -, rfl⟩ := buildMeshes_eq_ok hms
    rw [if_pos hacc]
    exact ⟨hacc.theta, hacc.phi, length_values _, length_values _, h.values, fun _ => rfl⟩
  | error e =>
    cases e with
    | exn e =>
      rw [if_neg (refused_of_throw hms), buildMeshes_eq_error hms]
      exact ⟨h.theta, h.phi, h.first, h.second, h.values, fun e => absurd e Bool.false_ne_true⟩
    | fault f => cases hr

theorem shaped_applyFunction (h : Shaped s ms) {func : DirectionGraph K} {r : Except Halt Unit}
    (hms : ms.step (.applyFunction func) = (ms', r)) :
    Shaped (s.after (.applyFunction func)) ms' := by
  rw [step, h.applyFunction] at hms
  cases hms
  refine ⟨h.theta, h.phi, h.first, h.second, ?_, h.dimensions⟩
  rw [data_setData, List.length_zipWith, h.first, h.second, Nat.min_self]
  rfl

theorem shaped_step (h : Shaped s ms) {op : Operation K} (hstep : Step ms op ms') :
    Shaped (s.after op) ms' := by
  obtain ⟨r, hr, hms⟩ := hstep
  cases op with
  | constructMeshes dims lims => exact shaped_constructMeshes h hr hms
  | applyFunction func => exact shaped_applyFunction h hms

theorem shaped_of_run {pi : K} {ops : List (Operation K)} (run : Run Step (init pi) ops ms) :
    Shaped (Shape.ofRun ops) ms := by
  induction run with
  | nil => exact shaped_init pi
  | snoc _ hstep ih =>
    rw [Shape.ofRun_snoc]
    exact shaped_step ih hstep

/-- In every run the coordinates have the size that the last accepted call asked for, and the values
the size of the coordinates they were computed from.  After `ApplyFunction` the three arrays agree,
and with the dimensions unless a call was refused; a refused call leaves the arrays alone. -/
theorem sizes_of_run {pi : K} {ops : List (Operation K)} (run : Run Step (init pi) ops ms) :
    Shaped (Shape.ofRun ops) ms ∧
    ((Shape.ofRun ops).current = true →
      (Shape.ofRun ops).mesh.1 * (Shape.ofRun ops).mesh.2 =
        (Shape.ofRun ops).grid.1 * (Shape.ofRun ops).grid.2 →
      Sized ms ∧ ∀ t : Numbers K, ∃ text, ms.printDec t = .ok text) ∧
    ∀ dims lims e m, ms.buildMeshes dims lims = (m, .error e) → m.data = ms.data := by
  have h := shaped_of_run run
  refine ⟨h, fun hcurrent hmesh => ?_, fun dims lims e m herror => ?_⟩
  · have hsized := h.sized hcurrent hmesh
    have hdims := h.dimensions hcurrent
    exact ⟨hsized, printDec_of_sized hsized (hdims ▸ h.theta) (hdims ▸ h.phi)⟩
  · rw [buildMeshes_eq_error herror]

end Run

theorem sizes_of_run_small : ∃ m : MeshCreator ℚ,
    Run Step (init 3) [.constructMeshes (2, 3) unitLims, .applyFunction fun x y => x + y] m ∧
      Sized m ∧ ∃ text, m.printDec rationalNumbers = .ok text := by
  have hacc : Accepted (2, 3) unitLims := unitLims_accepted two_ne_zero three_ne_zero
  have hbuild := buildMeshes_of_accepted hacc (by decide) (by decide) (init 3)
  have happly := applyFunction_eq hacc (init 3) fun x y => x + y
  have run : Run Step (init 3) [.constructMeshes (2, 3) unitLims, .applyFunction fun x y => x + y]
      (withGrids (2, 3) unitLims (RowMajor.grid (fun x y => x + y) (phis (2, 3) unitLims)
        (thetas (2, 3) unitLims))) := by
    apply Run.pair
    · exact ⟨.ok (), rfl, hbuild⟩
    · refine ⟨.ok (), rfl, ?_⟩
      rw [step, happly]
  obtain ⟨-, hsized, -⟩ := sizes_of_run run
  obtain ⟨h, hprint⟩ := hsized (by decide) (by decide)
  exact ⟨_, run, h, hprint rationalNumbers⟩

theorem not_sized : (∃ ms : MeshCreator ℚ,
      Run Step (init 3) [.constructMeshes (2, 3) unitLims] ms ∧ ¬ Sized ms) ∧
    ∃ (ms : MeshCreator ℚ) (e : Exn),
      (init 3).buildMeshes (3, 0) unitLims = (ms, .error (.exn e)) ∧ ms ≠ init 3 := by
  have hacc : Accepted (2, 3) unitLims := unitLims_accepted two_ne_zero three_ne_zero
  have hbuild := buildMeshes_of_accepted hacc (by decide) (by decide) (init 3)
  constructor
  · refine ⟨_, .single ⟨.ok (), rfl, hbuild⟩, ?_⟩
    intro h
    have hvalues : (List.replicate (7 * 25) (0 : ℚ)).length = 2 * 3 := h 2
    rw [List.length_replicate] at hvalues
    exact absurd hvalues (by decide)
  · have hloops : gridLoops (3, 0) unitLims =
        .error (.exn (.invalidArgument "Zero linspace size")) := by
      rw [gridLoops, MeshStorage.linspaceLoop_of_refused (.inl rfl)]
      rfl
    have hrefused : (init 3).buildMeshes (3, 0) unitLims =
        (⟨(3, 0), unitLims, (init 3).data⟩,
          .error (.exn (.invalidArgument "Zero linspace size"))) := by
      rw [buildMeshes, hloops]
    refine ⟨_, _, hrefused, ?_⟩
    intro h
    exact absurd (congrArg MeshCreator.dimensions h) (by decide)

end DistributedMathArh.MeshCreator
