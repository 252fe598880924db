import DistributedMathArh.CompNode.Sampling
import DistributedMathArh.MainNode.Sharding

namespace DistributedMathArh

open MessageCallback Tiling Finset

/-- One block of the task: the worker's pool before it, and what its threads do. -/
structure Job (T : Type) where
  task : TestSolveParam
  functors : Functors T
  schedule : Schedule T

namespace Job

variable {T K : Type} [DecidableEq T] [Field K] [DecidableEq K]
variable {pi : K} {mesh : Int → Valarray K}

def Yields (pi : K) (mesh : Int → Valarray K) (job : Job T) (res : Valarray K) : Prop :=
  Schedules job.schedule job.task ∧
    ∃ h, nMessageCallback pi mesh job.functors job.task job.schedule = .ok h ∧ h.res = res

def Sums (pi : K) (mesh : Int → Valarray K) (first second : Nat) (jobs : List (Job T)) : Prop :=
  ∃ results, List.Forall₂ (Yields pi mesh) jobs results ∧
    ∀ j, (results.map fun res => res.getD j 0).sum =
      ∑ i ∈ Icc first second, (mesh i).getD j 0

theorem sum_range' {M : Type} [AddCommMonoid M] (f : Nat → M) (lo hi : Nat) :
    ((List.range' lo (hi + 1 - lo)).map f).sum = ∑ i ∈ Icc lo hi, f i := by
  rw [Nat.Icc_eq_range']
  rfl

theorem Yields.getD {job : Job T} {res : Valarray K} (h : job.Yields pi mesh res)
    {ms : MeshCreator K} (hms : (MeshCreator.init pi).constructDefault = (ms, .ok ())) (j : Nat) :
    res.getD j 0 = (ms.data 0).getD j 0 +
      (job.schedule.order.map fun x => (mesh x.2).getD j 0).sum := by
  obtain ⟨-, out, hout, rfl⟩ := h
  obtain ⟨ms', is, hms', -, -, hres, -⟩ := nMessageCallback_eq_ok.mp hout
  cases hms.symm.trans hms'
  exact getD_accumulate hres j

theorem Yields.getD_block {job : Job T} {res : Valarray K} (h : job.Yields pi mesh res)
    {ms : MeshCreator K} (hms : (MeshCreator.init pi).constructDefault = (ms, .ok ()))
    (hsecond : job.task.block.2 < 2 ^ 31 - 1) (hle : job.task.block.1 ≤ job.task.block.2) (j : Nat) :
    res.getD j 0 = (ms.data 0).getD j 0 + ∑ i ∈ job.task.block.points, (mesh i).getD j 0 := by
  rw [h.getD hms]
  have hperm := (h.1 _ (iterations_eq hsecond hle)).1
  have hsum := (hperm.map fun i => (mesh i).getD j 0).sum_eq
  rw [List.map_map, List.map_map] at hsum
  rw [← sum_range' fun i : Nat => (mesh i).getD j 0]
  exact congrArg _ hsum

theorem map_results {results : List (Valarray K)} {jobs : List (Job T)} {f : Job T → K} {j : Nat}
    (h : List.Forall₂ (Yields pi mesh) jobs results)
    (hf : ∀ job ∈ jobs, ∀ res, job.Yields pi mesh res → res.getD j 0 = f job) :
    (results.map fun res => res.getD j 0) = jobs.map f := by
  induction h with
  | nil => rfl
  | cons hjob _ ih =>
    rw [List.map_cons, List.map_cons, hf _ (.head _) _ hjob,
      ih fun job hmem => hf job (.tail _ hmem)]

theorem sum_results {results : List (Valarray K)} {jobs : List (Job T)} {first second : Nat}
    {ms : MeshCreator K} (hms : (MeshCreator.init pi).constructDefault = (ms, .ok ()))
    (hcut : Tiles first second (jobs.map fun job => job.task.block))
    (hsecond : second < 2 ^ 31 - 1) (h : List.Forall₂ (Yields pi mesh) jobs results) (j : Nat) :
    (results.map fun res => res.getD j 0).sum =
      jobs.length • (ms.data 0).getD j 0 + ∑ i ∈ Icc first second, (mesh i).getD j 0 := by
  have hmap := map_results (j := j) h fun job hmem res hres => by
    have hblock := hcut.bounds _ (List.mem_map_of_mem hmem)
    exact hres.getD_block hms (by omega) hblock.2.1 j
  rw [hmap, List.sum_map_add, List.map_const', List.sum_replicate, ← hcut.sum_eq, List.map_map]
  rfl

omit [DecidableEq K] in
theorem getD_replicate_zero (n j : Nat) : (List.replicate n (0 : K)).getD j 0 = 0 := by
  rw [List.getD_eq_getElem?_getD, List.getElem?_replicate]
  split <;> rfl

theorem sum_results_zero {results : List (Valarray K)} {jobs : List (Job T)} {n : Nat}
    {ms : MeshCreator K} (hms : (MeshCreator.init pi).constructDefault = (ms, .ok ()))
    (h : List.Forall₂ (Yields pi fun _ => List.replicate n 0) jobs results) (j : Nat) :
    (results.map fun res => res.getD j 0).sum = jobs.length • (ms.data 0).getD j 0 := by
  have hmap := map_results (j := j) (f := fun _ => (ms.data 0).getD j 0) h fun job _ res hres => by
    rw [hres.getD hms, getD_replicate_zero, List.map_const', List.sum_replicate, nsmul_zero, add_zero]
  rw [hmap, List.map_const', List.sum_replicate]

theorem exists_yields [CharZero K] (hpi : pi ≠ 0) (hmesh : ∀ i, (mesh i).length = 175)
    {job : Job T} (hsched : Schedules job.schedule job.task) {functor : DistributionFunctor}
    (hargs : Generators.functorOf job.task.args = .ok functor)
    (hsecond : job.task.block.2 < 2 ^ 31 - 1) (hle : job.task.block.1 ≤ job.task.block.2) :
    ∃ res, job.Yields pi mesh res := by
  obtain ⟨h, hh⟩ := exists_handled hpi hmesh job.functors hargs hsecond hle job.schedule
  exact ⟨h.res, hsched, h, hh, rfl⟩

/-- No cutting of any task gives the sum of the meshes: the workers start from the grid of phi.
Outside of the range of `int` some meshes are missing as well, so there the sum may be right by
chance, but not for all meshes. -/
theorem not_sums [CharZero K] (hpi : pi ≠ 0) {first second : Nat} {jobs : List (Job T)}
    (hcut : Tiles first second (jobs.map fun job => job.task.block)) :
    (¬ ∀ (mesh : Int → Valarray K) (n : Nat), (∀ i, (mesh i).length = n) →
      Sums pi mesh first second jobs) ∧
    (second < 2 ^ 31 - 1 → ∀ mesh, ¬ Sums pi mesh first second jobs) := by
  obtain ⟨ms, hms, -, hgrid⟩ := MeshCreator.constructDefault_init hpi
  have hjobs : jobs.length ≠ 0 := by
    intro h
    rw [List.length_eq_zero_iff.mp h] at hcut
    cases hcut
  have hne : jobs.length • (ms.data 0).getD 1 0 ≠ 0 := by
    rw [hgrid, nsmul_eq_mul]
    apply mul_ne_zero (Nat.cast_ne_zero.mpr hjobs)
    exact div_ne_zero (mul_ne_zero hpi (OfNat.ofNat_ne_zero 2)) (OfNat.ofNat_ne_zero 24)
  constructor
  · intro hall
    obtain ⟨results, hres, hsum⟩ :=
      hall (fun _ => List.replicate 175 0) 175 fun _ => List.length_replicate
    have h := hsum 1
    rw [sum_results_zero hms hres] at h
    exact hne (h.trans (sum_eq_zero fun i _ => getD_replicate_zero 175 1))
  · rintro hsecond mesh ⟨results, hres, hsum⟩
    have h := hsum 1
    rw [sum_results hms hcut hsecond hres] at h
    exact hne (add_eq_right.mp h)

def sample (i : UInt64) : Job Nat :=
  ⟨(Worker.sampleMessage i Worker.uniformArgs).1, fun _ => none,
    (Worker.sampleMessage i Worker.uniformArgs).2⟩

theorem not_sums_sample :
    (¬ ∀ (mesh : Int → Valarray ℚ) (n : Nat), (∀ i, (mesh i).length = n) →
      Sums Worker.mPi mesh 0 1 [sample 0, sample 1]) ∧
    ((1 : Nat) < 2 ^ 31 - 1 → ∀ mesh : Int → Valarray ℚ,
      ¬ Sums Worker.mPi mesh 0 1 [sample 0, sample 1]) :=
  not_sums Worker.mPi_ne_zero (.cons (by decide) (.last (by decide)))

theorem exists_yields_sample {i : UInt64} (hi : i.toNat < 2 ^ 31 - 1) :
    ∃ res, (sample i).Yields Worker.mPi (fun _ => List.replicate 175 0) res :=
  exists_yields Worker.mPi_ne_zero (fun _ => rfl)
    (Worker.schedules_sample hi _) rfl hi le_rfl

theorem exists_not_sums :
    (∃ results, List.Forall₂ (Yields Worker.mPi fun _ => List.replicate 175 0)
        [sample 0, sample 1] results ∧
      (results.map fun res => res.getD 1 0).sum = 2 * (Worker.mPi * 2 / 24)) ∧
      ¬ Sums Worker.mPi (fun _ => List.replicate 175 0) 0 1 [sample 0, sample 1] := by
  obtain ⟨ms, hms, -, hgrid⟩ := MeshCreator.constructDefault_init Worker.mPi_ne_zero
  obtain ⟨res₀, h₀⟩ := exists_yields_sample (i := 0) (by decide)
  obtain ⟨res₁, h₁⟩ := exists_yields_sample (i := 1) (by decide)
  have hsum {results} (h : List.Forall₂ (Yields Worker.mPi fun _ => List.replicate 175 0)
      [sample 0, sample 1] results) :
      (results.map fun res => res.getD 1 0).sum = 2 * (Worker.mPi * 2 / 24) := by
    rw [sum_results_zero hms h, hgrid]
    decide +kernel
  constructor
  · exact ⟨[res₀, res₁], .cons h₀ (.cons h₁ .nil), hsum (.cons h₀ (.cons h₁ .nil))⟩
  · rintro ⟨results, hres, htotal⟩
    have h := (hsum hres).symm.trans (htotal 1)
    rw [sum_eq_zero fun i _ => getD_replicate_zero 175 1] at h
    revert h
    decide +kernel

end Job

end DistributedMathArh
