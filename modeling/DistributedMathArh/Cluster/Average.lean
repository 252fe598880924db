import DistributedMathArh.Client.CoordGenerate
import DistributedMathArh.Cluster.Total

namespace DistributedMathArh.CoordGenerate

open Real Finset MeshCreator Tiling
open RowMajor (grid)

variable {T U : Type} [DecidableEq T] [DecidableEq U] {n : Nat}

noncomputable def values (xi : Coordinates n) : Valarray ℝ := (tabulated (graphNew xi)).data 2

theorem getD_tabulated (f : DirectionGraph ℝ) (j : Nat) : ((tabulated f).data 2).getD j 0 =
    if j < 175 then f ((initial.data 0).getD j 0) ((initial.data 1).getD j 0) else 0 := by
  have hdata : (tabulated f).data 2 = List.zipWith f (initial.data 0) (initial.data 1) :=
    (RowMajor.zipWith_grid f (fun x _ => x) (fun _ y => y) _ _).symm
  obtain ⟨h₀, h₁⟩ := length_initial
  rw [hdata]
  by_cases hj : j < 175
  · have hj₀ : j < (initial.data 0).length := by omega
    have hj₁ : j < (initial.data 1).length := by omega
    simp [List.getD_eq_getElem?_getD, hj, hj₀, hj₁]
  · rw [if_neg hj]
    exact List.getD_eq_default _ _ (by simp [h₀, h₁]; omega)

theorem sum_getD_values (coordinates : Nat → Coordinates n) {nsym : Nat} (hnsym : nsym ≠ 0)
    (j : Nat) : ∑ i ∈ range nsym, (values (coordinates i)).getD j 0 =
      nsym * ((tabulated (mean graphNew coordinates nsym)).data 2).getD j 0 := by
  simp only [values, getD_tabulated]
  by_cases hj : j < 175
  · simp only [if_pos hj, mean]
    rw [mul_div_cancel₀ _ (Nat.cast_ne_zero.mpr hnsym)]
  · simp [hj]

variable {integrate : (ℝ → ℝ) → ℝ → ℝ → ℝ} {unset : U → Nat} {coordinates : Nat → Coordinates n}
  {order : List (U × Nat)} {first second : Nat} {jobs : List (Job T)} {results : List (Valarray ℝ)}

/-- The results of the workers, however the task was cut and scheduled, add up to `nsym` times what
the one process prints in the mode `new`, and once for each block the grid of phi. -/
theorem results_eq_run (hn : 1 ≤ n)
    (hcut : Tiles first second (jobs.map fun job => job.task.block)) (hsecond : second < 2 ^ 31 - 1)
    (h : List.Forall₂ (Job.Yields π fun i => values (coordinates (i.toNat - first))) jobs results) :
    ∃ m, run integrate unset .new coordinates (second + 1 - first) order = .ok m ∧
      ∀ j, (results.map fun res => res.getD j 0).sum =
        (second + 1 - first : Nat) * (m.data 2).getD j 0 + jobs.length * (m.data 0).getD j 0 := by
  have hnsym : second + 1 - first ≠ 0 := by
    have := hcut.le
    omega
  refine ⟨_, (run_sequential hn hnsym).1, fun j => ?_⟩
  rw [Job.sum_results constructDefault_eq hcut hsecond h j, add_comm, ← sum_getD_values coordinates
    hnsym, nsmul_eq_mul]
  refine congrArg₂ (· + ·) ?_ rfl
  have hIcc : Icc first second = Ico first (second + 1) := rfl
  rw [hIcc, sum_Ico_eq_sum_range]
  refine sum_congr rfl fun i _ => ?_
  rw [Int.toNat_natCast, Nat.add_sub_cancel_left]

theorem exists_yields_pair {i : UInt64} (hi : i.toNat < 2 ^ 31 - 1) :
    ∃ res, (Job.sample i).Yields π (fun i => values (pairCoordinates (i.toNat - 0))) res :=
  Job.exists_yields pi_ne_zero (fun _ => length_values _) (Worker.schedules_sample hi _) rfl hi
    le_rfl

theorem results_eq_run_pair : ∃ res₀ res₁ : Valarray ℝ, ∃ m,
    run (fun f a b => ∫ t in a..b, f t) id .new pairCoordinates 2 [] = .ok m ∧
      ∀ j, ([res₀, res₁].map fun res => res.getD j 0).sum =
        (2 : Nat) * (m.data 2).getD j 0 + (2 : Nat) * (m.data 0).getD j 0 := by
  obtain ⟨res₀, h₀⟩ := exists_yields_pair (i := 0) (by decide)
  obtain ⟨res₁, h₁⟩ := exists_yields_pair (i := 1) (by decide)
  exact ⟨res₀, res₁, results_eq_run le_rfl (.cons (by decide) (.last (by decide))) (by decide)
    (.cons h₀ (.cons h₁ .nil))⟩

end DistributedMathArh.CoordGenerate
