import Mathlib.Logic.Basic

universe u v w

namespace DistributedMathArh.RowMajor

variable {α : Type u} {β : Type v} {γ : Type w}

def grid (f : α → β → γ) (xs : List α) (ys : List β) : List γ :=
  ys.flatMap fun y => xs.map fun x => f x y

theorem grid_cons (f : α → β → γ) (xs : List α) (y : β) (ys : List β) :
    grid f xs (y :: ys) = xs.map (fun x => f x y) ++ grid f xs ys := rfl

@[simp] theorem length_grid (f : α → β → γ) (xs : List α) (ys : List β) :
    (grid f xs ys).length = ys.length * xs.length := by
  induction ys with
  | nil => simp [grid]
  | cons y ys ih =>
    rw [grid_cons, List.length_append, ih, List.length_map, List.length_cons, Nat.succ_mul,
      Nat.add_comm]

theorem getElem?_grid (f : α → β → γ) {xs : List α} (ys : List β) {i : Nat} (j : Nat)
    (hi : i < xs.length) : (grid f xs ys)[j * xs.length + i]? = ys[j]?.map (f xs[i]) := by
  induction ys generalizing j with
  | nil => simp [grid]
  | cons y ys ih =>
    cases j with
    | zero => simp [grid_cons, hi, List.getElem?_append_left]
    | succ j =>
      have hindex : (j + 1) * xs.length + i = xs.length + (j * xs.length + i) := by
        rw [Nat.succ_mul, Nat.add_right_comm, Nat.add_comm]
      have hle : (xs.map fun x => f x y).length ≤ xs.length + (j * xs.length + i) := by simp
      rw [hindex, grid_cons, List.getElem?_append_right hle, List.length_map,
        Nat.add_sub_cancel_left, ih, List.getElem?_cons_succ]

theorem getD_grid (f : α → β → γ) {xs : List α} {ys : List β} {i j : Nat} (hi : i < xs.length)
    (hj : j < ys.length) (z : γ) :
    (grid f xs ys).getD (j * xs.length + i) z = f xs[i] ys[j] := by
  rw [List.getD_eq_getElem?_getD, getElem?_grid f ys j hi, List.getElem?_eq_getElem hj]
  rfl

theorem zipWith_grid {δ : Type*} {ε : Type*} (h : γ → δ → ε) (f : α → β → γ) (g : α → β → δ)
    (xs : List α) (ys : List β) :
    List.zipWith h (grid f xs ys) (grid g xs ys) = grid (fun x y => h (f x y) (g x y)) xs ys := by
  induction ys with
  | nil => rfl
  | cons y ys ih =>
    rw [grid_cons, grid_cons, grid_cons, List.zipWith_append (by simp), ih, List.zipWith_map,
      List.zipWith_self]

theorem map_getD_range (xs : List α) (z : α) {k n : Nat} (h : k + n ≤ xs.length) :
    (List.range n).map (fun i => xs.getD (i + k) z) = (xs.drop k).take n := by
  apply List.ext_getElem
  · simp
    omega
  · intro i hi _
    have hlt : i + k < xs.length := by
      simp at hi
      omega
    simp [List.getD_eq_getElem?_getD, hlt, Nat.add_comm k i]

theorem map_range_grid (f : α → β → γ) {xs : List α} (ys : List β) {i : Nat} (hi : i < xs.length)
    (z : γ) :
    (List.range ys.length).map (fun j => (grid f xs ys).getD (j * xs.length + i) z) =
      ys.map (f xs[i]) := by
  apply List.ext_getElem
  · simp
  · intro j hj _
    have hlt : j < ys.length := by simpa using hj
    rw [List.getElem_map, List.getElem_map, List.getElem_range, getD_grid f hi hlt z]

theorem grid_eq_columns (f : α → β → γ) (xs : List α) (ys : List β) (z : γ) :
    ((List.range ys.length).flatMap fun j => xs.map fun x => (ys.map (f x)).getD j z) =
      grid f xs ys := by
  have hys : (List.range ys.length).map (fun j => xs.map fun x => (ys.map (f x)).getD j z) =
      ys.map fun y => xs.map fun x => f x y := by
    apply List.ext_getElem
    · simp
    · intro j hj hj'
      have hlt : j < ys.length := by simpa using hj
      simp [List.getD_eq_getElem?_getD, hlt]
  rw [grid, List.flatMap_def, List.flatMap_def, hys]

end DistributedMathArh.RowMajor
