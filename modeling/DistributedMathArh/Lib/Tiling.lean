import Mathlib.Algebra.BigOperators.Intervals
import Mathlib.Order.Interval.Finset.Nat

namespace DistributedMathArh.Tiling

open Finset

/-- A closed block `[b.1, b.2]`. -/
abbrev Block := Nat × Nat

abbrev Block.points (b : Block) : Finset Nat := Icc b.1 b.2

/-- `Tiles lo hi bs`: the blocks `bs`, in order, fill `[lo, hi]` without gap or overlap. -/
inductive Tiles : Nat → Nat → List Block → Prop
  | last {lo hi} : lo ≤ hi → Tiles lo hi [(lo, hi)]
  | cons {lo mid hi bs} : lo ≤ mid → Tiles (mid + 1) hi bs → Tiles lo hi ((lo, mid) :: bs)

structure Partitions (lo hi : Nat) (bs : List Block) : Prop where
  nonempty : ∀ b ∈ bs, b.1 ≤ b.2
  disjoint : bs.Pairwise fun a b => Disjoint (Block.points a) (Block.points b)
  cover : ∀ i, i ∈ Icc lo hi ↔ ∃ b ∈ bs, i ∈ Block.points b

theorem Tiles.le {lo hi : Nat} {bs : List Block} (h : Tiles lo hi bs) : lo ≤ hi := by
  induction h with
  | last h => exact h
  | cons h _ ih => omega

theorem Tiles.bounds {lo hi : Nat} {bs : List Block} (h : Tiles lo hi bs) :
    ∀ b ∈ bs, lo ≤ b.1 ∧ b.1 ≤ b.2 ∧ b.2 ≤ hi := by
  induction h with
  | last h =>
    intro b hb
    obtain rfl := List.mem_singleton.mp hb
    exact ⟨le_refl _, h, le_refl _⟩
  | cons h tail ih =>
    intro b hb
    rcases List.mem_cons.mp hb with rfl | hb
    · have := tail.le
      exact ⟨le_refl _, h, by omega⟩
    · have := ih b hb
      omega

theorem Tiles.pairwise {lo hi : Nat} {bs : List Block} (h : Tiles lo hi bs) :
    bs.Pairwise fun a b => a.2 < b.1 := by
  induction h with
  | last => exact List.pairwise_singleton _ _
  | cons _ tail ih =>
    refine List.pairwise_cons.mpr ⟨fun b hb => ?_, ih⟩
    have := tail.bounds b hb
    omega

theorem Tiles.mem_iff {lo hi : Nat} {bs : List Block} (h : Tiles lo hi bs) (i : Nat) :
    i ∈ Icc lo hi ↔ ∃ b ∈ bs, i ∈ Block.points b := by
  induction h with
  | last => simp
  | @cons lo mid hi bs hle tail ih =>
    have := tail.le
    simp only [List.mem_cons, exists_eq_or_imp]
    rw [← ih]
    simp only [mem_Icc]
    omega

theorem Tiles.partitions {lo hi : Nat} {bs : List Block} (h : Tiles lo hi bs) :
    Partitions lo hi bs where
  nonempty b hb := (h.bounds b hb).2.1
  disjoint := h.pairwise.imp fun {a b} hab => by
    rw [Finset.disjoint_left]
    intro i hi hj
    simp only [mem_Icc] at hi hj
    omega
  cover := h.mem_iff

theorem Tiles.sum_size {lo hi : Nat} {bs : List Block} (h : Tiles lo hi bs) :
    (bs.map fun b => b.2 + 1 - b.1).sum = hi + 1 - lo := by
  induction h with
  | last => simp
  | cons hle tail ih =>
    have := tail.le
    rw [List.map_cons, List.sum_cons, ih]
    omega

theorem Tiles.sum_eq {M : Type*} [AddCommMonoid M] {lo hi : Nat} {bs : List Block}
    (h : Tiles lo hi bs) (f : Nat → M) :
    (bs.map fun b => ∑ i ∈ Block.points b, f i).sum = ∑ i ∈ Icc lo hi, f i := by
  induction h with
  | last => simp
  | @cons lo mid hi bs hle tail ih =>
    have := tail.le
    have split : Icc lo hi = Icc lo mid ∪ Icc (mid + 1) hi := by
      ext i
      simp only [mem_union, mem_Icc]
      omega
    have hdisj : Disjoint (Icc lo mid) (Icc (mid + 1) hi) := by
      rw [Finset.disjoint_left]
      intro i hi hj
      simp only [mem_Icc] at hi hj
      omega
    rw [List.map_cons, List.sum_cons, ih, split, sum_union hdisj]

theorem Tiles.flatMap_range' {lo hi : Nat} {bs : List Block} (h : Tiles lo hi bs) :
    (bs.flatMap fun b => List.range' b.1 (b.2 + 1 - b.1)) = List.range' lo (hi + 1 - lo) := by
  induction h with
  | last => simp
  | @cons lo mid hi bs hle tail ih =>
    have hmid := tail.le
    have hsplit : hi + 1 - lo = (mid + 1 - lo) + (hi + 1 - (mid + 1)) := by omega
    have hstart : mid + 1 = lo + (mid + 1 - lo) := by omega
    rw [List.flatMap_cons, ih, hsplit, ← List.range'_append_1, ← hstart]

theorem Tiles.exists_glue {ι α : Type*} {block : ι → Block} (f : ι → Nat → α) {xs : List ι}
    {lo hi : Nat} (h : Tiles lo hi (xs.map block)) :
    ∃ g : Nat → α, ∀ x ∈ xs, ∀ i ∈ (block x).points, g i = f x i := by
  induction xs generalizing lo with
  | nil => cases h
  | cons x xs ih =>
    cases xs with
    | nil => exact ⟨f x, fun y hy i _ => by rw [List.mem_singleton.mp hy]⟩
    | cons y ys =>
      obtain ⟨b, hb⟩ : ∃ b, block x = b := ⟨_, rfl⟩
      rw [List.map_cons, hb] at h
      rcases h with _ | @⟨_, mid, _, _, _, tail⟩
      obtain ⟨g, hg⟩ := ih tail
      refine ⟨fun i => if i ≤ mid then f x i else g i, fun z hz i hi => ?_⟩
      rcases List.mem_cons.mp hz with rfl | hz
      · rw [hb, mem_Icc] at hi
        exact if_pos hi.2
      · have hlo := (tail.bounds _ (List.mem_map_of_mem hz)).1
        have hpoint := (mem_Icc.mp hi).1
        rw [← hg z hz i hi]
        exact if_neg (by omega)

end DistributedMathArh.Tiling
