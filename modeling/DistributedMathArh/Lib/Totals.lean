import Mathlib.Algebra.BigOperators.Group.List.Basic
import DistributedMathArh.Lib.FinmapSum

universe u v

namespace DistributedMathArh.Totals

open FinmapSum (Map)

variable {K : Type u} {M : Type v}

/-- Of no amounts nothing is kept, not even a zero. -/
def total [AddMonoid M] : List M → Option M
  | [] => none
  | x :: xs => some (x :: xs).sum

section Total

variable [AddMonoid M]

theorem merge_assoc (a b c : Option M) :
    Option.merge (· + ·) (Option.merge (· + ·) a b) c =
      Option.merge (· + ·) a (Option.merge (· + ·) b c) := by
  cases a <;> cases b <;> cases c <;> simp [add_assoc]

theorem total_append (xs ys : List M) :
    total (xs ++ ys) = Option.merge (· + ·) (total xs) (total ys) := by
  cases xs with
  | nil => rw [List.nil_append, total, Option.merge_none_left]
  | cons x xs =>
    cases ys with
    | nil => rw [List.append_nil, total, total, Option.merge_none_right]
    | cons y ys =>
      rw [List.cons_append, total, total, total, Option.merge_some_some, ← List.cons_append,
        List.sum_append]

theorem total_singleton (x : M) : total [x] = some x := congrArg some (List.sum_singleton)

end Total

section Map

variable [DecidableEq K]

def amounts (xs : List (K × M)) (k : K) : List M :=
  xs.filterMap fun e => if e.1 = k then some e.2 else none

theorem amounts_append (xs ys : List (K × M)) (k : K) :
    amounts (xs ++ ys) k = amounts xs k ++ amounts ys k := List.filterMap_append

theorem amounts_singleton (k k' : K) (x : M) :
    amounts [(k', x)] k = if k' = k then [x] else [] := by
  unfold amounts
  split <;> simp_all

def add [Add M] (m : Map K M) (k : K) (x : M) : Map K M :=
  match m.lookup k with
  | some y => m.insert k (y + x)
  | none => m.insert k x

theorem lookup_add_self [Add M] (m : Map K M) (k : K) (x : M) :
    (add m k x).lookup k = Option.merge (· + ·) (m.lookup k) (some x) := by
  unfold add
  split
  · rename_i y hy
    rw [Finmap.lookup_insert, hy, Option.merge_some_some]
  · rename_i hnone
    rw [Finmap.lookup_insert, hnone, Option.merge_none_left]

theorem lookup_add_of_ne [Add M] (m : Map K M) {k k' : K} (x : M) (h : k' ≠ k) :
    (add m k x).lookup k' = m.lookup k' := by
  unfold add
  split <;> exact Finmap.lookup_insert_of_ne _ h

theorem add_add_comm [AddCommMonoid M] (m : Map K M) (k₁ : K) (x₁ : M) (k₂ : K) (x₂ : M) :
    add (add m k₁ x₁) k₂ x₂ = add (add m k₂ x₂) k₁ x₁ := by
  apply Finmap.ext_lookup
  intro k
  by_cases h₁ : k = k₁
  · subst h₁
    by_cases h₂ : k = k₂
    · subst h₂
      simp only [lookup_add_self]
      cases m.lookup k with
      | none => simp [add_comm]
      | some y => simp [add_right_comm]
    · rw [lookup_add_of_ne _ _ h₂, lookup_add_self, lookup_add_self, lookup_add_of_ne _ _ h₂]
  · by_cases h₂ : k = k₂
    · subst h₂
      rw [lookup_add_self, lookup_add_of_ne _ _ h₁, lookup_add_of_ne _ _ h₁, lookup_add_self]
    · rw [lookup_add_of_ne _ _ h₂, lookup_add_of_ne _ _ h₁, lookup_add_of_ne _ _ h₁,
        lookup_add_of_ne _ _ h₂]

def merge [AddCommMonoid M] (m m' : Map K M) : Map K M :=
  m'.foldl (fun m k x => add m k x) add_add_comm m

theorem lookup_foldl_add [AddCommMonoid M] {l : List (Sigma fun _ : K => M)} (hl : l.NodupKeys)
    (m : Map K M) (k : K) : (l.foldl (fun m e => add m e.1 e.2) m).lookup k =
      Option.merge (· + ·) (m.lookup k) (l.dlookup k) := by
  induction l generalizing m with
  | nil => rw [List.foldl_nil, List.dlookup_nil, Option.merge_none_right]
  | cons e l ih =>
    obtain ⟨hnotin, hl⟩ := List.nodupKeys_cons.mp hl
    rw [List.foldl_cons, ih hl]
    by_cases hk : k = e.1
    · subst hk
      rw [lookup_add_self, List.dlookup_eq_none.mpr hnotin, Option.merge_none_right]
      exact congrArg _ (List.dlookup_cons_eq l e.1 e.2).symm
    · rw [lookup_add_of_ne _ _ hk, List.dlookup_cons_ne l e hk]

theorem lookup_merge [AddCommMonoid M] (m m' : Map K M) (k : K) :
    (merge m m').lookup k = Option.merge (· + ·) (m.lookup k) (m'.lookup k) := by
  induction m' using Finmap.induction_on with
  | H l => exact lookup_foldl_add l.nodupKeys m k

def addAll [Add M] (m : Map K M) (xs : List (K × M)) : Map K M :=
  xs.foldl (fun m e => add m e.1 e.2) m

theorem lookup_addAll [AddMonoid M] (m : Map K M) (xs : List (K × M)) (k : K) :
    (addAll m xs).lookup k = Option.merge (· + ·) (m.lookup k) (total (amounts xs k)) := by
  induction xs generalizing m with
  | nil => exact (Option.merge_none_right).symm
  | cons e xs ih =>
    have happend := amounts_append [e] xs k
    rw [List.singleton_append, amounts_singleton] at happend
    rw [addAll, List.foldl_cons, ← addAll, ih, happend, total_append, ← merge_assoc]
    by_cases hk : e.1 = k
    · subst hk
      rw [lookup_add_self, if_pos rfl, total_singleton]
    · rw [lookup_add_of_ne _ _ (Ne.symm hk), if_neg hk, total, Option.merge_none_right]

theorem addAll_eq_merge [AddCommMonoid M] (m : Map K M) (xs : List (K × M)) :
    addAll m xs = merge m (addAll ∅ xs) := by
  apply Finmap.ext_lookup
  intro k
  rw [lookup_merge, lookup_addAll, lookup_addAll, Finmap.lookup_empty, Option.merge_none_left]

theorem empty_merge [AddCommMonoid M] (m : Map K M) : merge ∅ m = m := by
  apply Finmap.ext_lookup
  intro k
  rw [lookup_merge, Finmap.lookup_empty, Option.merge_none_left]

section Forall

variable {P : M → Prop}

theorem forall_add [Add M] (hP : ∀ x y, P x → P y → P (x + y)) {m : Map K M}
    (hm : ∀ k x, m.lookup k = some x → P x) (k : K) {x : M} (hx : P x) :
    ∀ k' y, (add m k x).lookup k' = some y → P y := by
  intro k' y hy
  by_cases hk : k' = k
  · subst hk
    rw [lookup_add_self] at hy
    cases hlook : m.lookup k' with
    | none =>
      rw [hlook, Option.merge_none_left] at hy
      exact Option.some.inj hy ▸ hx
    | some z =>
      rw [hlook, Option.merge_some_some] at hy
      exact Option.some.inj hy ▸ hP z x (hm k' z hlook) hx
  · rw [lookup_add_of_ne _ _ hk] at hy
    exact hm k' y hy

theorem forall_addAll [Add M] (hP : ∀ x y, P x → P y → P (x + y)) {m : Map K M}
    (hm : ∀ k x, m.lookup k = some x → P x) {xs : List (K × M)} (hxs : ∀ e ∈ xs, P e.2) :
    ∀ k x, (addAll m xs).lookup k = some x → P x := by
  induction xs generalizing m with
  | nil => exact hm
  | cons e xs ih =>
    obtain ⟨he, hxs⟩ := List.forall_mem_cons.mp hxs
    exact ih (forall_add hP hm e.1 he) hxs

theorem forall_merge [AddCommMonoid M] (hP : ∀ x y, P x → P y → P (x + y)) {m m' : Map K M}
    (hm : ∀ k x, m.lookup k = some x → P x) (hm' : ∀ k x, m'.lookup k = some x → P x) :
    ∀ k x, (merge m m').lookup k = some x → P x := by
  intro k x hx
  rw [lookup_merge] at hx
  obtain ⟨h, -⟩ | ⟨-, h⟩ | ⟨y, z, hy, hz, rfl⟩ := Option.merge_eq_some_iff.mp hx
  · exact hm k x h
  · exact hm' k x h
  · exact hP y z (hm k y hy) (hm' k z hz)

end Forall

def Holds [AddMonoid M] (m : Map K M) (xs : List (K × M)) : Prop :=
  ∀ k, m.lookup k = total (amounts xs k)

namespace Holds

theorem empty [AddMonoid M] : Holds (∅ : Map K M) [] := Finmap.lookup_empty

theorem add [AddMonoid M] {m : Map K M} {xs : List (K × M)} (h : Holds m xs) (k : K) (x : M) :
    Holds (add m k x) (xs ++ [(k, x)]) := by
  intro k'
  rw [amounts_append, amounts_singleton, total_append, ← h k']
  by_cases hk : k = k'
  · subst hk
    rw [lookup_add_self, if_pos rfl, total_singleton]
  · rw [lookup_add_of_ne _ _ (Ne.symm hk), if_neg hk, total, Option.merge_none_right]

theorem add_iff [AddCancelCommMonoid M] {m : Map K M} {xs : List (K × M)} (h : Holds m xs)
    {k l : K} {x y : M} (hy : y ≠ 0) :
    Holds (Totals.add m l x) (xs ++ [(k, y)]) ↔ l = k ∧ x = y := by
  constructor
  · intro hadd
    have hk := hadd k
    rw [amounts_append, amounts_singleton, if_pos rfl, total_append, total_singleton, ← h k] at hk
    by_cases heq : l = k
    · subst heq
      rw [lookup_add_self] at hk
      cases hm : m.lookup l with
      | none => exact ⟨rfl, by simpa [hm] using hk⟩
      | some z => exact ⟨rfl, by simpa [hm] using hk⟩
    · rw [lookup_add_of_ne _ _ (Ne.symm heq)] at hk
      cases hm : m.lookup k with
      | none => simp [hm] at hk
      | some z => exact absurd (by simpa [hm] using hk) hy
  · rintro ⟨rfl, rfl⟩
    exact h.add l x

end Holds

def Sums [AddMonoid M] (m : Map K M) (ms : List (Map K M)) : Prop :=
  ∀ k, m.lookup k = total (ms.filterMap (Finmap.lookup k))

namespace Sums

theorem empty [AddMonoid M] : Sums (∅ : Map K M) [] := Finmap.lookup_empty

theorem merge [AddCommMonoid M] {m : Map K M} {ms : List (Map K M)} (h : Sums m ms)
    (m' : Map K M) : Sums (merge m m') (ms ++ [m']) := by
  intro k
  rw [lookup_merge, List.filterMap_append, total_append, ← h k]
  cases hm' : m'.lookup k with
  | none => simp [hm', total]
  | some x => simp [hm', total]

theorem foldl_merge [AddCommMonoid M] {m : Map K M} {ms : List (Map K M)} (h : Sums m ms)
    (ms' : List (Map K M)) : Sums (ms'.foldl Totals.merge m) (ms ++ ms') := by
  induction ms' generalizing m ms with
  | nil => rwa [List.append_nil]
  | cons m' ms' ih =>
    have hnext := ih (h.merge m')
    rwa [List.append_assoc, List.singleton_append] at hnext

theorem unique [AddMonoid M] {m m' : Map K M} {ms : List (Map K M)} (h : Sums m ms)
    (h' : Sums m' ms) : m = m' := Finmap.ext_lookup fun k => (h k).trans (h' k).symm

end Sums

end Map

end DistributedMathArh.Totals
