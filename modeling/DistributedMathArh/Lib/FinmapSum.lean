import Mathlib.Data.Finmap
import Mathlib.Algebra.BigOperators.Group.Multiset.Basic

universe u v w

namespace DistributedMathArh.FinmapSum

variable {K : Type u} {V : Type v} {M : Type w}

abbrev Map (K : Type u) (V : Type v) := Finmap fun _ : K => V

def sumBy [AddCommMonoid M] (f : V → M) (m : Map K V) : M :=
  (m.entries.map fun e => f e.2).sum

@[simp] theorem sumBy_empty [AddCommMonoid M] (f : V → M) : sumBy f (∅ : Map K V) = 0 := rfl

theorem map_sumBy {N : Type*} [AddCommMonoid M] [AddCommMonoid N] (φ : M →+ N) (f : V → M)
    (m : Map K V) : φ (sumBy f m) = sumBy (fun v => φ (f v)) m := by
  rw [sumBy, map_multiset_sum, Multiset.map_map]
  rfl

theorem sumBy_congr [AddCommMonoid M] {f g : V → M} {m : Map K V}
    (h : ∀ e ∈ m.entries, f e.2 = g e.2) : sumBy f m = sumBy g m :=
  congrArg Multiset.sum (Multiset.map_congr rfl h)

theorem insert_erase [DecidableEq K] {m : Map K V} {k : K} {v : V} (h : m.lookup k = some v) :
    (m.erase k).insert k v = m := by
  apply Finmap.ext_lookup
  intro x
  by_cases hx : x = k
  · subst hx
    rw [Finmap.lookup_insert, h]
  · rw [Finmap.lookup_insert_of_ne _ hx, Finmap.lookup_erase_ne hx]

theorem insert_lookup [DecidableEq K] {m : Map K V} {k : K} {v : V} (h : m.lookup k = some v) :
    m.insert k v = m := by
  apply Finmap.ext_lookup
  intro x
  by_cases hx : x = k
  · subst hx
    rw [Finmap.lookup_insert, h]
  · rw [Finmap.lookup_insert_of_ne _ hx]

theorem erase_insert [DecidableEq K] (m : Map K V) (k : K) (v : V) : (m.insert k v).erase k = m.erase k := by
  apply Finmap.ext_lookup
  intro x
  by_cases hx : x = k
  · subst hx
    rw [Finmap.lookup_erase, Finmap.lookup_erase]
  · rw [Finmap.lookup_erase_ne hx, Finmap.lookup_erase_ne hx, Finmap.lookup_insert_of_ne _ hx]

section Monoid

variable [DecidableEq K] [AddCommMonoid M] (f : V → M)

theorem sumBy_insert {m : Map K V} {k : K} (h : k ∉ m) (v : V) :
    sumBy f (m.insert k v) = f v + sumBy f m := by
  rw [sumBy, sumBy, Finmap.entries_insert_of_notMem h, Multiset.map_cons, Multiset.sum_cons]

theorem sumBy_erase {m : Map K V} {k : K} {v : V} (h : m.lookup k = some v) :
    f v + sumBy f (m.erase k) = sumBy f m := by
  rw [← sumBy_insert f Finmap.notMem_erase_self, insert_erase h]

end Monoid

theorem sumBy_erase_eq_sub [DecidableEq K] [AddCommGroup M] (f : V → M) {m : Map K V} {k : K}
    {v : V} (h : m.lookup k = some v) : sumBy f (m.erase k) = sumBy f m - f v := by
  rw [← sumBy_erase f h, add_sub_cancel_left]

theorem forall_insert [DecidableEq K] {P : V → Prop} {m : Map K V} {k : K} {v : V} (hv : P v)
    (hm : ∀ x y, m.lookup x = some y → P y) : ∀ x y, (m.insert k v).lookup x = some y → P y := by
  intro x y h
  by_cases hx : x = k
  · subst hx
    rw [Finmap.lookup_insert] at h
    exact Option.some.inj h ▸ hv
  · rw [Finmap.lookup_insert_of_ne _ hx] at h
    exact hm x y h

theorem forall_erase [DecidableEq K] {P : V → Prop} {m : Map K V} {k : K}
    (hm : ∀ x y, m.lookup x = some y → P y) : ∀ x y, (m.erase k).lookup x = some y → P y := by
  intro x y h
  by_cases hx : x = k
  · subst hx
    rw [Finmap.lookup_erase] at h
    cases h
  · rw [Finmap.lookup_erase_ne hx] at h
    exact hm x y h

def mapValues (f : V → M) (m : Map K V) : Map K M where
  entries := m.entries.map fun e => ⟨e.1, f e.2⟩
  nodupKeys := by
    have hkeys : (m.entries.map fun e => (⟨e.1, f e.2⟩ : Sigma fun _ : K => M)).keys = m.entries.keys := by
      rw [Multiset.keys, Multiset.map_map]
      rfl
    exact Multiset.nodup_keys.mp (hkeys ▸ Multiset.nodup_keys.mpr m.nodupKeys)

theorem lookup_mapValues [DecidableEq K] (f : V → M) (m : Map K V) (k : K) :
    (mapValues f m).lookup k = (m.lookup k).map f := by
  induction m using Finmap.induction_on with
  | H l => exact List.dlookup_map₂ (f := fun _ => f) (l := l.entries) k

theorem foldl_and_eq_all {α : Type*} (p : α → Bool) (l : List α) (b : Bool) :
    l.foldl (fun b a => b && p a) b = (b && l.all p) := by
  induction l generalizing b with
  | nil => simp
  | cons a l ih => rw [List.foldl_cons, ih, List.all_cons, Bool.and_assoc]

theorem all_eq_true_iff [DecidableEq K] {p : V → Bool} {m : Map K V} :
    m.all (fun _ v => p v) = true ↔ ∀ k v, m.lookup k = some v → p v = true := by
  induction m using Finmap.induction_on with
  | H l =>
    have hall : (Finmap.all (fun _ v => p v) l.toFinmap) = l.entries.all fun e => p e.2 :=
      (foldl_and_eq_all _ l.entries true).trans (Bool.true_and _)
    rw [hall, List.all_eq_true]
    constructor
    · intro h k v hkv
      exact h ⟨k, v⟩ (List.of_mem_dlookup hkv)
    · rintro h ⟨k, v⟩ he
      exact h k v (List.mem_dlookup l.nodupKeys he)

end DistributedMathArh.FinmapSum
