import Mathlib.Data.List.Nodup
import Mathlib.Data.List.Perm.Basic

/-! Tables whose rows carry a serial key: it is drawn from a sequence, and no two rows share it. -/

universe u v

namespace DistributedMathArh

theorem filter_eq_of_nodup_map {R : Type u} {C : Type v} [DecidableEq C] (col : R → C) {rows : List R}
    (h : (rows.map col).Nodup) {r : R} (hr : r ∈ rows) :
    (rows.filter fun x => col x = col r) = [r] := by
  induction rows with
  | nil => simp at hr
  | cons x rows ih =>
    obtain ⟨hx, h⟩ := List.nodup_cons.mp h
    cases List.mem_cons.mp hr with
    | inl e =>
      subst e
      rw [List.filter_cons_of_pos (by simp), List.filter_eq_nil_iff.mpr]
      intro y hy
      simpa using fun e : col y = col r => hx (List.mem_map.mpr ⟨y, hy, e⟩)
    | inr hr =>
      have hne : col x ≠ col r := fun e => hx (List.mem_map.mpr ⟨r, hr, e.symm⟩)
      rw [List.filter_cons_of_neg (by simpa using hne), ih h hr]

structure Table (R : Type u) (key : R → Nat) where
  rows : List R
  last : Nat
  nodup : (rows.map key).Nodup
  key_le : ∀ r ∈ rows, key r ≤ last

namespace Table

variable {R : Type u} {key : R → Nat} {t : Table R key} {r : R} {k : Nat}

def empty : Table R key := ⟨[], 0, List.nodup_nil, fun _ h => absurd h List.not_mem_nil⟩

/-- The sequence moves on, but no row stays. -/
def skip (t : Table R key) : Table R key :=
  { t with last := t.last + 1, key_le := fun r hr => Nat.le_succ_of_le (t.key_le r hr) }

def insert (t : Table R key) (r : R) (h : key r = t.last + 1) : Table R key where
  rows := t.rows ++ [r]
  last := t.last + 1
  nodup := by
    rw [List.map_append]
    refine List.nodup_append.mpr ⟨t.nodup, List.nodup_singleton _, fun k hk l hl e => ?_⟩
    obtain ⟨x, hx, rfl⟩ := List.mem_map.mp hk
    have hle := t.key_le x hx
    rw [e, List.mem_singleton.mp hl, h] at hle
    exact Nat.not_succ_le_self _ hle
  key_le x hx := by
    cases List.mem_append.mp hx with
    | inl hx => exact Nat.le_succ_of_le (t.key_le x hx)
    | inr hx => exact Nat.le_of_eq (List.mem_singleton.mp hx ▸ h)

def update (t : Table R key) (f : R → R) (h : ∀ r, key (f r) = key r) : Table R key where
  rows := t.rows.map f
  last := t.last
  nodup := by
    rw [List.map_map, show key ∘ f = key from funext h]
    exact t.nodup
  key_le x hx := by
    obtain ⟨y, hy, rfl⟩ := List.mem_map.mp hx
    exact h y ▸ t.key_le y hy

def delete (t : Table R key) (k : Nat) : Table R key where
  rows := t.rows.filter fun r => key r ≠ k
  last := t.last
  nodup := t.nodup.sublist (List.filter_sublist.map key)
  key_le r hr := t.key_le r (List.mem_of_mem_filter hr)

def rollback (t t' : Table R key) : Table R key :=
  { t with
    last := max t.last t'.last
    key_le := fun r hr => Nat.le_trans (t.key_le r hr) (Nat.le_max_left _ _) }

def select (t : Table R key) (k : Nat) : List R := t.rows.filter fun r => key r = k

theorem mem_insert {r x : R} {h : key r = t.last + 1} :
    x ∈ (t.insert r h).rows ↔ x ∈ t.rows ∨ x = r := by
  simp [insert]

theorem mem_select {x : R} : x ∈ t.select k ↔ x ∈ t.rows ∧ key x = k := by
  simp [select]

theorem eq_of_key_eq {x : R} (hr : r ∈ t.rows) (hx : x ∈ t.rows) (h : key r = key x) : r = x :=
  List.inj_on_of_nodup_map t.nodup hr hx h

theorem mem_update {f : R → R} {h : ∀ r, key (f r) = key r} {x : R} :
    x ∈ (t.update f h).rows ↔ ∃ y ∈ t.rows, f y = x := List.mem_map

end Table

/-- What a sequence handed out while its last value went from `lo` to `hi`. -/
structure Serial (lo : Nat) (ks : List Nat) (hi : Nat) : Prop where
  ordered : ks.Pairwise (· < ·)
  gt : ∀ k ∈ ks, lo < k
  le : ∀ k ∈ ks, k ≤ hi
  mono : lo ≤ hi

namespace Serial

variable {lo hi hi' : Nat} {ks : List Nat}

theorem nil : Serial lo [] lo where
  ordered := .nil
  gt _ h := absurd h List.not_mem_nil
  le _ h := absurd h List.not_mem_nil
  mono := Nat.le_refl lo

theorem skip (h : Serial lo ks hi) (hle : hi ≤ hi') : Serial lo ks hi' where
  ordered := h.ordered
  gt := h.gt
  le k hk := Nat.le_trans (h.le k hk) hle
  mono := Nat.le_trans h.mono hle

theorem draw (h : Serial lo ks hi) : Serial lo (ks ++ [hi + 1]) (hi + 1) where
  ordered := by
    refine List.pairwise_append.mpr ⟨h.ordered, List.pairwise_singleton _ _, fun k hk l hl => ?_⟩
    rw [List.mem_singleton.mp hl]
    exact Nat.lt_succ_of_le (h.le k hk)
  gt k hk := by
    cases List.mem_append.mp hk with
    | inl hk => exact h.gt k hk
    | inr hk => exact List.mem_singleton.mp hk ▸ Nat.lt_succ_of_le h.mono
  le k hk := by
    cases List.mem_append.mp hk with
    | inl hk => exact Nat.le_succ_of_le (h.le k hk)
    | inr hk => exact Nat.le_of_eq (List.mem_singleton.mp hk)
  mono := Nat.le_succ_of_le h.mono

end Serial

end DistributedMathArh
