import DistributedMathArh.Lib.MixedRadix

namespace DistributedMathArh.BenchUtils

open MixedRadix

def kN (sizes : List UInt64) : UInt64 := sizes.foldl (· * ·) 1

def prefixProducts (product : UInt64) : List UInt64 → List UInt64
  | [] => []
  | size :: sizes => size * product :: prefixProducts (size * product) sizes

def dims (sizes : List UInt64) : List UInt64 := prefixProducts 1 sizes

def indexTuple (sizes : List UInt64) (i : UInt64) : List UInt64 :=
  List.zipWith (fun dim size => i * dim / kN sizes % size) (dims sizes) sizes

variable {α : Type}

def pick [Inhabited α] (arrays : List (List α)) (idx : List UInt64) : List α :=
  List.zipWith (fun array k => array.getD k.toNat default) arrays idx

def cartesianProduct [Inhabited α] (arrays : List (List α)) : List (List α) :=
  let sizes := arrays.map fun array => UInt64.ofNat array.length
  (List.range (kN sizes).toNat).map fun i => pick arrays (indexTuple sizes (UInt64.ofNat i))

section Index

variable {sizes : List UInt64}

def product (sizes : List UInt64) : Nat := (sizes.map UInt64.toNat).prod

theorem product_cons (size : UInt64) (sizes : List UInt64) :
    product (size :: sizes) = size.toNat * product sizes := by
  rw [product, List.map_cons, List.prod_cons]
  rfl

theorem toNat_pos {size : UInt64} (h : size ≠ 0) : 0 < size.toNat :=
  Nat.pos_of_ne_zero fun hzero => h (UInt64.toNat_inj.mp hzero)

theorem product_pos (h : ∀ size ∈ sizes, size ≠ 0) : 0 < product sizes := by
  induction sizes with
  | nil => exact Nat.one_pos
  | cons size sizes ih =>
    obtain ⟨hsize, hsizes⟩ := List.forall_mem_cons.mp h
    rw [product_cons]
    exact Nat.mul_pos (toNat_pos hsize) (ih hsizes)

theorem toNat_foldl_mul (sizes : List UInt64) (a : UInt64) :
    (sizes.foldl (· * ·) a).toNat = a.toNat * product sizes % 2 ^ 64 := by
  induction sizes generalizing a with
  | nil => simp [product]
  | cons size sizes ih =>
    rw [List.foldl_cons, ih, UInt64.toNat_mul, Nat.mod_mul_mod, product_cons, Nat.mul_assoc]

theorem toNat_kN (h : product sizes < 2 ^ 64) : (kN sizes).toNat = product sizes := by
  rw [kN, toNat_foldl_mul, UInt64.toNat_one, Nat.one_mul, Nat.mod_eq_of_lt h]

theorem toNat_zipWith_prefixProducts {i n before : UInt64} (h : ∀ size ∈ sizes, size ≠ 0)
    (hbefore : before ≠ 0) (hn : n.toNat = before.toNat * product sizes) (hi : i < n)
    (hfits : n.toNat * n.toNat < 2 ^ 64) :
    (List.zipWith (fun dim size => i * dim / n % size) (prefixProducts before sizes) sizes).map
      UInt64.toNat = digits (sizes.map UInt64.toNat) (i.toNat % product sizes) := by
  induction sizes generalizing before with
  | nil => rfl
  | cons size sizes ih =>
    obtain ⟨hsize, hsizes⟩ := List.forall_mem_cons.mp h
    have hpos : 0 < product sizes := product_pos hsizes
    have hdimpos : 0 < size.toNat * before.toNat :=
      Nat.mul_pos (toNat_pos hsize) (toNat_pos hbefore)
    have hn' : n.toNat = size.toNat * before.toNat * product sizes := by
      rw [hn, product_cons, ← Nat.mul_assoc, Nat.mul_comm before.toNat]
    have hdimle : size.toNat * before.toNat ≤ n.toNat := hn' ▸ Nat.le_mul_of_pos_right _ hpos
    have hdim : (size * before).toNat = size.toNat * before.toNat := by
      rw [UInt64.toNat_mul, Nat.mod_eq_of_lt]
      exact Nat.lt_of_le_of_lt (hdimle.trans (Nat.le_mul_self _)) hfits
    have hmul : (i * (size * before)).toNat = i.toNat * (size.toNat * before.toNat) := by
      rw [UInt64.toNat_mul, hdim, Nat.mod_eq_of_lt]
      exact Nat.lt_of_le_of_lt (Nat.mul_le_mul (Nat.le_of_lt hi) hdimle) hfits
    have hdigit : (i * (size * before) / n % size).toNat =
        i.toNat / product sizes % size.toNat := by
      rw [UInt64.toNat_mod, UInt64.toNat_div, hmul, hn', Nat.mul_comm _ (product sizes),
        Nat.mul_div_mul_right _ _ hdimpos]
    have hne : size * before ≠ 0 := by
      intro hzero
      rw [hzero] at hdim
      exact absurd hdim (Nat.ne_of_lt hdimpos)
    have hnext : n.toNat = (size * before).toNat * product sizes := by rw [hdim, hn']
    rw [prefixProducts, List.zipWith_cons_cons, List.map_cons, List.map_cons, hdigit,
      ih hsizes hne hnext]
    exact (digits_cons_mod size.toNat (sizes.map UInt64.toNat) i.toNat).symm

theorem toNat_indexTuple {i : UInt64} (h : ∀ size ∈ sizes, size ≠ 0)
    (hfits : product sizes * product sizes < 2 ^ 64) (hi : i < kN sizes) :
    (indexTuple sizes i).map UInt64.toNat = digits (sizes.map UInt64.toNat) i.toNat := by
  have hkN := toNat_kN (Nat.lt_of_le_of_lt (Nat.le_mul_self _) hfits)
  have hone : (kN sizes).toNat = (1 : UInt64).toNat * product sizes := by
    rw [hkN, UInt64.toNat_one, Nat.one_mul]
  have htuple := toNat_zipWith_prefixProducts h (by decide) hone hi (hkN ▸ hfits)
  have hlt : i.toNat < product sizes := hkN ▸ UInt64.lt_iff_toNat_lt.mp hi
  rw [Nat.mod_eq_of_lt hlt] at htuple
  exact htuple

theorem below_map_toNat_iff {t : List UInt64} :
    Below (t.map UInt64.toNat) (sizes.map UInt64.toNat) ↔ List.Forall₂ (· < ·) t sizes := by
  rw [Below, List.forall₂_map_left_iff, List.forall₂_map_right_iff]
  rfl

theorem lex_of_map_toNat {s t : List UInt64}
    (h : List.Lex (· < ·) (s.map UInt64.toNat) (t.map UInt64.toNat)) : List.Lex (· < ·) s t := by
  induction s generalizing t with
  | nil =>
    cases t with
    | nil => cases h
    | cons y t => exact .nil
  | cons x s ih =>
    cases t with
    | nil => cases h
    | cons y t =>
      cases List.cons_lex_cons_iff.mp h with
      | inl hlt => exact .rel (UInt64.lt_iff_toNat_lt.mpr hlt)
      | inr htail =>
        obtain rfl := UInt64.toNat_inj.mp htail.1
        exact .cons (ih htail.2)

/-- The indices are taken to all index tuples, each once, and in lexicographic order. -/
theorem indexTuple_bijOn (sizes : List UInt64) (h : ∀ size ∈ sizes, size ≠ 0)
    (hfits : product sizes * product sizes < 2 ^ 64) :
    Set.BijOn (indexTuple sizes) {i | i < kN sizes} {t | List.Forall₂ (· < ·) t sizes} ∧
    ∀ i j, i < j → j < kN sizes → List.Lex (· < ·) (indexTuple sizes i) (indexTuple sizes j) := by
  have hkN := toNat_kN (Nat.lt_of_le_of_lt (Nat.le_mul_self _) hfits)
  have hbelow : ∀ {i}, i < kN sizes → i.toNat < product sizes := fun hi =>
    hkN ▸ UInt64.lt_iff_toNat_lt.mp hi
  have hbij := digits_bijOn (sizes.map UInt64.toNat)
  refine ⟨⟨?_, ?_, ?_⟩, ?_⟩
  · intro i hi
    apply below_map_toNat_iff.mp
    rw [toNat_indexTuple h hfits hi]
    exact hbij.mapsTo (hbelow hi)
  · intro i hi j hj heq
    apply UInt64.toNat_inj.mp
    apply hbij.injOn (hbelow hi) (hbelow hj)
    rw [← toNat_indexTuple h hfits hi, ← toNat_indexTuple h hfits hj, heq]
  · intro t ht
    obtain ⟨i, hi, hdigits⟩ := hbij.surjOn (below_map_toNat_iff.mpr ht)
    have hproduct : product sizes < 2 ^ 64 := Nat.lt_of_le_of_lt (Nat.le_mul_self _) hfits
    have hlt : i < 2 ^ 64 := Nat.lt_trans hi hproduct
    have hof : (UInt64.ofNat i).toNat = i := UInt64.toNat_ofNat_of_lt' hlt
    have hmem : UInt64.ofNat i < kN sizes := by
      rw [UInt64.lt_iff_toNat_lt, hof, hkN]
      exact hi
    refine ⟨UInt64.ofNat i, hmem, ?_⟩
    have hmap := toNat_indexTuple h hfits hmem
    rw [hof, hdigits] at hmap
    exact List.map_injective_iff.mpr (fun _ _ => UInt64.toNat_inj.mp) hmap
  · intro i j hij hj
    have hi : i < kN sizes := UInt64.lt_trans hij hj
    apply lex_of_map_toNat
    rw [toNat_indexTuple h hfits hi, toNat_indexTuple h hfits hj]
    exact digits_lex (UInt64.lt_iff_toNat_lt.mp hij) (hbelow hj)

theorem indexTuple_bijOn_two_three :
    Set.BijOn (indexTuple [2, 3]) {i | i < kN [2, 3]} {t | List.Forall₂ (· < ·) t [2, 3]} ∧
    ∀ i j, i < j → j < kN [2, 3] → List.Lex (· < ·) (indexTuple [2, 3] i) (indexTuple [2, 3] j) :=
  indexTuple_bijOn [2, 3]
    (List.forall_mem_cons.mpr ⟨by decide, List.forall_mem_singleton.mpr (by decide)⟩) (by decide)

example : cartesianProduct [["a", "b"], ["x", "y", "z"]] =
    [["a", "x"], ["a", "y"], ["a", "z"], ["b", "x"], ["b", "y"], ["b", "z"]] := by decide +kernel

end Index

end DistributedMathArh.BenchUtils
