import DistributedMathArh.Lib.Tiling
import DistributedMathArh.Network.TestSolveParam

namespace DistributedMathArh

open Tiling

theorem toNat_sub_one_of_add {first k : UInt64} (hk : k ≠ 0)
    (hadd : (first + k).toNat = first.toNat + k.toNat) :
    (first + k - 1).toNat + 1 = (first + k).toNat ∧ first.toNat ≤ (first + k - 1).toNat := by
  have hk0 : k.toNat ≠ 0 := fun h => hk (UInt64.toNat_inj.mp h)
  have hone : (1 : UInt64).toNat = 1 := rfl
  have := (first + k).toNat_lt
  rw [UInt64.toNat_sub, hone]
  omega

namespace TestSolveParam

theorem sliceAway_eq_ok {t b t' : TestSolveParam} {k : UInt64} :
    t.sliceAway k = .ok (b, t') ↔ k ≠ 0 ∧ t.range.1 + k ≤ t.range.2 ∧
      b = { t with range := (t.range.1, t.range.1 + k - 1) } ∧
      t' = { t with range := (t.range.1 + k, t.range.2) } := by
  rw [sliceAway_eq]
  split
  · rename_i h
    constructor
    · rintro ⟨⟩
    · rintro ⟨hk, hle, -⟩
      rcases h with h | h
      · exact absurd h hk
      · exact absurd hle (UInt64.not_le.mpr h)
  · rename_i h
    obtain ⟨hk, hle⟩ := not_or.mp h
    simp [hk, UInt64.not_lt.mp hle, eq_comm]

def block (t : TestSolveParam) : Block := (t.range.1.toNat, t.range.2.toNat)

def iterations (t : TestSolveParam) : Nat := t.range.2.toNat + 1 - t.range.1.toNat

structure Cut (t ret rest : TestSolveParam) (k : Nat) : Prop where
  count : ret.block.points.card = k
  start : ret.range.1 = t.range.1
  partitions : Partitions t.block.1 t.block.2 [ret.block, rest.block]
  ret_fields : ret = { t with range := ret.range }
  rest_fields : rest = { t with range := rest.range }

/-- What `SliceAway` promises: it refuses what cannot be cut off and touches nothing then; otherwise
it cuts. -/
def Slices (t : TestSolveParam) (k : UInt64) : Prop :=
  if k.toNat = 0 ∨ t.iterations ≤ k.toNat then
    t.sliceAwayCall k = (t, .error (.outOfRange k 1 t.rangeSize))
  else
    ∃ ret rest, t.sliceAwayCall k = (rest, .ok ret) ∧ Cut t ret rest k.toNat

variable {t : TestSolveParam} {k : UInt64}

theorem sliceAwayCall_of_refused (h : k = 0 ∨ t.range.1 + k > t.range.2) :
    t.sliceAwayCall k = (t, .error (.outOfRange k 1 t.rangeSize)) := if_pos h

theorem sliceAwayCall_of_accepted (hk : k ≠ 0) (hle : t.range.1 + k ≤ t.range.2) :
    t.sliceAwayCall k = ({ t with range := (t.range.1 + k, t.range.2) },
      .ok { t with range := (t.range.1, t.range.1 + k - 1) }) := by
  apply if_neg
  rintro (h | h)
  · exact hk h
  · exact UInt64.not_le.mpr h hle

theorem cut_of_accepted (hk : k ≠ 0) (hle : t.range.1 + k ≤ t.range.2)
    (hadd : (t.range.1 + k).toNat = t.range.1.toNat + k.toNat) :
    Cut t { t with range := (t.range.1, t.range.1 + k - 1) }
      { t with range := (t.range.1 + k, t.range.2) } k.toNat where
  count := by
    obtain ⟨hlast, -⟩ := toNat_sub_one_of_add hk hadd
    simp only [block, Nat.card_Icc, hlast, hadd]
    omega
  start := rfl
  partitions := by
    obtain ⟨hlast, hne⟩ := toNat_sub_one_of_add hk hadd
    apply Tiles.partitions
    apply Tiles.cons hne
    rw [hlast]
    exact Tiles.last (UInt64.le_iff_toNat_le.mp hle)
  ret_fields := rfl
  rest_fields := rfl

theorem slices_of_add (hadd : t.range.1.toNat + k.toNat < UInt64.size) : t.Slices k := by
  have hsum : (t.range.1 + k).toNat = t.range.1.toNat + k.toNat := by
    rw [UInt64.toNat_add]
    exact Nat.mod_eq_of_lt hadd
  unfold Slices iterations
  split
  · rename_i hrefuse
    apply sliceAwayCall_of_refused
    apply hrefuse.imp
    · exact fun h => UInt64.toNat_inj.mp h
    · intro h
      apply UInt64.lt_iff_toNat_lt.mpr
      omega
  · rename_i haccept
    obtain ⟨hzero, hlt⟩ := not_or.mp haccept
    have hk : k ≠ 0 := fun h => hzero (congrArg UInt64.toNat h)
    have hle : t.range.1 + k ≤ t.range.2 := by
      apply UInt64.le_iff_toNat_le.mpr
      omega
    exact ⟨_, _, sliceAwayCall_of_accepted hk hle, cut_of_accepted hk hle hsum⟩

theorem not_slices_of_wrap (h : t.range.1 ≤ t.range.2)
    (hwrap : UInt64.size ≤ t.range.1.toNat + k.toNat) : ¬t.Slices k := by
  have hfirst := t.range.1.toNat_lt
  have hsecond := t.range.2.toNat_lt
  have hcount := k.toNat_lt
  have hle := UInt64.le_iff_toNat_le.mp h
  unfold UInt64.size at hwrap
  have hzero : k.toNat ≠ 0 := by omega
  have hpass : t.range.1 + k ≤ t.range.2 := by
    apply UInt64.le_iff_toNat_le.mpr
    rw [UInt64.toNat_add]
    omega
  have hrefuse : k.toNat = 0 ∨ t.iterations ≤ k.toNat := by
    right
    unfold iterations
    omega
  rw [Slices, if_pos hrefuse,
    sliceAwayCall_of_accepted (fun h => hzero (congrArg UInt64.toNat h)) hpass]
  intro hcall
  cases congrArg Prod.snd hcall

/-- `SliceAway` keeps its promise exactly when the sum in its guard does not wrap around. -/
theorem slices_iff (t : TestSolveParam) (k : UInt64) (h : t.range.1 ≤ t.range.2) :
    t.Slices k ↔ t.range.1.toNat + k.toNat < UInt64.size := by
  constructor
  · intro hslices
    by_contra hwrap
    exact not_slices_of_wrap h (Nat.not_lt.mp hwrap) hslices
  · exact slices_of_add

theorem slices_iff_tenth :
    Slices ⟨7, 20, (1, 10), ∅⟩ 4 ↔ (1 : UInt64).toNat + (4 : UInt64).toNat < UInt64.size :=
  slices_iff ⟨7, 20, (1, 10), ∅⟩ 4 (by decide)

theorem not_slices_wrapped :
    ¬∀ (t : TestSolveParam) (k : UInt64), t.range.1 ≤ t.range.2 → t.Slices k := by
  intro hall
  have hslices := hall ⟨7, 20, (1, 10), ∅⟩ 18446744073709551615 (by decide)
  rw [Slices, if_pos (by decide)] at hslices
  cases congrArg Prod.snd hslices

end TestSolveParam

end DistributedMathArh
