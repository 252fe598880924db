import Mathlib.Algebra.BigOperators.Group.List.Basic
import Mathlib.Algebra.Order.Ring.Int

namespace DistributedMathArh.Calendar

section Locate

def locate : List Nat → Nat → Nat × Nat
  | [], n => (0, n)
  | size :: sizes, n =>
    if n < size then (0, n) else ((locate sizes (n - size)).1 + 1, (locate sizes (n - size)).2)

theorem sum_take_locate (sizes : List Nat) (n : Nat) :
    (sizes.take (locate sizes n).1).sum + (locate sizes n).2 = n := by
  induction sizes generalizing n with
  | nil => exact Nat.zero_add n
  | cons size sizes ih =>
    rw [locate]
    split
    · exact Nat.zero_add n
    · rename_i hn
      rw [List.take_succ_cons, List.sum_cons, Nat.add_assoc, ih]
      exact Nat.add_sub_of_le (Nat.le_of_not_lt hn)

theorem locate_lt {sizes : List Nat} {n : Nat} (h : n < sizes.sum) :
    ∃ size, sizes[(locate sizes n).1]? = some size ∧ (locate sizes n).2 < size := by
  induction sizes generalizing n with
  | nil => cases h
  | cons size sizes ih =>
    rw [locate]
    split
    · rename_i hn
      exact ⟨size, rfl, hn⟩
    · rename_i hn
      rw [List.sum_cons] at h
      exact ih (by omega)

end Locate

def isLeap (year : Int) : Bool := year % 4 = 0 && (year % 100 ≠ 0 || year % 400 = 0)

def monthLengths (leap : Bool) : List Nat :=
  [31, if leap then 29 else 28, 31, 30, 31, 30, 31, 31, 30, 31, 30, 31]

def daysBefore (year : Int) : Int :=
  365 * (year - 1) + (year - 1) / 4 - (year - 1) / 100 + (year - 1) / 400

def dayNumber (year : Int) (month : Nat) (day : Int) : Int :=
  daysBefore year + ((monthLengths (isLeap year)).take month).sum + day - daysBefore 1970

def yearOf (z : Int) : Int :=
  let inCycle := z % 146097
  let century := min 3 (inCycle / 36524)
  let inCentury := inCycle - 36524 * century
  let single := min 3 (inCentury % 1461 / 365)
  400 * (z / 146097) + 100 * century + 4 * (inCentury / 1461) + single + 1

structure Date where
  year : Int
  month : Nat
  day : Nat
  valid : ∃ length, (monthLengths (isLeap year))[month]? = some length ∧ day < length

theorem sum_monthLengths (leap : Bool) :
    (monthLengths leap).sum = if leap then 366 else 365 := by
  cases leap <;> rfl

theorem yearOf_spec (z : Int) : daysBefore (yearOf z) ≤ z ∧
    z < daysBefore (yearOf z) + (monthLengths (isLeap (yearOf z))).sum := by
  -- cycles of 400 years, centuries, leap cycles and single years
  obtain ⟨c, h, q, s, hyear, hh, hq, hs, hlow, hhigh⟩ : ∃ c h q s : Int,
      yearOf z = 400 * c + 100 * h + 4 * q + s + 1 ∧ (0 ≤ h ∧ h ≤ 3) ∧ (0 ≤ q ∧ q ≤ 24) ∧
      (0 ≤ s ∧ s ≤ 3) ∧ 146097 * c + 36524 * h + 1461 * q + 365 * s ≤ z ∧
      z < 146097 * c + 36524 * h + 1461 * q + 365 * s +
        if s = 3 ∧ (q < 24 ∨ h = 3) then 366 else 365 := by
    refine ⟨z / 146097, _, _, _, rfl, ?_⟩
    split <;> omega
  have hbefore : daysBefore (yearOf z) = 146097 * c + 36524 * h + 1461 * q + 365 * s := by
    unfold daysBefore
    omega
  have hleap : isLeap (yearOf z) = true ↔ s = 3 ∧ (q < 24 ∨ h = 3) := by
    simp only [isLeap, Bool.and_eq_true, Bool.or_eq_true, decide_eq_true_eq, ne_eq]
    omega
  rw [hbefore, sum_monthLengths]
  split
  · omega
  · rename_i hcommon
    rw [hleap] at hcommon
    omega

def dayOfYear (z : Int) : Nat := (z - daysBefore (yearOf z)).toNat

theorem dayOfYear_lt (z : Int) : dayOfYear z < (monthLengths (isLeap (yearOf z))).sum := by
  have hspec := yearOf_spec z
  unfold dayOfYear
  omega

def ofDays (n : Int) : Date :=
  let z := n + daysBefore 1970
  let place := locate (monthLengths (isLeap (yearOf z))) (dayOfYear z)
  ⟨yearOf z, place.1, place.2, locate_lt (dayOfYear_lt z)⟩

theorem dayNumber_ofDays (n : Int) :
    dayNumber (ofDays n).year (ofDays n).month (ofDays n).day = n := by
  have hspec := (yearOf_spec (n + daysBefore 1970)).1
  have hplace := sum_take_locate (monthLengths (isLeap (yearOf (n + daysBefore 1970))))
    (dayOfYear (n + daysBefore 1970))
  simp only [dayNumber, ofDays, dayOfYear] at hplace ⊢
  omega

theorem year_bounds {n : Int} (h : -719162 ≤ n) :
    1 ≤ (ofDays n).year ∧ 365 * ((ofDays n).year - 1) ≤ n + 719162 := by
  have hspec := yearOf_spec (n + 719162)
  have hlength : (monthLengths (isLeap (yearOf (n + 719162)))).sum ≤ 366 := by
    rw [sum_monthLengths]
    split <;> decide
  change 1 ≤ yearOf (n + 719162) ∧ 365 * (yearOf (n + 719162) - 1) ≤ n + 719162
  generalize yearOf (n + 719162) = year at *
  unfold daysBefore at hspec
  omega

theorem Date.month_lt (d : Date) : d.month < 12 := by
  obtain ⟨length, hlength, -⟩ := d.valid
  exact (List.getElem?_eq_some_iff.mp hlength).1

theorem Date.day_lt (d : Date) : d.day < 31 := by
  obtain ⟨length, hlength, hday⟩ := d.valid
  have hmax : ∀ leap, ∀ l ∈ monthLengths leap, l ≤ 31 := by decide
  exact hday.trans_le (hmax _ length (List.mem_of_getElem? hlength))

example : (ofDays 20209).year = 2025 ∧ (ofDays 20209).month = 4 ∧ (ofDays 20209).day = 0 := by
  decide

end DistributedMathArh.Calendar
