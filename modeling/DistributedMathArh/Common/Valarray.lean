import Mathlib.Data.UInt
import DistributedMathArh.Common.Json

namespace DistributedMathArh

open Json

abbrev Valarray (α : Type) := List α

/-- A binary operator of valarrays: operands of different sizes are undefined behaviour. -/
def Valarray.zipOp {α : Type} (op : α → α → α) (u v : Valarray α) : Except Halt (Valarray α) :=
  if u.length = v.length then .ok (List.zipWith op u v) else .error (.fault .sizeMismatch)

theorem Valarray.zipOp_of_length {α : Type} {op : α → α → α} {u v : Valarray α}
    (h : u.length = v.length) : zipOp op u v = .ok (List.zipWith op u v) := if_pos h

theorem Valarray.getD_zipWith {α : Type} {op : α → α → α} {d : α} (h0 : op d d = d)
    {u v : Valarray α} (h : u.length = v.length) (i : Nat) :
    (List.zipWith op u v).getD i d = op (u.getD i d) (v.getD i d) := by
  by_cases hi : i < u.length
  · simp [List.getD_eq_getElem?_getD, hi, h ▸ hi]
  · simp [List.getD_eq_getElem?_getD, hi, h ▸ hi, h0]

abbrev BenchResVec := Valarray UInt64

def kNValues : List UInt64 := [1, 2, 4, 5, 8, 10, 20, 40, 50, 100, 200, 400, 500]

def ns : BenchResVec := kNValues

/-- `NIndex`; a size that is not in the table gets the past-the-end index. -/
def nIndex (n : UInt64) : Nat := ns.findIdx fun x => x = n

def kBenchInfinity : UInt64 := 1000000000000

def defaultBench (init : UInt64) : BenchResVec := List.replicate kNValues.length init

theorem nIndex_lt_iff {n : UInt64} : nIndex n < 13 ↔ n ∈ ns := by
  apply List.findIdx_lt_length.trans
  simp

theorem nIndex_lt {n : UInt64} (h : n ∈ ns) : nIndex n < 13 := nIndex_lt_iff.mpr h

namespace BenchResVec

def add : BenchResVec → BenchResVec → Except Halt BenchResVec := Valarray.zipOp (· + ·)

def sub : BenchResVec → BenchResVec → Except Halt BenchResVec := Valarray.zipOp (· - ·)

def div (u v : BenchResVec) : Except Halt BenchResVec :=
  if u.length = v.length ∧ 0 ∈ v then .error (.fault .divisionByZero) else
    Valarray.zipOp (· / ·) u v

def scale (v : BenchResVec) (c : UInt64) : BenchResVec := v.map (· * c)

def divInto (c : UInt64) (v : BenchResVec) : Except Halt BenchResVec :=
  if 0 ∈ v then .error (.fault .divisionByZero) else .ok (v.map (c / ·))

def get (v : BenchResVec) (i : Nat) : Except Halt UInt64 :=
  match v[i]? with
  | some x => .ok x
  | none => .error (.fault .outOfBounds)

end BenchResVec

section Json

variable {α : Type}

/-- `ContinuousToJson`; an empty collection in the sizeless form leaves the result null. -/
def continuousToJson (toValue : α → Value) (col : List α) (printSize sizelessFormat : Bool) :
    Value :=
  if sizelessFormat then
    if col = [] then .null else .array (col.map toValue)
  else
    let size : Members := if printSize then [("size", .uint (UInt64.ofNat col.length))] else []
    let data : Members := if col = [] then [] else [("data", .array (col.map toValue))]
    if size ++ data = [] then .null else .object (size ++ data)

/-- The element count `JsonToContinuous` works with: a given size wins over the document's. -/
def continuousSize (val : Value) (sz : Option Nat) (sizelessFormat : Bool) : Except Exn Nat :=
  match sz, sizelessFormat with
  | some size, _ => .ok size
  | none, true => .ok val.size
  | none, false => do
    let size ← (← val.member "size").asUInt
    return size.toNat

def jsonToContinuous (as : Value → Except Exn α) (val : Value) (sz : Option Nat)
    (sizelessFormat : Bool) : Except Exn (List α) := do
  let size ← continuousSize val sz sizelessFormat
  (List.range size).mapM fun i => do
    let data ← if sizelessFormat then pure val else val.member "data"
    as (← data.item i)

theorem mapM_range_eq_ok {ε : Type} {f : Nat → Except ε α} {xs : List α}
    (h : ∀ (i : Nat) (hi : i < xs.length), f i = .ok xs[i]) :
    (List.range xs.length).mapM f = .ok xs := by
  induction xs generalizing f with
  | nil => rfl
  | cons x xs ih =>
    have hhead : f 0 = .ok x := h 0 (Nat.zero_lt_succ _)
    have htail : (List.range xs.length).mapM (f ∘ Nat.succ) = .ok xs :=
      ih fun i hi => h (i + 1) (Nat.succ_lt_succ hi)
    rw [List.length_cons, List.range_succ_eq_map, List.mapM_cons, List.mapM_map, hhead, htail]
    rfl

theorem jsonToContinuous_array {as : Value → Except Exn α} {toValue : α → Value} {val : Value}
    {xs : List α} (hval : val.member "data" = .ok (.array (xs.map toValue)))
    (has : ∀ x, as (toValue x) = .ok x) :
    jsonToContinuous as val (some xs.length) false = .ok xs := by
  apply mapM_range_eq_ok
  intro i hi
  simp [hval, Value.item, hi, has, bind, Except.bind]

end Json

end DistributedMathArh
