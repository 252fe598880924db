import Mathlib.Data.List.AList
import DistributedMathArh.Common.Json

namespace DistributedMathArh

open Json

def variantToJson : JsonVariant → Value
  | .null => .null
  | .bool b => .bool b
  | .int64 i => .int i
  | .uint64 n => .uint n
  | .double d => .real d
  | .string s => .string s

/-- `JsonToVariant`; the option named in the error is the number of the `ValueType`. -/
def jsonToVariant : Value → Except Exn JsonVariant
  | .null => .ok .null
  | .bool b => .ok (.bool b)
  | .int i => .ok (.int64 i)
  | .uint n => .ok (.uint64 n)
  | .real d => .ok (.double d)
  | .string s => .ok (.string s)
  | .array _ => .error (.invalidOption "6")
  | .object _ => .error (.invalidOption "7")

@[simp] theorem jsonToVariant_variantToJson (v : JsonVariant) :
    jsonToVariant (variantToJson v) = .ok v := by cases v <;> rfl

/-- The `args` of a task, in the iteration order of the hash map. -/
abbrev Args := AList fun _ : String => JsonVariant

structure TestSolveParam where
  experimentId : UInt64
  N : UInt64
  range : UInt64 × UInt64
  args : Args

namespace TestSolveParam

def argsEq (a b : Args) : Prop :=
  (∀ k, k ∈ a ↔ k ∈ b) ∧
    ∀ k x y, a.lookup k = some x → b.lookup k = some y → x.eq y = true

def eq (s t : TestSolveParam) : Prop :=
  s.experimentId = t.experimentId ∧ s.N = t.N ∧ s.range = t.range ∧ argsEq s.args t.args

def rangeSize (t : TestSolveParam) : UInt64 := t.range.2 - t.range.1 + 1

/-- `SliceAway`: the object after the call, and what it returns or throws.  All sums wrap. -/
def sliceAwayCall (t : TestSolveParam) (iterCount : UInt64) :
    TestSolveParam × Except Exn TestSolveParam :=
  if iterCount = 0 ∨ t.range.1 + iterCount > t.range.2 then
    (t, .error (.outOfRange iterCount 1 (t.range.2 - t.range.1 + 1)))
  else
    let ret := { t with range := (t.range.1, t.range.1 + iterCount - 1) }
    ({ t with range := (t.range.1 + iterCount, t.range.2) }, .ok ret)

def sliceAway (t : TestSolveParam) (iterCount : UInt64) :
    Except Exn (TestSolveParam × TestSolveParam) :=
  (t.sliceAwayCall iterCount).2.map fun ret => (ret, (t.sliceAwayCall iterCount).1)

theorem sliceAway_eq (t : TestSolveParam) (k : UInt64) : t.sliceAway k =
    if k = 0 ∨ t.range.1 + k > t.range.2 then
      .error (.outOfRange k 1 (t.range.2 - t.range.1 + 1))
    else .ok ({ t with range := (t.range.1, t.range.1 + k - 1) },
      { t with range := (t.range.1 + k, t.range.2) }) := by
  unfold sliceAway sliceAwayCall
  split <;> rfl

def argsToJson (args : Args) : Members :=
  args.entries.map fun e => (e.1, variantToJson e.2)

/-- `ToJson`; the member `args` only comes into being with its first argument. -/
def toJson (t : TestSolveParam) : Value :=
  .object
    ([("experiment_id", .uint t.experimentId), ("N", .uint t.N),
        ("range", .array [.uint t.range.1, .uint t.range.2])] ++
      if t.args.entries = [] then [] else [("args", .object (argsToJson t.args))])

def argsOfJson (vv : Value) : Except Exn Args := do
  let keys ← vv.getMemberNames
  keys.foldlM (fun (args : Args) key => do
    let x ← vv.member key
    let v ← jsonToVariant x
    return args.insert key v) ∅

/-- The constructor from `Json::Value&`: every integer field goes through `asUInt`. -/
def ofJson (val : Value) : Except Exn TestSolveParam := do
  let experimentId ← (← val.member "experiment_id").asUInt
  let n ← (← val.member "N").asUInt
  let range ← val.member "range"
  let first ← (← range.item 0).asUInt
  let second ← (← range.item 1).asUInt
  let args ← argsOfJson (← val.member "args")
  return ⟨experimentId.toUInt64, n.toUInt64, (first.toUInt64, second.toUInt64), args⟩

theorem range_lt_of_ofJson {val : Value} {t : TestSolveParam} (h : ofJson val = .ok t) :
    t.range.1.toNat < UInt32.size ∧ t.range.2.toNat < UInt32.size := by
  unfold ofJson at h
  simp only [bind_eq_ok] at h
  obtain ⟨_, _, _, _, _, _, _, _, _, _, _, _, first, _, _, _, second, _, _, _, _, _, ht⟩ := h
  cases ht
  exact ⟨first.toNat_lt, second.toNat_lt⟩

end TestSolveParam

end DistributedMathArh
