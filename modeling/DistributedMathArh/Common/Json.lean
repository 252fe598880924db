import Mathlib.Data.Rat.Floor
import DistributedMathArh.Common.Outcome

/-! `Json::Value` as the repository uses it: the value tree, the checked conversions, member
access, and what a document looks like after it was written to text and read back. -/

namespace DistributedMathArh

/-- A `double` by the number it denotes; the zero with a sign bit is kept apart. -/
inductive Double
  | nan
  | inf (negative : Bool)
  | negZero
  | num (q : ℚ)
  deriving DecidableEq

namespace Double

def eq : Double → Double → Bool
  | .nan, _ => false
  | _, .nan => false
  | .negZero, .num q => q = 0
  | .num q, .negZero => q = 0
  | x, y => x = y

theorem eq_self {x : Double} (h : x ≠ .nan) : x.eq x = true := by
  cases x <;> simp_all [eq]

def toUnsigned? (max : Nat) : Double → Option Nat
  | .nan => none
  | .inf _ => none
  | .negZero => some 0
  | .num q => if 0 ≤ q ∧ q ≤ max then some ⌊q⌋.toNat else none

end Double

namespace Json

inductive Value
  | null
  | bool (b : Bool)
  | int (i : Int64)
  | uint (n : UInt64)
  | real (d : Double)
  | string (s : String)
  | array (xs : List Value)
  | object (members : List (String × Value))

abbrev Members := List (String × Value)

def Members.set (key : String) (x : Value) : Members → Members
  | [] => [(key, x)]
  | (k, y) :: ms => if k = key then (k, x) :: ms else (k, y) :: Members.set key x ms

namespace Value

/-- `operator[](key)` read: `null` behaves as the empty object, a missing member reads as null. -/
def member (key : String) : Value → Except Exn Value
  | .null => .ok .null
  | .object ms => .ok ((ms.lookup key).getD .null)
  | _ => .error (.logicError "in Json::Value::resolveReference(): requires objectValue")

def find (key : String) : Value → Except Exn Value
  | .null => .ok .null
  | .object ms => .ok ((ms.lookup key).getD .null)
  | _ => .error
      (.logicError "in Json::Value::find(begin, end): requires objectValue or nullValue")

def item (index : Nat) : Value → Except Exn Value
  | .null => .ok .null
  | .array xs => .ok (xs.getD index .null)
  | _ => .error (.logicError "in Json::Value::operator[](ArrayIndex): requires arrayValue")

def set (key : String) (x : Value) : Value → Except Exn Value
  | .null => .ok (.object [(key, x)])
  | .object ms => .ok (.object (Members.set key x ms))
  | _ => .error (.logicError "in Json::Value::resolveReference(): requires objectValue")

/-- `operator[](key)` on a document that may be written: the document afterwards, where the member
exists, and the member. -/
def resolveReference (key : String) (v : Value) : Except Exn (Value × Value) := do
  let x ← v.member key
  let v ← Value.set key x v
  return (v, x)

def isMember (key : String) : Value → Except Exn Bool
  | .null => .ok false
  | .object ms => .ok (ms.lookup key).isSome
  | _ => .error
      (.logicError "in Json::Value::find(begin, end): requires objectValue or nullValue")

def removeMember (key : String) : Value → Except Exn Value
  | .null => .ok .null
  | .object ms => .ok (.object (ms.filter fun m => m.1 ≠ key))
  | _ => .error (.logicError "in Json::Value::removeMember(): requires objectValue")

def getMemberNames : Value → Except Exn (List String)
  | .null => .ok []
  | .object ms => .ok (ms.map Prod.fst)
  | _ => .error
      (.logicError "in Json::Value::getMemberNames(), value must be objectValue")

def size : Value → Nat
  | .array xs => xs.length
  | .object ms => ms.length
  | _ => 0

def asUnsigned (max : Nat) (name : String) : Value → Except Exn Nat
  | .null => .ok 0
  | .bool b => .ok b.toNat
  | .int i =>
    if 0 ≤ i.toInt ∧ i.toInt ≤ max then .ok i.toInt.toNat
    else .error (.logicError s!"LargestInt out of {name} range")
  | .uint n =>
    if n.toNat ≤ max then .ok n.toNat
    else .error (.logicError s!"LargestUInt out of {name} range")
  | .real d =>
    match d.toUnsigned? max with
    | some n => .ok n
    | none => .error (.logicError s!"double out of {name} range")
  | _ => .error (.logicError s!"Value is not convertible to {name}.")

def asUInt (v : Value) : Except Exn UInt32 :=
  (v.asUnsigned (2 ^ 32 - 1) "UInt").map UInt32.ofNat

def asUInt64 (v : Value) : Except Exn UInt64 :=
  (v.asUnsigned (2 ^ 64 - 1) "UInt64").map UInt64.ofNat

/-- `asString`; how a `double` prints is left to the caller. -/
def asString (realText : Double → String) : Value → Except Exn String
  | .null => .ok ""
  | .bool b => .ok (if b then "true" else "false")
  | .int i => .ok (toString i.toInt)
  | .uint n => .ok (toString n.toNat)
  | .real d => .ok (realText d)
  | .string s => .ok s
  | _ => .error (.logicError "Type is not convertible to string")

def asBool : Value → Except Exn Bool
  | .null => .ok false
  | .bool b => .ok b
  | .int i => .ok (i ≠ 0)
  | .uint n => .ok (n ≠ 0)
  | .real d => .ok (match d with
    | .nan | .negZero => false
    | .inf _ => true
    | .num q => q ≠ 0)
  | _ => .error (.logicError "Value is not convertible to bool.")

def isNumeric : Value → Bool
  | .int _ => true
  | .uint _ => true
  | .real _ => true
  | _ => false

def elements : Value → List Value
  | .array xs => xs
  | .object ms => ms.map Prod.snd
  | _ => []

mutual

/-- The document that the reader builds from the text of `v`.  Numbers are exact, but the text
does not say which integer type they had: what fits `int64` comes back as an `intValue`. -/
def reread : Value → Value
  | .uint n => if n.toNat < 2 ^ 63 then .int n.toInt64 else .uint n
  | .real .nan => .null
  | .array xs => .array (rereadElems xs)
  | .object ms => .object (rereadMembers ms)
  | v => v

def rereadElems : List Value → List Value
  | [] => []
  | x :: xs => x.reread :: rereadElems xs

def rereadMembers : Members → Members
  | [] => []
  | (k, x) :: ms => (k, x.reread) :: rereadMembers ms

end

theorem rereadElems_eq_map (xs : List Value) : rereadElems xs = xs.map reread := by
  induction xs with
  | nil => rfl
  | cons x xs ih => rw [rereadElems, ih, List.map_cons]

theorem rereadMembers_eq_map (ms : Members) :
    rereadMembers ms = ms.map fun m => (m.1, m.2.reread) := by
  induction ms with
  | nil => rfl
  | cons m ms ih => rw [rereadMembers, ih, List.map_cons]

theorem asUnsigned_uint {n : UInt64} {max : Nat} {name : String} (h : n.toNat ≤ max) :
    (Value.uint n).asUnsigned max name = .ok n.toNat := if_pos h

theorem asUnsigned_int {i : Int64} {max : Nat} {name : String} (h0 : 0 ≤ i.toInt)
    (h : i.toInt ≤ max) : (Value.int i).asUnsigned max name = .ok i.toInt.toNat := if_pos ⟨h0, h⟩

theorem toNat_toInt64 {n : UInt64} (h : n.toNat < 2 ^ 63) : n.toInt64.toInt = n.toNat := by
  have e : n.toInt64 = Int64.ofNat n.toNat := by
    rw [← UInt64.toInt64_ofNat', UInt64.ofNat_toNat]
  rw [e, Int64.toInt_ofNat_of_lt (by omega)]

theorem asUnsigned_reread_uint (n : UInt64) (max : Nat) (name : String)
    (h : n.toNat ≤ max) : (Value.uint n).reread.asUnsigned max name = .ok n.toNat := by
  by_cases hs : n.toNat < 2 ^ 63
  · have hv := toNat_toInt64 hs
    rw [reread, if_pos hs, asUnsigned, hv, if_pos ⟨by omega, by omega⟩]
    rfl
  · rw [reread, if_neg hs]
    exact asUnsigned_uint h

end Value

end Json

inductive JsonVariant
  | null
  | bool (b : Bool)
  | int64 (i : Int64)
  | uint64 (n : UInt64)
  | double (d : Double)
  | string (s : String)
  deriving DecidableEq

namespace JsonVariant

def eq : JsonVariant → JsonVariant → Bool
  | .double x, .double y => x.eq y
  | x, y => x = y

theorem eq_self {x : JsonVariant} (h : x ≠ .double .nan) : x.eq x = true := by
  cases x with
  | double d => exact Double.eq_self fun e => h (congrArg _ e)
  | _ => simp [eq]

end JsonVariant

end DistributedMathArh
