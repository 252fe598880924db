import Mathlib.Algebra.Ring.Int.Defs
import DistributedMathArh.Common.Outcome

namespace DistributedMathArh

structure Tm where
  year : Int
  mon : Int
  mday : Int
  hour : Int
  min : Int
  sec : Int
  deriving DecidableEq

namespace Timing

inductive Directive
  | int
  | literal (c : Char)
  | blanks

def isSpace (c : Char) : Bool := c ∈ [' ', '\t', '\n', '\x0b', '\x0c', '\r']

def scanInt (s : List Char) : Option (Int × List Char) :=
  let (sign, s) : Int × List Char :=
    match s.dropWhile isSpace with
    | '-' :: s => (-1, s)
    | '+' :: s => (1, s)
    | s => (1, s)
  let digits := s.takeWhile Char.isDigit
  if digits = [] then none else some (sign * Nat.ofDigitChars 10 digits 0, s.dropWhile Char.isDigit)

def fitsInt (n : Int) : Bool := -2147483648 ≤ n ∧ n < 2147483648

/-- The values that are assigned before the text stops to match; a value outside of `int` is
undefined behaviour. -/
def sscanf : List Directive → List Char → Except Fault (List Int)
  | [], _ => .ok []
  | .int :: format, s =>
    match scanInt s with
    | none => .ok []
    | some (n, rest) =>
      if fitsInt n then (sscanf format rest).map (n :: ·) else .error .signedOverflow
  | .literal c :: format, x :: s => if x = c then sscanf format s else .ok []
  | .literal _ :: _, [] => .ok []
  | .blanks :: format, s => sscanf format (s.dropWhile isSpace)

def timestampFormat : List Directive :=
  [.int, .literal '-', .int, .literal '-', .int, .blanks, .int, .literal ':', .int, .literal ':',
    .int, .literal '.', .int]

/-- `StrToTimepoint`, in microseconds; the conversion of the calendar fields to seconds is the
one of the C library. -/
def strToTimepoint (mktime : Tm → Int) (ts : String) : Except Fault (Option UInt64) :=
  match sscanf timestampFormat ts.toList with
  | .error f => .error f
  | .ok [year, mon, mday, hour, min, sec, micros] =>
    let frac := (ts.toList.dropWhile (· ≠ '.')).tail
    -- beyond six digits the power is infinite
    if 6 < frac.length then .error .signedOverflow
    else
      let micros := micros * 10 ^ (6 - frac.length)
      if fitsInt micros then
        let secs := mktime ⟨year - 1900, mon - 1, mday, hour, min, sec⟩
        .ok (some (UInt64.ofInt (secs * 1000000 + micros)))
      else .error .signedOverflow
  | .ok _ => .ok none

end Timing

end DistributedMathArh
