import DistributedMathArh.Common.Valarray
import DistributedMathArh.Parallel.Nesting

namespace DistributedMathArh

open Timing

def iterCount : BenchResVec := [1000, 1000, 1000, 1000, 1000, 1000, 100, 100, 100, 25, 25, 5, 5]

def iterNum : UInt64 := 10000

namespace Timing.ClockArray

variable {Out In : Type}

def resetTimer (location : LocationType) (c : ClockArray Out In) : ClockArray Out In :=
  { c with timers := c.timers.erase location }

/-- `operator[]`: a timer that is not there is made. -/
def timer [Zero Out] (loc : LocationType) (c : ClockArray Out In) :
    TimeStore Out × ClockArray Out In :=
  match c.timers.lookup loc with
  | some t => (t, c)
  | none => (0, { c with timers := c.timers.insert loc 0 })

def lap [Add Out] [Zero Out] [Inhabited In] (timeConverter : In → In → Out) (loc id : LocationType)
    (now : In) (c : ClockArray Out In) : Except Exn (Out × ClockArray Out In) :=
  match c.tak timeConverter id now with
  | (_, .error e) => .error e
  | (c, .ok ()) =>
    let (t, c) := c.timer loc
    .ok (t.time, c.resetTimer loc)

end Timing.ClockArray

structure BenchmarkSites where
  run : LocationType
  runTak : LocationType
  single : LocationType
  singleTak : LocationType
  runPairs : Pairs run runTak
  singlePairs : Pairs single singleTak
  function_ne : single.function ≠ run.function

structure BenchmarkTimes (In : Type) where
  started : In
  singleStarted : In
  singleStopped : In
  stopped : In

structure BenchmarkRunner (In : Type) where
  ns : BenchResVec
  iterCounts : BenchResVec
  clk : ClockArray Int64 In
  sized : ns.length = iterCounts.length

namespace BenchmarkRunner

variable {In : Type}

def construct (nss iterCounts : BenchResVec) : Except Exn (BenchmarkRunner In) :=
  if h : nss.length = iterCounts.length then .ok ⟨nss, iterCounts, .empty, h⟩
  else .error (.invalidArgument "ns and iter_counts must have the same size")

variable [Inhabited In] (sites : BenchmarkSites) (timeConverter : In → In → Int64)

def runSingleBenchmark (confNum : UInt64) (x : BenchmarkTimes In) (clk : ClockArray Int64 In) :
    Except Halt (UInt64 × ClockArray Int64 In) :=
  if confNum = 0 then .error (.fault .divisionByZero)
  else
    let mul := iterNum / confNum
    let clk := clk.tik sites.single x.singleStarted
    match clk.lap timeConverter sites.single sites.singleTak x.singleStopped with
    | .error e => .error (.exn e)
    | .ok (time, clk) => .ok (time.toUInt64 * mul, clk)

/-- The loop of `Run` from `j` on.  The sizes that are printed are those of the table
`shared::ns`, not those of the runner. -/
def rounds (x : Nat → BenchmarkTimes In) : Nat → List UInt64 → ClockArray Int64 In →
    Except Halt ((BenchResVec × BenchResVec) × ClockArray Int64 In)
  | _, [], clk => .ok (([], []), clk)
  | j, confNum :: counts, clk => do
    let (result, clk) ←
      runSingleBenchmark sites timeConverter confNum (x j) (clk.tik sites.run (x j).started)
    match clk.lap timeConverter sites.run sites.runTak (x j).stopped with
    | .error e => .error (.exn e)
    | .ok (time, clk) =>
      if j < DistributedMathArh.ns.length then
        let ((results, results2), clk) ← rounds x (j + 1) counts clk
        return ((result :: results, time.toUInt64 :: results2), clk)
      else .error (.fault .outOfBounds)

def run (x : Nat → BenchmarkTimes In) (r : BenchmarkRunner In) :
    Except Halt ((BenchResVec × BenchResVec) × BenchmarkRunner In) :=
  (rounds sites timeConverter x 0 r.iterCounts r.clk).map fun (res, clk) => (res, { r with clk })

variable {sites}

def Idle (sites : BenchmarkSites) (clk : ClockArray Int64 In) : Prop :=
  sites.run ∉ clk.timers ∧ sites.single ∉ clk.timers

end BenchmarkRunner

end DistributedMathArh
