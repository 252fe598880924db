import Mathlib.Data.Finset.Sort
import DistributedMathArh.Parallel.Nesting
import DistributedMathArh.Testing.CartesianProduct
import DistributedMathArh.Testing.FileHandler

/-! `bench_utils::BenchmarkHandler`: benchmarks over all combinations of some parameters, with one
`ClockArray` for the times of an iteration and for the totals. -/

namespace DistributedMathArh.BenchUtils

open FinmapSum (Map)
open FileUtils (FileCall joinPath)
open Timing (LocationType TimeStore ClockArray Call Pairs)
open Totals Transition

section Balanced

variable {Out In : Type}

def balanced : List LocationType → List (Call In) → Bool
  | stack, [] => stack.isEmpty
  | stack, .tik id _ :: calls => balanced (id :: stack) calls
  | top :: stack, .tak id _ :: calls => decide (Pairs top id) && balanced stack calls
  | [], .tak _ _ :: _ => false

variable [Add Out] [Inhabited In] (timeConverter : In → In → Out)

def runCalls (c : ClockArray Out In) (calls : List (Call In)) : Except Exn (ClockArray Out In) :=
  calls.foldlM (fun c a => match c.call timeConverter a with
    | (c, .ok ()) => .ok c
    | (_, .error e) => .error e) c

def measuredAmounts : (LocationType → In) → List LocationType → List (Call In) →
    List (LocationType × TimeStore Out)
  | starts, stack, .tik id now :: calls =>
    measuredAmounts (Function.update starts id now) (id :: stack) calls
  | starts, top :: stack, .tak _ now :: calls =>
    (top, ⟨timeConverter now (starts top), 1⟩) :: measuredAmounts starts stack calls
  | _, _, _ => []

omit [Add Out] [Inhabited In] in
theorem measuredAmounts_congr {calls : List (Call In)} {stack : List LocationType}
    {starts starts' : LocationType → In} (h : ∀ l ∈ stack, starts l = starts' l) :
    measuredAmounts timeConverter starts stack calls =
      measuredAmounts timeConverter starts' stack calls := by
  induction calls generalizing stack starts starts' with
  | nil => simp [measuredAmounts]
  | cons a calls ih =>
    cases a with
    | tik id now =>
      rw [measuredAmounts, measuredAmounts]
      apply ih
      intro l hl
      by_cases hid : l = id
      · subst hid
        rw [Function.update_self, Function.update_self]
      · rw [Function.update_of_ne hid, Function.update_of_ne hid]
        exact h l ((List.mem_cons.mp hl).resolve_left hid)
    | tak id now =>
      cases stack with
      | nil => simp [measuredAmounts]
      | cons top stack =>
        rw [measuredAmounts, measuredAmounts, h top List.mem_cons_self,
          ih fun l hl => h l (List.mem_cons_of_mem _ hl)]

theorem runCalls_balanced {calls : List (Call In)} {stack : List LocationType}
    (h : balanced stack calls = true) {c : ClockArray Out In} (hc : c.toTak = stack) :
    ∃ d, runCalls timeConverter c calls = .ok d ∧ d.toTak = [] ∧
      d.timers = addAll c.timers (measuredAmounts timeConverter c.start stack calls) := by
  induction calls generalizing c stack with
  | nil =>
    have hempty : stack = [] := by simpa [balanced] using h
    subst hempty
    exact ⟨c, rfl, hc, by simp [measuredAmounts, addAll]⟩
  | cons a calls ih =>
    cases a with
    | tik id now =>
      obtain ⟨d, hrun, htop, htimers⟩ := ih h (c := c.tik id now) (congrArg (id :: ·) hc)
      refine ⟨d, hrun, htop, ?_⟩
      rw [htimers, ClockArray.start_tik, measuredAmounts]
      rfl
    | tak id now =>
      cases stack with
      | nil => simp [balanced] at h
      | cons top stack =>
        simp only [balanced, Bool.and_eq_true, decide_eq_true_eq] at h
        obtain ⟨hpairs, h⟩ := h
        have hcode := ClockArray.tak_of_cons timeConverter now hc hpairs.1
        rw [Timing.takLocation_of_pairs hpairs] at hcode
        generalize hnext : (⟨Totals.add c.timers top ⟨timeConverter now (c.start top), 1⟩,
          c.subscript top, stack⟩ : ClockArray Out In) = next at hcode
        obtain ⟨d, hrun, htop, htimers⟩ := ih h (c := next) (hnext ▸ rfl)
        have hstart : next.start = c.start := ClockArray.start_subscript c next top (hnext ▸ rfl)
        refine ⟨d, ?_, htop, ?_⟩
        · rw [runCalls, List.foldlM_cons, ClockArray.call, hcode]
          exact hrun
        · rw [htimers, hstart, ← hnext]
          rfl

omit [Add Out] [Inhabited In] in
theorem count_pos_of_amounts (starts : LocationType → In) (stack : List LocationType)
    (calls : List (Call In)) : ∀ e ∈ measuredAmounts timeConverter starts stack calls,
      0 < e.2.count := by
  induction calls generalizing starts stack with
  | nil => simp [measuredAmounts]
  | cons a calls ih =>
    cases a with
    | tik id now => exact ih _ _
    | tak id now =>
      cases stack with
      | nil => simp [measuredAmounts]
      | cons top stack =>
        rw [measuredAmounts]
        exact List.forall_mem_cons.mpr ⟨Nat.one_pos, ih starts stack⟩

end Balanced

section Measured

variable {In : Type} [Inhabited In] (timeConverter : In → In → Int)

def measured (calls : List (Call In)) : Map LocationType (TimeStore Int) :=
  match runCalls timeConverter .empty calls with
  | .ok c => c.timers
  | .error _ => ∅

theorem measured_eq {calls : List (Call In)} (h : balanced [] calls = true)
    (starts : LocationType → In) :
    measured timeConverter calls = addAll ∅ (measuredAmounts timeConverter starts [] calls) := by
  obtain ⟨d, hrun, -, htimers⟩ := runCalls_balanced timeConverter h (c := .empty) rfl
  rw [measured, hrun]
  dsimp only
  rw [htimers, measuredAmounts_congr timeConverter fun l hl => absurd hl List.not_mem_nil]
  rfl

theorem runCalls_merge {calls : List (Call In)} (h : balanced [] calls = true)
    {c : ClockArray Int In} (hc : c.toTak = []) :
    ∃ d, runCalls timeConverter c calls = .ok d ∧ d.toTak = [] ∧
      d.timers = merge c.timers (measured timeConverter calls) := by
  obtain ⟨d, hrun, htop, htimers⟩ := runCalls_balanced timeConverter h hc
  refine ⟨d, hrun, htop, ?_⟩
  rw [htimers, measured_eq timeConverter h c.start, addAll_eq_merge]

def Counted (timers : Map LocationType (TimeStore Int)) : Prop :=
  ∀ location store, timers.lookup location = some store → 0 < store.count

theorem counted_merge {m m' : Map LocationType (TimeStore Int)} (hm : Counted m)
    (hm' : Counted m') : Counted (merge m m') :=
  forall_merge (fun _ _ hx _ => Nat.add_pos_left hx _) hm hm'

theorem counted_empty : Counted ∅ := by
  intro location store h
  cases h

theorem counted_measured {calls : List (Call In)} (h : balanced [] calls = true) :
    Counted (measured timeConverter calls) := by
  rw [measured_eq timeConverter h fun _ => default]
  exact forall_addAll (fun _ _ hx _ => Nat.add_pos_left hx _) counted_empty
    (count_pos_of_amounts timeConverter _ _ _)

theorem counted_foldl_merge {ms : List (Map LocationType (TimeStore Int))}
    {m : Map LocationType (TimeStore Int)} (hm : Counted m) (hms : ∀ m' ∈ ms, Counted m') :
    Counted (ms.foldl merge m) := by
  induction ms generalizing m with
  | nil => exact hm
  | cons m' ms ih =>
    obtain ⟨hm', hms⟩ := List.forall_mem_cons.mp hms
    exact ih (counted_merge hm hm') hms

def countAt (timers : Map LocationType (TimeStore Int)) (location : LocationType) : Nat :=
  ((timers.lookup location).map TimeStore.count).getD 0

theorem countAt_merge (m m' : Map LocationType (TimeStore Int)) (location : LocationType) :
    countAt (merge m m') location = countAt m location + countAt m' location := by
  unfold countAt
  rw [lookup_merge]
  cases m.lookup location <;> cases m'.lookup location <;> simp

theorem countAt_foldl_merge (ms : List (Map LocationType (TimeStore Int)))
    (location : LocationType) :
    ∃ n, ∀ m, countAt (ms.foldl merge m) location = countAt m location + n := by
  induction ms with
  | nil => exact ⟨0, fun _ => rfl⟩
  | cons m' ms ih =>
    obtain ⟨n, hn⟩ := ih
    refine ⟨countAt m' location + n, fun m => ?_⟩
    rw [List.foldl_cons, hn, countAt_merge, Nat.add_assoc]

theorem eq_empty_of_merge_twice {m m' : Map LocationType (TimeStore Int)}
    {ms : List (Map LocationType (TimeStore Int))} (hm : Counted m)
    (h : ms.foldl merge (merge m (merge m m')) = ms.foldl merge (merge m m')) : m = ∅ := by
  apply Finmap.ext_lookup
  intro location
  rw [Finmap.lookup_empty]
  cases hlook : m.lookup location with
  | none => rfl
  | some store =>
    obtain ⟨n, hlater⟩ := countAt_foldl_merge ms location
    have hcount := congrArg (countAt · location) h
    simp only [hlater, countAt_merge] at hcount
    have hpos := hm location store hlook
    have hstore : countAt m location = store.count := by
      rw [countAt, hlook]
      rfl
    omega

end Measured

def tupleToString (tp : List String) (delim left right : String) : String :=
  left ++ delim.intercalate tp ++ right

def ddpath : String := "timers"

def entries (timers : Map LocationType (TimeStore Int)) : List (LocationType × TimeStore Int) :=
  timers.keys.sort.filterMap fun location => (timers.lookup location).map (location, ·)

def snapshotTimers (opens : String → Bool) (timers : Map LocationType (TimeStore Int))
    (preprint delim : String) (multiplier : UInt64) : List FileCall :=
  (entries timers).flatMap fun (location, store) =>
    let name := joinPath ddpath (location.file ++ "_" ++ location.line)
    [.upsert name .app (opens name), .output name preprint (opens name),
      .output name (toString (UInt64.ofInt store.time * multiplier)) (opens name),
      .output name delim (opens name), .close name]

/-- What a benchmark function does in one iteration: its calls of `Tik` and `Tak`, the multiplier
that it leaves, and the files that can be opened then. -/
structure BenchRun (In : Type) where
  calls : List (Call In)
  mul : UInt64
  opens : String → Bool

structure Benchmark (In : Type) where
  arrays : List (List String)
  bench : Nat → List String → BenchRun In

def Benchmark.iterations {In : Type} (b : Benchmark In) : List (List String × BenchRun In) :=
  (cartesianProduct b.arrays).mapIdx fun i tuple => (tuple, b.bench i tuple)

def Benchmark.isBalanced {In : Type} (b : Benchmark In) : Bool :=
  b.iterations.all fun it => balanced [] it.2.calls

/-- `snapshots` are the calls that `fh_` got from each `SnapshotTimers`. -/
structure BenchmarkHandler (In : Type) where
  clkArr : ClockArray Int In
  mul : UInt64
  snapshots : List (List FileCall)

namespace BenchmarkHandler

variable {In : Type}

def init : BenchmarkHandler In := ⟨.empty, 1, []⟩

def snapshot (timers : Map LocationType (TimeStore Int)) (it : List String × BenchRun In) :
    List FileCall :=
  snapshotTimers it.2.opens timers (tupleToString it.1 "\t" "" "" ++ "\t") "\n" it.2.mul

variable [Inhabited In] (timeConverter : In → In → Int)

def iteration (s : BenchmarkHandler In × ClockArray Int In) (it : List String × BenchRun In) :
    Except Exn (BenchmarkHandler In × ClockArray Int In) := do
  let clkArr ← runCalls timeConverter s.1.clkArr it.2.calls
  let snapshots := s.1.snapshots ++ [snapshot clkArr.timers it]
  let clkdc := s.2.advance clkArr
  let clkArr ← clkArr.reset
  return (⟨clkArr, it.2.mul, snapshots⟩, clkdc)

def runBenchmark (h : BenchmarkHandler In) (b : Benchmark In) : Except Exn (BenchmarkHandler In) := do
  let (h, clkdc) ← b.iterations.foldlM (iteration timeConverter) (h, h.clkArr)
  return { h with clkArr := clkdc }

def step (h : BenchmarkHandler In) (b : Benchmark In) : Option (BenchmarkHandler In) :=
  if b.isBalanced then (h.runBenchmark timeConverter b).toOption else none

structure Accounted (bs : List (Benchmark In)) (h : BenchmarkHandler In) : Prop where
  totals : Sums h.clkArr.timers
    ((bs.flatMap Benchmark.iterations).map fun it => measured timeConverter it.2.calls)
  snapshots : h.snapshots = (bs.flatMap Benchmark.iterations).map fun it =>
    snapshot (measured timeConverter it.2.calls) it

/-- The array is as the constructor left it, or nothing is measured. -/
def Unused (h : BenchmarkHandler In) (b : Benchmark In) : Prop :=
  h.clkArr.timers = ∅ ∨ b.iterations = []

structure Ready (h : BenchmarkHandler In) : Prop where
  toTak : h.clkArr.toTak = []
  counted : Counted h.clkArr.timers

section Run

variable {timeConverter : In → In → Int} {h u : BenchmarkHandler In} {b : Benchmark In}
  {bs : List (Benchmark In)}

theorem iteration_eq (timeConverter : In → In → Int) (h : BenchmarkHandler In)
    (clkdc : ClockArray Int In) {it : List String × BenchRun In}
    (hbalanced : balanced [] it.2.calls = true) (htop : h.clkArr.toTak = []) :
    iteration timeConverter (h, clkdc) it = .ok
      (⟨.empty, it.2.mul, h.snapshots ++
          [snapshot (merge h.clkArr.timers (measured timeConverter it.2.calls)) it]⟩,
        { clkdc with
          timers := merge clkdc.timers
            (merge h.clkArr.timers (measured timeConverter it.2.calls)) }) := by
  obtain ⟨d, hrun, hd, htimers⟩ := runCalls_merge timeConverter hbalanced htop
  have hreset : d.reset = .ok .empty := if_neg (not_not.mpr hd)
  simp only [iteration, hrun, hreset, bind, Except.bind, pure, Except.pure, ClockArray.advance,
    htimers]

theorem foldlM_iteration (timeConverter : In → In → Int) {its : List (List String × BenchRun In)}
    (hbalanced : ∀ it ∈ its, balanced [] it.2.calls = true) (mul : UInt64)
    (snapshots : List (List FileCall)) (clkdc : ClockArray Int In) :
    ∃ mul', its.foldlM (iteration timeConverter) (⟨.empty, mul, snapshots⟩, clkdc) = .ok
      (⟨.empty, mul', snapshots ++
          its.map fun it => snapshot (measured timeConverter it.2.calls) it⟩,
        { clkdc with
          timers := (its.map fun it => measured timeConverter it.2.calls).foldl merge
            clkdc.timers }) := by
  induction its generalizing mul snapshots clkdc with
  | nil =>
    refine ⟨mul, ?_⟩
    rw [List.map_nil, List.append_nil]
    rfl
  | cons it its ih =>
    obtain ⟨hit, hits⟩ := List.forall_mem_cons.mp hbalanced
    have hone := iteration_eq timeConverter ⟨.empty, mul, snapshots⟩ clkdc hit rfl
    have hempty : (ClockArray.empty : ClockArray Int In).timers = ∅ := rfl
    rw [hempty, empty_merge] at hone
    obtain ⟨mul', hrest⟩ := ih hits it.2.mul
      (snapshots ++ [snapshot (measured timeConverter it.2.calls) it])
      { clkdc with timers := merge clkdc.timers (measured timeConverter it.2.calls) }
    refine ⟨mul', ?_⟩
    rw [List.foldlM_cons, hone]
    dsimp only [bind, Except.bind]
    rw [hrest, List.append_assoc]
    rfl

theorem runBenchmark_of_nil (hits : b.iterations = []) : h.runBenchmark timeConverter b = .ok h := by
  rw [runBenchmark, hits]
  rfl

theorem runBenchmark_of_cons (timeConverter : In → In → Int) {it : List String × BenchRun In}
    {its : List (List String × BenchRun In)} (hits : b.iterations = it :: its)
    (hbalanced : b.isBalanced = true) (htop : h.clkArr.toTak = []) :
    ∃ mul, h.runBenchmark timeConverter b = .ok
      ⟨{ h.clkArr with
          timers := (its.map fun it => measured timeConverter it.2.calls).foldl merge
            (merge h.clkArr.timers
              (merge h.clkArr.timers (measured timeConverter it.2.calls))) },
        mul, h.snapshots ++
          [snapshot (merge h.clkArr.timers (measured timeConverter it.2.calls)) it] ++
          its.map fun it => snapshot (measured timeConverter it.2.calls) it⟩ := by
  rw [Benchmark.isBalanced, hits, List.all_eq_true] at hbalanced
  obtain ⟨hit, hrest⟩ := List.forall_mem_cons.mp hbalanced
  have hone := iteration_eq timeConverter h h.clkArr hit htop
  obtain ⟨mul, hloop⟩ := foldlM_iteration timeConverter hrest it.2.mul
    (h.snapshots ++ [snapshot (merge h.clkArr.timers (measured timeConverter it.2.calls)) it])
    { h.clkArr with
      timers := merge h.clkArr.timers
        (merge h.clkArr.timers (measured timeConverter it.2.calls)) }
  refine ⟨mul, ?_⟩
  rw [runBenchmark, hits, List.foldlM_cons, hone]
  dsimp only [bind, Except.bind]
  rw [hloop]
  rfl

theorem step_eq_some (hstep : h.step timeConverter b = some u) :
    b.isBalanced = true ∧ h.runBenchmark timeConverter b = .ok u := by
  obtain ⟨hbalanced, hrun⟩ := Option.ite_none_right_eq_some.mp hstep
  refine ⟨hbalanced, ?_⟩
  cases hresult : h.runBenchmark timeConverter b with
  | error e =>
    rw [hresult] at hrun
    cases hrun
  | ok v =>
    rw [hresult] at hrun
    exact congrArg Except.ok (Option.some.inj hrun)

theorem counted_iterations (timeConverter : In → In → Int)
    (hbalanced : ∀ it ∈ b.iterations, balanced [] it.2.calls = true) :
    ∀ m ∈ b.iterations.map fun it => measured timeConverter it.2.calls, Counted m := by
  intro m hm
  obtain ⟨it, hit, rfl⟩ := List.mem_map.mp hm
  exact counted_measured timeConverter (hbalanced it hit)

theorem Ready.step (hready : h.Ready) (hstep : h.step timeConverter b = some u) : u.Ready := by
  obtain ⟨hbalanced, hrun⟩ := step_eq_some hstep
  cases hits : b.iterations with
  | nil =>
    rw [runBenchmark_of_nil hits] at hrun
    cases hrun
    exact hready
  | cons it its =>
    obtain ⟨mul, hcons⟩ := runBenchmark_of_cons timeConverter hits hbalanced hready.toTak
    rw [hcons] at hrun
    cases hrun
    have hall := counted_iterations timeConverter (List.all_eq_true.mp hbalanced)
    rw [hits, List.map_cons] at hall
    obtain ⟨hit, hrest⟩ := List.forall_mem_cons.mp hall
    exact ⟨hready.toTak, counted_foldl_merge
      (counted_merge hready.counted (counted_merge hready.counted hit)) hrest⟩

theorem accounted_step_iff (hready : h.Ready) (hacc : h.Accounted timeConverter bs)
    (hstep : h.step timeConverter b = some u) :
    u.Accounted timeConverter (bs ++ [b]) ↔ h.Unused b := by
  obtain ⟨hbalanced, hrun⟩ := step_eq_some hstep
  have happend : (bs ++ [b]).flatMap Benchmark.iterations =
      bs.flatMap Benchmark.iterations ++ b.iterations := by
    rw [List.flatMap_append, List.flatMap_singleton]
  have htotals := hacc.totals.foldl_merge
    (b.iterations.map fun it => measured timeConverter it.2.calls)
  rw [← List.map_append, ← happend] at htotals
  cases hits : b.iterations with
  | nil =>
    rw [runBenchmark_of_nil hits] at hrun
    cases hrun
    refine ⟨fun _ => .inr hits, fun _ => ⟨?_, ?_⟩⟩
    · rw [hits] at htotals
      exact htotals
    · rw [happend, hits, List.append_nil]
      exact hacc.snapshots
  | cons it its =>
    obtain ⟨mul, hcons⟩ := runBenchmark_of_cons timeConverter hits hbalanced hready.toTak
    rw [hcons] at hrun
    cases hrun
    rw [hits, List.map_cons, List.foldl_cons] at htotals
    constructor
    · intro hafter
      exact .inl (eq_empty_of_merge_twice hready.counted (hafter.totals.unique htotals))
    · rintro (hempty | hnil)
      · rw [hempty, empty_merge] at htotals
        refine ⟨?_, ?_⟩
        · dsimp only
          rw [hempty, empty_merge, empty_merge]
          exact htotals
        · dsimp only
          rw [hempty, empty_merge, happend, hits, List.map_append, List.map_cons, hacc.snapshots,
            List.append_assoc, List.singleton_append]
      · rw [hits] at hnil
        cases hnil

/-- In a sequence of calls every iteration counts once and is printed by itself exactly as long as
every call finds an array without totals, or has no iteration. -/
theorem benchmarks_accounted_iff (run : Run (ofFun (step timeConverter)) init bs u) :
    Throughout (ofFun (step timeConverter)) (Accounted timeConverter) init bs ↔
      Run (Guarded (ofFun (step timeConverter)) Unused) init bs u := by
  refine throughout_iff_guarded ⟨Sums.empty, rfl⟩ ?_ run
  intro bs h b u hrun hacc hstep
  have hready : h.Ready := hrun.invariant (fun _ _ _ hready hstep => hready.step hstep)
    ⟨rfl, counted_empty⟩
  exact accounted_step_iff hready hacc hstep

end Run

section Sample

open Timing.Session (sampleTik sampleTak elapsed)

def sampleBenchmark : Benchmark Int where
  arrays := [["1"]]
  bench _ _ := ⟨[.tik sampleTik 0, .tak sampleTak 5], 1, fun _ => true⟩

def afterCalls (bs : List (Benchmark Int)) : BenchmarkHandler Int :=
  (exec (step elapsed) init bs).getD init

theorem benchmarks_accounted_iff_once :
    Throughout (ofFun (step elapsed)) (Accounted elapsed) init [sampleBenchmark] := by
  have run : Run (ofFun (step elapsed)) init [sampleBenchmark] (afterCalls [sampleBenchmark]) :=
    run_ofFun_iff.mpr rfl
  exact (benchmarks_accounted_iff run).mpr (.single ⟨.inl rfl, run_ofFun_iff.mp run⟩)

theorem not_benchmarks_accounted :
    Run (ofFun (step elapsed)) init [sampleBenchmark, sampleBenchmark]
      (afterCalls [sampleBenchmark, sampleBenchmark]) ∧
    (afterCalls [sampleBenchmark, sampleBenchmark]).clkArr.timers.lookup sampleTik =
      some ⟨15, 3⟩ ∧
    ¬ (afterCalls [sampleBenchmark, sampleBenchmark]).Accounted elapsed
      [sampleBenchmark, sampleBenchmark] := by
  have hlook : (afterCalls [sampleBenchmark, sampleBenchmark]).clkArr.timers.lookup sampleTik =
      some ⟨15, 3⟩ := by decide +kernel
  have htotal : total ((([sampleBenchmark, sampleBenchmark].flatMap Benchmark.iterations).map
      fun it => measured elapsed it.2.calls).filterMap (Finmap.lookup sampleTik)) =
      some ⟨10, 2⟩ := by decide +kernel
  refine ⟨run_ofFun_iff.mpr rfl, hlook, fun hacc => ?_⟩
  have heq := hlook.symm.trans ((hacc.totals sampleTik).trans htotal)
  exact absurd heq (by decide)

end Sample

end BenchmarkHandler

end DistributedMathArh.BenchUtils
