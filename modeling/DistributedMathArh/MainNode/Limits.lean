import Mathlib.Data.List.GetD
import DistributedMathArh.MainNode.Registry
import DistributedMathArh.MainNode.Shares

namespace DistributedMathArh

open Json FinmapSum

theorem TestSolveParam.iterations_lt_of_ofJson {val : Value} {ts : TestSolveParam}
    (h : TestSolveParam.ofJson val = .ok ts) : ts.iterations < 2 ^ 64 := by
  obtain ⟨-, hlt⟩ := range_lt_of_ofJson h
  unfold UInt32.size at hlt
  unfold TestSolveParam.iterations
  omega

structure ComputationalNode.Benchmarked (n : ComputationalNode) : Prop where
  size : n.benchResult.length = 13
  positive : 0 ∉ n.benchResult
  speed : n.nodeSpeed = n.benchResult.map (kBenchInfinity / ·)

namespace MainNode

/-- The evaluation of `(node_speed_ * itercount / GetSum())[NIndex(n)]` does not wrap around,
divide by zero or leave the vectors. -/
structure SafeShare (m : MainNode) (itercount n : UInt64) (val : ComputationalNode) : Prop where
  product : ∀ speed ∈ val.nodeSpeed, speed.toNat * itercount.toNat < 2 ^ 64
  divisor : 0 ∉ m.workers.getSum
  index : nIndex n < val.nodeSpeed.length

def SafeBlocks (m : MainNode) (itercount : UInt64) (ts : TestSolveParam) :
    ActiveNode → List ActiveNode → Prop
  | _, [] => True
  | ⟨_, val⟩, next :: rest =>
    m.SafeShare itercount ts.N val ∧
      match m.itersToSlice itercount ts.N val with
      | .error _ => True
      | .ok iters =>
        match ts.sliceAway iters with
        | .error _ => True
        | .ok (_, ts) => m.SafeBlocks itercount ts next rest

def SafeRequest (m : MainNode) (ts : TestSolveParam) : List ActiveNode → Prop
  | [] => True
  | node :: rest => m.SafeBlocks (ts.range.2 - ts.range.1 + 1) ts node rest

variable {m : MainNode} {ts : TestSolveParam} {itercount : UInt64}

theorem safeBlocks_of_forall {node : ActiveNode} {rest : List ActiveNode}
    (h : ∀ x ∈ node :: rest, m.SafeShare itercount ts.N x.2) :
    m.SafeBlocks itercount ts node rest := by
  induction rest generalizing node ts with
  | nil => trivial
  | cons next rest ih =>
    obtain ⟨key, val⟩ := node
    refine ⟨h _ List.mem_cons_self, ?_⟩
    cases m.itersToSlice itercount ts.N val with
    | error e => trivial
    | ok iters =>
      cases hslice : ts.sliceAway iters with
      | error e => simp only [hslice]
      | ok r =>
        simp only [hslice]
        obtain ⟨-, -, -, hts⟩ := TestSolveParam.sliceAway_eq_ok.mp hslice
        apply ih
        intro x hx
        rw [hts]
        exact h x (List.mem_cons_of_mem _ hx)

theorem safeRequest_iff_safeShare (hcard : 2 ≤ m.workers.active.entries.card) :
    (∀ order : List ActiveNode, (order : Multiset ActiveNode) = m.workers.active.entries →
        m.SafeRequest ts order) ↔
      ∀ node ∈ m.workers.active.entries,
        m.SafeShare (ts.range.2 - ts.range.1 + 1) ts.N node.2 := by
  constructor
  · intro h node hnode
    obtain ⟨others, hothers⟩ := Multiset.exists_cons_of_mem hnode
    obtain ⟨rest, rfl⟩ := Quot.exists_rep others
    cases rest with
    | nil =>
      rw [hothers] at hcard
      simp at hcard
    | cons next rest => exact (h (node :: next :: rest) hothers.symm).1
  · intro h order horder
    cases order with
    | nil => trivial
    | cons node rest =>
      apply safeBlocks_of_forall
      intro x hx
      apply h
      rw [← horder]
      exact hx

theorem product_iff {n : ComputationalNode} (hn : n.Benchmarked)
    (hle : ts.range.1 ≤ ts.range.2) (hlt : ts.iterations < 2 ^ 64) :
    (∀ speed ∈ n.nodeSpeed, speed.toNat * (ts.range.2 - ts.range.1 + 1).toNat < 2 ^ 64) ↔
      ∀ bench ∈ n.benchResult, 10 ^ 12 / bench.toNat * ts.iterations < 2 ^ 64 := by
  rw [hn.speed, toNat_itercount hle hlt, List.forall_mem_map]
  rfl

def wordOf : Nat →+ UInt64 where
  toFun := UInt64.ofNat
  map_zero' := rfl
  map_add' := UInt64.ofNat_add

theorem toNat_wordOf (n : Nat) : (wordOf n).toNat = n % 2 ^ 64 := UInt64.toNat_ofNat'

def speedSum (m : MainNode) (i : Nat) : Nat :=
  sumBy (fun n => 10 ^ 12 / (n.benchResult.getD i 0).toNat) m.workers.active

theorem getSum_eq (hw : m.workers.Consistent)
    (hbench : ∀ node ∈ m.workers.active.entries, node.2.Benchmarked) {i : Nat} (hi : i < 13) :
    m.workers.getSum.getD i 0 = wordOf (m.speedSum i) := by
  apply (hw.sum i).trans
  rw [speedSum, map_sumBy]
  apply sumBy_congr
  intro e he
  have hn := hbench e he
  have hlen : i < e.2.benchResult.length := by rw [hn.size]; exact hi
  apply UInt64.toNat_inj.mp
  rw [hn.speed, List.getD_eq_getElem?_getD, List.getD_eq_getElem?_getD, List.getElem?_map,
    List.getElem?_eq_getElem hlen]
  have hbound : 10 ^ 12 / e.2.benchResult[i].toNat < 2 ^ 64 :=
    lt_of_le_of_lt (Nat.div_le_self _ _) (by decide)
  rw [toNat_wordOf, Option.map_some, Option.getD_some, Option.getD_some, UInt64.toNat_div,
    Nat.mod_eq_of_lt hbound]
  rfl

theorem wordOf_eq_zero_iff {n : Nat} : wordOf n = 0 ↔ n % 2 ^ 64 = 0 := by
  rw [← UInt64.toNat_inj, toNat_wordOf]
  rfl

theorem zero_mem_getSum_iff (hw : m.workers.Consistent)
    (hbench : ∀ node ∈ m.workers.active.entries, node.2.Benchmarked) :
    0 ∈ m.workers.getSum ↔ ∃ i < 13, m.speedSum i % 2 ^ 64 = 0 := by
  rw [List.mem_iff_getElem]
  have hlen : m.workers.getSum.length = 13 := hw.size
  constructor
  · rintro ⟨i, hi, hzero⟩
    refine ⟨i, hlen ▸ hi, wordOf_eq_zero_iff.mp ?_⟩
    rw [← getSum_eq hw hbench (hlen ▸ hi), List.getD_eq_getElem _ _ hi, hzero]
  · rintro ⟨i, hi, hzero⟩
    refine ⟨i, hlen.symm ▸ hi, ?_⟩
    rw [← List.getD_eq_getElem _ 0, getSum_eq hw hbench hi, wordOf_eq_zero_iff.mpr hzero]

/-- For a task that could be decoded and workers that were benchmarked, the sizes of the blocks can
be computed exactly for a size of the table, speeds that do not cancel out, and benchmarks that are
large enough for the length of the task. -/
theorem safeRequest_iff (hw : m.workers.Consistent) (hcard : 2 ≤ m.workers.active.entries.card)
    (hbench : ∀ node ∈ m.workers.active.entries, node.2.Benchmarked) {val : Value}
    (hval : TestSolveParam.ofJson val = .ok ts) (hle : ts.range.1 ≤ ts.range.2) :
    (∀ order : List ActiveNode, (order : Multiset ActiveNode) = m.workers.active.entries →
        m.SafeRequest ts order) ↔
      ts.N ∈ ns ∧ (∀ i < 13, m.speedSum i % 2 ^ 64 ≠ 0) ∧
        ∀ node ∈ m.workers.active.entries, ∀ bench ∈ node.2.benchResult,
          10 ^ 12 / bench.toNat * ts.iterations < 2 ^ 64 := by
  have hlt := TestSolveParam.iterations_lt_of_ofJson hval
  have hindex : ∀ node ∈ m.workers.active.entries,
      (nIndex ts.N < node.2.nodeSpeed.length ↔ ts.N ∈ ns) := by
    intro node hnode
    rw [(hbench node hnode).speed, List.length_map, (hbench node hnode).size]
    exact nIndex_lt_iff
  have hdivisor : 0 ∉ m.workers.getSum ↔ ∀ i < 13, m.speedSum i % 2 ^ 64 ≠ 0 := by
    rw [zero_mem_getSum_iff hw hbench]
    simp
  rw [safeRequest_iff_safeShare hcard]
  constructor
  · intro h
    obtain ⟨first, hfirst⟩ := Multiset.card_pos_iff_exists_mem.mp (by omega : 0 < m.workers.active.entries.card)
    refine ⟨(hindex first hfirst).mp (h first hfirst).index, hdivisor.mp (h first hfirst).divisor, ?_⟩
    intro node hnode
    exact (product_iff (hbench node hnode) hle hlt).mp (h node hnode).product
  · rintro ⟨hn, hsum, hproduct⟩ node hnode
    exact ⟨(product_iff (hbench node hnode) hle hlt).mpr (hproduct node hnode), hdivisor.mpr hsum,
      (hindex node hnode).mpr hn⟩

def pairOf (x y : UInt64) : MainNode :=
  clusterOf [benchedNode "a" x, benchedNode "b" y]
    (defaultBench (kBenchInfinity / x + kBenchInfinity / y))

theorem entries_pairOf (x y : UInt64) : (pairOf x y).workers.active.entries =
    ([benchedNode "a" x, benchedNode "b" y] : Multiset ActiveNode) := rfl

theorem lookup_pairOf {x y : UInt64} {h : String} {n : ComputationalNode}
    (hn : (pairOf x y).workers.active.lookup h = some n) :
    n = (benchedNode "a" x).2 ∨ n = (benchedNode "b" y).2 := by
  have hmem := Finmap.lookup_eq_some_iff.mp hn
  rw [entries_pairOf, Multiset.mem_coe, List.mem_pair] at hmem
  cases hmem with
  | inl h => cases h; exact .inl rfl
  | inr h => cases h; exact .inr rfl

theorem getD_defaultBench (v : UInt64) (i : Nat) :
    (defaultBench v).getD i 0 = if i < 13 then v else 0 := by
  rw [defaultBench, List.getD_eq_getElem?_getD, List.getElem?_replicate]
  split <;> simp_all [kNValues]

theorem consistent_pairOf (x y : UInt64) : (pairOf x y).workers.Consistent where
  disjoint h _ hin := absurd hin Finmap.notMem_empty
  client st h n hn := by
    cases st with
    | active =>
      cases lookup_pairOf hn with
      | inl h => rw [h]; simp [benchedNode]
      | inr h => rw [h]; simp [benchedNode]
    | inactive => cases hn
    | failed => cases hn
  idle h n hn := by cases hn
  speed h n hn := by
    cases lookup_pairOf hn with
    | inl h => rw [h]; rfl
    | inr h => rw [h]; rfl
  size := rfl
  sum i := by
    rw [sumBy, entries_pairOf, Multiset.map_coe, Multiset.sum_coe]
    simp only [pairOf, clusterOf, benchedNode, List.map_cons, List.map_nil, List.sum_cons,
      List.sum_nil, getD_defaultBench]
    split <;> simp

theorem benchmarked_pairOf {x y : UInt64} (hx : x ≠ 0) (hy : y ≠ 0) :
    ∀ node ∈ (pairOf x y).workers.active.entries, node.2.Benchmarked := by
  have hnode : ∀ (key : String) (bench : UInt64), bench ≠ 0 →
      (benchedNode key bench).2.Benchmarked := by
    intro key bench hb
    refine ⟨rfl, ?_, ?_⟩
    · simp [benchedNode, defaultBench, List.mem_replicate, hb.symm]
    · simp [benchedNode, defaultBench]
  intro node hmem
  rw [entries_pairOf, Multiset.mem_coe, List.mem_pair] at hmem
  cases hmem with
  | inl h => rw [h]; exact hnode "a" x hx
  | inr h => rw [h]; exact hnode "b" y hy

def taskDocument (n first second : Int64) : Value :=
  .object [("experiment_id", .int 1), ("N", .int n), ("range", .array [.int first, .int second])]

theorem safeRequest_iff_pair :
    (∀ order : List ActiveNode, (order : Multiset ActiveNode) =
        (pairOf 1000000000000 1000000000000).workers.active.entries →
        (pairOf 1000000000000 1000000000000).SafeRequest ⟨1, 1, (0, 9), ∅⟩ order) ↔
      (1 : UInt64) ∈ ns ∧
        (∀ i < 13, (pairOf 1000000000000 1000000000000).speedSum i % 2 ^ 64 ≠ 0) ∧
        ∀ node ∈ (pairOf 1000000000000 1000000000000).workers.active.entries,
          ∀ bench ∈ node.2.benchResult,
            10 ^ 12 / bench.toNat * TestSolveParam.iterations ⟨1, 1, (0, 9), ∅⟩ < 2 ^ 64 :=
  safeRequest_iff (consistent_pairOf _ _) (by rw [entries_pairOf]; decide)
    (benchmarked_pairOf (by decide) (by decide))
    (rfl : TestSolveParam.ofJson (taskDocument 1 0 9) = _) (by decide)

theorem not_safeRequest :
    (TestSolveParam.ofJson (taskDocument 1 0 33554431) = .ok ⟨1, 1, (0, 33554431), ∅⟩ ∧
      ¬ (pairOf 1 1).SafeRequest ⟨1, 1, (0, 33554431), ∅⟩ [benchedNode "a" 1, benchedNode "b" 1]) ∧
    (TestSolveParam.ofJson (taskDocument 1 0 9) = .ok ⟨1, 1, (0, 9), ∅⟩ ∧
      ¬ (pairOf 2000000000000 2000000000000).SafeRequest ⟨1, 1, (0, 9), ∅⟩
        [benchedNode "a" 2000000000000, benchedNode "b" 2000000000000]) ∧
    (TestSolveParam.ofJson (taskDocument 3 0 9) = .ok ⟨1, 3, (0, 9), ∅⟩ ∧
      ¬ (pairOf 1000000000000 1000000000000).SafeRequest ⟨1, 3, (0, 9), ∅⟩
        [benchedNode "a" 1000000000000, benchedNode "b" 1000000000000]) := by
  refine ⟨⟨rfl, fun h => ?_⟩, ⟨rfl, fun h => ?_⟩, rfl, fun h => ?_⟩
  · exact absurd (h.1.product 1000000000000 (by decide)) (by decide)
  · exact absurd h.1.divisor (by decide)
  · exact absurd h.1.index (by decide)

end MainNode

end DistributedMathArh
