import DistributedMathArh.Lib.Apportion
import DistributedMathArh.MainNode.Sharding

namespace DistributedMathArh

open Json Tiling

def ActiveNode.speedAt (n : UInt64) (node : ActiveNode) : Nat :=
  (node.2.nodeSpeed.getD (nIndex n) 0).toNat

namespace MainNode

open Apportion

variable {m : MainNode} {ts : TestSolveParam} {itercount : UInt64}

def totalSpeed (m : MainNode) (n : UInt64) : Nat := (m.workers.getSum.getD (nIndex n) 0).toNat

structure Proportional (m : MainNode) (ts : TestSolveParam) (order : List ActiveNode) : Prop where
  sized : Sized m ts.N order
  divisor : 0 ∉ m.workers.getSum
  sum : (order.map (·.speedAt ts.N)).sum = m.totalSpeed ts.N
  product : ∀ node ∈ order, ts.iterations * node.speedAt ts.N < 2 ^ 64
  floor : ∀ node ∈ order.dropLast, 1 ≤ ts.iterations * node.speedAt ts.N / m.totalSpeed ts.N
  last : ∀ node ∈ order.getLast?, 1 ≤ node.speedAt ts.N

/-- The request succeeds, and the blocks of the workers are consecutive, share out the range, and
have the rounded shares as sizes except for the last one, which is less than one iteration per
worker above its exact share. -/
structure Apportioned (m : MainNode) (ts : TestSolveParam) (order : List ActiveNode) : Prop where
  answered : (m.sendToExecution ts order).2 = .ok (answer "send_task" [("status", .int 200)])
  keys : (m.sendToExecution ts order).1.map Message.routingKey = order.map Sigma.fst
  task : ∀ x ∈ (m.sendToExecution ts order).1, x.task = { ts with range := x.task.range }
  consecutive : Consecutive ts.range.1 ts.range.2
    ((m.sendToExecution ts order).1.map fun x => x.task.range)
  disjoint : (m.sendToExecution ts order).1.Pairwise fun x y =>
    Disjoint (Block.points x.task.block) (Block.points y.task.block)
  cover : ∀ i, i ∈ Finset.Icc ts.range.1.toNat ts.range.2.toNat ↔
    ∃ x ∈ (m.sendToExecution ts order).1, i ∈ Block.points x.task.block
  shares : ((m.sendToExecution ts order).1.map fun x => x.task.iterations).dropLast =
    floors ts.iterations (m.totalSpeed ts.N) (order.dropLast.map (·.speedAt ts.N))
  last : ∀ x ∈ (m.sendToExecution ts order).1.getLast?, ∀ node ∈ order.getLast?,
    (ts.iterations * node.speedAt ts.N / m.totalSpeed ts.N : ℚ) ≤ x.task.iterations ∧
      (x.task.iterations : ℚ) ≤
        ts.iterations * node.speedAt ts.N / m.totalSpeed ts.N + (order.length - 1 : Nat)

theorem toNat_itercount (hle : ts.range.1 ≤ ts.range.2) (hlt : ts.iterations < 2 ^ 64) :
    (ts.range.2 - ts.range.1 + 1).toNat = ts.iterations := by
  have hone : (1 : UInt64).toNat = 1 := rfl
  have hle' := UInt64.le_iff_toNat_le.mp hle
  unfold TestSolveParam.iterations at hlt ⊢
  rw [UInt64.toNat_add, UInt64.toNat_sub_of_le _ _ hle, hone]
  omega

theorem toNat_share {n : UInt64} {node : ActiveNode}
    (h : itercount.toNat * node.speedAt n < 2 ^ 64) :
    (m.share itercount n node.2).toNat = itercount.toNat * node.speedAt n / m.totalSpeed n := by
  rw [Nat.mul_comm] at h ⊢
  rw [share, UInt64.toNat_div, UInt64.toNat_mul]
  exact congrArg (· / _) (Nat.mod_eq_of_lt h)

theorem iterations_cut {k : UInt64} (hk : k ≠ 0)
    (hadd : (ts.range.1 + k).toNat = ts.range.1.toNat + k.toNat) :
    ({ ts with range := (ts.range.1, ts.range.1 + k - 1) } : TestSolveParam).iterations =
      k.toNat := by
  have hend := (toNat_sub_one_of_add hk hadd).1
  simp only [TestSolveParam.iterations]
  omega

theorem sizes_of_shardable {c : AMQPSQLCStr} (hc : m.publisher.connection = some c)
    {node : ActiveNode} {rest : List ActiveNode} (hsized : Sized m ts.N (node :: rest))
    (h : Shardable m itercount ts.N ts.range.1 ts.range.2 (node :: rest)) :
    ((m.sendBlocks itercount ts node rest).1.map fun x => x.task.iterations).dropLast =
      (node :: rest).dropLast.map fun node => (m.share itercount ts.N node.2).toNat := by
  induction rest generalizing node ts with
  | nil => simp [sendBlocks, publishMessage_of_connected hc]
  | cons next rest ih =>
    obtain ⟨h0, hne, hadd, hle, hrest⟩ := h.step
    have hiters := itersToSlice_eq itercount hsized.size hsized.sum
      (hsized.speed _ List.mem_cons_self)
    rw [if_neg h0] at hiters
    have hslice := TestSolveParam.sliceAway_eq_ok.mpr ⟨hne, hle, rfl, rfl⟩
    have htail := @ih
      { ts with range := (ts.range.1 + m.share itercount ts.N node.2, ts.range.2) } next
      hsized.tail hrest
    have hok := (@sendBlocks_of_shardable m
      { ts with range := (ts.range.1 + m.share itercount ts.N node.2, ts.range.2) } itercount c hc
      next rest hsized.tail hrest).1
    have hkeys := (sendBlocks_ok hc (Prod.ext rfl hok)).1
    rw [sendBlocks_cons_of_slice hiters hslice, publishMessage_of_connected hc]
    simp only [List.singleton_append, List.map_cons, List.dropLast_cons_cons]
    rw [List.dropLast_cons_of_ne_nil, htail, iterations_cut hne hadd]
    intro hnil
    simp [List.map_eq_nil_iff.mp hnil] at hkeys

theorem iterations_getLast {msgs : List Message}
    (htiles : Tiles ts.range.1.toNat ts.range.2.toNat (msgs.map fun x => x.task.block)) {x : Message}
    (hx : x ∈ msgs.getLast?) :
    x.task.iterations = ts.iterations - (msgs.map fun x => x.task.iterations).dropLast.sum := by
  have hsum := htiles.sum_size
  rw [List.map_map, ← List.dropLast_append_getLast? x hx, List.map_append, List.sum_append] at hsum
  rw [← List.map_dropLast]
  simp only [Function.comp_def, TestSolveParam.block, List.map_cons, List.map_nil,
    List.sum_singleton, TestSolveParam.iterations] at hsum ⊢
  omega

namespace Proportional

variable {order : List ActiveNode}

theorem toNat_share (h : Proportional m ts order) (hle : ts.range.1 ≤ ts.range.2)
    (hlt : ts.iterations < 2 ^ 64) {node : ActiveNode} (hnode : node ∈ order) :
    (m.share (ts.range.2 - ts.range.1 + 1) ts.N node.2).toNat =
      ts.iterations * node.speedAt ts.N / m.totalSpeed ts.N := by
  rw [MainNode.toNat_share, toNat_itercount hle hlt]
  rw [toNat_itercount hle hlt]
  exact h.product node hnode

theorem sum_split (h : Proportional m ts order) {last : ActiveNode} (hlast : last ∈ order.getLast?) :
    (order.dropLast.map (·.speedAt ts.N)).sum + last.speedAt ts.N = m.totalSpeed ts.N := by
  rw [← h.sum, ← List.dropLast_append_getLast? last hlast]
  simp

theorem total_pos (h : Proportional m ts order) {last : ActiveNode} (hlast : last ∈ order.getLast?) :
    0 < m.totalSpeed ts.N := by
  rw [← h.sum_split hlast]
  exact Nat.add_pos_right _ (h.last last hlast)

theorem iterations_lt (h : Proportional m ts order) {last : ActiveNode}
    (hlast : last ∈ order.getLast?) : ts.iterations < 2 ^ 64 := by
  apply lt_of_le_of_lt _ (h.product last (List.mem_of_getLast? hlast))
  exact Nat.le_mul_of_pos_right _ (h.last last hlast)

theorem shardable (h : Proportional m ts order) (hle : ts.range.1 ≤ ts.range.2) {last : ActiveNode}
    (hlast : last ∈ order.getLast?) : m.Fits ts order := by
  have hlt := h.iterations_lt hlast
  have hle' := UInt64.le_iff_toNat_le.mp hle
  have hmem : ∀ node ∈ order.dropLast, node ∈ order := fun _ => List.mem_of_mem_dropLast
  refine ⟨fun _ => h.divisor, ?_, ?_⟩
  · intro node hnode h0
    have hfloor := h.floor node hnode
    rw [← h.toNat_share hle hlt (hmem node hnode), h0] at hfloor
    exact absurd hfloor (by decide)
  · have hpos : 0 < ts.iterations := by
      unfold TestSolveParam.iterations
      omega
    have hsum := sum_floors_lt hpos (h.last last hlast) (h.sum_split hlast)
    have hmap : order.dropLast.map
          (fun node => (m.share (ts.range.2 - ts.range.1 + 1) ts.N node.2).toNat) =
        floors ts.iterations (m.totalSpeed ts.N) (order.dropLast.map (·.speedAt ts.N)) := by
      rw [floors, List.map_map]
      apply List.map_congr_left
      intro node hnode
      exact h.toNat_share hle hlt (hmem node hnode)
    rw [hmap]
    unfold TestSolveParam.iterations at hsum ⊢
    omega

theorem apportioned_singleton {c : AMQPSQLCStr} (hc : m.publisher.connection = some c)
    {node : ActiveNode} (h : Proportional m ts [node]) : m.Apportioned ts [node] := by
  obtain ⟨key, val⟩ := node
  have hsum : ActiveNode.speedAt ts.N ⟨key, val⟩ = m.totalSpeed ts.N := by simpa using h.sum
  have hpos : (m.totalSpeed ts.N : ℚ) ≠ 0 := by
    have := h.total_pos (Option.mem_some_self (⟨key, val⟩ : ActiveNode))
    exact_mod_cast this.ne'
  have hmsgs : m.sendToExecution ts [⟨key, val⟩] =
      ([⟨c.hostPort, m.publisher.defaultExchange, key, ts⟩],
        .ok (answer "send_task" [("status", .int 200)])) := by
    simp [sendToExecution, sendBlocks, publishMessage_of_connected hc]
  constructor <;> rw [hmsgs]
  · rfl
  · simp
  · exact rfl
  · exact List.pairwise_singleton _ _
  · simp [TestSolveParam.block]
  · rfl
  · simp [hsum, hpos]

theorem apportioned_of_le {c : AMQPSQLCStr} (hc : m.publisher.connection = some c)
    (hle : ts.range.1 ≤ ts.range.2) {node : ActiveNode} {rest : List ActiveNode}
    (h : Proportional m ts (node :: rest)) : m.Apportioned ts (node :: rest) := by
  obtain ⟨last, hlast⟩ : ∃ last, last ∈ (node :: rest).getLast? :=
    ⟨_, List.getLast?_eq_some_getLast (by simp)⟩
  have hfits := h.shardable hle hlast
  obtain ⟨hok, htiles⟩ := sendBlocks_of_shardable hc h.sized hfits
  obtain ⟨hkeys, htask, hconsecutive⟩ := sendBlocks_ok hc (Prod.ext rfl hok)
  have hparts := htiles.partitions
  have hsizes := sizes_of_shardable hc h.sized hfits
  have hfloors : (node :: rest).dropLast.map
        (fun node => (m.share (ts.range.2 - ts.range.1 + 1) ts.N node.2).toNat) =
      floors ts.iterations (m.totalSpeed ts.N) ((node :: rest).dropLast.map (·.speedAt ts.N)) := by
    rw [floors, List.map_map]
    apply List.map_congr_left
    intro node hnode
    exact h.toNat_share hle (h.iterations_lt hlast) (List.mem_of_mem_dropLast hnode)
  rw [hfloors] at hsizes
  refine ⟨?_, ?_, ?_, ?_, ?_, ?_, ?_, ?_⟩
  · rw [sendToExecution, show m.sendBlocks _ ts node rest = (_, .ok ()) from Prod.ext rfl hok]
  all_goals rw [sendToExecution_fst]
  · exact hkeys
  · exact fun x hx => (htask x hx).2
  · exact hconsecutive
  · simpa only [List.pairwise_map] using hparts.disjoint
  · intro i
    rw [hparts.cover i]
    simp
  · exact hsizes
  · intro x hx last' hlast'
    obtain rfl := Option.mem_unique hlast hlast'
    have hbounds := rest_bounds ts.iterations (h.total_pos hlast) (h.sum_split hlast)
    rw [← hsizes, ← iterations_getLast htiles hx, List.length_map, List.length_dropLast] at hbounds
    exact hbounds

end Proportional

/-- With shares that fit, the request shares out the task exactly if there is a connection to
publish the blocks over. -/
theorem apportioned_iff_isConnected {order : List ActiveNode} (hne : order ≠ [])
    (h : Proportional m ts order) : m.Apportioned ts order ↔ m.publisher.isConnected := by
  cases order with
  | nil => exact absurd rfl hne
  | cons node rest =>
    constructor
    · intro hap
      cases hc : m.publisher.connection with
      | none =>
        have hkeys := hap.keys
        rw [sendToExecution_fst, sendBlocks_of_disconnected hc] at hkeys
        exact absurd hkeys (by simp)
      | some c => simp [AMQPService.isConnected, hc]
    · intro hconn
      obtain ⟨c, hc⟩ := Option.isSome_iff_exists.mp hconn
      by_cases hle : ts.range.1 ≤ ts.range.2
      · exact Proportional.apportioned_of_le hc hle h
      · cases rest with
        | nil => exact Proportional.apportioned_singleton hc h
        | cons next rest =>
          -- with several workers the first one has a share, so the range is not empty
          have hshare := h.floor node (by simp)
          have hlt := UInt64.lt_iff_toNat_lt.mp (UInt64.not_le.mp hle)
          have hzero : ts.iterations = 0 := by
            unfold TestSolveParam.iterations
            omega
          simp [hzero] at hshare

theorem apportioned_iff_isConnected_pair :
    let order := [benchedNode "a" 1000000000000, benchedNode "b" 500000000000]
    let ts : TestSolveParam := ⟨1, 1, (0, 9), ∅⟩
    let m := clusterOf order (defaultBench 3)
    m.Apportioned ts order ↔ m.publisher.isConnected :=
  apportioned_iff_isConnected (by decide)
    ⟨⟨by decide, by decide, by decide⟩, by decide, by decide, by decide, by decide, by decide⟩

theorem not_apportioned :
    let order := [benchedNode "a" 1000000000000, benchedNode "b" 500000000000]
    let ts : TestSolveParam := ⟨1, 1, (0, 9), ∅⟩
    let m := (clusterOf order (defaultBench 3)).disconnect.1
    m.workers.active.entries = order ∧ Proportional m ts order ∧
      (m.sendToExecution ts order).1 = [] ∧
      (m.sendToExecution ts order).2 = .ok (answer "send_task" [("status", .int 200)]) ∧
      ¬ m.Apportioned ts order := by
  refine ⟨rfl, ?_, rfl, rfl, fun h => ?_⟩
  · exact ⟨⟨by decide, by decide, by decide⟩, by decide, by decide, by decide, by decide, by decide⟩
  · exact absurd h.keys (by decide)

end MainNode

end DistributedMathArh
