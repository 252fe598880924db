import DistributedMathArh.MainNode.Service
import DistributedMathArh.Network.SliceAway

namespace DistributedMathArh

open Json Tiling

def Consecutive (first second : UInt64) : List (UInt64 × UInt64) → Prop
  | [] => False
  | [b] => b = (first, second)
  | b :: bs => b.1 = first ∧ Consecutive (b.2 + 1) second bs

theorem Consecutive.exists_last {first second : UInt64} {bs : List (UInt64 × UInt64)}
    (h : Consecutive first second bs) : ∃ b ∈ bs, b.2 = second := by
  induction bs generalizing first with
  | nil => cases h
  | cons b bs ih =>
    cases bs with
    | nil =>
      cases h
      exact ⟨_, List.mem_singleton_self _, rfl⟩
    | cons b' bs =>
      obtain ⟨b, hb, hlast⟩ := ih h.2
      exact ⟨b, List.mem_cons_of_mem _ hb, hlast⟩

theorem Consecutive.cons {first second : UInt64} {b : UInt64 × UInt64}
    {bs : List (UInt64 × UInt64)} (hb : b.1 = first) (h : Consecutive (b.2 + 1) second bs) :
    Consecutive first second (b :: bs) := by
  cases bs with
  | nil => cases h
  | cons b' bs => exact ⟨hb, h⟩

namespace MainNode

variable {m : MainNode} {ts : TestSolveParam} {itercount : UInt64}

theorem publishMessage_of_connected {c : AMQPSQLCStr} (h : m.publisher.connection = some c)
    (node : String) : (m.publishMessage ts node).1 =
      [⟨c.hostPort, m.publisher.defaultExchange, node, ts⟩] := by
  simp [publishMessage, h]

theorem publishMessage_of_disconnected (h : m.publisher.connection = none) (node : String) :
    (m.publishMessage ts node).1 = [] := by
  simp [publishMessage, h]

theorem sendBlocks_cons_ok {node next : ActiveNode} {rest : List ActiveNode} {msgs : List Message}
    (h : m.sendBlocks itercount ts node (next :: rest) = (msgs, .ok ())) :
    ∃ iters block ts' msgs', m.itersToSlice itercount ts.N node.2 = .ok iters ∧
      ts.sliceAway iters = .ok (block, ts') ∧
      m.sendBlocks itercount ts' next rest = (msgs', .ok ()) ∧
      msgs = (m.publishMessage block node.1).1 ++ msgs' := by
  obtain ⟨key, val⟩ := node
  simp only [sendBlocks] at h
  split at h
  · cases h
  · rename_i iters hiters
    split at h
    · cases h
    · rename_i block ts' hslice
      obtain ⟨rfl, hres⟩ := Prod.mk.inj h
      exact ⟨iters, block, ts', _, hiters, hslice, Prod.ext rfl hres, rfl⟩

theorem sendBlocks_cons_of_slice {node next : ActiveNode} {rest : List ActiveNode} {iters : UInt64}
    {block ts' : TestSolveParam} (hiters : m.itersToSlice itercount ts.N node.2 = .ok iters)
    (hslice : ts.sliceAway iters = .ok (block, ts')) :
    m.sendBlocks itercount ts node (next :: rest) =
      ((m.publishMessage block node.1).1 ++ (m.sendBlocks itercount ts' next rest).1,
        (m.sendBlocks itercount ts' next rest).2) := by
  obtain ⟨key, val⟩ := node
  simp only [sendBlocks, hiters, hslice]

theorem sendBlocks_of_disconnected (h : m.publisher.connection = none) (node : ActiveNode)
    (rest : List ActiveNode) : (m.sendBlocks itercount ts node rest).1 = [] := by
  induction rest generalizing node ts with
  | nil => exact publishMessage_of_disconnected h _
  | cons next rest ih =>
    obtain ⟨key, val⟩ := node
    simp only [sendBlocks]
    split
    · rfl
    · split
      · rfl
      · simp [publishMessage_of_disconnected h, ih]

theorem sendBlocks_ok {c : AMQPSQLCStr} (hc : m.publisher.connection = some c) {node : ActiveNode}
    {rest : List ActiveNode} {msgs : List Message}
    (h : m.sendBlocks itercount ts node rest = (msgs, .ok ())) :
    msgs.map Message.routingKey = (node :: rest).map Sigma.fst ∧
      (∀ x ∈ msgs, x.broker = c.hostPort ∧ x.task = { ts with range := x.task.range }) ∧
      Consecutive ts.range.1 ts.range.2 (msgs.map fun x => x.task.range) := by
  induction rest generalizing node ts msgs with
  | nil =>
    obtain ⟨key, val⟩ := node
    simp only [sendBlocks, publishMessage_of_connected hc] at h
    cases h
    refine ⟨rfl, ?_, rfl⟩
    intro x hx
    obtain rfl := List.mem_singleton.mp hx
    exact ⟨rfl, rfl⟩
  | cons next rest ih =>
    obtain ⟨iters, block, ts', msgs', -, hslice, hrest, rfl⟩ := sendBlocks_cons_ok h
    obtain ⟨-, -, rfl, rfl⟩ := TestSolveParam.sliceAway_eq_ok.mp hslice
    obtain ⟨hkeys, htasks, hrange⟩ := ih hrest
    rw [publishMessage_of_connected hc]
    refine ⟨by simpa using hkeys, ?_, ?_⟩
    · intro x hx
      rcases List.mem_cons.mp hx with rfl | hx
      · exact ⟨rfl, rfl⟩
      · exact htasks x hx
    · refine Consecutive.cons rfl ?_
      simpa [UInt64.sub_add_cancel] using hrange

theorem length_lt_of_error {c : AMQPSQLCStr} (hc : m.publisher.connection = some c)
    {node : ActiveNode} {rest : List ActiveNode} {msgs : List Message} {e : Halt}
    (h : m.sendBlocks itercount ts node rest = (msgs, .error e)) :
    msgs.length < (node :: rest).length := by
  induction rest generalizing node ts msgs with
  | nil =>
    obtain ⟨key, val⟩ := node
    cases h
  | cons next rest ih =>
    obtain ⟨key, val⟩ := node
    simp only [sendBlocks] at h
    split at h
    · cases h
      simp
    · split at h
      · cases h
        simp
      · obtain ⟨rfl, hres⟩ := Prod.mk.inj h
        have := ih (Prod.ext rfl hres)
        rw [publishMessage_of_connected hc]
        simpa using this

def share (m : MainNode) (itercount n : UInt64) (val : ComputationalNode) : UInt64 :=
  val.nodeSpeed.getD (nIndex n) 0 * itercount / m.workers.getSum.getD (nIndex n) 0

structure Sized (m : MainNode) (n : UInt64) (order : List ActiveNode) : Prop where
  size : n ∈ ns
  sum : m.workers.getSum.length = 13
  speed : ∀ node ∈ order, node.2.nodeSpeed.length = 13

theorem Sized.tail {n : UInt64} {node : ActiveNode} {rest : List ActiveNode}
    (h : Sized m n (node :: rest)) : Sized m n rest :=
  { h with speed := fun x hx => h.speed x (List.mem_cons_of_mem _ hx) }

theorem itersToSlice_eq (itercount : UInt64) {n : UInt64} {val : ComputationalNode} (hn : n ∈ ns)
    (hsum : m.workers.getSum.length = 13) (hval : val.nodeSpeed.length = 13) :
    m.itersToSlice itercount n val = if 0 ∈ m.workers.getSum then .error (.fault .divisionByZero)
      else .ok (m.share itercount n val) := by
  have hi := nIndex_lt hn
  unfold itersToSlice BenchResVec.div
  by_cases h0 : 0 ∈ m.workers.getSum
  · simp [BenchResVec.scale, hsum, hval, h0, bind, Except.bind]
  · simp [BenchResVec.scale, Valarray.zipOp, BenchResVec.get, hsum, hval, h0, bind, Except.bind,
      share, hi]

/-- Every node but the last gets a share of at least one iteration, and the shares leave at least
one iteration of the range `first..second` over. -/
structure Shardable (m : MainNode) (itercount n first second : UInt64) (order : List ActiveNode) :
    Prop where
  divisor : order.dropLast ≠ [] → 0 ∉ m.workers.getSum
  positive : ∀ node ∈ order.dropLast, m.share itercount n node.2 ≠ 0
  total : first.toNat + (order.dropLast.map fun node => (m.share itercount n node.2).toNat).sum ≤
    second.toNat

theorem toNat_add_of_le {a b c : UInt64} (h : a.toNat + b.toNat ≤ c.toNat) :
    (a + b).toNat = a.toNat + b.toNat := by
  have := c.toNat_lt
  rw [UInt64.toNat_add]
  omega

theorem toNat_add_of_block {first second k : UInt64} (hle : first ≤ second) (hk : k ≠ 0)
    (hne : first.toNat ≤ (first + k - 1).toNat)
    (hend : second.toNat ∉ Finset.Icc first.toNat (first + k - 1).toNat) :
    (first + k).toNat = first.toNat + k.toNat := by
  have hk0 : k.toNat ≠ 0 := fun h => hk (UInt64.toNat_inj.mp h)
  have hone : (1 : UInt64).toNat = 1 := rfl
  have := first.toNat_lt
  have := second.toNat_lt
  have := k.toNat_lt
  rw [UInt64.le_iff_toNat_le] at hle
  rw [Finset.mem_Icc] at hend
  rw [UInt64.toNat_sub, UInt64.toNat_add, hone] at hne hend
  rw [UInt64.toNat_add]
  omega

theorem Shardable.step {n first second : UInt64} {node next : ActiveNode} {rest : List ActiveNode}
    (h : Shardable m itercount n first second (node :: next :: rest)) :
    (0 : UInt64) ∉ m.workers.getSum ∧ m.share itercount n node.2 ≠ 0 ∧
      (first + m.share itercount n node.2).toNat =
        first.toNat + (m.share itercount n node.2).toNat ∧
      first + m.share itercount n node.2 ≤ second ∧
      Shardable m itercount n (first + m.share itercount n node.2) second (next :: rest) := by
  have hpos := h.positive node (by simp)
  have htotal := h.total
  simp only [List.dropLast_cons_cons, List.map_cons, List.sum_cons] at htotal
  have hadd : (first + m.share itercount n node.2).toNat =
      first.toNat + (m.share itercount n node.2).toNat :=
    toNat_add_of_le (c := second) (by omega)
  refine ⟨h.divisor (by simp), hpos, hadd, ?_, ?_⟩
  · rw [UInt64.le_iff_toNat_le]
    omega
  · exact ⟨fun _ => h.divisor (by simp), fun x hx => h.positive x (by simp [hx]), by omega⟩

theorem sendBlocks_of_shardable {c : AMQPSQLCStr} (hc : m.publisher.connection = some c)
    {node : ActiveNode} {rest : List ActiveNode} (hsized : Sized m ts.N (node :: rest))
    (h : Shardable m itercount ts.N ts.range.1 ts.range.2 (node :: rest)) :
    (m.sendBlocks itercount ts node rest).2 = .ok () ∧
      Tiles ts.range.1.toNat ts.range.2.toNat
        ((m.sendBlocks itercount ts node rest).1.map fun x => x.task.block) := by
  induction rest generalizing node ts with
  | nil =>
    obtain ⟨key, val⟩ := node
    simp only [sendBlocks, publishMessage_of_connected hc]
    exact ⟨trivial, .last (by simpa using h.total)⟩
  | cons next rest ih =>
    obtain ⟨h0, hne, hadd, hle, hrest⟩ := h.step
    have hiters := itersToSlice_eq itercount hsized.size hsized.sum
      (hsized.speed _ List.mem_cons_self)
    rw [if_neg h0] at hiters
    have hslice := TestSolveParam.sliceAway_eq_ok.mpr ⟨hne, hle, rfl, rfl⟩
    obtain ⟨hok, htiles⟩ := @ih
      { ts with range := (ts.range.1 + m.share itercount ts.N node.2, ts.range.2) } next
      hsized.tail hrest
    rw [sendBlocks_cons_of_slice hiters hslice, publishMessage_of_connected hc]
    refine ⟨hok, ?_⟩
    obtain ⟨hend, hmid⟩ := toNat_sub_one_of_add hne hadd
    refine Tiles.cons hmid ?_
    rw [hend]
    exact htiles

theorem shardable_of_sendBlocks {c : AMQPSQLCStr} (hc : m.publisher.connection = some c)
    {node : ActiveNode} {rest : List ActiveNode} {msgs : List Message}
    (hsized : Sized m ts.N (node :: rest)) (hle : ts.range.1 ≤ ts.range.2)
    (h : m.sendBlocks itercount ts node rest = (msgs, .ok ()))
    (hne : ∀ x ∈ msgs, x.task.block.1 ≤ x.task.block.2)
    (hdisj : msgs.Pairwise fun x y =>
      Disjoint (Block.points x.task.block) (Block.points y.task.block)) :
    Shardable m itercount ts.N ts.range.1 ts.range.2 (node :: rest) := by
  induction rest generalizing node ts msgs with
  | nil => exact ⟨by simp, by simp, by simpa [← UInt64.le_iff_toNat_le] using hle⟩
  | cons next rest ih =>
    obtain ⟨iters, block, ts', msgs', hiters, hslice, hrest, rfl⟩ := sendBlocks_cons_ok h
    rw [itersToSlice_eq itercount hsized.size hsized.sum (hsized.speed _ List.mem_cons_self)] at hiters
    split at hiters
    · cases hiters
    · rename_i h0
      obtain rfl := Except.ok.inj hiters
      obtain ⟨hk, hkle, rfl, rfl⟩ := TestSolveParam.sliceAway_eq_ok.mp hslice
      rw [publishMessage_of_connected hc, List.singleton_append] at hne hdisj
      obtain ⟨hfirst, hdisj⟩ := List.pairwise_cons.mp hdisj
      have tail := @ih
        { ts with range := (ts.range.1 + m.share itercount ts.N node.2, ts.range.2) } next msgs'
        hsized.tail hkle hrest (fun x hx => hne x (List.mem_cons_of_mem _ hx)) hdisj
      have hadd : (ts.range.1 + m.share itercount ts.N node.2).toNat =
          ts.range.1.toNat + (m.share itercount ts.N node.2).toNat := by
        obtain ⟨r, hr, hlast⟩ := (sendBlocks_ok hc hrest).2.2.exists_last
        obtain ⟨x, hx, rfl⟩ := List.mem_map.mp hr
        have hmem : ts.range.2.toNat ∈ Block.points x.task.block := by
          have := hne x (List.mem_cons_of_mem _ hx)
          simp only [TestSolveParam.block, hlast] at this ⊢
          exact Finset.mem_Icc.mpr ⟨this, le_rfl⟩
        exact toNat_add_of_block hle hk (hne _ List.mem_cons_self)
          (Finset.disjoint_right.mp (hfirst x hx) hmem)
      refine ⟨fun _ => h0, ?_, ?_⟩
      · intro x hx
        rw [List.dropLast_cons_cons, List.mem_cons] at hx
        rcases hx with rfl | hx
        · exact hk
        · exact tail.positive x hx
      · have htotal := tail.total
        simp only [List.dropLast_cons_cons, List.map_cons, List.sum_cons, hadd] at htotal ⊢
        omega

def statusOf : Except Halt Value → Option Nat
  | .error _ => none
  | .ok v =>
    match v.member "status" with
    | .error _ => none
    | .ok s => s.asUInt.toOption.map UInt32.toNat

def Complete (ts : TestSolveParam) (order : List ActiveNode) (msgs : List Message) : Prop :=
  msgs.map Message.routingKey = order.map Sigma.fst ∧
    Partitions ts.range.1.toNat ts.range.2.toNat (msgs.map fun x => x.task.block)

/-- Either the whole task is published and the answer is 200, or nothing is published and the
answer is an error. -/
def AllOrNothing (m : MainNode) (ts : TestSolveParam) (order : List ActiveNode) : Prop :=
  Complete ts order (m.sendToExecution ts order).1 ∧
      statusOf (m.sendToExecution ts order).2 = some 200 ∨
    (m.sendToExecution ts order).1 = [] ∧
      ∃ status, statusOf (m.sendToExecution ts order).2 = some status ∧ 400 ≤ status

theorem sendToExecution_fst (ts : TestSolveParam) (node : ActiveNode) (rest : List ActiveNode) :
    (m.sendToExecution ts (node :: rest)).1 =
      (m.sendBlocks (ts.range.2 - ts.range.1 + 1) ts node rest).1 := by
  simp only [sendToExecution]
  split <;> simp [*]

theorem statusOf_sendToExecution (ts : TestSolveParam) (node : ActiveNode)
    (rest : List ActiveNode) {status : Nat} :
    statusOf (m.sendToExecution ts (node :: rest)).2 = some status ↔
      status = 200 ∧ (m.sendBlocks (ts.range.2 - ts.range.1 + 1) ts node rest).2 = .ok () := by
  simp only [sendToExecution]
  split
  · rename_i h
    simp [h, statusOf]
  · rename_i h
    rw [h]
    have : statusOf (.ok (answer "send_task" [("status", .int 200)])) = some 200 := rfl
    simp [this, eq_comm]

variable (m ts) in
def Fits (order : List ActiveNode) : Prop :=
  Shardable m (ts.range.2 - ts.range.1 + 1) ts.N ts.range.1 ts.range.2 order

theorem complete_of_fits {c : AMQPSQLCStr} (hc : m.publisher.connection = some c)
    {node : ActiveNode} {rest : List ActiveNode} (hsized : Sized m ts.N (node :: rest))
    (h : m.Fits ts (node :: rest)) :
    Complete ts (node :: rest) (m.sendToExecution ts (node :: rest)).1 ∧
      statusOf (m.sendToExecution ts (node :: rest)).2 = some 200 := by
  obtain ⟨hok, htiles⟩ := sendBlocks_of_shardable hc hsized h
  rw [Complete, sendToExecution_fst, statusOf_sendToExecution]
  exact ⟨⟨(sendBlocks_ok hc (Prod.ext rfl hok)).1, htiles.partitions⟩, rfl, hok⟩

theorem fits_of_complete {c : AMQPSQLCStr} (hc : m.publisher.connection = some c)
    {node : ActiveNode} {rest : List ActiveNode} (hsized : Sized m ts.N (node :: rest))
    (hle : ts.range.1 ≤ ts.range.2)
    (h : Complete ts (node :: rest) (m.sendToExecution ts (node :: rest)).1) :
    m.Fits ts (node :: rest) := by
  rw [Complete, sendToExecution_fst] at h
  obtain ⟨hkeys, hparts⟩ := h
  cases hres : (m.sendBlocks (ts.range.2 - ts.range.1 + 1) ts node rest).2 with
  | error e =>
    have hlt := length_lt_of_error hc (Prod.ext rfl hres)
    have hlen := congrArg List.length hkeys
    rw [List.length_map, List.length_map] at hlen
    exact absurd hlen hlt.ne
  | ok u =>
    refine shardable_of_sendBlocks hc hsized hle (Prod.ext rfl hres) ?_ ?_
    · exact fun x hx => hparts.nonempty _ (List.mem_map_of_mem hx)
    · exact by simpa only [List.pairwise_map] using hparts.disjoint

def FirstRefused (m : MainNode) (ts : TestSolveParam) : List ActiveNode → Prop
  | node :: _ :: _ =>
    (0 : UInt64) ∈ m.workers.getSum ∨ m.share (ts.range.2 - ts.range.1 + 1) ts.N node.2 = 0 ∨
      ts.range.2 < ts.range.1 + m.share (ts.range.2 - ts.range.1 + 1) ts.N node.2
  | _ => False

theorem sendToExecution_eq_nil_iff {c : AMQPSQLCStr} (hc : m.publisher.connection = some c)
    {node : ActiveNode} {rest : List ActiveNode} (hsized : Sized m ts.N (node :: rest)) :
    (m.sendToExecution ts (node :: rest)).1 = [] ↔ m.FirstRefused ts (node :: rest) := by
  rw [sendToExecution_fst]
  obtain ⟨key, val⟩ := node
  cases rest with
  | nil => simp [sendBlocks, publishMessage_of_connected hc, FirstRefused]
  | cons next rest =>
    simp only [sendBlocks, FirstRefused]
    rw [itersToSlice_eq _ hsized.size hsized.sum (hsized.speed _ List.mem_cons_self)]
    by_cases h0 : (0 : UInt64) ∈ m.workers.getSum
    · simp [h0]
    · by_cases hs : m.share (ts.range.2 - ts.range.1 + 1) ts.N val = 0 ∨
          ts.range.2 < ts.range.1 + m.share (ts.range.2 - ts.range.1 + 1) ts.N val
      · simp [h0, TestSolveParam.sliceAway_eq, hs]
      · simp [h0, TestSolveParam.sliceAway_eq, hs, publishMessage_of_connected hc]

/-- The request does what it should exactly for the tasks whose shares fit; where they do not and
the first block was published already, the rest of the task is lost. -/
theorem allOrNothing_iff {c : AMQPSQLCStr} {order : List ActiveNode}
    (hc : m.publisher.connection = some c) (hne : order ≠ []) (hsized : Sized m ts.N order)
    (hle : ts.range.1 ≤ ts.range.2) :
    (m.AllOrNothing ts order ↔ m.Fits ts order) ∧
      (Complete ts order (m.sendToExecution ts order).1 ∨ (m.sendToExecution ts order).1 = [] ↔
        m.Fits ts order ∨ m.FirstRefused ts order) := by
  cases order with
  | nil => exact absurd rfl hne
  | cons node rest =>
    refine ⟨⟨?_, fun h => .inl (complete_of_fits hc hsized h)⟩, ?_⟩
    · rintro (⟨h, -⟩ | ⟨-, status, hstatus, herr⟩)
      · exact fits_of_complete hc hsized hle h
      · obtain ⟨rfl, -⟩ := (statusOf_sendToExecution ts node rest).mp hstatus
        omega
    · refine or_congr ⟨fits_of_complete hc hsized hle, fun h => ?_⟩
        (sendToExecution_eq_nil_iff hc hsized)
      exact (complete_of_fits hc hsized h).1

def benchedNode (key : String) (bench : UInt64) : ActiveNode :=
  ⟨key, some s!"http://{key}", defaultBench bench, defaultBench (kBenchInfinity / bench)⟩

def clusterOf (order : List ActiveNode) (normalized : BenchResVec) : MainNode where
  auth := ⟨"sysadmin", "syspassword"⟩
  publisher := ⟨⟨some ⟨"q", "sysadmin", "syspassword", false⟩,
    some ⟨"q", "sysadmin", "syspassword", false⟩, true⟩, "testexch"⟩
  workers := WorkerManagement.init.setNodes .active order.toFinmap |> fun w =>
    { w with normalized }
  qHost := "q"

theorem allOrNothing_iff_pair :
    let order := [benchedNode "a" 1000000000000, benchedNode "b" 1000000000000]
    let ts : TestSolveParam := ⟨1, 1, (0, 9), ∅⟩
    let m := clusterOf order (defaultBench 2)
    (m.AllOrNothing ts order ↔ m.Fits ts order) ∧
      (Complete ts order (m.sendToExecution ts order).1 ∨ (m.sendToExecution ts order).1 = [] ↔
        m.Fits ts order ∨ m.FirstRefused ts order) :=
  allOrNothing_iff rfl (by decide) ⟨by decide, by decide, by decide⟩ (by decide)

theorem not_allOrNothing :
    let order := [benchedNode "a" 100000000000, benchedNode "b" 1000000000000,
      benchedNode "c" 1000000000000]
    let ts : TestSolveParam := ⟨1, 1, (0, 3), ∅⟩
    let m := clusterOf order (defaultBench 12)
    m.workers.active.entries = order ∧
      (∀ node ∈ order, node.2.nodeSpeed.length = 13 ∧ 0 ∉ node.2.nodeSpeed) ∧
      (m.sendToExecution ts order).1.map (fun x => x.task.block) = [(0, 2)] ∧
      ¬ m.AllOrNothing ts order := by
  refine ⟨rfl, by decide, rfl, ?_⟩
  rintro (⟨-, h⟩ | ⟨h, -⟩)
  · cases h
  · cases h

end MainNode

end DistributedMathArh
