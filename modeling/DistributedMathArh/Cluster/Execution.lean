import DistributedMathArh.CompNode.Consumption
import DistributedMathArh.MainNode.Sharding
import DistributedMathArh.Network.TaskRoundTrip

namespace DistributedMathArh

open Acknowledged Json Tiling Transition

/-- The queue a message is routed to and its body as the worker reads it: a queue is bound to the
exchange under its own name. -/
def Message.envelope (x : Message) : String × Value := (x.routingKey, x.task.toJson.reread)

namespace QueueConsumer

variable {Q T K : Type}

def published (a : String × ConsumerAction T K) : Option (String × Value) :=
  a.2.published.map (Prod.mk a.1)

def computed (p : QueueConsumer Q T K) : List Int :=
  p.link.handled.flatMap fun x => x.2.schedule.order.map Prod.snd

theorem filterMap_published (as : List (String × ConsumerAction T K)) (k : String) :
    (as.filterMap (ofKey k)).filterMap ConsumerAction.published =
      (as.filterMap published).filterMap (ofKey k) := by
  rw [List.filterMap_filterMap, List.filterMap_filterMap]
  congr 1
  funext a
  by_cases hk : a.1 = k
  · cases hp : a.2.published <;> simp [ofKey, published, hk, hp]
  · cases hp : a.2.published <;> simp [ofKey, published, hk, hp]

variable [DecidableEq T] [Field K] [DecidableEq K]

theorem range_of_envelope {x : Message} {ts : TestSolveParam}
    (hbody : TestSolveParam.ofJson x.envelope.2 = .ok ts) (hle : x.task.block.1 ≤ x.task.block.2)
    (hsecond : x.task.block.2 < 2 ^ 31 - 1) : ts.range = x.task.range :=
  TestSolveParam.range_of_ofJson_reread hbody (lt_trans (lt_of_le_of_lt hle hsecond) (by decide))
    (lt_trans hsecond (by decide))

theorem order_of_returns {pi : K} {fs : Functors T} {x : Message} {c : Computation T K}
    (h : Returns pi fs x.envelope.2 c) (hle : x.task.block.1 ≤ x.task.block.2)
    (hsecond : x.task.block.2 < 2 ^ 31 - 1) :
    (c.schedule.order.map Prod.snd).Perm
      ((List.range' x.task.block.1 (x.task.block.2 + 1 - x.task.block.1)).map
        fun n : Nat => (n : Int)) := by
  obtain ⟨hsched, hc⟩ := h
  cases hbody : TestSolveParam.ofJson x.envelope.2 with
  | error e =>
    rw [messageCallback, hbody] at hc
    cases hc
  | ok ts =>
    have hrange := range_of_envelope hbody hle hsecond
    have hiters := MessageCallback.iterations_eq hsecond hle
    rw [← hrange] at hiters
    have hperm := (hsched ts hbody _ hiters).1
    rw [hrange] at hperm
    exact hperm

end QueueConsumer

namespace MainNode

variable {T K : Type} {m : MainNode} {ts : TestSolveParam} {order : List ActiveNode}
  {c : AMQPSQLCStr} {as : List (String × ConsumerAction T K)}

structure Dispatched (m : MainNode) (ts : TestSolveParam) (order : List ActiveNode)
    (as : List (String × ConsumerAction T K)) : Prop where
  keys : (order.map Sigma.fst).Nodup
  published : (as.filterMap QueueConsumer.published).Perm
    ((m.sendToExecution ts order).1.map Message.envelope)
  routed : (m.sendToExecution ts order).1.map Message.routingKey = order.map Sigma.fst
  tiles : Tiles ts.range.1.toNat ts.range.2.toNat
    ((m.sendToExecution ts order).1.map fun x => x.task.block)

theorem dispatched_of_fits (hc : m.publisher.connection = some c) (hne : order ≠ [])
    (hsized : Sized m ts.N order) (hfits : m.Fits ts order) (hkeys : (order.map Sigma.fst).Nodup)
    (hpub : (as.filterMap QueueConsumer.published).Perm
      ((m.sendToExecution ts order).1.map Message.envelope)) : Dispatched m ts order as := by
  cases order with
  | nil => exact absurd rfl hne
  | cons node rest =>
    refine ⟨hkeys, hpub, (complete_of_fits hc hsized hfits).1.1, ?_⟩
    rw [sendToExecution_fst]
    exact (sendBlocks_of_shardable hc hsized hfits).2

namespace Dispatched

theorem queue (h : Dispatched m ts order as) {x : Message}
    (hx : x ∈ (m.sendToExecution ts order).1) :
    (as.filterMap (ofKey x.routingKey)).filterMap ConsumerAction.published = [x.envelope.2] := by
  have hnodup : (((m.sendToExecution ts order).1.map Message.envelope).map Prod.fst).Nodup := by
    rw [List.map_map]
    exact h.routed ▸ h.keys
  have hperm := h.published.filterMap (ofKey x.routingKey)
  rw [filterMap_ofKey hnodup (List.mem_map_of_mem hx)] at hperm
  rw [QueueConsumer.filterMap_published]
  exact List.perm_singleton.mp hperm

theorem node (h : Dispatched m ts order as) {x : Message}
    (hx : x ∈ (m.sendToExecution ts order).1) : ∃ node ∈ order, node.1 = x.routingKey :=
  List.mem_map.mp (h.routed ▸ List.mem_map_of_mem hx)

theorem block (h : Dispatched m ts order as) {x : Message}
    (hx : x ∈ (m.sendToExecution ts order).1) : ts.range.1.toNat ≤ x.task.block.1 ∧
      x.task.block.1 ≤ x.task.block.2 ∧ x.task.block.2 ≤ ts.range.2.toNat :=
  h.tiles.bounds _ (List.mem_map.mpr ⟨x, hx, rfl⟩)

theorem flatMap_order {α : Type} (h : Dispatched m ts order as) (f : String → List α) :
    (order.flatMap fun node => f node.1) =
      (m.sendToExecution ts order).1.flatMap fun x => f x.routingKey := by
  have hkeyed := congrArg (List.flatMap f) h.routed
  rw [List.flatMap_map, List.flatMap_map] at hkeyed
  exact hkeyed.symm

variable {Q : Type} [DecidableEq T] [Field K] [DecidableEq K] {B : AckQueue Q Value} {pi : K}
  {q : Q} {s : String → QueueConsumer Q T K}

theorem computed_of_run (h : Dispatched m ts order as) (hsecond : ts.range.2.toNat < 2 ^ 31 - 1)
    (hq : B.held q = 0)
    (run : Run (Each (QueueConsumer.Step B pi)) (fun _ => QueueConsumer.init q) as s)
    {x : Message} (hx : x ∈ (m.sendToExecution ts order).1)
    (hheld : B.held (s x.routingKey).link.queue = 0) {i : Nat} (hi : i ∈ Block.points x.task.block) :
    (i : Int) ∈ (s x.routingKey).computed := by
  have haccounted := QueueConsumer.accounted_of_run hq (run.component x.routingKey)
  rw [h.queue hx] at haccounted
  obtain ⟨r, hr⟩ := haccounted.mem_handled hheld (List.mem_singleton_self _)
  obtain ⟨fs, hreturns⟩ := haccounted.handled _ hr
  obtain ⟨-, hle, hend⟩ := h.block hx
  have hperm := QueueConsumer.order_of_returns hreturns hle (by omega)
  rw [Finset.mem_Icc] at hi
  refine List.mem_flatMap.mpr ⟨_, hr, hperm.mem_iff.mpr (List.mem_map.mpr ⟨i, ?_, rfl⟩)⟩
  rw [List.mem_range'_1]
  omega

theorem handled_of_clean_run (h : Dispatched m ts order as) (hq : B.held q = 0)
    (run : Run (Each (Guarded (QueueConsumer.Step B pi) QueueConsumer.Clean))
      (fun _ => QueueConsumer.init q) as s)
    {x : Message} (hx : x ∈ (m.sendToExecution ts order).1)
    (hheld : B.held (s x.routingKey).link.queue = 0) :
    ∃ r fs, (s x.routingKey).link.handled = [(x.envelope.2, r)] ∧
      QueueConsumer.Returns pi fs x.envelope.2 r := by
  have component := run.component x.routingKey
  have haccounted := QueueConsumer.accounted_of_run hq (component.mono fun _ _ _ h => h.2)
  rw [h.queue hx] at haccounted
  have hperm := haccounted.perm_of_held hheld (QueueConsumer.repeated_of_clean component)
  obtain ⟨⟨body, r⟩, hhandled, hbody⟩ := List.map_eq_singleton_iff.mp (List.perm_singleton.mp hperm)
  obtain rfl : body = x.envelope.2 := hbody
  obtain ⟨fs, hreturns⟩ := haccounted.handled (x.envelope.2, r) (by simp [hhandled])
  exact ⟨r, fs, hhandled, hreturns⟩

theorem computed_of_clean_run (h : Dispatched m ts order as)
    (hsecond : ts.range.2.toNat < 2 ^ 31 - 1) (hq : B.held q = 0)
    (run : Run (Each (Guarded (QueueConsumer.Step B pi) QueueConsumer.Clean))
      (fun _ => QueueConsumer.init q) as s)
    {x : Message} (hx : x ∈ (m.sendToExecution ts order).1)
    (hheld : B.held (s x.routingKey).link.queue = 0) :
    (s x.routingKey).computed.Perm
      ((List.range' x.task.block.1 (x.task.block.2 + 1 - x.task.block.1)).map
        fun n : Nat => (n : Int)) := by
  obtain ⟨r, fs, hhandled, hreturns⟩ := h.handled_of_clean_run hq run hx hheld
  obtain ⟨-, hle, hend⟩ := h.block hx
  have horder := QueueConsumer.order_of_returns hreturns hle (by omega)
  simpa [QueueConsumer.computed, hhandled] using horder

end Dispatched

def pairTask : TestSolveParam := ⟨1, 2, (0, 1), Worker.uniformArgs⟩

def pairOrder : List ActiveNode := [benchedNode "a" 1000000000000, benchedNode "b" 1000000000000]

def pair : MainNode := clusterOf pairOrder (defaultBench 2)

def pairRun {K : Type} (c₀ c₁ : Computation Nat K) : List (String × ConsumerAction Nat K) :=
  [("a", .publish (QueueConsumer.sampleBody 0)), ("b", .publish (QueueConsumer.sampleBody 1)),
    ("b", .consume), ("a", .consume), ("a", .deliver 1 (QueueConsumer.sampleBody 0)),
    ("b", .deliver 1 (QueueConsumer.sampleBody 1)), ("b", .onReceived c₁), ("a", .onReceived c₀),
    ("a", .acked), ("b", .acked)]

theorem exists_run_pair {K : Type} [Field K] [DecidableEq K] [CharZero K] {pi : K} (hpi : pi ≠ 0)
    (mesh : Int → Valarray K) (hmesh : ∀ i, (mesh i).length = 175) :
    ∃ (c₀ c₁ : Computation Nat K) (s : String → QueueConsumer (Fifo Value) Nat K),
      Run (Each (Guarded (QueueConsumer.Step (Fifo.queue Value) pi) QueueConsumer.Clean))
        (fun _ => QueueConsumer.init Fifo.empty) (pairRun c₀ c₁) s ∧
      (∀ node ∈ pairOrder, (Fifo.queue Value).held (s node.1).link.queue = 0) ∧
      ∀ node ∈ pairOrder, ∀ x ∈ (s node.1).link.handled, x.2.mesh = mesh := by
  obtain ⟨c₀, h₀, hmesh₀⟩ := QueueConsumer.exists_returns hpi mesh hmesh (i := 0) (by decide) rfl rfl
    fun _ => none
  obtain ⟨c₁, h₁, hmesh₁⟩ := QueueConsumer.exists_returns hpi mesh hmesh (i := 1) (by decide) rfl rfl
    fun _ => none
  have run : Run (Each (Guarded (QueueConsumer.Step (Fifo.queue Value) pi)
      QueueConsumer.Clean)) (fun _ => QueueConsumer.init Fifo.empty) (pairRun c₀ c₁) _ :=
    (((((((((Run.single (.update ⟨trivial, .publish⟩)).snoc (.update ⟨trivial, .publish⟩)).snoc
      (.update ⟨trivial, .consume rfl⟩)).snoc (.update ⟨trivial, .consume rfl⟩)).snoc
      (.update ⟨trivial, .deliver rfl rfl⟩)).snoc (.update ⟨trivial, .deliver rfl rfl⟩)).snoc
      (.update ⟨trivial, .onReceived rfl h₁⟩)).snoc (.update ⟨trivial, .onReceived rfl h₀⟩)).snoc
      (.update ⟨trivial, .acked rfl⟩)).snoc (.update ⟨trivial, .acked rfl⟩)
  refine ⟨c₀, c₁, _, run, fun node hnode => ?_, fun node hnode x hx => ?_⟩
  · fin_cases hnode <;> rfl
  · fin_cases hnode
    · obtain rfl := List.mem_singleton.mp hx
      exact hmesh₀
    · obtain rfl := List.mem_singleton.mp hx
      exact hmesh₁

variable {Q : Type} [DecidableEq T] [Field K] [DecidableEq K] {B : AckQueue Q Value} {pi : K}
  {q : Q} {s : String → QueueConsumer Q T K}

/-- A task whose shares fit is computed whatever happens on the way: when the queues of its workers
have nothing left, every iteration was computed by one of them, although workers may have crashed
and lost their connections. -/
theorem iteration_of_run (hc : m.publisher.connection = some c) (hne : order ≠ [])
    (hsized : Sized m ts.N order) (hfits : m.Fits ts order) (hkeys : (order.map Sigma.fst).Nodup)
    (hsecond : ts.range.2.toNat < 2 ^ 31 - 1) (hq : B.held q = 0)
    (run : Run (Each (QueueConsumer.Step B pi)) (fun _ => QueueConsumer.init q) as s)
    (hpub : (as.filterMap QueueConsumer.published).Perm
      ((m.sendToExecution ts order).1.map Message.envelope))
    (hheld : ∀ node ∈ order, B.held (s node.1).link.queue = 0) {i : Nat}
    (hi : i ∈ Finset.Icc ts.range.1.toNat ts.range.2.toNat) :
    ∃ node ∈ order, (i : Int) ∈ (s node.1).computed := by
  have h := dispatched_of_fits hc hne hsized hfits hkeys hpub
  obtain ⟨b, hb, hib⟩ := (h.tiles.mem_iff i).mp hi
  obtain ⟨x, hx, rfl⟩ := List.mem_map.mp hb
  obtain ⟨node, hnode, hkey⟩ := h.node hx
  exact ⟨node, hnode, hkey ▸ h.computed_of_run hsecond hq run hx (hkey ▸ hheld node hnode) hib⟩

theorem iteration_of_run_pair : ∃ s : String → QueueConsumer (Fifo Value) Nat ℚ,
    ∃ node ∈ pairOrder, ((1 : Nat) : Int) ∈ (s node.1).computed := by
  obtain ⟨c₀, c₁, s, run, hheld, -⟩ :=
    exists_run_pair Worker.mPi_ne_zero (fun _ => List.replicate 175 0) fun _ => rfl
  have run' : Run (Each (QueueConsumer.Step (Fifo.queue Value) Worker.mPi)) _ (pairRun c₀ c₁) s :=
    run.mono fun _ _ _ h => ⟨h.1.2, h.2⟩
  exact ⟨s, iteration_of_run (m := pair) rfl (by decide) ⟨by decide, by decide, by decide⟩
    (show pair.Fits pairTask pairOrder from ⟨by decide, by decide, by decide⟩) (by decide)
    (by decide) rfl run' (.refl _) hheld (by decide)⟩

/-- And it is computed once: without a lost acknowledgement the workers have computed the
iterations of the task, each exactly once, and nothing else. -/
theorem iterations_of_run (hc : m.publisher.connection = some c) (hne : order ≠ [])
    (hsized : Sized m ts.N order) (hfits : m.Fits ts order) (hkeys : (order.map Sigma.fst).Nodup)
    (hsecond : ts.range.2.toNat < 2 ^ 31 - 1) (hq : B.held q = 0)
    (run : Run (Each (Guarded (QueueConsumer.Step B pi) QueueConsumer.Clean))
      (fun _ => QueueConsumer.init q) as s)
    (hpub : (as.filterMap QueueConsumer.published).Perm
      ((m.sendToExecution ts order).1.map Message.envelope))
    (hheld : ∀ node ∈ order, B.held (s node.1).link.queue = 0) :
    (order.flatMap fun node => (s node.1).computed).Perm
      ((List.range' ts.range.1.toNat (ts.range.2.toNat + 1 - ts.range.1.toNat)).map
        fun n : Nat => (n : Int)) := by
  have h := dispatched_of_fits hc hne hsized hfits hkeys hpub
  rw [h.flatMap_order fun k => (s k).computed, ← h.tiles.flatMap_range', List.flatMap_map,
    List.map_flatMap]
  apply List.Perm.flatMap_left
  intro x hx
  obtain ⟨node, hnode, hkey⟩ := h.node hx
  exact h.computed_of_clean_run hsecond hq run hx (hkey ▸ hheld node hnode)

theorem iterations_of_run_pair : ∃ s : String → QueueConsumer (Fifo Value) Nat ℚ,
    (pairOrder.flatMap fun node => (s node.1).computed).Perm
      ((List.range' 0 2).map fun n : Nat => (n : Int)) := by
  obtain ⟨c₀, c₁, s, run, hheld, -⟩ :=
    exists_run_pair Worker.mPi_ne_zero (fun _ => List.replicate 175 0) fun _ => rfl
  exact ⟨s, iterations_of_run (m := pair) rfl (by decide) ⟨by decide, by decide, by decide⟩
    (show pair.Fits pairTask pairOrder from ⟨by decide, by decide, by decide⟩) (by decide)
    (by decide) rfl run (.refl _) hheld⟩

end MainNode

end DistributedMathArh
