import DistributedMathArh.Cluster.Average
import DistributedMathArh.Cluster.Execution

namespace DistributedMathArh

open Acknowledged Json Real Finset Tiling Transition
open CoordGenerate (values)

variable {Q T : Type} [DecidableEq T] {n : Nat}

theorem QueueConsumer.getD_of_returns {fs : Functors T} {x : Message} {c : Computation T ℝ}
    (h : Returns π fs x.envelope.2 c) (hle : x.task.block.1 ≤ x.task.block.2)
    (hsecond : x.task.block.2 < 2 ^ 31 - 1) (j : Nat) :
    c.handled.res.getD j 0 = (CoordGenerate.initial.data 0).getD j 0 +
      ∑ i ∈ x.task.block.points, (c.mesh i).getD j 0 := by
  obtain ⟨hsched, hc⟩ := h
  cases hbody : TestSolveParam.ofJson x.envelope.2 with
  | error e =>
    rw [messageCallback, hbody] at hc
    cases hc
  | ok ts =>
    rw [messageCallback, hbody] at hc
    have hblock : ts.block = x.task.block := by
      unfold TestSolveParam.block
      rw [range_of_envelope hbody hle hsecond]
    have hjob : Job.Yields π c.mesh ⟨ts, fs, c.schedule⟩ c.handled.res :=
      ⟨hsched ts hbody, c.handled, hc, rfl⟩
    have hres := hjob.getD_block CoordGenerate.constructDefault_eq (hblock ▸ hsecond) (hblock ▸ hle) j
    rwa [hblock] at hres

namespace MainNode

variable {m : MainNode} {ts : TestSolveParam} {order : List ActiveNode} {c : AMQPSQLCStr}
  {as : List (String × ConsumerAction T ℝ)} {B : AckQueue Q Value} {q : Q}
  {s : String → QueueConsumer Q T ℝ}

/-- The meshes that the workers computed are those of configurations of dipoles. -/
def Simulates (n : Nat) (s : String → QueueConsumer Q T ℝ) (order : List ActiveNode) : Prop :=
  ∀ node ∈ order, ∀ x ∈ (s node.1).link.handled, ∀ i, ∃ xi : Coordinates n, x.2.mesh i = values xi

def Drawn (s : String → QueueConsumer Q T ℝ) (order : List ActiveNode) (first : Nat)
    (coordinates : Nat → Coordinates n) : Prop :=
  ∀ node ∈ order, ∀ x ∈ (s node.1).link.handled, ∀ y ∈ x.2.schedule.order,
    x.2.mesh y.2 = values (coordinates (y.2.toNat - first))

theorem Dispatched.exists_drawn (h : Dispatched m ts order as)
    (hsecond : ts.range.2.toNat < 2 ^ 31 - 1) (hq : B.held q = 0)
    (run : Run (Each (Guarded (QueueConsumer.Step B π) QueueConsumer.Clean))
      (fun _ => QueueConsumer.init q) as s)
    (hheld : ∀ node ∈ order, B.held (s node.1).link.queue = 0) (hsim : Simulates n s order) :
    ∃ coordinates : Nat → Coordinates n, Drawn s order ts.range.1.toNat coordinates ∧
      ∀ x ∈ (m.sendToExecution ts order).1, ∃ r, (s x.routingKey).link.handled =
        [(x.envelope.2, r)] ∧ ∀ j, r.handled.res.getD j 0 =
          (CoordGenerate.initial.data 0).getD j 0 + ∑ i ∈ x.task.block.points,
            (values (coordinates (i - ts.range.1.toNat))).getD j 0 := by
  have hdraw : ∀ x ∈ (m.sendToExecution ts order).1, ∃ xi : Nat → Coordinates n,
      ∀ y ∈ (s x.routingKey).link.handled, ∀ i : Nat, y.2.mesh i = values (xi i) := by
    intro x hx
    obtain ⟨node, hnode, hkey⟩ := h.node hx
    obtain ⟨r, fs, hhandled, -⟩ := h.handled_of_clean_run hq run hx (hkey ▸ hheld node hnode)
    have hmesh := hsim node hnode (x.envelope.2, r) (by rw [hkey, hhandled]; exact .head _)
    choose xi hxi using fun i : Nat => hmesh i
    refine ⟨xi, fun y hy i => ?_⟩
    rw [hhandled, List.mem_singleton] at hy
    rw [hy, hxi]
  choose! xi hxi using hdraw
  obtain ⟨g, hg⟩ := h.tiles.exists_glue xi
  have hvalues : ∀ x ∈ (m.sendToExecution ts order).1, ∀ y ∈ (s x.routingKey).link.handled,
      ∀ i ∈ x.task.block.points,
        y.2.mesh i = values (g (i - ts.range.1.toNat + ts.range.1.toNat)) := by
    intro x hx y hy i hi
    have hfirst := (h.block hx).1
    have hpoint := (mem_Icc.mp hi).1
    rw [Nat.sub_add_cancel (hfirst.trans hpoint), hg x hx i hi]
    exact hxi x hx y hy i
  refine ⟨fun k => g (k + ts.range.1.toNat), fun node hnode y hy => ?_, fun x hx => ?_⟩
  · obtain ⟨x, hx, hkey⟩ := List.mem_map.mp (h.routed.symm ▸ List.mem_map_of_mem hnode)
    rw [← hkey] at hy
    obtain ⟨r, fs, hhandled, hreturns⟩ := h.handled_of_clean_run hq run hx (hkey ▸ hheld node hnode)
    rw [hhandled, List.mem_singleton] at hy
    subst hy
    obtain ⟨-, hle, hend⟩ := h.block hx
    have hperm := QueueConsumer.order_of_returns hreturns hle (by omega)
    intro y hy
    obtain ⟨i, hi, hiy⟩ := List.mem_map.mp (hperm.mem_iff.mp (List.mem_map_of_mem hy))
    rw [List.mem_range'_1] at hi
    rw [← hiy, Int.toNat_natCast]
    exact hvalues x hx _ (by rw [hhandled]; exact .head _) i (mem_Icc.mpr (by omega))
  · obtain ⟨node, hnode, hkey⟩ := h.node hx
    obtain ⟨r, fs, hhandled, hreturns⟩ := h.handled_of_clean_run hq run hx (hkey ▸ hheld node hnode)
    obtain ⟨-, hle, hend⟩ := h.block hx
    refine ⟨r, hhandled, fun j => ?_⟩
    rw [QueueConsumer.getD_of_returns hreturns hle (by omega) j]
    refine congrArg _ (sum_congr rfl fun i hi => ?_)
    rw [hvalues x hx (x.envelope.2, r) (by rw [hhandled]; exact .head _) i hi]

/-- End to end: a task whose shares fit is cut up, sent through the workers' queues and computed;
when the queues have been drained without a lost acknowledgement, the results of the workers add up
to the number of iterations times what the one process prints for the configurations that the
workers drew, and once for each worker the grid of phi. -/
theorem results_of_run (hc : m.publisher.connection = some c) (hne : order ≠ [])
    (hsized : Sized m ts.N order) (hfits : m.Fits ts order) (hkeys : (order.map Sigma.fst).Nodup)
    (hsecond : ts.range.2.toNat < 2 ^ 31 - 1) (hq : B.held q = 0)
    (run : Run (Each (Guarded (QueueConsumer.Step B π) QueueConsumer.Clean))
      (fun _ => QueueConsumer.init q) as s)
    (hpub : (as.filterMap QueueConsumer.published).Perm
      ((m.sendToExecution ts order).1.map Message.envelope))
    (hheld : ∀ node ∈ order, B.held (s node.1).link.queue = 0)
    (hsim : Simulates ts.N.toNat s order) {U : Type} [DecidableEq U]
    (integrate : (ℝ → ℝ) → ℝ → ℝ → ℝ) (unset : U → Nat) (schedule : List (U × Nat)) :
    ∃ (coordinates : Nat → Coordinates ts.N.toNat) (ms : MeshCreator ℝ),
      Drawn s order ts.range.1.toNat coordinates ∧
      CoordGenerate.run integrate unset .new coordinates ts.iterations schedule = .ok ms ∧
      ∀ j, ((order.flatMap fun node => (s node.1).link.handled).map fun x =>
          x.2.handled.res.getD j 0).sum =
        ts.iterations * (ms.data 2).getD j 0 + order.length * (ms.data 0).getD j 0 := by
  have h := dispatched_of_fits hc hne hsized hfits hkeys hpub
  obtain ⟨coordinates, hdrawn, hresults⟩ := h.exists_drawn hsecond hq run hheld hsim
  have hn : 1 ≤ ts.N.toNat := by
    have h0 : (0 : UInt64) ∉ ns := by decide
    refine Nat.pos_of_ne_zero fun hN => h0 ?_
    have hzero : ts.N = 0 := UInt64.toNat_inj.mp hN
    exact hzero ▸ hsized.size
  have hle := h.tiles.le
  have hiters : ts.iterations ≠ 0 := by
    unfold TestSolveParam.iterations
    omega
  refine ⟨coordinates, _, hdrawn, (CoordGenerate.run_sequential hn hiters).1, fun j => ?_⟩
  have hblocks : ((order.flatMap fun node => (s node.1).link.handled).map fun x =>
      x.2.handled.res.getD j 0).sum = ((m.sendToExecution ts order).1.map fun x =>
        (CoordGenerate.initial.data 0).getD j 0 + ∑ i ∈ x.task.block.points,
          (values (coordinates (i - ts.range.1.toNat))).getD j 0).sum := by
    rw [h.flatMap_order fun k => (s k).link.handled, List.map_flatMap, List.flatMap_def,
      List.sum_flatten, List.map_map]
    refine congrArg List.sum (List.map_congr_left fun x hx => ?_)
    obtain ⟨r, hhandled, hres⟩ := hresults x hx
    simp only [Function.comp_apply, hhandled, List.map_singleton, List.sum_singleton, hres]
  have hlength : order.length = (m.sendToExecution ts order).1.length := by
    have hkeyed := congrArg List.length h.routed
    rw [List.length_map, List.length_map] at hkeyed
    exact hkeyed.symm
  have hmeshes : ((m.sendToExecution ts order).1.map fun x => ∑ i ∈ x.task.block.points,
      (values (coordinates (i - ts.range.1.toNat))).getD j 0).sum =
        ∑ i ∈ range ts.iterations, (values (coordinates i)).getD j 0 := by
    have hsum := h.tiles.sum_eq fun i => (values (coordinates (i - ts.range.1.toNat))).getD j 0
    have hIcc : Icc ts.range.1.toNat ts.range.2.toNat =
      Ico ts.range.1.toNat (ts.range.2.toNat + 1) := rfl
    rw [List.map_map, hIcc, sum_Ico_eq_sum_range] at hsum
    refine Eq.trans hsum (sum_congr rfl fun i _ => ?_)
    rw [Nat.add_sub_cancel_left]
  rw [hblocks, List.sum_map_add, List.map_const', List.sum_replicate, hmeshes,
    CoordGenerate.sum_getD_values coordinates hiters, hlength, nsmul_eq_mul, add_comm]
  rfl

noncomputable def pairDrawn (i : Int) : Coordinates pairTask.N.toNat := fun k => k.val + i

theorem results_of_run_pair :
    ∃ (s : String → QueueConsumer (Fifo Value) Nat ℝ)
      (coordinates : Nat → Coordinates pairTask.N.toNat) (ms : MeshCreator ℝ),
      Drawn s pairOrder 0 coordinates ∧
      CoordGenerate.run (fun f a b => ∫ t in a..b, f t) id .new coordinates pairTask.iterations
        ([] : List (Nat × Nat)) = .ok ms ∧
      ∀ j, ((pairOrder.flatMap fun node => (s node.1).link.handled).map fun x =>
          x.2.handled.res.getD j 0).sum =
        pairTask.iterations * (ms.data 2).getD j 0 + pairOrder.length * (ms.data 0).getD j 0 := by
  obtain ⟨c₀, c₁, s, run, hheld, hmesh⟩ :=
    exists_run_pair pi_ne_zero (fun i => values (pairDrawn i)) fun _ => MeshCreator.length_values _
  have hsim : Simulates pairTask.N.toNat s pairOrder := fun node hnode x hx i =>
    ⟨pairDrawn i, congrFun (hmesh node hnode x hx) i⟩
  exact ⟨s, results_of_run (m := pair) rfl (by decide) ⟨by decide, by decide, by decide⟩
    (show pair.Fits pairTask pairOrder from ⟨by decide, by decide, by decide⟩) (by decide)
    (by decide) rfl run (.refl _) hheld hsim (fun f a b => ∫ t in a..b, f t) id []⟩

end MainNode

end DistributedMathArh
