import DistributedMathArh.CompNode.Service
import DistributedMathArh.MainNode.Registry

namespace DistributedMathArh

open Json

/-- The main node as it is: the benchmark is decoded by `RecomputeCoefficients`. -/
def codeEnv (toStyledString : Value → String) : Env := ⟨toStyledString, benchOfJson⟩

theorem asUInt64_reread_uint (n : UInt64) : (Value.uint n).reread.asUInt64 = .ok n := by
  rw [Value.asUInt64, Value.asUnsigned_reread_uint n _ _ (by have := n.toNat_lt; omega)]
  simp [Except.map]

theorem benchOfJson_array (x : Value) (xs : List Value) :
    benchOfJson (.array (x :: xs)) = x.asUInt64.map fun n => [n] := by
  simp only [benchOfJson, jsonToContinuous, continuousSize, Value.item, bind, Except.bind, pure,
    Except.pure, if_true, List.range_succ, List.range_zero, List.nil_append, List.mapM_cons,
    List.mapM_nil, List.getD_cons_zero]
  cases x.asUInt64 <;> rfl

theorem benchOfJson_encodeBench (bench : BenchResVec) :
    benchOfJson (ComputationNode.encodeBench bench).reread = .ok [bench.headD 0] := by
  cases bench with
  | nil => rfl
  | cons x xs =>
    have h : (ComputationNode.encodeBench (x :: xs)).reread =
        .array ((Value.uint x).reread :: (xs.map Value.uint).map Value.reread) := by
      rw [← Value.rereadElems_eq_map]
      rfl
    rw [h, benchOfJson_array, asUInt64_reread_uint]
    rfl

namespace WorkerManagement

variable {E : Env} {w : WorkerManagement} {hostPort : String} {n : ComputationalNode}

def Rated (hostPort : String) (bench : BenchResVec)
    (out : WorkerManagement × Except Halt Value) : Prop :=
  out.2 ≠ .error (.fault .divisionByZero) ∧
    (hostPort ∈ out.1.inactive ∧ hostPort ∉ out.1.active ∨
      ∃ n, out.1.active.lookup hostPort = some n ∧ n.benchResult = bench ∧ bench.length = 13 ∧
        ∀ i < 13, n.nodeSpeed[i]? = bench[i]?.map (kBenchInfinity / ·))

theorem activate_lookup (hlook : w.inactive.lookup hostPort = some n) {body body' val : Value}
    {bench : BenchResVec} (hbody : body.resolveReference "bench" = .ok (body', val))
    (hdec : E.decodeBench val = .ok bench) :
    (w.activate E hostPort body).2 = .error (.fault .divisionByZero) ∨
      (w.activate E hostPort body).1.active.lookup hostPort = some (rated n bench) := by
  simp only [activate, hbody, nodeAt_of_lookup hlook, recomputeCoefficients_eq hdec]
  by_cases hdiv : n.nodeSpeed.length = 0 ∧ 0 ∈ bench
  · left
    rw [if_pos hdiv]
  · right
    simp only [if_neg hdiv, moveNode_putNode]
    split <;> exact Finmap.lookup_insert _

/-- No successful answer of a worker is taken as it should: a vector of one entry is stored, or a
division by zero is performed. -/
theorem not_rated_of_connect {toStyledString : Value → String} {realText : Double → String}
    {node node' : ComputationNode} {request v : Value} {error : String} {reply : HttpReply}
    (hanswer : node.connect realText (some request) error = (node', .ok v))
    (hreply : ComputationNode.toReply v = .ok reply) (haccepted : reply.accepted)
    (hlook : w.inactive.lookup hostPort = some n) (hclient : n.httpClient ≠ none) :
    ¬ Rated hostPort node.benchRes (w.connectNode (codeEnv toStyledString) hostPort reply) := by
  obtain ⟨i, ms, rfl⟩ := ComputationNode.connect_answer hanswer
  obtain ⟨status, rfl⟩ := ComputationNode.toReply_eq_ok hreply
  have hstatus : status < 400 := by simpa [HttpReply.accepted] using haccepted
  rw [connectNode_of_accepted _ hlook hclient hstatus]
  rintro ⟨hdiv, hrated⟩
  rcases activate_lookup (E := codeEnv toStyledString) hlook
    (ComputationNode.resolve_bench (n := node) i ms) (benchOfJson_encodeBench node.benchRes) with
    h | h
  · exact hdiv h
  · rcases hrated with ⟨-, hnot⟩ | ⟨n', hn', hres, hlen, -⟩
    · exact hnot (Finmap.mem_of_lookup_eq_some h)
    · obtain rfl := Option.some.inj (h.symm.trans hn')
      rw [← hres] at hlen
      cases hlen

def sampleRequest : Value := (MainNode.init ⟨"sysadmin", "syspassword"⟩).connectRequest "w"

def sampleRegistry : WorkerManagement := (init.addNewNode "w").1

theorem not_rated_of_connect_sample :
    ∃ node' v reply, (⟨.init, defaultBench 5⟩ : ComputationNode).connect (fun _ => "")
        (some sampleRequest) "" = (node', .ok v) ∧ ComputationNode.toReply v = .ok reply ∧
      ¬ Rated "w" (defaultBench 5)
        (sampleRegistry.connectNode (codeEnv fun _ => "") "w" reply) := by
  have hanswer : (⟨.init, defaultBench 5⟩ : ComputationNode).connect (fun _ => "")
      (some sampleRequest) "" = (_, .ok _) := rfl
  exact ⟨_, _, _, hanswer, rfl, not_rated_of_connect hanswer rfl rfl rfl (by decide)⟩

theorem not_rated :
    (∃ node' v reply out, (⟨.init, defaultBench 5⟩ : ComputationNode).connect (fun _ => "")
        (some sampleRequest) "" = (node', .ok v) ∧ ComputationNode.toReply v = .ok reply ∧
      sampleRegistry.connectNode (codeEnv fun _ => "") "w" reply = out ∧
      (out.1.nodeAt .active "w").benchResult = [5] ∧ ¬ Rated "w" (defaultBench 5) out) ∧
    ∃ node' v reply out, (⟨.init, []⟩ : ComputationNode).connect (fun _ => "")
        (some sampleRequest) "" = (node', .ok v) ∧ ComputationNode.toReply v = .ok reply ∧
      sampleRegistry.connectNode (codeEnv fun _ => "") "w" reply = out ∧
      out.2 = .error (.fault .divisionByZero) ∧ ¬ Rated "w" [] out := by
  refine ⟨⟨_, _, _, _, rfl, rfl, rfl, rfl, ?_⟩, ⟨_, _, _, _, rfl, rfl, rfl, rfl, ?_⟩⟩
  · rintro ⟨-, ⟨-, h⟩ | ⟨n, h, hbench, -⟩⟩
    · exact h (by decide)
    · cases h
      cases hbench
  · rintro ⟨h, -⟩
    exact h rfl

end WorkerManagement

end DistributedMathArh
