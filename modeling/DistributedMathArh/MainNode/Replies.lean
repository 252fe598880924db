import DistributedMathArh.MainNode.Run
import DistributedMathArh.MainNode.Sharding

namespace DistributedMathArh

open Json

namespace HttpReply

/-- The replies that drogon gives: a response comes with the result `Ok` only, and its status is an
`int`. -/
structure Possible (reply : HttpReply) : Prop where
  result : reply.response.isSome → reply.result = .ok
  status : ∀ resp, reply.response = some resp → resp.statusCode < 2147483648

def Answered (reply : HttpReply) : Prop :=
  ∃ resp body, reply.response = some resp ∧ resp.statusCode < 400 ∧ resp.json = some body

def Readable (reply : HttpReply) : Prop :=
  reply.result = .badServerAddress ∨
    ∃ resp body, reply.response = some resp ∧ resp.json = some body

end HttpReply

namespace WorkerManagement

variable {E : Env} {w : WorkerManagement} {hostPort : String} {n : ComputationalNode}
  {reply : HttpReply}

/-- A request leaves no absent pointer dereferenced, and without a proper answer of the worker it
answers an error and changes nothing. -/
structure Handles (w : WorkerManagement) (reply : HttpReply)
    (out : WorkerManagement × Except Halt Value) : Prop where
  pointer : out.2 ≠ .error (.fault .nullPointer)
  failure : ¬reply.Answered →
    out.1 = w ∧ ∃ status, MainNode.statusOf out.2 = some status ∧ 400 ≤ status

theorem zipOp_ne_nullPointer {op : UInt64 → UInt64 → UInt64} {u v : BenchResVec} :
    Valarray.zipOp op u v ≠ .error (.fault .nullPointer) := by
  unfold Valarray.zipOp
  split
  · exact fun h => by cases h
  · exact fun h => by cases h

theorem recomputeCoefficients_ne_nullPointer (val : Value) (n : ComputationalNode) :
    (n.recomputeCoefficients E val).2 ≠ .error (.fault .nullPointer) := by
  cases hdec : E.decodeBench val with
  | error e =>
    simp only [ComputationalNode.recomputeCoefficients, hdec]
    exact fun h => by cases h
  | ok bench =>
    rw [recomputeCoefficients_eq hdec]
    split
    · exact fun h => by cases h
    · exact fun h => by cases h

theorem activate_ne_nullPointer (body : Value) :
    (w.activate E hostPort body).2 ≠ .error (.fault .nullPointer) := by
  unfold activate
  cases body.resolveReference "bench" with
  | error e => exact fun h => by cases h
  | ok r =>
    have hres := recomputeCoefficients_ne_nullPointer (E := E) r.2 (w.nodeAt .inactive hostPort)
    simp only
    split
    · rename_i h heq
      rw [heq] at hres
      exact fun h => hres (by cases h; rfl)
    · split
      · rename_i h heq
        intro hnull
        cases hnull
        exact zipOp_ne_nullPointer heq
      · exact fun h => by cases h

theorem deactivate_ne_nullPointer (body : Value) :
    (w.deactivate hostPort body).2 ≠ .error (.fault .nullPointer) := by
  unfold deactivate
  simp only
  split
  · rename_i h heq
    intro hnull
    cases hnull
    exact zipOp_ne_nullPointer heq
  · exact fun h => by cases h

theorem statusOf_unreachable (hostPort : String) :
    MainNode.statusOf (.ok (unreachable hostPort)) = some 504 := rfl

theorem statusOf_refused {message : String} {resp : Response} {body : Value}
    (hjson : resp.json = some body) (hstatus : resp.statusCode < 2147483648) :
    MainNode.statusOf (refused E message resp) = some resp.statusCode := by
  have hint : (Int64.ofNat resp.statusCode).toInt = resp.statusCode :=
    Int64.toInt_ofNat_of_lt (lt_trans hstatus (by decide))
  have hread : (Value.int (Int64.ofNat resp.statusCode)).asUInt =
      .ok (UInt32.ofNat resp.statusCode) := by
    rw [Value.asUInt, Value.asUnsigned_int (by omega) (by omega), hint]
    rfl
  simp only [MainNode.statusOf, refused, hjson, Value.member]
  exact (congrArg (fun x => x.toOption.map UInt32.toNat) hread).trans
    (congrArg some (UInt32.toNat_ofNat_of_lt (lt_trans hstatus (by decide))))

theorem readable_of_response {resp : Response} {body : Value} (hresp : reply.response = some resp)
    (hjson : resp.json = some body) : reply.Readable := .inr ⟨resp, body, hresp, hjson⟩

theorem not_readable (haddr : reply.result ≠ .badServerAddress)
    (hnone : reply.response.bind Response.json = none) : ¬reply.Readable := by
  rintro (h | ⟨resp, body, hresp, hjson⟩)
  · exact haddr h
  · rw [hresp, Option.bind_some, hjson] at hnone
    cases hnone

theorem handles_exchange_iff {message : String} {act : Value → WorkerManagement × Except Halt Value}
    (hact : ∀ body, (act body).2 ≠ .error (.fault .nullPointer)) (hreply : reply.Possible) :
    Handles w reply (w.exchange E hostPort message act reply) ↔ reply.Readable := by
  rcases w.exchange_cases E hostPort message act reply with
    ⟨haddr, h⟩ | ⟨haddr, hnone, h⟩ | ⟨resp, body, -, hresp, hjson, ⟨hstatus, h⟩ | ⟨hstatus, h⟩⟩
  · rw [h]
    refine iff_of_true ⟨?_, fun _ => ⟨rfl, 504, statusOf_unreachable hostPort, ?_⟩⟩ (.inl haddr)
    · exact fun h => by cases h
    · decide
  · exact iff_of_false (fun handles => handles.pointer h) (not_readable haddr hnone)
  · rw [h]
    refine iff_of_true ⟨?_, fun _ => ⟨rfl, resp.statusCode, ?_, hstatus⟩⟩
      (readable_of_response hresp hjson)
    · simp only [refused, hjson]
      exact fun h => by cases h
    · exact statusOf_refused hjson (hreply.status _ hresp)
  · rw [h]
    refine iff_of_true ⟨hact body, fun hnot => absurd ?_ hnot⟩ (readable_of_response hresp hjson)
    exact ⟨resp, body, hresp, not_le.mp hstatus, hjson⟩

/-- For a host that is INACTIVE and one that is ACTIVE, respectively. -/
theorem handles_iff (E : Env) (hw : w.Registered) (hreply : reply.Possible) :
    (hostPort ∈ w.inactive →
      (Handles w reply (w.connectNode E hostPort reply) ↔ reply.Readable)) ∧
    (hostPort ∈ w.active →
      (Handles w reply (w.disconnectNode E hostPort reply) ↔ reply.Readable)) := by
  constructor
  · intro hin
    obtain ⟨n, hlook⟩ := Finmap.mem_iff.mp hin
    rw [connectNode_eq_exchange hlook (hw.client .inactive _ _ hlook)]
    exact handles_exchange_iff activate_ne_nullPointer hreply
  · intro hin
    obtain ⟨n, hlook⟩ := Finmap.mem_iff.mp hin
    rw [disconnectNode_eq_exchange hlook (hw.client .active _ _ hlook)]
    exact handles_exchange_iff deactivate_ne_nullPointer hreply

def knownWorker : WorkerManagement := (init.addNewNode "w").1

def connectedWorker : WorkerManagement :=
  (knownWorker.connectNode (MainNode.uniformEnv 5) "w" (MainNode.okReply [("bench", .null)])).1

def timedOut : HttpReply := ⟨.timeout, none⟩

def plainText : HttpReply := ⟨.ok, some ⟨200, none⟩⟩

theorem possible_timedOut : timedOut.Possible where
  result h := by cases h
  status _ h := by cases h

theorem possible_plainText : plainText.Possible where
  result _ := rfl
  status resp h := by
    cases h
    decide

theorem registered_knownWorker : knownWorker.Registered :=
  registered_init.change (change_addNewNode (E := MainNode.uniformEnv 5) init "w")

theorem handles_iff_timedOut : Handles knownWorker timedOut
    (knownWorker.connectNode (MainNode.uniformEnv 5) "w" timedOut) ↔ timedOut.Readable :=
  (handles_iff (MainNode.uniformEnv 5) registered_knownWorker possible_timedOut).1 (by decide)

theorem not_handles :
    (timedOut.Possible ∧ "w" ∈ knownWorker.inactive ∧
      ¬Handles knownWorker timedOut
        (knownWorker.connectNode (MainNode.uniformEnv 5) "w" timedOut)) ∧
    (plainText.Possible ∧ "w" ∈ connectedWorker.active ∧
      ¬Handles connectedWorker plainText
        (connectedWorker.disconnectNode (MainNode.uniformEnv 5) "w" plainText)) :=
  ⟨⟨possible_timedOut, by decide, fun h => h.pointer rfl⟩,
    ⟨possible_plainText, by decide, fun h => h.pointer rfl⟩⟩

end WorkerManagement

end DistributedMathArh
