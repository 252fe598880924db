import DistributedMathArh.MainNode.RestFailures
import DistributedMathArh.MainNode.Sharding

namespace DistributedMathArh

open Json Transition FinmapSum

def HttpReply.Lost (reply : HttpReply) : Prop :=
  reply.result ≠ .badServerAddress ∧ reply.response.bind Response.json = none

namespace WorkerManagement

variable {E : Env} {w : WorkerManagement} {hostPort : String} {n : ComputationalNode}
  {bench : BenchResVec}

/-- Whatever is added up has 13 entries; a node that was never ACTIVE may have no speeds yet. -/
structure Measured (w : WorkerManagement) : Prop extends Registered w where
  idle : ∀ h n, w.inactive.lookup h = some n → n.nodeSpeed = [] ∨ n.nodeSpeed.length = 13
  speed : ∀ h n, w.active.lookup h = some n → n.nodeSpeed.length = 13
  size : w.normalized.length = 13

theorem measured_init : Measured init where
  toRegistered := registered_init
  idle := by simp [init, inactive]
  speed := by simp [init, active]
  size := rfl

namespace Measured

theorem addNewNode (hw : Measured w) (hostPort : String) : Measured (w.addNewNode hostPort).1 := by
  unfold WorkerManagement.addNewNode
  by_cases hnew : hostPort ∉ w.inactive ∧ hostPort ∉ w.active
  · rw [if_pos hnew]
    refine ⟨hw.toRegistered.putNode_inactive hnew.2 (by simp), ?_, hw.speed, hw.size⟩
    rw [inactive_putNode_inactive]
    exact forall_insert (.inl rfl) hw.idle
  · rw [if_neg hnew]
    split <;> exact hw

theorem enter (hw : Measured w) (hlook : w.inactive.lookup hostPort = some n)
    (hfits : Fits n bench w.normalized) : Measured (w.entered hostPort (rated n bench)) where
  toRegistered := by
    have hclient := hw.client .inactive _ _ hlook
    exact hw.toRegistered.enter hclient
  idle := by
    rw [inactive_entered]
    exact forall_erase hw.idle
  speed := by
    rw [active_entered]
    exact forall_insert (hfits.2.symm.trans hw.size) hw.speed
  size := by
    rw [entered, List.length_zipWith, ← hfits.2, min_self, hw.size]

theorem leave (hw : Measured w) (hlook : w.active.lookup hostPort = some n) :
    Measured (w.left hostPort n) where
  toRegistered := hw.toRegistered.leave hlook
  idle := by
    rw [inactive_left]
    exact forall_insert (.inr (hw.speed _ _ hlook)) hw.idle
  speed := by
    rw [active_left]
    exact forall_erase hw.speed
  size := by simp [left, hw.size, hw.speed _ _ hlook]

theorem not_fits_iff (hw : Measured w) (hlook : w.inactive.lookup hostPort = some n) :
    ¬Fits n bench w.normalized ↔ n.nodeSpeed = [] ∧ (bench.length ≠ 13 ∨ 0 ∈ bench) := by
  rcases hw.idle _ _ hlook with h | h
  · simp only [Fits, rated, hw.size, h, List.length_nil, if_true, List.length_map, true_and]
    grind
  · have hne : n.nodeSpeed ≠ [] := by
      rintro hnil
      rw [hnil] at h
      cases h
    have hlen : n.nodeSpeed.length ≠ 0 := by omega
    refine iff_of_false (not_not.mpr ⟨fun h0 => hlen h0.1, ?_⟩) fun h0 => hne h0.1
    rw [rated, if_neg hlen, hw.size, h]

end Measured

theorem benchIn_eq_some {body : Value} : benchIn E body = some bench ↔
    ∃ body' val, body.resolveReference "bench" = .ok (body', val) ∧
      E.decodeBench val = .ok bench := by
  unfold benchIn
  cases body.resolveReference "bench" with
  | error e => simp [Except.toOption]
  | ok r =>
    obtain ⟨body', val⟩ := r
    cases hdec : E.decodeBench val <;> simp [Except.toOption, hdec]

theorem activate_of_benchIn_none (hlook : w.inactive.lookup hostPort = some n) {body : Value}
    (hbench : benchIn E body = none) :
    ∃ e, w.activate E hostPort body = (w, .error (.exn e)) := by
  unfold benchIn at hbench
  cases hbody : body.resolveReference "bench" with
  | error e => exact ⟨e, by simp only [activate, hbody]⟩
  | ok r =>
    rw [hbody] at hbench
    cases hdec : E.decodeBench r.2 with
    | ok bench =>
      simp only [Except.toOption, Option.bind_some, hdec] at hbench
      cases hbench
    | error e =>
      refine ⟨e, ?_⟩
      simp only [activate, hbody, nodeAt_of_lookup hlook, ComputationalNode.recomputeCoefficients,
        hdec, putNode_of_lookup hlook]

/-- The call terminates the process or is undefined exactly if `fatal` holds; otherwise the registry
stays in order. -/
structure Survives (fatal : Prop) (w' : WorkerManagement) (res : Except Halt Value) : Prop where
  alive_iff : Halt.alive res ↔ ¬fatal
  measured : Halt.alive res → Measured w'

section Survives

variable {fatal : Prop} {w' : WorkerManagement} {res : Except Halt Value}

theorem survives_fault (h : fatal) (f : Fault) : Survives fatal w' (.error (.fault f)) where
  alive_iff := iff_of_false (fun h => by cases h) (not_not.mpr h)
  measured h := by cases h

theorem survives_alive (h : ¬fatal) (halive : Halt.alive res) (hw : Measured w') :
    Survives fatal w' res := ⟨iff_of_true halive h, fun _ => hw⟩

theorem Survives.congr {fatal' : Prop} (h : Survives fatal w' res) (hiff : fatal ↔ fatal') :
    Survives fatal' w' res := ⟨h.alive_iff.trans (not_congr hiff), h.measured⟩

end Survives

theorem survives_exchange (E : Env) (hw : Measured w) (hostPort message : String)
    {act : Value → WorkerManagement × Except Halt Value} {fatal : Value → Prop}
    (hact : ∀ body, Survives (fatal body) (act body).1 (act body).2) (reply : HttpReply) :
    Survives (reply.Lost ∨ reply.accepted ∧
        ∃ body, reply.response.bind Response.json = some body ∧ fatal body)
      (w.exchange E hostPort message act reply).1 (w.exchange E hostPort message act reply).2 := by
  rcases w.exchange_cases E hostPort message act reply with
    ⟨haddr, h⟩ | ⟨haddr, hnone, h⟩ | ⟨resp, body, haddr, hresp, hjson, hor⟩
  · rw [h]
    refine survives_alive ?_ rfl hw
    rintro (⟨hne, -⟩ | ⟨hacc, -⟩)
    · exact hne haddr
    · exact not_accepted_of_badServerAddress haddr hacc
  · rw [h]
    exact survives_fault (.inl ⟨haddr, hnone⟩) _
  · have hbody : reply.response.bind Response.json = some body := by
      rw [hresp, Option.bind_some, hjson]
    have hlost : ¬reply.Lost := by
      rintro ⟨-, hnone⟩
      rw [hbody] at hnone
      cases hnone
    rcases hor with ⟨hstatus, h⟩ | ⟨hstatus, h⟩
    · rw [h]
      refine survives_alive ?_ (by simp only [refused, hjson]; rfl) hw
      exact not_or.mpr ⟨hlost, fun h => accepted_eq_false hresp hstatus h.1⟩
    · rw [h]
      refine (hact body).congr ?_
      rw [or_iff_right hlost, and_iff_right (accepted_of_response haddr hresp hstatus), hbody]
      simp

theorem survives_activate (hw : Measured w) (hlook : w.inactive.lookup hostPort = some n)
    (body : Value) :
    Survives (∃ bench, benchIn E body = some bench ∧ n.nodeSpeed = [] ∧
        (bench.length ≠ 13 ∨ 0 ∈ bench))
      (w.activate E hostPort body).1 (w.activate E hostPort body).2 := by
  cases hbench : benchIn E body with
  | none =>
    obtain ⟨e, h⟩ := activate_of_benchIn_none hlook hbench
    rw [h]
    exact survives_alive (by simp) rfl hw
  | some bench =>
    obtain ⟨body', val, hbody, hdec⟩ := benchIn_eq_some.mp hbench
    rcases activate_of_decode hlook hbody hdec with ⟨hnot, f, h⟩ | ⟨hfits, h⟩
    · rw [h]
      exact survives_fault ⟨bench, rfl, (hw.not_fits_iff hlook).mp hnot⟩ f
    · rw [h]
      refine survives_alive ?_ rfl (hw.enter hlook hfits)
      rintro ⟨bench', hbench', hnot⟩
      obtain rfl := Option.some.inj hbench'
      exact (hw.not_fits_iff hlook).mpr hnot hfits

theorem survives_deactivate (hw : Measured w) (hlook : w.active.lookup hostPort = some n)
    (body : Value) :
    Survives False (w.deactivate hostPort body).1 (w.deactivate hostPort body).2 := by
  have hlen : w.normalized.length = n.nodeSpeed.length := hw.size.trans (hw.speed _ _ hlook).symm
  have h : w.deactivate hostPort body = (w.left hostPort n, .ok body) := by
    simp [deactivate, moveNode_of_lookup hlook, nodeAt, BenchResVec.sub, Valarray.zipOp, hlen, left,
      active]
  rw [h]
  exact survives_alive id rfl (hw.leave hlook)

end WorkerManagement

namespace MainNode

open WorkerManagement

variable {E : Env} {m m' : MainNode}

/-- The requests that terminate the process or are undefined behaviour: a connection while the
thread of a lost one is still to be joined, an answer of a worker that cannot be read, a first
benchmark that does not fit, and a task for several workers whose size is not in the table, or
while a sum of the speeds is zero. -/
def Fatal (E : Env) (m : MainNode) : Event → Prop
  | .connect qip r => m.publisher.isConnected = false ∧ m.publisher.joinable ∧
      ensureExchange (m.configured qip) r = .ok ()
  | .connectNode hostPort name r reply => m.publisher.isConnected ∧ hostPort ∉ m.workers.active ∧
      ensureQueue name r = .ok () ∧ (reply.Lost ∨ reply.accepted ∧
        (m.workers.nodeAt .inactive hostPort).nodeSpeed = [] ∧
        ∃ bench, reportedBench E reply = some bench ∧ (bench.length ≠ 13 ∨ 0 ∈ bench))
  | .disconnectNode hostPort reply => m.publisher.isConnected ∧ hostPort ∈ m.workers.active ∧
      reply.Lost
  | .sendToExecution ts _ => 2 ≤ m.workers.active.entries.card ∧
      (0 ∈ m.workers.getSum ∨ ts.N ∉ ns)
  | .disconnect | .publisherClosed => False

theorem alive_restFailure (request : String) (curl : Bool) (e : Exn) :
    Halt.alive (restFailure request curl e) := by
  cases e with
  | curlError what => cases curl <;> rfl
  | _ => rfl

theorem alive_relay (request : String) (res : Except Halt Value) :
    Halt.alive (relayResult request res) = Halt.alive res := by
  cases res with
  | error h => cases h <;> rfl
  | ok js1 =>
    simp only [relayResult]
    cases relay request js1 <;> rfl

theorem survives_relay {fatal : Prop} {w : WorkerManagement} {res : Except Halt Value}
    (h : Survives fatal w res) (request : String) : Survives fatal w (relayResult request res) where
  alive_iff := by rw [alive_relay, h.alive_iff]
  measured := by
    rw [alive_relay]
    exact h.measured

theorem survives_connect (hm : m.workers.Measured) (qip : String) (r : ConnectOutcome) :
    Survives (m.Fatal E (.connect qip r)) (m.connect qip r).1.workers (m.connect qip r).2 := by
  rw [workers_connect]
  refine ⟨?_, fun _ => hm⟩
  unfold Fatal connect
  cases hconn : m.publisher.isConnected with
  | true => exact iff_of_true rfl (by simp)
  | false =>
    rw [if_neg Bool.false_ne_true]
    cases hrest : ensureExchange (m.configured qip) r with
    | error e =>
      simp only [hrest]
      exact iff_of_true (alive_restFailure ..) (by simp)
    | ok u =>
      have hthread : (m.configured qip).joinable = m.publisher.joinable := rfl
      rcases Publisher.connect_cases (p := m.configured qip) rfl hconn r.publisher with
        ⟨hjoin, hp⟩ | ⟨hjoin, -, hp⟩ | ⟨hjoin, -, hp⟩ <;> rw [hthread] at hjoin
      · simp only [hrest, hp, hjoin]
        exact iff_of_false (fun h => by cases h) (by simp)
      · simp only [hrest, hp, hjoin]
        exact iff_of_true rfl (by simp)
      · simp only [hrest, hp, hjoin]
        exact iff_of_true rfl (by simp)

theorem survives_finishConnect (hm : m.workers.Measured) {hostPort : String}
    (hact : hostPort ∉ m.workers.active) (reply : HttpReply) :
    Survives (reply.Lost ∨ reply.accepted ∧
        (m.workers.nodeAt .inactive hostPort).nodeSpeed = [] ∧
        ∃ bench, reportedBench E reply = some bench ∧ (bench.length ≠ 13 ∨ 0 ∈ bench))
      ((m.dispatched hostPort).finishConnect E hostPort reply).1.workers
      ((m.dispatched hostPort).finishConnect E hostPort reply).2 := by
  have hw : (m.dispatched hostPort).workers.Measured := hm.addNewNode hostPort
  obtain ⟨n, hlook⟩ := Finmap.mem_iff.mp (mem_inactive_dispatched hact)
  have hexchange := survives_exchange E hw hostPort
    s!"Error occurred during worker {hostPort} connection!"
    (survives_activate (E := E) hw hlook) reply
  rw [← connectNode_eq_exchange hlook (hw.client .inactive _ _ hlook)] at hexchange
  refine (survives_relay hexchange "connect_node").congr ?_
  rw [nodeSpeed_dispatched hact hlook, reportedBench]
  simp only [Option.bind_eq_some_iff]
  grind

theorem survives_connectNode (hm : m.workers.Measured) (hostPort name : String) (r : QueueOutcome)
    (reply : HttpReply) :
    Survives (m.Fatal E (.connectNode hostPort name r reply))
      (m.connectNode E hostPort name r reply).1.workers
      (m.connectNode E hostPort name r reply).2 := by
  unfold Fatal
  by_cases hconn : m.publisher.isConnected
  · by_cases hact : hostPort ∈ m.workers.active
    · rcases m.workers.addNewNode_cases hostPort with ⟨-, hw, hs⟩ | ⟨hnot, -⟩
      · have h : m.connectNode E hostPort name r reply =
            (m, relayResult "connect_node" (.ok (m.workers.addNewNode hostPort).2)) := by
          simp only [connectNode, dispatchConnect, hconn, hs, hw]
          rfl
        rw [h]
        exact survives_alive (by simp [hact]) (by rw [alive_relay]; rfl) hm
      · exact absurd hact hnot
    · rw [connectNode_of_idle E hconn hact]
      cases hrest : ensureQueue name r with
      | error e =>
        exact survives_alive (by simp [hrest]) (alive_restFailure ..) (hm.addNewNode hostPort)
      | ok u => exact (survives_finishConnect hm hact reply).congr (by simp [hconn, hact, hrest])
  · have h : m.connectNode E hostPort name r reply =
        (m, .ok (queueUnavailable "connect_node")) := by
      simp [connectNode, dispatchConnect, hconn]
    rw [h]
    exact survives_alive (fun h => hconn h.1) rfl hm

theorem survives_disconnectNode (hm : m.workers.Measured) (hostPort : String) (reply : HttpReply) :
    Survives (m.Fatal E (.disconnectNode hostPort reply))
      (m.disconnectNode E hostPort reply).1.workers (m.disconnectNode E hostPort reply).2 := by
  unfold Fatal disconnectNode
  by_cases hconn : m.publisher.isConnected
  · rw [if_neg (by simp [hconn])]
    by_cases hact : hostPort ∈ m.workers.active
    · obtain ⟨n, hlook⟩ := Finmap.mem_iff.mp hact
      have hexchange := survives_exchange E hm hostPort
        s!"Unable to disconnect worker {hostPort} from cluster!"
        (survives_deactivate hm hlook) reply
      rw [← disconnectNode_eq_exchange hlook (hm.client .active _ _ hlook)] at hexchange
      exact (survives_relay hexchange "disconnect_node").congr (by simp [hconn, hact])
    · simp only [WorkerManagement.disconnectNode, if_pos hact]
      exact survives_alive (fun h => hact h.2.1) (by rw [alive_relay]; rfl) hm
  · rw [if_pos (by simp [hconn])]
    exact survives_alive (fun h => hconn h.1) rfl hm

theorem itersToSlice_fault (itercount : UInt64) {n : UInt64} {val : ComputationalNode}
    (hsum : m.workers.getSum.length = 13) (hval : val.nodeSpeed.length = 13)
    (h : 0 ∈ m.workers.getSum ∨ n ∉ ns) :
    ∃ f, m.itersToSlice itercount n val = .error (.fault f) := by
  unfold itersToSlice BenchResVec.div
  by_cases h0 : 0 ∈ m.workers.getSum
  · exact ⟨.divisionByZero, by simp [BenchResVec.scale, hsum, hval, h0, bind, Except.bind]⟩
  · have hi : 13 ≤ nIndex n := not_lt.mp (mt nIndex_lt_iff.mp (h.resolve_left h0))
    exact ⟨.outOfBounds, by simp [BenchResVec.scale, Valarray.zipOp, BenchResVec.get, hsum, hval,
      h0, bind, Except.bind, hi]⟩

theorem alive_sendBlocks_iff (itercount : UInt64) (hsum : m.workers.getSum.length = 13)
    (node : ActiveNode) {rest : List ActiveNode}
    (hspeed : ∀ x ∈ node :: rest, x.2.nodeSpeed.length = 13) (ts : TestSolveParam) :
    Halt.alive (m.sendBlocks itercount ts node rest).2 ↔
      ¬(rest ≠ [] ∧ (0 ∈ m.workers.getSum ∨ ts.N ∉ ns)) := by
  induction rest generalizing node ts with
  | nil => exact iff_of_true rfl fun h => h.1 rfl
  | cons next rest ih =>
    obtain ⟨key, val⟩ := node
    have hval : val.nodeSpeed.length = 13 := hspeed ⟨key, val⟩ List.mem_cons_self
    rw [and_iff_right (List.cons_ne_nil next rest)]
    simp only [sendBlocks]
    by_cases hbad : 0 ∈ m.workers.getSum ∨ ts.N ∉ ns
    · obtain ⟨f, hf⟩ := itersToSlice_fault itercount hsum hval hbad
      rw [hf]
      exact iff_of_false (fun h => by cases h) (not_not.mpr hbad)
    · obtain ⟨h0, hn⟩ := not_or.mp hbad
      rw [itersToSlice_eq itercount (not_not.mp hn) hsum hval, if_neg h0]
      cases hslice : ts.sliceAway (m.share itercount ts.N val) with
      | error e =>
        simp only [hslice]
        exact iff_of_true rfl hbad
      | ok r =>
        obtain ⟨block, ts'⟩ := r
        obtain ⟨-, -, rfl, rfl⟩ := TestSolveParam.sliceAway_eq_ok.mp hslice
        simp only [hslice]
        rw [ih next (fun x hx => hspeed x (List.mem_cons_of_mem _ hx))]
        exact iff_of_true (fun h => hbad h.2) hbad

theorem survives_sendToExecution (hm : m.workers.Measured) (ts : TestSolveParam)
    {order : List ActiveNode} (horder : (order : Multiset ActiveNode) = m.workers.active.entries) :
    Survives (m.Fatal E (.sendToExecution ts order)) m.workers (m.sendToExecution ts order).2 := by
  refine ⟨?_, fun _ => hm⟩
  have hcard : m.workers.active.entries.card = order.length := by rw [← horder]; rfl
  rw [Fatal, hcard]
  cases order with
  | nil => exact iff_of_true rfl (by simp)
  | cons node rest =>
    have hspeed : ∀ x ∈ node :: rest, x.2.nodeSpeed.length = 13 := by
      intro x hx
      apply hm.speed x.1
      rw [Finmap.lookup_eq_some_iff, ← horder]
      exact Multiset.mem_coe.mpr hx
    have halive : Halt.alive (m.sendToExecution ts (node :: rest)).2 =
        Halt.alive (m.sendBlocks (ts.range.2 - ts.range.1 + 1) ts node rest).2 := by
      simp only [sendToExecution]
      split
      · rename_i h
        rw [h]
        rename_i e
        cases e <;> rfl
      · rename_i h
        rw [h]
        rfl
    rw [halive, alive_sendBlocks_iff _ hm.size node hspeed]
    simp only [List.length_cons, ne_eq]
    cases rest <;> simp

theorem survives_serve (hm : m.workers.Measured) {e : Event} (hoffers : m.Offers e) :
    Survives (m.Fatal E e) (m.serve E e).1.workers (m.serve E e).2.2 := by
  cases e with
  | connect qip r => exact survives_connect hm qip r
  | disconnect => exact survives_alive id rfl (by rw [serve, workers_disconnect]; exact hm)
  | connectNode hostPort name r reply => exact survives_connectNode hm hostPort name r reply
  | disconnectNode hostPort reply => exact survives_disconnectNode hm hostPort reply
  | sendToExecution ts order => exact survives_sendToExecution hm ts hoffers
  | publisherClosed => exact survives_alive id rfl hm

theorem measured_of_run {auth : JsonAuthHandler} {es : List Event}
    (run : Run (ofFun (step E)) (init auth) es m) : m.workers.Measured := by
  refine run.invariant (I := fun m => m.workers.Measured) ?_ measured_init
  intro m e m' hm h
  obtain ⟨hoffers, halive, rfl⟩ := step_eq_some h
  exact (survives_serve hm hoffers).measured halive

end MainNode

end DistributedMathArh
