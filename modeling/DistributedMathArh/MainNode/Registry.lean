import Mathlib.Algebra.BigOperators.Group.Multiset.Defs
import DistributedMathArh.MainNode.Service

namespace DistributedMathArh.WorkerManagement

open Json FinmapSum

structure Registered (w : WorkerManagement) : Prop where
  disjoint : ∀ h, h ∈ w.active → h ∉ w.inactive
  client : ∀ st h n, (w.workerNodes st).lookup h = some n → n.httpClient ≠ none

/-- Moreover the normalization vector is the sum of the speeds of the active nodes. -/
structure Consistent (w : WorkerManagement) : Prop extends Registered w where
  idle : ∀ h n, w.inactive.lookup h = some n → n.nodeSpeed.length = 0 ∨ n.nodeSpeed.length = 13
  speed : ∀ h n, w.active.lookup h = some n → n.nodeSpeed.length = 13
  size : w.normalized.length = 13
  sum : ∀ i, w.normalized.getD i 0 = sumBy (fun n => n.nodeSpeed.getD i 0) w.active

variable {w : WorkerManagement} {hostPort : String} {n : ComputationalNode}

theorem registered_init : Registered init where
  disjoint := fun h hmem => absurd hmem Finmap.notMem_empty
  client := by simp [init]

theorem consistent_init : Consistent init where
  toRegistered := registered_init
  idle := by simp [init, inactive]
  speed := by simp [init, active]
  size := rfl
  sum i := by
    simp only [init, active, sumBy_empty, defaultBench, List.getD_eq_getElem?_getD,
      List.getElem?_replicate]
    split <;> rfl

def entered (w : WorkerManagement) (hostPort : String) (n : ComputationalNode) : WorkerManagement :=
  { (w.setNodes .inactive (w.inactive.erase hostPort)).putNode .active hostPort n with
    normalized := List.zipWith (· + ·) w.normalized n.nodeSpeed }

def left (w : WorkerManagement) (hostPort : String) (n : ComputationalNode) : WorkerManagement :=
  { (w.setNodes .active (w.active.erase hostPort)).putNode .inactive hostPort n with
    normalized := List.zipWith (· - ·) w.normalized n.nodeSpeed }

@[simp] theorem active_entered :
    (w.entered hostPort n).active = w.active.insert hostPort n := rfl

@[simp] theorem inactive_entered :
    (w.entered hostPort n).inactive = w.inactive.erase hostPort := rfl

@[simp] theorem active_left : (w.left hostPort n).active = w.active.erase hostPort := rfl

@[simp] theorem inactive_left :
    (w.left hostPort n).inactive = w.inactive.insert hostPort n := rfl

theorem client_putNode (hn : n.httpClient ≠ none)
    (h : ∀ st x m, (w.workerNodes st).lookup x = some m → m.httpClient ≠ none) (st : NodeStatus) :
    ∀ st' x m, ((w.putNode st hostPort n).workerNodes st').lookup x = some m →
      m.httpClient ≠ none := by
  intro st'
  by_cases hst : st' = st
  · subst hst
    rw [workerNodes_putNode_self]
    exact forall_insert hn (h st')
  · rw [workerNodes_putNode_of_ne _ _ hst]
    exact h st'

theorem client_erase
    (h : ∀ st x m, (w.workerNodes st).lookup x = some m → m.httpClient ≠ none) (st : NodeStatus) :
    ∀ st' x m, ((w.setNodes st ((w.workerNodes st).erase hostPort)).workerNodes st').lookup x =
      some m → m.httpClient ≠ none := by
  intro st'
  by_cases hst : st' = st
  · subst hst
    rw [workerNodes_setNodes_self]
    exact forall_erase (h st')
  · rw [workerNodes_setNodes_of_ne _ hst]
    exact h st'

namespace Registered

theorem notMem_active (hw : Registered w) (h : w.inactive.lookup hostPort = some n) :
    hostPort ∉ w.active := fun hmem =>
  hw.disjoint _ hmem (Finmap.mem_of_lookup_eq_some h)

theorem putNode_inactive (hw : Registered w) (hnot : hostPort ∉ w.active)
    (hclient : n.httpClient ≠ none) : Registered (w.putNode .inactive hostPort n) where
  disjoint h hmem hin := by
    rw [active_putNode_inactive] at hmem
    rw [inactive_putNode_inactive, Finmap.mem_insert] at hin
    rcases hin with rfl | hin
    · exact hnot hmem
    · exact hw.disjoint h hmem hin
  client := client_putNode hclient hw.client .inactive

theorem enter (hw : Registered w) (hclient : n.httpClient ≠ none) :
    Registered (w.entered hostPort n) where
  disjoint h hmem hin := by
    rw [active_entered, Finmap.mem_insert] at hmem
    rw [inactive_entered] at hin
    rcases hmem with rfl | hmem
    · exact Finmap.notMem_erase_self hin
    · exact hw.disjoint h hmem (Finmap.mem_erase.mp hin).2
  client := client_putNode hclient (client_erase hw.client .inactive) .active

theorem leave (hw : Registered w) (hlook : w.active.lookup hostPort = some n) :
    Registered (w.left hostPort n) where
  disjoint h hmem hin := by
    rw [active_left] at hmem
    rw [inactive_left, Finmap.mem_insert] at hin
    rcases hin with rfl | hin
    · exact Finmap.notMem_erase_self hmem
    · exact hw.disjoint h (Finmap.mem_erase.mp hmem).2 hin
  client := client_putNode (hw.client .active _ _ hlook) (client_erase hw.client .active) .inactive

end Registered

namespace Consistent

theorem putNode_inactive (hw : Consistent w) (hnot : hostPort ∉ w.active)
    (hclient : n.httpClient ≠ none) (hlen : n.nodeSpeed.length = 0 ∨ n.nodeSpeed.length = 13) :
    Consistent (w.putNode .inactive hostPort n) where
  toRegistered := hw.toRegistered.putNode_inactive hnot hclient
  idle := by
    rw [inactive_putNode_inactive]
    exact forall_insert hlen hw.idle
  speed := hw.speed
  size := hw.size
  sum := hw.sum

theorem enter (hw : Consistent w) (hnot : hostPort ∉ w.active) (hclient : n.httpClient ≠ none)
    (hlen : n.nodeSpeed.length = 13) : Consistent (w.entered hostPort n) where
  toRegistered := hw.toRegistered.enter hclient
  idle := by
    rw [inactive_entered]
    exact forall_erase hw.idle
  speed := by
    rw [active_entered]
    exact forall_insert hlen hw.speed
  size := by simp [entered, hw.size, hlen]
  sum i := by
    rw [active_entered, entered, Valarray.getD_zipWith (by rfl) (hw.size.trans hlen.symm), hw.sum i, add_comm]
    exact (sumBy_insert (fun n => n.nodeSpeed.getD i 0) hnot n).symm

theorem leave (hw : Consistent w) (hlook : w.active.lookup hostPort = some n) :
    Consistent (w.left hostPort n) where
  toRegistered := hw.toRegistered.leave hlook
  idle := by
    rw [inactive_left]
    exact forall_insert (.inr (hw.speed _ _ hlook)) hw.idle
  speed := by
    rw [active_left]
    exact forall_erase hw.speed
  size := by simp [left, hw.size, hw.speed _ _ hlook]
  sum i := by
    have hlen : w.normalized.length = n.nodeSpeed.length :=
      hw.size.trans (hw.speed _ _ hlook).symm
    rw [active_left, left, Valarray.getD_zipWith (by rfl) hlen, hw.sum i]
    exact (sumBy_erase_eq_sub (fun n => n.nodeSpeed.getD i 0) hlook).symm

end Consistent

variable {E : Env}

def rated (n : ComputationalNode) (bench : BenchResVec) : ComputationalNode :=
  { n with
    benchResult := bench
    nodeSpeed := if n.nodeSpeed.length = 0 then bench.map (kBenchInfinity / ·) else n.nodeSpeed }

def Fits (n : ComputationalNode) (bench sum : BenchResVec) : Prop :=
  ¬(n.nodeSpeed.length = 0 ∧ 0 ∈ bench) ∧ sum.length = (rated n bench).nodeSpeed.length

theorem recomputeCoefficients_eq {val : Value} {bench : BenchResVec}
    (hdec : E.decodeBench val = .ok bench) (n : ComputationalNode) :
    n.recomputeCoefficients E val =
      if n.nodeSpeed.length = 0 ∧ 0 ∈ bench then
        ({ n with benchResult := bench }, .error (.fault .divisionByZero))
      else (rated n bench, .ok ()) := by
  simp only [ComputationalNode.recomputeCoefficients, hdec, rated, BenchResVec.divInto]
  by_cases hlen : n.nodeSpeed.length = 0
  · by_cases h0 : 0 ∈ bench
    · simp [hlen, h0]
    · simp [hlen, h0]
  · simp [hlen]

theorem moveNode_putNode (hostPort : String) (n : ComputationalNode) (source target : NodeStatus) :
    (w.putNode source hostPort n).moveNode hostPort source target =
      (w.setNodes source ((w.workerNodes source).erase hostPort)).putNode target hostPort n := by
  rw [moveNode_of_lookup (n := n) (by simp), workerNodes_putNode_self, erase_insert]
  simp [putNode, setNodes]

theorem activate_of_decode (hlook : w.inactive.lookup hostPort = some n) {body body' val : Value}
    {bench : BenchResVec} (hbody : body.resolveReference "bench" = .ok (body', val))
    (hdec : E.decodeBench val = .ok bench) :
    (¬Fits n bench w.normalized ∧ ∃ f, (w.activate E hostPort body).2 = .error (.fault f)) ∨
      (Fits n bench w.normalized ∧
        w.activate E hostPort body = (w.entered hostPort (rated n bench), .ok body')) := by
  simp only [activate, hbody, nodeAt_of_lookup hlook, recomputeCoefficients_eq hdec]
  by_cases hdiv : n.nodeSpeed.length = 0 ∧ 0 ∈ bench
  · exact .inl ⟨fun h => h.1 hdiv, .divisionByZero, by rw [if_pos hdiv]⟩
  · simp only [if_neg hdiv, moveNode_putNode]
    by_cases hlen : w.normalized.length = (rated n bench).nodeSpeed.length
    · refine .inr ⟨⟨hdiv, hlen⟩, ?_⟩
      simp [nodeAt, BenchResVec.add, Valarray.zipOp, hlen, entered, inactive]
    · refine .inl ⟨fun h => hlen h.2, .sizeMismatch, ?_⟩
      simp [nodeAt, BenchResVec.add, Valarray.zipOp, hlen]

def benchIn (E : Env) (body : Value) : Option BenchResVec :=
  (body.resolveReference "bench").toOption.bind fun r => (E.decodeBench r.2).toOption

theorem activate_cases (E : Env) (hlook : w.inactive.lookup hostPort = some n) (body : Value) :
    (benchIn E body = none ∧ ∃ e, w.activate E hostPort body = (w, .error (.exn e))) ∨
    (∃ f, (w.activate E hostPort body).2 = .error (.fault f)) ∨
    (∃ body' val bench, E.decodeBench val = .ok bench ∧ benchIn E body = some bench ∧
      w.activate E hostPort body = (w.entered hostPort (rated n bench), .ok body')) := by
  cases hbench : body.resolveReference "bench" with
  | error e =>
    refine .inl ⟨?_, e, by simp only [activate, hbench]⟩
    rw [benchIn, hbench]
    rfl
  | ok r =>
    obtain ⟨body', val⟩ := r
    have hin : benchIn E body = (E.decodeBench val).toOption := by
      rw [benchIn, hbench]
      rfl
    cases hdec : E.decodeBench val with
    | error e =>
      refine .inl ⟨by rw [hin, hdec]; rfl, e, ?_⟩
      simp only [activate, hbench, nodeAt_of_lookup hlook, ComputationalNode.recomputeCoefficients,
        hdec, putNode_of_lookup hlook]
    | ok bench =>
      rcases activate_of_decode hlook hbench hdec with ⟨-, f, h⟩ | ⟨-, h⟩
      · exact .inr (.inl ⟨f, h⟩)
      · exact .inr (.inr ⟨body', val, bench, hdec, by rw [hin, hdec]; rfl, h⟩)

theorem accepted_eq_false {reply : HttpReply} {resp : Response} (h : reply.response = some resp)
    (hstatus : 400 ≤ resp.statusCode) : ¬ reply.accepted := by
  simp [HttpReply.accepted, h, hstatus]

theorem accepted_of_response {reply : HttpReply} {resp : Response}
    (haddr : reply.result ≠ .badServerAddress) (h : reply.response = some resp)
    (hstatus : ¬ 400 ≤ resp.statusCode) : reply.accepted := by
  simp [HttpReply.accepted, haddr, h, not_le.mp hstatus]

def reportedBench (E : Env) (reply : HttpReply) : Option BenchResVec :=
  (reply.response.bind Response.json).bind (benchIn E)

theorem reportedBench_of_response {reply : HttpReply} {resp : Response} {body : Value}
    (hresp : reply.response = some resp) (hjson : resp.json = some body) :
    reportedBench E reply = benchIn E body := by
  rw [reportedBench, hresp, Option.bind_some, hjson, Option.bind_some]

/-- What the two requests do with a reply: `message` is their text for an error status, `act` the
rest of the request for an accepted one. -/
def exchange (E : Env) (w : WorkerManagement) (hostPort message : String)
    (act : Value → WorkerManagement × Except Halt Value) (reply : HttpReply) :
    WorkerManagement × Except Halt Value :=
  if reply.result = .badServerAddress then (w, .ok (unreachable hostPort))
  else match reply.response with
    | none => (w, .error (.fault .nullPointer))
    | some resp =>
      if 400 ≤ resp.statusCode then (w, refused E message resp)
      else match resp.json with
        | none => (w, .error (.fault .nullPointer))
        | some body => act body

theorem connectNode_eq_exchange (hlook : w.inactive.lookup hostPort = some n)
    (hclient : n.httpClient ≠ none) (reply : HttpReply) :
    w.connectNode E hostPort reply = w.exchange E hostPort
      s!"Error occurred during worker {hostPort} connection!" (w.activate E hostPort) reply := by
  simp only [connectNode, touch_of_lookup hlook, nodeAt_of_lookup hlook, if_neg hclient]
  rfl

theorem disconnectNode_eq_exchange (hlook : w.active.lookup hostPort = some n)
    (hclient : n.httpClient ≠ none) (reply : HttpReply) :
    w.disconnectNode E hostPort reply = w.exchange E hostPort
      s!"Unable to disconnect worker {hostPort} from cluster!" (w.deactivate hostPort) reply := by
  have hmem : hostPort ∈ w.active := Finmap.mem_of_lookup_eq_some hlook
  simp only [disconnectNode, if_neg (not_not.mpr hmem), nodeAt_of_lookup hlook, if_neg hclient]
  rfl

theorem exchange_cases (E : Env) (w : WorkerManagement) (hostPort message : String)
    (act : Value → WorkerManagement × Except Halt Value) (reply : HttpReply) :
    (reply.result = .badServerAddress ∧
      w.exchange E hostPort message act reply = (w, .ok (unreachable hostPort))) ∨
    (reply.result ≠ .badServerAddress ∧ reply.response.bind Response.json = none ∧
      (w.exchange E hostPort message act reply).2 = .error (.fault .nullPointer)) ∨
    (∃ resp body, reply.result ≠ .badServerAddress ∧ reply.response = some resp ∧
      resp.json = some body ∧
      (400 ≤ resp.statusCode ∧
          w.exchange E hostPort message act reply = (w, refused E message resp) ∨
        ¬400 ≤ resp.statusCode ∧ w.exchange E hostPort message act reply = act body)) := by
  unfold exchange
  by_cases haddr : reply.result = .badServerAddress
  · exact .inl ⟨haddr, if_pos haddr⟩
  · rw [if_neg haddr]
    cases hresp : reply.response with
    | none => exact .inr (.inl ⟨haddr, rfl, rfl⟩)
    | some resp =>
      cases hjson : resp.json with
      | none =>
        refine .inr (.inl ⟨haddr, hjson, ?_⟩)
        simp only [refused, hjson, ite_self]
      | some body =>
        refine .inr (.inr ⟨resp, body, haddr, rfl, hjson, ?_⟩)
        by_cases hstatus : 400 ≤ resp.statusCode
        · exact .inl ⟨hstatus, if_pos hstatus⟩
        · refine .inr ⟨hstatus, ?_⟩
          simp only [if_neg hstatus, hjson]

theorem not_accepted_of_badServerAddress {reply : HttpReply}
    (h : reply.result = .badServerAddress) : ¬ reply.accepted := by
  simp [HttpReply.accepted, h]

theorem connectNode_of_accepted (E : Env) (hlook : w.inactive.lookup hostPort = some n)
    (hclient : n.httpClient ≠ none) {status : Nat} (hstatus : status < 400) (body : Value) :
    w.connectNode E hostPort ⟨.ok, some ⟨status, some body⟩⟩ = w.activate E hostPort body := by
  simp only [connectNode, touch_of_lookup hlook, nodeAt_of_lookup hlook, if_neg hclient,
    if_neg (not_le.mpr hstatus), reduceCtorEq, if_false]

theorem connectNode_cases (E : Env) (hlook : w.inactive.lookup hostPort = some n)
    (hclient : n.httpClient ≠ none) (reply : HttpReply) :
    (∃ f, (w.connectNode E hostPort reply).2 = .error (.fault f)) ∨
    ((w.connectNode E hostPort reply).1 = w ∧
      (reply.accepted → reportedBench E reply = none ∧
        ∃ e, (w.connectNode E hostPort reply).2 = .error (.exn e))) ∨
    (reply.accepted ∧ ∃ val bench, E.decodeBench val = .ok bench ∧
      reportedBench E reply = some bench ∧
      (w.connectNode E hostPort reply).1 = w.entered hostPort (rated n bench)) := by
  rw [connectNode_eq_exchange hlook hclient]
  rcases w.exchange_cases E hostPort _ (w.activate E hostPort) reply with
    ⟨haddr, h⟩ | ⟨-, -, h⟩ | ⟨resp, body, haddr, hresp, hjson, ⟨hstatus, h⟩ | ⟨hstatus, h⟩⟩
  · rw [h]
    exact .inr (.inl ⟨rfl, fun hacc => absurd hacc (not_accepted_of_badServerAddress haddr)⟩)
  · exact .inl ⟨.nullPointer, h⟩
  · rw [h]
    exact .inr (.inl ⟨rfl, fun hacc => absurd hacc (accepted_eq_false hresp hstatus)⟩)
  · have hacc := accepted_of_response haddr hresp hstatus
    have hbench := reportedBench_of_response (E := E) hresp hjson
    rw [h]
    rcases activate_cases E hlook body with
      ⟨hnone, e, h⟩ | ⟨f, h⟩ | ⟨body', val, bench, hdec, hsome, h⟩
    · rw [h]
      exact .inr (.inl ⟨rfl, fun _ => ⟨hbench.trans hnone, e, rfl⟩⟩)
    · exact .inl ⟨f, h⟩
    · rw [h]
      exact .inr (.inr ⟨hacc, val, bench, hdec, hbench.trans hsome, rfl⟩)

theorem deactivate_cases (hlook : w.active.lookup hostPort = some n) (body : Value) :
    (∃ f, (w.deactivate hostPort body).2 = .error (.fault f)) ∨
      w.deactivate hostPort body = (w.left hostPort n, .ok body) := by
  unfold deactivate
  by_cases hlen : w.normalized.length = n.nodeSpeed.length
  · refine .inr ?_
    simp [moveNode_of_lookup hlook, nodeAt, BenchResVec.sub, Valarray.zipOp, hlen, left, active]
  · refine .inl ⟨.sizeMismatch, ?_⟩
    simp [moveNode_of_lookup hlook, nodeAt, BenchResVec.sub, Valarray.zipOp, hlen]

theorem disconnectNode_cases (E : Env) (hlook : w.active.lookup hostPort = some n)
    (hclient : n.httpClient ≠ none) (reply : HttpReply) :
    (∃ f, (w.disconnectNode E hostPort reply).2 = .error (.fault f)) ∨
    ((w.disconnectNode E hostPort reply).1 = w ∧ ¬ reply.accepted) ∨
    (reply.accepted ∧ (w.disconnectNode E hostPort reply).1 = w.left hostPort n) := by
  rw [disconnectNode_eq_exchange hlook hclient]
  rcases w.exchange_cases E hostPort _ (w.deactivate hostPort) reply with
    ⟨haddr, h⟩ | ⟨-, -, h⟩ | ⟨resp, body, haddr, hresp, hjson, ⟨hstatus, h⟩ | ⟨hstatus, h⟩⟩
  · rw [h]
    exact .inr (.inl ⟨rfl, not_accepted_of_badServerAddress haddr⟩)
  · exact .inl ⟨.nullPointer, h⟩
  · rw [h]
    exact .inr (.inl ⟨rfl, accepted_eq_false hresp hstatus⟩)
  · rw [h]
    rcases deactivate_cases hlook body with ⟨f, h⟩ | h
    · exact .inl ⟨f, h⟩
    · rw [h]
      exact .inr (.inr ⟨accepted_of_response haddr hresp hstatus, rfl⟩)

theorem disconnectNode_of_notMem (E : Env) (h : hostPort ∉ w.active) (reply : HttpReply) :
    (w.disconnectNode E hostPort reply).1 = w := by
  simp only [disconnectNode, if_pos h]

theorem addNewNode_cases (w : WorkerManagement) (hostPort : String) :
    (hostPort ∈ w.active ∧ (w.addNewNode hostPort).1 = w ∧
      (w.addNewNode hostPort).2.isMember "status" = .ok true) ∨
    (hostPort ∉ w.active ∧ hostPort ∈ (w.addNewNode hostPort).1.inactive ∧
      (w.addNewNode hostPort).1.active = w.active ∧ (w.addNewNode hostPort).2 = .null) := by
  unfold addNewNode
  by_cases ha : hostPort ∈ w.active
  · rw [if_neg fun h => h.2 ha, if_pos ha]
    exact .inl ⟨ha, rfl, rfl⟩
  · by_cases hi : hostPort ∈ w.inactive
    · rw [if_neg fun h => h.1 hi, if_neg ha]
      exact .inr ⟨ha, hi, rfl, rfl⟩
    · rw [if_pos ⟨hi, ha⟩]
      exact .inr ⟨ha, by simp, by simp, rfl⟩

inductive Change (E : Env) (w : WorkerManagement) : WorkerManagement → Prop
  | same : Change E w w
  | added {h : String} {n : ComputationalNode} : h ∉ w.active → n.httpClient ≠ none →
      n.nodeSpeed = [] → Change E w (w.putNode .inactive h n)
  | entered {h : String} {n : ComputationalNode} {val : Value} {bench : BenchResVec} :
      w.inactive.lookup h = some n → E.decodeBench val = .ok bench →
      Change E w (w.entered h (rated n bench))
  | left {h : String} {n : ComputationalNode} : w.active.lookup h = some n →
      Change E w (w.left h n)

variable {w' : WorkerManagement}

theorem change_addNewNode (w : WorkerManagement) (hostPort : String) :
    Change E w (w.addNewNode hostPort).1 := by
  unfold addNewNode
  split
  · rename_i h
    exact .added h.2 (by simp) rfl
  · split <;> exact .same

theorem change_connectNode (hw : Registered w) (hin : hostPort ∈ w.inactive) (reply : HttpReply)
    (halive : Halt.alive (w.connectNode E hostPort reply).2) :
    Change E w (w.connectNode E hostPort reply).1 := by
  obtain ⟨n, hlook⟩ := Finmap.mem_iff.mp hin
  rcases connectNode_cases E hlook (hw.client .inactive _ _ hlook) reply with
    ⟨f, h⟩ | ⟨h, -⟩ | ⟨-, val, bench, hdec, -, h⟩
  · rw [h] at halive
    cases halive
  · rw [h]
    exact .same
  · rw [h]
    exact .entered hlook hdec

theorem change_disconnectNode (hw : Registered w) (reply : HttpReply)
    (halive : Halt.alive (w.disconnectNode E hostPort reply).2) :
    Change E w (w.disconnectNode E hostPort reply).1 := by
  by_cases hin : hostPort ∈ w.active
  · obtain ⟨n, hlook⟩ := Finmap.mem_iff.mp hin
    rcases disconnectNode_cases E hlook (hw.client .active _ _ hlook) reply with
      ⟨f, h⟩ | ⟨h, -⟩ | ⟨-, h⟩
    · rw [h] at halive
      cases halive
    · rw [h]
      exact .same
    · rw [h]
      exact .left hlook
  · rw [disconnectNode_of_notMem E hin]
    exact .same

theorem Registered.change (hw : Registered w) (h : Change E w w') : Registered w' := by
  cases h with
  | same => exact hw
  | added hnot hclient _ => exact hw.putNode_inactive hnot hclient
  | entered hlook _ =>
    have hclient := hw.client .inactive _ _ hlook
    exact hw.enter hclient
  | left hlook => exact hw.leave hlook

theorem Consistent.change (hE : ∀ val bench, E.decodeBench val = .ok bench → bench.length = 13)
    (hw : Consistent w) (h : Change E w w') : Consistent w' := by
  cases h with
  | same => exact hw
  | added hnot hclient hspeed => exact hw.putNode_inactive hnot hclient (.inl (by rw [hspeed]; rfl))
  | entered hlook hdec =>
    have hclient := hw.client .inactive _ _ hlook
    refine hw.enter (hw.notMem_active hlook) hclient ?_
    rcases hw.idle _ _ hlook with h | h <;> simp [rated, h, hE _ _ hdec]
  | left hlook => exact hw.leave hlook

end DistributedMathArh.WorkerManagement
