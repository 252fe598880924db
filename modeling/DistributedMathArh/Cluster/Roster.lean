import Mathlib.Data.List.Nodup
import DistributedMathArh.Cluster.Bench
import DistributedMathArh.MainNode.Run
import DistributedMathArh.MainNode.Sharding

namespace DistributedMathArh

open Json FinmapSum Transition

/-- A host that a request has named: whether it is in the cluster, the benchmark of its last
connection and the speeds that its first one gave it. -/
structure Entry where
  active : Bool
  bench : BenchResVec
  speed : BenchResVec

namespace Entry

def fresh : Entry := ⟨false, [], []⟩

def enter (e : Entry) (bench : BenchResVec) : Entry where
  active := true
  bench := bench
  speed := if e.speed = [] then bench.map (kBenchInfinity / ·) else e.speed

def leave (e : Entry) : Entry := { e with active := false }

def ofNode (active : Bool) (n : ComputationalNode) : Entry := ⟨active, n.benchResult, n.nodeSpeed⟩

theorem ofNode_rated (n : ComputationalNode) (bench : BenchResVec) :
    ofNode true (WorkerManagement.rated n bench) = (ofNode false n).enter bench := by
  cases hspeed : n.nodeSpeed <;> simp [ofNode, enter, WorkerManagement.rated, hspeed]

end Entry

structure Roster where
  connected : Bool
  entry : String → Option Entry

namespace Roster

def init : Roster := ⟨false, fun _ => none⟩

def opens (r : ConnectOutcome) : Bool :=
  (MainNode.ensureExchange { Publisher.init with defaultExchange := "testexch" } r).toBool &&
    r.publisher = ""

/-- The benchmark with which the worker joins: its queue is there, and it has accepted with a
benchmark that can be read. -/
def joins (E : Env) (name : String) (r : QueueOutcome) (reply : HttpReply) : Option BenchResVec :=
  match MainNode.ensureQueue name r with
  | .error _ => none
  | .ok () => if reply.accepted then WorkerManagement.reportedBench E reply else none

def isActive (d : Roster) (h : String) : Bool := (d.entry h).any Entry.active

def step (E : Env) (d : Roster) : MainNode.Event → Roster
  | .connect _ r => { d with connected := d.connected || opens r }
  | .disconnect => { d with connected := false }
  | .publisherClosed => { d with connected := false }
  | .connectNode h name r reply =>
    if d.connected && !d.isActive h then
      let e := (d.entry h).getD .fresh
      { d with entry := Function.update d.entry h (some ((joins E name r reply).elim e e.enter)) }
    else d
  | .disconnectNode h reply =>
    if d.connected && reply.accepted then
      { d with entry := Function.update d.entry h ((d.entry h).map Entry.leave) }
    else d
  | .sendToExecution .. => d

end Roster

namespace WorkerManagement

variable {w : WorkerManagement} {h : String} {n : ComputationalNode}

def entry (w : WorkerManagement) (h : String) : Option Entry :=
  match w.active.lookup h with
  | some n => some (.ofNode true n)
  | none => (w.inactive.lookup h).map (.ofNode false)

theorem entry_of_active (hlook : w.active.lookup h = some n) :
    w.entry h = some (.ofNode true n) := by
  rw [entry, hlook]

theorem entry_of_notMem (hnot : h ∉ w.active) :
    w.entry h = (w.inactive.lookup h).map (.ofNode false) := by
  rw [entry, Finmap.lookup_eq_none.mpr hnot]

theorem any_active_entry : (w.entry h).any Entry.active = true ↔ h ∈ w.active := by
  by_cases hmem : h ∈ w.active
  · obtain ⟨n, hlook⟩ := Finmap.mem_iff.mp hmem
    simp [entry_of_active hlook, Entry.ofNode, hmem]
  · rw [entry_of_notMem hmem]
    cases hlook : w.inactive.lookup h with
    | none => simp [hmem]
    | some n => simp [Entry.ofNode, hmem]

theorem entry_putNode_inactive (hnot : h ∉ w.active) (n : ComputationalNode) :
    (w.putNode .inactive h n).entry = Function.update w.entry h (some (.ofNode false n)) := by
  funext x
  by_cases hx : x = h
  · subst hx
    rw [Function.update_self, entry_of_notMem (by simpa using hnot), inactive_putNode_inactive,
      Finmap.lookup_insert, Option.map_some]
  · rw [Function.update_of_ne hx, entry, active_putNode_inactive, inactive_putNode_inactive,
      Finmap.lookup_insert_of_ne _ hx]
    rfl

theorem entry_entered (w : WorkerManagement) (h : String) (n : ComputationalNode) :
    (w.entered h n).entry = Function.update w.entry h (some (.ofNode true n)) := by
  funext x
  by_cases hx : x = h
  · subst hx
    rw [Function.update_self, entry_of_active (by rw [active_entered, Finmap.lookup_insert])]
  · rw [Function.update_of_ne hx, entry, active_entered, inactive_entered,
      Finmap.lookup_insert_of_ne _ hx, Finmap.lookup_erase_ne hx]
    rfl

theorem entry_left (w : WorkerManagement) (h : String) (n : ComputationalNode) :
    (w.left h n).entry = Function.update w.entry h (some (.ofNode false n)) := by
  funext x
  by_cases hx : x = h
  · subst hx
    rw [Function.update_self, entry_of_notMem (by simp), inactive_left,
      Finmap.lookup_insert, Option.map_some]
  · rw [Function.update_of_ne hx, entry, active_left, inactive_left,
      Finmap.lookup_insert_of_ne _ hx, Finmap.lookup_erase_ne hx]
    rfl

theorem entry_addNewNode (hnot : h ∉ w.active) :
    (w.addNewNode h).1.entry = Function.update w.entry h (some ((w.entry h).getD .fresh)) := by
  unfold addNewNode
  by_cases hin : h ∈ w.inactive
  · obtain ⟨n, hlook⟩ := Finmap.mem_iff.mp hin
    rw [if_neg fun hno => hno.1 hin, if_neg hnot, entry_of_notMem hnot, hlook, Option.map_some,
      Option.getD_some]
    refine (Function.update_eq_self_iff.mpr ?_).symm
    rw [entry_of_notMem hnot, hlook, Option.map_some]
  · rw [if_pos ⟨hin, hnot⟩, entry_putNode_inactive hnot, entry_of_notMem hnot,
      Finmap.lookup_eq_none.mpr hin]
    rfl

end WorkerManagement

namespace MainNode

open WorkerManagement

variable {E : Env} {m m' : MainNode} {e : Event} {h : String}

def roster (m : MainNode) : Roster := ⟨m.publisher.isConnected, m.workers.entry⟩

theorem isActive_roster : m.roster.isActive h = true ↔ h ∈ m.workers.active := any_active_entry

theorem roster_connect (qip : String) (r : ConnectOutcome) (halive : Halt.alive (m.connect qip r).2) :
    (m.connect qip r).1.roster =
      ⟨m.publisher.isConnected || Roster.opens r, m.workers.entry⟩ := by
  have hworkers : (m.connect qip r).1.workers.entry = m.workers.entry := by
    rw [workers_connect]
  have hconnected : (m.connect qip r).1.publisher.isConnected =
      (m.publisher.isConnected || Roster.opens r) := by
    cases hconn : m.publisher.isConnected with
    | true => simp [connect, hconn]
    | false =>
      have hexchange : ensureExchange { Publisher.init with defaultExchange := "testexch" } r =
        ensureExchange (m.configured qip) r := rfl
      simp only [connect, hconn, Bool.false_eq_true, if_false, Bool.false_or, Roster.opens,
        hexchange] at halive ⊢
      cases hens : ensureExchange (m.configured qip) r with
      | error e => exact hconn
      | ok =>
        rcases Publisher.connect_cases (p := m.configured qip) rfl hconn r.publisher with
          ⟨-, hp⟩ | ⟨-, herr, hp⟩ | ⟨-, herr, hp⟩
        · simp only [hens, hp] at halive
          cases halive
        · simp only [hp]
          simp [herr, Except.toBool, AMQPService.isConnected]
        · simp only [hp, herr, decide_false, Bool.and_false]
          rfl
  rw [roster, hworkers, hconnected]

theorem roster_finishConnect (hw : m.workers.Registered) {n : ComputationalNode}
    (hlook : m.workers.inactive.lookup h = some n) {reply : HttpReply}
    (halive : Halt.alive (m.finishConnect E h reply).2) :
    (m.finishConnect E h reply).1.roster = ⟨m.publisher.isConnected,
      Function.update m.workers.entry h (some
        ((if reply.accepted then reportedBench E reply else none).elim (.ofNode false n)
          (Entry.ofNode false n).enter))⟩ := by
  have hentry : m.workers.entry h = some (.ofNode false n) := by
    rw [entry_of_notMem (hw.notMem_active hlook), hlook, Option.map_some]
  rcases connectNode_cases E hlook (hw.client .inactive _ _ hlook) reply with
    ⟨f, hfault⟩ | ⟨hsame, hrefused⟩ | ⟨hacc, val, bench, -, hbench, hentered⟩
  · have hrelay : Halt.alive (m.workers.connectNode E h reply).2 := alive_relayResult halive
    rw [hfault] at hrelay
    cases hrelay
  · have hnone : (if reply.accepted then reportedBench E reply else none) = none := by
      by_cases hacc : reply.accepted = true
      · rw [if_pos hacc, (hrefused hacc).1]
      · rw [if_neg hacc]
    rw [hnone, Option.elim_none, ← hentry, Function.update_eq_self]
    exact congrArg (Roster.mk _) (congrArg entry hsame)
  · rw [if_pos hacc, hbench, Option.elim_some, ← Entry.ofNode_rated, ← entry_entered]
    exact congrArg (Roster.mk _) (congrArg entry hentered)

theorem roster_connectNode (hw : m.workers.Registered) {name : String} {r : QueueOutcome}
    {reply : HttpReply} (halive : Halt.alive (m.connectNode E h name r reply).2) :
    (m.connectNode E h name r reply).1.roster = m.roster.step E (.connectNode h name r reply) := by
  by_cases hguard : m.publisher.isConnected = true ∧ h ∉ m.workers.active
  · obtain ⟨hconn, hnot⟩ := hguard
    have hactive : m.roster.isActive h = false := by
      rw [← Bool.not_eq_true, isActive_roster]
      exact hnot
    have hentry : (m.dispatched h).workers.entry =
        Function.update m.workers.entry h (some ((m.workers.entry h).getD .fresh)) :=
      entry_addNewNode hnot
    have hadd : (m.dispatched h).workers.Registered := hw.change (change_addNewNode (E := E) _ _)
    rw [connectNode_of_idle E hconn hnot] at halive ⊢
    simp only [Roster.step, hactive, show m.roster.connected = true from hconn, Roster.joins,
      Bool.not_false, Bool.and_self, if_true]
    cases hq : ensureQueue name r with
    | error e =>
      rw [← hconn]
      exact congrArg (Roster.mk _) hentry
    | ok =>
      rw [hq] at halive
      obtain ⟨n, hlook⟩ := Finmap.mem_iff.mp (mem_inactive_dispatched hnot)
      have hn : (m.workers.entry h).getD .fresh = .ofNode false n := by
        have hself := congrFun hentry h
        rw [Function.update_self, entry_of_notMem (hadd.notMem_active hlook), hlook,
          Option.map_some] at hself
        exact (Option.some.inj hself).symm
      refine (roster_finishConnect hadd hlook halive).trans ?_
      rw [hentry, Function.update_idem, ← hn]
      exact congrArg (fun c => Roster.mk c _) hconn
  · have hsame : (m.connectNode E h name r reply).1 = m := by
      rcases m.dispatchConnect_cases h name r with ⟨res, hd⟩ | ⟨hconn, hnot, -⟩
      · rw [connectNode, hd]
      · exact absurd ⟨hconn, hnot⟩ hguard
    have hclosed : ¬ (m.roster.connected && !m.roster.isActive h) = true := by
      rw [Bool.and_eq_true, Bool.not_eq_true', ← Bool.not_eq_true, isActive_roster]
      exact hguard
    rw [hsame, Roster.step, if_neg hclosed]

theorem map_leave_entry (w : WorkerManagement) (hnot : h ∉ w.active) :
    (w.entry h).map Entry.leave = w.entry h := by
  rw [entry_of_notMem hnot, Option.map_map]
  rfl

theorem roster_disconnectNode (hw : m.workers.Registered) {reply : HttpReply}
    (halive : Halt.alive (m.disconnectNode E h reply).2) :
    (m.disconnectNode E h reply).1.roster = m.roster.step E (.disconnectNode h reply) := by
  cases hconn : m.publisher.isConnected with
  | false => simp [disconnectNode, Roster.step, roster, hconn]
  | true =>
    have hstep : m.roster.step E (.disconnectNode h reply) = ⟨true, if reply.accepted then
        Function.update m.workers.entry h ((m.workers.entry h).map Entry.leave)
        else m.workers.entry⟩ := by
      by_cases hacc : reply.accepted = true <;> simp [Roster.step, roster, hconn, hacc]
    have hserve : (m.disconnectNode E h reply).1.roster =
        ⟨true, (m.workers.disconnectNode E h reply).1.entry⟩ := by
      simp [disconnectNode, hconn, roster]
    have hrelay : Halt.alive (m.workers.disconnectNode E h reply).2 := by
      simp only [disconnectNode, hconn, Bool.not_true, Bool.false_eq_true, if_false] at halive
      exact alive_relayResult halive
    rw [hserve, hstep]
    refine congrArg (Roster.mk true) ?_
    by_cases hmem : h ∈ m.workers.active
    · obtain ⟨n, hlook⟩ := Finmap.mem_iff.mp hmem
      rcases disconnectNode_cases E hlook (hw.client .active _ _ hlook) reply with
        ⟨f, hfault⟩ | ⟨hsame, hacc⟩ | ⟨hacc, hleft⟩
      · rw [hfault] at hrelay
        cases hrelay
      · rw [hsame, if_neg hacc]
      · rw [hleft, if_pos hacc, entry_left, entry_of_active hlook]
        rfl
    · rw [disconnectNode_of_notMem E hmem, map_leave_entry _ hmem, Function.update_eq_self, ite_self]

theorem roster_step (hw : m.workers.Registered) (hstep : ofFun (step E) m e m') :
    m'.roster = m.roster.step E e := by
  obtain ⟨-, halive, rfl⟩ := step_eq_some hstep
  cases e with
  | connect qip r => exact roster_connect qip r halive
  | disconnect =>
    simp only [serve, MainNode.disconnect, Roster.step]
    cases hconn : m.publisher.isConnected with
    | true => rfl
    | false => simp [roster, hconn]
  | connectNode hostPort name r reply => exact roster_connectNode hw halive
  | disconnectNode hostPort reply => exact roster_disconnectNode hw halive
  | sendToExecution => rfl
  | publisherClosed => rfl

theorem roster_foldl (hw : m.workers.Registered) {es : List Event}
    (run : Run (ofFun (step E)) m es m') : m'.roster = es.foldl (Roster.step E) m.roster := by
  exact run.foldl roster (Roster.step E)
    (workers_step (fun _ h => h) fun _ _ hw h => hw.change h) (fun _ _ _ => roster_step) hw

end MainNode

structure Client where
  status : String
  host : String
  bench : BenchResVec
  deriving DecidableEq

namespace Client

def ofJson (status : String) (v : Value) : Except Exn Client := do
  let host ← (← v.member "host").asString fun _ => ""
  let bench ← jsonToContinuous Value.asUInt64 (← v.member "benchRes") none false
  return ⟨status, host, bench⟩

def listOfJson (answer : Value) : Except Exn (List Client) := do
  let clients ← answer.member "clients"
  let groups ← clients.elements.mapM fun group => do
    let status ← (← group.member "status").asString fun _ => ""
    (← group.member "data").elements.mapM (ofJson status)
  return groups.flatten

def ofNode (status : NodeStatus) (n : ActiveNode) : Client :=
  ⟨kNodeStatusToStr status, n.1, n.2.benchResult⟩

theorem reread_indexed (xs : List Value) :
    (WorkerManagement.indexed xs).reread = WorkerManagement.indexed (xs.map Value.reread) := by
  cases xs with
  | nil => rfl
  | cons x xs =>
    simp only [WorkerManagement.indexed, Value.reread, Value.rereadElems_eq_map, List.map_cons]

theorem elements_indexed (xs : List Value) : (WorkerManagement.indexed xs).elements = xs := by
  cases xs <;> rfl

theorem jsonToContinuous_reread {bench : BenchResVec} (hlen : bench.length < 2 ^ 32) :
    jsonToContinuous Value.asUInt64 (continuousToJson .uint bench true false).reread none false =
      .ok bench := by
  have hval : (continuousToJson .uint bench true false).reread =
      .object (("size", (Value.uint (UInt64.ofNat bench.length)).reread) ::
        if bench = [] then [] else [("data", .array (bench.map fun x => (Value.uint x).reread))]) := by
    by_cases hb : bench = []
    · subst hb
      rfl
    · simp only [continuousToJson, Bool.false_eq_true, if_false, if_true, hb, List.cons_append,
        List.nil_append, reduceCtorEq, Value.reread, Value.rereadMembers, Value.rereadElems_eq_map,
        List.map_map]
      rfl
  have hnat : (UInt64.ofNat bench.length).toNat = bench.length :=
    UInt64.toNat_ofNat_of_lt' (hlen.trans (by decide))
  have hsize : continuousSize (continuousToJson .uint bench true false).reread none false =
      .ok bench.length := by
    rw [hval]
    simp only [continuousSize, Value.member, List.lookup_cons_self, Option.getD_some, Value.asUInt,
      bind, Except.bind]
    rw [Value.asUnsigned_reread_uint _ _ _ (by omega), hnat]
    simp only [Except.map, pure, Except.pure]
    rw [UInt32.toNat_ofNat_of_lt' hlen]
  rw [jsonToContinuous, hsize]
  apply mapM_range_eq_ok
  intro i hi
  have hb : bench ≠ [] := List.ne_nil_of_length_pos (by omega)
  rw [hval, if_neg hb]
  simp [Value.member, Value.item, hi, asUInt64_reread_uint, bind, Except.bind, List.lookup_cons]

theorem ofJson_reread (status : String) {n : ActiveNode} (hlen : n.2.benchResult.length < 2 ^ 32) :
    ofJson status (Value.object [("host", .string n.1),
      ("benchRes", continuousToJson .uint n.2.benchResult true false)]).reread =
      .ok ⟨status, n.1, n.2.benchResult⟩ := by
  have hbench := jsonToContinuous_reread hlen
  simp only [Value.reread, Value.rereadMembers, ofJson, Value.member, List.lookup_cons,
    Value.asString, bind, Except.bind, Option.getD_some, beq_self_eq_true, String.reduceBEq,
    hbench, pure, Except.pure]

variable {m : MainNode} {maps : List (NodeStatus × List ActiveNode)}

theorem listOfJson_status (hlen : ∀ x ∈ maps, ∀ n ∈ x.2, n.2.benchResult.length < 2 ^ 32) :
    listOfJson (m.status maps).reread = .ok (maps.flatMap fun x => x.2.map (ofNode x.1)) := by
  have hclients : (m.status maps).reread.member "clients" =
      .ok (WorkerManagement.getStatus maps).reread := by
    cases hconn : m.publisher.isConnected <;>
      simp [MainNode.status, MainNode.answer, hconn, Value.reread, Value.rereadMembers,
        Value.member, List.lookup_cons]
  simp only [listOfJson, hclients, WorkerManagement.getStatus, reread_indexed, elements_indexed,
    List.map_map, bind, Except.bind]
  rw [mapM_map_eq_ok (k := fun x => x.2.map (ofNode x.1))]
  · rfl
  intro x hx
  simp only [Function.comp_apply, Value.reread, Value.rereadMembers, Value.member,
    List.lookup_cons, Option.getD_some, beq_self_eq_true, String.reduceBEq, Value.asString,
    reread_indexed, elements_indexed, List.map_map]
  exact mapM_map_eq_ok fun n hn => ofJson_reread _ (hlen x hx n hn)

end Client

def Entry.client (h : String) (e : Entry) : Client :=
  ⟨if e.active then "Active" else "Inactive", h, e.bench⟩

namespace WorkerManagement

structure Lists (w : WorkerManagement) (maps : List (NodeStatus × List ActiveNode)) : Prop where
  nodup : (maps.map Prod.fst).Nodup
  entries : ∀ x ∈ maps, (x.2 : Multiset ActiveNode) = (w.workerNodes x.1).entries
  covered : ∀ st, st ∉ maps.map Prod.fst → w.workerNodes st = ∅

structure Sound (w : WorkerManagement) : Prop extends Registered w where
  failed : w.workerNodes .failed = ∅

variable {E : Env} {w w' : WorkerManagement} {maps : List (NodeStatus × List ActiveNode)}
  {st : NodeStatus} {n : ActiveNode}

theorem sound_init : Sound init := ⟨registered_init, rfl⟩

theorem Sound.change (hw : Sound w) (h : Change E w w') : Sound w' where
  toRegistered := hw.toRegistered.change h
  failed := by
    cases h with
    | same => exact hw.failed
    | added => rw [workerNodes_putNode_of_ne _ _ (by decide), hw.failed]
    | entered => exact hw.failed
    | left => exact hw.failed

theorem Sound.entry (hw : Sound w) (hlook : (w.workerNodes st).lookup n.1 = some n.2) :
    (w.entry n.1).map (Entry.client n.1) = some (Client.ofNode st n) := by
  cases st with
  | active =>
    rw [entry_of_active hlook]
    rfl
  | inactive =>
    rw [entry_of_notMem (hw.notMem_active hlook), inactive, hlook]
    rfl
  | failed =>
    rw [hw.failed, Finmap.lookup_empty] at hlook
    cases hlook

theorem Sound.status_eq (hw : Sound w) {st' : NodeStatus} {h : String} (hst : h ∈ w.workerNodes st)
    (hst' : h ∈ w.workerNodes st') : st = st' := by
  cases st <;> cases st' <;> first
    | rfl
    | exact absurd hst' (hw.disjoint h hst)
    | exact absurd hst (hw.disjoint h hst')
    | exact absurd (hw.failed ▸ hst) Finmap.notMem_empty
    | exact absurd (hw.failed ▸ hst') Finmap.notMem_empty

theorem Lists.mem_iff (hl : w.Lists maps) {x : NodeStatus × List ActiveNode} (hx : x ∈ maps) :
    n ∈ x.2 ↔ (w.workerNodes x.1).lookup n.1 = some n.2 := by
  rw [← Multiset.mem_coe, hl.entries x hx]
  exact Finmap.mem_lookup_iff.symm

theorem Lists.exists_mem (hl : w.Lists maps) (hlook : (w.workerNodes st).lookup n.1 = some n.2) :
    ∃ x ∈ maps, x.1 = st ∧ n ∈ x.2 := by
  have hst : st ∈ maps.map Prod.fst := by
    by_contra hst
    rw [hl.covered st hst, Finmap.lookup_empty] at hlook
    cases hlook
  obtain ⟨x, hx, rfl⟩ := List.mem_map.mp hst
  exact ⟨x, hx, rfl, (hl.mem_iff hx).mpr hlook⟩

theorem Lists.nodup_hosts (hl : w.Lists maps) (hw : Sound w) :
    ((maps.flatMap fun x => x.2.map (Client.ofNode x.1)).map Client.host).Nodup := by
  rw [List.map_flatMap, List.nodup_flatMap]
  constructor
  · intro x hx
    rw [List.map_map]
    have hkeys := (w.workerNodes x.1).nodupKeys
    rw [← hl.entries x hx] at hkeys
    exact Multiset.coe_nodupKeys.mp hkeys
  · have hne : maps.Pairwise fun x y => x.1 ≠ y.1 := List.pairwise_map.mp hl.nodup
    refine hne.imp_of_mem ?_
    intro x y hx hy hxy h hhx hhy
    simp only [List.map_map, List.mem_map, Function.comp_apply] at hhx hhy
    obtain ⟨n, hn, rfl⟩ := hhx
    obtain ⟨n', hn', hhost⟩ := hhy
    have hlook := (hl.mem_iff hx).mp hn
    have hlook' := (hl.mem_iff hy).mp hn'
    rw [show n'.1 = n.1 from hhost] at hlook'
    exact hxy (hw.status_eq (Finmap.mem_of_lookup_eq_some hlook)
      (Finmap.mem_of_lookup_eq_some hlook'))

theorem Lists.mem_clients (hl : w.Lists maps) (hw : Sound w) (c : Client) :
    c ∈ maps.flatMap (fun x => x.2.map (Client.ofNode x.1)) ↔
      (w.entry c.host).map (Entry.client c.host) = some c := by
  rw [List.mem_flatMap]
  constructor
  · rintro ⟨x, hx, hc⟩
    obtain ⟨n, hn, rfl⟩ := List.mem_map.mp hc
    exact hw.entry ((hl.mem_iff hx).mp hn)
  · intro hc
    obtain ⟨st, n, hlook⟩ : ∃ st n, (w.workerNodes st).lookup c.host = some n := by
      by_cases hmem : c.host ∈ w.active
      · exact ⟨.active, Finmap.mem_iff.mp hmem⟩
      · rw [entry_of_notMem hmem] at hc
        cases hlook : w.inactive.lookup c.host with
        | none => simp [hlook] at hc
        | some n => exact ⟨.inactive, n, hlook⟩
    obtain ⟨x, hx, rfl, hn⟩ := hl.exists_mem (n := ⟨c.host, n⟩) hlook
    have hentry := hw.entry (n := ⟨c.host, n⟩) hlook
    exact ⟨x, hx, List.mem_map.mpr ⟨_, hn, Option.some.inj (hentry.symm.trans hc)⟩⟩

end WorkerManagement

namespace Roster

variable {E : Env}

def after (E : Env) (es : List MainNode.Event) : Roster := es.foldl (step E) init

def Read (E : Env) (d : Roster) : Prop :=
  ∀ h e, d.entry h = some e → e.bench = [] ∨ ∃ val, E.decodeBench val = .ok e.bench

theorem Read.update {d : Roster} (hd : d.Read E) (h : String) (e? : Option Entry)
    (he : ∀ e, e? = some e → e.bench = [] ∨ ∃ val, E.decodeBench val = .ok e.bench) :
    Read E { d with entry := Function.update d.entry h e? } := by
  intro h' e he'
  replace he' : Function.update d.entry h e? h' = some e := he'
  by_cases hh : h' = h
  · subst hh
    rw [Function.update_self] at he'
    exact he e he'
  · rw [Function.update_of_ne hh] at he'
    exact hd h' e he'

theorem read_of_reportedBench {reply : HttpReply} {bench : BenchResVec}
    (h : WorkerManagement.reportedBench E reply = some bench) :
    ∃ val, E.decodeBench val = .ok bench := by
  obtain ⟨body, -, hbody⟩ := Option.bind_eq_some_iff.mp h
  obtain ⟨r, -, hr⟩ := Option.bind_eq_some_iff.mp hbody
  cases hdec : E.decodeBench r.2 with
  | error e =>
    rw [hdec] at hr
    cases hr
  | ok bench' =>
    rw [hdec] at hr
    cases hr
    exact ⟨_, hdec⟩

theorem read_of_joins {name : String} {r : QueueOutcome} {reply : HttpReply} {bench : BenchResVec}
    (h : joins E name r reply = some bench) : ∃ val, E.decodeBench val = .ok bench := by
  unfold joins at h
  split at h
  · cases h
  · exact read_of_reportedBench (Option.ite_none_right_eq_some.mp h).2

theorem Read.step {d : Roster} (hd : d.Read E) (e : MainNode.Event) : (d.step E e).Read E := by
  cases e with
  | connect | disconnect | publisherClosed | sendToExecution => exact hd
  | connectNode h name r reply =>
    have hfresh : ((d.entry h).getD .fresh).bench = [] ∨
        ∃ val, E.decodeBench val = .ok ((d.entry h).getD .fresh).bench := by
      cases hentry : d.entry h with
      | none => exact .inl rfl
      | some e => exact hd h e hentry
    simp only [Roster.step]
    split
    · refine hd.update h _ ?_
      rintro _ ⟨⟩
      cases hjoins : joins E name r reply with
      | none => exact hfresh
      | some bench => exact .inr (read_of_joins hjoins)
    · exact hd
  | disconnectNode h reply =>
    simp only [Roster.step]
    split
    · refine hd.update h _ ?_
      intro e he
      obtain ⟨e', he', rfl⟩ := Option.map_eq_some_iff.mp he
      exact hd h e' he'
    · exact hd

theorem read_after (es : List MainNode.Event) : (after E es).Read E := by
  induction es using List.reverseRecOn with
  | nil =>
    intro h e he
    cases he
  | append_singleton es e ih =>
    rw [after, List.foldl_append]
    exact ih.step e

end Roster

namespace MainNode

open WorkerManagement

variable {E : Env} {m : MainNode} {es : List Event} {auth : JsonAuthHandler}

theorem sound_of_run (run : Run (ofFun (step E)) (init auth) es m) : m.workers.Sound :=
  run.invariant (workers_step (fun _ h => h.toRegistered) fun _ _ hw h => hw.change h) sound_init

theorem roster_after (run : Run (ofFun (step E)) (init auth) es m) : m.roster = Roster.after E es :=
  roster_foldl registered_init run

/-- A worker is in the cluster exactly if the requests and the replies say so, with the benchmark of
its last connection and the speeds of its first. -/
theorem roster_of_run (run : Run (ofFun (step E)) (init auth) es m) (h : String) :
    m.publisher.isConnected = (Roster.after E es).connected ∧
      m.workers.entry h = (Roster.after E es).entry h := by
  rw [← roster_after run]
  exact ⟨rfl, rfl⟩

theorem exists_run_connect : ∃ m, Run (ofFun (step (uniformEnv 5)))
    (init ⟨"sysadmin", "syspassword"⟩) (connectWorker "q" "w") m ∧
    m.workers.Lists [(.active, [benchedNode "w" 5])] := by
  have run := run_ofFun_iff.mpr (rfl : exec (step (uniformEnv 5))
    (init ⟨"sysadmin", "syspassword"⟩) (connectWorker "q" "w") = some _)
  refine ⟨_, run, by decide, ?_, ?_⟩
  · intro x hx
    obtain rfl := List.mem_singleton.mp hx
    rfl
  · intro st hst
    cases st with
    | active => exact absurd (by decide) hst
    | inactive => rfl
    | failed => rfl

theorem roster_of_run_connect : ∃ m : MainNode, m.publisher.isConnected = true ∧
    m.workers.entry "w" = some ⟨true, defaultBench 5, defaultBench 200000000000⟩ := by
  obtain ⟨m, run, -⟩ := exists_run_connect
  exact ⟨m, roster_of_run run "w"⟩

/-- `Status`, read back from its text, tells the roster: every host that was named once, ACTIVE or
INACTIVE, with its last benchmark. -/
theorem status_of_run (hE : ∀ val bench, E.decodeBench val = .ok bench → bench.length < 2 ^ 32)
    (run : Run (ofFun (step E)) (init auth) es m) {maps : List (NodeStatus × List ActiveNode)}
    (hmaps : m.workers.Lists maps) :
    ∃ clients, Client.listOfJson (m.status maps).reread = .ok clients ∧
      (clients.map Client.host).Nodup ∧
      (∀ c, c ∈ clients ↔
        ((Roster.after E es).entry c.host).map (Entry.client c.host) = some c) ∧
      (m.status maps).reread.isMember "rabbitmq_service" = .ok (Roster.after E es).connected := by
  have hw := sound_of_run run
  have hroster := roster_after run
  have hlen : ∀ x ∈ maps, ∀ n ∈ x.2, n.2.benchResult.length < 2 ^ 32 := by
    intro x hx n hn
    obtain ⟨e, he, hclient⟩ := Option.map_eq_some_iff.mp (hw.entry ((hmaps.mem_iff hx).mp hn))
    have hbench : e.bench = n.2.benchResult := congrArg Client.bench hclient
    rw [← hbench]
    rcases Roster.read_after es n.1 e (by rw [← hroster]; exact he) with hnil | ⟨val, hval⟩
    · rw [hnil]
      decide
    · exact hE val _ hval
  refine ⟨_, Client.listOfJson_status hlen, hmaps.nodup_hosts hw, ?_, ?_⟩
  · rw [← hroster]
    exact hmaps.mem_clients hw
  · rw [← hroster]
    cases hconn : m.publisher.isConnected <;>
      simp [status, answer, roster, hconn, Value.reread, Value.rereadMembers, Value.isMember,
        List.lookup_cons]

theorem status_of_run_connect : ∃ (m : MainNode) (clients : List Client),
    Client.listOfJson (m.status [(.active, [benchedNode "w" 5])]).reread = .ok clients ∧
    (clients.map Client.host).Nodup ∧
    (∀ c, c ∈ clients ↔ ((Roster.after (uniformEnv 5) (connectWorker "q" "w")).entry c.host).map
      (Entry.client c.host) = some c) ∧
    (m.status [(.active, [benchedNode "w" 5])]).reread.isMember "rabbitmq_service" = .ok true := by
  obtain ⟨m, run, hmaps⟩ := exists_run_connect
  obtain ⟨clients, h⟩ := status_of_run (by rintro _ _ ⟨⟩; decide) run hmaps
  exact ⟨m, clients, h⟩

end MainNode

end DistributedMathArh
