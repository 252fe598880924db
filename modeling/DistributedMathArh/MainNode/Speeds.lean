import DistributedMathArh.MainNode.Run

namespace DistributedMathArh.MainNode

open Json Transition WorkerManagement

variable {E : Env} {auth : JsonAuthHandler} {m m' : MainNode} {e : Event}

def reported (E : Env) (m : MainNode) : Event → Option (String × BenchResVec)
  | .connectNode hostPort name r reply =>
    match (m.dispatchConnect hostPort name r).2 with
    | .answered _ => none
    | .sent _ => if reply.accepted then (reportedBench E reply).map (hostPort, ·) else none
  | _ => none

/-- The speeds that the registry has kept from an earlier connection of the host are those of the
benchmark that comes now. -/
def Compatible (E : Env) (m : MainNode) (e : Event) : Prop :=
  ∀ hostPort bench, m.reported E e = some (hostPort, bench) →
    (m.workers.nodeAt .inactive hostPort).nodeSpeed = [] ∨
      (m.workers.nodeAt .inactive hostPort).nodeSpeed = bench.map (kBenchInfinity / ·)

inductive LatestBench (E : Env) (auth : JsonAuthHandler) (hostPort : String) :
    List Event → BenchResVec → Prop
  | here {es m e bench} : Run (ofFun (step E)) (init auth) es m →
      m.reported E e = some (hostPort, bench) → LatestBench E auth hostPort (es ++ [e]) bench
  | later {es m e bench} : LatestBench E auth hostPort es bench →
      Run (ofFun (step E)) (init auth) es m →
      (∀ bench', m.reported E e ≠ some (hostPort, bench')) →
      LatestBench E auth hostPort (es ++ [e]) bench

/-- Every ACTIVE node has the benchmark of its latest connection, and the speeds that belong to it. -/
def SpeedsCurrent (E : Env) (auth : JsonAuthHandler) (es : List Event) (m : MainNode) : Prop :=
  ∀ hostPort n, m.workers.active.lookup hostPort = some n →
    LatestBench E auth hostPort es n.benchResult ∧
      n.nodeSpeed = n.benchResult.map (kBenchInfinity / ·)

theorem registered_of_run {es : List Event} (run : Run (ofFun (step E)) (init auth) es m) :
    m.workers.Registered :=
  run.invariant (workers_step (fun _ h => h) fun _ _ hw h => hw.change h) registered_init

def ActiveStep (E : Env) (m : MainNode) (e : Event) (m' : MainNode) : Prop :=
  (∃ hostPort bench n, m.reported E e = some (hostPort, bench) ∧
    n.nodeSpeed = (m.workers.nodeAt .inactive hostPort).nodeSpeed ∧
    m'.workers.active = m.workers.active.insert hostPort (rated n bench)) ∨
  (m.reported E e = none ∧ ∀ hostPort n, m'.workers.active.lookup hostPort = some n →
    m.workers.active.lookup hostPort = some n)

theorem ActiveStep.quiet (hnone : m.reported E e = none)
    (hactive : m'.workers.active = m.workers.active) : ActiveStep E m e m' := by
  refine .inr ⟨hnone, ?_⟩
  rw [hactive]
  exact fun _ _ h => h

section Requests

variable {hostPort name : String} {r : QueueOutcome} {reply : HttpReply}

theorem activeStep_finishConnect (hreg : m.workers.Registered) (hnot : hostPort ∉ m.workers.active)
    (hd : m.dispatchConnect hostPort name r =
      (m.dispatched hostPort, .sent (m.connectRequest name)))
    (halive : Halt.alive ((m.dispatched hostPort).finishConnect E hostPort reply).2) :
    ActiveStep E m (.connectNode hostPort name r reply)
      ((m.dispatched hostPort).finishConnect E hostPort reply).1 := by
  obtain ⟨n, hlook⟩ := Finmap.mem_iff.mp (mem_inactive_dispatched hnot)
  have hreg' := hreg.change (E := E) (change_addNewNode m.workers hostPort)
  have halive : Halt.alive ((m.dispatched hostPort).workers.connectNode E hostPort reply).2 :=
    alive_relayResult halive
  have hreported : m.reported E (.connectNode hostPort name r reply) =
      if reply.accepted then (reportedBench E reply).map (hostPort, ·) else none := by
    simp only [reported, hd]
  rcases connectNode_cases E hlook (hreg'.client .inactive _ _ hlook) reply with
    ⟨f, hf⟩ | ⟨hsame, hnone⟩ | ⟨hacc, -, bench, -, hbench, hentered⟩
  · rw [hf] at halive
    cases halive
  · apply ActiveStep.quiet
    · rw [hreported]
      split
      · rw [(hnone ‹_›).1]
        rfl
      · rfl
    · exact (congrArg active hsame).trans (active_dispatched hnot)
  · refine .inl ⟨hostPort, bench, n, ?_, nodeSpeed_dispatched hnot hlook, ?_⟩
    · rw [hreported, if_pos hacc, hbench]
      rfl
    · refine (congrArg active hentered).trans ?_
      rw [active_entered, active_dispatched hnot]

theorem activeStep_connectNode (hreg : m.workers.Registered)
    (halive : Halt.alive (m.connectNode E hostPort name r reply).2) :
    ActiveStep E m (.connectNode hostPort name r reply)
      (m.connectNode E hostPort name r reply).1 := by
  rcases m.dispatchConnect_cases hostPort name r with ⟨res, hd⟩ | ⟨-, hnot, ⟨res, hd⟩ | hd⟩
  · apply ActiveStep.quiet
    · simp only [reported, hd]
    · simp only [connectNode, hd]
  · apply ActiveStep.quiet
    · simp only [reported, hd]
    · simp only [connectNode, hd, active_dispatched hnot]
  · have hsent : m.connectNode E hostPort name r reply =
        (m.dispatched hostPort).finishConnect E hostPort reply := by
      simp only [connectNode, hd]
    rw [hsent] at halive ⊢
    exact activeStep_finishConnect hreg hnot hd halive

theorem activeStep_disconnectNode (hreg : m.workers.Registered)
    (halive : Halt.alive (m.disconnectNode E hostPort reply).2) :
    ActiveStep E m (.disconnectNode hostPort reply) (m.disconnectNode E hostPort reply).1 := by
  unfold disconnectNode at halive ⊢
  split
  · exact .quiet rfl rfl
  · rename_i hconn
    rw [if_neg hconn] at halive
    have halive : Halt.alive (m.workers.disconnectNode E hostPort reply).2 :=
      alive_relayResult halive
    by_cases hin : hostPort ∈ m.workers.active
    · obtain ⟨n, hlook⟩ := Finmap.mem_iff.mp hin
      rcases disconnectNode_cases E hlook (hreg.client .active _ _ hlook) reply with
        ⟨f, hf⟩ | ⟨hsame, -⟩ | ⟨-, hleft⟩
      · rw [hf] at halive
        cases halive
      · exact .quiet rfl (congrArg active hsame)
      · refine .inr ⟨rfl, ?_⟩
        have hactive := (congrArg active hleft).trans active_left
        intro x n' hx
        by_cases hx' : x = hostPort
        · subst hx'
          rw [hactive, Finmap.lookup_erase] at hx
          cases hx
        · rwa [hactive, Finmap.lookup_erase_ne hx'] at hx
    · exact .quiet rfl (congrArg active (disconnectNode_of_notMem E hin reply))

end Requests

theorem activeStep_of_step (hreg : m.workers.Registered) (h : m.step E e = some m') :
    ActiveStep E m e m' := by
  obtain ⟨-, halive, rfl⟩ := step_eq_some h
  cases e with
  | connect qip r => exact .quiet rfl (congrArg active (workers_connect m qip r))
  | disconnect => exact .quiet rfl (congrArg active (workers_disconnect m))
  | connectNode hostPort name r reply => exact activeStep_connectNode hreg halive
  | disconnectNode hostPort reply => exact activeStep_disconnectNode hreg halive
  | sendToExecution ts order => exact .quiet rfl rfl
  | publisherClosed => exact .quiet rfl rfl

theorem nodeSpeed_rated_eq_iff (n : ComputationalNode) (bench : BenchResVec) :
    (rated n bench).nodeSpeed = bench.map (kBenchInfinity / ·) ↔
      n.nodeSpeed = [] ∨ n.nodeSpeed = bench.map (kBenchInfinity / ·) := by
  by_cases hlen : n.nodeSpeed.length = 0
  · rw [rated, if_pos hlen]
    exact iff_of_true rfl (.inl (List.length_eq_zero_iff.mp hlen))
  · rw [rated, if_neg hlen, or_iff_right fun h => hlen (congrArg List.length h)]

theorem SpeedsCurrent.later {es : List Event} {hostPort : String} {n : ComputationalNode}
    (hcurrent : SpeedsCurrent E auth es m) (run : Run (ofFun (step E)) (init auth) es m)
    (hlook : m.workers.active.lookup hostPort = some n)
    (hquiet : ∀ bench, m.reported E e ≠ some (hostPort, bench)) :
    LatestBench E auth hostPort (es ++ [e]) n.benchResult ∧
      n.nodeSpeed = n.benchResult.map (kBenchInfinity / ·) := by
  obtain ⟨hlatest, hspeeds⟩ := hcurrent _ _ hlook
  exact ⟨.later hlatest run hquiet, hspeeds⟩

theorem speedsCurrent_step {es : List Event} (run : Run (ofFun (step E)) (init auth) es m)
    (hcurrent : SpeedsCurrent E auth es m) (h : m.step E e = some m') :
    SpeedsCurrent E auth (es ++ [e]) m' ↔ m.Compatible E e := by
  rcases activeStep_of_step (registered_of_run run) h with
    ⟨hostPort, bench, n, hreported, hspeed, hactive⟩ | ⟨hnone, hsub⟩
  · have hrated : m'.workers.active.lookup hostPort = some (rated n bench) := by
      rw [hactive, Finmap.lookup_insert]
    constructor
    · intro hcurrent' x b hx
      obtain ⟨rfl, rfl⟩ := Prod.mk.inj (Option.some.inj (hreported.symm.trans hx))
      rw [← hspeed]
      exact (nodeSpeed_rated_eq_iff n bench).mp (hcurrent' _ _ hrated).2
    · intro hcompat x n' hx
      by_cases hx' : x = hostPort
      · subst hx'
        obtain rfl := Option.some.inj (hrated.symm.trans hx)
        refine ⟨.here run hreported, (nodeSpeed_rated_eq_iff n bench).mpr ?_⟩
        rw [hspeed]
        exact hcompat _ _ hreported
      · rw [hactive, Finmap.lookup_insert_of_ne _ hx'] at hx
        apply hcurrent.later run hx
        intro b hb
        exact hx' (Prod.mk.inj (Option.some.inj (hreported.symm.trans hb))).1.symm
  · constructor
    · intro _ x b hx
      rw [hnone] at hx
      cases hx
    · intro _ x n' hx
      apply hcurrent.later run (hsub _ _ hx)
      intro b hb
      rw [hnone] at hb
      cases hb

/-- The speeds of the ACTIVE nodes are current at every point of a run exactly when no step of it
brings another benchmark to a host with speeds from an earlier connection. -/
theorem speedsCurrent_iff {es : List Event} (run : Run (ofFun (step E)) (init auth) es m) :
    Throughout (ofFun (step E)) (SpeedsCurrent E auth) (init auth) es ↔
      Run (Guarded (ofFun (step E)) (Compatible E)) (init auth) es m := by
  apply throughout_iff_guarded
  · intro hostPort n h
    cases h
  · intro as t a u hrun hcurrent hstep
    exact speedsCurrent_step hrun hcurrent hstep
  · exact run

def wholeEnv : Env :=
  ⟨fun _ => "", fun val => jsonToContinuous Value.asUInt64 val (some kNValues.length) true⟩

def benchDocument (value : UInt64) : Value := .array ((defaultBench value).map .uint)

def reconnect (first second : UInt64) : List Event :=
  [.connect "q" ⟨.ok ["testexch"], .ok (), ""⟩,
    .connectNode "w" "w" ⟨.ok [], .ok (), .ok ()⟩ (okReply [("bench", benchDocument first)]),
    .disconnectNode "w" (okReply []),
    .connectNode "w" "w" ⟨.ok [], .ok (), .ok ()⟩ (okReply [("bench", benchDocument second)])]

theorem speedsCurrent_iff_reconnect :
    ∃ m, Throughout (ofFun (step wholeEnv)) (SpeedsCurrent wholeEnv ⟨"sysadmin", "syspassword"⟩)
        (init ⟨"sysadmin", "syspassword"⟩) (reconnect 5 5) ↔
      Run (Guarded (ofFun (step wholeEnv)) (Compatible wholeEnv))
        (init ⟨"sysadmin", "syspassword"⟩) (reconnect 5 5) m :=
  ⟨_, speedsCurrent_iff (run_ofFun_iff.mpr (rfl : exec (step wholeEnv)
    (init ⟨"sysadmin", "syspassword"⟩) (reconnect 5 5) = some _))⟩

theorem exists_not_speedsCurrent :
    wholeEnv.decodeBench (benchDocument 1) = .ok (defaultBench 1) ∧
      wholeEnv.decodeBench (benchDocument 2) = .ok (defaultBench 2) ∧
      ∃ m n, Run (ofFun (step wholeEnv)) (init ⟨"sysadmin", "syspassword"⟩) (reconnect 1 2) m ∧
        m.workers.active.lookup "w" = some n ∧ n.benchResult = defaultBench 2 ∧
        n.nodeSpeed = defaultBench kBenchInfinity ∧
        n.nodeSpeed ≠ n.benchResult.map (kBenchInfinity / ·) := by
  refine ⟨rfl, rfl, _, _, run_ofFun_iff.mpr (rfl : exec (step wholeEnv)
    (init ⟨"sysadmin", "syspassword"⟩) (reconnect 1 2) = some _), rfl, rfl, rfl, ?_⟩
  decide

end DistributedMathArh.MainNode
