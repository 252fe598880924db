import DistributedMathArh.CompNode.Sampling
import DistributedMathArh.Lib.Acknowledged

/-! `AMQPConsumerService` on its queue: what becomes of the messages of a worker, over any order of
publications, deliveries, acknowledgements, lost connections and exceptions of the callback. -/

namespace DistributedMathArh

open Acknowledged Json Transition

structure Computation (T K : Type) where
  schedule : Schedule T
  mesh : Int → Valarray K
  handled : Handled T K

def messageCallback {T K : Type} [DecidableEq T] [Field K] [DecidableEq K] (pi : K)
    (mesh : Int → Valarray K) (fs : Functors T) (body : Value) (s : Schedule T) :
    Except Halt (Handled T K) :=
  match TestSolveParam.ofJson body with
  | .error e => .error (.exn e)
  | .ok ts => MessageCallback.nMessageCallback pi mesh fs ts s

/-- The worker's end of a queue: `link` is the queue with what is on its way, `functors` belong to
the process. -/
structure QueueConsumer (Q T K : Type) where
  consuming : Bool
  link : Link Q Value (Computation T K)
  functors : Functors T

inductive ConsumerAction (T K : Type)
  | publish (body : Value)
  | consume
  | deliver (tag : Nat) (body : Value)
  | onReceived (c : Computation T K)
  | acked
  | disconnect
  | lost
  | terminated

namespace ConsumerAction

variable {T K : Type}

def published : ConsumerAction T K → Option Value
  | .publish body => some body
  | _ => none

def toLink : ConsumerAction T K → Option (Acknowledged.Action Value (Computation T K))
  | .publish body => some (.publish body)
  | .consume => none
  | .deliver tag body => some (.deliver tag body)
  | .onReceived c => some (.handle c)
  | .acked => some .settle
  | .disconnect | .lost | .terminated => some .lose

theorem filterMap_published (as : List (ConsumerAction T K)) :
    (as.filterMap toLink).filterMap Acknowledged.Action.published = as.filterMap published := by
  rw [List.filterMap_filterMap]
  congr 1
  funext a
  cases a <;> rfl

end ConsumerAction

namespace QueueConsumer

variable {Q T K : Type} [DecidableEq T] [Field K] [DecidableEq K]

def init (q : Q) : QueueConsumer Q T K := ⟨false, Link.start q, fun _ => none⟩

def Returns (pi : K) (fs : Functors T) (body : Value) (c : Computation T K) : Prop :=
  (∀ ts, TestSolveParam.ofJson body = .ok ts → MessageCallback.Schedules c.schedule ts) ∧
    messageCallback pi c.mesh fs body c.schedule = .ok c.handled

def Throws (pi : K) (fs : Functors T) (body : Value) : Prop :=
  ∃ mesh s, messageCallback pi mesh fs body s = .error (.fault .terminate) ∨
    ∃ e, messageCallback pi mesh fs body s = .error (.exn e)

variable (B : AckQueue Q Value) (pi : K)

def drop (p : QueueConsumer Q T K) : QueueConsumer Q T K :=
  { p with consuming := false, link := p.link.lose B }

/-- What can happen.  `onReceived` acknowledges when the callback has returned; a callback that
throws ends the event loop's thread, and with it the process and the functors of its threads.
The broker reads the acknowledgements that were sent before it reads the end of the connection. -/
inductive Step (p : QueueConsumer Q T K) : ConsumerAction T K → QueueConsumer Q T K → Prop
  | publish {body : Value} : Step p (.publish body)
    { p with link := p.link.publish B body }
  | consume : p.consuming = false → Step p .consume { p with consuming := true }
  | deliver {tag : Nat} {body : Value} {q : Q} : p.consuming = true →
    B.Delivers p.link.queue tag body q → Step p (.deliver tag body)
      { p with link := p.link.deliver tag body q }
  | onReceived {tag : Nat} {body : Value} {rest : List (Nat × Value)} {c : Computation T K} :
    p.link.inbox = (tag, body) :: rest → Returns pi p.functors body c → Step p (.onReceived c)
      { p with link := p.link.handle tag body rest c, functors := c.handled.functors }
  | acked {tag : Nat} {rest : List Nat} : p.link.acks = tag :: rest → Step p .acked
    { p with link := p.link.settle B tag rest }
  | disconnect : p.consuming = true → p.link.acks = [] → Step p .disconnect (p.drop B)
  | lost : p.consuming = true → Step p .lost (p.drop B)
  | terminated {tag : Nat} {body : Value} {rest : List (Nat × Value)} :
    p.link.inbox = (tag, body) :: rest → Throws pi p.functors body →
    Step p .terminated { p.drop B with functors := fun _ => none }

def Clean (p : QueueConsumer Q T K) : ConsumerAction T K → Prop
  | .lost | .terminated => p.link.acks = []
  | _ => True

def Handleable (body : Value) (c : Computation T K) : Prop := ∃ fs, Returns pi fs body c

variable {B pi} {p p' : QueueConsumer Q T K} {q : Q} {as : List (ConsumerAction T K)}

theorem Step.link {a : ConsumerAction T K} (h : Step B pi p a p') :
    a.toLink.elim (p'.link = p.link) fun b => Link.Step B (Handleable pi) p.link b p'.link := by
  cases h with
  | publish => exact .publish
  | consume => rfl
  | deliver _ hq => exact .deliver hq
  | onReceived hinbox hreturns => exact .handle hinbox ⟨_, hreturns⟩
  | acked hacks => exact .settle hacks
  | disconnect => exact .lose
  | lost => exact .lose
  | terminated => exact .lose

theorem accounted_of_run (hq : B.held q = 0) (run : Run (Step B pi) (init q) as p) :
    p.link.Accounted B (Handleable pi) (as.filterMap ConsumerAction.published) := by
  rw [← ConsumerAction.filterMap_published]
  exact Link.accounted_of_run hq
    (run.simulate QueueConsumer.link ConsumerAction.toLink fun _ _ _ h => h.link)

theorem repeated_of_clean (run : Run (Guarded (Step B pi) Clean) (init q) as p) :
    p.link.repeated = 0 := by
  suffices hrun : Run (Guarded (Link.Step B (Handleable pi)) Link.Clean) (Link.start q)
      (as.filterMap ConsumerAction.toLink) p.link from Link.repeated_of_clean hrun
  refine run.simulate QueueConsumer.link ConsumerAction.toLink ?_
  rintro p a p' ⟨hclean, hstep⟩
  have hlink := hstep.link
  cases hstep with
  | consume => exact hlink
  | disconnect _ hacks => exact ⟨hacks, hlink⟩
  | lost => exact ⟨hclean, hlink⟩
  | terminated => exact ⟨hclean, hlink⟩
  | _ => exact ⟨trivial, hlink⟩

theorem not_handleable {body : Value} {e : Exn} (h : TestSolveParam.ofJson body = .error e)
    (c : Computation T K) : ¬ Handleable pi body c := by
  rintro ⟨fs, -, hc⟩
  rw [messageCallback, h] at hc
  cases hc

def sampleBody (i : UInt64) : Value := (Worker.sampleMessage i Worker.uniformArgs).1.toJson.reread

theorem exists_returns [CharZero K] (hpi : pi ≠ 0) (mesh : Int → Valarray K)
    (hmesh : ∀ i, (mesh i).length = 175) {i : UInt64} (hi : i.toNat < 2 ^ 31 - 1) {args : Args}
    (hbody : TestSolveParam.ofJson (sampleBody i) = .ok (Worker.sampleMessage i args).1)
    (hargs : Generators.functorOf args = .ok (.uniform (.num 0) (.num 1))) (fs : Functors Nat) :
    ∃ c : Computation Nat K, Returns pi fs (sampleBody i) c ∧ c.mesh = mesh := by
  obtain ⟨h, hh⟩ : ∃ h, MessageCallback.nMessageCallback pi mesh fs
      (Worker.sampleMessage i args).1 (Worker.sampleMessage i args).2 = .ok h :=
    MessageCallback.exists_handled hpi hmesh fs hargs hi le_rfl _
  refine ⟨⟨(Worker.sampleMessage i args).2, mesh, h⟩, ⟨fun ts hts => ?_, ?_⟩, rfl⟩
  · cases hbody.symm.trans hts
    exact Worker.schedules_sample hi args
  · rw [messageCallback, hbody]
    exact hh

theorem exists_run_sample : ∃ (c : Computation Nat ℚ) (p : QueueConsumer (Fifo Value) Nat ℚ),
    Run (Guarded (Step (Fifo.queue Value) Worker.mPi) Clean) (init Fifo.empty)
      [.publish (sampleBody 0), .consume, .deliver 1 (sampleBody 0), .onReceived c, .acked] p ∧
    (Fifo.queue Value).held p.link.queue = 0 := by
  obtain ⟨c, hc, -⟩ := exists_returns Worker.mPi_ne_zero (fun _ => List.replicate 175 0)
    (fun _ => rfl) (i := 0) (by decide) rfl rfl fun _ => none
  refine ⟨c, _, (((((Run.single ⟨trivial, .publish⟩).snoc ⟨trivial, .consume rfl⟩).snoc
    ⟨trivial, .deliver rfl rfl⟩).snoc ⟨trivial, .onReceived rfl hc⟩).snoc
    ⟨trivial, .acked rfl⟩), rfl⟩

/-- At least once: a message that was published was handled, or the queue still holds it, whatever
happened to the connections and the process; a queue that holds nothing has had all handled. -/
theorem published_of_run (hq : B.held q = 0) (run : Run (Step B pi) (init q) as p) :
    (as.filterMap ConsumerAction.published : Multiset Value) ≤
        B.held p.link.queue + ↑(p.link.handled.map Prod.fst) ∧
      (B.held p.link.queue = 0 → ∀ body ∈ as.filterMap ConsumerAction.published,
        ∃ c fs, (body, c) ∈ p.link.handled ∧ Returns pi fs body c) := by
  have haccounted := accounted_of_run hq run
  refine ⟨haccounted.published_le, fun hheld body hbody => ?_⟩
  obtain ⟨c, hc⟩ := haccounted.mem_handled hheld hbody
  obtain ⟨fs, hfs⟩ := haccounted.handled _ hc
  exact ⟨c, fs, hc, hfs⟩

theorem published_of_run_sample : ∃ p : QueueConsumer (Fifo Value) Nat ℚ,
    (↑[sampleBody 0] : Multiset Value) ≤
        (Fifo.queue Value).held p.link.queue + ↑(p.link.handled.map Prod.fst) ∧
      ((Fifo.queue Value).held p.link.queue = 0 → ∀ body ∈ [sampleBody 0],
        ∃ c fs, (body, c) ∈ p.link.handled ∧ Returns Worker.mPi fs body c) ∧
      (Fifo.queue Value).held p.link.queue = 0 := by
  obtain ⟨_, p, run, hheld⟩ := exists_run_sample
  obtain ⟨hle, hall⟩ := published_of_run rfl (run.mono fun _ _ _ h => h.2)
  exact ⟨p, hle, hall, hheld⟩

/-- Exactly once, when no acknowledgement is lost: what is held and what was handled is what was
published, and again those whose acknowledgements are on their way. -/
theorem handled_of_run (hq : B.held q = 0)
    (run : Run (Guarded (Step B pi) Clean) (init q) as p) :
    B.held p.link.queue + ↑(p.link.handled.map Prod.fst) =
        ↑(as.filterMap ConsumerAction.published) + p.link.pending B ∧
      (B.held p.link.queue = 0 →
        (p.link.handled.map Prod.fst).Perm (as.filterMap ConsumerAction.published)) := by
  have haccounted := accounted_of_run hq (run.mono fun _ _ _ h => h.2)
  have hrepeated := repeated_of_clean run
  have hconserved := haccounted.conserved
  rw [hrepeated, add_zero] at hconserved
  exact ⟨hconserved, fun hheld => haccounted.perm_of_held hheld hrepeated⟩

theorem handled_of_run_sample : ∃ p : QueueConsumer (Fifo Value) Nat ℚ,
    (Fifo.queue Value).held p.link.queue + ↑(p.link.handled.map Prod.fst) =
        ↑[sampleBody 0] + p.link.pending (Fifo.queue Value) ∧
      ((Fifo.queue Value).held p.link.queue = 0 →
        (p.link.handled.map Prod.fst).Perm [sampleBody 0]) ∧
      (Fifo.queue Value).held p.link.queue = 0 := by
  obtain ⟨_, p, run, hheld⟩ := exists_run_sample
  obtain ⟨hconserved, hperm⟩ := handled_of_run rfl run
  exact ⟨p, hconserved, hperm, hheld⟩

open scoped Classical in
/-- A body that is no task is never acknowledged: each time it is received the process ends, and the
queue holds it as often as it was published. -/
theorem undecodable_of_run {body : Value} {e : Exn}
    (hbody : TestSolveParam.ofJson body = .error e) (hq : B.held q = 0)
    (run : Run (Step B pi) (init q) as p) :
    (as.filterMap ConsumerAction.published).count body ≤ (B.held p.link.queue).count body ∧
      (∀ x ∈ p.link.handled, x.1 ≠ body) ∧
      ∀ tag rest, p.link.inbox = (tag, body) :: rest → ∀ a p', Step B pi p a p' →
        p'.link.inbox.head? = some (tag, body) ∨ p'.consuming = false ∧ p'.link.inbox = [] := by
  have haccounted := accounted_of_run hq run
  refine ⟨haccounted.count_le_held (not_handleable hbody), ?_, ?_⟩
  · rintro ⟨_, c⟩ hx rfl
    exact not_handleable hbody c (haccounted.handled _ hx)
  · intro tag rest hinbox a p' hstep
    cases hstep with
    | deliver => exact .inl (by simp [hinbox])
    | onReceived hcons hreturns =>
      cases hinbox.symm.trans hcons
      exact absurd ⟨_, hreturns⟩ (not_handleable hbody _)
    | disconnect | lost | terminated => exact .inr ⟨rfl, rfl⟩
    | _ => exact .inl (by simp [hinbox])

open scoped Classical in
theorem undecodable_of_run_zero : ∃ p : QueueConsumer (Fifo Value) Nat ℚ,
    Run (Step (Fifo.queue Value) Worker.mPi) (init Fifo.empty)
      [.publish (.int 0), .consume, .deliver 1 (.int 0), .terminated] p ∧
    [Value.int 0].count (.int 0) ≤ ((Fifo.queue Value).held p.link.queue).count (.int 0) ∧
    (∀ x ∈ p.link.handled, x.1 ≠ .int 0) ∧
    ∀ tag rest, p.link.inbox = (tag, .int 0) :: rest → ∀ a p',
      Step (Fifo.queue Value) Worker.mPi p a p' →
        p'.link.inbox.head? = some (tag, .int 0) ∨ p'.consuming = false ∧ p'.link.inbox = [] := by
  have run : Run (Step (K := ℚ) (T := Nat) (Fifo.queue Value) Worker.mPi) (init Fifo.empty)
      [.publish (.int 0), .consume, .deliver 1 (.int 0), .terminated] _ :=
    (((Run.single .publish).snoc (.consume rfl)).snoc (.deliver rfl rfl)).snoc
      (.terminated rfl ⟨fun _ => [], ⟨[], []⟩, .inr ⟨_, rfl⟩⟩)
  exact ⟨_, run, undecodable_of_run (show TestSolveParam.ofJson (.int 0) = .error _ from rfl) rfl
    run⟩

end QueueConsumer

end DistributedMathArh
