import DistributedMathArh.CompNode.Consumption
import DistributedMathArh.CompNode.Requests

namespace DistributedMathArh

open Acknowledged Json Transition

def ParsedBody.Readable (realText : Double → String) (body : ParsedBody) : Prop :=
  body.successful ∧ ∃ i, ComputationNode.connectInput realText body.val = .ok i

namespace ComputationNode

theorem connectRequest_cases (realText : Double → String) (n : ComputationNode) (body : ParsedBody)
    (error : String) :
    ((n.connectRequest realText body error).1 = n ∧
      Halt.alive (n.connectRequest realText body error).2 ∧
      (n.consumer.isConnected ∨ ¬body.Readable realText)) ∨
    (n.consumer.isConnected = false ∧ ∃ c name,
      (n.connectRequest realText body error).1 =
        { n with consumer := ((n.consumer.setParameters c name).connect error).1 } ∧
      Halt.alive (n.connectRequest realText body error).2 =
        Halt.alive ((n.consumer.setParameters c name).connect error).2) := by
  cases hbody : body.successful with
  | false =>
    refine .inl ?_
    have hread : ¬body.Readable realText := fun h => by cases hbody.symm.trans h.1
    unfold connectRequest
    rw [hbody, if_neg Bool.false_ne_true]
    cases Value.set "status" (.int 415) body.val with
    | error e => exact ⟨rfl, rfl, .inr hread⟩
    | ok v => exact ⟨rfl, rfl, .inr hread⟩
  | true =>
    unfold connectRequest
    rw [hbody, if_pos rfl]
    cases hinput : connectInput realText body.val with
    | error e =>
      refine .inl ?_
      simp only [connect, hinput]
      refine ⟨trivial, rfl, .inr ?_⟩
      rintro ⟨-, i, hi⟩
      cases hinput.symm.trans hi
    | ok i =>
      rw [connect_of_input hinput]
      cases hconn : n.consumer.isConnected with
      | true => exact .inl ⟨rfl, rfl, .inl rfl⟩
      | false =>
        refine .inr ⟨rfl, i.cString, i.name, ?_⟩
        rw [if_neg Bool.false_ne_true]
        cases hp : (n.consumer.setParameters i.cString i.name).connect error with
        | mk p res =>
          cases res with
          | ok u => exact ⟨rfl, rfl⟩
          | error h =>
            cases h with
            | fault f => exact ⟨rfl, rfl⟩
            | exn e => cases e <;> exact ⟨rfl, rfl⟩

end ComputationNode

/-- The queues are known by their broker and their name. -/
structure WorkerProcess (Q T K : Type) where
  node : ComputationNode
  functors : Functors T
  links : String × String → Link Q Value (Computation T K)

inductive ProcessAction (T K : Type)
  | connect (body : ParsedBody) (error : String)
  | disconnect
  | benched (bench : BenchResVec)
  | publish (queue : String × String) (body : Value)
  | deliver (tag : Nat) (body : Value)
  | onReceived (c : Computation T K)
  | acked
  | lost
  | terminated

def ProcessAction.publishedTo {T K : Type} (k : String × String) : ProcessAction T K → Option Value
  | .publish queue body => if queue = k then some body else none
  | _ => none

namespace WorkerProcess

variable {Q T K : Type} [DecidableEq T] [Field K] [DecidableEq K]

def init (q : Q) : WorkerProcess Q T K := ⟨.init, fun _ => none, fun _ => Link.start q⟩

def source (p : WorkerProcess Q T K) : Option (String × String) :=
  p.node.consumer.connection.map fun c => (c.hostPort, p.node.consumer.queue)

def setLink (p : WorkerProcess Q T K) (k : String × String) (l : Link Q Value (Computation T K)) :
    WorkerProcess Q T K := { p with links := Function.update p.links k l }

variable (B : AckQueue Q Value) (pi : K) (realText : Double → String)

def dropLink (p : WorkerProcess Q T K) : WorkerProcess Q T K :=
  match p.source with
  | none => p
  | some k => p.setLink k ((p.links k).lose B)

def restart (p : WorkerProcess Q T K) : WorkerProcess Q T K :=
  { p.dropLink B with node := .init, functors := fun _ => none }

/-- One request or one event.  The process ends with a request that assigns over a thread, and with
an exception of the callback. -/
inductive Step (p : WorkerProcess Q T K) : ProcessAction T K → WorkerProcess Q T K → Prop
  | connect {body : ParsedBody} {error : String} :
    Halt.alive (p.node.connectRequest realText body error).2 → Step p (.connect body error)
      { p with node := (p.node.connectRequest realText body error).1 }
  | disconnect : (∀ k, p.source = some k → (p.links k).acks = []) → Step p .disconnect
    { p.dropLink B with node := p.node.disconnect.1 }
  | benched {bench : BenchResVec} : Step p (.benched bench)
    { p with node := { p.node with benchRes := bench } }
  | publish {k : String × String} {body : Value} : Step p (.publish k body)
    (p.setLink k ((p.links k).publish B body))
  | deliver {k : String × String} {tag : Nat} {body : Value} {q : Q} : p.source = some k →
    B.Delivers (p.links k).queue tag body q → Step p (.deliver tag body)
      (p.setLink k ((p.links k).deliver tag body q))
  | onReceived {k : String × String} {tag : Nat} {body : Value} {rest : List (Nat × Value)}
    {c : Computation T K} : p.source = some k → (p.links k).inbox = (tag, body) :: rest →
    QueueConsumer.Returns pi p.functors body c → Step p (.onReceived c)
      { p.setLink k ((p.links k).handle tag body rest c) with functors := c.handled.functors }
  | acked {k : String × String} {tag : Nat} {rest : List Nat} : p.source = some k →
    (p.links k).acks = tag :: rest → Step p .acked
      (p.setLink k ((p.links k).settle B tag rest))
  | lost {k : String × String} : p.source = some k → Step p .lost
    { p.dropLink B with node := { p.node with consumer := p.node.consumer.closed } }
  | refused {body : ParsedBody} {error : String} :
    Halt.alive (p.node.connectRequest realText body error).2 = false →
    Step p .terminated (p.restart B)
  | thrown {k : String × String} {tag : Nat} {body : Value} {rest : List (Nat × Value)} :
    p.source = some k → (p.links k).inbox = (tag, body) :: rest →
    QueueConsumer.Throws pi p.functors body → Step p .terminated (p.restart B)

variable {B pi realText} {p p' : WorkerProcess Q T K} {q : Q} {k : String × String}
  {a : ProcessAction T K} {as : List (ProcessAction T K)}

omit [DecidableEq T] [Field K] [DecidableEq K] in
theorem links_dropLink (p : WorkerProcess Q T K) (k : String × String) :
    (p.dropLink B).links k = p.links k ∨
      ∀ ok, Link.Step B ok (p.links k) .lose ((p.dropLink B).links k) := by
  unfold dropLink
  cases hsource : p.source with
  | none => exact .inl rfl
  | some k' =>
    by_cases hk : k = k'
    · subst hk
      refine .inr fun ok => ?_
      simp only [setLink, Function.update_self]
      exact .lose
    · refine .inl ?_
      simp only [setLink, Function.update_of_ne hk]

theorem Step.link (h : Step B pi realText p a p') (k : String × String) :
    (p'.links k = p.links k ∧ a.publishedTo k = none) ∨
      ∃ b, Link.Step B (QueueConsumer.Handleable pi) (p.links k) b (p'.links k) ∧
        b.published = a.publishedTo k := by
  have hdrop : ((p.dropLink B).links k = p.links k ∧ (none : Option Value) = none) ∨
      ∃ b, Link.Step B (QueueConsumer.Handleable pi) (p.links k) b ((p.dropLink B).links k) ∧
        b.published = none :=
    (p.links_dropLink k).imp (fun h => ⟨h, rfl⟩) fun h => ⟨.lose, h _, rfl⟩
  have hset {k' : String × String} {l : Link Q Value (Computation T K)}
      {b : Acknowledged.Action Value (Computation T K)}
      (hl : Link.Step B (QueueConsumer.Handleable pi) (p.links k') b l)
      (ha : a.publishedTo k = if k' = k then b.published else none) :
      ((p.setLink k' l).links k = p.links k ∧ a.publishedTo k = none) ∨
        ∃ b, Link.Step B (QueueConsumer.Handleable pi) (p.links k) b ((p.setLink k' l).links k) ∧
          b.published = a.publishedTo k := by
    by_cases hk : k' = k
    · subst hk
      refine .inr ⟨b, ?_, by rw [ha, if_pos rfl]⟩
      simpa only [setLink, Function.update_self] using hl
    · exact .inl ⟨Function.update_of_ne (Ne.symm hk) _ _, by rw [ha, if_neg hk]⟩
  cases h with
  | connect => exact .inl ⟨rfl, rfl⟩
  | benched => exact .inl ⟨rfl, rfl⟩
  | disconnect => exact hdrop
  | lost => exact hdrop
  | refused => exact hdrop
  | thrown => exact hdrop
  | publish => exact hset .publish rfl
  | deliver _ hq => exact hset (.deliver hq) (ite_self none).symm
  | onReceived _ hinbox hreturns => exact hset (.handle hinbox ⟨_, hreturns⟩) (ite_self none).symm
  | acked _ hacks => exact hset (.settle hacks) (ite_self none).symm

omit [DecidableEq T] [Field K] [DecidableEq K] in
theorem filterMap_snoc (k : String × String) (as : List (ProcessAction T K))
    (a : ProcessAction T K) : (as ++ [a]).filterMap (ProcessAction.publishedTo k) =
      as.filterMap (ProcessAction.publishedTo k) ++ (a.publishedTo k).toList := by
  cases ha : a.publishedTo k <;> simp [ha]

theorem accounted_of_run (hq : B.held q = 0) (run : Run (Step B pi realText) (init q) as p)
    (k : String × String) : (p.links k).Accounted B (QueueConsumer.Handleable pi)
      (as.filterMap (ProcessAction.publishedTo k)) := by
  refine run.invariant_trace (I := fun as p => (p.links k).Accounted B
    (QueueConsumer.Handleable pi) (as.filterMap (ProcessAction.publishedTo k)))
    (Link.accounted_start hq) ?_
  intro as p a p' hp hstep
  rw [filterMap_snoc]
  rcases hstep.link k with ⟨hlink, hnone⟩ | ⟨b, hlink, hb⟩
  · rw [hlink, hnone, Option.toList_none, List.append_nil]
    exact hp
  · rw [← hb]
    exact hp.step hlink

def Threaded (p : WorkerProcess Q T K) : Prop :=
  p.node.consumer.isConnected → p.node.consumer.joinable

omit [DecidableEq T] [Field K] [DecidableEq K] in
@[simp] theorem node_dropLink (p : WorkerProcess Q T K) : (p.dropLink B).node = p.node := by
  unfold dropLink
  split <;> rfl

theorem threaded_step (h : Threaded p) (hstep : Step B pi realText p a p') : Threaded p' := by
  cases hstep with
  | connect halive =>
    rename_i body error
    rcases p.node.connectRequest_cases realText body error with
      ⟨hsame, -⟩ | ⟨hidle, c, name, hn, -⟩
    · rwa [Threaded, hsame]
    · have hidle' : (p.node.consumer.setParameters c name).isConnected = false := hidle
      rw [Threaded, hn]
      exact Consumer.joinable_connect hidle'
  | disconnect =>
    unfold Threaded ComputationNode.disconnect
    split
    · exact h
    · exact fun hconn => by cases hconn
  | lost => exact fun hconn => by cases hconn
  | refused => exact fun hconn => by cases hconn
  | thrown => exact fun hconn => by cases hconn
  | _ => exact h

theorem threaded_of_run (run : Run (Step B pi realText) (init q) as p) : Threaded p :=
  run.invariant (I := Threaded) (fun _ _ _ h => threaded_step h) fun h => by cases h

def Stranded (p : WorkerProcess Q T K) : Prop := p.node.consumer.Stranded

namespace Stranded

omit [DecidableEq T] [Field K] [DecidableEq K] in
theorem source_eq (h : Stranded p) : p.source = none := by
  have hnone : p.node.consumer.connection = none := by
    simpa [AMQPService.isConnected] using h.idle
  rw [source, hnone, Option.map_none]

omit [DecidableEq T] [Field K] [DecidableEq K] in
theorem connectRequest (h : Stranded p) (body : ParsedBody) (error : String) :
    (Halt.alive (p.node.connectRequest realText body error).2 → ¬body.Readable realText) ∧
      (Halt.alive (p.node.connectRequest realText body error).2 →
        (p.node.connectRequest realText body error).1 = p.node) := by
  rcases p.node.connectRequest_cases realText body error with
    ⟨hsame, -, hread⟩ | ⟨-, c, name, -, halive⟩
  · have hidle : ¬p.node.consumer.isConnected := by simp [h.idle]
    exact ⟨fun _ => hread.resolve_left hidle, fun _ => hsame⟩
  · have hdead : Halt.alive ((p.node.consumer.setParameters c name).connect error).2 = false :=
      AMQPService.Stranded.not_alive_connect h _ c error
    rw [halive, hdead]
    exact ⟨nofun, nofun⟩

theorem step (h : Stranded p) (hstep : Step B pi realText p a p') (hend : a ≠ .terminated) :
    Stranded p' ∧ ∀ k, (p'.links k).handled = (p.links k).handled ∧
      B.held (p'.links k).queue = B.held (p.links k).queue + ↑(a.publishedTo k).toList := by
  have hsource := h.source_eq
  have hdrop : p.dropLink B = p := by rw [dropLink, hsource]
  cases hstep with
  | connect halive =>
    rename_i body error
    rw [(h.connectRequest body error).2 halive]
    exact ⟨h, fun k => ⟨rfl, (add_zero _).symm⟩⟩
  | disconnect =>
    have hnode : p.node.disconnect.1 = p.node := by simp [ComputationNode.disconnect, h.idle]
    rw [hnode, hdrop]
    exact ⟨h, fun k => ⟨rfl, (add_zero _).symm⟩⟩
  | benched => exact ⟨h, fun k => ⟨rfl, (add_zero _).symm⟩⟩
  | publish =>
    rename_i k' body
    refine ⟨h, fun k => ?_⟩
    by_cases hk : k' = k
    · subst hk
      simp [setLink, ProcessAction.publishedTo, B.held_publish, ← Multiset.singleton_add, add_comm]
    · simp [setLink, ProcessAction.publishedTo, hk, Function.update_of_ne (Ne.symm hk)]
  | refused => exact absurd rfl hend
  | thrown => exact absurd rfl hend
  | deliver hsome => cases hsource.symm.trans hsome
  | onReceived hsome => cases hsource.symm.trans hsome
  | acked hsome => cases hsource.symm.trans hsome
  | lost hsome => cases hsource.symm.trans hsome

theorem of_run (h : Stranded p) (run : Run (Step B pi realText) p as p')
    (hend : .terminated ∉ as) :
    Stranded p' ∧ ∀ k, (p'.links k).handled = (p.links k).handled ∧
      B.held (p'.links k).queue =
        B.held (p.links k).queue + ↑(as.filterMap (ProcessAction.publishedTo k)) := by
  induction run with
  | nil => exact ⟨h, fun k => ⟨rfl, (add_zero _).symm⟩⟩
  | snoc run hstep ih =>
    rename_i as p₁ a p₂
    obtain ⟨hp₁, hlinks⟩ := ih fun hmem => hend (List.mem_append_left _ hmem)
    have ha : a ≠ .terminated := by
      rintro rfl
      exact hend (List.mem_append_right _ (List.mem_singleton_self _))
    obtain ⟨hp₂, hlinks'⟩ := hp₁.step hstep ha
    refine ⟨hp₂, fun k => ⟨(hlinks' k).1.trans (hlinks k).1, ?_⟩⟩
    rw [(hlinks' k).2, (hlinks k).2, filterMap_snoc, ← Multiset.coe_add, add_assoc]

end Stranded

theorem stranded_of_lost (h : Threaded p) (hlost : Step B pi realText p .lost p') :
    Stranded p' ∧ ∀ k, (p'.links k).handled = (p.links k).handled ∧
      B.held (p'.links k).queue = B.held (p.links k).queue := by
  cases hlost with
  | lost hsource =>
    obtain ⟨c, hc, -⟩ := Option.map_eq_some_iff.mp hsource
    have hconn : p.node.consumer.isConnected := by rw [AMQPService.isConnected, hc]; rfl
    refine ⟨AMQPService.stranded_closed (h hconn), fun k => ?_⟩
    unfold dropLink
    rw [hsource]
    rename_i k'
    by_cases hk : k = k'
    · subst hk
      simp [setLink, B.held_requeue]
    · simp [setLink, Function.update_of_ne hk]

/-- A lost connection silences the worker for the rest of its process' life: it consumes nothing and
handles nothing, a request to connect that can be read ends the process, and in every queue waits
all that was published before or since and had not been handled by then. -/
theorem silent_of_lost (hq : B.held q = 0) (run : Run (Step B pi realText) (init q) as p)
    {p₀ : WorkerProcess Q T K} (hlost : Step B pi realText p .lost p₀)
    {as' : List (ProcessAction T K)} (run' : Run (Step B pi realText) p₀ as' p')
    (hend : .terminated ∉ as') :
    p'.source = none ∧
      (∀ body error, body.Readable realText →
        Halt.alive (p'.node.connectRequest realText body error).2 = false) ∧
      ∀ k, (p'.links k).handled = (p.links k).handled ∧
        B.held (p'.links k).queue =
          B.held (p.links k).queue + ↑(as'.filterMap (ProcessAction.publishedTo k)) ∧
        (as.filterMap (ProcessAction.publishedTo k) : Multiset Value) +
            ↑(as'.filterMap (ProcessAction.publishedTo k)) ≤
          B.held (p'.links k).queue + ↑((p.links k).handled.map Prod.fst) := by
  obtain ⟨hstranded, hlinks⟩ := stranded_of_lost (threaded_of_run run) hlost
  obtain ⟨hstranded', hlinks'⟩ := hstranded.of_run run' hend
  refine ⟨hstranded'.source_eq, fun body error hread => ?_, fun k => ?_⟩
  · exact Bool.eq_false_iff.mpr fun halive => (hstranded'.connectRequest body error).1 halive hread
  · obtain ⟨hhandled, hheld⟩ := hlinks k
    obtain ⟨hhandled', hheld'⟩ := hlinks' k
    rw [hheld] at hheld'
    refine ⟨hhandled'.trans hhandled, hheld', ?_⟩
    rw [hheld', add_right_comm]
    exact add_le_add_left (accounted_of_run hq run k).published_le _

def sampleQueue : String × String := ("mq:5672", "w")

theorem silent_of_lost_sample : ∃ p p' : WorkerProcess (Fifo Value) Nat ℚ,
    p.source = some sampleQueue ∧ p'.source = none ∧
      (Fifo.queue Value).held (p'.links sampleQueue).queue = {.int 0, .int 1} ∧
      ∀ k, (p'.links k).handled = (p.links k).handled := by
  have run : Run (Step (T := Nat) (K := ℚ) (Fifo.queue Value) Worker.mPi fun _ => "")
      (init Fifo.empty) [.connect ⟨true, ComputationNode.sampleBody⟩ "",
        .publish sampleQueue (.int 0)] _ := (Run.single (.connect rfl)).snoc .publish
  have hsilent := silent_of_lost (q := Fifo.empty) rfl run (.lost rfl)
    (Run.single (Step.publish : Step _ _ _ _ (.publish sampleQueue (.int 1)) _)) (by simp)
  refine ⟨_, _, rfl, hsilent.1, ?_, fun k => (hsilent.2.2 k).1⟩
  rfl

end WorkerProcess

end DistributedMathArh
