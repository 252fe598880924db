import Mathlib.Logic.Relation
import DistributedMathArh.Network.EventLoop

namespace DistributedMathArh.EventLoop

open Transition

variable {s t : EventLoop} {a : Action}

def Open (s : EventLoop) : Prop :=
  s.caller = .idle ∨ s.caller = .waiting ∧ s.promise = some ""

instance (s : EventLoop) : Decidable s.Open := inferInstanceAs (Decidable (_ ∨ _))

structure Sound (s : EventLoop) : Prop where
  alive : s.caller ≠ .terminated
  running : s.thread = .running → s.io.stopped = false
  loop : s.phase ≠ none → s.phase ≠ some .ended → s.thread = .running ∧ s.work = true
  connected : s.connected = true ↔ s.phase = some .established ∨ s.phase = some .ready
  opened : s.Open → s.phase ≠ some .opening
  named : s.connection ≠ none → s.cString ≠ none
  waiting : s.caller = .waiting → s.thread ≠ .none ∧ s.connection.map Connection.cString = s.cString

theorem sound_init : Sound init where
  alive := by decide
  running := by decide
  loop := by decide
  connected := by decide
  opened := by decide
  named := by decide
  waiting := by decide

@[simp] theorem phase_advance (s : EventLoop) (p : Phase) :
    (s.advance p).phase = s.phase.map fun _ => p := by
  simp [phase, advance, Function.comp_def]

@[simp] theorem phase_lose (s : EventLoop) : s.lose.phase = s.phase.map fun _ => .ended := by
  simp [phase, lose, Function.comp_def]

@[simp] theorem cString_advance (s : EventLoop) (p : Phase) :
    (s.advance p).connection.map Connection.cString = s.connection.map Connection.cString := by
  simp [advance, Function.comp_def]

@[simp] theorem cString_lose (s : EventLoop) :
    s.lose.connection.map Connection.cString = s.connection.map Connection.cString := by
  simp [lose, Function.comp_def]

inductive Stepped (s : EventLoop) : Action → EventLoop → Prop
  | setParameters {c : AMQPSQLCStr} : s.caller = .idle →
    Stepped s (.setParameters c) { s with cString := some c }
  | connect : s.caller = .idle → Stepped s .connect s.connect
  | connectReturns {error : String} : s.caller = .waiting → s.promise = some error →
    Stepped s .connectReturns (s.connectReturns error)
  | disconnect : s.caller = .idle → Stepped s .disconnect (s.postClose none)
  | joined {error : Option String} : s.caller = .closing error → s.thread ≠ .running →
    Stepped s .joined s.release
  | runHandler {k : Nat} {rest : List Nat} : s.io.posted = k :: rest → s.Runs →
    Stepped s .runHandler { s with io := { s.io with posted := rest } }
  | onConnected : s.Runs → s.phase = some .opening →
    Stepped s .onConnected { s.advance .established with connected := true }
  | onClosed : s.Runs → s.phase ≠ none → Stepped s .onClosed s.lose
  | onError : s.Runs → s.phase ≠ none → Stepped s .onError s.lose
  | onReady : s.Runs → s.phase = some .established →
    Stepped s .onReady ((s.advance .ready).setPromise "")
  | onChannelError {message : String} : message ≠ "" →
    Stepped s (.onChannelError message) (s.setPromise message)
  | loopReturns : s.thread = .running → s.io.Returns s.work →
    Stepped s .loopReturns { s with thread := .finished, io := s.io.stop }

theorem stepped_of_step (hstep : s.step a = some t) : Stepped s a t := by
  cases a with
  | setParameters c =>
    obtain ⟨hidle, ⟨⟩⟩ := Option.ite_none_right_eq_some.mp hstep
    exact .setParameters hidle
  | connect =>
    obtain ⟨hidle, ⟨⟩⟩ := Option.ite_none_right_eq_some.mp hstep
    exact .connect hidle
  | connectReturns =>
    obtain ⟨hw, hmap⟩ := Option.ite_none_right_eq_some.mp hstep
    obtain ⟨error, hp, rfl⟩ := Option.map_eq_some_iff.mp hmap
    exact .connectReturns hw hp
  | disconnect =>
    obtain ⟨hidle, ⟨⟩⟩ := Option.ite_none_right_eq_some.mp hstep
    exact .disconnect hidle
  | joined =>
    simp only [step] at hstep
    split at hstep
    · obtain ⟨ht, ⟨⟩⟩ := Option.ite_none_left_eq_some.mp hstep
      exact .joined ‹_› ht
    · cases hstep
  | runHandler =>
    simp only [step] at hstep
    split at hstep
    · obtain ⟨hruns, ⟨⟩⟩ := Option.ite_none_right_eq_some.mp hstep
      exact .runHandler ‹_› hruns
    · cases hstep
  | onConnected =>
    obtain ⟨⟨hruns, hp⟩, ⟨⟩⟩ := Option.ite_none_right_eq_some.mp hstep
    exact .onConnected hruns hp
  | onClosed =>
    obtain ⟨⟨hruns, hp⟩, ⟨⟩⟩ := Option.ite_none_right_eq_some.mp hstep
    exact .onClosed hruns fun hnone => by simp [hnone] at hp
  | onError =>
    obtain ⟨⟨hruns, hp, -⟩, ⟨⟩⟩ := Option.ite_none_right_eq_some.mp hstep
    exact .onError hruns hp
  | onReady =>
    obtain ⟨⟨hruns, hp⟩, ⟨⟩⟩ := Option.ite_none_right_eq_some.mp hstep
    exact .onReady hruns hp
  | onChannelError message =>
    obtain ⟨⟨-, -, hm⟩, ⟨⟩⟩ := Option.ite_none_right_eq_some.mp hstep
    exact .onChannelError hm
  | loopReturns =>
    obtain ⟨⟨-, ht, hret⟩, ⟨⟩⟩ := Option.ite_none_right_eq_some.mp hstep
    exact .loopReturns ht hret

namespace Sound

theorem thread_of_connected (h : s.Sound) (hc : s.connected = true) : s.thread = .running := by
  cases h.connected.mp hc with
  | inl hp => exact (h.loop (by simp [hp]) (by simp [hp])).1
  | inr hp => exact (h.loop (by simp [hp]) (by simp [hp])).1

theorem connect_cases (h : s.Sound) :
    (s.connected = true ∧ s.connect = s) ∨
    (s.connected = false ∧ s.cString = none ∧ s.connect = s.prepare) ∨
    ∃ c, s.connected = false ∧ s.cString = some c ∧
      s.connect = (s.prepare.makeConnection c).startThread := by
  unfold EventLoop.connect
  cases hc : s.connected with
  | true => exact .inl ⟨rfl, if_pos rfl⟩
  | false =>
    have hready : ¬ (s.prepare.connected = true ∨ s.prepare.phase = some .ready) := by
      intro hor
      have hconn : s.connected = true := hor.elim id fun hp => h.connected.mpr (.inr hp)
      simp [hc] at hconn
    rw [reconnect, if_neg hready]
    cases hs : s.cString with
    | none => exact .inr (.inl ⟨rfl, rfl, by simp [prepare, hs]⟩)
    | some c => exact .inr (.inr ⟨c, rfl, rfl, by simp [prepare, hs]⟩)

theorem connect (h : s.Sound) (hidle : s.caller = .idle) :
    s.connect.Sound ∨ s.connect.caller = .terminated := by
  obtain ⟨-, hs⟩ | ⟨-, -, hs⟩ | ⟨c, hc, hstring, hs⟩ := h.connect_cases <;> rw [hs]
  · exact .inl h
  · exact .inl { h with
      running := fun _ => rfl
      loop := fun hp he => ⟨(h.loop hp he).1, rfl⟩
      opened := fun _ => h.opened (.inl hidle)
      waiting := fun hw => by simp [prepare, hidle] at hw }
  · unfold startThread
    split
    · refine .inl ⟨by simp, fun _ => rfl, fun _ _ => ⟨rfl, rfl⟩, ?_, ?_, ?_, ?_⟩
      · simp [prepare, makeConnection, hc, phase]
      · simp [Open, prepare, makeConnection]
      · simp [prepare, makeConnection, hstring]
      · simp [prepare, makeConnection, hstring]
    · exact .inr rfl

theorem postClose (h : s.Sound) (error : Option String) : (s.postClose error).Sound :=
  { h with
    alive := by simp [EventLoop.postClose]
    opened := by simp [EventLoop.postClose, Open]
    waiting := by simp [EventLoop.postClose] }

theorem connectReturns (h : s.Sound) (hw : s.caller = .waiting) {error : String}
    (hp : s.promise = some error) : (s.connectReturns error).Sound := by
  unfold EventLoop.connectReturns
  split
  · rename_i herror
    exact { h with
      alive := by simp
      opened := fun _ => h.opened (.inr ⟨hw, herror ▸ hp⟩)
      waiting := by simp }
  · exact h.postClose _

theorem release (h : s.Sound) (ht : s.thread ≠ .running) : s.release.Sound where
  alive := by simp [EventLoop.release]
  running := by simp [EventLoop.release]
  loop := by simp [EventLoop.release, phase]
  connected := by
    have hc : s.connected = false := by
      cases hc : s.connected with
      | true => exact absurd (h.thread_of_connected hc) ht
      | false => rfl
    simp [EventLoop.release, phase, hc]
  opened := by simp [EventLoop.release, phase]
  named := by simp [EventLoop.release]
  waiting := by simp [EventLoop.release]

theorem lose (h : s.Sound) : s.lose.Sound where
  alive := h.alive
  running := h.running
  loop := by cases hp : s.phase <;> simp [hp]
  connected := by
    have hc : s.lose.connected = false := rfl
    cases hp : s.phase <;> simp [hp, hc]
  opened := by cases hp : s.phase <;> simp [hp]
  named hn := h.named fun hnone => hn (by simp [EventLoop.lose, hnone])
  waiting hw := by
    rw [cString_lose]
    exact h.waiting hw

theorem established (h : s.Sound) (hp : s.phase = some .opening) :
    Sound { s.advance .established with connected := true } := by
  have hphase : phase { s.advance .established with connected := true } = some .established :=
    (phase_advance s _).trans (by rw [hp]; rfl)
  have hloop := h.loop (by simp [hp]) (by simp [hp])
  exact
    { alive := h.alive
      running := h.running
      loop := fun _ _ => hloop
      connected := by simp [hphase]
      opened := by simp [hphase]
      named := fun hn => h.named fun hnone => hn (by simp [advance, hnone])
      waiting := fun hw => (h.waiting hw).imp_right fun hc => (cString_advance s _).trans hc }

theorem ready (h : s.Sound) (hp : s.phase = some .established) :
    ((s.advance .ready).setPromise "").Sound := by
  have hphase : ((s.advance .ready).setPromise "").phase = some .ready :=
    (phase_advance s _).trans (by rw [hp]; rfl)
  have hloop := h.loop (by simp [hp]) (by simp [hp])
  exact
    { alive := h.alive
      running := h.running
      loop := fun _ _ => hloop
      connected := by
        rw [hphase]
        exact iff_of_true (h.connected.mpr (.inl hp)) (.inr rfl)
      opened := by simp [hphase]
      named := fun hn => h.named fun hnone => hn (by simp [advance, EventLoop.setPromise, hnone])
      waiting := fun hw => (h.waiting hw).imp_right fun hc => (cString_advance s _).trans hc }

theorem setPromise (h : s.Sound) {message : String} (hm : message ≠ "") :
    (s.setPromise message).Sound :=
  { h with
    opened := fun hopen => h.opened (by
      cases hp : s.promise <;> simp_all [Open, EventLoop.setPromise]) }

theorem loopReturns (h : s.Sound) (ht : s.thread = .running) (hret : s.io.Returns s.work) :
    Sound { s with thread := .finished, io := s.io.stop } where
  alive := h.alive
  running := by simp
  loop hp he := by
    have hw := (h.loop hp he).2
    cases hret with
    | inl hs => simp [h.running ht] at hs
    | inr hw' => simp [hw] at hw'
  connected := h.connected
  opened := h.opened
  named := h.named
  waiting hw := ⟨by simp, (h.waiting hw).2⟩

end Sound

theorem sound_step (h : s.Sound) (hstep : s.step a = some t) :
    t.Sound ∨ t.caller = .terminated := by
  cases stepped_of_step hstep with
  | setParameters hidle =>
    exact .inl { h with
      named := fun _ => by simp
      waiting := fun hw => by simp [hidle] at hw }
  | connect hidle => exact h.connect hidle
  | connectReturns hw hp => exact .inl (h.connectReturns hw hp)
  | disconnect hidle => exact .inl (h.postClose none)
  | joined _ ht => exact .inl (h.release ht)
  | runHandler _ _ => exact .inl { h with }
  | onConnected _ hp => exact .inl (h.established hp)
  | onClosed _ _ => exact .inl h.lose
  | onError _ _ => exact .inl h.lose
  | onReady _ hp => exact .inl (h.ready hp)
  | onChannelError hm => exact .inl (h.setPromise hm)
  | loopReturns ht hret => exact .inl (h.loopReturns ht hret)

theorem step_connect (h : s.caller = .idle) : s.step .connect = some s.connect := if_pos h

theorem step_of_terminated (h : s.caller = .terminated) : s.step a = none := by
  cases a <;> simp [step, h, Runs]
  split <;> rfl

theorem sound_of_run {as : List Action} (run : Run (ofFun step) init as s) :
    s.Sound ∨ s.caller = .terminated := by
  apply run.invariant _ (.inl sound_init)
  intro s a t hs hstep
  cases hs with
  | inl hs => exact sound_step hs hstep
  | inr hs => exact absurd hstep (by simp [ofFun, step_of_terminated hs])

section Terminate

/-- The broker only ends a connection whose `Connect` has not succeeded yet, or whose `Disconnect`
has been called. -/
def Undisturbed (s : EventLoop) : Action → Prop
  | .onClosed => ¬ s.Open
  | .onError => ¬ s.Open
  | _ => True

structure Quiet (s : EventLoop) : Prop extends Sound s where
  idle : s.caller = .idle → s.connected = false → s.thread = .none
  promised : s.caller = .waiting → s.promise = some "" → s.connected = true

theorem quiet_init : Quiet init where
  toSound := sound_init
  idle := by decide
  promised := by decide

theorem Quiet.of_not_open (h : s.Sound) (hopen : ¬ s.Open) : s.Quiet where
  toSound := h
  idle hidle := absurd (.inl hidle) hopen
  promised hw hp := absurd (.inr ⟨hw, hp⟩) hopen

theorem Quiet.connect (h : s.Quiet) (hidle : s.caller = .idle) : s.connect.Quiet := by
  obtain ⟨hc, hs⟩ | ⟨hc, -, hs⟩ | ⟨c, hc, hstring, hs⟩ := h.toSound.connect_cases
  · rw [hs]
    exact h
  · have hsound := h.toSound.connect hidle
    rw [hs] at hsound ⊢
    refine ⟨hsound.resolve_right (by simp [prepare, hidle]), h.idle, ?_⟩
    simp [prepare]
  · have hsound := h.toSound.connect hidle
    have hthread : (s.prepare.makeConnection c).thread = .none := h.idle hidle hc
    rw [hs, startThread, if_pos hthread] at hsound ⊢
    apply Quiet.of_not_open (hsound.resolve_right (by simp))
    simp [Open, prepare, makeConnection]

theorem quiet_step (h : s.Quiet) (hu : Undisturbed s a) (hstep : s.step a = some t) : t.Quiet := by
  have hsound := sound_step h.toSound hstep
  cases stepped_of_step hstep with
  | setParameters hidle => exact ⟨hsound.resolve_right (by simp [hidle]), h.idle, h.promised⟩
  | connect hidle => exact h.connect hidle
  | connectReturns hw hp =>
    have hs := h.toSound.connectReturns hw hp
    unfold connectReturns at hs ⊢
    split
    · rename_i herror
      have hconn := h.promised hw (herror ▸ hp)
      exact ⟨by simpa [herror] using hs, fun _ hc => by simp [hconn] at hc, by simp⟩
    · rename_i herror
      exact .of_not_open (by simpa [herror] using hs) (by simp [Open, postClose])
  | disconnect hidle => exact .of_not_open (h.toSound.postClose none) (by simp [Open, postClose])
  | joined _ ht => exact ⟨h.toSound.release ht, fun _ _ => rfl, by simp [release]⟩
  | runHandler _ hruns => exact ⟨hsound.resolve_right h.alive, h.idle, h.promised⟩
  | onConnected _ hp => exact ⟨h.toSound.established hp, fun _ hc => by simp at hc, fun _ _ => rfl⟩
  | onClosed _ _ => exact .of_not_open h.toSound.lose hu
  | onError _ _ => exact .of_not_open h.toSound.lose hu
  | onReady _ hp =>
    have hconn : s.connected = true := h.connected.mpr (.inl hp)
    exact ⟨h.toSound.ready hp, fun _ hc => absurd (hconn.symm.trans hc) (by decide),
      fun _ _ => hconn⟩
  | onChannelError hm =>
    refine ⟨h.toSound.setPromise hm, h.idle, fun hw hp => h.promised hw ?_⟩
    cases hprom : s.promise <;> simp_all [setPromise]
  | loopReturns ht hret =>
    refine ⟨h.toSound.loopReturns ht hret, fun hidle hc => ?_, h.promised⟩
    simp [h.idle hidle hc] at ht

/-- A service whose connections are only ended by itself never assigns a thread to one that is
still joinable. -/
theorem not_terminated_of_run {as : List Action}
    (run : Run (Guarded (ofFun step) Undisturbed) init as s) : s.caller ≠ .terminated := by
  have hquiet : s.Quiet := by
    apply run.invariant _ quiet_init
    intro s a t hs hstep
    exact quiet_step hs hstep.1 hstep.2
  exact hquiet.alive

theorem terminated_of_connect (h : s.Sound) (hc : s.connected = false) (hstring : s.cString ≠ none)
    (ht : s.thread ≠ .none) : s.connect.caller = .terminated := by
  obtain ⟨hconn, -⟩ | ⟨-, hnone, -⟩ | ⟨c, -, -, hs⟩ := h.connect_cases
  · simp [hc] at hconn
  · exact absurd hnone hstring
  · have hthread : (s.prepare.makeConnection c).thread ≠ .none := ht
    rw [hs, startThread, if_neg hthread]

theorem terminated_of_disturbed (h : s.Sound) (hd : ¬ Undisturbed s a) (hstep : s.step a = some t) :
    ∃ as u, Run (ofFun step) t as u ∧ u.caller = .terminated := by
  have hlost : s.Open ∧ s.thread = .running ∧ s.connection ≠ none ∧ t = s.lose := by
    cases stepped_of_step hstep with
    | onClosed hruns hp =>
      exact ⟨not_not.mp hd, hruns.2.1, fun hnone => hp (by simp [phase, hnone]), rfl⟩
    | onError hruns hp =>
      exact ⟨not_not.mp hd, hruns.2.1, fun hnone => hp (by simp [phase, hnone]), rfl⟩
    | _ => exact absurd trivial hd
  obtain ⟨hopen, hthread, hconn, rfl⟩ := hlost
  have hstring := h.named hconn
  have ht : s.lose.thread ≠ .none := by simp [lose, hthread]
  cases hopen with
  | inl hidle =>
    refine ⟨[.connect], s.lose.connect, .single (step_connect hidle), ?_⟩
    exact terminated_of_connect h.lose rfl hstring ht
  | inr hw =>
    have hreturn : s.lose.step .connectReturns = some (s.lose.connectReturns "") := by
      simp [step, lose, hw.1, hw.2]
    have hidle : (s.lose.connectReturns "").caller = .idle := rfl
    refine ⟨[.connectReturns, .connect], _, .pair hreturn (step_connect hidle), ?_⟩
    exact terminated_of_connect (h.lose.connectReturns hw.1 hw.2) rfl hstring ht

def Owned (s : EventLoop) : Action → Prop
  | .disconnect => s.connected = true
  | _ => True

instance (s : EventLoop) (a : Action) : Decidable (Owned s a) := by
  cases a <;> unfold Owned <;> infer_instance

instance (s : EventLoop) (a : Action) : Decidable (Undisturbed s a) := by
  cases a <;> unfold Undisturbed <;> infer_instance

def connectOnce : List Action :=
  [.setParameters ⟨"q", "guest", "guest", false⟩, .connect, .onConnected, .onReady, .connectReturns]

theorem not_terminated_of_run_twice :
    ∃ s, Run (Guarded (ofFun step) Undisturbed) init
        (connectOnce ++ [.disconnect, .runHandler, .onClosed, .loopReturns, .joined, .connect]) s ∧
      s.caller ≠ .terminated := by
  have run := run_ofFun_iff.mpr (rfl : exec (guard Undisturbed step) init
    (connectOnce ++ [.disconnect, .runHandler, .onClosed, .loopReturns, .joined, .connect]) = some _)
  rw [← guarded_ofFun] at run
  exact ⟨_, run, not_terminated_of_run run⟩

theorem terminated_after_onClosed :
    ∃ s, Run (Guarded (ofFun step) Owned) init
        (connectOnce ++ [.onClosed, .loopReturns, .connect]) s ∧ s.caller = .terminated := by
  have run := run_ofFun_iff.mpr (rfl : exec (guard Owned step) init
    (connectOnce ++ [.onClosed, .loopReturns, .connect]) = some _)
  rw [← guarded_ofFun] at run
  exact ⟨_, run, rfl⟩

end Terminate

section Close

theorem io_startThread (s : EventLoop) : s.startThread.io = s.io := by
  unfold startThread
  split <;> rfl

theorem io_reconnect (s : EventLoop) : s.reconnect.1.io = s.io := by
  unfold reconnect
  split
  · rfl
  · split <;> rfl

theorem io_connect (hc : s.connected = false) : s.connect.io = s.io.reset := by
  have hio := io_reconnect s.prepare
  rw [connect, if_neg (by simp [hc])]
  split
  · rename_i hr
    rw [hr] at hio
    exact hio
  · rename_i hr
    rw [hr] at hio
    exact (io_startThread _).trans hio

/-- The loop is still running whenever a close handler is posted. -/
def PostsToLoop (s : EventLoop) : Action → Prop
  | .disconnect => s.thread = .running
  | .connectReturns => s.promise = some "" ∨ s.thread = .running
  | _ => True

structure Current (s : EventLoop) : Prop where
  running : s.thread = .running → s.io.stopped = false
  queued : s.io.posted ≠ [] → s.thread = .running ∧ s.caller ≠ .idle ∧ s.caller ≠ .waiting
  made : ∀ k ∈ s.io.posted, k = s.made

theorem current_init : Current init where
  running := by decide
  queued := by decide
  made := by decide

namespace Current

theorem posted_eq_nil (h : s.Current) (hc : s.caller = .idle ∨ s.caller = .waiting) :
    s.io.posted = [] := by
  cases hp : s.io.posted with
  | nil => rfl
  | cons k rest =>
    obtain ⟨-, hidle, hwaiting⟩ := h.queued (by simp [hp])
    cases hc with
    | inl hc => exact absurd hc hidle
    | inr hc => exact absurd hc hwaiting

theorem of_posted (hp : s.io.posted = []) (hr : s.thread = .running → s.io.stopped = false) :
    s.Current where
  running := hr
  queued h := absurd hp h
  made := by simp [hp]

theorem postClose (h : s.Current) (hc : s.caller = .idle ∨ s.caller = .waiting)
    (ht : s.thread = .running) (error : Option String) : (s.postClose error).Current where
  running := h.running
  queued _ := ⟨ht, by simp [EventLoop.postClose], by simp [EventLoop.postClose]⟩
  made := by simp [EventLoop.postClose, IoService.post, h.posted_eq_nil hc]

theorem connect (h : s.Current) (hidle : s.caller = .idle) : s.connect.Current := by
  cases hc : s.connected with
  | true =>
    rw [EventLoop.connect, if_pos hc]
    exact h
  | false =>
    have hio := io_connect hc
    apply of_posted
    · rw [hio]
      exact h.posted_eq_nil (.inl hidle)
    · intro _
      rw [hio]
      rfl

end Current

theorem current_step (h : s.Current) (hp : PostsToLoop s a) (hstep : s.step a = some t) :
    t.Current := by
  cases stepped_of_step hstep with
  | setParameters _ => exact { h with }
  | connect hidle => exact h.connect hidle
  | connectReturns hw hprom =>
    unfold connectReturns
    split
    · exact .of_posted (h.posted_eq_nil (.inr hw)) h.running
    · rename_i herror
      cases hp with
      | inl hnone => exact absurd (Option.some.inj (hprom.symm.trans hnone)) herror
      | inr ht => exact h.postClose (.inr hw) ht _
  | disconnect hidle => exact h.postClose (.inl hidle) hp none
  | joined _ ht =>
    -- the thread has ended, so it has run the handler
    have hnil : s.io.posted = [] := by_contra fun hne => ht (h.queued hne).1
    exact .of_posted hnil (by simp [release])
  | runHandler hposted hruns =>
    refine ⟨h.running, fun _ => h.queued (by simp [hposted]), fun x hx => h.made x ?_⟩
    rw [hposted]
    exact List.mem_cons_of_mem _ hx
  | loopReturns ht hret =>
    refine .of_posted ?_ (by simp)
    cases hret with
    | inl hstopped => simp [h.running ht] at hstopped
    | inr hret => exact hret.2
  | onConnected _ _ => exact { h with }
  | onClosed _ _ => exact { h with }
  | onError _ _ => exact { h with }
  | onReady _ _ => exact { h with }
  | onChannelError _ => exact { h with }

/-- In a run whose close handlers are all posted to a running loop, every handler that waits to be
run was posted when the present connection was already there. -/
theorem current_of_run {as : List Action}
    (run : Run (Guarded (ofFun step) PostsToLoop) init as s) : ∀ k ∈ s.io.posted, k = s.made := by
  have hcurrent : s.Current := by
    apply run.invariant _ current_init
    intro s a t hs hstep
    exact current_step hs hstep.1 hstep.2
  exact hcurrent.made

theorem stale_of_post (h : s.Sound) (hd : ¬ PostsToLoop s a) (hstep : s.step a = some t)
    (hstring : s.cString ≠ none) :
    ∃ u, Run (ofFun step) t [.joined, .connect] u ∧ u.Runs ∧ s.made ∈ u.io.posted ∧
      u.connection ≠ none ∧ u.made = s.made + 1 := by
  have hposted : ∃ error, t = s.postClose error ∧ s.thread ≠ .running := by
    cases stepped_of_step hstep with
    | disconnect _ => exact ⟨none, rfl, hd⟩
    | @connectReturns error _ hprom =>
      obtain ⟨hne, ht⟩ := not_or.mp hd
      have herror : error ≠ "" := fun he => hne (he ▸ hprom)
      exact ⟨some error, if_neg herror, ht⟩
    | _ => exact absurd trivial hd
  obtain ⟨error, rfl, ht⟩ := hposted
  obtain ⟨c, hc⟩ := Option.ne_none_iff_exists'.mp hstring
  have hconn : s.connected = false := by
    cases hconn : s.connected with
    | true => exact absurd (h.thread_of_connected hconn) ht
    | false => rfl
  have hjoined : (s.postClose error).step .joined = some (s.postClose error).release := if_neg ht
  refine ⟨_, .pair hjoined (step_connect rfl), ?_⟩
  simp [connect, reconnect, prepare, makeConnection, startThread, release, EventLoop.postClose,
    IoService.post, IoService.reset, IoService.stop, phase, Runs, hc, hconn]

instance (s : EventLoop) (a : Action) : Decidable (PostsToLoop s a) := by
  cases a <;> unfold PostsToLoop <;> infer_instance

theorem current_of_run_twice :
    ∃ s, Run (Guarded (ofFun step) PostsToLoop) init
        (connectOnce ++ [.disconnect, .runHandler, .onClosed, .loopReturns, .joined, .connect,
          .onChannelError "refused", .connectReturns]) s ∧
      s.io.posted ≠ [] ∧ ∀ k ∈ s.io.posted, k = s.made := by
  have run := run_ofFun_iff.mpr (rfl : exec (guard PostsToLoop step) init
    (connectOnce ++ [.disconnect, .runHandler, .onClosed, .loopReturns, .joined, .connect,
      .onChannelError "refused", .connectReturns]) = some _)
  rw [← guarded_ofFun] at run
  exact ⟨_, run, by decide, current_of_run run⟩

theorem closes_later_connection :
    ∃ s t, Run (ofFun step) init
        [.disconnect, .joined, .setParameters ⟨"q", "guest", "guest", false⟩, .connect] s ∧
      s.caller = .waiting ∧ s.connection ≠ none ∧ s.step .runHandler = some t ∧
      s.io.posted = [0] ∧ s.made = 1 := by
  have run := run_ofFun_iff.mpr (rfl : exec step init
    [.disconnect, .joined, .setParameters ⟨"q", "guest", "guest", false⟩, .connect] = some _)
  exact ⟨_, _, run, rfl, by decide, rfl, rfl, rfl⟩

end Close

section Refinement

end Refinement

end DistributedMathArh.EventLoop
