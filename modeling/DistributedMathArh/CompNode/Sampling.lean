import DistributedMathArh.CompNode.Callback

namespace DistributedMathArh

open Generators Transition

/-- A worker between two messages: the functors of its threads, and all draws so far, each with
the message during which it was made. -/
structure Worker (T : Type) where
  functors : Functors T
  drawn : List (TestSolveParam × Draw T)

namespace Worker

variable {T K : Type} [DecidableEq T] [Field K] [DecidableEq K]

def init : Worker T := ⟨fun _ => none, []⟩

def Handles (pi : K) (w : Worker T) (m : TestSolveParam × Schedule T) (w' : Worker T) : Prop :=
  MessageCallback.Schedules m.2 m.1 ∧
    ∃ mesh h, MessageCallback.nMessageCallback pi mesh w.functors m.1 m.2 = .ok h ∧
      w' = ⟨h.functors, w.drawn ++ h.draws.map (Prod.mk m.1)⟩

/-- Every draw used the distribution that the arguments of its own message name. -/
def DrawnAsNamed (w : Worker T) : Prop :=
  ∀ x ∈ w.drawn, functorOf x.1.args = .ok x.2.functor

def firstEntered (msgs : List (TestSolveParam × Schedule T)) (t : T) :
    Option (TestSolveParam × Schedule T) :=
  msgs.find? fun m => t ∈ m.2.team

def SameFunctor (msgs : List (TestSolveParam × Schedule T)) : Prop :=
  ∀ m ∈ msgs, ∀ x ∈ m.2.order, ∀ first, firstEntered msgs x.1 = some first →
    functorOf m.1.args = functorOf first.1.args

structure Served (msgs : List (TestSolveParam × Schedule T)) (w : Worker T) : Prop where
  functors : ∀ t, w.functors t = (firstEntered msgs t).bind fun m => (functorOf m.1.args).toOption
  entered : ∀ m ∈ msgs, ∀ t ∈ m.2.team, (w.functors t).isSome
  threads : ∀ m ∈ msgs, ∀ x ∈ m.2.order, x.1 ∈ m.2.team
  drawn : ∀ x, x ∈ w.drawn ↔ ∃ m ∈ msgs, ∃ y ∈ m.2.order, ∃ functor,
    w.functors y.1 = some functor ∧ x = (m.1, ⟨y.1, y.2, functor⟩)

omit [DecidableEq T] in
theorem mem_draws {fs : Functors T} {order : List (T × Int)} {d : Draw T} :
    d ∈ MessageCallback.draws fs order ↔
      ∃ y ∈ order, ∃ functor, fs y.1 = some functor ∧ d = ⟨y.1, y.2, functor⟩ := by
  simp [MessageCallback.draws, List.mem_filterMap, eq_comm]

theorem handles_cases {pi : K} {w w' : Worker T} {m : TestSolveParam × Schedule T}
    (h : Handles pi w m w') :
    (∀ t, w'.functors t =
        (w.functors t).or (if t ∈ m.2.team then (functorOf m.1.args).toOption else none)) ∧
      (∀ t ∈ m.2.team, (w'.functors t).isSome) ∧ (∀ x ∈ m.2.order, x.1 ∈ m.2.team) ∧
      w'.drawn = w.drawn ++ (MessageCallback.draws w'.functors m.2.order).map (Prod.mk m.1) := by
  obtain ⟨hsched, mesh, out, hout, rfl⟩ := h
  obtain ⟨ms, is, -, hteam, his, -, hdraws⟩ := MessageCallback.nMessageCallback_eq_ok.mp hout
  refine ⟨fun t => (MessageCallback.foldlM_enter_eq_ok hteam t).1,
    fun t => (MessageCallback.foldlM_enter_eq_ok hteam t).2, (hsched is his).2, ?_⟩
  rw [hdraws]

theorem served_init : Served [] (init : Worker T) where
  functors _ := rfl
  entered _ h := by cases h
  threads _ h := by cases h
  drawn x := by simp [init]

theorem functors_of_handles {pi : K} {w w' : Worker T} {m : TestSolveParam × Schedule T}
    (h : Handles pi w m w') {t : T} (ht : (w.functors t).isSome) :
    w'.functors t = w.functors t := by
  obtain ⟨functor, hf⟩ := Option.isSome_iff_exists.mp ht
  rw [(handles_cases h).1, hf, Option.some_or]

theorem Served.step {pi : K} {msgs : List (TestSolveParam × Schedule T)} {w w' : Worker T}
    {m : TestSolveParam × Schedule T} (hs : Served msgs w) (h : Handles pi w m w') :
    Served (msgs ++ [m]) w' where
  functors t := by
    rw [(handles_cases h).1, firstEntered, List.find?_append]
    cases hfirst : msgs.find? fun m => t ∈ m.2.team with
    | none =>
      rw [hs.functors, firstEntered, hfirst]
      by_cases ht : t ∈ m.2.team <;> simp [List.find?, ht]
    | some first =>
      have hteam : t ∈ first.2.team := by simpa using List.find?_some hfirst
      have hsome := hs.entered first (List.mem_of_find?_eq_some hfirst) t hteam
      rw [Option.or_of_isSome hsome, hs.functors, firstEntered, hfirst]
      rfl
  entered m' hm' t ht := by
    rcases List.mem_append.mp hm' with hm' | hm'
    · rw [functors_of_handles h (hs.entered m' hm' t ht)]
      exact hs.entered m' hm' t ht
    · obtain rfl := List.mem_singleton.mp hm'
      exact (handles_cases h).2.1 t ht
  threads m' hm' := by
    rcases List.mem_append.mp hm' with hm' | hm'
    · exact hs.threads m' hm'
    · obtain rfl := List.mem_singleton.mp hm'
      exact (handles_cases h).2.2.1
  drawn x := by
    have hold : ∀ m' ∈ msgs, ∀ y ∈ m'.2.order, w'.functors y.1 = w.functors y.1 :=
      fun m' hm' y hy =>
        functors_of_handles h (hs.entered m' hm' _ (hs.threads m' hm' y hy))
    rw [(handles_cases h).2.2.2, List.mem_append, hs.drawn]
    simp only [List.mem_append, List.mem_singleton, List.mem_map, mem_draws]
    constructor
    · rintro (⟨m', hm', y, hy, functor, hf, rfl⟩ | ⟨d, ⟨y, hy, functor, hf, rfl⟩, rfl⟩)
      · exact ⟨m', .inl hm', y, hy, functor, (hold m' hm' y hy).trans hf, rfl⟩
      · exact ⟨m, .inr rfl, y, hy, functor, hf, rfl⟩
    · rintro ⟨m', hm' | rfl, y, hy, functor, hf, rfl⟩
      · exact .inl ⟨m', hm', y, hy, functor, (hold m' hm' y hy).symm.trans hf, rfl⟩
      · exact .inr ⟨_, ⟨y, hy, functor, hf, rfl⟩, rfl⟩

theorem served_of_run {pi : K} {msgs : List (TestSolveParam × Schedule T)} {w : Worker T}
    (run : Run (Handles pi) init msgs w) : Served msgs w := by
  apply Run.invariant_trace (I := Served) served_init _ run
  intro as w m w' hs h
  exact hs.step h

/-- In every run: the draws are as named if and only if no thread runs an iteration of a message
that names something else than the first message the thread has seen. -/
theorem drawnAsNamed_iff {pi : K} {msgs : List (TestSolveParam × Schedule T)} {w : Worker T}
    (run : Run (Handles pi) init msgs w) : DrawnAsNamed w ↔ SameFunctor msgs := by
  have hs := served_of_run run
  have hfirst : ∀ {m x}, m ∈ msgs → x ∈ m.2.order → ∃ first functor,
      firstEntered msgs x.1 = some first ∧ w.functors x.1 = some functor ∧
        functorOf first.1.args = .ok functor := by
    intro m x hm hx
    obtain ⟨functor, hf⟩ :=
      Option.isSome_iff_exists.mp (hs.entered m hm x.1 (hs.threads m hm x hx))
    have hfunctors := hs.functors x.1
    rw [hf] at hfunctors
    obtain ⟨first, h₁, h₂⟩ := Option.bind_eq_some_iff.mp hfunctors.symm
    cases hargs : functorOf first.1.args with
    | error e =>
      rw [hargs] at h₂
      cases h₂
    | ok f =>
      rw [hargs] at h₂
      cases h₂
      exact ⟨first, functor, h₁, hf, hargs⟩
  constructor
  · intro hnamed m hm x hx first heq
    obtain ⟨first', functor, h₁, h₂, h₃⟩ := hfirst hm hx
    cases h₁.symm.trans heq
    rw [h₃]
    exact hnamed _ ((hs.drawn _).mpr ⟨m, hm, x, hx, functor, h₂, rfl⟩)
  · intro hsame y hy
    obtain ⟨m, hm, x, hx, functor, hf, rfl⟩ := (hs.drawn y).mp hy
    obtain ⟨first, functor', h₁, h₂, h₃⟩ := hfirst hm hx
    cases h₂.symm.trans hf
    exact (hsame m hm x hx first h₁).trans h₃

def mPi : ℚ := 884279719003555 / 281474976710656

theorem mPi_ne_zero : mPi ≠ 0 := by decide +kernel

def sampleMessage (i : UInt64) (args : Args) : TestSolveParam × Schedule Nat :=
  (⟨1, 2, (i, i), args⟩, ⟨[0], [(0, i.toNat)]⟩)

def uniformArgs : Args :=
  [⟨"type", .string "uniform"⟩, ⟨"a", .double (.num 0)⟩, ⟨"b", .double (.num 1)⟩].toAList

def normalArgs : Args :=
  [⟨"type", .string "normal"⟩, ⟨"mean", .double (.num 0)⟩, ⟨"dev", .double (.num 1)⟩].toAList

theorem schedules_sample {i : UInt64} (hi : i.toNat < 2 ^ 31 - 1) (args : Args) :
    MessageCallback.Schedules (sampleMessage i args).2 (sampleMessage i args).1 := by
  intro is his
  rw [MessageCallback.iterations_eq hi le_rfl] at his
  cases his
  simp [sampleMessage]

theorem exists_handles_sample {i : UInt64} (hi : i.toNat < 2 ^ 31 - 1) {args : Args}
    {functor : DistributionFunctor} (hargs : functorOf args = .ok functor) (w : Worker Nat) :
    ∃ w', Handles mPi w (sampleMessage i args) w' := by
  obtain ⟨h, hh⟩ : ∃ h, MessageCallback.nMessageCallback mPi (fun _ => List.replicate 175 0)
      w.functors (sampleMessage i args).1 (sampleMessage i args).2 = .ok h :=
    MessageCallback.exists_handled mPi_ne_zero (fun _ => rfl) _ hargs hi le_rfl _
  exact ⟨_, schedules_sample hi args, _, h, hh, rfl⟩

theorem drawnAsNamed_iff_sample :
    ∃ w, Run (Handles mPi) init [sampleMessage 0 uniformArgs, sampleMessage 1 uniformArgs] w ∧
      (DrawnAsNamed w ↔
        SameFunctor [sampleMessage 0 uniformArgs, sampleMessage 1 uniformArgs]) := by
  obtain ⟨w₁, h₁⟩ := exists_handles_sample (i := 0) (by decide)
    (show functorOf uniformArgs = .ok (.uniform (.num 0) (.num 1)) from rfl) init
  obtain ⟨w₂, h₂⟩ := exists_handles_sample (i := 1) (by decide)
    (show functorOf uniformArgs = .ok (.uniform (.num 0) (.num 1)) from rfl) w₁
  have run := (Run.nil.snoc h₁).snoc h₂
  exact ⟨w₂, run, drawnAsNamed_iff run⟩

theorem not_drawnAsNamed :
    ∃ w, Run (Handles mPi) init [sampleMessage 0 uniformArgs, sampleMessage 1 normalArgs] w ∧
      ((sampleMessage 1 normalArgs).1, ⟨0, 1, .uniform (.num 0) (.num 1)⟩) ∈ w.drawn ∧
      ¬ DrawnAsNamed w := by
  obtain ⟨w₁, h₁⟩ := exists_handles_sample (i := 0) (by decide)
    (show functorOf uniformArgs = .ok (.uniform (.num 0) (.num 1)) from rfl) init
  obtain ⟨w₂, h₂⟩ := exists_handles_sample (i := 1) (by decide)
    (show functorOf normalArgs = .ok (.normal (.num 0) (.num 1)) from rfl) w₁
  have run := (Run.nil.snoc h₁).snoc h₂
  have hs := served_of_run run
  have hmem : ((sampleMessage 1 normalArgs).1, ⟨0, 1, .uniform (.num 0) (.num 1)⟩) ∈ w₂.drawn :=
    (hs.drawn _).mpr ⟨_, .tail _ (.head _), (0, 1), .head _, _, (hs.functors 0).trans rfl, rfl⟩
  refine ⟨w₂, run, hmem, fun hnamed => ?_⟩
  cases hnamed _ hmem

end Worker

end DistributedMathArh
