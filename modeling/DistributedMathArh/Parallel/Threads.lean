import DistributedMathArh.Parallel.Nesting

namespace DistributedMathArh.Timing

open Transition Totals
open ClockArray (takLocation tak_of_nil tak_of_ne tak_of_cons)
open Session (sampleTik elapsed)

variable {Out In : Type}

structure Threads (Out In : Type) where
  clocks : ClockArray Out In
  opened : String → List (LocationType × In)
  pairs : List (Measured In)
  thrown : List LocationType

namespace Threads

def init : Threads Out In := ⟨.empty, fun _ => [], [], []⟩

section Step

variable [Add Out] [Inhabited In] (timeConverter : In → In → Out)

def entered (s : Threads Out In) (id : LocationType) (now : In) : Threads Out In :=
  { s with
    clocks := s.clocks.tik id now
    opened := Function.update s.opened id.thread ((id, now) :: s.opened id.thread) }

def left (s : Threads Out In) (id : LocationType) (now : In) (tik : LocationType) (started : In)
    (rest : List (LocationType × In)) : Threads Out In :=
  let (clocks, result) := s.clocks.tak timeConverter id now
  { clocks
    opened := Function.update s.opened id.thread rest
    pairs := s.pairs ++ [⟨tik, started, now⟩]
    thrown := if result.toBool then s.thrown else s.thrown ++ [id] }

/-- A thread makes its next call: it enters no location that it has open, and leaves the section
that it entered last. -/
def step (s : Threads Out In) : Call In → Option (Threads Out In)
  | .tik id now =>
    if id ∈ (s.opened id.thread).map Prod.fst then none else some (s.entered id now)
  | .tak id now =>
    match s.opened id.thread with
    | [] => none
    | (tik, started) :: rest =>
      if Pairs tik id then some (s.left timeConverter id now tik started rest) else none

end Step

/-- No `Tak` threw, and every section was recorded where it was entered, with its own time. -/
structure Recorded [AddCommGroup Out] (timeConverter : In → In → Out) (s : Threads Out In) :
    Prop where
  timers : Holds s.clocks.timers (s.pairs.map (Measured.amount timeConverter))
  thrown : s.thrown = []

/-- The section on top of the shared stack was entered at the same function, line and column as
the one that the calling thread leaves. -/
def OnTop (s : Threads Out In) : Call In → Prop
  | .tik _ _ => True
  | .tak id _ => ∀ e ∈ (s.opened id.thread).head?, ∃ top ∈ s.clocks.toTak.head?,
      top.function = e.1.function ∧ top.line = e.1.line ∧ top.column = e.1.column

instance (s : Threads Out In) : (a : Call In) → Decidable (s.OnTop a)
  | .tik _ _ => .isTrue trivial
  | .tak id _ => inferInstanceAs (Decidable (∀ e ∈ (s.opened id.thread).head?,
      ∃ top ∈ s.clocks.toTak.head?,
        top.function = e.1.function ∧ top.line = e.1.line ∧ top.column = e.1.column))

structure Kept (s : Threads Out In) : Prop where
  starts : ∀ thread, Starts s.clocks (s.opened thread)
  own : ∀ thread, ∀ e ∈ s.opened thread, e.1.thread = thread

section Run

theorem kept_init : (init : Threads Out In).Kept where
  starts _ _ he := absurd he List.not_mem_nil
  own _ _ he := absurd he List.not_mem_nil

variable {s t : Threads Out In} {id tik : LocationType} {now started : In}
  {rest : List (LocationType × In)}

theorem Kept.entered (h : s.Kept) (hid : id ∉ (s.opened id.thread).map Prod.fst) :
    (s.entered id now).Kept where
  starts thread := by
    by_cases hthread : thread = id.thread
    · subst hthread
      dsimp only [Threads.entered]
      rw [Function.update_self]
      exact (h.starts id.thread).tik now hid
    · dsimp only [Threads.entered]
      rw [Function.update_of_ne hthread]
      intro e he
      have hne : e.1 ≠ id := fun heq => hthread ((h.own thread e he).symm.trans (congrArg _ heq))
      exact (Finmap.lookup_insert_of_ne _ hne).trans (h.starts thread e he)
  own thread e he := by
    by_cases hthread : thread = id.thread
    · subst hthread
      dsimp only [Threads.entered] at he
      rw [Function.update_self] at he
      cases List.mem_cons.mp he with
      | inl heq => rw [heq]
      | inr hmem => exact h.own id.thread e hmem
    · dsimp only [Threads.entered] at he
      rw [Function.update_of_ne hthread] at he
      exact h.own thread e he

variable [AddCommGroup Out] [Inhabited In] {timeConverter : In → In → Out}

theorem mem_opened_left (hopened : s.opened id.thread = (tik, started) :: rest) {thread : String}
    {e : LocationType × In}
    (he : e ∈ (s.left timeConverter id now tik started rest).opened thread) :
    e ∈ s.opened thread := by
  by_cases hthread : thread = id.thread
  · subst hthread
    dsimp only [left] at he
    rw [Function.update_self] at he
    exact hopened ▸ List.mem_cons_of_mem _ he
  · dsimp only [left] at he
    rwa [Function.update_of_ne hthread] at he

theorem Kept.left (h : s.Kept) (hopened : s.opened id.thread = (tik, started) :: rest) :
    (s.left timeConverter id now tik started rest).Kept where
  starts thread e he :=
    (h.starts thread).tak timeConverter id now e (mem_opened_left hopened he)
  own thread e he := h.own thread e (mem_opened_left hopened he)

theorem step_cases {a : Call In} (h : s.step timeConverter a = some t) :
    (∃ id now, a = .tik id now ∧ id ∉ (s.opened id.thread).map Prod.fst ∧ t = s.entered id now) ∨
    (∃ id now tik started rest, a = .tak id now ∧ s.opened id.thread = (tik, started) :: rest ∧
      Pairs tik id ∧ t = s.left timeConverter id now tik started rest) := by
  cases a with
  | tik id now =>
    obtain ⟨hid, ht⟩ := Option.ite_none_left_eq_some.mp h
    exact .inl ⟨id, now, rfl, hid, (Option.some.inj ht).symm⟩
  | tak id now =>
    dsimp only [step] at h
    split at h
    · cases h
    · rename_i tik started rest hopened
      obtain ⟨hpairs, ht⟩ := Option.ite_none_right_eq_some.mp h
      exact .inr ⟨id, now, tik, started, rest, rfl, hopened, hpairs, (Option.some.inj ht).symm⟩

theorem kept_of_run {calls : List (Call In)}
    (run : Run (ofFun (step timeConverter)) (init : Threads Out In) calls t) : t.Kept := by
  refine run.invariant ?_ kept_init
  intro s a t hs hstep
  obtain ⟨id, now, -, hid, rfl⟩ | ⟨id, now, tik, started, rest, -, hopened, -, rfl⟩ :=
    step_cases hstep
  · exact hs.entered hid
  · exact hs.left hopened

omit [Inhabited In] in
theorem Recorded.entered (h : s.Recorded timeConverter) (id : LocationType) (now : In) :
    (s.entered id now).Recorded timeConverter := ⟨h.timers, h.thrown⟩

theorem not_recorded_of_error (h : s.clocks.tak timeConverter id now = (s.clocks, .error e)) :
    ¬ (s.left timeConverter id now tik started rest).Recorded timeConverter := by
  intro hafter
  have hthrown := hafter.thrown
  simp only [left, h, Except.toBool, Bool.false_eq_true, if_false] at hthrown
  exact List.append_ne_nil_of_right_ne_nil _ (List.cons_ne_nil _ _) hthrown

theorem takLocation_eq_iff {top : LocationType} (hpairs : Pairs tik id) :
    takLocation top id = tik ↔ top.line = tik.line ∧ top.column = tik.column := by
  constructor
  · rintro rfl
    exact ⟨rfl, rfl⟩
  · rintro ⟨hline, hcolumn⟩
    rw [takLocation, hline, hcolumn]
    exact takLocation_of_pairs hpairs

theorem recorded_left_iff (h : s.Recorded timeConverter)
    (hstart : s.clocks.startIngTimers.lookup tik = some started) (hpairs : Pairs tik id) :
    (s.left timeConverter id now tik started rest).Recorded timeConverter ↔
      ∃ top ∈ s.clocks.toTak.head?,
        top.function = tik.function ∧ top.line = tik.line ∧ top.column = tik.column := by
  cases htop : s.clocks.toTak with
  | nil =>
    refine ⟨fun hafter => absurd hafter (not_recorded_of_error (tak_of_nil htop)), ?_⟩
    rintro ⟨top, hmem, -⟩
    cases hmem
  | cons top below =>
    have hexists : (∃ x ∈ (top :: below).head?, x.function = tik.function ∧ x.line = tik.line ∧
        x.column = tik.column) ↔
        top.function = tik.function ∧ top.line = tik.line ∧ top.column = tik.column := by simp
    rw [hexists]
    by_cases hfunction : top.function = id.function
    · have hone : (⟨timeConverter now started, 1⟩ : TimeStore Out) ≠ 0 := fun hzero =>
        Nat.one_ne_zero (congrArg TimeStore.count hzero)
      have hcode := tak_of_cons timeConverter now htop hfunction
      have hleft : (s.left timeConverter id now tik started rest).Recorded timeConverter ↔
          takLocation top id = tik := by
        have hamounts := h.timers.add_iff (k := tik) (l := takLocation top id)
          (x := ⟨timeConverter now (s.clocks.start (takLocation top id)), 1⟩) hone
        constructor
        · intro hafter
          have htimers := hafter.timers
          simp only [left, hcode, List.map_append] at htimers
          exact (hamounts.mp htimers).1
        · intro heq
          refine ⟨?_, ?_⟩
          · simp only [left, hcode, List.map_append]
            refine hamounts.mpr ⟨heq, ?_⟩
            rw [heq, ClockArray.start_of_lookup hstart]
          · simp only [left, hcode, Except.toBool, if_true]
            exact h.thrown
      rw [hleft, takLocation_eq_iff hpairs]
      exact (and_iff_right (hfunction.trans hpairs.1.symm)).symm
    · refine ⟨fun hafter => absurd hafter (not_recorded_of_error (tak_of_ne htop hfunction)), ?_⟩
      rintro ⟨heq, -⟩
      exact absurd (heq.trans hpairs.1) hfunction

/-- In every interleaving every section of every thread is recorded as it should exactly if no
thread ever leaves a section while one from another place is on top of the shared stack. -/
theorem threads_recorded_iff {calls : List (Call In)}
    (run : Run (ofFun (step timeConverter)) (init : Threads Out In) calls t) :
    Throughout (ofFun (step timeConverter)) (fun _ s => s.Recorded timeConverter) init calls ↔
      Run (Guarded (ofFun (step timeConverter)) OnTop) init calls t := by
  refine throughout_iff_guarded ⟨Holds.empty, rfl⟩ ?_ run
  intro as s a u hrun hrecorded hstep
  obtain ⟨id, now, rfl, -, rfl⟩ | ⟨id, now, tik, started, rest, rfl, hopened, hpairs, rfl⟩ :=
    step_cases hstep
  · exact ⟨fun _ => trivial, fun _ => hrecorded.entered id now⟩
  · have hstart : s.clocks.startIngTimers.lookup tik = some started :=
      (kept_of_run hrun).starts id.thread (tik, started) (hopened ▸ List.mem_cons_self)
    rw [recorded_left_iff hrecorded hstart hpairs]
    simp only [OnTop, hopened, List.head?_cons, Option.mem_some_iff, forall_eq']

end Run

section Sample

def secondTik : LocationType := ⟨"f", "7", "3", "a.cpp", "2"⟩

def otherTik : LocationType := ⟨"g", "20", "3", "a.cpp", "2"⟩

def crossed : List (Call Int) :=
  [.tik sampleTik 10, .tik secondTik 11, .tak sampleTik 12, .tak secondTik 13]

def foreign : List (Call Int) :=
  [.tik sampleTik 10, .tik otherTik 11, .tak sampleTik 12, .tak otherTik 13]

def together : List (Call Int) :=
  [.tik sampleTik 10, .tik { sampleTik with thread := "2" } 11, .tak sampleTik 12,
    .tak { sampleTik with thread := "2" } 13]

def afterwards (calls : List (Call Int)) : Threads Int Int :=
  (exec (step elapsed) init calls).getD init

theorem threads_recorded_iff_together : (afterwards together).Recorded elapsed := by
  have run : Run (ofFun (step elapsed)) (init : Threads Int Int) together (afterwards together) :=
    run_ofFun_iff.mpr rfl
  refine ((threads_recorded_iff run).mpr ?_).last run
  rw [guarded_ofFun, run_ofFun_iff]
  rfl

theorem not_threads_recorded :
    (Run (ofFun (step elapsed)) init crossed (afterwards crossed) ∧
      (afterwards crossed).opened "1" = [] ∧ (afterwards crossed).opened "2" = [] ∧
      (afterwards crossed).clocks.timers.lookup sampleTik = none ∧
      (afterwards crossed).clocks.timers.lookup { sampleTik with line := "7" } = some ⟨12, 1⟩ ∧
      ¬ (afterwards crossed).Recorded elapsed) ∧
    Run (ofFun (step elapsed)) init foreign (afterwards foreign) ∧
      (afterwards foreign).opened "1" = [] ∧ (afterwards foreign).opened "2" = [] ∧
      (afterwards foreign).thrown = [sampleTik] ∧ ¬ (afterwards foreign).Recorded elapsed := by
  have hnone : (afterwards crossed).clocks.timers.lookup sampleTik = none := by decide
  have htotal : total (amounts ((afterwards crossed).pairs.map (Measured.amount elapsed)) sampleTik) =
      some ⟨2, 1⟩ := by decide
  have hthrown : (afterwards foreign).thrown = [sampleTik] := by decide
  refine ⟨⟨run_ofFun_iff.mpr rfl, by decide, by decide, hnone, by decide, ?_⟩,
    run_ofFun_iff.mpr rfl, by decide, by decide, hthrown, ?_⟩
  · intro hrecorded
    have heq := hnone.symm.trans ((hrecorded.timers sampleTik).trans htotal)
    cases heq
  · intro hrecorded
    exact absurd (hthrown.symm.trans hrecorded.thrown) (List.cons_ne_nil _ _)

end Sample

end Threads

end DistributedMathArh.Timing
