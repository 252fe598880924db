import DistributedMathArh.Lib.Transition
import DistributedMathArh.Parallel.ClockArray

namespace DistributedMathArh.Timing

open Transition Totals
open ClockArray (takLocation tak_of_nil tak_of_ne tak_of_cons lookup_subscript)

def Pairs (tik tak : LocationType) : Prop :=
  tik.function = tak.function ∧ tik.file = tak.file ∧ tik.thread = tak.thread

instance (tik tak : LocationType) : Decidable (Pairs tik tak) := instDecidableAnd

theorem takLocation_of_pairs {tik tak : LocationType} (h : Pairs tik tak) :
    takLocation tik tak = tik := by
  cases tik
  obtain ⟨rfl, rfl, rfl⟩ := h
  rfl

variable {Out In : Type}

structure Measured (In : Type) where
  location : LocationType
  started : In
  stopped : In

def Measured.amount (timeConverter : In → In → Out) (m : Measured In) :
    LocationType × TimeStore Out :=
  (m.location, ⟨timeConverter m.stopped m.started, 1⟩)

/-- The calls matched as brackets; the innermost open section comes first.  `matched` tells of
every call whether it is a `Tik`, or a `Tak` of the innermost open section. -/
structure Sections (In : Type) where
  opened : List (LocationType × In)
  pairs : List (Measured In)
  matched : List Bool

namespace Sections

def init : Sections In := ⟨[], [], []⟩

def call (s : Sections In) : Call In → Sections In
  | .tik id now => { s with opened := (id, now) :: s.opened, matched := s.matched ++ [true] }
  | .tak id now =>
    match s.opened with
    | [] => { s with matched := s.matched ++ [false] }
    | (tik, started) :: rest =>
      if Pairs tik id then ⟨rest, s.pairs ++ [⟨tik, started, now⟩], s.matched ++ [true]⟩
      else { s with matched := s.matched ++ [false] }

def amounts (timeConverter : In → In → Out) (s : Sections In) : List (LocationType × TimeStore Out) :=
  s.pairs.map (Measured.amount timeConverter)

theorem opened_tak_sublist (s : Sections In) (id : LocationType) (now : In) :
    (s.call (.tak id now)).opened.Sublist s.opened := by
  dsimp only [call]
  split
  · exact List.Sublist.refl _
  · rename_i hopened
    split
    · rw [hopened]
      exact List.sublist_cons_self _ _
    · exact List.Sublist.refl _

end Sections

def Starts (c : ClockArray Out In) (opened : List (LocationType × In)) : Prop :=
  ∀ e ∈ opened, c.startIngTimers.lookup e.1 = some e.2

theorem Starts.tik {c : ClockArray Out In} {opened : List (LocationType × In)} (h : Starts c opened)
    {id : LocationType} (now : In) (hid : id ∉ opened.map Prod.fst) :
    Starts (c.tik id now) ((id, now) :: opened) := by
  intro e he
  cases List.mem_cons.mp he with
  | inl heq =>
    subst heq
    exact Finmap.lookup_insert _
  | inr hmem =>
    have hne : e.1 ≠ id := fun heq => hid (heq ▸ List.mem_map_of_mem hmem)
    exact (Finmap.lookup_insert_of_ne _ hne).trans (h e hmem)

theorem Starts.tak [Add Out] [Inhabited In] {c : ClockArray Out In}
    {opened : List (LocationType × In)} (h : Starts c opened) (timeConverter : In → In → Out)
    (id : LocationType) (now : In) : Starts (c.tak timeConverter id now).1 opened := by
  intro e he
  unfold ClockArray.tak
  split
  · exact h e he
  · dsimp only
    split
    · exact h e he
    · exact lookup_subscript (h e he) _

/-- The array beside the brackets of the calls it got, and which of the calls returned. -/
structure Session (Out In : Type) where
  clocks : ClockArray Out In
  sections : Sections In
  returned : List Bool

namespace Session

def init : Session Out In := ⟨.empty, .init, []⟩

section Step

variable [Add Out] [Inhabited In] (timeConverter : In → In → Out)

def call (s : Session Out In) (a : Call In) : Session Out In :=
  let (clocks, result) := s.clocks.call timeConverter a
  ⟨clocks, s.sections.call a, s.returned ++ [result.toBool]⟩

def step (s : Session Out In) (a : Call In) : Option (Session Out In) := some (s.call timeConverter a)

end Step

structure Agrees [AddCommGroup Out] (timeConverter : In → In → Out) (s : Session Out In) : Prop where
  timers : Holds s.clocks.timers (s.sections.amounts timeConverter)
  toTak : s.clocks.toTak = s.sections.opened.map Prod.fst
  returned : s.returned = s.sections.matched

/-- The start that is stored for the location of a `Tak` converts as the one of its own `Tik`; a
`Tak` without a partner is not made by a function of the same name in another file. -/
def Stored [Inhabited In] (timeConverter : In → In → Out) (s : Session Out In) : Call In → Prop
  | .tik _ _ => True
  | .tak id now =>
    match s.sections.opened with
    | [] => True
    | (tik, started) :: _ =>
      if Pairs tik id then timeConverter now (s.clocks.start tik) = timeConverter now started
      else tik.function ≠ id.function

/-- No location is entered again before it is left, and the name of a function tells its file. -/
def Plain (s : Session Out In) : Call In → Prop
  | .tik id _ => id ∉ s.sections.opened.map Prod.fst
  | .tak id _ => ∀ e ∈ s.sections.opened.head?, e.1.function = id.function → Pairs e.1 id

instance (s : Session Out In) : (a : Call In) → Decidable (s.Plain a)
  | .tik id _ => inferInstanceAs (Decidable (id ∉ s.sections.opened.map Prod.fst))
  | .tak id _ => inferInstanceAs
      (Decidable (∀ e ∈ s.sections.opened.head?, e.1.function = id.function → Pairs e.1 id))

section Run

variable [AddCommGroup Out] [Inhabited In] {timeConverter : In → In → Out} {s t : Session Out In}
  {a : Call In}

omit [Inhabited In] in
theorem agrees_init : Agrees timeConverter (init : Session Out In) := ⟨Holds.empty, rfl, rfl⟩

theorem Agrees.tik (h : s.Agrees timeConverter) (id : LocationType) (now : In) :
    (s.call timeConverter (.tik id now)).Agrees timeConverter where
  timers := h.timers
  toTak := congrArg (id :: ·) h.toTak
  returned := congrArg (· ++ [true]) h.returned

theorem Agrees.unmatched (h : s.Agrees timeConverter) {id : LocationType} {now : In} {e : Exn}
    (hcode : s.clocks.tak timeConverter id now = (s.clocks, .error e))
    (hspec : s.sections.call (.tak id now) =
      { s.sections with matched := s.sections.matched ++ [false] }) :
    (s.call timeConverter (.tak id now)).Agrees timeConverter := by
  have hcall : s.call timeConverter (.tak id now) =
      ⟨s.clocks, { s.sections with matched := s.sections.matched ++ [false] },
        s.returned ++ [false]⟩ := by
    simp only [call, ClockArray.call, hcode, hspec]
    rfl
  rw [hcall]
  exact ⟨h.timers, h.toTak, congrArg (· ++ [false]) h.returned⟩

theorem Agrees.matched_iff (h : s.Agrees timeConverter) {id tik : LocationType} {now started : In}
    {rest : List (LocationType × In)} (hopened : s.sections.opened = (tik, started) :: rest)
    (hpairs : Pairs tik id) : (s.call timeConverter (.tak id now)).Agrees timeConverter ↔
      timeConverter now (s.clocks.start tik) = timeConverter now started := by
  have htop : s.clocks.toTak = tik :: rest.map Prod.fst := by rw [h.toTak, hopened, List.map_cons]
  have hcode := tak_of_cons timeConverter now htop hpairs.1
  rw [takLocation_of_pairs hpairs] at hcode
  have hspec : s.sections.call (.tak id now) =
      ⟨rest, s.sections.pairs ++ [⟨tik, started, now⟩], s.sections.matched ++ [true]⟩ := by
    simp only [Sections.call, hopened, if_pos hpairs]
  have hcall : s.call timeConverter (.tak id now) =
      ⟨⟨Totals.add s.clocks.timers tik ⟨timeConverter now (s.clocks.start tik), 1⟩,
          s.clocks.subscript tik, rest.map Prod.fst⟩,
        ⟨rest, s.sections.pairs ++ [⟨tik, started, now⟩], s.sections.matched ++ [true]⟩,
        s.returned ++ [true]⟩ := by
    simp only [call, ClockArray.call, hcode, hspec]
    rfl
  have hone : (⟨timeConverter now started, 1⟩ : TimeStore Out) ≠ 0 := fun hzero =>
    Nat.one_ne_zero (congrArg TimeStore.count hzero)
  have hamounts := h.timers.add_iff (k := tik) (l := tik)
    (x := ⟨timeConverter now (s.clocks.start tik), 1⟩) hone
  rw [hcall]
  constructor
  · intro hafter
    have htimers := hafter.timers
    rw [Sections.amounts, List.map_append] at htimers
    exact congrArg TimeStore.time (hamounts.mp htimers).2
  · intro heq
    refine ⟨?_, rfl, congrArg (· ++ [true]) h.returned⟩
    rw [Sections.amounts, List.map_append]
    exact hamounts.mpr ⟨rfl, by rw [heq]⟩

theorem not_agrees_of_mistaken (h : s.Agrees timeConverter) {id tik : LocationType} {now started : In}
    {rest : List (LocationType × In)} (hopened : s.sections.opened = (tik, started) :: rest)
    (hpairs : ¬ Pairs tik id) (hfunction : tik.function = id.function) :
    ¬ (s.call timeConverter (.tak id now)).Agrees timeConverter := by
  have htop : s.clocks.toTak = tik :: rest.map Prod.fst := by rw [h.toTak, hopened, List.map_cons]
  intro hafter
  have htoTak := hafter.toTak
  simp only [call, ClockArray.call, tak_of_cons timeConverter now htop hfunction, Sections.call, hopened,
    if_neg hpairs, List.map_cons] at htoTak
  exact List.cons_ne_self _ _ htoTak.symm

theorem agrees_call_iff (h : s.Agrees timeConverter) (a : Call In) :
    (s.call timeConverter a).Agrees timeConverter ↔ s.Stored timeConverter a := by
  cases a with
  | tik id now => exact ⟨fun _ => trivial, fun _ => h.tik id now⟩
  | tak id now =>
    cases hopened : s.sections.opened with
    | nil =>
      have hempty : s.clocks.toTak = [] := by rw [h.toTak, hopened, List.map_nil]
      have hspec : s.sections.call (.tak id now) =
          { s.sections with matched := s.sections.matched ++ [false] } := by
        simp only [Sections.call, hopened]
      simp only [Stored, hopened]
      exact ⟨fun _ => trivial, fun _ => h.unmatched (tak_of_nil hempty) hspec⟩
    | cons e rest =>
      obtain ⟨tik, started⟩ := e
      have htop : s.clocks.toTak = tik :: rest.map Prod.fst := by rw [h.toTak, hopened, List.map_cons]
      simp only [Stored, hopened]
      by_cases hpairs : Pairs tik id
      · rw [if_pos hpairs]
        exact h.matched_iff hopened hpairs
      · have hspec : s.sections.call (.tak id now) =
            { s.sections with matched := s.sections.matched ++ [false] } := by
          simp only [Sections.call, hopened, if_neg hpairs]
        rw [if_neg hpairs]
        constructor
        · intro hafter hfunction
          exact not_agrees_of_mistaken h hopened hpairs hfunction hafter
        · intro hne
          exact h.unmatched (tak_of_ne htop hne) hspec

theorem starts_call (h : Starts s.clocks s.sections.opened) (hplain : s.Plain a) :
    Starts (s.call timeConverter a).clocks (s.call timeConverter a).sections.opened := by
  cases a with
  | tik id now => exact h.tik now hplain
  | tak id now =>
    intro e he
    exact h.tak timeConverter id now e ((s.sections.opened_tak_sublist id now).subset he)

omit [AddCommGroup Out] in
theorem stored_of_plain (h : Starts s.clocks s.sections.opened) (hplain : s.Plain a) :
    s.Stored timeConverter a := by
  cases a with
  | tik id now => trivial
  | tak id now =>
    dsimp only [Stored]
    split
    · trivial
    · rename_i tik started rest hopened
      have hstart : s.clocks.startIngTimers.lookup tik = some started :=
        h (tik, started) (hopened ▸ List.mem_cons_self)
      split
      · rw [ClockArray.start_of_lookup hstart]
      · rename_i hpairs
        intro hfunction
        exact hpairs (hplain (tik, started) (by rw [hopened]; rfl) hfunction)

theorem Plain.run {calls : List (Call In)}
    (run : Run (Guarded (ofFun (step timeConverter)) Session.Plain) init calls t) :
    Starts t.clocks t.sections.opened ∧
      Run (Guarded (ofFun (step timeConverter)) (Stored timeConverter)) init calls t := by
  induction run with
  | nil => exact ⟨fun e he => absurd he List.not_mem_nil, .nil⟩
  | snoc _ hstep ih =>
    obtain ⟨hplain, hcall⟩ := hstep
    cases hcall
    exact ⟨starts_call ih.1 hplain, .snoc ih.2 ⟨stored_of_plain ih.1 hplain, rfl⟩⟩

/-- Whatever the clock reads: the array agrees with the brackets at every point of a sequence of
calls exactly if every `Tak` finds the start it needs, as it does while no location is entered
again before it is left. -/
theorem sections_measured_iff {calls : List (Call In)}
    (run : Run (ofFun (step timeConverter)) (init : Session Out In) calls t) :
    (Throughout (ofFun (step timeConverter)) (fun _ s => s.Agrees timeConverter) init calls ↔
      Run (Guarded (ofFun (step timeConverter)) (Stored timeConverter)) init calls t) ∧
    (Run (Guarded (ofFun (step timeConverter)) Plain) init calls t →
      Throughout (ofFun (step timeConverter)) (fun _ s => s.Agrees timeConverter) init calls) := by
  have hiff : Throughout (ofFun (step timeConverter)) (fun _ s => s.Agrees timeConverter) init calls ↔
      Run (Guarded (ofFun (step timeConverter)) (Stored timeConverter)) init calls t := by
    refine throughout_iff_guarded agrees_init ?_ run
    intro _ s a u _ hagrees hstep
    cases hstep
    exact agrees_call_iff hagrees a
  exact ⟨hiff, fun hplain => hiff.mpr (Plain.run hplain).2⟩

end Run

section Sample

def sampleTik : LocationType := ⟨"f", "5", "3", "a.cpp", "1"⟩

def sampleTak : LocationType := ⟨"f", "9", "3", "a.cpp", "1"⟩

example : getFileState "1" ⟨"void f(int)", 5, 3, "/src/a.cpp"⟩ = sampleTik := by decide +kernel

def elapsed (curr prev : Int) : Int := curr - prev

def recursion : List (Call Int) :=
  [.tik sampleTik 1, .tik sampleTik 2, .tak sampleTak 3, .tak sampleTak 4]

def stray : List (Call Int) :=
  [.tik sampleTik 1, .tak { sampleTak with file := "b.cpp" } 2, .tak sampleTak 3]

def after (calls : List (Call Int)) : Session Int Int := calls.foldl (call elapsed) init

def nested : List (Call Int) :=
  [.tik sampleTik 1, .tik { sampleTik with line := "6" } 2, .tak sampleTak 3, .tak sampleTak 4]

theorem sections_measured_iff_nested :
    Throughout (ofFun (step elapsed)) (fun _ s => s.Agrees elapsed) init nested := by
  have hplain : Run (Guarded (ofFun (step elapsed)) Plain) (init : Session Int Int) nested
      (after nested) := by
    rw [guarded_ofFun, run_ofFun_iff]
    rfl
  exact (sections_measured_iff (run_ofFun_iff.mpr rfl)).2 hplain

theorem not_sections_measured :
    ((recursion.map Call.now).Pairwise (· ≤ ·) ∧ (after recursion).sections.opened = [] ∧
      (after recursion).sections.matched = [true, true, true, true] ∧
      (after recursion).clocks.timers.lookup sampleTik = some ⟨3, 2⟩ ∧
      ¬ (after recursion).Agrees elapsed) ∧
    (stray.map Call.now).Pairwise (· ≤ ·) ∧ (after stray).sections.opened = [] ∧
      (after stray).sections.matched = [true, false, true] ∧
      (after stray).returned = [true, true, false] ∧ ¬ (after stray).Agrees elapsed := by
  have hrecursion : (after recursion).clocks.timers.lookup sampleTik = some ⟨3, 2⟩ := by decide
  have htotal : total (amounts ((after recursion).sections.amounts elapsed) sampleTik) =
      some ⟨4, 2⟩ := by decide
  refine ⟨⟨by decide, by decide, by decide, hrecursion, ?_⟩, by decide, by decide, by decide,
    by decide, ?_⟩
  · intro h
    have heq := hrecursion.symm.trans ((h.timers sampleTik).trans htotal)
    exact absurd heq (by decide)
  · intro h
    exact absurd h.returned (by decide)

end Sample

end Session

end DistributedMathArh.Timing
