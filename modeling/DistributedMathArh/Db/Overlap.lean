import DistributedMathArh.Db.Soundness

namespace DistributedMathArh.Db

open Transition

namespace Site

variable {κ : Type} [DecidableEq κ] {S : DbServer κ} {s t u v : Site S} {j k : κ} {a : κ × Act}

structure Adds (k : κ) (s : Site S) (a : κ × Act) (t : Site S) : Prop where
  caller : a.1 = k
  step : Step s a t
  adds : ∃ n, n ∉ S.databases s.server ∧ n ∈ S.databases t.server

def Barred (k : κ) (s : Site S) : Prop :=
  (s.script k).Settled ∨ (∃ n, (s.script k).creates = some n) ∧ ¬ s.Connected k

def Past (k : κ) (s : Site S) : Prop :=
  (∃ n, (s.script k).creates = some n) ∨ (s.script k).Settled

omit [DecidableEq κ] in
theorem creates_of_executes {q : Statement} {next : Bool → Script} {rows : Bool}
    {server : S.State} (hscript : s.script k = .exec q next) (hlive : s.Connected k)
    (h : S.Executes s.server k q rows server) {n : String} (hnot : n ∉ S.databases s.server)
    (hmem : n ∈ S.databases server) :
    (∃ m, (s.script k).creates = some m) ∧ s.Connected k ∧
      ∀ i, (i, sampleTempDb) ∈ S.sessions s.server → i = k := by
  cases h with
  | created habsent halone hdatabases => exact ⟨⟨_, by rw [hscript]; rfl⟩, hlive, halone⟩
  | checked _ hdatabases => exact absurd (hdatabases ▸ hmem) hnot
  | other _ _ hdatabases => exact absurd (hdatabases ▸ hmem) hnot
  | dropped _ hdatabases =>
    rw [hdatabases] at hmem
    exact absurd hmem.1 hnot

omit [DecidableEq κ] in
theorem Sound.admits (hs : s.Sound) {q : Statement} {next : Bool → Script}
    (hscript : s.script k = .exec q next) : S.Admits q := by
  obtain ⟨place, hdisciplined, -⟩ := hs.follows k
  rw [hscript] at hdisciplined
  exact hdisciplined.1

theorem Sound.exec_of_adds (hs : s.Sound) (h : Adds k s a t) :
    (∃ m, (s.script k).creates = some m) ∧ s.Connected k ∧
      ∀ i, (i, sampleTempDb) ∈ S.sessions s.server → i = k := by
  obtain ⟨rfl, hstep, n, hnot, hmem⟩ := h
  cases hstep with
  | executed hscript hexec =>
    have heffect := DbServer.executes_of_exec (hs.admits hscript) hexec
    exact creates_of_executes hscript (S.connected_exec hexec (by simp)) heffect hnot hmem
  | thrown hscript hexec =>
    rcases DbServer.databases_of_error (hs.admits hscript) hexec with hsame | ⟨hlive, rows, heffect⟩
    · exact absurd (hsame ▸ hmem) hnot
    · exact creates_of_executes hscript hlive heffect hnot hmem
  | connected _ hconnect => exact absurd (S.databases_connect hconnect ▸ hmem) hnot
  | disconnected _ hclose => exact absurd (S.databases_close hclose ▸ hmem) hnot
  | closed _ hclose => exact absurd (S.databases_close hclose ▸ hmem) hnot
  | lost hclose => exact absurd (S.databases_close hclose ▸ hmem) hnot
  | _ => exact absurd hmem hnot

theorem not_settled_of_creates {p : Script} {n : String} (h : p.creates = some n) :
    ¬ p.Settled := by
  obtain ⟨next, rfl⟩ := exec_of_creates h
  intro hsettled
  exact hsettled.1 n rfl

theorem Barred.not_adds (hb : Barred k s) (hs : s.Sound) : ¬ Adds k s a t := by
  intro h
  obtain ⟨⟨n, hcreates⟩, hlive, -⟩ := hs.exec_of_adds h
  rcases hb with hsettled | ⟨-, hlost⟩
  · exact not_settled_of_creates hcreates hsettled
  · exact hlost hlive

theorem Sound.other_step (hs : s.Sound) (h : Step s a t) (hj : j ≠ a.1) :
    t.script j = s.script j ∧ (t.Connected j → s.Connected j) := by
  cases h with
  | connected hscript hconnect =>
    refine ⟨Function.update_of_ne hj _ _, ?_⟩
    rintro ⟨n, hn⟩
    obtain ⟨place, hdisciplined, -⟩ := hs.follows _
    rw [hscript] at hdisciplined
    rcases (hdisciplined.2.1.connect hconnect).2 hn with heq | hn
    · exact absurd (Prod.ext_iff.mp heq).1 hj
    · exact ⟨n, hn⟩
  | executed _ hexec =>
    exact ⟨Function.update_of_ne hj _ _, fun ⟨n, hn⟩ => ⟨n, S.sessions_exec hexec hn⟩⟩
  | thrown _ hexec =>
    exact ⟨Function.update_of_ne hj _ _, fun ⟨n, hn⟩ => ⟨n, S.sessions_exec hexec hn⟩⟩
  | disconnected _ hclose =>
    exact ⟨Function.update_of_ne hj _ _, fun ⟨n, hn⟩ => ⟨n, (sessions_close hclose hn).1⟩⟩
  | closed _ hclose => exact ⟨rfl, fun ⟨n, hn⟩ => ⟨n, (sessions_close hclose hn).1⟩⟩
  | lost hclose => exact ⟨rfl, fun ⟨n, hn⟩ => ⟨n, (sessions_close hclose hn).1⟩⟩
  | _ => exact ⟨Function.update_of_ne hj _ _, id⟩

theorem settled_step (h : Step s a t) (hcall : ∀ c, a ≠ (a.1, .call c))
    (hsettled : (s.script a.1).Settled) : (t.script a.1).Settled := by
  cases h with
  | called _ _ => exact absurd rfl (hcall _)
  | connected hscript _ =>
    rw [hscript] at hsettled
    rw [script_goOn]
    exact hsettled
  | executed hscript _ =>
    rw [hscript] at hsettled
    rw [script_goOn]
    exact hsettled.2 _
  | finished hscript =>
    rw [hscript] at hsettled
    rw [script_goOn]
    exact hsettled
  | disconnected hscript _ =>
    rw [hscript] at hsettled
    rw [script_goOn]
    exact hsettled
  | closed _ _ => exact hsettled
  | lost _ => exact hsettled
  | _ =>
    rw [script_goOn]
    trivial

theorem Sound.creates_step (hs : s.Sound) (h : Step s a t) (hcall : ∀ c, a ≠ (k, .call c))
    {n : String} (hcreates : (s.script k).creates = some n) :
    ((t.script k).creates = some n ∧ (t.Connected k → s.Connected k)) ∨ (t.script k).Settled := by
  by_cases hk : k = a.1
  · subst hk
    obtain ⟨place, hdisciplined, -⟩ := hs.follows a.1
    obtain ⟨next, hexec⟩ := exec_of_creates hcreates
    rw [hexec] at hdisciplined
    cases h with
    | called _ _ => exact absurd rfl (hcall _)
    | executed hscript _ =>
      cases hexec.symm.trans hscript
      rw [script_goOn]
      exact .inr ((hdisciplined.2.2.2 _).2 ⟨n, rfl⟩)
    | closed _ hclose =>
      exact .inl ⟨hcreates, fun ⟨m, hm⟩ => ⟨m, (sessions_close hclose hm).1⟩⟩
    | lost hclose => exact .inl ⟨hcreates, fun ⟨m, hm⟩ => ⟨m, (sessions_close hclose hm).1⟩⟩
    | thrown _ _ =>
      rw [script_goOn]
      exact .inr trivial
    | connected hscript _ => cases hexec.symm.trans hscript
    | broken hscript => cases hexec.symm.trans hscript
    | finished hscript => cases hexec.symm.trans hscript
    | unfinished hscript => cases hexec.symm.trans hscript
    | disconnected hscript _ => cases hexec.symm.trans hscript
  · obtain ⟨hscript, hlive⟩ := hs.other_step h hk
    exact .inl ⟨by rw [hscript, hcreates], hlive⟩

theorem Sound.settled_step (hs : s.Sound) (h : Step s a t) (hcall : ∀ c, a ≠ (k, .call c))
    (hsettled : (s.script k).Settled) : (t.script k).Settled := by
  by_cases hk : k = a.1
  · subst hk
    exact Site.settled_step h hcall hsettled
  · rw [(hs.other_step h hk).1]
    exact hsettled

theorem Past.step (hs : s.Sound) (h : Step s a t) (hcall : ∀ c, a ≠ (k, .call c))
    (hpast : Past k s) : Past k t := by
  rcases hpast with ⟨n, hcreates⟩ | hsettled
  · rcases hs.creates_step h hcall hcreates with ⟨hcreates, -⟩ | hsettled
    · exact .inl ⟨n, hcreates⟩
    · exact .inr hsettled
  · exact .inr (hs.settled_step h hcall hsettled)

theorem Barred.step (hs : s.Sound) (h : Step s a t) (hcall : ∀ c, a ≠ (k, .call c))
    (hb : Barred k s) : Barred k t := by
  rcases hb with hsettled | ⟨⟨n, hcreates⟩, hlost⟩
  · exact .inl (hs.settled_step h hcall hsettled)
  · rcases hs.creates_step h hcall hcreates with ⟨hcreates, hlive⟩ | hsettled
    · exact .inr ⟨⟨n, hcreates⟩, fun hconnected => hlost (hlive hconnected)⟩
    · exact .inl hsettled

theorem Past.barred_of_adds (hs : s.Sound) (hjk : j ≠ k) (hadds : Adds j s a t)
    (hpast : Past k s) : Barred k t := by
  have hk : k ≠ a.1 := hadds.caller.symm ▸ hjk.symm
  obtain ⟨hscript, hlive⟩ := hs.other_step hadds.step hk
  rcases hpast with ⟨n, hcreates⟩ | hsettled
  · refine .inr ⟨⟨n, by rw [hscript, hcreates]⟩, fun hconnected => ?_⟩
    obtain ⟨m, hm⟩ := hlive hconnected
    obtain rfl := hs.mem_template_of_creates hcreates hm
    obtain ⟨-, -, halone⟩ := hs.exec_of_adds hadds
    exact hjk (halone k hm).symm
  · exact .inl (hscript.symm ▸ hsettled)

omit [DecidableEq κ] in
theorem Handled.mono {as bs : List (κ × Act)} (h : Handled S bs) (hsub : as ⊆ bs) : Handled S as :=
  fun k c hc => h k c (hsub hc)

theorem Sound.run_of_step {I : Site S → Prop}
    (step : ∀ {s a t}, s.Sound → Step s a t → (∀ c, a ≠ (k, .call c)) → I s → I t) (hs : s.Sound)
    {as : List (κ × Act)} (has : Handled S as) (hcalls : ∀ c, (k, .call c) ∉ as)
    (run : Run Step s as t) (hI : I s) : I t := by
  induction run with
  | nil => exact hI
  | @snoc as t a u run h ih =>
    have hsub : as ⊆ as ++ [a] := List.subset_append_left _ _
    refine step (hs.run (has.mono hsub) run) h ?_ (ih (has.mono hsub) fun c hc => hcalls c (hsub hc))
    rintro c rfl
    exact hcalls c (List.mem_append_right _ (List.mem_singleton_self _))

/-- Of calls that are past their checks at the same time, at most one creates its database: once
another caller has added one, `k` adds none. -/
theorem adds_once {server : S.State} (htemplate : sampleTempDb ∈ S.databases server)
    (hnone : S.sessions server = ∅) {es : List (κ × Act)} (hes : Handled S es)
    (run : Run Step (init server) es s) (hjk : j ≠ k) (hk : ∃ n, (s.script k).creates = some n)
    {as bs : List (κ × Act)} (has : Handled S (as ++ a :: bs))
    (hcalls : ∀ c, (k, .call c) ∉ as ++ a :: bs) (before : Run Step s as t) (hadds : Adds j t a u)
    (after : Run Step u bs v) {b : κ × Act} {w : Site S} : ¬ Adds k v b w := by
  have hsubas : as ⊆ as ++ a :: bs := List.subset_append_left _ _
  have hsubbs : bs ⊆ as ++ a :: bs := fun x hx => List.mem_append_right _ (List.mem_cons_of_mem _ hx)
  have hs := (sound_init htemplate hnone).run hes run
  have ht := hs.run (has.mono hsubas) before
  have hpast : Past k t := hs.run_of_step Past.step (has.mono hsubas)
    (fun c hc => hcalls c (hsubas hc)) before (.inl hk)
  have hu : u.Sound := ht.step (fun c hc => has a.1 c (by simp [← hc])) hadds.step
  have hv := hu.run (has.mono hsubbs) after
  have hbarred : Barred k v := hu.run_of_step Barred.step (has.mono hsubbs)
    (fun c hc => hcalls c (hsubbs hc)) after (hpast.barred_of_adds ht hjk hadds)
  exact hbarred.not_adds hv

theorem adds_once_overlapping : ∃ s t u : Site sampleServer,
    Run Step sampleSite overlapping s ∧ Run Step s [(false, .next), (false, .next)] t ∧
      Adds true t (true, .next) u ∧ ∀ b w, ¬ Adds false u b w := by
  have hruns : ∃ s t u : Site sampleServer, Run Step sampleSite overlapping s ∧
      Run Step s [(false, .next), (false, .next)] t ∧ Adds true t (true, .next) u ∧
      ∃ n, (s.script false).creates = some n := by
    refine ⟨_, _, _, Catalog.run_of_exec rfl, Catalog.run_of_exec rfl,
      ⟨rfl, Catalog.step_sound rfl, "a", ?_, ?_⟩, "a", rfl⟩
    · exact fun h => absurd (List.mem_singleton.mp h) (by decide)
    · exact List.mem_cons_self
  obtain ⟨s, t, u, run, before, hadds, hk⟩ := hruns
  refine ⟨s, t, u, run, before, hadds, fun b w => ?_⟩
  exact adds_once (List.mem_singleton.mpr rfl) sessions_sampleSite handled_overlapping run
    Bool.false_ne_true.symm hk (by simp [Handled]) (by simp) before hadds .nil

end Site

def Statement.shows : Statement → Bool → Option (String × Bool)
  | .checkDatabaseExistence n, rows => some (n, rows)
  | .createDatabase n, _ => some (n, true)
  | .dropDatabase n, _ => some (n, false)
  | _, _ => none

def Script.Shows (n : String) (present : Bool) : Script → Prop
  | .done (.ok _) => False
  | .done (.error _) => True
  | .tryConnect c _ next => (c.dbname, true) = (n, present) ∨ next.Shows n present
  | .exec q next => ∀ rows, q.shows rows = some (n, present) ∨ (next rows).Shows n present
  | .finish next => next.Shows n present
  | .disconnect next => next.Shows n present

def AdminCall.effect : AdminCall → String × Bool
  | .createDatabase _ n => (n, true)
  | .dropDatabase _ n => (n, false)
  | .fillDatabase c _ => (c.dbname, true)
  | .tryConnect c _ => (c.dbname, true)

theorem shows_script (call : AdminCall) : call.script.Shows call.effect.1 call.effect.2 := by
  cases call with
  | createDatabase c n =>
    refine .inr fun rows => ?_
    cases rows with
    | true => exact .inl rfl
    | false => exact .inr fun _ => .inl rfl
  | dropDatabase c n =>
    refine .inr fun rows => ?_
    cases rows with
    | true => exact .inr fun _ => .inr fun _ => .inl rfl
    | false => exact .inl rfl
  | fillDatabase c sql => exact .inl rfl
  | tryConnect c service => exact .inl rfl

theorem DbServer.Executes.shown {κ : Type} {S : DbServer κ} {s s' : S.State} {k : κ} {q : Statement}
    {rows present : Bool} {n : String} (h : S.Executes s k q rows s')
    (hshows : q.shows rows = some (n, present)) : n ∈ S.databases s' ↔ present = true := by
  cases h with
  | checked hrows hdatabases =>
    cases hshows
    rw [hdatabases, hrows]
  | created _ _ hdatabases =>
    cases hshows
    simp [hdatabases]
  | dropped _ hdatabases =>
    cases hshows
    simp [hdatabases]
  | other hq hmoves _ =>
    cases q with
    | checkDatabaseExistence m => exact absurd rfl (hq m)
    | createDatabase m => cases hmoves
    | dropDatabase m => cases hmoves
    | _ => cases hshows

namespace Site

variable {κ : Type} [DecidableEq κ] {S : DbServer κ} {s t : Site S} {k : κ} {a : κ × Act}
  {n : String} {present : Bool}

theorem Sound.shows_step (hs : s.Sound) (h : Step s a t) (hcall : ∀ c, a ≠ (k, .call c))
    (hshows : (s.script k).Shows n present) :
    (t.script k).Shows n present ∨ (n ∈ S.databases t.server ↔ present = true) := by
  by_cases hk : k = a.1
  · subst hk
    obtain ⟨place, hdisciplined, -⟩ := hs.follows a.1
    cases h with
    | called _ _ => exact absurd rfl (hcall _)
    | connected hscript hconnect =>
      rw [hscript] at hshows hdisciplined
      rcases hshows with heq | hnext
      · cases heq
        have hmem := (hdisciplined.2.1.connect hconnect).1
        exact .inr ⟨fun _ => rfl, fun _ => (S.databases_connect hconnect).symm ▸ hmem⟩
      · exact .inl (by rwa [script_goOn])
    | @executed k q next rows server hscript hexec =>
      rw [hscript] at hshows
      rcases hshows rows with heq | hnext
      · exact .inr ((DbServer.executes_of_exec (hs.admits hscript) hexec).shown heq)
      · exact .inl (by rwa [script_goOn])
    | finished hscript =>
      rw [hscript] at hshows
      exact .inl (by rwa [script_goOn])
    | disconnected hscript _ =>
      rw [hscript] at hshows
      exact .inl (by rwa [script_goOn])
    | closed _ _ => exact .inl hshows
    | lost _ => exact .inl hshows
    | _ =>
      rw [script_goOn]
      exact .inl trivial
  · exact .inl ((hs.other_step h hk).1 ▸ hshows)

theorem Sound.shows_run (hs : s.Sound) {as : List (κ × Act)} (has : Handled S as)
    (hcalls : ∀ c, (k, .call c) ∉ as) (run : Run Step s as t)
    (hshows : (s.script k).Shows n present) :
    (t.script k).Shows n present ∨ ∃ before after u, as = before ++ after ∧
      Run Step s before u ∧ Run Step u after t ∧ (n ∈ S.databases u.server ↔ present = true) := by
  induction run with
  | nil => exact .inl hshows
  | @snoc as t a u run h ih =>
    have hsub : as ⊆ as ++ [a] := List.subset_append_left _ _
    rcases ih (has.mono hsub) fun c hc => hcalls c (hsub hc) with hshows | hmoment
    · have hcall : ∀ c, a ≠ (k, .call c) := by
        rintro c rfl
        exact hcalls c (List.mem_append_right _ (List.mem_singleton_self _))
      rcases (hs.run (has.mono hsub) run).shows_step h hcall hshows with hshows | hmoment
      · exact .inl hshows
      · exact .inr ⟨as ++ [a], [], u, (List.append_nil _).symm, .snoc run h, .nil, hmoment⟩
    · obtain ⟨before, after, v, rfl, hv, hafter, hmoment⟩ := hmoment
      exact .inr ⟨before, after ++ [a], v, List.append_assoc _ _ _, hv, .snoc hafter h, hmoment⟩

/-- A call that returns takes effect at one moment of its time: its database is there then, or, for
`DropDatabase`, is not there and nobody is connected to it. -/
theorem effect_of_run {server : S.State} (htemplate : sampleTempDb ∈ S.databases server)
    (hnone : S.sessions server = ∅) {es as : List (κ × Act)} {call : AdminCall}
    (hes : Handled S (es ++ [(k, .call call)])) (has : Handled S as)
    (run : Run Step (init server) (es ++ [(k, .call call)]) s) (run' : Run Step s as t)
    (hcalls : ∀ c, (k, .call c) ∉ as) (hreturn : t.script k = .done (.ok ())) :
    ∃ before after u, as = before ++ after ∧ Run Step s before u ∧ Run Step u after t ∧
      (call.effect.1 ∈ S.databases u.server ↔ call.effect.2 = true) ∧
      (call.effect.2 = false → ∀ x ∈ S.sessions u.server, x.2 ≠ call.effect.1) := by
  have hs := (sound_init htemplate hnone).run hes run
  have hshows : (s.script k).Shows call.effect.1 call.effect.2 := by
    obtain ⟨s₀, -, hstep⟩ := run.of_snoc
    cases hstep with
    | called _ _ =>
      rw [script_goOn]
      exact shows_script call
  rcases hs.shows_run has hcalls run' hshows with hshows | ⟨before, after, u, rfl, hu, hafter, hmoment⟩
  · rw [hreturn] at hshows
    exact hshows.elim
  · refine ⟨before, after, u, rfl, hu, hafter, hmoment, ?_⟩
    intro habsent x hx heq
    have hsound := hs.run (has.mono (List.subset_append_left _ _)) hu
    rw [hmoment.mp (heq ▸ hsound.placed x hx)] at habsent
    cases habsent

def dropAfterCreate : List (Bool × Act) :=
  (false, .call (.createDatabase sampleStr "a")) :: List.replicate 7 (false, .next)

theorem effect_of_run_drop : ∃ s t u : Site sampleServer, ∃ before after,
    Run Step sampleSite (dropAfterCreate ++ [(true, .call (.dropDatabase sampleStr "a"))]) s ∧
      t.script true = .done (.ok ()) ∧ List.replicate 6 (true, .next) = before ++ after ∧
      Run Step s before u ∧ Run Step u after t ∧
      ("a" ∈ sampleServer.databases u.server ↔ false = true) ∧
      (false = false → ∀ x ∈ sampleServer.sessions u.server, x.2 ≠ "a") := by
  have hruns : ∃ s t : Site sampleServer,
      Run Step sampleSite (dropAfterCreate ++ [(true, .call (.dropDatabase sampleStr "a"))]) s ∧
      Run Step s (List.replicate 6 (true, .next)) t ∧ t.script true = .done (.ok ()) :=
    ⟨_, _, Catalog.run_of_exec rfl, Catalog.run_of_exec rfl, rfl⟩
  obtain ⟨s, t, run, run', hreturn⟩ := hruns
  have hes : Handled sampleServer
      (dropAfterCreate ++ [(true, .call (.dropDatabase sampleStr "a"))]) := by
    intro k call h
    have hcall : call = .createDatabase sampleStr "a" ∨ call = .dropDatabase sampleStr "a" := by
      cases k
      · exact .inl (by simpa [dropAfterCreate] using h)
      · exact .inr (by simpa [dropAfterCreate] using h)
    rcases hcall with rfl | rfl <;> exact serves_sampleStr
  obtain ⟨before, after, u, hlist, hu, hafter, hmoment, hfree⟩ := effect_of_run
    (List.mem_singleton.mpr rfl) sessions_sampleSite hes (by simp [Handled]) run run' (by simp)
    hreturn
  exact ⟨s, t, u, before, after, run, hreturn, hlist, hu, hafter, hmoment, hfree⟩

end Site

end DistributedMathArh.Db
