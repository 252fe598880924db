import Mathlib.Data.List.Induction

/-! Labelled transition systems: finite runs, and the rules that carry a property of
one step over to every run. -/

universe u v

namespace DistributedMathArh.Transition

variable {σ : Type u} {ι : Type v}

/-- `Run R s as t`: from `s`, the labels `as` taken in order lead to `t`. -/
inductive Run (R : σ → ι → σ → Prop) : σ → List ι → σ → Prop
  | nil {s} : Run R s [] s
  | snoc {s as t a u} : Run R s as t → R t a u → Run R s (as ++ [a]) u

theorem Run.mono {R S : σ → ι → σ → Prop} (h : ∀ s a t, R s a t → S s a t)
    {s t : σ} {as : List ι} (run : Run R s as t) : Run S s as t := by
  induction run with
  | nil => exact .nil
  | snoc _ step ih => exact .snoc ih (h _ _ _ step)

theorem Run.single {R : σ → ι → σ → Prop} {s t : σ} {a : ι} (h : R s a t) : Run R s [a] t :=
  .snoc .nil h

theorem Run.pair {R : σ → ι → σ → Prop} {s t u : σ} {a b : ι} (h : R s a t) (h' : R t b u) :
    Run R s [a, b] u := .snoc (.single h) h'

theorem Run.of_nil {R : σ → ι → σ → Prop} {s t : σ} (run : Run R s [] t) : t = s := by
  generalize has : ([] : List ι) = as at run
  cases run with
  | nil => rfl
  | snoc _ _ => simp at has

theorem Run.of_snoc {R : σ → ι → σ → Prop} {s u : σ} {as : List ι} {a : ι}
    (run : Run R s (as ++ [a]) u) : ∃ t, Run R s as t ∧ R t a u := by
  generalize has : as ++ [a] = bs at run
  cases run with
  | nil => simp at has
  | snoc run step =>
    obtain ⟨rfl, hb⟩ := List.append_inj' has rfl
    cases hb
    exact ⟨_, run, step⟩

/-- What one step preserves, every run preserves. -/
theorem Run.invariant {R : σ → ι → σ → Prop} {I : σ → Prop}
    (step : ∀ s a t, I s → R s a t → I t) {s t : σ} {as : List ι}
    (run : Run R s as t) (init : I s) : I t := by
  induction run with
  | nil => exact init
  | snoc _ h ih => exact step _ _ _ ih h

theorem Run.invariant_trace {R : σ → ι → σ → Prop} {I : List ι → σ → Prop} {s : σ}
    (init : I [] s) (step : ∀ as t a u, I as t → R t a u → I (as ++ [a]) u)
    {t : σ} {as : List ι} (run : Run R s as t) : I as t := by
  induction run with
  | nil => exact init
  | snoc _ h ih => exact step _ _ _ _ ih h

theorem Run.foldl {R : σ → ι → σ → Prop} {ρ : Type*} {I : σ → Prop} (f : σ → ρ) (g : ρ → ι → ρ)
    (inv : ∀ s a t, I s → R s a t → I t) (step : ∀ s a t, I s → R s a t → f t = g (f s) a)
    {s t : σ} {as : List ι} (run : Run R s as t) (init : I s) : f t = as.foldl g (f s) := by
  induction run with
  | nil => rfl
  | snoc run h ih =>
    rw [List.foldl_append, ← ih]
    exact step _ _ _ (run.invariant inv init) h

theorem Run.mem_foldl {R : σ → ι → σ → Prop} {ρ : Type*} (rows : σ → List ρ) {f : ρ → ι → ρ}
    (step : ∀ s a t, R s a t → ∀ r ∈ rows s, f r a ∈ rows t) {s t : σ} {as : List ι}
    (run : Run R s as t) {r : ρ} (hr : r ∈ rows s) : as.foldl f r ∈ rows t := by
  induction run with
  | nil => exact hr
  | snoc _ h ih =>
    rw [List.foldl_append]
    exact step _ _ _ h _ ih

theorem Run.simulate {τ : Type*} {κ : Type*} {R : σ → ι → σ → Prop} {S : τ → κ → τ → Prop}
    (f : σ → τ) (g : ι → Option κ)
    (step : ∀ s a t, R s a t → (g a).elim (f t = f s) fun b => S (f s) b (f t))
    {s t : σ} {as : List ι} (run : Run R s as t) : Run S (f s) (as.filterMap g) (f t) := by
  induction run with
  | nil => exact .nil
  | @snoc as t a u _ h ih =>
    have hstep := step _ _ _ h
    rw [List.filterMap_append]
    cases hg : g a with
    | none =>
      rw [hg] at hstep
      rw [List.filterMap_cons_none hg, List.filterMap_nil, List.append_nil, show f u = f t from hstep]
      exact ih
    | some b =>
      rw [hg] at hstep
      rw [List.filterMap_cons_some hg]
      exact .snoc ih hstep

def Each {κ : Type*} (R : σ → ι → σ → Prop) (s : κ → σ) (a : κ × ι) (t : κ → σ) : Prop :=
  R (s a.1) a.2 (t a.1) ∧ ∀ k, k ≠ a.1 → t k = s k

theorem Each.update {κ : Type*} [DecidableEq κ] {R : σ → ι → σ → Prop} {s : κ → σ} {k : κ} {a : ι}
    {x : σ} (h : R (s k) a x) : Each R s (k, a) (Function.update s k x) := by
  refine ⟨?_, fun k' hk => Function.update_of_ne hk x s⟩
  rw [Function.update_self]
  exact h

def ofKey {κ : Type*} [DecidableEq κ] (k : κ) (a : κ × ι) : Option ι :=
  if a.1 = k then some a.2 else none

theorem filterMap_ofKey {κ : Type*} [DecidableEq κ] {l : List (κ × ι)}
    (hl : (l.map Prod.fst).Nodup) {k : κ} {x : ι} (h : (k, x) ∈ l) :
    l.filterMap (ofKey k) = [x] := by
  induction l with
  | nil => cases h
  | cons y l ih =>
    obtain ⟨hy, hl⟩ := List.nodup_cons.mp hl
    cases List.mem_cons.mp h with
    | inl h =>
      subst h
      have hrest : l.filterMap (ofKey k) = [] := by
        apply List.filterMap_eq_nil_iff.mpr
        intro z hz
        exact if_neg fun hzk => hy (List.mem_map.mpr ⟨z, hz, hzk⟩)
      rw [List.filterMap_cons_some (show ofKey k (k, x) = some x from if_pos rfl), hrest]
    | inr h =>
      have hne : y.1 ≠ k := fun hyk => hy (List.mem_map.mpr ⟨(k, x), h, hyk.symm⟩)
      rw [List.filterMap_cons_none (show ofKey k y = none from if_neg hne), ih hl h]

theorem Run.component {κ : Type*} [DecidableEq κ] {R : σ → ι → σ → Prop} {s t : κ → σ}
    {as : List (κ × ι)} (run : Run (Each R) s as t) (k : κ) :
    Run R (s k) (as.filterMap (ofKey k)) (t k) := by
  refine run.simulate (fun s => s k) (ofKey k) ?_
  rintro s ⟨k', a⟩ t ⟨hstep, hother⟩
  by_cases hk : k' = k
  · subst hk
    simpa [ofKey] using hstep
  · simpa [ofKey, hk] using hother k (Ne.symm hk)

/-- A step relation cut down to the steps that meet a condition on their pre-state. -/
def Guarded (R : σ → ι → σ → Prop) (ok : σ → ι → Prop) : σ → ι → σ → Prop :=
  fun s a t => ok s a ∧ R s a t

theorem Run.guarded {R : σ → ι → σ → Prop} {ok : σ → ι → Prop} {s t : σ} {as : List ι}
    (run : Run R s as t) (h : ∀ a ∈ as, ∀ s, ok s a) : Run (Guarded R ok) s as t := by
  induction run with
  | nil => exact .nil
  | snoc _ step ih =>
    refine .snoc (ih fun a ha => h a (List.mem_append_left _ ha)) ⟨h _ ?_ _, step⟩
    exact List.mem_append_right _ (List.mem_singleton_self _)

/-- A label of the list is taken in a state in which `P` holds of it. -/
def Somewhere (R : σ → ι → σ → Prop) (P : σ → ι → Prop) (s : σ) (as : List ι) : Prop :=
  ∃ before a after t, as = before ++ a :: after ∧ Run R s before t ∧ P t a

theorem not_somewhere_nil {R : σ → ι → σ → Prop} {P : σ → ι → Prop} {s : σ} :
    ¬ Somewhere R P s [] := by
  rintro ⟨before, a, after, t, h, -⟩
  simp at h

theorem somewhere_snoc {R : σ → ι → σ → Prop} {P : σ → ι → Prop} {s : σ} {as : List ι} {a : ι} :
    Somewhere R P s (as ++ [a]) ↔ Somewhere R P s as ∨ ∃ t, Run R s as t ∧ P t a := by
  constructor
  · rintro ⟨before, x, after, t, h, run, hx⟩
    induction after using List.reverseRecOn with
    | nil =>
      obtain ⟨rfl, hx'⟩ := List.append_inj' h rfl
      cases hx'
      exact .inr ⟨t, run, hx⟩
    | append_singleton after y =>
      rw [← List.cons_append, ← List.append_assoc] at h
      obtain ⟨rfl, -⟩ := List.append_inj' h rfl
      exact .inl ⟨before, x, after, t, rfl, run, hx⟩
  · rintro (⟨before, x, after, t, rfl, run, hx⟩ | ⟨t, run, hx⟩)
    · exact ⟨before, x, after ++ [a], t, by simp, run, hx⟩
    · exact ⟨as, a, [], t, rfl, run, hx⟩

def ofFun (step : σ → ι → Option σ) : σ → ι → σ → Prop :=
  fun s a t => step s a = some t

def guard (ok : σ → ι → Prop) [∀ s a, Decidable (ok s a)] (step : σ → ι → Option σ) :
    σ → ι → Option σ := fun s a => if ok s a then step s a else none

theorem guarded_ofFun (ok : σ → ι → Prop) [∀ s a, Decidable (ok s a)] (step : σ → ι → Option σ) :
    Guarded (ofFun step) ok = ofFun (guard ok step) := by
  funext s a t
  apply propext
  exact Option.ite_none_right_eq_some.symm

def exec (step : σ → ι → Option σ) (s : σ) (as : List ι) : Option σ :=
  as.foldlM step s

theorem exec_append (step : σ → ι → Option σ) (s : σ) (as : List ι) (a : ι) :
    exec step s (as ++ [a]) = (exec step s as).bind fun t => step t a := by
  simp [exec, List.foldlM_append, Option.bind_eq_bind]

theorem run_ofFun_iff {step : σ → ι → Option σ} {s t : σ} {as : List ι} :
    Run (ofFun step) s as t ↔ exec step s as = some t := by
  constructor
  · intro run
    induction run with
    | nil => rfl
    | snoc _ h ih => rw [exec_append, ih]; exact h
  · intro h
    induction as using List.reverseRecOn generalizing t with
    | nil =>
      cases (show some s = some t from h)
      exact .nil
    | append_singleton as a ih =>
      rw [exec_append, Option.bind_eq_some_iff] at h
      obtain ⟨u, hu, step⟩ := h
      exact .snoc (ih hu) step

theorem Run.unique {step : σ → ι → Option σ} {s t u : σ} {as : List ι}
    (ht : Run (ofFun step) s as t) (hu : Run (ofFun step) s as u) : t = u := by
  rw [run_ofFun_iff] at ht hu
  exact Option.some.inj (ht.symm.trans hu)

/-- A property of the labels taken so far and of the state holds at every point of a run. -/
def Throughout (R : σ → ι → σ → Prop) (I : List ι → σ → Prop) (s : σ) (as : List ι) : Prop :=
  ∀ before after t, as = before ++ after → Run R s before t → I before t

theorem Throughout.of_snoc {R : σ → ι → σ → Prop} {I : List ι → σ → Prop} {s : σ} {as : List ι}
    {a : ι} (h : Throughout R I s (as ++ [a])) : Throughout R I s as := by
  intro before after t has run
  apply h before (after ++ [a]) t _ run
  rw [has, List.append_assoc]

theorem Throughout.last {R : σ → ι → σ → Prop} {I : List ι → σ → Prop} {s t : σ} {as : List ι}
    (h : Throughout R I s as) (run : Run R s as t) : I as t :=
  h as [] t (List.append_nil as).symm run

theorem Throughout.snoc {step : σ → ι → Option σ} {I : List ι → σ → Prop} {s t : σ} {as : List ι}
    {a : ι} (h : Throughout (ofFun step) I s as) (run : Run (ofFun step) s (as ++ [a]) t)
    (ht : I (as ++ [a]) t) : Throughout (ofFun step) I s (as ++ [a]) := by
  intro before after u has hu
  induction after using List.reverseRecOn with
  | nil =>
    rw [List.append_nil] at has
    subst has
    exact run.unique hu ▸ ht
  | append_singleton after b =>
    rw [← List.append_assoc] at has
    exact h before after u (List.append_inj' has rfl).1 hu

/-- When a step keeps a property exactly if a guard lets it pass, the property holds throughout a
run exactly if every step of the run passes the guard. -/
theorem throughout_iff_guarded {step : σ → ι → Option σ} {I : List ι → σ → Prop}
    {ok : σ → ι → Prop} {s : σ} (init : I [] s)
    (hstep : ∀ as t a u, Run (ofFun step) s as t → I as t → step t a = some u →
      (I (as ++ [a]) u ↔ ok t a)) {t : σ} {as : List ι} (run : Run (ofFun step) s as t) :
    Throughout (ofFun step) I s as ↔ Run (Guarded (ofFun step) ok) s as t := by
  induction run with
  | nil =>
    refine ⟨fun _ => .nil, fun _ => ?_⟩
    intro before after u has hu
    obtain ⟨rfl, rfl⟩ := List.append_eq_nil_iff.mp has.symm
    rw [Run.unique hu .nil]
    exact init
  | @snoc as t a u run h ih =>
    constructor
    · intro hall
      have hbefore := hall.of_snoc
      refine .snoc (ih.mp hbefore) ⟨?_, h⟩
      exact (hstep _ _ _ _ run (hbefore.last run) h).mp (hall.last (.snoc run h))
    · intro hguarded
      obtain ⟨v, hrun, hok⟩ := hguarded.of_snoc
      obtain rfl := run.unique (hrun.mono fun _ _ _ h => h.2)
      have hbefore := ih.mpr hrun
      exact hbefore.snoc (.snoc run h) ((hstep _ _ _ _ run (hbefore.last run) h).mpr hok.1)

end DistributedMathArh.Transition
