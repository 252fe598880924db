import Mathlib.Data.List.Forall2

namespace DistributedMathArh

inductive Exn
  | outOfRange (value low high : UInt64)
  | invalidOption (option : String)
  | httpError (code : Nat) (reason : String)
  | curlError (what : String)
  | runtimeError (what : String)
  | invalidArgument (what : String)
  | logicError (what : String)
  | badVariantAccess
  | alreadyConnected (service target : String)
  | zeroSize (name : String)
  | missingKey (key : String)
  | mismatchedSizes (a b : Nat)
  | myException (what : String)
  | ioError (state : String)
  deriving DecidableEq

/-- Undefined behaviour and aborts: nothing the process does afterwards is modelled. -/
inductive Fault
  | divisionByZero
  | sizeMismatch
  | outOfBounds
  | nullPointer
  | signedOverflow
  | terminate
  deriving DecidableEq

inductive Halt
  | exn (e : Exn)
  | fault (f : Fault)
  deriving DecidableEq

/-- The call has ended in defined behaviour: it returned, or an exception escaped. -/
def Halt.alive {α : Type*} : Except Halt α → Bool
  | .error (.fault _) => false
  | _ => true

theorem bind_eq_ok {ε α β : Type} {x : Except ε α} {f : α → Except ε β} {b : β} :
    (x >>= f) = .ok b ↔ ∃ a, x = .ok a ∧ f a = .ok b := by
  cases x with
  | error e => simp [bind, Except.bind]
  | ok a => simp [bind, Except.bind]

theorem mapError_eq_ok {ε ε' α : Type} {g : ε → ε'} {x : Except ε α} {a : α} :
    x.mapError g = .ok a ↔ x = .ok a := by
  cases x <;> simp [Except.mapError]

section MapM

variable {ε α β : Type} {f : α → Except ε β} {xs : List α} {ys : List β}

theorem mapM_eq_ok_iff : xs.mapM f = .ok ys ↔ List.Forall₂ (fun x y => f x = .ok y) xs ys := by
  induction xs generalizing ys with
  | nil =>
    rw [List.mapM_nil, List.forall₂_nil_left_iff]
    exact ⟨fun h => (Except.ok.inj h).symm, fun h => h ▸ rfl⟩
  | cons x xs ih =>
    rw [List.mapM_cons, bind_eq_ok]
    constructor
    · rintro ⟨y, hy, h⟩
      obtain ⟨ys', hys, h⟩ := bind_eq_ok.mp h
      cases h
      exact .cons hy (ih.mp hys)
    · intro h
      cases h with
      | cons hy hys => exact ⟨_, hy, bind_eq_ok.mpr ⟨_, ih.mpr hys, rfl⟩⟩

theorem mapM_map_eq_ok {γ : Type} {g : γ → α} {k : γ → β} {zs : List γ}
    (h : ∀ z ∈ zs, f (g z) = .ok (k z)) : (zs.map g).mapM f = .ok (zs.map k) := by
  rw [mapM_eq_ok_iff, List.forall₂_map_left_iff, List.forall₂_map_right_iff, List.forall₂_same]
  exact h

theorem exists_mapM_eq_ok (h : ∀ x ∈ xs, ∃ y, f x = .ok y) : ∃ ys, xs.mapM f = .ok ys := by
  induction xs with
  | nil => exact ⟨[], rfl⟩
  | cons x xs ih =>
    obtain ⟨y, hy⟩ := h x List.mem_cons_self
    obtain ⟨ys, hys⟩ := ih fun x' hx' => h x' (List.mem_cons_of_mem x hx')
    exact ⟨y :: ys, mapM_eq_ok_iff.mpr (.cons hy (mapM_eq_ok_iff.mp hys))⟩

theorem ok_of_mem {x : α} (h : xs.mapM f = .ok ys) (hx : x ∈ xs) : ∃ y, f x = .ok y := by
  induction mapM_eq_ok_iff.mp h with
  | nil => cases hx
  | cons hy hys ih =>
    cases hx with
    | head => exact ⟨_, hy⟩
    | tail _ hx => exact ih (mapM_eq_ok_iff.mpr hys) hx

theorem mem_of_mapM {y : β} (h : xs.mapM f = .ok ys) (hy : y ∈ ys) : ∃ x ∈ xs, f x = .ok y := by
  induction mapM_eq_ok_iff.mp h with
  | nil => cases hy
  | cons hx hxs ih =>
    cases hy with
    | head => exact ⟨_, List.mem_cons_self, hx⟩
    | tail _ hy =>
      obtain ⟨x, hmem, hx⟩ := ih (mapM_eq_ok_iff.mpr hxs) hy
      exact ⟨x, List.mem_cons_of_mem _ hmem, hx⟩

end MapM

def ErrorsIn {ε α : Type} (P : ε → Prop) (x : Except ε α) : Prop := ∀ e, x = .error e → P e

namespace ErrorsIn

variable {ε α β : Type} {P : ε → Prop}

theorem ok (a : α) : ErrorsIn P (.ok a : Except ε α) := by
  intro e h
  cases h

theorem error {e : ε} (h : P e) : ErrorsIn P (.error e : Except ε α) := by
  intro e' he
  cases he
  exact h

theorem bind {x : Except ε α} {f : α → Except ε β} (hx : ErrorsIn P x)
    (hf : ∀ a, ErrorsIn P (f a)) : ErrorsIn P (x >>= f) := by
  cases x with
  | error e => exact error (hx e rfl)
  | ok a => exact hf a

theorem mapM {f : α → Except ε β} (hf : ∀ a, ErrorsIn P (f a)) (xs : List α) :
    ErrorsIn P (xs.mapM f) := by
  induction xs with
  | nil => exact ok []
  | cons x xs ih =>
    rw [List.mapM_cons]
    apply (hf x).bind
    intro y
    apply ih.bind
    intro ys
    exact ok (y :: ys)

end ErrorsIn

structure EndsIf {ε α : Type} (e : ε) (P : Prop) (x : Except ε α) : Prop where
  ends : P → x = .error e
  returns : ¬ P → ∃ a, x = .ok a

namespace EndsIf

variable {ε ε' α β : Type} {e : ε} {P Q : Prop} {x : Except ε α} {f : α → Except ε β}

theorem ok (a : α) : EndsIf e False (.ok a) := ⟨False.elim, fun _ => ⟨a, rfl⟩⟩

theorem bind (hx : EndsIf e P x) (hf : ∀ a, EndsIf e Q (f a)) : EndsIf e (P ∨ Q) (x >>= f) where
  ends h := by
    by_cases hP : P
    · rw [hx.ends hP]
      rfl
    · obtain ⟨a, ha⟩ := hx.returns hP
      rw [ha]
      exact (hf a).ends (h.resolve_left hP)
  returns h := by
    obtain ⟨hP, hQ⟩ := not_or.mp h
    obtain ⟨a, ha⟩ := hx.returns hP
    rw [ha]
    exact (hf a).returns hQ

theorem ok_bind {a : α} (ha : x = .ok a) (hf : EndsIf e P (f a)) : EndsIf e P (x >>= f) := by
  rw [ha]
  exact hf

theorem map (hx : EndsIf e P x) (g : α → β) : EndsIf e P (x.map g) where
  ends h := by
    rw [hx.ends h]
    rfl
  returns h := by
    obtain ⟨a, ha⟩ := hx.returns h
    exact ⟨g a, by rw [ha]; rfl⟩

theorem mapError (hx : EndsIf e P x) (g : ε → ε') : EndsIf (g e) P (x.mapError g) where
  ends h := by
    rw [hx.ends h]
    rfl
  returns h := by
    obtain ⟨a, ha⟩ := hx.returns h
    exact ⟨a, by rw [ha]; rfl⟩

theorem ne_iff (hx : EndsIf e P x) : x ≠ .error e ↔ ¬ P := by
  constructor
  · intro h hP
    exact h (hx.ends hP)
  · rintro hP h
    obtain ⟨a, ha⟩ := hx.returns hP
    cases ha.symm.trans h

end EndsIf

end DistributedMathArh
