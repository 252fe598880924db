import DistributedMathArh.Lib.TextStream

/-! Formatted reads in terms of the text alone: the values that a text begins with, one after
another, and what is left after each; a stream that has failed has no text any more. -/

universe u v

namespace DistributedMathArh.TextStream

variable {σ : Type u} {α : Type v}

section Text

variable (ab : Alphabet σ) (c : Codec σ α)

def next (l : List σ) : Option (α × List σ) :=
  match l.dropWhile ab.space with
  | [] => none
  | a :: l =>
    match c.read (a :: l) with
    | (.ok x, rest) => some (x, rest)
    | (.error _, _) => none

def Present : List α → List σ → Prop
  | [], _ => True
  | x :: xs, l => ∃ rest, next ab c l = some (x, rest) ∧ Present xs rest

def leading : Nat → List σ → List α
  | 0, _ => []
  | n + 1, l =>
    match next ab c l with
    | none => []
    | some (x, rest) => x :: leading n rest

theorem present_leading (n : Nat) (l : List σ) : Present ab c (leading ab c n l) l := by
  induction n generalizing l with
  | zero => trivial
  | succ n ih =>
    rw [leading]
    cases h : next ab c l with
    | none => trivial
    | some p => exact ⟨p.2, h, ih p.2⟩

variable {ab c}

theorem leading_of_present {xs : List α} {l : List σ} (h : Present ab c xs l) :
    leading ab c xs.length l = xs := by
  induction xs generalizing l with
  | nil => rfl
  | cons x xs ih =>
    obtain ⟨rest, hnext, hrest⟩ := h
    rw [List.length_cons, leading, hnext]
    exact congrArg (x :: ·) (ih hrest)

def later (ab : Alphabet σ) (c : Codec σ α) : Nat → Option (List σ) → Option (List σ)
  | 0, l => l
  | n + 1, l => later ab c n ((l.bind (next ab c)).map Prod.snd)

/-- What a read makes of a zero: the value that the text begins with, or what the conversion that
fails stores; where no text is left the zero stays. -/
def value [Zero α] (ab : Alphabet σ) (c : Codec σ α) (l : Option (List σ)) : α :=
  match l.map (List.dropWhile ab.space) with
  | some (a :: l) =>
    match (c.read (a :: l)).1 with
    | .ok x => x
    | .error x => x
  | _ => 0

theorem value_of_next [Zero α] {l : List σ} {p : α × List σ} (h : next ab c l = some p) :
    value ab c (some l) = p.1 := by
  unfold next at h
  rw [value, Option.map_some]
  split at h
  · cases h
  · rename_i a l hl
    rw [hl]
    split at h
    · rename_i x rest hread
      cases h
      simp only [hread]
    · cases h

theorem later_add (m n : Nat) (l : Option (List σ)) :
    later ab c n (later ab c m l) = later ab c (m + n) l := by
  induction m generalizing l with
  | zero => rw [later, Nat.zero_add]
  | succ m ih => rw [later, ih, Nat.succ_add, later]

@[simp] theorem later_none (n : Nat) : later ab c n none = none := by
  induction n with
  | zero => rfl
  | succ n ih => exact ih

theorem later_ne_none {m n : Nat} {l : Option (List σ)} (hmn : m ≤ n)
    (h : later ab c n l ≠ none) : later ab c m l ≠ none := by
  intro hm
  rw [← Nat.add_sub_cancel' hmn, ← later_add, hm, later_none] at h
  exact h rfl

theorem getElem?_leading [Zero α] {k n : Nat} {l : List σ} (hk : k < (leading ab c n l).length) :
    (leading ab c n l)[k]? = some (value ab c (later ab c k (some l))) := by
  induction n generalizing k l with
  | zero => exact absurd hk (Nat.not_lt_zero k)
  | succ n ih =>
    rw [leading] at hk ⊢
    cases h : next ab c l with
    | none =>
      rw [h] at hk
      exact absurd hk (Nat.not_lt_zero k)
    | some p =>
      rw [h] at hk
      cases k with
      | zero => exact congrArg some (value_of_next h).symm
      | succ k =>
        have hnext := ih (Nat.lt_of_succ_lt_succ hk)
        simpa [later, h] using hnext

theorem length_leading_iff (n : Nat) (l : List σ) :
    (leading ab c n l).length = n ↔ later ab c n (some l) ≠ none := by
  induction n generalizing l with
  | zero => simp [leading, later]
  | succ n ih =>
    rw [leading]
    cases h : next ab c l with
    | none => simp [later, h]
    | some p =>
      have hnext := ih p.2
      simpa [later, h] using hnext

end Text

namespace IStream

def held (s : IStream σ) : Option (List σ) := if s.fail then none else some s.rest

def Settled (s : IStream σ) : Prop := s.eof = true → s.rest = []

@[simp] theorem held_ofText (l : List σ) : (ofText l).held = some l := rfl

@[simp] theorem held_upTo (l : List σ) : (upTo l).held = some l := rfl

theorem held_eq_none {s : IStream σ} : s.held = none ↔ s.fail = true := by
  simp [held]

theorem settled_ofText (l : List σ) : (ofText l).Settled := by
  intro h
  cases h

theorem settled_upTo (l : List σ) : (upTo l).Settled := fun h => List.isEmpty_iff.mp h

theorem Settled.failed {s : IStream σ} (h : s.Settled) : s.failed.Settled := h

theorem good_of_held {s : IStream σ} {l : List σ} (hs : s.Settled) (h : s.held = some l) :
    s = ofText l ∨ l = [] ∧ s = upTo l := by
  obtain ⟨rest, eof, fail⟩ := s
  cases fail with
  | true => cases h
  | false =>
    obtain rfl : rest = l := Option.some.inj h
    cases eof with
    | false => exact .inl rfl
    | true =>
      obtain rfl : rest = [] := hs rfl
      exact .inr ⟨rfl, rfl⟩

section Lines

variable [DecidableEq σ] {newline : σ}

def lineRest (newline : σ) (l : List σ) : Option (List σ) :=
  if l = [] then none else some (l.dropWhile (· ≠ newline)).tail

theorem held_skipLine {s : IStream σ} (hs : s.Settled) (newline : σ) :
    (s.skipLine newline).held = s.held.bind (lineRest newline) ∧
      (s.skipLine newline).Settled := by
  cases h : s.held with
  | none =>
    have hfail := held_eq_none.mp h
    rw [skipLine, good_of_fail hfail, if_neg Bool.false_ne_true]
    exact ⟨rfl, hs.failed⟩
  | some l =>
    rcases good_of_held hs h with rfl | ⟨rfl, rfl⟩
    · rw [skipLine, good_ofText, if_pos rfl]
      cases hl : l.dropWhile (· ≠ newline) with
      | nil =>
        simp only [ofText, hl]
        refine ⟨?_, fun _ => rfl⟩
        cases l with
        | nil => rfl
        | cons a l =>
          rw [Option.bind_some, lineRest, hl, if_neg (List.cons_ne_nil a l)]
          rfl
      | cons a rest =>
        simp only [ofText, hl]
        refine ⟨?_, settled_ofText rest⟩
        cases l with
        | nil => cases hl
        | cons b l =>
          rw [Option.bind_some, lineRest, hl, if_neg (List.cons_ne_nil b l)]
          rfl
    · exact ⟨rfl, settled_upTo []⟩

end Lines

def wordRest (space : σ → Bool) (l : List σ) : Option (List σ) :=
  match l.dropWhile space with
  | [] => none
  | a :: l => some ((a :: l).dropWhile fun x => !space x)

theorem held_skipBlanks {s : IStream σ} (hs : s.Settled) (space : σ → Bool) :
    (s.skipBlanks space).Settled ∧
      ((s.skipBlanks space).fail = true ∧ (∀ l ∈ s.held, l.dropWhile space = []) ∨
        ∃ l a rest, s.held = some l ∧ l.dropWhile space = a :: rest ∧
          s.skipBlanks space = ofText (a :: rest)) := by
  cases h : s.held with
  | none =>
    have hfail := held_eq_none.mp h
    rw [skipBlanks_of_fail hfail]
    exact ⟨hs, .inl ⟨hfail, by simp⟩⟩
  | some l =>
    rcases good_of_held hs h with rfl | ⟨rfl, rfl⟩
    · rw [skipBlanks, good_ofText, if_pos rfl]
      cases hl : l.dropWhile space with
      | nil =>
        simp only [ofText, hl]
        refine ⟨fun _ => rfl, .inl ⟨trivial, fun l' hl' => ?_⟩⟩
        cases hl'
        exact hl
      | cons a rest =>
        simp only [ofText, hl]
        exact ⟨settled_ofText _, .inr ⟨l, a, rest, rfl, hl, rfl⟩⟩
    · refine ⟨settled_upTo [], .inl ⟨rfl, fun l' hl' => ?_⟩⟩
      cases hl'
      rfl

theorem held_skipWord {s : IStream σ} (hs : s.Settled) (space : σ → Bool) :
    (s.skipWord space).held = s.held.bind (wordRest space) ∧ (s.skipWord space).Settled := by
  obtain ⟨hsettled, ⟨hfail, hnil⟩ | ⟨l, a, rest, hl, hdrop, hskip⟩⟩ := held_skipBlanks hs space
  · rw [skipWord, if_pos hfail]
    refine ⟨?_, hsettled⟩
    rw [held_eq_none.mpr hfail]
    cases h : s.held with
    | none => rfl
    | some l => simp [wordRest, hnil l (h ▸ rfl)]
  · rw [skipWord, hskip, hl]
    simp only [ofText, Bool.false_eq_true, if_false]
    exact ⟨by simp [wordRest, hdrop], settled_upTo _⟩

variable (ab : Alphabet σ) (c : Codec σ α)

theorem extract_cases {s : IStream σ} (hs : s.Settled) (x : α) :
    (∃ y rest, s.held.bind (next ab c) = some (y, rest) ∧
      s.extract ab c x = (y, upTo rest)) ∨
    s.held.bind (next ab c) = none ∧ (s.extract ab c x).2.fail = true ∧
      (s.extract ab c x).2.Settled := by
  obtain ⟨hsettled, ⟨hfail, hnil⟩ | ⟨l, a, rest, hl, hdrop, hskip⟩⟩ :=
    held_skipBlanks hs ab.space
  · right
    rw [extract, if_pos hfail]
    refine ⟨?_, hfail, hsettled⟩
    cases h : s.held with
    | none => rfl
    | some l => simp [next, hnil l (h ▸ rfl)]
  · rw [extract, hskip, hl]
    simp only [ofText, Bool.false_eq_true, if_false, Option.bind_some, next, hdrop]
    cases hread : c.read (a :: rest) with
    | mk y left =>
      cases y with
      | error y => exact .inr ⟨rfl, rfl, settled_upTo left⟩
      | ok y => exact .inl ⟨y, left, rfl, rfl⟩

theorem held_extract {s : IStream σ} (hs : s.Settled) (x : α) :
    (s.extract ab c x).2.held = (s.held.bind (next ab c)).map Prod.snd := by
  rcases extract_cases ab c hs x with ⟨y, rest, hnext, h⟩ | ⟨hnext, hfail, -⟩
  · rw [h, hnext]
    rfl
  · rw [hnext, held_eq_none.mpr hfail]
    rfl

theorem Settled.extract {s : IStream σ} (hs : s.Settled) (x : α) :
    (s.extract ab c x).2.Settled := by
  rcases extract_cases ab c hs x with ⟨y, rest, hnext, h⟩ | ⟨-, -, h⟩
  · rw [h]
    exact settled_upTo rest
  · exact h

variable {ab c} [Zero α]

theorem extract_zero {s : IStream σ} (hs : s.Settled) :
    (s.extract ab c 0).1 = value ab c s.held := by
  obtain ⟨-, ⟨hfail, hnil⟩ | ⟨l, a, rest, hl, hdrop, hskip⟩⟩ := held_skipBlanks hs ab.space
  · rw [extract, if_pos hfail, value]
    cases h : s.held with
    | none => rfl
    | some l => rw [Option.map_some, hnil l (h ▸ rfl)]
  · rw [extract, hskip, hl, value, Option.map_some, hdrop]
    simp only [ofText, Bool.false_eq_true, if_false]
    cases hread : c.read (a :: rest) with
    | mk y left => cases y <;> rfl

theorem extract_of_held {s : IStream σ} (hs : s.Settled) (x : α)
    (h : s.held.bind (next ab c) ≠ none) : (s.extract ab c x).1 = value ab c s.held := by
  rcases extract_cases ab c hs x with ⟨y, rest, hnext, hread⟩ | ⟨hnext, -⟩
  · obtain ⟨l, hl, hvalue⟩ := Option.bind_eq_some_iff.mp hnext
    rw [hread, hl, value_of_next hvalue]
  · exact absurd hnext h

theorem extract_other (h : c.Exact ab) {blanks : List σ} (hb : ∀ b ∈ blanks, ab.space b = true)
    {a : σ} (hspace : ab.space a = false) (ha : ab.start a = false) (x : α) (l : List σ) :
    ((ofText (blanks ++ a :: l)).extract ab c x).1 = 0 ∧
      ((ofText (blanks ++ a :: l)).extract ab c x).2.fail = true := by
  have hread := h.read_other a l ha
  rw [extract, skipBlanks_append hb hspace]
  cases hc : c.read (a :: l) with
  | mk y rest =>
    rw [hc] at hread
    cases hread
    simp [ofText, hc]

end IStream

end DistributedMathArh.TextStream
