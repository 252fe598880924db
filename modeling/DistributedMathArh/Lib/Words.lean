import Mathlib.Data.List.DropRight
import Mathlib.Data.List.TakeWhile

universe u

namespace DistributedMathArh.Words

variable {α : Type u} {sep : α → Bool} {l r w : List α} {a : α}

def words (sep : α → Bool) (l : List α) : List (List α) :=
  (l.splitOnP sep).filter fun w => !w.isEmpty

structure IsWord (sep : α → Bool) (w : List α) : Prop where
  ne_nil : w ≠ []
  not_sep : ∀ a ∈ w, sep a = false

/-- What follows a word: nothing, or a separator. -/
def Ends (sep : α → Bool) : List α → Prop
  | [] => True
  | a :: _ => sep a = true

def word (sep : α → Bool) (l : List α) : Option (List α × List α) :=
  match l.dropWhile sep with
  | [] => none
  | a :: r => some (a :: r.takeWhile fun x => !sep x, r.dropWhile fun x => !sep x)

@[simp] theorem words_nil (sep : α → Bool) : words sep [] = [] := rfl

theorem words_append_cons (h : sep a = true) (l r : List α) :
    words sep (l ++ a :: r) = words sep l ++ words sep r := by
  rw [words, List.splitOnP_append_cons l r h, List.filter_append]
  rfl

theorem words_cons (h : sep a = true) (l : List α) : words sep (a :: l) = words sep l :=
  words_append_cons h [] l

theorem IsWord.words (h : IsWord sep w) : words sep w = [w] := by
  rw [Words.words, List.splitOnP_eq_singleton h.not_sep, List.filter_cons_of_pos, List.filter_nil]
  simpa using h.ne_nil

theorem IsWord.words_append (h : IsWord sep w) (hr : Ends sep r) :
    Words.words sep (w ++ r) = w :: Words.words sep r := by
  cases r with
  | nil => rw [List.append_nil, h.words, words_nil]
  | cons a r => rw [words_append_cons hr, words_cons hr, h.words, List.singleton_append]

theorem words_intercalate (ha : sep a = true) {ws : List (List α)} (h : ∀ w ∈ ws, IsWord sep w) :
    words sep ([a].intercalate ws) = ws := by
  induction ws with
  | nil => rfl
  | cons w ws ih =>
    obtain ⟨hw, hws⟩ := List.forall_mem_cons.mp h
    cases ws with
    | nil => rw [List.intercalate_singleton, hw.words]
    | cons x ws =>
      rw [List.intercalate_cons_cons, List.append_assoc, List.singleton_append,
        hw.words_append (r := a :: _) ha, words_cons ha, ih hws]

theorem words_dropWhile (l : List α) : words sep (l.dropWhile sep) = words sep l := by
  induction l with
  | nil => rfl
  | cons a l ih =>
    cases h : sep a with
    | true => rw [List.dropWhile_cons_of_pos h, ih, words_cons h]
    | false => rw [List.dropWhile_cons_of_neg (by simp [h])]

theorem ends_dropWhile (l : List α) : Ends sep (l.dropWhile fun x => !sep x) := by
  induction l with
  | nil => trivial
  | cons a l ih =>
    cases h : sep a with
    | true => rwa [List.dropWhile_cons_of_neg (by simp [h])]
    | false => rwa [List.dropWhile_cons_of_pos (by simp [h])]

theorem not_sep_of_dropWhile (h : l.dropWhile sep = a :: r) : sep a = false := by
  induction l with
  | nil => cases h
  | cons b l ih =>
    cases hb : sep b with
    | true => exact ih (by rwa [List.dropWhile_cons_of_pos hb] at h)
    | false =>
      rw [List.dropWhile_cons_of_neg (by simp [hb])] at h
      cases h
      exact hb

@[simp] theorem word_dropWhile (l : List α) : word sep (l.dropWhile sep) = word sep l := by
  rw [word, List.dropWhile_idempotent]
  rfl

theorem words_of_word_eq_none (h : word sep l = none) : words sep l = [] := by
  unfold word at h
  split at h
  · rename_i hl
    rw [← words_dropWhile, hl, words_nil]
  · cases h

theorem word_eq_some (h : word sep l = some (w, r)) :
    IsWord sep w ∧ Ends sep r ∧ l.dropWhile sep = w ++ r := by
  unfold word at h
  split at h
  · cases h
  · rename_i a s hl
    cases h
    refine ⟨⟨List.cons_ne_nil _ _, fun x hx => ?_⟩, ends_dropWhile s, ?_⟩
    · cases List.mem_cons.mp hx with
      | inl e => exact e ▸ not_sep_of_dropWhile hl
      | inr hx => simpa using List.mem_takeWhile_imp hx
    · rw [List.cons_append, List.takeWhile_append_dropWhile, hl]

theorem words_of_word (h : word sep l = some (w, r)) : words sep l = w :: words sep r := by
  obtain ⟨hw, hr, hl⟩ := word_eq_some h
  rw [← words_dropWhile, hl, hw.words_append hr]

theorem word_of_words (h : words sep l = w :: ws) : ∃ r, word sep l = some (w, r) ∧ words sep r = ws := by
  cases hl : word sep l with
  | none => cases h.symm.trans (words_of_word_eq_none hl)
  | some p =>
    obtain ⟨x, r⟩ := p
    cases h.symm.trans (words_of_word hl)
    exact ⟨r, rfl, rfl⟩

theorem word_of_words_nil (h : words sep l = []) : word sep l = none := by
  cases hl : word sep l with
  | none => rfl
  | some p => cases h.symm.trans (words_of_word hl)

theorem mem_splitOnP (hw : w ∈ l.splitOnP sep) (ha : a ∈ w) : a ∈ l ∧ sep a = false := by
  induction l generalizing w with
  | nil =>
    rw [List.splitOnP_nil, List.mem_singleton] at hw
    exact absurd ha (hw ▸ List.not_mem_nil)
  | cons b l ih =>
    rw [List.splitOnP_cons_eq_if_modifyHead] at hw
    split at hw
    · cases List.mem_cons.mp hw with
      | inl e => exact absurd ha (e ▸ List.not_mem_nil)
      | inr hw => exact (ih hw ha).imp_left (List.mem_cons_of_mem b)
    · rename_i hb
      cases hl : l.splitOnP sep with
      | nil => exact absurd hl (List.splitOnP_ne_nil sep l)
      | cons x xs =>
        rw [hl, List.modifyHead_cons] at hw
        rw [hl] at ih
        cases List.mem_cons.mp hw with
        | inl e =>
          cases List.mem_cons.mp (e ▸ ha) with
          | inl e =>
            subst e
            exact ⟨List.mem_cons_self, by simpa using hb⟩
          | inr ha => exact (ih List.mem_cons_self ha).imp_left (List.mem_cons_of_mem b)
        | inr hw => exact (ih (List.mem_cons_of_mem x hw) ha).imp_left (List.mem_cons_of_mem b)

theorem isWord_of_mem_words (h : w ∈ words sep l) : IsWord sep w where
  ne_nil := by
    have hw := (List.mem_filter.mp h).2
    simpa using hw
  not_sep _ ha := (mem_splitOnP (List.mem_of_mem_filter h) ha).2

theorem mem_of_mem_words (h : w ∈ words sep l) (ha : a ∈ w) : a ∈ l :=
  (mem_splitOnP (List.mem_of_mem_filter h) ha).1

end DistributedMathArh.Words
