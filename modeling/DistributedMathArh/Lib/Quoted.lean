import DistributedMathArh.Lib.TextStream

universe u

namespace DistributedMathArh.TextStream

variable {σ : Type u} [DecidableEq σ]

structure Quotes (σ : Type u) where
  delim : σ
  escape : σ
  ne : delim ≠ escape

namespace Quotes

def symbol (q : Quotes σ) (a : σ) : List σ :=
  if a = q.delim ∨ a = q.escape then [q.escape, a] else [a]

def quote (q : Quotes σ) (l : List σ) : List σ := q.delim :: (l.flatMap q.symbol ++ [q.delim])

/-- What is read behind the first delimiter, one symbol at a time; a text that ends too early
fails the stream. -/
def readBody (q : Quotes σ) : List σ → List σ × IStream σ
  | [] => ([], ⟨[], true, true⟩)
  | a :: l =>
    if a = q.escape then
      match l with
      | [] => ([], ⟨[], true, true⟩)
      | b :: l =>
        let (body, s) := readBody q l
        (b :: body, s)
    else if a = q.delim then ([], .ofText l)
    else
      let (body, s) := readBody q l
      (a :: body, s)

/-- A formatted read of a quoted string into a variable that holds `x`; without a delimiter it
reads a word. -/
def extract (q : Quotes σ) (space : σ → Bool) (x : List σ) (s : IStream σ) : List σ × IStream σ :=
  let s := s.skipBlanks space
  if s.fail then (x, s) else
    match s.rest with
    | [] => (x, s)
    | a :: l =>
      if a = q.delim then q.readBody l
      else ((a :: l).takeWhile fun b => !space b, .upTo ((a :: l).dropWhile fun b => !space b))

variable {q : Quotes σ}

theorem readBody_symbol (a : σ) (l : List σ) :
    q.readBody (q.symbol a ++ l) = (a :: (q.readBody l).1, (q.readBody l).2) := by
  unfold symbol
  split
  · rw [List.cons_append, List.singleton_append, readBody, if_pos rfl]
  · rename_i h
    obtain ⟨hdelim, hescape⟩ := not_or.mp h
    rw [List.singleton_append, readBody.eq_def]
    simp only [if_neg hdelim, if_neg hescape]

theorem readBody_quote (l rest : List σ) :
    q.readBody (l.flatMap q.symbol ++ q.delim :: rest) = (l, .ofText rest) := by
  induction l with
  | nil =>
    rw [List.flatMap_nil, List.nil_append, readBody.eq_def]
    simp only [if_neg q.ne, if_true]
  | cons a l ih => rw [List.flatMap_cons, List.append_assoc, readBody_symbol, ih]

theorem extract_quote (q : Quotes σ) {space : σ → Bool} (hspace : space q.delim = false) {blanks : List σ}
    (hblanks : ∀ b ∈ blanks, space b = true) (x l rest : List σ) :
    q.extract space x (.ofText (blanks ++ (q.quote l ++ rest))) = (l, .ofText rest) := by
  have hskip := IStream.skipBlanks_append hblanks hspace (l.flatMap q.symbol ++ q.delim :: rest)
  have htext : q.quote l ++ rest = q.delim :: (l.flatMap q.symbol ++ q.delim :: rest) := by
    simp [quote]
  rw [htext, extract, hskip]
  exact (if_pos rfl).trans (readBody_quote l rest)

theorem extract_of_fail {s : IStream σ} (h : s.fail = true) (space : σ → Bool) (x : List σ) :
    q.extract space x s = (x, s) := by
  rw [extract, IStream.skipBlanks_of_fail h, if_pos h]

end Quotes

end DistributedMathArh.TextStream
