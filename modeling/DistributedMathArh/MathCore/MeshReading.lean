import DistributedMathArh.Lib.Values
import DistributedMathArh.MathCore.Operations

namespace DistributedMathArh.MeshCreator

open PrintUtils TextStream TextStream.IStream
open RowMajor (grid)

section Text

variable {K : Type}

def dimsOf (t : Numbers K) (text : List Char) : Option (DimType × List Char) :=
  (next ascii t.size text).bind fun p =>
    (next ascii t.size p.2).map fun q => ((p.1, q.1), q.2)

def bodyOf (l : List Char) : Option (List Char) :=
  ((lineRest '\n' l).bind (lineRest '\n')).bind (wordRest ascii.space)

def count (dims : DimType) : Nat := dims.1 + dims.2 * (dims.1 + 1)

structure Loops (dims : DimType) : Prop where
  theta : 2 ≤ dims.1
  skipped : dims.1 - 2 ≤ kIntMax
  rows : dims.2 ≤ kIntMax
  columns : dims.2 ≠ 0 → dims.1 ≤ kIntMax

structure Holds (dims : DimType) (values : List K) (m : MeshCreator K) : Prop where
  dimensions : m.dimensions = dims
  thetaLower : values[0]? = some m.limits.thetaLower
  thetaUpper : values[dims.1 - 1]? = some m.limits.thetaUpper
  phiLower : values[dims.1]? = some m.limits.phiLower
  phiUpper : values[dims.1 + (dims.2 - 1) * (dims.1 + 1)]? = some m.limits.phiUpper
  sized : Sized m
  mesh : ∀ j < dims.1, ∀ i < dims.2,
    (m.data 2)[j * dims.2 + i]? = values[dims.1 + i * (dims.1 + 1) + 1 + j]?

def IsRead (t : Numbers K) (text : List Char) (m : MeshCreator K) : Prop :=
  ∃ dims l body values, dimsOf t text = some (dims, l) ∧ Loops dims ∧ bodyOf l = some body ∧
    values.length = count dims ∧ Present ascii t.value values body ∧ Holds dims values m

def numberAt [Zero K] (t : Numbers K) (l : Option (List Char)) (k : Nat) : K :=
  value ascii t.value (later ascii t.value k l)

/-- The limits as they are read: the first item that is no number leaves a zero, or the bound that
it exceeds, and the limits behind it stay zero. -/
def limsOf [Zero K] (t : Numbers K) (dims : DimType) (l : List Char) : LimType K :=
  ⟨numberAt t (bodyOf l) 0, numberAt t (bodyOf l) (dims.1 - 1), numberAt t (bodyOf l) dims.1,
    numberAt t (bodyOf l) (dims.1 + (dims.2 - 1) * (dims.1 + 1))⟩

def numbersOf (t : Numbers K) (dims : DimType) (l : List Char) : List K :=
  (bodyOf l).elim [] (leading ascii t.value (count dims))

/-- The dimensions are missing, or the loops end and the text has all the numbers, unless the limits
that it has are refused anyway. -/
def Readable [Zero K] (t : Numbers K) (text : List Char) : Prop :=
  ∀ dims l, dimsOf t text = some (dims, l) →
    Loops dims ∧ (Accepted dims (limsOf t dims l) → (numbersOf t dims l).length = count dims)

end Text

section Read

variable {K : Type} [Field K] {t : Numbers K}

omit [Field K] in
theorem later_held_extract {s : IStream Char} (hs : s.Settled) (x : K) (n : Nat) :
    later ascii t.value n (s.extract ascii t.value x).2.held =
      later ascii t.value (n + 1) s.held := by
  rw [held_extract _ _ hs, later]

theorem readValues_held (junk : K) (n : Nat) {s : IStream Char} (hs : s.Settled) :
    (readValues t junk n s).2.held = later ascii t.value n s.held ∧
      (readValues t junk n s).2.Settled ∧
      (later ascii t.value n s.held ≠ none → (readValues t junk n s).1 =
        (List.range n).map fun k => value ascii t.value (later ascii t.value k s.held)) := by
  induction n generalizing s with
  | zero => exact ⟨rfl, hs, fun _ => rfl⟩
  | succ n ih =>
    obtain ⟨hheld, hsettled, hvalues⟩ := ih (hs.extract ascii t.value junk)
    rw [later_held_extract hs] at hheld hvalues
    refine ⟨hheld, hsettled, fun hne => ?_⟩
    have hfirst : s.held.bind (next ascii t.value) ≠ none := by
      intro hnone
      rw [later, hnone] at hne
      exact hne (later_none n)
    have hx := extract_of_held hs junk hfirst
    have htail := hvalues hne
    simp only [later_held_extract hs] at htail
    rw [List.range_succ_eq_map, List.map_cons, List.map_map]
    simp only [readValues]
    rw [hx, htail]
    rfl

theorem numberAt_later (m k : Nat) (l : Option (List Char)) :
    numberAt t (later ascii t.value m l) k = numberAt t l (m + k) := by
  rw [numberAt, later_add, numberAt]

theorem readRows_held (junk : K) (ext0 n : Nat) {s : IStream Char} (hs : s.Settled) :
    (readRows t junk ext0 n s).1.map Prod.fst =
        (List.range n).map (fun i => numberAt t s.held (i * (ext0 + 1))) ∧
      (later ascii t.value (n * (ext0 + 1)) s.held ≠ none →
        (readRows t junk ext0 n s).1 = (List.range n).map fun i =>
          (numberAt t s.held (i * (ext0 + 1)),
            (List.range ext0).map fun j => numberAt t s.held (i * (ext0 + 1) + 1 + j))) := by
  induction n generalizing s with
  | zero => exact ⟨rfl, fun _ => rfl⟩
  | succ n ih =>
    have hsphi := hs.extract ascii t.value (0 : K)
    obtain ⟨hheld, hsettled, hvalues⟩ := readValues_held (t := t) junk ext0 hsphi
    rw [later_held_extract hs] at hheld hvalues
    obtain ⟨hphis, hrows⟩ := ih hsettled
    have hindex : ∀ i, ext0 + 1 + i * (ext0 + 1) = (i + 1) * (ext0 + 1) := fun i => by ring
    have hindex' : ∀ i j, ext0 + 1 + (i * (ext0 + 1) + 1 + j) = (i + 1) * (ext0 + 1) + 1 + j :=
      fun i j => by ring
    simp only [hheld, numberAt_later, later_add, hindex, hindex'] at hphis hrows
    have hphi : (s.extract ascii t.value (0 : K)).1 = numberAt t s.held 0 := extract_zero hs
    simp only [readRows, List.map_cons, List.range_succ_eq_map, List.map_map, hphi]
    constructor
    · rw [hphis, Nat.zero_mul]
      rfl
    · intro hne
      have hrow := hvalues (later_ne_none (Nat.le_mul_of_pos_left _ n.succ_pos) hne)
      simp only [later_held_extract hs] at hrow
      rw [hrows hne, hrow]
      simp only [Nat.zero_mul, Nat.zero_add, Function.comp_def, numberAt, Nat.add_comm 1]

omit [Field K] in
theorem readDims_cases (t : Numbers K) (text : List Char) :
    (∃ dims l s, dimsOf t text = some (dims, l) ∧ readDims t (ofText text) = (dims, s) ∧
      s.held = some l ∧ s.Settled) ∨
    dimsOf t text = none ∧ (readDims t (ofText text)).2.fail = true := by
  have hs := settled_ofText text
  have hs' := hs.extract ascii t.size 0
  have hheld := held_extract ascii t.size hs 0
  rcases extract_cases ascii t.size hs' 0 with
    ⟨ext1, l, hnext, hread⟩ | ⟨hnext, hfail, -⟩
  · left
    rw [hheld, held_ofText, Option.bind_some] at hnext
    cases hfirst : next ascii t.size text with
    | none => simp [hfirst] at hnext
    | some p =>
      have hext0 : ((ofText text).extract ascii t.size 0).1 = p.1 := by
        rw [extract_zero hs, held_ofText, value_of_next hfirst]
      simp only [hfirst, Option.map_some, Option.bind_some] at hnext
      refine ⟨(p.1, ext1), l, upTo l, by simp [dimsOf, hfirst, hnext], ?_, held_upTo l,
        settled_upTo l⟩
      simp only [readDims, hread, hext0]
  · right
    refine ⟨?_, hfail⟩
    rw [hheld, held_ofText, Option.bind_some] at hnext
    cases hfirst : next ascii t.size text with
    | none => simp [dimsOf, hfirst]
    | some p =>
      rw [hfirst] at hnext
      simp only [Option.map_some, Option.bind_some] at hnext
      simp [dimsOf, hfirst, hnext]

theorem held_header {s : IStream Char} {l : List Char} (hs : s.Settled) (hl : s.held = some l) :
    (((s.skipLine '\n').skipLine '\n').skipWord ascii.space).held = bodyOf l ∧
      (((s.skipLine '\n').skipLine '\n').skipWord ascii.space).Settled := by
  obtain ⟨h₁, hs₁⟩ := held_skipLine hs '\n'
  obtain ⟨h₂, hs₂⟩ := held_skipLine hs₁ '\n'
  obtain ⟨h₃, hs₃⟩ := held_skipWord hs₂ ascii.space
  rw [h₂, h₁, hl] at h₃
  exact ⟨h₃, hs₃⟩

theorem readThetas_held (junk : K) {ext0 : Nat} (h : 2 ≤ ext0) {s : IStream Char}
    (hs : s.Settled) :
    (readThetas t junk ext0 s).1 = (numberAt t s.held 0, numberAt t s.held (ext0 - 1)) ∧
      (readThetas t junk ext0 s).2.held = later ascii t.value ext0 s.held ∧
      (readThetas t junk ext0 s).2.Settled := by
  have hs₁ := hs.extract ascii t.value (0 : K)
  obtain ⟨h₂, hs₂, -⟩ := readValues_held (t := t) junk (ext0 - 2) hs₁
  rw [later_held_extract hs] at h₂
  have hpred : ext0 - 2 + 1 = ext0 - 1 := by omega
  have hsucc : ext0 - 1 + 1 = ext0 := by omega
  simp only [readThetas, sizeSub_of_le h]
  refine ⟨?_, ?_, hs₂.extract ascii t.value 0⟩
  · rw [extract_zero hs, extract_zero hs₂, h₂, hpred]
    rfl
  · rw [held_extract _ _ hs₂, h₂, hpred, ← hsucc, ← later_add, Nat.add_sub_cancel]
    rfl

end Read

section Numbers

variable {K : Type} [Zero K] {t : Numbers K} {dims : DimType} {l : List Char}

theorem getElem?_numbersOf {k : Nat} (hk : k < (numbersOf t dims l).length) :
    (numbersOf t dims l)[k]? = some (numberAt t (bodyOf l) k) := by
  rw [numbersOf] at hk ⊢
  cases hbody : bodyOf l with
  | none =>
    rw [hbody] at hk
    exact absurd hk (Nat.not_lt_zero k)
  | some body =>
    rw [hbody] at hk
    exact getElem?_leading hk

omit [Zero K] in
theorem length_numbersOf (hcount : 0 < count dims) :
    (numbersOf t dims l).length = count dims ↔
      later ascii t.value (count dims) (bodyOf l) ≠ none := by
  rw [numbersOf]
  cases bodyOf l with
  | none => simpa using hcount.ne
  | some body => exact length_leading_iff _ body

omit [Zero K] in
theorem length_of_isRead {text : List Char} {m : MeshCreator K}
    (hdims : dimsOf t text = some (dims, l)) (h : IsRead t text m) :
    Loops dims ∧ (numbersOf t dims l).length = count dims := by
  obtain ⟨dims', l', body, values, hdims', hloops, hbody, hlen, hpresent, -⟩ := h
  cases hdims.symm.trans hdims'
  refine ⟨hloops, ?_⟩
  rw [numbersOf, hbody, ← hlen]
  exact congrArg List.length (leading_of_present hpresent)

omit [Zero K] in
theorem present_numbersOf (hcount : 0 < count dims)
    (hlen : (numbersOf t dims l).length = count dims) :
    ∃ body, bodyOf l = some body ∧ Present ascii t.value (numbersOf t dims l) body := by
  rw [numbersOf] at hlen ⊢
  cases hbody : bodyOf l with
  | none =>
    rw [hbody] at hlen
    exact absurd hlen hcount.ne
  | some body => exact ⟨body, rfl, present_leading _ _ _ body⟩

theorem place_lt_count (dims : DimType) {i j : Nat} (hi : i < dims.2) (hj : j ≤ dims.1) :
    dims.1 + i * (dims.1 + 1) + j < count dims := by
  have hrow : (i + 1) * (dims.1 + 1) ≤ dims.2 * (dims.1 + 1) := Nat.mul_le_mul_right _ hi
  rw [Nat.succ_mul] at hrow
  rw [count]
  omega

end Numbers

section OfRows

variable {K : Type} [Field K] [DecidableEq K] {t : Numbers K} {dims : DimType}

def rowLims (thetas : K × K) (rows : List (K × List K)) : LimType K :=
  ⟨thetas.1, thetas.2, (rows.map Prod.fst).head?.getD 0, (rows.map Prod.fst).getLast?.getD 0⟩

def columns (dims : DimType) (rows : List (K × List K)) : Valarray K :=
  grid (fun (row : K × List K) j => row.2.getD j 0) rows (List.range dims.1)

theorem ofRows_of_accepted {thetas : K × K} {rows : List (K × List K)}
    (h : Accepted dims (rowLims thetas rows)) (pi : K) :
    ofRows pi dims thetas rows =
      .ok (withGrids dims (rowLims thetas rows) (columns dims rows)) := by
  have hset := constructed_eq h ((withGrids dims (rowLims thetas rows) ((init pi).data 2)).setData
    (columns dims rows))
  rw [data_setData] at hset
  rw [ofRows]
  exact (congrArg (· >>= _) (constructed_eq h (init pi))).trans hset

theorem grids_of_refused {lims : LimType K} (h : ¬ Accepted dims lims) :
    ∃ e, grids dims lims = .error e := by
  rw [accepted_iff, not_and_or] at h
  rw [grids]
  by_cases hphi : dims.2 = 0 ∨ lims.phiLower = lims.phiUpper
  · rw [MeshStorage.myLinspace_of_refused hphi]
    exact ⟨_, rfl⟩
  · rw [not_or] at hphi
    have htheta := not_and_or.mp (h.resolve_left (not_not.mpr hphi))
    rw [MeshStorage.myLinspace_of_ne hphi.1 hphi.2,
      MeshStorage.myLinspace_of_refused (htheta.imp not_not.mp not_not.mp)]
    exact ⟨_, rfl⟩

theorem ofRows_of_refused {thetas : K × K} {rows : List (K × List K)}
    (h : ¬ Accepted dims (rowLims thetas rows)) (pi : K) :
    ∃ e, ofRows pi dims thetas rows = .error e := by
  obtain ⟨e, he⟩ := grids_of_refused h
  have hconstructed : (init pi).constructed dims (rowLims thetas rows) = .error e := by
    simp only [constructed, constructMeshes, he]
    rfl
  exact ⟨e, congrArg (· >>= _) hconstructed⟩

end OfRows

section Outcome

variable {K : Type} [Field K] {t : Numbers K} {dims : DimType} {l : List Char}

theorem rowLims_eq {thetas : K × K} {rows : List (K × List K)} (hphi : dims.2 ≠ 0)
    (hthetas : thetas = (numberAt t (bodyOf l) 0, numberAt t (bodyOf l) (dims.1 - 1)))
    (hrows : rows.map Prod.fst =
      (List.range dims.2).map fun i => numberAt t (bodyOf l) (dims.1 + i * (dims.1 + 1))) :
    rowLims thetas rows = limsOf t dims l := by
  obtain ⟨n, hn⟩ := Nat.exists_eq_succ_of_ne_zero hphi
  rw [limsOf, rowLims, hrows, hthetas, hn, Nat.succ_sub_one]
  simp [List.head?_range, List.getLast?_range]

theorem holds_withGrids (hloops : Loops dims) (hacc : Accepted dims (limsOf t dims l))
    (hlen : (numbersOf t dims l).length = count dims) {rows : List (K × List K)}
    (hrows : rows = (List.range dims.2).map fun i =>
      (numberAt t (bodyOf l) (dims.1 + i * (dims.1 + 1)), (List.range dims.1).map fun j =>
        numberAt t (bodyOf l) (dims.1 + i * (dims.1 + 1) + 1 + j))) :
    Holds dims (numbersOf t dims l)
      (withGrids dims (limsOf t dims l) (columns dims rows)) := by
  have hphi := Nat.pos_of_ne_zero hacc.phi
  have htheta := hloops.theta
  have hlimit {k : Nat} (hk : k < count dims) :
      (numbersOf t dims l)[k]? = some (numberAt t (bodyOf l) k) :=
    getElem?_numbersOf (hlen ▸ hk)
  have hfirst := place_lt_count dims (i := 0) hphi (Nat.zero_le _)
  have hlast := place_lt_count dims (i := dims.2 - 1) (j := 0)
    (Nat.sub_one_lt hacc.phi) (Nat.zero_le _)
  simp only [Nat.zero_mul, Nat.add_zero] at hfirst hlast
  have hlength : rows.length = dims.2 := by rw [hrows, List.length_map, List.length_range]
  refine ⟨rfl, hlimit (by omega), hlimit (by omega), hlimit hfirst, hlimit hlast, ?_, ?_⟩
  · intro k
    refine Fin.cases (length_values _) (fun k => Fin.cases (length_values _)
      (fun k => Fin.cases ?_ (fun k => k.elim0) k) k) k
    have hcolumns : (columns dims rows).length = dims.1 * dims.2 := by simp [columns, hlength]
    exact hcolumns
  · intro j hj i hi
    have hplace := place_lt_count dims (i := i) (j := 1 + j) hi (by omega)
    rw [← Nat.add_assoc] at hplace
    have hget := RowMajor.getElem?_grid (fun (row : K × List K) j => row.2.getD j 0)
      (List.range dims.1) j (hlength.symm ▸ hi)
    have hindex : j * dims.2 + i = j * rows.length + i := by rw [hlength]
    rw [hlimit hplace, hindex]
    refine hget.trans ?_
    simp [hj, hrows, List.getD_eq_getElem?_getD]

end Outcome

section Parses

variable {K : Type} [Field K] [DecidableEq K] {t : Numbers K}

theorem parseHumanReadable_of_loops {text l : List Char} {dims : DimType}
    (hdims : dimsOf t text = some (dims, l)) (hloops : Loops dims) (pi junk : K) :
    ∃ thetas rows, (parseHumanReadable pi junk t (ofText text)).1 =
        (ofRows pi dims thetas rows).mapError .exn ∧
      thetas = (numberAt t (bodyOf l) 0, numberAt t (bodyOf l) (dims.1 - 1)) ∧
      rows.map Prod.fst =
        (List.range dims.2).map (fun i => numberAt t (bodyOf l) (dims.1 + i * (dims.1 + 1))) ∧
      (later ascii t.value (count dims) (bodyOf l) ≠ none → rows = (List.range dims.2).map fun i =>
        (numberAt t (bodyOf l) (dims.1 + i * (dims.1 + 1)), (List.range dims.1).map fun j =>
          numberAt t (bodyOf l) (dims.1 + i * (dims.1 + 1) + 1 + j))) := by
  rcases readDims_cases t text with ⟨dims', l', s, hdims', hread, hheld, hs⟩ | ⟨hnone, -⟩
  · cases hdims.symm.trans hdims'
    have hfail : ¬ s.fail = true := by
      intro hfail
      cases (held_eq_none.mpr hfail).symm.trans hheld
    have hbound : ¬ (kIntMax < sizeSub dims.1 2 ∨ kIntMax < dims.2 ∨
        0 < dims.2 ∧ kIntMax < dims.1) := by
      rw [sizeSub_of_le hloops.theta]
      have := hloops.skipped
      have := hloops.rows
      have := hloops.columns
      omega
    obtain ⟨hbody, hsbody⟩ := held_header hs hheld
    obtain ⟨hthetas, hheldThetas, hsThetas⟩ := readThetas_held (t := t) junk hloops.theta hsbody
    obtain ⟨hphis, hrows⟩ := readRows_held (t := t) junk dims.1 dims.2 hsThetas
    rw [hheldThetas, hbody] at hphis hrows
    rw [hbody] at hthetas
    simp only [numberAt_later, later_add, ← Nat.add_assoc] at hphis hrows
    refine ⟨_, _, ?_, hthetas, hphis, hrows⟩
    simp only [parseHumanReadable, hread, if_neg hfail, if_neg hbound]
  · cases hdims.symm.trans hnone

theorem parseHumanReadable_of_not_loops {text l : List Char} {dims : DimType}
    (hdims : dimsOf t text = some (dims, l)) (hloops : ¬ Loops dims) (pi junk : K) :
    (parseHumanReadable pi junk t (ofText text)).1 = .error (.fault .signedOverflow) := by
  rcases readDims_cases t text with ⟨dims', l', s, hdims', hread, hheld, hs⟩ | ⟨hnone, -⟩
  · cases hdims.symm.trans hdims'
    have hfail : ¬ s.fail = true := by
      intro hfail
      cases (held_eq_none.mpr hfail).symm.trans hheld
    have hbound : kIntMax < sizeSub dims.1 2 ∨ kIntMax < dims.2 ∨
        0 < dims.2 ∧ kIntMax < dims.1 := by
      by_contra hbound
      apply hloops
      simp only [not_or, not_and, not_lt, sizeSub] at hbound
      obtain ⟨hskipped, hrows, hcolumns⟩ := hbound
      have htheta : 2 ≤ dims.1 := by
        by_contra htheta
        rw [if_neg htheta] at hskipped
        simp only [kIntMax, kSizeRange] at hskipped
        omega
      rw [if_pos htheta] at hskipped
      exact ⟨htheta, hskipped, hrows, fun h => hcolumns (Nat.pos_of_ne_zero h)⟩
    simp only [parseHumanReadable, hread, if_neg hfail, if_pos hbound]
  · cases hdims.symm.trans hnone

theorem parseHumanReadable_of_unreadable {text : List Char} (hdims : dimsOf t text = none)
    (pi junk : K) : ∃ e, (parseHumanReadable pi junk t (ofText text)).1 = .error (.exn e) := by
  rcases readDims_cases t text with ⟨dims, l, s, hdims', -⟩ | ⟨-, hfail⟩
  · cases hdims.symm.trans hdims'
  · simp only [parseHumanReadable, hfail, if_true]
    exact ⟨_, rfl⟩

/-- What is asked of the reader: it throws, or yields the mesh that the text holds. -/
def Parses (t : Numbers K) (text : List Char) (result : Except Halt (MeshCreator K)) : Prop :=
  (∃ e, result = .error (.exn e)) ∨ ∃ m, result = .ok m ∧ IsRead t text m

omit [Field K] [DecidableEq K] in
theorem not_parses_fault {text : List Char} (f : Fault) :
    ¬ Parses (K := K) t text (.error (.fault f)) := by
  rintro (⟨e, h⟩ | ⟨m, h, -⟩) <;> cases h

theorem parses_of_loops {text l : List Char} {dims : DimType}
    (hdims : dimsOf t text = some (dims, l)) (hloops : Loops dims) (pi junk : K) :
    Parses t text (parseHumanReadable pi junk t (ofText text)).1 ↔
      (Accepted dims (limsOf t dims l) →
        (numbersOf t dims l).length = count dims) := by
  obtain ⟨thetas, rows, hresult, hthetas, hphis, hrows⟩ :=
    parseHumanReadable_of_loops hdims hloops pi junk
  have hcount : 0 < count dims := Nat.add_pos_left (Nat.zero_lt_of_lt hloops.theta) _
  rw [hresult]
  by_cases hacc : Accepted dims (rowLims thetas rows)
  · rw [ofRows_of_accepted hacc]
    have hlims := rowLims_eq hacc.phi hthetas hphis
    rw [hlims] at hacc ⊢
    constructor
    · rintro (⟨e, h⟩ | ⟨m, -, hm⟩) _
      · cases h
      · exact (length_of_isRead hdims hm).2
    · intro h
      have hlen := h hacc
      obtain ⟨body, hbody, hpresent⟩ := present_numbersOf hcount hlen
      exact .inr ⟨_, rfl, dims, l, body, _, hdims, hloops, hbody, hlen, hpresent,
        holds_withGrids hloops hacc hlen (hrows ((length_numbersOf hcount).mp hlen))⟩
  · obtain ⟨e, he⟩ := ofRows_of_refused hacc pi
    rw [he]
    refine iff_of_true (.inl ⟨e, rfl⟩) fun hacc' => absurd ?_ hacc
    rwa [rowLims_eq hacc'.phi hthetas hphis]

/-- A text is refused or read as it stands exactly if its loops end, and its numbers are all there
unless the limits among them are refused. -/
theorem parses_iff (pi junk : K) (t : Numbers K) (dimOpt : Option DimType)
    (limOpt : Option (LimType K)) (ef : EFormat) (text : List Char) :
    Parses t text (parseMeshFrom pi junk t .humanReadable dimOpt limOpt ef (ofText text)).1 ↔
      Readable t text := by
  rw [parseMeshFrom]
  cases hdims : dimsOf t text with
  | none =>
    obtain ⟨e, he⟩ := parseHumanReadable_of_unreadable hdims pi junk
    rw [he]
    refine iff_of_true (.inl ⟨e, rfl⟩) fun dims l hsome => ?_
    cases hdims.symm.trans hsome
  | some p =>
    obtain ⟨dims, l⟩ := p
    have hreadable : Readable t text ↔ Loops dims ∧
        (Accepted dims (limsOf t dims l) →
          (numbersOf t dims l).length = count dims) := by
      constructor
      · intro h
        exact h dims l hdims
      · intro h dims' l' hdims'
        cases hdims.symm.trans hdims'
        exact h
    rw [hreadable]
    by_cases hloops : Loops dims
    · rw [parses_of_loops hdims hloops, and_iff_right hloops]
    · rw [parseHumanReadable_of_not_loops hdims hloops]
      exact iff_of_false (not_parses_fault _) fun h => hloops h.1

def shortText : List Char := "2\t2\nI\nphi\\th\t\t0\t1\n0\t5\t6\n1\t7\n".toList

theorem not_parses :
    ¬ Parses rationalNumbers shortText (parseMeshFrom 3 9 rationalNumbers .humanReadable none none
      .default (ofText shortText)).1 ∧
    ¬ Parses rationalNumbers "1\t5\n".toList (parseMeshFrom 3 9 rationalNumbers .humanReadable none
      none .default (ofText "1\t5\n".toList)).1 := by
  have hdims : dimsOf rationalNumbers shortText =
      some ((2, 2), "\nI\nphi\\th\t\t0\t1\n0\t5\t6\n1\t7\n".toList) := by decide +kernel
  have hdims' : dimsOf rationalNumbers "1\t5\n".toList = some ((1, 5), "\n".toList) := by
    decide +kernel
  constructor
  · have hloops : Loops (2, 2) := ⟨le_rfl, by decide, by decide, by decide⟩
    rw [parseMeshFrom]
    rw [parses_of_loops hdims hloops]
    decide +kernel
  · have hloops : ¬ Loops (1, 5) := fun h => absurd h.theta (by decide)
    rw [parseMeshFrom]
    rw [parseHumanReadable_of_not_loops hdims' hloops]
    exact not_parses_fault _

end Parses

end DistributedMathArh.MeshCreator
