import DistributedMathArh.Common.Generator
import DistributedMathArh.Lib.Transition
import DistributedMathArh.MathCore.Mesh
import DistributedMathArh.Network.SliceAway

/-! `n_message_callback`: how a worker handles one task, over any schedule of its threads. -/

namespace DistributedMathArh

open Generators

/-- The value that each thread of the pool keeps in `thread_local auto functor`. -/
abbrev Functors (T : Type) := T → Option DistributionFunctor

/-- What the threads did during one message: those that entered the parallel region, and the
iterations in the order of their critical sections, each with the thread that ran it. -/
structure Schedule (T : Type) where
  team : List T
  order : List (T × Int)

structure Draw (T : Type) where
  thread : T
  iteration : Int
  functor : DistributionFunctor

structure Handled (T K : Type) where
  functors : Functors T
  res : Valarray K
  draws : List (Draw T)

namespace MessageCallback

def kIntMax : Int := 2 ^ 31 - 1

def asInt (n : UInt64) : Int := (n.toNat : Int).bmod (2 ^ 32)

/-- The values of `i` in `for (; i <= second; ++i)`: the `int` is compared as a `size_t`. -/
def loop (second : UInt64) (i : Int) : Except Halt (List Int) :=
  if i % 2 ^ 64 ≤ second.toNat then
    if i < kIntMax then (loop second (i + 1)).map (i :: ·) else .error (.fault .signedOverflow)
  else .ok []
termination_by (kIntMax - i).toNat

def iterations (range : UInt64 × UInt64) : Except Halt (List Int) := loop range.2 (asInt range.1)

variable {T K : Type} [DecidableEq T] [Field K] [DecidableEq K]

/-- A thread enters the parallel region: `functor` is initialised once in its life. -/
def enter (args : Args) (fs : Functors T) (t : T) : Except Exn (Functors T) :=
  match fs t with
  | some _ => .ok fs
  | none => (functorOf args).map fun functor => Function.update fs t (some functor)

def accumulate (mesh : Int → Valarray K) (res : Valarray K) (order : List (T × Int)) :
    Except Halt (Valarray K) :=
  order.foldlM (fun res x => Valarray.zipOp (· + ·) res (mesh x.2)) res

def draws (fs : Functors T) (order : List (T × Int)) : List (Draw T) :=
  order.filterMap fun x => (fs x.1).map fun functor => ⟨x.1, x.2, functor⟩

/-- `n_message_callback` once `ts` is read; `mesh` holds the `data_[2]` of each iteration.  An
exception cannot leave the parallel region. -/
def nMessageCallback (pi : K) (mesh : Int → Valarray K) (fs : Functors T) (ts : TestSolveParam)
    (s : Schedule T) : Except Halt (Handled T K) :=
  match (MeshCreator.init pi).constructDefault with
  | (_, .error e) => .error (.exn e)
  | (ms, .ok ()) =>
    match s.team.foldlM (enter ts.args) fs with
    | .error _ => .error (.fault .terminate)
    | .ok fs => do
      let _ ← iterations ts.range
      let res ← accumulate mesh (ms.data 0) s.order
      return ⟨fs, res, draws fs s.order⟩

def Schedules (s : Schedule T) (ts : TestSolveParam) : Prop :=
  ∀ is, iterations ts.range = .ok is →
    (s.order.map Prod.snd).Perm is ∧ ∀ x ∈ s.order, x.1 ∈ s.team

theorem loop_eq {second : UInt64} (hsecond : second.toNat < 2 ^ 31 - 1) (k i : Nat)
    (hk : i + k = second.toNat + 1) :
    loop second i = .ok ((List.range' i k).map fun n : Nat => (n : Int)) := by
  induction k generalizing i with
  | zero =>
    rw [loop, if_neg (by omega)]
    rfl
  | succ k ih =>
    have hnext := ih (i + 1) (by omega)
    rw [Nat.cast_add, Nat.cast_one] at hnext
    rw [loop, if_pos (by omega), if_pos (by rw [kIntMax]; omega), hnext]
    rfl

theorem iterations_eq {range : UInt64 × UInt64} (hsecond : range.2.toNat < 2 ^ 31 - 1)
    (hle : range.1.toNat ≤ range.2.toNat) :
    iterations range = .ok
      ((List.range' range.1.toNat (range.2.toNat + 1 - range.1.toNat)).map fun n : Nat => (n : Int)) := by
  have hfirst : asInt range.1 = (range.1.toNat : Int) := by
    apply Int.bmod_eq_of_le <;> omega
  rw [iterations, hfirst]
  exact loop_eq hsecond _ _ (by omega)

theorem loop_overflow {second : UInt64} (hsecond : kIntMax ≤ second.toNat) (k i : Nat)
    (hk : (i : Int) + k = kIntMax) : loop second i = .error (.fault .signedOverflow) := by
  unfold kIntMax at hsecond hk
  induction k generalizing i with
  | zero =>
    rw [loop, if_pos (by omega), if_neg (by unfold kIntMax; omega)]
  | succ k ih =>
    have hnext := ih (i + 1) (by omega)
    rw [Nat.cast_add, Nat.cast_one] at hnext
    rw [loop, if_pos (by omega), if_pos (by unfold kIntMax; omega), hnext]
    rfl

theorem iterations_of_large {range : UInt64 × UInt64} (hfirst : 2 ^ 31 ≤ range.1.toNat)
    (hsmall : range.1.toNat < UInt32.size) (hsecond : range.2.toNat < UInt32.size) :
    iterations range = .ok [] := by
  unfold UInt32.size at hsmall hsecond
  have hint : asInt range.1 = range.1.toNat - 2 ^ 32 := by
    unfold asInt
    rw [← Int.sub_bmod_right]
    apply Int.bmod_eq_of_le
    · omega
    · omega
  rw [iterations, loop, if_neg (by omega)]

def RunsExactly (t : TestSolveParam) : Prop :=
  ∃ is, iterations t.range = .ok is ∧ is.length = t.iterations

theorem runsExactly_of_lt {t : TestSolveParam} (hle : t.range.1 ≤ t.range.2)
    (hsecond : t.range.2.toNat < 2 ^ 31 - 1) : RunsExactly t := by
  refine ⟨_, iterations_eq hsecond (UInt64.le_iff_toNat_le.mp hle), ?_⟩
  rw [List.length_map, List.length_range']
  rfl

theorem not_runsExactly {t : TestSolveParam} (hle : t.range.1 ≤ t.range.2)
    (hfirst : t.range.1.toNat < UInt32.size) (hsecond : t.range.2.toNat < UInt32.size)
    (hlarge : 2 ^ 31 - 1 ≤ t.range.2.toNat) : ¬RunsExactly t := by
  rintro ⟨is, his, hlength⟩
  rcases Nat.lt_or_ge t.range.1.toNat (2 ^ 31) with hint | hint
  · -- the start is an `int`, and the end lies at or above the largest one
    have hstart : asInt t.range.1 = (t.range.1.toNat : Int) := by
      apply Int.bmod_eq_of_le <;> omega
    obtain ⟨k, hk⟩ := Int.le.dest (show (t.range.1.toNat : Int) ≤ kIntMax by unfold kIntMax; omega)
    have hend : kIntMax ≤ t.range.2.toNat := by
      unfold kIntMax
      omega
    rw [iterations, hstart, loop_overflow hend k _ hk] at his
    cases his
  · -- the comparison fails at once although the range is not empty
    rw [iterations_of_large hint hfirst hsecond] at his
    cases his
    have := UInt64.le_iff_toNat_le.mp hle
    rw [List.length_nil, TestSolveParam.iterations] at hlength
    omega

/-- For the tasks that a worker decodes, the loop is right exactly below the largest `int`. -/
theorem runsExactly_iff {val : Json.Value} {t : TestSolveParam}
    (hval : TestSolveParam.ofJson val = .ok t) (hle : t.range.1 ≤ t.range.2) :
    RunsExactly t ↔ t.range.2.toNat < 2 ^ 31 - 1 := by
  obtain ⟨hfirst, hsecond⟩ := TestSolveParam.range_lt_of_ofJson hval
  constructor
  · intro hruns
    by_contra hlarge
    exact not_runsExactly hle hfirst hsecond (Nat.not_lt.mp hlarge) hruns
  · exact runsExactly_of_lt hle

theorem runsExactly_iff_ten :
    RunsExactly ⟨1, 1, (0, 9), ∅⟩ ↔ (9 : UInt64).toNat < 2 ^ 31 - 1 :=
  runsExactly_iff (rfl : TestSolveParam.ofJson (.object [("experiment_id", .int 1),
    ("N", .int 1), ("range", .array [.int 0, .int 9])]) = .ok ⟨1, 1, (0, 9), ∅⟩) (by decide)

theorem exists_not_runsExactly :
    ∃ (val : Json.Value) (t : TestSolveParam), TestSolveParam.ofJson val = .ok t ∧
      t.range.1 ≤ t.range.2 ∧ ¬RunsExactly t :=
  ⟨.object [("experiment_id", .int 1), ("N", .int 1),
      ("range", .array [.uint 2147483648, .uint 2147483648])],
    ⟨1, 1, (2147483648, 2147483648), ∅⟩, rfl, by decide,
    not_runsExactly (by decide) (by decide) (by decide) (by decide)⟩

theorem nMessageCallback_eq_ok {pi : K} {mesh : Int → Valarray K} {fs : Functors T}
    {ts : TestSolveParam} {s : Schedule T} {h : Handled T K} :
    nMessageCallback pi mesh fs ts s = .ok h ↔
      ∃ ms is, (MeshCreator.init pi).constructDefault = (ms, .ok ()) ∧
        s.team.foldlM (enter ts.args) fs = .ok h.functors ∧ iterations ts.range = .ok is ∧
        accumulate mesh (ms.data 0) s.order = .ok h.res ∧ h.draws = draws h.functors s.order := by
  cases hms : (MeshCreator.init pi).constructDefault with
  | mk ms res =>
    cases res with
    | error e => simp [nMessageCallback, hms]
    | ok u =>
      cases hteam : s.team.foldlM (enter ts.args) fs with
      | error e => simp [nMessageCallback, hms, hteam]
      | ok fs' =>
        simp only [nMessageCallback, hms, hteam, bind_eq_ok]
        constructor
        · rintro ⟨is, his, res, hres, hh⟩
          cases hh
          exact ⟨ms, is, rfl, rfl, his, hres, rfl⟩
        · rintro ⟨ms, is, hms, hfs, his, hres, hdraws⟩
          cases hms
          cases hfs
          refine ⟨is, his, h.res, hres, ?_⟩
          rw [← hdraws]
          rfl

theorem enter_eq_ok {args : Args} {fs fs' : Functors T} {t : T} :
    enter args fs t = .ok fs' ↔
      (∃ functor, fs t = some functor ∧ fs' = fs) ∨
        ∃ functor, fs t = none ∧ functorOf args = .ok functor ∧
          fs' = Function.update fs t (some functor) := by
  cases ht : fs t with
  | some functor => simp [enter, ht, eq_comm]
  | none =>
    cases hf : functorOf args with
    | error e => simp [enter, ht, hf, Except.map]
    | ok functor => simp [enter, ht, hf, Except.map, eq_comm]

theorem foldlM_enter_eq_ok {args : Args} {team : List T} {fs fs' : Functors T}
    (h : team.foldlM (enter args) fs = .ok fs') (t : T) :
    fs' t = (fs t).or (if t ∈ team then (functorOf args).toOption else none) ∧
      (t ∈ team → (fs' t).isSome) := by
  induction team generalizing fs with
  | nil =>
    cases h
    simp
  | cons t₀ team ih =>
    rw [List.foldlM_cons] at h
    obtain ⟨fs₁, hfirst, hrest⟩ := bind_eq_ok.mp h
    obtain ⟨heq, hsome⟩ := ih hrest
    rcases enter_eq_ok.mp hfirst with ⟨functor, ht, rfl⟩ | ⟨functor, ht, hargs, rfl⟩
    · by_cases h₀ : t = t₀
      · subst h₀
        simp [heq, ht]
      · simp only [List.mem_cons, h₀, false_or]
        exact ⟨heq, hsome⟩
    · by_cases h₀ : t = t₀
      · subst h₀
        simp [heq, ht, hargs, Except.toOption]
      · rw [Function.update_of_ne h₀] at heq
        simp only [List.mem_cons, h₀, false_or]
        exact ⟨heq, hsome⟩

omit [DecidableEq T] [DecidableEq K] in
theorem getD_accumulate {mesh : Int → Valarray K} {order : List (T × Int)} {v res : Valarray K}
    (h : accumulate mesh v order = .ok res) (j : Nat) :
    res.getD j 0 = v.getD j 0 + (order.map fun x => (mesh x.2).getD j 0).sum := by
  induction order generalizing v with
  | nil =>
    cases h
    simp
  | cons x order ih =>
    rw [accumulate, List.foldlM_cons] at h
    obtain ⟨w, hstep, hrest⟩ := bind_eq_ok.mp h
    by_cases hlen : v.length = (mesh x.2).length
    · rw [Valarray.zipOp_of_length hlen] at hstep
      cases hstep
      rw [ih hrest, Valarray.getD_zipWith (add_zero 0) hlen, List.map_cons, List.sum_cons, add_assoc]
    · rw [Valarray.zipOp, if_neg hlen] at hstep
      cases hstep

omit [DecidableEq T] [DecidableEq K] in
theorem accumulate_of_length {mesh : Int → Valarray K} {n : Nat} (hmesh : ∀ i, (mesh i).length = n)
    (order : List (T × Int)) {v : Valarray K} (hv : v.length = n) :
    ∃ res, accumulate mesh v order = .ok res := by
  induction order generalizing v with
  | nil => exact ⟨v, rfl⟩
  | cons x order ih =>
    have hlen : v.length = (mesh x.2).length := hv.trans (hmesh x.2).symm
    rw [accumulate, List.foldlM_cons, Valarray.zipOp_of_length hlen]
    apply ih
    rw [List.length_zipWith, ← hlen, min_self, hv]

theorem foldlM_enter_of_ok {args : Args} {functor : DistributionFunctor}
    (hargs : functorOf args = .ok functor) (team : List T) (fs : Functors T) :
    ∃ fs', team.foldlM (enter args) fs = .ok fs' := by
  induction team generalizing fs with
  | nil => exact ⟨fs, rfl⟩
  | cons t team ih =>
    obtain ⟨fs₁, h₁⟩ : ∃ fs₁, enter args fs t = .ok fs₁ := by
      cases ht : fs t with
      | some f => exact ⟨fs, by rw [enter, ht]⟩
      | none => exact ⟨_, by rw [enter, ht, hargs]; rfl⟩
    obtain ⟨fs', h⟩ := ih fs₁
    exact ⟨fs', by rw [List.foldlM_cons, h₁]; exact h⟩

theorem exists_handled [CharZero K] {pi : K} (hpi : pi ≠ 0) {mesh : Int → Valarray K}
    (hmesh : ∀ i, (mesh i).length = 175) (fs : Functors T) {ts : TestSolveParam}
    {functor : DistributionFunctor} (hargs : functorOf ts.args = .ok functor)
    (hsecond : ts.range.2.toNat < 2 ^ 31 - 1) (hle : ts.range.1.toNat ≤ ts.range.2.toNat)
    (s : Schedule T) : ∃ h, nMessageCallback pi mesh fs ts s = .ok h := by
  obtain ⟨ms, hms, hlen, -⟩ := MeshCreator.constructDefault_init hpi
  obtain ⟨fs', hteam⟩ := foldlM_enter_of_ok hargs s.team fs
  obtain ⟨res, hres⟩ := accumulate_of_length hmesh s.order hlen
  exact ⟨⟨fs', res, draws fs' s.order⟩, nMessageCallback_eq_ok.mpr
    ⟨ms, _, hms, hteam, iterations_eq hsecond hle, hres, rfl⟩⟩

end MessageCallback

end DistributedMathArh
