import DistributedMathArh.Common.Generator
import DistributedMathArh.Network.TaskRoundTrip

namespace DistributedMathArh

open Json

namespace TestSolveParam

structure TaskDocument (val : Value) (ms : Members) : Prop where
  experimentId : ∃ v n, val.member "experiment_id" = .ok v ∧ v.asUInt = .ok n
  N : ∃ v n, val.member "N" = .ok v ∧ v.asUInt = .ok n
  range : ∃ v a b first second, val.member "range" = .ok v ∧ v.item 0 = .ok a ∧ v.item 1 = .ok b ∧
    a.asUInt = .ok first ∧ b.asUInt = .ok second
  args : val.member "args" = .ok (.object ms)
  primitive : ∀ key x, ms.lookup key = some x → ∃ v, jsonToVariant x = .ok v

theorem mem_keys_iff_lookup {ms : Members} {key : String} :
    key ∈ ms.map Prod.fst ↔ ∃ x, ms.lookup key = some x := by
  rw [← Option.isSome_iff_exists, List.lookup_isSome_iff, List.mem_map]
  constructor
  · rintro ⟨m, hm, rfl⟩
    exact ⟨m, hm, beq_self_eq_true _⟩
  · rintro ⟨m, hm, hkey⟩
    exact ⟨m, hm, (beq_iff_eq.mp hkey).symm⟩

theorem argsOfJson_object {ms : Members}
    (hprim : ∀ key x, ms.lookup key = some x → ∃ v, jsonToVariant x = .ok v) :
    ∃ args, argsOfJson (.object ms) = .ok args ∧
      ∀ key x v, ms.lookup key = some x → jsonToVariant x = .ok v → args.lookup key = some v := by
  let vals : String → JsonVariant := fun key =>
    (((ms.lookup key).bind fun x => (jsonToVariant x).toOption)).getD .null
  have hvals {key : String} {x : Value} {v : JsonVariant} (hx : ms.lookup key = some x)
      (hv : jsonToVariant x = .ok v) : vals key = v := by
    simp only [vals, hx, Option.bind_some, hv]
    rfl
  refine ⟨(ms.map Prod.fst).foldl (fun a key => a.insert key (vals key)) ∅, ?_, ?_⟩
  · simp only [argsOfJson, Value.getMemberNames]
    apply foldlM_insert
    intro key hkey a
    obtain ⟨x, hx⟩ := mem_keys_iff_lookup.mp hkey
    obtain ⟨v, hv⟩ := hprim key x hx
    rw [hvals hx hv]
    simp [Value.member, hx, hv, bind, Except.bind, pure, Except.pure]
  · intro key x v hx hv
    rw [lookup_foldl_insert, if_pos (mem_keys_iff_lookup.mpr ⟨x, hx⟩), hvals hx hv]

theorem ofJson_of_document {val : Value} {ms : Members} (h : TaskDocument val ms) :
    ∃ t, ofJson val = .ok t ∧
      ∀ key x v, ms.lookup key = some x → jsonToVariant x = .ok v → t.args.lookup key = some v := by
  obtain ⟨ve, e, hve, he⟩ := h.experimentId
  obtain ⟨vn, n, hvn, hn⟩ := h.N
  obtain ⟨vr, va, vb, first, second, hvr, hva, hvb, hfirst, hsecond⟩ := h.range
  obtain ⟨args, hargs, hlookup⟩ := argsOfJson_object h.primitive
  refine ⟨⟨e.toUInt64, n.toUInt64, (first.toUInt64, second.toUInt64), args⟩, ?_, hlookup⟩
  simp only [ofJson, hve, he, hvn, hn, hvr, hva, hvb, hfirst, hsecond, h.args, hargs, bind,
    Except.bind, pure, Except.pure]

end TestSolveParam

namespace Generators

open TestSolveParam

def parameterNames : DistributionType → List String
  | .normal => ["mean", "dev"]
  | .uniform => ["a", "b"]
  | .exponential => ["lambda"]
  | .last => []

def generator (p : String → Double) : DistributionType → DistributionFunctor
  | .normal => .normal (p "mean") (p "dev")
  | .uniform => .uniform (p "a") (p "b")
  | .exponential => .exponential (p "lambda")
  | .last => .one

variable {args : Args} {key : String}

theorem floatAt_double {x : Double} (h : args.lookup key = some (.double x)) :
    floatAt args key = .ok x := by
  rw [floatAt, h]
  rfl

theorem floatAt_cases {v : JsonVariant} (h : args.lookup key = some v) :
    (∃ x, v = .double x) ∨ floatAt args key = .error .badVariantAccess := by
  rw [floatAt, h]
  cases v with
  | double x => exact .inl ⟨x, rfl⟩
  | _ => exact .inr rfl

theorem parseFuncOf_double {p : String → Double} {d : DistributionType}
    (h : ∀ key ∈ parameterNames d, args.lookup key = some (.double (p key))) :
    parseFuncOf args d = .ok (generator p d) := by
  have hfloat : ∀ key ∈ parameterNames d, floatAt args key = .ok (p key) :=
    fun key hkey => floatAt_double (h key hkey)
  cases d with
  | last => rfl
  | exponential =>
    simp only [parseFuncOf, hfloat "lambda" (by decide)]
    rfl
  | normal =>
    simp only [parseFuncOf, hfloat "mean" (by decide), hfloat "dev" (by decide)]
    rfl
  | uniform =>
    simp only [parseFuncOf, hfloat "a" (by decide), hfloat "b" (by decide)]
    rfl

theorem parseFuncOf_not_double {d : DistributionType}
    (hall : ∀ key ∈ parameterNames d, ∃ v, args.lookup key = some v)
    (hsome : ¬∀ key ∈ parameterNames d, ∃ x, args.lookup key = some (.double x)) :
    parseFuncOf args d = .error .badVariantAccess := by
  have hfloat : ∀ key ∈ parameterNames d, (∃ x, args.lookup key = some (.double x)) ∨
      floatAt args key = .error .badVariantAccess := by
    intro key hkey
    obtain ⟨v, hv⟩ := hall key hkey
    rcases floatAt_cases hv with ⟨x, rfl⟩ | h
    · exact .inl ⟨x, hv⟩
    · exact .inr h
  have htwo (key₁ key₂ : String) (h₁ : key₁ ∈ parameterNames d) (h₂ : key₂ ∈ parameterNames d)
      (honly : ∀ key ∈ parameterNames d, key = key₁ ∨ key = key₂) :
      floatAt args key₁ = .error .badVariantAccess ∨
        ∃ x, floatAt args key₁ = .ok x ∧ floatAt args key₂ = .error .badVariantAccess := by
    rcases hfloat key₁ h₁ with ⟨x, hx⟩ | h
    · refine .inr ⟨x, floatAt_double hx, ?_⟩
      rcases hfloat key₂ h₂ with ⟨y, hy⟩ | h
      · refine absurd ?_ hsome
        intro key hkey
        rcases honly key hkey with rfl | rfl
        · exact ⟨x, hx⟩
        · exact ⟨y, hy⟩
      · exact h
    · exact .inl h
  cases d with
  | last => exact absurd (fun key hkey => by cases hkey) hsome
  | exponential =>
    rcases htwo "lambda" "lambda" (by decide) (by decide) (by decide) with h | ⟨x, hx, h⟩
    · simp only [parseFuncOf, h]
      rfl
    · simp only [parseFuncOf, h]
      rfl
  | normal =>
    rcases htwo "mean" "dev" (by decide) (by decide) (by decide) with h | ⟨x, hx, h⟩
    · simp only [parseFuncOf, h]
      rfl
    · simp only [parseFuncOf, hx, h]
      rfl
  | uniform =>
    rcases htwo "a" "b" (by decide) (by decide) (by decide) with h | ⟨x, hx, h⟩
    · simp only [parseFuncOf, h]
      rfl
    · simp only [parseFuncOf, hx, h]
      rfl

theorem jsonToVariant_of_numeric {x : Value} (h : x.isNumeric) :
    ∃ v, jsonToVariant x = .ok v ∧ ∀ y, v = .double y → x = .real y := by
  cases x with
  | int i => exact ⟨.int64 i, rfl, fun y h => by cases h⟩
  | uint n => exact ⟨.uint64 n, rfl, fun y h => by cases h⟩
  | real d =>
    refine ⟨.double d, rfl, fun y h => ?_⟩
    cases h
    rfl
  | _ => cases h

/-- A task with numbers in all parameters of its distribution is decoded; its generator has these
parameters when every number is written as a real, and is refused otherwise. -/
theorem parseFunc_of_document {val : Value} {ms : Members} {type : String} {d : DistributionType}
    (hdoc : TaskDocument val ms) (hd : stringToDistributionType.lookup type = some d)
    (htype : ms.lookup "type" = some (.string type))
    (hnum : ∀ key ∈ parameterNames d, ∃ x, ms.lookup key = some x ∧ x.isNumeric) :
    ∃ t, ofJson val = .ok t ∧ functorOf t.args = parseFunc type t.args ∧
      (∀ p : String → Double,
        (∀ key ∈ parameterNames d, ms.lookup key = some (.real (p key))) →
          parseFunc type t.args = .ok (generator p d)) ∧
      ((¬∀ key ∈ parameterNames d, ∃ x, ms.lookup key = some (.real x)) →
        parseFunc type t.args = .error .badVariantAccess) := by
  obtain ⟨t, ht, hlookup⟩ := ofJson_of_document hdoc
  have hparse : parseFunc type t.args = parseFuncOf t.args d := by
    simp only [parseFunc, hd]
  have hname : t.args.lookup "type" = some (.string type) := hlookup _ _ _ htype rfl
  refine ⟨t, ht, ?_, ?_, ?_⟩
  · rw [functorOf, hname]
    rfl
  · intro p hp
    rw [hparse]
    apply parseFuncOf_double
    intro key hkey
    exact hlookup _ _ _ (hp key hkey) rfl
  · intro hsome
    rw [hparse]
    apply parseFuncOf_not_double
    · intro key hkey
      obtain ⟨x, hx, hxnum⟩ := hnum key hkey
      obtain ⟨v, hv, -⟩ := jsonToVariant_of_numeric hxnum
      exact ⟨v, hlookup _ _ _ hx hv⟩
    · intro hall
      apply hsome
      intro key hkey
      obtain ⟨x, hx, hxnum⟩ := hnum key hkey
      obtain ⟨v, hv, hreal⟩ := jsonToVariant_of_numeric hxnum
      obtain ⟨y, hy⟩ := hall key hkey
      rw [hlookup _ _ _ hx hv] at hy
      exact ⟨y, by rw [hx, hreal y (Option.some.inj hy)]⟩

def uniformMembers (a b : Value) : Members := [("type", .string "uniform"), ("a", a), ("b", b)]

def uniformTask (a b : Value) : Value :=
  document (.int 1) (.int 1) (.int 0) (.int 9) (some (.object (uniformMembers a b)))

theorem taskDocument_uniformTask {a b : Value} (ha : a.isNumeric) (hb : b.isNumeric) :
    TaskDocument (uniformTask a b) (uniformMembers a b) where
  experimentId := ⟨_, _, rfl, rfl⟩
  N := ⟨_, _, rfl, rfl⟩
  range := ⟨_, _, _, _, _, rfl, rfl, rfl, rfl, rfl⟩
  args := rfl
  primitive key x h := by
    obtain ⟨l₁, l₂, hms, -⟩ := List.lookup_eq_some_iff.mp h
    have hmem : (key, x) ∈ uniformMembers a b := by
      rw [hms]
      exact List.mem_append_right _ List.mem_cons_self
    rcases List.mem_cons.mp hmem with h | hmem
    · cases h
      exact ⟨_, rfl⟩
    · rcases List.mem_cons.mp hmem with h | hmem
      · cases h
        obtain ⟨v, hv, -⟩ := jsonToVariant_of_numeric ha
        exact ⟨v, hv⟩
      · cases List.mem_singleton.mp hmem
        obtain ⟨v, hv, -⟩ := jsonToVariant_of_numeric hb
        exact ⟨v, hv⟩

theorem parseFunc_of_document_unit :
    ∃ t, ofJson (uniformTask (.real (.num 0)) (.real (.num 1))) = .ok t ∧
      parseFunc "uniform" t.args = .ok (.uniform (.num 0) (.num 1)) := by
  obtain ⟨t, ht, -, hreal, -⟩ := parseFunc_of_document
    (taskDocument_uniformTask (a := .real (.num 0)) (b := .real (.num 1)) rfl rfl)
    (rfl : stringToDistributionType.lookup "uniform" = some .uniform) rfl
    (List.forall_mem_cons.mpr ⟨⟨_, rfl, rfl⟩, List.forall_mem_singleton.mpr ⟨_, rfl, rfl⟩⟩)
  refine ⟨t, ht, hreal (fun key => if key = "a" then .num 0 else .num 1) ?_⟩
  exact List.forall_mem_cons.mpr ⟨rfl, List.forall_mem_singleton.mpr rfl⟩

theorem exists_not_parsed :
    TaskDocument (uniformTask (.int 0) (.int 1)) (uniformMembers (.int 0) (.int 1)) ∧
      ∃ t, ofJson (uniformTask (.int 0) (.int 1)) = .ok t ∧
        functorOf t.args = .error .badVariantAccess ∧
        ∀ functor, parseFunc "uniform" t.args ≠ .ok functor := by
  refine ⟨taskDocument_uniformTask rfl rfl, _, rfl, rfl, ?_⟩
  intro functor h
  cases h

end Generators

end DistributedMathArh
