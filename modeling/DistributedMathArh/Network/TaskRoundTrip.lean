import DistributedMathArh.Network.TestSolveParam

namespace DistributedMathArh

open Json

def JsonVariant.reread : JsonVariant → JsonVariant
  | .uint64 n => if n.toNat < 2 ^ 63 then .int64 n.toInt64 else .uint64 n
  | .double d => if d = .nan then .null else .double d
  | v => v

theorem jsonToVariant_reread (v : JsonVariant) :
    jsonToVariant (variantToJson v).reread = .ok v.reread := by
  cases v with
  | uint64 n =>
    simp only [variantToJson, Value.reread, JsonVariant.reread]
    split <;> rfl
  | double d => cases d <;> rfl
  | _ => rfl

namespace TestSolveParam

section Args

variable {f : Value → Value} {g : JsonVariant → JsonVariant}

theorem lookup_foldl_insert (vals : String → JsonVariant) (keys : List String) (acc : Args)
    (k : String) :
    (keys.foldl (fun a key => a.insert key (vals key)) acc).lookup k =
      if k ∈ keys then some (vals k) else acc.lookup k := by
  induction keys generalizing acc with
  | nil => simp
  | cons key keys ih =>
    rw [List.foldl_cons, ih]
    by_cases h : k = key
    · subst h
      simp
    · simp [h, AList.lookup_insert_ne h]

theorem foldlM_insert {step : Args → String → Except Exn Args} {vals : String → JsonVariant}
    {keys : List String} (h : ∀ key ∈ keys, ∀ a, step a key = .ok (a.insert key (vals key)))
    (acc : Args) :
    keys.foldlM step acc = .ok (keys.foldl (fun a key => a.insert key (vals key)) acc) := by
  induction keys generalizing acc with
  | nil => rfl
  | cons key keys ih =>
    rw [List.foldlM_cons, h key List.mem_cons_self acc]
    exact ih (fun key hk a => h key (List.mem_cons_of_mem _ hk) a) _

theorem lookup_members (f : Value → Value) (es : List (Σ _ : String, JsonVariant)) (k : String) :
    List.lookup k (es.map fun e => (e.1, f (variantToJson e.2))) =
      (List.dlookup k es).map fun v => f (variantToJson v) := by
  induction es with
  | nil => rfl
  | cons e es ih =>
    obtain ⟨key, v⟩ := e
    by_cases h : k = key
    · subst h
      simp
    · have hne : (k == key) = false := by simpa using h
      simp [List.lookup_cons, hne, ih, List.dlookup_cons_ne es ⟨key, v⟩ h]

theorem argsOfJson_map (hfg : ∀ v, jsonToVariant (f (variantToJson v)) = .ok (g v)) (args : Args) :
    ∃ args', argsOfJson (.object (args.entries.map fun e => (e.1, f (variantToJson e.2)))) = .ok args' ∧
      ∀ k, args'.lookup k = (args.lookup k).map g := by
  let vals : String → JsonVariant := fun k => ((args.lookup k).map g).getD .null
  have keys : (args.entries.map fun e => (e.1, f (variantToJson e.2))).map Prod.fst = args.keys := by
    simp [AList.keys, List.keys, Function.comp_def]
  refine ⟨args.keys.foldl (fun a key => a.insert key (vals key)) ∅, ?_, fun k => ?_⟩
  · simp only [argsOfJson, Value.getMemberNames, keys]
    refine foldlM_insert (fun key hkey a => ?_) ∅
    obtain ⟨v, hv⟩ := Option.isSome_iff_exists.mp (AList.lookup_isSome.mpr (AList.mem_keys.mpr hkey))
    have member : Value.member key (.object (args.entries.map fun e => (e.1, f (variantToJson e.2)))) =
        .ok (f (variantToJson v)) := by
      rw [Value.member, lookup_members]
      exact congrArg (fun o => Except.ok (Option.getD (o.map fun v => f (variantToJson v)) .null)) hv
    simp [member, bind, Except.bind, hfg, vals, hv, pure, Except.pure]
  · rw [lookup_foldl_insert]
    by_cases h : k ∈ args
    · obtain ⟨v, hv⟩ := Option.isSome_iff_exists.mp (AList.lookup_isSome.mpr h)
      simp [AList.mem_keys.mp h, vals, hv]
    · simp [AList.mem_keys.not.mp h, AList.lookup_eq_none.mpr h]

end Args

def document (experimentId n first second : Value) (args : Option Value) : Value :=
  .object ([("experiment_id", experimentId), ("N", n), ("range", .array [first, second])] ++
    match args with
    | none => []
    | some a => [("args", a)])

theorem ofJson_document (e n a b : Value) (args : Option Value) :
    ofJson (document e n a b args) = do
      let e ← e.asUInt
      let n ← n.asUInt
      let a ← a.asUInt
      let b ← b.asUInt
      let args ← argsOfJson (args.getD .null)
      return ⟨e.toUInt64, n.toUInt64, (a.toUInt64, b.toUInt64), args⟩ := by
  cases args <;> rfl

def argsDocument (f : Value → Value) (args : Args) : Option Value :=
  if args.entries = [] then none
  else some (.object (args.entries.map fun e => (e.1, f (variantToJson e.2))))

def documentOf (f : Value → Value) (t : TestSolveParam) : Value :=
  document (f (.uint t.experimentId)) (f (.uint t.N)) (f (.uint t.range.1)) (f (.uint t.range.2))
    (argsDocument f t.args)

theorem toJson_eq_documentOf (t : TestSolveParam) : t.toJson = documentOf id t := by
  simp only [toJson, documentOf, document, argsDocument]
  split <;> rfl

theorem toJson_reread_eq_documentOf (t : TestSolveParam) :
    t.toJson.reread = documentOf Value.reread t := by
  simp only [toJson, documentOf, document, argsDocument, Value.reread, Value.rereadMembers_eq_map]
  split <;> simp [Value.reread, Value.rereadElems, argsToJson, Value.rereadMembers_eq_map]

/-- The integer fields survive the 32-bit reads of the decoder. -/
def Narrow (t : TestSolveParam) : Prop :=
  t.experimentId.toNat < 2 ^ 32 ∧ t.N.toNat < 2 ^ 32 ∧
    t.range.1.toNat < 2 ^ 32 ∧ t.range.2.toNat < 2 ^ 32

theorem asUInt_uint {n : UInt64} (h : n.toNat < 2 ^ 32) :
    (Value.uint n).asUInt = .ok n.toUInt32 := by
  rw [Value.asUInt, Value.asUnsigned_uint (by omega)]
  rfl

theorem asUInt_reread_uint {n : UInt64} (h : n.toNat < 2 ^ 32) :
    (Value.uint n).reread.asUInt = .ok n.toUInt32 := by
  rw [Value.asUInt, Value.asUnsigned_reread_uint _ _ _ (by omega)]
  rfl

theorem lt_of_asUInt_uint {n : UInt64} {r : UInt32} (h : (Value.uint n).asUInt = .ok r) :
    n.toNat < 2 ^ 32 := by
  by_contra hn
  have : (Value.uint n).asUnsigned (2 ^ 32 - 1) "UInt" = .error
      (.logicError "LargestUInt out of UInt range") := if_neg (by omega)
  rw [Value.asUInt, this] at h
  cases h

theorem toUInt64_toUInt32 {n : UInt64} (h : n.toNat < 2 ^ 32) : n.toUInt32.toUInt64 = n := by
  apply UInt64.toNat_inj.mp
  rw [UInt32.toNat_toUInt64, UInt64.toNat_toUInt32, Nat.mod_eq_of_lt h]

theorem argsOfJson_argsDocument {f : Value → Value} {g : JsonVariant → JsonVariant}
    (hfg : ∀ v, jsonToVariant (f (variantToJson v)) = .ok (g v)) (args : Args) :
    ∃ args', argsOfJson ((argsDocument f args).getD .null) = .ok args' ∧
      ∀ k, args'.lookup k = (args.lookup k).map g := by
  by_cases h : args.entries = []
  · have hargs : args = ∅ := AList.ext h
    exact ⟨∅, by rw [argsDocument, if_pos h]; rfl, fun k => by simp [hargs]⟩
  · simpa [argsDocument, h] using argsOfJson_map hfg args

theorem ofJson_documentOf {f : Value → Value} {g : JsonVariant → JsonVariant}
    (hint : ∀ n : UInt64, n.toNat < 2 ^ 32 → (f (.uint n)).asUInt = .ok n.toUInt32)
    (hfg : ∀ v, jsonToVariant (f (variantToJson v)) = .ok (g v))
    {t : TestSolveParam} (ht : t.Narrow) :
    ∃ args', ofJson (documentOf f t) = .ok { t with args := args' } ∧
      ∀ k, args'.lookup k = (t.args.lookup k).map g := by
  obtain ⟨he, hn, ha, hb⟩ := ht
  obtain ⟨args', hargs, hlookup⟩ := argsOfJson_argsDocument hfg t.args
  refine ⟨args', ?_, hlookup⟩
  rw [documentOf, ofJson_document, hint _ he, hint _ hn, hint _ ha, hint _ hb, hargs]
  simp only [bind, Except.bind, pure, Except.pure, toUInt64_toUInt32 he, toUInt64_toUInt32 hn,
    toUInt64_toUInt32 ha, toUInt64_toUInt32 hb]

theorem narrow_of_ofJson {t t' : TestSolveParam} (h : ofJson t.toJson = .ok t') : t.Narrow := by
  rw [toJson_eq_documentOf, documentOf, ofJson_document] at h
  obtain ⟨_, he, h⟩ := bind_eq_ok.mp h
  obtain ⟨_, hn, h⟩ := bind_eq_ok.mp h
  obtain ⟨_, ha, h⟩ := bind_eq_ok.mp h
  obtain ⟨_, hb, _⟩ := bind_eq_ok.mp h
  exact ⟨lt_of_asUInt_uint he, lt_of_asUInt_uint hn, lt_of_asUInt_uint ha, lt_of_asUInt_uint hb⟩

theorem range_of_ofJson_reread {t t' : TestSolveParam} (h : ofJson t.toJson.reread = .ok t')
    (hfirst : t.range.1.toNat < 2 ^ 32) (hsecond : t.range.2.toNat < 2 ^ 32) :
    t'.range = t.range := by
  rw [toJson_reread_eq_documentOf, documentOf, ofJson_document, asUInt_reread_uint hfirst,
    asUInt_reread_uint hsecond] at h
  obtain ⟨e, -, h⟩ := bind_eq_ok.mp h
  obtain ⟨n, -, h⟩ := bind_eq_ok.mp h
  obtain ⟨_, ⟨⟩, h⟩ := bind_eq_ok.mp h
  obtain ⟨_, ⟨⟩, h⟩ := bind_eq_ok.mp h
  obtain ⟨args, -, h⟩ := bind_eq_ok.mp h
  cases h
  exact Prod.ext (toUInt64_toUInt32 hfirst) (toUInt64_toUInt32 hsecond)

theorem argsEq_of_lookup {args args' : Args} {g : JsonVariant → JsonVariant}
    (hlookup : ∀ k, args'.lookup k = (args.lookup k).map g)
    (hg : ∀ k v, args.lookup k = some v → v.eq (g v) = true) : argsEq args args' := by
  refine ⟨fun k => ?_, fun k x y hx hy => ?_⟩
  · rw [← AList.lookup_isSome, ← AList.lookup_isSome, hlookup, Option.isSome_map]
  · rw [hlookup, hx, Option.map_some, Option.some.injEq] at hy
    exact hy ▸ hg k x hx

def RoundTrips (v : Value) (t : TestSolveParam) : Prop :=
  ∃ t', ofJson v = .ok t' ∧ t.eq t'

def NoNaN (t : TestSolveParam) : Prop := ∀ k, t.args.lookup k ≠ some (.double .nan)

/-- No argument is an unsigned integer that the text step turns into a signed one. -/
def NoSmallUnsigned (t : TestSolveParam) : Prop :=
  ∀ k n, t.args.lookup k = some (.uint64 n) → 2 ^ 63 ≤ n.toNat

theorem roundTrips_memory {t : TestSolveParam} (hnan : t.NoNaN) (h : t.Narrow) :
    RoundTrips t.toJson t := by
  obtain ⟨args', hok, hlookup⟩ := ofJson_documentOf (f := id) (g := id)
    (fun n => asUInt_uint) jsonToVariant_variantToJson h
  refine ⟨{ t with args := args' }, by rw [toJson_eq_documentOf]; exact hok, rfl, rfl, rfl, ?_⟩
  exact argsEq_of_lookup hlookup fun k v hv => JsonVariant.eq_self fun e => hnan k (e ▸ hv)

theorem eq_reread {v : JsonVariant} (hnan : v ≠ .double .nan) :
    v.eq v.reread = true ↔ ∀ n, v = .uint64 n → 2 ^ 63 ≤ n.toNat := by
  cases v with
  | uint64 n => simp [JsonVariant.reread, JsonVariant.eq]
  | double d =>
    have hr : (JsonVariant.double d).reread = .double d := by
      cases d with
      | nan => exact absurd rfl hnan
      | _ => rfl
    simp [hr, JsonVariant.eq_self hnan]
  | _ => simp [JsonVariant.reread, JsonVariant.eq]

theorem roundTrips_text_iff {t : TestSolveParam} (hnan : t.NoNaN) (h : t.Narrow) :
    RoundTrips t.toJson.reread t ↔ t.NoSmallUnsigned := by
  obtain ⟨args', hok, hlookup⟩ := ofJson_documentOf (f := Value.reread) (g := JsonVariant.reread)
    (fun n => asUInt_reread_uint) jsonToVariant_reread h
  rw [← toJson_reread_eq_documentOf] at hok
  constructor
  · rintro ⟨t', ht', -, -, -, -, heq⟩ k n hk
    obtain rfl := Except.ok.inj (hok.symm.trans ht')
    have hk' : args'.lookup k = some (JsonVariant.uint64 n).reread := by rw [hlookup, hk]; rfl
    exact (eq_reread (by simp)).mp (heq k _ _ hk hk') n rfl
  · intro hsmall
    refine ⟨_, hok, rfl, rfl, rfl, argsEq_of_lookup hlookup fun k v hv => ?_⟩
    exact (eq_reread fun e => hnan k (e ▸ hv)).mpr fun n hn => hsmall k n (hn ▸ hv)

/-- Both ways of handing a task over give back an equal task exactly when the integer fields fit
32 bits and no unsigned argument fits `int64`. -/
theorem roundTrips_iff (t : TestSolveParam) (hnan : t.NoNaN) :
    (RoundTrips t.toJson t ∧ RoundTrips t.toJson.reread t) ↔ (t.Narrow ∧ t.NoSmallUnsigned) := by
  constructor
  · rintro ⟨⟨t', hmem, _⟩, htext⟩
    have h := narrow_of_ofJson hmem
    exact ⟨h, (roundTrips_text_iff hnan h).mp htext⟩
  · rintro ⟨h, hsmall⟩
    exact ⟨roundTrips_memory hnan h, (roundTrips_text_iff hnan h).mpr hsmall⟩

theorem roundTrips_iff_msg :
    let t : TestSolveParam := ⟨3, 30, (10, 39), AList.singleton "msg" (.string "text")⟩
    (RoundTrips t.toJson t ∧ RoundTrips t.toJson.reread t) ↔ (t.Narrow ∧ t.NoSmallUnsigned) :=
  roundTrips_iff _ fun k h => by
    have hk : k ∈ AList.singleton (β := fun _ => JsonVariant) "msg" (.string "text") :=
      AList.lookup_isSome.mp (by rw [h]; rfl)
    obtain rfl : k = "msg" := by simpa using AList.mem_keys.mp hk
    simp [AList.lookup, AList.singleton_entries] at h

theorem not_roundTrips :
    ¬ RoundTrips (toJson ⟨4294967296, 1, (0, 0), ∅⟩) ⟨4294967296, 1, (0, 0), ∅⟩ ∧
    ¬ RoundTrips (toJson ⟨1, 1, (0, 0), AList.singleton "seed" (.uint64 7)⟩).reread
      ⟨1, 1, (0, 0), AList.singleton "seed" (.uint64 7)⟩ := by
  constructor
  · rintro ⟨t', h, -⟩
    have := (narrow_of_ofJson h).1
    simp at this
  · rintro ⟨t', h, -, -, -, -, heq⟩
    cases h
    have := heq "seed" (.uint64 7) (.int64 7) rfl rfl
    simp [JsonVariant.eq] at this

end TestSolveParam

end DistributedMathArh
