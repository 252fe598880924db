import DistributedMathArh.Lib.Calendar
import DistributedMathArh.Lib.Integers
import DistributedMathArh.Common.Timing

namespace DistributedMathArh

open TextStream (integerText integerText_natCast)
open Words (Ends)

namespace Tm

def seconds (tm : Tm) : Int :=
  Calendar.dayNumber (tm.year + 1900 + tm.mon / 12) (tm.mon % 12).toNat (tm.mday - 1) * 86400 +
    tm.hour * 3600 + tm.min * 60 + tm.sec

def ofSeconds (s : Int) : Tm :=
  let date := Calendar.ofDays (s / 86400)
  ⟨date.year - 1900, date.month, date.day + 1, s % 86400 / 3600, s % 3600 / 60, s % 60⟩

theorem seconds_ofSeconds (s : Int) : (ofSeconds s).seconds = s := by
  have hdays := Calendar.dayNumber_ofDays (s / 86400)
  have hmonth := (Calendar.ofDays (s / 86400)).month_lt
  have hyear : (Calendar.ofDays (s / 86400)).year - 1900 + 1900 +
      ((Calendar.ofDays (s / 86400)).month : Int) / 12 = (Calendar.ofDays (s / 86400)).year := by
    omega
  have hmod : (((Calendar.ofDays (s / 86400)).month : Int) % 12).toNat =
      (Calendar.ofDays (s / 86400)).month := by
    omega
  simp only [seconds, ofSeconds, hyear, hmod, Int.add_sub_cancel, hdays]
  omega

end Tm

namespace Timing

def padded (width : Nat) (n : Int) : List Char :=
  List.replicate (width - (integerText n).length) '0' ++ integerText n

def putTime (tm : Tm) : List Char :=
  padded 4 (tm.year + 1900) ++ '-' :: (padded 2 (tm.mon + 1) ++ '-' :: (padded 2 tm.mday ++
    ' ' :: (padded 2 tm.hour ++ ':' :: (padded 2 tm.min ++ ':' :: padded 2 tm.sec))))

structure Digits (ds : List Char) (n : Nat) : Prop where
  ne_nil : ds ≠ []
  isDigit : ∀ c ∈ ds, c.isDigit = true
  value : Nat.ofDigitChars 10 ds 0 = n

theorem padded_natCast (width n : Nat) : Digits (padded width n) n := by
  rw [padded, integerText_natCast]
  refine ⟨?_, ?_, ?_⟩
  · exact List.append_ne_nil_of_right_ne_nil _ (TextStream.decimal_print_ne_nil n)
  · intro c hc
    cases List.mem_append.mp hc with
    | inl hc =>
      rw [List.eq_of_mem_replicate hc]
      rfl
    | inr hc => exact TextStream.isDigit_of_mem_print hc
  · rw [TextStream.decimal, Nat.ofDigitChars_append, Nat.ofDigitChars_replicate_zero, Nat.mul_zero,
      Nat.ofDigitChars_ten_toDigits]

theorem Digits.isSpace_eq_false {c : Char} (h : c.isDigit = true) : isSpace c = false := by
  refine decide_eq_false fun hc => ?_
  simp only [List.mem_cons, List.not_mem_nil, or_false] at hc
  obtain rfl | rfl | rfl | rfl | rfl | rfl := hc <;> cases h

theorem scanInt_digits {ds rest : List Char} {n : Nat} (h : Digits ds n)
    (hrest : Ends (fun c => !c.isDigit) rest) : scanInt (ds ++ rest) = some ((n : Int), rest) := by
  obtain ⟨c, w, rfl⟩ := List.exists_cons_of_ne_nil h.ne_nil
  have hc : c.isDigit = true := h.isDigit c List.mem_cons_self
  have hends : rest.takeWhile Char.isDigit = [] ∧ rest.dropWhile Char.isDigit = rest := by
    cases rest with
    | nil => exact ⟨rfl, rfl⟩
    | cons a rest =>
      have ha : a.isDigit = false := by simpa [Ends] using hrest
      simp [ha]
  have htake : (c :: w ++ rest).takeWhile Char.isDigit = c :: w := by
    rw [List.takeWhile_append_of_pos h.isDigit, hends.1, List.append_nil]
  have hdrop : (c :: w ++ rest).dropWhile Char.isDigit = rest := by
    rw [List.dropWhile_append_of_pos h.isDigit, hends.2]
  have hspace : (c :: w ++ rest).dropWhile isSpace = c :: w ++ rest := by
    rw [List.cons_append, List.dropWhile_cons_of_neg (by simp [Digits.isSpace_eq_false hc])]
  have hminus : c ≠ '-' := by
    rintro rfl
    cases hc
  have hplus : c ≠ '+' := by
    rintro rfl
    cases hc
  rw [scanInt, hspace]
  simp only [List.cons_append] at htake hdrop ⊢
  split
  · rename_i hs
    exact absurd (List.head_eq_of_cons_eq hs) hminus
  · rename_i hs
    exact absurd (List.head_eq_of_cons_eq hs) hplus
  · simp [htake, hdrop, h.value]

theorem sscanf_int {format : List Directive} {ds rest : List Char} {n : Nat} (h : Digits ds n)
    (hn : n < 2147483648) (hrest : Ends (fun c => !c.isDigit) rest) :
    sscanf (.int :: format) (ds ++ rest) = (sscanf format rest).map ((n : Int) :: ·) := by
  have hfits : fitsInt n = true := by
    simp only [fitsInt, decide_eq_true_eq]
    omega
  simp only [sscanf, scanInt_digits h hrest, hfits, if_true]

theorem sscanf_int_literal {format : List Directive} {ds rest : List Char} {n : Nat} (c : Char)
    (hc : c.isDigit = false) (h : Digits ds n) (hn : n < 2147483648) :
    sscanf (.int :: .literal c :: format) (ds ++ c :: rest) =
      (sscanf format rest).map ((n : Int) :: ·) := by
  rw [sscanf_int h hn (by simp [Ends, hc]), sscanf, if_pos rfl]

theorem sscanf_int_blank {format : List Directive} {ds ds' rest : List Char} {n n' : Nat}
    (h : Digits ds n) (hn : n < 2147483648) (h' : Digits ds' n') :
    sscanf (.int :: .blanks :: format) (ds ++ ' ' :: (ds' ++ rest)) =
      (sscanf format (ds' ++ rest)).map ((n : Int) :: ·) := by
  obtain ⟨c, w, rfl⟩ := List.exists_cons_of_ne_nil h'.ne_nil
  have hc := Digits.isSpace_eq_false (h'.isDigit c List.mem_cons_self)
  rw [sscanf_int h hn (by simp [Ends]), sscanf, List.dropWhile_cons_of_pos (by decide),
    List.cons_append, List.dropWhile_cons_of_neg (by simp [hc])]

def shown (tm : Tm) : List Int :=
  [tm.year + 1900, tm.mon + 1, tm.mday, tm.hour, tm.min, tm.sec]

def Scannable (tm : Tm) : Prop := ∀ x ∈ shown tm, ∃ n : Nat, x = n ∧ n < 2147483648

theorem sscanf_putTime {tm : Tm} (h : Scannable tm) (rest : List Char)
    (hrest : Ends (fun c => !c.isDigit) rest) : sscanf timestampFormat (putTime tm ++ rest) =
      (sscanf [.literal '.', .int] rest).map (shown tm ++ ·) := by
  simp only [Scannable, shown, List.forall_mem_cons, List.not_mem_nil, false_implies, implies_true,
    and_true] at h
  obtain ⟨⟨year, hyear, hy⟩, ⟨mon, hmon, hm⟩, ⟨mday, hmday, hd⟩, ⟨hour, hhour, hh⟩, ⟨min, hmin, hn⟩,
    sec, hsec, hs⟩ := h
  simp only [putTime, List.append_assoc, List.cons_append, shown]
  rw [hyear, hmon, hmday, hhour, hmin, hsec]
  rw [timestampFormat, sscanf_int_literal '-' rfl (padded_natCast 4 year) hy,
    sscanf_int_literal '-' rfl (padded_natCast 2 mon) hm,
    sscanf_int_blank (padded_natCast 2 mday) hd (padded_natCast 2 hour),
    sscanf_int_literal ':' rfl (padded_natCast 2 hour) hh,
    sscanf_int_literal ':' rfl (padded_natCast 2 min) hn,
    sscanf_int (padded_natCast 2 sec) hs hrest]
  cases sscanf [.literal '.', .int] rest <;> rfl

theorem dot_not_mem_padded (width n : Nat) : '.' ∉ padded width n := by
  intro h
  cases (padded_natCast width n).isDigit '.' h

theorem dot_not_mem_putTime {tm : Tm} (h : Scannable tm) : '.' ∉ putTime tm := by
  simp only [Scannable, shown, List.forall_mem_cons, List.not_mem_nil, false_implies, implies_true,
    and_true] at h
  obtain ⟨⟨year, hyear, -⟩, ⟨mon, hmon, -⟩, ⟨mday, hmday, -⟩, ⟨hour, hhour, -⟩, ⟨min, hmin, -⟩,
    sec, hsec, -⟩ := h
  unfold putTime
  rw [hyear, hmon, hmday, hhour, hmin, hsec]
  simp [dot_not_mem_padded]

theorem strToTimepoint_putTime (mktime : Tm → Int) {tm : Tm} (h : Scannable tm) :
    strToTimepoint mktime (String.ofList (putTime tm)) = .ok none := by
  have hscan := sscanf_putTime h [] trivial
  rw [List.append_nil] at hscan
  rw [strToTimepoint, String.toList_ofList, hscan]
  rfl

theorem strToTimepoint_fraction (mktime : Tm → Int) {tm : Tm} (h : Scannable tm) {ds : List Char}
    {n : Nat} (hds : Digits ds n) (hlen : ds.length ≤ 6) (hn : n * 10 ^ (6 - ds.length) < 1000000) :
    strToTimepoint mktime (String.ofList (putTime tm ++ '.' :: ds)) =
      .ok (some (UInt64.ofInt
        (mktime tm * 1000000 + ((n * 10 ^ (6 - ds.length) : Nat) : Int)))) := by
  have hn' : n < 2147483648 := by
    have := Nat.le_mul_of_pos_right n (Nat.pow_pos (n := 6 - ds.length) (show 0 < 10 by decide))
    omega
  have hfrac : sscanf [.literal '.', .int] ('.' :: ds) = .ok [(n : Int)] := by
    rw [sscanf, if_pos rfl]
    have hint := @sscanf_int [] ds [] n hds hn' trivial
    rwa [List.append_nil] at hint
  have hscan := sscanf_putTime h ('.' :: ds) rfl
  rw [hfrac] at hscan
  have hdrop : ((putTime tm ++ '.' :: ds).dropWhile (· ≠ '.')).tail = ds := by
    rw [List.dropWhile_append_of_pos, List.dropWhile_cons_of_neg (by simp), List.tail_cons]
    intro c hc
    exact decide_eq_true fun e => dot_not_mem_putTime h (e ▸ hc)
  have hcast : (n : Int) * 10 ^ (6 - ds.length) = ((n * 10 ^ (6 - ds.length) : Nat) : Int) := by
    rw [Nat.cast_mul, Nat.cast_pow, Nat.cast_ofNat]
  have hfits : fitsInt ((n * 10 ^ (6 - ds.length) : Nat) : Int) = true := by
    simp only [fitsInt, decide_eq_true_eq]
    omega
  have htm : (⟨tm.year + 1900 - 1900, tm.mon + 1 - 1, tm.mday, tm.hour, tm.min, tm.sec⟩ : Tm) =
      tm := by
    rw [Int.add_sub_cancel, Int.add_sub_cancel]
  rw [strToTimepoint, String.toList_ofList, hscan]
  simp only [Except.map, shown, List.cons_append, List.nil_append, hdrop,
    if_neg (Nat.not_lt.mpr hlen), hfits, if_true, htm, hcast]

theorem scannable_ofSeconds {s : Int} (hlow : -62135596800 ≤ s) (hhigh : s < 10 ^ 13) :
    Scannable (.ofSeconds s) := by
  have hyear := Calendar.year_bounds (n := s / 86400) (by omega)
  have hmonth := (Calendar.ofDays (s / 86400)).month_lt
  have hday := (Calendar.ofDays (s / 86400)).day_lt
  simp only [Scannable, shown, Tm.ofSeconds, List.forall_mem_cons, List.not_mem_nil, false_implies,
    implies_true, and_true]
  refine ⟨⟨(Calendar.ofDays (s / 86400)).year.toNat, ?_⟩,
    ⟨(Calendar.ofDays (s / 86400)).month + 1, ?_⟩, ⟨(Calendar.ofDays (s / 86400)).day + 1, ?_⟩,
    ⟨(s % 86400 / 3600).toNat, ?_⟩, ⟨(s % 3600 / 60).toNat, ?_⟩, ⟨(s % 60).toNat, ?_⟩⟩
  all_goals omega

theorem length_padded {n : Nat} (h : n < 1000000) : (padded 6 n).length = 6 := by
  have hlen : (TextStream.decimal.print n).length ≤ 6 :=
    (Nat.length_toDigits_le_iff (by decide) (by decide)).mpr h
  rw [padded, integerText_natCast, List.length_append, List.length_replicate]
  exact Nat.sub_add_cancel hlen

section Printed

/-- `TpToString`, with the calendar fields of `localtime_r`; the clock counts nanoseconds. -/
def tpToString (localtime : Int → Tm) (systemMs : UInt64) : Except Fault String :=
  let tp := systemMs.toInt64.toInt * 1000
  if -2 ^ 63 ≤ tp ∧ tp < 2 ^ 63 then
    let epochUs := tp.tdiv 1000
    let secs := epochUs.tdiv 1000000
    let frac := epochUs.tmod 1000000
    .ok (String.ofList (putTime (localtime secs) ++ '.' :: padded 6 frac))
  else .error .signedOverflow

/-- A time zone: the offset in force at an instant, and the standard offset at a local time. -/
structure Zone where
  offset : Int → Int
  standard : Int → Int
  offset_lt : ∀ s, |offset s| < 604800
  standard_lt : ∀ s, |standard s| < 604800

namespace Zone

def localtime (z : Zone) (s : Int) : Tm := .ofSeconds (s + z.offset s)

/-- `mktime` with `tm_isdst = 0` -/
def mktime (z : Zone) (tm : Tm) : Int := tm.seconds - z.standard tm.seconds

def Unambiguous (z : Zone) (s : Int) : Prop :=
  ∀ s', s' + z.offset s' = s + z.offset s → s' = s

def RoundTrip (z : Zone) (t : UInt64) : Prop :=
  ∃ text, tpToString z.localtime t = .ok text ∧ strToTimepoint z.mktime text = .ok (some t)

variable {z : Zone} {t : UInt64}

theorem tpToString_eq (localtime : Int → Tm) (ht : t.toNat ≤ 9223372036854775) :
    tpToString localtime t = .ok (String.ofList
      (putTime (localtime (t.toNat / 1000000 : Nat)) ++
        '.' :: padded 6 (t.toNat % 1000000 : Nat))) := by
  have hms : t.toInt64.toInt = t.toNat := by
    rw [← Int64.toInt_toBitVec, UInt64.toBitVec_toInt64, BitVec.toInt_eq_toNat_of_lt]
    · rfl
    · change 2 * t.toNat < 2 ^ 64
      omega
  have hns : (t.toNat * 1000 : Int).tdiv 1000 = t.toNat := Int.mul_tdiv_cancel _ (by decide)
  rw [tpToString, hms]
  simp only [hns]
  rw [if_pos (by omega)]
  rfl

theorem strToTimepoint_localtime (ht : t.toNat ≤ 9223372036854775) :
    strToTimepoint z.mktime (String.ofList (putTime (z.localtime (t.toNat / 1000000 : Nat)) ++
        '.' :: padded 6 (t.toNat % 1000000 : Nat))) =
      .ok (some (UInt64.ofInt (t.toNat + (z.offset (t.toNat / 1000000 : Nat) -
        z.standard ((t.toNat / 1000000 : Nat) + z.offset (t.toNat / 1000000 : Nat))) * 1000000))) := by
  have hoffset := abs_lt.mp (z.offset_lt (t.toNat / 1000000 : Nat))
  have hlen : (padded 6 (t.toNat % 1000000 : Nat)).length = 6 :=
    length_padded (Nat.mod_lt _ (by decide))
  have hscan : Scannable (z.localtime (t.toNat / 1000000 : Nat)) :=
    scannable_ofSeconds (by omega) (by omega)
  rw [strToTimepoint_fraction z.mktime hscan (padded_natCast 6 (t.toNat % 1000000)) hlen.le
    (by rw [hlen]; omega), hlen, mktime, localtime, Tm.seconds_ofSeconds]
  congr 3
  omega

theorem ofInt_eq_iff {d : Int} (hd : |d| < 2 ^ 64) : UInt64.ofInt (t.toNat + d) = t ↔ d = 0 := by
  have hlt := t.toNat_lt
  have hbounds := abs_lt.mp hd
  rw [← UInt64.toNat_inj, UInt64.ofInt, UInt64.toNat_ofNat']
  omega

/-- The instants that are read back from their texts: those at which the standard time is in
force. -/
theorem roundTrip_iff (ht : t.toNat ≤ 9223372036854775) : z.RoundTrip t ↔
    z.offset (t.toNat / 1000000 : Nat) =
      z.standard ((t.toNat / 1000000 : Nat) + z.offset (t.toNat / 1000000 : Nat)) := by
  have hoffset := abs_lt.mp (z.offset_lt (t.toNat / 1000000 : Nat))
  have hstandard := abs_lt.mp (z.standard_lt
    ((t.toNat / 1000000 : Nat) + z.offset (t.toNat / 1000000 : Nat)))
  simp only [RoundTrip, tpToString_eq z.localtime ht, Except.ok.injEq, exists_eq_left',
    strToTimepoint_localtime ht, Option.some.injEq]
  rw [ofInt_eq_iff (abs_lt.mpr (by omega))]
  omega

def central : Zone where
  offset s := if 1743296400 ≤ s ∧ s < 1761440400 then 7200 else 3600
  standard _ := 3600
  offset_lt s := by
    split <;> decide
  standard_lt _ := by decide

theorem roundTrip_iff_winter : central.RoundTrip 1735732800500000 :=
  (roundTrip_iff (by decide)).mpr (by decide)

theorem not_roundTrip : central.Unambiguous 1751371200 ∧
    tpToString central.localtime 1751371200500000 = .ok "2025-07-01 14:00:00.500000" ∧
    strToTimepoint central.mktime "2025-07-01 14:00:00.500000" = .ok (some 1751374800500000) ∧
    ¬ central.RoundTrip 1751371200500000 := by
  have htext : tpToString central.localtime 1751371200500000 =
      .ok "2025-07-01 14:00:00.500000" := by
    decide +kernel
  have hread : strToTimepoint central.mktime "2025-07-01 14:00:00.500000" =
      .ok (some 1751374800500000) := by
    decide +kernel
  refine ⟨?_, htext, hread, ?_⟩
  · intro s hs
    simp only [central] at hs
    split at hs <;> simp at hs <;> omega
  · rintro ⟨text, hprint, hback⟩
    rw [htext] at hprint
    cases hprint
    rw [hread] at hback
    cases hback

end Zone

end Printed

end Timing

end DistributedMathArh
