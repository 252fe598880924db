import Mathlib.Data.List.DropRight
import DistributedMathArh.Common.Timestamps
import DistributedMathArh.Db.Pages

namespace DistributedMathArh.Db

open Timing

/-- A value of type `timestamp`, from the year one on: the microseconds since 1970 of its own
clock. -/
structure Timestamp where
  micros : Int
  low : -62135596800000000 ≤ micros
  high : micros < 9224318016000000000

namespace Timestamp

/-- The fraction of a second: six digits, of which the server drops the zeros at the end. -/
def fraction (us : Nat) : List Char :=
  if us = 0 then [] else '.' :: (padded 6 us).rdropWhile (· = '0')

def text (ts : Timestamp) : String :=
  String.ofList (putTime (.ofSeconds (ts.micros / 1000000)) ++
    fraction (ts.micros % 1000000).toNat)

def Whole (ts : Timestamp) : Prop := ts.micros % 1000000 = 0

instance (ts : Timestamp) : Decidable ts.Whole := inferInstanceAs (Decidable (_ = _))

def fixedZone (offset : Int) (tm : Tm) : Int := tm.seconds - offset

/-- The microseconds since 1970, in a zone with a fixed offset. -/
def instant (ts : Timestamp) (offset : Int) : Int := ts.micros - offset * 1000000

variable {ts : Timestamp} {mktime : Tm → Int}

theorem scannable (ts : Timestamp) : Scannable (.ofSeconds (ts.micros / 1000000)) := by
  have hlow := ts.low
  have hhigh := ts.high
  exact scannable_ofSeconds (by omega) (by omega)

theorem exists_zeros (l : List Char) :
    ∃ k, l = l.rdropWhile (· = '0') ++ List.replicate k '0' := by
  refine ⟨(l.rtakeWhile (· = '0')).length, ?_⟩
  rw [← List.eq_replicate_of_mem fun c hc => by simpa using List.mem_rtakeWhile_imp hc]
  exact List.rdropWhile_append_rtakeWhile.symm

theorem digits_fraction {us : Nat} (hpos : us ≠ 0) (h : us < 1000000) :
    ∃ n, Digits ((padded 6 us).rdropWhile (· = '0')) n ∧
      ((padded 6 us).rdropWhile (· = '0')).length ≤ 6 ∧
      n * 10 ^ (6 - ((padded 6 us).rdropWhile (· = '0')).length) = us := by
  obtain ⟨k, hsplit⟩ := exists_zeros (padded 6 us)
  generalize (padded 6 us).rdropWhile (· = '0') = ds at *
  have hlen : ds.length + k = 6 := by
    rw [← length_padded h, hsplit, List.length_append, List.length_replicate]
  have hvalue : Nat.ofDigitChars 10 ds 0 * 10 ^ k = us := by
    rw [← (padded_natCast 6 us).value, hsplit, Nat.mul_comm, ← Nat.ofDigitChars_replicate_zero,
      ← Nat.ofDigitChars_append]
  refine ⟨Nat.ofDigitChars 10 ds 0, ⟨?_, ?_, rfl⟩, by omega, ?_⟩
  · rintro rfl
    exact hpos (hvalue.symm.trans (Nat.zero_mul _))
  · intro c hc
    refine (padded_natCast 6 us).isDigit c ?_
    rw [hsplit]
    exact List.mem_append_left _ hc
  · rw [← hlen, Nat.add_sub_cancel_left]
    exact hvalue

theorem strToTimepoint_text (mktime : Tm → Int) (ts : Timestamp) :
    strToTimepoint mktime ts.text = .ok (if ts.Whole then none else
      some (UInt64.ofInt
        (mktime (.ofSeconds (ts.micros / 1000000)) * 1000000 + ts.micros % 1000000))) := by
  by_cases hwhole : ts.Whole
  · have hzero : (ts.micros % 1000000).toNat = 0 := by
      rw [hwhole]
      rfl
    rw [text, hzero, fraction, if_pos rfl, List.append_nil, strToTimepoint_putTime mktime ts.scannable,
      if_pos hwhole]
  · have hpos : (ts.micros % 1000000).toNat ≠ 0 := by
      unfold Whole at hwhole
      omega
    obtain ⟨n, hdigits, hlen, hvalue⟩ := digits_fraction hpos (by omega)
    have hcast : ((ts.micros % 1000000).toNat : Int) = ts.micros % 1000000 :=
      Int.toNat_of_nonneg (Int.emod_nonneg _ (by decide))
    rw [text, fraction, if_neg hpos, strToTimepoint_fraction mktime ts.scannable hdigits hlen (by omega),
      hvalue, hcast, if_neg hwhole]

theorem toNat_ofInt_eq_iff {z : Int} : ((UInt64.ofInt z).toNat : Int) = z ↔ 0 ≤ z ∧ z < 2 ^ 64 := by
  rw [UInt64.ofInt, UInt64.toNat_ofNat']
  omega

theorem strToTimepoint_fixedZone_iff (offset : Int) (ts : Timestamp) :
    (∃ t : UInt64, strToTimepoint (fixedZone offset) ts.text = .ok (some t) ∧
      (t.toNat : Int) = ts.instant offset) ↔
      ¬ ts.Whole ∧ 0 ≤ ts.instant offset ∧ ts.instant offset < 2 ^ 64 := by
  have hmicros : (ts.micros / 1000000 - offset) * 1000000 + ts.micros % 1000000 =
      ts.instant offset := by
    unfold instant
    omega
  rw [strToTimepoint_text, fixedZone, Tm.seconds_ofSeconds, hmicros, ← toNat_ofInt_eq_iff]
  by_cases hwhole : ts.Whole
  · simp [hwhole]
  · simp [hwhole]

end Timestamp

section Rows

variable {mktime : Tm → Int} {cols : Columns}

theorem endsIf_timepoint (ts : Timestamp) :
    EndsIf .emptyOptional ts.Whole (timepoint mktime ts.text) := by
  rw [timepoint, Timestamp.strToTimepoint_text]
  constructor
  · intro hwhole
    rw [if_pos hwhole]
  · intro hwhole
    rw [if_neg hwhole]
    exact ⟨_, rfl⟩

theorem endsIf_timepointOpt (mktime : Tm → Int) (o : Option Timestamp) :
    EndsIf .emptyOptional (∃ ts ∈ o, ts.Whole) (timepointOpt mktime (o.map Timestamp.text)) := by
  cases o with
  | none => exact ⟨fun h => by simp at h, fun _ => ⟨none, rfl⟩⟩
  | some ts =>
    simp only [Option.mem_some_iff, exists_eq_left', Option.map_some, timepointOpt]
    exact (endsIf_timepoint ts).map some

def ExperimentRow.stamped (row : ExperimentRow) (createdAt : Timestamp)
    (startTime endTime : Option Timestamp) : ExperimentRow :=
  { row with
    createdAt := createdAt.text
    startTime := startTime.map Timestamp.text
    endTime := endTime.map Timestamp.text }

def IterationRow.stamped (row : IterationRow) (startTime : Timestamp) (endTime : Option Timestamp) :
    IterationRow :=
  { row with startTime := startTime.text, endTime := endTime.map Timestamp.text }

def UserRow.stamped (row : UserRow) (createdAt : Timestamp) (lastLogin : Option Timestamp) :
    UserRow :=
  { row with createdAt := createdAt.text, lastLogin := lastLogin.map Timestamp.text }

def LogRow.stamped (row : LogRow) (timestamp : Timestamp) : LogRow :=
  { row with timestamp := timestamp.text }

def NodeRow.stamped (row : NodeRow) (lastPing : Option Timestamp) : NodeRow :=
  { row with lastPing := lastPing.map Timestamp.text }

theorem endsIf_experiment (row : ExperimentRow) (createdAt : Timestamp)
    (startTime endTime : Option Timestamp) :
    EndsIf .emptyOptional
      (createdAt.Whole ∨ (∃ ts ∈ startTime, ts.Whole) ∨ (∃ ts ∈ endTime, ts.Whole) ∨ False)
      (Experiment.ofRow mktime (row.stamped createdAt startTime endTime)) := by
  have hstatus : strToEnum kExpStatusMappings (enumToStr kExpStatusMappings row.status) =
      .ok row.status := by
    cases row.status <;> rfl
  unfold Experiment.ofRow ExperimentRow.stamped
  dsimp only
  refine .ok_bind hstatus (.bind (endsIf_timepoint createdAt) fun _ => ?_)
  exact .bind (endsIf_timepointOpt mktime startTime) fun _ =>
    .bind (endsIf_timepointOpt mktime endTime) fun _ => .ok _

theorem endsIf_iteration (row : IterationRow) (startTime : Timestamp) (endTime : Option Timestamp) :
    EndsIf .emptyOptional (startTime.Whole ∨ (∃ ts ∈ endTime, ts.Whole) ∨ False)
      (Iteration.ofRow mktime (row.stamped startTime endTime)) := by
  have hiterT : strToEnum kIterTypeMappings (enumToStr kIterTypeMappings row.iterT) =
      .ok row.iterT := by
    cases row.iterT <;> rfl
  have hstatus : strToEnum kIterStatusMappings (enumToStr kIterStatusMappings row.status) =
      .ok row.status := by
    cases row.status <;> rfl
  unfold Iteration.ofRow IterationRow.stamped
  dsimp only
  refine .ok_bind hiterT (.ok_bind hstatus (.bind (endsIf_timepoint startTime) fun _ => ?_))
  exact .bind (endsIf_timepointOpt mktime endTime) fun _ => .ok _

theorem endsIf_user (row : UserRow) (createdAt : Timestamp) (lastLogin : Option Timestamp) :
    EndsIf .emptyOptional (createdAt.Whole ∨ (∃ ts ∈ lastLogin, ts.Whole) ∨ False)
      (User.ofRow mktime (row.stamped createdAt lastLogin)) := by
  have hrole : strToEnum kUserRoleMappings (enumToStr kUserRoleMappings row.role) =
      .ok row.role := by
    cases row.role <;> rfl
  unfold User.ofRow UserRow.stamped
  dsimp only
  refine .ok_bind hrole (.bind (endsIf_timepoint createdAt) fun _ => ?_)
  exact .bind (endsIf_timepointOpt mktime lastLogin) fun _ => .ok _

theorem endsIf_log (row : LogRow) (timestamp : Timestamp) :
    EndsIf (.db .emptyOptional) (timestamp.Whole ∨ False)
      (Log.ofRow mktime (row.stamped timestamp)) := by
  have hseverity : ∃ severity, kStrToSev.lookup (enumToStr kLogSeverityMappings row.severity) =
      some severity := by
    cases row.severity <;> exact ⟨_, rfl⟩
  obtain ⟨severity, hseverity⟩ := hseverity
  simp only [Log.ofRow, LogRow.stamped, hseverity]
  exact .bind ((endsIf_timepoint timestamp).mapError RowHalt.db) fun _ => .ok _

theorem Node.ofRow_ping (cols : Columns) (mktime : Tm → Int) (row : NodeRow) :
    ∃ x : Except RowHalt (Option UInt64 → Node), x ≠ .error (.db .emptyOptional) ∧
      ∀ lastPing, Node.ofRow cols mktime { row with lastPing } =
        x >>= fun node => ((timepointOpt mktime lastPing).mapError RowHalt.db).map node := by
  have hstatus : strToEnum kNodeStMappings (enumToStr kNodeStMappings row.status) =
      .ok row.status := by
    cases row.status <;> rfl
  unfold Node.ofRow
  simp only [hstatus]
  cases row.benchmarkScore with
  | none => exact ⟨.error .conversion, by simp, fun _ => rfl⟩
  | some scores =>
    cases hsize : sqlArraySize scores with
    | error e =>
      refine ⟨.error e, ?_, fun _ => by simp only [hsize]; rfl⟩
      unfold sqlArraySize at hsize
      split at hsize <;> cases hsize
      simp
    | ok size =>
      cases hparse : PrintUtils.parseOneDimS benchNumbers (cols.arrayOut scores).toList (some size)
          (PrintUtils.kEnumTo .vectorDbFormat) with
      | error e =>
        refine ⟨.error (.exn e), by simp, fun _ => ?_⟩
        simp only [hsize, ok_bind, hparse]
        rfl
      | ok score =>
        refine ⟨.ok fun t => ⟨row.nodeId, row.ipAddress, score, row.status, t⟩, by simp, ?_⟩
        intro lastPing
        simp only [hsize, ok_bind, hparse, Except.mapError]
        cases timepointOpt mktime lastPing <;> rfl

theorem node_ne_iff (row : NodeRow) (lastPing : Option Timestamp) :
    Node.ofRow cols mktime (row.stamped lastPing) ≠ .error (.db .emptyOptional) ↔
      ((∃ n, Node.ofRow cols mktime (row.stamped none) = .ok n) → ∀ ts ∈ lastPing, ¬ ts.Whole) := by
  obtain ⟨x, hx, hrow⟩ := Node.ofRow_ping cols mktime row
  unfold NodeRow.stamped
  rw [hrow, hrow]
  cases x with
  | error e =>
    have hne : e ≠ .db .emptyOptional := fun h => hx (h ▸ rfl)
    simpa [bind, Except.bind] using hne
  | ok node =>
    have hping := ((endsIf_timepointOpt mktime lastPing).mapError RowHalt.db).map node
    rw [ok_bind, ok_bind, hping.ne_iff]
    simp [timepointOpt, Except.map, Except.mapError]

/-- A timestamp is read as its instant just if it has a fraction and the instant is not before 1970,
and a row constructor reads no empty optional just if all timestamps of its row have a fraction. -/
theorem timestamps_read_iff (offset : Int) (mktime : Tm → Int) (cols : Columns) :
    (∀ ts : Timestamp, (∃ t : UInt64, strToTimepoint (Timestamp.fixedZone offset) ts.text =
      .ok (some t) ∧ (t.toNat : Int) = ts.instant offset) ↔
        ¬ ts.Whole ∧ 0 ≤ ts.instant offset ∧ ts.instant offset < 2 ^ 64) ∧
    (∀ (row : ExperimentRow) (createdAt : Timestamp) (startTime endTime : Option Timestamp),
      Experiment.ofRow mktime (row.stamped createdAt startTime endTime) ≠ .error .emptyOptional ↔
        ¬ createdAt.Whole ∧ (∀ ts ∈ startTime, ¬ ts.Whole) ∧ ∀ ts ∈ endTime, ¬ ts.Whole) ∧
    (∀ (row : IterationRow) (startTime : Timestamp) (endTime : Option Timestamp),
      Iteration.ofRow mktime (row.stamped startTime endTime) ≠ .error .emptyOptional ↔
        ¬ startTime.Whole ∧ ∀ ts ∈ endTime, ¬ ts.Whole) ∧
    (∀ (row : UserRow) (createdAt : Timestamp) (lastLogin : Option Timestamp),
      User.ofRow mktime (row.stamped createdAt lastLogin) ≠ .error .emptyOptional ↔
        ¬ createdAt.Whole ∧ ∀ ts ∈ lastLogin, ¬ ts.Whole) ∧
    (∀ (row : LogRow) (timestamp : Timestamp),
      Log.ofRow mktime (row.stamped timestamp) ≠ .error (.db .emptyOptional) ↔
        ¬ timestamp.Whole) ∧
    ∀ (row : NodeRow) (lastPing : Option Timestamp),
      Node.ofRow cols mktime (row.stamped lastPing) ≠ .error (.db .emptyOptional) ↔
        ((∃ n, Node.ofRow cols mktime (row.stamped none) = .ok n) → ∀ ts ∈ lastPing, ¬ ts.Whole) := by
  refine ⟨Timestamp.strToTimepoint_fixedZone_iff offset, ?_, ?_, ?_, ?_, node_ne_iff⟩
  · intro row createdAt startTime endTime
    rw [(endsIf_experiment row createdAt startTime endTime).ne_iff]
    simp
  · intro row startTime endTime
    rw [(endsIf_iteration row startTime endTime).ne_iff]
    simp
  · intro row createdAt lastLogin
    rw [(endsIf_user row createdAt lastLogin).ne_iff]
    simp
  · intro row timestamp
    rw [(endsIf_log row timestamp).ne_iff]
    simp

def sampleWhole : Timestamp := ⟨1746097200000000, by decide, by decide⟩

def sampleEarly : Timestamp := ⟨-500000, by decide, by decide⟩

theorem not_timestamps_read : sampleWhole.text = "2025-05-01 11:00:00" ∧
    strToTimepoint (Timestamp.fixedZone 0) sampleWhole.text = .ok none ∧
    (∀ row : UserRow, User.ofRow (Timestamp.fixedZone 0) (row.stamped sampleWhole none) =
      .error .emptyOptional) ∧
    sampleEarly.text = "1969-12-31 23:59:59.5" ∧
    strToTimepoint (Timestamp.fixedZone 0) sampleEarly.text = .ok (some 18446744073709051616) := by
  have hwhole : sampleWhole.Whole := by decide
  refine ⟨by decide +kernel, by decide +kernel, fun row => ?_, by decide +kernel,
    by decide +kernel⟩
  exact (endsIf_user row sampleWhole none).ends (.inl hwhole)

end Rows

end DistributedMathArh.Db
