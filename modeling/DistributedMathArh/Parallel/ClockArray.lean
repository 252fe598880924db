import Mathlib.Data.List.Lex
import Mathlib.Data.String.Basic
import DistributedMathArh.Common.Outcome
import DistributedMathArh.Lib.Totals

/-! `timing::ClockArray`: the times between `Tik` and `Tak`, added up by source location. -/

namespace DistributedMathArh.Timing

open FinmapSum (Map)

structure LocationType where
  function : String
  line : String
  column : String
  file : String
  thread : String
  deriving DecidableEq

namespace LocationType

def fields (l : LocationType) : List String := [l.function, l.line, l.column, l.file, l.thread]

theorem fields_injective : Function.Injective fields := by
  rintro ⟨_, _, _, _, _⟩ ⟨_, _, _, _, _⟩ h
  cases h
  rfl

/-- The order of `LocationComparator`: the first field that differs decides. -/
instance : LinearOrder LocationType := LinearOrder.lift' fields fields_injective

end LocationType

structure SourceLocation where
  functionName : String
  line : Nat
  column : Nat
  fileName : String

/-- What stands between the first blank and the first opening parenthesis; up to the end, if the
parenthesis comes first and the length wraps around. -/
def functionOf (name : List Char) : List Char :=
  if ' ' ∈ name then
    let rest := (name.dropWhile (· ≠ ' ')).tail
    if '(' ∈ name.takeWhile (· ≠ ' ') then rest else rest.takeWhile (· ≠ '(')
  else name.takeWhile (· ≠ '(')

def getFileState (thread : String) (location : SourceLocation) : LocationType where
  function := String.ofList (functionOf location.functionName.toList)
  line := toString location.line
  column := toString location.column
  file := String.ofList (location.fileName.toList.reverse.takeWhile (· ≠ '/')).reverse
  thread := thread

structure TimeStore (Out : Type) where
  time : Out
  count : Nat
  deriving DecidableEq

namespace TimeStore

variable {Out : Type}

instance [Add Out] : Add (TimeStore Out) := ⟨fun a b => ⟨a.time + b.time, a.count + b.count⟩⟩

instance [Zero Out] : Zero (TimeStore Out) := ⟨⟨0, 0⟩⟩

@[simp] theorem add_time [Add Out] (a b : TimeStore Out) : (a + b).time = a.time + b.time := rfl

@[simp] theorem add_count [Add Out] (a b : TimeStore Out) : (a + b).count = a.count + b.count := rfl

@[simp] theorem zero_time [Zero Out] : (0 : TimeStore Out).time = 0 := rfl

@[simp] theorem zero_count [Zero Out] : (0 : TimeStore Out).count = 0 := rfl

@[ext] theorem ext {a b : TimeStore Out} (ht : a.time = b.time) (hc : a.count = b.count) :
    a = b := by
  cases a
  cases b
  cases ht
  cases hc
  rfl

instance [AddCommGroup Out] : AddCancelCommMonoid (TimeStore Out) where
  add_assoc a b c := TimeStore.ext (add_assoc _ _ _) (add_assoc _ _ _)
  zero_add a := TimeStore.ext (zero_add _) (zero_add _)
  add_zero a := TimeStore.ext (add_zero _) (add_zero _)
  add_comm a b := TimeStore.ext (add_comm _ _) (add_comm _ _)
  nsmul := nsmulRec
  add_left_cancel a b c h :=
    TimeStore.ext (add_left_cancel (congrArg time h)) (add_left_cancel (congrArg count h))

end TimeStore

/-- The top of the stack `to_tak_` comes first. -/
structure ClockArray (Out In : Type) where
  timers : Map LocationType (TimeStore Out)
  startIngTimers : Map LocationType In
  toTak : List LocationType

inductive Call (In : Type)
  | tik (id : LocationType) (now : In)
  | tak (id : LocationType) (now : In)

def Call.now {In : Type} : Call In → In
  | .tik _ now => now
  | .tak _ now => now

namespace ClockArray

variable {Out In : Type}

def empty : ClockArray Out In := ⟨∅, ∅, []⟩

def tik (id : LocationType) (now : In) (c : ClockArray Out In) : ClockArray Out In :=
  { c with startIngTimers := c.startIngTimers.insert id now, toTak := id :: c.toTak }

def record [Add Out] (timers : Map LocationType (TimeStore Out)) (id : LocationType) (res : Out) :
    Map LocationType (TimeStore Out) :=
  match timers.lookup id with
  | none => timers.insert id ⟨res, 1⟩
  | some t => timers.insert id ⟨t.time + res, t.count + 1⟩

/-- The location that `Tak` takes its measurement for: its own, with the line and the column of
the section on top. -/
def takLocation (top id : LocationType) : LocationType :=
  { id with line := top.line, column := top.column }

def start [Inhabited In] (c : ClockArray Out In) (id : LocationType) : In :=
  (c.startIngTimers.lookup id).getD default

/-- The map after the access: an entry that was not there is made. -/
def subscript [Inhabited In] (c : ClockArray Out In) (id : LocationType) : Map LocationType In :=
  if id ∈ c.startIngTimers then c.startIngTimers else c.startIngTimers.insert id default

def unpaired (id : LocationType) : Exn :=
  .logicError ("No paired Tik statement found in queue\tTak values" ++ id.file ++ ":" ++ id.line ++
    "\t" ++ id.function ++ "\t" ++ id.column)

variable [Add Out] [Inhabited In] (timeConverter : In → In → Out)

def tak (id : LocationType) (newTime : In) (c : ClockArray Out In) :
    ClockArray Out In × Except Exn Unit :=
  match c.toTak with
  | [] => (c, .error (unpaired id))
  | top :: rest =>
    if top.function ≠ id.function then (c, .error (unpaired id))
    else
      let id := takLocation top id
      ({
        timers := record c.timers id (timeConverter newTime (c.start id))
        startIngTimers := c.subscript id
        toTak := rest }, .ok ())

def call (c : ClockArray Out In) : Call In → ClockArray Out In × Except Exn Unit
  | .tik id now => (c.tik id now, .ok ())
  | .tak id now => c.tak timeConverter id now

end ClockArray

namespace ClockArray

variable {Out In : Type}

def reset (c : ClockArray Out In) : Except Exn (ClockArray Out In) :=
  if c.toTak ≠ [] then .error (.logicError "Missing Tak statements for Tik ones")
  else .ok empty

def advance [AddCommGroup Out] (c other : ClockArray Out In) : ClockArray Out In :=
  { c with timers := Totals.merge c.timers other.timers }

theorem record_eq_add [Add Out] (timers : Map LocationType (TimeStore Out)) (id : LocationType)
    (res : Out) : record timers id res = Totals.add timers id ⟨res, 1⟩ := by
  unfold record Totals.add
  cases timers.lookup id <;> rfl

section Start

variable [Inhabited In] {c : ClockArray Out In} {id : LocationType}

theorem start_tik (c : ClockArray Out In) (id : LocationType) (now : In) :
    (c.tik id now).start = Function.update c.start id now := by
  funext l
  by_cases hl : l = id
  · subst hl
    rw [Function.update_self, start]
    dsimp only [tik]
    rw [Finmap.lookup_insert, Option.getD_some]
  · rw [Function.update_of_ne hl, start, start]
    dsimp only [tik]
    rw [Finmap.lookup_insert_of_ne _ hl]

theorem start_subscript (c c' : ClockArray Out In) (id : LocationType)
    (h : c'.startIngTimers = c.subscript id) : c'.start = c.start := by
  funext l
  rw [start, start, h, subscript]
  split
  · rfl
  · rename_i hid
    by_cases hl : l = id
    · subst hl
      rw [Finmap.lookup_insert, Finmap.lookup_eq_none.mpr hid]
      rfl
    · rw [Finmap.lookup_insert_of_ne _ hl]

theorem lookup_subscript {l : LocationType} {s : In} (h : c.startIngTimers.lookup l = some s)
    (id : LocationType) : (c.subscript id).lookup l = some s := by
  unfold subscript
  split
  · exact h
  · rename_i hid
    rw [Finmap.lookup_insert_of_ne, h]
    rintro rfl
    exact hid (Finmap.mem_of_lookup_eq_some h)

theorem start_of_lookup {s : In} (h : c.startIngTimers.lookup id = some s) : c.start id = s := by
  rw [start, h, Option.getD_some]

end Start

section Tak

variable [Add Out] [Inhabited In] {timeConverter : In → In → Out} {c : ClockArray Out In}
  {id top : LocationType} {now : In} {rest : List LocationType}

theorem tak_of_nil (h : c.toTak = []) : c.tak timeConverter id now = (c, .error (unpaired id)) := by
  rw [tak, h]

theorem tak_of_ne (h : c.toTak = top :: rest) (hne : top.function ≠ id.function) :
    c.tak timeConverter id now = (c, .error (unpaired id)) := by
  simp only [tak, h, if_pos hne]

theorem tak_of_cons (timeConverter : In → In → Out) (now : In) (h : c.toTak = top :: rest)
    (heq : top.function = id.function) :
    c.tak timeConverter id now = ({
      timers := Totals.add c.timers (takLocation top id)
        ⟨timeConverter now (c.start (takLocation top id)), 1⟩
      startIngTimers := c.subscript (takLocation top id)
      toTak := rest }, .ok ()) := by
  simp only [tak, h, if_neg (not_not.mpr heq), record_eq_add]

end Tak

end ClockArray

end DistributedMathArh.Timing
