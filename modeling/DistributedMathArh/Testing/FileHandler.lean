import DistributedMathArh.Common.Outcome
import DistributedMathArh.Lib.FinmapSum
import DistributedMathArh.Lib.Transition

namespace DistributedMathArh.FileUtils

open FinmapSum (Map mapValues lookup_mapValues all_eq_true_iff)
open Transition

inductive OpenMode
  | out | app
  deriving DecidableEq

/-- A `std::ofstream`: the mode in which it is open, and what was printed into it. -/
structure Stream where
  opened : Option OpenMode
  printed : List String
  deriving DecidableEq

namespace Stream

def closed : Stream := ⟨none, []⟩

def isOpen (s : Stream) : Bool := s.opened.isSome

def reopen (s : Stream) (mode : OpenMode) (succeeds : Bool) : Stream :=
  { s with opened := if succeeds then some mode else none }

def close (s : Stream) : Stream := { s with opened := none }

def print (s : Stream) (value : String) : Stream :=
  if s.isOpen then { s with printed := s.printed ++ [value] } else s

end Stream

def joinPath (parent filename : String) : String :=
  if filename.toList.head? = some '/' then filename
  else if parent = "" ∨ parent.toList.getLast? = some '/' then parent ++ filename
  else parent ++ "/" ++ filename

/-- The null pointer is none. -/
abbrev OstreamPtr := Option Stream

def deref : OstreamPtr → Except Fault Stream
  | some s => .ok s
  | none => .error .nullPointer

structure FileHandler where
  parentPath : String
  fileMap : Map String OstreamPtr

namespace FileHandler

def init (parentPath : String) : FileHandler := ⟨parentPath, ∅⟩

def path (fh : FileHandler) (filename : String) : String := joinPath fh.parentPath filename

def put (fh : FileHandler) (key : String) (s : Stream) : FileHandler :=
  { fh with fileMap := fh.fileMap.insert key (some s) }

/-- `file_map_[key]`: an entry that is not there is made, with a null pointer. -/
def subscript (fh : FileHandler) (key : String) : FileHandler × OstreamPtr :=
  match fh.fileMap.lookup key with
  | some ptr => (fh, ptr)
  | none => ({ fh with fileMap := fh.fileMap.insert key none }, none)

variable (fh : FileHandler) (filename : String)

/-- `Open`: it does not tell whether the file could be opened. -/
def openFile (mode : OpenMode) (succeeds : Bool) : Except Fault (FileHandler × Bool) :=
  match fh.fileMap.lookup (fh.path filename) with
  | none => .ok (fh, false)
  | some ptr => do
    let s ← deref ptr
    if !s.isOpen then return (fh.put (fh.path filename) (s.reopen mode succeeds), true)
    else return (fh, false)

def close : Except Fault (FileHandler × Bool) :=
  match fh.fileMap.lookup (fh.path filename) with
  | none => .ok (fh, false)
  | some ptr => do
    let s ← deref ptr
    if s.isOpen then return (fh.put (fh.path filename) s.close, true) else return (fh, false)

def delete : Except Fault (FileHandler × Bool) :=
  match fh.fileMap.lookup (fh.path filename) with
  | none => .ok (fh, false)
  | some ptr => do
    let _ ← deref ptr
    return ({ fh with fileMap := fh.fileMap.erase (fh.path filename) }, true)

def upsert (mode : OpenMode) (succeeds : Bool) : Except Fault (FileHandler × Bool) := do
  let key := fh.path filename
  let fh := if key ∈ fh.fileMap then fh else fh.put key .closed
  let (fh, ptr) := fh.subscript key
  let s ← deref ptr
  let s := if !s.isOpen then s.reopen mode succeeds else s
  return (fh.put key s, s.isOpen)

def closeFiles : Except Fault FileHandler :=
  if fh.fileMap.all fun _ ptr => ptr.isSome then
    .ok { fh with fileMap := mapValues (Option.map Stream.close) fh.fileMap }
  else .error .nullPointer

def contains : Bool := fh.path filename ∈ fh.fileMap

def needsUpsert : Except Fault (FileHandler × Bool) :=
  if fh.contains filename then .ok (fh, true)
  else do
    let (fh, ptr) := fh.subscript (fh.path filename)
    let s ← deref ptr
    return (fh, s.isOpen)

def printTo (value : String) : Except Fault FileHandler := do
  let (fh, ptr) := fh.subscript (fh.path filename)
  let s ← deref ptr
  return fh.put (fh.path filename) (s.print value)

def output (value : String) (succeeds : Bool) : Except Fault FileHandler := do
  let (fh, needed) ← fh.needsUpsert filename
  if needed then
    let (fh, res) ← fh.upsert filename .out succeeds
    if res then fh.printTo filename value else return fh
  else fh.printTo filename value

end FileHandler

inductive FileCall
  | openFile (filename : String) (mode : OpenMode) (succeeds : Bool)
  | close (filename : String)
  | delete (filename : String)
  | upsert (filename : String) (mode : OpenMode) (succeeds : Bool)
  | closeFiles
  | output (filename value : String) (succeeds : Bool)
  deriving DecidableEq

namespace FileHandler

def call (fh : FileHandler) : FileCall → Except Fault FileHandler
  | .openFile filename mode succeeds => (fh.openFile filename mode succeeds).map Prod.fst
  | .close filename => (fh.close filename).map Prod.fst
  | .delete filename => (fh.delete filename).map Prod.fst
  | .upsert filename mode succeeds => (fh.upsert filename mode succeeds).map Prod.fst
  | .closeFiles => fh.closeFiles
  | .output filename value succeeds => fh.output filename value succeeds

def NonNull (fh : FileHandler) : Prop :=
  ∀ key ptr, fh.fileMap.lookup key = some ptr → ptr.isSome = true

def printed (fh : FileHandler) (key : String) : List String :=
  ((fh.fileMap.lookup key).join.map Stream.printed).getD []

def Outputs (fh fh' : FileHandler) (filename value : String) : Prop :=
  fh'.printed = fh.printed ∨
  ∃ s, fh'.fileMap.lookup (fh.path filename) = some (some s) ∧ s.isOpen = true ∧
    fh'.printed = Function.update fh.printed (fh.path filename)
      (fh.printed (fh.path filename) ++ [value])

/-- A call that dereferences no null pointer and leaves none behind; an `Output` writes to an open
stream or not at all. -/
structure Safe (fh : FileHandler) (a : FileCall) (fh' : FileHandler) : Prop where
  returns : fh.call a = .ok fh'
  nonNull : fh'.NonNull
  outputs : ∀ filename value succeeds, a = .output filename value succeeds →
    fh.Outputs fh' filename value

def Named (fh : FileHandler) : FileCall → Prop
  | .output filename _ _ => fh.contains filename = true
  | _ => True

def step (fh : FileHandler) (a : FileCall) : Option FileHandler := (fh.call a).toOption

section Safety

variable {fh fh' : FileHandler} {filename key : String} {s : Stream}

theorem lookup_put_self (fh : FileHandler) (key : String) (s : Stream) :
    (fh.put key s).fileMap.lookup key = some (some s) := Finmap.lookup_insert _

theorem put_put (fh : FileHandler) (key : String) (s s' : Stream) :
    (fh.put key s).put key s' = fh.put key s' := by
  simp only [put, Finmap.insert_insert]

theorem subscript_of_lookup {ptr : OstreamPtr} (h : fh.fileMap.lookup key = some ptr) :
    fh.subscript key = (fh, ptr) := by
  rw [subscript, h]

theorem printed_put (fh : FileHandler) (key : String) (s : Stream) :
    (fh.put key s).printed = Function.update fh.printed key s.printed := by
  funext k
  by_cases hk : k = key
  · subst hk
    rw [Function.update_self, printed, lookup_put_self]
    rfl
  · rw [Function.update_of_ne hk, printed, printed]
    dsimp only [put]
    rw [Finmap.lookup_insert_of_ne _ hk]

theorem nonNull_init (parentPath : String) : (init parentPath).NonNull := by
  intro key ptr h
  cases h

namespace NonNull

theorem put (h : fh.NonNull) (key : String) (s : Stream) : (fh.put key s).NonNull :=
  FinmapSum.forall_insert rfl h

theorem erase (h : fh.NonNull) (key : String) :
    NonNull { fh with fileMap := fh.fileMap.erase key } := FinmapSum.forall_erase h

theorem lookup (h : fh.NonNull) {ptr : OstreamPtr} (hlook : fh.fileMap.lookup key = some ptr) :
    ∃ s, fh.fileMap.lookup key = some (some s) := by
  obtain ⟨s, rfl⟩ := Option.isSome_iff_exists.mp (h key ptr hlook)
  exact ⟨s, hlook⟩

theorem cases_lookup (h : fh.NonNull) (key : String) :
    fh.fileMap.lookup key = none ∨ ∃ s, fh.fileMap.lookup key = some (some s) := by
  cases hlook : fh.fileMap.lookup key with
  | none => exact .inl rfl
  | some ptr => exact .inr (hlook ▸ h.lookup hlook)

theorem openFile (h : fh.NonNull) (filename : String) (mode : OpenMode) (succeeds : Bool) :
    ∃ fh', fh.call (.openFile filename mode succeeds) = .ok fh' ∧ fh'.NonNull := by
  obtain hnone | ⟨s, hsome⟩ := h.cases_lookup (fh.path filename)
  · refine ⟨fh, ?_, h⟩
    simp only [call, FileHandler.openFile, hnone]
    rfl
  · cases hopen : s.isOpen with
    | true =>
      refine ⟨fh, ?_, h⟩
      simp only [call, FileHandler.openFile, hsome]
      simp [deref, hopen, bind, Except.bind, pure, Except.pure, Except.map]
    | false =>
      refine ⟨_, ?_, h.put (fh.path filename) (s.reopen mode succeeds)⟩
      simp only [call, FileHandler.openFile, hsome]
      simp [deref, hopen, bind, Except.bind, pure, Except.pure, Except.map]

theorem close (h : fh.NonNull) (filename : String) :
    ∃ fh', fh.call (.close filename) = .ok fh' ∧ fh'.NonNull := by
  obtain hnone | ⟨s, hsome⟩ := h.cases_lookup (fh.path filename)
  · refine ⟨fh, ?_, h⟩
    simp only [call, FileHandler.close, hnone]
    rfl
  · cases hopen : s.isOpen with
    | false =>
      refine ⟨fh, ?_, h⟩
      simp only [call, FileHandler.close, hsome]
      simp [deref, hopen, bind, Except.bind, pure, Except.pure, Except.map]
    | true =>
      refine ⟨_, ?_, h.put (fh.path filename) s.close⟩
      simp only [call, FileHandler.close, hsome]
      simp [deref, hopen, bind, Except.bind, pure, Except.pure, Except.map]

theorem delete (h : fh.NonNull) (filename : String) :
    ∃ fh', fh.call (.delete filename) = .ok fh' ∧ fh'.NonNull := by
  obtain hnone | ⟨s, hsome⟩ := h.cases_lookup (fh.path filename)
  · refine ⟨fh, ?_, h⟩
    simp only [call, FileHandler.delete, hnone]
    rfl
  · refine ⟨_, ?_, h.erase (fh.path filename)⟩
    simp only [call, FileHandler.delete, hsome]
    rfl

theorem upsert (h : fh.NonNull) (filename : String) (mode : OpenMode) (succeeds : Bool) :
    ∃ s, fh.upsert filename mode succeeds = .ok (fh.put (fh.path filename) s, s.isOpen) ∧
      s.printed = fh.printed (fh.path filename) := by
  obtain hnone | ⟨s, hsome⟩ := h.cases_lookup (fh.path filename)
  · have hmem : fh.path filename ∉ fh.fileMap := Finmap.lookup_eq_none.mp hnone
    refine ⟨Stream.closed.reopen mode succeeds, ?_, ?_⟩
    · simp only [FileHandler.upsert, if_neg hmem,
        subscript_of_lookup (lookup_put_self fh (fh.path filename) .closed)]
      simp [deref, Stream.isOpen, Stream.closed, bind, Except.bind, pure, Except.pure, put_put]
    · rw [printed, hnone]
      rfl
  · have hmem : fh.path filename ∈ fh.fileMap := Finmap.mem_of_lookup_eq_some hsome
    refine ⟨if !s.isOpen then s.reopen mode succeeds else s, ?_, ?_⟩
    · simp only [FileHandler.upsert, if_pos hmem, subscript_of_lookup hsome]
      rfl
    · rw [printed, hsome]
      split <;> rfl

theorem closeFiles (h : fh.NonNull) : ∃ fh', fh.call .closeFiles = .ok fh' ∧ fh'.NonNull := by
  have hall : (fh.fileMap.all fun _ ptr => ptr.isSome) = true := all_eq_true_iff.mpr h
  refine ⟨_, if_pos hall, ?_⟩
  intro key ptr hlook
  dsimp only at hlook
  rw [lookup_mapValues] at hlook
  obtain ⟨ptr', hptr', rfl⟩ := Option.map_eq_some_iff.mp hlook
  rw [Option.isSome_map]
  exact h key ptr' hptr'

theorem output (h : fh.NonNull) {filename : String} (hmem : fh.contains filename = true)
    (value : String) (succeeds : Bool) :
    ∃ fh', fh.call (.output filename value succeeds) = .ok fh' ∧ fh'.NonNull ∧
      fh.Outputs fh' filename value := by
  obtain ⟨s, hupsert, hprinted⟩ := h.upsert filename .out succeeds
  have hneeds : fh.needsUpsert filename = .ok (fh, true) := by rw [needsUpsert, if_pos hmem]
  have hput := lookup_put_self fh (fh.path filename) s
  cases hopen : s.isOpen with
  | false =>
    refine ⟨fh.put (fh.path filename) s, ?_, h.put _ _, .inl ?_⟩
    · simp only [call, FileHandler.output, hneeds, bind, Except.bind, if_true, hupsert, hopen,
        Bool.false_eq_true, if_false]
      rfl
    · rw [printed_put, hprinted, Function.update_eq_self]
  | true =>
    have hprint : (fh.put (fh.path filename) s).printTo filename value =
        .ok (fh.put (fh.path filename) (s.print value)) := by
      have hsubscript := subscript_of_lookup hput
      have hpath : (fh.put (fh.path filename) s).path filename = fh.path filename := rfl
      simp only [printTo, hpath, hsubscript, deref, bind, Except.bind, pure, Except.pure, put_put]
    have hsprint : s.print value = { s with printed := s.printed ++ [value] } := if_pos hopen
    refine ⟨fh.put (fh.path filename) (s.print value), ?_, h.put _ _, .inr ⟨s.print value, ?_, ?_, ?_⟩⟩
    · simp only [call, FileHandler.output, hneeds, bind, Except.bind, if_true, hupsert, hopen, hprint]
    · exact lookup_put_self fh _ _
    · rw [hsprint]
      exact hopen
    · rw [printed_put, hsprint, hprinted]

end NonNull

theorem output_of_not_contains (h : fh.contains filename = false) (value : String)
    (succeeds : Bool) : fh.call (.output filename value succeeds) = .error .nullPointer := by
  have hnone : fh.fileMap.lookup (fh.path filename) = none := by
    rw [Finmap.lookup_eq_none]
    simpa [contains] using h
  simp only [call, output, needsUpsert, h, subscript, hnone, deref, bind, Except.bind,
    Bool.false_eq_true, if_false]

theorem safe_iff_named (h : fh.NonNull) (a : FileCall) : (∃ fh', fh.Safe a fh') ↔ fh.Named a := by
  cases a with
  | openFile filename mode succeeds =>
    obtain ⟨fh', hcall, hnull⟩ := h.openFile filename mode succeeds
    exact ⟨fun _ => trivial, fun _ => ⟨fh', hcall, hnull, fun _ _ _ heq => nomatch heq⟩⟩
  | close filename =>
    obtain ⟨fh', hcall, hnull⟩ := h.close filename
    exact ⟨fun _ => trivial, fun _ => ⟨fh', hcall, hnull, fun _ _ _ heq => nomatch heq⟩⟩
  | delete filename =>
    obtain ⟨fh', hcall, hnull⟩ := h.delete filename
    exact ⟨fun _ => trivial, fun _ => ⟨fh', hcall, hnull, fun _ _ _ heq => nomatch heq⟩⟩
  | upsert filename mode succeeds =>
    obtain ⟨s, hupsert, -⟩ := h.upsert filename mode succeeds
    have hcall : fh.call (.upsert filename mode succeeds) = .ok (fh.put (fh.path filename) s) := by
      simp only [call, hupsert, Except.map]
    exact ⟨fun _ => trivial, fun _ => ⟨_, hcall, h.put _ s, fun _ _ _ heq => nomatch heq⟩⟩
  | closeFiles =>
    obtain ⟨fh', hcall, hnull⟩ := h.closeFiles
    exact ⟨fun _ => trivial, fun _ => ⟨fh', hcall, hnull, fun _ _ _ heq => nomatch heq⟩⟩
  | output filename value succeeds =>
    constructor
    · rintro ⟨fh', hsafe⟩
      cases hmem : fh.contains filename with
      | true => exact hmem
      | false =>
        have hcall := hsafe.returns
        rw [output_of_not_contains hmem] at hcall
        cases hcall
    · intro hmem
      obtain ⟨fh', hcall, hnull, houtputs⟩ := h.output hmem value succeeds
      refine ⟨fh', hcall, hnull, ?_⟩
      intro _ _ _ heq
      cases heq
      exact houtputs

theorem Safe.step {a : FileCall} (h : fh.Safe a fh') : fh.step a = some fh' := by
  rw [FileHandler.step, h.returns]
  rfl

theorem run_named_of_safe {parentPath : String} {calls : List FileCall}
    (run : Run Safe (init parentPath) calls fh) :
    fh.NonNull ∧ Run (Guarded (ofFun step) Named) (init parentPath) calls fh := by
  induction run with
  | nil => exact ⟨nonNull_init parentPath, .nil⟩
  | snoc _ hsafe ih =>
    have hnamed := (safe_iff_named ih.1 _).mp ⟨_, hsafe⟩
    exact ⟨hsafe.nonNull, .snoc ih.2 ⟨hnamed, hsafe.step⟩⟩

theorem run_safe_of_named {parentPath : String} {calls : List FileCall}
    (run : Run (Guarded (ofFun step) Named) (init parentPath) calls fh) :
    fh.NonNull ∧ Run Safe (init parentPath) calls fh := by
  induction run with
  | nil => exact ⟨nonNull_init parentPath, .nil⟩
  | snoc _ hguarded ih =>
    obtain ⟨fh', hsafe⟩ := (safe_iff_named ih.1 _).mpr hguarded.1
    obtain rfl := Option.some.inj (hsafe.step.symm.trans hguarded.2)
    exact ⟨hsafe.nonNull, .snoc ih.2 hsafe⟩

/-- All calls of a sequence are safe exactly if every `Output` finds its name in the map. -/
theorem calls_safe_iff (parentPath : String) (calls : List FileCall) :
    (∃ fh, Run Safe (init parentPath) calls fh) ↔
      ∃ fh, Run (Guarded (ofFun step) Named) (init parentPath) calls fh := by
  constructor
  · rintro ⟨fh, run⟩
    exact ⟨fh, (run_named_of_safe run).2⟩
  · rintro ⟨fh, run⟩
    exact ⟨fh, (run_safe_of_named run).2⟩

theorem not_calls_safe :
    (init "dir").call (.output "log.txt" "x" true) = .error .nullPointer ∧
    (¬ ∃ fh, Run Safe (init "dir") [.output "log.txt" "x" true] fh) ∧
    [.upsert "log.txt" .out true, .delete "log.txt", .output "log.txt" "x" true].foldlM call
      (init "dir") = .error .nullPointer := by
  have hcall : (init "dir").call (.output "log.txt" "x" true) = .error .nullPointer := rfl
  refine ⟨hcall, ?_, rfl⟩
  rintro ⟨fh, run⟩
  have hrun : Run Safe (init "dir") ([] ++ [.output "log.txt" "x" true]) fh := run
  obtain ⟨fh', hnil, hsafe⟩ := hrun.of_snoc
  obtain rfl := hnil.of_nil
  have hreturns := hsafe.returns
  rw [hcall] at hreturns
  cases hreturns

end Safety

end FileHandler

end DistributedMathArh.FileUtils
