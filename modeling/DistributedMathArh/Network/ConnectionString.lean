import Mathlib.Logic.Basic
import DistributedMathArh.Lib.Words
import DistributedMathArh.Network.AmqpService

namespace DistributedMathArh

open Words

/-- What is used of the scanning library: `{}` skips whitespace; for a string it reads up to the
next whitespace, for an unsigned number as much of that word as belongs to the number. -/
structure Scanner where
  isSpace : Char → Bool
  readUint : List Char → Option (UInt32 × List Char)
  isSpace_blank : isSpace ' ' = true
  isSpace_alphanum : ∀ c : Char, c.isAlphanum → isSpace c = false
  readUint_decimal : ∀ n : UInt32, readUint (Nat.toDigits 10 n.toNat) = some (n, [])
  readUint_suffix : ∀ w n left, readUint w = some (n, left) → left <:+ w

namespace Scanner

variable (sc : Scanner)

def blanks (s : List Char) : List Char := s.dropWhile sc.isSpace

def string (s : List Char) : Option (String × List Char) :=
  (word sc.isSpace s).map fun (w, rest) => (String.ofList w, rest)

def uint (s : List Char) : Option (UInt32 × List Char) := do
  let (w, rest) ← word sc.isSpace s
  let (n, left) ← sc.readUint w
  return (n, left ++ rest)

def literal (text : String) (s : List Char) : Option (List Char) := s.dropPrefix? text.toList

end Scanner

def kDelimiters : String := "/@:?&=#"

def decodeChar (c : Char) : Char := if c ∈ kDelimiters.toList then ' ' else c

def urlDecode (url : String) : String := String.ofList (url.toList.map decodeChar)

structure PostgreSQLCStr where
  user : String
  password : String
  host : String
  dbname : String
  port : UInt32
  deriving DecidableEq

namespace PostgreSQLCStr

def formatted (c : PostgreSQLCStr) : String :=
  "postgresql://" ++ c.user ++ ":" ++ c.password ++ "@" ++ c.host ++ ":" ++
    c.port.toNat.repr ++ "/" ++ c.dbname

def getVerboseName (c : PostgreSQLCStr) : String :=
  c.host ++ ":" ++ c.port.toNat.repr ++ " db:" ++ c.dbname

/-- `FromString`, with the format `"postgresql   {} {} {} {} {}"`; without a result it throws
`ScanningError`. -/
def fromString (sc : Scanner) (s : String) : Option PostgreSQLCStr := do
  let s ← Scanner.literal "postgresql" (urlDecode s).toList
  let (user, s) ← sc.string (sc.blanks s)
  let (password, s) ← sc.string (sc.blanks s)
  let (host, s) ← sc.string (sc.blanks s)
  let (port, s) ← sc.uint (sc.blanks s)
  let (dbname, _) ← sc.string (sc.blanks s)
  return { user, password, host, dbname, port }

end PostgreSQLCStr

namespace AMQPSQLCStr

/-- `FromString`, with the format `"{}   {} {} {} {} "`. -/
def fromString (sc : Scanner) (s : String) : Option AMQPSQLCStr := do
  let (c, s) ← sc.string (urlDecode s).toList
  let (user, s) ← sc.string (sc.blanks s)
  let (password, s) ← sc.string (sc.blanks s)
  let (host, s) ← sc.string (sc.blanks s)
  let (port, _) ← sc.string (sc.blanks s)
  return { hostPort := host ++ ":" ++ port, user, password, secure := c.toList.getLast? = some 's' }

end AMQPSQLCStr

def asciiScanner : Scanner where
  isSpace c := c ∈ [' ', '\t', '\n', '\x0b', '\x0c', '\r']
  readUint w :=
    let digits := w.takeWhile Char.isDigit
    let n := Nat.ofDigitChars 10 digits 0
    if digits = [] ∨ 4294967296 ≤ n then none else some (UInt32.ofNat n, w.dropWhile Char.isDigit)
  isSpace_blank := by decide
  isSpace_alphanum c h := by
    apply decide_eq_false
    intro hc
    simp only [List.mem_cons, List.not_mem_nil, or_false] at hc
    rcases hc with rfl | rfl | rfl | rfl | rfl | rfl <;> revert h <;> decide
  readUint_decimal n := by
    have hdigits : ∀ c ∈ Nat.toDigits 10 n.toNat, c.isDigit = true := fun c hc =>
      Nat.isDigit_of_mem_toDigits (by decide) (by decide) hc
    have hlt := n.toNat_lt
    simp [List.takeWhile_eq_self_iff.mpr hdigits, List.dropWhile_eq_nil_iff.mpr hdigits, hlt]
  readUint_suffix w n left h := by
    simp only [Option.ite_none_left_eq_some, Option.some.injEq, Prod.mk.injEq] at h
    exact h.2.2 ▸ List.dropWhile_suffix _

section Words

variable {sc : Scanner}

@[simp] theorem Scanner.string_blanks (s : List Char) : sc.string (sc.blanks s) = sc.string s := by
  rw [string, blanks, word_dropWhile, string]

@[simp] theorem Scanner.uint_blanks (s : List Char) : sc.uint (sc.blanks s) = sc.uint s := by
  rw [uint, blanks, word_dropWhile, uint]

theorem Scanner.string_of_nil {s : List Char} (h : words sc.isSpace s = []) :
    sc.string s = none := by
  rw [string, word_of_words_nil h]
  rfl

theorem Scanner.string_of_words {s w : List Char} {ws : List (List Char)}
    (h : words sc.isSpace s = w :: ws) :
    ∃ rest, sc.string s = some (String.ofList w, rest) ∧ words sc.isSpace rest = ws := by
  obtain ⟨rest, hw, hrest⟩ := word_of_words h
  exact ⟨rest, by rw [string, hw]; rfl, hrest⟩

theorem Scanner.uint_of_nil {s : List Char} (h : words sc.isSpace s = []) : sc.uint s = none := by
  rw [uint, word_of_words_nil h]
  rfl

theorem Scanner.uint_of_none {s w : List Char} {ws : List (List Char)}
    (h : words sc.isSpace s = w :: ws) (hn : sc.readUint w = none) : sc.uint s = none := by
  obtain ⟨rest, hw, -⟩ := word_of_words h
  rw [uint, hw]
  simp [hn]

theorem Scanner.uint_of_words {s w left : List Char} {ws : List (List Char)} {n : UInt32}
    (h : words sc.isSpace s = w :: ws) (hn : sc.readUint w = some (n, left)) :
    ∃ rest, sc.uint s = some (n, rest) ∧
      words sc.isSpace rest = if left = [] then ws else left :: ws := by
  obtain ⟨rest, hw, hrest⟩ := word_of_words h
  obtain ⟨hword, hends, -⟩ := word_eq_some hw
  refine ⟨left ++ rest, ?_, ?_⟩
  · rw [uint, hw]
    simp [hn]
  · split
    · rename_i hleft
      rw [hleft, List.nil_append, hrest]
    · rename_i hleft
      have hsuffix := sc.readUint_suffix w n left hn
      have hl : IsWord sc.isSpace left := ⟨hleft, fun a ha => hword.not_sep a (hsuffix.subset ha)⟩
      rw [hl.words_append hends, hrest]

def PostgreSQLCStr.ofWords (sc : Scanner) : List (List Char) → Option PostgreSQLCStr
  | user :: password :: host :: number :: ws =>
    (sc.readUint number).bind fun (port, left) =>
      (if left = [] then ws else left :: ws).head?.map fun dbname =>
        ⟨String.ofList user, String.ofList password, String.ofList host, String.ofList dbname, port⟩
  | _ => none

theorem PostgreSQLCStr.fromString_eq (s : String) :
    fromString sc s = (Scanner.literal "postgresql" (urlDecode s).toList).bind fun rest =>
      ofWords sc (words sc.isSpace rest) := by
  unfold fromString
  apply congrArg (Option.bind _)
  funext rest
  cases hs : words sc.isSpace rest with
  | nil => simp [Scanner.string_of_nil hs, ofWords]
  | cons user ws =>
    obtain ⟨s₁, h₁, rfl⟩ := Scanner.string_of_words hs
    cases hs : words sc.isSpace s₁ with
    | nil => simp [h₁, Scanner.string_of_nil hs, ofWords]
    | cons password ws =>
      obtain ⟨s₂, h₂, rfl⟩ := Scanner.string_of_words hs
      cases hs : words sc.isSpace s₂ with
      | nil => simp [h₁, h₂, Scanner.string_of_nil hs, ofWords]
      | cons host ws =>
        obtain ⟨s₃, h₃, rfl⟩ := Scanner.string_of_words hs
        cases hs : words sc.isSpace s₃ with
        | nil => simp [h₁, h₂, h₃, Scanner.uint_of_nil hs, ofWords]
        | cons number ws =>
          cases hn : sc.readUint number with
          | none => simp [h₁, h₂, h₃, Scanner.uint_of_none hs hn, ofWords, hn]
          | some p =>
            obtain ⟨s₄, h₄, hs₄⟩ := Scanner.uint_of_words hs hn
            simp only [ofWords, hn, Option.bind_some, ← hs₄]
            cases hs : words sc.isSpace s₄ with
            | nil => simp [h₁, h₂, h₃, h₄, Scanner.string_of_nil hs]
            | cons dbname ws =>
              obtain ⟨s₅, h₅, -⟩ := Scanner.string_of_words hs
              simp [h₁, h₂, h₃, h₄, h₅]

def AMQPSQLCStr.ofWords : List (List Char) → Option AMQPSQLCStr
  | c :: user :: password :: host :: port :: _ =>
    some ⟨String.ofList host ++ ":" ++ String.ofList port, String.ofList user,
      String.ofList password, c.getLast? = some 's'⟩
  | _ => none

theorem AMQPSQLCStr.fromString_eq (s : String) :
    fromString sc s = ofWords (words sc.isSpace (urlDecode s).toList) := by
  unfold fromString
  cases hs : words sc.isSpace (urlDecode s).toList with
  | nil => simp [Scanner.string_of_nil hs, ofWords]
  | cons c ws =>
    obtain ⟨s₁, h₁, rfl⟩ := Scanner.string_of_words hs
    cases hs : words sc.isSpace s₁ with
    | nil => simp [h₁, Scanner.string_of_nil hs, ofWords]
    | cons user ws =>
      obtain ⟨s₂, h₂, rfl⟩ := Scanner.string_of_words hs
      cases hs : words sc.isSpace s₂ with
      | nil => simp [h₁, h₂, Scanner.string_of_nil hs, ofWords]
      | cons password ws =>
        obtain ⟨s₃, h₃, rfl⟩ := Scanner.string_of_words hs
        cases hs : words sc.isSpace s₃ with
        | nil => simp [h₁, h₂, h₃, Scanner.string_of_nil hs, ofWords]
        | cons host ws =>
          obtain ⟨s₄, h₄, rfl⟩ := Scanner.string_of_words hs
          cases hs : words sc.isSpace s₄ with
          | nil => simp [h₁, h₂, h₃, h₄, Scanner.string_of_nil hs, ofWords]
          | cons port ws =>
            obtain ⟨s₅, h₅, -⟩ := Scanner.string_of_words hs
            simp [h₁, h₂, h₃, h₄, h₅, ofWords]

structure CleanField (sc : Scanner) (s : String) : Prop where
  isWord : IsWord sc.isSpace s.toList
  not_delimiter : ∀ c ∈ s.toList, c ∉ kDelimiters.toList

theorem CleanField.of_alphanum {s : String} (hne : s.toList ≠ [])
    (h : s.toList.all Char.isAlphanum = true) : CleanField sc s where
  isWord := ⟨hne, fun c hc => sc.isSpace_alphanum c (List.all_eq_true.mp h c hc)⟩
  not_delimiter c hc hmem := by
    have hdelimiter : kDelimiters.toList.all (fun c => !c.isAlphanum) = true := by decide
    have hnot := List.all_eq_true.mp hdelimiter c hmem
    simp [List.all_eq_true.mp h c hc] at hnot

def fieldWords (sc : Scanner) (s : String) : List (List Char) := words sc.isSpace (urlDecode s).toList

theorem decodeChar_of_not_mem {c : Char} (h : c ∉ kDelimiters.toList) : decodeChar c = c := if_neg h

theorem decodeChar_not_delimiter (c : Char) : decodeChar c ∉ kDelimiters.toList := by
  unfold decodeChar
  split
  · decide
  · assumption

theorem toList_urlDecode (s : String) : (urlDecode s).toList = s.toList.map decodeChar :=
  String.toList_ofList

theorem map_decodeChar {s : List Char} (h : ∀ c ∈ s, c ∉ kDelimiters.toList) :
    s.map decodeChar = s := by
  induction s with
  | nil => rfl
  | cons c s ih =>
    obtain ⟨hc, hs⟩ := List.forall_mem_cons.mp h
    rw [List.map_cons, decodeChar_of_not_mem hc, ih hs]

theorem CleanField.fieldWords_eq {s : String} (h : CleanField sc s) : fieldWords sc s = [s.toList] := by
  rw [fieldWords, toList_urlDecode, map_decodeChar h.not_delimiter, h.isWord.words]

theorem CleanField.of_mem {w : List Char} {t : String} (h : w ∈ fieldWords sc t) :
    CleanField sc (String.ofList w) where
  isWord := by
    rw [String.toList_ofList]
    exact isWord_of_mem_words h
  not_delimiter c hc := by
    rw [String.toList_ofList] at hc
    have hmem := mem_of_mem_words h hc
    rw [toList_urlDecode] at hmem
    obtain ⟨d, -, rfl⟩ := List.mem_map.mp hmem
    exact decodeChar_not_delimiter d

theorem fieldWords_repr (n : Nat) : fieldWords sc n.repr = [Nat.toDigits 10 n] := by
  have htext : n.repr.toList = Nat.toDigits 10 n := String.toList_ofList
  have hclean : CleanField sc n.repr := by
    apply CleanField.of_alphanum
    · rw [htext]
      exact Nat.toDigits_ne_nil
    · rw [htext, List.all_eq_true]
      intro c hc
      simp [Char.isAlphanum, Nat.isDigit_of_mem_toDigits (by decide) (by decide) hc]
  rw [hclean.fieldWords_eq, htext]

@[simp] theorem toList_urlDecode_append (s t : String) :
    (urlDecode (s ++ t)).toList = (urlDecode s).toList ++ (urlDecode t).toList := by
  simp only [toList_urlDecode, String.toList_append, List.map_append]

namespace PostgreSQLCStr

def allWords (sc : Scanner) (c : PostgreSQLCStr) : List (List Char) :=
  fieldWords sc c.user ++ fieldWords sc c.password ++ fieldWords sc c.host ++
    fieldWords sc (c.port.toNat.repr) ++ fieldWords sc c.dbname

theorem toList_urlDecode_formatted (c : PostgreSQLCStr) :
    (urlDecode c.formatted).toList = "postgresql".toList ++
      (' ' :: ' ' :: ' ' :: ((urlDecode c.user).toList ++ ' ' :: ((urlDecode c.password).toList ++
        ' ' :: ((urlDecode c.host).toList ++ ' ' :: ((urlDecode (c.port.toNat.repr)).toList ++
          ' ' :: (urlDecode c.dbname).toList))))) := by
  have hscheme : (urlDecode "postgresql://").toList = "postgresql".toList ++ [' ', ' ', ' '] := by
    decide
  have hcolon : (urlDecode ":").toList = [' '] := by decide
  have hat : (urlDecode "@").toList = [' '] := by decide
  have hslash : (urlDecode "/").toList = [' '] := by decide
  unfold formatted
  simp only [toList_urlDecode_append, hscheme, hcolon, hat, hslash,
    List.append_assoc, List.cons_append, List.nil_append]

theorem fromString_formatted (c : PostgreSQLCStr) :
    fromString sc c.formatted = ofWords sc (c.allWords sc) := by
  have hblank := sc.isSpace_blank
  rw [fromString_eq, toList_urlDecode_formatted, Scanner.literal,
    List.dropPrefix?_append_of_beq _ (beq_self_eq_true _), Option.bind_some, words_cons hblank,
    words_cons hblank, words_cons hblank, words_append_cons hblank, words_append_cons hblank,
    words_append_cons hblank, words_append_cons hblank, allWords]
  simp [fieldWords]

theorem clean_of_mem {c : PostgreSQLCStr} {w : List Char} (h : w ∈ c.allWords sc) :
    CleanField sc (String.ofList w) := by
  simp only [allWords, List.mem_append] at h
  rcases h with (((h | h) | h) | h) | h
  · exact .of_mem h
  · exact .of_mem h
  · exact .of_mem h
  · exact .of_mem h
  · exact .of_mem h

structure Clean (sc : Scanner) (c : PostgreSQLCStr) : Prop where
  user : CleanField sc c.user
  password : CleanField sc c.password
  host : CleanField sc c.host
  dbname : CleanField sc c.dbname

theorem Clean.ofWords {c : PostgreSQLCStr} (h : c.Clean sc) :
    ofWords sc (c.allWords sc) = some c := by
  rw [allWords, h.user.fieldWords_eq, h.password.fieldWords_eq, h.host.fieldWords_eq,
    fieldWords_repr, h.dbname.fieldWords_eq]
  simp [PostgreSQLCStr.ofWords, sc.readUint_decimal]

theorem ofWords_eq_some {c : PostgreSQLCStr} {ws : List (List Char)} (h : ofWords sc ws = some c) :
    ∃ number left rest, ws = c.user.toList :: c.password.toList :: c.host.toList :: number :: rest ∧
      sc.readUint number = some (c.port, left) ∧
      (if left = [] then rest else left :: rest).head? = some c.dbname.toList := by
  unfold ofWords at h
  split at h
  · obtain ⟨⟨n, left⟩, hn, hmap⟩ := Option.bind_eq_some_iff.mp h
    obtain ⟨dbname, hhead, rfl⟩ := Option.map_eq_some_iff.mp hmap
    simp only [String.toList_ofList]
    exact ⟨_, left, _, rfl, hn, hhead⟩
  · cases h

theorem clean_of_ofWords {c : PostgreSQLCStr} (h : ofWords sc (c.allWords sc) = some c) :
    c.Clean sc := by
  obtain ⟨number, left, rest, hwords, hn, hhead⟩ := ofWords_eq_some h
  have hclean : ∀ s : String, s.toList ∈ c.allWords sc → CleanField sc s := fun s hs =>
    String.ofList_toList (s := s) ▸ clean_of_mem hs
  have huser : CleanField sc c.user := hclean _ (by simp [hwords])
  have hpassword : CleanField sc c.password := hclean _ (by simp [hwords])
  have hhost : CleanField sc c.host := hclean _ (by simp [hwords])
  rw [allWords, huser.fieldWords_eq, hpassword.fieldWords_eq, hhost.fieldWords_eq,
    fieldWords_repr] at hwords
  obtain ⟨rfl, rfl⟩ : Nat.toDigits 10 c.port.toNat = number ∧ fieldWords sc c.dbname = rest := by
    simpa using hwords
  obtain ⟨-, rfl⟩ : c.port = c.port ∧ [] = left := by
    simpa [sc.readUint_decimal] using hn
  rw [if_pos rfl] at hhead
  refine ⟨huser, hpassword, hhost, hclean _ ?_⟩
  simp [allWords, List.mem_of_head? hhead]

theorem fromString_formatted_eq_some (c : PostgreSQLCStr) :
    fromString sc c.formatted = some c ↔ c.Clean sc := by
  rw [fromString_formatted]
  exact ⟨clean_of_ofWords, Clean.ofWords⟩

def Scans (sc : Scanner) : List (List Char) → Prop
  | _ :: _ :: _ :: number :: rest =>
    ∃ n left, sc.readUint number = some (n, left) ∧ (left ≠ [] ∨ rest ≠ [])
  | _ => False

theorem ofWords_eq_none {ws : List (List Char)} : ofWords sc ws = none ↔ ¬ Scans sc ws := by
  unfold ofWords Scans
  split
  · rename_i number rest
    cases hn : sc.readUint number with
    | none => simp
    | some p =>
      obtain ⟨n, left⟩ := p
      cases left with
      | nil => simp
      | cons a left => simp
  · simp

end PostgreSQLCStr

namespace AMQPSQLCStr

def allWords (sc : Scanner) (c : AMQPSQLCStr) : List (List Char) :=
  fieldWords sc c.user ++ fieldWords sc c.password ++ fieldWords sc c.hostPort

def scheme (c : AMQPSQLCStr) : List Char := if c.secure then "amqps".toList else "amqp".toList

theorem toList_urlDecode_formatted (c : AMQPSQLCStr) :
    (urlDecode c.formatted).toList = c.scheme ++ ' ' :: ' ' :: ' ' ::
      ((urlDecode c.user).toList ++ ' ' :: ((urlDecode c.password).toList ++ ' ' ::
        ((urlDecode c.hostPort).toList ++ ' ' :: []))) := by
  have hscheme : (urlDecode ("amqp" ++ if c.secure then "s" else "")).toList = c.scheme := by
    unfold scheme
    cases c.secure <;> decide
  have hsep : (urlDecode "://").toList = [' ', ' ', ' '] := by decide
  have hcolon : (urlDecode ":").toList = [' '] := by decide
  have hat : (urlDecode "@").toList = [' '] := by decide
  have hslash : (urlDecode "/").toList = [' '] := by decide
  unfold formatted
  generalize ("amqp" ++ if c.secure then "s" else "") = t at hscheme
  simp only [toList_urlDecode_append, hscheme, hsep, hcolon, hat, hslash, List.append_assoc,
    List.cons_append, List.nil_append]

theorem fromString_formatted (c : AMQPSQLCStr) :
    fromString sc c.formatted = ofWords (c.scheme :: c.allWords sc) := by
  have hblank := sc.isSpace_blank
  have hscheme : IsWord sc.isSpace c.scheme := by
    unfold scheme
    cases c.secure with
    | true =>
      have hall : "amqps".toList.all Char.isAlphanum = true := by decide
      exact ⟨by decide, fun a ha => sc.isSpace_alphanum a (List.all_eq_true.mp hall a ha)⟩
    | false =>
      have hall : "amqp".toList.all Char.isAlphanum = true := by decide
      exact ⟨by decide, fun a ha => sc.isSpace_alphanum a (List.all_eq_true.mp hall a ha)⟩
  rw [fromString_eq, toList_urlDecode_formatted, words_append_cons hblank, hscheme.words,
    words_cons hblank, words_cons hblank, words_append_cons hblank, words_append_cons hblank,
    words_append_cons hblank, words_nil, allWords]
  simp [fieldWords]

theorem clean_of_mem {c : AMQPSQLCStr} {w : List Char} (h : w ∈ c.allWords sc) :
    CleanField sc (String.ofList w) := by
  simp only [allWords, List.mem_append] at h
  rcases h with (h | h) | h
  · exact .of_mem h
  · exact .of_mem h
  · exact .of_mem h

def HostAndPort (sc : Scanner) (s : String) : Prop :=
  ∃ host port, CleanField sc host ∧ CleanField sc port ∧ s = host ++ ":" ++ port

theorem fieldWords_hostAndPort {host port : String} (hhost : CleanField sc host)
    (hport : CleanField sc port) :
    fieldWords sc (host ++ ":" ++ port) = [host.toList, port.toList] := by
  have hcolon : (urlDecode ":").toList = [' '] := by decide
  rw [fieldWords, toList_urlDecode_append, toList_urlDecode_append, hcolon, List.append_assoc,
    List.singleton_append, words_append_cons sc.isSpace_blank]
  exact congrArg₂ (· ++ ·) hhost.fieldWords_eq hport.fieldWords_eq

theorem secure_eq (c : AMQPSQLCStr) : decide (c.scheme.getLast? = some 's') = c.secure := by
  unfold scheme
  cases c.secure <;> decide

theorem ofWords_eq_some {c : AMQPSQLCStr} {w : List Char} {ws : List (List Char)}
    (h : ofWords (w :: ws) = some c) :
    ∃ host port rest, ws = c.user.toList :: c.password.toList :: host :: port :: rest ∧
      c.hostPort = String.ofList host ++ ":" ++ String.ofList port := by
  unfold ofWords at h
  split at h
  · rename_i hws
    cases hws
    cases h
    simp only [String.toList_ofList]
    exact ⟨_, _, _, rfl, rfl⟩
  · cases h

theorem fromString_formatted_eq_some (c : AMQPSQLCStr) :
    fromString sc c.formatted = some c ↔
      CleanField sc c.user ∧ CleanField sc c.password ∧ HostAndPort sc c.hostPort := by
  rw [fromString_formatted]
  constructor
  · intro h
    obtain ⟨host, port, rest, hwords, heq⟩ := ofWords_eq_some h
    have hclean : ∀ w ∈ c.allWords sc, CleanField sc (String.ofList w) := fun w hw => clean_of_mem hw
    rw [hwords] at hclean
    refine ⟨?_, ?_, _, _, hclean host (by simp), hclean port (by simp), heq⟩
    · exact String.ofList_toList (s := c.user) ▸ hclean _ List.mem_cons_self
    · exact String.ofList_toList (s := c.password) ▸ hclean _ (by simp)
  · rintro ⟨huser, hpassword, host, port, hhost, hport, heq⟩
    rw [allWords, huser.fieldWords_eq, hpassword.fieldWords_eq, heq,
      fieldWords_hostAndPort hhost hport]
    simp [ofWords, secure_eq, ← heq]

theorem ofWords_eq_none (w : List Char) (ws : List (List Char)) :
    ofWords (w :: ws) = none ↔ ws.length < 4 := by
  rcases ws with _ | ⟨_, _ | ⟨_, _ | ⟨_, _ | ⟨_, ws⟩⟩⟩⟩ <;> simp [ofWords]

end AMQPSQLCStr

def Restores {C : Type} (result : Option C) (c : C) (good : Prop) : Prop :=
  (result = none ∨ result = some c) ∧ (good → result = some c)

theorem restores_iff {C : Type} {result : Option C} {c : C} {good : Prop} :
    Restores result c good ↔ result = some c ∨ result = none ∧ ¬ good := by
  constructor
  · rintro ⟨hresult, hgood⟩
    cases hresult with
    | inl hnone => exact .inr ⟨hnone, fun h => absurd (hnone.symm.trans (hgood h)) (by simp)⟩
    | inr hsome => exact .inl hsome
  · intro h
    cases h with
    | inl hsome => exact ⟨.inr hsome, fun _ => hsome⟩
    | inr hnone => exact ⟨.inl hnone.1, fun h => absurd h hnone.2⟩

namespace PostgreSQLCStr

def Restored (sc : Scanner) (c : PostgreSQLCStr) : Prop :=
  Restores (fromString sc c.formatted) c (c.Clean sc)

end PostgreSQLCStr

namespace AMQPSQLCStr

def Restored (sc : Scanner) (c : AMQPSQLCStr) : Prop :=
  Restores (fromString sc c.formatted) c
    (CleanField sc c.user ∧ CleanField sc c.password ∧
      (HostAndPort sc c.hostPort ∨ CleanField sc c.hostPort))

end AMQPSQLCStr

/-- A connection string survives its text exactly if its fields are clean, for AMQP with a port,
or if too few words are there for the scan; a bare AMQP host is always too few. -/
theorem restored_iff (sc : Scanner) :
    (∀ c : PostgreSQLCStr, c.Restored sc ↔
      c.Clean sc ∨ ¬ PostgreSQLCStr.Scans sc (c.allWords sc)) ∧
    ∀ c : AMQPSQLCStr, c.Restored sc ↔
      (CleanField sc c.user ∧ CleanField sc c.password ∧ AMQPSQLCStr.HostAndPort sc c.hostPort) ∨
      (c.allWords sc).length < 4 ∧
        ¬ (CleanField sc c.user ∧ CleanField sc c.password ∧ CleanField sc c.hostPort) := by
  constructor
  · intro c
    rw [PostgreSQLCStr.Restored, restores_iff, PostgreSQLCStr.fromString_formatted_eq_some,
      PostgreSQLCStr.fromString_formatted, PostgreSQLCStr.ofWords_eq_none]
    exact or_congr_right' fun hdirty => and_iff_left hdirty
  · intro c
    rw [AMQPSQLCStr.Restored, restores_iff, AMQPSQLCStr.fromString_formatted_eq_some,
      AMQPSQLCStr.fromString_formatted, AMQPSQLCStr.ofWords_eq_none]
    apply or_congr_right'
    intro hdirty
    apply and_congr_right
    intro _
    apply not_congr
    constructor
    · rintro ⟨huser, hpassword, hhost | hhost⟩
      · exact absurd ⟨huser, hpassword, hhost⟩ hdirty
      · exact ⟨huser, hpassword, hhost⟩
    · rintro ⟨huser, hpassword, hhost⟩
      exact ⟨huser, hpassword, .inr hhost⟩

theorem not_restored :
    ¬ PostgreSQLCStr.Restored asciiScanner ⟨"user", "p:q", "10.0.0.1", "db", 5432⟩ ∧
    ¬ AMQPSQLCStr.Restored asciiScanner ⟨"localhost", "guest", "guest", false⟩ := by
  constructor
  · have hread : PostgreSQLCStr.fromString asciiScanner
        (PostgreSQLCStr.formatted ⟨"user", "p:q", "10.0.0.1", "db", 5432⟩) =
        some ⟨"user", "p", "q", ".0.0.1", 10⟩ := by decide
    unfold PostgreSQLCStr.Restored
    rw [hread, restores_iff]
    simp
  · have hread : AMQPSQLCStr.fromString asciiScanner
        (AMQPSQLCStr.formatted ⟨"localhost", "guest", "guest", false⟩) = none := by decide
    have hguest : CleanField asciiScanner "guest" := .of_alphanum (by decide) (by decide)
    have hhost : CleanField asciiScanner "localhost" := .of_alphanum (by decide) (by decide)
    unfold AMQPSQLCStr.Restored
    rw [hread, restores_iff]
    simp [hguest, hhost]

end Words

end DistributedMathArh
