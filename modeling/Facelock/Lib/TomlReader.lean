import Facelock.Lib.Toml

/-!
# Readers of TOML texts

`Reader` is what a program may rely on when it edits a TOML text line by
line: a function from texts to statements, and the facts of the TOML
grammar that such an editor needs.  A text can be read piece by piece at
the ends of its lines, headers and string assignments are written as
usual, a complete line that looks like an assignment is one, and a
carriage return stands only in front of a line feed.

The facts are conditional where the grammar is.  A line of a multi-line
string may look like an assignment, but it cannot be read on its own.  A byte
order mark is skipped at the start of a text only.

`lineReader` reads the texts whose statements are headers with one bare
name and assignments of basic strings, one on each line and written as
usual, with comments.  It shows that the facts are consistent.
-/

namespace Toml

open List

open Facelock.Text (Str isWhitespace trimStart trimmed unlines unlines_cons lines lines_append
  lines_line OneLine NoBareReturn noBareReturn_of_lines lines_append_lineFeed)

/-! ## The grammar of lines -/

/-- The characters of a bare key. -/
def isBare (c : Char) : Bool :=
  let n := c.toNat
  (48 ≤ n && n ≤ 57) || (65 ≤ n && n ≤ 90) || (97 ≤ n && n ≤ 122) || n == 95 || n == 45

def Bare (name : Str) : Prop :=
  name ≠ [] ∧ ∀ c ∈ name, isBare c = true

-- The instance goes over the name.  Characters are finite, so the instance
-- that is found by search may go over all of them.
instance (name : Str) : Decidable (Bare name) :=
  @instDecidableAnd _ _ inferInstance (List.decidableBAll (fun c => isBare c = true) name)

/-- The control characters that no string holds. -/
def isControl (c : Char) : Bool :=
  c.toNat < 32 || c.toNat == 127

/-- The texts that can stand between double quotes as they are. -/
def Quotable (value : Str) : Prop :=
  ∀ c ∈ value, c ≠ '"' ∧ c ≠ '\\' ∧ isControl c = false

instance (value : Str) : Decidable (Quotable value) :=
  List.decidableBAll (fun c => c ≠ '"' ∧ c ≠ '\\' ∧ isControl c = false) value

/-- The line `[name]`. -/
def headerLine (name : Str) : Str :=
  '[' :: name ++ [']']

/-- The line `key = "value"`. -/
def entryLine (key value : Str) : Str :=
  key ++ [' ', '=', ' ', '"'] ++ value ++ ['"']

/-- A reader of TOML texts. -/
structure Reader (S : Type) where
  /-- The statements of a text, or none if it is not TOML. -/
  read : Str → Option (List (Statement S))
  /-- A text that reads and ends where a line ends can be read off the
  front of a longer one. -/
  append : ∀ {front statements} (rest : Str), read front = some statements →
    (front = [] ∨ front.getLast? = some '\n') → rest.head? ≠ some '\uFEFF' →
    read (front ++ rest) = (read rest).map (statements ++ ·)
  /-- The empty text states nothing. -/
  empty : read [] = some []
  /-- An empty line states nothing. -/
  blank : read ['\n'] = some []
  /-- The last line needs no line feed. -/
  final : ∀ {text statements}, read text = some statements →
    read (text ++ ['\n']) = some statements
  /-- A header with a bare name. -/
  header : ∀ {name}, Bare name → read (headerLine name ++ ['\n']) = some [.table [name]]
  /-- An assignment of a basic string. -/
  entry : ∀ {key value}, Bare key → Quotable value →
    read (entryLine key value ++ ['\n']) = some [.assign [key] (.string value)]
  /-- A complete line that starts with a bare key and an equals sign
  assigns the key. -/
  assign_of_key : ∀ {key rest line statements}, Bare key → OneLine line →
    trimStart line = key ++ rest →
    (trimStart rest).head? = some '=' → read (line ++ ['\n']) = some statements →
    ∃ value, statements = [.assign [key] value]
  /-- A carriage return is part of a line ending. -/
  noBareReturn : ∀ {text statements}, read text = some statements → NoBareReturn text

variable {ls : List Str} {rest : Str}

section Lines

variable {S : Type} (toml : Reader S)

theorem head?_unlines_append_ne (h : ∀ l ∈ ls, l.head? ≠ some '\uFEFF')
    (hrest : rest.head? ≠ some '\uFEFF') : (unlines ls ++ rest).head? ≠ some '\uFEFF' := by
  cases ls with
  | nil => simpa using hrest
  | cons l ls =>
    have hl := h l (by simp)
    cases l with
    | nil => simp
    | cons c l => simpa using hl

theorem Reader.read_line {l statements} (h : toml.read (l ++ ['\n']) = some statements)
    (hrest : rest.head? ≠ some '\uFEFF') :
    toml.read (l ++ '\n' :: rest) = (toml.read rest).map (statements ++ ·) := by
  have htext : l ++ '\n' :: rest = (l ++ ['\n']) ++ rest := by simp
  rw [htext, toml.append rest h (Or.inr (by simp)) hrest]

end Lines

/-! ## A reader of simple lines -/

/-- The name of a header with nothing but a comment behind it. -/
def readHeader (line : Str) : Option (List (Statement Unit)) :=
  let name := line.tail.takeWhile isBare
  if Bare name ∧ (line = headerLine name ∨ headerLine name ++ [' ', '#'] <+: line) then
    some [.table [name]]
  else none

/-- The assignment of a basic string to a bare key. -/
def readEntry (line : Str) : Option (List (Statement Unit)) :=
  let key := line.takeWhile isBare
  let value := (line.drop (key.length + 4)).dropLast
  if Bare key ∧ Quotable value ∧ line = entryLine key value then
    some [.assign [key] (.string value)]
  else none

def readLine (line : Str) : Option (List (Statement Unit)) :=
  if line.any isControl then none
  else
    match line.head? with
    | none | some '#' => some []
    | some '[' => readHeader line
    | some _ => readEntry line

def readLines : List Str → Option (List (Statement Unit))
  | [] => some []
  | line :: rest => (readLine line).bind fun statements => (readLines rest).map (statements ++ ·)

theorem readLines_append (front rest : List Str) :
    readLines (front ++ rest) =
      (readLines front).bind fun statements => (readLines rest).map (statements ++ ·) := by
  induction front with
  | nil =>
    cases h : readLines rest with
    | none => simp [readLines, h]
    | some statements => simp [readLines, h]
  | cons line front ih =>
    rw [cons_append, readLines, readLines, ih]
    cases readLine line with
    | none => rfl
    | some statements =>
      cases readLines front with
      | none => rfl
      | some others =>
        cases readLines rest with
        | none => rfl
        | some more => simp

@[simp] theorem readLines_singleton (line : Str) : readLines [line] = readLine line := by
  cases h : readLine line with
  | none => simp [readLines, h]
  | some statements => simp [readLines, h]

variable {statements : List (Statement Unit)} {line : Str}

theorem readLine_of_mem (h : readLines ls = some statements) (hline : line ∈ ls) :
    ∃ own, readLine line = some own := by
  obtain ⟨front, rest, rfl⟩ := append_of_mem hline
  rw [readLines_append, Option.bind_eq_some_iff] at h
  obtain ⟨_, -, h⟩ := h
  obtain ⟨_, h, -⟩ := Option.map_eq_some_iff.mp h
  obtain ⟨own, hown, -⟩ := Option.bind_eq_some_iff.mp h
  exact ⟨own, hown⟩

theorem isControl_of_readLine (h : readLine line = some statements) :
    ∀ c ∈ line, isControl c = false := by
  rw [readLine] at h
  split at h
  · cases h
  · next hall => simpa using hall

/-! ## Character classes -/

variable {c : Char}

theorem isControl_of_isBare (h : isBare c = true) : isControl c = false := by
  simp only [isBare, isControl, Bool.or_eq_true, Bool.and_eq_true, decide_eq_true_eq, beq_iff_eq,
    Bool.or_eq_false_iff, decide_eq_false_iff_not, beq_eq_false_iff_ne] at *
  omega

theorem isWhitespace_of_isBare (h : isBare c = true) : isWhitespace c = false := by
  simp only [isBare, isWhitespace, Bool.or_eq_true, Bool.and_eq_true, decide_eq_true_eq, beq_iff_eq,
    Bool.or_eq_false_iff, Bool.and_eq_false_iff, decide_eq_false_iff_not, beq_eq_false_iff_ne] at *
  omega

variable {name key value : Str}

theorem Bare.exists_cons (h : Bare key) :
    ∃ first more, key = first :: more ∧ isBare first = true := by
  cases key with
  | nil => exact absurd rfl h.1
  | cons first more => exact ⟨first, more, rfl, h.2 first (by simp)⟩

theorem takeWhile_isBare_append (h : Bare name) (hc : isBare c = false) (rest : Str) :
    (name ++ c :: rest).takeWhile isBare = name := by
  rw [takeWhile_append_of_pos h.2, takeWhile_cons_of_neg (by simp [hc]), append_nil]

/-! ## Headers and assignments -/

theorem isControl_headerLine (h : Bare name) : ∀ c ∈ headerLine name, isControl c = false := by
  intro c hc
  simp only [headerLine, cons_append, mem_cons, mem_append, not_mem_nil, or_false] at hc
  rcases hc with rfl | hc | rfl
  · decide
  · exact isControl_of_isBare (h.2 c hc)
  · decide

theorem isControl_entryLine (hkey : Bare key) (hvalue : Quotable value) :
    ∀ c ∈ entryLine key value, isControl c = false := by
  intro c hc
  simp only [entryLine, mem_append, mem_cons, not_mem_nil, or_false] at hc
  rcases hc with ((hc | rfl | rfl | rfl | rfl) | hc) | rfl
  · exact isControl_of_isBare (hkey.2 c hc)
  · decide
  · decide
  · decide
  · decide
  · exact (hvalue c hc).2.2
  · decide

theorem oneLine_of_printable (h : ∀ c ∈ line, isControl c = false) : OneLine line := by
  constructor
  · intro hmem
    exact absurd (h _ hmem) (by decide)
  · intro hlast
    exact absurd (h _ (mem_of_getLast? hlast)) (by decide)

theorem oneLine_headerLine (h : Bare name) : OneLine (headerLine name) :=
  oneLine_of_printable (isControl_headerLine h)

theorem oneLine_entryLine (hkey : Bare key) (hvalue : Quotable value) :
    OneLine (entryLine key value) :=
  oneLine_of_printable (isControl_entryLine hkey hvalue)

theorem readLine_headerLine (h : Bare name) :
    readLine (headerLine name) = some [.table [name]] := by
  have hname : (headerLine name).tail.takeWhile isBare = name :=
    takeWhile_isBare_append h (by decide) []
  rw [readLine, if_neg (by simpa using isControl_headerLine h)]
  show readHeader (headerLine name) = _
  rw [readHeader, hname, if_pos ⟨h, Or.inl rfl⟩]

theorem takeWhile_isBare_entryLine (h : Bare key) (value : Str) :
    (entryLine key value).takeWhile isBare = key := by
  rw [entryLine, append_assoc, append_assoc]
  exact takeWhile_isBare_append h (by decide) _

theorem readLine_bare_append (h : Bare key) {rest : Str}
    (hprint : ∀ c ∈ key ++ rest, isControl c = false) :
    readLine (key ++ rest) = readEntry (key ++ rest) := by
  rw [readLine, if_neg (by simpa only [any_eq_true, not_exists, not_and,
    Bool.not_eq_true] using hprint)]
  obtain ⟨first, more, rfl, hfirst⟩ := h.exists_cons
  simp only [cons_append, head?_cons]
  split
  · next heq => cases heq
  · next heq => exact absurd hfirst (by cases heq; decide)
  · next heq => exact absurd hfirst (by cases heq; decide)
  · rfl

theorem readLine_entryLine (hkey : Bare key) (hvalue : Quotable value) :
    readLine (entryLine key value) = some [.assign [key] (.string value)] := by
  have hline : entryLine key value = key ++ ([' ', '=', ' ', '"'] ++ value ++ ['"']) := by
    simp [entryLine]
  have htail : ((entryLine key value).drop (key.length + 4)).dropLast = value := by
    simp [entryLine]
  have hread := readLine_bare_append hkey (hline ▸ isControl_entryLine hkey hvalue)
  rw [← hline] at hread
  rw [hread, readEntry, takeWhile_isBare_entryLine hkey, htail, if_pos ⟨hkey, hvalue, rfl⟩]

/-- The reader takes no line with an indentation. -/
theorem trimStart_of_readLine (h : readLine line = some statements) : trimStart line = line := by
  cases line with
  | nil => rfl
  | cons c line =>
    refine Facelock.Text.trimStart_cons_of_false ?_ line
    rw [readLine] at h
    split at h
    · cases h
    · simp only [head?_cons] at h
      split at h
      · next heq => cases heq
      · next heq => cases heq; decide
      · next heq => cases heq; decide
      · rw [readEntry] at h
        split_ifs at h with hentry
        obtain ⟨first, more, hkey, hfirst⟩ := hentry.1.exists_cons
        obtain rfl : c = first := by
          have hline := hentry.2.2
          rw [hkey] at hline
          simpa [entryLine] using congrArg head? hline
        exact isWhitespace_of_isBare hfirst

theorem readLine_assign_of_key (hkey : Bare key) (hstart : trimStart line = key ++ rest)
    (heq : (trimStart rest).head? = some '=') (h : readLine line = some statements) :
    ∃ value, statements = [.assign [key] value] := by
  have hprint := isControl_of_readLine h
  rw [trimStart_of_readLine h] at hstart
  subst hstart
  rw [readLine_bare_append hkey hprint, readEntry] at h
  -- What follows the key is white space or the equals sign, so the key ends there.
  have hend : (key ++ rest).takeWhile isBare = key := by
    cases rest with
    | nil => simp [trimStart] at heq
    | cons c rest =>
      refine takeWhile_isBare_append hkey ?_ rest
      by_contra hbare
      rw [Bool.not_eq_false] at hbare
      rw [Facelock.Text.trimStart_cons_of_false (isWhitespace_of_isBare hbare)] at heq
      obtain rfl : c = '=' := by simpa using heq
      exact absurd hbare (by decide)
  rw [hend] at h
  split_ifs at h
  exact ⟨_, (Option.some.inj h).symm⟩

/-! ## The reader -/

theorem noBareReturn_of_readLines (h : readLines (lines text) = some statements) :
    NoBareReturn text := by
  refine noBareReturn_of_lines fun line hline hmem => ?_
  obtain ⟨own, hown⟩ := readLine_of_mem h hline
  exact absurd (isControl_of_readLine hown _ hmem) (by decide)

theorem readLines_lines_append {front} (rest : Str) (h : readLines (lines front) = some statements)
    (hend : front = [] ∨ front.getLast? = some '\n') :
    readLines (lines (front ++ rest)) = (readLines (lines rest)).map (statements ++ ·) := by
  rw [lines_append hend, readLines_append, h]
  rfl

theorem readLines_lines_final (h : readLines (lines text) = some statements) :
    readLines (lines (text ++ ['\n'])) = some statements := by
  by_cases hend : text = [] ∨ text.getLast? = some '\n'
  · rw [readLines_lines_append _ h hend]
    show some (statements ++ []) = _
    rw [append_nil]
  · rw [not_or] at hend
    rw [lines_append_lineFeed hend.1 (noBareReturn_of_readLines h) hend.2, h]

/-- The reader of texts with one simple statement on each line. -/
def lineReader : Reader Unit where
  read text := readLines (lines text)
  append rest h hend _ := readLines_lines_append rest h hend
  empty := rfl
  blank := rfl
  final := readLines_lines_final
  header h := by
    rw [lines_line (oneLine_headerLine h), readLines_singleton, readLine_headerLine h]
  entry hkey hvalue := by
    rw [lines_line (oneLine_entryLine hkey hvalue), readLines_singleton,
      readLine_entryLine hkey hvalue]
  assign_of_key hkey hline hstart heq h := by
    rw [lines_line hline, readLines_singleton] at h
    exact readLine_assign_of_key hkey hstart heq h
  noBareReturn := noBareReturn_of_readLines

end Toml
