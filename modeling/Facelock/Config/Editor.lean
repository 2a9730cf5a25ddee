import Facelock.Lib.TomlReader

/-!
# The line editor of the configuration file

Setup (`facelock-cli/src/commands/setup.rs`) changes single keys of the
configuration file without reading it as TOML, so that the comments stay.
`setConfigScalar` sets a string key of a section, and
`updateConfigEncryption` sets `encryption.method`.
Both walk over the lines of the file.  They take a line that is the
header of the section up to white space as its start, a line that looks
like an assignment of the key as the place to write to, and a line that
starts with a bracket as the end.  Without the header anywhere in the
text they append the section.

The two differ in the test for the line to replace.
`updateConfigEncryption` takes every line that starts with `method`.

`rewriteSection_eq` is the walk over a file with one such header, said
on its lines.  `editBody` is what happens to the lines of the section.
-/

namespace Facelock.Config

open List

open Text (Str OneLine lines unlines trimStart trimmed unlines_append unlines_cons)
open Toml (headerLine entryLine Bare isBare)

/-! ## The source -/

/-- True if `line` assigns `key` (`key = ...`), ignoring leading
whitespace. -/
def isKeyAssignment (line key : Str) : Bool :=
  key.isPrefixOf (trimStart line) &&
    (trimStart ((trimStart line).drop key.length)).head? == some '='

/-- The variables of the walk. -/
structure Scan where
  newContent : Str
  inSection : Bool
  written : Bool

/-- `new_content.push_str(line)` and a line feed. -/
def Scan.push (scan : Scan) (line : Str) : Scan :=
  { scan with newContent := scan.newContent ++ line ++ ['\n'] }

/-- Leave the section at a line that starts with a bracket. -/
def Scan.leave (scan : Scan) (entry line : Str) : Scan :=
  if scan.inSection && line.head? == some '[' then
    { scan with
      newContent := if scan.written then scan.newContent else scan.newContent ++ entry
      inSection := false }
  else scan

/-- One turn of the loop over the lines. -/
def scanLine (header : Str) (assigns : Str → Bool) (entry : Str) (scan : Scan) (line : Str) :
    Scan :=
  if trimmed line = header then { scan.push line with inSection := true }
  else if scan.inSection && assigns line then
    { scan with newContent := scan.newContent ++ entry, written := true }
  else (scan.leave entry line).push line

/-- The text with the entry in the section. -/
def rewriteSection (header : Str) (assigns : Str → Bool) (entry content : Str) : Str :=
  let scan := (lines content).foldl (scanLine header assigns entry) ⟨[], false, false⟩
  if scan.inSection && !scan.written then scan.newContent ++ entry else scan.newContent

def appendSection (content section' : Str) : Str :=
  (if content.getLast? = some '\n' then content else content ++ ['\n']) ++ section'

/-- Set `key = "value"` inside `[section]`, appending the section if
absent. -/
def setConfigScalar (table key value content : Str) : Str :=
  if headerLine table <:+: content then
    rewriteSection (headerLine table) (isKeyAssignment · key) (entryLine key value ++ ['\n'])
      content
  else
    appendSection content (unlines [[], headerLine table, entryLine key value])

/-- `line.trim_start().starts_with("method")`. -/
def startsWithMethod (line : Str) : Bool :=
  "method".toList.isPrefixOf (trimStart line)

/-- Update the config file on disk with the chosen encryption method.
`keyPath` is `config.encryption.key_path`. -/
def updateConfigEncryption (keyPath method content : Str) : Str :=
  if headerLine "encryption".toList <:+: content then
    rewriteSection (headerLine "encryption".toList) startsWithMethod
      (entryLine "method".toList method ++ ['\n']) content
  else
    appendSection content (unlines [[], headerLine "encryption".toList,
      entryLine "method".toList method, entryLine "key_path".toList keyPath])

/-! ## The walk on lines -/

/-- The lines of the section after the edit. -/
def editBody (assigns : Str → Bool) (entry : Str) (body : List Str) : List Str :=
  if body.any assigns then body.map fun l => if assigns l then entry else l else body ++ [entry]

section Walk

variable {header entry : Str} {assigns : Str → Bool}

theorem foldl_scanLine_outside {ls : List Str} (h : ∀ l ∈ ls, trimmed l ≠ header)
    (content : Str) (written : Bool) :
    ls.foldl (scanLine header assigns entry) ⟨content, false, written⟩ =
      ⟨content ++ unlines ls, false, written⟩ := by
  induction ls generalizing content with
  | nil => simp
  | cons l ls ih =>
    have hstep : scanLine header assigns entry ⟨content, false, written⟩ l =
        ⟨content ++ l ++ ['\n'], false, written⟩ := by
      rw [scanLine, if_neg (h l (by simp))]
      simp [Scan.leave, Scan.push]
    rw [foldl_cons, hstep, ih fun m hm => h m (by simp [hm])]
    simp

theorem foldl_scanLine_inside {ls : List Str} (h : ∀ l ∈ ls, trimmed l ≠ header)
    (hinside : ∀ l ∈ ls, l.head? ≠ some '[') (content : Str) (written : Bool) :
    ls.foldl (scanLine header assigns (entry ++ ['\n'])) ⟨content, true, written⟩ =
      ⟨content ++ unlines (ls.map fun l => if assigns l then entry else l), true,
        written || ls.any assigns⟩ := by
  induction ls generalizing content written with
  | nil => simp
  | cons l ls ih =>
    have hstep : scanLine header assigns (entry ++ ['\n']) ⟨content, true, written⟩ l =
        ⟨content ++ (if assigns l then entry else l) ++ ['\n'], true, written || assigns l⟩ := by
      rw [scanLine, if_neg (h l (by simp))]
      cases hl : assigns l with
      | true => simp
      | false => simp [Scan.leave, Scan.push, hinside l (by simp)]
    rw [foldl_cons, hstep, ih (fun m hm => h m (by simp [hm])) fun m hm => hinside m
      (by simp [hm])]
    simp [Bool.or_assoc]

theorem map_of_any_eq_false {body : List Str} (h : body.any assigns = false) :
    (body.map fun l => if assigns l then entry else l) = body := by
  rw [any_eq_false] at h
  refine (map_congr_left fun l hl => ?_).trans (map_id body)
  simp [h l hl]

/-- The walk over a text with one header of the section. -/
theorem rewriteSection_eq {content opening before body after}
    (hlines : lines content = before ++ opening :: body ++ after)
    (hopening : trimmed opening = header)
    (hothers : ∀ l ∈ before ++ body ++ after, trimmed l ≠ header)
    (hbody : ∀ l ∈ body, l.head? ≠ some '[') (hafter : ∀ l ∈ after.head?, l.head? = some '[')
    (hassigns : ∀ l, l.head? = some '[' → assigns l = false) :
    rewriteSection header assigns (entry ++ ['\n']) content =
      unlines (before ++ opening :: editBody assigns entry body ++ after) := by
  have hopen : scanLine header assigns (entry ++ ['\n']) ⟨unlines before, false, false⟩ opening =
      ⟨unlines before ++ opening ++ ['\n'], true, false⟩ := by
    rw [scanLine, if_pos hopening]
    rfl
  have hscan :
      (lines content).foldl (scanLine header assigns (entry ++ ['\n'])) ⟨[], false, false⟩ =
      after.foldl (scanLine header assigns (entry ++ ['\n']))
        ⟨unlines before ++ opening ++ ['\n'] ++
          unlines (body.map fun l => if assigns l then entry else l), true, body.any assigns⟩ := by
    have hbefore : ∀ l ∈ before, trimmed l ≠ header := fun l hl => hothers l (by simp [hl])
    rw [hlines, foldl_append, foldl_append, foldl_scanLine_outside hbefore, foldl_cons, nil_append,
      hopen, foldl_scanLine_inside (fun l hl => hothers l (by simp [hl])) hbody, Bool.false_or]
  rw [rewriteSection, hscan, editBody]
  -- The entry is added where the section ends, at a bracket or at the end of the text.
  cases after with
  | nil =>
    cases hany : body.any assigns with
    | true => simp
    | false => simp [map_of_any_eq_false hany]
  | cons l after =>
    have hl : l.head? = some '[' := hafter l rfl
    have hstep : ∀ content written, scanLine header assigns (entry ++ ['\n'])
        ⟨content, true, written⟩ l =
        ⟨content ++ (if written then [] else entry ++ ['\n']) ++ l ++ ['\n'], false, written⟩ := by
      intro content written
      rw [scanLine, if_neg (hothers l (by simp)), hassigns l hl]
      cases written <;> simp [Scan.leave, Scan.push, hl]
    rw [foldl_cons, hstep, foldl_scanLine_outside fun m hm => hothers m (by simp [hm])]
    cases hany : body.any assigns with
    | true => simp
    | false => simp [map_of_any_eq_false hany]

end Walk

/-! ## What the two tests accept -/

section

variable {line key : Str}

theorem isKeyAssignment_iff : isKeyAssignment line key = true ↔
      ∃ rest, trimStart line = key ++ rest ∧ (trimStart rest).head? = some '=' := by
  rw [isKeyAssignment, Bool.and_eq_true, isPrefixOf_iff_prefix, beq_iff_eq]
  constructor
  · rintro ⟨⟨rest, hrest⟩, heq⟩
    rw [← hrest, drop_left] at heq
    exact ⟨rest, hrest.symm, heq⟩
  · rintro ⟨rest, hrest, heq⟩
    rw [hrest, drop_left]
    exact ⟨prefix_append _ _, heq⟩

/-- The first character that is not white space, of a line that starts
with a bare key. -/
theorem head?_trimStart_of_prefix (hkey : Bare key)
    (h : key <+: trimStart line) : ∃ c, (trimStart line).head? = some c ∧ isBare c = true := by
  obtain ⟨rest, hrest⟩ := h
  obtain ⟨first, more, rfl, hfirst⟩ := hkey.exists_cons
  refine ⟨first, ?_, hfirst⟩
  rw [← hrest]
  rfl

theorem prefix_of_isKeyAssignment (h : isKeyAssignment line key = true) :
    key <+: trimStart line := by
  obtain ⟨rest, hrest, -⟩ := isKeyAssignment_iff.mp h
  exact ⟨rest, hrest.symm⟩

theorem not_prefix_of_bracket (hkey : Bare key) (h : line.head? = some '[') :
    ¬ key <+: trimStart line := by
  intro hprefix
  obtain ⟨c, hc, hbare⟩ := head?_trimStart_of_prefix hkey hprefix
  cases line with
  | nil => cases h
  | cons d line =>
    obtain rfl : d = '[' := by simpa using h
    rw [Text.trimStart_cons_of_false (by decide)] at hc
    obtain rfl : '[' = c := by simpa using hc
    exact absurd hbare (by decide)

/-- A test for the line to replace takes the assignments of the key, and
only lines that start with it. -/
structure Recognises (key : Str) (recognised : Str → Bool) : Prop where
  assigned : ∀ l, isKeyAssignment l key = true → recognised l = true
  starts : ∀ l, recognised l = true → key <+: trimStart l

theorem recognises_isKeyAssignment (key : Str) : Recognises key (isKeyAssignment · key) where
  assigned _ h := h
  starts _ := prefix_of_isKeyAssignment

theorem recognises_startsWithMethod : Recognises "method".toList startsWithMethod where
  assigned _ h := isPrefixOf_iff_prefix.mpr (prefix_of_isKeyAssignment h)
  starts _ h := isPrefixOf_iff_prefix.mp h

theorem Recognises.bracket {recognised} (h : Recognises key recognised) (hkey : Bare key)
    (hline : line.head? = some '[') : recognised line = false := by
  by_contra hne
  exact not_prefix_of_bracket hkey hline (h.starts line (by simpa using hne))

/-! ## Comments -/

/-- A line that holds nothing but a comment. -/
def isComment (line : Str) : Bool :=
  (trimStart line).head? == some '#'

def comments (text : Str) : List Str :=
  (lines text).filter isComment

theorem isComment_of_prefix (hkey : Bare key) (h : key <+: trimStart line) :
    isComment line = false := by
  obtain ⟨c, hc, hbare⟩ := head?_trimStart_of_prefix hkey h
  rw [isComment, hc]
  simp only [beq_eq_false_iff_ne, ne_eq, Option.some.injEq]
  rintro rfl
  exact absurd hbare (by decide)

end

theorem isComment_entryLine {key} (hkey : Bare key) (value : Str) :
    isComment (entryLine key value) = false := by
  refine isComment_of_prefix hkey ?_
  obtain ⟨first, more, rfl, hfirst⟩ := hkey.exists_cons
  simp [entryLine, Text.trimStart_cons_of_false (Toml.isWhitespace_of_isBare hfirst)]

theorem isComment_headerLine (table : Str) : isComment (headerLine table) = false := by
  rfl

section Keeps

variable {assigns : Str → Bool} {entry : Str}

theorem filter_isComment_editBody (hassigns : ∀ l, assigns l = true → isComment l = false)
    (hentry : isComment entry = false) (body : List Str) :
    (editBody assigns entry body).filter isComment = body.filter isComment := by
  have hmap : (body.map fun l => if assigns l then entry else l).filter isComment =
      body.filter isComment := by
    induction body with
    | nil => rfl
    | cons l body ih =>
      cases hl : assigns l with
      | true => simp [hl, hentry, hassigns l hl, ih]
      | false => simp [filter_cons, hl, ih]
  rw [editBody]
  split
  · exact hmap
  · simp [hentry]

theorem mem_editBody {l body} (h : l ∈ editBody assigns entry body) : l ∈ body ∨ l = entry := by
  rw [editBody] at h
  split at h
  · obtain ⟨m, hm, rfl⟩ := mem_map.mp h
    by_cases hassign : assigns m = true
    · simp [hassign]
    · simp [hassign, hm]
  · simpa using h

end Keeps

theorem comments_unlines {ls} (h : ∀ l ∈ ls, OneLine l) :
    comments (unlines ls) = ls.filter isComment := by
  rw [comments, Text.lines_unlines h]

theorem comments_appendSection {content ls} (hcontent : Text.NoBareReturn content)
    (h : ∀ l ∈ ls, OneLine l) :
    comments (appendSection content (unlines ls)) = comments content ++ ls.filter isComment := by
  have hlines : lines (unlines ls) = ls := Text.lines_unlines h
  rw [appendSection, comments, comments]
  by_cases hend : content.getLast? = some '\n'
  · rw [if_pos hend, Text.lines_append (Or.inr hend), hlines, filter_append]
  · rw [if_neg hend, Text.lines_append (Or.inr (by simp)), hlines, filter_append]
    by_cases hempty : content = []
    · subst hempty
      rfl
    · rw [Text.lines_append_lineFeed hempty hcontent hend]

end Facelock.Config
