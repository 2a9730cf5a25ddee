import Facelock.Config.Schema

/-!
# What an edit does to the configuration

The editor knows nothing of TOML, so its edits are right only for files
in which it finds the section and the key where TOML has them.  `Opened`
is a file with one line that is the header of the section up to white
space, and `Absent` is a file without the section: the header does not
even occur in a comment, and nothing in the file defines the section.
`Conventional` adds that the line to replace is the assignment of the
key, or that there is no such line and no such key.

For such a file both functions do what their comments say.  The file
still parses, the key has the new text, every path apart from it keeps
its content, and the lines that hold nothing but a comment stay.
`header_comment_hides_section` is a file of another kind.

The argument has two halves.  On the side of the text, the new file
reads as the old statements with one assignment exchanged or added.  On
the side of the document, that is a law of `Builder`.
-/

namespace Facelock.Config

open Text (Str OneLine lines unlines trimmed NoBareReturn unlines_append unlines_cons)
open Toml List

variable {S : Type}

/-! ## The section -/

/-- A section that is opened by one plain line.  The editor takes the lines
up to the next bracket as its body. -/
structure Opened (table text : Str) where
  before : List Str
  opening : Str
  body : List Str
  after : List Str
  lines_eq : lines text = before ++ opening :: body ++ after
  /-- The line that opens the section, and no other line, is its header. -/
  opening_eq : trimmed opening = headerLine table
  others : ∀ l ∈ before ++ body ++ after, trimmed l ≠ headerLine table
  /-- The section ends at the first line that starts with a bracket. -/
  inside : ∀ l ∈ body, l.head? ≠ some '['
  outside : ∀ l ∈ after.head?, l.head? = some '['

namespace Opened

variable {table text : Str} (o : Opened table text)

theorem oneLine (hbare : NoBareReturn text) {l}
    (h : l ∈ o.before ++ o.opening :: o.body ++ o.after) : OneLine l :=
  Text.oneLine_of_mem_lines hbare (o.lines_eq ▸ h)

include o in
theorem header_infix : headerLine table <:+: text := by
  have hmem : o.opening ∈ lines text := by
    rw [o.lines_eq]
    simp
  rw [← o.opening_eq]
  exact (Text.trimmed_infix o.opening).trans (Text.infix_of_mem_lines hmem)

/-- The file with an entry in the section. -/
def edited (recognised : Str → Bool) (key value : Str) : Str :=
  unlines (o.before ++ o.opening :: editBody recognised (entryLine key value) o.body ++ o.after)

variable {key value : Str} {recognised : Str → Bool}

theorem rewriteSection_eq (hkey : Bare key) (h : Recognises key recognised) :
    rewriteSection (headerLine table) recognised (entryLine key value ++ ['\n']) text =
      o.edited recognised key value :=
  Config.rewriteSection_eq o.lines_eq o.opening_eq o.others o.inside o.outside
    fun _ => h.bracket hkey

theorem comments_edited (hkey : Bare key) (hbare : NoBareReturn text) (hvalue : Quotable value)
    (h : Recognises key recognised) : comments (o.edited recognised key value) = comments text := by
  have hassigns : ∀ l, recognised l = true → isComment l = false := fun l hl =>
    isComment_of_prefix hkey (h.starts l hl)
  rw [edited, comments_unlines, comments, o.lines_eq]
  · simp only [filter_append, filter_cons]
    rw [filter_isComment_editBody hassigns (isComment_entryLine hkey value)]
  · intro l hl
    simp only [mem_append, mem_cons] at hl
    rcases hl with (hl | rfl | hl) | hl
    · exact o.oneLine hbare (by simp [hl])
    · exact o.oneLine hbare (by simp)
    · rcases mem_editBody hl with hl | rfl
      · exact o.oneLine hbare (by simp [hl])
      · exact oneLine_entryLine hkey hvalue
    · exact o.oneLine hbare (by simp [hl])

/-- TOML agrees that the section goes on after the lines `left`, and it can
be read from the lines `right` on. -/
structure Reads (toml : Reader S) (left right : List Str) : Prop where
  reads_left : ∃ front entries,
    toml.read (unlines (o.before ++ o.opening :: left)) = some (withSection front table entries [])
  reads_right : ∃ rest, toml.read (unlines (right ++ o.after)) = some rest
  /-- No line starts with a byte order mark. -/
  unmarked : ∀ l ∈ right, l.head? ≠ some '\uFEFF'
  /-- The text means the same with every line ended by a line feed. -/
  reads_lines : toml.read (unlines (lines text)) = toml.read text

end Opened

theorem head?_line_ne {l} (h : l.head? ≠ some '\uFEFF') (text : Str) :
    (l ++ '\n' :: text).head? ≠ some '\uFEFF' := by
  cases l with
  | nil => simp
  | cons c l => simpa using h

theorem head?_entryLine_ne {key} (hkey : Bare key) (value : Str) :
    (entryLine key value).head? ≠ some '\uFEFF' := by
  obtain ⟨first, more, rfl, hfirst⟩ := hkey.exists_cons
  intro h
  obtain rfl : first = '\uFEFF' := by simpa [entryLine] using h
  exact absurd hfirst (by decide)

theorem head?_ne_of_isKeyAssignment {key l} (hkey : Bare key) (h : isKeyAssignment l key = true) :
    l.head? ≠ some '\uFEFF' := by
  intro hhead
  obtain ⟨c, hc, hbare⟩ := head?_trimStart_of_prefix hkey (prefix_of_isKeyAssignment h)
  cases l with
  | nil => cases hhead
  | cons d l =>
    obtain rfl : d = '\uFEFF' := by simpa using hhead
    rw [Text.trimStart_cons_of_false (by decide)] at hc
    obtain rfl : '\uFEFF' = c := by simpa using hc
    exact absurd hbare (by decide)

namespace Opened

variable {toml : Reader S} {table text : Str} (o : Opened table text)
  {front rest : List (Statement S)} {entries : List (List Str × Value S)} {left right : List Str}

theorem head?_after_ne (hmark : ∀ l ∈ right, l.head? ≠ some '\uFEFF') :
    (unlines (right ++ o.after)).head? ≠ some '\uFEFF' := by
  rw [unlines_append]
  refine head?_unlines_append_ne hmark ?_
  have houtside := o.outside
  cases hafter : o.after with
  | nil => simp
  | cons l after =>
    have hl : l.head? = some '[' := houtside l (by rw [hafter]; rfl)
    cases l with
    | nil => cases hl
    | cons c l =>
      obtain rfl : c = '[' := by simpa using hl
      simp

section

variable (hleft : toml.read (unlines (o.before ++ o.opening :: left)) =
    some (withSection front table entries []))
  (hright : toml.read (unlines (right ++ o.after)) = some rest)
  (hmark : ∀ l ∈ right, l.head? ≠ some '\uFEFF')

include hleft hright hmark

theorem read_between :
    toml.read (unlines (o.before ++ o.opening :: (left ++ right) ++ o.after)) =
      some (withSection front table entries rest) := by
  have htext : unlines (o.before ++ o.opening :: (left ++ right) ++ o.after) =
      unlines (o.before ++ o.opening :: left) ++ unlines (right ++ o.after) := by
    simp
  rw [htext, toml.append _ hleft (Text.unlines_eq_nil_or_getLast? _) (o.head?_after_ne hmark),
    hright]
  simp [withSection]

theorem read_line {l key value} (hl : toml.read (l ++ ['\n']) = some [.assign [key] value])
    (hlmark : l.head? ≠ some '\uFEFF') :
    toml.read (unlines (o.before ++ o.opening :: (left ++ l :: right) ++ o.after)) =
      some (withSection front table (entries ++ [([key], value)]) rest) := by
  have htext : unlines (o.before ++ o.opening :: (left ++ l :: right) ++ o.after) =
      unlines (o.before ++ o.opening :: left) ++ (l ++ '\n' :: unlines (right ++ o.after)) := by
    simp
  rw [htext, toml.append _ hleft (Text.unlines_eq_nil_or_getLast? _) (head?_line_ne hlmark _),
    toml.read_line hl (o.head?_after_ne hmark), hright]
  simp [withSection, assigns]

end

end Opened

/-! ## A new section -/

section NewSection

variable {toml : Reader S} {text : Str}

/-- The lines that a new section adds. -/
def newSection (table : Str) (entries : List (Str × Str)) : List Str :=
  [] :: headerLine table :: entries.map fun entry => entryLine entry.1 entry.2

variable {entries : List (Str × Str)} (h : ∀ entry ∈ entries, Bare entry.1 ∧ Quotable entry.2)

include h

theorem head?_entryLines_ne :
    (unlines (entries.map fun entry => entryLine entry.1 entry.2)).head? ≠ some '\uFEFF' := by
  cases entries with
  | nil => simp
  | cons entry entries =>
    rw [map_cons, unlines_cons]
    exact head?_line_ne (head?_entryLine_ne (h entry (by simp)).1 entry.2) _

theorem read_entryLines :
    toml.read (unlines (entries.map fun entry => entryLine entry.1 entry.2)) =
      some (assigns (entries.map fun entry => ([entry.1], .string entry.2))) := by
  induction entries with
  | nil => exact toml.empty
  | cons entry entries ih =>
    have hentries : ∀ e ∈ entries, Bare e.1 ∧ Quotable e.2 := fun e he => h e (by simp [he])
    obtain ⟨hkey, hvalue⟩ := h entry (by simp)
    rw [map_cons, unlines_cons,
      toml.read_line (toml.entry hkey hvalue) (head?_entryLines_ne hentries), ih hentries]
    rfl

theorem read_newSection {statements table} (hread : toml.read text = some statements)
    (htable : Bare table) :
    toml.read (appendSection text (unlines (newSection table entries))) =
      some (withSection statements table
        (entries.map fun entry => ([entry.1], .string entry.2)) []) := by
  have hheader := toml.read_line (toml.header htable) (head?_entryLines_ne h)
  rw [read_entryLines h] at hheader
  have hmark : (headerLine table ++ '\n' :: unlines (entries.map fun entry =>
      entryLine entry.1 entry.2)).head? ≠ some '\uFEFF' := by
    simp [headerLine]
  have hsection : toml.read (unlines (newSection table entries)) = some (.table [table] ::
      assigns (entries.map fun entry => ([entry.1], .string entry.2))) := by
    rw [newSection, unlines_cons, unlines_cons, toml.read_line (l := []) toml.blank hmark, hheader]
    rfl
  have hnew : (unlines (newSection table entries)).head? ≠ some '\uFEFF' := by simp [newSection]
  rw [appendSection]
  split_ifs with hend
  · rw [toml.append _ hread (Or.inr hend) hnew, hsection]
    simp [withSection]
  · rw [toml.append _ (toml.final hread) (Or.inr (by simp)) hnew, hsection]
    simp [withSection]

theorem comments_newSection {table} (htable : Bare table) (hbare : NoBareReturn text) :
    comments (appendSection text (unlines (newSection table entries))) = comments text := by
  have hline : ∀ l ∈ newSection table entries, OneLine l ∧ isComment l = false := by
    intro l hl
    simp only [newSection, mem_cons, mem_map] at hl
    rcases hl with rfl | rfl | ⟨entry, hentry, rfl⟩
    · exact ⟨⟨by simp, by simp⟩, rfl⟩
    · exact ⟨oneLine_headerLine htable, isComment_headerLine table⟩
    · obtain ⟨hkey, hvalue⟩ := h entry hentry
      exact ⟨oneLine_entryLine hkey hvalue, isComment_entryLine hkey _⟩
  rw [comments_appendSection hbare fun l hl => (hline l hl).1]
  have hnone : (newSection table entries).filter isComment = [] := by
    rw [filter_eq_nil_iff]
    intro l hl
    simp [(hline l hl).2]
  rw [hnone, append_nil]

end NewSection

/-! ## Files that the editor understands -/

/-- The file neither mentions the header of the section nor defines it, and
it does not have the keys.  Headers of tables below the section are no
obstacle. -/
structure Absent (toml : Reader S) (table : Str) (added : List Key) (text : Str)
    (document : Value S) : Prop where
  unmentioned : ¬ headerLine table <:+: text
  undefined : ∀ statements, toml.read text = some statements → ¬ Defines table statements
  missing : ∀ key ∈ added, document.get key.path = none

/-- A file that is written in the usual way around a key.  `recognised` is
the editor's test for the line to replace, and `added` are the keys that
it writes into a new section. -/
inductive Conventional (toml : Reader S) (key : Key) (recognised : Str → Bool) (added : List Key)
    (text : Str) (document : Value S) : Prop where
  | absent (h : Absent toml key.table.toList added text document)
  | replaced (o : Opened key.table.toList text) (left : List Str) (line : Str) (right : List Str)
      (body_eq : o.body = left ++ line :: right)
      (assigned : isKeyAssignment line key.name.toList = true)
      (complete : (toml.read (line ++ ['\n'])).isSome = true)
      (single : ∀ l ∈ left ++ right, recognised l = false)
      (reads : o.Reads toml left right)
  | added (o : Opened key.table.toList text) (unrecognised : ∀ l ∈ o.body, recognised l = false)
      (reads : o.Reads toml o.body []) (missing : document.get key.path = none)

section Edit

variable {toml : Reader S} {builder : Builder S} {other : Path → Value S → Bool}
  {text value : Str} {key : Key} {document : Value S}

/-- The new text parses, the key has the value, and nothing apart from it
has changed. -/
abbrev Updates (toml : Reader S) (builder : Builder S) (other : Path → Value S → Bool) (key : Key)
    (value : Str) (document : Value S) (text' : Str) : Prop :=
  ∃ document', parse toml builder other text' = some document' ∧
    Sets key.path (.string value) document document'

theorem parse_of_sets {statements text' document'} (hread : toml.read text' = some statements)
    (hbuild : builder.build statements = some document')
    (hsets : Sets key.path (.string value) document document') (hkey : key ∈ keys)
    (haccepts : key.accepts value = true) (hwell : WellTyped other document) :
    parse toml builder other text' = some document' :=
  parse_eq_some.mpr ⟨statements, hread, hbuild, hwell.update hkey haccepts hsets⟩

theorem editBody_of_single {assigns entry line left right} (hline : assigns line = true)
    (h : ∀ l ∈ left ++ right, assigns l = false) :
    editBody assigns entry (left ++ line :: right) = left ++ entry :: right := by
  obtain ⟨hleft, hright⟩ := forall_mem_append.mp h
  rw [editBody, if_pos (by simp [hline]), map_append, map_cons,
    map_of_any_eq_false (by simpa using hleft), map_of_any_eq_false (by simpa using hright),
    if_pos hline]

section Opened

variable (o : Opened key.table.toList text) {recognised : Str → Bool}

theorem Opened.updates_replaced (hrecognises : Recognises key.name.toList recognised)
    (hkey : key ∈ keys) (hvalue : Quotable value) (haccepts : key.accepts value = true)
    (hparse : parse toml builder other text = some document) {left line right}
    (hbody : o.body = left ++ line :: right) (hline : isKeyAssignment line key.name.toList = true)
    (hcomplete : (toml.read (line ++ ['\n'])).isSome = true)
    (hsingle : ∀ l ∈ left ++ right, recognised l = false) (hreads : o.Reads toml left right) :
    Updates toml builder other key value document (o.edited recognised key.name.toList value) := by
  obtain ⟨statements, hread, hbuild, hwell⟩ := parse_eq_some.mp hparse
  obtain ⟨⟨front, entries, hleft⟩, ⟨rest, hright⟩, hmark, hlines⟩ := hreads
  have hname : Bare key.name.toList := (bare_of_mem_keys hkey).2
  obtain ⟨old, hold⟩ : ∃ old, toml.read (line ++ ['\n']) =
      some [.assign [key.name.toList] old] := by
    obtain ⟨own, hown⟩ := Option.isSome_iff_exists.mp hcomplete
    obtain ⟨tail, hstart, heq⟩ := isKeyAssignment_iff.mp hline
    have honeLine : OneLine line := o.oneLine (toml.noBareReturn hread) (by simp [hbody])
    obtain ⟨old, rfl⟩ := toml.assign_of_key hname honeLine hstart heq hown
    exact ⟨old, hown⟩
  have hstatements := o.read_line hleft hright hmark hold (head?_ne_of_isKeyAssignment hname hline)
  rw [← hbody, ← o.lines_eq, hlines, hread] at hstatements
  rw [Option.some.inj hstatements] at hbuild
  obtain ⟨document', hnew, hsets⟩ := builder.exchange (.string value) hbuild
  rw [edited, hbody, editBody_of_single (hrecognises.assigned line hline) hsingle]
  have hedited := o.read_line hleft hright hmark (toml.entry hname hvalue)
    (head?_entryLine_ne hname value)
  exact ⟨document', parse_of_sets hedited hnew hsets hkey haccepts hwell, hsets⟩

theorem Opened.updates_added (hkey : key ∈ keys) (hvalue : Quotable value)
    (haccepts : key.accepts value = true)
    (hparse : parse toml builder other text = some document)
    (hnone : ∀ l ∈ o.body, recognised l = false) (hreads : o.Reads toml o.body [])
    (hmissing : document.get key.path = none) :
    Updates toml builder other key value document (o.edited recognised key.name.toList value) := by
  obtain ⟨statements, hread, hbuild, hwell⟩ := parse_eq_some.mp hparse
  obtain ⟨⟨front, entries, hleft⟩, ⟨rest, hright⟩, hmark, hlines⟩ := hreads
  have hname : Bare key.name.toList := (bare_of_mem_keys hkey).2
  have hstatements := o.read_between hleft hright hmark
  rw [append_nil, ← o.lines_eq, hlines, hread] at hstatements
  rw [Option.some.inj hstatements] at hbuild
  obtain ⟨document', hnew, hsets⟩ := builder.entry (.string value) hbuild hmissing
  rw [edited, editBody, if_neg (by simpa using hnone)]
  have hedited := o.read_line hleft hright hmark (toml.entry hname hvalue)
    (head?_entryLine_ne hname value)
  exact ⟨document', parse_of_sets hedited hnew hsets hkey haccepts hwell, hsets⟩

end Opened

theorem Conventional.absent_or_updates {recognised added}
    (hfile : Conventional toml key recognised added text document)
    (hrecognises : Recognises key.name.toList recognised) (hkey : key ∈ keys)
    (hvalue : Quotable value) (haccepts : key.accepts value = true)
    (hparse : parse toml builder other text = some document) :
    Absent toml key.table.toList added text document ∨
      ∃ o : Opened key.table.toList text, Updates toml builder other key value document
        (o.edited recognised key.name.toList value) := by
  cases hfile with
  | absent h => exact Or.inl h
  | replaced o left line right hbody hline hcomplete hsingle hreads =>
    exact Or.inr ⟨o, o.updates_replaced hrecognises hkey hvalue haccepts hparse hbody hline
      hcomplete hsingle hreads⟩
  | added o hnone hreads hmissing =>
    exact Or.inr ⟨o, o.updates_added hkey hvalue haccepts hparse hnone hreads hmissing⟩

theorem setConfigScalar_updates (hparse : parse toml builder other text = some document)
    (hkey : key ∈ keys) (hvalue : Quotable value) (haccepts : key.accepts value = true)
    (hfile : Conventional toml key (isKeyAssignment · key.name.toList) [key] text document) :
    Updates toml builder other key value document
      (setConfigScalar key.table.toList key.name.toList value text) ∧
    comments (setConfigScalar key.table.toList key.name.toList value text) = comments text := by
  obtain ⟨statements, hread, hbuild, hwell⟩ := parse_eq_some.mp hparse
  obtain ⟨htable, hname⟩ := bare_of_mem_keys hkey
  have hbare := toml.noBareReturn hread
  have hrecognises := recognises_isKeyAssignment key.name.toList
  rw [setConfigScalar]
  rcases hfile.absent_or_updates hrecognises hkey hvalue haccepts hparse with h | ⟨o, hupdates⟩
  · have hentries : ∀ entry ∈ [(key.name.toList, value)], Bare entry.1 ∧ Quotable entry.2 := by
      simpa using ⟨hname, hvalue⟩
    have hnew : [[], headerLine key.table.toList, entryLine key.name.toList value] =
        newSection key.table.toList [(key.name.toList, value)] := rfl
    rw [if_neg h.unmentioned, hnew]
    refine ⟨?_, comments_newSection hentries htable hbare⟩
    obtain ⟨document', hdocument, hsets⟩ := builder.appendEntry (.string value) hbuild
      (h.undefined statements hread) (h.missing key (by simp))
    have hadded := read_newSection hentries hread htable
    exact ⟨document', parse_of_sets hadded hdocument hsets hkey haccepts hwell, hsets⟩
  · rw [if_pos o.header_infix, o.rewriteSection_eq hname hrecognises]
    exact ⟨hupdates, o.comments_edited hname hbare hvalue hrecognises⟩

theorem methodKey_mem : methodKey ∈ keys :=
  mem_keys.mpr ⟨("encryption", [methodField, keyPathField, textField "sealed_key_path"]),
    by simp [sections], rfl, by simp [methodKey]⟩

theorem keyPathKey_mem : keyPathKey ∈ keys :=
  mem_keys.mpr ⟨("encryption", [methodField, keyPathField, textField "sealed_key_path"]),
    by simp [sections], rfl, by simp [keyPathKey]⟩

theorem keyPath_ne_method : keyPathKey.path ≠ methodKey.path := by
  decide

theorem quotable_defaultEncryptionKeyPath : Quotable defaultEncryptionKeyPath := by
  decide +kernel

theorem updateConfigEncryption_eq (keyPath method : Str) :
    updateConfigEncryption keyPath method text =
      if headerLine methodKey.table.toList <:+: text then
        rewriteSection (headerLine methodKey.table.toList) startsWithMethod
          (entryLine methodKey.name.toList method ++ ['\n']) text
      else
        appendSection text (unlines (newSection methodKey.table.toList
          [(methodKey.name.toList, method), (keyPathKey.name.toList, keyPath)])) :=
  rfl

/-- Setting the encryption method of a file that is written in the usual
way.  A new section gets the key path that is in force. -/
theorem updateConfigEncryption_updates {method : Str}
    (hparse : parse toml builder other text = some document) (hmethod : Quotable method)
    (haccepts : methodKey.accepts method = true)
    (hfile : Conventional toml methodKey startsWithMethod [methodKey, keyPathKey] text document)
    {keyPath}
    (hkeyPath : keyPath = effective defaultEncryptionKeyPath (document.get keyPathKey.path)) :
    (∃ document', parse toml builder other (updateConfigEncryption keyPath method text) =
        some document' ∧
      document'.get methodKey.path = some (.string method) ∧
      effective defaultEncryptionKeyPath (document'.get keyPathKey.path) = keyPath ∧
      ∀ path, Apart path methodKey.path → Apart path keyPathKey.path →
        document'.get path = document.get path) ∧
    comments (updateConfigEncryption keyPath method text) = comments text := by
  obtain ⟨statements, hread, hbuild, hwell⟩ := parse_eq_some.mp hparse
  obtain ⟨htable, hname⟩ := bare_of_mem_keys methodKey_mem
  have hapart : Apart keyPathKey.path methodKey.path := apart_of_length_eq rfl keyPath_ne_method
  have hbare := toml.noBareReturn hread
  rw [updateConfigEncryption_eq]
  rcases hfile.absent_or_updates recognises_startsWithMethod methodKey_mem hmethod haccepts hparse
    with h | ⟨o, document', hparse', hsets⟩
  · have hmissing := h.missing keyPathKey (by simp)
    obtain rfl : keyPath = defaultEncryptionKeyPath := by
      rw [hkeyPath, hmissing]
      rfl
    have hentries : ∀ entry ∈ [(methodKey.name.toList, method),
        (keyPathKey.name.toList, defaultEncryptionKeyPath)], Bare entry.1 ∧ Quotable entry.2 := by
      simpa using ⟨⟨hname, hmethod⟩, (bare_of_mem_keys keyPathKey_mem).2,
        quotable_defaultEncryptionKeyPath⟩
    rw [if_neg h.unmentioned]
    refine ⟨?_, comments_newSection hentries htable hbare⟩
    -- The method is written first, and the key path is then a free key of the section.
    obtain ⟨first, hfirst, hmethodSet⟩ := builder.appendEntry (.string method) hbuild
      (h.undefined statements hread) (h.missing methodKey (by simp))
    have hfree : first.get keyPathKey.path = none :=
      (hmethodSet.others keyPathKey.path hapart).trans hmissing
    obtain ⟨document', hdocument, hsets⟩ :=
      builder.entry (.string defaultEncryptionKeyPath) hfirst hfree
    have hkeyPathSet : Sets keyPathKey.path (.string defaultEncryptionKeyPath) first document' :=
      hsets
    refine ⟨document', parse_of_sets (read_newSection hentries hread htable) hdocument hkeyPathSet
      keyPathKey_mem rfl (hwell.update methodKey_mem haccepts hmethodSet), ?_, ?_, ?_⟩
    · rw [hkeyPathSet.others _ ⟨hapart.2, hapart.1⟩]
      exact hmethodSet.value
    · rw [hkeyPathSet.value]
      rfl
    · intro path hpath hpath'
      rw [hkeyPathSet.others path hpath']
      exact hmethodSet.others path hpath
  · rw [if_pos o.header_infix, o.rewriteSection_eq hname recognises_startsWithMethod]
    refine ⟨⟨document', hparse', hsets.value, ?_, fun path hpath _ => hsets.others path hpath⟩,
      o.comments_edited hname hbare hmethod recognises_startsWithMethod⟩
    rw [hsets.others _ hapart, ← hkeyPath]

end Edit

/-! ## The configuration file -/

/-- A file with nothing but the section and the method. -/
def methodDocument (method : Str) : Value Unit :=
  .table [("encryption".toList, .table [("method".toList, .string method)])]

theorem parse_methodDocument {text} (hread : lineReader.read text =
      some [.table ["encryption".toList], .assign ["method".toList] (.string "keyfile".toList)]) :
    parse lineReader flatBuilder (fun _ _ => false) text =
      some (methodDocument "keyfile".toList) := by
  have hbuild : (flatBuilder (S := Unit)).build [.table ["encryption".toList],
      .assign ["method".toList] (.string "keyfile".toList)] =
        some (methodDocument "keyfile".toList) := by
    rfl
  exact parse_eq_some.mpr ⟨_, hread, hbuild, by decide +kernel⟩

/-- A file with a comment, the section and the method. -/
def hostFile : Str :=
  "# host\n[encryption]\nmethod = \"keyfile\"\n".toList

def hostSection : Opened methodKey.table.toList hostFile where
  before := ["# host".toList]
  opening := "[encryption]".toList
  body := ["method = \"keyfile\"".toList]
  after := []
  lines_eq := by decide +kernel
  opening_eq := by decide +kernel
  others := by decide +kernel
  inside := by decide +kernel
  outside := by simp

end Facelock.Config
