import Mathlib.Data.List.Nodup
import Facelock.Lib.TextLines

/-!
# TOML documents

A TOML text is a list of statements: headers `[a.b]`, headers of array
elements `[[a.b]]`, and assignments `a.b = v`.  A parser makes one table of
them, unless two of them exclude each other.  `Builder` is what a program
may rely on there when it edits a text: a function from statements to a
table, and the facts of TOML about one assignment in an open section and
about a new section at the end.

`flatBuilder` takes sections with one name and keys with one name, each of
them once.  It shows that the facts are consistent.
-/

namespace Toml

open List

open Facelock.Text (Str)

/-- A value.  `scalar` holds numbers, booleans and times. -/
inductive Value (S : Type) where
  | string (text : Str)
  | scalar (value : S)
  | array (values : List (Value S))
  | table (entries : List (Str × Value S))

/-- One statement of a text.  Its path is relative to the last header. -/
inductive Statement (S : Type) where
  | table (path : List Str)
  | item (path : List Str)
  | assign (keys : List Str) (value : Value S)

/-- The names on the way to a value. -/
abbrev Path := List Str

variable {S : Type}

/-- What stands at a path. -/
def Value.get : Path → Value S → Option (Value S)
  | [], value => some value
  | name :: rest, .table entries => (entries.lookup name).bind (Value.get rest)
  | _ :: _, _ => none

theorem Value.get_table {document value : Value S} {name key : Str}
    (h : document.get [name, key] = some value) :
    ∃ entries, document.get [name] = some (.table entries) := by
  cases document with
  | table entries =>
    obtain ⟨inner, hinner, hkey⟩ := Option.bind_eq_some_iff.mp h
    cases inner with
    | table entries => exact ⟨entries, by rw [get, hinner]; rfl⟩
    | _ => cases hkey
  | _ => cases h

/-- Neither path leads on from the other. -/
def Apart (p q : Path) : Prop :=
  ¬ p <+: q ∧ ¬ q <+: p

/-- The path has the value, and nothing apart from it has changed. -/
structure Sets (path : Path) (value : Value S) (document document' : Value S) : Prop where
  value : document'.get path = some value
  others : ∀ other, Apart other path → document'.get other = document.get other

/-- Statements that only assign. -/
def assigns (entries : List (List Str × Value S)) : List (Statement S) :=
  entries.map fun entry => .assign entry.1 entry.2

/-- A document with a section that starts with these entries. -/
def withSection (front : List (Statement S)) (name : Str) (entries : List (List Str × Value S))
    (rest : List (Statement S)) : List (Statement S) :=
  front ++ .table [name] :: (assigns entries ++ rest)

/-- A header or a key in front of all headers defines the section itself.  The
header of a table below it does not. -/
def Defines (name : Str) (statements : List (Statement S)) : Prop :=
  .table [name] ∈ statements ∨ .item [name] ∈ statements ∨
    ∃ front rest keys value, statements = assigns front ++ .assign (name :: keys) value :: rest

/-- The second half of a TOML parser. -/
structure Builder (S : Type) where
  /-- The table of a document, or none if its statements exclude each other. -/
  build : List (Statement S) → Option (Value S)
  /-- A section takes a key that the document does not have. -/
  entry : ∀ {front rest name key entries document} (value : Value S),
    build (withSection front name entries rest) = some document →
    document.get [name, key] = none →
    ∃ document', build (withSection front name (entries ++ [([key], value)]) rest) =
      some document' ∧ Sets [name, key] value document document'
  /-- A section can do without one of its keys. -/
  without : ∀ {front rest name key entries value document'},
    build (withSection front name (entries ++ [([key], value)]) rest) = some document' →
    ∃ document, build (withSection front name entries rest) = some document ∧
      document.get [name, key] = none ∧ Sets [name, key] value document document'
  /-- A section that is not defined is opened at the end. -/
  append : ∀ {statements name document}, build statements = some document →
    ¬ Defines name statements →
    ∃ document', build (withSection statements name [] []) = some document' ∧
      ∀ path, ¬ path <+: [name] → document'.get path = document.get path

namespace Builder

variable (builder : Builder S) {front rest statements : List (Statement S)} {name key : Str}
  {entries : List (List Str × Value S)} {document : Value S}

theorem exchange {old} (value : Value S)
    (h : builder.build (withSection front name (entries ++ [([key], old)]) rest) = some document) :
    ∃ document', builder.build (withSection front name (entries ++ [([key], value)]) rest) =
      some document' ∧ Sets [name, key] value document document' := by
  obtain ⟨without, hwithout, hfree, hold⟩ := builder.without h
  obtain ⟨document', hnew, hsets⟩ := builder.entry value hwithout hfree
  refine ⟨document', hnew, hsets.value, fun other hother => ?_⟩
  rw [hsets.others other hother, hold.others other hother]

theorem appendEntry (value : Value S) (h : builder.build statements = some document)
    (hname : ¬ Defines name statements) (hfree : document.get [name, key] = none) :
    ∃ document', builder.build (withSection statements name [([key], value)] []) =
      some document' ∧ Sets [name, key] value document document' := by
  obtain ⟨opened, hopened, hsame⟩ := builder.append h hname
  have hlong : ¬ [name, key] <+: [name] := fun hprefix => by simpa using hprefix.length_le
  have hfree' : opened.get [name, key] = none := by rw [hsame _ hlong, hfree]
  obtain ⟨document', hnew, hsets⟩ := builder.entry value hopened hfree'
  refine ⟨document', hnew, hsets.value, fun other hother => ?_⟩
  rw [hsets.others other hother]
  exact hsame other fun hleads => hother.1 (hleads.trans ⟨[key], rfl⟩)

end Builder

/-! ## Flat documents -/

/-- A header or a key with one name. -/
def Statement.isFlat : Statement S → Bool
  | .table [_] | .assign [_] _ => true
  | _ => false

/-- The names of the sections. -/
def headers (statements : List (Statement S)) : List Str :=
  statements.filterMap fun | .table path => path.head? | _ => none

/-- An assignment with its section. -/
abbrev FlatEntry (S : Type) := Str × Str × Value S

/-- The assignments, from a section on. -/
def flatEntries : Str → List (Statement S) → List (FlatEntry S)
  | _, [] => []
  | _, .table path :: rest => flatEntries (path.headD []) rest
  | name, .item _ :: rest => flatEntries name rest
  | name, .assign keys value :: rest => (name, keys.headD [], value) :: flatEntries name rest

/-- The section that is open after some statements. -/
def opened (name : Str) : List (Statement S) → Str :=
  foldl (fun name => fun | .table path => path.headD [] | _ => name) name

/-- Every section and every key of a section is there once. -/
def FlatValid (statements : List (Statement S)) (entries : List (FlatEntry S)) : Prop :=
  ((∀ statement ∈ statements, statement.isFlat = true) ∧ (headers statements).Nodup) ∧
    (entries.map fun entry => (entry.1, entry.2.1)).Nodup ∧
      ∀ entry ∈ entries, entry.1 ∈ headers statements

instance (statements : List (Statement S)) (entries : List (FlatEntry S)) :
    Decidable (FlatValid statements entries) :=
  inferInstanceAs (Decidable (_ ∧ _))

def entriesOf (entries : List (FlatEntry S)) (name : Str) : List (Str × Value S) :=
  entries.filterMap fun entry => if entry.1 = name then some entry.2 else none

def flatTable (sections : List Str) (entries : List (FlatEntry S)) : Value S :=
  .table (sections.map fun name => (name, .table (entriesOf entries name)))

def flatBuild (statements : List (Statement S)) : Option (Value S) :=
  let entries := flatEntries [] statements
  if FlatValid statements entries then some (flatTable (headers statements) entries) else none

section Flat

variable {front rest statements : List (Statement S)} {name key : Str} {value : Value S}
  {sections : List Str} {before after entries : List (FlatEntry S)} {document : Value S}

theorem flatBuild_eq_some : flatBuild statements = some document ↔
    FlatValid statements (flatEntries [] statements) ∧
      flatTable (headers statements) (flatEntries [] statements) = document := by
  simp [flatBuild]

theorem get_flatTable (rest : Path) : (flatTable sections entries).get (name :: rest) =
    if name ∈ sections then (Value.table (entriesOf entries name)).get rest else none := by
  rw [flatTable, Value.get]
  split_ifs with hmem
  · rw [lookup_graph _ hmem, Option.bind_some]
  · rw [lookup_eq_none_iff.mpr, Option.bind_none]
    simp only [mem_map, forall_exists_index, and_imp]
    rintro _ other hother rfl
    simpa using fun heq : name = other => hmem (heq ▸ hother)

theorem lookup_entriesOf_eq_none : (entriesOf entries name).lookup key = none ↔
    (name, key) ∉ entries.map fun entry => (entry.1, entry.2.1) := by
  rw [lookup_eq_none_iff]
  simp only [entriesOf, mem_filterMap, mem_map, bne_iff_ne]
  constructor
  · rintro h ⟨entry, hentry, heq⟩
    obtain ⟨rfl, rfl⟩ := Prod.mk.inj heq
    exact h entry.2 ⟨entry, hentry, if_pos rfl⟩ rfl
  · rintro h found ⟨entry, hentry, heq⟩ rfl
    obtain ⟨hname, hfound⟩ := Option.ite_none_right_eq_some.mp heq
    exact h ⟨entry, hentry, by rw [hname, Option.some.inj hfound]⟩

theorem get_key (hname : name ∈ sections) :
    (flatTable sections entries).get [name, key] = (entriesOf entries name).lookup key := by
  rw [get_flatTable, if_pos hname, Value.get]
  cases (entriesOf entries name).lookup key <;> rfl

theorem sets_entry (hname : name ∈ sections)
    (hfree : (name, key) ∉ (before ++ after).map fun entry => (entry.1, entry.2.1)) :
    Sets [name, key] value (flatTable sections (before ++ after))
      (flatTable sections (before ++ (name, key, value) :: after)) := by
  have hentries : entriesOf (before ++ (name, key, value) :: after) name =
      entriesOf before name ++ (key, value) :: entriesOf after name := by simp [entriesOf]
  constructor
  · have hbefore : (entriesOf before name).lookup key = none :=
      lookup_entriesOf_eq_none.mpr fun hmem =>
        hfree (by rw [map_append]; exact mem_append_left _ hmem)
    rw [get_key hname, hentries, lookup_append, hbefore, Option.none_or, lookup_cons_self]
  · intro path hpath
    match path, hpath with
    | [], hpath => exact absurd nil_prefix hpath.1
    | [other], hpath =>
      have hother : other ≠ name := fun heq => hpath.1 (by simp [heq])
      simp [get_flatTable, entriesOf, hother.symm]
    | other :: last :: tail, hpath =>
      rw [get_flatTable, get_flatTable]
      by_cases hother : other = name
      · subst hother
        have hkey : (last == key) = false :=
          beq_eq_false_iff_ne.mpr fun heq => hpath.2 (by simp [heq])
        rw [hentries]
        simp [Value.get, entriesOf, lookup_append, lookup_cons, hkey]
      · simp [entriesOf, Ne.symm hother]

theorem flatEntries_append : flatEntries name (front ++ rest) =
    flatEntries name front ++ flatEntries (opened name front) rest := by
  induction front generalizing name with
  | nil => rfl
  | cons statement front ih => cases statement <;> simp [flatEntries, opened, ih]

theorem opened_assigns (entries : List (List Str × Value S)) :
    opened name (assigns entries) = name := by
  induction entries with
  | nil => rfl
  | cons entry entries ih => exact ih

theorem headers_withSection (entries : List (List Str × Value S)) :
    headers (withSection front name entries rest) = headers front ++ name :: headers rest := by
  have hassigns : headers (assigns entries) = [] := by
    simp [headers, assigns, filterMap_map]
  rw [withSection, headers, filterMap_append, filterMap_cons]
  simp only [head?_cons, filterMap_append]
  rw [← headers, ← headers, ← headers, hassigns, nil_append]

theorem flatEntries_withSection (front rest : List (Statement S)) (name : Str)
    (entries : List (List Str × Value S)) :
    flatEntries [] (withSection front name entries rest) =
      flatEntries [] (withSection front name entries []) ++ flatEntries name rest := by
  have hsplit : withSection front name entries rest =
      withSection front name entries [] ++ rest := by
    simp [withSection]
  have hopened : opened [] (withSection front name entries []) = name := by
    rw [withSection, append_nil, opened, foldl_append, foldl_cons]
    exact opened_assigns entries
  rw [hsplit, flatEntries_append, hopened]

theorem flatEntries_entry (front rest : List (Statement S)) (name key : Str)
    (entries : List (List Str × Value S)) (value : Value S) :
    flatEntries [] (withSection front name (entries ++ [([key], value)]) rest) =
      flatEntries [] (withSection front name entries []) ++
        (name, key, value) :: flatEntries name rest := by
  have hentry : withSection front name (entries ++ [([key], value)]) rest =
      withSection front name entries (.assign [key] value :: rest) := by
    simp [withSection, assigns]
  rw [hentry, flatEntries_withSection]
  rfl

theorem flatValid_entry {own : List (List Str × Value S)} :
    FlatValid (withSection front name (own ++ [([key], value)]) rest)
        (before ++ (name, key, value) :: after) ↔
      (name, key) ∉ ((before ++ after).map fun entry => (entry.1, entry.2.1)) ∧
        FlatValid (withSection front name own rest) (before ++ after) := by
  have hflat : (Statement.assign [key] value).isFlat = true := rfl
  have hstatements : (∀ statement ∈ withSection front name (own ++ [([key], value)]) rest,
      statement.isFlat = true) ↔ ∀ statement ∈ withSection front name own rest,
        statement.isFlat = true := by
    simp [withSection, assigns, or_imp, forall_and, hflat]
  have hname : name ∈ headers front ++ name :: headers rest := by simp
  simp only [FlatValid, headers_withSection, hstatements, map_append, map_cons, nodup_middle,
    nodup_cons, forall_mem_append, forall_mem_cons, hname, true_and]
  tauto

theorem sets_withSection {own : List (List Str × Value S)}
    (hfree : (name, key) ∉ (flatEntries [] (withSection front name own rest)).map
      fun entry => (entry.1, entry.2.1)) :
    Sets [name, key] value
      (flatTable (headers (withSection front name own rest))
        (flatEntries [] (withSection front name own rest)))
      (flatTable (headers (withSection front name (own ++ [([key], value)]) rest))
        (flatEntries [] (withSection front name (own ++ [([key], value)]) rest))) := by
  rw [flatEntries_withSection] at hfree
  rw [headers_withSection, headers_withSection, flatEntries_entry, flatEntries_withSection]
  exact sets_entry (by simp) hfree

theorem flatBuild_append (h : flatBuild statements = some document)
    (hnot : ¬ Defines name statements) :
    ∃ document', flatBuild (withSection statements name [] []) = some document' ∧
      ∀ path, ¬ path <+: [name] → document'.get path = document.get path := by
  obtain ⟨⟨⟨hflat, hnodup⟩, hplaces, hsections⟩, rfl⟩ := flatBuild_eq_some.mp h
  have hheaders : headers (withSection statements name [] []) = headers statements ++ [name] :=
    headers_withSection []
  have hentries : flatEntries [] (withSection statements name [] []) =
      flatEntries [] statements := by
    rw [withSection, flatEntries_append]
    exact append_nil _
  have hnew : name ∉ headers statements := by
    intro hmem
    obtain ⟨statement, hstatement, hhead⟩ := mem_filterMap.mp hmem
    match statement, hhead, hflat _ hstatement with
    | .table [_], rfl, _ => exact hnot (Or.inl hstatement)
  refine ⟨_, flatBuild_eq_some.mpr ⟨⟨⟨?_, ?_⟩, ?_, ?_⟩, rfl⟩, fun path hpath => ?_⟩
  · simpa [withSection, assigns, Statement.isFlat, or_imp, forall_and] using hflat
  · rw [hheaders, nodup_append_comm, singleton_append, nodup_cons]
    exact ⟨hnew, hnodup⟩
  · rwa [hentries]
  · rw [hentries, hheaders]
    exact fun entry hentry => mem_append_left _ (hsections entry hentry)
  · rw [hheaders, hentries]
    match path, hpath with
    | [], hpath => exact absurd nil_prefix hpath
    | other :: tail, hpath =>
      rw [get_flatTable, get_flatTable]
      by_cases hother : other = name
      · subst hother
        have hnone : entriesOf (flatEntries [] statements) other = [] :=
          filterMap_eq_nil_iff.mpr fun entry hentry => if_neg fun heq : entry.1 = other =>
            hnew (heq ▸ hsections entry hentry)
        rw [if_neg hnew, hnone]
        match tail, hpath with
        | [], hpath => exact absurd prefix_rfl hpath
        | _ :: _, _ => simp [Value.get]
      · simp [hother]

end Flat

/-- The parser of flat documents. -/
def flatBuilder : Builder S where
  build := flatBuild
  entry value h hfree := by
    obtain ⟨hvalid, rfl⟩ := flatBuild_eq_some.mp h
    rw [get_key (by simp [headers_withSection]), lookup_entriesOf_eq_none] at hfree
    refine ⟨_, flatBuild_eq_some.mpr ⟨?_, rfl⟩, sets_withSection hfree⟩
    rw [flatEntries_entry, flatValid_entry, ← flatEntries_withSection]
    exact ⟨hfree, hvalid⟩
  without h := by
    obtain ⟨hvalid, rfl⟩ := flatBuild_eq_some.mp h
    rw [flatEntries_entry, flatValid_entry, ← flatEntries_withSection] at hvalid
    refine ⟨_, flatBuild_eq_some.mpr ⟨hvalid.2, rfl⟩, ?_, sets_withSection hvalid.1⟩
    rw [get_key (by simp [headers_withSection]), lookup_entriesOf_eq_none]
    exact hvalid.1
  append := flatBuild_append

end Toml
