import Facelock.Auth.Loop

/-!
# The quirks database

Entries of the hardware quirks files, and how an entry is found for a
capture node (`crates/facelock-camera/src/quirks.rs`).  There are three
passes over the entries: by USB vendor and product, by the identity that
the kernel reports for a node without a USB parent, and by the name of the
device.  In each pass the entry loaded last wins.

`findMatchWithKind_eq_some` says for each kind of match what the entry and
the node have in common.  It also says which kinds of identity the node
must have for the kind of match, so that a node without USB ids never
matches by them.  A name pattern is searched from the left, part by part.
`Joined` says what it means, and the search finds a match if there is one.

Texts are lists of characters where they are taken apart.  A position in
a name counts characters.  In the source it counts bytes, and every
position that the matcher reaches is at a character.  The lower-casing of
the standard library is a parameter.
-/

namespace Facelock.Camera

open List

open Facelock.Auth (eqIgnoreAsciiCase)

/-! ## Devices and entries -/

structure FormatInfo where
  fourcc : String
  description : String
  sizes : List (UInt32 × UInt32)

structure DeviceInfo where
  path : String
  name : String
  driver : String
  capabilities : List String
  formats : List FormatInfo

/-- `modalias` of the parent device and the name of the node, from sysfs. -/
structure PlatformIdentity where
  modalias : String
  nodeName : String

structure Quirk where
  vendorId : Option String := none
  productId : Option String := none
  namePattern : Option String := none
  modalias : Option String := none
  nodeName : Option String := none
  forceIr : Option Bool := none
  warmupFrames : Option UInt32 := none
  formatPreference : Option String := none
  y16BitDepth : Option UInt8 := none
  rotation : Option UInt16 := none
  notes : Option String := none
  deriving DecidableEq, Repr

inductive QuirkMatchKind where
  | usbId
  | platformId
  | nameOnly
  deriving DecidableEq, Repr

/-- The entries in the order they were loaded. -/
structure QuirksDb where
  quirks : List Quirk

/-! ## Name patterns -/

/-- `pattern.split(".*")`. -/
def splitWild : List Char → List (List Char)
  | [] => [[]]
  | '.' :: '*' :: rest => [] :: splitWild rest
  | c :: rest =>
    match splitWild rest with
    | [] => [[c]]
    | part :: parts => (c :: part) :: parts

/-- `text.find(part)`. -/
def find (part : List Char) : List Char → Option Nat
  | [] => if part = [] then some 0 else none
  | c :: text =>
    if part.isPrefixOf (c :: text) then some 0 else (find part text).map (· + 1)

/-- The loop over the parts of the pattern, at part number `i` of `count`
and position `pos` of the name. -/
def matchParts (name : List Char) (startsWild endsWild : Bool) (count : Nat) :
    Nat → Nat → List (List Char) → Bool
  | _, _, [] => true
  | i, pos, part :: parts =>
    let isFirst := i == 0
    let isLast := i == count - 1
    if isFirst && !startsWild then
      if !part.isPrefixOf (name.drop pos) then false
      -- A single part without wildcards is the whole name.
      else if isLast && !endsWild && pos + part.length != name.length then false
      else matchParts name startsWild endsWild count (i + 1) (pos + part.length) parts
    else if isLast && !endsWild then
      if name.length < part.length || name.length - part.length < pos ||
          !part.isSuffixOf name then false
      else matchParts name startsWild endsWild count (i + 1) name.length parts
    else
      match find part (name.drop pos) with
      | some idx =>
        matchParts name startsWild endsWild count (i + 1) (pos + (idx + part.length)) parts
      | none => false

/-- `name_matches` after the optional `(?i)`. -/
def bodyMatches (pattern name : List Char) : Bool :=
  let rawParts := splitWild pattern
  let startsWild := decide (1 < rawParts.length) && rawParts.head?.any List.isEmpty
  let endsWild := decide (1 < rawParts.length) && rawParts.getLast?.any List.isEmpty
  let parts := rawParts.filter fun part => !part.isEmpty
  if parts.isEmpty then true
  else matchParts name startsWild endsWild parts.length 0 0 parts

def caseInsensitive : List Char := "(?i)".toList

variable (toLowercase : List Char → List Char)

def nameMatches (pattern name : String) : Bool :=
  if caseInsensitive.isPrefixOf pattern.toList then
    bodyMatches (toLowercase (pattern.toList.drop caseInsensitive.length))
      (toLowercase name.toList)
  else bodyMatches pattern.toList name.toList

/-! ## What a pattern means -/

/-- The pieces in order, with any text between two of them. -/
def Joined : List (List Char) → List Char → Prop
  | [], _ => False
  | [piece], text => text = piece
  | piece :: pieces, text => ∃ gap after, text = piece ++ (gap ++ after) ∧ Joined pieces after

/-- Parts in order, each after any text.  The last one ends the text unless
a wildcard follows it. -/
def Spaced (endsWild : Bool) : List (List Char) → List Char → Prop
  | [], text => endsWild = true ∨ text = []
  | part :: parts, text => ∃ gap after, text = gap ++ (part ++ after) ∧ Spaced endsWild parts after

theorem Spaced.mono {endsWild parts text rest} (h : Spaced endsWild parts rest)
    (hparts : parts ≠ [] ∨ endsWild = true)
    (hsuffix : rest <:+ text) : Spaced endsWild parts text := by
  obtain ⟨front, rfl⟩ := hsuffix
  cases parts with
  | nil => exact .inl (hparts.resolve_left (absurd rfl))
  | cons part parts =>
    obtain ⟨gap, after, rfl, hafter⟩ := h
    exact ⟨front ++ gap, after, by simp, hafter⟩

theorem find_cases (part text : List Char) :
    (find part text = none ∧ ∀ gap after, text ≠ gap ++ (part ++ after)) ∨
      ∃ gap after, find part text = some gap.length ∧ text = gap ++ (part ++ after) ∧
        ∀ gap' after', text = gap' ++ (part ++ after') → after' <:+ after := by
  induction text with
  | nil =>
    by_cases hpart : part = []
    · subst hpart
      refine .inr ⟨[], [], rfl, rfl, fun gap' after' h => ?_⟩
      simp_all
    · refine .inl ⟨by simp [find, hpart], fun gap after h => hpart ?_⟩
      simp_all
  | cons c text ih =>
    by_cases hprefix : part <+: c :: text
    · obtain ⟨after, hafter⟩ := hprefix
      refine .inr ⟨[], after, by simp [find, ← hafter], hafter.symm, fun gap' after' h => ?_⟩
      have hsuffix : after <:+ c :: text := ⟨part, hafter⟩
      have hsuffix' : after' <:+ c :: text := ⟨gap' ++ part, by simp [h]⟩
      refine suffix_of_suffix_length_le hsuffix' hsuffix ?_
      have hlength := congrArg List.length (hafter.trans h)
      simp only [length_append] at hlength
      omega
    · -- An occurrence does not start here, so it lies in the rest of the text.
      have hlater : ∀ gap after, c :: text = gap ++ (part ++ after) →
          ∃ gap', gap = c :: gap' ∧ text = gap' ++ (part ++ after) := by
        intro gap after h
        cases gap with
        | nil => exact absurd ⟨after, h.symm⟩ hprefix
        | cons d gap =>
          obtain ⟨hc, htail⟩ := List.cons.inj h
          exact ⟨gap, by rw [hc], htail⟩
      have hfind : find part (c :: text) = (find part text).map (· + 1) := by
        simp [find, hprefix]
      rcases ih with ⟨hnone, hne⟩ | ⟨gap, after, hsome, htext, hleast⟩
      · refine .inl ⟨by rw [hfind, hnone]; rfl, fun gap after h => ?_⟩
        obtain ⟨gap', -, h⟩ := hlater gap after h
        exact hne gap' after h
      · refine .inr ⟨c :: gap, after, by rw [hfind, hsome]; rfl, by rw [htext]; rfl, ?_⟩
        intro gap' after' h
        obtain ⟨gap', -, h⟩ := hlater gap' after' h
        exact hleast gap' after' h

/-- After the first part, or when a wildcard precedes it, the loop finds the
parts that are left if they are there. -/
theorem matchParts_iff {name startsWild endsWild count i pos parts}
    (hfirst : (i == 0 && !startsWild) = false) (hcount : i + parts.length = count)
    (hparts : parts ≠ [] ∨ endsWild = true) (hpos : pos ≤ name.length) :
    matchParts name startsWild endsWild count i pos parts = true ↔
      Spaced endsWild parts (name.drop pos) := by
  induction parts generalizing i pos with
  | nil => simpa [matchParts, Spaced] using .inl (hparts.resolve_left (absurd rfl))
  | cons part parts ih =>
    have hlast : (i == count - 1) = parts.isEmpty := by
      cases parts with
      | nil => simp at hcount; simp; omega
      | cons other parts => simp at hcount; simp; omega
    rw [matchParts]
    simp only [hfirst, hlast, Bool.false_eq_true, if_false]
    by_cases hend : (parts.isEmpty && !endsWild) = true
    · obtain ⟨rfl, rfl⟩ : parts = [] ∧ endsWild = false := by simpa using hend
      simp only [hend, if_true, matchParts, Spaced, Bool.false_eq_true, false_or]
      constructor
      · intro h
        have hsuffix : part <:+ name := by
          by_contra hno
          simp [hno] at h
        obtain ⟨front, rfl⟩ := hsuffix
        have hle : pos ≤ front.length := by
          by_contra hlt
          simp [Nat.not_le.mp hlt] at h
        exact ⟨front.drop pos, [], by simp [drop_append_of_le_length hle], rfl⟩
      · rintro ⟨gap, after, htext, rfl⟩
        have hlength := congrArg List.length htext
        simp only [length_drop, length_append, length_nil] at hlength
        have hrest : part <:+ name.drop pos := ⟨gap, by simp [htext]⟩
        have hsuffix : part <:+ name := hrest.trans (drop_suffix _ _)
        have hnot : ¬(name.length < part.length ∨ name.length - part.length < pos) := by omega
        simpa [hsuffix] using hnot
    · have hmore : parts ≠ [] ∨ endsWild = true := by
        by_contra hno
        simp_all
      simp only [hend, Bool.false_eq_true, if_false]
      rcases find_cases part (name.drop pos) with
        ⟨hnone, hne⟩ | ⟨gap, after, hsome, htext, hleast⟩
      · simp only [hnone, Bool.false_eq_true, false_iff]
        rintro ⟨gap, after, h, -⟩
        exact hne gap after h
      · have hdrop : name.drop (pos + (gap.length + part.length)) = after := by
          rw [← drop_drop, htext]
          simp [drop_append]
        have hlength := congrArg List.length htext
        simp only [length_drop, length_append] at hlength
        simp only [hsome]
        rw [ih (by simp) (by simp at hcount; omega) hmore (by omega), hdrop]
        constructor
        · exact fun h => ⟨gap, after, htext, h⟩
        · rintro ⟨gap', after', h, hafter⟩
          exact hafter.mono hmore (hleast gap' after' h)

/-- Empty pieces only widen the gaps. -/
theorem spaced_filter_iff (piece : List Char) (pieces : List (List Char)) (text : List Char) :
    Spaced ((piece :: pieces).getLast?.any List.isEmpty)
        ((piece :: pieces).filter fun part => !part.isEmpty) text ↔
      ∃ gap after, text = gap ++ after ∧ Joined (piece :: pieces) after := by
  induction pieces generalizing piece text with
  | nil =>
    cases piece with
    | nil => simp [Spaced, Joined]
    | cons c piece => simp [Spaced, Joined]
  | cons other pieces ih =>
    have hlast : (piece :: other :: pieces).getLast? = (other :: pieces).getLast? := by simp
    rw [hlast]
    cases piece with
    | nil =>
      rw [filter_cons_of_neg (by simp), ih]
      constructor
      · rintro ⟨gap, after, rfl, h⟩
        exact ⟨gap, after, rfl, [], after, rfl, h⟩
      · rintro ⟨gap, _, rfl, gap', after, rfl, h⟩
        exact ⟨gap ++ gap', after, by simp, h⟩
    | cons c piece =>
      constructor
      · rintro ⟨gap, rest, rfl, hrest⟩
        obtain ⟨gap', after, rfl, h⟩ := (ih other rest).mp hrest
        exact ⟨gap, _, rfl, gap', after, rfl, h⟩
      · rintro ⟨gap, _, rfl, gap', after, rfl, h⟩
        exact ⟨gap, _, rfl, (ih other _).mpr ⟨gap', after, rfl, h⟩⟩

theorem splitWild_ne_nil (pattern : List Char) : splitWild pattern ≠ [] := by
  fun_cases splitWild pattern <;> simp

theorem splitWild_eq_nil_iff {pattern} : splitWild pattern = [[]] ↔ pattern = [] := by
  fun_cases splitWild pattern <;> simp [splitWild_ne_nil]

theorem bodyMatches_iff (pattern name : List Char) :
    bodyMatches pattern name = true ↔ pattern = [] ∨ Joined (splitWild pattern) name := by
  rw [← splitWild_eq_nil_iff, bodyMatches]
  have hne := splitWild_ne_nil pattern
  generalize splitWild pattern = raw at hne ⊢
  obtain ⟨piece, pieces, rfl⟩ := exists_cons_of_ne_nil hne
  cases pieces with
  | nil =>
    by_cases hpiece : piece = []
    · simp [hpiece]
    · have hwhole : piece <+: name ∧ piece.length = name.length ↔ name = piece :=
        ⟨fun h => (h.1.eq_of_length h.2).symm, fun h => by simp [h]⟩
      simpa [hpiece, matchParts, Joined] using hwhole
  | cons other pieces =>
    have hlast : (piece :: other :: pieces).getLast? = (other :: pieces).getLast? := by simp
    have hspaced := spaced_filter_iff other pieces
    have hmore : (other :: pieces).filter (fun part => !part.isEmpty) ≠ [] ∨
        (other :: pieces).getLast?.any List.isEmpty = true := by
      by_cases hwild : ((other :: pieces).getLast (by simp)).isEmpty = true
      · exact .inr (by simpa [getLast?_eq_some_getLast] using hwild)
      · exact .inl (ne_nil_of_mem (mem_filter.mpr
          ⟨getLast_mem (by simp), by simpa using hwild⟩))
    rw [hlast]
    generalize (other :: pieces).getLast?.any List.isEmpty = endsWild at hspaced hmore ⊢
    by_cases hpiece : piece = []
    · subst hpiece
      rw [filter_cons_of_neg (by simp)]
      generalize (other :: pieces).filter (fun part => !part.isEmpty) = parts at hspaced hmore ⊢
      have hjoined : Spaced endsWild parts name ↔ Joined ([] :: other :: pieces) name :=
        hspaced name
      by_cases hparts : parts = []
      · subst hparts
        have hall : Spaced endsWild [] name := .inl (hmore.resolve_left (absurd rfl))
        simp [← hjoined, hall]
      · have hloop : matchParts name true endsWild parts.length 0 0 parts = true ↔
            Spaced endsWild parts name :=
          matchParts_iff rfl (Nat.zero_add _) hmore (Nat.zero_le _)
        simpa [hparts, ← hjoined] using hloop
    · rw [filter_cons_of_pos (by simpa using hpiece)]
      generalize (other :: pieces).filter (fun part => !part.isEmpty) = parts at hspaced hmore ⊢
      have hend : (0 == parts.length && !endsWild) = false := by
        cases parts <;> simp_all
      have hstart : matchParts name false endsWild (parts.length + 1) 0 0 (piece :: parts) =
          (piece.isPrefixOf name &&
            matchParts name false endsWild (parts.length + 1) 1 piece.length parts) := by
        rw [matchParts]
        simp [hend]
      have hloop : matchParts name false endsWild (parts.length + 1) 0 0 (piece :: parts) = true ↔
          Joined (piece :: other :: pieces) name := by
        rw [hstart, Bool.and_eq_true, isPrefixOf_iff_prefix]
        constructor
        · intro ⟨⟨rest, hrest⟩, h⟩
          subst hrest
          rw [matchParts_iff rfl (Nat.add_comm 1 _) hmore (by simp), drop_left, hspaced] at h
          obtain ⟨gap, after, rfl, h⟩ := h
          exact ⟨gap, after, rfl, h⟩
        · rintro ⟨gap, after, rfl, h⟩
          refine ⟨prefix_append _ _, ?_⟩
          rw [matchParts_iff rfl (Nat.add_comm 1 _) hmore (by simp), drop_left, hspaced]
          exact ⟨gap, after, rfl, h⟩
      have hclosed : piece.isEmpty = false := by simpa using hpiece
      simpa [hclosed] using hloop

/-- A name pattern matches the names that it describes.  An empty one
matches every name. -/
theorem nameMatches_iff (pattern name : String) :
    nameMatches toLowercase pattern name = true ↔
      let (body, text) :=
        if caseInsensitive.isPrefixOf pattern.toList then
          (toLowercase (pattern.toList.drop caseInsensitive.length), toLowercase name.toList)
        else (pattern.toList, name.toList)
      body = [] ∨ Joined (splitWild body) text := by
  unfold nameMatches
  split_ifs <;> exact bodyMatches_iff _ _

/-! ## Lookup -/

section

variable (db : QuirksDb) (device : DeviceInfo) (usbIds : Option (String × String))
  (platform : Option PlatformIdentity) (quirk : Quirk)

def Quirk.matchesUsbId (ids : String × String) : Bool :=
  match quirk.vendorId, quirk.productId with
  | some vendor, some product =>
    eqIgnoreAsciiCase vendor.toList ids.1.toList && eqIgnoreAsciiCase product.toList ids.2.toList
  | _, _ => false

def Quirk.matchesPlatform (id : PlatformIdentity) : Bool :=
  match quirk.modalias, quirk.nodeName with
  | some modalias, some nodeName => modalias == id.modalias && nodeName == id.nodeName
  | _, _ => false

/-- `quirks.iter().rev().find(..)`. -/
def QuirksDb.findLast (p : Quirk → Bool) : Option Quirk :=
  db.quirks.reverse.find? p

def QuirksDb.findMatchWithKind : Option (Quirk × QuirkMatchKind) :=
  match usbIds.bind fun ids => db.findLast (·.matchesUsbId ids) with
  | some quirk => some (quirk, .usbId)
  | none =>
    match platform.bind fun id => db.findLast (·.matchesPlatform id) with
    | some quirk => some (quirk, .platformId)
    | none =>
      (db.findLast fun quirk =>
        quirk.namePattern.any fun pattern => nameMatches toLowercase pattern device.name).map
          fun quirk => (quirk, .nameOnly)

def QuirksDb.findMatchWithIds : Option Quirk :=
  (db.findMatchWithKind toLowercase device usbIds none).map Prod.fst

/-! ## What a match says -/

theorem QuirksDb.findLast_eq_some {db : QuirksDb} {p quirk}
    (h : db.findLast p = some quirk) : quirk ∈ db.quirks ∧ p quirk = true :=
  ⟨mem_reverse.mp (mem_of_find?_eq_some h), find?_some h⟩

theorem Quirk.matchesPlatform_eq_true {quirk : Quirk} {id} :
    quirk.matchesPlatform id = true ↔
      quirk.modalias = some id.modalias ∧ quirk.nodeName = some id.nodeName := by
  unfold Quirk.matchesPlatform
  split
  · rename_i modalias nodeName hmodalias hnode
    simp [hmodalias, hnode]
  · rename_i hnone
    simp only [Bool.false_eq_true, false_iff, not_and]
    intro hmodalias hnode
    exact hnone _ _ hmodalias hnode

/-- The node and the entry share what the match is by. -/
def QuirkMatchKind.Shares : QuirkMatchKind → Prop
  | .usbId => ∃ ids, usbIds = some ids ∧ quirk.matchesUsbId ids = true
  | .platformId => ∃ id, platform = some id ∧
      quirk.modalias = some id.modalias ∧ quirk.nodeName = some id.nodeName
  | .nameOnly => ∃ pattern, quirk.namePattern = some pattern ∧
      nameMatches toLowercase pattern device.name = true

end

theorem QuirksDb.findMatchWithKind_eq_some {toLowercase : List Char → List Char} {db : QuirksDb}
    {device usbIds platform quirk kind}
    (h : db.findMatchWithKind toLowercase device usbIds platform = some (quirk, kind)) :
    quirk ∈ db.quirks ∧ kind.Shares toLowercase device usbIds platform quirk := by
  unfold QuirksDb.findMatchWithKind at h
  split at h
  · rename_i found hfound
    obtain ⟨rfl, rfl⟩ : found = quirk ∧ QuirkMatchKind.usbId = kind := by simpa using h
    obtain ⟨ids, hids, hlast⟩ := Option.bind_eq_some_iff.mp hfound
    obtain ⟨hmem, hmatch⟩ := QuirksDb.findLast_eq_some hlast
    exact ⟨hmem, ids, hids, hmatch⟩
  · split at h
    · rename_i found hfound
      obtain ⟨rfl, rfl⟩ : found = quirk ∧ QuirkMatchKind.platformId = kind := by simpa using h
      obtain ⟨id, hid, hlast⟩ := Option.bind_eq_some_iff.mp hfound
      obtain ⟨hmem, hmatch⟩ := QuirksDb.findLast_eq_some hlast
      exact ⟨hmem, id, hid, Quirk.matchesPlatform_eq_true.mp hmatch⟩
    · obtain ⟨found, hlast, heq⟩ := Option.map_eq_some_iff.mp h
      obtain ⟨rfl, rfl⟩ : found = quirk ∧ QuirkMatchKind.nameOnly = kind := by simpa using heq
      obtain ⟨hmem, hmatch⟩ := QuirksDb.findLast_eq_some hlast
      obtain ⟨pattern, hpattern, hname⟩ := (Option.any_eq_true _ _).mp hmatch
      exact ⟨hmem, pattern, hpattern, hname⟩

end Facelock.Camera
