import Mathlib.Data.List.Flatten
import Facelock.Pam.Segments

/-!
# Removal of the facelock rules

`with_facelock_removed` keeps two offsets while it walks over the logical
rules.  `withLineRemoved_eq` replaces them by a function of the segments:
`keepLines` says which lines of a segment stay, and the document that
comes out is their concatenation.

A facelock rule goes as a whole, with one exception.  When its last line
is the inserted line and an earlier line continues into it, only that
last line goes.  Since the inserted line does not continue, no other line
of a rule can be the injected one (`cutInjectedLines_eq`).

The repaired rule is not looked at again, so its other lines stay even
when they name the module themselves.  `Repairable` says that this does
not happen, and it is exactly the condition under which a document comes
out free of facelock rules.
-/

namespace Facelock.Pam

open Lines List

/-! ## The lines that stay -/

/-- Whether the last line of a rule is the inserted line, and a continued
line stands in front of it. -/
def endsInjected : Bool → List Bytes → Bool
  | _, [] => false
  | previousContinued, [line] => previousContinued && lineContent line == pamLine
  | _, _ :: line :: lines => endsInjected true (line :: lines)

theorem endsInjected_concat (previousContinued : Bool) (lines : List Bytes) (last : Bytes) :
    endsInjected previousContinued (lines ++ [last]) =
      ((previousContinued || !lines.isEmpty) && lineContent last == pamLine) := by
  induction lines generalizing previousContinued with
  | nil => simp [endsInjected]
  | cons line lines ih =>
    cases lines with
    | nil => simp [endsInjected]
    | cons next lines => simpa [endsInjected] using ih true

/-- What removal leaves of a segment. -/
def keepLines : Segment → List Bytes
  | .skip line => [line]
  | .rule lines =>
    if lines.any namesModule then
      if endsInjected false lines then lines.dropLast else []
    else lines

variable {line : Bytes}

theorem namesModule_of_content (h : lineContent line = pamLine) : namesModule line = true := by
  rw [namesModule, linePayload, h]
  decide

theorem continues_of_content (h : lineContent line = pamLine) : continues line = false := by
  rw [continues, h]
  decide

theorem isSemantic_of_content (h : lineContent line = pamLine) : isSemantic line = true := by
  rw [isSemantic, h]
  decide

theorem terminated_pamLine {ending} (h : ending = [newline] ∨ ending = [carriageReturn, newline]) :
    Terminated newline (pamLine ++ ending) ∧ lineContent (pamLine ++ ending) = pamLine := by
  rcases h with rfl | rfl
  · exact ⟨⟨pamLine, by decide, rfl⟩, by decide⟩
  · exact ⟨⟨pamLine ++ [carriageReturn], by decide, by simp⟩, by decide⟩

theorem keepLines_sublist (seg : Segment) : (keepLines seg).Sublist seg.lines := by
  cases seg with
  | skip line => exact List.Sublist.refl _
  | rule lines =>
    simp only [keepLines, Segment.lines]
    split_ifs
    · exact dropLast_sublist _
    · exact nil_sublist _
    · exact List.Sublist.refl _

theorem keepLines_of_not_isFacelock {seg} (h : seg.isFacelock = false) :
    keepLines seg = seg.lines := by
  cases seg with
  | skip line => rfl
  | rule lines =>
    simp only [Segment.isFacelock] at h
    simp [keepLines, Segment.lines, h]

/-! ## The accumulators -/

variable (bytes : Bytes)

/-- The output once the bytes up to `pos` are copied as well. -/
def Removal.upTo (removal : Removal) (pos : Nat) : Bytes :=
  removal.output ++ slice bytes removal.copiedThrough pos

theorem Removal.upTo_length (removal : Removal) :
    removal.upTo bytes bytes.length = removal.output ++ bytes.drop removal.copiedThrough := by
  rw [Removal.upTo, slice, take_of_length_le (by simp)]

theorem Removal.upTo_append (before middle after : Bytes) {removal : Removal}
    (h : removal.copiedThrough ≤ before.length) :
    removal.upTo (before ++ middle ++ after) (before.length + middle.length) =
      removal.upTo (before ++ middle ++ after) before.length ++ middle := by
  have hdrop : (before ++ middle ++ after).drop removal.copiedThrough =
      before.drop removal.copiedThrough ++ (middle ++ after) := by
    rw [append_assoc, drop_append_of_le_length h]
  have hlen : before.length - removal.copiedThrough =
      (before.drop removal.copiedThrough).length := by simp
  have hlen' : before.length + middle.length - removal.copiedThrough =
      (before.drop removal.copiedThrough ++ middle).length := by
    simp only [length_append, length_drop]
    omega
  rw [Removal.upTo, Removal.upTo, slice, slice, hdrop, hlen, take_left, hlen',
    ← append_assoc, take_left, append_assoc]

/-- After a cut, nothing between its ends is copied. -/
theorem Removal.upTo_cut (removal : Removal) (first last : Nat) :
    (removal.cut bytes first last).upTo bytes last = removal.upTo bytes first := by
  simp [Removal.upTo, Removal.cut, slice]

/-! ## One rule -/

variable {lines : List Bytes}

/-- The inner loop cuts the last line of a rule, or nothing. -/
theorem cutInjectedLines_eq (hshape : RuleShape lines) :
    ∀ (before after : Bytes) (rest : List Bytes) (fuel : Nat) (previousContinued : Bool)
      (removal : Removal) (repaired : Bool),
      after = rest.flatten → IsLines newline (lines ++ rest) → lines.length ≤ fuel →
      cutInjectedLines (before ++ lines.flatten ++ after)
          (before.length + lines.flatten.length) fuel before.length previousContinued
          removal repaired =
        if endsInjected previousContinued lines then
          (removal.cut (before ++ lines.flatten ++ after)
            (before ++ lines.dropLast.flatten).length
            (before.length + lines.flatten.length), true)
        else (removal, repaired) := by
  induction hshape with
  | @last line _ =>
    rintro before _ rest fuel prev removal repaired rfl hlines hfuel
    obtain _ | fuel := fuel
    · simp at hfuel
    have hpos : 0 < line.length := length_pos_iff.mpr (IsLines.ne_nil hlines)
    have hat : PhysicalLine.at (before ++ line ++ rest.flatten) before.length =
        some (physicalLine before line rest.flatten) := PhysicalLine.at_line before hlines
    have hstop : (physicalLine before line rest.flatten).stop = before.length + line.length := rfl
    have hdone : ∀ prev removal repaired, cutInjectedLines (before ++ line ++ rest.flatten)
        (before.length + line.length) fuel (before.length + line.length) prev removal
        repaired = (removal, repaired) := by
      intro prev removal repaired
      cases fuel <;> simp [cutInjectedLines]
    simp only [flatten_cons, flatten_nil, append_nil]
    rw [cutInjectedLines, if_pos (by omega), hat]
    simp only [physicalLine_content, hstop, hdone, endsInjected, Bool.and_eq_true, beq_iff_eq]
    simp [physicalLine]
  | @cons line lines hs hc hshape ih =>
    rintro before _ rest fuel prev removal repaired rfl hlines hfuel
    obtain _ | fuel := fuel
    · simp at hfuel
    have hpos : 0 < line.length := length_pos_iff.mpr (IsLines.ne_nil hlines)
    obtain ⟨next, inner, rfl⟩ := exists_cons_of_ne_nil hshape.ne_nil
    have hat : PhysicalLine.at (before ++ (line :: next :: inner).flatten ++ rest.flatten)
        before.length = some (physicalLine before line (next :: inner ++ rest).flatten) := by
      have := PhysicalLine.at_line before hlines
      simpa using this
    have hcont : (physicalLine before line
        (next :: inner ++ rest).flatten).continuationBackslash.isSome = true := by
      rw [physicalLine_continuationBackslash]
      exact hc
    -- A continued line is not the inserted one.
    have hcontent : ¬ (prev = true ∧ lineContent line = pamLine) := by
      rintro ⟨-, h⟩
      rw [continues_of_content h] at hc
      exact absurd hc (by simp)
    have hih := ih (before ++ line) _ rest fuel true removal repaired rfl hlines.2
      (by simpa using hfuel)
    rw [cutInjectedLines, if_pos (by simp; omega), hat]
    simp only [physicalLine_content, hcont, if_neg hcontent]
    have hend : before.length + (line :: next :: inner).flatten.length =
        (before ++ line).length + (next :: inner).flatten.length := by
      simp [Nat.add_assoc]
    have hbytes : before ++ (line :: next :: inner).flatten ++ rest.flatten =
        before ++ line ++ (next :: inner).flatten ++ rest.flatten := by simp
    have hcut : before ++ (line :: next :: inner).dropLast.flatten =
        before ++ line ++ (next :: inner).dropLast.flatten := by simp
    rw [physicalLine_stop, hend, hbytes, hih, hcut, endsInjected]

/-- One pass of the `for` loop leaves the lines that `keepLines` says. -/
theorem removeRule_upTo (before : Bytes) (rest : List Bytes) {removal} (hshape : RuleShape lines)
    (hlines : IsLines newline (lines ++ rest)) (hcopied : removal.copiedThrough ≤ before.length) :
    let bytes := before ++ lines.flatten ++ rest.flatten
    let rule := { start := before.length, stop := before.length + lines.flatten.length,
                  bytes := lines.flatten : LogicalRule }
    (removeRule bytes removal rule).upTo bytes rule.stop =
        removal.upTo bytes before.length ++ (keepLines (.rule lines)).flatten ∧
      (removeRule bytes removal rule).copiedThrough ≤ rule.stop := by
  intro bytes rule
  have hinner : IsLines newline lines := hlines.sublist (sublist_append_left _ _)
  have hfacelock : isFacelockRule rule.bytes = lines.any namesModule :=
    isFacelockRule_flatten hshape hinner
  have hfuel : lines.length ≤ bytes.length := by
    have := hinner.length_le
    simp only [bytes, length_append]
    omega
  have hcut := cutInjectedLines_eq hshape before _ rest bytes.length false removal false rfl hlines
    hfuel
  rw [removeRule, hfacelock]
  by_cases hnames : lines.any namesModule = true
  · rw [if_pos hnames, show cutInjectedLines bytes rule.stop bytes.length rule.start false removal
      false = _ from hcut]
    by_cases hend : endsInjected false lines = true
    · -- Only the injected last line goes.
      simp only [hend, if_true, keepLines, hnames]
      refine ⟨?_, le_rfl⟩
      obtain ⟨last, hlast⟩ : ∃ last, lines = lines.dropLast ++ [last] := by
        rcases eq_nil_or_concat' lines with rfl | ⟨init, last, rfl⟩
        · cases hshape
        · exact ⟨last, by simp⟩
      have hbytes : bytes = before ++ lines.dropLast.flatten ++ (last ++ rest.flatten) := by
        simp only [bytes]
        conv_lhs => rw [hlast]
        simp
      rw [Removal.upTo_cut, hbytes, length_append, Removal.upTo_append _ _ _ hcopied]
    · -- The whole rule goes.
      simp only [hend, keepLines, hnames, if_true, Bool.false_eq_true, if_false]
      refine ⟨?_, le_rfl⟩
      rw [Removal.upTo_cut, flatten_nil, append_nil]
  · simp only [keepLines, hnames]
    exact ⟨Removal.upTo_append before lines.flatten rest.flatten hcopied,
      hcopied.trans (Nat.le_add_right _ _)⟩

/-! ## The whole document -/

/-- The `for` loop over the rules of the remaining segments. -/
theorem foldl_removeRule (segs : List Segment) :
    ∀ (before : Bytes) (removal : Removal), removal.copiedThrough ≤ before.length →
      (∀ seg ∈ segs, seg.WellFormed) → IsLines newline (segs.flatMap Segment.lines) →
      let bytes := before ++ (segs.flatMap Segment.lines).flatten
      ((ruleSpans before.length segs).foldl (removeRule bytes) removal).upTo bytes bytes.length =
        removal.upTo bytes before.length ++ (segs.flatMap keepLines).flatten := by
  induction segs with
  | nil =>
    intro before removal _ _ _
    simp [ruleSpans]
  | cons seg segs ih =>
    intro before removal hcopied hwell hlines bytes
    have hwell' : ∀ seg' ∈ segs, seg'.WellFormed := fun seg' hmem =>
      hwell seg' (mem_cons_of_mem _ hmem)
    have hlines' : IsLines newline (segs.flatMap Segment.lines) :=
      hlines.sublist (sublist_append_right _ _)
    have hbytes : bytes = before ++ seg.lines.flatten ++ (segs.flatMap Segment.lines).flatten := by
      simp [bytes]
    have hpos : before.length + seg.lines.flatten.length = (before ++ seg.lines.flatten).length :=
      length_append.symm
    cases seg with
    | skip line =>
      have hline : (Segment.skip line).lines.flatten = line := by simp [Segment.lines]
      rw [hline] at hbytes hpos
      have hstep := Removal.upTo_append before line (segs.flatMap Segment.lines).flatten hcopied
      rw [ruleSpans, hbytes, hpos]
      rw [hpos] at hstep
      rw [ih (before ++ line) removal (by rw [← hpos]; omega) hwell' hlines', hstep]
      simp [keepLines]
    | rule lines =>
      obtain ⟨hstep, hle⟩ := removeRule_upTo before (segs.flatMap Segment.lines)
        (hwell (.rule lines) (by simp)) hlines hcopied
      simp only [Segment.lines] at hbytes hpos
      rw [hpos] at hstep hle
      rw [ruleSpans, foldl_cons, hbytes, hpos,
        ih (before ++ lines.flatten) _ hle hwell' hlines', hstep]
      simp

theorem withLineRemoved_eq :
    withLineRemoved bytes = ((segments (rawLines bytes)).flatMap keepLines).flatten := by
  have hlines := isLines_rawLines bytes
  have hflat := flatten_rawLines bytes
  have hfold := foldl_removeRule (segments (rawLines bytes)) []
    { output := [], copiedThrough := 0 } le_rfl (segments_wellFormed _)
    (by rw [segments_lines]; exact hlines)
  simp only [segments_lines, hflat, nil_append, length_nil] at hfold
  rw [withLineRemoved, logicalRules_eq, ← Removal.upTo_length, hfold]
  simp [Removal.upTo, slice]

theorem rawLines_withLineRemoved :
    rawLines (withLineRemoved bytes) = (segments (rawLines bytes)).flatMap keepLines := by
  have hlines := isLines_rawLines bytes
  rw [withLineRemoved_eq, rawLines]
  refine split_flatten (hlines.sublist ?_)
  conv_rhs => rw [← segments_lines (rawLines bytes)]
  exact Sublist.flatMap_right _ fun seg _ => keepLines_sublist seg

theorem flatMap_keepLines (h : lines.any namesModule = false) :
    (segments lines).flatMap keepLines = lines := by
  have hwell := segments_wellFormed lines
  rw [← segments_lines lines, any_flatMap] at h
  conv_rhs => rw [← segments_lines lines]
  refine flatMap_congr fun seg hseg => keepLines_of_not_isFacelock ?_
  rw [Segment.isFacelock_eq (hwell seg hseg)]
  simpa using any_eq_false.mp h seg hseg

theorem withLineRemoved_of_not_hasFacelockRule {bytes}
    (h : hasFacelockRule bytes = false) : withLineRemoved bytes = bytes := by
  rw [hasFacelockRule_eq] at h
  rw [withLineRemoved_eq, flatMap_keepLines h, rawLines, flatten_split]

/-! ## What is left -/

/-- A rule whose last line is injected names the module nowhere else. -/
def Repairable (lines : List Bytes) : Prop :=
  endsInjected false lines = true → lines.dropLast.any namesModule = false

theorem endsInjected_last {previousContinued} (h : endsInjected previousContinued lines = true) :
    ∃ line ∈ lines, lineContent line = pamLine := by
  rcases eq_nil_or_concat' lines with rfl | ⟨init, last, rfl⟩
  · cases h
  · rw [endsInjected_concat, Bool.and_eq_true, beq_iff_eq] at h
    exact ⟨last, by simp, h.2⟩

/-- A facelock rule is gone exactly when it is repairable. -/
theorem keepLines_rule_names :
    (keepLines (.rule lines)).any namesModule = false ↔ Repairable lines := by
  simp only [keepLines, Repairable]
  by_cases hend : endsInjected false lines = true
  · obtain ⟨last, hlast, hcontent⟩ := endsInjected_last hend
    have hnames : lines.any namesModule = true :=
      any_eq_true.mpr ⟨last, hlast, namesModule_of_content hcontent⟩
    simp [hend, hnames]
  · cases hnames : lines.any namesModule <;> simp [hend, hnames]

/-- Removal leaves no facelock rule exactly when every rule is
repairable. -/
theorem hasFacelockRule_withLineRemoved :
    hasFacelockRule (withLineRemoved bytes) = false ↔
      ∀ lines ∈ ruleLines bytes, Repairable lines := by
  rw [hasFacelockRule_eq, rawLines_withLineRemoved, any_flatMap, any_eq_false]
  have hwell := segments_wellFormed (rawLines bytes)
  constructor
  · intro h lines hlines
    obtain ⟨seg, hseg, hsome⟩ := mem_filterMap.mp hlines
    cases seg with
    | skip line => exact absurd hsome (by simp)
    | rule inner =>
      obtain rfl : inner = lines := by simpa using hsome
      exact keepLines_rule_names.mp (by simpa using h _ hseg)
  · intro h seg hseg
    cases seg with
    | skip line =>
      simp [keepLines, namesModule_of_not_semantic (hwell _ hseg)]
    | rule lines =>
      have hmem : lines ∈ ruleLines bytes := mem_filterMap.mpr ⟨.rule lines, hseg, rfl⟩
      simpa using keepLines_rule_names.mpr (h lines hmem)

/-- Removal leaves no facelock rule, and a second removal changes
nothing, exactly when every rule is repairable. -/
theorem withLineRemoved_clean_iff (bytes : Bytes) :
    hasFacelockRule (withLineRemoved bytes) = false ∧
        withLineRemoved (withLineRemoved bytes) = withLineRemoved bytes ↔
      ∀ lines ∈ ruleLines bytes, Repairable lines := by
  rw [← hasFacelockRule_withLineRemoved]
  exact ⟨And.left, fun h => ⟨h, withLineRemoved_of_not_hasFacelockRule h⟩⟩

/-- A continued facelock rule in front of the injected line.  The repair
cuts the injected line and leaves the other one. -/
theorem withLineRemoved_leaves_rule :
    let document := ascii "auth required pam_facelock.so \\\n" ++ pamLine ++ [newline]
    withLineRemoved document = ascii "auth required pam_facelock.so \\\n" ∧
      hasFacelockRule (withLineRemoved document) = true ∧
      withLineRemoved (withLineRemoved document) = [] := by
  decide +kernel

end Facelock.Pam
