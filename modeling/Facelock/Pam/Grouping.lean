import Facelock.Pam.Segments

/-!
# Groupings of lines

How the segments of a document change when lines are put in or taken out.

Lines are grouped on both sides of a line that does not continue
(`segments_append`), and the line in front of a rule is such a line
(`continuesLast_before_rule`).

`Separate` says which lists of segments are the grouping of their lines.
A rule whose last line continues has no rule right after it.  Dropping
rules keeps this, because the lines that end a continued rule are not
rules (`segments_filter`).
-/

namespace Facelock.Pam

open List

/-! ## Lines that do not continue -/

def continuesLast (lines : List Bytes) : Bool :=
  lines.getLast?.any continues

variable {lines : List Bytes}

theorem continuesLast_cons (line : Bytes) (h : lines ≠ []) :
    continuesLast (line :: lines) = continuesLast lines := by
  cases lines with
  | nil => exact absurd rfl h
  | cons next lines => simp [continuesLast]

variable {segs : List Segment}

theorem Segment.join_append (line : Bytes) (h : segs ≠ []) (rest : List Segment) :
    Segment.join line (segs ++ rest) = Segment.join line segs ++ rest := by
  rcases segs with _ | ⟨seg, segs⟩
  · exact absurd rfl h
  · cases seg <;> rfl

theorem segments_ne_nil (h : lines ≠ []) : segments lines ≠ [] := by
  intro hnil
  apply h
  rw [← segments_lines lines, hnil]
  rfl

/-- Lines are grouped on both sides of a line that does not continue. -/
theorem segments_append (lines rest : List Bytes) (h : continuesLast lines = false) :
    segments (lines ++ rest) = segments lines ++ segments rest := by
  induction lines with
  | nil => rfl
  | cons line lines ih =>
    by_cases hne : lines = []
    · subst hne
      have hc : continues line = false := by simpa [continuesLast] using h
      simp only [cons_append, nil_append, segments, hc, Bool.false_eq_true, if_false]
      split <;> rfl
    · rw [continuesLast_cons line hne] at h
      rw [cons_append, segments, segments, ih h, Segment.join_append line (segments_ne_nil hne)]
      split_ifs <;> rfl

/-- The line in front of a rule does not continue. -/
theorem continuesLast_before_rule (lines : List Bytes) :
    ∀ (first : List Segment) (inner : List Bytes) (last : List Segment),
      segments lines = first ++ .rule inner :: last →
      continuesLast (first.flatMap Segment.lines) = false := by
  induction lines with
  | nil =>
    intro first inner last h
    exact absurd h.symm (by simp [segments])
  | cons line lines ih =>
    intro first inner last h
    rcases first with _ | ⟨seg, first⟩
    · rfl
    rcases segments_cons_cases line lines with
      ⟨alone, hcons, hlines, -, hno⟩ | ⟨joined, segs, -, -, hsegs, hcons⟩
    · -- The line is a segment of its own.  If it continues, no rule follows it directly.
      rw [hcons, cons_append] at h
      obtain ⟨rfl, hrest⟩ := List.cons.inj h
      rw [flatMap_cons, hlines, singleton_append]
      cases first with
      | nil =>
        have hc : continues line = false := by
          by_contra hc
          exact hno (by simpa using hc) inner last hrest
        simp [continuesLast, hc]
      | cons next first =>
        have hnext := (segments_wellFormed lines next (by rw [hrest]; simp)).ne_nil
        rw [continuesLast_cons line (by simp [hnext])]
        exact ih _ inner last hrest
    · -- The line joins the rule after it, which has a last line.
      rw [hcons, cons_append] at h
      obtain ⟨rfl, hrest⟩ := List.cons.inj h
      have hjoined := (ruleShape_of_mem lines (by rw [hsegs]; exact mem_cons_self)).ne_nil
      have hclosed := ih (.rule joined :: first) inner last (by rw [hsegs, hrest]; rfl)
      simpa [Segment.lines, continuesLast_cons line, hjoined] using hclosed

/-! ## Separate segments -/

/-- A rule that continues at its end has no rule right after it. -/
def Separate : List Segment → Prop
  | [] => True
  | seg :: segs =>
    (continuesLast seg.lines = true → ∀ inner rest, segs ≠ .rule inner :: rest) ∧ Separate segs

/-- The lines of a rule are grouped into that rule. -/
theorem segments_rule_append (hshape : RuleShape lines) {tail}
    (htail : continuesLast lines = true → ∀ inner rest, segments tail ≠ .rule inner :: rest) :
    segments (lines ++ tail) = .rule lines :: segments tail := by
  induction hshape with
  | @last line hs =>
    rw [singleton_append]
    by_cases hc : continues line = true
    · have hno := htail (by simp [continuesLast, hc])
      rw [segments_of_continues hs hc]
      rcases Segment.join_cases line (segments tail) with ⟨inner, rest, hsegs, -⟩ | ⟨-, hj⟩
      · exact absurd hsegs (hno inner rest)
      · exact hj
    · exact segments_of_not_continues hs (by simpa using hc) tail
  | @cons line lines hs hc hshape ih =>
    rw [continuesLast_cons line hshape.ne_nil] at htail
    rw [cons_append, segments_of_continues hs hc, ih htail]
    rfl

/-- A separate list of segments is the grouping of its lines. -/
theorem segments_flatMap_lines (hwell : ∀ seg ∈ segs, seg.WellFormed) (hseparate : Separate segs) :
    segments (segs.flatMap Segment.lines) = segs := by
  induction segs with
  | nil => rfl
  | cons seg segs ih =>
    have hrest : segments (segs.flatMap Segment.lines) = segs :=
      ih (fun other hmem => hwell other (mem_cons_of_mem _ hmem)) hseparate.2
    have hseg := hwell seg (by simp)
    rw [flatMap_cons]
    cases seg with
    | skip line =>
      rw [Segment.lines, singleton_append, segments_of_not_semantic hseg, hrest]
    | rule lines =>
      have hjoin : segments (lines ++ segs.flatMap Segment.lines) =
          .rule lines :: segments (segs.flatMap Segment.lines) := by
        refine segments_rule_append hseg ?_
        rw [hrest]
        exact hseparate.1
      rw [hrest] at hjoin
      exact hjoin

theorem separate_segments (lines : List Bytes) : Separate (segments lines) := by
  have hsuffix : ∀ (first segs : List Segment), segments lines = first ++ segs → Separate segs := by
    intro first segs
    induction segs generalizing first with
    | nil => exact fun _ => trivial
    | cons seg segs ih =>
      intro hsegs
      refine ⟨?_, ih (first ++ [seg]) (by rw [hsegs]; simp)⟩
      rintro hcontinues inner rest rfl
      have hclosed := continuesLast_before_rule lines (first ++ [seg]) inner rest
        (by rw [hsegs]; simp)
      have hne : seg.lines ≠ [] := by
        rintro hnil
        rw [hnil] at hcontinues
        cases hcontinues
      rw [flatMap_append, flatMap_singleton] at hclosed
      rw [continuesLast, getLast?_append_of_ne_nil _ hne] at hclosed
      rw [continuesLast] at hcontinues
      rw [hcontinues] at hclosed
      cases hclosed
  exact hsuffix [] _ rfl

theorem Separate.left {first last} (h : Separate (first ++ last)) : Separate first := by
  induction first with
  | nil => trivial
  | cons seg first ih =>
    refine ⟨?_, ih h.2⟩
    rintro hcontinues inner rest rfl
    exact h.1 hcontinues inner (rest ++ last) rfl

theorem segments_first {first last} (h : segments lines = first ++ last) :
    segments (first.flatMap Segment.lines) = first := by
  have hseparate := separate_segments lines
  rw [h] at hseparate
  refine segments_flatMap_lines (fun seg hseg => ?_) hseparate.left
  exact segments_wellFormed lines seg (by rw [h]; exact mem_append_left _ hseg)

theorem Separate.filter (h : Separate segs) {keep}
    (hskip : ∀ line, keep (.skip line) = true) : Separate (segs.filter keep) := by
  induction segs with
  | nil => trivial
  | cons seg segs ih =>
    rw [filter_cons]
    split
    · refine ⟨?_, ih h.2⟩
      intro hcontinues inner rest hfilter
      cases segs with
      | nil => cases hfilter
      | cons next segs =>
        cases next with
        | skip line =>
          rw [filter_cons_of_pos (hskip line)] at hfilter
          cases hfilter
        | rule lines => exact h.1 hcontinues lines segs rfl
    · exact ih h.2

theorem segments_filter (lines : List Bytes) {keep} (hskip : ∀ line, keep (.skip line) = true) :
    segments (((segments lines).filter keep).flatMap Segment.lines) =
      (segments lines).filter keep := by
  refine segments_flatMap_lines ?_ ((separate_segments lines).filter hskip)
  intro seg hseg
  exact segments_wellFormed lines seg (mem_of_mem_filter hseg)

end Facelock.Pam
