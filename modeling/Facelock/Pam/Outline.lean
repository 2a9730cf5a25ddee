import Facelock.Pam.Insertion
import Mathlib.Data.List.Chain

/-!
# The outline of a document

An edit of a service file is judged by what an administrator reads in it:
the rules, and the comments and blank lines between them.  `outline` lists
both in order, without line endings.

Insertion adds one rule to the outline and changes nothing else in it.
Removal, where it takes whole rules, takes nothing else, and neither splits
nor joins what is left.  `deleteSpans` is the deletion of byte spans,
position by position.
-/

namespace Facelock.Pam

open Lines List

/-! ## Outlines -/

/-- What a reader sees of a document, without line endings. -/
inductive Piece where
  | comment (content : Bytes)
  | rule (text : Bytes)
  deriving DecidableEq, Repr

def Piece.ruleText : Piece → Option Bytes
  | .comment _ => none
  | .rule text => some text

def Segment.piece : Segment → Piece
  | .skip line => .comment (lineContent line)
  | .rule lines => .rule (lineContent lines.flatten)

variable (bytes : Bytes)

def outline : List Piece :=
  (segments (rawLines bytes)).map Segment.piece

/-- The logical rules as raw bytes, up to the terminator of the last
line. -/
def ruleTexts : List Bytes :=
  (logicalRules bytes).map fun rule => lineContent rule.bytes

theorem ruleSpans_texts (segs : List Segment) (offset : Nat) :
    (ruleSpans offset segs).map (fun rule => lineContent rule.bytes) =
      (segs.map Segment.piece).filterMap Piece.ruleText := by
  induction segs generalizing offset with
  | nil => rfl
  | cons seg segs ih =>
    cases seg with
    | skip line => exact ih _
    | rule lines =>
      rw [ruleSpans, map_cons, map_cons, filterMap_cons, ih]
      rfl

theorem outline_ruleTexts : (outline bytes).filterMap Piece.ruleText = ruleTexts bytes := by
  rw [ruleTexts, logicalRules_eq, outline, ruleSpans_texts]

/-! ## Insertion -/

theorem outline_inserted {before after line} (hlines : IsLines newline (before ++ line :: after))
    (hcontent : lineContent line = pamLine) (hclosed : continuesLast before = false) :
    outline (before ++ line :: after).flatten =
      (segments before).map Segment.piece ++ .rule pamLine ::
        (segments after).map Segment.piece := by
  rw [outline, rawLines, split_flatten hlines, segments_append _ _ hclosed,
    segments_of_not_continues (isSemantic_of_content hcontent) (continues_of_content hcontent)]
  simp [Segment.piece, hcontent]

/-- The outline gets one more piece, with as many rules in front of it as
the position says. -/
theorem exists_outline_inserted :
    ∃ first last, outline bytes = first ++ last ∧
      outline (withLineInserted bytes) = first ++ .rule pamLine :: last ∧
      (first.filterMap Piece.ruleText).length = insertionPosition bytes := by
  by_cases hheader : bytes = pamHeader
  · subst hheader
    exact ⟨[.comment pamHeader], [], by decide, by decide, by decide⟩
  · obtain ⟨before, line, after, hraw, hlines, hcontent, hclosed, hcount, hinserted⟩ :=
      withLineInserted_eq hheader
    refine ⟨(segments before).map Segment.piece, (segments after).map Segment.piece, ?_, ?_, ?_⟩
    · rw [outline, hraw, segments_append _ _ hclosed, map_append]
    · rw [hinserted]
      exact outline_inserted hlines hcontent hclosed
    · rw [← ruleSpans_texts _ 0, length_map, hcount]

/-- The rules of the new document are the rules of the old one with
`PAM_LINE` in front of the first `auth` rule, and every comment and blank
line is where it was. -/
theorem withLineInserted_outline (bytes : Bytes) :
    ruleTexts (withLineInserted bytes) =
        (ruleTexts bytes).take (insertionPosition bytes) ++ pamLine ::
          (ruleTexts bytes).drop (insertionPosition bytes) ∧
      ∃ first last, outline bytes = first ++ last ∧
        outline (withLineInserted bytes) = first ++ .rule pamLine :: last ∧
        (first.filterMap Piece.ruleText).length = insertionPosition bytes := by
  obtain ⟨first, last, hbefore, hafter, hcount⟩ := exists_outline_inserted bytes
  refine ⟨?_, first, last, hbefore, hafter, hcount⟩
  have hrules : ruleTexts bytes =
      first.filterMap Piece.ruleText ++ last.filterMap Piece.ruleText := by
    rw [← outline_ruleTexts, hbefore, filterMap_append]
  rw [← outline_ruleTexts, hafter, hrules, ← hcount, take_left, drop_left]
  simp [Piece.ruleText]

/-! ## Removal of whole rules -/

/-- No line with the content `PAM_LINE` follows a continued line. -/
def NotInjected (lines : List Bytes) : Prop :=
  lines.IsChain fun line next => continues line = true → lineContent next ≠ pamLine

instance (lines : List Bytes) : Decidable (NotInjected lines) :=
  inferInstanceAs (Decidable (lines.IsChain _))

theorem continues_of_ruleShape {lines} (h : RuleShape lines) :
    ∀ line ∈ lines.dropLast, continues line = true := by
  induction h with
  | last _ => simp
  | cons _ hc hshape ih => simpa [dropLast_cons_of_ne_nil hshape.ne_nil] using ⟨hc, ih⟩

theorem endsInjected_of_notInjected {lines} (hshape : RuleShape lines)
    (h : NotInjected lines) : endsInjected false lines = false := by
  have hcontinues := continues_of_ruleShape hshape
  rcases eq_nil_or_concat' lines with rfl | ⟨init, last, rfl⟩
  · rfl
  rcases eq_nil_or_concat' init with rfl | ⟨front, line, rfl⟩
  · simp [endsInjected]
  · rw [NotInjected, append_assoc] at h
    have hchain := (isChain_append.mp h).2.1
    have hne := (isChain_cons_cons.mp hchain).1 (hcontinues line (by simp))
    rw [endsInjected_concat, beq_false_of_ne hne, Bool.and_false]

/-- Where no line is injected, removal drops whole rules. -/
theorem rawLines_withLineRemoved_of_notInjected {bytes} (h : NotInjected (rawLines bytes)) :
    rawLines (withLineRemoved bytes) =
      ((segments (rawLines bytes)).filter fun seg => !seg.isFacelock).flatMap Segment.lines := by
  have hkeep : ∀ seg ∈ segments (rawLines bytes),
      keepLines seg = if seg.isFacelock then [] else seg.lines := by
    intro seg hseg
    cases hfacelock : seg.isFacelock with
    | false => simpa using keepLines_of_not_isFacelock hfacelock
    | true =>
      cases seg with
      | skip line => cases hfacelock
      | rule lines =>
        have hinside : lines <:+: rawLines bytes := by
          have hmem : lines <:+: (segments (rawLines bytes)).flatMap Segment.lines :=
            infix_of_mem_flatten (mem_map_of_mem hseg)
          rwa [segments_lines] at hmem
        have hchain : NotInjected lines := List.IsChain.infix h hinside
        have hends := endsInjected_of_notInjected (segments_wellFormed _ _ hseg) hchain
        have hnames : lines.any namesModule = true := hfacelock
        simp [keepLines, hnames, hends]
  rw [rawLines_withLineRemoved, flatMap_congr hkeep]
  generalize segments (rawLines bytes) = segs
  induction segs with
  | nil => rfl
  | cons seg segs ih =>
    rw [flatMap_cons, ih, filter_cons]
    cases seg.isFacelock <;> simp

/-- A document without the bytes of some spans. -/
def deleteSpans (rules : List LogicalRule) (bytes : Bytes) : Bytes :=
  (bytes.zipIdx.filter fun entry =>
    !rules.any fun rule => rule.start ≤ entry.2 && entry.2 < rule.stop).map Prod.fst

/-- The rules of later segments start later. -/
theorem le_start_of_mem_ruleSpans {segs offset rule}
    (h : rule ∈ ruleSpans offset segs) : offset ≤ rule.start := by
  induction segs generalizing offset with
  | nil => cases h
  | cons seg segs ih =>
    cases seg with
    | skip line => exact Nat.le_of_add_right_le (ih h)
    | rule lines =>
      rcases mem_cons.mp h with rfl | hmem
      · exact Nat.le_refl _
      · exact Nat.le_of_add_right_le (ih hmem)

/-- Deleting the spans of the facelock rules leaves the other segments. -/
theorem deleteSpans_ruleSpans (segs : List Segment) :
    ∀ offset : Nat, (∀ seg ∈ segs, seg.WellFormed ∧ IsLines newline seg.lines) →
      let rules := (ruleSpans offset segs).filter fun rule => isFacelockRule rule.bytes
      ((((segs.flatMap Segment.lines).flatten).zipIdx offset).filter fun entry =>
        !rules.any fun rule => rule.start ≤ entry.2 && entry.2 < rule.stop).map Prod.fst =
      ((segs.filter fun seg => !seg.isFacelock).flatMap Segment.lines).flatten := by
  induction segs with
  | nil => intro offset _; rfl
  | cons seg segs ih =>
    intro offset h rules
    obtain ⟨hwell, hlines⟩ := h seg (by simp)
    have hrest := ih (offset + seg.lines.flatten.length)
      fun other hmem => h other (mem_cons_of_mem _ hmem)
    have hlater : ∀ rule ∈ (ruleSpans (offset + seg.lines.flatten.length) segs).filter
        (fun rule => isFacelockRule rule.bytes), offset + seg.lines.flatten.length ≤ rule.start :=
      fun rule hrule => le_start_of_mem_ruleSpans (mem_of_mem_filter hrule)
    have hrules : rules = (if seg.isFacelock then
          [⟨offset, offset + seg.lines.flatten.length, seg.lines.flatten⟩] else []) ++
        (ruleSpans (offset + seg.lines.flatten.length) segs).filter
          fun rule => isFacelockRule rule.bytes := by
      cases seg with
      | skip line => simp [rules, ruleSpans, Segment.lines, Segment.isFacelock]
      | rule lines =>
        have hsame := isFacelockRule_flatten hwell hlines
        cases hnames : lines.any namesModule <;>
          simp [rules, ruleSpans, hsame, hnames, Segment.isFacelock, Segment.lines]
    generalize (ruleSpans (offset + seg.lines.flatten.length) segs).filter
      (fun rule => isFacelockRule rule.bytes) = later at hrest hlater hrules
    -- a span covers a byte of this segment exactly if the segment is a facelock rule
    have hown : ∀ entry ∈ seg.lines.flatten.zipIdx offset,
        (!rules.any fun rule => rule.start ≤ entry.2 && entry.2 < rule.stop) =
          !seg.isFacelock := by
      rintro ⟨byte, index⟩ hentry
      have hbounds := mem_zipIdx hentry
      have hnone : (later.any fun rule => rule.start ≤ index && index < rule.stop) = false := by
        rw [any_eq_false]
        intro rule hrule
        have hstart := hlater rule hrule
        simp only [Bool.and_eq_true, decide_eq_true_eq, not_and]
        omega
      rw [hrules, any_append, hnone]
      cases seg.isFacelock with
      | false => rfl
      | true => simp only [if_true, any_cons, hbounds.1, hbounds.2.1, decide_true]; rfl
    have hothers : ∀ entry ∈ ((segs.flatMap Segment.lines).flatten).zipIdx
          (offset + seg.lines.flatten.length),
        (!rules.any fun rule => rule.start ≤ entry.2 && entry.2 < rule.stop) =
          !later.any fun rule => rule.start ≤ entry.2 && entry.2 < rule.stop := by
      rintro ⟨byte, index⟩ hentry
      have hle := (mem_zipIdx hentry).1
      rw [hrules, any_append]
      cases seg.isFacelock with
      | false => rfl
      | true =>
        simp only [if_true, any_cons, any_nil, Nat.not_lt.mpr hle, decide_false, Bool.and_false,
          Bool.false_or]
    rw [flatMap_cons, flatten_append, zipIdx_append, filter_append, map_append,
      filter_congr hown, filter_congr hothers, hrest, filter_cons]
    cases seg.isFacelock <;> simp

theorem deleteSpans_facelockRules :
    deleteSpans ((logicalRules bytes).filter fun rule => isFacelockRule rule.bytes) bytes =
      (((segments (rawLines bytes)).filter fun seg => !seg.isFacelock).flatMap
        Segment.lines).flatten := by
  have hdelete := deleteSpans_ruleSpans (segments (rawLines bytes)) 0 (segments_sound bytes)
  rw [segments_lines, flatten_rawLines] at hdelete
  rw [deleteSpans, logicalRules_eq]
  exact hdelete

/-- The comment and blank lines of a document, with their terminators. -/
def commentLines : List Bytes :=
  (rawLines bytes).filter fun line => !isSemantic line

theorem isSemantic_of_ruleShape {lines} (h : RuleShape lines) :
    ∀ line ∈ lines, isSemantic line = true := by
  induction h with
  | last hs => simpa using hs
  | cons hs _ _ ih => simpa using ⟨hs, ih⟩

theorem filter_not_isSemantic {segs : List Segment} (hwell : ∀ seg ∈ segs, seg.WellFormed) {keep}
    (hskip : ∀ line, keep (.skip line) = true) :
    ((segs.filter keep).flatMap Segment.lines).filter (fun line => !isSemantic line) =
      (segs.flatMap Segment.lines).filter fun line => !isSemantic line := by
  induction segs with
  | nil => rfl
  | cons seg segs ih =>
    have hrest := ih fun other hmem => hwell other (mem_cons_of_mem _ hmem)
    cases seg with
    | skip line =>
      rw [filter_cons_of_pos (hskip line), flatMap_cons, flatMap_cons,
        filter_append, filter_append, hrest]
    | rule lines =>
      have hshape := isSemantic_of_ruleShape (hwell (.rule lines) (by simp))
      have hnone : lines.filter (fun line => !isSemantic line) = [] := by
        rw [filter_eq_nil_iff]
        intro line hline
        simp [hshape line hline]
      rw [filter_cons]
      split
      · rw [flatMap_cons, flatMap_cons, filter_append, filter_append, hrest]
      · rw [hrest, flatMap_cons, filter_append, Segment.lines, hnone, nil_append]

theorem ruleSpans_filter (segs : List Segment) :
    ∀ first second : Nat, (∀ seg ∈ segs, seg.WellFormed ∧ IsLines newline seg.lines) →
      (ruleSpans first (segs.filter fun seg => !seg.isFacelock)).map LogicalRule.bytes =
        ((ruleSpans second segs).filter fun rule => !isFacelockRule rule.bytes).map
          LogicalRule.bytes := by
  induction segs with
  | nil => intros; rfl
  | cons seg segs ih =>
    intro first second h
    have hrest := fun first second =>
      ih first second fun other hmem => h other (mem_cons_of_mem _ hmem)
    obtain ⟨hwell, hlines⟩ := h seg (by simp)
    cases seg with
    | skip line => exact hrest _ _
    | rule lines =>
      have hsame := isFacelockRule_flatten hwell hlines
      rw [ruleSpans, filter_cons, filter_cons]
      cases hfacelock : lines.any namesModule with
      | true => simpa [Segment.isFacelock, hsame, hfacelock] using hrest _ _
      | false => simpa [Segment.isFacelock, hsame, hfacelock, ruleSpans] using hrest _ _

/-- Where no line is injected, removal deletes the spans of the facelock
rules.  The other rules and all comment lines stay, byte for byte. -/
theorem withLineRemoved_spans (bytes : Bytes) (h : NotInjected (rawLines bytes)) :
    withLineRemoved bytes =
        deleteSpans ((logicalRules bytes).filter fun rule => isFacelockRule rule.bytes) bytes ∧
      (logicalRules (withLineRemoved bytes)).map LogicalRule.bytes =
        ((logicalRules bytes).filter fun rule => !isFacelockRule rule.bytes).map
          LogicalRule.bytes ∧
      commentLines (withLineRemoved bytes) = commentLines bytes := by
  have hraw := rawLines_withLineRemoved_of_notInjected h
  refine ⟨?_, ?_, ?_⟩
  · rw [deleteSpans_facelockRules, ← hraw, flatten_rawLines]
  · rw [logicalRules_eq, logicalRules_eq bytes, hraw, segments_filter _ fun _ => rfl]
    exact ruleSpans_filter _ 0 0 (segments_sound bytes)
  · rw [commentLines, hraw, filter_not_isSemantic (segments_wellFormed _) fun _ => rfl,
      segments_lines]
    rfl

/-- A facelock rule over two lines, with a continued rule and a comment in
front of it. -/
theorem withLineRemoved_spans_continued :
    let document :=
      ascii "auth required pam_unix.so \\\n# end\nauth \\\n pam_facelock.so x\nauth y\n"
    withLineRemoved document = ascii "auth required pam_unix.so \\\n# end\nauth y\n" ∧
      commentLines (withLineRemoved document) = [ascii "# end\n"] := by
  intro document
  have h := withLineRemoved_spans document (by decide +kernel)
  refine ⟨?_, h.2.2.trans (by decide +kernel)⟩
  exact h.1.trans (by decide +kernel)

end Facelock.Pam
