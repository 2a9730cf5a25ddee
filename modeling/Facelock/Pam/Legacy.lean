import Facelock.Pam.Removal

/-!
# Lines of older releases

Older releases put `PAM_LINE` after the first `auth` line even where that
line continues.  Such a line ends the rule it was put into, and the rest of
the rule becomes a rule of its own.  `inject` does this to any set of
continued lines, and removal undoes it.  The repair looks at the rules of
the damaged document only.  It works because an injected line is the last
line of its rule, and a rule that names the module nowhere else loses
exactly that line.

Machine-wide cleanup edits a document without a record only if every line
that names the module is spelled as Facelock spelled it.
`hasOnlyExactLegacyFacelockRules_iff` is this condition over the lines of
the document.  Under it both ways of removal come to the same: the lines
with the content `PAM_LINE` go.
-/

namespace Facelock.Pam

open Lines List

/-! ## Injected lines -/

/-- Put `PAM_LINE` after some of the lines.  `endings i` is the line ending
that it gets after line `i`. -/
def inject : (Nat → Option Bytes) → List Bytes → List Bytes
  | _, [] => []
  | endings, line :: lines =>
    line :: (((endings 0).map fun ending => pamLine ++ ending).toList ++
      inject (fun i => endings (i + 1)) lines)

/-- The injected lines follow terminated lines that continue, and have a
line ending themselves. -/
def Injectable (endings : Nat → Option Bytes) (lines : List Bytes) : Prop :=
  ∀ i ending, endings i = some ending →
    (ending = [newline] ∨ ending = [carriageReturn, newline]) ∧
      ∃ line, lines[i]? = some line ∧ continues line = true ∧ Terminated newline line

variable {endings : Nat → Option Bytes} {lines : List Bytes}

theorem Injectable.tail {line} (h : Injectable endings (line :: lines)) :
    Injectable (fun i => endings (i + 1)) lines := by
  intro i ending hending
  obtain ⟨hform, other, hother, hrest⟩ := h (i + 1) ending hending
  exact ⟨hform, other, by simpa using hother, hrest⟩

theorem isLines_inject (hlines : IsLines newline lines) (h : Injectable endings lines) :
    IsLines newline (inject endings lines) := by
  induction lines generalizing endings with
  | nil => trivial
  | cons line lines ih =>
    have hrest := ih hlines.2 h.tail
    rw [inject]
    cases hzero : endings 0 with
    | none =>
      exact ⟨hlines.1.imp_right fun h => ⟨h.1, by rw [h.2]; rfl⟩, hrest⟩
    | some ending =>
      obtain ⟨hform, other, hother, -, hterm⟩ := h 0 ending hzero
      obtain rfl : line = other := by simpa using hother
      exact ⟨.inl hterm, .inl (terminated_pamLine hform).1, hrest⟩

theorem endsInjected_true_of_false (h : endsInjected false lines = true) :
    endsInjected true lines = true := by
  rcases eq_nil_or_concat' lines with rfl | ⟨init, last, rfl⟩
  · exact h
  · simp_all [endsInjected_concat]

/-- A line that does not name the module, in front of a rule that does so at
most in its last, injected line. -/
theorem keepLines_cons {line inner} (hline : namesModule line = false)
    (hinner : inner.any namesModule = true → endsInjected false inner = true) (hne : inner ≠ []) :
    keepLines (.rule (line :: inner)) = line :: keepLines (.rule inner) := by
  obtain ⟨next, rest, rfl⟩ := exists_cons_of_ne_nil hne
  cases hnames : (next :: rest).any namesModule with
  | false => simp only [keepLines, any_cons, hline, Bool.false_or] at hnames ⊢; simp [hnames]
  | true =>
    have hends := hinner hnames
    have hcons : endsInjected false (line :: next :: rest) = true :=
      endsInjected_true_of_false hends
    have hany : (line :: next :: rest).any namesModule = true := by
      rw [any_cons, hnames, Bool.or_true]
    simp [keepLines, hends, hcons, hany, hnames]

/-- The repair of injected lines, over the lines of a document. -/
theorem flatMap_keepLines_inject (hnames : ∀ line ∈ lines, namesModule line = false)
    (h : Injectable endings lines) :
    (segments (inject endings lines)).flatMap keepLines = lines ∧
      ∀ inner rest, segments (inject endings lines) = .rule inner :: rest →
        inner.any namesModule = true → endsInjected false inner = true := by
  induction lines generalizing endings with
  | nil => exact ⟨rfl, fun inner rest hsegs => by cases hsegs⟩
  | cons line lines ih =>
    obtain ⟨hkeep, hfirst⟩ := ih (fun other hmem => hnames other (mem_cons_of_mem _ hmem))
      h.tail
    have hline := hnames line (by simp)
    rw [inject]
    cases hzero : endings 0 with
    | some ending =>
      -- the injected line ends the rule of the line in front of it
      obtain ⟨hform, other, hother, hc, -⟩ := h 0 ending hzero
      obtain rfl : line = other := by simpa using hother
      have hcontent := (terminated_pamLine hform).2
      have hends : endsInjected false [line, pamLine ++ ending] = true := by
        simp [endsInjected, hcontent]
      simp only [Option.map_some, Option.toList_some, singleton_append]
      rw [segments_of_continues (isSemantic_of_continues hc) hc, segments_of_not_continues
        (isSemantic_of_content hcontent) (continues_of_content hcontent), Segment.join,
        flatMap_cons, hkeep]
      refine ⟨by simp [keepLines, hends, hline, namesModule_of_content hcontent], ?_⟩
      rintro inner rest hinner -
      cases hinner
      exact hends
    | none =>
      simp only [Option.map_none, Option.toList_none, nil_append]
      rcases segments_cons_cases line (inject (fun i => endings (i + 1)) lines) with
        ⟨seg, hcons, hseg, hwell, -⟩ | ⟨inner, segs, -, -, hsegs, hcons⟩
      · have hnot : seg.isFacelock = false := by
          rw [Segment.isFacelock_eq hwell, hseg]
          simpa using hline
        rw [hcons]
        refine ⟨by rw [flatMap_cons, keepLines_of_not_isFacelock hnot, hseg, hkeep]; rfl, ?_⟩
        intro other tail hother hany
        cases hother
        exact absurd (hnot.symm.trans hany) Bool.false_ne_true
      · have hne := (ruleShape_of_mem _ (hsegs ▸ mem_cons_self)).ne_nil
        have hinner := hfirst inner segs hsegs
        rw [hcons]
        refine ⟨?_, ?_⟩
        · rw [flatMap_cons, keepLines_cons hline hinner hne, ← hkeep, hsegs]
          rfl
        · intro other tail hother hany
          cases hother
          rw [any_cons, hline, Bool.false_or] at hany
          obtain ⟨next, rest, rfl⟩ := exists_cons_of_ne_nil hne
          exact endsInjected_true_of_false (hinner hany)

/-- Removal undoes every injection. -/
theorem withLineRemoved_inject (bytes : Bytes) (endings : Nat → Option Bytes)
    (hrule : hasFacelockRule bytes = false) (h : Injectable endings (rawLines bytes)) :
    withLineRemoved (inject endings (rawLines bytes)).flatten = bytes := by
  have hlines := isLines_rawLines bytes
  have hflat := flatten_rawLines bytes
  have hnames : ∀ line ∈ rawLines bytes, namesModule line = false := by
    rw [hasFacelockRule_eq, any_eq_false] at hrule
    simpa using hrule
  rw [withLineRemoved_eq, rawLines, split_flatten (isLines_inject hlines h)]
  rw [(flatMap_keepLines_inject hnames h).1, hflat]

/-- Two injections into one rule, with different line endings. -/
theorem withLineRemoved_inject_twice :
    let document := ascii "auth required \\\n pam_unix.so \\\r\n try_first_pass\n"
    let endings : Nat → Option Bytes := fun
      | 0 => some [newline]
      | 1 => some [carriageReturn, newline]
      | _ => none
    (inject endings (rawLines document)).length = 5 ∧
      withLineRemoved (inject endings (rawLines document)).flatten = document := by
  intro document endings
  refine ⟨by decide +kernel, withLineRemoved_inject document endings (by decide +kernel) ?_⟩
  have hraw : rawLines document = [ascii "auth required \\\n", ascii " pam_unix.so \\\r\n",
      ascii " try_first_pass\n"] := by
    decide +kernel
  rintro (_ | _ | i) ending hending
  · cases hending
    exact ⟨.inl rfl, _, rfl, by decide, ascii "auth required \\", by decide, by decide⟩
  · cases hending
    exact ⟨.inr rfl, _, rfl, by decide, ascii " pam_unix.so \\\r", by decide, by decide⟩
  · cases hending

/-! ## Exact lines -/

/-- Every line that names the module is `PAM_LINE`. -/
def OnlyExact (lines : List Bytes) : Prop :=
  ∀ line ∈ lines, namesModule line = true → lineContent line = pamLine

/-- Behind the backslash of a continued line there are only blanks. -/
theorem skipTrailingBlanks_blank (content : Bytes) (n : Nat) :
    skipTrailingBlanks content n ≤ n ∧
      ∀ i byte, skipTrailingBlanks content n ≤ i → i < n → content[i]? = some byte →
        isBlank byte = true := by
  induction n with
  | zero => exact ⟨Nat.le_refl 0, fun i byte _ hlt => absurd hlt (Nat.not_lt_zero i)⟩
  | succ n ih =>
    rw [skipTrailingBlanks]
    split
    · rename_i last hlast
      split
      · rename_i hblank
        refine ⟨Nat.le_succ_of_le ih.1, fun i byte hle hlt hbyte => ?_⟩
        by_cases hi : i = n
        · subst hi
          rw [hlast] at hbyte
          cases hbyte
          exact hblank
        · exact ih.2 i byte hle (by omega) hbyte
      · exact ⟨Nat.le_refl _, fun i byte hle hlt => by omega⟩
    · exact ⟨Nat.le_refl _, fun i byte hle hlt => by omega⟩

theorem continuationOf_eq_some {content stop} (h : continuationOf content = some stop) :
    hash ∉ content ∧ ∃ blanks, content = content.take stop ++ backslash :: blanks ∧
      ∀ byte ∈ blanks, isBlank byte = true := by
  simp only [continuationOf] at h
  split_ifs at h with hhash hback
  obtain rfl := Option.some.inj h
  obtain ⟨hle, hblank⟩ := skipTrailingBlanks_blank content content.length
  refine ⟨by simpa using hhash, content.drop (skipTrailingBlanks content content.length), ?_, ?_⟩
  · obtain ⟨hlt, hget⟩ := List.getElem?_eq_some_iff.mp hback.2
    have hdrop := drop_eq_getElem_cons hlt
    rw [hget, Nat.sub_add_cancel hback.1] at hdrop
    rw [← hdrop, take_append_drop]
  · intro byte hbyte
    obtain ⟨i, hi⟩ := mem_iff_getElem?.mp hbyte
    rw [getElem?_drop] at hi
    have hlt : skipTrailingBlanks content content.length + i < content.length :=
      (List.getElem?_eq_some_iff.mp hi).1
    exact hblank _ byte (Nat.le_add_right _ _) hlt hi

/-- The licence looks at the semantic part of a line, removal at what the
line adds to its rule.  For the name of the module this is the same. -/
theorem hasWindow_semanticOf (line : Bytes) :
    hasWindow moduleName (semanticOf (lineContent line)) = namesModule line := by
  rw [namesModule, linePayload, payloadOf]
  cases hcont : continuationOf (lineContent line) with
  | none => rfl
  | some stop =>
    obtain ⟨hhash, blanks, hcontent, hblanks⟩ := continuationOf_eq_some hcont
    have hspace : space ∉ moduleName := by decide
    have hback : backslash ∉ moduleName := by decide
    have hnil : ¬ moduleName <:+: [] := by simp [moduleName, ascii]
    rw [semanticOf_of_notMem hhash, Bool.eq_iff_iff, hasWindow_iff, hasWindow_iff,
      infix_append_cons_of_notMem hspace, or_iff_left hnil]
    conv_lhs => rw [hcontent]
    rw [infix_append_cons_of_notMem hback, or_iff_left (not_infix_of_isBlank blanks hblanks)]

theorem sawExactLine_eq :
    ∀ (before after : Bytes) (rest : List Bytes) (fuel : Nat) (sawExact : Bool),
      after = rest.flatten → IsLines newline (lines ++ rest) → lines.length ≤ fuel →
      sawExactLine (before ++ lines.flatten ++ after) (before.length + lines.flatten.length) fuel
          before.length sawExact =
        if lines.all (fun line => !namesModule line || lineContent line == pamLine) then
          some (sawExact || lines.any namesModule)
        else none := by
  induction lines with
  | nil =>
    rintro before after rest fuel sawExact - - -
    cases fuel <;> simp [sawExactLine]
  | cons line lines ih =>
    rintro before _ rest fuel sawExact rfl hlines hfuel
    obtain _ | fuel := fuel
    · simp at hfuel
    have hpos : 0 < line.length := length_pos_iff.mpr (IsLines.ne_nil hlines)
    have hat : PhysicalLine.at (before ++ (line :: lines).flatten ++ rest.flatten) before.length =
        some (physicalLine before line (lines ++ rest).flatten) := by
      have := PhysicalLine.at_line before hlines
      simpa using this
    have hih := fun sawExact => ih (before ++ line) _ rest fuel sawExact rfl hlines.2
      (by simpa using hfuel)
    have hend : before.length + (line :: lines).flatten.length =
        (before ++ line).length + lines.flatten.length := by simp [Nat.add_assoc]
    have hbytes : before ++ (line :: lines).flatten ++ rest.flatten =
        before ++ line ++ lines.flatten ++ rest.flatten := by simp
    rw [sawExactLine, if_pos (by simp; omega), hat]
    simp only [physicalLine_semantic, hasWindow_semanticOf, physicalLine_content, physicalLine_stop]
    rw [hend, hbytes, hih, hih, all_cons, any_cons]
    cases hnames : namesModule line with
    | false => simp
    | true =>
      by_cases hcontent : lineContent line = pamLine
      · simp [hcontent]
      · simp [hcontent]

theorem sawExactLine_rule (before : Bytes) (rest : List Bytes)
    (hlines : IsLines newline (lines ++ rest)) (hnames : lines.any namesModule = true) :
    sawExactLine (before ++ lines.flatten ++ rest.flatten) (before.length + lines.flatten.length)
      (before ++ lines.flatten ++ rest.flatten).length before.length false = some true ↔
        OnlyExact lines := by
  have hinner : IsLines newline lines := hlines.sublist (sublist_append_left _ _)
  have hfuel : lines.length ≤ (before ++ lines.flatten ++ rest.flatten).length := by
    have := hinner.length_le
    simp only [length_append]
    omega
  rw [sawExactLine_eq before _ rest _ false rfl hlines hfuel, hnames, Bool.or_true]
  simp [OnlyExact]

theorem onlyExact_append (first last : List Bytes) :
    OnlyExact (first ++ last) ↔ OnlyExact first ∧ OnlyExact last :=
  forall_mem_append

theorem onlyExact_of_any_eq_false (h : lines.any namesModule = false) : OnlyExact lines :=
  fun line hline hname => absurd hname (any_eq_false.mp h line hline)

/-- The `for` loop over the rules of the remaining segments. -/
theorem onlyExactRules_ruleSpans (segs : List Segment) :
    ∀ (before : Bytes) (found : Bool), (∀ seg ∈ segs, seg.WellFormed) →
      IsLines newline (segs.flatMap Segment.lines) →
      (onlyExactRules (before ++ (segs.flatMap Segment.lines).flatten)
          (ruleSpans before.length segs) found = true ↔
        (found = true ∨ (segs.flatMap Segment.lines).any namesModule = true) ∧
          OnlyExact (segs.flatMap Segment.lines)) := by
  induction segs with
  | nil =>
    intro before found _ _
    simp [ruleSpans, onlyExactRules, OnlyExact]
  | cons seg segs ih =>
    intro before found hwell hlines
    obtain ⟨hseg, hwell'⟩ := forall_mem_cons.mp hwell
    rw [flatMap_cons] at hlines ⊢
    have hih := fun found => ih (before ++ seg.lines.flatten) found hwell'
      (hlines.sublist (sublist_append_right _ _))
    rw [length_append] at hih
    rw [flatten_append, ← append_assoc, any_append, onlyExact_append]
    cases seg with
    | skip line =>
      have hline : [line].any namesModule = false := by simp [namesModule_of_not_semantic hseg]
      have hlength : line.length = [line].flatten.length := by simp
      simp only [Segment.lines] at hih ⊢
      rw [ruleSpans, hlength, hih, hline, Bool.false_or]
      simp [onlyExact_of_any_eq_false hline]
    | rule lines =>
      have hinner : IsLines newline lines := hlines.sublist (sublist_append_left _ _)
      simp only [Segment.lines] at hih hlines ⊢
      rw [ruleSpans, onlyExactRules, isFacelockRule_flatten hseg hinner]
      cases hnames : lines.any namesModule with
      | true =>
        have hrule := sawExactLine_rule before _ hlines hnames
        simp only [if_true, Bool.true_or, or_true, true_and]
        by_cases hexact : OnlyExact lines
        · rw [hrule.mpr hexact]
          simp only [hih, true_or, true_and, hexact]
        · have hnot := hrule.not.mpr hexact
          simp only [hexact, false_and, iff_false]
          exact Bool.false_ne_true
      | false =>
        simp only [Bool.false_eq_true, if_false, Bool.false_or, hih,
          onlyExact_of_any_eq_false hnames, true_and]

/-- The licence: there is a facelock rule, and every line that names the
module is `PAM_LINE`. -/
theorem hasOnlyExactLegacyFacelockRules_iff (bytes : Bytes) :
    hasOnlyExactLegacyFacelockRules bytes = true ↔
      hasFacelockRule bytes = true ∧ OnlyExact (rawLines bytes) := by
  have hloop := onlyExactRules_ruleSpans (segments (rawLines bytes)) [] false
    (segments_wellFormed _) (by rw [segments_lines]; exact isLines_rawLines bytes)
  rw [nil_append, segments_lines, flatten_rawLines, length_nil, ← logicalRules_eq] at hloop
  rw [hasOnlyExactLegacyFacelockRules, hloop, hasFacelockRule_eq]
  simp

/-- In a rule only the last line can be `PAM_LINE`. -/
theorem content_ne_of_ruleShape (h : RuleShape lines) :
    ∀ line ∈ lines.dropLast, lineContent line ≠ pamLine := by
  induction h with
  | last _ => simp
  | @cons line lines _ hc hshape ih =>
    rw [dropLast_cons_of_ne_nil hshape.ne_nil, forall_mem_cons]
    refine ⟨fun hcontent => ?_, ih⟩
    rw [continues_of_content hcontent] at hc
    cases hc

theorem endsInjected_of_last (hne : lines ≠ []) {last} (hlast : lineContent last = pamLine) :
    endsInjected false (lines ++ [last]) = true := by
  simp [endsInjected_concat, hne, hlast]

/-- Under the licence removal takes the exact lines of a segment. -/
theorem keepLines_of_onlyExact {seg} (hwell : seg.WellFormed) (hexact : OnlyExact seg.lines) :
    keepLines seg = seg.lines.filter fun line => lineContent line != pamLine := by
  have hnone : ∀ {lines : List Bytes}, (∀ line ∈ lines, lineContent line ≠ pamLine) →
      lines.filter (fun line => lineContent line != pamLine) = lines := by
    intro lines h
    simpa using h
  cases hfacelock : seg.isFacelock with
  | false =>
    rw [keepLines_of_not_isFacelock hfacelock, hnone]
    intro line hline hcontent
    rw [Segment.isFacelock_eq hwell, any_eq_false] at hfacelock
    exact hfacelock line hline (namesModule_of_content hcontent)
  | true =>
    cases seg with
    | skip line => cases hfacelock
    | rule lines =>
      -- the line that names the module is the last one
      have hnames : lines.any namesModule = true := hfacelock
      obtain ⟨line, hline, hname⟩ := any_eq_true.mp hnames
      have hcontent := hexact line hline hname
      have hinit := content_ne_of_ruleShape hwell
      rcases eq_nil_or_concat' lines with rfl | ⟨init, last, rfl⟩
      · cases hline
      rw [dropLast_concat] at hinit
      have hlast : lineContent last = pamLine := by
        rcases mem_append.mp hline with hmem | hmem
        · exact absurd hcontent (hinit line hmem)
        · rwa [← mem_singleton.mp hmem]
      have hfilter : (init ++ [last]).filter (fun line => lineContent line != pamLine) = init := by
        rw [filter_append, hnone hinit]
        simp [hlast]
      rw [Segment.lines, hfilter, keepLines, if_pos hnames, dropLast_concat]
      by_cases hne : init = []
      · subst hne
        simp [endsInjected]
      · rw [if_pos (endsInjected_of_last hne hlast)]

/-- Under the licence exactly the lines `PAM_LINE` go, and no facelock rule
is left. -/
theorem withLineRemoved_exact (bytes : Bytes) (h : hasOnlyExactLegacyFacelockRules bytes = true) :
    withLineRemoved bytes =
        ((rawLines bytes).filter fun line => lineContent line != pamLine).flatten ∧
      hasFacelockRule (withLineRemoved bytes) = false := by
  obtain ⟨-, hexact⟩ := (hasOnlyExactLegacyFacelockRules_iff bytes).mp h
  have hkeep : (segments (rawLines bytes)).flatMap keepLines =
      (rawLines bytes).filter fun line => lineContent line != pamLine := by
    conv_rhs => rw [← segments_lines (rawLines bytes), filter_flatMap]
    refine flatMap_congr fun seg hseg => ?_
    refine keepLines_of_onlyExact (segments_wellFormed _ seg hseg) fun line hline => ?_
    refine hexact line ?_
    rw [← segments_lines (rawLines bytes)]
    exact mem_flatMap.mpr ⟨seg, hseg, hline⟩
  refine ⟨by rw [withLineRemoved_eq, hkeep], ?_⟩
  rw [hasFacelockRule_eq, rawLines_withLineRemoved, hkeep, any_eq_false]
  intro line hline hname
  obtain ⟨hmem, hcontent⟩ := mem_filter.mp hline
  rw [hexact line hmem hname] at hcontent
  simp at hcontent

/-- An exact line of its own, and one after a continued line. -/
theorem withLineRemoved_exact_twice :
    let document := pamLine ++ ascii "\nauth required \\\n" ++ pamLine ++ ascii "\n pam_unix.so\n"
    hasOnlyExactLegacyFacelockRules document = true ∧
      withLineRemoved document = ascii "auth required \\\n pam_unix.so\n" := by
  intro document
  have hlicence : hasOnlyExactLegacyFacelockRules document = true := by decide +kernel
  exact ⟨hlicence, (withLineRemoved_exact document hlicence).1.trans (by decide +kernel)⟩

end Facelock.Pam
