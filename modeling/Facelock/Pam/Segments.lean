import Facelock.Pam.Document

/-!
# Documents as lists of lines

`Facelock.Pam.Document` follows the offsets of the source.  This module
replaces them by a recursion over raw lines, that is, over the pieces of
`Lines.split newline`.

* `lineContent`, `linePayload`, `isSemantic` and `continues` are the
  fields of a `PhysicalLine` as functions of the raw line, and
  `PhysicalLine.at_line` says that the scan at the start of a line finds
  exactly that line.
* `segments` groups the lines of a document into lines that belong to no
  rule and into logical rules.  `logicalRules_eq` says that the iterator
  yields the rules of `segments` with their offsets, so its fuel is
  enough.
* `hasFacelockRule_eq` says that a document has a facelock rule exactly
  when one of its raw lines names the module.

The later modules on insertion and removal use only these equations.
-/

namespace Facelock.Pam

open Lines List

/-! ## The parts of a raw line -/

variable (bytes : Bytes)

/-- The raw lines of a document, each with its terminator. -/
def rawLines : List Bytes :=
  Lines.split newline bytes

theorem isLines_rawLines : IsLines newline (rawLines bytes) :=
  isLines_split _ _

theorem flatten_rawLines : (rawLines bytes).flatten = bytes :=
  flatten_split _ _

variable (line : Bytes)

/-- A raw line without its terminator. -/
def lineContent : Bytes :=
  if line.getLast? = some newline then
    if line.dropLast.getLast? = some carriageReturn then line.dropLast.dropLast
    else line.dropLast
  else line

def isSemantic : Bool :=
  (semanticOf (lineContent line)).any fun byte => !isBlank byte

def continues : Bool :=
  (continuationOf (lineContent line)).isSome

/-- What one line adds to `semantic_rule`. -/
def linePayload : Bytes :=
  payloadOf (lineContent line)

def namesModule : Bool :=
  hasWindow moduleName (linePayload line)

/-- The physical line that starts after `before`. -/
def physicalLine (before line after : Bytes) : PhysicalLine :=
  { bytes := before ++ line ++ after
    start := before.length
    stop := before.length + line.length
    contentEnd := before.length + (lineContent line).length }

/-- The content is the raw line up to its terminator. -/
theorem lineContent_prefix : lineContent line <+: line := by
  unfold lineContent
  split_ifs
  · exact ( dropLast_prefix _).trans ( dropLast_prefix _)
  · exact dropLast_prefix _
  · exact prefix_rfl

theorem physicalLine_content (before line after : Bytes) :
    (physicalLine before line after).content = lineContent line := by
  obtain ⟨rest, hrest⟩ := lineContent_prefix line
  simp only [physicalLine, PhysicalLine.content, slice, append_assoc, drop_left,
    Nat.add_sub_cancel_left]
  conv_lhs => rw [← hrest]
  rw [append_assoc, hrest, take_left]

theorem physicalLine_semantic (before line after : Bytes) :
    (physicalLine before line after).semantic = semanticOf (lineContent line) := by
  rw [PhysicalLine.semantic, physicalLine_content]

theorem physicalLine_hasSemanticContent (before line after : Bytes) :
    (physicalLine before line after).hasSemanticContent = isSemantic line := by
  rw [PhysicalLine.hasSemanticContent, physicalLine_semantic, isSemantic]

theorem physicalLine_continuationBackslash (before line after : Bytes) :
    (physicalLine before line after).continuationBackslash =
      continuationOf (lineContent line) := by
  rw [PhysicalLine.continuationBackslash, physicalLine_content]

theorem physicalLine_stop (before line after : Bytes) :
    (physicalLine before line after).stop = (before ++ line).length :=
  length_append.symm

/-! ## The scan for a physical line -/

theorem PhysicalLine.at_length : PhysicalLine.at bytes bytes.length = none := by
  simp [PhysicalLine.at]

theorem PhysicalLine.at_line (before : Bytes) {line lines} (h : IsLines newline (line :: lines)) :
    PhysicalLine.at (before ++ line ++ lines.flatten) before.length =
      some (physicalLine before line lines.flatten) := by
  have hpos : 0 < line.length := length_pos_iff.mpr h.ne_nil
  have hlen : ¬ (before ++ line ++ lines.flatten).length ≤ before.length := by
    simp only [length_append]
    omega
  rw [PhysicalLine.at, if_neg hlen]
  rcases h.1 with ⟨body, hbody, rfl⟩ | ⟨ho, rfl⟩
  · have hidx := findIdx?_terminated_append ⟨body, hbody, rfl⟩ lines.flatten
    rw [append_assoc, drop_left, hidx]
    rcases eq_nil_or_concat' body with rfl | ⟨init, byte, rfl⟩
    · simp [physicalLine, lineContent]
    · by_cases h : byte = carriageReturn
      · simp [physicalLine, lineContent, h]
        omega
      · simp [physicalLine, lineContent, h]
        omega
  · have hidx := findIdx?_unterminated ho
    have hlast : (before ++ line)[(before ++ line).length - 1]? ≠ some newline := by
      intro hnl
      rw [getElem?_append_right (by simp; omega)] at hnl
      exact ho.2 (mem_of_getElem? hnl)
    have hcontent : lineContent line = line := by
      rw [lineContent, if_neg fun hnl => ho.2 (mem_of_getLast? hnl)]
    simp only [flatten_nil, append_nil, drop_left, hidx, if_neg hlast]
    simp [physicalLine, hcontent]

/-! ## Segments -/

/-- A line outside every rule, or the lines of one logical rule. -/
inductive Segment where
  | skip (line : Bytes)
  | rule (lines : List Bytes)
  deriving DecidableEq, Repr

def Segment.lines : Segment → List Bytes
  | .skip line => [line]
  | .rule lines => lines

/-- Put a continued line in front of the segments that follow it.  It
joins a rule that starts right after it, and is a rule of its own
otherwise. -/
def Segment.join : List Segment → List Segment
  | .rule lines :: rest => .rule (line :: lines) :: rest
  | rest => .rule [line] :: rest

/-- The grouping of lines into logical rules.  The recursion is from the
right: a rule that starts at a line with semantic content is the same
rule whether or not the line before it continues into it. -/
def segments : List Bytes → List Segment
  | [] => []
  | line :: lines =>
    if isSemantic line then
      if continues line then Segment.join line (segments lines)
      else .rule [line] :: segments lines
    else .skip line :: segments lines

/-- The shape of a logical rule: every line has semantic content, and
every line but the last continues. -/
inductive RuleShape : List Bytes → Prop
  | last {line : Bytes} (hs : isSemantic line = true) : RuleShape [line]
  | cons {line : Bytes} {lines : List Bytes} (hs : isSemantic line = true)
      (hc : continues line = true) (h : RuleShape lines) : RuleShape (line :: lines)

/-- Segments are well formed: a skipped line has no semantic content and
the lines of a rule have the shape of a rule. -/
def Segment.WellFormed : Segment → Prop
  | .skip line => isSemantic line = false
  | .rule lines => RuleShape lines

theorem RuleShape.ne_nil {lines} (h : RuleShape lines) : lines ≠ [] := by
  cases h <;> simp

/-- The lines of the logical rules of a document. -/
def ruleLines : List (List Bytes) :=
  (segments (rawLines bytes)).filterMap fun
    | .skip _ => none
    | .rule lines => some lines

theorem segments_of_not_semantic {line} (h : isSemantic line = false)
    (lines : List Bytes) : segments (line :: lines) = .skip line :: segments lines := by
  simp [segments, h]

theorem segments_of_not_continues {line} (hs : isSemantic line = true) (hc : continues line = false)
    (lines : List Bytes) : segments (line :: lines) = .rule [line] :: segments lines := by
  simp [segments, hs, hc]

theorem segments_of_continues {line} (hs : isSemantic line = true) (hc : continues line = true)
    (lines : List Bytes) : segments (line :: lines) = Segment.join line (segments lines) := by
  simp [segments, hs, hc]

theorem semanticOf_of_notMem {content} (h : hash ∉ content) : semanticOf content = content := by
  have hnone : content.findIdx? (· == hash) = none := by
    rw [findIdx?_eq_none_iff]
    intro byte hbyte
    have hne : byte ≠ hash := fun e => h (e ▸ hbyte)
    simpa using hne
  rw [semanticOf, hnone]

theorem isSemantic_of_continues {line} (h : continues line = true) : isSemantic line = true := by
  obtain ⟨stop, hstop⟩ := Option.isSome_iff_exists.mp h
  simp only [continuationOf] at hstop
  split_ifs at hstop with hhash hback
  rw [isSemantic, semanticOf_of_notMem (by simpa using hhash)]
  exact any_eq_true.mpr ⟨backslash, mem_of_getElem? hback.2, by decide⟩

theorem Segment.join_cases (segs : List Segment) :
    (∃ lines rest, segs = .rule lines :: rest ∧
        Segment.join line segs = .rule (line :: lines) :: rest) ∨
      (∀ lines rest, segs ≠ .rule lines :: rest) ∧
        Segment.join line segs = .rule [line] :: segs := by
  rcases segs with _ | ⟨seg, rest⟩
  · exact Or.inr ⟨by simp, rfl⟩
  · cases seg with
    | skip other => exact Or.inr ⟨by simp, rfl⟩
    | rule lines => exact Or.inl ⟨lines, rest, rfl, rfl⟩

variable (lines : List Bytes)

/-- The first line is a segment of its own, or joins the rule after it. -/
theorem segments_cons_cases :
    (∃ seg, segments (line :: lines) = seg :: segments lines ∧ seg.lines = [line] ∧
        seg.WellFormed ∧
        (continues line = true → ∀ inner segs, segments lines ≠ .rule inner :: segs)) ∨
      ∃ inner segs, isSemantic line = true ∧ continues line = true ∧
        segments lines = .rule inner :: segs ∧
        segments (line :: lines) = .rule (line :: inner) :: segs := by
  by_cases hs : isSemantic line = true
  · by_cases hc : continues line = true
    · rw [segments_of_continues hs hc]
      rcases Segment.join_cases line (segments lines) with ⟨inner, segs, hsegs, hj⟩ | ⟨hno, hj⟩
      · exact .inr ⟨inner, segs, hs, hc, hsegs, hj⟩
      · exact .inl ⟨_, hj, rfl, .last hs, fun _ => hno⟩
    · exact .inl ⟨_, segments_of_not_continues hs (by simpa using hc) lines, rfl, .last hs,
        fun h => absurd h hc⟩
  · have hs' : isSemantic line = false := by simpa using hs
    exact .inl ⟨_, segments_of_not_semantic hs' lines, rfl, hs',
      fun h => absurd (isSemantic_of_continues h) hs⟩

theorem segments_lines : (segments lines).flatMap Segment.lines = lines := by
  induction lines with
  | nil => rfl
  | cons line lines ih =>
    rcases segments_cons_cases line lines with ⟨seg, h, hseg, -⟩ | ⟨inner, segs, -, -, hsegs, h⟩
    · rw [h, flatMap_cons, hseg, ih]
      rfl
    · rw [hsegs] at ih
      rw [h]
      exact congrArg (line :: ·) ih

/-- What follows the first segment is the grouping of the lines after
it. -/
theorem segments_eq_cons {lines seg segs} (h : segments lines = seg :: segs) :
    ∃ rest, lines = seg.lines ++ rest ∧ segs = segments rest := by
  induction lines generalizing seg segs with
  | nil => simp [segments] at h
  | cons line lines ih =>
    rcases segments_cons_cases line lines with
      ⟨first, hcons, hfirst, -⟩ | ⟨inner, tail, -, -, htail, hcons⟩
    · rw [hcons] at h
      obtain ⟨rfl, rfl⟩ := List.cons.inj h
      exact ⟨lines, by rw [hfirst]; rfl, rfl⟩
    · rw [hcons] at h
      obtain ⟨rfl, rfl⟩ := List.cons.inj h
      obtain ⟨rest, hrest, hsegs⟩ := ih htail
      exact ⟨rest, congrArg (line :: ·) hrest, hsegs⟩

theorem segments_semantic_cons {line} (hs : isSemantic line = true) (lines : List Bytes) :
    ∃ inner segs, segments (line :: lines) = .rule inner :: segs := by
  by_cases hc : continues line = true
  · rw [segments_of_continues hs hc]
    rcases Segment.join_cases line (segments lines) with ⟨inner, rest, -, hj⟩ | ⟨-, hj⟩
    · exact ⟨_, _, hj⟩
    · exact ⟨_, _, hj⟩
  · rw [segments_of_not_continues hs (by simpa using hc)]
    exact ⟨_, _, rfl⟩

theorem segments_wellFormed : ∀ seg ∈ segments lines, seg.WellFormed := by
  induction lines with
  | nil => simp [segments]
  | cons line lines ih =>
    rcases segments_cons_cases line lines with
      ⟨seg, h, -, hseg, -⟩ | ⟨inner, segs, hs, hc, hsegs, h⟩
    · rw [h]
      exact forall_mem_cons.mpr ⟨hseg, ih⟩
    · rw [hsegs, forall_mem_cons] at ih
      rw [h]
      exact forall_mem_cons.mpr ⟨RuleShape.cons hs hc ih.1, ih.2⟩

theorem Segment.WellFormed.ne_nil {seg : Segment} (h : seg.WellFormed) : seg.lines ≠ [] := by
  cases seg with
  | skip line => simp [Segment.lines]
  | rule lines => exact RuleShape.ne_nil h

theorem ruleShape_of_mem {inner} (h : .rule inner ∈ segments lines) : RuleShape inner :=
  segments_wellFormed lines _ h

/-! ## The iterator -/

/-- The rules of a list of segments, with offsets that start at
`offset`. -/
def ruleSpans (offset : Nat) : List Segment → List LogicalRule
  | [] => []
  | .skip line :: segs => ruleSpans (offset + line.length) segs
  | .rule lines :: segs =>
    { start := offset, stop := offset + lines.flatten.length, bytes := lines.flatten } ::
      ruleSpans (offset + lines.flatten.length) segs

/-- A rule ends at a line that no rule continues. -/
theorem lastRuleLine_self (before : Bytes) {line lines} (hlines : IsLines newline (line :: lines))
    (fuel : Nat) (h : continues line = true → ∀ inner segs, segments lines ≠ .rule inner :: segs) :
    lastRuleLine (before ++ line ++ lines.flatten) fuel (physicalLine before line lines.flatten) =
      physicalLine before line lines.flatten := by
  cases fuel with
  | zero => rfl
  | succ fuel =>
    rw [lastRuleLine, physicalLine_continuationBackslash, physicalLine_stop]
    split_ifs with hend
    · rfl
    cases lines with
    | nil => exact absurd (.inr (by simp)) hend
    | cons next lines =>
      have hc : continues line = true := by
        simpa [continues, Option.isSome_iff_ne_none] using fun hc => hend (.inl hc)
      have hnext : isSemantic next = false := by
        by_contra hnext
        obtain ⟨inner, segs, hsegs⟩ := segments_semantic_cons (by simpa using hnext) lines
        exact h hc inner segs hsegs
      rw [flatten_cons, ← append_assoc, PhysicalLine.at_line (before ++ line) hlines.2]
      simp [physicalLine_hasSemanticContent, hnext]

/-- The rule of a line ends where its first segment ends. -/
theorem lastRuleLine_stop :
    ∀ (before line : Bytes) (inner : List Bytes) (segs : List Segment) (fuel : Nat),
      IsLines newline (line :: lines) → lines.length ≤ fuel →
      segments (line :: lines) = .rule inner :: segs →
      (lastRuleLine (before ++ line ++ lines.flatten) fuel
          (physicalLine before line lines.flatten)).stop =
        before.length + inner.flatten.length := by
  induction lines with
  | nil =>
    intro before line inner segs fuel hlines _ hrule
    obtain rfl : inner = [line] := by
      rw [segments] at hrule
      split_ifs at hrule <;> simp_all [segments, Segment.join]
    rw [lastRuleLine_self before hlines fuel (by simp [segments]), physicalLine_stop]
    simp
  | cons next lines ih =>
    intro before line inner segs fuel hlines hfuel hrule
    rcases segments_cons_cases line (next :: lines) with
      ⟨seg, hcons, hseg, -, hno⟩ | ⟨inner', segs', -, hc, hsegs, hcons⟩
    · rw [hcons] at hrule
      obtain ⟨rfl, -⟩ := List.cons.inj hrule
      obtain rfl : inner = [line] := hseg
      rw [lastRuleLine_self before hlines fuel hno, physicalLine_stop]
      simp
    · rw [hcons] at hrule
      obtain ⟨hinner, -⟩ := List.cons.inj hrule
      obtain rfl := Segment.rule.inj hinner
      obtain _ | fuel := fuel
      · simp at hfuel
      have hn : isSemantic next = true := by
        by_contra hn
        rw [segments_of_not_semantic (by simpa using hn)] at hsegs
        cases hsegs
      have hpos : 0 < next.length := length_pos_iff.mpr (IsLines.ne_nil hlines.2)
      have hgoes : ¬ ((continuationOf (lineContent line)).isNone = true ∨
          (before ++ line).length = (before ++ line ++ (next :: lines).flatten).length) := by
        rintro (h | h)
        · simp [continues, Option.isNone_iff_eq_none.mp h] at hc
        · simp only [flatten_cons, length_append] at h
          omega
      rw [lastRuleLine, physicalLine_continuationBackslash, physicalLine_stop, if_neg hgoes,
        flatten_cons, ← append_assoc, PhysicalLine.at_line (before ++ line) hlines.2]
      simp only [physicalLine_hasSemanticContent, hn, Bool.not_true, Bool.false_eq_true, if_false]
      rw [ih (before ++ line) next inner' segs' fuel hlines.2 (by simpa using hfuel) hsegs]
      simp [Nat.add_assoc]

theorem ruleSpans_skip (offset : Nat) (line : Bytes) (segs : List Segment) :
    ruleSpans offset (.skip line :: segs) = ruleSpans (offset + line.length) segs := rfl

/-- The scan for the first rule skips the lines of the first segments. -/
theorem firstRuleLine_eq :
    ∀ (before : Bytes) (fuel : Nat), IsLines newline lines → lines.length ≤ fuel →
      (firstRuleLine (before ++ lines.flatten) fuel before.length = none ∧
          ∀ offset, ruleSpans offset (segments lines) = []) ∨
        ∃ skipped line rest, lines = skipped ++ line :: rest ∧ isSemantic line = true ∧
          firstRuleLine (before ++ lines.flatten) fuel before.length =
            some (physicalLine (before ++ skipped.flatten) line rest.flatten) ∧
          ∀ offset, ruleSpans offset (segments lines) =
            ruleSpans (offset + skipped.flatten.length) (segments (line :: rest)) := by
  induction lines with
  | nil =>
    intro before fuel _ _
    refine Or.inl ⟨?_, fun _ => rfl⟩
    cases fuel with
    | zero => rfl
    | succ fuel => simp [firstRuleLine, PhysicalLine.at_length]
  | cons line lines ih =>
    intro before fuel hlines hfuel
    obtain _ | fuel := fuel
    · simp at hfuel
    have hat := PhysicalLine.at_line before hlines
    rw [flatten_cons, ← append_assoc, firstRuleLine, hat]
    simp only [physicalLine_hasSemanticContent]
    by_cases hs : isSemantic line = true
    · refine Or.inr ⟨[], line, lines, rfl, hs, ?_, fun _ => by simp⟩
      simp [hs]
    · have hs' : isSemantic line = false := by simpa using hs
      rw [hs', physicalLine_stop, segments_of_not_semantic hs']
      simp only [Bool.false_eq_true, if_false, ruleSpans_skip]
      rcases ih (before ++ line) fuel hlines.2 (by simpa using hfuel) with
        ⟨hnone, hspans⟩ | ⟨skipped, first, rest, hsplit, hfirst, hsome, hspans⟩
      · exact Or.inl ⟨hnone, fun offset => hspans _⟩
      · refine Or.inr ⟨line :: skipped, first, rest, by rw [hsplit]; rfl, hfirst, ?_, ?_⟩
        · rw [hsome]
          simp
        · intro offset
          rw [hspans]
          simp [Nat.add_assoc]

theorem nextLogicalRule_eq (before : Bytes) {lines} (h : IsLines newline lines) :
    (nextLogicalRule (before ++ lines.flatten) before.length = none ∧
        ∀ offset, ruleSpans offset (segments lines) = []) ∨
      ∃ skipped inner rest, lines = skipped ++ inner ++ rest ∧ inner ≠ [] ∧
        nextLogicalRule (before ++ lines.flatten) before.length =
          some { start := (before ++ skipped.flatten).length
                 stop := (before ++ skipped.flatten ++ inner.flatten).length
                 bytes := inner.flatten } ∧
        ∀ offset, ruleSpans offset (segments lines) =
          { start := offset + skipped.flatten.length
            stop := offset + skipped.flatten.length + inner.flatten.length
            bytes := inner.flatten } ::
              ruleSpans (offset + skipped.flatten.length + inner.flatten.length)
                (segments rest) := by
  have hfuel : lines.length ≤ (before ++ lines.flatten).length := by
    have := h.length_le
    simp only [length_append]
    omega
  rcases firstRuleLine_eq lines before _ h hfuel with
    ⟨hnone, hspans⟩ | ⟨skipped, line, rest, rfl, hs, hsome, hspans⟩
  · exact Or.inl ⟨by rw [nextLogicalRule, hnone], hspans⟩
  · obtain ⟨inner, segs, hseg⟩ := segments_semantic_cons hs rest
    obtain ⟨rest', hrest', hsegs⟩ := segments_eq_cons hseg
    have hlines : IsLines newline (line :: rest) := h.sublist (sublist_append_right _ _)
    have hinner : inner ≠ [] := (ruleShape_of_mem (line :: rest) (by rw [hseg]; simp)).ne_nil
    have hbytes : before ++ (skipped ++ line :: rest).flatten =
        before ++ skipped.flatten ++ line ++ rest.flatten := by simp
    have hstop := lastRuleLine_stop rest (before ++ skipped.flatten) line inner segs
      (before ++ (skipped ++ line :: rest).flatten).length hlines
      (by
        have := hlines.length_le
        simp only [length_append, flatten_append, length_cons] at this ⊢
        omega) hseg
    simp only [Segment.lines] at hrest'
    refine Or.inr ⟨skipped, inner, rest', by rw [hrest', append_assoc], hinner, ?_, ?_⟩
    · rw [nextLogicalRule, hsome]
      have hrule : before ++ (skipped ++ line :: rest).flatten =
          before ++ skipped.flatten ++ inner.flatten ++ rest'.flatten := by
        rw [hrest']
        simp
      rw [← hbytes] at hstop
      simp only [hstop]
      simp only [physicalLine, Option.some.injEq, LogicalRule.mk.injEq, true_and]
      refine ⟨length_append.symm, ?_⟩
      rw [slice, hrule, append_assoc (before ++ skipped.flatten), drop_left,
        Nat.add_sub_cancel_left, take_left]
    · intro offset
      rw [hspans, hseg, ruleSpans, hsegs]

theorem logicalRulesFrom_eq (fuel : Nat) :
    ∀ (before : Bytes) (lines : List Bytes), IsLines newline lines → lines.length ≤ fuel →
      logicalRulesFrom (before ++ lines.flatten) fuel before.length =
        ruleSpans before.length (segments lines) := by
  induction fuel with
  | zero =>
    intro before lines _ hfuel
    have : lines = [] := length_eq_zero_iff.mp (by omega)
    subst this
    rfl
  | succ fuel ih =>
    intro before lines hlines hfuel
    rw [logicalRulesFrom]
    rcases nextLogicalRule_eq before hlines with
      ⟨hnone, hspans⟩ | ⟨skipped, inner, rest, rfl, hne, hsome, hspans⟩
    · rw [hnone, hspans]
    · have hrest : IsLines newline rest := hlines.sublist (sublist_append_right _ _)
      have hpos : 0 < inner.length := length_pos_iff.mpr hne
      have hih := ih (before ++ skipped.flatten ++ inner.flatten) rest hrest (by
        simp only [length_append] at hfuel
        omega)
      have hbytes : before ++ (skipped ++ inner ++ rest).flatten =
          before ++ skipped.flatten ++ inner.flatten ++ rest.flatten := by simp
      rw [hsome, hspans]
      simp only
      rw [hbytes, hih]
      simp [Nat.add_assoc]

theorem logicalRules_eq : logicalRules bytes = ruleSpans 0 (segments (rawLines bytes)) := by
  have hlines := isLines_rawLines bytes
  have hfuel := hlines.length_le
  rw [flatten_rawLines] at hfuel
  have hrules := logicalRulesFrom_eq bytes.length [] (rawLines bytes) hlines hfuel
  rwa [nil_append, flatten_rawLines, length_nil] at hrules

/-! ## The text of a rule -/

theorem semanticRuleFrom_eq :
    ∀ (before : Bytes) (fuel : Nat), IsLines newline lines → lines.length ≤ fuel →
      semanticRuleFrom (before ++ lines.flatten) fuel before.length =
        lines.flatMap linePayload := by
  induction lines with
  | nil =>
    intro before fuel _ _
    cases fuel with
    | zero => rfl
    | succ fuel => simp [semanticRuleFrom, PhysicalLine.at_length]
  | cons line lines ih =>
    intro before fuel hlines hfuel
    obtain _ | fuel := fuel
    · simp at hfuel
    have hat := PhysicalLine.at_line before hlines
    have hih := ih (before ++ line) fuel hlines.2 (by simpa using hfuel)
    rw [flatten_cons, ← append_assoc, semanticRuleFrom, hat]
    simp only [physicalLine_content, physicalLine_stop, hih, flatMap_cons, linePayload]

theorem semanticRule_flatten {lines} (h : IsLines newline lines) :
    semanticRule lines.flatten = lines.flatMap linePayload :=
  semanticRuleFrom_eq lines [] _ h h.length_le

/-- A line that continues adds a space after its text. -/
theorem linePayload_of_continues {line} (h : continues line = true) :
    ∃ text, linePayload line = text ++ [space] := by
  obtain ⟨stop, hstop⟩ := Option.isSome_iff_exists.mp h
  exact ⟨(semanticOf (lineContent line)).take stop, by rw [linePayload, payloadOf, hstop]⟩

/-- The module name is never found across a continuation, because it has
no space in it. -/
theorem hasWindow_payloads {lines} (h : RuleShape lines) :
    hasWindow moduleName (lines.flatMap linePayload) = lines.any namesModule := by
  have hspace : space ∉ moduleName := by decide
  have hnil : ¬ moduleName <:+: [] := by simp [moduleName, ascii]
  induction h with
  | last _ => simp [namesModule]
  | @cons line lines _ hc _ ih =>
    obtain ⟨text, htext⟩ := linePayload_of_continues hc
    have hline : namesModule line = true ↔ moduleName <:+: text := by
      rw [namesModule, htext, hasWindow_iff, infix_append_cons_of_notMem hspace]
      exact or_iff_left hnil
    rw [flatMap_cons, htext, any_cons, ← ih, Bool.eq_iff_iff, Bool.or_eq_true, hline, hasWindow_iff,
      hasWindow_iff, append_assoc, singleton_append, infix_append_cons_of_notMem hspace]

theorem not_infix_of_isBlank (h : ∀ byte ∈ line, isBlank byte = true) : ¬ moduleName <:+: line := by
  intro hinfix
  have hmem : (112 : UInt8) ∈ line := hinfix.subset (by decide)
  exact absurd (h _ hmem) (by decide)

theorem namesModule_of_not_semantic {line} (h : isSemantic line = false) :
    namesModule line = false := by
  have hblank : ∀ byte ∈ semanticOf (lineContent line), isBlank byte = true := by
    simpa using any_eq_false.mp h
  rw [namesModule, ← Bool.not_eq_true, hasWindow_iff]
  apply not_infix_of_isBlank
  intro byte hbyte
  rw [linePayload, payloadOf] at hbyte
  split at hbyte
  · rcases mem_append.mp hbyte with hmem | hmem
    · exact hblank byte (mem_of_mem_take hmem)
    · rw [mem_singleton.mp hmem]
      decide
  · exact hblank byte hbyte

/-- The segments of a document are well formed, and their lines are lines
of the document. -/
theorem segments_sound :
    ∀ seg ∈ segments (rawLines bytes), seg.WellFormed ∧ IsLines newline seg.lines := by
  intro seg hseg
  refine ⟨segments_wellFormed _ seg hseg, (isLines_rawLines bytes).sublist ?_⟩
  conv_rhs => rw [← segments_lines (rawLines bytes)]
  exact sublist_flatten_of_mem (mem_map_of_mem hseg)

def Segment.isFacelock : Segment → Bool
  | .skip _ => false
  | .rule lines => lines.any namesModule

theorem isFacelockRule_flatten {lines} (hshape : RuleShape lines) (hlines : IsLines newline lines) :
    isFacelockRule lines.flatten = lines.any namesModule := by
  rw [isFacelockRule, semanticRule_flatten hlines, hasWindow_payloads hshape]

/-- Being a facelock rule is a matter of the lines of a segment alone. -/
theorem Segment.isFacelock_eq {seg : Segment} (h : seg.WellFormed) :
    seg.isFacelock = seg.lines.any namesModule := by
  cases seg with
  | skip line => simp [Segment.isFacelock, Segment.lines, namesModule_of_not_semantic h]
  | rule lines => rfl

theorem ruleSpans_any_isFacelockRule (segs : List Segment) :
    ∀ offset : Nat, (∀ seg ∈ segs, seg.WellFormed ∧ IsLines newline seg.lines) →
      (ruleSpans offset segs).any (fun rule => isFacelockRule rule.bytes) =
        (segs.flatMap Segment.lines).any namesModule := by
  induction segs with
  | nil => intros; rfl
  | cons seg segs ih =>
    intro offset h
    obtain ⟨⟨hwell, hlines⟩, hrest⟩ := forall_mem_cons.mp h
    rw [flatMap_cons, any_append, ← Segment.isFacelock_eq hwell]
    cases seg with
    | skip line => simp [ruleSpans, Segment.isFacelock, ih _ hrest]
    | rule lines =>
      simp [ruleSpans, Segment.isFacelock, ih _ hrest, isFacelockRule_flatten hwell hlines]

theorem hasFacelockRule_eq : hasFacelockRule bytes = (rawLines bytes).any namesModule := by
  rw [hasFacelockRule, logicalRules_eq, ruleSpans_any_isFacelockRule _ _ (segments_sound bytes),
    segments_lines]

end Facelock.Pam
