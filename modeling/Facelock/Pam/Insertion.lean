import Facelock.Pam.Grouping
import Facelock.Pam.Removal

/-!
# Insertion of the facelock line

`with_facelock_inserted` puts `PAM_LINE` in front of the first `auth`
rule, or after the header, or at the start of the document, and borrows a
line ending from the document.  `withLineInserted_eq` says what the three
cases have in common: the new document has one more line, and the line in
front of it does not continue.  Such a line is a rule of its own
(`Pam.Grouping`), so removal takes out that line and nothing else.
`insertionPosition` says how many rules stand in front of it.

The header alone, without a newline, is the one document where insertion
also has to add a separator.
-/

namespace Facelock.Pam

open Lines List

/-! ## An inserted line -/

theorem withLineRemoved_inserted {before after line}
    (hlines : IsLines newline (before ++ line :: after)) (hcontent : lineContent line = pamLine)
    (hclosed : continuesLast before = false) (hnames : (before ++ after).any namesModule = false) :
    withLineRemoved (before ++ line :: after).flatten = (before ++ after).flatten := by
  have hkeep : keepLines (.rule [line]) = [] := by
    simp [keepLines, namesModule_of_content hcontent, endsInjected]
  rw [any_append, Bool.or_eq_false_iff] at hnames
  rw [withLineRemoved_eq, rawLines, split_flatten hlines, segments_append before _ hclosed,
    segments_of_not_continues (isSemantic_of_content hcontent) (continues_of_content hcontent),
    flatMap_append, flatMap_cons, hkeep, flatMap_keepLines hnames.1,
    flatMap_keepLines hnames.2, nil_append]

/-! ## Where the line goes -/

/-- Which of the rules the inserted line goes in front of: the first `auth`
rule, or the first rule if there is none. -/
def insertionPosition (bytes : Bytes) : Nat :=
  ((logicalRules bytes).findIdx? fun rule => isAuthRule rule.bytes).getD 0

/-- The first rule with a property starts after some of the segments. -/
theorem find_ruleSpans {p segs offset rule} (h : (ruleSpans offset segs).find? p = some rule) :
    ∃ first inner last, segs = first ++ .rule inner :: last ∧
      rule.start = offset + (first.flatMap Segment.lines).flatten.length ∧
      (ruleSpans offset segs).findIdx? p = some (ruleSpans offset first).length := by
  induction segs generalizing offset with
  | nil => cases h
  | cons seg segs ih =>
    cases seg with
    | skip line =>
      obtain ⟨first, inner, last, rfl, hstart, hidx⟩ := ih h
      refine ⟨.skip line :: first, inner, last, rfl, ?_, hidx⟩
      rw [hstart]
      simp [Segment.lines, Nat.add_assoc]
    | rule lines =>
      rw [ruleSpans, find?_cons] at h
      rw [ruleSpans, findIdx?_cons]
      split at h
      · rename_i hp
        cases h
        exact ⟨[], lines, segs, rfl, by simp, by rw [if_pos hp]; rfl⟩
      · rename_i hp
        obtain ⟨first, inner, last, rfl, hstart, hidx⟩ := ih h
        refine ⟨.rule lines :: first, inner, last, rfl, ?_, ?_⟩
        · rw [hstart]
          simp [Segment.lines, Nat.add_assoc]
        · rw [if_neg (by rw [hp]; simp), hidx]
          rfl

variable {bytes : Bytes}

/-- The first `auth` rule starts at a line, and the line in front of it
does not continue. -/
theorem authInsertionOffset_eq_some {offset} (h : authInsertionOffset bytes = some offset) :
    ∃ before after, rawLines bytes = before ++ after ∧ after ≠ [] ∧
      offset = before.flatten.length ∧ continuesLast before = false ∧
      (ruleSpans 0 (segments before)).length = insertionPosition bytes := by
  obtain ⟨rule, hfind, rfl⟩ := Option.map_eq_some_iff.mp h
  rw [logicalRules_eq] at hfind
  obtain ⟨first, inner, last, hsegs, hstart, hidx⟩ := find_ruleSpans hfind
  refine ⟨first.flatMap Segment.lines, inner ++ last.flatMap Segment.lines, ?_, ?_, ?_,
    continuesLast_before_rule _ first inner last hsegs, ?_⟩
  · rw [← segments_lines (rawLines bytes), hsegs]
    simp [Segment.lines]
  · have hne := (ruleShape_of_mem (rawLines bytes)
      (by rw [hsegs]; exact mem_append_cons_self)).ne_nil
    simp [hne]
  · simpa using hstart
  · rw [segments_first hsegs, insertionPosition, logicalRules_eq, hidx]
    rfl

theorem insertionPosition_of_none (h : authInsertionOffset bytes = none) :
    insertionPosition bytes = 0 := by
  have hfind := Option.map_eq_none_iff.mp h
  rw [insertionPosition, findIdx?_eq_none_iff.mpr]
  · rfl
  · simpa using hfind

theorem pamHeaderEnd_eq_some {stop} (h : pamHeaderEnd bytes = some stop) :
    ∃ header after, rawLines bytes = header :: after ∧ lineContent header = pamHeader ∧
      stop = header.length := by
  have hlines := isLines_rawLines bytes
  have hflat := flatten_rawLines bytes
  rcases hraw : rawLines bytes with _ | ⟨header, after⟩
  · rw [hraw] at hflat
    subst hflat
    exact absurd h (by simp [pamHeaderEnd, PhysicalLine.at])
  · rw [hraw] at hlines hflat
    have hat := PhysicalLine.at_line [] hlines
    rw [nil_append, ← flatten_cons, hflat, length_nil] at hat
    rw [pamHeaderEnd, hat] at h
    simp only [physicalLine_content] at h
    split_ifs at h with hcontent
    refine ⟨header, after, rfl, by simpa using hcontent, ?_⟩
    simpa [physicalLine] using h.symm

theorem isSemantic_of_pamHeader {line} (h : lineContent line = pamHeader) :
    isSemantic line = false := by
  rw [isSemantic, h]
  decide

theorem lineEndingFrom_eq_some {first ending} (h : lineEndingFrom bytes first = some ending) :
    ending = [newline] ∨ ending = [carriageReturn, newline] := by
  have htake : ∀ {n : Nat} {byte : UInt8}, bytes[n]? = some byte →
      bytes.drop n = byte :: bytes.drop (n + 1) := by
    intro n byte hbyte
    obtain ⟨hn, rfl⟩ := List.getElem?_eq_some_iff.mp hbyte
    exact drop_eq_getElem_cons hn
  rw [lineEndingFrom] at h
  split at h
  · exact absurd h (by simp)
  · rename_i relative hidx
    have hnl : bytes[first + relative]? = some newline := by
      obtain ⟨hlt, hp, -⟩ := findIdx?_eq_some_iff_getElem.mp hidx
      rw [← getElem?_drop, getElem?_eq_getElem hlt]
      simpa using hp
    simp only at h
    split_ifs at h with hcr
    · right
      have hsub : first + relative - 1 + 1 = first + relative := by omega
      obtain rfl := Option.some.inj h
      rw [slice, htake hcr.2, hsub, htake hnl,
        show first + relative + 1 - (first + relative - 1) = 2 by omega]
      rfl
    · left
      obtain rfl := Option.some.inj h
      rw [slice, htake hnl, show first + relative + 1 - (first + relative) = 1 by omega]
      rfl

theorem borrowedEnding (bytes : Bytes) (first : Nat) :
    let ending := ((lineEndingFrom bytes first).or (lineEndingFrom bytes 0)).getD [newline]
    ending = [newline] ∨ ending = [carriageReturn, newline] := by
  cases hfirst : lineEndingFrom bytes first with
  | some ending => exact lineEndingFrom_eq_some hfirst
  | none =>
    cases hzero : lineEndingFrom bytes 0 with
    | some ending => exact lineEndingFrom_eq_some hzero
    | none => exact Or.inl rfl

theorem insertedAt {ending} (before after : List Bytes) (hraw : rawLines bytes = before ++ after)
    (hbefore : ∀ line ∈ before, Terminated newline line)
    (hending : ending = [newline] ∨ ending = [carriageReturn, newline]) :
    IsLines newline (before ++ (pamLine ++ ending) :: after) ∧
      bytes.take before.flatten.length ++ pamLine ++ ending ++ bytes.drop before.flatten.length =
        (before ++ (pamLine ++ ending) :: after).flatten := by
  have hlines := isLines_rawLines bytes
  have hflat : bytes = before.flatten ++ after.flatten := by
    rw [← flatten_append, ← hraw, flatten_rawLines]
  refine ⟨(IsLines.append_iff (by simp)).mpr
    ⟨hbefore, Or.inl (terminated_pamLine hending).1, ?_⟩, ?_⟩
  · rw [hraw] at hlines
    exact hlines.sublist (sublist_append_right _ _)
  · rw [hflat, take_left, drop_left]
    simp

/-- Insertion adds one line, after a line that does not continue.  The
header alone without a newline is the exception. -/
theorem withLineInserted_eq (hheader : bytes ≠ pamHeader) :
    ∃ before line after, rawLines bytes = before ++ after ∧
      IsLines newline (before ++ line :: after) ∧ lineContent line = pamLine ∧
      continuesLast before = false ∧
      (ruleSpans 0 (segments before)).length = insertionPosition bytes ∧
      withLineInserted bytes = (before ++ line :: after).flatten := by
  have hlines := isLines_rawLines bytes
  have hflat := flatten_rawLines bytes
  by_cases hempty : bytes = []
  · subst hempty
    exact ⟨[], pamLine, [], rfl, ⟨Or.inr ⟨⟨by decide, by decide⟩, rfl⟩, trivial⟩, by decide, rfl,
      by decide, by decide⟩
  cases hauth : authInsertionOffset bytes with
  | some offset =>
    -- In front of the first `auth` rule.
    obtain ⟨before, after, hraw, hne, rfl, hclosed, hcount⟩ := authInsertionOffset_eq_some hauth
    have hbefore : ∀ line ∈ before, Terminated newline line :=
      ((IsLines.append_iff hne).mp (hraw ▸ hlines)).1
    have hending := borrowedEnding bytes before.flatten.length
    obtain ⟨hnew, hbytes⟩ := insertedAt before after hraw hbefore hending
    refine ⟨before, _, after, hraw, hnew, (terminated_pamLine hending).2, hclosed, hcount, ?_⟩
    simpa [withLineInserted, hauth, hempty] using hbytes
  | none =>
    have hposition := insertionPosition_of_none hauth
    cases hend : pamHeaderEnd bytes with
    | some stop =>
      -- After the header, which ends in a newline.
      obtain ⟨header, after, hraw, hcontent, rfl⟩ := pamHeaderEnd_eq_some hend
      rw [hraw] at hlines hflat
      have hterm : Terminated newline header := by
        rcases hlines.1 with ht | ⟨hun, rfl⟩
        · exact ht
        · have hbare : lineContent header = header := by
            rw [lineContent, if_neg fun h => hun.2 (mem_of_getLast? h)]
          rw [← hflat, flatten_cons, flatten_nil, append_nil, ← hbare] at hheader
          exact absurd hcontent hheader
      have hending := borrowedEnding bytes 0
      obtain ⟨hnew, hbytes⟩ := insertedAt [header] after hraw (by simpa using hterm) hending
      refine ⟨[header], _, after, hraw, hnew, (terminated_pamLine hending).2, ?_, ?_, ?_⟩
      · simp [continuesLast, continues, hcontent]
        decide
      · rw [segments_of_not_semantic (isSemantic_of_pamHeader hcontent), hposition]
        rfl
      · have hsep : ¬ (header.length = bytes.length ∧ ¬ bytes.getLast? = some newline) := by
          rintro ⟨hlen, hlast⟩
          have hafter : after.flatten = [] := by
            rw [← hflat, flatten_cons, length_append] at hlen
            exact length_eq_zero_iff.mp (by omega)
          obtain ⟨body, -, rfl⟩ := hterm
          rw [← hflat, flatten_cons, hafter] at hlast
          simp at hlast
        simpa [withLineInserted, hauth, hend, hempty, hsep] using hbytes
    | none =>
      -- At the start of the document.
      have hending := borrowedEnding bytes 0
      have hnew := (insertedAt [] (rawLines bytes) rfl (by simp) hending).1
      refine ⟨[], _, rawLines bytes, rfl, hnew, (terminated_pamLine hending).2, rfl,
        hposition.symm, ?_⟩
      simp [withLineInserted, hauth, hend, hempty, hflat]

/-- Removal is the inverse of insertion. -/
theorem withLineRemoved_withLineInserted (bytes : Bytes) (hrule : hasFacelockRule bytes = false)
    (hheader : bytes ≠ pamHeader) : withLineRemoved (withLineInserted bytes) = bytes := by
  obtain ⟨before, line, after, hraw, hlines, hcontent, hclosed, -, hinserted⟩ :=
    withLineInserted_eq hheader
  rw [hasFacelockRule_eq, hraw] at hrule
  rw [hinserted, withLineRemoved_inserted hlines hcontent hclosed hrule, ← hraw, flatten_rawLines]

/-- A rule that continues over two lines, with CRLF endings and a comment
after it, comes back unchanged. -/
theorem roundTrip_continued_rule :
    let document := ascii "#%PAM-1.0\r\nauth required \\\r\n pam_unix.so\r\n# end"
    withLineRemoved (withLineInserted document) = document :=
  withLineRemoved_withLineInserted _ (by decide +kernel) (by decide)

end Facelock.Pam
