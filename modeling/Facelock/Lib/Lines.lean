import Mathlib.Data.List.Infix
import Mathlib.Data.List.Basic
import Mathlib.Tactic.SplitIfs

/-!
# Lists cut into lines

A list over any alphabet is cut after every separator, and the separator
stays at the end of its piece.  `split` is the cut, and `IsLines` says
which lists of pieces are the cut of their concatenation: every piece
ends in its only separator, and the last one may lack it.

`split` and `List.flatten` are inverse to each other (`flatten_split`,
`split_flatten`), so a scanner that walks over offsets can be compared
with a recursion over pieces.  `IsLines.sublist` says that dropping whole
pieces keeps the list well formed.

`hasWindow` is the search for a fixed pattern.  A pattern that avoids a
letter cannot be found across that letter
(`infix_append_cons_of_notMem`).
-/

namespace Lines

open List

variable {α : Type*} [DecidableEq α]

/-! ## The cut -/

/-- Cut a list after every `sep`.  The separator stays at the end of its
piece. -/
def split (sep : α) : List α → List (List α)
  | [] => []
  | x :: xs =>
    if x = sep then [x] :: split sep xs
    else
      match split sep xs with
      | [] => [[x]]
      | piece :: pieces => (x :: piece) :: pieces

omit [DecidableEq α] in
/-- A piece that ends in its only separator. -/
def Terminated (sep : α) (l : List α) : Prop :=
  ∃ body, sep ∉ body ∧ l = body ++ [sep]

omit [DecidableEq α] in
/-- A piece without a separator.  Only the last piece can be one. -/
def Unterminated (sep : α) (l : List α) : Prop :=
  l ≠ [] ∧ sep ∉ l

omit [DecidableEq α] in
/-- The lists of pieces that are a cut. -/
def IsLines (sep : α) : List (List α) → Prop
  | [] => True
  | l :: ls => (Terminated sep l ∨ Unterminated sep l ∧ ls = []) ∧ IsLines sep ls

@[simp] theorem split_nil (sep : α) : split sep [] = [] := rfl

theorem split_cons_self (sep : α) (xs : List α) :
    split sep (sep :: xs) = [sep] :: split sep xs := by
  simp [split]

variable {sep : α}

theorem split_cons_of_ne {x} (h : x ≠ sep) (xs : List α) :
    split sep (x :: xs) =
      match split sep xs with
      | [] => [[x]]
      | piece :: pieces => (x :: piece) :: pieces := by
  rw [split, if_neg h]

/-- The pieces are the list. -/
@[simp] theorem flatten_split (sep : α) (xs : List α) : (split sep xs).flatten = xs := by
  induction xs with
  | nil => rfl
  | cons x xs ih =>
    by_cases h : x = sep
    · subst h
      simp [split_cons_self, ih]
    · rw [split_cons_of_ne h]
      cases hs : split sep xs with
      | nil => simpa [hs] using ih
      | cons piece pieces => simpa [hs] using ih

variable {l : List α}

omit [DecidableEq α] in
theorem Terminated.ne_nil (h : Terminated sep l) : l ≠ [] := by
  obtain ⟨body, -, rfl⟩ := h
  simp

omit [DecidableEq α] in
theorem Terminated.cons {x} (hx : x ≠ sep) (h : Terminated sep l) : Terminated sep (x :: l) := by
  obtain ⟨body, hbody, rfl⟩ := h
  refine ⟨x :: body, ?_, rfl⟩
  simp [hbody, hx.symm]

omit [DecidableEq α] in
theorem Unterminated.cons {x} (hx : x ≠ sep) (h : Unterminated sep l) :
    Unterminated sep (x :: l) := by
  refine ⟨by simp, ?_⟩
  simp [h.2, hx.symm]

theorem isLines_split (sep : α) (xs : List α) : IsLines sep (split sep xs) := by
  induction xs with
  | nil => trivial
  | cons x xs ih =>
    by_cases h : x = sep
    · subst h
      rw [split_cons_self]
      exact ⟨Or.inl ⟨[], by simp, rfl⟩, ih⟩
    · rw [split_cons_of_ne h]
      cases hs : split sep xs with
      | nil => exact ⟨Or.inr ⟨⟨by simp, by simpa using Ne.symm h⟩, rfl⟩, trivial⟩
      | cons piece pieces =>
        rw [hs] at ih
        refine ⟨?_, ih.2⟩
        rcases ih.1 with ht | ⟨ho, hnil⟩
        · exact Or.inl (ht.cons h)
        · exact Or.inr ⟨ho.cons h, hnil⟩

theorem split_terminated_append (h : Terminated sep l) (xs : List α) :
    split sep (l ++ xs) = l :: split sep xs := by
  obtain ⟨body, hbody, rfl⟩ := h
  induction body with
  | nil => simp [split_cons_self]
  | cons x body ih =>
    have hx : x ≠ sep := fun e => hbody (by simp [e])
    have hb : sep ∉ body := fun m => hbody (mem_cons_of_mem _ m)
    rw [cons_append, cons_append, split_cons_of_ne hx, ih hb]

theorem split_unterminated (h : Unterminated sep l) : split sep l = [l] := by
  obtain ⟨hne, hmem⟩ := h
  induction l with
  | nil => exact absurd rfl hne
  | cons x xs ih =>
    have hx : x ≠ sep := fun e => hmem (by simp [e])
    have hxs : sep ∉ xs := fun m => hmem (mem_cons_of_mem _ m)
    rw [split_cons_of_ne hx]
    cases xs with
    | nil => rfl
    | cons y ys => rw [ih (by simp) hxs]

variable {ls : List (List α)}

/-- A well-formed list of pieces is the cut of its concatenation. -/
theorem split_flatten (h : IsLines sep ls) : split sep ls.flatten = ls := by
  induction ls with
  | nil => rfl
  | cons l ls ih =>
    rcases h.1 with ht | ⟨ho, rfl⟩
    · rw [flatten_cons, split_terminated_append ht, ih h.2]
    · simpa using split_unterminated ho

/-! ## Well-formed lists of pieces -/

omit [DecidableEq α] in
theorem IsLines.ne_nil (h : IsLines sep (l :: ls)) : l ≠ [] := by
  rcases h.1 with ht | ⟨ho, -⟩
  · exact ht.ne_nil
  · exact ho.1

omit [DecidableEq α] in
/-- No piece is empty, so there are at most as many pieces as letters. -/
theorem IsLines.length_le (h : IsLines sep ls) : ls.length ≤ ls.flatten.length := by
  induction ls with
  | nil => simp
  | cons l ls ih =>
    have hpos : 0 < l.length := length_pos_iff.mpr h.ne_nil
    have := ih h.2
    simp only [length_cons, flatten_cons, length_append]
    omega

omit [DecidableEq α] in
theorem IsLines.sublist {ks} (hsub : ks.Sublist ls) (h : IsLines sep ls) : IsLines sep ks := by
  induction hsub with
  | slnil => trivial
  | cons l hsub ih => exact ih h.2
  | cons_cons l hsub ih =>
    refine ⟨?_, ih h.2⟩
    rcases h.1 with ht | ⟨ho, rfl⟩
    · exact Or.inl ht
    · exact Or.inr ⟨ho, sublist_nil.mp hsub⟩

omit [DecidableEq α] in
/-- Pieces that have pieces after them are terminated, and what follows
them is again a cut. -/
theorem IsLines.append_iff {ks} (hne : ls ≠ []) :
    IsLines sep (ks ++ ls) ↔ (∀ k ∈ ks, Terminated sep k) ∧ IsLines sep ls := by
  induction ks with
  | nil => simp
  | cons k ks ih =>
    rw [cons_append, IsLines, ih]
    constructor
    · rintro ⟨hk, hks, hls⟩
      refine ⟨?_, hls⟩
      rcases hk with ht | ⟨-, hnil⟩
      · simpa using ⟨ht, hks⟩
      · exact absurd (append_eq_nil_iff.mp hnil).2 hne
    · rintro ⟨hks, hls⟩
      exact ⟨Or.inl (hks k (by simp)), fun m hm => hks m (by simp [hm]), hls⟩

omit [DecidableEq α] in
theorem IsLines.mem (h : IsLines sep ls) (hl : l ∈ ls) : Terminated sep l ∨ Unterminated sep l := by
  obtain ⟨front, back, rfl⟩ := append_of_mem hl
  exact ((IsLines.append_iff (by simp)).mp h).2.1.imp_right And.left

theorem split_flatten_append (h : ∀ l ∈ ls, Terminated sep l) (xs : List α) :
    split sep (ls.flatten ++ xs) = ls ++ split sep xs := by
  induction ls with
  | nil => rfl
  | cons l ls ih =>
    rw [forall_mem_cons] at h
    rw [flatten_cons, append_assoc, split_terminated_append h.1, ih h.2, cons_append]

theorem exists_last_piece (sep : α) (hne : l ≠ []) :
    ∃ ls last, split sep l = ls ++ [last] ∧ l = ls.flatten ++ last ∧
      (∀ k ∈ ls, Terminated sep k) ∧ (Terminated sep last ∨ Unterminated sep last) := by
  have hlines := isLines_split sep l
  have hflat := flatten_split sep l
  rcases eq_nil_or_concat (split sep l) with hnil | ⟨ls, last, hsplit⟩
  · rw [hnil] at hflat
    exact absurd hflat.symm hne
  · rw [concat_eq_append] at hsplit
    rw [hsplit] at hlines hflat
    refine ⟨ls, last, hsplit, by simpa using hflat.symm, ?_, hlines.mem (by simp)⟩
    exact ((IsLines.append_iff (by simp)).mp hlines).1

/-! ## The position of the separator -/

theorem findIdx?_terminated_append (h : Terminated sep l) (xs : List α) :
    (l ++ xs).findIdx? (· == sep) = some (l.length - 1) := by
  obtain ⟨body, hbody, rfl⟩ := h
  induction body with
  | nil => simp [findIdx?_cons]
  | cons x body ih =>
    have hx : x ≠ sep := fun e => hbody (by simp [e])
    have hb : sep ∉ body := fun m => hbody (mem_cons_of_mem _ m)
    have := ih hb
    simp only [append_assoc, cons_append] at this ⊢
    rw [findIdx?_cons, this]
    simp [hx]

theorem findIdx?_unterminated (h : Unterminated sep l) : l.findIdx? (· == sep) = none := by
  rw [findIdx?_eq_none_iff]
  intro x hx
  have : x ≠ sep := fun e => h.2 (e ▸ hx)
  simpa using this

/-! ## Windows -/

/-- Whether `pattern` is one of the windows of a list. -/
def hasWindow (pattern : List α) : List α → Bool
  | [] => pattern.isEmpty
  | x :: xs => pattern.isPrefixOf (x :: xs) || hasWindow pattern xs

theorem hasWindow_iff (pattern xs : List α) : hasWindow pattern xs = true ↔ pattern <:+: xs := by
  induction xs with
  | nil => simp [hasWindow]
  | cons x xs ih => simp [hasWindow, ih, infix_cons_iff]

omit [DecidableEq α] in
/-- A pattern that avoids `sep` is found in a list with a `sep` in the
middle only on one of the two sides. -/
theorem infix_append_cons_of_notMem {pattern xs ys} (hsep : sep ∉ pattern) :
    pattern <:+: xs ++ sep :: ys ↔ pattern <:+: xs ∨ pattern <:+: ys := by
  constructor
  · rintro ⟨pre, post, h⟩
    rw [append_assoc] at h
    rcases append_eq_append_iff.mp h with ⟨mid, hxs, hrest⟩ | ⟨mid, hpre, hrest⟩
    · -- The pattern starts inside `xs`, so it ends there as well.
      rcases append_eq_append_iff.mp hrest with ⟨mid', hmid, hcons⟩ | ⟨mid', hpat, hcons⟩
      · exact Or.inl ⟨pre, mid', by rw [hxs, hmid, append_assoc]⟩
      · cases mid' with
        | nil =>
          refine Or.inl ⟨pre, [], ?_⟩
          rw [hxs, hpat]
          simp
        | cons y mid' =>
          have hy : y = sep := (List.cons.inj hcons).1.symm
          exact absurd (by rw [hpat, hy]; simp) hsep
    · cases mid with
      | nil =>
        cases pattern with
        | nil => exact Or.inl nil_infix
        | cons p pattern =>
          have hp : sep = p := (List.cons.inj hrest).1
          exact absurd (by simp [hp]) hsep
      | cons y mid =>
        have hys : ys = mid ++ (pattern ++ post) := (List.cons.inj hrest).2
        exact Or.inr ⟨mid, post, by rw [hys, append_assoc]⟩
  · rintro (⟨pre, post, h⟩ | ⟨pre, post, h⟩)
    · exact ⟨pre, post ++ sep :: ys, by rw [← h]; simp⟩
    · exact ⟨xs ++ sep :: pre, post, by rw [← h]; simp⟩

end Lines
