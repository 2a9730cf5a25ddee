import Mathlib.Data.List.Infix

/-!
# Tests on texts

The two substring tests that a program makes on a message: whether it
starts with a text, and whether it contains one.  Both are stated on the
characters, and so is the removal of white space at both ends.

`contains_append` is the rule for a message that is put together from a
fixed head and a free rest.  If the head neither holds the part nor ends
in a beginning of it, only the rest decides.  Its condition is about two
fixed texts, so it is decided by evaluation.
-/

namespace Facelock.Text

def startsWith (text start : String) : Bool :=
  decide (start.toList <+: text.toList)

def contains (text part : String) : Bool :=
  decide (part.toList <:+: text.toList)

theorem startsWith_eq_true {text start} :
    startsWith text start = true ↔ start.toList <+: text.toList := by
  simp [startsWith]

theorem contains_eq_true {text part} :
    contains text part = true ↔ part.toList <:+: text.toList := by
  simp [contains]

theorem startsWith_append {head start} (h : startsWith head start = true)
    (rest : String) : startsWith (head ++ rest) start = true := by
  rw [startsWith_eq_true] at h ⊢
  rw [String.toList_append]
  exact h.trans (List.prefix_append _ _)

theorem contains_of_startsWith {text part} (h : startsWith text part = true) :
    contains text part = true := by
  rw [startsWith_eq_true] at h
  exact contains_eq_true.mpr h.isInfix

/-- `char::is_whitespace`: the characters with the property `White_Space`. -/
def isWhitespace (c : Char) : Bool :=
  let n := c.toNat
  (9 ≤ n && n ≤ 13) || n == 0x20 || n == 0x85 || n == 0xa0 || n == 0x1680 ||
    (0x2000 ≤ n && n ≤ 0x200a) || n == 0x2028 || n == 0x2029 || n == 0x202f || n == 0x205f ||
    n == 0x3000

/-- `text.trim()`. -/
def trim (text : String) : String :=
  String.ofList ((text.toList.dropWhile isWhitespace).reverse.dropWhile isWhitespace).reverse

/-- No end of `head` begins with `part`, and none is a beginning of it. -/
def Apart (head part : List Char) : Prop :=
  ∀ tail ∈ head.tails, tail ≠ [] → ¬ part <+: tail ∧ ¬ tail <+: part

instance (head part : List Char) : Decidable (Apart head part) :=
  inferInstanceAs (Decidable (∀ tail ∈ head.tails, _))

theorem Apart.of_cons {c head part} (h : Apart (c :: head) part) : Apart head part := by
  intro tail htail
  refine h tail ?_
  exact List.mem_cons_of_mem _ htail

/-- A list that stands at the start of `left ++ right` and is not comparable
with `left` does not exist. -/
theorem not_prefix_append {part left right : List Char} (hpart : ¬ part <+: left)
    (hleft : ¬ left <+: part) : ¬ part <+: left ++ right := by
  intro h
  rcases List.prefix_or_prefix_of_prefix h (List.prefix_append left right) with h | h
  · exact hpart h
  · exact hleft h

theorem infix_append_iff {head part rest : List Char} (h : Apart head part) :
    part <:+: head ++ rest ↔ part <:+: rest := by
  induction head with
  | nil => rfl
  | cons c head ih =>
    obtain ⟨hpart, hhead⟩ := h (c :: head) ((List.mem_tails _ _).mpr List.suffix_rfl) (by simp)
    have hnot : ¬ part <+: c :: (head ++ rest) := not_prefix_append hpart hhead
    rw [List.cons_append, List.infix_cons_iff, ih h.of_cons]
    exact or_iff_right hnot

theorem contains_append {head part} (h : Apart head.toList part.toList)
    (rest : String) : contains (head ++ rest) part = contains rest part := by
  rw [Bool.eq_iff_iff, contains_eq_true, contains_eq_true, String.toList_append]
  exact infix_append_iff h

theorem startsWith_append_of_apart {head start : String}
    (hstart : ¬ start.toList <+: head.toList) (hhead : ¬ head.toList <+: start.toList)
    (rest : String) : startsWith (head ++ rest) start = false := by
  rw [← Bool.not_eq_true, startsWith_eq_true, String.toList_append]
  exact not_prefix_append hstart hhead

end Facelock.Text
