import Facelock.Lib.Lines
import Facelock.Lib.Text
import Mathlib.Data.List.TakeWhile

/-!
# The lines of a text

A text is the list of its characters.  `lines` cuts it after every line
feed and takes the line ending off each piece, a line feed with the
carriage return in front of it if there is one.  `unlines` ends every
line with a line feed.

`lines` reads back what `unlines` wrote (`lines_unlines`), if no line
holds a line feed or ends in a carriage return.  A text in which every
carriage return stands in front of a line feed has no such line
(`oneLine_of_mem_lines`).
-/

namespace Facelock.Text

open List

abbrev Str := List Char

def trimStart (text : Str) : Str :=
  text.dropWhile isWhitespace

/-- `text.trim()`. -/
def trimmed (text : Str) : Str :=
  ((trimStart text).reverse.dropWhile isWhitespace).reverse

/-- A piece of a text without its line ending. -/
def chomp (piece : Str) : Str :=
  match piece.reverse with
  | '\n' :: '\r' :: rest => rest.reverse
  | '\n' :: rest => rest.reverse
  | _ => piece

def lines (text : Str) : List Str :=
  (Lines.split '\n' text).map chomp

/-- Every line with a line feed at its end. -/
def unlines (ls : List Str) : Str :=
  ls.flatMap (· ++ ['\n'])

@[simp] theorem unlines_nil : unlines [] = [] := rfl

@[simp] theorem unlines_cons (l : Str) (ls : List Str) :
    unlines (l :: ls) = l ++ '\n' :: unlines ls := by
  simp [unlines]

@[simp] theorem unlines_append (ks ls : List Str) :
    unlines (ks ++ ls) = unlines ks ++ unlines ls := by
  simp [unlines]

/-! ## White space at the ends -/

theorem trimStart_cons_of_false {c} (h : isWhitespace c = false) (rest : Str) :
    trimStart (c :: rest) = c :: rest := by
  simp [trimStart, h]

theorem exists_trimmed (text : Str) :
    ∃ front back, text = front ++ trimmed text ++ back ∧
      (∀ c ∈ front, isWhitespace c = true) ∧ (∀ c ∈ back, isWhitespace c = true) := by
  refine ⟨text.takeWhile isWhitespace, ((trimStart text).reverse.takeWhile isWhitespace).reverse,
    ?_, ?_, ?_⟩
  · have hback : trimStart text = trimmed text ++
        ((trimStart text).reverse.takeWhile isWhitespace).reverse := by
      rw [trimmed, ← reverse_append, takeWhile_append_dropWhile, reverse_reverse]
    rw [append_assoc, ← hback, trimStart, takeWhile_append_dropWhile]
  · intro c hc
    exact mem_takeWhile_imp hc
  · intro c hc
    exact mem_takeWhile_imp (mem_reverse.mp hc)

theorem trimmed_infix (text : Str) : trimmed text <:+: text := by
  obtain ⟨front, back, h, -, -⟩ := exists_trimmed text
  exact ⟨front, back, h.symm⟩

/-! ## Line endings -/

variable {l : Str}

theorem chomp_line (h : l.getLast? ≠ some '\r') : chomp (l ++ ['\n']) = l := by
  rcases eq_nil_or_concat l with rfl | ⟨init, c, rfl⟩
  · rfl
  · have hc : c ≠ '\r' := by simpa using h
    simp only [chomp, concat_eq_append, reverse_append, reverse_singleton, singleton_append]
    split <;> simp_all

theorem chomp_return_line (l : Str) : chomp (l ++ ['\r', '\n']) = l := by
  simp [chomp]

theorem chomp_of_getLast?_ne (h : l.getLast? ≠ some '\n') : chomp l = l := by
  rw [← head?_reverse] at h
  unfold chomp
  split <;> simp_all

theorem chomp_cases (piece : Str) :
    piece = chomp piece ∧ piece.getLast? ≠ some '\n' ∨
      piece = chomp piece ++ ['\n'] ∧ (chomp piece).getLast? ≠ some '\r' ∨
      piece = chomp piece ++ ['\r', '\n'] := by
  by_cases hlast : piece.getLast? = some '\n'
  · obtain ⟨l, rfl⟩ := getLast?_eq_some_iff.mp hlast
    by_cases hreturn : l.getLast? = some '\r'
    · obtain ⟨init, rfl⟩ := getLast?_eq_some_iff.mp hreturn
      have hinit := chomp_return_line init
      simp_all
    · simp [chomp_line hreturn, hreturn]
  · exact Or.inl ⟨(chomp_of_getLast?_ne hlast).symm, hlast⟩

theorem chomp_front (piece : Str) : chomp piece <+: piece := by
  rcases chomp_cases piece with ⟨h, -⟩ | ⟨h, -⟩ | h
  · rw [← h]
  · exact ⟨_, h.symm⟩
  · exact ⟨_, h.symm⟩

/-! ## Lines and texts -/

/-- Every carriage return stands in front of a line feed. -/
def NoBareReturn (text : Str) : Prop :=
  ∀ front rest, text = front ++ '\r' :: rest → rest.head? = some '\n'

variable {front text : Str}

theorem NoBareReturn.of_append {rest} (h : NoBareReturn (front ++ rest)) : NoBareReturn rest := by
  intro before after heq
  exact h (front ++ before) after (by rw [heq, append_assoc])

theorem noBareReturn_cons {c} :
    NoBareReturn (c :: text) ↔ (c = '\r' → text.head? = some '\n') ∧ NoBareReturn text := by
  constructor
  · intro h
    exact ⟨fun hc => h [] text (by rw [hc]; rfl), @NoBareReturn.of_append [c] text h⟩
  · rintro ⟨hc, h⟩ (_ | ⟨d, front⟩) rest heq <;> obtain ⟨rfl, rfl⟩ := List.cons.inj heq
    · exact hc rfl
    · exact h front rest rfl

theorem NoBareReturn.append {rest} (hfront : NoBareReturn front) (hrest : NoBareReturn rest) :
    NoBareReturn (front ++ rest) := by
  induction front with
  | nil => exact hrest
  | cons c front ih =>
    rw [noBareReturn_cons] at hfront
    rw [cons_append, noBareReturn_cons]
    exact ⟨fun hc => by simp [hfront.1 hc], ih hfront.2⟩

theorem NoBareReturn.of_notMem (h : '\r' ∉ text) : NoBareReturn text := by
  intro front rest heq
  exact absurd (by rw [heq]; simp) h

theorem NoBareReturn.lineEnding : NoBareReturn ['\r', '\n'] :=
  noBareReturn_cons.mpr ⟨fun _ => rfl, .of_notMem (by simp)⟩

theorem split_append (h : front = [] ∨ front.getLast? = some '\n') (rest : Str) :
    Lines.split '\n' (front ++ rest) = Lines.split '\n' front ++ Lines.split '\n' rest := by
  by_cases hnil : front = []
  · rw [hnil]
    rfl
  obtain ⟨pieces, last, hsplit, hfront, hpieces, hlast | hlast⟩ :=
    Lines.exists_last_piece '\n' hnil
  · have hall : ∀ l ∈ pieces ++ [last], Lines.Terminated '\n' l :=
      forall_mem_append.mpr ⟨hpieces, by simpa using hlast⟩
    rw [hsplit, ← Lines.split_flatten_append hall, hfront, flatten_append, flatten_singleton]
  · have hend := h.resolve_left hnil
    rw [hfront, getLast?_append_of_ne_nil _ hlast.1] at hend
    exact absurd (mem_of_getLast? hend) hlast.2

@[simp] theorem lines_nil : lines [] = [] := rfl

theorem lines_append (h : front = [] ∨ front.getLast? = some '\n') (rest : Str) :
    lines (front ++ rest) = lines front ++ lines rest := by
  rw [lines, split_append h, map_append]
  rfl

/-- A text that can be one line of a longer one. -/
def OneLine (l : Str) : Prop :=
  '\n' ∉ l ∧ l.getLast? ≠ some '\r'

theorem lines_line (h : OneLine l) : lines (l ++ ['\n']) = [l] := by
  have hterm : Lines.Terminated '\n' (l ++ ['\n']) := ⟨l, h.1, rfl⟩
  have hsplit := Lines.split_terminated_append hterm []
  rw [append_nil] at hsplit
  rw [lines, hsplit, Lines.split_nil, map_cons, chomp_line h.2, map_nil]

theorem unlines_eq_nil_or_getLast? (ls : List Str) :
    unlines ls = [] ∨ (unlines ls).getLast? = some '\n' := by
  rcases eq_nil_or_concat ls with rfl | ⟨init, last, rfl⟩
  · exact Or.inl rfl
  · right
    simp

theorem lines_unlines {ls} (h : ∀ l ∈ ls, OneLine l) : lines (unlines ls) = ls := by
  induction ls with
  | nil => rfl
  | cons l ls ih =>
    have hl := lines_line (h l (by simp))
    have hrest := ih fun m hm => h m (by simp [hm])
    have happ : unlines (l :: ls) = (l ++ ['\n']) ++ unlines ls := by simp
    rw [happ, lines_append (Or.inr (by simp)), hl, hrest, singleton_append]

theorem infix_of_mem_lines (h : l ∈ lines text) : l <:+: text := by
  obtain ⟨piece, hpiece, rfl⟩ := mem_map.mp h
  have hinfix : piece <:+: text := by
    have := infix_of_mem_flatten hpiece
    rwa [Lines.flatten_split] at this
  exact (chomp_front piece).isInfix.trans hinfix

theorem lineFeed_notMem_of_mem_lines (h : l ∈ lines text) : '\n' ∉ l := by
  obtain ⟨piece, hpiece, rfl⟩ := mem_map.mp h
  rcases (Lines.isLines_split '\n' text).mem hpiece with ⟨body, hbody, rfl⟩ | ⟨-, hnot⟩
  · have hfront : chomp (body ++ ['\n']) <+: body := by
      rcases chomp_cases (body ++ ['\n']) with ⟨-, hlast⟩ | ⟨h, -⟩ | h
      · simp at hlast
      · rw [← append_cancel_right h]
      · exact ⟨_, (append_cancel_right (h.trans (append_cons _ '\r' ['\n']))).symm⟩
    exact fun hmem => hbody (hfront.subset hmem)
  · exact fun hmem => hnot ((chomp_front piece).subset hmem)

theorem getLast?_chomp_ne_of_isLines {pieces} (h : Lines.IsLines '\n' pieces)
    (hbare : NoBareReturn pieces.flatten) :
    ∀ piece ∈ pieces, (chomp piece).getLast? ≠ some '\r' := by
  induction pieces with
  | nil => simp
  | cons piece pieces ih =>
    rw [forall_mem_cons]
    refine ⟨fun hlast => ?_, ih h.2 hbare.of_append⟩
    obtain ⟨init, hinit⟩ := getLast?_eq_some_iff.mp hlast
    rcases chomp_cases piece with ⟨heq, hend⟩ | ⟨-, hne⟩ | heq
    · -- Only the last piece has no line feed, so nothing follows the carriage return.
      rcases h.1 with ⟨body, -, rfl⟩ | ⟨-, rfl⟩
      · simp at hend
      · have := hbare init [] (by rw [heq, hinit]; simp)
        simp at this
    · exact hne hlast
    · have := hbare init ('\r' :: '\n' :: pieces.flatten) (by rw [heq, hinit]; simp)
      simp at this

theorem oneLine_of_mem_lines (hbare : NoBareReturn text) (h : l ∈ lines text) : OneLine l := by
  refine ⟨lineFeed_notMem_of_mem_lines h, ?_⟩
  obtain ⟨piece, hpiece, rfl⟩ := mem_map.mp h
  apply getLast?_chomp_ne_of_isLines (Lines.isLines_split '\n' text) _ piece hpiece
  rwa [Lines.flatten_split]

theorem noBareReturn_of_lines (h : ∀ l ∈ lines text, '\r' ∉ l) : NoBareReturn text := by
  have hpieces : ∀ pieces : List Str, (∀ piece ∈ pieces, '\r' ∉ chomp piece) →
      NoBareReturn pieces.flatten := by
    intro pieces hnot
    induction pieces with
    | nil => exact .of_notMem (by simp)
    | cons piece pieces ih =>
      refine NoBareReturn.append ?_ (ih fun p hp => hnot p (by simp [hp]))
      have hchomp : NoBareReturn (chomp piece) := .of_notMem (hnot piece (by simp))
      rcases chomp_cases piece with ⟨hpiece, -⟩ | ⟨hpiece, -⟩ | hpiece
      · rwa [hpiece]
      · rw [hpiece]
        exact hchomp.append (.of_notMem (by simp))
      · rw [hpiece]
        exact hchomp.append .lineEnding
  rw [← Lines.flatten_split '\n' text]
  exact hpieces _ fun piece hpiece => h _ (mem_map_of_mem hpiece)

theorem lines_append_lineFeed (hne : text ≠ []) (hbare : NoBareReturn text)
    (hlast : text.getLast? ≠ some '\n') : lines (text ++ ['\n']) = lines text := by
  obtain ⟨pieces, last, hsplit, htext, hpieces, ⟨body, -, rfl⟩ | hend⟩ :=
    Lines.exists_last_piece '\n' hne
  · simp [htext] at hlast
  · have hreturn : last.getLast? ≠ some '\r' := by
      intro h
      obtain ⟨init, rfl⟩ := getLast?_eq_some_iff.mp h
      have := hbare (pieces.flatten ++ init) [] (by rw [htext, append_assoc])
      simp at this
    have hone := Lines.split_terminated_append ⟨last, hend.2, rfl⟩ []
    have hchomp : chomp last = last := chomp_of_getLast?_ne fun h => hend.2 (mem_of_getLast? h)
    rw [append_nil, Lines.split_nil] at hone
    rw [lines, lines, hsplit, htext, append_assoc, Lines.split_flatten_append hpieces, hone]
    simp [chomp_line hreturn, hchomp]

end Facelock.Text
