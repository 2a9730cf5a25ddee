import Mathlib.Data.List.FinRange
import Facelock.Auth.Matching

/-!
# Suppression of overlapping detections

`nms` of `crates/facelock-face/src/detector.rs` sorts the detections by
confidence.  It keeps each one that overlaps no kept one by more than the
threshold.  The kept ones are remembered by position, since two detections
may be equal.  `compute_iou` is arithmetic on `f32` and is arbitrary here.
-/

namespace Facelock.Auth

open List

/-! ## A greedy choice -/

section Greedy

variable {ι : Type} (clash : ι → ι → Bool)

/-- Keep each item that clashes with none kept before it. -/
def greedy (items : List ι) : List ι :=
  items.foldl (fun keep i => if keep.any (clash i) then keep else keep ++ [i]) []

variable {clash}

theorem greedy_append (items : List ι) (last : ι) :
    greedy clash (items ++ [last]) =
      if (greedy clash items).any (clash last) then greedy clash items
      else greedy clash items ++ [last] := by
  rw [greedy, foldl_append]
  rfl

theorem greedy_sublist (items : List ι) : (greedy clash items).Sublist items := by
  induction items using List.reverseRecOn with
  | nil => exact .refl _
  | append_singleton items last ih =>
    rw [greedy_append]
    split_ifs
    · exact ih.trans (sublist_append_left _ _)
    · exact ih.append (.refl _)

theorem pairwise_greedy (items : List ι) :
    (greedy clash items).Pairwise fun i j => clash j i = false := by
  induction items using List.reverseRecOn with
  | nil => exact .nil
  | append_singleton items last ih =>
    rw [greedy_append]
    split_ifs with hany
    · exact ih
    · refine pairwise_append.mpr ⟨ih, pairwise_singleton _ _, ?_⟩
      intro i hi j hj
      obtain rfl := mem_singleton.mp hj
      simpa using fun hclash => hany (any_eq_true.mpr ⟨i, hi, hclash⟩)

theorem mem_greedy_or {R items} (hR : items.Pairwise R) {i} (hi : i ∈ items) :
    i ∈ greedy clash items ∨ ∃ k ∈ greedy clash items, clash i k = true ∧ R k i := by
  induction items using List.reverseRecOn with
  | nil => exact absurd hi not_mem_nil
  | append_singleton items last ih =>
    obtain ⟨hitems, -, hlast⟩ := pairwise_append.mp hR
    have hgrow : greedy clash items ⊆ greedy clash (items ++ [last]) := by
      rw [greedy_append]
      split_ifs
      · exact List.Subset.refl _
      · exact subset_append_left _ _
    rcases mem_append.mp hi with hi | hi
    · rcases ih hitems hi with hkept | ⟨k, hk, hclash⟩
      · exact .inl (hgrow hkept)
      · exact .inr ⟨k, hgrow hk, hclash⟩
    · obtain rfl := mem_singleton.mp hi
      by_cases hany : (greedy clash items).any (clash i) = true
      · obtain ⟨k, hk, hclash⟩ := any_eq_true.mp hany
        have hearlier := hlast k ((greedy_sublist items).mem hk) i (mem_singleton_self i)
        exact .inr ⟨k, hgrow hk, hclash, hearlier⟩
      · exact .inl (by simp [greedy_append, hany])

end Greedy

/-! ## The detections -/

section

variable (computeIou : BoundingBox → BoundingBox → Binary32) (iouThreshold : Binary32)

/-- `a` may stand before `b`: `b.confidence.partial_cmp(&a.confidence)`, or
`Equal` where they do not compare, is not `Greater`. -/
def mayPrecede (a b : Detection) : Bool :=
  !decide (a.confidence < b.confidence)

/-- The detection at `i` overlaps the one at `k` by more than the threshold. -/
def overlaps (detections : List Detection) (i k : Fin detections.length) : Bool :=
  decide (iouThreshold < computeIou (detections.get i).bbox (detections.get k).bbox)

/-- The positions that the loop over the sorted detections keeps. -/
def keep (detections : List Detection) : List (Fin detections.length) :=
  greedy (overlaps computeIou iouThreshold detections) (List.finRange detections.length)

/-- `retain` with its counter. -/
def retainKept (detections : List Detection) : List Detection :=
  ((List.finRange detections.length).filter
    (· ∈ keep computeIou iouThreshold detections)).map detections.get

def nms (detections : List Detection) : List Detection :=
  retainKept computeIou iouThreshold (detections.mergeSort mayPrecede)

end

theorem pairwise_mergeSort_mayPrecede {detections : List Detection}
    (hnan : ∀ d ∈ detections, d.confidence.isNaN = false) :
    (detections.mergeSort mayPrecede).Pairwise fun a b => b.confidence ≤ a.confidence := by
  -- `mayPrecede` is not transitive at a NaN, so the sort is compared with one by rank.
  let byRank (a b : Detection) : Bool := decide (b.confidence.rank ≤ a.confidence.rank)
  have hcongr : ∀ a ∈ detections, ∀ b ∈ detections, mayPrecede a b = byRank (id a) (id b) := by
    intro a ha b hb
    simp [mayPrecede, byRank, Binary32.lt_def, hnan a ha, hnan b hb, ← decide_not]
  have hsort : detections.mergeSort mayPrecede = detections.mergeSort byRank := by
    simpa using map_mergeSort hcongr
  have hrank : (detections.mergeSort byRank).Pairwise fun a b => byRank a b = true := by
    apply pairwise_mergeSort
    · intro a b c
      simp only [byRank, decide_eq_true_eq]
      omega
    · intro a b
      simp only [byRank, Bool.or_eq_true, decide_eq_true_eq]
      omega
  rw [hsort]
  refine hrank.imp_of_mem fun {a b} ha hb h => ?_
  have ha := hnan a (mem_mergeSort.mp ha)
  have hb := hnan b (mem_mergeSort.mp hb)
  exact ⟨hb, ha, of_decide_eq_true h⟩

section

variable {computeIou : BoundingBox → BoundingBox → Binary32} {iouThreshold : Binary32}

theorem retainKept_sublist (detections : List Detection) :
    (retainKept computeIou iouThreshold detections).Sublist detections := by
  have h : (retainKept computeIou iouThreshold detections).Sublist
      ((List.finRange detections.length).map detections.get) := filter_sublist.map _
  rwa [map_get_finRange] at h

theorem pairwise_retainKept (hsymm : ∀ a b, computeIou a b = computeIou b a)
    (detections : List Detection) :
    (retainKept computeIou iouThreshold detections).Pairwise fun a b =>
      ¬ iouThreshold < computeIou a.bbox b.bbox := by
  let Apart (i j : Fin detections.length) : Prop :=
    ¬ iouThreshold < computeIou (detections.get i).bbox (detections.get j).bbox
  have hswap : ∀ {i j}, Apart i j → Apart j i := by
    intro i j h
    simpa [Apart, hsymm] using h
  have hkeep : (keep computeIou iouThreshold detections).Pairwise Apart :=
    (pairwise_greedy _).imp fun h => hswap (of_decide_eq_false h)
  have : Std.Symm Apart := ⟨fun _ _ => hswap⟩
  rw [retainKept, pairwise_map]
  refine ((nodup_finRange _).filter _).imp_of_mem fun {i j} hi hj hne => ?_
  have hi := of_decide_eq_true (mem_filter.mp hi).2
  have hj := of_decide_eq_true (mem_filter.mp hj).2
  exact hkeep.forall hi hj hne

/-- Each detection that is removed overlaps one that is left and stood
before it. -/
theorem retainKept_dropped {R detections} (hR : detections.Pairwise R) :
    ∃ dropped, (retainKept computeIou iouThreshold detections ++ dropped).Perm detections ∧
      ∀ d ∈ dropped, ∃ k ∈ retainKept computeIou iouThreshold detections,
        iouThreshold < computeIou d.bbox k.bbox ∧ R k d := by
  let kept (i : Fin detections.length) : Bool := i ∈ keep computeIou iouThreshold detections
  refine ⟨((List.finRange _).filter fun i => !kept i).map detections.get, ?_, ?_⟩
  · have hperm := (filter_append_perm kept (List.finRange _)).map detections.get
    rwa [map_get_finRange, map_append] at hperm
  · intro d hd
    obtain ⟨i, hi, rfl⟩ := mem_map.mp hd
    have hnot : i ∉ keep computeIou iouThreshold detections := by simpa [kept] using hi
    have hpositions : (List.finRange detections.length).Pairwise fun i j =>
        R (detections.get i) (detections.get j) := by
      rwa [← pairwise_map, map_get_finRange]
    obtain ⟨k, hk, hoverlaps, hearlier⟩ :=
      (mem_greedy_or hpositions (mem_finRange i)).resolve_left hnot
    refine ⟨detections.get k, ?_, of_decide_eq_true hoverlaps, hearlier⟩
    exact mem_map_of_mem (mem_filter.mpr ⟨mem_finRange k, decide_eq_true hk⟩)

/-- The detections that `nms` keeps are some of the given ones, in order of
confidence, and do not overlap.  Each other one overlaps a kept one of at
least its confidence. -/
theorem nms_independent_maximal (hsymm : ∀ a b, computeIou a b = computeIou b a)
    {detections : List Detection} (hnan : ∀ d ∈ detections, d.confidence.isNaN = false) :
    let kept := nms computeIou iouThreshold detections
    (kept.Pairwise fun a b => b.confidence ≤ a.confidence) ∧
      (kept.Pairwise fun a b => ¬ iouThreshold < computeIou a.bbox b.bbox) ∧
      ∃ dropped, (kept ++ dropped).Perm detections ∧
        ∀ d ∈ dropped, ∃ k ∈ kept,
          iouThreshold < computeIou d.bbox k.bbox ∧ d.confidence ≤ k.confidence := by
  have hsorted := pairwise_mergeSort_mayPrecede hnan
  obtain ⟨dropped, hperm, hdropped⟩ := retainKept_dropped hsorted
  exact ⟨hsorted.sublist (retainKept_sublist _), pairwise_retainKept hsymm _, dropped,
    hperm.trans (mergeSort_perm _ _), hdropped⟩

/-- Of two equal detections one is kept. -/
theorem nms_independent_maximal_twins : let twin : Detection :=
      { bbox := ⟨.zero, .zero, .one, .one⟩, confidence := .one
        landmarks := Vector.replicate 5 ⟨.zero, .zero⟩ }
    let kept := nms (fun _ _ => .one) .zero [twin, twin]
    (kept.Pairwise fun a b => b.confidence ≤ a.confidence) ∧
      (kept.Pairwise fun _ _ => ¬ Binary32.zero < .one) ∧
      ∃ dropped, (kept ++ dropped).Perm [twin, twin] ∧
        ∀ d ∈ dropped, ∃ k ∈ kept, Binary32.zero < .one ∧ d.confidence ≤ k.confidence :=
  nms_independent_maximal (fun _ _ => rfl) (by decide)

end

end Facelock.Auth
