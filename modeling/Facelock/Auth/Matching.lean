import Facelock.Lib.RingBuffer
import Facelock.Auth.Config

/-!
# Comparing faces

The three parts that the recognition loop is built from.

* `bestMatch` is `best_match` of `crates/facelock-core/src/types.rs`: the
  stored template with the largest similarity.
* `FrameVarianceWindow`, of the same file, holds the embeddings of the
  last matching frames in a ring buffer.
* `LandmarkTracker` of `crates/facelock-daemon/src/liveness.rs` holds the
  landmarks of the last frames with a face.

An embedding is any type.  What the source computes from pixels and in
`f32` arithmetic is collected in `Numerics` and is arbitrary: no result
below depends on it.
-/

namespace Facelock.Auth

structure BoundingBox where
  x : Binary32
  y : Binary32
  width : Binary32
  height : Binary32

structure Point2D where
  x : Binary32
  y : Binary32
  deriving DecidableEq, Repr

abbrev Landmarks := Vector Point2D 5

open List

structure Detection where
  bbox : BoundingBox
  confidence : Binary32
  landmarks : Landmarks

/-- What is computed from pixels and in `f32` arithmetic. -/
structure Numerics (Embedding Frame : Type) where
  cosineSimilarity : Embedding → Embedding → Binary32
  /-- `(dx * dx + dy * dy).sqrt()` in `check_liveness`. -/
  displacement : Point2D → Point2D → Binary32
  /-- `check_ir_texture` on the grayscale plane of a frame. -/
  checkIrTexture : Frame → BoundingBox → Binary32 → Bool
  isDarkWithConfig : Frame → Binary32 → UInt8 → Bool

variable {Embedding Frame : Type} (num : Numerics Embedding Frame)

/-! ## The best match -/

def floatBitsToOrdered (bits : UInt32) : UInt32 :=
  let mask := (bits.toInt32 >>> 31).toUInt32
  bits ^^^ (mask ||| 0x80000000)

/-- `u32::MAX`, which stands for "no match" inside `best_match`. -/
def noMatchId : UInt32 := 0xffffffff

/-- The accumulators of `best_match`. -/
structure Best where
  ord : UInt32
  sim : Binary32
  id : UInt32

def Best.initial : Best :=
  { ord := floatBitsToOrdered Binary32.negOne.bits, sim := Binary32.negOne, id := noMatchId }

section

variable (embedding : Embedding) (stored : List (UInt32 × Embedding))

def Best.select (best : Best) (entry : UInt32 × Embedding) : Best :=
  let sim := num.cosineSimilarity embedding entry.2
  let simOrd := floatBitsToOrdered sim.bits
  if best.ord < simOrd then { ord := simOrd, sim := sim, id := entry.1 } else best

def bestMatch : Binary32 × Option UInt32 :=
  let best := stored.foldl (Best.select num embedding) Best.initial
  if stored.isEmpty then (Binary32.zero, none)
  else (best.sim, if best.id = noMatchId then none else some best.id)

/-- The similarity of an entry, as it is compared. -/
def ordOf (entry : UInt32 × Embedding) : UInt32 :=
  floatBitsToOrdered (num.cosineSimilarity embedding entry.2).bits

/-- The accumulators hold their first values, or those of the first of the
entries that no other exceeds. -/
theorem foldl_select : let best := stored.foldl (Best.select num embedding) Best.initial
    (∀ entry ∈ stored, ordOf num embedding entry ≤ best.ord) ∧
      (best = Best.initial ∨ ∃ before entry after, stored = before ++ entry :: after ∧
        best = ⟨ordOf num embedding entry, num.cosineSimilarity embedding entry.2, entry.1⟩ ∧
        ∀ earlier ∈ before, ordOf num embedding earlier < best.ord) := by
  induction stored using List.reverseRecOn with
  | nil => exact ⟨by simp, Or.inl rfl⟩
  | append_singleton stored entry ih =>
    obtain ⟨hle, hbest⟩ := ih
    simp only [foldl_append, foldl_cons, foldl_nil, mem_append, mem_singleton]
    rw [Best.select]
    split_ifs with hgreater
    · have hbelow : ∀ earlier ∈ stored, ordOf num embedding earlier < ordOf num embedding entry :=
        fun earlier hearlier => UInt32.lt_of_le_of_lt (hle earlier hearlier) hgreater
      refine ⟨?_, Or.inr ⟨stored, entry, [], rfl, rfl, hbelow⟩⟩
      rintro earlier (hearlier | rfl)
      · exact UInt32.le_of_lt (hbelow earlier hearlier)
      · exact UInt32.le_refl _
    · refine ⟨?_, hbest.imp_right ?_⟩
      · rintro earlier (hearlier | rfl)
        · exact hle earlier hearlier
        · exact UInt32.not_lt.mp hgreater
      · rintro ⟨before, first, after, rfl, hfirst⟩
        exact ⟨before, first, after ++ [entry], by simp, hfirst⟩

end

/-- A similarity above zero is that of an entry, and the id is that of the
same entry unless it is `noMatchId`. -/
theorem bestMatch_of_pos {embedding stored}
    (h : Binary32.zero < (bestMatch num embedding stored).1) :
    ∃ entry ∈ stored,
      (bestMatch num embedding stored).1 = num.cosineSimilarity embedding entry.2 ∧
      (bestMatch num embedding stored).2 =
        if entry.1 = noMatchId then none else some entry.1 := by
  unfold bestMatch at h ⊢
  by_cases hempty : stored.isEmpty = true
  · rw [if_pos hempty] at h
    exact absurd h (by decide)
  · rw [if_neg hempty] at h ⊢
    rcases (foldl_select num embedding stored).2 with hinit | ⟨_, entry, _, hsplit, hbest, -⟩
    · rw [hinit] at h
      exact absurd h (by decide)
    · refine ⟨entry, by simp [hsplit], ?_, ?_⟩
      · rw [hbest]
      · rw [hbest]

/-- A positive pattern gets its sign bit, and a negative one is
complemented. -/
theorem toNat_floatBitsToOrdered (bits : UInt32) :
    (floatBitsToOrdered bits).toNat =
      if bits.toNat < 2 ^ 31 then bits.toNat + 2 ^ 31 else 2 ^ 32 - 1 - bits.toNat := by
  obtain ⟨word⟩ := bits
  show (word ^^^ (word.sshiftRight 31 ||| 0x80000000#32)).toNat =
    if word.toNat < 2 ^ 31 then word.toNat + 2 ^ 31 else 2 ^ 32 - 1 - word.toNat
  cases hsign : word.msb with
  | false =>
    have hlt : word.toNat < 2 ^ 31 := by
      have := BitVec.msb_eq_false_iff_two_mul_lt.mp hsign
      omega
    have hmask : word >>> 31 = 0#32 := by
      apply BitVec.eq_of_toNat_eq
      simp [Nat.shiftRight_eq_div_pow]
      omega
    have hbit : word.toNat ^^^ 2 ^ 31 = word.toNat + 2 ^ 31 := by
      have hor : 2 ^ 31 + word.toNat = 2 ^ 31 ||| word.toNat := by
        simpa using Nat.two_pow_add_eq_or_of_lt hlt 1
      rw [Nat.add_comm, hor]
      apply Nat.eq_of_testBit_eq
      intro i
      rw [Nat.testBit_xor, Nat.testBit_or, Nat.testBit_two_pow]
      by_cases hi : 31 = i
      · rw [← hi, Nat.testBit_lt_two_pow hlt]
        rfl
      · simp [hi]
    rw [BitVec.sshiftRight_eq_of_msb_false hsign, hmask, if_pos hlt, BitVec.toNat_xor]
    exact hbit
  | true =>
    have hge : ¬word.toNat < 2 ^ 31 := by
      have := BitVec.msb_eq_true_iff_two_mul_ge.mp hsign
      omega
    have hmask : (~~~word) >>> 31 = 0#32 := by
      apply BitVec.eq_of_toNat_eq
      simp [Nat.shiftRight_eq_div_pow]
      omega
    have hones : ~~~0#32 ||| 0x80000000#32 = BitVec.allOnes 32 := by decide
    rw [BitVec.sshiftRight_eq_of_msb_true hsign, hmask, hones, if_neg hge, BitVec.xor_allOnes,
      BitVec.toNat_not]

/-- Unsigned comparison after the trick is comparison by sign and
magnitude. -/
theorem place_eq (x : Binary32) : ((floatBitsToOrdered x.bits).toNat : Int) = x.place + 2 ^ 31 := by
  have hbits := x.bits.toNat_lt
  rw [toNat_floatBitsToOrdered, Binary32.place, Binary32.magnitude_eq]
  split_ifs <;> omega

theorem place_lt_iff (x y : Binary32) :
    x.place < y.place ↔ floatBitsToOrdered x.bits < floatBitsToOrdered y.bits := by
  have hx := place_eq x
  have hy := place_eq y
  rw [UInt32.lt_iff_toNat_lt]
  omega

/-- The trick orders the patterns by sign and magnitude, so `best_match`
returns the greatest similarity and the id of the first entry that has
it. -/
theorem bestMatch_first_greatest :
    (∀ x y : Binary32, x.place < y.place ↔
      floatBitsToOrdered x.bits < floatBitsToOrdered y.bits) ∧
    ∀ (embedding : Embedding) (stored : List (UInt32 × Embedding)), stored ≠ [] →
      (∀ entry ∈ stored, entry.1 < noMatchId) →
      (∀ entry ∈ stored,
        Binary32.negOne.place < (num.cosineSimilarity embedding entry.2).place) →
      ∃ before entry after, stored = before ++ entry :: after ∧
        bestMatch num embedding stored =
          (num.cosineSimilarity embedding entry.2, some entry.1) ∧
        (∀ other ∈ stored, (num.cosineSimilarity embedding other.2).place ≤
          (num.cosineSimilarity embedding entry.2).place) ∧
        ∀ earlier ∈ before, (num.cosineSimilarity embedding earlier.2).place <
          (num.cosineSimilarity embedding entry.2).place := by
  refine ⟨place_lt_iff, fun embedding stored hne hids hsims => ?_⟩
  obtain ⟨hle, hinit | ⟨before, entry, after, rfl, hbest, hbefore⟩⟩ :=
    foldl_select num embedding stored
  · obtain ⟨entry, hentry⟩ := exists_mem_of_ne_nil stored hne
    have habove := (place_lt_iff _ _).mp (hsims entry hentry)
    rw [hinit] at hle
    exact absurd (hle entry hentry) (UInt32.not_le.mpr habove)
  · rw [hbest] at hle hbefore
    refine ⟨before, entry, after, rfl, ?_, ?_, ?_⟩
    · have hid : entry.1 ≠ noMatchId := UInt32.ne_of_lt (hids entry (by simp))
      simp [bestMatch, hbest, hid]
    · intro other hother
      by_contra hlt
      exact absurd (hle other hother)
        (UInt32.not_le.mpr ((place_lt_iff _ _).mp (Int.not_le.mp hlt)))
    · intro earlier hearlier
      exact (place_lt_iff _ _).mpr (hbefore earlier hearlier)

/-- Two entries with the same similarity. -/
theorem bestMatch_first_greatest_tie : let num : Numerics Unit Unit :=
      ⟨fun _ _ => Binary32.one, fun _ _ => Binary32.zero, fun _ _ _ => true, fun _ _ _ => true⟩
    ∃ entry ∈ [((1 : UInt32), ()), (2, ())],
      bestMatch num () [(1, ()), (2, ())] = (Binary32.one, some entry.1) := by
  intro num
  have hsims : Binary32.negOne.place < Binary32.one.place := by decide
  obtain ⟨before, entry, after, hsplit, hbest, -⟩ :=
    (bestMatch_first_greatest num).2 () [(1, ()), (2, ())] (by simp) (by simp [noMatchId])
      fun _ _ => hsims
  exact ⟨entry, by simp [hsplit], hbest⟩

/-! ## The variance window -/

/-- `FrameVarianceWindow`.  Zeroizing evicted embeddings has no effect on
what the window holds. -/
abbrev FrameVarianceWindow (Embedding : Type) := RingBuffer Embedding

namespace FrameVarianceWindow

def new (minAuthFrames : Nat) : FrameVarianceWindow Embedding :=
  RingBuffer.empty (max minAuthFrames 2) (by omega)

variable (window : FrameVarianceWindow Embedding)

def zeroizeAll : FrameVarianceWindow Embedding :=
  RingBuffer.empty window.capacity window.capacity_pos

def isFull : Bool :=
  window.slots.length == window.capacity

/-- `pair_similarities`: the similarities of consecutive entries. -/
def pairSimilarities : List Binary32 :=
  (List.range' 1 (window.slots.length - 1)).filterMap fun i =>
    match window.slots[window.indexAt (i - 1)]?, window.slots[window.indexAt i]? with
    | some older, some newer => some (num.cosineSimilarity older newer)
    | _, _ => none

def passes (maxSimilarity : Binary32) : Bool :=
  isFull window && (pairSimilarities num window).all fun sim => decide (sim ≤ maxSimilarity)

theorem passes_iff {window maxSimilarity} :
    passes num window maxSimilarity = true ↔
      window.slots.length = window.capacity ∧
        List.IsChain (fun older newer => num.cosineSimilarity older newer ≤ maxSimilarity)
          window.toList := by
  rw [passes, Bool.and_eq_true, isFull, beq_iff_eq, all_eq_true]
  refine and_congr_right fun _ => ?_
  rw [isChain_iff_getElem]
  simp only [pairSimilarities, mem_filterMap, decide_eq_true_eq]
  constructor
  · intro h i hi
    rw [RingBuffer.length_toList] at hi
    refine h _ ⟨i + 1, mem_range'_1.mpr (by omega), ?_⟩
    rw [Nat.add_sub_cancel, RingBuffer.getElem?_indexAt window (by omega),
      RingBuffer.getElem?_indexAt window (by omega), getElem?_eq_getElem (by simp; omega),
      getElem?_eq_getElem (by simp; omega)]
  · rintro h sim ⟨i, hi, hsim⟩
    rw [mem_range'_1] at hi
    obtain ⟨i, rfl⟩ : ∃ k, i = k + 1 := ⟨i - 1, by omega⟩
    rw [Nat.add_sub_cancel, RingBuffer.getElem?_indexAt window (by omega),
      RingBuffer.getElem?_indexAt window (by omega), getElem?_eq_getElem (by simp; omega),
      getElem?_eq_getElem (by simp; omega)] at hsim
    obtain rfl := Option.some.inj hsim
    exact h i (by simp; omega)

/-- The calls that change a window. -/
inductive Call (Embedding : Type) where
  | push (embedding : Embedding)
  | zeroizeAll

def apply : Call Embedding → FrameVarianceWindow Embedding
  | .push embedding => window.push embedding
  | .zeroizeAll => zeroizeAll window

/-- The embeddings pushed since the last `zeroize_all`, in order. -/
def pushed (calls : List (Call Embedding)) : List Embedding :=
  calls.foldl (fun embeddings call => match call with
    | .push embedding => embeddings ++ [embedding]
    | .zeroizeAll => []) []

theorem foldl_apply (minAuthFrames : Nat) (calls : List (Call Embedding)) :
    let window := calls.foldl apply (new minAuthFrames)
    window.capacity = max minAuthFrames 2 ∧
      window.toList = (pushed calls).rtake (max minAuthFrames 2) := by
  induction calls using List.reverseRecOn with
  | nil => exact ⟨rfl, by simp [new, pushed, RingBuffer.toList, RingBuffer.empty]⟩
  | append_singleton calls call ih =>
    obtain ⟨hcapacity, hlist⟩ := ih
    rw [foldl_append, pushed, foldl_append]
    cases call with
    | push embedding =>
      refine ⟨(RingBuffer.capacity_push _ _).trans hcapacity, ?_⟩
      show (RingBuffer.push _ embedding).toList = (pushed calls ++ [embedding]).rtake _
      rw [RingBuffer.toList_push, hcapacity, hlist, RingBuffer.rtake_rtake_concat _ _ (by omega)]
    | zeroizeAll =>
      refine ⟨hcapacity, ?_⟩
      simp [apply, zeroizeAll, RingBuffer.toList, RingBuffer.empty]

/-- A window is the list of the last embeddings that were pushed since it
was last emptied. -/
theorem window_refines_list (minAuthFrames : Nat) (calls : List (Call Embedding))
    (maxSimilarity : Binary32) :
    let window := calls.foldl apply (new minAuthFrames)
    let kept := (pushed calls).rtake (max 2 minAuthFrames)
    window.toList = kept ∧
      (isFull window = true ↔ max 2 minAuthFrames ≤ (pushed calls).length) ∧
      (passes num window maxSimilarity = true ↔ isFull window = true ∧
        kept.IsChain fun older newer => num.cosineSimilarity older newer ≤ maxSimilarity) := by
  intro window kept
  obtain ⟨hcapacity, hlist⟩ := foldl_apply minAuthFrames calls
  rw [max_comm] at hcapacity hlist
  refine ⟨hlist, ?_, ?_⟩
  · rw [isFull, beq_iff_eq, ← RingBuffer.length_toList, hlist, hcapacity, RingBuffer.length_rtake]
    omega
  · rw [passes_iff, hlist, isFull, beq_iff_eq]

end FrameVarianceWindow

/-! ## The landmark tracker -/

structure LandmarkTracker where
  history : List Landmarks
  maxFrames : Nat
  displacementThreshold : Binary32
  minMovingLandmarks : Nat

namespace LandmarkTracker

def new (maxFrames : Nat) (displacementThreshold : Binary32) (minMovingLandmarks : Nat) :
    LandmarkTracker :=
  { history := [], maxFrames, displacementThreshold, minMovingLandmarks }

variable (tracker : LandmarkTracker)

def push (landmarks : Landmarks) : LandmarkTracker :=
  let history :=
    if tracker.maxFrames ≤ tracker.history.length then tracker.history.tail else tracker.history
  { tracker with history := history ++ [landmarks] }

/-- `moving_count` of a pair of frames. -/
def movingCount (displacementThreshold : Binary32) (older newer : Landmarks) : Nat :=
  (older.zip newer).toList.countP fun pair =>
    decide (displacementThreshold ≤ num.displacement pair.1 pair.2)

def checkLiveness : Bool :=
  if tracker.history.length < 2 then false
  else
    (tracker.history.zip tracker.history.tail).any fun pair =>
      decide (tracker.minMovingLandmarks ≤
        movingCount num tracker.displacementThreshold pair.1 pair.2)

theorem push_eq (hpos : 0 < tracker.maxFrames)
    (hle : tracker.history.length ≤ tracker.maxFrames) (landmarks : Landmarks) :
    tracker.push landmarks =
      { tracker with history := (tracker.history ++ [landmarks]).rtake tracker.maxFrames } := by
  rw [push]
  split_ifs with h
  · rw [RingBuffer.rtake_concat_of_full hpos (by omega)]
  · rw [RingBuffer.rtake_of_length_le (by simp; omega)]

theorem foldl_push (maxFrames : Nat) (displacementThreshold : Binary32)
    (minMovingLandmarks : Nat) (hpos : 0 < maxFrames) (landmarks : List Landmarks) :
    landmarks.foldl push (new maxFrames displacementThreshold minMovingLandmarks) =
      { history := landmarks.rtake maxFrames, maxFrames, displacementThreshold,
        minMovingLandmarks } := by
  induction landmarks using List.reverseRecOn with
  | nil => simp [new]
  | append_singleton landmarks last ih =>
    have hle : (landmarks.rtake maxFrames).length ≤ maxFrames := by
      rw [RingBuffer.length_rtake]
      omega
    rw [foldl_append, ih, foldl_cons, foldl_nil, push_eq _ hpos hle]
    simp [RingBuffer.rtake_rtake_concat _ _ hpos]

theorem checkLiveness_eq_true {tracker : LandmarkTracker} (h : tracker.checkLiveness num = true) :
    ∃ older newer, [older, newer] <:+: tracker.history ∧
      tracker.minMovingLandmarks ≤ movingCount num tracker.displacementThreshold older newer := by
  rw [checkLiveness] at h
  split_ifs at h with hlen
  obtain ⟨⟨older, newer⟩, hmem, hmoving⟩ := any_eq_true.mp h
  refine ⟨older, newer, ?_, by simpa using hmoving⟩
  obtain ⟨i, hi, hpair⟩ := mem_iff_getElem.mp hmem
  have hbound : i < min tracker.history.length (tracker.history.length - 1) := by
    simpa [length_zip, length_tail] using hi
  simp only [getElem_zip, getElem_tail, Prod.mk.injEq] at hpair
  refine ⟨tracker.history.take i, tracker.history.drop (i + 2), ?_⟩
  rw [← hpair.1, ← hpair.2, append_assoc]
  conv_rhs => rw [← take_append_drop i tracker.history]
  rw [drop_eq_getElem_cons (i := i) (by omega), drop_eq_getElem_cons (i := i + 1) (by omega)]
  rfl

end LandmarkTracker

end Facelock.Auth
