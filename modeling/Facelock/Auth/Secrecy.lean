import Facelock.Auth.Evidence

/-!
# Attempts that differ in their templates

Two attempts see the same camera, engine, clock and token, and differ in
the templates that the faces are compared with.  As long as no face
reaches the threshold in either of them, the two runs go through the same
passes.  The loop variables are the same except the best similarity and
the model that it belongs to (`Indistinct`), and these two end up in the
similarity of the outcome and nowhere else (`AuthOutcome.blind`).

The best similarity starts at zero, so a threshold that is not above zero
is reached without any face.  Then no face improves on zero in either
run, and both match without a model (`Unmatched`).
-/

namespace Facelock.Auth

open List

/-- The outcome without its similarity. -/
def AuthOutcome.blind : AuthOutcome → AuthOutcome
  | .authResult result => .authResult { result with similarity := .zero }
  | outcome => outcome

section

variable {Embedding Frame : Type} (num : Numerics Embedding Frame)

section

variable (attempt : Attempt Embedding) (ticks : List (Tick Embedding Frame))

/-- The attempt with other templates. -/
def Attempt.withStored (stored : List (UInt32 × Embedding)) : Attempt Embedding :=
  { attempt with stored }

/-- No face that the run compares reaches the threshold. -/
def Unreached : Prop :=
  ∀ tick ∈ ticks, ∀ frame faces, seenFaces num attempt tick = some (frame, faces) →
    ∀ face ∈ faces, isMatching num attempt frame face = false

theorem unreached_iff {attempt ticks} :
    (ticks.all fun tick => (seenFaces num attempt tick).all fun seen =>
      seen.2.all fun face => !isMatching num attempt seen.1 face) = true ↔
      Unreached num attempt ticks := by
  simp only [all_eq_true, Option.all_eq_true, Bool.not_eq_true', Unreached]
  constructor
  · intro h tick htick frame faces hseen face hface
    exact h tick htick (frame, faces) hseen face hface
  · intro h tick htick seen hseen face hface
    exact h tick htick seen.1 seen.2 hseen face hface

instance : Decidable (Unreached num attempt ticks) :=
  decidable_of_iff _ (unreached_iff num)

end

/-- The loop variables of an attempt in which no face has reached the
threshold. -/
structure Unmatched (attempt : Attempt Embedding) (state : LoopState Embedding Frame) : Prop where
  window : state.varianceWindow = FrameVarianceWindow.new attempt.config.security.minAuthFrames
  low : Binary32.zero ≤ state.bestSimilarity
  quiet : attempt.threshold ≤ state.bestSimilarity →
    state.bestModelId = none ∧ attempt.threshold ≤ Binary32.zero

/-- The loop variables with another best match. -/
def LoopState.withBest (state : LoopState Embedding Frame) (similarity : Binary32)
    (id : Option UInt32) : LoopState Embedding Frame :=
  { state with bestSimilarity := similarity, bestModelId := id }

/-- The loop variables agree except for the best match. -/
structure Indistinct (attempt : Attempt Embedding) (first second : LoopState Embedding Frame) :
    Prop where
  same : second = first.withBest second.bestSimilarity second.bestModelId
  first : Unmatched attempt first
  second : Unmatched attempt second

/-- Two passes that end in the same way. -/
inductive SameEnd (attempt : Attempt Embedding) : Flow Embedding Frame → Flow Embedding Frame → Prop
  | next {first second : LoopState Embedding Frame} (h : Indistinct attempt first second) :
      SameEnd attempt (.next first) (.next second)
  | done {first second : Report Frame} (h : first.outcome.blind = second.outcome.blind) :
      SameEnd attempt (.done first) (.done second)

variable {num} {attempt : Attempt Embedding} {stored : List (UInt32 × Embedding)}
  {first second : LoopState Embedding Frame}

/-! ## Comparing faces -/

theorem Unmatched.improve (h : Unmatched attempt first) {frameBest}
    (hbelow : ¬ attempt.threshold ≤ frameBest.1) : Unmatched attempt (first.improve frameBest) := by
  unfold LoopState.improve
  split
  · next hlt =>
    exact ⟨h.window, Binary32.le_trans h.low (Binary32.le_of_lt hlt), fun hle => absurd hle hbelow⟩
  · exact h

theorem Indistinct.improve (h : Indistinct attempt first second) {firstBest secondBest}
    (hfirst : ¬ attempt.threshold ≤ firstBest.1) (hsecond : ¬ attempt.threshold ≤ secondBest.1) :
    Indistinct attempt (first.improve firstBest) (second.improve secondBest) := by
  refine ⟨?_, h.first.improve hfirst, h.second.improve hsecond⟩
  unfold LoopState.improve
  rw [h.same]
  split <;> split <;> rfl

theorem Indistinct.compareFace (h : Indistinct attempt first second) {frame face}
    (hfirst : isMatching num attempt frame face = false)
    (hsecond : isMatching num (attempt.withStored stored) frame face = false) (matched : Bool) :
    ∃ first' second',
      compareFace num attempt frame (first, matched) face = (first', matched) ∧
      compareFace num (attempt.withStored stored) frame (second, matched) face =
        (second', matched) ∧
      Indistinct attempt first' second' := by
  have htexture : passesTexture num (attempt.withStored stored) frame face =
      passesTexture num attempt frame face := rfl
  unfold isMatching at hfirst hsecond
  unfold Auth.compareFace
  rw [htexture] at hsecond ⊢
  cases hpasses : passesTexture num attempt frame face with
  | false => exact ⟨first, second, rfl, rfl, h⟩
  | true =>
    rw [hpasses, Bool.true_and, decide_eq_false_iff_not] at hfirst hsecond
    refine ⟨_, _, ?_, ?_, h.improve hfirst hsecond⟩
    · rw [Bool.not_true, if_neg (by simp), if_neg fun hboth => hfirst hboth.1]
    · rw [Bool.not_true, if_neg (by simp), if_neg fun hboth => hsecond hboth.1]

theorem Indistinct.compareFaces (h : Indistinct attempt first second) {frame faces}
    (hfirst : ∀ face ∈ faces, isMatching num attempt frame face = false)
    (hsecond : ∀ face ∈ faces, isMatching num (attempt.withStored stored) frame face = false) :
    Indistinct attempt (compareFaces num attempt frame first faces)
      (compareFaces num (attempt.withStored stored) frame second faces) := by
  unfold Auth.compareFaces
  generalize false = matched
  induction faces generalizing first second with
  | nil => exact h
  | cons face faces ih =>
    obtain ⟨first', second', heq, heq', hnext⟩ := h.compareFace
      (hfirst face (mem_cons_self ..)) (hsecond face (mem_cons_self ..)) matched
    rw [foldl_cons, foldl_cons, heq, heq']
    exact ih hnext (fun other hmem => hfirst other (mem_cons_of_mem _ hmem))
      fun other hmem => hsecond other (mem_cons_of_mem _ hmem)

theorem Indistinct.faceDetected (h : Indistinct attempt first second) :
    second.faceDetected = first.faceDetected := by
  rw [h.same]
  rfl

theorem Indistinct.landmarkTracker (h : Indistinct attempt first second) :
    second.landmarkTracker = first.landmarkTracker := by
  rw [h.same]
  rfl

theorem withStored_config : (attempt.withStored stored).config = attempt.config := rfl

/-! ## One pass -/

/-- A window that was never written to is not full. -/
theorem not_passes_new (minAuthFrames : Nat) (maxSimilarity : Binary32) :
    FrameVarianceWindow.passes num (FrameVarianceWindow.new minAuthFrames) maxSimilarity =
      false := by
  have hfull : FrameVarianceWindow.isFull
      (FrameVarianceWindow.new minAuthFrames : FrameVarianceWindow Embedding) = false := by
    unfold FrameVarianceWindow.isFull FrameVarianceWindow.new
    rw [beq_eq_false_iff_ne]
    show 0 ≠ max minAuthFrames 2
    omega
  rw [FrameVarianceWindow.passes, hfull, Bool.false_and]

theorem Indistinct.reaches_iff (h : Indistinct attempt first second) :
    attempt.threshold ≤ first.bestSimilarity ↔ attempt.threshold ≤ second.bestSimilarity :=
  ⟨fun hle => Binary32.le_trans (h.first.quiet hle).2 h.second.low,
    fun hle => Binary32.le_trans (h.second.quiet hle).2 h.first.low⟩

theorem Indistinct.gates (h : Indistinct attempt first second) :
    SameEnd attempt (gates num attempt first)
      (gates num (attempt.withStored stored) second) := by
  have hthreshold : (attempt.withStored stored).threshold = attempt.threshold := rfl
  unfold Auth.gates
  dsimp only
  rw [h.first.window, h.second.window, h.landmarkTracker, withStored_config, hthreshold,
    not_passes_new]
  by_cases hvariance : attempt.config.security.requireFrameVariance = true
  · rw [if_pos hvariance, if_pos hvariance]
    exact .next h
  · rw [if_neg hvariance, if_neg hvariance]
    by_cases hreaches : attempt.threshold ≤ first.bestSimilarity
    · have hreaches' : attempt.threshold ≤ second.bestSimilarity := h.reaches_iff.mp hreaches
      rw [if_pos hreaches, if_pos hreaches']
      split
      · exact .next h
      · refine .done ?_
        unfold succeed
        rw [(h.first.quiet hreaches).1, (h.second.quiet hreaches').1, h.faceDetected]
        rfl
    · have hreaches' : ¬ attempt.threshold ≤ second.bestSimilarity :=
        fun hle => hreaches (h.reaches_iff.mpr hle)
      rw [if_neg hreaches, if_neg hreaches']
      exact .next h

theorem Indistinct.update (h : Indistinct attempt first second)
    (change : LoopState Embedding Frame → LoopState Embedding Frame)
    (hchange : ∀ state similarity id,
      change (state.withBest similarity id) = (change state).withBest similarity id)
    (hwindow : ∀ state, (change state).varianceWindow = state.varianceWindow) :
    Indistinct attempt (change first) (change second) := by
  have hbest : ∀ state, (change state).bestSimilarity = state.bestSimilarity ∧
      (change state).bestModelId = state.bestModelId := by
    intro state
    have hsame : change state =
        (change state).withBest state.bestSimilarity state.bestModelId :=
      hchange state state.bestSimilarity state.bestModelId
    rw [hsame]
    exact ⟨rfl, rfl⟩
  have hunmatched : ∀ {state}, Unmatched attempt state → Unmatched attempt (change state) := by
    intro state hstate
    refine ⟨(hwindow state).trans hstate.window, ?_, ?_⟩
    · rw [(hbest state).1]
      exact hstate.low
    · rw [(hbest state).1, (hbest state).2]
      exact hstate.quiet
  refine ⟨?_, hunmatched h.first, hunmatched h.second⟩
  rw [(hbest second).1, (hbest second).2, ← hchange, ← h.same]

theorem Indistinct.finish (h : Indistinct attempt first second) :
    (finish attempt first).outcome.blind =
      (finish (attempt.withStored stored) second).outcome.blind := by
  have hdark : (second.darkCount = second.frameCount ∧ 0 < second.frameCount) ↔
      first.darkCount = first.frameCount ∧ 0 < first.frameCount := by
    rw [h.same]
    rfl
  have hpassed : second.varianceEverPassed = first.varianceEverPassed := by
    rw [h.same]
    rfl
  unfold Auth.finish
  rw [h.first.window, h.second.window, withStored_config, hpassed, h.faceDetected]
  by_cases hall : first.darkCount = first.frameCount ∧ 0 < first.frameCount
  · rw [if_pos hall, if_pos (hdark.mpr hall)]
  · rw [if_neg hall, if_neg fun hother => hall (hdark.mp hother)]
    rfl

theorem Indistinct.processFaces (h : Indistinct attempt first second) {frame face rest}
    (hfirst : ∀ other ∈ face :: rest, isMatching num attempt frame other = false)
    (hsecond : ∀ other ∈ face :: rest,
      isMatching num (attempt.withStored stored) frame other = false) :
    SameEnd attempt (processFaces num attempt first frame face rest)
      (processFaces num (attempt.withStored stored) second frame face rest) := by
  have hseen : Indistinct attempt
      { first with
        faceDetected := true
        landmarkTracker := first.landmarkTracker.push face.1.landmarks }
      { second with
        faceDetected := true
        landmarkTracker := second.landmarkTracker.push face.1.landmarks } :=
    h.update (fun state =>
      { state with
        faceDetected := true
        landmarkTracker := state.landmarkTracker.push face.1.landmarks }) (fun _ _ _ => rfl)
      fun _ => rfl
  have hcapabilities : (attempt.withStored stored).capabilities = attempt.capabilities := rfl
  unfold Auth.processFaces
  dsimp only
  rw [hcapabilities, withStored_config]
  split_ifs
  · exact .next hseen
  · exact (hseen.compareFaces hfirst hsecond).gates

theorem Indistinct.processFrame (h : Indistinct attempt first second) {tick frame}
    (hcapture : tick.capture = some frame) (hfirst : Unreached num attempt [tick])
    (hsecond : Unreached num (attempt.withStored stored) [tick]) :
    SameEnd attempt (processFrame num attempt first frame tick.process)
      (processFrame num (attempt.withStored stored) second frame tick.process) := by
  have hcounted : Indistinct attempt { first with frameCount := first.frameCount + 1 }
      { second with frameCount := second.frameCount + 1 } :=
    h.update (fun state => { state with frameCount := state.frameCount + 1 }) (fun _ _ _ => rfl)
      fun _ => rfl
  have hkept : Indistinct attempt
      ({ first with frameCount := first.frameCount + 1 }.keepFrame attempt frame)
      ({ second with frameCount := second.frameCount + 1 }.keepFrame attempt frame) := by
    refine hcounted.update (fun state => state.keepFrame attempt frame) ?_ ?_
    · intro state similarity id
      unfold LoopState.keepFrame
      split <;> rfl
    · intro state
      unfold LoopState.keepFrame
      split <;> rfl
  unfold Auth.processFrame
  dsimp only
  rw [withStored_config]
  split_ifs with hdark
  · exact .next (hcounted.update (fun state => { state with darkCount := state.darkCount + 1 })
      (fun _ _ _ => rfl) fun _ => rfl)
  · cases hprocess : tick.process with
    | none => exact .next hkept
    | some faces =>
      cases faces with
      | nil => exact .next hkept
      | cons face rest =>
        refine hkept.processFaces (hfirst tick (by simp) frame (face :: rest) ?_)
          (hsecond tick (by simp) frame (face :: rest) ?_)
        · simp [seenFaces, hcapture, hprocess, hdark]
        · simp [seenFaces, hcapture, hprocess, hdark, Attempt.withStored]

theorem Indistinct.iteration (h : Indistinct attempt first second) (opening : Opening) {tick}
    (hfirst : Unreached num attempt [tick])
    (hsecond : Unreached num (attempt.withStored stored) [tick]) :
    SameEnd attempt (iteration num attempt opening first tick)
      (iteration num (attempt.withStored stored) opening second tick) := by
  have hdeadline : (attempt.withStored stored).deadline opening = attempt.deadline opening := rfl
  have hnoFace : (attempt.withStored stored).noFaceDeadline opening =
      attempt.noFaceDeadline opening := rfl
  unfold Auth.iteration
  rw [h.faceDetected, hdeadline, hnoFace]
  split_ifs
  · exact .done h.finish
  · exact .done rfl
  · exact .done h.finish
  · cases hcapture : tick.capture with
    | none => exact .next h
    | some frame => exact h.processFrame hcapture hfirst hsecond

/-! ## Every run -/

theorem Indistinct.scan (opening : Opening) {ticks} (h : Indistinct attempt first second)
    (hfirst : Unreached num attempt ticks)
    (hsecond : Unreached num (attempt.withStored stored) ticks) :
    (scan num attempt opening first ticks).map (fun report => report.outcome.blind) =
      (scan num (attempt.withStored stored) opening second ticks).map
        fun report => report.outcome.blind := by
  induction ticks generalizing first second with
  | nil => rfl
  | cons tick ticks ih =>
    have hhead : ∀ {attempt : Attempt Embedding}, Unreached num attempt (tick :: ticks) →
        Unreached num attempt [tick] := by
      intro attempt hall other hother
      obtain rfl := mem_singleton.mp hother
      exact hall other (mem_cons_self ..)
    have hpass := h.iteration opening (hhead hfirst) (hhead hsecond)
    rw [Auth.scan, Auth.scan]
    generalize Auth.iteration num attempt opening first tick = flow at hpass ⊢
    generalize Auth.iteration num (attempt.withStored stored) opening second tick = flow'
      at hpass ⊢
    cases hpass with
    | next hnext =>
      exact ih hnext (fun other hother => hfirst other (mem_cons_of_mem _ hother))
        fun other hother => hsecond other (mem_cons_of_mem _ hother)
    | done hsame =>
      rw [Option.map_some, Option.map_some, hsame]

theorem Unmatched.initial (attempt : Attempt Embedding) :
    Unmatched attempt (initialState attempt : LoopState Embedding Frame) :=
  ⟨rfl, (by decide : Binary32.zero ≤ Binary32.zero), fun hle => ⟨rfl, hle⟩⟩

/-- The two attempts end with the same outcome, except for the
similarity. -/
theorem authenticate_blind (opening : Opening) (ticks : List (Tick Embedding Frame))
    (hfirst : Unreached num attempt ticks)
    (hsecond : Unreached num (attempt.withStored stored) ticks) :
    (authenticateWithEmbeddings num attempt opening ticks).map
        (fun report => report.outcome.blind) =
      (authenticateWithEmbeddings num (attempt.withStored stored) opening ticks).map
        fun report => report.outcome.blind := by
  have hscale : (attempt.withStored stored).capabilities = attempt.capabilities := rfl
  unfold authenticateWithEmbeddings
  rw [hscale]
  split
  · rfl
  · split
    · rfl
    · exact Indistinct.scan opening
        ⟨rfl, Unmatched.initial attempt, Unmatched.initial attempt⟩ hfirst hsecond

end

end Facelock.Auth
