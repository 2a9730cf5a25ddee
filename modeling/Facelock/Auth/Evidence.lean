import Facelock.Auth.Loop

/-!
# What a match rests on

The evidence of a run is a function of its ticks alone: which faces the
detector found in usable frames (`seenFaces`), which face of a frame is
its matching one (`matchingFace`), and which faces were tracked
(`trackedFaces`).  `Tracks` relates the variables of the loop to that
evidence.  One pass keeps it (`iteration_passEnd`), so it holds whenever a
run returns a match (`authenticate_match`), together with the gates that
let the run return.

The results on the variance gate, on device coupling and on the landmark
gate are read off there.
-/

namespace Facelock.Auth

open List

section

variable {Embedding Frame : Type} (num : Numerics Embedding Frame)
  (attempt : Attempt Embedding)

/-! ## Evidence -/

/-- The faces of a tick, with their frame: a frame was captured, is not
dark, and the engine found a face in it. -/
def seenFaces (tick : Tick Embedding Frame) : Option (Frame × List (Detection × Embedding)) :=
  match tick.capture, tick.process with
  | some frame, some (first :: rest) =>
    let device := attempt.config.device
    if num.isDarkWithConfig frame device.darkThreshold device.darkPixelValue then none
    else some (frame, first :: rest)
  | _, _ => none

/-- A face that passes the texture gate and reaches the threshold. -/
def isMatching (frame : Frame) (face : Detection × Embedding) : Bool :=
  passesTexture num attempt frame face &&
    decide (attempt.threshold ≤ (bestMatch num face.2 attempt.compareSet).1)

def matchingFace (tick : Tick Embedding Frame) : Option (Detection × Embedding) :=
  (seenFaces num attempt tick).bind fun seen => seen.2.find? (isMatching num attempt seen.1)

variable (ticks : List (Tick Embedding Frame))

def matchingEmbeddings : List Embedding :=
  ticks.filterMap fun tick => (matchingFace num attempt tick).map Prod.snd

/-- The faces that a run tracks, each with its frame: the first face of
every tick. -/
def trackedFaces : List (Frame × (Detection × Embedding)) :=
  ticks.filterMap fun tick =>
    (seenFaces num attempt tick).bind fun seen => seen.2.head?.map fun face => (seen.1, face)

/-- The tracker that the landmarks of the first faces were pushed into. -/
def trackerAfter : LandmarkTracker :=
  ((trackedFaces num attempt ticks).map fun tracked => tracked.2.1.landmarks).foldl
    LandmarkTracker.push
    (LandmarkTracker.new 10 attempt.config.security.landmarkDisplacementPx
      attempt.config.security.landmarkMinMoving)

/-- A face of a run that passes the texture gate, and its best match. -/
def SeenMatch (result : Binary32 × Option UInt32) : Prop :=
  ∃ tick ∈ ticks, ∃ frame faces, seenFaces num attempt tick = some (frame, faces) ∧
    ∃ face ∈ faces, passesTexture num attempt frame face = true ∧
      result = bestMatch num face.2 attempt.compareSet

/-! ## The faces of one frame -/

/-- The best match after some faces is the one before, or a larger one of
these faces. -/
def Improves (frame : Frame) (faces : List (Detection × Embedding))
    (before after : LoopState Embedding Frame) : Prop :=
  (after.bestSimilarity = before.bestSimilarity ∧ after.bestModelId = before.bestModelId) ∨
    before.bestSimilarity < after.bestSimilarity ∧
      ∃ face ∈ faces, passesTexture num attempt frame face = true ∧
        (after.bestSimilarity, after.bestModelId) = bestMatch num face.2 attempt.compareSet

/-- What the `for` loop over the faces does to the variables. -/
structure Compared (frame : Frame) (faces : List (Detection × Embedding)) (frameMatched : Bool)
    (before after : LoopState Embedding Frame) : Prop where
  window : after.varianceWindow =
    if frameMatched then before.varianceWindow
    else (faces.find? (isMatching num attempt frame)).elim before.varianceWindow
      fun face => RingBuffer.push before.varianceWindow face.2
  tracker : after.landmarkTracker = before.landmarkTracker
  improves : Improves num attempt frame faces before after
  reaches : before.bestSimilarity.isNaN = false → ∀ face ∈ faces,
    isMatching num attempt frame face = true → attempt.threshold ≤ after.bestSimilarity

variable {num} {attempt}

variable (state : LoopState Embedding Frame)

theorem LoopState.improve_frame (frameBest : Binary32 × Option UInt32) :
    (state.improve frameBest).varianceWindow = state.varianceWindow ∧
      (state.improve frameBest).landmarkTracker = state.landmarkTracker := by
  unfold LoopState.improve
  split_ifs <;> exact ⟨rfl, rfl⟩

variable {face : Detection × Embedding}

theorem improve_improves (frame : Frame) (state : LoopState Embedding Frame)
    (hpasses : passesTexture num attempt frame face = true) :
    Improves num attempt frame [face] state
      (state.improve (bestMatch num face.2 attempt.compareSet)) := by
  unfold LoopState.improve
  split_ifs with hlt
  · exact Or.inr ⟨hlt, face, by simp, hpasses, rfl⟩
  · exact Or.inl ⟨rfl, rfl⟩

theorem le_improve {state : LoopState Embedding Frame} {frameBest threshold}
    (hbest : state.bestSimilarity.isNaN = false)
    (h : threshold ≤ frameBest.1) : threshold ≤ (state.improve frameBest).bestSimilarity := by
  unfold LoopState.improve
  split_ifs with hlt
  · exact h
  · exact Binary32.le_trans h (Binary32.le_of_not_lt hbest h.2.1 hlt)

theorem compareFace_compared (frame : Frame) (state : LoopState Embedding Frame)
    (frameMatched : Bool) (face : Detection × Embedding) :
    Compared num attempt frame [face] frameMatched state
        (compareFace num attempt frame (state, frameMatched) face).1 ∧
      (compareFace num attempt frame (state, frameMatched) face).2 =
        (frameMatched || isMatching num attempt frame face) := by
  unfold compareFace
  cases hpasses : passesTexture num attempt frame face with
  | false =>
    have hmatching : isMatching num attempt frame face = false := by simp [isMatching, hpasses]
    exact ⟨⟨by simp [hmatching], rfl, Or.inl ⟨rfl, rfl⟩, by simp [hmatching]⟩, by simp [hmatching]⟩
  | true =>
    have himproves := improve_improves frame state hpasses
    obtain ⟨hwindow, htracker⟩ := state.improve_frame (bestMatch num face.2 attempt.compareSet)
    by_cases hthreshold : attempt.threshold ≤ (bestMatch num face.2 attempt.compareSet).1
    · have hmatching : isMatching num attempt frame face = true := by
        simp [isMatching, hpasses, hthreshold]
      have hreaches : state.bestSimilarity.isNaN = false → attempt.threshold ≤ _ :=
        fun hbest => le_improve hbest hthreshold
      cases frameMatched with
      | false =>
        simp only [hthreshold, and_self, if_true]
        exact ⟨⟨by simp [LoopState.recordMatch, hmatching, hwindow], htracker, himproves,
          fun hbest _ _ _ => hreaches hbest⟩, by simp [hmatching]⟩
      | true =>
        simp only [Bool.true_eq_false, and_false, if_false]
        exact ⟨⟨by simpa using hwindow, htracker, himproves, fun hbest _ _ _ => hreaches hbest⟩,
          rfl⟩
    · have hmatching : isMatching num attempt frame face = false := by
        simp [isMatching, hthreshold]
      simp only [hthreshold, false_and, if_false]
      exact ⟨⟨by simp [hmatching, hwindow], htracker, himproves, by simp [hmatching]⟩,
        by simp [hmatching]⟩

variable {frame : Frame} {faces : List (Detection × Embedding)}
  {before after : LoopState Embedding Frame}

/-- A best similarity that improves is still not a NaN, and stays at or
above every bound it reached. -/
theorem Improves.not_isNaN (h : Improves num attempt frame faces before after)
    (hbest : before.bestSimilarity.isNaN = false) : after.bestSimilarity.isNaN = false := by
  rcases h with ⟨hsim, -⟩ | ⟨hlt, -⟩
  · rwa [hsim]
  · exact hlt.2.1

theorem Improves.le (h : Improves num attempt frame faces before after) {bound}
    (hbound : bound ≤ before.bestSimilarity) : bound ≤ after.bestSimilarity := by
  rcases h with ⟨hsim, -⟩ | ⟨hlt, -⟩
  · rwa [hsim]
  · exact Binary32.le_trans hbound (Binary32.le_of_lt hlt)

theorem Improves.cons {middle} (hface : Improves num attempt frame [face] before middle)
    (hfaces : Improves num attempt frame faces middle after) :
    Improves num attempt frame (face :: faces) before after := by
  rcases hfaces with ⟨hsim, hid⟩ | ⟨hlt, face', hmem, hpasses, hbest⟩
  · rw [Improves, hsim, hid]
    refine hface.imp_right ?_
    rintro ⟨hlt, face', hmem, h⟩
    exact ⟨hlt, face', by simp_all, h⟩
  · refine Or.inr ⟨?_, face', mem_cons_of_mem _ hmem, hpasses, hbest⟩
    rcases hface with ⟨hsim, -⟩ | ⟨hlt', -⟩
    · rwa [← hsim]
    · exact Binary32.lt_of_lt_of_le hlt' (Binary32.le_of_lt hlt)

theorem Compared.cons {frameMatched middle}
    (hface : Compared num attempt frame [face] frameMatched before middle)
    (hfaces : Compared num attempt frame faces
      (frameMatched || isMatching num attempt frame face) middle after) :
    Compared num attempt frame (face :: faces) frameMatched before after where
  window := by
    have hfirst := hface.window
    rw [hfaces.window]
    cases frameMatched with
    | true => simpa using hfirst
    | false => cases hmatching : isMatching num attempt frame face <;> simp_all
  tracker := by rw [hfaces.tracker, hface.tracker]
  improves := hface.improves.cons hfaces.improves
  reaches := by
    intro hbest face' hface' hmatching
    rcases mem_cons.mp hface' with rfl | hmem
    · exact hfaces.improves.le (hface.reaches hbest face' (by simp) hmatching)
    · exact hfaces.reaches (hface.improves.not_isNaN hbest) face' hmem hmatching

theorem foldl_compareFace_compared (frame : Frame) (faces : List (Detection × Embedding)) :
    ∀ state frameMatched, Compared num attempt frame faces frameMatched state
        (faces.foldl (compareFace num attempt frame) (state, frameMatched)).1 := by
  induction faces with
  | nil =>
    intro state frameMatched
    exact ⟨by simp, rfl, Or.inl ⟨rfl, rfl⟩, fun _ _ h => absurd h (by simp)⟩
  | cons face faces ih =>
    intro state frameMatched
    refine (compareFace_compared frame state frameMatched face).1.cons ?_
    rw [← (compareFace_compared frame state frameMatched face).2]
    exact ih _ _

theorem compareFaces_compared (frame : Frame) (state : LoopState Embedding Frame)
    (faces : List (Detection × Embedding)) :
    Compared num attempt frame faces false state
      (compareFaces num attempt frame state faces) :=
  foldl_compareFace_compared frame faces state false

/-! ## One pass -/

variable (num attempt)

/-- The number of matching frames that the variance gate looks at. -/
def windowSize : Nat :=
  max attempt.config.security.minAuthFrames 2

/-- The variables of the loop say what the ticks so far were. -/
structure Tracks (ticks : List (Tick Embedding Frame)) (state : LoopState Embedding Frame) :
    Prop where
  capacity : state.varianceWindow.capacity = windowSize attempt
  window : state.varianceWindow.toList =
    (matchingEmbeddings num attempt ticks).rtake (windowSize attempt)
  tracker : state.landmarkTracker = trackerAfter num attempt ticks
  best : state.bestSimilarity = Binary32.zero ∧ state.bestModelId = none ∨
    Binary32.zero < state.bestSimilarity ∧
      SeenMatch num attempt ticks (state.bestSimilarity, state.bestModelId)
  reaches : matchingEmbeddings num attempt ticks ≠ [] → attempt.threshold ≤ state.bestSimilarity

/-- The gates that a pass must clear to return a match. -/
structure Cleared (state : LoopState Embedding Frame) : Prop where
  variance : attempt.config.security.requireFrameVariance = true →
    FrameVarianceWindow.passes num state.varianceWindow
      attempt.config.security.frameVarianceMaxSimilarity = true
  threshold : attempt.config.security.requireFrameVariance = false →
    attempt.threshold ≤ state.bestSimilarity
  liveness : attempt.config.security.requireLandmarkLiveness = true →
    state.landmarkTracker.checkLiveness num = true

variable {num attempt}

theorem initialState_tracks :
    Tracks num attempt [] (initialState attempt : LoopState Embedding Frame) where
  capacity := rfl
  window := by simp [initialState, FrameVarianceWindow.new, RingBuffer.empty, RingBuffer.toList,
    matchingEmbeddings]
  tracker := rfl
  best := Or.inl ⟨rfl, rfl⟩
  reaches := fun h => absurd rfl h

theorem Tracks.not_isNaN {ticks state}
    (h : Tracks num attempt ticks state) : state.bestSimilarity.isNaN = false := by
  rcases h.best with ⟨hzero, -⟩ | ⟨hpos, -⟩
  · rw [hzero]
    decide
  · exact hpos.2.1

theorem Tracks.congr {ticks state state'} (h : Tracks num attempt ticks state)
    (hwindow : state'.varianceWindow = state.varianceWindow)
    (htracker : state'.landmarkTracker = state.landmarkTracker)
    (hsim : state'.bestSimilarity = state.bestSimilarity)
    (hid : state'.bestModelId = state.bestModelId) : Tracks num attempt ticks state' where
  capacity := by rw [hwindow, h.capacity]
  window := by rw [hwindow, h.window]
  tracker := by rw [htracker, h.tracker]
  best := by rw [hsim, hid]; exact h.best
  reaches := by rw [hsim]; exact h.reaches

variable {tick : Tick Embedding Frame}

theorem SeenMatch.mono {ticks result}
    (h : SeenMatch num attempt ticks result) : SeenMatch num attempt (ticks ++ [tick]) result := by
  obtain ⟨tick', hmem, hseen⟩ := h
  exact ⟨tick', mem_append_left _ hmem, hseen⟩

theorem Tracks.skip {ticks state} (h : Tracks num attempt ticks state)
    (hnone : seenFaces num attempt tick = none) : Tracks num attempt (ticks ++ [tick]) state := by
  have hmatching : matchingEmbeddings num attempt (ticks ++ [tick]) =
      matchingEmbeddings num attempt ticks := by
    simp [matchingEmbeddings, matchingFace, hnone]
  have htracked : trackerAfter num attempt (ticks ++ [tick]) = trackerAfter num attempt ticks := by
    simp [trackerAfter, trackedFaces, hnone]
  exact ⟨h.capacity, by rw [hmatching, h.window], by rw [htracked, h.tracker],
    h.best.imp_right fun hbest => ⟨hbest.1, hbest.2.mono⟩, by rw [hmatching]; exact h.reaches⟩

/-- A tick with faces: the tracker takes the first face, and the window
takes the matching one. -/
theorem Tracks.take_faces {ticks state middle first rest} (h : Tracks num attempt ticks state)
    (hseen : seenFaces num attempt tick = some (frame, first :: rest))
    (hcompared : Compared num attempt frame (first :: rest) false middle after)
    (hwindow : middle.varianceWindow = state.varianceWindow)
    (htracker : middle.landmarkTracker = state.landmarkTracker.push first.1.landmarks)
    (hsim : middle.bestSimilarity = state.bestSimilarity)
    (hid : middle.bestModelId = state.bestModelId) :
    Tracks num attempt (ticks ++ [tick]) after := by
  have htracked : trackerAfter num attempt (ticks ++ [tick]) =
      (trackerAfter num attempt ticks).push first.1.landmarks := by
    simp [trackerAfter, trackedFaces, hseen]
  have hmatching : matchingEmbeddings num attempt (ticks ++ [tick]) =
      matchingEmbeddings num attempt ticks ++
        (((first :: rest).find? (isMatching num attempt frame)).map Prod.snd).toList := by
    cases hfind : (first :: rest).find? (isMatching num attempt frame) <;>
      simp [matchingEmbeddings, matchingFace, hseen, hfind]
  have hpos : 0 < windowSize attempt := by
    unfold windowSize
    omega
  have hafter := hcompared.window
  simp only [Bool.false_eq_true, if_false, hwindow] at hafter
  refine ⟨?_, ?_, ?_, ?_, ?_⟩
  · rw [hafter]
    cases (first :: rest).find? (isMatching num attempt frame) with
    | none => exact h.capacity
    | some face => exact (RingBuffer.capacity_push _ _).trans h.capacity
  · rw [hafter, hmatching]
    cases (first :: rest).find? (isMatching num attempt frame) with
    | none => simpa using h.window
    | some face =>
      simp only [Option.elim_some, Option.map_some, Option.toList_some]
      rw [RingBuffer.toList_push, h.capacity, h.window, RingBuffer.rtake_rtake_concat _ _ hpos]
  · rw [hcompared.tracker, htracker, htracked, h.tracker]
  · rcases hcompared.improves with ⟨hsim', hid'⟩ | ⟨hlt, face, hmem, hpasses, hbest⟩
    · rw [hsim', hid', hsim, hid]
      exact h.best.imp_right fun hbest => ⟨hbest.1, hbest.2.mono⟩
    · refine Or.inr ⟨?_, tick, by simp, frame, first :: rest, hseen, face, hmem, hpasses, hbest⟩
      rw [hsim] at hlt
      rcases h.best with ⟨hzero, -⟩ | ⟨hpos', -⟩
      · rwa [← hzero]
      · exact Binary32.lt_of_lt_of_le hpos' (Binary32.le_of_lt hlt)
  · rw [hmatching]
    intro hne
    cases hfind : (first :: rest).find? (isMatching num attempt frame) with
    | none =>
      rw [hfind] at hne
      refine hcompared.improves.le ?_
      rw [hsim]
      exact h.reaches (by simpa using hne)
    | some face =>
      refine hcompared.reaches (by rw [hsim]; exact h.not_isNaN) face
        (mem_of_find?_eq_some hfind) ?_
      simpa using find?_some hfind

variable (num attempt) in
/-- The ends of a pass: it goes on, or returns without a match, or
returns a match after clearing the gates. -/
inductive PassEnd (ticks : List (Tick Embedding Frame)) : Flow Embedding Frame → Prop
  | next {state : LoopState Embedding Frame} (h : Tracks num attempt ticks state) :
      PassEnd ticks (.next state)
  | noMatch {report : Report Frame} (h : report.outcome.isMatch = false) :
      PassEnd ticks (.done report)
  | matched {state : LoopState Embedding Frame} (h : Tracks num attempt ticks state)
      (hcleared : Cleared num attempt state) : PassEnd ticks (.done (succeed attempt state))

theorem gates_passEnd {ticks state}
    (h : Tracks num attempt ticks state) : PassEnd num attempt ticks (gates num attempt state) := by
  have hever : Tracks num attempt ticks { state with varianceEverPassed := true } :=
    h.congr rfl rfl rfl rfl
  unfold gates
  simp only
  split_ifs with hvariance hpasses hstill hthreshold hstill
  · exact .next hever
  · refine .matched hever ⟨fun _ => hpasses, fun hno => absurd hvariance (by simp [hno]), ?_⟩
    simpa using hstill
  · exact .next h
  · exact .next h
  · refine .matched h ⟨fun hyes => absurd hyes hvariance, fun _ => hthreshold, ?_⟩
    simpa using hstill
  · exact .next h

theorem Tracks.keepFrame {ticks state} (h : Tracks num attempt ticks state) (frame : Frame) :
    Tracks num attempt ticks (state.keepFrame attempt frame) := by
  unfold LoopState.keepFrame
  split_ifs
  · exact h.congr rfl rfl rfl rfl
  · exact h

/-- When every face is flat, comparing them would change nothing. -/
theorem compared_of_flat (hir : attempt.capabilities.isIr = true)
    (hflat : ∀ face ∈ faces, num.checkIrTexture frame face.1.bbox
      attempt.config.security.irTextureMinStddev = false) (state : LoopState Embedding Frame) :
    Compared num attempt frame faces false state state := by
  have hno : ∀ face ∈ faces, isMatching num attempt frame face = false := by
    intro face hmem
    simp [isMatching, passesTexture, hir, hflat face hmem]
  have hfind : faces.find? (isMatching num attempt frame) = none := by simpa using hno
  exact ⟨by simp [hfind], rfl, Or.inl ⟨rfl, rfl⟩, fun _ face hmem hmatch => by
    simp [hno face hmem] at hmatch⟩

theorem processFaces_passEnd {ticks state first rest} (h : Tracks num attempt ticks state)
    (hseen : seenFaces num attempt tick = some (frame, first :: rest)) :
    PassEnd num attempt (ticks ++ [tick])
      (processFaces num attempt state frame first rest) := by
  unfold processFaces
  simp only
  split_ifs with hflat
  · rw [Bool.and_eq_true, all_eq_true] at hflat
    have hcompared := compared_of_flat hflat.1 (fun face hmem => by simpa using hflat.2 face hmem)
    exact .next (h.take_faces hseen (hcompared _) rfl rfl rfl rfl)
  · exact gates_passEnd (h.take_faces hseen (compareFaces_compared frame _ _) rfl rfl rfl rfl)

theorem processFrame_passEnd {ticks state} (h : Tracks num attempt ticks state)
    (hcapture : tick.capture = some frame) :
    PassEnd num attempt (ticks ++ [tick])
      (processFrame num attempt state frame tick.process) := by
  have hcount : Tracks num attempt ticks { state with frameCount := state.frameCount + 1 } :=
    h.congr rfl rfl rfl rfl
  unfold processFrame
  simp only
  split_ifs with hdark
  · have hnone : seenFaces num attempt tick = none := by
      rcases hprocess : tick.process with _ | _ | _ <;> simp [seenFaces, hcapture, hprocess, hdark]
    exact .next ((h.skip hnone).congr rfl rfl rfl rfl)
  · rcases hprocess : tick.process with _ | _ | ⟨first, rest⟩
    · exact .next ((hcount.keepFrame frame).skip (by simp [seenFaces, hcapture, hprocess]))
    · exact .next ((hcount.keepFrame frame).skip (by simp [seenFaces, hcapture, hprocess]))
    · refine processFaces_passEnd (hcount.keepFrame frame) ?_
      simp [seenFaces, hcapture, hprocess, hdark]

theorem finish_isMatch : (finish attempt state).outcome.isMatch = false := by
  unfold finish
  split_ifs <;> rfl

/-- One pass of the loop keeps the relation between variables and
evidence, and returns a match only behind the gates. -/
theorem iteration_passEnd {ticks state} (opening : Opening) (tick : Tick Embedding Frame)
    (h : Tracks num attempt ticks state) :
    PassEnd num attempt (ticks ++ [tick]) (iteration num attempt opening state tick) := by
  unfold iteration
  split_ifs
  · exact .noMatch (finish_isMatch state)
  · exact .noMatch rfl
  · exact .noMatch (finish_isMatch state)
  · cases hcapture : tick.capture with
    | none => exact .next (h.skip (by simp [seenFaces, hcapture]))
    | some frame => exact processFrame_passEnd h hcapture

/-! ## A whole run -/

theorem scan_match (opening : Opening) (ticks : List (Tick Embedding Frame)) :
    ∀ (before : List (Tick Embedding Frame)) (state : LoopState Embedding Frame)
      (report : Report Frame), Tracks num attempt before state →
      scan num attempt opening state ticks = some report → report.outcome.isMatch = true →
      ∃ seen tick rest last, ticks = seen ++ tick :: rest ∧
        scan num attempt opening state seen = none ∧
        scan num attempt opening state (seen ++ [tick]) = some report ∧
        Tracks num attempt (before ++ seen ++ [tick]) last ∧ Cleared num attempt last ∧
        report = succeed attempt last := by
  induction ticks with
  | nil => intro before state report _ hscan; cases hscan
  | cons tick ticks ih =>
    intro before state report h hscan hmatch
    have hpass := iteration_passEnd opening tick h
    rw [scan] at hscan
    cases hflow : iteration num attempt opening state tick with
    | done report' =>
      rw [hflow] at hscan hpass
      obtain rfl := Option.some.inj hscan
      cases hpass with
      | noMatch hno => simp [hno] at hmatch
      | @matched last hlast hcleared =>
        exact ⟨[], tick, ticks, last, rfl, rfl, by simp [scan, hflow], by simpa using hlast,
          hcleared, rfl⟩
    | next state' =>
      rw [hflow] at hscan hpass
      cases hpass with
      | next htracks =>
        obtain ⟨seen, tick', rest, last, rfl, hnone, hsome, hlast, hcleared, hreport⟩ :=
          ih (before ++ [tick]) state' report htracks hscan hmatch
        exact ⟨tick :: seen, tick', rest, last, rfl, by simp [scan, hflow, hnone],
          by simp [scan, hflow, hsome], by simpa using hlast, hcleared, hreport⟩

/-- A match is returned by one tick, and at that tick the variables of the
loop hold the evidence of the run and clear the gates. -/
theorem authenticate_match {opening ticks report}
    (h : authenticateWithEmbeddings num attempt opening ticks = some report)
    (hmatch : report.outcome.isMatch = true) :
    ∃ seen tick rest last, ticks = seen ++ tick :: rest ∧
      authenticateWithEmbeddings num attempt opening seen = none ∧
      authenticateWithEmbeddings num attempt opening (seen ++ [tick]) = some report ∧
      Tracks num attempt (seen ++ [tick]) last ∧ Cleared num attempt last ∧
      report = succeed attempt last := by
  unfold authenticateWithEmbeddings at h ⊢
  split_ifs at h ⊢ with hcancelled hscale
  · obtain rfl := Option.some.inj h
    exact absurd hmatch (by simp [cancelled, AuthOutcome.isMatch])
  · obtain rfl := Option.some.inj h
    exact absurd hmatch (by simp [AuthOutcome.isMatch])
  · exact scan_match opening ticks [] _ report initialState_tracks h hmatch

/-! ## The evidence that decides -/

variable (num attempt) in
/-- The gates, on the ticks alone. -/
structure Evident (ticks : List (Tick Embedding Frame)) : Prop where
  variance : attempt.config.security.requireFrameVariance = true →
    windowSize attempt ≤ (matchingEmbeddings num attempt ticks).length ∧
      ((matchingEmbeddings num attempt ticks).rtake (windowSize attempt)).IsChain
        (fun older newer => num.cosineSimilarity older newer ≤
          attempt.config.security.frameVarianceMaxSimilarity)
  threshold : attempt.config.security.requireFrameVariance = false →
    attempt.threshold ≤ Binary32.zero ∨ matchingEmbeddings num attempt ticks ≠ []
  liveness : attempt.config.security.requireLandmarkLiveness = true →
    (trackerAfter num attempt ticks).checkLiveness num = true

theorem SeenMatch.matchingEmbeddings_ne_nil {ticks result}
    (h : SeenMatch num attempt ticks result) (hreaches : attempt.threshold ≤ result.1) :
    matchingEmbeddings num attempt ticks ≠ [] := by
  obtain ⟨tick, htick, frame, faces, hseen, face, hface, hpasses, rfl⟩ := h
  obtain ⟨first, hfirst⟩ : ∃ first, faces.find? (isMatching num attempt frame) = some first := by
    rw [← Option.isSome_iff_exists, find?_isSome]
    exact ⟨face, hface, by simp [isMatching, hpasses, hreaches]⟩
  have hmem : first.2 ∈ matchingEmbeddings num attempt ticks :=
    mem_filterMap.mpr ⟨tick, htick, by rw [matchingFace, hseen, Option.bind_some, hfirst]; rfl⟩
  exact ne_nil_of_mem hmem

/-- The variables clear the gates exactly if the ticks do. -/
theorem Tracks.cleared_iff {ticks state} (h : Tracks num attempt ticks state) :
    Cleared num attempt state ↔ Evident num attempt ticks := by
  have hwindow : FrameVarianceWindow.passes num state.varianceWindow
        attempt.config.security.frameVarianceMaxSimilarity = true ↔
      windowSize attempt ≤ (matchingEmbeddings num attempt ticks).length ∧
        ((matchingEmbeddings num attempt ticks).rtake (windowSize attempt)).IsChain
          (fun older newer => num.cosineSimilarity older newer ≤
            attempt.config.security.frameVarianceMaxSimilarity) := by
    rw [FrameVarianceWindow.passes_iff, ← RingBuffer.length_toList, h.window, h.capacity,
      RingBuffer.length_rtake]
    exact and_congr_left fun _ => by omega
  have hbest : attempt.threshold ≤ state.bestSimilarity ↔
      attempt.threshold ≤ Binary32.zero ∨ matchingEmbeddings num attempt ticks ≠ [] := by
    constructor
    · intro hreaches
      rcases h.best with ⟨hzero, -⟩ | ⟨-, hseen⟩
      · exact Or.inl (hzero ▸ hreaches)
      · exact Or.inr (hseen.matchingEmbeddings_ne_nil hreaches)
    · rintro (hzero | hne)
      · rcases h.best with ⟨hsame, -⟩ | ⟨hpos, -⟩
        · rwa [hsame]
        · exact Binary32.le_trans hzero (Binary32.le_of_lt hpos)
      · exact h.reaches hne
  constructor
  · rintro ⟨hvariance, hthreshold, hliveness⟩
    exact ⟨fun hon => hwindow.mp (hvariance hon), fun hoff => hbest.mp (hthreshold hoff),
      h.tracker ▸ hliveness⟩
  · rintro ⟨hvariance, hthreshold, hliveness⟩
    exact ⟨fun hon => hwindow.mpr (hvariance hon), fun hoff => hbest.mpr (hthreshold hoff),
      h.tracker ▸ hliveness⟩

end

/-! ## Axis-aligned faces

A small camera for concrete runs.  Embeddings are unit vectors along three
axes, so two of them have similarity one or zero.  All landmarks of a face
lie at one point of the x-axis, and two points are ten pixels apart or the
same. -/

/-- Similarities and displacements of axis-aligned faces. -/
def axisNumerics : Numerics (Fin 3) Unit where
  cosineSimilarity left right := if left = right then Binary32.one else Binary32.zero
  displacement left right := if left = right then Binary32.zero else ⟨0x41200000⟩
  checkIrTexture _ _ _ := true
  isDarkWithConfig _ _ _ := false

/-- A face along an axis, with its landmarks at `x`. -/
def axisFace (axis : Fin 3) (x : Binary32) : Detection × Fin 3 :=
  ({ bbox := { x := Binary32.zero, y := Binary32.zero, width := Binary32.one,
               height := Binary32.one }
     confidence := Binary32.one
     landmarks := Vector.replicate 5 { x := x, y := Binary32.zero } }, axis)

/-- A pass with a frame that shows these faces. -/
def axisTick (faces : List (Detection × Fin 3)) : Tick (Fin 3) Unit :=
  { now := 0, cancelled := false, nowNoFace := 0, capture := some (), process := some faces }

/-- An attempt on an IR camera, for a user with one model. -/
def axisAttempt (config : Config) (stored : List (UInt32 × Fin 3)) (deviceId : String) :
    Attempt (Fin 3) :=
  { capabilities :=
      { isIr := true
        fingerprint := { vid := some "046d", pid := some "085e", serial := none }
        irTextureScale := .notY16 }
    stored
    models := [{ id := 1, label := "desk", deviceId := some deviceId }]
    config
    user := "alice"
    source := .daemon }

def axisOpening : Opening := { cancelled := false, start := 0, loopStart := 0 }

theorem exists_axis_report (attempt : Attempt (Fin 3)) (ticks : List (Tick (Fin 3) Unit))
    (h : (authenticateWithEmbeddings axisNumerics attempt axisOpening ticks).map
      (fun report => report.outcome.isMatch) = some true) :
    ∃ report, authenticateWithEmbeddings axisNumerics attempt axisOpening ticks = some report ∧
      report.outcome.isMatch = true :=
  Option.map_eq_some_iff.mp h

/-! ## The variance gate -/

section

variable {Embedding Frame : Type} (num : Numerics Embedding Frame)
  (attempt : Attempt Embedding)

/-- With the variance gate on, a match needs as many matching frames as
the window holds.  The embeddings of the last of them drift from each to
the next.  The landmark gate, when it is on, held at the tick that
returned. -/
theorem match_needs_drifting_frames (opening : Opening) (ticks : List (Tick Embedding Frame))
    (report : Report Frame)
    (hvariance : attempt.config.security.requireFrameVariance = true)
    (h : authenticateWithEmbeddings num attempt opening ticks = some report)
    (hmatch : report.outcome.isMatch = true) :
    ∃ seen tick rest, ticks = seen ++ tick :: rest ∧
      authenticateWithEmbeddings num attempt opening seen = none ∧
      authenticateWithEmbeddings num attempt opening (seen ++ [tick]) = some report ∧
      max attempt.config.security.minAuthFrames 2 ≤
        (matchingEmbeddings num attempt (seen ++ [tick])).length ∧
      ((matchingEmbeddings num attempt (seen ++ [tick])).rtake
          (max attempt.config.security.minAuthFrames 2)).IsChain
        (fun older newer => num.cosineSimilarity older newer ≤
          attempt.config.security.frameVarianceMaxSimilarity) ∧
      (attempt.config.security.requireLandmarkLiveness = true →
        (trackerAfter num attempt (seen ++ [tick])).checkLiveness num = true) := by
  obtain ⟨seen, tick, rest, last, hticks, hnone, hsome, htracks, hcleared, -⟩ :=
    authenticate_match h hmatch
  have hevident := htracks.cleared_iff.mp hcleared
  obtain ⟨hfull, hchain⟩ := hevident.variance hvariance
  exact ⟨seen, tick, rest, hticks, hnone, hsome, hfull, hchain, hevident.liveness⟩

/-- Three frames along three enrolled axes, under the defaults. -/
theorem drifting_axes_match :
    let attempt := axisAttempt {} [(1, 0), (1, 1), (1, 2)] "046d:085e:"
    let ticks := [0, 1, 2].map fun axis => axisTick [axisFace axis Binary32.zero]
    ∃ seen tick rest, ticks = seen ++ tick :: rest ∧
      3 ≤ (matchingEmbeddings axisNumerics attempt (seen ++ [tick])).length := by
  intro attempt ticks
  obtain ⟨report, hreport, hmatch⟩ := exists_axis_report attempt ticks (by decide +kernel)
  obtain ⟨seen, tick, rest, hticks, -, -, hlength, -⟩ :=
    match_needs_drifting_frames axisNumerics attempt axisOpening ticks report rfl hreport hmatch
  exact ⟨seen, tick, rest, hticks, hlength⟩

/-! ## Device coupling -/

variable {num attempt}

/-- At a match the best similarity is at or above the threshold. -/
theorem threshold_le_best {ticks state} (htracks : Tracks num attempt ticks state)
    (hcleared : Cleared num attempt state) : attempt.threshold ≤ state.bestSimilarity := by
  cases hvariance : attempt.config.security.requireFrameVariance with
  | false => exact hcleared.threshold hvariance
  | true =>
    obtain ⟨hfull, -⟩ := (FrameVarianceWindow.passes_iff num).mp (hcleared.variance hvariance)
    refine htracks.reaches fun hnil => ?_
    rw [← RingBuffer.length_toList, htracks.window, htracks.capacity, hnil, rtake_nil] at hfull
    simp only [windowSize, length_nil] at hfull
    omega

variable (num attempt)

/-- With a threshold other than zero, and no template under the id that
`best_match` keeps for "no match", a match names a model that the device
policy admits, and a template of that model reaches the threshold with a
face of the run. -/
theorem match_names_allowed_template (display : Binary32 → String) (opening : Opening)
    (ticks : List (Tick Embedding Frame)) (report : Report Frame)
    (hvalid : attempt.config.validate display = .ok ())
    (hthreshold : attempt.config.recognition.threshold.magnitude ≠ 0)
    (hids : ∀ entry ∈ attempt.stored, entry.1 ∈ attempt.allowed → entry.1 ≠ noMatchId)
    (h : authenticateWithEmbeddings num attempt opening ticks = some report)
    (hmatch : report.outcome.isMatch = true) :
    ∃ result id, report.outcome = .authResult result ∧ result.modelId = some id ∧
      id ∈ deviceAllowedModelIds attempt.models attempt.capabilities.fingerprint
        attempt.config.security.deviceBindingPolicy ∧
      ∃ template, (id, template) ∈ attempt.stored ∧
        ∃ tick ∈ ticks, ∃ frame faces, seenFaces num attempt tick = some (frame, faces) ∧
          ∃ face ∈ faces, attempt.config.recognition.threshold ≤
            num.cosineSimilarity face.2 template := by
  obtain ⟨seen, tick, rest, last, rfl, -, -, htracks, hcleared, rfl⟩ := authenticate_match h hmatch
  have hpos : Binary32.zero < attempt.threshold :=
    Binary32.zero_lt_of_le (Config.threshold_of_validate hvalid).1 hthreshold
  have hle := threshold_le_best htracks hcleared
  have hbest : SeenMatch num attempt (seen ++ [tick]) (last.bestSimilarity, last.bestModelId) := by
    rcases htracks.best with ⟨hzero, -⟩ | ⟨-, hseen⟩
    · rw [hzero] at hle
      exact absurd (Binary32.lt_of_lt_of_le hpos hle) (by decide)
    · exact hseen
  obtain ⟨tick', hmem, frame, faces, hfaces, face, hface, -, hresult⟩ := hbest
  obtain ⟨hsim, hid⟩ : last.bestSimilarity = _ ∧ last.bestModelId = _ := Prod.ext_iff.mp hresult
  obtain ⟨⟨id, template⟩, hentry, hcosine, hentryId⟩ := bestMatch_of_pos num (hsim ▸
    Binary32.lt_of_lt_of_le hpos hle)
  obtain ⟨hstored, hallowed⟩ := mem_filter.mp hentry
  have hallowed' : id ∈ attempt.allowed := by simpa using hallowed
  refine ⟨_, id, rfl, ?_, hallowed', template, hstored, tick', ?_, frame, faces, hfaces, face,
    hface, ?_⟩
  · rw [hid, hentryId, if_neg (hids _ hstored hallowed')]
  · rw [← singleton_append, ← append_assoc]
    exact mem_append_left _ hmem
  · rw [← hcosine, ← hsim]
    exact hle

/-- One template of an admitted model, under the defaults but for the
variance gate. -/
theorem admitted_axis_matches :
    let config : Config := { security := { requireFrameVariance := false } }
    let attempt := axisAttempt config [(1, 0)] "046d:085e:"
    let ticks := [axisTick [axisFace 0 Binary32.zero]]
    ∃ report result id, authenticateWithEmbeddings axisNumerics attempt axisOpening ticks =
        some report ∧ report.outcome = .authResult result ∧ result.modelId = some id := by
  intro config attempt ticks
  obtain ⟨report, hreport, hmatch⟩ := exists_axis_report attempt ticks (by decide +kernel)
  have hids : ∀ entry ∈ attempt.stored, entry.1 ∈ attempt.allowed → entry.1 ≠ noMatchId := by
    intro entry hentry _
    rw [mem_singleton.mp hentry]
    decide
  obtain ⟨result, id, houtcome, hid, -⟩ :=
    match_names_allowed_template axisNumerics attempt (fun _ => "") axisOpening ticks report
      (by decide +kernel) (by decide) hids hreport hmatch
  exact ⟨report, result, id, hreport, houtcome, hid⟩

/-- The threshold zero is accepted, and then a match needs no template.
The only stored template was enrolled on another camera, so nothing is
compared.  `best_match` returns the similarity zero, which reaches the
threshold in three frames that drift. -/
theorem excluded_template_matches :
    let config : Config := { recognition := { threshold := Binary32.zero } }
    let attempt := axisAttempt config [(1, 0)] "1bcf:28c4:"
    let ticks := [0, 1, 2].map fun axis => axisTick [axisFace axis Binary32.zero]
    config.validate (fun _ => "") = .ok () ∧ attempt.allowed = [] ∧ attempt.compareSet = [] ∧
      (authenticateWithEmbeddings axisNumerics attempt axisOpening ticks).map Report.outcome =
        some (.authResult
          { matched := true, modelId := none, label := none, similarity := Binary32.zero,
            faceDetected := true, failureReason := none }) := by
  decide +kernel

/-! ## The landmark gate -/

/-- With the landmark gate on, a match needs two tracked faces in a row,
among the last ten, with enough displaced landmarks between them.  Each is
the first face of its frame. -/
theorem match_needs_moving_first_faces (opening : Opening)
    (ticks : List (Tick Embedding Frame)) (report : Report Frame)
    (hliveness : attempt.config.security.requireLandmarkLiveness = true)
    (h : authenticateWithEmbeddings num attempt opening ticks = some report)
    (hmatch : report.outcome.isMatch = true) :
    ∃ seen tick rest, ticks = seen ++ tick :: rest ∧
      authenticateWithEmbeddings num attempt opening (seen ++ [tick]) = some report ∧
      ∃ older newer, [older, newer] <:+: (trackedFaces num attempt (seen ++ [tick])).rtake 10 ∧
        attempt.config.security.landmarkMinMoving ≤
          LandmarkTracker.movingCount num attempt.config.security.landmarkDisplacementPx
            older.2.1.landmarks newer.2.1.landmarks := by
  obtain ⟨seen, tick, rest, last, hticks, -, hsome, htracks, hcleared, -⟩ :=
    authenticate_match h hmatch
  refine ⟨seen, tick, rest, hticks, hsome, ?_⟩
  have hlive := hcleared.liveness hliveness
  rw [htracks.tracker, trackerAfter, LandmarkTracker.foldl_push _ _ _ (by decide)] at hlive
  obtain ⟨older, newer, hinfix, hmoving⟩ := LandmarkTracker.checkLiveness_eq_true num hlive
  simp only [List.rtake, length_map, ← map_drop] at hinfix
  obtain ⟨pair, hpair, hmap⟩ := infix_map_iff.mp hinfix
  obtain ⟨first, _, rfl, rfl, hsecond⟩ := map_eq_cons_iff.mp hmap.symm
  obtain ⟨second, rfl, rfl⟩ := map_eq_singleton_iff.mp hsecond
  exact ⟨first, second, hpair, hmoving⟩

/-- A stranger who moves in front of an enrolled face that does not. -/
def twoFaces (strangerX : Binary32) : Tick (Fin 3) Unit :=
  axisTick [axisFace 1 strangerX, axisFace 0 Binary32.zero]

/-- Two frames with a moving stranger in front satisfy the landmark
gate. -/
theorem stranger_movement_found : let config : Config :=
      { security := { requireFrameVariance := false, requireLandmarkLiveness := true } }
    let attempt := axisAttempt config [(1, 0)] "046d:085e:"
    let ticks := [twoFaces Binary32.zero, twoFaces ⟨0x41200000⟩]
    ∃ seen tick rest, ticks = seen ++ tick :: rest ∧
      ∃ older newer,
        [older, newer] <:+: (trackedFaces axisNumerics attempt (seen ++ [tick])).rtake 10 ∧
        3 ≤ LandmarkTracker.movingCount axisNumerics ⟨0x3fc00000⟩ older.2.1.landmarks
          newer.2.1.landmarks := by
  intro config attempt ticks
  obtain ⟨report, hreport, hmatch⟩ := exists_axis_report attempt ticks (by decide +kernel)
  obtain ⟨seen, tick, rest, hticks, -, hmoving⟩ :=
    match_needs_moving_first_faces axisNumerics attempt axisOpening ticks report rfl hreport hmatch
  exact ⟨seen, tick, rest, hticks, hmoving⟩

/-- The same run is a match, and no tracked face is a matching face of its
frame. -/
theorem stranger_movement_matches : let config : Config :=
      { security := { requireFrameVariance := false, requireLandmarkLiveness := true } }
    let attempt := axisAttempt config [(1, 0)] "046d:085e:"
    let ticks := [twoFaces Binary32.zero, twoFaces ⟨0x41200000⟩]
    ((authenticateWithEmbeddings axisNumerics attempt axisOpening ticks).map fun report =>
        report.outcome.isMatch) = some true ∧
      ∀ tracked ∈ trackedFaces axisNumerics attempt ticks,
        isMatching axisNumerics attempt tracked.1 tracked.2 = false := by
  decide +kernel

end

end Facelock.Auth
