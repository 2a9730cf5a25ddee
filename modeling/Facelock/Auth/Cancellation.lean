import Facelock.Auth.Evidence

/-!
# Cancelling an attempt

When does the recognition loop see that its cancel token was set?  A
`Moment` is a place in a run, counted in passes of the loop.  A token that
is set there and stays set is read as set by exactly the polls from there
on (`SetAt`).

A pass polls the token once, before its capture.  So at most one capture
follows the moment at which the token was set (`captures_unique`).
The next poll ends the run, unless a reading of the clock ends it first or
the frame in process decides a match.  `SeenInTime` says this about what
the camera, the engine and the clock answer around the moment, and
`authenticate_seen_iff` that nothing else matters.
-/

namespace Facelock.Auth

open List

section

variable {Embedding Frame : Type} (num : Numerics Embedding Frame) (attempt : Attempt Embedding)

/-! ## Moments -/

/-- Where the token is set. -/
inductive Moment where
  /-- Before the first poll. -/
  | called
  /-- Between the first poll and the check of the texture scale. -/
  | entered
  /-- Before the poll of a pass. -/
  | head (pass : Nat)
  /-- Between the poll of a pass and its capture. -/
  | polled (pass : Nat)
  /-- After the capture of a pass. -/
  | captured (pass : Nat)

namespace Moment

/-- The polls before the token is set.  The first one is not of a pass. -/
def polls : Moment → Nat
  | .called => 0
  | .entered => 1
  | .head pass => pass + 1
  | .polled pass | .captured pass => pass + 2

/-- The passes that have begun to work on a frame. -/
def frames : Moment → Nat
  | .called | .entered => 0
  | .head pass => pass
  | .polled pass | .captured pass => pass + 1

/-- The captures that were made. -/
def captures : Moment → Nat
  | .called | .entered => 0
  | .head pass | .polled pass => pass
  | .captured pass => pass + 1

end Moment

variable (opening : Opening) (ticks : List (Tick Embedding Frame))

/-- The polls from the moment on find the token set. -/
def SetAt (moment : Moment) : Prop :=
  opening.cancelled = decide (moment.polls = 0) ∧
    ∀ pass (h : pass < ticks.length), ticks[pass].cancelled = decide (moment.polls ≤ pass + 1)

/-- The no-face deadline has passed, and no face was seen before. -/
def NoFaceExpired (seen : List (Tick Embedding Frame)) (tick : Tick Embedding Frame) : Prop :=
  (∀ earlier ∈ seen, seenFaces num attempt earlier = none) ∧
    ∃ deadline ∈ attempt.noFaceDeadline opening, deadline ≤ tick.nowNoFace

/-- The frame of a tick decides a match: it shows a face that is not flat,
and with it the ticks clear the gates. -/
def Decides (seen : List (Tick Embedding Frame)) (tick : Tick Embedding Frame) : Prop :=
  ∃ frame faces, seenFaces num attempt tick = some (frame, faces) ∧
    (∃ face ∈ faces, passesTexture num attempt frame face = true) ∧
      Evident num attempt (seen ++ [tick])

/-- The loop head of a pass goes on. -/
def HeadInTime (pass : Nat) : Prop :=
  ∃ tick, ticks[pass]? = some tick ∧ tick.now < attempt.deadline opening

/-- A pass polls the token and finds it not set. -/
def Polls (pass : Nat) : Prop :=
  authenticateWithEmbeddings num attempt opening (ticks.take pass) = none ∧
    ∃ tick, ticks[pass]? = some tick ∧ tick.now < attempt.deadline opening ∧
      tick.cancelled = false

/-- A pass captures. -/
def Captures (pass : Nat) : Prop :=
  Polls num attempt opening ticks pass ∧
    ∃ tick, ticks[pass]? = some tick ∧ ¬ NoFaceExpired num attempt opening (ticks.take pass) tick

/-- The run comes to the moment. -/
def Reaches : Moment → Prop
  | .called | .entered => True
  | .head pass => authenticateWithEmbeddings num attempt opening (ticks.take pass) = none
  | .polled pass => Polls num attempt opening ticks pass
  | .captured pass => Captures num attempt opening ticks pass

/-- After the moment the run polls the token again, or the frame in process
decides a match: what the camera is, the readings of the clock at the next
loop head and for the no-face deadline, and the frame. -/
def SeenInTime : Moment → Prop
  | .called => True
  | .entered => attempt.capabilities.irTextureScale ≠ .unverifiedY16 ∧
      HeadInTime attempt opening ticks 0
  | .head pass => HeadInTime attempt opening ticks pass
  | .polled pass | .captured pass =>
    ∃ tick, ticks[pass]? = some tick ∧
      ¬ NoFaceExpired num attempt opening (ticks.take pass) tick ∧
      (Decides num attempt (ticks.take pass) tick ∨ HeadInTime attempt opening ticks (pass + 1))

variable {opening ticks} {num attempt}

/-- At most one capture follows the moment. -/
theorem captures_unique {moment : Moment} {pass other : Nat} (hset : SetAt opening ticks moment)
    (hpass : moment.captures ≤ pass) (hother : moment.captures ≤ other)
    (hcaptures : Captures num attempt opening ticks pass)
    (hcaptures' : Captures num attempt opening ticks other) : pass = other := by
  have hlt {pass} (h : Captures num attempt opening ticks pass) : pass + 1 < moment.polls := by
    obtain ⟨⟨-, tick, htick, -, hpoll⟩, -⟩ := h
    obtain ⟨hlength, rfl⟩ := List.getElem?_eq_some_iff.mp htick
    rw [hset.2 pass hlength] at hpoll
    simpa using hpoll
  have hbefore := hlt hcaptures
  have hbefore' := hlt hcaptures'
  cases moment <;> simp only [Moment.captures, Moment.polls] at * <;> omega

/-! ## One pass -/

variable {state next : LoopState Embedding Frame} {frame : Frame} {tick : Tick Embedding Frame}
  {before seen rest : List (Tick Embedding Frame)} {report : Report Frame}

theorem gates_done_iff :
    (∃ report, gates num attempt state = .done report) ↔ Cleared num attempt state := by
  unfold gates
  constructor
  · rintro ⟨report, h⟩
    simp only at h
    split_ifs at h with hvariance hpasses hstill hthreshold hstill
    · exact ⟨fun _ => hpasses, fun hno => by simp [hno] at hvariance, by simpa using hstill⟩
    · exact ⟨fun hyes => absurd hyes hvariance, fun _ => hthreshold, by simpa using hstill⟩
  · rintro ⟨hvariance, hthreshold, hliveness⟩
    have hmoving : (attempt.config.security.requireLandmarkLiveness &&
        !state.landmarkTracker.checkLiveness num) = false := by
      cases hon : attempt.config.security.requireLandmarkLiveness
      · rfl
      · simp [hliveness hon]
    cases hon : attempt.config.security.requireFrameVariance with
    | true =>
      simp only [hon, hmoving, hvariance hon, if_true]
      exact ⟨_, rfl⟩
    | false =>
      simp only [hon, hmoving, hthreshold hon, if_true]
      exact ⟨_, rfl⟩

theorem processFaces_done_iff {first others} (h : Tracks num attempt seen state)
    (hseen : seenFaces num attempt tick = some (frame, first :: others)) :
    (∃ report, processFaces num attempt state frame first others = .done report) ↔
      Decides num attempt seen tick := by
  have hflat : (∃ face ∈ first :: others, passesTexture num attempt frame face = true) ↔
      ¬ (attempt.capabilities.isIr && (first :: others).all fun face =>
        !num.checkIrTexture frame face.1.bbox attempt.config.security.irTextureMinStddev) =
          true := by
    cases hir : attempt.capabilities.isIr
    · simp [passesTexture, hir]
    · simp only [passesTexture, hir, Bool.true_and, Bool.not_true, Bool.false_or, all_eq_true]
      grind
  have hdecides : Decides num attempt seen tick ↔
      (∃ face ∈ first :: others, passesTexture num attempt frame face = true) ∧
        Evident num attempt (seen ++ [tick]) := by
    constructor
    · rintro ⟨_, _, hsame, hdecides⟩
      cases hseen.symm.trans hsame
      exact hdecides
    · exact fun hdecides => ⟨frame, _, hseen, hdecides⟩
  rw [hdecides, hflat]
  unfold processFaces
  simp only
  split_ifs with hall
  · exact iff_of_false (by simp) fun hno => hno.1 hall
  · rw [gates_done_iff, and_iff_right hall]
    refine Tracks.cleared_iff ?_
    exact h.take_faces hseen (compareFaces_compared frame _ _) rfl rfl rfl rfl

theorem processFrame_done_iff (h : Tracks num attempt seen state)
    (hcapture : tick.capture = some frame) :
    (∃ report, processFrame num attempt state frame tick.process = .done report) ↔
      Decides num attempt seen tick := by
  have hcount : Tracks num attempt seen { state with frameCount := state.frameCount + 1 } :=
    h.congr rfl rfl rfl rfl
  have hunseen (hnone : seenFaces num attempt tick = none) : ¬ Decides num attempt seen tick := by
    rintro ⟨_, _, hsome, -⟩
    rw [hnone] at hsome
    cases hsome
  unfold processFrame
  simp only
  split_ifs with hdark
  · refine iff_of_false (by simp) (hunseen ?_)
    rcases hprocess : tick.process with _ | _ | _ <;> simp [seenFaces, hcapture, hprocess, hdark]
  · rcases hprocess : tick.process with _ | _ | ⟨first, others⟩
    · exact iff_of_false (by simp) (hunseen (by simp [seenFaces, hcapture, hprocess]))
    · exact iff_of_false (by simp) (hunseen (by simp [seenFaces, hcapture, hprocess]))
    · refine processFaces_done_iff (hcount.keepFrame frame) ?_
      simp [seenFaces, hcapture, hprocess, hdark]

theorem compareFaces_faceDetected (faces : List (Detection × Embedding)) :
    (compareFaces num attempt frame state faces).faceDetected = state.faceDetected := by
  have hface (acc : LoopState Embedding Frame × Bool) (face : Detection × Embedding) :
      (compareFace num attempt frame acc face).1.faceDetected = acc.1.faceDetected := by
    unfold compareFace LoopState.improve LoopState.recordMatch
    simp only
    split_ifs <;> rfl
  unfold compareFaces
  generalize false = frameMatched
  generalize hacc : (state, frameMatched) = acc
  obtain rfl : acc.1 = state := by rw [← hacc]
  clear hacc
  induction faces generalizing acc with
  | nil => rfl
  | cons face faces ih => exact (ih _).trans (hface acc face)

variable (num attempt) in
/-- The variables say what was seen, also whether a face was. -/
structure Follows (seen : List (Tick Embedding Frame)) (state : LoopState Embedding Frame) :
    Prop where
  tracks : Tracks num attempt seen state
  faceDetected : state.faceDetected = seen.any fun tick => (seenFaces num attempt tick).isSome

theorem Follows.noFaceExpired_iff (h : Follows num attempt seen state) :
    (!state.faceDetected && (attempt.noFaceDeadline opening).any fun deadline =>
        decide (deadline ≤ tick.nowNoFace)) = true ↔
      NoFaceExpired num attempt opening seen tick := by
  rw [Bool.and_eq_true, h.faceDetected, Bool.not_eq_true', NoFaceExpired]
  cases attempt.noFaceDeadline opening <;> simp

theorem processFrame_faceDetected
    (h : processFrame num attempt state frame tick.process = .next next)
    (hcapture : tick.capture = some frame) :
    next.faceDetected = (state.faceDetected || (seenFaces num attempt tick).isSome) := by
  have hgates {state : LoopState Embedding Frame} (h : gates num attempt state = .next next) :
      next.faceDetected = state.faceDetected := by
    unfold gates at h
    simp only at h
    split_ifs at h <;> cases h <;> rfl
  have hkeep (state : LoopState Embedding Frame) :
      (state.keepFrame attempt frame).faceDetected = state.faceDetected := by
    unfold LoopState.keepFrame
    split_ifs <;> rfl
  unfold processFrame processFaces at h
  simp only at h
  split_ifs at h with hdark
  · cases h
    rcases hprocess : tick.process with _ | _ | _ <;> simp [seenFaces, hcapture, hprocess, hdark]
  · rcases hprocess : tick.process with _ | _ | ⟨first, others⟩ <;> simp only [hprocess] at h
    · cases h
      simp [seenFaces, hcapture, hprocess, hkeep]
    · cases h
      simp [seenFaces, hcapture, hprocess, hkeep]
    · have hsome : seenFaces num attempt tick = some (frame, first :: others) := by
        simp [seenFaces, hcapture, hprocess, hdark]
      rw [hsome, Option.isSome_some, Bool.or_true]
      split_ifs at h
      · cases h
        rfl
      · rw [hgates h, compareFaces_faceDetected]

variable (num attempt) in
/-- How a pass ends that works on a frame. -/
inductive FrameEnd (seen : List (Tick Embedding Frame)) (tick : Tick Embedding Frame) :
    Flow Embedding Frame → Prop
  | decided {report : Report Frame} (h : Decides num attempt seen tick)
      (hmatch : report.outcome.isMatch = true) : FrameEnd seen tick (.done report)
  | undecided {next : LoopState Embedding Frame} (h : ¬ Decides num attempt seen tick)
      (hfollows : Follows num attempt (seen ++ [tick]) next) : FrameEnd seen tick (.next next)

theorem processFrame_frameEnd (h : Follows num attempt seen state)
    (hcapture : tick.capture = some frame) :
    FrameEnd num attempt seen tick (processFrame num attempt state frame tick.process) := by
  have hdone := processFrame_done_iff h.tracks hcapture
  have hend := processFrame_passEnd h.tracks hcapture
  cases hflow : processFrame num attempt state frame tick.process with
  | done report =>
    obtain ⟨_, rfl⟩ := processFrame_done hflow
    exact .decided (hdone.mp ⟨_, hflow⟩) rfl
  | next next =>
    rw [hflow] at hend
    cases hend with
    | next htracks =>
      refine .undecided (fun hdecides => ?_) ⟨htracks, ?_⟩
      · obtain ⟨report, hreport⟩ := hdone.mpr hdecides
        rw [hflow] at hreport
        cases hreport
      · rw [processFrame_faceDetected hflow hcapture, h.faceDetected]
        simp

theorem iteration_polled (h : Follows num attempt seen state)
    (hnow : tick.now < attempt.deadline opening) (hpoll : tick.cancelled = false) :
    (NoFaceExpired num attempt opening seen tick →
      iteration num attempt opening state tick = .done (finish attempt state)) ∧
    (¬ NoFaceExpired num attempt opening seen tick →
      FrameEnd num attempt seen tick (iteration num attempt opening state tick)) := by
  unfold iteration
  rw [if_neg (Nat.not_le.mpr hnow), hpoll, if_neg Bool.false_ne_true]
  refine ⟨fun hexpired => if_pos (h.noFaceExpired_iff.mpr hexpired), fun hface => ?_⟩
  rw [if_neg (mt h.noFaceExpired_iff.mp hface)]
  cases hcapture : tick.capture with
  | none =>
    have hnone : seenFaces num attempt tick = none := by simp [seenFaces, hcapture]
    refine .undecided ?_ ⟨h.tracks.skip hnone, by simp [h.faceDetected, hnone]⟩
    rintro ⟨_, _, hseen, -⟩
    rw [hnone] at hseen
    cases hseen
  | some frame => exact processFrame_frameEnd h hcapture

theorem Follows.pass (h : Follows num attempt seen state)
    (hnext : iteration num attempt opening state tick = .next next) :
    Follows num attempt (seen ++ [tick]) next := by
  obtain ⟨hnow, hpoll, hface⟩ : tick.now < attempt.deadline opening ∧ tick.cancelled = false ∧
      ¬ NoFaceExpired num attempt opening seen tick := by
    rw [← h.noFaceExpired_iff]
    unfold iteration at hnext
    split_ifs at hnext with hlate hpoll hface
    exact ⟨Nat.not_le.mp hlate, by simpa using hpoll, hface⟩
  have hend := (iteration_polled h hnow hpoll).2 hface
  rw [hnext] at hend
  cases hend with
  | undecided _ hfollows => exact hfollows

theorem scan_set (hset : tick.cancelled = true) :
    scan num attempt opening state (tick :: rest) =
      some (if tick.now < attempt.deadline opening then cancelled attempt state.frameCount
        else finish attempt state) := by
  rw [scan, iteration, hset, if_pos rfl]
  split_ifs with hlate hnow hnow
  · omega
  · rfl
  · rfl
  · omega

/-! ## A whole run -/

theorem scan_append (h : Follows num attempt before state)
    (hscan : scan num attempt opening state seen = none) :
    ∃ next, Follows num attempt (before ++ seen) next ∧
      ∀ rest, scan num attempt opening state (seen ++ rest) =
        scan num attempt opening next rest := by
  induction seen generalizing before state with
  | nil => exact ⟨state, by simpa using h, fun _ => rfl⟩
  | cons tick seen ih =>
    rw [scan] at hscan
    cases hflow : iteration num attempt opening state tick with
    | done report => simp [hflow] at hscan
    | next next =>
      rw [hflow] at hscan
      obtain ⟨final, hfinal, hrest⟩ := ih (h.pass hflow) hscan
      rw [append_assoc] at hfinal
      exact ⟨final, hfinal, fun rest => by rw [cons_append, scan, hflow]; exact hrest rest⟩

theorem authenticate_append
    (h : authenticateWithEmbeddings num attempt opening seen = none) :
    ∃ state, Follows num attempt seen state ∧
      ∀ rest, authenticateWithEmbeddings num attempt opening (seen ++ rest) =
        scan num attempt opening state rest := by
  unfold authenticateWithEmbeddings at h ⊢
  split_ifs at h ⊢
  exact scan_append ⟨initialState_tracks, rfl⟩ h

theorem finish_ne_cancelled : (finish attempt state).outcome ≠ .cancelled := by
  unfold finish
  split_ifs <;> simp

/-- The token is set before the poll of a pass. -/
theorem authenticate_head {pass}
    (hpast : authenticateWithEmbeddings num attempt opening (ticks.take pass) = none)
    (hset : ∀ tick, ticks[pass]? = some tick → tick.cancelled = true)
    (hrun : authenticateWithEmbeddings num attempt opening ticks = some report) :
    (report.outcome = .cancelled ↔ HeadInTime attempt opening ticks pass) ∧
      report.outcome.isMatch = false := by
  obtain ⟨state, -, hrest⟩ := authenticate_append hpast
  rw [← take_append_drop pass ticks, hrest] at hrun
  have hhead : (ticks.drop pass).head? = ticks[pass]? := head?_drop
  cases hdrop : ticks.drop pass with
  | nil =>
    rw [hdrop] at hrun
    cases hrun
  | cons tick rest =>
    rw [hdrop, head?_cons] at hhead
    rw [hdrop, scan_set (hset tick hhead.symm)] at hrun
    obtain rfl := Option.some.inj hrun
    have hin : HeadInTime attempt opening ticks pass ↔ tick.now < attempt.deadline opening := by
      simp [HeadInTime, ← hhead]
    rw [hin]
    split_ifs with hnow
    · exact ⟨iff_of_true rfl hnow, rfl⟩
    · exact ⟨iff_of_false finish_ne_cancelled hnow, finish_isMatch state⟩

/-- The token is set after the poll of a pass and before the next one. -/
theorem authenticate_polled {pass} (hpolls : Polls num attempt opening ticks pass)
    (hset : ∀ tick, ticks[pass + 1]? = some tick → tick.cancelled = true)
    (hrun : authenticateWithEmbeddings num attempt opening ticks = some report) :
    (report.outcome = .cancelled ∨ report.outcome.isMatch = true ∧
      authenticateWithEmbeddings num attempt opening (ticks.take (pass + 1)) = some report) ↔
    ∃ tick, ticks[pass]? = some tick ∧
      ¬ NoFaceExpired num attempt opening (ticks.take pass) tick ∧
      (Decides num attempt (ticks.take pass) tick ∨
        HeadInTime attempt opening ticks (pass + 1)) := by
  obtain ⟨hpast, tick, htick, hnow, hpoll⟩ := hpolls
  obtain ⟨state, hfollows, hrest⟩ := authenticate_append hpast
  obtain ⟨hexpired, hframe⟩ := iteration_polled hfollows hnow hpoll
  have htake : ticks.take (pass + 1) = ticks.take pass ++ [tick] := by
    rw [take_add_one, htick, Option.toList_some]
  have hdrop : ticks = ticks.take pass ++ tick :: ticks.drop (pass + 1) := by
    rw [append_cons, ← htake, take_append_drop]
  have hscan : scan num attempt opening state (tick :: ticks.drop (pass + 1)) = some report := by
    rw [← hrest, ← hdrop, hrun]
  simp only [htick, Option.some.injEq, exists_eq_left']
  -- the no-face check stands between the poll of a pass and its capture
  by_cases hface : NoFaceExpired num attempt opening (ticks.take pass) tick
  · rw [scan, hexpired hface] at hscan
    obtain rfl := Option.some.inj hscan
    simp [finish_ne_cancelled, finish_isMatch, hface]
  · have hend := hframe hface
    have hthis := hrest [tick]
    rw [scan] at hscan hthis
    rw [htake, hthis]
    cases hflow : iteration num attempt opening state tick with
    | done final =>
      rw [hflow] at hscan hend
      obtain rfl := Option.some.inj hscan
      cases hend with
      | decided hdecides hmatch => simp [hmatch, hface, hdecides]
    | next next =>
      rw [hflow] at hend hthis
      cases hend with
      | undecided hundecided =>
        -- the next pass is the first to find the token set
        rw [← htake] at hthis
        obtain ⟨hcancelled, hmatch⟩ := authenticate_head hthis hset hrun
        simp [hcancelled, hmatch, hface, hundecided]

/-- The run sees that the token was set, or a match by the frame in
process ends it. -/
theorem authenticate_seen_iff {moment : Moment} (hset : SetAt opening ticks moment)
    (hreaches : Reaches num attempt opening ticks moment)
    (hrun : authenticateWithEmbeddings num attempt opening ticks = some report) :
    (report.outcome = .cancelled ∨ report.outcome.isMatch = true ∧
      authenticateWithEmbeddings num attempt opening (ticks.take moment.frames) = some report) ↔
    SeenInTime num attempt opening ticks moment := by
  have hpoll (pass) (hle : moment.polls ≤ pass + 1) (tick) (htick : ticks[pass]? = some tick) :
      tick.cancelled = true := by
    obtain ⟨h, rfl⟩ := List.getElem?_eq_some_iff.mp htick
    rw [hset.2 pass h]
    exact decide_eq_true hle
  cases moment with
  | called =>
    have hopening : opening.cancelled = true := hset.1
    rw [authenticateWithEmbeddings, hopening, if_pos rfl] at hrun
    obtain rfl := Option.some.inj hrun
    exact iff_of_true (Or.inl rfl) trivial
  | entered =>
    have hopening : opening.cancelled = false := hset.1
    by_cases hscale : attempt.capabilities.irTextureScale = .unverifiedY16
    · rw [authenticateWithEmbeddings, hopening, if_neg Bool.false_ne_true, if_pos hscale] at hrun
      obtain rfl := Option.some.inj hrun
      exact iff_of_false (by simp [AuthOutcome.isMatch]) fun hin => hin.1 hscale
    · have hpast : authenticateWithEmbeddings num attempt opening (ticks.take 0) = none := by
        rw [authenticateWithEmbeddings, hopening, if_neg Bool.false_ne_true, if_neg hscale]
        rfl
      obtain ⟨hcancelled, hmatch⟩ := authenticate_head hpast (hpoll 0 (Nat.le_refl 1)) hrun
      simp [SeenInTime, hcancelled, hmatch, hscale]
  | head pass =>
    obtain ⟨hcancelled, hmatch⟩ := authenticate_head hreaches (hpoll pass (Nat.le_refl _)) hrun
    simp [SeenInTime, hcancelled, hmatch]
  | polled pass => exact authenticate_polled hreaches (hpoll (pass + 1) (Nat.le_refl _)) hrun
  | captured pass => exact authenticate_polled hreaches.1 (hpoll (pass + 1) (Nat.le_refl _)) hrun

end

end Facelock.Auth
