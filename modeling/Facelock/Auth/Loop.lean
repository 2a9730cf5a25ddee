import Facelock.Auth.Matching

/-!
# The recognition loop

`authenticate_with_embeddings` of `crates/facelock-daemon/src/auth.rs`,
the loop behind every face authentication.  One pass of its `while` loop
is `iteration`, and what the camera, the face engine, the clock and the
cancel token do during that pass is a `Tick`.  A run is a list of ticks,
so every behaviour of these four is a run.  The clock is read twice in a
pass, at the loop head and for the no-face deadline, and the two readings
are independent.

A run that has used up its ticks is still going on, and the model returns
`none`.  Logging, timestamps and durations are left out.  Counters are
natural numbers.
-/

namespace Facelock.Auth

/-! ## Outcomes -/

inductive ErrorKind where
  | disabled
  | sshSession
  | lidClosed
  | lidUnavailable
  | storage
  | rateLimited
  | rateLimitCheckFailed
  | irRequired
  | y16BitDepthRequired
  | allFramesDark
  | internal
  deriving DecidableEq, Repr

def ErrorKind.render (kind : ErrorKind) (detail : String) : String :=
  match kind with
  | .disabled => "facelock is disabled"
  | .sshSession => "SSH session detected"
  | .lidClosed => "lid closed"
  | .lidUnavailable => "lid state unavailable"
  | .storage => "storage error: " ++ detail
  | .rateLimited => "rate limited"
  | .rateLimitCheckFailed => "rate limit check failed: " ++ detail
  | .irRequired => "IR camera required for authentication. Set security.require_ir = false to " ++
      "override (NOT RECOMMENDED)."
  | .y16BitDepthRequired => "Y16 IR texture scale is unverified; authentication requires a " ++
      "verified y16_bit_depth (8..=16) quirk"
  | .allFramesDark => "all frames dark"
  | .internal => detail

def ErrorKind.auditResult (kind : ErrorKind) : String :=
  match kind with
  | .rateLimited => "rate_limited"
  | _ => "error"

inductive AuthFailureReason where
  | varianceNotSatisfied
  deriving DecidableEq, Repr

structure MatchResult where
  matched : Bool
  modelId : Option UInt32
  label : Option String
  similarity : Binary32
  faceDetected : Bool
  failureReason : Option AuthFailureReason
  deriving DecidableEq, Repr

inductive AuthOutcome where
  | authResult (result : MatchResult)
  | suppressed
  | error (kind : ErrorKind) (message : String)
  | cancelled
  deriving DecidableEq, Repr

def AuthOutcome.isMatch : AuthOutcome → Bool
  | .authResult result => result.matched
  | _ => false

inductive AuditSource where
  | daemon
  | oneshot
  | test
  deriving DecidableEq, Repr

structure AuditEntry where
  user : String
  result : String
  source : AuditSource
  similarity : Option Binary32
  frameCount : Nat
  device : Option String
  modelLabel : Option String
  error : Option String

/-- What an attempt leaves behind: its outcome, its audit entry and the
snapshot it saves. -/
structure Report (Frame : Type) where
  outcome : AuthOutcome
  audit : AuditEntry
  snapshot : Option (Binary32 × Frame)

/-! ## Inputs -/

inductive IrTextureScale where
  | notY16
  | verifiedY16 (bitDepth : UInt8)
  | unverifiedY16
  deriving DecidableEq, Repr

structure CameraCaps where
  isIr : Bool
  fingerprint : DeviceFingerprint
  irTextureScale : IrTextureScale

/-- The arguments of the call. -/
structure Attempt (Embedding : Type) where
  capabilities : CameraCaps
  stored : List (UInt32 × Embedding)
  models : List FaceModelInfo
  config : Config
  user : String
  source : AuditSource

/-- What the call observes before the loop: the cancel token, `start`, and
the reading of the clock for the deadline. -/
structure Opening where
  cancelled : Bool
  start : Nat
  loopStart : Nat

/-- What one pass of the loop observes.  Times are in nanoseconds, `none`
is a failed capture or a failed run of the engine. -/
structure Tick (Embedding Frame : Type) where
  now : Nat
  cancelled : Bool
  nowNoFace : Nat
  capture : Option Frame
  process : Option (List (Detection × Embedding))

section

variable {Embedding Frame : Type}

namespace Attempt

variable (attempt : Attempt Embedding)

/-- The ids that device coupling admits. -/
def allowed : List UInt32 :=
  deviceAllowedModelIds attempt.models attempt.capabilities.fingerprint
    attempt.config.security.deviceBindingPolicy

def compareSet : List (UInt32 × Embedding) :=
  attempt.stored.filter fun entry => attempt.allowed.contains entry.1

def threshold : Binary32 :=
  attempt.config.recognition.threshold

def labelFor (id : UInt32) : Option String :=
  (attempt.models.find? fun model => model.id == id).map FaceModelInfo.label

def saveSnapshots : Bool :=
  attempt.config.snapshots != .off

def deadline (opening : Opening) : Nat :=
  opening.loopStart + 1000000000 * attempt.config.recognition.timeoutSecs

def noFaceDeadline (opening : Opening) : Option Nat :=
  attempt.config.recognition.effectiveNoFaceTimeout.map fun secs =>
    opening.start + 1000000000 * secs

end Attempt

/-! ## The loop -/

/-- The mutable variables of the loop. -/
structure LoopState (Embedding Frame : Type) where
  bestSimilarity : Binary32
  varianceWindow : FrameVarianceWindow Embedding
  matchedFramesTotal : Nat
  varianceEverPassed : Bool
  darkCount : Nat
  frameCount : Nat
  faceDetected : Bool
  bestModelId : Option UInt32
  landmarkTracker : LandmarkTracker
  lastFrame : Option Frame

/-- The end of a pass: `return`, or the next pass. -/
inductive Flow (Embedding Frame : Type) where
  | done (report : Report Frame)
  | next (state : LoopState Embedding Frame)

section

variable (attempt : Attempt Embedding) (state : LoopState Embedding Frame)

def initialState : LoopState Embedding Frame :=
  { bestSimilarity := Binary32.zero
    varianceWindow := FrameVarianceWindow.new attempt.config.security.minAuthFrames
    matchedFramesTotal := 0
    varianceEverPassed := false
    darkCount := 0
    frameCount := 0
    faceDetected := false
    bestModelId := none
    landmarkTracker := LandmarkTracker.new 10 attempt.config.security.landmarkDisplacementPx
      attempt.config.security.landmarkMinMoving
    lastFrame := none }

/-- The audit entry of an ending. -/
def auditEntry (result : String) (similarity : Option Binary32)
    (frameCount : Nat) (modelLabel error : Option String) : AuditEntry :=
  { user := attempt.user, result, source := attempt.source, similarity, frameCount,
    device := attempt.config.device.path, modelLabel, error }

def cancelled (attempt : Attempt Embedding) (frameCount : Nat) : Report Frame :=
  { outcome := .cancelled
    audit := auditEntry attempt "cancelled" none frameCount none none
    snapshot := none }

/-- The snapshot at an ending. -/
def snapshotOf (success : Bool) (state : LoopState Embedding Frame) : Option (Binary32 × Frame) :=
  if attempt.config.snapshots.shouldSave success then
    state.lastFrame.map fun frame => (state.bestSimilarity, frame)
  else none

/-- The return with `matched: true`, the same in both branches. -/
def succeed : Report Frame :=
  let label := state.bestModelId.bind attempt.labelFor
  { outcome := .authResult
      { matched := true
        modelId := state.bestModelId
        label := label
        similarity := state.bestSimilarity
        faceDetected := state.faceDetected
        failureReason := none }
    audit := auditEntry attempt "success" (some state.bestSimilarity) state.frameCount label none
    snapshot := snapshotOf attempt true state }

/-- What follows the loop. -/
def finish : Report Frame :=
  let failureReason :=
    if attempt.config.security.requireFrameVariance &&
        FrameVarianceWindow.isFull state.varianceWindow && !state.varianceEverPassed then
      some AuthFailureReason.varianceNotSatisfied
    else none
  if state.darkCount = state.frameCount ∧ 0 < state.frameCount then
    { outcome := .error .allFramesDark (ErrorKind.allFramesDark.render "")
      audit := auditEntry attempt "error" none state.frameCount none
        (some (ErrorKind.allFramesDark.render ""))
      snapshot := none }
  else
    { outcome := .authResult
        { matched := false
          modelId := none
          label := none
          similarity := state.bestSimilarity
          faceDetected := state.faceDetected
          failureReason }
      audit := auditEntry attempt "failure" (some state.bestSimilarity) state.frameCount none none
      snapshot := snapshotOf attempt false state }

end

variable (num : Numerics Embedding Frame) (attempt : Attempt Embedding)
  (state : LoopState Embedding Frame) (frame : Frame)

/-- A face is not flat, or the camera is not an IR camera. -/
def passesTexture (face : Detection × Embedding) : Bool :=
  !attempt.capabilities.isIr ||
    num.checkIrTexture frame face.1.bbox attempt.config.security.irTextureMinStddev

/-- Keep the larger of the best match so far and a new one. -/
def LoopState.improve (frameBest : Binary32 × Option UInt32) : LoopState Embedding Frame :=
  if state.bestSimilarity < frameBest.1 then
    { state with bestSimilarity := frameBest.1, bestModelId := frameBest.2 }
  else state

/-- Record the embedding of a matching frame. -/
def LoopState.recordMatch (embedding : Embedding) : LoopState Embedding Frame :=
  { state with
    varianceWindow := RingBuffer.push state.varianceWindow embedding
    matchedFramesTotal := state.matchedFramesTotal + 1 }

/-- The body of the `for` loop over the faces.  The flag is
`frame_matched`. -/
def compareFace (acc : LoopState Embedding Frame × Bool) (face : Detection × Embedding) :
    LoopState Embedding Frame × Bool :=
  if !passesTexture num attempt frame face then acc
  else
    let frameBest := bestMatch num face.2 attempt.compareSet
    let state := acc.1.improve frameBest
    if attempt.threshold ≤ frameBest.1 ∧ acc.2 = false then (state.recordMatch face.2, true)
    else (state, acc.2)

/-- The `for` loop over the faces of a frame. -/
def compareFaces (state : LoopState Embedding Frame) (faces : List (Detection × Embedding)) :
    LoopState Embedding Frame :=
  (faces.foldl (compareFace num attempt frame) (state, false)).1

/-- The variance gate and the landmark gate at the end of a pass. -/
def gates : Flow Embedding Frame :=
  let security := attempt.config.security
  let still := security.requireLandmarkLiveness && !state.landmarkTracker.checkLiveness num
  if security.requireFrameVariance then
    if FrameVarianceWindow.passes num state.varianceWindow security.frameVarianceMaxSimilarity then
      let state := { state with varianceEverPassed := true }
      if still then .next state else .done (succeed attempt state)
    else .next state
  else if attempt.threshold ≤ state.bestSimilarity then
    if still then .next state else .done (succeed attempt state)
  else .next state

/-- Keep the frame for a snapshot. -/
def LoopState.keepFrame : LoopState Embedding Frame :=
  if attempt.saveSnapshots then { state with lastFrame := some frame } else state

/-- A pass from the detected faces on.  The tracker is fed by the first
face, whatever the gates say about it. -/
def processFaces (first : Detection × Embedding) (rest : List (Detection × Embedding)) :
    Flow Embedding Frame :=
  let state :=
    { state with
      faceDetected := true
      landmarkTracker := state.landmarkTracker.push first.1.landmarks }
  let allFlat := (first :: rest).all fun face =>
    !num.checkIrTexture frame face.1.bbox attempt.config.security.irTextureMinStddev
  if attempt.capabilities.isIr && allFlat then .next state
  else gates num attempt (compareFaces num attempt frame state (first :: rest))

/-- A pass from the captured frame on. -/
def processFrame (process : Option (List (Detection × Embedding))) : Flow Embedding Frame :=
  let device := attempt.config.device
  let state := { state with frameCount := state.frameCount + 1 }
  if num.isDarkWithConfig frame device.darkThreshold device.darkPixelValue then
    .next { state with darkCount := state.darkCount + 1 }
  else
    let state := state.keepFrame attempt frame
    match process with
    | none => .next state
    | some [] => .next state
    | some (first :: rest) => processFaces num attempt state frame first rest

/-- One pass of the `while` loop.  The loop condition and the no-face exit
both go on to `finish`. -/
def iteration (opening : Opening)
    (state : LoopState Embedding Frame) (tick : Tick Embedding Frame) : Flow Embedding Frame :=
  if attempt.deadline opening ≤ tick.now then .done (finish attempt state)
  else if tick.cancelled then .done (cancelled attempt state.frameCount)
  else if !state.faceDetected &&
      (attempt.noFaceDeadline opening).any fun deadline => decide (deadline ≤ tick.nowNoFace) then
    .done (finish attempt state)
  else
    match tick.capture with
    | none => .next state
    | some frame => processFrame num attempt state frame tick.process

/-- The `while` loop. -/
def scan (attempt : Attempt Embedding) (opening : Opening) :
    LoopState Embedding Frame → List (Tick Embedding Frame) → Option (Report Frame)
  | _, [] => none
  | state, tick :: ticks =>
    match iteration num attempt opening state tick with
    | .done report => some report
    | .next state => scan attempt opening state ticks

def authenticateWithEmbeddings (opening : Opening)
    (ticks : List (Tick Embedding Frame)) : Option (Report Frame) :=
  if opening.cancelled then some (cancelled attempt 0)
  else if attempt.capabilities.irTextureScale = .unverifiedY16 then
    let kind := ErrorKind.y16BitDepthRequired
    some
      { outcome := .error kind (kind.render "")
        audit := auditEntry attempt kind.auditResult none 0 none (some (kind.render ""))
        snapshot := none }
  else scan num attempt opening (initialState attempt) ticks

/-! ## Matches -/

variable {num attempt state frame} {report : Report Frame}

theorem gates_done (h : gates num attempt state = .done report) :
    ∃ state, report = succeed attempt state := by
  unfold gates at h
  simp only at h
  split_ifs at h
  · cases h
    exact ⟨_, rfl⟩
  · cases h
    exact ⟨_, rfl⟩

theorem processFrame_done {process}
    (h : processFrame num attempt state frame process = .done report) :
    ∃ state, report = succeed attempt state := by
  unfold processFrame processFaces at h
  simp only at h
  split_ifs at h
  split at h
  · cases h
  · cases h
  · split_ifs at h
    exact gates_done h

end

end Facelock.Auth
