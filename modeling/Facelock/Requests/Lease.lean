import Facelock.Daemon.Wire
import Facelock.Lib.Crash

/-!
# The handler and its camera lease

The requests that the daemon serves on its handler, with what they do to
the open camera (`crates/facelock-daemon/src/handler.rs`).  The lease owns
the stream and the deadline of its warm hold.  `acquire` opens the camera or
takes over a warm one, `finish` closes it or sets a deadline, `expire` closes
it once the deadline has passed.

A request is a program on the handler.  Its steps are the changes of the
handler's fields, so that a request which unwinds leaves one of the states
it passes through.  What it finds out on its way is in `Answers`: the cancel
token, the camera, the store, the recognition and the clock.  The contents
of replies are left out.

Instants and durations are in nanoseconds.
-/

namespace Facelock.Requests

open Facelock.Auth (AuthOutcome IrTextureScale)
open Facelock.Daemon (cancelledMessage)
open Facelock.Crash

/-! ## Fields -/

def fromSecs (secs : Nat) : Nat := secs * 1000000000

def previewMinHold : Nat := fromSecs 2

def mmapBuffers : Nat := 4

structure DeviceConfig where
  warmupFrames : Nat
  cameraReleaseSecs : Nat
  cameraReleaseAfterSuccessSecs : Nat

/-- What the lease asks of an open camera. -/
structure Stream where
  irTextureScale : IrTextureScale
  pendingSettleFrames : Nat

structure CameraLease where
  camera : Option Stream
  deadline : Option Nat
  /-- Whether there is a `factory`. -/
  factory : Bool
  warmupFramesOverride : Option Nat

structure Handler where
  device : DeviceConfig
  shutdownRequested : Bool
  lease : CameraLease
  /-- The user whose templates the preview has loaded. -/
  previewEmbeddings : Option String

def Handler.new (device : DeviceConfig) (factory : Bool) (warmupFramesOverride : Option Nat) :
    Handler :=
  { device := device
    shutdownRequested := false
    lease :=
      { camera := none, deadline := none, factory := factory
        warmupFramesOverride := warmupFramesOverride }
    previewEmbeddings := none }

/-! ## Outcomes -/

inductive EnrollOutcome where
  | enrolled (modelId embeddingCount : UInt32)
  | error (message : String)
  | cancelled
  deriving DecidableEq, Repr

inductive Outcome where
  | success
  | failure
  | cancelled
  | error
  deriving DecidableEq, Repr

def Outcome.holdSecs (device : DeviceConfig) : Outcome → Nat
  | .failure => device.cameraReleaseSecs
  | .success => device.cameraReleaseAfterSuccessSecs
  | .cancelled => 0
  | .error => 0

def Outcome.ofAuth : AuthOutcome → Outcome
  | .authResult result => if result.matched then .success else .failure
  | .suppressed => .error
  | .error _ _ => .error
  | .cancelled => .cancelled

def Outcome.ofEnroll : EnrollOutcome → Outcome
  | .enrolled _ _ => .success
  | .error _ => .error
  | .cancelled => .cancelled

inductive DaemonRequest where
  | ping
  | shutdown
  | releaseCamera
  | authenticate (user : String)
  | enroll (user label : String)
  | listModels (user : String)
  | removeModel (user : String) (modelId : UInt32)
  | clearModels (user : String)
  | listDevices
  | previewFrame
  | previewDetectFrame (user : String)
  deriving DecidableEq, Repr

inductive DaemonResponse where
  | ok
  | authResult
  | suppressed
  | enrolled
  | models
  | removed
  | devices
  | frame
  | detectFrame
  | error (message : String)
  deriving DecidableEq, Repr

def DaemonResponse.ofAuth : AuthOutcome → DaemonResponse
  | .authResult _ => .authResult
  | .suppressed => .suppressed
  | .error _ message => .error message
  | .cancelled => .error cancelledMessage

def DaemonResponse.ofEnroll : EnrollOutcome → DaemonResponse
  | .enrolled _ _ => .enrolled
  | .error message => .error message
  | .cancelled => .error cancelledMessage

/-- What a request finds out. -/
structure Answers where
  /-- The token when the camera is asked for. -/
  cancelled : Bool
  /-- `factory(config)`. -/
  opened : Except String Stream
  /-- For each frame to discard, the token and the capture. -/
  discards : Nat → Bool × Except String Unit
  /-- The token after a failed discard. -/
  cancelledAfter : Bool
  /-- The gates in front of an authentication. -/
  preflight : Option DaemonResponse
  /-- Whether `refresh_software_sealer` finds the key again. -/
  keyRestored : Bool
  /-- A plaintext enrollment that is not allowed. -/
  plaintextRefusal : Option String
  /-- A sealer that cannot be initialized. -/
  sealerRefusal : Option String
  /-- A camera that the templates cannot be bound to. -/
  bindingRefusal : Option String
  store : Except String Unit
  embeddings : Except String Unit
  captured : Except String Unit
  /-- Whether the engine processes a preview frame. -/
  processed : Bool
  encoded : Except String Unit
  devices : Except String Unit
  authenticated : AuthOutcome
  enrolled : EnrollOutcome
  /-- The clock when the hold is set. -/
  now : Nat

/-! ## The lease -/

/-- Set a part of the state. -/
def modify {σ : Type} (f : σ → σ) : Prog σ String Unit :=
  Prog.act fun state => .ok (f state)

def discardFrames (count : Nat) (turns : Nat → Bool × Except String Unit) : Except String Unit :=
  (List.range count).forM fun i =>
    if (turns i).1 then .error cancelledMessage else (turns i).2

inductive AcquisitionPurpose where
  | capture
  | authentication
  deriving DecidableEq, Repr

def AcquisitionPurpose.mayDiscardFrom (purpose : AcquisitionPurpose) (camera : Stream) : Bool :=
  decide (purpose ≠ .authentication) || decide (camera.irTextureScale ≠ .unverifiedY16)

namespace CameraLease

def close : Prog CameraLease String Unit :=
  modify fun lease => { lease with camera := none }

/-- A discard that is skipped where it could not be analysed. -/
def discardFor (purpose : AcquisitionPurpose) (camera : Stream) (count : Nat)
    (answers : Answers) : Except String Unit :=
  if purpose.mayDiscardFrom camera then discardFrames count answers.discards else .ok ()

/-- `acquire_for` with a warm camera. -/
def reuse (purpose : AcquisitionPurpose) (camera : Stream) (answers : Answers) :
    Prog CameraLease String Stream :=
  match discardFor purpose camera (mmapBuffers - 1) answers with
  | .ok () => pure camera
  | .error e =>
    if answers.cancelledAfter then do
      close
      Prog.fail cancelledMessage
    else do
      modify fun lease => { lease with camera := none }
      Prog.fail ("capture error: " ++ e)

def keepOpened (camera : Stream) : Prog CameraLease String Stream := do
  modify fun lease => { lease with camera := some camera }
  return camera

variable (device : DeviceConfig)

/-- `acquire_for` without an open camera. -/
def openCold (purpose : AcquisitionPurpose) (lease : CameraLease)
    (answers : Answers) : Prog CameraLease String Stream :=
  if !lease.factory then Prog.fail "no camera available"
  else
    match answers.opened with
    | .error e => Prog.fail ("failed to open camera: " ++ e)
    | .ok camera =>
      let warmup := lease.warmupFramesOverride.getD device.warmupFrames -
        camera.pendingSettleFrames
      match discardFor purpose camera warmup answers with
      | .ok () => keepOpened camera
      -- A failed warmup is left for the scan, a cancelled one ends here.
      | .error _ =>
        if answers.cancelledAfter then Prog.fail cancelledMessage else keepOpened camera

def acquireFor (purpose : AcquisitionPurpose) (answers : Answers) :
    Prog CameraLease String Stream := do
  modify fun lease => { lease with deadline := none }
  if answers.cancelled then do
    close
    Prog.fail cancelledMessage
  else do
    let lease ← Prog.read .ok
    match lease.camera with
    | some camera => reuse purpose camera answers
    | none => openCold device purpose lease answers

def finish (outcome : Outcome) (now : Nat) : Prog CameraLease String Unit :=
  if outcome.holdSecs device = 0 then close
  else modify fun lease =>
    { lease with deadline := some (now + fromSecs (outcome.holdSecs device)) }

def touchPreview (now : Nat) : Prog CameraLease String Unit :=
  modify fun lease =>
    { lease with deadline := some (now + max (fromSecs device.cameraReleaseSecs) previewMinHold) }

def expire (lease : CameraLease) (now : Nat) : CameraLease :=
  if lease.deadline.any fun deadline => decide (deadline ≤ now) then
    { lease with deadline := none, camera := none }
  else lease

def release : Prog CameraLease String Unit := do
  modify fun lease => { lease with deadline := none }
  close

def holdsCamera (lease : CameraLease) : Bool := lease.camera.isSome

end CameraLease

/-! ## The handler -/

namespace Handler

/-- A program on the lease of the handler. -/
def onLease {α : Type} (program : Prog CameraLease String α) : Prog Handler String α :=
  program.zoom Handler.lease fun handler lease => { handler with lease := lease }

def expireCamera (handler : Handler) (now : Nat) : Handler :=
  let lease := handler.lease.expire now
  { handler with
    lease := lease
    previewEmbeddings := if lease.holdsCamera then handler.previewEmbeddings else none }

def dropPreview : Prog Handler String Unit :=
  modify fun handler => { handler with previewEmbeddings := none }

variable (answers : Answers)

def refreshSoftwareSealer : Prog Handler String Unit :=
  if answers.keyRestored then dropPreview else pure ()

/-- Take the camera for a request, and go on with it or report why not. -/
def withCamera (purpose : AcquisitionPurpose) (answers : Answers)
    (next : DeviceConfig → Stream → Prog Handler String DaemonResponse) :
    Prog Handler String DaemonResponse := do
  let handler ← Prog.read .ok
  let acquired ← (onLease (CameraLease.acquireFor handler.device purpose answers)).attempt
  match acquired with
  | .error message => pure (.error message)
  | .ok camera => next handler.device camera

def handleAuthenticatePrechecked : Prog Handler String DaemonResponse := do
  refreshSoftwareSealer answers
  match answers.store with
  | .error e => pure (.error ("storage error: " ++ e))
  | .ok () =>
    match answers.embeddings with
    | .error e => pure (.error e)
    | .ok () =>
      withCamera .authentication answers fun device _ => do
        onLease (CameraLease.finish device (.ofAuth answers.authenticated) answers.now)
        return .ofAuth answers.authenticated

def handleAuthenticate : Prog Handler String DaemonResponse :=
  match answers.preflight with
  | some response => pure response
  | none => handleAuthenticatePrechecked answers

/-- Enrollment once a sealer is there. -/
def enrollSealed : Prog Handler String DaemonResponse :=
  withCamera .capture answers fun device _ =>
    match answers.bindingRefusal with
    | some message => do
      onLease (CameraLease.finish device .error answers.now)
      return .error message
    | none => do
      onLease (CameraLease.finish device (.ofEnroll answers.enrolled) answers.now)
      dropPreview
      return .ofEnroll answers.enrolled

def enroll : Prog Handler String DaemonResponse :=
  match answers.plaintextRefusal with
  | some message => pure (.error message)
  | none => do
    refreshSoftwareSealer answers
    match answers.sealerRefusal with
    | some message => pure (.error message)
    | none => enrollSealed answers

def storeResponse (response : DaemonResponse) : DaemonResponse :=
  match answers.store with
  | .ok () => response
  | .error e => .error ("storage error: " ++ e)

/-- A change of the stored models. -/
def changeModels : Prog Handler String DaemonResponse := do
  dropPreview
  return storeResponse answers .removed

def devicesResponse : DaemonResponse :=
  match answers.devices with
  | .ok () => .devices
  | .error e => .error ("device enumeration failed: " ++ e)

def encodeResponse (response : DaemonResponse) : DaemonResponse :=
  match answers.encoded with
  | .ok () => response
  | .error e => .error ("JPEG encode error: " ++ e)

/-- One captured preview frame. -/
def preview (next : Prog Handler String DaemonResponse) : Prog Handler String DaemonResponse :=
  withCamera .capture answers fun device _ =>
    match answers.captured with
    | .ok () => do
      onLease (CameraLease.touchPreview device answers.now)
      next
    | .error e => do
      onLease (CameraLease.finish device .error answers.now)
      return .error ("capture error: " ++ e)

/-- The templates are loaded once for each user of the preview. -/
def loadPreview (user : String) (answers : Answers) : Prog Handler String Unit :=
  if answers.processed then
    modify fun handler =>
      if handler.previewEmbeddings = some user then handler
      else
        { handler with
          previewEmbeddings := match answers.embeddings with
            | .ok () => some user
            | .error _ => none }
  else pure ()

def handleWithCancel : DaemonRequest → Prog Handler String DaemonResponse
  | .ping => pure .ok
  | .shutdown => do
    onLease CameraLease.release
    dropPreview
    modify fun handler => { handler with shutdownRequested := true }
    return .ok
  | .releaseCamera => do
    onLease CameraLease.release
    dropPreview
    return .ok
  | .authenticate _ => handleAuthenticate answers
  | .enroll _ _ => enroll answers
  | .listModels _ => pure (storeResponse answers .models)
  | .removeModel _ _ => changeModels answers
  | .clearModels _ => changeModels answers
  | .listDevices => pure (devicesResponse answers)
  | .previewFrame => preview answers (pure (encodeResponse answers .frame))
  | .previewDetectFrame user => preview answers do
    loadPreview user answers
    return encodeResponse answers .detectFrame

/-! ## The shutdown flag -/

section Flag

variable {flag : Bool}

def Flagged (flag : Bool) (handler : Handler) : Prop :=
  handler.shutdownRequested = flag

theorem keeps_modify {σ : Type} {inv} {f : σ → σ}
    (h : ∀ state, inv state → inv (f state)) : Prog.Keeps inv (modify f) :=
  keeps_act fun state next hstate hnext => by
    cases hnext
    exact h state hstate

theorem onLease_keeps {α : Type} (program : Prog CameraLease String α) :
    (onLease program).Keeps (Flagged flag) :=
  keeps_zoom fun _ _ h => h

theorem dropPreview_keeps : dropPreview.Keeps (Flagged flag) :=
  keeps_modify fun _ h => h

variable (answers : Answers)

theorem refreshSoftwareSealer_keeps : (refreshSoftwareSealer answers).Keeps (Flagged flag) := by
  unfold refreshSoftwareSealer
  split
  · exact dropPreview_keeps
  · exact keeps_pure ()

theorem withCamera_keeps {purpose answers next}
    (hnext : ∀ device camera, (next device camera).Keeps (Flagged flag)) :
    (withCamera purpose answers next).Keeps (Flagged flag) := by
  refine keeps_bind (keeps_read _) fun handler => ?_
  refine keeps_bind (keeps_attempt (onLease_keeps _)) fun acquired => ?_
  cases acquired with
  | error message => exact keeps_pure _
  | ok camera => exact hnext _ camera

theorem handleAuthenticate_keeps : (handleAuthenticate answers).Keeps (Flagged flag) := by
  unfold handleAuthenticate
  split
  · exact keeps_pure _
  · refine keeps_bind (refreshSoftwareSealer_keeps answers) fun _ => ?_
    split
    · exact keeps_pure _
    · split
      · exact keeps_pure _
      · exact withCamera_keeps fun device camera =>
          keeps_bind (onLease_keeps _) fun _ => keeps_pure _

theorem enrollSealed_keeps : (enrollSealed answers).Keeps (Flagged flag) := by
  refine withCamera_keeps fun device camera => ?_
  split
  · exact keeps_bind (onLease_keeps _) fun _ => keeps_pure _
  · refine keeps_bind (onLease_keeps _) fun _ => ?_
    exact keeps_bind dropPreview_keeps fun _ => keeps_pure _

theorem enroll_keeps : (enroll answers).Keeps (Flagged flag) := by
  unfold enroll
  split
  · exact keeps_pure _
  · refine keeps_bind (refreshSoftwareSealer_keeps answers) fun _ => ?_
    split
    · exact keeps_pure _
    · exact enrollSealed_keeps answers

theorem changeModels_keeps : (changeModels answers).Keeps (Flagged flag) :=
  keeps_bind dropPreview_keeps fun _ => keeps_pure _

theorem preview_keeps {answers next}
    (hnext : next.Keeps (Flagged flag)) : (preview answers next).Keeps (Flagged flag) := by
  refine withCamera_keeps fun device camera => ?_
  split
  · exact keeps_bind (onLease_keeps _) fun _ => hnext
  · exact keeps_bind (onLease_keeps _) fun _ => keeps_pure _

theorem loadPreview_keeps (user : String) (answers : Answers) :
    (loadPreview user answers).Keeps (Flagged flag) := by
  unfold loadPreview
  split
  · refine keeps_modify fun handler h => ?_
    split
    · exact h
    · exact h
  · exact keeps_pure _

/-- Only a shutdown touches the flag, also where a request is cut short. -/
theorem handleWithCancel_keeps {request}
    (h : request ≠ .shutdown) : (handleWithCancel answers request).Keeps (Flagged flag) := by
  cases request with
  | ping | listModels | listDevices => exact keeps_pure _
  | shutdown => exact absurd rfl h
  | releaseCamera =>
    refine keeps_bind (onLease_keeps _) fun _ => ?_
    exact keeps_bind dropPreview_keeps fun _ => keeps_pure _
  | authenticate user => exact handleAuthenticate_keeps answers
  | enroll user label => exact enroll_keeps answers
  | removeModel | clearModels => exact changeModels_keeps answers
  | previewFrame => exact preview_keeps (keeps_pure _)
  | previewDetectFrame user =>
    exact preview_keeps (keeps_bind (loadPreview_keeps user answers) fun _ => keeps_pure _)

end Flag

end Handler

end Facelock.Requests
