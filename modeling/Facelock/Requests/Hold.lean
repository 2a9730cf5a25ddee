import Facelock.Requests.Polling

/-!
# How long the camera stays open

Every request that takes the camera ends with `finish`, with `touch_preview`
or with the camera closed (`crates/facelock-daemon/src/handler.rs`).  Between
requests the camera is therefore `Settled`: it is closed, or a deadline is
set that the next ticks of `expire_camera` compare with the clock.

A history is a list of turns, requests and ticks.  The time that passes is
part of a turn, so the clock never runs backwards.  A request that is refused
before it needs the camera does not touch the lease, and the deadline that it
leaves was set by an earlier one.
-/

namespace Facelock.Requests

open Facelock.Crash

/-! ## The lease between requests -/

/-- `max(camera_release_secs, camera_release_after_success_secs,
PREVIEW_MIN_HOLD)`. -/
def longestHold (device : DeviceConfig) : Nat :=
  max (max (fromSecs device.cameraReleaseSecs) (fromSecs device.cameraReleaseAfterSuccessSecs))
    previewMinHold

/-- The camera is closed, or it has a deadline up to the limit. -/
inductive Settled (limit : Nat) (lease : CameraLease) : Prop where
  | closed (camera : lease.camera = none)
  | held (deadline : Nat) (set : lease.deadline = some deadline) (early : deadline ≤ limit)

variable {lease : CameraLease}

theorem Settled.mono {limit limit'} (h : Settled limit lease) (hle : limit ≤ limit') :
    Settled limit' lease := by
  cases h with
  | closed hcamera => exact .closed hcamera
  | held deadline hset hearly => exact .held deadline hset (hearly.trans hle)

theorem Settled.deadline_of_isSome {limit} (h : Settled limit lease)
    (hopen : lease.camera.isSome = true) :
    ∃ deadline, lease.deadline = some deadline ∧ deadline ≤ limit := by
  cases h with
  | closed hcamera =>
    rw [hcamera] at hopen
    cases hopen
  | held deadline hset hearly => exact ⟨deadline, hset, hearly⟩

theorem Settled.expire {limit} (h : Settled limit lease) (now : Nat) :
    Settled limit (lease.expire now) := by
  unfold CameraLease.expire
  split
  · exact .closed rfl
  · exact h

theorem Outcome.holdSecs_le (device : DeviceConfig) (outcome : Outcome) :
    fromSecs (outcome.holdSecs device) ≤ longestHold device := by
  cases outcome with
  | success => exact (le_max_right _ _).trans (le_max_left _ _)
  | failure => exact (le_max_left _ _).trans (le_max_left _ _)
  | cancelled | error => exact (Nat.zero_mul _).le.trans (Nat.zero_le _)

namespace CameraLease

section

variable (device : DeviceConfig) (purpose : AcquisitionPurpose)

theorem meets_finish (outcome : Outcome) (now : Nat) (lease : CameraLease) :
    ((finish device outcome now).run lease).Meets (fun _ => True) fun result final =>
      result = .ok () ∧ Settled (now + longestHold device) final ∧
        (outcome.holdSecs device = 0 → final.camera = none) := by
  unfold finish
  split
  · exact ⟨trivial, rfl, .closed rfl, fun _ => rfl⟩
  · rename_i hhold
    refine ⟨trivial, rfl, .held _ rfl ?_, fun hzero => absurd hzero hhold⟩
    exact Nat.add_le_add_left (Outcome.holdSecs_le device outcome) now

/-- What fails leaves the camera closed. -/
def ClosedIfFailed {α : Type} (result : Except String α) (lease : CameraLease) : Prop :=
  ∀ e, result = .error e → lease.camera = none

theorem reuse_failed (camera : Stream) (answers : Answers) (lease : CameraLease) :
    ((reuse purpose camera answers).run lease).Meets (fun _ => True) ClosedIfFailed := by
  unfold reuse
  split
  · intro e he
    cases he
  · split <;> exact ⟨trivial, fun _ _ => rfl⟩

theorem keepOpened_failed (camera : Stream) (lease : CameraLease) :
    ((keepOpened camera).run lease).Meets (fun _ => True) ClosedIfFailed := by
  refine ⟨trivial, ?_⟩
  intro e he
  cases he

theorem openCold_failed (answers : Answers) (hcamera : lease.camera = none) :
    ((openCold device purpose lease answers).run lease).Meets (fun _ => True)
      ClosedIfFailed := by
  unfold openCold
  split
  · exact fun _ _ => hcamera
  · split
    · exact fun _ _ => hcamera
    · dsimp only
      split
      · exact keepOpened_failed _ _
      · split
        · exact fun _ _ => hcamera
        · exact keepOpened_failed _ _

theorem acquireFor_failed (answers : Answers) (lease : CameraLease) :
    ((acquireFor device purpose answers).run lease).Meets (fun _ => True) ClosedIfFailed := by
  refine ⟨trivial, ?_⟩
  split
  · exact ⟨trivial, fun _ _ => rfl⟩
  · rw [bind_ok, meets_bind, run_read, meets_done, afterwards_ok]
    split
    · exact reuse_failed purpose _ answers _
    · rename_i hcamera
      exact openCold_failed device purpose answers hcamera

end

end CameraLease

/-! ## Requests -/

variable {device : DeviceConfig}

namespace Handler

variable {answers : Answers} {handler : Handler} {limit : Nat}

variable {post : Except String DaemonResponse → Handler → Prop}

/-- A request that takes the camera goes on with it, or leaves it closed. -/
theorem meets_withCamera {purpose next}
    (hfail : ∀ message lease, lease.camera = none →
      post (.ok (.error message)) { handler with lease := lease })
    (hnext : ∀ camera lease,
      ((CameraLease.acquireFor handler.device purpose answers).run handler.lease).result =
        .ok camera →
      ((next handler.device camera).run { handler with lease := lease }).Meets (fun _ => True)
        post) : ((withCamera purpose answers next).run handler).Meets (fun _ => True) post := by
  simp only [withCamera, onLease, meets_bind, run_read, meets_done, afterwards_ok,
    meets_attempt, meets_zoom]
  rw [Run.meets_end]
  have hfailed := Run.meets_end.mp
    (CameraLease.acquireFor_failed handler.device purpose answers handler.lease)
  cases hresult : ((CameraLease.acquireFor handler.device purpose answers).run
      handler.lease).result with
  | error message => exact hfail message _ (hfailed message hresult)
  | ok camera => exact hnext camera _ hresult

/-- A preview that does not get its frame. -/
def PreviewFailed (answers : Answers) (handler : Handler) : Prop :=
  (∃ e, ((CameraLease.acquireFor handler.device .capture answers).run handler.lease).result =
    .error e) ∨ ∃ e, answers.captured = .error e

/-- The request reaches the camera, and is cancelled or ends in an error. -/
def Failed (answers : Answers) (handler : Handler) (result : Except String DaemonResponse) :
    DaemonRequest → Prop
  | .authenticate _ => answers.preflight = none ∧ answers.store = .ok () ∧
      answers.embeddings = .ok () ∧
      (result = .ok .suppressed ∨ ∃ message, result = .ok (.error message))
  | .enroll _ _ => answers.plaintextRefusal = none ∧ answers.sealerRefusal = none ∧
      ∃ message, result = .ok (.error message)
  | .previewFrame => PreviewFailed answers handler
  | .previewDetectFrame _ => PreviewFailed answers handler
  | _ => False

/-- How a request leaves the handler. -/
structure Leaves (limit : Nat) (device : DeviceConfig) (failed : Prop) (final : Handler) :
    Prop where
  device : final.device = device
  settled : Settled limit final.lease
  closed : failed → final.lease.camera = none

theorem Leaves.of_closed {failed : Prop} {final} (hdevice : final.device = device)
    (h : final.lease.camera = none) : Leaves limit device failed final :=
  ⟨hdevice, .closed h, fun _ => h⟩

theorem Leaves.of_refused {failed : Prop} {final} (hdevice : final.device = device)
    (hsettled : Settled limit final.lease) (h : ¬ failed) : Leaves limit device failed final :=
  ⟨hdevice, hsettled, fun hfailed => absurd hfailed h⟩

variable {next : Prog Handler String DaemonResponse}

/-- A key that was restored drops the preview, and nothing else. -/
theorem meets_refreshSoftwareSealer
    (h : ∀ user, (next.run { handler with previewEmbeddings := user }).Meets (fun _ => True)
      post) :
    ((refreshSoftwareSealer answers >>= fun _ => next).run handler).Meets (fun _ => True)
      post := by
  unfold refreshSoftwareSealer
  split
  · exact ⟨trivial, h none⟩
  · exact h handler.previewEmbeddings

/-- Loading the templates does not touch the lease. -/
theorem meets_loadPreview (user : String) (response : DaemonResponse) : ((do
        loadPreview user answers
        return response : Prog Handler String DaemonResponse).run handler).Meets (fun _ => True)
      fun _ final => final.device = handler.device ∧ final.lease = handler.lease := by
  unfold loadPreview
  split
  · refine ⟨trivial, ?_⟩
    show _ ∧ _
    dsimp only
    split <;> exact ⟨rfl, rfl⟩
  · exact ⟨rfl, rfl⟩

section Requests

variable (hnow : answers.now + longestHold handler.device ≤ limit)
include hnow

theorem meets_finish {outcome} (hnext : ∀ lease, Settled limit lease →
      (outcome.holdSecs handler.device = 0 → lease.camera = none) →
      (next.run { handler with lease := lease }).Meets (fun _ => True) post) :
    ((onLease (CameraLease.finish handler.device outcome answers.now) >>= fun _ => next).run
      { handler with lease := lease }).Meets (fun _ => True) post := by
  rw [meets_bind, onLease, meets_zoom]
  refine (CameraLease.meets_finish handler.device outcome answers.now lease).mono
    (fun _ h => h) ?_
  rintro result final ⟨rfl, hfinal, hclosed⟩
  exact hnext final (hfinal.mono hnow) hclosed

theorem meets_authenticateWithCamera (user : String) :
    ((withCamera .authentication answers fun device _ => do
        onLease (CameraLease.finish device (.ofAuth answers.authenticated) answers.now)
        return .ofAuth answers.authenticated).run handler).Meets (fun _ => True)
      fun result final =>
        Leaves limit handler.device (Failed answers handler result (.authenticate user)) final := by
  refine meets_withCamera (fun _ _ hclosed => .of_closed rfl hclosed) fun camera lease _ => ?_
  refine meets_finish hnow fun lease hlease hclosed => ⟨rfl, hlease, fun hfailed => hclosed ?_⟩
  obtain ⟨-, -, -, hresult⟩ := hfailed
  cases hauth : answers.authenticated with
  | authResult result => simp [hauth, DaemonResponse.ofAuth] at hresult
  | suppressed => rfl
  | error kind message => rfl
  | cancelled => rfl

theorem meets_handleAuthenticate (user : String) (hsettled : Settled limit handler.lease) :
    ((handleAuthenticate answers).run handler).Meets (fun _ => True) fun result final =>
      Leaves limit handler.device (Failed answers handler result (.authenticate user)) final := by
  unfold handleAuthenticate
  split
  · rename_i hpreflight
    exact Leaves.of_refused rfl hsettled (by simp [Failed, hpreflight])
  · refine meets_refreshSoftwareSealer fun preview => ?_
    have hlater : answers.now +
        longestHold ({ handler with previewEmbeddings := preview } : Handler).device ≤ limit := hnow
    split
    · rename_i hstore
      exact Leaves.of_refused rfl hsettled (by simp [Failed, hstore])
    · split
      · rename_i hembeddings
        exact Leaves.of_refused rfl hsettled (by simp [Failed, hembeddings])
      · exact meets_authenticateWithCamera hlater user

theorem meets_enrollSealed (user label : String) :
    ((enrollSealed answers).run handler).Meets (fun _ => True) fun result final =>
      Leaves limit handler.device (Failed answers handler result (.enroll user label)) final := by
  refine meets_withCamera (fun _ _ hclosed => .of_closed rfl hclosed) fun camera lease _ => ?_
  split
  · exact meets_finish hnow fun lease _ hclosed => .of_closed rfl (hclosed rfl)
  · refine meets_finish hnow fun lease hlease hclosed => ?_
    refine ⟨trivial, rfl, hlease, fun hfailed => hclosed ?_⟩
    obtain ⟨-, -, message, hresult⟩ := hfailed
    cases henroll : answers.enrolled with
    | enrolled modelId count => simp [henroll, DaemonResponse.ofEnroll] at hresult
    | error message => rfl
    | cancelled => rfl

theorem meets_enroll (user label : String) (hsettled : Settled limit handler.lease) :
    ((enroll answers).run handler).Meets (fun _ => True) fun result final =>
      Leaves limit handler.device (Failed answers handler result (.enroll user label)) final := by
  unfold enroll
  split
  · rename_i hplaintext
    exact Leaves.of_refused rfl hsettled (by simp [Failed, hplaintext])
  · refine meets_refreshSoftwareSealer fun preview => ?_
    have hlater : answers.now +
        longestHold ({ handler with previewEmbeddings := preview } : Handler).device ≤ limit := hnow
    split
    · rename_i hsealer
      exact Leaves.of_refused rfl hsettled (by simp [Failed, hsealer])
    · exact meets_enrollSealed hlater user label

theorem meets_preview
    (hnext : ∀ before : Handler, (next.run before).Meets (fun _ => True) fun _ final =>
      final.device = before.device ∧ final.lease = before.lease) :
    ((preview answers next).run handler).Meets (fun _ => True) fun _ final =>
      Leaves limit handler.device (PreviewFailed answers handler) final := by
  refine meets_withCamera (fun _ _ hclosed => .of_closed rfl hclosed)
    fun camera lease hacquired => ?_
  split
  · rename_i hcaptured
    refine ⟨trivial, (hnext _).mono (fun _ h => h) ?_⟩
    rintro result final ⟨hdevice, hlease⟩
    refine ⟨hdevice, ?_, ?_⟩
    · rw [hlease]
      refine .held _ rfl ?_
      show answers.now + max (fromSecs handler.device.cameraReleaseSecs) previewMinHold ≤ limit
      unfold longestHold at hnow
      omega
    · rintro (⟨e, herror⟩ | ⟨e, herror⟩)
      · rw [hacquired] at herror
        cases herror
      · rw [hcaptured] at herror
        cases herror
  · exact meets_finish hnow fun lease _ hclosed => .of_closed rfl (hclosed rfl)

theorem meets_handleWithCancel (request : DaemonRequest) (hsettled : Settled limit handler.lease) :
    ((handleWithCancel answers request).run handler).Meets (fun _ => True)
      fun result final =>
        Leaves limit handler.device (Failed answers handler result request) final := by
  cases request with
  | ping | listModels | listDevices => exact ⟨rfl, hsettled, False.elim⟩
  | shutdown => exact ⟨trivial, trivial, trivial, trivial, .of_closed rfl rfl⟩
  | releaseCamera => exact ⟨trivial, trivial, trivial, .of_closed rfl rfl⟩
  | authenticate user => exact meets_handleAuthenticate hnow user hsettled
  | enroll user label => exact meets_enroll hnow user label hsettled
  | removeModel | clearModels => exact ⟨trivial, rfl, hsettled, False.elim⟩
  | previewFrame => exact meets_preview hnow fun _ => ⟨rfl, rfl⟩
  | previewDetectFrame user =>
    exact meets_preview hnow fun _ => meets_loadPreview user (encodeResponse answers .detectFrame)

end Requests

end Handler

/-! ## Histories -/

/-- The handler between two turns, and the clock. -/
structure Serving where
  handler : Handler
  clock : Nat
  /-- The end of the last request. -/
  ended : Nat

inductive Turn where
  /-- A request.  Some time passes before it sets its hold, and some more
  before it ends. -/
  | request (request : DaemonRequest) (answers : Answers) (before after : Nat)
  /-- `expire_camera`, some time later. -/
  | tick (elapsed : Nat)

def Serving.turn (serving : Serving) : Turn → Serving
  | .request request answers before after =>
    let now := serving.clock + before
    { handler := served request { answers with now } serving.handler
      clock := now + after
      ended := now + after }
  | .tick elapsed =>
    { serving with
      handler := serving.handler.expireCamera (serving.clock + elapsed)
      clock := serving.clock + elapsed }

/-- A handler that has served nothing yet. -/
def Serving.start (device : DeviceConfig) (factory : Bool) (warmupFramesOverride : Option Nat)
    (clock : Nat) : Serving :=
  { handler := Handler.new device factory warmupFramesOverride, clock, ended := clock }

/-- What holds between two turns. -/
structure Serving.Sound (config : DeviceConfig) (serving : Serving) : Prop where
  device : serving.handler.device = config
  ended : serving.ended ≤ serving.clock
  settled : Settled (serving.ended + longestHold config) serving.handler.lease

theorem Serving.Sound.turn {serving : Serving} (h : serving.Sound device) (turn : Turn) :
    (serving.turn turn).Sound device := by
  obtain ⟨rfl, hended, hsettled⟩ := h
  cases turn with
  | tick elapsed => exact ⟨rfl, hended.trans (Nat.le_add_right _ _), hsettled.expire _⟩
  | request request answers before after =>
    set limit := serving.clock + before + after + longestHold serving.handler.device with hlimit
    have hnow : ({ answers with now := serving.clock + before } : Answers).now +
        longestHold serving.handler.device ≤ limit :=
      Nat.add_le_add_right (Nat.le_add_right _ _) _
    have hbefore : Settled limit serving.handler.lease := hsettled.mono (by omega)
    have hleaves := Run.meets_end.mp (Handler.meets_handleWithCancel hnow request hbefore)
    exact ⟨hleaves.device, le_rfl, hleaves.settled⟩

theorem Serving.Sound.turns {serving : Serving} (h : serving.Sound device) (turns : List Turn) :
    (turns.foldl Serving.turn serving).Sound device := by
  induction turns generalizing serving with
  | nil => exact h
  | cons turn turns ih => exact ih (h.turn turn)

/-- After any requests and ticks, an open camera has a deadline, at most the
longest hold after the end of the last request.  A next request that reaches
the camera and fails leaves it closed. -/
theorem camera_open_has_deadline (device : DeviceConfig) (factory : Bool)
    (warmupFramesOverride : Option Nat) (clock : Nat) (turns : List Turn) :
    let serving := turns.foldl Serving.turn (.start device factory warmupFramesOverride clock)
    (serving.handler.lease.camera.isSome = true →
      ∃ deadline, serving.handler.lease.deadline = some deadline ∧
        deadline ≤ serving.ended + longestHold device) ∧
    ∀ request answers,
      let run := (Handler.handleWithCancel answers request).run serving.handler
      Handler.Failed answers serving.handler run.result request →
        run.final.lease.camera = none := by
  intro serving
  have hstart : (Serving.start device factory warmupFramesOverride clock).Sound device :=
    ⟨rfl, le_rfl, .closed rfl⟩
  obtain ⟨-, -, hsettled⟩ := hstart.turns turns
  refine ⟨hsettled.deadline_of_isSome, fun request answers hfailed => ?_⟩
  have hnow := le_max_left (answers.now + longestHold serving.handler.device)
    (serving.ended + longestHold device)
  have hbefore := hsettled.mono (le_max_right (answers.now + longestHold serving.handler.device) _)
  have hleaves := Run.meets_end.mp (Handler.meets_handleWithCancel hnow request hbefore)
  exact hleaves.closed hfailed

/-- A login that did not match holds the camera for three seconds, and a
preview that gets no frame then closes it. -/
theorem camera_open_has_deadline_retry : let device : DeviceConfig :=
      { warmupFrames := 5, cameraReleaseSecs := 3, cameraReleaseAfterSuccessSecs := 0 }
    let serving := [Turn.request (.authenticate "alice") unmatched 1 2].foldl Serving.turn
      (.start device true none 0)
    let unreadable : Answers := { unmatched with captured := .error "timeout" }
    serving.handler.lease.camera.isSome = true ∧
      (∃ deadline, serving.handler.lease.deadline = some deadline ∧
        deadline ≤ serving.ended + longestHold device) ∧
      ((Handler.handleWithCancel unreadable .previewFrame).run
        serving.handler).final.lease.camera = none := by
  intro device serving unreadable
  have hopen : serving.handler.lease.camera.isSome = true := by decide +kernel
  obtain ⟨hdeadline, hfailed⟩ := camera_open_has_deadline device true none 0
    [.request (.authenticate "alice") unmatched 1 2]
  exact ⟨hopen, hdeadline hopen, hfailed .previewFrame unreadable (.inr ⟨_, rfl⟩)⟩

end Facelock.Requests
