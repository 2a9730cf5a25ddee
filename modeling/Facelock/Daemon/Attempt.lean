import Facelock.Auth.Cancellation
import Facelock.Auth.Secrecy
import Facelock.Daemon.Service

/-!
# One authentication from the call to the reply

`run_authentication` of `crates/facelock-daemon/src/server.rs` for one
call, down to `handle_authenticate_prechecked` of `handler.rs` and the
recognition loop.  What the environment answers on the way is in
`GateAnswers` and `Supplies`, so the reply and the charge against the
rate limit are a function of these.  A run that has used up its ticks is
still going on, and the model returns `none`.

Two results.  A token that is set during the loop is followed by at most
one capture, and by no charge unless a reading of the clock ends the loop
before it polls the token again.  And a caller other than root learns nothing
about the templates from an attempt in which no face reaches the
threshold.
-/

namespace Facelock.Daemon

open Facelock.Auth

/-! ## The source -/

inductive AuthIntent where
  | authenticate
  | test
  deriving DecidableEq, Repr

def AuthIntent.chargesRateLimit : AuthIntent → Bool
  | .authenticate => true
  | .test => false

def AuthIntent.auditSource : AuthIntent → AuditSource
  | .authenticate => .daemon
  | .test => .test

def Method.intent : Method → AuthIntent
  | .authenticate | .authenticateSilent => .authenticate
  | .testAuthenticate => .test

/-- Whether an outcome is recorded as a failure: a face was seen and did
not match. -/
def recordsFailure (intent : AuthIntent) : AuthOutcome → Bool
  | .authResult result => !result.matched && result.faceDetected && intent.chargesRateLimit
  | _ => false

/-- What the store, the camera and the loop supply. -/
structure Supplies (Embedding Frame : Type) where
  models : Except String (List FaceModelInfo)
  /-- `load_user_embeddings`, which fails with the text of an error
  response. -/
  stored : Except String (List (UInt32 × Embedding))
  /-- `acquire_for_authentication`. -/
  camera : Except String CameraCaps
  opening : Opening
  ticks : List (Tick Embedding Frame)

section

variable {Embedding Frame : Type}

/-- The part of `handle_authenticate_prechecked` before the loop. -/
def Supplies.attempt (supplies : Supplies Embedding Frame) (config : Config) (user : String)
    (intent : AuthIntent) : Except DaemonResponse (Attempt Embedding) :=
  match supplies.models with
  | .error e => .error (.error ("storage error: " ++ e))
  | .ok models =>
    match supplies.stored with
    | .error message => .error (.error message)
    | .ok stored =>
      match supplies.camera with
      | .error message =>
        if message = cancelledMessage then .error (.ofOutcome .cancelled)
        else .error (.error message)
      | .ok capabilities =>
        .ok { capabilities, stored, models, config, user, source := intent.auditSource }

variable (num : Numerics Embedding Frame)

/-- `handle_authenticate_prechecked`: the response, and whether a failure
is recorded. -/
def handleAuthenticatePrechecked (config : Config) (user : String) (intent : AuthIntent)
    (supplies : Supplies Embedding Frame) : Option (DaemonResponse × Bool) :=
  match supplies.attempt config user intent with
  | .error response => some (response, false)
  | .ok attempt =>
    (authenticateWithEmbeddings num attempt supplies.opening supplies.ticks).map fun report =>
      (.ofOutcome report.outcome, recordsFailure intent report.outcome)

/-- What the gates of a call answer.  A lock that is not to be had is an
error. -/
structure GateAnswers where
  ingressAllows : Bool
  isBusy : Bool
  firstLock : Except FdoError SecurityGates
  session : Except CheckFailure Bool
  lid : Except CheckFailure Bool
  secondLock : Except FdoError (SecurityGates × Config)
  readings : Readings
  slotFree : Bool

/-- `maybe_check` with its answer. -/
def Check.answered (required : Bool) (answer : Except CheckFailure Bool) : Check :=
  if required then .ended answer else .skipped

/-- The gates that the first locked section reads. -/
def policyOf (method : Method) (answers : GateAnswers) : Except FdoError (Bool × Bool) :=
  if method.isAuthentication then
    answers.firstLock.map fun gates => (gates.abortIfSsh, gates.abortIfLidClosed)
  else .ok (false, false)

/-- `run_authentication` up to the capture: the reply, or the
configuration to go on with. -/
def passGates (caller : CallerIdentity) (user : String) (method : Method) (answers : GateAnswers) :
    Except (Except FdoError AuthResult) Config :=
  match authorizeMethod caller method user with
  | .error e => .error (.error e)
  | .ok _ =>
    if method.isAuthentication && caller.uid ≠ 0 && !answers.ingressAllows then
      .error (.ok (recoverableAuthError (ErrorKind.rateLimited.render "")))
    else if answers.isBusy then .error (.error (busyError method.name))
    else
      match policyOf method answers, answers.secondLock with
      | .error e, _ => .error (.error e)
      | .ok _, .error e => .error (.error e)
      | .ok (provenanceRequired, lidRequired), .ok (gates, config) =>
        match lockedDecision gates method (.answered provenanceRequired answers.session)
          (.answered lidRequired answers.lid) answers.readings with
        | some reply => .error reply
        | none =>
          if answers.slotFree then .ok config else .error (.error (busyError method.name))

/-- `run_authentication`: the reply, and whether a failure is recorded. -/
def runAuthentication (caller : CallerIdentity) (user : String) (method : Method)
    (answers : GateAnswers) (supplies : Supplies Embedding Frame) :
    Option (Except FdoError AuthResult × Bool) :=
  let redact := fun (result : AuthResult) => result.redactSimilarityUnlessRoot (caller.uid = 0)
  match passGates caller user method answers with
  | .error reply => some (reply.map redact, false)
  | .ok config =>
    (handleAuthenticatePrechecked num config user method.intent supplies).map
      fun (response, recorded) => (.ok (redact response.encode), recorded)

end

/-! ## A token that is set during the loop -/

section

variable {Embedding Frame : Type} (num : Numerics Embedding Frame)

/-- An attempt that ends as cancelled or with a match is not recorded. -/
theorem recordsFailure_eq_false {intent outcome}
    (h : outcome = .cancelled ∨ outcome.isMatch = true) :
    recordsFailure intent outcome = false := by
  cases outcome with
  | authResult result =>
    obtain hcancelled | hmatch := h
    · cases hcancelled
    · have hmatched : result.matched = true := hmatch
      rw [recordsFailure, hmatched, Bool.not_true, Bool.false_and, Bool.false_and]
  | suppressed => rfl
  | error kind message => rfl
  | cancelled => rfl

/-- Wherever in a run of the loop the token is set: at most one capture
follows, the attempt ends as cancelled or with a match by the frame that
was in process, and no failure is recorded.  This holds exactly if neither
the next loop head nor the no-face check finds its deadline passed, or the
frame in process decides a match (`SeenInTime`). -/
theorem set_token_stops_attempt (config : Config) (user : String) (intent : AuthIntent)
    (supplies : Supplies Embedding Frame) (attempt : Attempt Embedding) (report : Report Frame)
    (moment : Moment) (hattempt : supplies.attempt config user intent = .ok attempt)
    (hset : SetAt supplies.opening supplies.ticks moment)
    (hreaches : Reaches num attempt supplies.opening supplies.ticks moment)
    (hrun : authenticateWithEmbeddings num attempt supplies.opening supplies.ticks =
      some report) :
    ((∀ pass other, moment.captures ≤ pass → moment.captures ≤ other →
        Captures num attempt supplies.opening supplies.ticks pass →
        Captures num attempt supplies.opening supplies.ticks other → pass = other) ∧
      (report.outcome = .cancelled ∨ report.outcome.isMatch = true ∧
        authenticateWithEmbeddings num attempt supplies.opening
          (supplies.ticks.take moment.frames) = some report) ∧
      handleAuthenticatePrechecked num config user intent supplies =
        some (.ofOutcome report.outcome, false)) ↔
    SeenInTime num attempt supplies.opening supplies.ticks moment := by
  rw [← authenticate_seen_iff hset hreaches hrun]
  refine ⟨fun h => h.2.1, fun hends => ⟨fun _ _ => captures_unique hset, hends, ?_⟩⟩
  have hrecorded : recordsFailure intent report.outcome = false :=
    recordsFailure_eq_false (hends.imp_right And.left)
  rw [handleAuthenticatePrechecked, hattempt]
  dsimp only
  rw [hrun, Option.map_some, hrecorded]

end

/-- One template along an axis, on the camera that it was enrolled with. -/
def axisSupplies (ticks : List (Tick (Fin 3) Unit)) : Supplies (Fin 3) Unit :=
  let attempt := axisAttempt {} [(1, Fin.succ 0)] "usb:046d:085e"
  { models := .ok attempt.models
    stored := .ok attempt.stored
    camera := .ok attempt.capabilities
    opening := axisOpening
    ticks }

theorem captures_axis (later : Tick (Fin 3) Unit) :
    Captures axisNumerics (axisAttempt {} [(1, 1)] "usb:046d:085e") axisOpening
      [axisTick [axisFace 0 Binary32.zero], later] 0 := by
  refine ⟨⟨rfl, _, rfl, by decide, rfl⟩, _, rfl, ?_⟩
  rintro ⟨-, deadline, hdeadline, hle⟩
  obtain rfl := Option.some.inj hdeadline
  exact absurd hle (by decide)

/-- The token is set while the engine runs, and the next pass polls it. -/
theorem set_token_stops_attempt_axis :
    let supplies := axisSupplies
      [axisTick [axisFace 0 Binary32.zero], { axisTick [] with cancelled := true }]
    handleAuthenticatePrechecked axisNumerics {} "alice" .authenticate supplies =
      some (.error cancelledMessage, false) := by
  intro supplies
  obtain ⟨report, hrun, houtcome⟩ := Option.map_eq_some_iff.mp
    (by decide +kernel : (authenticateWithEmbeddings axisNumerics
      (axisAttempt {} [(1, 1)] "usb:046d:085e") supplies.opening supplies.ticks).map
        Report.outcome = some .cancelled)
  have hcaptures := captures_axis { axisTick [] with cancelled := true }
  have hseen : SeenInTime axisNumerics (axisAttempt {} [(1, 1)] "usb:046d:085e")
      supplies.opening supplies.ticks (.captured 0) := by
    obtain ⟨-, tick, htick, hface⟩ := hcaptures
    exact ⟨tick, htick, hface, Or.inr ⟨_, rfl, by decide⟩⟩
  obtain ⟨-, -, hanswer⟩ := (set_token_stops_attempt axisNumerics {} "alice" .authenticate supplies
    _ report (.captured 0) rfl ⟨rfl, by decide⟩ hcaptures hrun).mpr hseen
  rw [hanswer, houtcome]
  rfl

/-- The token is set in the last pass before the deadline.  The attempt is
answered as a failure and recorded against the rate limit. -/
theorem deadline_hides_token :
    let late : Tick (Fin 3) Unit := { axisTick [] with now := 5000000000, cancelled := true }
    let supplies := axisSupplies [axisTick [axisFace 0 Binary32.zero], late]
    let attempt := axisAttempt {} [(1, 1)] "usb:046d:085e"
    SetAt supplies.opening supplies.ticks (.captured 0) ∧
      Reaches axisNumerics attempt supplies.opening supplies.ticks (.captured 0) ∧
      (handleAuthenticatePrechecked axisNumerics {} "alice" .authenticate supplies).map
        (fun answer => (match answer.1 with
          | .authResult result => some (result.matched, result.faceDetected)
          | _ => none, answer.2)) = some (some (false, true), true) :=
  ⟨⟨rfl, by decide⟩, captures_axis _, by decide +kernel⟩

/-! ## What a reply tells about the templates -/

/-- The reply to a caller other than root has no similarity. -/
theorem redact_encode_blind (outcome : AuthOutcome) :
    (DaemonResponse.ofOutcome outcome.blind).encode.redactSimilarityUnlessRoot false =
      (DaemonResponse.ofOutcome outcome).encode.redactSimilarityUnlessRoot false := by
  cases outcome <;> rfl

theorem recordsFailure_blind (intent : AuthIntent) (outcome : AuthOutcome) :
    recordsFailure intent outcome.blind = recordsFailure intent outcome := by
  cases outcome <;> rfl

section

variable {Embedding Frame : Type} (num : Numerics Embedding Frame)

/-- The reply to a caller other than root, and the record. -/
def publicAnswer (answer : DaemonResponse × Bool) : AuthResult × Bool :=
  (answer.1.encode.redactSimilarityUnlessRoot false, answer.2)

/-- The two loops of attempts that differ in their templates. -/
theorem publicAnswer_withStored (attempt : Attempt Embedding) (stored : List (UInt32 × Embedding))
    (opening : Opening) (ticks : List (Tick Embedding Frame)) (intent : AuthIntent)
    (hfirst : Unreached num attempt ticks)
    (hsecond : Unreached num (attempt.withStored stored) ticks) :
    ((authenticateWithEmbeddings num attempt opening ticks).map fun report =>
        publicAnswer (.ofOutcome report.outcome, recordsFailure intent report.outcome)) =
      (authenticateWithEmbeddings num (attempt.withStored stored) opening ticks).map fun report =>
        publicAnswer (.ofOutcome report.outcome, recordsFailure intent report.outcome) := by
  -- The answer is a function of the blind outcome.
  have hblind : ∀ outcome : AuthOutcome,
      publicAnswer (.ofOutcome outcome, recordsFailure intent outcome) =
        publicAnswer (.ofOutcome outcome.blind, recordsFailure intent outcome.blind) := by
    intro outcome
    rw [publicAnswer, publicAnswer, redact_encode_blind, recordsFailure_blind]
  have hsame := congrArg (Option.map fun outcome =>
    publicAnswer (.ofOutcome outcome, recordsFailure intent outcome))
    (authenticate_blind opening ticks hfirst hsecond)
  have hfun : (fun report : Report Frame =>
      publicAnswer (.ofOutcome report.outcome, recordsFailure intent report.outcome)) =
      (fun outcome => publicAnswer (.ofOutcome outcome, recordsFailure intent outcome)) ∘
        fun report => report.outcome.blind :=
    funext fun report => hblind report.outcome
  rw [Option.map_map, Option.map_map] at hsame
  rw [hfun, hsame]

/-- Two calls of the same caller, who is not root, that differ in the
stored embeddings only: if no face reaches the threshold in either of
them, they get the same reply and record the same. -/
theorem replies_hide_templates (caller : CallerIdentity) (hcaller : caller.uid ≠ 0)
    (user : String) (method : Method) (answers : GateAnswers)
    (first second : Supplies Embedding Frame)
    (hothers : second = { first with stored := second.stored })
    (hids : first.stored.map (List.map Prod.fst) = second.stored.map (List.map Prod.fst))
    (hfirst : ∀ config attempt, passGates caller user method answers = .ok config →
      first.attempt config user method.intent = .ok attempt → Unreached num attempt first.ticks)
    (hsecond : ∀ config attempt, passGates caller user method answers = .ok config →
      second.attempt config user method.intent = .ok attempt →
        Unreached num attempt second.ticks) :
    runAuthentication num caller user method answers first =
      runAuthentication num caller user method answers second := by
  have hroot : decide (caller.uid = 0) = false := decide_eq_false hcaller
  unfold runAuthentication
  rw [hroot]
  cases hgates : passGates caller user method answers with
  | error reply => rfl
  | ok config =>
    have hfirst := fun attempt => hfirst config attempt hgates
    have hsecond := fun attempt => hsecond config attempt hgates
    obtain ⟨models, stored, camera, opening, ticks⟩ := first
    obtain ⟨models', stored', camera', opening', ticks'⟩ := second
    obtain ⟨rfl, -, rfl, rfl, rfl⟩ := Supplies.mk.inj hothers
    unfold handleAuthenticatePrechecked
    unfold Supplies.attempt at hfirst hsecond ⊢
    cases models' with
    | error e => rfl
    | ok models =>
      cases stored with
      | error response =>
        cases stored' with
        | error response' =>
          cases hids
          rfl
        | ok stored' => cases hids
      | ok stored =>
        cases stored' with
        | error response' => cases hids
        | ok stored' =>
          cases camera' with
          | error message => rfl
          | ok capabilities =>
            have hsame := publicAnswer_withStored num
              { capabilities, stored, models, config, user, source := method.intent.auditSource }
              stored' opening' ticks' method.intent (hfirst _ rfl) (hsecond _ rfl)
            have hreply := congrArg
              (Option.map fun answer : AuthResult × Bool =>
                ((.ok answer.1 : Except FdoError AuthResult), answer.2)) hsame
            rw [Option.map_map, Option.map_map] at hreply
            dsimp only
            rw [Option.map_map, Option.map_map]
            exact hreply

end

/-- Every gate lets the call pass. -/
def openGates : GateAnswers where
  ingressAllows := true
  isBusy := false
  firstLock := .ok {}
  session := .ok false
  lid := .ok false
  secondLock := .ok ({}, {})
  readings :=
    { isSshSession := false
      procfsLid := .open
      hasModels := .ok true
      rateLimitCheck := .ok true
      irTextureScale := .notY16
      isIr := true }
  slotFree := true

/-- A stranger in front of the camera gets the same answer for two
different templates. -/
theorem replies_hide_templates_axis :
    let ticks := [axisTick [axisFace 0 Binary32.zero], { axisTick [] with now := 5000000000 }]
    let caller : CallerIdentity := ⟨1000, some "alice"⟩
    runAuthentication axisNumerics caller "alice" .authenticate openGates (axisSupplies ticks) =
        some (.ok ⟨false, -4, "", .zero⟩, true) ∧
      runAuthentication axisNumerics caller "alice" .authenticate openGates (axisSupplies ticks) =
        runAuthentication axisNumerics caller "alice" .authenticate openGates
          { axisSupplies ticks with stored := .ok [(1, 2)] } := by
  intro ticks caller
  have hgates : ∀ config, passGates caller "alice" .authenticate openGates = .ok config →
      config = {} := by
    intro config h
    exact (Except.ok.inj h).symm
  refine ⟨by decide +kernel, replies_hide_templates axisNumerics caller (by decide) "alice"
    .authenticate openGates _ _ rfl rfl ?_ ?_⟩
  · intro config attempt hconfig hattempt
    obtain rfl := hgates config hconfig
    obtain rfl := Except.ok.inj hattempt
    decide +kernel
  · intro config attempt hconfig hattempt
    obtain rfl := hgates config hconfig
    obtain rfl := Except.ok.inj hattempt
    decide +kernel

end Facelock.Daemon
