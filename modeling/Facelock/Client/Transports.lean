import Facelock.Client.Identify

/-!
# The two transports of an outcome

An authentication attempt ends in an `AuthOutcome`.  The daemon sends it
as an `AuthResult`, and the PAM module finds the class of a rejection
again by looking for words in its message.  The helper `facelock auth`
sends it as an exit code (`crates/facelock-cli/src/commands/auth.rs`), and
the module reads the number.

An `Ending` is an outcome that an attempt can end in, other than the scan
that saw no face.  Both transports give the same PAM code for it except
in one case (`transports_agree_iff`): the message of a rejection embeds a
detail, and the detail has the words by which the module knows an
exhausted budget.
-/

namespace Facelock.Client

open Facelock.Auth
open Facelock.Daemon

/-! ## Exit codes -/

def exitSuppressed : Int := 4

def oneshotExitCode : ErrorKind → Int
  | .rateLimited => 3
  | .allFramesDark => 5
  | .disabled | .sshSession | .lidClosed | .lidUnavailable | .storage | .rateLimitCheckFailed
  | .irRequired | .y16BitDepthRequired | .internal => 2

def preflightExitCode : AuthOutcome → Int
  | .error kind _ => oneshotExitCode kind
  | .suppressed => exitSuppressed
  | _ => 2

/-- The last `match` of `run`, on the outcome of the scan. -/
def scanExitCode : AuthOutcome → Int
  | .authResult result => if result.matched then 0 else 1
  | .cancelled => 2
  | .error kind _ => oneshotExitCode kind
  | .suppressed => 2

/-! ## Endings -/

/-- Where in an attempt its outcome is found: in the checks that need no
camera, or in the scan. -/
inductive Phase where
  | preflight
  | scan
  deriving DecidableEq, Repr

/-- What an attempt can end in, apart from a scan without a face. -/
inductive Ending where
  | rejected (phase : Phase) (kind : ErrorKind) (detail : String)
  | suppressed
  | cancelled
  | matched (modelId : Option UInt32) (label : Option String) (similarity : Binary32)
      (faceDetected : Bool)
  | unmatched (similarity : Binary32) (failureReason : Option AuthFailureReason)
  deriving DecidableEq, Repr

def Ending.outcome : Ending → AuthOutcome
  | .rejected _ kind detail => .error kind (kind.render detail)
  | .suppressed => .suppressed
  | .cancelled => .cancelled
  | .matched modelId label similarity faceDetected =>
    .authResult
      { matched := true, modelId, label, similarity, faceDetected, failureReason := none }
  | .unmatched similarity failureReason =>
    .authResult
      { matched := false
        modelId := none
        label := none
        similarity
        faceDetected := true
        failureReason }

/-- Only a preflight check suppresses, and only a scan ends in a result. -/
def Ending.phase : Ending → Phase
  | .rejected phase _ _ => phase
  | .suppressed => .preflight
  | .cancelled | .matched _ _ _ _ | .unmatched _ _ => .scan

def Ending.exitCode (ending : Ending) : Int :=
  match ending.phase with
  | .preflight => preflightExitCode ending.outcome
  | .scan => scanExitCode ending.outcome

def Ending.reply (ending : Ending) (isRoot : Bool) : AuthResult :=
  (DaemonResponse.ofOutcome ending.outcome).encode.redactSimilarityUnlessRoot isRoot

/-! ## Scans end in endings -/

section Scan

variable {Embedding Frame : Type} {num : Numerics Embedding Frame} {attempt : Attempt Embedding}

variable {state : LoopState Embedding Frame} {report : Report Frame}

variable {opening : Opening}

theorem iteration_done {tick} (h : iteration num attempt opening state tick = .done report) :
    report = finish attempt state ∨ (∃ n, report = cancelled attempt n) ∨
      ∃ state, report = succeed attempt state := by
  unfold iteration at h
  split_ifs at h
  · cases h
    exact .inl rfl
  · cases h
    exact .inr (.inl ⟨_, rfl⟩)
  · cases h
    exact .inl rfl
  · split at h
    · cases h
    · exact .inr (.inr (processFrame_done h))

/-- The outcome is that of an ending of the scan, or no face was seen. -/
def EndsScan (outcome : AuthOutcome) : Prop :=
  (∃ ending : Ending, ending.phase = .scan ∧ ending.outcome = outcome) ∨
    ∃ result, outcome = .authResult result ∧ result.matched = false ∧
      result.faceDetected = false

theorem finish_endsScan (state : LoopState Embedding Frame) :
    EndsScan (finish attempt state).outcome := by
  simp only [finish]
  split
  · exact .inl ⟨.rejected .scan .allFramesDark "", rfl, rfl⟩
  · cases hface : state.faceDetected with
    | true => exact .inl ⟨.unmatched state.bestSimilarity _, rfl, by rw [Ending.outcome]⟩
    | false => exact .inr ⟨_, rfl, rfl, rfl⟩

theorem scan_endsScan {ticks}
    (h : scan num attempt opening state ticks = some report) : EndsScan report.outcome := by
  induction ticks generalizing state with
  | nil => cases h
  | cons tick ticks ih =>
    rw [scan] at h
    split at h
    next done hdone =>
      cases h
      rcases iteration_done hdone with rfl | ⟨n, rfl⟩ | ⟨state, rfl⟩
      · exact finish_endsScan state
      · exact .inl ⟨.cancelled, rfl, rfl⟩
      · exact .inl ⟨.matched _ _ _ _, rfl, rfl⟩
    next state hnext => exact ih h

/-- Whatever the camera, the engine and the clock do, a scan ends in an
ending, unless it saw no face. -/
theorem authenticate_endsScan {ticks}
    (h : authenticateWithEmbeddings num attempt opening ticks = some report) :
    EndsScan report.outcome := by
  unfold authenticateWithEmbeddings at h
  split_ifs at h
  · cases h
    exact .inl ⟨.cancelled, rfl, rfl⟩
  · cases h
    exact .inl ⟨.rejected .scan .y16BitDepthRequired "", rfl, rfl⟩
  · exact scan_endsScan h

end Scan

/-! ## The code through the daemon -/

/-- The words by which the module knows an exhausted budget. -/
def namesRateLimit (text : String) : Bool :=
  Text.contains text "rate_limit" || Text.contains text "rate limited"

/-- A rejection of another class whose detail has these words. -/
def Ending.misread : Ending → Bool
  | .rejected _ .storage detail | .rejected _ .rateLimitCheckFailed detail
  | .rejected _ .internal detail => namesRateLimit detail
  | _ => false

def responseCode : AuthResponse → PamCode
  | .matched _ => .success
  | .noMatchFaceSeen => pamCodeForNoMatch true .zero
  | .noMatch similarity => pamCodeForNoMatch false similarity
  | .suppressed => .authinfoUnavail
  | .error message => (pamCodeForDaemonError message).1

variable (display : Display)

theorem identify_code_of_result {host config user reply} (hasks : host.Asks config user)
    (hreply : host.Receives display (.ok reply)) :
    (identify display host).code = responseCode (parseAuthReply reply) := by
  rw [identify_of_passes display hasks.toPasses, identifyUser, if_neg hasks.mode,
    daemonAuthenticate_of_receives display hreply]
  simp only [Verdict.after, answerOf]
  cases parseAuthReply reply <;> rfl

theorem identify_code_of_exit {host config user code} (h : host.RunsHelper config user code) :
    (identify display host).code = (classify code).pamCode := by
  rw [identify_of_passes display h.toPasses, identifyUser, if_pos h.mode]
  simp only [Verdict.after, oneshotVerdict, h.helper_eq, runOneshotAuth]
  split <;> rfl

theorem pamCodeForDaemonError_eq (message : String) :
    (pamCodeForDaemonError message).1 = if namesRateLimit message then .authErr else .ignore := by
  unfold pamCodeForDaemonError namesRateLimit
  split_ifs <;> rfl

theorem namesRateLimit_storage (detail : String) :
    namesRateLimit ("storage error: " ++ detail) = namesRateLimit detail := by
  unfold namesRateLimit
  rw [Text.contains_append (by decide), Text.contains_append (by decide)]

theorem namesRateLimit_checkFailed (detail : String) :
    namesRateLimit ("rate limit check failed: " ++ detail) = namesRateLimit detail := by
  unfold namesRateLimit
  rw [Text.contains_append (by decide), Text.contains_append (by decide)]

theorem parseAuthReply_error (message : String) (isRoot : Bool) :
    parseAuthReply ((recoverableAuthError message).redactSimilarityUnlessRoot isRoot) =
      .error message := by
  simp [parseAuthReply, recoverableAuthError]

/-- Whether the message of a class embeds a detail. -/
def carriesDetail : ErrorKind → Bool
  | .storage | .rateLimitCheckFailed | .internal => true
  | _ => false

set_option maxRecDepth 8000 in
theorem namesRateLimit_fixed {kind} (h : carriesDetail kind = false) (detail : String) :
    namesRateLimit (kind.render detail) = decide (kind = .rateLimited) := by
  have hdetail : kind.render detail = kind.render "" := by
    cases kind <;> first | rfl | cases h
  rw [hdetail]
  revert h
  cases kind <;> decide

section

variable (phase : Phase) (kind : ErrorKind) (detail : String)

include phase kind detail

theorem Ending.misread_rejected : (Ending.rejected phase kind detail).misread =
      (carriesDetail kind && namesRateLimit detail) := by
  cases kind <;> rfl

/-- A rejection is read as a failure if it is the rejection of an exhausted
budget, or is misread as one. -/
theorem namesRateLimit_render : namesRateLimit (kind.render detail) =
      (decide (kind = .rateLimited) || (Ending.rejected phase kind detail).misread) := by
  rw [Ending.misread_rejected]
  cases hdetail : carriesDetail kind with
  | false => rw [namesRateLimit_fixed hdetail, Bool.false_and, Bool.or_false]
  | true =>
    cases kind with
    | storage => exact namesRateLimit_storage detail
    | rateLimitCheckFailed => exact namesRateLimit_checkFailed detail
    | internal => rfl
    | rateLimited | disabled | sshSession | lidClosed | lidUnavailable | irRequired
    | y16BitDepthRequired | allFramesDark => cases hdetail

theorem responseCode_rejected (isRoot : Bool) :
    responseCode (parseAuthReply ((Ending.rejected phase kind detail).reply isRoot)) =
      if kind = .rateLimited ∨ (Ending.rejected phase kind detail).misread = true then .authErr
      else .ignore := by
  show responseCode (parseAuthReply
    ((recoverableAuthError (kind.render detail)).redactSimilarityUnlessRoot isRoot)) = _
  rw [parseAuthReply_error, responseCode, pamCodeForDaemonError_eq, namesRateLimit_render phase]
  simp [Bool.or_eq_true, decide_eq_true_eq]

theorem classify_rejected : (classify (Ending.rejected phase kind detail).exitCode).pamCode =
      if kind = .rateLimited then .authErr else .ignore := by
  cases phase <;> cases kind <;> rfl

end

/-! ## The two codes -/

theorem responseCode_eq_iff (ending : Ending) (isRoot : Bool) :
    responseCode (parseAuthReply (ending.reply isRoot)) = (classify ending.exitCode).pamCode ↔
      ending.misread = false := by
  cases ending with
  | rejected phase kind detail =>
    rw [responseCode_rejected, classify_rejected]
    by_cases hkind : kind = .rateLimited
    · subst hkind
      simp [Ending.misread]
    · simp [hkind]
  | cancelled => cases isRoot <;> exact iff_of_true (by decide) rfl
  | suppressed | matched | unmatched => cases isRoot <;> exact iff_of_true rfl rfl

/-- A machine that asks a daemon and one that runs the helper give the same
code for an ending, unless the daemon's message is misread. -/
theorem transports_agree_iff (ending : Ending) (isRoot : Bool) {asking : Host}
    {askingConfig : PamConfig} {askingUser : String} (hasks : asking.Asks askingConfig askingUser)
    (hreply : asking.Receives display (.ok (ending.reply isRoot))) {running : Host}
    {runningConfig : PamConfig} {runningUser : String}
    (hruns : running.RunsHelper runningConfig runningUser ending.exitCode) :
    (identify display asking).code = (identify display running).code ↔ ending.misread = false := by
  rw [identify_code_of_result display hasks hreply, identify_code_of_exit display hruns]
  exact responseCode_eq_iff ending isRoot

/-- A `sudo` that runs the helper, which exits with `code`. -/
def helperHost (code : Int) : Host :=
  { sudoHost (.error (.other "not asked")) with
    config := .ok { daemon := { mode := "oneshot" } }
    helper := .exited code }

theorem helperHost_runs (code : Int) :
    (helperHost code).RunsHelper { daemon := { mode := "oneshot" } } "alice" code where
  config_eq := rfl
  enabled := rfl
  ssh := rfl
  lid := rfl
  admitted := rfl
  user_eq := rfl
  mode := rfl
  helper_eq := rfl

/-- An exhausted budget fails on both transports. -/
theorem transports_agree_rateLimited : let ending := Ending.rejected .preflight .rateLimited ""
    (identify namedDisplay (sudoHost (.ok (ending.reply false)))).code =
      (identify namedDisplay (helperHost ending.exitCode)).code :=
  (transports_agree_iff namedDisplay (.rejected .preflight .rateLimited "") false
    (sudoHost_asks _) (sudoHost_receives _ _) (helperHost_runs _)).mpr rfl

set_option maxRecDepth 8000 in
/-- A rate-limit check that fails because its table is missing: the daemon's
message is read as an exhausted budget, the exit code as no opinion. -/
theorem missingTable_misread :
    let ending := Ending.rejected .preflight .rateLimitCheckFailed "no such table: rate_limit"
    (identify namedDisplay (sudoHost (.ok (ending.reply false)))).code = .authErr ∧
      (identify namedDisplay (helperHost ending.exitCode)).code = .ignore := by
  decide

end Facelock.Client
