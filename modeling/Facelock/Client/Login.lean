import Facelock.Client.Transports
import Facelock.Daemon.Attempt

/-!
# A login from the camera to the PAM code

The PAM module asks the daemon, the daemon runs its gates and the
recognition loop, and the module reads the reply.  Only the loop answers
with a match, so a success rests on the evidence of a run of the loop.
-/

namespace Facelock.Client

open Facelock.Auth Facelock.Daemon

theorem matched_encode (outcome : AuthOutcome) :
    (DaemonResponse.ofOutcome outcome).encode.matched = outcome.isMatch := by
  cases outcome <;> rfl

theorem preCheck_isMatch {gates readings context outcome}
    (h : preCheckWithContext gates readings context = some outcome) : outcome.isMatch = false := by
  simp only [preCheckWithContext, preCheckUser] at h
  grind [errorWith, notEnrolled, AuthOutcome.isMatch]

theorem lockedDecision_matched {gates method session lid readings result}
    (h : lockedDecision gates method session lid readings = some (.ok result)) :
    result.matched = false := by
  unfold lockedDecision at h
  split at h
  · cases h
  · split_ifs at h
    · cases h
      rfl
    · obtain ⟨outcome, hpre, heq⟩ := Option.map_eq_some_iff.mp h
      cases heq
      rw [matched_encode, preCheck_isMatch hpre]

/-- A call that does not come as far as the camera is not answered with a
match. -/
theorem passGates_matched {caller user method answers result}
    (h : passGates caller user method answers = .error (.ok result)) : result.matched = false := by
  unfold passGates at h
  grind [lockedDecision_matched, recoverableAuthError]

section

variable {Embedding Frame : Type} (num : Numerics Embedding Frame) {caller : CallerIdentity}
  {user : String} {method : Method} {answers : GateAnswers} {supplies : Supplies Embedding Frame}

theorem attempt_matched {config intent response}
    (h : supplies.attempt config user intent = .error response) :
    response.encode.matched = false := by
  unfold Supplies.attempt at h
  grind [DaemonResponse.encode, DaemonResponse.ofOutcome, recoverableAuthError]

/-- The call passed the gates of the daemon, and the loop returned a match.
At that point its variables held the evidence of the passes so far, and
every gate of the loop was clear. -/
def Recognized (caller : CallerIdentity) (user : String) (method : Method)
    (answers : GateAnswers) (supplies : Supplies Embedding Frame) : Prop :=
  ∃ config attempt passes last, passGates caller user method answers = .ok config ∧
    supplies.attempt config user method.intent = .ok attempt ∧
    authenticateWithEmbeddings num attempt supplies.opening supplies.ticks =
      some (succeed attempt last) ∧
    passes <+: supplies.ticks ∧ Tracks num attempt passes last ∧ Cleared num attempt last ∧
    attempt.threshold ≤ last.bestSimilarity

variable {num}

theorem responseCode_eq_success (reply : AuthResult) :
    responseCode (parseAuthReply reply) = .success ↔ reply.matched = true := by
  unfold parseAuthReply
  split_ifs <;> simp_all [responseCode, pamCodeForDaemonError_ne_success,
    pamCodeForNoMatch_ne_success]

/-- The PAM module succeeds on an answer of the daemon exactly if the
daemon's gates let the call pass and its loop returned a match, with all
the evidence for it. -/
theorem login_iff_recognized (display : Display) {host config result}
    (hasks : Host.Asks host config user) (recorded : Bool)
    (hrun : runAuthentication num caller user method answers supplies =
      some (.ok result, recorded)) (hreceives : host.Receives display (.ok result)) :
    (identify display host).code = .success ↔
      Recognized num caller user method answers supplies := by
  rw [identify_code_of_result display hasks hreceives, responseCode_eq_success]
  unfold runAuthentication handleAuthenticatePrechecked at hrun
  constructor
  · intro hmatched
    split at hrun
    next reply hgates =>
      cases reply with
      | error e => cases hrun
      | ok result =>
        cases hrun
        simp [passGates_matched hgates] at hmatched
    next policy hgates =>
      split at hrun
      next response hattempt =>
        cases hrun
        simp [attempt_matched hattempt] at hmatched
      next attempt hattempt =>
        simp only [Option.map_map, Option.map_eq_some_iff] at hrun
        obtain ⟨report, hreport, heq⟩ := hrun
        cases heq
        rw [AuthResult.redact_matched, matched_encode] at hmatched
        obtain ⟨seen, tick, rest, last, hticks, -, -, htracks, hcleared, rfl⟩ :=
          authenticate_match hreport hmatched
        refine ⟨policy, attempt, seen ++ [tick], last, hgates, hattempt, hreport, ⟨rest, ?_⟩,
          htracks, hcleared, threshold_le_best htracks hcleared⟩
        simp [hticks]
  · rintro ⟨policy, attempt, passes, last, hgates, hattempt, hreport, -⟩
    simp only [hgates, hattempt, hreport, Option.map_some] at hrun
    cases hrun
    simp [matched_encode, succeed, AuthOutcome.isMatch]

end

/-- Three frames along three enrolled axes. -/
theorem login_recognized_axes :
    let attempt := axisAttempt {} [(1, 0), (1, 1), (1, 2)] "046d:085e:"
    let supplies : Supplies (Fin 3) Unit :=
      { models := .ok attempt.models, stored := .ok attempt.stored
        camera := .ok attempt.capabilities, opening := axisOpening
        ticks := [0, 1, 2].map fun axis => axisTick [axisFace axis .zero] }
    Recognized axisNumerics ⟨0, some "root"⟩ "alice" .authenticate openGates supplies := by
  intro attempt supplies
  exact (login_iff_recognized namedDisplay (sudoHost_asks _) false (by decide +kernel)
    (sudoHost_receives namedDisplay (.ok ⟨true, 1, "desk", .one⟩))).mp (by decide +kernel)

end Facelock.Client
