import Facelock.Auth.Loop

/-!
# What the daemon answers

The reply of the three authentication methods of `org.facelock.Daemon`,
from `crates/facelock-daemon/src/server.rs` and `handler.rs`.  A reply is
an `AuthResult` or a D-Bus error.  A rejection that the daemon has
decided on travels in an `AuthResult` with a negative `model_id`, and a
D-Bus error is left for a refused caller, a busy daemon and a broken
task.

The score crosses the wire as a double.  Every score the daemon sends is
a widened single, so the model keeps the single.
-/

namespace Facelock.Daemon

open Facelock.Auth

/-- The four fields of a reply. -/
structure AuthResult where
  matched : Bool
  modelId : Int
  label : String
  similarity : Binary32
  deriving DecidableEq, Repr

/-- An error of the D-Bus error namespace.  The constructors are the ones
that either side looks at. -/
inductive FdoError where
  | accessDenied (message : String)
  | failed (message : String)
  | noReply (message : String)
  | timeout (message : String)
  | timedOut (message : String)
  | unknownMethod (message : String)
  | unknownInterface (message : String)
  | other (name message : String)
  deriving DecidableEq, Repr

def FdoError.name : FdoError → String
  | .accessDenied _ => "org.freedesktop.DBus.Error.AccessDenied"
  | .failed _ => "org.freedesktop.DBus.Error.Failed"
  | .noReply _ => "org.freedesktop.DBus.Error.NoReply"
  | .timeout _ => "org.freedesktop.DBus.Error.Timeout"
  | .timedOut _ => "org.freedesktop.DBus.Error.TimedOut"
  | .unknownMethod _ => "org.freedesktop.DBus.Error.UnknownMethod"
  | .unknownInterface _ => "org.freedesktop.DBus.Error.UnknownInterface"
  | .other name _ => name

def FdoError.message : FdoError → String
  | .accessDenied message | .failed message | .noReply message | .timeout message
  | .timedOut message | .unknownMethod message | .unknownInterface message
  | .other _ message => message

def busyError (operation : String) : FdoError :=
  .failed ("daemon busy: another capture operation is in progress (" ++ operation ++
    " rejected)")

/-- The error of `lock_handler_with_timeout_before_capture`. -/
def lockTimeoutError : FdoError :=
  .failed "daemon busy: previous operation timed out"

/-! ## Encoding of an outcome -/

/-- `id as i32`. -/
def asI32 (id : UInt32) : Int :=
  Int.bmod id.toNat (2 ^ 32)

def noMatchNoFace : Int := -1

def noMatchFaceSeen : Int := -4

def wireModelId (result : MatchResult) : Int :=
  match result.modelId with
  | some id => asI32 id
  | none => if result.faceDetected && !result.matched then noMatchFaceSeen else noMatchNoFace

def recoverableAuthError (message : String) : AuthResult where
  matched := false
  modelId := -2
  label := message
  similarity := .zero

def cancelledMessage : String := "cancelled"

/-- The responses of the handler to an authentication.  `run_authentication`
answers any other one with a D-Bus error. -/
inductive DaemonResponse where
  | authResult (result : MatchResult)
  | suppressed
  | error (message : String)
  deriving DecidableEq, Repr

/-- `From<AuthOutcome>`. -/
def DaemonResponse.ofOutcome : AuthOutcome → DaemonResponse
  | .authResult result => .authResult result
  | .suppressed => .suppressed
  | .error _ message => .error message
  | .cancelled => .error cancelledMessage

/-- The reply that `run_authentication` builds from a response. -/
def DaemonResponse.encode : DaemonResponse → AuthResult
  | .authResult result =>
    { matched := result.matched
      modelId := wireModelId result
      label := result.label.getD ""
      similarity := result.similarity }
  | .suppressed => { matched := false, modelId := -3, label := "", similarity := .zero }
  | .error message => recoverableAuthError message

variable (result : AuthResult)

/-- The score is for root alone. -/
def AuthResult.redactSimilarityUnlessRoot (isRoot : Bool) : AuthResult :=
  if isRoot then result else { result with similarity := .zero }

@[simp] theorem AuthResult.redact_matched (isRoot : Bool) :
    (result.redactSimilarityUnlessRoot isRoot).matched = result.matched := by
  unfold redactSimilarityUnlessRoot
  split <;> rfl

@[simp] theorem AuthResult.redact_modelId (isRoot : Bool) :
    (result.redactSimilarityUnlessRoot isRoot).modelId = result.modelId := by
  unfold redactSimilarityUnlessRoot
  split <;> rfl

@[simp] theorem AuthResult.redact_label (isRoot : Bool) :
    (result.redactSimilarityUnlessRoot isRoot).label = result.label := by
  unfold redactSimilarityUnlessRoot
  split <;> rfl

end Facelock.Daemon
