import Facelock.Lib.Text
import Facelock.Daemon.Wire

/-!
# The D-Bus side of the PAM module

How `crates/pam-facelock/src/lib.rs` reads what comes back from the
daemon.  A reply becomes an `AuthResponse` (`parse_auth_reply`).  An error
becomes a text whose first word is its class
(`classify_authentication_reply_error`), and `action_for_transport_error`
decides from that text alone whether the module goes on to the oneshot
helper.

Deadlines and the worker thread are events of an `Exchange`, which says
how far a call came and what it got.  How an error is displayed is up to
the `zbus` crate, so a `Display` is a parameter.
-/

namespace Facelock.Client

open Facelock.Daemon

/-- The return codes of Linux-PAM that the module uses. -/
inductive PamCode where
  | success
  | authErr
  | authinfoUnavail
  | ignore
  deriving DecidableEq, Repr

/-! ## Errors of the bus library -/

/-- An error of `zbus`.  An error reply arrives as `fdo` if the library
knows its name, and as `methodError` otherwise. -/
inductive ZbusError where
  | inputOutput (isTimedOut : Bool) (text : String)
  | methodError (name : String) (detail : Option String)
  | fdo (error : FdoError)
  | other (text : String)
  deriving DecidableEq, Repr

/-- The texts of the errors. -/
structure Display where
  zbus : ZbusError → String
  fdo : FdoError → String

def isTimeoutFdoError : FdoError → Bool
  | .noReply _ | .timeout _ | .timedOut _ => true
  | _ => false

def isTimeoutZbusError : ZbusError → Bool
  | .inputOutput isTimedOut _ => isTimedOut
  | .methodError name _ =>
    name = "org.freedesktop.DBus.Error.NoReply" ||
      name = "org.freedesktop.DBus.Error.Timeout" ||
      name = "org.freedesktop.DBus.Error.TimedOut"
  | .fdo error => isTimeoutFdoError error
  | .other _ => false

variable (display : Display)

def classifyZbusError (start : String) (error : ZbusError) : String :=
  if isTimeoutZbusError error then "dbus_timeout: " ++ display.zbus error
  else start ++ ": " ++ display.zbus error

def classifyFdoError (start : String) (error : FdoError) : String :=
  if isTimeoutFdoError error then "dbus_timeout: " ++ display.fdo error
  else start ++ ": " ++ display.fdo error

def dbusAccessDenied : String := "org.freedesktop.DBus.Error.AccessDenied"

/-- Whether a daemon refused its caller. -/
def isAccessDenied : ZbusError → Bool
  | .methodError name _ => name = dbusAccessDenied
  | .fdo (.accessDenied _) => true
  | _ => false

def classifyAuthenticateError (error : ZbusError) : String :=
  if isAccessDenied error then "dbus_access_denied: " ++ display.zbus error
  else classifyZbusError display "dbus_call_failed" error

/-- Whether a daemon lacks the method or the interface it was asked for. -/
def isUnknownMember : ZbusError → Bool
  | .methodError name _ =>
    name = "org.freedesktop.DBus.Error.UnknownMethod" ||
      name = "org.freedesktop.DBus.Error.UnknownInterface"
  | .fdo (.unknownMethod _) | .fdo (.unknownInterface _) => true
  | _ => false

def classifyAuthenticationReplyError (error : ZbusError) (silent : Bool) : String :=
  if silent && isUnknownMember error then
    "dbus_access_denied: silent authentication unsupported: " ++ display.zbus error
  else classifyAuthenticateError display error

/-! ## What the module does with an error -/

inductive TransportErrorAction where
  | return (code : PamCode) (reason : String)
  | fallBackToOneshot
  deriving DecidableEq, Repr

def actionForTransportError (error : String) : TransportErrorAction :=
  if Text.startsWith error "dbus_access_denied" then
    .return .ignore "refused by daemon (caller provenance or authorization)"
  else if Text.contains error "dbus_timeout" then .return .authErr "timeout"
  else .fallBackToOneshot

/-- An error reply that ends the attempt: the daemon refused the caller or
lacks the silent method, the call timed out, or the text of the error
names a timeout. -/
def endsAttempt (silent : Bool) (error : ZbusError) : Bool :=
  isAccessDenied error || (silent && isUnknownMember error) || isTimeoutZbusError error ||
    Text.contains (display.zbus error) "dbus_timeout"

theorem action_of_accessDenied {text} (h : Text.startsWith text "dbus_access_denied" = true) :
    actionForTransportError text =
      .return .ignore "refused by daemon (caller provenance or authorization)" := by
  rw [actionForTransportError, if_pos h]

theorem action_of_timeout (rest : String) :
    actionForTransportError ("dbus_timeout: " ++ rest) = .return .authErr "timeout" := by
  have hdenied : Text.startsWith ("dbus_timeout: " ++ rest) "dbus_access_denied" = false :=
    Text.startsWith_append_of_apart (by decide) (by decide) rest
  have htimeout : Text.contains ("dbus_timeout: " ++ rest) "dbus_timeout" = true :=
    Text.contains_of_startsWith (Text.startsWith_append (by decide) rest)
  rw [actionForTransportError, hdenied, htimeout]
  rfl

/-- A failed call ends the attempt only if its text names a timeout. -/
theorem action_of_callFailed (rest : String) :
    actionForTransportError ("dbus_call_failed: " ++ rest) =
      if Text.contains rest "dbus_timeout" then .return .authErr "timeout"
      else .fallBackToOneshot := by
  have hdenied : Text.startsWith ("dbus_call_failed: " ++ rest) "dbus_access_denied" = false :=
    Text.startsWith_append_of_apart (by decide) (by decide) rest
  rw [actionForTransportError, hdenied, Text.contains_append (by decide)]
  rfl

theorem action_reply_eq (error : ZbusError) (silent : Bool) :
    actionForTransportError (classifyAuthenticationReplyError display error silent) =
      .fallBackToOneshot ↔ endsAttempt display silent error = false := by
  unfold classifyAuthenticationReplyError endsAttempt
  cases hunknown : silent && isUnknownMember error with
  | true =>
    rw [if_pos rfl, action_of_accessDenied (Text.startsWith_append (by decide) _)]
    simp
  | false =>
    rw [if_neg (by simp), classifyAuthenticateError]
    cases hdenied : isAccessDenied error with
    | true =>
      rw [if_pos rfl, action_of_accessDenied (Text.startsWith_append (by decide) _)]
      simp
    | false =>
      rw [if_neg (by simp), classifyZbusError]
      cases htimeout : isTimeoutZbusError error with
      | true =>
        rw [if_pos rfl, action_of_timeout]
        simp
      | false =>
        rw [if_neg (by simp)]
        have hcall : "dbus_call_failed" ++ ": " = "dbus_call_failed: " := by decide
        rw [hcall, action_of_callFailed]
        cases Text.contains (display.zbus error) "dbus_timeout" <;> simp

end Facelock.Client
