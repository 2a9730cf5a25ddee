import Facelock.Daemon.Wire

/-!
# The checks before the camera opens

`pre_check_with_context` of `crates/facelock-daemon/src/auth.rs`.  It runs
on one configuration and one reading of the environment, and either ends
the attempt with an outcome or lets it go on to the camera.

The lid is the one gate with two sources.  A caller in its own process
reads `/proc`, and the daemon's transport asks logind.  If logind gave no
answer, `lid_refusal` falls back to `/proc`, and refuses if that shows no
lid device.
-/

namespace Facelock.Daemon

open Facelock.Auth

/-- The gates of `[security]` that need no camera. -/
structure SecurityGates where
  disabled : Bool := false
  abortIfSsh : Bool := true
  abortIfLidClosed : Bool := true
  suppressUnknown : Bool := false
  requireIr : Bool := true

inductive LidState where
  | open
  | closed
  | absent
  deriving DecidableEq, Repr

inductive LidSource where
  | localProcfs
  | resolved (closed : Bool)
  | unavailable
  deriving DecidableEq, Repr

structure PreCheckContext where
  skipSshGate : Bool
  skipLidGate : Bool
  lidSource : LidSource

def PreCheckContext.daemonAuthenticate (lidSource : LidSource) : PreCheckContext where
  skipSshGate := true
  skipLidGate := false
  lidSource := lidSource

def PreCheckContext.test : PreCheckContext where
  skipSshGate := true
  skipLidGate := true
  lidSource := .localProcfs

/-- What the checks read: the process environment, `/proc`, the store, the
rate limiter and the camera's capabilities. -/
structure Readings where
  isSshSession : Bool
  procfsLid : LidState
  hasModels : Except String Bool
  rateLimitCheck : Except String Bool
  irTextureScale : IrTextureScale
  isIr : Bool

def lidRefusal (lidSource : LidSource) (procfs : LidState) : Option ErrorKind :=
  match lidSource with
  | .resolved true => some .lidClosed
  | .resolved false => none
  | .localProcfs =>
    match procfs with
    | .closed => some .lidClosed
    | .open | .absent => none
  | .unavailable =>
    match procfs with
    | .closed => some .lidClosed
    | .open => none
    | .absent => some .lidUnavailable

/-- `AuthOutcome::error_with`. -/
def errorWith (kind : ErrorKind) (detail : String) : AuthOutcome :=
  .error kind (kind.render detail)

def notEnrolled : AuthOutcome :=
  .authResult
    { matched := false
      modelId := none
      label := none
      similarity := .zero
      faceDetected := false
      failureReason := none }

section

variable (gates : SecurityGates) (readings : Readings) (context : PreCheckContext)

/-- The gate on the lid. -/
def lidGate : Option ErrorKind :=
  if !context.skipLidGate && gates.abortIfLidClosed then
    lidRefusal context.lidSource readings.procfsLid
  else none

/-- The gates after the environment: enrollment, the budget and the camera. -/
def preCheckUser : Option AuthOutcome :=
  match readings.hasModels with
  | .error e => some (errorWith .storage e)
  | .ok false => some (if gates.suppressUnknown then .suppressed else notEnrolled)
  | .ok true =>
    match readings.rateLimitCheck with
    | .error e => some (errorWith .rateLimitCheckFailed e)
    | .ok false => some (errorWith .rateLimited "")
    | .ok true =>
      if readings.irTextureScale = .unverifiedY16 then some (errorWith .y16BitDepthRequired "")
      else if gates.requireIr && !readings.isIr then some (errorWith .irRequired "")
      else none

def preCheckWithContext : Option AuthOutcome :=
  if gates.disabled then some (errorWith .disabled "")
  else if !context.skipSshGate && gates.abortIfSsh && readings.isSshSession then
    some (errorWith .sshSession "")
  else
    match lidGate gates readings context with
    | some kind => some (errorWith kind "")
    | none => preCheckUser gates readings

end

theorem lidGate_of_preCheck {gates readings context}
    (h : preCheckWithContext gates readings context = none) :
    lidGate gates readings context = none := by
  unfold preCheckWithContext at h
  split_ifs at h
  split at h
  · cases h
  · assumption

/-- The lid gate lets an attempt through on an answer of the transport, or,
if there was none, on an open lid in `/proc`. -/
theorem lid_open_of_lidGate {gates readings source} (hgate : gates.abortIfLidClosed = true)
    (h : lidGate gates readings (.daemonAuthenticate source) = none) :
    source = .resolved false ∨ source = .unavailable ∧ readings.procfsLid = .open ∨
      source = .localProcfs := by
  simp only [lidGate, PreCheckContext.daemonAuthenticate, hgate] at h
  cases source with
  | localProcfs => exact .inr (.inr rfl)
  | resolved closed =>
    cases closed with
    | true => cases h
    | false => exact .inl rfl
  | unavailable =>
    refine .inr (.inl ⟨rfl, ?_⟩)
    cases hlid : readings.procfsLid with
    | «open» => rfl
    | closed => simp [lidRefusal, hlid] at h
    | absent => simp [lidRefusal, hlid] at h

end Facelock.Daemon
