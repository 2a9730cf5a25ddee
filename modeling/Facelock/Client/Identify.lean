import Facelock.Client.Transport

/-!
# The PAM module's decision

`identify` of `crates/pam-facelock/src/lib.rs`: the preflight checks, the
call to the daemon, and the oneshot helper, which is asked if the
configuration says so or if the call failed.  What the machine answers is
a `Host`; the result is a `Verdict`, a PAM code with the log lines, the
conversation texts and the helper runs that led to it.

The main result is about a running daemon whose owner is root.  Its reply
settles the attempt exactly if it is an `AuthResult` or an error that
`endsAttempt` (`replySettles_iff`).  Every other error sends the module on
to the helper, the error of a busy daemon among them.
-/

namespace Facelock.Client

open Facelock.Daemon

/-! ## Configuration -/

inductive PamNotificationMode where
  | off
  | terminal
  | desktop
  | both
  deriving DecidableEq, Repr

inductive PamNotificationPolicy where
  | on
  | off
  | system
  deriving DecidableEq, Repr

def PamNotificationPolicy.enabled (policy : PamNotificationPolicy) (pamSilent : Bool) : Bool :=
  match policy with
  | .on => true
  | .off => false
  | .system => !pamSilent

structure PamNotificationConfig where
  mode : PamNotificationMode := .terminal
  notifyPrompt : PamNotificationPolicy := .on
  notifyOnSuccess : PamNotificationPolicy := .on

def PamNotificationConfig.terminal (config : PamNotificationConfig) : Bool :=
  config.mode = .terminal || config.mode = .both

structure PamPolicyConfig where
  allowedServices : List String := []
  deniedServices : List String := []

structure PamSecurityConfig where
  disabled : Bool := false
  abortIfSsh : Bool := true
  abortIfLidClosed : Bool := true
  pamPolicy : Option PamPolicyConfig := none

structure PamDaemonConfig where
  mode : String := "daemon"

structure PamConfig where
  daemon : PamDaemonConfig := {}
  security : PamSecurityConfig := {}
  notification : PamNotificationConfig := {}

/-- Whether the policy of a configuration lets a service in. -/
def PamSecurityConfig.admits (security : PamSecurityConfig) (service : String) : Bool :=
  match security.pamPolicy with
  | none => true
  | some policy =>
    (policy.allowedServices.isEmpty || policy.allowedServices.contains service) &&
      !policy.deniedServices.contains service

/-! ## Replies -/

inductive AuthResponse where
  | matched (similarity : Binary32)
  | noMatch (similarity : Binary32)
  | noMatchFaceSeen
  | suppressed
  | error (message : String)
  deriving DecidableEq, Repr

def parseAuthReply (reply : AuthResult) : AuthResponse :=
  if reply.matched then .matched reply.similarity
  else if reply.modelId = -2 then .error reply.label
  else if reply.modelId = -3 then .suppressed
  else if reply.modelId = -4 then .noMatchFaceSeen
  else .noMatch reply.similarity

def dbusBusName : String := "org.facelock.Daemon"

/-- What the bus answers while the owner of the daemon's name is checked.
`start` and `ownerAfterStart` are asked if there is no owner yet. -/
structure PeerAnswers where
  proxy : Except ZbusError Unit
  owner : Except FdoError String
  start : Except FdoError Unit
  ownerAfterStart : Except FdoError String
  uid : Except FdoError Nat

variable (display : Display)

def resolveOwner (answers : PeerAnswers) : Except String String :=
  match answers.owner with
  | .ok owner => .ok owner
  | .error _ =>
    match answers.start with
    | .error e => .error (classifyFdoError display "dbus_connect_failed" e)
    | .ok _ =>
      match answers.ownerAfterStart with
      | .error e => .error (classifyFdoError display "dbus_connect_failed" e)
      | .ok owner => .ok owner

def verifyDaemonPeer (answers : PeerAnswers) : Except String String :=
  match answers.proxy with
  | .error e => .error (classifyZbusError display "dbus_proxy_failed" e)
  | .ok _ =>
    match resolveOwner display answers with
    | .error e => .error e
    | .ok owner =>
      match answers.uid with
      | .error e => .error (classifyFdoError display "dbus_call_failed" e)
      | .ok uid =>
        if uid ≠ 0 then
          .error ("dbus_untrusted_peer: " ++ dbusBusName ++ " owned by uid " ++ toString uid ++
            " (require root)")
        else .ok owner

/-- How far a call to the daemon came within its deadline. -/
inductive Exchange where
  | workerSpawnFailed (text : String)
  | deadlinePassed
  | workerTerminated
  | called (connection : Except String Unit) (peer : PeerAnswers) (proxy : Except ZbusError Unit)
      (reply : Except ZbusError AuthResult)

variable (silent : Bool)

def daemonAuthenticateAsync (connection : Except String Unit) (peer : PeerAnswers)
    (proxy : Except ZbusError Unit) (reply : Except ZbusError AuthResult) :
    Except String AuthResponse :=
  match connection with
  | .error text => .error ("dbus_connect_failed: " ++ text)
  | .ok _ =>
    match verifyDaemonPeer display peer with
    | .error e => .error e
    | .ok _ =>
      match proxy with
      | .error e => .error (classifyZbusError display "dbus_proxy_failed" e)
      | .ok _ =>
        match reply with
        | .error e => .error (classifyAuthenticationReplyError display e silent)
        | .ok reply => .ok (parseAuthReply reply)

def daemonAuthenticate : Exchange → Except String AuthResponse
  | .workerSpawnFailed text => .error ("dbus_call_failed: worker thread spawn failed: " ++ text)
  | .deadlinePassed =>
    .error "dbus_timeout: connection or method call exceeded overall deadline"
  | .workerTerminated => .error "dbus_call_failed: worker thread terminated unexpectedly"
  | .called connection peer proxy reply =>
    daemonAuthenticateAsync display silent connection peer proxy reply

/-! ## Codes -/

def pamCodeForDaemonError (message : String) : PamCode × String :=
  if Text.contains message "rate_limit" || Text.contains message "rate limited" then
    (.authErr, "rate_limited")
  else if Text.contains message "IR camera required" || Text.contains message "ir_required" then
    (.ignore, "ir_required")
  else if message = "cancelled" then (.ignore, "cancelled")
  else (.ignore, "error: internal")

def pamCodeForNoMatch (faceSeen : Bool) (similarity : Binary32) : PamCode :=
  if faceSeen then .authErr
  -- `similarity == 0.0` holds of both zeros
  else if similarity.magnitude = 0 then .ignore
  else .authErr

structure OneshotExit where
  pamCode : PamCode
  label : Option String
  warn : Bool

def classify (code : Int) : OneshotExit :=
  if code = 0 then { pamCode := .success, label := some "success (oneshot)", warn := false }
  else if code = 1 then
    { pamCode := .authErr, label := some "no_match (oneshot)", warn := false }
  else if code = 3 then
    { pamCode := .authErr, label := some "rate_limited (oneshot)", warn := true }
  else if code = 4 then
    { pamCode := .authinfoUnavail, label := some "suppressed (oneshot, no enrolled models)"
      warn := false }
  else if code = 5 then
    { pamCode := .ignore, label := some "all_frames_dark (oneshot)", warn := true }
  else { pamCode := .ignore, label := none, warn := true }

/-! ## The oneshot helper -/

inductive Level where
  | info
  | warning
  deriving DecidableEq, Repr

/-- What the module does besides returning a code. -/
inductive Event where
  | log (service result user : String) (level : Level)
  | info (text : String)
  | spawnOneshot (user : String)
  deriving DecidableEq, Repr

structure Verdict where
  code : PamCode
  events : List Event

/-- The verdict with something done before it. -/
def Verdict.after (events : List Event) (verdict : Verdict) : Verdict :=
  { verdict with events := events ++ verdict.events }

def Verdict.spawns (verdict : Verdict) : Bool :=
  verdict.events.any fun event =>
    match event with
    | .spawnOneshot _ => true
    | _ => false

/-- What becomes of the helper process. -/
inductive Helper where
  | untrusted (reason : String)
  | spawnFailed (reason : String)
  | exited (code : Int)
  | signalled
  | overran
  | waitFailed (reason : String)
  deriving DecidableEq, Repr

def Helper.isTrusted : Helper → Bool
  | .untrusted _ => false
  | _ => true

variable (service user : String)

/-- The reading of an exit status.  A child that a signal killed has none
and is read as 2. -/
def exitVerdict (code : Int) : Verdict :=
  let exit := classify code
  let level := if exit.warn then Level.warning else Level.info
  { code := exit.pamCode
    events := [.log service (exit.label.getD ("error: oneshot_exit=" ++ toString code)) user
      level] }

def runOneshotAuth (helper : Helper) : Verdict :=
  let warn (result : String) : Event := .log service result user .warning
  match helper with
  | .untrusted reason =>
    { code := .ignore, events := [warn ("error: untrusted_auth_binary: " ++ reason)] }
  | .spawnFailed reason =>
    { code := .ignore, events := [.spawnOneshot user, warn ("error: oneshot_spawn: " ++ reason)] }
  | .exited code => (exitVerdict service user code).after [.spawnOneshot user]
  | .signalled => (exitVerdict service user 2).after [.spawnOneshot user]
  | .overran => { code := .authErr, events := [.spawnOneshot user, warn "timeout (oneshot)"] }
  | .waitFailed reason =>
    { code := .ignore, events := [.spawnOneshot user, warn ("error: oneshot_wait: " ++ reason)] }

theorem runOneshotAuth_spawns (helper : Helper) :
    (runOneshotAuth service user helper).spawns = helper.isTrusted := by
  cases helper <;> rfl

/-! ## The decision -/

/-- What the module finds when PAM calls it. -/
structure Host where
  service : Option String
  config : Except String PamConfig
  isSshSession : Bool
  isLidClosed : Bool
  user : Option String
  flags : UInt32
  exchange : Exchange
  helper : Helper

def pamSilent (flags : UInt32) : Bool :=
  flags &&& 0x8000 ≠ 0

variable (config : PamConfig)

/-- The text that a success shows. -/
def successInfo (silent : Bool) : List Event :=
  if config.notification.notifyOnSuccess.enabled silent && config.notification.terminal then
    [.info "Face recognized."]
  else []

/-- The helper's verdict, with the text that a success shows. -/
def oneshotVerdict (service user : String) (silent : Bool) (helper : Helper) : Verdict :=
  let verdict := runOneshotAuth service user helper
  if verdict.code = .success then
    { verdict with events := verdict.events ++ successInfo config silent }
  else verdict

/-- The verdict on an answer of the daemon, or on a failed call. -/
def daemonVerdict (service user : String) (silent : Bool)
    (helper : Helper) : Except String AuthResponse → Verdict
  | .ok (.matched _) =>
    { code := .success, events := .log service "success" user .info :: successInfo config silent }
  | .ok .noMatchFaceSeen =>
    { code := pamCodeForNoMatch true .zero, events := [.log service "no_match" user .info] }
  | .ok (.noMatch similarity) =>
    { code := pamCodeForNoMatch false similarity
      events := [.log service "no_match" user .info] }
  | .ok .suppressed =>
    { code := .authinfoUnavail
      events := [.log service "suppressed (no enrolled models)" user .info] }
  | .ok (.error message) =>
    { code := (pamCodeForDaemonError message).1
      events := [.log service (pamCodeForDaemonError message).2 user .warning] }
  | .error e =>
    match actionForTransportError e with
    | .return code reason => { code, events := [.log service reason user .warning] }
    | .fallBackToOneshot =>
      (oneshotVerdict config service user silent helper).after
        [.log service ("dbus_failed: " ++ e ++ ", falling back to oneshot") user .warning]

/-- `identify` once the preflight checks have passed. -/
def identifyUser (host : Host) (config : PamConfig) (service user : String) : Verdict :=
  let silent := pamSilent host.flags
  let prompt :=
    if config.notification.notifyPrompt.enabled silent && config.notification.terminal then
      [Event.info "Identifying face..."]
    else []
  (if config.daemon.mode = "oneshot" then
    oneshotVerdict config service user silent host.helper
  else
    daemonVerdict config service user silent host.helper
      (daemonAuthenticate display silent host.exchange)).after prompt

def identify (host : Host) : Verdict :=
  let service := host.service.getD "unknown"
  let stop (result : String) (level : Level) : Verdict :=
    { code := .ignore, events := [.log service result "?" level] }
  match host.config with
  | .error e => stop ("error: config: " ++ e) .warning
  | .ok config =>
    if config.security.disabled then stop "disabled" .info
    else if config.security.abortIfSsh && host.isSshSession then stop "ssh_abort" .info
    else if config.security.abortIfLidClosed && host.isLidClosed then stop "lid_closed" .info
    else if !config.security.admits service then stop "service_denied" .info
    else
      match host.user with
      | none => stop "error: no_user" .warning
      | some user => identifyUser display host config service user

structure Host.Passes (host : Host) (config : PamConfig) (user : String) : Prop where
  config_eq : host.config = .ok config
  enabled : config.security.disabled = false
  ssh : (config.security.abortIfSsh && host.isSshSession) = false
  lid : (config.security.abortIfLidClosed && host.isLidClosed) = false
  admitted : config.security.admits (host.service.getD "unknown") = true
  user_eq : host.user = some user

/-- The preflight checks pass and the daemon is asked. -/
structure Host.Asks (host : Host) (config : PamConfig) (user : String) : Prop
    extends host.Passes config user where
  mode : config.daemon.mode ≠ "oneshot"

/-- The preflight checks pass, and the helper runs in place of a daemon and
exits with `code`. -/
structure Host.RunsHelper (host : Host) (config : PamConfig) (user : String) (code : Int) : Prop
    extends host.Passes config user where
  mode : config.daemon.mode = "oneshot"
  helper_eq : host.helper = .exited code

/-- A daemon runs, root owns its name, and it sends `reply`. -/
structure Host.Receives (host : Host) (reply : Except ZbusError AuthResult) : Prop where
  exchange_eq : ∃ peer owner, host.exchange = .called (.ok ()) peer (.ok ()) reply ∧
    verifyDaemonPeer display peer = .ok owner

/-! ## A reply settles the attempt -/

/-- The answer that `daemon_authenticate` gives for a reply. -/
def answerOf : Except ZbusError AuthResult → Except String AuthResponse
  | .ok reply => .ok (parseAuthReply reply)
  | .error e => .error (classifyAuthenticationReplyError display e silent)

theorem daemonAuthenticate_of_receives {host : Host} {reply} (h : host.Receives display reply)
    (silent : Bool) :
    daemonAuthenticate display silent host.exchange = answerOf display silent reply := by
  obtain ⟨peer, owner, hexchange, hpeer⟩ := h.exchange_eq
  rw [hexchange]
  cases reply <;> simp [daemonAuthenticate, daemonAuthenticateAsync, hpeer, answerOf]

theorem identify_of_passes {host config user} (h : host.Passes config user) :
    identify display host =
      identifyUser display host config (host.service.getD "unknown") user := by
  simp [identify, h.config_eq, h.enabled, h.ssh, h.lid, h.admitted, h.user_eq]

theorem Verdict.spawns_after (events : List Event) (verdict : Verdict) :
    (verdict.after events).spawns = (Verdict.spawns ⟨verdict.code, events⟩ || verdict.spawns) := by
  simp [spawns, after, List.any_append]

theorem oneshotVerdict_spawns (service user : String) (silent : Bool) (helper : Helper) :
    (oneshotVerdict config service user silent helper).spawns = helper.isTrusted := by
  rw [← runOneshotAuth_spawns service user helper]
  simp only [oneshotVerdict]
  split
  · simp only [Verdict.spawns, List.any_append, successInfo]
    split <;> simp
  · rfl

theorem pamCodeForDaemonError_ne_success (message : String) :
    (pamCodeForDaemonError message).1 ≠ .success := by
  unfold pamCodeForDaemonError
  split_ifs <;> simp

theorem pamCodeForNoMatch_ne_success (faceSeen : Bool) (similarity : Binary32) :
    pamCodeForNoMatch faceSeen similarity ≠ .success := by
  unfold pamCodeForNoMatch
  split_ifs <;> simp

/-- A result in band never leads to the helper, and only a match is a
success. -/
theorem daemonVerdict_of_result (service user : String) (silent : Bool)
    (helper : Helper) (reply : AuthResult) :
    let verdict := daemonVerdict config service user silent helper (.ok (parseAuthReply reply))
    verdict.spawns = false ∧ (verdict.code = .success ↔ reply.matched = true) := by
  intro verdict
  simp only [verdict, parseAuthReply]
  split_ifs with hmatched herror hsuppressed hseen
  · refine ⟨?_, by simp [daemonVerdict, hmatched]⟩
    unfold daemonVerdict successInfo
    split_ifs <;> rfl
  · exact ⟨rfl, by simp [daemonVerdict, hmatched, pamCodeForDaemonError_ne_success]⟩
  · exact ⟨rfl, by simp [daemonVerdict, hmatched]⟩
  · exact ⟨rfl, by simp [daemonVerdict, hmatched, pamCodeForNoMatch_ne_success]⟩
  · exact ⟨rfl, by simp [daemonVerdict, hmatched, pamCodeForNoMatch_ne_success]⟩

theorem actionForTransportError_ne_success {e code reason}
    (h : actionForTransportError e = .return code reason) : code ≠ .success := by
  unfold actionForTransportError at h
  split_ifs at h
  · cases h
    simp
  · cases h
    simp

/-- An error that ends the attempt gives a code that is no success.  Any
other error leads to the helper. -/
theorem daemonVerdict_of_error (service user : String) (silent : Bool)
    (helper : Helper) (e : ZbusError) :
    let verdict := daemonVerdict config service user silent helper
      (.error (classifyAuthenticationReplyError display e silent))
    verdict.spawns = (!endsAttempt display silent e && helper.isTrusted) ∧
      (verdict.spawns = false → verdict.code ≠ .success) := by
  intro verdict
  have haction := action_reply_eq display e silent
  simp only [verdict, daemonVerdict]
  split
  next code reason heq =>
    have hends : endsAttempt display silent e = true := by
      rw [← Bool.not_eq_false, ← haction, heq]
      simp
    rw [hends]
    exact ⟨rfl, fun _ => actionForTransportError_ne_success heq⟩
  next heq =>
    have hspawns : ∀ event, (∀ user, event ≠ .spawnOneshot user) →
        ((oneshotVerdict config service user silent helper).after [event]).spawns =
          helper.isTrusted := by
      intro event hevent
      rw [Verdict.spawns_after, oneshotVerdict_spawns]
      cases event <;> simp_all [Verdict.spawns]
    rw [haction.mp heq, hspawns _ (by simp)]
    refine ⟨rfl, ?_⟩
    intro huntrusted
    cases helper <;> simp_all [Helper.isTrusted, Verdict.after, oneshotVerdict, runOneshotAuth]

/-- Whether a reply is the last word: a result in band, or an error that
ends the attempt. -/
def isFinal : Except ZbusError AuthResult → Bool
  | .ok _ => true
  | .error e => endsAttempt display silent e

/-- The verdict stays with the daemon's reply: the helper is not spawned,
and only a match is a success. -/
def Settles (verdict : Verdict) (reply : Except ZbusError AuthResult) : Prop :=
  verdict.spawns = false ∧
    (verdict.code = .success ↔ ∃ result, reply = .ok result ∧ result.matched = true)

theorem Settles.after_info {verdict reply prompt}
    (hprompt : Verdict.spawns ⟨verdict.code, prompt⟩ = false) :
    Settles (verdict.after prompt) reply ↔ Settles verdict reply := by
  unfold Settles
  rw [Verdict.spawns_after, hprompt, Bool.false_or]
  rfl

/-- The reply of a running daemon that root owns settles the attempt
exactly if it is final, or if there is no trusted helper to spawn. -/
theorem replySettles_iff {host : Host} {config : PamConfig} {user : String}
    {reply : Except ZbusError AuthResult} (hasks : host.Asks config user)
    (hreply : host.Receives display reply) :
    Settles (identify display host) reply ↔
      isFinal display (pamSilent host.flags) reply = true ∨ host.helper.isTrusted = false := by
  rw [identify_of_passes display hasks.toPasses, identifyUser, if_neg hasks.mode,
    daemonAuthenticate_of_receives display hreply, Settles.after_info (by split <;> rfl)]
  cases reply with
  | ok result =>
    obtain ⟨hspawns, hsuccess⟩ := daemonVerdict_of_result config (host.service.getD "unknown") user
      (pamSilent host.flags) host.helper result
    refine iff_of_true ⟨hspawns, hsuccess.trans ?_⟩ (.inl rfl)
    simp
  | error e =>
    obtain ⟨hspawns, hcode⟩ := daemonVerdict_of_error display config
      (host.service.getD "unknown") user (pamSilent host.flags) host.helper e
    have hsettles : Settles (daemonVerdict config (host.service.getD "unknown") user
        (pamSilent host.flags) host.helper (answerOf display (pamSilent host.flags) (.error e)))
        (.error e) ↔
          (!endsAttempt display (pamSilent host.flags) e && host.helper.isTrusted) = false := by
      rw [Settles, answerOf, ← hspawns]
      simp only [reduceCtorEq, false_and, exists_false, iff_false]
      exact ⟨fun h => h.1, fun h => ⟨h, hcode h⟩⟩
    rw [hsettles, isFinal]
    cases endsAttempt display (pamSilent host.flags) e <;> cases host.helper.isTrusted <;> simp

/-- Errors that are displayed as their name and their message. -/
def namedDisplay : Display where
  zbus
    | .inputOutput _ text | .other text => text
    | .methodError name detail => name ++ ": " ++ detail.getD "no details"
    | .fdo error => error.name ++ ": " ++ error.message
  fdo error := error.name ++ ": " ++ error.message

/-- A daemon that runs and that root owns. -/
def rootPeer : PeerAnswers where
  proxy := .ok ()
  owner := .ok ":1.42"
  start := .ok ()
  ownerAfterStart := .ok ":1.42"
  uid := .ok 0

variable (reply : Except ZbusError AuthResult)

/-- A `sudo` with the default configuration whose call is answered with
`reply`, and a helper that exits with 0. -/
def sudoHost : Host where
  service := some "sudo"
  config := .ok {}
  isSshSession := false
  isLidClosed := false
  user := some "alice"
  flags := 0
  exchange := .called (.ok ()) rootPeer (.ok ()) reply
  helper := .exited 0

theorem sudoHost_asks :
    (sudoHost reply).Asks {} "alice" where
  config_eq := rfl
  enabled := rfl
  ssh := rfl
  lid := rfl
  admitted := rfl
  user_eq := rfl
  mode := by decide

theorem sudoHost_receives :
    (sudoHost reply).Receives display reply where
  exchange_eq := ⟨rootPeer, ":1.42", rfl, rfl⟩

/-- A refusal of the caller settles the attempt. -/
theorem refusalSettles_sudo :
    Settles (identify namedDisplay (sudoHost (.error (.fdo (.accessDenied "remote session")))))
      (.error (.fdo (.accessDenied "remote session"))) :=
  (replySettles_iff namedDisplay (sudoHost_asks _) (sudoHost_receives _ _)).mpr (.inl rfl)

set_option maxRecDepth 8000 in
/-- A busy daemon is bypassed: its error sends the module on to the helper,
whose exit code then decides. -/
theorem busyDaemon_bypassed :
    let reply : Except ZbusError AuthResult := .error (.fdo (busyError "Authenticate"))
    (identify namedDisplay (sudoHost reply)).spawns = true ∧
      (identify namedDisplay (sudoHost reply)).code = .success ∧
      ¬ Settles (identify namedDisplay (sudoHost reply)) reply := by
  intro reply
  have hspawns : (identify namedDisplay (sudoHost reply)).spawns = true := by decide
  refine ⟨hspawns, by decide, ?_⟩
  intro hsettles
  rw [hsettles.1] at hspawns
  cases hspawns

end Facelock.Client
