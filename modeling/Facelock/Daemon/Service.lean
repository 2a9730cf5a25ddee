import Facelock.Lib.Transition
import Facelock.Daemon.PreCheck

/-!
# The authentication service

`run_authentication` of `crates/facelock-daemon/src/server.rs`, as one of
many requests that a service handles at once.  A request takes the
handler lock twice.  Under the first lock it reads which environment
checks the installed configuration requires.  The checks then run without
the lock, and in that time a reload may install another handler.  Under
the second lock the request decides on the configuration that is
installed then, and keeps the lock until its capture is over.

A run is a list of events.  Each event says which request moves and what
the environment answers, so every interleaving is a run.  The state of a
check is set by the event of its answer and by nothing else.

The main result (`capture_checked`) is about the start of a capture.  If
the configuration at that point requires the session check, the check ran
for this request and said that the session is not remote.  If it requires
the lid check, the check ran and said that the lid is not closed, or it
has no answer and `/proc` shows an open lid.
-/

namespace Facelock.Daemon

open Facelock.Auth List
open Facelock.Transition

/-! ## Requests -/

inductive Method where
  | authenticate
  | authenticateSilent
  | testAuthenticate
  deriving DecidableEq, Repr

def Method.name : Method → String
  | .authenticate => "Authenticate"
  | .authenticateSilent => "AuthenticateSilent"
  | .testAuthenticate => "TestAuthenticate"

def Method.isAuthentication : Method → Bool
  | .authenticate | .authenticateSilent => true
  | .testAuthenticate => false

structure CallerIdentity where
  uid : Nat
  username : Option String

variable (caller : CallerIdentity)

def CallerIdentity.displayName : String :=
  caller.username.getD ("UID " ++ toString caller.uid)

def requireRoot (operation : String) : Except FdoError Unit :=
  if caller.uid = 0 then .ok ()
  else
    .error (.accessDenied (operation ++ " requires root (caller: '" ++ caller.displayName ++
      "', UID " ++ toString caller.uid ++ ")"))

def requireUserAuthorized (user operation : String) : Except FdoError Unit :=
  if caller.uid = 0 then .ok ()
  else
    match caller.username with
    | none => .error (.failed ("failed to resolve UID " ++ toString caller.uid ++ " to username"))
    | some name =>
      if name = user then .ok ()
      else
        .error (.accessDenied (operation ++ " not authorized: caller '" ++ name ++ "' (UID " ++
          toString caller.uid ++ ") cannot act as '" ++ user ++ "'"))

inductive Scope where
  | root
  | userScoped
  deriving DecidableEq, Repr

def Method.scope : Method → Scope
  | .authenticate | .authenticateSilent => .userScoped
  | .testAuthenticate => .root

def authorizeMethod (method : Method) (user : String) : Except FdoError Unit :=
  match method.scope with
  | .root => requireRoot caller method.name
  | .userScoped => requireUserAuthorized caller user method.name

def processProvenanceDeniedMessage : String :=
  "Authenticate requires a live local caller process"

inductive CheckFailure where
  | cancelled
  | unresolved (reason : String)
  deriving DecidableEq, Repr

/-- A check that the configuration did not require, that is still running,
or that has ended. -/
inductive Check where
  | skipped
  | running
  | ended (result : Except CheckFailure Bool)

/-- `maybe_check`, before its answer. -/
def Check.start (required : Bool) : Check :=
  if required then .running else .skipped

def Check.isRunning : Check → Bool
  | .running => true
  | _ => false

/-- Where a request stands.  A capture keeps the gates it was admitted
under and the readings of its preflight. -/
inductive Phase where
  | arrived
  | admitted
  | checking (session lid : Check)
  | capturing (gates : SecurityGates) (readings : Readings)
  | replied (reply : Except FdoError AuthResult)

structure Request where
  method : Method
  caller : CallerIdentity
  user : String
  phase : Phase

/-- Who holds the handler lock or the capture slot: one of the requests, or
another operation of the daemon. -/
inductive Holder where
  | request (i : Nat)
  | other
  deriving DecidableEq, Repr

/-- The installed gates, the capture slot, the handler lock, and the requests
in the order in which they came. -/
structure Service where
  handler : SecurityGates
  captureSlot : Option Holder
  lockedBy : Option Holder
  requests : List Request

/-! ## Decisions -/

def sessionGate (gates : SecurityGates) (method : Method) (session : Check) :
    Except FdoError Unit :=
  if method.isAuthentication && gates.abortIfSsh then
    match session with
    | .ended (.ok false) => .ok ()
    | _ => .error (.accessDenied processProvenanceDeniedMessage)
  else .ok ()

def Check.isCancelled : Check → Bool
  | .ended (.error .cancelled) => true
  | _ => false

/-- The lid reading that the preflight gets. -/
def lidSourceOf : Check → LidSource
  | .ended (.ok closed) => .resolved closed
  | _ => .unavailable

/-- The environment context of the preflight. -/
def preCheckContextOf (method : Method) (lid : Check) : PreCheckContext :=
  if method.isAuthentication then .daemonAuthenticate (lidSourceOf lid) else .test

/-- What the second locked section does up to the capture: an answer, or
`none` to go on. -/
def lockedDecision (gates : SecurityGates) (method : Method) (session lid : Check)
    (readings : Readings) : Option (Except FdoError AuthResult) :=
  match sessionGate gates method session with
  | .error e => some (.error e)
  | .ok _ =>
    if lid.isCancelled && gates.abortIfLidClosed then
      some (.ok (recoverableAuthError cancelledMessage))
    else
      (preCheckWithContext gates readings (preCheckContextOf method lid)).map fun outcome =>
        .ok (DaemonResponse.ofOutcome outcome).encode

/-! ## Events -/

/-- What can happen.  The answers of the environment are part of the event. -/
inductive Event where
  | arrive (method : Method) (caller : CallerIdentity) (user : String)
  | reload (gates : SecurityGates)
  | otherLocks
  | otherUnlocks
  | otherCaptures
  | otherReleases
  | enter (request : Nat) (ingressAllows : Bool)
  | snapshot (request : Nat)
  | lockFails (request : Nat)
  | answerSession (request : Nat) (result : Except CheckFailure Bool)
  | answerLid (request : Nat) (result : Except CheckFailure Bool)
  | decide (request : Nat) (readings : Readings)
  | finish (request : Nat) (response : DaemonResponse)
  | panic (request : Nat) (text : String)

section Calls

variable (service : Service) (i : Nat) (request : Request)

def Service.setPhase (phase : Phase) : Service :=
  { service with requests := service.requests.set i { request with phase } }

def Service.reply (reply : Except FdoError AuthResult) : Service :=
  service.setPhase i request
    (.replied (reply.map fun result =>
      result.redactSimilarityUnlessRoot (request.caller.uid = 0)))

/-- A request that stops holding the lock and the capture slot. -/
def Service.release : Service :=
  { service with captureSlot := none, lockedBy := none }

/-- The first part of `run_authentication`: nothing shared is touched until
the caller is authorized, has budget and finds the capture slot free. -/
def admitRequest (ingressAllows : Bool) : Service :=
  match authorizeMethod request.caller request.method request.user with
  | .error e => service.reply i request (.error e)
  | .ok _ =>
    if request.method.isAuthentication && request.caller.uid ≠ 0 && !ingressAllows then
      service.reply i request (.ok (recoverableAuthError (ErrorKind.rateLimited.render "")))
    else if service.captureSlot.isSome then
      service.reply i request (.error (busyError request.method.name))
    else service.setPhase i request .admitted

/-- The first locked section: which checks the installed gates require. -/
def snapshotPolicy : Service :=
  let required := request.method.isAuthentication
  service.setPhase i request
    (.checking (.start (required && service.handler.abortIfSsh))
      (.start (required && service.handler.abortIfLidClosed)))

/-- The second locked section.  A request that goes on claims the capture
slot and keeps the lock. -/
def decideRequest (session lid : Check) (readings : Readings) : Service :=
  match lockedDecision service.handler request.method session lid readings with
  | some reply => service.reply i request reply
  | none =>
    if service.captureSlot.isSome then
      service.reply i request (.error (busyError request.method.name))
    else
      { service with
        captureSlot := some (.request i)
        lockedBy := some (.request i) }.setPhase i request (.capturing service.handler readings)

/-- The error of a wait for the lock that ends without it. -/
def lockError : FdoError :=
  if service.captureSlot.isSome then busyError request.method.name else lockTimeoutError

/-- A request in front of one of its two locked sections.  The diagnostic
method has only the second one. -/
def Request.waitsForLock : Bool :=
  match request.phase with
  | .admitted => request.method.isAuthentication
  | .checking session lid => !session.isRunning && !lid.isRunning
  | _ => false

def requestStep : Event → Option Service
  | .enter _ ingressAllows =>
    match request.phase with
    | .arrived => some (admitRequest service i request ingressAllows)
    | _ => none
  | .snapshot _ =>
    match request.phase with
    | .admitted =>
      if request.waitsForLock && service.lockedBy.isSome then none
      else some (snapshotPolicy service i request)
    | _ => none
  | .lockFails _ =>
    if request.waitsForLock && service.lockedBy.isSome then
      some (service.reply i request (.error (lockError service request)))
    else none
  | .answerSession _ result =>
    match request.phase with
    | .checking .running lid => some (service.setPhase i request (.checking (.ended result) lid))
    | _ => none
  | .answerLid _ result =>
    match request.phase with
    | .checking session .running =>
      some (service.setPhase i request (.checking session (.ended result)))
    | _ => none
  | .decide _ readings =>
    match request.phase with
    | .checking session lid =>
      if request.waitsForLock && service.lockedBy.isNone then
        some (decideRequest service i request session lid readings)
      else none
    | _ => none
  | .finish _ response =>
    match request.phase with
    | .capturing _ _ => some (service.release.reply i request (.ok response.encode))
    | _ => none
  | .panic _ text =>
    -- the guards of a task are dropped when it unwinds
    match request.phase with
    | .capturing _ _ =>
      some (service.release.reply i request (.error (.failed ("task join error: " ++ text))))
    | .admitted | .checking _ _ =>
      some (service.reply i request (.error (.failed ("task join error: " ++ text))))
    | _ => none
  | _ => none

end Calls

def Event.request : Event → Option Nat
  | .enter i _ | .snapshot i | .lockFails i | .answerSession i _ | .answerLid i _
  | .decide i _ | .finish i _ | .panic i _ => some i
  | _ => none

/-- One event.  A reload installs the new handler under the handler lock. -/
def step (event : Event) (service : Service) : Option Service :=
  match event with
  | .arrive method caller user =>
    some { service with
      requests := service.requests ++ [{ method, caller, user, phase := .arrived }] }
  | .reload gates =>
    if service.lockedBy = none then some { service with handler := gates } else none
  | .otherLocks =>
    if service.lockedBy = none then some { service with lockedBy := some .other } else none
  | .otherUnlocks =>
    if service.lockedBy = some .other then some { service with lockedBy := none } else none
  | .otherCaptures =>
    if service.captureSlot = none then some { service with captureSlot := some .other } else none
  | .otherReleases =>
    if service.captureSlot = some .other then some { service with captureSlot := none } else none
  | event =>
    event.request.bind fun i =>
      (service.requests[i]?).bind fun request => requestStep service i request event

def initial (gates : SecurityGates) : Service :=
  { handler := gates, captureSlot := none, lockedBy := none, requests := [] }

/-! ## The answers of a run -/

/-- The answers that the session check of a request got. -/
def sessionAnswers (events : List Event) (i : Nat) : List (Except CheckFailure Bool) :=
  events.filterMap fun
    | .answerSession j result => if j = i then some result else none
    | _ => none

/-- The answers that the lid check of a request got. -/
def lidAnswers (events : List Event) (i : Nat) : List (Except CheckFailure Bool) :=
  events.filterMap fun
    | .answerLid j result => if j = i then some result else none
    | _ => none

def Check.answers : Check → List (Except CheckFailure Bool)
  | .ended result => [result]
  | _ => []

@[simp] theorem Check.answers_start (required : Bool) : (Check.start required).answers = [] := by
  cases required <;> rfl

theorem answers_append (past : List Event) (event : Event) (i : Nat) :
    sessionAnswers (past ++ [event]) i = sessionAnswers past i ++ sessionAnswers [event] i ∧
      lidAnswers (past ++ [event]) i = lidAnswers past i ++ lidAnswers [event] i :=
  ⟨filterMap_append, filterMap_append⟩

theorem answers_eq_nil {event i} (h : event.request ≠ some i) :
    sessionAnswers [event] i = [] ∧ lidAnswers [event] i = [] := by
  cases event <;> simp_all [sessionAnswers, lidAnswers, Event.request]

/-- What the lid check may have answered when a capture starts under a
configuration that requires it: that the lid is not closed, or nothing that
settles it, with an open lid in `/proc`. -/
def LidCleared (answers : List (Except CheckFailure Bool)) (readings : Readings) : Prop :=
  answers = [.ok false] ∨
    ((answers = [] ∨ ∃ reason, answers = [.error (.unresolved reason)]) ∧
      readings.procfsLid = .open)

/-- The checks of a request agree with the answers it got. -/
def Traced (session lid : List (Except CheckFailure Bool)) (request : Request) : Prop :=
  match request.phase with
  | .arrived | .admitted => session = [] ∧ lid = []
  | .checking sessionCheck lidCheck => session = sessionCheck.answers ∧ lid = lidCheck.answers
  | .capturing gates readings => request.method.isAuthentication = true →
      (gates.abortIfSsh = true → session = [.ok false]) ∧
        (gates.abortIfLidClosed = true → LidCleared lid readings)
  | .replied _ => True

/-! ## What a decision rests on -/

variable {gates : SecurityGates} {session : Check}

theorem session_of_gate {method} (hmethod : method.isAuthentication = true)
    (hgate : gates.abortIfSsh = true) (h : sessionGate gates method session = .ok ()) :
    session.answers = [.ok false] := by
  simp only [sessionGate, hmethod, hgate, Bool.and_self, if_true] at h
  split at h
  · rfl
  · cases h

variable {lid : Check}

theorem lidCleared_of_gate {readings} (hgate : gates.abortIfLidClosed = true)
    (hcancel : lid.isCancelled = false) (hrun : lid.isRunning = false)
    (h : lidGate gates readings (.daemonAuthenticate (lidSourceOf lid)) = none) :
    LidCleared lid.answers readings := by
  rcases lid_open_of_lidGate hgate h with hsource | ⟨hsource, hopen⟩ | hsource
  · refine .inl ?_
    match lid, hsource with
    | .ended (.ok false), _ => rfl
  · refine .inr ⟨?_, hopen⟩
    match lid, hcancel, hrun with
    | .skipped, _, _ => exact .inl rfl
    | .ended (.error (.unresolved reason)), _, _ => exact .inr ⟨reason, rfl⟩
    | .ended (.ok closed), _, _ => cases hsource
  · match lid, hsource with
    | .ended (.ok _), hsource => cases hsource

/-- A request that the second locked section lets through is checked. -/
theorem traced_of_lockedDecision (request : Request) {readings} (hrun : lid.isRunning = false)
    (h : lockedDecision gates request.method session lid readings = none) :
    Traced session.answers lid.answers { request with phase := .capturing gates readings } := by
  unfold lockedDecision at h
  split at h
  · cases h
  · rename_i hsession
    split_ifs at h with hcancel
    intro hmethod
    refine ⟨fun hgate => session_of_gate hmethod hgate hsession, fun hgate => ?_⟩
    have hpre := lidGate_of_preCheck (Option.map_eq_none_iff.mp h)
    rw [preCheckContextOf, if_pos hmethod] at hpre
    exact lidCleared_of_gate hgate (by simpa [hgate] using hcancel) hrun hpre

/-! ## Steps -/

/-- What a request does in one event. -/
inductive Moves (service : Service) (i : Nat) (request : Request) : Event → Service → Prop
  | replies {event : Event} (reply : Except FdoError AuthResult)
      (hphase : ∀ gates readings, request.phase ≠ .capturing gates readings) :
      Moves service i request event (service.reply i request reply)
  | leaves {event : Event} {gates : SecurityGates} {readings : Readings}
      (reply : Except FdoError AuthResult)
      (hphase : request.phase = .capturing gates readings) :
      Moves service i request event (service.release.reply i request reply)
  | admits (ingressAllows : Bool) (hphase : request.phase = .arrived) :
      Moves service i request (.enter i ingressAllows) (service.setPhase i request .admitted)
  | snapshots (session lid : Bool) (hphase : request.phase = .admitted) :
      Moves service i request (.snapshot i)
        (service.setPhase i request (.checking (.start session) (.start lid)))
  | session {lid : Check} (result : Except CheckFailure Bool)
      (hphase : request.phase = .checking .running lid) :
      Moves service i request (.answerSession i result)
        (service.setPhase i request (.checking (.ended result) lid))
  | lid {session : Check} (result : Except CheckFailure Bool)
      (hphase : request.phase = .checking session .running) :
      Moves service i request (.answerLid i result)
        (service.setPhase i request (.checking session (.ended result)))
  | captures {session lid : Check} (readings : Readings)
      (hphase : request.phase = .checking session lid) (hrun : lid.isRunning = false)
      (hlock : service.lockedBy = none)
      (hdecision : lockedDecision service.handler request.method session lid readings = none) :
      Moves service i request (.decide i readings)
        ({ service with
          captureSlot := some (.request i)
          lockedBy := some (.request i) }.setPhase i request (.capturing service.handler readings))

variable {service next : Service} {i : Nat} {request : Request} {event : Event}

theorem moves_admit (ingressAllows : Bool) (hphase : request.phase = .arrived) :
    Moves service i request (.enter i ingressAllows)
      (admitRequest service i request ingressAllows) := by
  have hreply : ∀ gates readings, request.phase ≠ .capturing gates readings := by
    simp [hphase]
  unfold admitRequest
  split
  · exact .replies _ hreply
  · split_ifs
    · exact .replies _ hreply
    · exact .replies _ hreply
    · exact .admits ingressAllows hphase

theorem moves_decide (readings : Readings) (hphase : request.phase = .checking session lid)
    (hrun : lid.isRunning = false) (hlock : service.lockedBy = none) :
    Moves service i request (.decide i readings)
      (decideRequest service i request session lid readings) := by
  have hreply : ∀ gates readings, request.phase ≠ .capturing gates readings := by
    simp [hphase]
  unfold decideRequest
  split
  · exact .replies _ hreply
  · rename_i hdecision
    split_ifs
    · exact .replies _ hreply
    · exact .captures readings hphase hrun hlock hdecision

theorem moves_of_requestStep (hevent : event.request = some i)
    (h : requestStep service i request event = some next) : Moves service i request event next := by
  cases event <;> cases hevent <;> simp only [requestStep] at h
  case enter ingressAllows =>
    split at h <;> cases h
    exact moves_admit ingressAllows ‹_›
  case snapshot =>
    split at h
    · split_ifs at h
      cases h
      exact .snapshots _ _ ‹_›
    · cases h
  case lockFails =>
    split_ifs at h with hwait
    cases h
    refine .replies _ fun gates readings hphase => ?_
    simp [Request.waitsForLock, hphase] at hwait
  case answerSession result =>
    split at h <;> cases h
    exact .session result ‹_›
  case answerLid result =>
    split at h <;> cases h
    exact .lid result ‹_›
  case decide readings =>
    split at h
    · rename_i session lid hphase
      split_ifs at h with hwait
      cases h
      simp only [Request.waitsForLock, hphase, Bool.and_eq_true, Bool.not_eq_true',
        Option.isNone_iff_eq_none] at hwait
      exact moves_decide readings hphase hwait.1.2 hwait.2
    · cases h
  case finish response =>
    split at h <;> cases h
    exact .leaves _ ‹_›
  case panic text =>
    split at h <;> cases h
    · exact .leaves _ ‹_›
    · exact .replies _ (by simp_all)
    · exact .replies _ (by simp_all)

/-- What one event does: it moves one request, or brings new ones and leaves
the others as they are. -/
theorem step_cases (h : step event service = some next) :
    (∃ i request, event.request = some i ∧ service.requests[i]? = some request ∧
        Moves service i request event next) ∨
      (event.request = none ∧
        (next.handler = service.handler ∧ next.lockedBy = service.lockedBy ∨
          ∀ j, service.lockedBy ≠ some (.request j)) ∧
        ∃ newcomers : List Request, (∀ newcomer ∈ newcomers, newcomer.phase = .arrived) ∧
          next.requests = service.requests ++ newcomers) := by
  cases event with
  | arrive method caller user =>
    cases h
    exact .inr ⟨rfl, .inl ⟨rfl, rfl⟩, _, by simp, rfl⟩
  | reload | otherLocks | otherUnlocks =>
    simp only [step] at h
    split_ifs at h with hlock
    cases h
    exact .inr ⟨rfl, .inr (by simp [hlock]), [], by simp⟩
  | otherCaptures | otherReleases =>
    simp only [step] at h
    split_ifs at h
    cases h
    exact .inr ⟨rfl, .inl ⟨rfl, rfl⟩, [], by simp⟩
  | _ =>
    obtain ⟨request, hget, h⟩ := Option.bind_eq_some_iff.mp h
    exact .inl ⟨_, request, rfl, hget, moves_of_requestStep rfl h⟩

/-- A request that moves keeps its checks in step with its answers. -/
theorem Moves.traced {session lid} (hmove : Moves service i request event next)
    (htraced : Traced session lid request) :
    ∃ moved, next.requests = service.requests.set i moved ∧
      Traced (session ++ sessionAnswers [event] i) (lid ++ lidAnswers [event] i) moved := by
  cases hmove with
  | replies reply hphase | leaves reply hphase => exact ⟨_, rfl, trivial⟩
  | admits ingressAllows hphase | snapshots session lid hphase =>
    refine ⟨_, rfl, ?_⟩
    simp only [Traced, hphase] at htraced
    simp [Traced, htraced, sessionAnswers, lidAnswers]
  | session result hphase | lid result hphase =>
    refine ⟨_, rfl, ?_⟩
    simp only [Traced, hphase] at htraced
    simp [Traced, htraced, sessionAnswers, lidAnswers, Check.answers]
  | captures readings hphase hrun hlock hdecision =>
    refine ⟨_, rfl, ?_⟩
    simp only [Traced, hphase] at htraced
    obtain ⟨rfl, rfl⟩ := htraced
    have hchecked := traced_of_lockedDecision request hrun hdecision
    simpa [sessionAnswers, lidAnswers] using hchecked

/-- A request captures only while it holds the lock, under the gates that are
installed. -/
def Held (service : Service) (i : Nat) (request : Request) : Prop :=
  ∀ gates readings, request.phase = .capturing gates readings →
    service.lockedBy = some (.request i) ∧ service.handler = gates

/-- A request that moves keeps the captures under the lock. -/
theorem Moves.held (hmove : Moves service i request event next)
    (hheld : ∀ (j : Nat) other, service.requests[j]? = some other → Held service j other)
    (hget : service.requests[i]? = some request) {j other}
    (hother : next.requests[j]? = some other) : Held next j other := by
  have hset : ∀ {lockedBy : Service} {phase : Phase},
      lockedBy.requests = service.requests →
      (lockedBy.setPhase i request phase).requests[j]? = some other →
      (i = j ∧ other = { request with phase }) ∨ (i ≠ j ∧ service.requests[j]? = some other) := by
    intro lockedBy phase hsame hother
    rw [Service.setPhase, hsame, getElem?_set] at hother
    split_ifs at hother with hij hlt
    · exact .inl ⟨hij, (Option.some.inj hother).symm⟩
    · exact .inr ⟨hij, hother⟩
  intro gates readings hcapture
  cases hmove with
  | leaves reply hphase =>
    rcases hset rfl hother with ⟨-, rfl⟩ | ⟨hij, hold⟩
    · cases hcapture
    · have hi := (hheld i request hget _ _ hphase).1
      have hj := (hheld j other hold _ _ hcapture).1
      rw [hi] at hj
      cases hj
      exact absurd rfl hij
  | replies reply hphase | admits ingressAllows hphase | snapshots session lid hphase
  | session result hphase | lid result hphase =>
    rcases hset rfl hother with ⟨-, rfl⟩ | ⟨-, hold⟩
    · cases hcapture
    · exact hheld j other hold _ _ hcapture
  | captures readings hphase hrun hlock hdecision =>
    rcases hset rfl hother with ⟨rfl, rfl⟩ | ⟨hij, hold⟩
    · cases hcapture
      exact ⟨rfl, rfl⟩
    · have hj := (hheld j other hold _ _ hcapture).1
      rw [hlock] at hj
      cases hj

/-! ## Runs -/

/-- The invariant of a run with its events. -/
structure Inv (past : List Event) (service : Service) : Prop where
  traced : ∀ (i : Nat) request, service.requests[i]? = some request →
    Traced (sessionAnswers past i) (lidAnswers past i) request
  fresh : ∀ i, service.requests.length ≤ i → sessionAnswers past i = [] ∧ lidAnswers past i = []
  held : ∀ (i : Nat) request, service.requests[i]? = some request → Held service i request

theorem Inv.initial (gates : SecurityGates) : Inv [] (initial gates) where
  traced := by simp [Daemon.initial]
  fresh _ _ := ⟨rfl, rfl⟩
  held := by simp [Daemon.initial]

theorem answers_append_of_ne (past : List Event) {j} (h : event.request ≠ some j) :
    sessionAnswers (past ++ [event]) j = sessionAnswers past j ∧
      lidAnswers (past ++ [event]) j = lidAnswers past j := by
  obtain ⟨hsession, hlid⟩ := answers_eq_nil h
  have happend := answers_append past event j
  rwa [hsession, hlid, append_nil, append_nil] at happend

theorem Inv.moves {past} (h : Inv past service) (hevent : event.request = some i)
    (hget : service.requests[i]? = some request) (hmove : Moves service i request event next) :
    Inv (past ++ [event]) next := by
  obtain ⟨moved, hrequests, hmoved⟩ := hmove.traced (h.traced i request hget)
  have hlt : i < service.requests.length := (List.getElem?_eq_some_iff.mp hget).1
  refine ⟨?_, ?_, fun j other => hmove.held h.held hget⟩
  · intro j other hother
    rw [hrequests, getElem?_set] at hother
    split_ifs at hother with hij
    · cases hother
      subst hij
      rwa [(answers_append ..).1, (answers_append ..).2]
    · have hne : event.request ≠ some j := by
        rw [hevent]
        exact fun hj => hij (Option.some.inj hj)
      obtain ⟨hsession, hlid⟩ := answers_append_of_ne past hne
      rw [hsession, hlid]
      exact h.traced j other hother
  · intro j hj
    rw [hrequests, length_set] at hj
    have hne : event.request ≠ some j := by
      rw [hevent]
      intro hij
      cases hij
      omega
    obtain ⟨hsession, hlid⟩ := answers_append_of_ne past hne
    rw [hsession, hlid]
    exact h.fresh j hj

theorem Inv.step {past} (h : Inv past service)
    (hstep : Daemon.step event service = some next) : Inv (past ++ [event]) next := by
  rcases step_cases hstep with ⟨i, request, hevent, hget, hmove⟩ |
    ⟨hevent, hfree, newcomers, harrived, hrequests⟩
  · exact h.moves hevent hget hmove
  · have hne : ∀ j, event.request ≠ some j := by simp [hevent]
    have hanswers := fun j => answers_append_of_ne past (hne j)
    have hcase : ∀ (j : Nat) other, next.requests[j]? = some other →
        service.requests[j]? = some other ∨
          service.requests.length ≤ j ∧ other.phase = .arrived := by
      intro j other hother
      rw [hrequests, getElem?_append] at hother
      split_ifs at hother
      · exact .inl hother
      · exact .inr ⟨by omega, harrived other (mem_of_getElem? hother)⟩
    refine ⟨?_, ?_, ?_⟩
    · intro j other hother
      rw [(hanswers j).1, (hanswers j).2]
      rcases hcase j other hother with hold | ⟨hle, harrived⟩
      · exact h.traced j other hold
      · simp only [Traced, harrived]
        exact h.fresh j hle
    · intro j hj
      rw [(hanswers j).1, (hanswers j).2]
      rw [hrequests, length_append] at hj
      exact h.fresh j (by omega)
    · intro j other hother gates readings hcapture
      rcases hcase j other hother with hold | ⟨-, harrived⟩
      · have hheld := h.held j other hold gates readings hcapture
        rcases hfree with ⟨hhandler, hlock⟩ | hfree
        · rwa [hlock, hhandler]
        · exact absurd hheld.1 (hfree j)
      · rw [harrived] at hcapture
        cases hcapture

/-- A capture of an authentication runs under the installed handler.  If it
requires the session check, the one answer of that check is that the session
is local.  If it requires the lid check, the check cleared the lid, or the
check has no answer and `/proc` shows an open lid. -/
theorem capture_checked {gates : SecurityGates} {events : List Event} {service : Service}
    (hrun : run step events (initial gates) = some service) {i : Nat} {request : Request}
    (hget : service.requests[i]? = some request)
    (hmethod : request.method.isAuthentication = true) {policy : SecurityGates}
    {readings : Readings} (hcapture : request.phase = .capturing policy readings) :
    service.handler = policy ∧
      (policy.abortIfSsh = true → sessionAnswers events i = [.ok false]) ∧
      (policy.abortIfLidClosed = true → LidCleared (lidAnswers events i) readings) := by
  have hinv : Inv ([] ++ events) service :=
    run_traces (fun _ _ _ _ => Inv.step) (Inv.initial gates) hrun
  have htraced := hinv.traced i request hget
  simp only [Traced, hcapture] at htraced
  exact ⟨(hinv.held i request hget policy readings hcapture).2, htraced hmethod⟩

/-- Readings under which nothing but the lid can refuse. -/
def openLidReadings : Readings where
  isSshSession := false
  procfsLid := .open
  hasModels := .ok true
  rateLimitCheck := .ok true
  irTextureScale := .notY16
  isIr := true

/-- A local login whose lid check gets the answer `lid`, up to its decision. -/
def localLogin (lid : Except CheckFailure Bool) : List Event :=
  [.arrive .authenticate { uid := 1000, username := some "alice" } "alice", .enter 0 true,
    .snapshot 0, .answerSession 0 (.ok false), .answerLid 0 lid, .decide 0 openLidReadings]

/-- The request of such a login while it captures. -/
def capturingLogin : Request where
  method := .authenticate
  caller := { uid := 1000, username := some "alice" }
  user := "alice"
  phase := .capturing {} openLidReadings

/-- The service of such a login while it captures. -/
def capturingService : Service where
  handler := {}
  captureSlot := some (.request 0)
  lockedBy := some (.request 0)
  requests := [capturingLogin]

theorem capture_checked_alice :
    run step (localLogin (.ok false)) (initial {}) = some capturingService ∧
      sessionAnswers (localLogin (.ok false)) 0 = [.ok false] ∧
      LidCleared (lidAnswers (localLogin (.ok false)) 0) openLidReadings := by
  have hrun : run step (localLogin (.ok false)) (initial {}) = some capturingService := rfl
  have h := capture_checked hrun (i := 0) rfl rfl rfl
  exact ⟨hrun, h.2.1 rfl, h.2.2 rfl⟩

/-- The lid check fails, and the capture starts on the fallback to `/proc`. -/
theorem capture_without_lid_answer :
    ∃ events service request policy readings,
      run step events (initial {}) = some service ∧ service.requests[0]? = some request ∧
        request.method.isAuthentication = true ∧ request.phase = .capturing policy readings ∧
        policy.abortIfLidClosed = true ∧ .ok false ∉ lidAnswers events 0 := by
  refine ⟨localLogin (.error (.unresolved "lid state exceeded its 1s deadline")),
    capturingService, capturingLogin, {}, openLidReadings, rfl, rfl, rfl, rfl, rfl, ?_⟩
  intro hmem
  cases hmem with
  | tail _ hrest => cases hrest

end Facelock.Daemon
