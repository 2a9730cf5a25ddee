import Facelock.Requests.Lease
import Facelock.Lib.Transition

/-!
# The poll loop of the daemon

`poll_shutdown` of `crates/facelock-daemon/src/server.rs` looks at the
handler four times a second.  It returns once a shutdown was requested, and
otherwise closes a camera whose warm hold is over.  The handler is behind a
mutex that it shares with the requests, the suspend watcher and the live
reload of the configuration.

A history is a list of events: requests that take the mutex, serve and
release it, or unwind while they hold it, and everything else that happens
to the handler.  A request that unwinds poisons the mutex for good.  The
requests, the watcher and the reload all recover a poisoned mutex, and the
poll loop takes it for one that is in use.  So after one panic it neither
sees a shutdown nor closes a camera.  A reload puts a new handler in the
place of the old one, and a shutdown that was requested on the old one is
forgotten.

`step_fields` says once what an event does to the fields that outlast it.
`Recorded` ties the mutex and the flag to the history.  The first result says
for every history what a tick that finds the mutex free does.  The second is
about every tick.  The time of the last activity is stamped where a request
comes in, and not while it is served, so the poll returns in the middle of a
request that takes as long as the idle timeout.
-/

namespace Facelock.Requests

open Facelock.Crash Facelock.Transition

/-! ## The mutex -/

/-- The daemon as far as the poll loop and the handler are concerned. -/
structure Daemon where
  handler : Handler
  held : Bool
  poisoned : Bool
  /-- In seconds. -/
  lastActivity : Nat
  /-- Whether `poll_shutdown` has returned. -/
  exited : Bool

inductive TryLockError where
  | poisoned (inner : Handler)
  | wouldBlock

namespace Daemon

def tryLock (daemon : Daemon) : Except TryLockError Handler :=
  if daemon.held then .error .wouldBlock
  else if daemon.poisoned then .error (.poisoned daemon.handler)
  else .ok daemon.handler

/-- The three sites that recover a poisoned mutex, once it is free. -/
def lockRecovering (daemon : Daemon) : Option Handler :=
  match daemon.tryLock with
  | .ok handler => some handler
  | .error (.poisoned inner) => some inner
  | .error .wouldBlock => none

/-! ## Polling -/

/-- `poll_shutdown` returns.  The server returns with it, and the handler is
dropped with its camera. -/
def exit (daemon : Daemon) : Daemon :=
  { daemon with
    exited := true
    handler := { daemon.handler with lease := { daemon.handler.lease with camera := none } } }

def idleReached (idleTimeoutSecs nowSecs : Nat) (daemon : Daemon) : Bool :=
  decide (0 < idleTimeoutSecs) && decide (idleTimeoutSecs ≤ nowSecs - daemon.lastActivity)

/-- One turn of the loop, with its two readings of the clock. -/
def pollTick (idleTimeoutSecs nowSecs now : Nat) (daemon : Daemon) : Daemon :=
  if daemon.idleReached idleTimeoutSecs nowSecs then daemon.exit
  else
    match daemon.tryLock with
    | .ok handler =>
      if handler.shutdownRequested then daemon.exit
      else { daemon with handler := handler.expireCamera now }
    | .error _ => daemon

end Daemon

/-! ## Histories -/

inductive Event where
  /-- A method call stores `last_activity`. -/
  | activity (nowSecs : Nat)
  /-- A request gets the mutex. -/
  | lock
  /-- The request that has the mutex is handled. -/
  | serve (request : DaemonRequest) (answers : Answers)
  /-- The request gives the mutex back, and is answered. -/
  | unlock
  /-- The request that has the mutex panics after some changes. -/
  | unwind (request : DaemonRequest) (answers : Answers) (changes : Nat)
  /-- The suspend watcher. -/
  | suspend (answers : Answers)
  /-- A rebuilt handler is swapped in. -/
  | reload (device : DeviceConfig) (factory : Bool) (warmupFramesOverride : Option Nat)
  | tick (nowSecs now : Nat)

def served (request : DaemonRequest) (answers : Answers) (handler : Handler) : Handler :=
  ((Handler.handleWithCancel answers request).run handler).final

def liveStep (idleTimeoutSecs : Nat) (daemon : Daemon) : Event → Option Daemon
  | .activity nowSecs => some { daemon with lastActivity := nowSecs }
  | .lock => daemon.lockRecovering.map fun handler =>
      { daemon with handler := handler, held := true }
  | .serve request answers =>
    if daemon.held then some { daemon with handler := served request answers daemon.handler }
    else none
  | .unlock => if daemon.held then some { daemon with held := false } else none
  | .unwind request answers changes =>
    if daemon.held then
      some { daemon with
        handler := ((Handler.handleWithCancel answers request).run daemon.handler).cut changes
        held := false
        poisoned := true }
    else none
  | .suspend answers => daemon.lockRecovering.map fun handler =>
      { daemon with handler := served .releaseCamera answers handler }
  | .reload device factory warmupFramesOverride => daemon.lockRecovering.map fun _ =>
      { daemon with handler := Handler.new device factory warmupFramesOverride }
  | .tick nowSecs now => some (daemon.pollTick idleTimeoutSecs nowSecs now)

/-- Nothing happens after the exit. -/
def step (idleTimeoutSecs : Nat) (event : Event) (daemon : Daemon) : Option Daemon :=
  if daemon.exited then none else liveStep idleTimeoutSecs daemon event

/-- The daemon when it starts to poll. -/
def started (device : DeviceConfig) (factory : Bool) (warmupFramesOverride : Option Nat)
    (nowSecs : Nat) : Daemon :=
  { handler := Handler.new device factory warmupFramesOverride
    held := false
    poisoned := false
    lastActivity := nowSecs
    exited := false }

/-! ## What a history leaves behind -/

def Event.unwinds : Event → Bool
  | .unwind _ _ _ => true
  | _ => false

/-- Whether a shutdown is requested after one more event. -/
def pendingAfter (pending : Bool) : Event → Bool
  | .serve .shutdown _ => true
  | .reload _ _ _ => false
  | _ => pending

/-- A shutdown was served, and the handler was not replaced since. -/
def shutdownPending (events : List Event) : Bool :=
  events.foldl pendingAfter false

def stampAfter (stamp : Nat) : Event → Nat
  | .activity nowSecs => nowSecs
  | _ => stamp

/-- When a method call last stored `last_activity`, or the start. -/
def lastStamp (startedSecs : Nat) (events : List Event) : Nat :=
  events.foldl stampAfter startedSecs

theorem shutdownPending_append (events : List Event) (event : Event) :
    shutdownPending (events ++ [event]) = pendingAfter (shutdownPending events) event := by
  rw [shutdownPending, List.foldl_append]
  rfl

theorem served_shutdownRequested (request : DaemonRequest) (answers : Answers) (handler : Handler) :
    (served request answers handler).shutdownRequested =
      (decide (request = .shutdown) || handler.shutdownRequested) := by
  by_cases hrequest : request = .shutdown
  · subst hrequest
    rfl
  · have hkeeps := Handler.handleWithCancel_keeps answers hrequest handler
      (show Handler.Flagged handler.shutdownRequested handler from rfl)
    rw [decide_eq_false hrequest, Bool.false_or]
    exact hkeeps.post_final

/-- What the fields of the daemon say about its history. -/
structure Recorded (events : List Event) (daemon : Daemon) : Prop where
  poisoned : daemon.poisoned = events.any Event.unwinds
  pending : daemon.poisoned = false →
    daemon.handler.shutdownRequested = shutdownPending events

variable {daemon : Daemon}

theorem Daemon.tryLock_eq_ok {handler} (h : daemon.tryLock = .ok handler) :
    handler = daemon.handler := by
  unfold Daemon.tryLock at h
  split_ifs at h
  cases h
  rfl

theorem Daemon.lockRecovering_eq_some {handler} (h : daemon.lockRecovering = some handler) :
    handler = daemon.handler := by
  cases hheld : daemon.held <;> cases hpoisoned : daemon.poisoned <;>
    simp_all [Daemon.lockRecovering, Daemon.tryLock]

theorem Daemon.pollTick_fields (idleTimeoutSecs nowSecs now : Nat) (daemon : Daemon) :
    let next := daemon.pollTick idleTimeoutSecs nowSecs now
    next.lastActivity = daemon.lastActivity ∧ next.poisoned = daemon.poisoned ∧
      next.handler.shutdownRequested = daemon.handler.shutdownRequested := by
  unfold Daemon.pollTick
  split
  · exact ⟨rfl, rfl, rfl⟩
  · split
    · rename_i handler hlock
      obtain rfl := Daemon.tryLock_eq_ok hlock
      split <;> exact ⟨rfl, rfl, rfl⟩
    · exact ⟨rfl, rfl, rfl⟩

variable {idleTimeoutSecs : Nat}

theorem Daemon.pollTick_exited (hlive : daemon.exited = false) {nowSecs now} :
    (daemon.pollTick idleTimeoutSecs nowSecs now).exited =
      (daemon.idleReached idleTimeoutSecs nowSecs ||
        (!daemon.held && !daemon.poisoned && daemon.handler.shutdownRequested)) := by
  unfold Daemon.pollTick Daemon.tryLock
  cases daemon.idleReached idleTimeoutSecs nowSecs with
  | true => rfl
  | false =>
    cases daemon.held with
    | true => exact hlive
    | false =>
      cases daemon.poisoned with
      | true => exact hlive
      | false => cases hflag : daemon.handler.shutdownRequested <;> simp [hflag, hlive, Daemon.exit]

theorem step_fields {event next} (hstep : step idleTimeoutSecs event daemon = some next) :
    next.lastActivity = stampAfter daemon.lastActivity event ∧
      next.poisoned = (daemon.poisoned || event.unwinds) ∧
      (event.unwinds = false → next.handler.shutdownRequested =
        pendingAfter daemon.handler.shutdownRequested event) := by
  unfold step at hstep
  split at hstep
  · cases hstep
  cases event with
  | activity nowSecs =>
    cases hstep
    exact ⟨rfl, (Bool.or_false _).symm, fun _ => rfl⟩
  | lock | suspend =>
    obtain ⟨handler, hlock, rfl⟩ := Option.map_eq_some_iff.mp hstep
    obtain rfl := Daemon.lockRecovering_eq_some hlock
    exact ⟨rfl, (Bool.or_false _).symm, fun _ => rfl⟩
  | serve request answers =>
    simp only [liveStep] at hstep
    split_ifs at hstep
    cases hstep
    refine ⟨rfl, (Bool.or_false _).symm, fun _ => ?_⟩
    rw [served_shutdownRequested]
    cases request <;> rfl
  | unlock =>
    simp only [liveStep] at hstep
    split_ifs at hstep
    cases hstep
    exact ⟨rfl, (Bool.or_false _).symm, fun _ => rfl⟩
  | unwind request answers changes =>
    simp only [liveStep] at hstep
    split_ifs at hstep
    cases hstep
    exact ⟨rfl, (Bool.or_true _).symm, fun h => by cases h⟩
  | reload device factory warmupFramesOverride =>
    obtain ⟨handler, hlock, rfl⟩ := Option.map_eq_some_iff.mp hstep
    exact ⟨rfl, (Bool.or_false _).symm, fun _ => rfl⟩
  | tick nowSecs now =>
    cases hstep
    obtain ⟨hstamp, hpoisoned, hflag⟩ :=
      Daemon.pollTick_fields idleTimeoutSecs nowSecs now daemon
    exact ⟨hstamp, hpoisoned.trans (Bool.or_false _).symm, fun _ => hflag⟩

variable {events : List Event}

theorem Recorded.step {event next} (h : Recorded events daemon)
    (hstep : step idleTimeoutSecs event daemon = some next) :
    Recorded (events ++ [event]) next := by
  obtain ⟨-, hpoisoned, hflag⟩ := step_fields hstep
  constructor
  · rw [hpoisoned, h.poisoned, List.any_append]
    simp
  · intro hclean
    obtain ⟨hbefore, hunwinds⟩ := Bool.or_eq_false_iff.mp (hpoisoned.symm.trans hclean)
    rw [hflag hunwinds, h.pending hbefore, shutdownPending_append]

variable {device : DeviceConfig} {factory : Bool} {warmupFramesOverride : Option Nat}
  {startedSecs : Nat}

theorem recorded (hrun : run (step idleTimeoutSecs) events
      (started device factory warmupFramesOverride startedSecs) = some daemon) :
    Recorded events daemon := by
  have hstarted : Recorded [] (started device factory warmupFramesOverride startedSecs) :=
    ⟨rfl, fun _ => rfl⟩
  exact run_traces (fun _ _ _ _ h hstep => h.step hstep) hstarted hrun

/-- The clock of the last activity is the one of the history. -/
def Stamped (startedSecs : Nat) (events : List Event) (daemon : Daemon) : Prop :=
  daemon.lastActivity = lastStamp startedSecs events

theorem stamped (hrun : run (step idleTimeoutSecs) events
      (started device factory warmupFramesOverride startedSecs) = some daemon) :
    Stamped startedSecs events daemon := by
  have hstarted : Stamped startedSecs []
      (started device factory warmupFramesOverride startedSecs) := rfl
  refine run_traces ?_ hstarted hrun
  intro past event daemon next hdaemon hstep
  unfold Stamped at hdaemon ⊢
  rw [(step_fields hstep).1, hdaemon, lastStamp, lastStamp, List.foldl_append]
  rfl

/-! ## Ticks -/

/-- At a tick that finds the mutex free, poll returns exactly if the daemon
is idle, or nothing has panicked and a shutdown was served on the handler
that is installed.  A camera whose hold is over is closed exactly if the
daemon is idle, or nothing has panicked. -/
theorem poll_tick_iff {idleTimeoutSecs : Nat} {device : DeviceConfig} {factory : Bool}
    {warmupFramesOverride : Option Nat} {startedSecs : Nat} {events : List Event}
    {daemon : Daemon}
    (hrun : run (step idleTimeoutSecs) events
      (started device factory warmupFramesOverride startedSecs) = some daemon)
    (hlive : daemon.exited = false) (hfree : daemon.held = false) (nowSecs now : Nat) :
    ((daemon.pollTick idleTimeoutSecs nowSecs now).exited = true ↔
      daemon.idleReached idleTimeoutSecs nowSecs = true ∨
        (∀ event ∈ events, event.unwinds = false) ∧ shutdownPending events = true) ∧
    (∀ deadline, daemon.handler.lease.camera.isSome = true →
      daemon.handler.lease.deadline = some deadline → deadline ≤ now →
      ((daemon.pollTick idleTimeoutSecs nowSecs now).handler.lease.camera = none ↔
        daemon.idleReached idleTimeoutSecs nowSecs = true ∨
          ∀ event ∈ events, event.unwinds = false)) := by
  obtain ⟨hpoisoned, hpending⟩ := recorded hrun
  have hclean : (∀ event ∈ events, event.unwinds = false) ↔ daemon.poisoned = false := by
    rw [hpoisoned, List.any_eq_false]
    simp
  rw [hclean]
  unfold Daemon.pollTick Daemon.tryLock
  rw [hfree]
  cases hidle : daemon.idleReached idleTimeoutSecs nowSecs with
  | true =>
    simp only [if_true, true_or, iff_true]
    exact ⟨rfl, fun _ _ _ _ => rfl⟩
  | false =>
    simp only [Bool.false_eq_true, if_false, false_or]
    cases hstate : daemon.poisoned with
    | true =>
      -- the loop takes the poisoned mutex for one in use
      simp only [if_true, Bool.true_eq_false, false_and, iff_false]
      refine ⟨by simp [hlive], fun deadline hopen _ _ hnone => ?_⟩
      rw [hnone] at hopen
      cases hopen
    | false =>
      simp only [Bool.false_eq_true, if_false, true_and, iff_true]
      rw [← hpending hstate]
      cases hflag : daemon.handler.shutdownRequested with
      | true =>
        simp only [if_true, iff_true]
        exact ⟨rfl, fun _ _ _ _ => rfl⟩
      | false =>
        simp only [Bool.false_eq_true, if_false, iff_false, Bool.not_eq_true]
        refine ⟨hlive, fun deadline _ hdeadline hpassed => ?_⟩
        have hover : (daemon.handler.lease.deadline.any fun deadline =>
            decide (deadline ≤ now)) = true := by
          rw [hdeadline]
          simp [hpassed]
        simp [Handler.expireCamera, CameraLease.expire, hover]

/-- At every tick, whatever is being served then, the poll goes on exactly
if the last method call came in less than the idle timeout ago, and a
shutdown is not seen: a request holds the handler, one has panicked, or none
was served on the handler that is installed. -/
theorem poll_tick_while_served (htimeout : 0 < idleTimeoutSecs)
    (hrun : run (step idleTimeoutSecs) events
      (started device factory warmupFramesOverride startedSecs) = some daemon)
    (hlive : daemon.exited = false) (nowSecs now : Nat) :
    (daemon.pollTick idleTimeoutSecs nowSecs now).exited = false ↔
      nowSecs < lastStamp startedSecs events + idleTimeoutSecs ∧
        (daemon.held = true ∨ (∃ event ∈ events, event.unwinds = true) ∨
          shutdownPending events = false) := by
  have hstamp : daemon.lastActivity = lastStamp startedSecs events := stamped hrun
  obtain ⟨hpoisoned, hpending⟩ := recorded hrun
  have hidle : daemon.idleReached idleTimeoutSecs nowSecs = false ↔
      nowSecs < lastStamp startedSecs events + idleTimeoutSecs := by
    simp only [Daemon.idleReached, htimeout, decide_true, Bool.true_and, decide_eq_false_iff_not]
    omega
  rw [Daemon.pollTick_exited hlive, Bool.or_eq_false_iff, hidle]
  refine and_congr_right fun _ => ?_
  rw [← List.any_eq_true, ← hpoisoned]
  cases hheld : daemon.held with
  | true => simp
  | false =>
    cases hstate : daemon.poisoned with
    | true => simp
    | false => simp [← hpending hstate]

/-! ## Runs -/

/-- Answers of a request that reaches the camera and does not match. -/
def unmatched : Answers :=
  { cancelled := false
    opened := .ok { irTextureScale := .notY16, pendingSettleFrames := 0 }
    discards := fun _ => (false, .ok ())
    cancelledAfter := false
    preflight := none
    keyRestored := false
    plaintextRefusal := none
    sealerRefusal := none
    bindingRefusal := none
    store := .ok ()
    embeddings := .ok ()
    captured := .ok ()
    processed := true
    encoded := .ok ()
    devices := .ok ()
    authenticated := .authResult
      { matched := false, modelId := none, label := none, similarity := ⟨0⟩
        faceDetected := true, failureReason := none }
    enrolled := .cancelled
    now := fromSecs 1 }

/-- The daemon with its default holds, after some events. -/
def afterEvents (events : List Event) : Option Daemon :=
  run (step 0) events
    (started { warmupFrames := 5, cameraReleaseSecs := 3, cameraReleaseAfterSuccessSecs := 0 }
      true none 0)

/-- The same with an idle timeout, and a request that came in after ten
seconds and has gone through some events since. -/
def inRequest (idleTimeoutSecs : Nat) (events : List Event) : Option Daemon :=
  run (step idleTimeoutSecs) (.activity 10 :: events)
    (started { warmupFrames := 5, cameraReleaseSecs := 3, cameraReleaseAfterSuccessSecs := 0 }
      true none 0)

/-- A request that takes the mutex, is served and gives it back. -/
def request (request : DaemonRequest) : List Event :=
  [.lock, .serve request unmatched, .unlock]

/-- After a failed login and a shutdown, the tick returns. -/
theorem poll_tick_iff_shutdown :
    ∃ daemon, afterEvents (request (.authenticate "alice") ++ request .shutdown) = some daemon ∧
      (daemon.pollTick 0 10 (fromSecs 100)).exited = true := by
  have hrun : (afterEvents (request (.authenticate "alice") ++ request .shutdown)).map
      (fun daemon => (daemon.exited, daemon.held)) = some (false, false) := by decide +kernel
  obtain ⟨daemon, hdaemon, hfields⟩ := Option.map_eq_some_iff.mp hrun
  obtain ⟨hlive, hfree⟩ : daemon.exited = false ∧ daemon.held = false := by simpa using hfields
  refine ⟨daemon, hdaemon, (poll_tick_iff hdaemon hlive hfree 10 (fromSecs 100)).1.mpr (.inr ?_)⟩
  exact ⟨by decide +kernel, by decide +kernel⟩

/-- After a panic, a tick neither sees a shutdown nor closes a camera whose
hold ended 96 seconds ago.  After a reload, it does not see the shutdown. -/
theorem poll_tick_misses :
    let panic : List Event := [.lock, .unwind (.authenticate "alice") unmatched 2]
    (afterEvents (panic ++ request .shutdown)).map (fun daemon =>
        (daemon.held, (daemon.pollTick 0 10 (fromSecs 100)).exited)) = some (false, false) ∧
      (afterEvents (panic ++ request (.authenticate "alice"))).map (fun daemon =>
          (daemon.held, daemon.handler.lease.deadline,
            (daemon.pollTick 0 10 (fromSecs 100)).handler.lease.camera.isSome)) =
        some (false, some (fromSecs 4), true) ∧
      (afterEvents (request .shutdown ++
          [.reload { warmupFrames := 5, cameraReleaseSecs := 3
                     cameraReleaseAfterSuccessSecs := 0 } true none])).map (fun daemon =>
          (daemon.held, (daemon.pollTick 0 10 (fromSecs 100)).exited)) = some (false, false) := by
  decide +kernel

/-- With a timeout of a minute, a request that came in at 10 s and has not
got the mutex yet is not interrupted at 69 s. -/
theorem poll_tick_while_served_minute :
    ∃ daemon, inRequest 60 [] = some daemon ∧ daemon.held = false ∧
      (daemon.pollTick 60 69 (fromSecs 69)).exited = false := by
  have hrun : (inRequest 60 []).map (fun daemon => (daemon.exited, daemon.held)) =
      some (false, false) := by decide +kernel
  obtain ⟨daemon, hdaemon, hfields⟩ := Option.map_eq_some_iff.mp hrun
  obtain ⟨hlive, hfree⟩ : daemon.exited = false ∧ daemon.held = false := by simpa using hfields
  refine ⟨daemon, hdaemon, hfree, ?_⟩
  exact (poll_tick_while_served (by decide) hdaemon hlive 69 (fromSecs 69)).mpr
    ⟨by decide, .inr (.inr rfl)⟩

/-- With a timeout of five seconds the poll returns at 15 s while the request
that came in at 10 s is still served, with the mutex or without it. -/
theorem poll_tick_interrupts :
    ([[.lock], []] : List (List Event)).map (fun events => (inRequest 5 events).map fun daemon =>
      (daemon.exited, daemon.held, (daemon.pollTick 5 15 (fromSecs 15)).exited)) =
        [some (false, true, true), some (false, false, true)] := by
  decide +kernel

end Facelock.Requests
