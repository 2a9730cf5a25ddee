import Facelock.Lifecycle.System

/-!
# The lifecycle lease

The functions of the lease, under their names.  `acquire` takes the lock,
proves that activation goes through the service manager, creates or adopts
the barrier, and stops the daemon.  Then it puts the restore state into the
slot that all exit paths share, and arms the signal thread.  `restore` is
the way back.  It is run by the exit path that finds the slot filled.

The signal thread raises the interrupt flag and waits for the operation to
acknowledge.  The wait is the loop of `Condvar::wait_timeout_while`.  How
often it wakes up, how often a poll repeats, and how many deletions the
engine makes, are arguments: nothing depends on them.

A guard of a mutex is dropped at the end of its scope, and the lease is
dropped at the end of `release`, so these steps are written out here.
-/

namespace Facelock.Lifecycle

open Threads

/-! ## Restore -/

variable (thread : Thread)

/-- Only an entry that still is the held file is unlinked. -/
def removeBarrier (barrier : BarrierGuard) : Step (Except String Unit) := do
  match ← metadata barrier.file with
  | .error e => return .error (barrier.path ++ ": " ++ e.text)
  | .ok _ =>
    match ← symlinkMetadata barrier.path with
    | .error e =>
      if e.isNotFound then return .ok () else return .error (barrier.path ++ ": " ++ e.text)
    | .ok onDisk =>
      if onDisk ≠ barrier.file then
        return .error (barrier.path ++ " was replaced while the lease was held; left in place")
      else
        match ← removeFile thread barrier.path with
        | .error e => return .error (barrier.path ++ ": " ++ e.text)
        | .ok () => return .ok ()

variable (layout : LifecycleLayout)

/-- The errors of the reload, and of the proof that the mask is gone. -/
def reloadUnmasked : Step (List String) := do
  match ← daemonReload thread with
  | .error e => return ["daemon-reload after barrier removal: " ++ e.text]
  | .ok () =>
    match ← unitShow with
    | .error e => return ["could not verify unmasking: " ++ e.text]
    | .ok props =>
      if props.loadState = "masked" then
        return [unitName ++ " is still masked after barrier removal; check " ++
          layout.controlDir ++ " and /etc/systemd/system.control"]
      else return []

/-- Only an empty directory goes away. -/
def removeCreatedDir (created : Bool) : Step Unit :=
  if created then do
    let _ ← removeDir layout.controlDir
  else pure ()

def restoreBarrier (barrier : BarrierGuard) : Step (List String) := do
  let removed ← removeBarrier thread barrier
  removeCreatedDir layout barrier.createdControlDir
  let errors ← reloadUnmasked thread layout
  match removed with
  | .error reason => return reason :: errors
  | .ok () => return errors

def restartUnit (restart : Bool) : Step (List String) := do
  if restart then
    match ← unitStart thread with
    | .error e => return ["could not restart " ++ unitName ++ ": " ++ e.text]
    | .ok () => return []
  else return []

/-- The errors of a restore. -/
def restoreSteps (state : RestoreState) : RestoreMode → Step (List String)
  | .full =>
    match state.barrier with
    | some barrier => do
      let errors ← restoreBarrier thread state.layout barrier
      let restarted ← restartUnit thread state.restart
      return errors ++ restarted
    | none => restartUnit thread state.restart
  | .leaveBarred => return []

/-- Every step is made even if an earlier one fails.  The lock is released
last. -/
def restore (state : RestoreState) (mode : RestoreMode) : Step (Except LifecycleError Unit) := do
  record (.restoring thread mode)
  let errors ← restoreSteps thread state mode
  record (.unlocked thread)
  if errors = [] then return .ok ()
  else return .error (.restoreIncomplete ("; ".intercalate errors))

/-! ## The slot and the gate -/

def lockSlot : Step Unit :=
  act fun _ state =>
    if state.slotOwner = none then some ((), { state with slotOwner := some thread }) else none

def unlockSlot : Step Unit := act fun _ state => some ((), { state with slotOwner := none })

def takeSlot : Step (Option RestoreState) :=
  act fun _ state =>
    match state.slot with
    | none => some (none, state)
    | some staged => some (some staged, { state with slot := none }.record (.took thread))

def takeRestore : Step (Option RestoreState) := do
  lockSlot thread
  let staged ← takeSlot thread
  unlockSlot
  return staged

/-- An exit path restores if it got hold of the restore state. -/
def restoreTaken (mode : RestoreMode) :
    Option RestoreState → Step (Except LifecycleError Unit)
  | none => return .ok ()
  | some staged => restore thread staged mode

def lockGate : Step Unit :=
  act fun _ state =>
    if state.gateOwner = none then some ((), { state with gateOwner := some thread }) else none

def unlockGate : Step Unit := act fun _ state => some ((), { state with gateOwner := none })

/-- A waiting thread may wake up at any time, so `notify_all` is no step. -/
def markFinished : Step Unit := do
  lockGate .operation
  act fun _ state => some ((), { state with finished := true }.record .finished)
  unlockGate

def readFinished : Step Bool := act fun _ state => some (state.finished, state)

/-- The loop of `wait_timeout_while`, with the gate locked. -/
def awaitFinished (timeout start : Nat) : Nat → Step Unit
  | 0 => .asleep
  | wakeups + 1 => do
    if ← readFinished then return ()
    let now ← instantNow
    if timeout < now - start then return ()
    unlockGate
    lockGate .signal
    awaitFinished timeout start wakeups

def waitFinished (timeout : Duration) (wakeups : Nat) : Step Bool := do
  lockGate .signal
  let start ← instantNow
  awaitFinished timeout start wakeups
  let finished ← act fun _ state => some (state.finished, state.record (.waited state.finished))
  unlockGate
  return finished

/-! ## The signal thread -/

/-- The thread exists once it was armed. -/
def spawned : Step Unit := act fun _ state => if state.armed then some ((), state) else none

/-- The next signal, or the end of the stream once its handle was closed. -/
def nextSignal : Step (Option Nat) :=
  act fun choice state =>
    match choice.signal with
    | some signal => some (some signal, state.record (.received signal))
    | none => if state.closed then some (none, state) else none

def raiseInterrupt : Step Unit := act fun _ state => some ((), { state with interrupted := true })

/-- The default handler ends the process, unless it cannot be run. -/
def terminate : Step Unit :=
  act fun choice state =>
    if choice.kills then some ((), { state with alive := false }.record .terminated)
    else some ((), state)

def exitThread : Step Unit := act fun _ state => some ((), { state with exited := true })

def handleSignal (ackTimeout : Duration) (wakeups : Nat) : Step Unit := do
  raiseInterrupt
  let acknowledged ← waitFinished ackTimeout wakeups
  let staged ← takeRestore .signal
  let _ ← restoreTaken .signal (if acknowledged then .full else .leaveBarred) staged
  terminate

def signalThread (ackTimeout : Duration) (wakeups : Nat) : Step Unit := do
  spawned
  match ← nextSignal with
  | none => exitThread
  | some _ => do
    handleSignal ackTimeout wakeups
    exitThread

/-- Spawning the thread, or registering the signals, may fail. -/
def armWatch : Step (Except IoError Unit) :=
  act fun choice state =>
    some (match choice.failure with
      | some e => (.error e, state)
      | none => (.ok (), { state with armed := true }))

def closeHandle : Step Unit := act fun _ state => some ((), { state with closed := true })

def joinThread : Step Unit := act fun _ state => if state.exited then some ((), state) else none

/-- The watch is dropped afterwards, which closes the handle once more. -/
def disarm : Step Unit := do
  closeHandle
  joinThread
  closeHandle

/-! ## Acquisition -/

def octal (n : Nat) : String := String.ofList (Nat.toDigits 8 n)

variable (path : String)

/-- The outcome of an I/O call at a path. -/
def orIo {α : Type} (call : Step (Except IoError α)) : Fallible α :=
  .mk do
    match ← call with
    | .ok value => return .ok value
    | .error e => return .error (.io path e)

def refuseIf (condition : Bool) (error : LifecycleError) : Fallible Unit :=
  .mk (pure (if condition then .error error else .ok ()))

def doIf (condition : Bool) (call : Fallible Unit) : Fallible Unit :=
  if condition then call else pure ()

def openTrustedDir (created : Bool) (expectedOwner : Nat × Nat) : Fallible Unit := do
  let dir ← orIo path (openNofollow path .directory)
  let info ← orIo path (metadata dir)
  doIf (created && info.permissions != 0o755) (orIo path (setPermissions dir 0o755))
  let info ← orIo path (metadata dir)
  refuseIf ((info.uid, info.gid) != expectedOwner)
    (.untrusted path ("directory owner is " ++ toString info.uid ++ ":" ++
      toString info.gid ++ ", expected " ++ toString expectedOwner.1 ++ ":" ++
      toString expectedOwner.2))
  refuseIf (info.permissions != 0o755)
    (.untrusted path ("directory mode is " ++ octal info.permissions ++ ", expected 0755"))

/-- Whether the directory was created by this call. -/
def ensureDir (owner : Nat × Nat) : Fallible Bool :=
  .mk do
    match ← createDir path owner with
    | .ok () => return .ok true
    | .error e => if e.isAlreadyExists then return .ok false else return .error (.io path e)

/-- The identity of the lock and of the barrier. -/
def isPrivateFile (info : Metadata) (expectedOwner : Nat × Nat) : Bool :=
  info.kind == .regular && info.nlink == 1 && info.len == 0 && info.permissions == 0o600 &&
    (info.uid, info.gid) == expectedOwner

def openLock : Fallible (Nat × Bool) :=
  .mk do
    match ← openNofollow layout.lockPath .readWrite with
    | .ok file => return .ok (file, false)
    | .error e =>
      if e.isNotFound then
        match ← createNew layout.lockPath layout.expectedOwner with
        | .ok file => return .ok (file, true)
        | .error e => return .error (.io layout.lockPath e)
      else if e.isLoop then return .error (.untrusted layout.lockPath "is a symlink")
      else return .error (.io layout.lockPath e)

def takeFlock : Fallible Unit :=
  .mk do
    match ← flock with
    | .ok () => return .ok ()
    | .error e =>
      if e.isWouldBlock then return .error (.lockHeld layout.lockPath)
      else return .error (.io layout.lockPath e)

def acquireLifecycleLock : Fallible Unit := do
  let createdDir ← ensureDir layout.lockDir layout.expectedOwner
  openTrustedDir layout.lockDir createdDir layout.expectedOwner
  let (lock, createdLock) ← openLock layout
  let info ← orIo layout.lockPath (metadata lock)
  doIf (createdLock && info.permissions != 0o600)
    (orIo layout.lockPath (setPermissions lock 0o600))
  let info ← orIo layout.lockPath (metadata lock)
  refuseIf (!isPrivateFile info layout.expectedOwner)
    (.untrusted layout.lockPath "is not the expected zero-byte single-link mode-0600 lock file")
  takeFlock layout
  let onDisk ← orIo layout.lockPath (symlinkMetadata layout.lockPath)
  refuseIf (onDisk != lock) (.untrusted layout.lockPath "was replaced during acquisition")

/-- Largest activation definition that is read. -/
def activationMaxBytes : Nat := 65536

/-- What the lease is acquired with.  `delegates` is the grammar of an
activation definition; it gives the reason of a refusal. -/
structure Setup where
  layout : LifecycleLayout
  stopTimeout : Duration
  busTimeout : Duration
  signalAckTimeout : Duration
  armSignals : Bool
  delegates : String → Option String

/-- Whether there is a definition to look at. -/
def openDefinition : Fallible (Option Nat) :=
  .mk do
    match ← openNofollow path .readOnly with
    | .ok file => return .ok (some file)
    | .error e =>
      if e.isNotFound || e.isNotADirectory then return .ok none
      else if e.isLoop then return .error (.untrusted path "is a symlink")
      else return .error (.io path e)

variable (setup : Setup)

def verifyDefinition (path : String) (file : Nat) : Fallible Unit := do
  let info ← orIo path (metadata file)
  refuseIf (info.kind != .regular) (.untrusted path "is not a regular file")
  refuseIf ((info.uid, info.gid) != setup.layout.expectedOwner)
    (.untrusted path "has an unexpected owner")
  refuseIf (info.mode &&& 0o022 != 0) (.untrusted path "is group- or world-writable")
  refuseIf (activationMaxBytes < info.len) (.untrusted path "is larger than 64 KiB")
  let text ← orIo path (readToString file)
  match setup.delegates text with
  | some reason => throw (.activationNotDelegated path reason)
  | none => return ()

def verifyActivationDelegation (setup : Setup) : List String → Fallible Unit
  | [] => return ()
  | path :: paths => do
    match ← openDefinition path with
    | none => verifyActivationDelegation setup paths
    | some file => do
      verifyDefinition setup path file
      verifyActivationDelegation setup paths

inductive ControlEntry where
  | absent
  | stale (file : Nat)

def openControl : Fallible (Option Nat) :=
  .mk do
    match ← openNofollow path .readWrite with
    | .ok file => return .ok (some file)
    | .error e =>
      if e.isNotFound || e.isNotADirectory then return .ok none
      else if e.isLoop then return .error (.controlPathConflict path "it is a symlink")
      else return .error (.io path e)

def probeControlPath : Fallible ControlEntry := do
  let path := layout.barrierPath
  match ← openControl path with
  | none => return .absent
  | some file =>
    let info ← orIo path (metadata file)
    if isPrivateFile info layout.expectedOwner then return .stale file
    else
      throw (.controlPathConflict path ("found " ++
        (if info.kind = .regular then "a regular file" else "a non-regular object") ++ " of " ++
        toString info.len ++ " bytes, mode " ++ octal info.permissions ++ ", owner " ++
        toString info.uid ++ ":" ++ toString info.gid))

def createBarrierFile (owner : Nat × Nat) : Fallible Nat :=
  .mk do
    match ← createNew path owner with
    | .ok file => return .ok file
    | .error e =>
      if e.isAlreadyExists then
        return .error
          (.controlPathConflict path "it appeared while the barrier was being created")
      else return .error (.io path e)

def createBarrier : Fallible BarrierGuard := do
  let createdControlDir ← ensureDir layout.controlDir layout.expectedOwner
  openTrustedDir layout.controlDir createdControlDir layout.expectedOwner
  let path := layout.barrierPath
  let file ← createBarrierFile path layout.expectedOwner
  let info ← orIo path (metadata file)
  doIf (info.permissions != 0o600) (orIo path (setPermissions file 0o600))
  let info ← orIo path (metadata file)
  refuseIf (!isPrivateFile info layout.expectedOwner)
    (.untrusted path "created barrier lost its identity")
  return { file, path, createdControlDir }

/-- Which states of the unit the lease can be taken in. -/
def admitProps (props : UnitProperties) (adoptedStaleBarrier : Bool) :
    Except LifecycleError Unit := do
  if props.loadState = "loaded" ∨ props.loadState = "not-found" then pure ()
  else if props.loadState = "masked" then
    if adoptedStaleBarrier then pure ()
    else
      throw (.unitStateNotAdmissible "masked"
        ("the unit is masked outside facelock's control; " ++
          "inspect /run/systemd/system.control and " ++
          "/etc/systemd/system.control for a foreign " ++
          "control-tier file and remove it, then run " ++
          "`systemctl daemon-reload` and retry (`systemctl " ++
          "unmask` clears an /etc mask symlink, not a " ++
          "control-tier mask)"))
  else
    throw (.unitStateNotAdmissible props.loadState
      "unrecognized LoadState; resolve the unit's state, then retry")
  if props.activeState = "active" ∨ props.activeState = "inactive" then pure ()
  else if props.activeState = "failed" then
    throw (.unitStateNotAdmissible "failed"
      ("run `systemctl reset-failed " ++ unitName ++ "`, then retry"))
  else
    throw (.unitStateNotAdmissible props.activeState
      "wait for the transition to settle, then retry")

def clock : Fallible Nat := .mk do
  let now ← instantNow
  return .ok now

def waitUntilInactive (timeout deadline : Nat) : Nat → Fallible Unit
  | 0 => .mk .asleep
  | polls + 1 => do
    let props ← .mk unitShow
    if props.activeState = "inactive" then return ()
    let now ← clock
    refuseIf (deadline ≤ now) (.daemonNotStopped props.activeState timeout)
    waitUntilInactive timeout deadline polls

def waitUntilNameReleased (timeout deadline : Nat) : Nat → Fallible Unit
  | 0 => .mk .asleep
  | polls + 1 => do
    let owned ← .mk daemonNameHasOwner
    if !owned then return ()
    let now ← clock
    refuseIf (deadline ≤ now) (.nameStillOwned timeout)
    waitUntilNameReleased timeout deadline polls

/-- A barrier that an interrupted operation left is adopted. -/
def prepareBarrier : Fallible (Bool × BarrierGuard) := do
  verifyActivationDelegation setup setup.layout.activationDefinitionPaths
  let entry ← probeControlPath setup.layout
  let props ← .mk unitShow
  match entry with
  | .stale file =>
    .mk (pure (admitProps props true))
    return (props.activeState = "active",
      { file, path := setup.layout.barrierPath, createdControlDir := false })
  | .absent =>
    .mk (pure (admitProps props false))
    let barrier ← createBarrier setup.layout
    return (props.activeState = "active", barrier)

def proveMasked : Fallible Unit := do
  .mk (daemonReload .operation)
  let shown ← .mk unitShow
  refuseIf (shown.loadState != "masked")
    (.barrierNotEffective layout.barrierPath shown.loadState)

def stopDaemon (active : Bool) (polls : Nat) : Fallible Unit := do
  doIf active (.mk unitStop)
  let now ← clock
  waitUntilInactive setup.stopTimeout (now + setup.stopTimeout) polls
  let now ← clock
  waitUntilNameReleased setup.busTimeout (now + setup.busTimeout) polls

/-- The state that a rollback starts from is returned also with an error.
The restart is noted before the stop. -/
def stage (polls : Nat) : Step (RestoreState × Except LifecycleError Unit) := do
  let staged : RestoreState := { layout := setup.layout, barrier := none, restart := false }
  match ← (prepareBarrier setup).run with
  | .error e => return (staged, .error e)
  | .ok (active, barrier) =>
    let staged := { staged with barrier := some barrier }
    match ← (proveMasked setup.layout).run with
    | .error e => return (staged, .error e)
    | .ok () =>
      let result ← (stopDaemon setup active polls).run
      return ({ staged with restart := active }, result)

/-! ## The lease -/

/-- What the operation holds: whether its signal watch is armed. -/
structure Lease where
  signals : Bool

variable (lease : Lease)

def disarmSignals : Step Unit :=
  if lease.signals then disarm else pure ()

/-- The end of the lease's life. -/
def dropLease : Step Unit := do
  markFinished
  disarmSignals lease
  let staged ← takeRestore .operation
  let _ ← restoreTaken .operation .full staged

def fillSlot (staged : RestoreState) : Step Unit :=
  act fun _ state => some ((), { state with slot := some staged }.record .leased)

/-- Without its signal watch there is no lease. -/
def armSignalsWith : Step (Except LifecycleError Unit) := do
  match ← armWatch with
  | .ok () => return .ok ()
  | .error e =>
    let staged ← takeRestore .operation
    let _ ← restoreTaken .operation .full staged
    return .error (.signalArm e)

def hold (staged : RestoreState) : Step (Except LifecycleError Lease) := do
  fillSlot staged
  if setup.armSignals then
    match ← armSignalsWith with
    | .error e =>
      dropLease { signals := false }
      return .error e
    | .ok () =>
      record .acquired
      return .ok { signals := true }
  else
    record .acquired
    return .ok { signals := false }

def acquire (polls : Nat) : Step (Except LifecycleError Lease) := do
  let marker := setup.layout.systemdMarker
  if !(← isDir marker) then return .error (.noSystemd marker)
  match ← (acquireLifecycleLock setup.layout).run with
  | .error e => return .error e
  | .ok () =>
    match ← stage setup polls with
    | (staged, .error e) =>
      let _ ← restore .operation staged .full
      return .error e
    | (staged, .ok ()) => hold setup staged

def markOperationFinished : Step Unit := markFinished

def release : Step (Except LifecycleError Unit) := do
  markFinished
  disarmSignals lease
  let staged ← takeRestore .operation
  let result ← restoreTaken .operation .full staged
  dropLease { signals := false }
  return result

def releaseLeavingActivationBarred : Step (Except LifecycleError String) := do
  markFinished
  disarmSignals lease
  let staged ← takeRestore .operation
  let restored ← restoreTaken .operation .leaveBarred staged
  dropLease { signals := false }
  match staged with
  | none => return .error (.restoreIncomplete "lease was already released")
  | some staged => return restored.map fun _ => staged.layout.barrierPath

/-! ## The operation -/

/-- The engine looks at the interrupt flag in front of every deletion.
The result says whether it returned or unwound. -/
def engine : Nat → Step Bool
  | 0 => return true
  | deletions + 1 => do
    if ← act fun _ state => some (state.interrupted, state) then return true
    match ← act fun choice state => some (choice.engine, state.record .deleted) with
    | .more => engine deletions
    | .returned => return true
    | .unwound => return false

/-- How the holder gives the lease up. -/
inductive Exit where
  | release
  | releaseLeavingActivationBarred
  | drop
  deriving DecidableEq, Repr

def giveUp : Exit → Step Unit
  | .release => do
    let _ ← release lease
  | .releaseLeavingActivationBarred => do
    let _ ← releaseLeavingActivationBarred lease
  | .drop => dropLease lease

/-- A panic of the engine unwinds through the lease. -/
def useLease (exit : Exit) (deletions : Nat) : Step Unit := do
  let returned ← engine deletions
  record .engineEnded
  if returned then
    markOperationFinished
    giveUp lease exit
  else dropLease lease

/-- How many times each loop may run. -/
structure Bounds where
  polls : Nat
  wakeups : Nat
  deletions : Nat

def operation (bounds : Bounds) (exit : Exit) : Step Unit := do
  match ← acquire setup bounds.polls with
  | .error _ => return ()
  | .ok lease => useLease lease exit bounds.deletions

/-- Other processes rename and replace files. -/
def otherProcesses : Nat → Step Unit
  | 0 => return ()
  | changes + 1 => do
    act fun choice state =>
      some ((), { state with disk := { state.disk with names := choice.names } })
    otherProcesses changes

/-! ## The process -/

def State.start (disk : Disk) : State :=
  { disk, slot := none, slotOwner := none, finished := false, gateOwner := none,
    interrupted := false, armed := false, closed := false, exited := false, alive := true,
    history := [] }

def threads (bounds : Bounds) (changes : Nat) (main : Step Unit) :
    Thread → Step Unit
  | .operation => main
  | .signal => signalThread setup.signalAckTimeout bounds.wakeups
  | .outside => otherProcesses changes

/-- The process at its start, with `main` as the program of its first
thread. -/
def process (bounds : Bounds) (changes : Nat) (main : Step Unit) (disk : Disk) :
    Pool Thread State Choice :=
  { threads := threads setup bounds changes main, state := .start disk }

end Facelock.Lifecycle
