import Facelock.Lib.Threads

/-!
# The state of a process that holds the lifecycle lease

`facelock data purge` keeps the daemon stopped while it deletes.  It holds
a lock file, and a barrier file that makes the service manager refuse to
activate the unit.  This module has the state of the process and the calls
on it: the few files that the lease is about, the unit manager, the bus, the
two mutexes that the operation shares with the signal thread, and the clock.

Every call is one atomic step.  What the world answers is the `Choice` of
the step: whether the call fails and with which error, the properties of the
unit, the time, the next signal.  The files are in the state, since the
barrier is created, compared and removed through them.

`Event`s record what the process has done, in order.  A process that has
died has no steps.
-/

namespace Facelock.Lifecycle

open Threads

/-! ## Errors -/

structure IoError where
  code : Nat
  text : String

namespace IoError

def notFound : IoError := ⟨2, "No such file or directory (os error 2)"⟩
def alreadyExists : IoError := ⟨17, "File exists (os error 17)"⟩
def notADirectory : IoError := ⟨20, "Not a directory (os error 20)"⟩
def isADirectory : IoError := ⟨21, "Is a directory (os error 21)"⟩
def notEmpty : IoError := ⟨39, "Directory not empty (os error 39)"⟩
def tooManyLinks : IoError := ⟨40, "Too many levels of symbolic links (os error 40)"⟩

variable (e : IoError)

def isNotFound : Bool := e.code == 2
def isWouldBlock : Bool := e.code == 11
def isAlreadyExists : Bool := e.code == 17
def isNotADirectory : Bool := e.code == 20
def isLoop : Bool := e.code == 40

end IoError

/-- A duration in nanoseconds. -/
abbrev Duration := Nat

def fractionDigits : Nat → Nat → Nat → String
  | 0, _, _ => ""
  | digits + 1, part, divisor =>
    if part = 0 then ""
    else toString (part / divisor) ++ fractionDigits digits (part % divisor) (divisor / 10)

def fmtDecimal (whole part divisor : Nat) (unit : String) : String :=
  toString whole ++ (if part = 0 then "" else "." ++ fractionDigits 9 part divisor) ++ unit

/-- The debug form of a duration. -/
def durationText (duration : Duration) : String :=
  if 1000000000 ≤ duration then
    fmtDecimal (duration / 1000000000) (duration % 1000000000) 100000000 "s"
  else if 1000000 ≤ duration then
    fmtDecimal (duration / 1000000) (duration % 1000000) 100000 "ms"
  else if 1000 ≤ duration then
    fmtDecimal (duration / 1000) (duration % 1000) 100 "µs"
  else fmtDecimal duration 0 1 "ns"

def unitName : String := "facelock-daemon.service"

def busName : String := "org.facelock.Daemon"

inductive LifecycleError where
  | noSystemd (path : String)
  | lockHeld (path : String)
  | untrusted (path reason : String)
  | io (path : String) (source : IoError)
  | activationNotDelegated (path reason : String)
  | unitStateNotAdmissible (state advice : String)
  | controlPathConflict (path reason : String)
  | barrierNotEffective (path loadState : String)
  | daemonNotStopped (state : String) (timeout : Duration)
  | nameStillOwned (timeout : Duration)
  | busUnreachable (detail : String)
  | systemctl (action detail : String)
  | signalArm (source : IoError)
  | restoreIncomplete (text : String)

def LifecycleError.text : LifecycleError → String
  | noSystemd path =>
    "systemd is not the running service manager (" ++ path ++ " is missing); " ++
      "without it D-Bus activation of the daemon cannot be inhibited, refusing to proceed"
  | lockHeld path =>
    "another facelock lifecycle operation holds " ++ path ++ "; wait for it to finish and retry"
  | untrusted path reason => path ++ ": " ++ reason
  | io path source => path ++ ": " ++ source.text
  | activationNotDelegated path reason =>
    path ++ " does not delegate D-Bus activation to systemd (" ++ reason ++ "); " ++
      "a unit mask cannot inhibit direct D-Bus execution, refusing to proceed"
  | unitStateNotAdmissible state advice =>
    unitName ++ " is in state " ++ state ++ "; " ++ advice
  | controlPathConflict path reason =>
    path ++ " exists but is not a facelock activation barrier (" ++ reason ++ "); " ++
      "remove it (then run `systemctl daemon-reload`) or reboot, and retry"
  | barrierNotEffective path loadState =>
    "activation barrier at " ++ path ++ " is not effective: LoadState is " ++ loadState ++
      ", expected masked; check for a higher-priority unit under /etc/systemd/system.control"
  | daemonNotStopped state timeout =>
    unitName ++ " did not reach ActiveState=inactive within " ++ durationText timeout ++
      " (last state " ++ state ++ "); refusing to proceed without a confirmed-stopped daemon"
  | nameStillOwned timeout =>
    busName ++ " still has an owner on the system bus after " ++ durationText timeout ++
      "; a daemon outside systemd's control is running — stop it, then retry"
  | busUnreachable detail =>
    "system bus is unreachable (" ++ detail ++ "); cannot confirm the daemon released its " ++
      "bus name, refusing to proceed"
  | systemctl action detail => "systemctl " ++ action ++ " failed: " ++ detail
  | signalArm source =>
    "could not arm signal-safe restore (" ++ source.text ++ "); refusing to hold the lease " ++
      "without it"
  | restoreIncomplete text => "lifecycle restore incomplete: " ++ text

/-! ## Files -/

inductive FileKind where
  | directory
  | regular
  | symlink
  | other
  deriving DecidableEq, Repr

structure Metadata where
  kind : FileKind
  nlink : Nat
  len : Nat
  mode : Nat
  uid : Nat
  gid : Nat

/-- The bits of a mode that can be set. -/
def Metadata.permissions (info : Metadata) : Nat := info.mode &&& 0o7777

/-- A file is known by its number, which stands for device and inode. -/
structure Disk where
  names : List (String × Nat)
  files : Nat → Metadata
  contents : Nat → String
  /-- The number of the next file. -/
  next : Nat

namespace Disk

def lookup (disk : Disk) (path : String) : Option Nat :=
  (disk.names.find? fun entry => entry.1 == path).map Prod.snd

def add (disk : Disk) (path : String) (info : Metadata) : Disk :=
  { disk with
    names := (path, disk.next) :: disk.names
    files := fun file => if file = disk.next then info else disk.files file
    contents := fun file => if file = disk.next then "" else disk.contents file
    next := disk.next + 1 }

def drop (disk : Disk) (path : String) : Disk :=
  { disk with names := disk.names.filter fun entry => entry.1 != path }

def chmod (disk : Disk) (file mode : Nat) : Disk :=
  { disk with
    files := fun other =>
      if other = file then { disk.files file with mode } else disk.files other }

/-- An entry lies in the directory. -/
def inside (directory path : String) : Bool :=
  (directory.toList ++ ['/']).isPrefixOf path.toList

end Disk

inductive OpenFlags where
  | readOnly
  | readWrite
  | directory
  deriving DecidableEq, Repr

/-- `open` with `O_NOFOLLOW`. -/
def Disk.openNofollow (disk : Disk) (path : String) (flags : OpenFlags) : Except IoError Nat :=
  match disk.lookup path with
  | none => .error .notFound
  | some file =>
    match (disk.files file).kind, flags with
    | .directory, .readWrite => .error .isADirectory
    | .directory, _ => .ok file
    | _, .directory => .error .notADirectory
    | .symlink, _ => .error .tooManyLinks
    | _, _ => .ok file

/-! ## The lease -/

structure LifecycleLayout where
  base : String
  expectedOwner : Nat × Nat

namespace LifecycleLayout

variable (layout : LifecycleLayout)

def resolve (relative : String) : String :=
  if layout.base.endsWith "/" then layout.base ++ relative else layout.base ++ "/" ++ relative

def systemdMarker : String := layout.resolve "run/systemd/system"
def lockDir : String := layout.resolve "run/facelock"
def lockPath : String := layout.resolve "run/facelock/lifecycle.lock"
def controlDir : String := layout.resolve "run/systemd/system.control"

def barrierPath : String :=
  layout.resolve "run/systemd/system.control/facelock-daemon.service"

def activationDefinitionPaths : List String :=
  ["etc/dbus-1/system-services/org.facelock.Daemon.service",
    "run/dbus-1/system-services/org.facelock.Daemon.service",
    "usr/local/share/dbus-1/system-services/org.facelock.Daemon.service",
    "usr/share/dbus-1/system-services/org.facelock.Daemon.service",
    "lib/dbus-1/system-services/org.facelock.Daemon.service"].map layout.resolve

end LifecycleLayout

structure UnitProperties where
  loadState : String
  activeState : String
  unitFileState : String

structure BarrierGuard where
  file : Nat
  path : String
  createdControlDir : Bool

/-- What a restore needs.  The exit path that takes it runs the restore. -/
structure RestoreState where
  layout : LifecycleLayout
  barrier : Option BarrierGuard
  restart : Bool

inductive RestoreMode where
  | full
  | leaveBarred
  deriving DecidableEq, Repr

/-! ## The process -/

inductive Thread where
  | operation
  | signal
  /-- Other processes, which may change the files at any time. -/
  | outside
  deriving DecidableEq, Repr

/-- What the process did.  A thread is named where both can do it. -/
inductive Event where
  | stopped
  | leased
  | acquired
  | deleted
  | engineEnded
  | finished
  | received (signal : Nat)
  | waited (acknowledged : Bool)
  | took (thread : Thread)
  | restoring (thread : Thread) (mode : RestoreMode)
  | unlinked (thread : Thread) (path : String)
  | reloaded (thread : Thread)
  | started (thread : Thread)
  | unlocked (thread : Thread)
  | terminated
  deriving DecidableEq, Repr

structure State where
  disk : Disk
  /-- The restore state of the lease, which the exit paths share. -/
  slot : Option RestoreState
  slotOwner : Option Thread
  finished : Bool
  gateOwner : Option Thread
  interrupted : Bool
  /-- The signal thread runs. -/
  armed : Bool
  /-- The handle of the signal stream was closed. -/
  closed : Bool
  /-- The signal thread has ended. -/
  exited : Bool
  alive : Bool
  history : List Event

/-- How a step of the engine ends. -/
inductive EngineStep where
  | more
  | returned
  | unwound
  deriving DecidableEq, Repr

/-- What the world answers in a step. -/
structure Choice where
  failure : Option IoError := none
  /-- The error of the unit manager, or of the bus. -/
  refusal : Option LifecycleError := none
  shown : UnitProperties := ⟨"masked", "inactive", "enabled"⟩
  owned : Bool := false
  isDir : Bool := true
  /-- The mode that the umask leaves to a new file. -/
  mode : Nat := 0o100600
  now : Nat := 0
  /-- The signal that arrives, if the thread does not see the stream closed. -/
  signal : Option Nat := none
  engine : EngineStep := .more
  kills : Bool := true
  /-- What another process makes of the names. -/
  names : List (String × Nat) := []

abbrev Step := Code State Choice

abbrev Fallible := ExceptT LifecycleError Step

/-! ## Calls -/

def act {α : Type} (f : Choice → State → Option (α × State)) : Step α :=
  .atomic fun choice state => if state.alive then f choice state else none

def State.record (state : State) (event : Event) : State :=
  { state with history := state.history ++ [event] }

def record (event : Event) : Step Unit := act fun _ state => some ((), state.record event)

def State.onDisk {α : Type} (f : Choice → Disk → Except IoError (α × Disk)) (choice : Choice)
    (state : State) : Except IoError α × State :=
  match choice.failure with
  | some e => (.error e, state)
  | none =>
    match f choice state.disk with
    | .ok (value, disk) => (.ok value, { state with disk })
    | .error e => (.error e, state)

def onDisk {α : Type} (f : Choice → Disk → Except IoError (α × Disk)) : Step (Except IoError α) :=
  act fun choice state => some (state.onDisk f choice)

section

variable (path : String) (thread : Thread)

def createDir (owner : Nat × Nat) : Step (Except IoError Unit) :=
  onDisk fun choice disk =>
    match disk.lookup path with
    | some _ => .error .alreadyExists
    | none => .ok ((), disk.add path
        { kind := .directory, nlink := 2, len := 0, mode := choice.mode, uid := owner.1,
          gid := owner.2 })

def openNofollow (path : String) (flags : OpenFlags) : Step (Except IoError Nat) :=
  onDisk fun _ disk => (disk.openNofollow path flags).map fun file => (file, disk)

/-- `O_CREAT | O_EXCL`. -/
def createNew (owner : Nat × Nat) : Step (Except IoError Nat) :=
  onDisk fun choice disk =>
    match disk.lookup path with
    | some _ => .error .alreadyExists
    | none => .ok (disk.next, disk.add path
        { kind := .regular, nlink := 1, len := 0, mode := choice.mode, uid := owner.1,
          gid := owner.2 })

def metadata (file : Nat) : Step (Except IoError Metadata) :=
  onDisk fun _ disk => .ok (disk.files file, disk)

def setPermissions (file mode : Nat) : Step (Except IoError Unit) :=
  onDisk fun _ disk => .ok ((), disk.chmod file mode)

def readToString (file : Nat) : Step (Except IoError String) :=
  onDisk fun _ disk => .ok (disk.contents file, disk)

/-- The number of the file that a name is bound to. -/
def symlinkMetadata : Step (Except IoError Nat) :=
  onDisk fun _ disk =>
    match disk.lookup path with
    | none => .error .notFound
    | some file => .ok (file, disk)

def flock : Step (Except IoError Unit) := onDisk fun _ disk => .ok ((), disk)

def removeDir : Step (Except IoError Unit) :=
  onDisk fun _ disk =>
    if disk.names.any fun entry => Disk.inside path entry.1 then .error .notEmpty
    else .ok ((), disk.drop path)

def isDir (_path : String) : Step Bool := act fun choice state => some (choice.isDir, state)

/-- The unlink is recorded whether it succeeds or not. -/
def removeFile (path : String) : Step (Except IoError Unit) :=
  act fun choice state =>
    some ((state.record (.unlinked thread path)).onDisk (fun _ disk =>
      match disk.lookup path with
      | none => .error .notFound
      | some _ => .ok ((), disk.drop path)) choice)

/-- The answer of the unit manager or of the bus. -/
def Choice.answer {α : Type} (choice : Choice) (value : α) : Except LifecycleError α :=
  match choice.refusal with
  | some e => .error e
  | none => .ok value

def unitShow : Step (Except LifecycleError UnitProperties) :=
  act fun choice state => some (choice.answer choice.shown, state)

def daemonReload : Step (Except LifecycleError Unit) :=
  act fun choice state => some (choice.answer (), state.record (.reloaded thread))

def unitStop : Step (Except LifecycleError Unit) :=
  act fun choice state => some (choice.answer (), state.record .stopped)

def unitStart : Step (Except LifecycleError Unit) :=
  act fun choice state => some (choice.answer (), state.record (.started thread))

end

def daemonNameHasOwner : Step (Except LifecycleError Bool) :=
  act fun choice state => some (choice.answer choice.owned, state)

def instantNow : Step Nat := act fun choice state => some (choice.now, state)

end Facelock.Lifecycle
