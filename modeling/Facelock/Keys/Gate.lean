import Facelock.Keys.Setup

/-!
# Processes in front of one missing key

Any number of processes run `ensure_encrypt_by_default_key` of
`crates/facelock-daemon/src/key_policy.rs` at once, with the method
`keyfile`, while enrollments commit.  The fast path looks at the key path
without a lock.  Everything else happens in an exclusive section of the
database, which also keeps enrollments out: the second look, the question
for encrypted rows, and `create_key_file_exclusive` of
`crates/facelock-tpm/src/sealing.rs`, which writes the key under a staged
name and renames it.  A process may be killed between any two steps, and
the section ends with it.

`Caller.Fits` says what a process may rely on at each point.  Only the one
in the section relies on something that others could change.
-/

namespace Facelock.Keys

open Facelock.Templates Facelock.Transition

/-! ## Steps -/

/-- Where a call stands.  The first four have not got a decision from the
path or the rows yet.  A staged file has some bytes of its key. -/
inductive Caller where
  | starting
  | waiting
  | inspecting
  | checking
  | creating
  | staging (key : Key) (written : Nat)
  | publishing (key : Key) (written : Nat)
  | syncing
  | leaving (decision : KeyfileDecision)
  | returned (decision : KeyfileDecision)
  | killed
  deriving DecidableEq, Repr

structure Callers where
  store : FaceStore
  keyFile : KeyFile
  /-- The process in the exclusive section. -/
  holder : Option Nat
  callers : List Caller

/-- What can happen.  A failure comes with the refusal that it leads to. -/
inductive GateEvent where
  | call
  | fastPath (caller : Nat) (fails : Bool)
  | lock (caller : Nat) (failure : Option String)
  | advance (caller : Nat) (failure : Option String) (random : Key) (count : Nat)
  | leave (caller : Nat) (failure : Option String)
  | kill (caller : Nat)
  | enroll (user label : String) (blobs : List Blob) (sealed : Bool)
      (deviceId keyId : Option String)

section

variable (paths : KeyPaths) (store : FaceStore) (keyFile : KeyFile)

/-- What the rename gives the key path: the staged file, with the bytes that
were written to it. -/
def stagedFile (key : Key) (written : Nat) : KeyFile :=
  if written = 32 then .holds key else .malformed written

/-- The next step in the section: the key file and the caller after it.  A
write takes no more than what is left of the 32 bytes. -/
def decideStep (random : Key) (count : Nat) : Caller → Option (KeyFile × Caller)
  | .inspecting => some (keyFile, match keyFile with
    | .symlink => .leaving (.refused (symlinkKeyRefusal paths.keyPath))
    | .absent => .checking
    | .holds _ | .malformed _ => .leaving .present)
  | .checking => some (keyFile, match Templates.keyCreationRefusal store paths with
    | some refusal => .leaving (.refused refusal)
    | none => .creating)
  | .creating => some (keyFile,
    if keyFile = .symlink then .leaving (.refused (symlinkKeyRefusal paths.keyPath))
    else .staging random 0)
  | .staging key written =>
    let written := written + min count (32 - written)
    some (keyFile, if written < 32 then .staging key written else .publishing key written)
  | .publishing key written => some (match keyFile with
    -- `RENAME_NOREPLACE`
    | .absent => (stagedFile key written, .syncing)
    | _ => (keyFile, .leaving .present))
  | .syncing => some (keyFile, .leaving .created)
  | _ => none

/-- One step in the section.  A call that fails refuses the caller. -/
def advanceCaller (failure : Option String) (random : Key) (count : Nat) (caller : Caller) :
    Option (KeyFile × Caller) :=
  (decideStep paths store keyFile random count caller).map fun decided =>
    match failure with
    | some reason => (keyFile, .leaving (.refused reason))
    | none => decided

/-- The look without a lock. -/
def fastPath : Caller :=
  match keyFile with
  | .holds _ | .malformed _ => .returned .present
  | .absent | .symlink => .waiting

def gateStep (event : GateEvent) (state : Callers) : Option Callers :=
  match event with
  | .call => some { state with callers := state.callers ++ [.starting] }
  | .fastPath i fails =>
    if state.callers[i]? = some .starting then
      some { state with
        callers := state.callers.set i (if fails then .waiting else fastPath state.keyFile) }
    else none
  | .lock i failure =>
    if state.callers[i]? = some .waiting then
      if state.holder = none && failure.isNone then
        some { state with callers := state.callers.set i .inspecting, holder := some i }
      else failure.map fun reason =>
        { state with callers := state.callers.set i (.returned (.refused reason)) }
    else none
  | .advance i failure random count =>
    if state.holder = some i then
      (state.callers[i]?).bind fun caller =>
        (advanceCaller paths state.store state.keyFile failure random count caller).map
          fun moved =>
            { state with keyFile := moved.1, callers := state.callers.set i moved.2 }
    else none
  | .leave i failure =>
    match state.callers[i]? with
    | some (.leaving decision) =>
      if state.holder = some i then
        some { state with
          callers := state.callers.set i (.returned (failure.elim decision .refused))
          holder := none }
      else none
    | _ => none
  | .kill i =>
    match state.callers[i]? with
    | none | some (.returned _) => none
    | some _ =>
      some { state with
        callers := state.callers.set i .killed
        holder := if state.holder = some i then none else state.holder }
  | .enroll user label blobs sealed deviceId keyId =>
    if state.holder = none then
      some { state with
        store := (state.store.replaceModelWithEmbeddings user label blobs sealed deviceId
          keyId).toOption.getD state.store }
    else none

/-! ## What a process may rely on -/

/-- No stored row has an encrypted shape. -/
def RowsClear : Prop :=
  ∀ row ∈ store.embeddings, row.blob.isSoftwareEncrypted = false ∧ row.blob.isSealed = false

def IsFile : Prop := keyFile ≠ .absent ∧ keyFile ≠ .symlink

/-- The caller may go on and read the key. -/
def Ready (decision : KeyfileDecision) : Prop := decision = .created ∨ decision = .present

def Caller.Fits (state : Callers) (i : Nat) : Caller → Prop
  | .starting | .waiting | .killed => True
  | .inspecting => state.holder = some i
  | .checking => state.holder = some i ∧ state.keyFile = .absent
  | .creating => state.holder = some i ∧ state.keyFile = .absent ∧ RowsClear state.store
  | .staging _ written =>
    (state.holder = some i ∧ state.keyFile = .absent ∧ RowsClear state.store) ∧ written < 32
  | .publishing _ written =>
    (state.holder = some i ∧ state.keyFile = .absent ∧ RowsClear state.store) ∧ written = 32
  | .syncing => state.holder = some i ∧ IsFile state.keyFile
  | .leaving decision => state.holder = some i ∧ (Ready decision → IsFile state.keyFile)
  | .returned decision => Ready decision → IsFile state.keyFile

section Rely

variable {paths : KeyPaths} {state next : Callers} {i : Nat} {caller : Caller}

/-- A file stays, and nobody else changes anything for the process in the
section. -/
theorem Caller.Fits.mono (h : caller.Fits state i)
    (hkept : IsFile state.keyFile → IsFile next.keyFile)
    (hsection : state.holder = some i →
      next.holder = some i ∧ next.keyFile = state.keyFile ∧ next.store = state.store) :
    caller.Fits next i := by
  cases caller with
  | starting | waiting | killed => trivial
  | inspecting => exact (hsection h).1
  | checking =>
    obtain ⟨hholder, hkey, -⟩ := hsection h.1
    exact ⟨hholder, hkey.trans h.2⟩
  | creating =>
    obtain ⟨hholder, hkey, hstore⟩ := hsection h.1
    exact ⟨hholder, hkey.trans h.2.1, hstore ▸ h.2.2⟩
  | staging key written | publishing key written =>
    obtain ⟨hholder, hkey, hstore⟩ := hsection h.1.1
    exact ⟨⟨hholder, hkey.trans h.1.2.1, hstore ▸ h.1.2.2⟩, h.2⟩
  | syncing => exact ⟨(hsection h.1).1, hkept h.2⟩
  | leaving decision => exact ⟨(hsection h.1).1, fun hready => hkept (h.2 hready)⟩
  | returned decision => exact fun hready => hkept (h hready)

def Sound (state : Callers) : Prop :=
  ∀ i (caller : Caller), state.callers[i]? = some caller → caller.Fits state i

/-- What a step does to the key path: nothing, or a complete key appears
while no row is encrypted. -/
def Appears (state next : Callers) : Prop :=
  next.keyFile = state.keyFile ∨
    state.keyFile = .absent ∧ (∃ key, next.keyFile = .holds key) ∧
      RowsClear state.store ∧ next.store = state.store

theorem Appears.isFile (h : Appears state next) (hfile : IsFile state.keyFile) :
    IsFile next.keyFile := by
  rcases h with heq | ⟨habsent, -⟩
  · rwa [heq]
  · exact (hfile.1 habsent).elim

/-- One process moves, and the section is its own or is not touched. -/
theorem Sound.move (h : Sound state) (hcallers : next.callers = state.callers.set i caller)
    (happears : Appears state next)
    (hsection : ∀ j, j ≠ i → state.holder = some j →
      next.holder = some j ∧ next.keyFile = state.keyFile ∧ next.store = state.store)
    (hfits : caller.Fits next i) : Sound next := by
  intro j other hother
  rw [hcallers, List.getElem?_set] at hother
  split_ifs at hother with heq hlength
  · cases hother
    exact heq ▸ hfits
  · exact (h j other hother).mono happears.isFile (hsection j (Ne.symm heq))

theorem Sound.set (h : Sound state) (hfits : caller.Fits state i) :
    Sound { state with callers := state.callers.set i caller } :=
  h.move rfl (Or.inl rfl) (fun _ _ hj => ⟨hj, rfl, rfl⟩)
    (hfits.mono id fun hi => ⟨hi, rfl, rfl⟩)

theorem of_ready_refused {reason} {p : Prop} (h : Ready (.refused reason)) : p := by
  rcases h with h | h <;> cases h

theorem decideStep_fits {random count keyFile moved callers} (hfits : caller.Fits state i)
    (h : decideStep paths state.store state.keyFile random count caller = some (keyFile, moved)) :
    Appears state { state with keyFile, callers } ∧
      moved.Fits { state with keyFile, callers } i := by
  cases caller with
  | starting | waiting | leaving decision | returned decision | killed => cases h
  | inspecting =>
    obtain ⟨rfl, rfl⟩ := Prod.mk.inj (Option.some.inj h)
    refine ⟨Or.inl rfl, ?_⟩
    cases hkey : state.keyFile with
    | symlink => exact ⟨hfits, of_ready_refused⟩
    | absent => exact ⟨hfits, rfl⟩
    | holds key => exact ⟨hfits, fun _ => by simp [IsFile]⟩
    | malformed length => exact ⟨hfits, fun _ => by simp [IsFile]⟩
  | checking =>
    obtain ⟨rfl, rfl⟩ := Prod.mk.inj (Option.some.inj h)
    refine ⟨Or.inl rfl, ?_⟩
    cases hrefusal : Templates.keyCreationRefusal state.store paths with
    | some refusal => exact ⟨hfits.1, of_ready_refused⟩
    | none =>
      refine ⟨hfits.1, hfits.2, fun row hrow => ?_⟩
      exact unencrypted_of_no_risk (Option.map_eq_none_iff.mp hrefusal) hrow
  | creating =>
    obtain ⟨rfl, rfl⟩ := Prod.mk.inj (Option.some.inj h)
    have hlink : state.keyFile ≠ .symlink := by simp [hfits.2.1]
    rw [if_neg hlink]
    exact ⟨Or.inl rfl, hfits, Nat.zero_lt_succ 31⟩
  | staging key written =>
    obtain ⟨rfl, rfl⟩ := Prod.mk.inj (Option.some.inj h)
    obtain ⟨hsection, hlt⟩ := hfits
    refine ⟨Or.inl rfl, ?_⟩
    split
    · next hless => exact ⟨hsection, hless⟩
    · next hmore => exact ⟨hsection, by omega⟩
  | publishing key written =>
    -- All bytes are written.  The look in the section still holds, so the
    -- rename does not find a file.
    obtain ⟨⟨hholder, habsent, hclear⟩, rfl⟩ := hfits
    rw [habsent] at h
    obtain ⟨rfl, rfl⟩ := Prod.mk.inj (Option.some.inj h)
    exact ⟨Or.inr ⟨habsent, ⟨key, rfl⟩, hclear, rfl⟩, hholder, nofun, nofun⟩
  | syncing =>
    cases h
    exact ⟨Or.inl rfl, hfits.1, fun _ => hfits.2⟩

theorem gateStep_sound {event} (h : Sound state)
    (hstep : gateStep paths event state = some next) : Sound next ∧ Appears state next := by
  cases event with
  | call =>
    cases hstep
    refine ⟨fun j other hother => ?_, Or.inl rfl⟩
    rw [List.getElem?_append] at hother
    split_ifs at hother with hlength
    · exact h j other hother
    · obtain rfl : other = .starting := by
        have hmem := List.mem_of_getElem? hother
        simpa using hmem
      trivial
  | fastPath i fails =>
    simp only [gateStep] at hstep
    split_ifs at hstep with hcaller hfails
    · cases hstep
      exact ⟨h.set trivial, Or.inl rfl⟩
    · cases hstep
      refine ⟨h.set ?_, Or.inl rfl⟩
      cases hkey : state.keyFile with
      | absent | symlink => trivial
      | holds _ | malformed _ =>
        intro _
        simp [IsFile, hkey]
  | lock i failure =>
    simp only [gateStep] at hstep
    split_ifs at hstep with hcaller hfree
    · cases hstep
      refine ⟨h.move rfl (Or.inl rfl) (fun j _ hj => ?_) rfl, Or.inl rfl⟩
      simp only [Bool.and_eq_true, decide_eq_true_eq, hj] at hfree
      cases hfree.1
    · obtain ⟨reason, -, rfl⟩ := Option.map_eq_some_iff.mp hstep
      exact ⟨h.set of_ready_refused, Or.inl rfl⟩
  | advance i failure random count =>
    rw [gateStep] at hstep
    split_ifs at hstep with hholder
    obtain ⟨caller, hcaller, hmoved⟩ := Option.bind_eq_some_iff.mp hstep
    obtain ⟨moved, hadvance, rfl⟩ := Option.map_eq_some_iff.mp hmoved
    obtain ⟨decided, hdecide, rfl⟩ := Option.map_eq_some_iff.mp hadvance
    cases failure with
    | some reason =>
      exact ⟨h.set ⟨hholder, of_ready_refused⟩, Or.inl rfl⟩
    | none =>
      obtain ⟨happears, hfits⟩ := decideStep_fits (h i caller hcaller) hdecide
      refine ⟨h.move rfl happears (fun j hne hj => ?_) hfits, happears⟩
      exact (hne (Option.some.inj (hj.symm.trans hholder))).elim
  | leave i failure =>
    rw [gateStep] at hstep
    split at hstep
    · next decision hcaller =>
      split_ifs at hstep with hholder
      cases hstep
      have hfits := h i _ hcaller
      refine ⟨h.move rfl (Or.inl rfl) (fun j hne hj => ?_) ?_, Or.inl rfl⟩
      · exact (hne (Option.some.inj (hj.symm.trans hholder))).elim
      · cases failure with
        | some reason => exact of_ready_refused
        | none => exact hfits.2
    · cases hstep
  | kill i =>
    rw [gateStep] at hstep
    split at hstep
    · cases hstep
    · cases hstep
    · cases hstep
      refine ⟨h.move rfl (Or.inl rfl) (fun j hne hj => ⟨?_, rfl, rfl⟩) trivial, Or.inl rfl⟩
      rw [if_neg fun heq => hne (Option.some.inj (hj.symm.trans heq))]
      exact hj
  | enroll user label blobs sealed deviceId keyId =>
    rw [gateStep] at hstep
    split_ifs at hstep with hfree
    cases hstep
    refine ⟨fun j other hother => (h j other hother).mono id fun hj => ?_, Or.inl rfl⟩
    rw [hfree] at hj
    cases hj

end Rely

/-! ## Runs -/

/-- No process has called yet. -/
def uncalled : Callers :=
  { store, keyFile, holder := none, callers := [] }

end

section Runs

variable {paths : KeyPaths} {events : List GateEvent} {state final : Callers}

theorem run_sound (h : Sound state) (hrun : run (gateStep paths) events state = some final) :
    Sound final :=
  run_keeps (fun _ _ _ hsound hstep => (gateStep_sound hsound hstep).1) h hrun

theorem run_keyFile (h : Sound state) (hrun : run (gateStep paths) events state = some final) :
    final.keyFile = state.keyFile ∨
      state.keyFile = .absent ∧ ∃ key, final.keyFile = .holds key := by
  induction events generalizing state with
  | nil =>
    cases hrun
    exact Or.inl rfl
  | cons event events ih =>
    obtain ⟨next, hstep, hrest⟩ := run_cons_eq_some.mp hrun
    obtain ⟨hsound, happears⟩ := gateStep_sound h hstep
    rcases happears with hkept | ⟨habsent, ⟨key, hkey⟩, -⟩
    · rw [← hkept]
      exact ih hsound hrest
    · rcases ih hsound hrest with hsame | ⟨hnext, -⟩
      · exact Or.inr ⟨habsent, key, hsame.trans hkey⟩
      · cases hkey.symm.trans hnext

/-- However the calls and the enrollments mix, and wherever a caller dies: a
key appears only over an absent path, complete, and while no row is
encrypted; a path that is taken never changes; the path stays absent or
complete; and callers that may go on all read the one key that is there. -/
theorem gate_key_appears_once (paths : KeyPaths) (store : FaceStore) (keyFile : KeyFile)
    (events : List GateEvent) (state : Callers)
    (hrun : run (gateStep paths) events (uncalled store keyFile) = some state) :
    (∀ event next, gateStep paths event state = some next →
      next.keyFile ≠ state.keyFile → RowsClear state.store ∧ next.store = state.store) ∧
    (∀ later final, run (gateStep paths) later state = some final →
      state.keyFile ≠ .absent → final.keyFile = state.keyFile) ∧
    (keyFile = .absent ∨ (∃ key, keyFile = .holds key) →
      (state.keyFile = .absent ∨ ∃ key, state.keyFile = .holds key) ∧
      ∀ (i : Nat) decision, state.callers[i]? = some (Caller.returned decision) →
        Ready decision → ∃ key, ∀ later final, run (gateStep paths) later state = some final →
          state.keyFile = .holds key ∧ fromKeyFile paths.keyPath final.keyFile = .ok key) := by
  have hsound : Sound state := run_sound (by rintro i caller h; cases h) hrun
  have hfirst := run_keyFile (by rintro i caller h; cases h) hrun
  have hlater : ∀ later final, run (gateStep paths) later state = some final →
      state.keyFile ≠ .absent → final.keyFile = state.keyFile := by
    intro later final hlater hthere
    rcases run_keyFile hsound hlater with hsame | ⟨habsent, -⟩
    · exact hsame
    · exact (hthere habsent).elim
  refine ⟨fun event next hstep hchanged => ?_, hlater, fun hwhole => ?_⟩
  · rcases (gateStep_sound hsound hstep).2 with hsame | ⟨-, -, hclear, hstore⟩
    · exact (hchanged hsame).elim
    · exact ⟨hclear, hstore⟩
  · have hnow : state.keyFile = .absent ∨ ∃ key, state.keyFile = .holds key := by
      rcases hfirst with hsame | ⟨-, hkey⟩
      · rw [hsame]
        exact hwhole
      · exact Or.inr hkey
    refine ⟨hnow, fun i decision hcaller hready => ?_⟩
    have hfile : IsFile state.keyFile := hsound i _ hcaller hready
    obtain ⟨key, hkey⟩ := hnow.resolve_left hfile.1
    refine ⟨key, fun later final hrun => ⟨hkey, ?_⟩⟩
    rw [hlater later final hrun hfile.1, hkey]
    rfl

end Runs

/-- Two callers that both miss the key.  The key takes two writes. -/
def missedKey : List GateEvent :=
  [.call, .call, .fastPath 0 false, .fastPath 1 false, .lock 0 none] ++
    List.replicate 7 (.advance 0 none 7 20) ++
    [.leave 0 none, .lock 1 none, .advance 1 none 8 32, .leave 1 none]

theorem gate_key_appears_once_missed :
    ∃ state, run (gateStep ⟨"key", "sealed"⟩) missedKey (uncalled emptyStore .absent) =
        some state ∧
      state.callers = [.returned .created, .returned .present] ∧
      ∃ key, fromKeyFile "key" state.keyFile = .ok key := by
  have hrun : run (gateStep ⟨"key", "sealed"⟩) missedKey (uncalled emptyStore .absent) =
      some ⟨emptyStore, .holds 7, none, [.returned .created, .returned .present]⟩ := rfl
  obtain ⟨-, -, hwhole⟩ := gate_key_appears_once _ _ _ _ _ hrun
  obtain ⟨key, hkey⟩ := (hwhole (Or.inl rfl)).2 1 .present rfl (Or.inr rfl)
  exact ⟨_, hrun, rfl, key, (hkey [] _ rfl).2⟩

end Facelock.Keys
