import Facelock.Lifecycle.Lease
import Mathlib.Data.List.Induction

/-!
# The protocol of the lease

The lease keeps the daemon away while the engine deletes.  The argument is
about the history of the process.  Three things are recorded there and each
needs a permission:

* An unlink of the barrier, or a start of the unit, needs that the engine
  has ended, if the lease was acquired at all.  The signal thread needs in
  addition that its wait was acknowledged.
* A restore needs the restore state, and uses it up.  `holder` says who has
  it.  It goes from the operation to the slot, and from there to the exit
  path that takes it.
* The signal thread waits once.

`Sound` is the invariant: every event had its permission.  The conditions
that a thread works with are `Lasting`: no other thread ends them, and no
step of its own that is of no interest.  Most of an acquisition consists of
such steps.
-/

namespace Facelock.Lifecycle

open Threads List

/-! ## Permissions -/

/-- Who has the restore state. -/
inductive Holder where
  | thread (thread : Thread)
  | slot
  | spent
  deriving DecidableEq, Repr

def Event.pass : Event → Holder → Holder
  | .leased, _ => .slot
  | .took thread, _ => .thread thread
  | .restoring _ _, _ => .spent
  | _, current => current

/-- The operation stages the restore state. -/
def holder (history : List Event) : Holder :=
  history.foldl (fun current event => event.pass current) (.thread .operation)

def Event.author : Event → Thread
  | .received _ | .waited _ | .terminated => .signal
  | .took thread | .restoring thread _ | .unlinked thread _ | .reloaded thread | .started thread
  | .unlocked thread => thread
  | _ => .operation

/-- The barrier is unlinked, or the unit is started. -/
def Event.isUnbarring : Event → Bool
  | .unlinked _ _ | .started _ => true
  | _ => false

def Event.isRestoring : Event → Bool
  | .restoring _ _ => true
  | _ => false

/-- The engine does not run under a lease. -/
def Clear (past : List Event) : Prop := .acquired ∈ past → .engineEnded ∈ past

/-- What a thread needs to lift the bar. -/
def MayUnbar (thread : Thread) (past : List Event) : Prop :=
  Clear past ∧ (thread = .signal → .waited true ∈ past)

def Permitted (past : List Event) : Event → Prop
  | .leased => holder past = .thread .operation
  | .took _ => holder past = .slot
  | .restoring thread _ => holder past = .thread thread
  | .unlinked thread _ | .started thread => MayUnbar thread past
  | .waited _ => ∀ acknowledged, .waited acknowledged ∉ past
  | _ => True

/-- The invariant of the process. -/
structure Sound (state : State) : Prop where
  history : ∀ past event rest, state.history = past ++ event :: rest → Permitted past event
  slot : state.slot.isSome → holder state.history = .slot
  gate : state.armed = true → state.finished = true → .engineEnded ∈ state.history

/-- At most one event is added, and it is the thread's own. -/
def Extends (me : Thread) (before after : State) : Prop :=
  after.history = before.history ∨
    ∃ event, event.author = me ∧ after.history = before.history ++ [event]

/-- What a thread guarantees. -/
structure Guarantee (me : Thread) (before after : State) : Prop where
  extends_history : Extends me before after
  armed : before.armed = true → after.armed = true
  others : me ≠ .operation → after.armed = before.armed ∧ after.finished = before.finished

def protocol : Protocol Thread State where
  inv := Sound
  guarantee := Guarantee

/-! ## Histories -/

theorem holder_append (history : List Event) (event : Event) :
    holder (history ++ [event]) = event.pass (holder history) := by
  rw [holder, foldl_append]
  rfl

variable {before after : State} {event : Event}

theorem Sound.extend (h : Sound before) (hhistory : after.history = before.history ++ [event])
    (hpermitted : Permitted before.history event)
    (hslot : after.slot.isSome → event.pass (holder before.history) = .slot)
    (hgate : after.armed = true → after.finished = true →
      .engineEnded ∈ before.history ∨ event = .engineEnded) : Sound after where
  history past other rest heq := by
    rw [hhistory] at heq
    rcases append_eq_append_iff.mp heq with ⟨new, rfl, hnew⟩ | ⟨old, hold, htail⟩
    · cases new with
      | nil =>
        obtain ⟨rfl, -⟩ := List.cons.inj hnew
        rwa [append_nil]
      | cons first new => simp at hnew
    · cases old with
      | nil =>
        obtain ⟨rfl, -⟩ := List.cons.inj htail
        rw [append_nil] at hold
        rwa [← hold]
      | cons first old =>
        obtain ⟨rfl, -⟩ := List.cons.inj htail
        exact h.history past other old hold
  slot hsome := by
    rw [hhistory, holder_append]
    exact hslot hsome
  gate harmed hfinished := by
    rw [hhistory, mem_append, mem_singleton]
    exact (hgate harmed hfinished).imp_right Eq.symm

theorem Sound.of_eq (h : Sound before) (hhistory : after.history = before.history)
    (hslot : after.slot = before.slot) (harmed : after.armed = before.armed)
    (hfinished : after.finished = before.finished) :
    Sound after where
  history past event rest heq := h.history past event rest (by rw [← hhistory, heq])
  slot hsome := by
    rw [hhistory]
    exact h.slot (by rwa [← hslot])
  gate ha hf := by
    rw [hhistory]
    exact h.gate (by rwa [← harmed]) (by rwa [← hfinished])

def Holder.restores : Holder → Nat
  | .spent => 1
  | _ => 0

/-- Once the restore state is used up no restore starts any more. -/
theorem restores_le {history}
    (h : ∀ past event rest, history = past ++ event :: rest → Permitted past event) :
    history.countP Event.isRestoring ≤ (holder history).restores := by
  induction history using List.reverseRecOn with
  | nil => exact Nat.le_refl 0
  | append_singleton history event ih =>
    have hbefore := ih fun past other rest heq =>
      h past other (rest ++ [event]) (by rw [heq]; simp)
    have hevent := h history event [] rfl
    rw [countP_append, holder_append]
    cases event with
    | restoring | leased | took =>
      -- the restore state was still there, so none had started
      have hholder : holder history = _ := hevent
      rw [hholder] at hbefore
      simpa [Event.isRestoring, Event.pass, Holder.restores] using hbefore
    | _ => simpa [Event.isRestoring, Event.pass, Holder.restores] using hbefore

/-! ## Conditions that last -/

section

variable {me : Thread}

theorem outside_extends (h : protocol.Outside me before after) : after.history = before.history ∨
      ∃ event, event.author ≠ me ∧ Permitted before.history event ∧
        after.history = before.history ++ [event] := by
  obtain ⟨other, hne, -, hguarantee, hsound⟩ := h
  refine hguarantee.extends_history.imp_right ?_
  rintro ⟨event, rfl, hhistory⟩
  exact ⟨event, hne, hsound.history _ _ [] hhistory, hhistory⟩

theorem stable_mem (event : Event) : Stable protocol me fun state => event ∈ state.history := by
  intro before after houtside hmem
  rcases outside_extends houtside with hsame | ⟨other, -, -, hhistory⟩
  · rwa [hsame]
  · rw [hhistory]
    exact mem_append_left _ hmem

theorem stable_notMem (hauthor : event.author = me) :
    Stable protocol me fun state => event ∉ state.history := by
  intro before after houtside hnot
  rcases outside_extends houtside with hsame | ⟨other, hne, -, hhistory⟩
  · rwa [hsame]
  · rw [hhistory, mem_append, mem_singleton]
    rintro (hmem | rfl)
    · exact hnot hmem
    · exact hne hauthor

/-- Nobody takes the restore state away from its holder. -/
theorem stable_holder : Stable protocol me fun state => holder state.history = .thread me := by
  intro before after houtside hmine
  rcases outside_extends houtside with hsame | ⟨event, hne, hpermitted, hhistory⟩
  · rwa [hsame]
  · rw [hhistory, holder_append]
    cases event with
    | took =>
      have hslot : holder before.history = .slot := hpermitted
      rw [hmine] at hslot
      cases hslot
    | leased | restoring =>
      have hthread : holder before.history = .thread _ := hpermitted
      rw [hmine] at hthread
      cases hthread
      exact absurd rfl hne
    | _ => exact hmine

theorem stable_armed : Stable protocol me fun state => state.armed = true := by
  rintro before after ⟨other, -, -, hguarantee, -⟩ harmed
  exact hguarantee.armed harmed

theorem stable_unarmed : Stable protocol .operation fun state => state.armed = false := by
  rintro before after ⟨other, hne, -, hguarantee, -⟩ hunarmed
  rwa [(hguarantee.others hne).1]

theorem stable_unfinished : Stable protocol .operation fun state => state.finished = false := by
  rintro before after ⟨other, hne, -, hguarantee, -⟩ hunfinished
  rwa [(hguarantee.others hne).2]

/-- A condition that lasts while the thread does anything but acquire the
lease. -/
structure Kept (me : Thread) (p : State → Prop) : Prop where
  stable : Stable protocol me p
  own : ∀ before after, after.armed = before.armed →
    (after.history = before.history ∨
      ∃ event, event ≠ .acquired ∧ after.history = before.history ++ [event]) →
    p before → p after

/-- The lease does not exist yet, and no signal thread. -/
def Fresh (state : State) : Prop := state.armed = false ∧ .acquired ∉ state.history

/-- The operation has not acquired the lease, or its engine has ended. -/
def Over (state : State) : Prop := Fresh state ∨ .engineEnded ∈ state.history

theorem kept_mem (event : Event) : Kept me fun state => event ∈ state.history where
  stable := stable_mem event
  own before after _ hhistory hmem := by
    rcases hhistory with hsame | ⟨other, -, hother⟩
    · rwa [hsame]
    · rw [hother]
      exact mem_append_left _ hmem

variable {p : State → Prop}

theorem Kept.and {q} (hp : Kept me p) (hq : Kept me q) :
    Kept me fun state => p state ∧ q state where
  stable := hp.stable.and hq.stable
  own before after harmed hhistory h :=
    ⟨hp.own before after harmed hhistory h.1, hq.own before after harmed hhistory h.2⟩

theorem Kept.or {q} (hp : Kept me p) (hq : Kept me q) :
    Kept me fun state => p state ∨ q state where
  stable before after houtside h :=
    h.imp (hp.stable before after houtside) (hq.stable before after houtside)
  own before after harmed hhistory h :=
    h.imp (hp.own before after harmed hhistory) (hq.own before after harmed hhistory)

theorem kept_true : Kept me fun _ => True where
  stable _ _ _ _ := trivial
  own _ _ _ _ _ := trivial

theorem kept_fresh : Kept .operation Fresh where
  stable := stable_unarmed.and (stable_notMem rfl)
  own before after harmed hhistory h := by
    refine ⟨harmed.trans h.1, ?_⟩
    rcases hhistory with hsame | ⟨event, hne, hevent⟩
    · rw [hsame]
      exact h.2
    · rw [hevent, mem_append, mem_singleton]
      rintro (hmem | rfl)
      · exact h.2 hmem
      · exact hne rfl

theorem kept_over : Kept .operation Over := kept_fresh.or (kept_mem .engineEnded)

theorem Over.clear {state} (h : Over state) : Clear state.history := by
  intro hacquired
  rcases h with hfresh | hended
  · exact absurd hacquired hfresh.2
  · exact hended

/-! ## Steps of no interest -/

def Event.isMinor : Event → Bool
  | .stopped | .deleted | .received _ | .reloaded _ | .unlocked _ | .terminated => true
  | _ => false

/-- A step that the permissions do not speak about. -/
structure Minor (me : Thread) (before after : State) : Prop where
  slot : after.slot = before.slot
  finished : after.finished = before.finished
  armed : after.armed = before.armed
  history : after.history = before.history ∨
    ∃ event, event.isMinor ∧ event.author = me ∧ after.history = before.history ++ [event]

theorem Minor.of_eq (hslot : after.slot = before.slot)
    (hfinished : after.finished = before.finished) (harmed : after.armed = before.armed)
    (hhistory : after.history = before.history) : Minor me before after :=
  ⟨hslot, hfinished, harmed, .inl hhistory⟩

theorem Minor.record {state} (hminor : event.isMinor) (hauthor : event.author = me) :
    Minor me state (state.record event) :=
  ⟨rfl, rfl, rfl, .inr ⟨event, hminor, hauthor, rfl⟩⟩

theorem Minor.sound (h : Minor me before after) (hsound : Sound before) : Sound after := by
  rcases h.history with hsame | ⟨event, hminor, -, hhistory⟩
  · exact hsound.of_eq hsame h.slot h.armed h.finished
  · refine hsound.extend hhistory ?_ ?_ ?_
    · cases event <;> first | exact trivial | cases hminor
    · intro hsome
      rw [h.slot] at hsome
      cases event <;> first | exact hsound.slot hsome | cases hminor
    · intro harmed hfinished
      rw [h.armed] at harmed
      rw [h.finished] at hfinished
      exact .inl (hsound.gate harmed hfinished)

theorem Minor.guarantee (h : Minor me before after) : Guarantee me before after where
  extends_history := by
    refine h.history.imp_right ?_
    rintro ⟨event, -, hauthor, hhistory⟩
    exact ⟨event, hauthor, hhistory⟩
  armed harmed := h.armed.trans harmed
  others _ := ⟨h.armed, h.finished⟩

theorem Guarantee.refl : Guarantee me before before :=
  (Minor.of_eq rfl rfl rfl rfl).guarantee

theorem Minor.holder (h : Minor me before after) :
    Lifecycle.holder after.history = Lifecycle.holder before.history := by
  rcases h.history with hsame | ⟨event, hminor, -, hhistory⟩
  · rw [hsame]
  · rw [hhistory, holder_append]
    cases event <;> first | rfl | cases hminor

/-- A condition that lasts over steps of no interest. -/
structure Lasting (me : Thread) (p : State → Prop) : Prop where
  stable : Stable protocol me p
  minor : ∀ before after, Minor me before after → p before → p after

theorem Lasting.and {q} (hp : Lasting me p) (hq : Lasting me q) :
    Lasting me fun state => p state ∧ q state where
  stable := hp.stable.and hq.stable
  minor before after h hbefore :=
    ⟨hp.minor before after h hbefore.1, hq.minor before after h hbefore.2⟩

theorem Kept.lasting (hp : Kept me p) : Lasting me p where
  stable := hp.stable
  minor before after h hbefore := by
    refine hp.own before after h.armed ?_ hbefore
    refine h.history.imp_right ?_
    rintro ⟨event, hminor, -, hhistory⟩
    refine ⟨event, ?_, hhistory⟩
    rintro rfl
    cases hminor

/-- The holder of the restore state, with a condition that lasts. -/
def Mine (me : Thread) (p : State → Prop) (state : State) : Prop :=
  holder state.history = .thread me ∧ p state

theorem Lasting.mine (hp : Lasting me p) : Lasting me (Mine me p) :=
  Lasting.and ⟨stable_holder, fun _ _ h hbefore => h.holder.trans hbefore⟩ hp

section

variable {α : Type} {relation : State → State → Prop}

/-- A program that keeps a condition. -/
abbrev Preserves (me : Thread) (p : State → Prop) (code : Step α) : Prop :=
  Ensures protocol me p code fun _ => p

theorem preserves_pure {value : α} : Preserves me p (pure value) := ensures_pure fun _ h => h

theorem ensures_of_minor {code : Step α} (honly : code.Only (Minor me)) (hp : Lasting me p) :
    Preserves me p code :=
  honly.ensures hp.stable fun before after hminor hbefore hsound =>
    ⟨hminor.guarantee, hminor.sound hsound, hp.minor before after hminor hbefore⟩

theorem ensures_then {β : Type} {code : Step α} {next : α → Step β} {post}
    (honly : code.Only (Minor me)) (hp : Lasting me p)
    (hnext : ∀ value, Ensures protocol me p (next value) post) :
    Ensures protocol me p (code >>= next) post :=
  ensures_bind (ensures_of_minor honly hp) hnext

/-! ## Calls -/

theorem only_act {f : Choice → State → Option (α × State)}
    (h : ∀ choice state answer after, f choice state = some (answer, after) →
      relation state after) : (act f).Only relation := by
  refine only_atomic fun choice state answer after hact => ?_
  split at hact
  · exact h choice state answer after hact
  · cases hact

theorem only_act_some
    {f : Choice → State → α × State} (h : ∀ choice state, relation state (f choice state).2) :
    (act fun choice state => some (f choice state)).Only relation := by
  refine only_act fun choice state answer after hact => ?_
  have hsecond : (f choice state).2 = after := by rw [Option.some.inj hact]
  rw [← hsecond]
  exact h choice state

theorem only_act_read {f : Choice → State → α} :
    (act fun choice state => some (f choice state, state)).Only (Minor me) :=
  only_act_some fun _ _ => .of_eq rfl rfl rfl rfl

theorem onDisk_eq (f : Choice → Disk → Except IoError (α × Disk)) (choice : Choice)
    (state : State) : ∃ disk, (state.onDisk f choice).2 = { state with disk } := by
  unfold State.onDisk
  split
  · exact ⟨state.disk, rfl⟩
  · split
    · exact ⟨_, rfl⟩
    · exact ⟨state.disk, rfl⟩

theorem only_onDisk {f : Choice → Disk → Except IoError (α × Disk)} :
    (onDisk f).Only (Minor me) := by
  refine only_act_some fun choice state => ?_
  obtain ⟨disk, hdisk⟩ := onDisk_eq f choice state
  rw [hdisk]
  exact .of_eq rfl rfl rfl rfl

end

theorem only_record (hminor : event.isMinor) (hauthor : event.author = me) :
    (record event).Only (Minor me) :=
  only_act_some fun _ _ => .record hminor hauthor

theorem only_daemonReload : (daemonReload me).Only (Minor me) :=
  only_act_some fun _ _ => .record rfl rfl

theorem only_unitShow : unitShow.Only (Minor me) := only_act_read

end

/-! ## A lease that is being acquired -/

section

variable {me : Thread} {α β : Type}

theorem only_run_bind {call} {rest : α → Fallible β} (hfirst : call.run.Only (Minor me))
    (hrest : ∀ value, (rest value).run.Only (Minor me)) : (call >>= rest).run.Only (Minor me) := by
  refine only_bind hfirst fun answer => ?_
  cases answer with
  | ok value => exact hrest value
  | error e => exact only_pure

theorem only_refuseIf {condition error} :
    (refuseIf condition error).run.Only (Minor me) := only_pure

theorem only_doIf {condition call} (h : call.run.Only (Minor me)) :
    (doIf condition call).run.Only (Minor me) := by
  unfold doIf
  split
  · exact h
  · exact only_pure

variable {path : String}

theorem only_orIo {call : Step (Except IoError α)} (h : call.Only (Minor me)) :
    (orIo path call).run.Only (Minor me) := by
  refine only_bind h fun answer => ?_
  cases answer <;> exact only_pure

theorem only_match {call} (h : call.Only (Minor me)) {rest : Except IoError α → Step β}
    (hok : ∀ value, (rest (.ok value)).Only (Minor me))
    (herror : ∀ e, (rest (.error e)).Only (Minor me)) : (call >>= rest).Only (Minor me) := by
  refine only_bind h fun answer => ?_
  cases answer with
  | ok value => exact hok value
  | error e => exact herror e

theorem only_ensureDir {owner : Nat × Nat} : (ensureDir path owner).run.Only (Minor me) := by
  refine only_match only_onDisk (fun _ => only_pure) fun e => ?_
  dsimp only
  split <;> exact only_pure

theorem only_openTrustedDir {created} {owner : Nat × Nat} :
    (openTrustedDir path created owner).run.Only (Minor me) := by
  refine only_run_bind (only_orIo only_onDisk) fun dir => ?_
  refine only_run_bind (only_orIo only_onDisk) fun info => ?_
  refine only_run_bind (only_doIf (only_orIo only_onDisk)) fun _ => ?_
  refine only_run_bind (only_orIo only_onDisk) fun info => ?_
  exact only_run_bind only_refuseIf fun _ => only_refuseIf

variable {layout : LifecycleLayout}

theorem only_openLock : (openLock layout).run.Only (Minor me) := by
  refine only_match only_onDisk (fun _ => only_pure) fun e => ?_
  dsimp only
  split
  · exact only_match only_onDisk (fun _ => only_pure) fun _ => only_pure
  · split <;> exact only_pure

theorem only_takeFlock : (takeFlock layout).run.Only (Minor me) := by
  refine only_match only_onDisk (fun _ => only_pure) fun e => ?_
  dsimp only
  split <;> exact only_pure

theorem only_acquireLifecycleLock : (acquireLifecycleLock layout).run.Only (Minor me) := by
  refine only_run_bind only_ensureDir fun created => ?_
  refine only_run_bind only_openTrustedDir fun _ => ?_
  refine only_run_bind only_openLock fun lock => ?_
  refine only_run_bind (only_orIo only_onDisk) fun info => ?_
  refine only_run_bind (only_doIf (only_orIo only_onDisk)) fun _ => ?_
  refine only_run_bind (only_orIo only_onDisk) fun info => ?_
  refine only_run_bind only_refuseIf fun _ => ?_
  refine only_run_bind only_takeFlock fun _ => ?_
  exact only_run_bind (only_orIo only_onDisk) fun _ => only_refuseIf

theorem only_openDefinition : (openDefinition path).run.Only (Minor me) := by
  refine only_match only_onDisk (fun _ => only_pure) fun e => ?_
  dsimp only
  split_ifs <;> exact only_pure

variable {setup : Setup}

theorem only_verifyDefinition {file : Nat} :
    (verifyDefinition setup path file).run.Only (Minor me) := by
  refine only_run_bind (only_orIo only_onDisk) fun info => ?_
  refine only_run_bind only_refuseIf fun _ => ?_
  refine only_run_bind only_refuseIf fun _ => ?_
  refine only_run_bind only_refuseIf fun _ => ?_
  refine only_run_bind only_refuseIf fun _ => ?_
  refine only_run_bind (only_orIo only_onDisk) fun text => ?_
  split <;> exact only_pure

theorem only_verifyActivationDelegation {paths : List String} :
    (verifyActivationDelegation setup paths).run.Only (Minor me) := by
  induction paths with
  | nil => exact only_pure
  | cons path paths ih =>
    refine only_run_bind only_openDefinition fun found => ?_
    cases found with
    | none => exact ih
    | some file => exact only_run_bind only_verifyDefinition fun _ => ih

theorem only_openControl : (openControl path).run.Only (Minor me) := by
  refine only_match only_onDisk (fun _ => only_pure) fun e => ?_
  dsimp only
  split_ifs <;> exact only_pure

theorem only_probeControlPath : (probeControlPath layout).run.Only (Minor me) := by
  refine only_run_bind only_openControl fun found => ?_
  cases found with
  | none => exact only_pure
  | some file =>
    refine only_run_bind (only_orIo only_onDisk) fun info => ?_
    split <;> exact only_pure

theorem only_createBarrier : (createBarrier layout).run.Only (Minor me) := by
  refine only_run_bind only_ensureDir fun created => ?_
  refine only_run_bind only_openTrustedDir fun _ => ?_
  refine only_run_bind ?_ fun file => ?_
  · refine only_match only_onDisk (fun _ => only_pure) fun e => ?_
    dsimp only
    split <;> exact only_pure
  refine only_run_bind (only_orIo only_onDisk) fun info => ?_
  refine only_run_bind (only_doIf (only_orIo only_onDisk)) fun _ => ?_
  refine only_run_bind (only_orIo only_onDisk) fun info => ?_
  exact only_run_bind only_refuseIf fun _ => only_pure

theorem only_prepareBarrier : (prepareBarrier setup).run.Only (Minor me) := by
  refine only_run_bind only_verifyActivationDelegation fun _ => ?_
  refine only_run_bind only_probeControlPath fun entry => ?_
  refine only_run_bind only_unitShow fun props => ?_
  cases entry with
  | stale file => exact only_run_bind only_pure fun _ => only_pure
  | absent =>
    refine only_run_bind only_pure fun _ => ?_
    exact only_run_bind only_createBarrier fun _ => only_pure

theorem only_clock : clock.run.Only (Minor me) := only_bind only_act_read fun _ => only_pure

variable {polls : Nat}

theorem only_waitUntilInactive {timeout deadline : Nat} :
    (waitUntilInactive timeout deadline polls).run.Only (Minor me) := by
  induction polls with
  | zero => exact only_asleep
  | succ polls ih =>
    refine only_run_bind only_unitShow fun props => ?_
    split
    · exact only_pure
    · exact only_run_bind only_clock fun _ => only_run_bind only_refuseIf fun _ => ih

theorem only_waitUntilNameReleased {timeout deadline : Nat} :
    (waitUntilNameReleased timeout deadline polls).run.Only (Minor me) := by
  induction polls with
  | zero => exact only_asleep
  | succ polls ih =>
    refine only_run_bind only_act_read fun owned => ?_
    split
    · exact only_pure
    · exact only_run_bind only_clock fun _ => only_run_bind only_refuseIf fun _ => ih

theorem only_stopDaemon {active : Bool} :
    (stopDaemon setup active polls).run.Only (Minor .operation) := by
  refine only_run_bind (only_doIf (only_act_some fun _ _ => .record rfl rfl)) fun _ => ?_
  refine only_run_bind only_clock fun _ => ?_
  refine only_run_bind only_waitUntilInactive fun _ => ?_
  exact only_run_bind only_clock fun _ => only_waitUntilNameReleased

theorem only_stage : (stage setup polls).Only (Minor .operation) := by
  refine only_bind only_prepareBarrier fun prepared => ?_
  cases prepared with
  | error e => exact only_pure
  | ok prior =>
    refine only_bind ?_ fun masked => ?_
    · refine only_run_bind only_daemonReload fun _ => ?_
      exact only_run_bind only_unitShow fun _ => only_refuseIf
    · cases masked with
      | error e => exact only_pure
      | ok _ => exact only_bind only_stopDaemon fun _ => only_pure

end

end Facelock.Lifecycle
