import Facelock.Lifecycle.Protocol

/-!
# Exclusion while the engine runs

The two threads of the process keep to the protocol.  Each is proved on its
own, with the rules of `Lib.Threads`.  The signal thread relies on two
things: the operation does not mark itself finished before its engine has
ended, and nobody takes the restore state away from its holder.  The
operation promises nothing while its engine runs.  Afterwards `Over` holds,
so it may lift the bar.

`lease_excludes` reads the permissions off the history of a whole run.
-/

namespace Facelock.Lifecycle

open Threads Transition List

/-! ## Restore -/

variable {event : Event} {staged : RestoreState} {mode : RestoreMode}

section

variable {me : Thread} {α : Type} {p : State → Prop}

theorem ensures_act {f pre}
    {post : α → State → Prop} (hstable : Stable protocol me pre)
    (h : ∀ choice before answer after, pre before → Sound before →
      f choice before = some (answer, after) →
      Guarantee me before after ∧ Sound after ∧ post answer after) :
    Ensures protocol me pre (act f) post := by
  refine ensures_atomic hstable fun choice before answer after hbefore hsound hact => ?_
  split at hact
  · exact h choice before answer after hbefore hsound hact
  · cases hact

/-- A step that adds one event and leaves the slot, the gate and the signal
thread as they are. -/
structure Adds (event : Event) (before after : State) : Prop where
  history : after.history = before.history ++ [event]
  slot : after.slot = before.slot
  armed : after.armed = before.armed
  finished : after.finished = before.finished

theorem adds_record {state : State} : Adds event state (state.record event) := ⟨rfl, rfl, rfl, rfl⟩

theorem adds_onDisk {f : Choice → Disk → Except IoError (α × Disk)} (choice : Choice)
    (state : State) : Adds event state ((state.record event).onDisk f choice).2 := by
  obtain ⟨disk, hdisk⟩ := onDisk_eq f choice (state.record event)
  rw [hdisk]
  exact ⟨rfl, rfl, rfl, rfl⟩

theorem Adds.guarantee {before after} (h : Adds event before after)
    (hauthor : event.author = me) : Guarantee me before after where
  extends_history := .inr ⟨event, hauthor, h.history⟩
  armed harmed := h.armed.trans harmed
  others _ := ⟨h.armed, h.finished⟩

theorem Adds.sound {before after} (h : Adds event before after) (hsound : Sound before)
    (hpermitted : Permitted before.history event)
    (hpass : before.slot.isSome → event.pass (holder before.history) = .slot) : Sound after := by
  refine hsound.extend h.history hpermitted ?_ ?_
  · intro hsome
    rw [h.slot] at hsome
    exact hpass hsome
  · intro harmed hfinished
    rw [h.armed] at harmed
    rw [h.finished] at hfinished
    exact .inl (hsound.gate harmed hfinished)

theorem Kept.adds (hp : Kept me p) {before after} (h : Adds event before after)
    (hne : event ≠ .acquired) (hbefore : p before) : p after :=
  hp.own before after h.armed (.inr ⟨event, hne, h.history⟩) hbefore

theorem ensures_unbarring {f : Choice → State → α × State}
    (hf : ∀ choice state, Adds event state (f choice state).2) (hauthor : event.author = me)
    (hkind : event.isUnbarring) (hp : Kept me p)
    (hfree : ∀ state, p state → MayUnbar me state.history) :
    Preserves me p (act fun choice state => some (f choice state)) := by
  refine ensures_act hp.stable fun choice before answer after hbefore hsound hact => ?_
  have hafter : (f choice before).2 = after := by rw [Option.some.inj hact]
  have hadds := hf choice before
  rw [hafter] at hadds
  refine ⟨hadds.guarantee hauthor, hadds.sound hsound ?_ ?_, hp.adds hadds ?_ hbefore⟩
  · subst hauthor
    cases event <;> first | exact hfree before hbefore | cases hkind
  · intro hsome
    cases event <;> first | exact hsound.slot hsome | cases hkind
  · rintro rfl
    cases hkind

section

variable (hp : Kept me p) (hfree : ∀ state, p state → MayUnbar me state.history)

include hp hfree

theorem ensures_removeFile {path : String} : Preserves me p (removeFile me path) :=
  ensures_unbarring adds_onDisk rfl rfl hp hfree

theorem ensures_unitStart : Preserves me p (unitStart me) :=
  ensures_unbarring (fun _ _ => adds_record) rfl rfl hp hfree

theorem ensures_removeBarrier {barrier} : Preserves me p (removeBarrier me barrier) := by
  refine ensures_then only_onDisk hp.lasting fun held => ?_
  cases held with
  | error e => exact preserves_pure
  | ok info =>
    refine ensures_then only_onDisk hp.lasting fun found => ?_
    cases found with
    | error e =>
      dsimp only
      split <;> exact preserves_pure
    | ok onDisk =>
      dsimp only
      split
      · exact preserves_pure
      · refine ensures_bind (ensures_removeFile hp hfree) fun removed => ?_
        cases removed <;> exact preserves_pure

end

variable {layout : LifecycleLayout}

theorem only_reloadUnmasked : (reloadUnmasked me layout).Only (Minor me) := by
  refine only_bind only_daemonReload fun reloaded => ?_
  cases reloaded with
  | error e => exact only_pure
  | ok _ =>
    refine only_bind only_unitShow fun shown => ?_
    cases shown with
    | error e => exact only_pure
    | ok props =>
      dsimp only
      split <;> exact only_pure

theorem only_removeCreatedDir {created} : (removeCreatedDir layout created).Only (Minor me) := by
  unfold removeCreatedDir
  split
  · exact only_bind only_onDisk fun _ => only_pure
  · exact only_pure

/-- What was in the slot is held by the thread. -/
abbrev Taken (me : Thread) (p : State → Prop) (staged : Option RestoreState) (state : State) :
    Prop :=
  p state ∧ (staged.isSome → holder state.history = .thread me)

section

variable (hp : Kept me p)

include hp

theorem ensures_restoreBarrier {barrier} (hfree : ∀ state, p state → MayUnbar me state.history) :
    Preserves me p (restoreBarrier me layout barrier) := by
  refine ensures_bind (ensures_removeBarrier hp hfree) fun removed => ?_
  refine ensures_then only_removeCreatedDir hp.lasting fun _ => ?_
  refine ensures_then only_reloadUnmasked hp.lasting fun errors => ?_
  cases removed <;> exact preserves_pure

theorem ensures_restartUnit {restart} (hfree : ∀ state, p state → MayUnbar me state.history) :
    Preserves me p (restartUnit me restart) := by
  unfold restartUnit
  split
  · refine ensures_bind (ensures_unitStart hp hfree) fun started => ?_
    cases started <;> exact preserves_pure
  · exact preserves_pure

/-- Only a full restore needs the permission. -/
theorem ensures_restoreSteps (hfree : mode = .full → ∀ state, p state → MayUnbar me state.history) :
    Preserves me p (restoreSteps me staged mode) := by
  cases mode with
  | leaveBarred => exact preserves_pure
  | full =>
    unfold restoreSteps
    dsimp only
    split
    · refine ensures_bind (ensures_restoreBarrier hp (hfree rfl)) fun errors => ?_
      refine ensures_bind (ensures_restartUnit hp (hfree rfl)) fun restarted => ?_
      exact preserves_pure
    · exact ensures_restartUnit hp (hfree rfl)

theorem ensures_restore (hfree : mode = .full → ∀ state, p state → MayUnbar me state.history) :
    Ensures protocol me (Mine me p) (restore me staged mode) fun _ => p := by
  have hstart : Ensures protocol me (Mine me p) (record (.restoring me mode)) fun _ => p := by
    refine ensures_act hp.lasting.mine.stable
      fun choice before answer after hbefore hsound hact => ?_
    obtain ⟨-, rfl⟩ := Prod.mk.inj (Option.some.inj hact)
    refine ⟨adds_record.guarantee rfl, adds_record.sound hsound hbefore.1 ?_,
      hp.adds adds_record (by simp) hbefore.2⟩
    -- the slot is empty, since this thread holds what was in it
    intro hsome
    have hslot := hsound.slot hsome
    rw [hbefore.1] at hslot
    cases hslot
  refine ensures_bind hstart fun _ => ?_
  refine ensures_bind (ensures_restoreSteps hp hfree) fun errors => ?_
  refine ensures_then (only_record rfl rfl) hp.lasting fun _ => ?_
  split <;> exact preserves_pure

/-- Whoever finds the slot filled holds what was in it. -/
theorem ensures_takeRestore : Ensures protocol me p (takeRestore me) (Taken me p) := by
  have hlock : (lockSlot me).Only (Minor me) := by
    refine only_act fun choice state answer after hact => ?_
    split at hact
    · cases hact
      exact .of_eq rfl rfl rfl rfl
    · cases hact
  have hunlock : unlockSlot.Only (Minor me) := only_act_some fun _ _ => .of_eq rfl rfl rfl rfl
  have htake : Ensures protocol me p (takeSlot me) (Taken me p) := by
    refine ensures_act hp.stable fun choice before answer after hbefore hsound hact => ?_
    split at hact
    · cases hact
      exact ⟨.refl, hsound, hbefore, by simp⟩
    · rename_i staged hslot
      cases hact
      have hholder : holder before.history = .slot := hsound.slot (by rw [hslot]; rfl)
      refine ⟨⟨.inr ⟨.took me, rfl, rfl⟩, id, fun _ => ⟨rfl, rfl⟩⟩, ?_, ?_, ?_⟩
      · exact hsound.extend rfl hholder (by simp [State.record])
          fun harmed hfinished => .inl (hsound.gate harmed hfinished)
      · exact hp.own before _ rfl (.inr ⟨.took me, by simp, rfl⟩) hbefore
      · intro _
        exact holder_append before.history (.took me)
  have hmine : ∀ staged, Preserves me (Taken me p staged) unlockSlot := by
    intro staged
    cases staged with
    | none =>
      refine (ensures_of_minor hunlock hp.lasting).mono (fun _ h => h.1) fun _ _ h => ⟨h, ?_⟩
      intro hsome
      cases hsome
    | some staged =>
      refine (ensures_of_minor hunlock hp.lasting.mine).mono (fun _ h => ⟨h.2 rfl, h.1⟩) ?_
      exact fun _ _ h => ⟨h.2, fun _ => h.1⟩
  refine ensures_then hlock hp.lasting fun _ => ?_
  refine ensures_bind htake fun staged => ?_
  exact ensures_bind (hmine staged) fun _ => ensures_pure fun _ h => h

theorem ensures_restoreTaken {staged}
    (hfree : mode = .full → ∀ state, p state → MayUnbar me state.history) :
    Ensures protocol me (Taken me p staged) (restoreTaken me mode staged) fun _ => p := by
  cases staged with
  | none => exact ensures_pure fun _ h => h.1
  | some staged =>
    exact (ensures_restore hp hfree).mono (fun _ h => ⟨h.2 rfl, h.1⟩) fun _ _ h => h

end

end

/-! ## The signal thread -/

/-- Before the wait. -/
def Waiting (state : State) : Prop :=
  state.armed = true ∧ ∀ acknowledged, .waited acknowledged ∉ state.history

theorem lasting_waiting : Lasting .signal Waiting where
  stable := by
    refine stable_armed.and ?_
    intro before after houtside hnot acknowledged
    exact stable_notMem rfl before after houtside (hnot acknowledged)
  minor before after h hbefore := by
    refine ⟨h.armed.trans hbefore.1, fun acknowledged => ?_⟩
    rcases h.history with hsame | ⟨event, hminor, -, hhistory⟩
    · rw [hsame]
      exact hbefore.2 acknowledged
    · rw [hhistory, mem_append, mem_singleton]
      rintro (hmem | rfl)
      · exact hbefore.2 acknowledged hmem
      · cases hminor

/-- After a wait that was acknowledged. -/
def Acknowledged (acknowledged : Bool) (state : State) : Prop :=
  acknowledged = true → .engineEnded ∈ state.history ∧ .waited true ∈ state.history

theorem kept_acknowledged (acknowledged : Bool) : Kept .signal (Acknowledged acknowledged) := by
  have hboth : Kept .signal fun state =>
      .engineEnded ∈ state.history ∧ .waited true ∈ state.history :=
    (kept_mem _).and (kept_mem _)
  exact
    { stable := fun before after houtside h hack => hboth.stable before after houtside (h hack)
      own := fun before after harmed hhistory h hack =>
        hboth.own before after harmed hhistory (h hack) }

theorem only_lockGate {me} : (lockGate me).Only (Minor me) := by
  refine only_act fun choice state answer after hact => ?_
  split at hact
  · cases hact
    exact .of_eq rfl rfl rfl rfl
  · cases hact

theorem only_unlockGate {me} : unlockGate.Only (Minor me) :=
  only_act_some fun _ _ => .of_eq rfl rfl rfl rfl

variable {wakeups : Nat}

theorem only_awaitFinished {timeout start} :
    (awaitFinished timeout start wakeups).Only (Minor .signal) := by
  induction wakeups with
  | zero => exact only_asleep
  | succ wakeups ih =>
    refine only_bind only_act_read fun finished => ?_
    split
    · exact only_pure
    · refine only_bind only_act_read fun now => ?_
      split
      · exact only_pure
      · exact only_bind only_unlockGate fun _ => only_bind only_lockGate fun _ => ih

variable {timeout : Duration}

/-- The thread reads the gate once more when the loop has ended.  If it is
open, the engine has ended. -/
theorem ensures_waitFinished :
    Ensures protocol .signal Waiting (waitFinished timeout wakeups) Acknowledged := by
  have hread : Ensures protocol .signal Waiting
      (act fun _ state => some (state.finished, state.record (.waited state.finished)))
      Acknowledged := by
    refine ensures_act lasting_waiting.stable
      fun choice before answer after hbefore hsound hact => ?_
    cases hact
    refine ⟨adds_record.guarantee rfl, adds_record.sound hsound hbefore.2 hsound.slot, ?_⟩
    intro hfinished
    rw [adds_record.history, hfinished]
    exact ⟨mem_append_left _ (hsound.gate hbefore.1 hfinished), by simp⟩
  refine ensures_then only_lockGate lasting_waiting fun _ => ?_
  refine ensures_then only_act_read lasting_waiting fun start => ?_
  refine ensures_then only_awaitFinished lasting_waiting fun _ => ?_
  refine ensures_bind hread fun finished => ?_
  refine ensures_then only_unlockGate (kept_acknowledged finished).lasting
    fun _ => ?_
  exact ensures_pure fun _ h => h

theorem ensures_handleSignal :
    Ensures protocol .signal Waiting (handleSignal timeout wakeups) fun _ _ => True := by
  have hraise : raiseInterrupt.Only (Minor .signal) :=
    only_act_some fun _ _ => .of_eq rfl rfl rfl rfl
  have hterminate : terminate.Only (Minor .signal) := by
    refine only_act fun choice state answer after hact => ?_
    split at hact <;> cases hact
    · exact ⟨rfl, rfl, rfl, .inr ⟨.terminated, rfl, rfl, rfl⟩⟩
    · exact .of_eq rfl rfl rfl rfl
  refine ensures_then hraise lasting_waiting fun _ => ?_
  refine ensures_bind ensures_waitFinished fun acknowledged => ?_
  have hkept := kept_acknowledged acknowledged
  refine ensures_bind (ensures_takeRestore hkept) fun staged => ?_
  refine ensures_bind (ensures_restoreTaken hkept ?_) fun _ => ?_
  · intro hfull state hstate
    have hack : acknowledged = true := by
      by_contra hne
      rw [if_neg hne] at hfull
      cases hfull
    obtain ⟨hended, hwaited⟩ := hstate hack
    exact ⟨fun _ => hended, fun _ => hwaited⟩
  · exact (ensures_of_minor hterminate hkept.lasting).mono (fun _ h => h) fun _ _ _ => trivial

theorem ensures_signalThread :
    Ensures protocol .signal (fun state => ∀ acknowledged, .waited acknowledged ∉ state.history)
      (signalThread timeout wakeups) fun _ _ => True := by
  have hspawned : Ensures protocol .signal
      (fun state => ∀ acknowledged, .waited acknowledged ∉ state.history) spawned
      fun _ => Waiting := by
    refine ensures_act ?_ fun choice before answer after hbefore hsound hact => ?_
    · intro before after houtside hnot acknowledged
      exact stable_notMem rfl before after houtside (hnot acknowledged)
    · split at hact
      · rename_i harmed
        cases hact
        exact ⟨.refl, hsound, harmed, hbefore⟩
      · cases hact
  have hnext : nextSignal.Only (Minor .signal) := by
    refine only_act fun choice state answer after hact => ?_
    split at hact
    · cases hact
      exact .record rfl rfl
    · split at hact <;> cases hact
      exact .of_eq rfl rfl rfl rfl
  have hexit : exitThread.Only (Minor .signal) :=
    only_act_some fun _ _ => .of_eq rfl rfl rfl rfl
  refine ensures_bind hspawned fun _ => ?_
  refine ensures_then hnext lasting_waiting fun received => ?_
  cases received with
  | none => exact (ensures_of_minor hexit lasting_waiting).mono (fun _ h => h) fun _ _ _ => trivial
  | some signal =>
    exact ensures_bind ensures_handleSignal fun _ => ensures_of_minor hexit kept_true.lasting

/-! ## The operation -/

variable {state : State} {setup : Setup} {bounds : Bounds}

section

variable {lease : Lease}

/-- The operation marks itself finished when it has no lease, or when its
engine has ended. -/
theorem ensures_markFinished : Preserves .operation Over markFinished := by
  have hmark : Preserves .operation Over
      (act fun _ state => some ((), { state with finished := true }.record .finished)) := by
    refine ensures_act kept_over.stable fun choice before answer after hbefore hsound hact => ?_
    cases hact
    refine ⟨⟨.inr ⟨.finished, rfl, rfl⟩, id, fun h => absurd rfl h⟩, ?_, ?_⟩
    · refine hsound.extend rfl trivial hsound.slot fun harmed _ => .inl ?_
      rcases hbefore with hfresh | hended
      · have hunarmed := hfresh.1
        rw [show before.armed = true from harmed] at hunarmed
        cases hunarmed
      · exact hended
    · exact kept_over.own before _ rfl (.inr ⟨.finished, by simp, rfl⟩) hbefore
  refine ensures_then only_lockGate kept_over.lasting fun _ => ?_
  exact ensures_bind hmark fun _ => ensures_of_minor only_unlockGate kept_over.lasting

theorem only_disarmSignals : (disarmSignals lease).Only (Minor .operation) := by
  have hclose : closeHandle.Only (Minor .operation) :=
    only_act_some fun _ _ => .of_eq rfl rfl rfl rfl
  have hjoin : joinThread.Only (Minor .operation) := by
    refine only_act fun choice state answer after hact => ?_
    split at hact <;> cases hact
    exact .of_eq rfl rfl rfl rfl
  unfold disarmSignals
  split
  · exact only_bind hclose fun _ => only_bind hjoin fun _ => hclose
  · exact only_pure

theorem Over.mayUnbar (h : Over state) : MayUnbar .operation state.history :=
  ⟨h.clear, by simp⟩

theorem ensures_takeAndRestore {α : Type}
    {rest : Option RestoreState → Except LifecycleError Unit → Step α}
    (hrest : ∀ staged result, Preserves .operation Over (rest staged result)) :
    Preserves .operation Over (do
        let staged ← takeRestore .operation
        let result ← restoreTaken .operation mode staged
        rest staged result) := by
  refine ensures_bind (ensures_takeRestore kept_over) fun staged => ?_
  refine ensures_bind (ensures_restoreTaken kept_over fun _ _ h => h.mayUnbar) fun result => ?_
  exact hrest staged result

theorem ensures_dropLease : Preserves .operation Over (dropLease lease) := by
  refine ensures_bind ensures_markFinished fun _ => ?_
  refine ensures_then only_disarmSignals kept_over.lasting fun _ => ?_
  exact ensures_takeAndRestore fun _ _ => preserves_pure

theorem ensures_release : Preserves .operation Over (release lease) := by
  refine ensures_bind ensures_markFinished fun _ => ?_
  refine ensures_then only_disarmSignals kept_over.lasting fun _ => ?_
  exact ensures_takeAndRestore fun _ _ =>
    ensures_bind ensures_dropLease fun _ => preserves_pure

theorem ensures_releaseLeavingActivationBarred :
    Preserves .operation Over (releaseLeavingActivationBarred lease) := by
  refine ensures_bind ensures_markFinished fun _ => ?_
  refine ensures_then only_disarmSignals kept_over.lasting fun _ => ?_
  refine ensures_takeAndRestore fun staged _ => ensures_bind ensures_dropLease fun _ => ?_
  cases staged <;> exact preserves_pure

variable {exit : Exit}

theorem ensures_giveUp : Preserves .operation Over (giveUp lease exit) := by
  cases exit with
  | release => exact ensures_bind ensures_release fun _ => preserves_pure
  | releaseLeavingActivationBarred =>
    exact ensures_bind ensures_releaseLeavingActivationBarred fun _ => preserves_pure
  | drop => exact ensures_dropLease

/-- There is no lease, and the operation has not marked itself finished. -/
def Unleased (state : State) : Prop := Fresh state ∧ state.finished = false

theorem lasting_unleased : Lasting .operation Unleased :=
  kept_fresh.lasting.and ⟨stable_unfinished, fun _ _ h hbefore => h.finished.trans hbefore⟩

theorem ensures_fillSlot : Ensures protocol .operation (Mine .operation Unleased) (fillSlot staged)
      fun _ => Unleased := by
  refine ensures_act lasting_unleased.mine.stable
    fun choice before answer after hbefore hsound hact => ?_
  cases hact
  refine ⟨⟨.inr ⟨.leased, rfl, rfl⟩, id, fun h => absurd rfl h⟩, ?_, ?_, hbefore.2.2⟩
  · exact hsound.extend rfl hbefore.1 (fun _ => rfl)
      fun harmed hfinished => .inl (hsound.gate harmed hfinished)
  · exact kept_fresh.own before _ rfl (.inr ⟨.leased, by simp, rfl⟩) hbefore.2.1

theorem ensures_armWatch :
    Ensures protocol .operation Unleased armWatch fun result state => match result with
      | .ok () => True
      | .error _ => Over state := by
  refine ensures_act lasting_unleased.stable
    fun choice before answer after hbefore hsound hact => ?_
  split at hact <;> cases hact
  · exact ⟨.refl, hsound, .inl hbefore.1⟩
  · refine ⟨⟨.inl rfl, fun _ => rfl, fun h => absurd rfl h⟩, ?_, trivial⟩
    refine ⟨hsound.history, hsound.slot, fun _ hfinished => ?_⟩
    have hunfinished := hbefore.2
    rw [show before.finished = true from hfinished] at hunfinished
    cases hunfinished

theorem ensures_armSignalsWith :
    Ensures protocol .operation Unleased armSignalsWith fun result state => match result with
      | .ok () => True
      | .error _ => Over state := by
  refine ensures_bind ensures_armWatch fun armed => ?_
  cases armed with
  | ok _ => exact ensures_pure fun _ h => h
  | error e =>
    refine ensures_bind (ensures_takeRestore kept_over) fun staged => ?_
    refine ensures_bind (ensures_restoreTaken kept_over fun _ _ h => h.mayUnbar) fun _ => ?_
    exact ensures_pure fun _ h => h

theorem ensures_acquired : Ensures protocol .operation (fun _ => True) (record .acquired)
    fun _ _ => True := by
  refine ensures_act kept_true.stable fun choice before answer after _ hsound hact => ?_
  cases hact
  exact ⟨adds_record.guarantee rfl, adds_record.sound hsound trivial hsound.slot, trivial⟩

theorem ensures_hold : Ensures protocol .operation (Mine .operation Unleased) (hold setup staged)
      fun _ _ => True := by
  refine ensures_bind ensures_fillSlot fun _ => ?_
  split
  · refine ensures_bind ensures_armSignalsWith fun armed => ?_
    cases armed with
    | error e => exact ensures_bind ensures_dropLease fun _ => ensures_pure fun _ _ => trivial
    | ok _ => exact ensures_bind ensures_acquired fun _ => ensures_pure fun _ _ => trivial
  · refine (ensures_bind ensures_acquired fun _ => ensures_pure fun _ _ => trivial).mono
      (fun _ _ => trivial) fun _ _ h => h

theorem ensures_acquire {polls} :
    Ensures protocol .operation (Mine .operation Unleased) (acquire setup polls)
      fun _ _ => True := by
  have hmine := lasting_unleased.mine
  refine ensures_then only_act_read hmine fun found => ?_
  split
  · exact ensures_pure fun _ _ => trivial
  refine ensures_then only_acquireLifecycleLock hmine fun locked => ?_
  cases locked with
  | error e => exact ensures_pure fun _ _ => trivial
  | ok _ =>
    refine ensures_then only_stage hmine fun outcome => ?_
    obtain ⟨staged, result⟩ := outcome
    cases result with
    | ok _ => exact ensures_hold
    | error e =>
      have hrestore : Ensures protocol .operation (Mine .operation Over)
          (restore .operation staged .full) fun _ => Over :=
        ensures_restore kept_over fun _ _ h => h.mayUnbar
      refine ensures_bind (hrestore.mono (fun _ h => ⟨h.1, .inl h.2.1⟩) fun _ _ h => h)
        fun _ => ?_
      exact ensures_pure fun _ _ => trivial

theorem only_engine {deletions} : (engine deletions).Only (Minor .operation) := by
  induction deletions with
  | zero => exact only_pure
  | succ deletions ih =>
    refine only_bind only_act_read fun interrupted => ?_
    split
    · exact only_pure
    · refine only_bind (only_act_some fun _ _ => .record rfl rfl) fun outcome => ?_
      cases outcome with
      | more => exact ih
      | returned => exact only_pure
      | unwound => exact only_pure

/-- Nothing is promised while the engine runs. -/
theorem ensures_useLease {deletions : Nat} :
    Ensures protocol .operation (fun _ => True) (useLease lease exit deletions)
      fun _ _ => True := by
  have hended : Ensures protocol .operation (fun _ => True) (record .engineEnded)
      fun _ => Over := by
    refine ensures_act kept_true.stable fun choice before answer after _ hsound hact => ?_
    cases hact
    refine ⟨adds_record.guarantee rfl, adds_record.sound hsound trivial hsound.slot, .inr ?_⟩
    rw [adds_record.history]
    simp
  refine ensures_then only_engine kept_true.lasting fun returned => ?_
  refine ensures_bind hended fun _ => ?_
  split
  · refine ensures_bind ensures_markFinished fun _ => ?_
    exact ensures_giveUp.mono (fun _ h => h) fun _ _ _ => trivial
  · exact ensures_dropLease.mono (fun _ h => h) fun _ _ _ => trivial

theorem ensures_operation :
    Ensures protocol .operation (Mine .operation Unleased) (operation setup bounds exit)
      fun _ _ => True := by
  refine ensures_bind ensures_acquire fun acquired => ?_
  cases acquired with
  | error e => exact ensures_pure fun _ _ => trivial
  | ok lease => exact ensures_useLease

end

/-! ## The process -/

theorem only_otherProcesses {changes} : (otherProcesses changes).Only (Minor .outside) := by
  induction changes with
  | zero => exact only_pure
  | succ changes ih =>
    exact only_bind (only_act_some fun _ _ => .of_eq rfl rfl rfl rfl) fun _ => ih

theorem follows_process {changes main disk}
    (hmain : Ensures protocol .operation (Mine .operation Unleased) main fun _ _ => True) :
    (process setup bounds changes main disk).Follows protocol where
  inv := ⟨by simp [process, State.start], by simp [process, State.start],
    by simp [process, State.start]⟩
  threads i := by
    cases i with
    | operation => exact hmain _ ⟨rfl, ⟨rfl, by simp [process, State.start]⟩, rfl⟩
    | signal => exact ensures_signalThread _ (by simp [process, State.start])
    | outside => exact (ensures_of_minor only_otherProcesses kept_true.lasting) _ trivial

/-- While the engine runs under the lease the bar stays, there is at most
one restore, and a signal whose wait was not acknowledged lifts nothing. -/
structure Excludes (history : List Event) : Prop where
  engine : ∀ past event rest, history = past ++ event :: rest → event.isUnbarring →
    .acquired ∈ past → .engineEnded ∈ past
  restores : history.countP Event.isRestoring ≤ 1
  signal : .waited false ∈ history → ∀ event ∈ history, event.isUnbarring →
    event.author ≠ .signal

/-- The signal thread waits once. -/
theorem waited_once (h : Sound state) {first second} (hfirst : .waited first ∈ state.history)
    (hsecond : .waited second ∈ state.history) : first = second := by
  obtain ⟨past, rest, hpast⟩ := append_of_mem hfirst
  obtain ⟨past', rest', hpast'⟩ := append_of_mem hsecond
  have hone := h.history _ _ _ hpast
  have htwo := h.history _ _ _ hpast'
  rw [hpast] at hpast'
  rcases append_eq_append_iff.mp hpast' with ⟨new, rfl, hnew⟩ | ⟨new, rfl, hnew⟩
  · cases new with
    | nil => exact (Event.waited.inj (cons.inj hnew).1)
    | cons event new =>
      obtain ⟨rfl, -⟩ := cons.inj hnew
      exact absurd (by simp) (htwo first)
  · cases new with
    | nil => exact (Event.waited.inj (cons.inj hnew).1).symm
    | cons event new =>
      obtain ⟨rfl, -⟩ := cons.inj hnew
      exact absurd (by simp) (hone second)

theorem Sound.mayUnbar (h : Sound state) {past rest}
    (hhistory : state.history = past ++ event :: rest) (hkind : event.isUnbarring) :
    MayUnbar event.author past := by
  have hpermitted := h.history past event rest hhistory
  cases event <;> first | exact hpermitted | cases hkind

theorem Sound.excludes (h : Sound state) : Excludes state.history where
  engine past event rest hhistory hkind hacquired := (h.mayUnbar hhistory hkind).1 hacquired
  restores := by
    refine Nat.le_trans (restores_le h.history) ?_
    cases holder state.history <;> simp [Holder.restores]
  signal hexpired event hmem hkind hauthor := by
    obtain ⟨past, rest, hhistory⟩ := append_of_mem hmem
    have hwaited : .waited true ∈ past := (h.mayUnbar hhistory hkind).2 hauthor
    have hmem : .waited true ∈ state.history := by
      rw [hhistory]
      exact mem_append_left _ hwaited
    exact absurd (waited_once h hexpired hmem) (by simp)

/-- The lease excludes, for every interleaving of the operation, the signal
thread and other processes, and for all answers of the world. -/
theorem lease_excludes (setup : Setup) (bounds : Bounds) (changes : Nat) (exit : Exit)
    (disk : Disk) (events : List (Thread × Choice)) (final : Pool Thread State Choice)
    (hrun : run Pool.step events
      (process setup bounds changes (operation setup bounds exit) disk) = some final) :
    Excludes final.state.history := by
  have hsound : Sound final.state := run_keeps_inv (follows_process ensures_operation) hrun
  exact hsound.excludes

/-! ## A run in which the wait expires -/

def sampleSetup : Setup where
  layout := { base := "/", expectedOwner := (0, 0) }
  stopTimeout := 10000000000
  busTimeout := 5000000000
  signalAckTimeout := 5000000000
  armSignals := true
  delegates := fun _ => none

def sampleDisk : Disk where
  names := [("/run/facelock", 1), ("/run/facelock/lifecycle.lock", 2),
    ("/run/systemd/system.control", 3)]
  files := fun file =>
    if file = 2 then
      { kind := .regular, nlink := 1, len := 0, mode := 0o100600, uid := 0, gid := 0 }
    else { kind := .directory, nlink := 2, len := 0, mode := 0o040755, uid := 0, gid := 0 }
  contents := fun _ => ""
  next := 4

def sampleBounds : Bounds := { polls := 3, wakeups := 3, deletions := 3 }

/-- A world in which nothing fails. -/
def fair : Choice where
  failure := none

/-- The operation acquires the lease.  The signal arrives during the engine,
and the engine goes on for longer than the timeout. -/
def expiredWait : List (Thread × Choice) :=
  replicate 16 (.operation, fair) ++
  [(.operation, { fair with shown := ⟨"loaded", "active", "enabled"⟩ })] ++
  replicate 20 (.operation, fair) ++
  [(.signal, fair), (.signal, { fair with signal := some 15 })] ++
  replicate 4 (.signal, fair) ++
  [(.signal, { fair with now := 6000000000 }), (.operation, fair)] ++
  replicate 8 (.signal, fair)

/-- The signal thread leaves the bar, and the process dies. -/
theorem expiredWait_history : (run Pool.step expiredWait (process sampleSetup sampleBounds 0
        (operation sampleSetup sampleBounds .release) sampleDisk)).map
      (fun final => final.state.history) =
    some [.reloaded .operation, .stopped, .leased, .acquired, .deleted, .received 15, .deleted,
      .waited false, .took .signal, .restoring .signal .leaveBarred, .unlocked .signal,
      .terminated] := by
  decide +kernel

theorem lease_excludes_expired :
    ∃ final, run Pool.step expiredWait (process sampleSetup sampleBounds 0
        (operation sampleSetup sampleBounds .release) sampleDisk) = some final ∧
      .waited false ∈ final.state.history ∧ Excludes final.state.history := by
  obtain ⟨final, hrun, hhistory⟩ := Option.map_eq_some_iff.mp expiredWait_history
  refine ⟨final, hrun, by simp [hhistory], ?_⟩
  exact lease_excludes sampleSetup sampleBounds 0 .release sampleDisk expiredWait final hrun

end Facelock.Lifecycle
