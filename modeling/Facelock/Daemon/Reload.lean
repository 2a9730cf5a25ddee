import Facelock.Lib.Transition
import Mathlib.Logic.Function.Basic
import Mathlib.Data.Nat.Basic
import Mathlib.Order.Lattice

/-!
# Reloading the handler

`maybe_reload_handler_at` of `crates/facelock-daemon/src/server.rs`
replaces the handler after a change of the configuration file.  A call
claims the modification time that it has observed, rebuilds the handler
without a lock, and then installs the result if its time is still the one
that was claimed last.

Any number of calls run at once.  A step is what a call does under one
acquisition of the lock of `config_mtime`, or its rebuild.  A rebuild reads
the configuration file, which others edit at any time, and it may fail.

The state keeps a log of the claims, rebuilds and installs, the newest
first.  `Ordered` says what each entry of the log has to do with the older
ones, and `Invariant` is what the calls that are still under way know
about the log.
-/

namespace Facelock.Daemon.Reload

open Transition List

variable {Time : Type}

/-! ## The source -/

/-- A handler with the modification time that it was rebuilt for and the
edition of the file that the rebuild read. -/
structure Handler (Time : Type) where
  mtime : Time
  edition : Nat
  deriving DecidableEq, Repr

/-- Where a call stands. -/
inductive Progress (Time : Type) where
  | waiting
  | rebuilding (mtime : Time)
  | rebuilt (handler : Handler Time)
  | returned
  deriving DecidableEq, Repr

inductive Effect (Time : Type) where
  | claimed (mtime : Time)
  | rebuilt (mtime : Time)
  | installed (handler : Handler Time)
  deriving DecidableEq, Repr

structure State (Time : Type) where
  configMtime : Option Time
  /-- The lock of `config_mtime` is poisoned. -/
  poisoned : Bool
  /-- How often the configuration file was edited. -/
  edition : Nat
  calls : Nat → Progress Time
  log : List (Effect Time)

/-- The service after its start.  The handler of the start is the first one
that was installed, for the modification time that was read then. -/
def State.initial (startup : Option Time) : State Time where
  configMtime := startup
  poisoned := false
  edition := 0
  calls := fun _ => .waiting
  log := match startup with
    | some mtime => [.installed ⟨mtime, 0⟩, .claimed mtime]
    | none => []

inductive Event (Time : Type) where
  | claim (call : Nat) (currentMtime : Option Time)
  | rebuild (call : Nat) (succeeds : Bool)
  | install (call : Nat)
  | edit
  | poison
  deriving DecidableEq, Repr

def State.advance (state : State Time) (call : Nat) (progress : Progress Time) : State Time :=
  { state with calls := Function.update state.calls call progress }

theorem State.advance_calls (state : State Time) (call : Nat) (progress : Progress Time)
    (other : Nat) : (state.advance call progress).calls other =
      if other = call then progress else state.calls other :=
  Function.update_apply ..

theorem State.of_advance_returned {state : State Time} {call other progress}
    (h : (state.advance call .returned).calls other = progress) (hne : progress ≠ .returned) :
    other ≠ call ∧ state.calls other = progress := by
  rw [State.advance_calls] at h
  split_ifs at h with heq
  · exact absurd h.symm hne
  · exact ⟨heq, h⟩

variable [LinearOrder Time]

/-- The time that a call claims, if it sees a later one. -/
def needsReload (stored currentMtime : Option Time) : Option Time :=
  match stored, currentMtime with
  | some old, some new => if old < new then some new else none
  | _, _ => none

def step : Event Time → State Time → Option (State Time)
  | .claim call currentMtime, state =>
    match state.calls call with
    | .waiting =>
      if state.poisoned then some (state.advance call .returned)
      else
        match needsReload state.configMtime currentMtime with
        | some mtime =>
          some ({ state with
            configMtime := some mtime
            log := .claimed mtime :: state.log }.advance call (.rebuilding mtime))
        | none => some (state.advance call .returned)
    | _ => none
  | .rebuild call succeeds, state =>
    match state.calls call with
    | .rebuilding mtime =>
      let state := { state with log := .rebuilt mtime :: state.log }
      if succeeds then some (state.advance call (.rebuilt ⟨mtime, state.edition⟩))
      else some (state.advance call .returned)
    | _ => none
  | .install call, state =>
    match state.calls call with
    | .rebuilt handler =>
      if state.poisoned then some (state.advance call .returned)
      else if state.configMtime ≠ some handler.mtime then some (state.advance call .returned)
      else some ({ state with log := .installed handler :: state.log }.advance call .returned)
    | _ => none
  | .edit, state => some { state with edition := state.edition + 1 }
  | .poison, state => some { state with poisoned := true }

/-! ## What a step can do -/

/-- The steps, told from the state before. -/
inductive Step (state : State Time) : State Time → Prop where
  | returns (call : Nat) : Step state (state.advance call .returned)
  | claims (call : Nat) (old mtime : Time) (hstored : state.configMtime = some old)
      (hlater : old < mtime) :
      Step state ({ state with
        configMtime := some mtime
        log := .claimed mtime :: state.log }.advance call (.rebuilding mtime))
  | rebuilds (call : Nat) (mtime : Time) (hcall : state.calls call = .rebuilding mtime)
      (progress : Progress Time)
      (hprogress : progress = .returned ∨ progress = .rebuilt ⟨mtime, state.edition⟩) :
      Step state ({ state with log := .rebuilt mtime :: state.log }.advance call progress)
  | installs (call : Nat) (handler : Handler Time) (hcall : state.calls call = .rebuilt handler)
      (hstored : state.configMtime = some handler.mtime) :
      Step state ({ state with log := .installed handler :: state.log }.advance call .returned)
  | edits : Step state { state with edition := state.edition + 1 }
  | poisons : Step state { state with poisoned := true }

theorem needsReload_eq_some {stored currentMtime} {mtime : Time}
    (h : needsReload stored currentMtime = some mtime) :
    ∃ old, stored = some old ∧ old < mtime := by
  unfold needsReload at h
  split at h
  · split at h <;> cases h
    exact ⟨_, rfl, ‹_›⟩
  · cases h

theorem Step.of_step {event} {state next : State Time}
    (h : step event state = some next) : Step state next := by
  cases event with
  | claim call currentMtime =>
    rw [step] at h
    split at h
    · split at h
      · cases h
        exact .returns call
      · split at h <;> cases h
        · next mtime hneeds =>
          obtain ⟨old, hstored, hlater⟩ := needsReload_eq_some hneeds
          exact .claims call old mtime hstored hlater
        · exact .returns call
    · cases h
  | rebuild call succeeds =>
    rw [step] at h
    split at h
    · next mtime hcall =>
      split at h <;> cases h
      · exact .rebuilds call mtime hcall _ (Or.inr rfl)
      · exact .rebuilds call mtime hcall _ (Or.inl rfl)
    · cases h
  | install call =>
    rw [step] at h
    split at h
    · next handler hcall =>
      split_ifs at h with hpoisoned hstored <;> cases h
      · exact .returns call
      · exact .returns call
      · exact .installs call handler hcall (not_not.mp hstored)
    · cases h
  | edit =>
    cases h
    exact .edits
  | poison =>
    cases h
    exact .poisons

/-! ## The log -/

def claims (log : List (Effect Time)) : List Time :=
  log.filterMap fun
    | .claimed mtime => some mtime
    | _ => none

def rebuilds (log : List (Effect Time)) : List Time :=
  log.filterMap fun
    | .rebuilt mtime => some mtime
    | _ => none

def installs (log : List (Effect Time)) : List (Handler Time) :=
  log.filterMap fun
    | .installed handler => some handler
    | _ => none

/-- What an entry has to do with the older ones. -/
def Effect.Follows (older : List (Effect Time)) : Effect Time → Prop
  | .claimed _ => True
  | .rebuilt mtime => mtime ∉ rebuilds older
  | .installed handler =>
    (∀ mtime ∈ claims older, mtime ≤ handler.mtime) ∧
      ∀ earlier ∈ installs older,
        earlier.mtime < handler.mtime ∧ earlier.edition ≤ handler.edition

def Ordered : List (Effect Time) → Prop
  | [] => True
  | effect :: older => effect.Follows older ∧ Ordered older

section Log

variable {log : List (Effect Time)}

theorem Ordered.follows {newer older} {effect : Effect Time}
    (h : Ordered (newer ++ effect :: older)) : effect.Follows older := by
  induction newer with
  | nil => exact h.1
  | cons _ newer ih => exact ih h.2

theorem Ordered.installs_pairwise (h : Ordered log) : (installs log).Pairwise fun later earlier =>
      earlier.mtime < later.mtime ∧ earlier.edition ≤ later.edition := by
  induction log with
  | nil => exact List.Pairwise.nil
  | cons effect log ih =>
    cases effect with
    | claimed mtime => exact ih h.2
    | rebuilt mtime => exact ih h.2
    | installed handler => exact List.Pairwise.cons h.1.2 (ih h.2)

theorem Ordered.rebuilds_nodup (h : Ordered log) : (rebuilds log).Nodup := by
  induction log with
  | nil => exact nodup_nil
  | cons effect log ih =>
    cases effect with
    | claimed mtime => exact ih h.2
    | rebuilt mtime => exact nodup_cons.mpr ⟨h.1, ih h.2⟩
    | installed handler => exact ih h.2

end Log

/-! ## The calls under way -/

/-- The time that a call has claimed and not used yet. -/
def Progress.mtime : Progress Time → Option Time
  | .rebuilding mtime => some mtime
  | .rebuilt handler => some handler.mtime
  | _ => none

structure Invariant (state : State Time) : Prop where
  ordered : Ordered state.log
  claimed : ∀ mtime ∈ claims state.log, ∀ stored, state.configMtime = some stored →
    mtime ≤ stored
  rebuilt : ∀ mtime ∈ rebuilds state.log, mtime ∈ claims state.log
  installed : ∀ handler ∈ installs state.log,
    handler.mtime ∈ claims state.log ∧ handler.edition ≤ state.edition
  /-- A call owns the time that it has claimed. -/
  owned : ∀ call mtime, (state.calls call).mtime = some mtime →
    mtime ∈ claims state.log ∧ (∀ handler ∈ installs state.log, handler.mtime ≠ mtime) ∧
      ∀ other, (state.calls other).mtime = some mtime → other = call
  rebuilding : ∀ call mtime, state.calls call = .rebuilding mtime →
    mtime ∉ rebuilds state.log
  read : ∀ call handler, state.calls call = .rebuilt handler → handler.edition ≤ state.edition
  /-- Nothing was installed since a handler that can be installed was
  rebuilt. -/
  current : ∀ call handler, state.calls call = .rebuilt handler →
    state.configMtime = some handler.mtime →
    ∀ earlier ∈ installs state.log, earlier.edition ≤ handler.edition

section Kept

variable {state next : State Time}

theorem Invariant.initial (startup : Option Time) : Invariant (State.initial startup) := by
  cases startup with
  | none => exact ⟨trivial, by simp [State.initial, claims], by simp [State.initial, rebuilds],
      by simp [State.initial, installs], by simp [State.initial, Progress.mtime],
      by simp [State.initial], by simp [State.initial], by simp [State.initial]⟩
  | some mtime => exact ⟨by simp [State.initial, Ordered, Effect.Follows, claims, installs],
      by simp [State.initial, claims], by simp [State.initial, rebuilds],
      by simp [State.initial, claims, installs], by simp [State.initial, Progress.mtime],
      by simp [State.initial], by simp [State.initial], by simp [State.initial]⟩

section

variable (h : Invariant state)

include h

theorem Invariant.returns (call : Nat) : Invariant (state.advance call .returned) := by
  have hmtime : ∀ other mtime, ((state.advance call .returned).calls other).mtime = some mtime →
      (state.calls other).mtime = some mtime := by
    intro other mtime hsome
    rw [State.advance_calls] at hsome
    split_ifs at hsome
    · cases hsome
    · exact hsome
  refine ⟨h.ordered, h.claimed, h.rebuilt, h.installed, ?_, ?_, ?_, ?_⟩
  · intro other mtime hsome
    obtain ⟨hclaimed, hfresh, hunique⟩ := h.owned other mtime (hmtime other mtime hsome)
    exact ⟨hclaimed, hfresh, fun third hthird => hunique third (hmtime third mtime hthird)⟩
  · intro other mtime hcall
    exact h.rebuilding other mtime (State.of_advance_returned hcall (by simp)).2
  · intro other handler hcall
    exact h.read other handler (State.of_advance_returned hcall (by simp)).2
  · intro other handler hcall
    exact h.current other handler (State.of_advance_returned hcall (by simp)).2

/-- A claim is later than all before it, so the call owns it alone. -/
theorem Invariant.claims (call : Nat) {old mtime} (hstored : state.configMtime = some old)
    (hlater : old < mtime) :
    Invariant ({ state with
      configMtime := some mtime
      log := .claimed mtime :: state.log }.advance call (.rebuilding mtime)) := by
  have hfresh : mtime ∉ Reload.claims state.log := fun hmem =>
    absurd (h.claimed mtime hmem old hstored) (not_le_of_gt hlater)
  have hnone : ∀ other, (state.calls other).mtime ≠ some mtime := fun other hsome =>
    hfresh (h.owned other mtime hsome).1
  refine ⟨⟨trivial, h.ordered⟩, ?_, ?_, ?_, ?_, ?_, ?_, ?_⟩
  · intro earlier hearlier stored heq
    obtain rfl := Option.some.inj heq
    obtain rfl | hold := mem_cons.mp hearlier
    · exact le_refl _
    · exact le_of_lt (lt_of_le_of_lt (h.claimed earlier hold old hstored) hlater)
  · exact fun earlier hearlier => mem_cons_of_mem _ (h.rebuilt earlier hearlier)
  · intro handler hhandler
    obtain ⟨hclaimed, hedition⟩ := h.installed handler hhandler
    exact ⟨mem_cons_of_mem _ hclaimed, hedition⟩
  · intro other earlier hsome
    rw [State.advance_calls] at hsome
    split_ifs at hsome with heq
    · subst heq
      obtain rfl := Option.some.inj hsome
      refine ⟨mem_cons_self .., ?_, ?_⟩
      · rintro handler hhandler rfl
        exact hfresh (h.installed handler hhandler).1
      · intro third hthird
        rw [State.advance_calls] at hthird
        split_ifs at hthird with hthis
        · exact hthis
        · exact absurd hthird (hnone third)
    · obtain ⟨hclaimed, hunused, hunique⟩ := h.owned other earlier hsome
      refine ⟨mem_cons_of_mem _ hclaimed, hunused, fun third hthird => ?_⟩
      rw [State.advance_calls] at hthird
      split_ifs at hthird
      · obtain rfl := Option.some.inj hthird
        exact absurd hsome (hnone other)
      · exact hunique third hthird
  · intro other earlier hcall
    rw [State.advance_calls] at hcall
    split_ifs at hcall
    · cases hcall
      exact fun hmem => hfresh (h.rebuilt mtime hmem)
    · exact h.rebuilding other earlier hcall
  · intro other handler hcall
    rw [State.advance_calls] at hcall
    split_ifs at hcall
    exact h.read other handler hcall
  · intro other handler hcall heq
    -- A handler that was rebuilt before the claim has an earlier time.
    rw [State.advance_calls] at hcall
    split_ifs at hcall
    obtain rfl := Option.some.inj heq
    exact absurd (congrArg Progress.mtime hcall) (hnone other)

theorem Invariant.rebuilds {call mtime} (hcall : state.calls call = .rebuilding mtime) {progress}
    (hprogress : progress = .returned ∨ progress = .rebuilt ⟨mtime, state.edition⟩) :
    Invariant
      ({ state with log := .rebuilt mtime :: state.log }.advance call progress) := by
  have howned : (state.calls call).mtime = some mtime := congrArg Progress.mtime hcall
  have hmtime : ∀ other earlier,
      (({ state with log := .rebuilt mtime :: state.log }.advance call progress).calls
        other).mtime = some earlier → (state.calls other).mtime = some earlier := by
    intro other earlier hsome
    rw [State.advance_calls] at hsome
    split_ifs at hsome with heq
    · obtain rfl | rfl := hprogress
      · cases hsome
      · rw [heq, howned]
        exact hsome
    · exact hsome
  refine ⟨⟨h.rebuilding call mtime hcall, h.ordered⟩, h.claimed, ?_, h.installed, ?_, ?_, ?_, ?_⟩
  · intro earlier hearlier
    obtain rfl | hold := mem_cons.mp hearlier
    · exact (h.owned call earlier howned).1
    · exact h.rebuilt earlier hold
  · intro other earlier hsome
    obtain ⟨hclaimed, hunused, hunique⟩ := h.owned other earlier (hmtime other earlier hsome)
    exact ⟨hclaimed, hunused, fun third hthird => hunique third (hmtime third earlier hthird)⟩
  · intro other earlier hother
    rw [State.advance_calls] at hother
    split_ifs at hother with heq
    · obtain rfl | rfl := hprogress <;> cases hother
    · intro hmem
      obtain rfl | hold := mem_cons.mp hmem
      · exact heq ((h.owned call earlier howned).2.2 other (congrArg Progress.mtime hother))
      · exact h.rebuilding other earlier hother hold
  · intro other handler hother
    rw [State.advance_calls] at hother
    split_ifs at hother
    · obtain rfl | rfl := hprogress <;> cases hother
      exact Nat.le_refl _
    · exact h.read other handler hother
  · intro other handler hother hstored
    rw [State.advance_calls] at hother
    split_ifs at hother
    · obtain rfl | rfl := hprogress <;> cases hother
      exact fun earlier hearlier => (h.installed earlier hearlier).2
    · exact h.current other handler hother hstored

/-- A handler is installed while its time is the one that was claimed
last. -/
theorem Invariant.installs {call handler} (hcall : state.calls call = .rebuilt handler)
    (hstored : state.configMtime = some handler.mtime) :
    Invariant
      ({ state with log := .installed handler :: state.log }.advance call .returned) := by
  obtain ⟨hclaimed, hunused, hunique⟩ :=
    h.owned call handler.mtime (congrArg Progress.mtime hcall)
  have hfollows : Effect.Follows state.log (.installed handler) := by
    refine ⟨fun mtime hmtime => h.claimed mtime hmtime _ hstored, fun earlier hearlier => ?_⟩
    have hle := h.claimed _ (h.installed earlier hearlier).1 _ hstored
    exact ⟨lt_of_le_of_ne hle (hunused earlier hearlier),
      h.current call handler hcall hstored earlier hearlier⟩
  refine ⟨⟨hfollows, h.ordered⟩, h.claimed, h.rebuilt, ?_, ?_, ?_, ?_, ?_⟩
  · intro other hmem
    obtain rfl | hold := mem_cons.mp hmem
    · exact ⟨hclaimed, h.read call other hcall⟩
    · exact h.installed other hold
  · intro other mtime hsome
    rw [State.advance_calls] at hsome
    split_ifs at hsome with hne
    · cases hsome
    · obtain ⟨hmem, hfresh, honly⟩ := h.owned other mtime hsome
      refine ⟨hmem, fun earlier hearlier => ?_, fun third hthird => ?_⟩
      · obtain rfl | hold := mem_cons.mp hearlier
        · rintro rfl
          exact hne (hunique other hsome)
        · exact hfresh earlier hold
      · rw [State.advance_calls] at hthird
        split_ifs at hthird
        · cases hthird
        · exact honly third hthird
  · intro other mtime hrebuilding
    exact h.rebuilding other mtime (State.of_advance_returned hrebuilding (by simp)).2
  · intro other built hbuilt
    exact h.read other built (State.of_advance_returned hbuilt (by simp)).2
  · intro other built hbuilt hsame
    -- Only this call had a handler for the time that is stored.
    obtain ⟨hne, hbuilt⟩ := State.of_advance_returned hbuilt (by simp)
    have hmtime : (state.calls other).mtime = some built.mtime := congrArg Progress.mtime hbuilt
    rw [← hsame, hstored] at hmtime
    exact absurd (hunique other hmtime) hne

theorem Invariant.edits : Invariant { state with edition := state.edition + 1 } :=
  ⟨h.ordered, h.claimed, h.rebuilt,
    fun handler hmem =>
      ⟨(h.installed handler hmem).1, Nat.le_succ_of_le (h.installed handler hmem).2⟩,
    h.owned, h.rebuilding, fun call handler hcall => Nat.le_succ_of_le (h.read call handler hcall),
    h.current⟩

theorem Invariant.poisons : Invariant { state with poisoned := true } :=
  ⟨h.ordered, h.claimed, h.rebuilt, h.installed, h.owned, h.rebuilding, h.read, h.current⟩

theorem Invariant.step (hstep : Step state next) : Invariant next := by
  cases hstep with
  | returns call => exact h.returns call
  | claims call old mtime hstored hlater => exact h.claims call hstored hlater
  | rebuilds call mtime hcall progress hprogress => exact h.rebuilds hcall hprogress
  | installs call handler hcall hstored => exact h.installs hcall hstored
  | edits => exact h.edits
  | poisons => exact h.poisons

end

end Kept

/-- In every interleaving the handlers come in the order of their times and
of the editions that they were read from, a time is rebuilt for once at
most, and no claim of a later time comes before an install. -/
theorem handlers_never_go_back (startup : Option Time) (events : List (Event Time))
    (final : State Time) (hrun : run step events (State.initial startup) = some final) :
    ((installs final.log).Pairwise fun later earlier =>
        earlier.mtime < later.mtime ∧ earlier.edition ≤ later.edition) ∧
      (rebuilds final.log).Nodup ∧
      ∀ newer older handler, final.log = newer ++ .installed handler :: older →
        ∀ mtime ∈ claims older, mtime ≤ handler.mtime := by
  have hinv : Invariant final := run_keeps
    (fun event state next h hstep => h.step (Step.of_step hstep)) (Invariant.initial startup) hrun
  refine ⟨hinv.ordered.installs_pairwise, hinv.ordered.rebuilds_nodup, ?_⟩
  intro newer older handler hlog
  have hordered := hinv.ordered
  rw [hlog] at hordered
  exact hordered.follows.1

/-- The rebuild for the time 1 ends after the handler for the time 2 was
installed. -/
def slowRebuild : List (Event Nat) :=
  [.claim 0 (some 1), .edit, .claim 1 (some 2), .rebuild 1 true, .install 1, .claim 2 (some 2),
    .rebuild 0 true, .install 0]

theorem handlers_never_go_back_slow :
    ∃ final, run step slowRebuild (State.initial (some 0)) = some final ∧
      installs final.log = [⟨2, 1⟩, ⟨0, 0⟩] ∧ rebuilds final.log = [1, 2] ∧
      (rebuilds final.log).Nodup := by
  refine ⟨_, rfl, by decide, by decide, ?_⟩
  exact (handlers_never_go_back (some 0) slowRebuild _ rfl).2.1

end Facelock.Daemon.Reload
