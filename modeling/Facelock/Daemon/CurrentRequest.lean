import Facelock.Lib.Transition
import Mathlib.Algebra.Group.Nat.Defs
import Mathlib.Logic.Function.Basic

/-!
# The request in flight

Suspend, `ReleaseCamera` and shutdown cancel the request that holds the
capture slot (`CurrentRequest` of `crates/facelock-daemon/src/server.rs`).
An authentication reads the cancellation epoch, does its checks, claims
the capture slot, and then publishes its cancel token unless the epoch has
moved.  After the capture it drops the guard of the token and then that of
the capture slot.

Any number of requests interleave with any number of cancels.  A step is
what happens under the mutex of the slot, or one operation on an atomic
variable.  Both counters are `u64` and wrap.

`Invariant` has two parts.  The capture slot has one holder, and the token
in the slot is the one of the holder whose guard is still there.  And each
request knows from the trace how many cancels came since its checkpoint
(`Story`).
-/

namespace Facelock.Daemon.CurrentRequest

open Transition List

/-! ## The source -/

/-- Where a request stands.  A guard is the generation of its token, and
there is none if `install_unless_cancelled_since` has refused. -/
inductive Stage where
  | ready
  | checked (checkpoint : Nat)
  | rejected
  | acquired (checkpoint : Nat)
  | admitted (guard : Option Nat)
  | captured (guard : Option Nat)
  | released
  | finished
  deriving DecidableEq, Repr

structure State where
  /-- The generation and the request whose token is published. -/
  slot : Option (Nat × Nat)
  generation : Nat
  cancellationEpoch : Nat
  /-- `CaptureSlot::busy`. -/
  busy : Bool
  stages : Nat → Stage
  /-- The cancel tokens of the requests. -/
  tokens : Nat → Bool

def State.initial : State :=
  ⟨none, 0, 0, false, fun _ => .ready, fun _ => false⟩

inductive Event where
  | checkpoint (request : Nat)
  | tryAcquire (request : Nat)
  | install (request : Nat)
  | capture (request : Nat)
  | dropCurrent (request : Nat)
  | dropCapture (request : Nat)
  | cancel
  deriving DecidableEq, Repr

/-- `fetch_add(1)` on an `AtomicU64`. -/
def fetchAdd (counter : Nat) : Nat := (counter + 1) % 2 ^ 64

variable (state : State)

def State.advance (request : Nat) (stage : Stage) : State :=
  { state with stages := Function.update state.stages request stage }

def State.setToken (request : Nat) : State :=
  { state with tokens := Function.update state.tokens request true }

def State.tryAcquire (request checkpoint : Nat) : State :=
  if state.busy then state.advance request .rejected
  else { state with busy := true }.advance request (.acquired checkpoint)

def State.installUnlessCancelledSince (request checkpoint : Nat) : State :=
  if state.cancellationEpoch ≠ checkpoint then
    (state.setToken request).advance request (.admitted none)
  else
    { state with
      slot := some (fetchAdd state.generation, request)
      generation := fetchAdd state.generation }.advance request
        (.admitted (some (fetchAdd state.generation)))

/-- `drop` of the `CurrentRequestGuard`. -/
def State.dropCurrent (guard : Option Nat) : State :=
  match guard with
  | none => state
  | some generation =>
    if state.slot.any fun entry => entry.1 == generation then { state with slot := none }
    else state

def State.cancel : State :=
  let state := { state with cancellationEpoch := fetchAdd state.cancellationEpoch }
  match state.slot with
  | some (_, request) => state.setToken request
  | none => state

def step : Event → State → Option State
  | .checkpoint request, state =>
    match state.stages request with
    | .ready => some (state.advance request (.checked state.cancellationEpoch))
    | _ => none
  | .tryAcquire request, state =>
    match state.stages request with
    | .checked checkpoint => some (state.tryAcquire request checkpoint)
    | _ => none
  | .install request, state =>
    match state.stages request with
    | .acquired checkpoint => some (state.installUnlessCancelledSince request checkpoint)
    | _ => none
  | .capture request, state =>
    match state.stages request with
    | .admitted guard => some (state.advance request (.captured guard))
    | _ => none
  | .dropCurrent request, state =>
    match state.stages request with
    | .captured guard => some ((state.dropCurrent guard).advance request .released)
    | _ => none
  | .dropCapture request, state =>
    match state.stages request with
    | .released => some ({ state with busy := false }.advance request .finished)
    | _ => none
  | .cancel, state => some state.cancel

/-! ## The holder of the capture slot -/

def Stage.holds : Stage → Bool
  | .acquired _ | .admitted _ | .captured _ | .released => true
  | _ => false

def Stage.guard : Stage → Option Nat
  | .admitted guard | .captured guard => guard
  | _ => none

theorem Stage.holds_of_guard {stage : Stage} {generation}
    (h : stage.guard = some generation) : stage.holds = true := by
  cases stage <;> simp_all [guard, holds]

structure Exclusive (state : State) : Prop where
  busy : ∀ request, (state.stages request).holds = true → state.busy = true
  alone : ∀ request other, (state.stages request).holds = true →
    (state.stages other).holds = true → request = other
  /-- The token in the slot is that of the request with the guard. -/
  owner : ∀ generation request,
    state.slot = some (generation, request) ↔ (state.stages request).guard = some generation

section Exclusive

variable {state next : State} {request other : Nat} {stage : Stage}

@[simp] theorem State.advance_self (state : State) (request : Nat) (stage : Stage) :
    (state.advance request stage).stages request = stage :=
  Function.update_self ..

theorem State.advance_other (state : State) (stage : Stage) (h : other ≠ request) :
    (state.advance request stage).stages other = state.stages other :=
  Function.update_of_ne h ..

theorem State.advance_congr {α} (f : Stage → α) (h : f stage = f (state.stages request))
    (other : Nat) : f ((state.advance request stage).stages other) = f (state.stages other) := by
  by_cases heq : other = request
  · rw [heq, State.advance_self]
    exact h
  · rw [State.advance_other _ _ heq]

theorem Exclusive.initial : Exclusive State.initial where
  busy := by simp [State.initial, Stage.holds]
  alone := by simp [State.initial, Stage.holds]
  owner := by simp [State.initial, Stage.guard]

section

variable (h : Exclusive state)

include h

/-- A request that goes on without a change to the capture slot and to its
guard. -/
theorem Exclusive.advance (hholds : stage.holds = (state.stages request).holds)
    (hguard : stage.guard = (state.stages request).guard) :
    Exclusive (state.advance request stage) := by
  have hsame := State.advance_congr Stage.holds hholds
  refine ⟨fun other hother => ?_, fun first second hfirst hsecond => ?_, fun generation other => ?_⟩
  · exact h.busy other (hsame other ▸ hother)
  · exact h.alone first second (hsame first ▸ hfirst) (hsame second ▸ hsecond)
  · rw [State.advance_congr Stage.guard hguard]
    exact h.owner generation other

theorem Exclusive.tryAcquire {checkpoint} (hstage : state.stages request = .checked checkpoint) :
    Exclusive (state.tryAcquire request checkpoint) := by
  unfold State.tryAcquire
  split
  · exact h.advance (by rw [hstage]; rfl) (by rw [hstage]; rfl)
  · next hbusy =>
    have hnone : ∀ other, (state.stages other).holds = false := by
      intro other
      by_contra hholds
      exact hbusy (h.busy other (by simpa using hholds))
    have honly : ∀ other,
        (({ state with busy := true }.advance request (.acquired checkpoint)).stages
          other).holds = true → other = request := by
      intro other hother
      by_contra hne
      rw [State.advance_other _ _ hne, hnone other] at hother
      cases hother
    refine ⟨fun _ _ => rfl, fun first second hfirst hsecond => ?_, fun generation other => ?_⟩
    · rw [honly first hfirst, honly second hsecond]
    · rw [State.advance_congr Stage.guard (by rw [hstage]; rfl)]
      exact h.owner generation other

/-- The request that holds the capture slot alone gets a guard or loses
it. -/
theorem Exclusive.change (hholds : (state.stages request).holds = true)
    (hbusy : next.busy = state.busy)
    (hstages : next.stages = Function.update state.stages request stage)
    (hslot : next.slot = stage.guard.map fun generation => (generation, request)) :
    Exclusive next := by
  have honly : ∀ other, (next.stages other).holds = true → other = request := by
    intro other hother
    by_contra hne
    rw [hstages, Function.update_of_ne hne] at hother
    exact hne (h.alone other request hother hholds)
  refine ⟨fun other _ => ?_, fun first second hfirst hsecond => ?_, fun generation other => ?_⟩
  · rw [hbusy]
    exact h.busy request hholds
  · rw [honly first hfirst, honly second hsecond]
  · rw [hslot, Option.map_eq_some_iff]
    constructor
    · rintro ⟨own, hown, heq⟩
      obtain ⟨rfl, rfl⟩ := Prod.mk.inj heq
      rw [hstages, Function.update_self]
      exact hown
    · intro hguard
      obtain rfl := honly other (Stage.holds_of_guard hguard)
      rw [hstages, Function.update_self] at hguard
      exact ⟨generation, hguard, rfl⟩

theorem Exclusive.install {checkpoint} (hstage : state.stages request = .acquired checkpoint) :
    Exclusive (state.installUnlessCancelledSince request checkpoint) := by
  have hholds : (state.stages request).holds = true := by
    rw [hstage]
    rfl
  unfold State.installUnlessCancelledSince
  split
  · have htoken : Exclusive (state.setToken request) := ⟨h.busy, h.alone, h.owner⟩
    exact htoken.advance hholds.symm (congrArg Stage.guard hstage).symm
  · exact h.change hholds rfl rfl rfl

/-- The guard of a request is the one in the slot, so dropping it empties
the slot. -/
theorem Exclusive.dropCurrent_slot {guard : Option Nat}
    (hstage : state.stages request = .captured guard) : (state.dropCurrent guard).slot = none := by
  cases guard with
  | some generation =>
    have hslot := (h.owner generation request).mpr (by rw [hstage]; rfl)
    simp [State.dropCurrent, hslot]
  | none =>
    show state.slot = none
    -- The capture slot has no other holder whose token could be there.
    rw [Option.eq_none_iff_forall_ne_some]
    rintro ⟨generation, other⟩ hslot
    have hguard := (h.owner generation other).mp hslot
    obtain rfl := h.alone other request (Stage.holds_of_guard hguard) (by rw [hstage]; rfl)
    rw [hstage] at hguard
    cases hguard

end

theorem State.dropCurrent_eq (state : State) (guard : Option Nat) :
    state.dropCurrent guard = { state with slot := (state.dropCurrent guard).slot } := by
  unfold dropCurrent
  split
  · rfl
  · split <;> rfl

theorem Exclusive.dropCurrent (h : Exclusive state) {guard}
    (hstage : state.stages request = .captured guard) :
    Exclusive ((state.dropCurrent guard).advance request .released) := by
  have hholds : (state.stages request).holds = true := by
    rw [hstage]
    rfl
  rw [State.dropCurrent_eq, h.dropCurrent_slot hstage]
  exact h.change hholds rfl rfl rfl

theorem Exclusive.dropCapture (h : Exclusive state) (hstage : state.stages request = .released) :
    Exclusive ({ state with busy := false }.advance request .finished) := by
  have hnone : ∀ other,
      (({ state with busy := false }.advance request .finished).stages other).holds = false := by
    intro other
    by_cases heq : other = request
    · rw [heq, State.advance_self]
      rfl
    · rw [State.advance_other _ _ heq]
      by_contra hholds
      exact heq (h.alone other request (by simpa using hholds) (by rw [hstage]; rfl))
  refine ⟨fun other hother => ?_, fun first second hfirst _ => ?_, fun generation other => ?_⟩
  · rw [hnone other] at hother
    cases hother
  · rw [hnone first] at hfirst
    cases hfirst
  · rw [State.advance_congr Stage.guard (by rw [hstage]; rfl)]
    exact h.owner generation other

theorem State.cancel_eq (state : State) : state.cancel = { state with
      cancellationEpoch := fetchAdd state.cancellationEpoch
      tokens := fun request => state.tokens request ||
        state.slot.any fun entry => entry.2 == request } := by
  unfold cancel
  cases hslot : state.slot with
  | none => simp
  | some entry =>
    have htokens : Function.update state.tokens entry.2 true =
        fun request => state.tokens request || entry.2 == request := by
      funext request
      by_cases heq : request = entry.2
      · simp [heq]
      · rw [Function.update_of_ne heq]
        simp [Ne.symm heq]
    simp [setToken, htokens, Option.any_some]

theorem Exclusive.cancel (h : Exclusive state) : Exclusive state.cancel := by
  rw [State.cancel_eq]
  exact ⟨h.busy, h.alone, h.owner⟩

end Exclusive

/-! ## What a request knows from the trace -/

/-- The events from the request's checkpoint to the drop of its guard. -/
abbrev held (request : Nat) (trace : List Event) : List Event :=
  between (.checkpoint request) (.dropCurrent request) trace

/-- The events from the request's checkpoint to its install. -/
abbrev waited (request : Nat) (trace : List Event) : List Event :=
  between (.checkpoint request) (.install request) trace

/-- The token of a request that has come to its install. -/
structure Told (past : List Event) (request : Nat) (token : Bool) : Prop where
  installed : .install request ∈ since (.checkpoint request) past
  cancelled : token = true → .cancel ∈ held request past
  heard : (waited request past).count .cancel < 2 ^ 64 → .cancel ∈ held request past →
    token = true

/-- What has happened to a request, by its stage. -/
def Story (past : List Event) (request epoch : Nat) (token : Bool) : Stage → Prop
  | .ready =>
    .checkpoint request ∉ past ∧ .install request ∉ past ∧ .dropCurrent request ∉ past ∧
      token = false
  | .checked checkpoint | .acquired checkpoint =>
    .checkpoint request ∈ past ∧ .install request ∉ past ∧ .dropCurrent request ∉ past ∧
      token = false ∧ checkpoint < 2 ^ 64 ∧
      epoch = (checkpoint + (since (.checkpoint request) past).count .cancel) % 2 ^ 64
  | .rejected => .install request ∉ past ∧ token = false
  | .admitted guard | .captured guard =>
    .dropCurrent request ∉ past ∧ Told past request token ∧ (guard = none → token = true)
  | .released | .finished =>
    .dropCurrent request ∈ since (.checkpoint request) past ∧ Told past request token

section Story

variable {past : List Event} {event : Event} {request epoch : Nat} {token : Bool} {stage : Stage}

theorem not_mem_concat {other} (hne : event ≠ other) (h : other ∉ past) :
    other ∉ past ++ [event] := by
  rw [mem_append, mem_singleton, not_or]
  exact ⟨h, hne.symm⟩

theorem Told.checkpoint_mem (h : Told past request token) : .checkpoint request ∈ past := by
  by_contra hnot
  have hmem := h.installed
  rw [since_eq_nil.mpr hnot] at hmem
  cases hmem

theorem Told.mem_since {other} (h : Told past request token)
    (hmem : other ∈ since (.checkpoint request) past) (event : Event) :
    other ∈ since (.checkpoint request) (past ++ [event]) := by
  rw [since_append h.checkpoint_mem]
  exact mem_append_left _ hmem

/-- The request itself does not cancel, and others do not end its wait. -/
theorem Told.quiet (h : Told past request token) (hcancel : event ≠ .cancel) :
    Told (past ++ [event]) request token := by
  have hheld : .cancel ∈ held request (past ++ [event]) ↔ .cancel ∈ held request past :=
    mem_between_concat h.checkpoint_mem hcancel.symm
  refine ⟨h.mem_since h.installed event, fun htoken => hheld.mpr (h.cancelled htoken), ?_⟩
  intro hcount hmem
  rw [waited, between_append_of_mem h.installed] at hcount
  exact h.heard hcount (hheld.mp hmem)

/-- Events that are neither a cancel nor one of the request's own that the
story tells of. -/
theorem Story.quiet (h : Story past request epoch token stage) (hcancel : event ≠ .cancel)
    (hcheck : event ≠ .checkpoint request) (hinstall : event ≠ .install request)
    (hdrop : event ≠ .dropCurrent request) : Story (past ++ [event]) request epoch token stage := by
  cases stage with
  | ready =>
    obtain ⟨hnoCheck, hnoInstall, hnoDrop, htoken⟩ := h
    exact ⟨not_mem_concat hcheck hnoCheck, not_mem_concat hinstall hnoInstall,
      not_mem_concat hdrop hnoDrop, htoken⟩
  | checked checkpoint | acquired checkpoint =>
    obtain ⟨hmem, hnoInstall, hnoDrop, htoken, hlt, hepoch⟩ := h
    refine ⟨mem_append_left _ hmem, not_mem_concat hinstall hnoInstall,
      not_mem_concat hdrop hnoDrop, htoken, hlt, ?_⟩
    rw [since_append hmem, count_append, count_singleton, if_neg (by simpa using hcancel),
      Nat.add_zero]
    exact hepoch
  | rejected => exact ⟨not_mem_concat hinstall h.1, h.2⟩
  | admitted guard | captured guard =>
    obtain ⟨hnoDrop, htold, hguard⟩ := h
    exact ⟨not_mem_concat hdrop hnoDrop, htold.quiet hcancel, hguard⟩
  | released | finished => exact ⟨h.2.mem_since h.1 event, h.2.quiet hcancel⟩

theorem Told.cancel (h : Told past request token) (hdrop : .dropCurrent request ∉ past) :
    Told (past ++ [.cancel]) request true := by
  refine ⟨h.mem_since h.installed _, fun _ => ?_, fun _ _ => rfl⟩
  rw [held, between_concat h.checkpoint_mem fun hmem => hdrop (mem_of_mem_since hmem)]
  simp

theorem Told.dropped (h : Told past request token)
    (hdrop : .dropCurrent request ∈ since (.checkpoint request) past) (event : Event) :
    Told (past ++ [event]) request token := by
  refine ⟨h.mem_since h.installed event, ?_, ?_⟩
  · rw [held, between_append_of_mem hdrop]
    exact h.cancelled
  · rw [held, waited, between_append_of_mem hdrop, between_append_of_mem h.installed]
    exact h.heard

/-- A cancel sets the token of the request whose guard is in the slot, and
the requests that wait see the epoch move. -/
theorem Story.cancel (h : Story past request epoch token stage) :
    Story (past ++ [.cancel]) request (fetchAdd epoch) (token || stage.guard.isSome) stage := by
  cases stage with
  | ready =>
    obtain ⟨hnoCheck, hnoInstall, hnoDrop, htoken⟩ := h
    exact ⟨not_mem_concat (by simp) hnoCheck, not_mem_concat (by simp) hnoInstall,
      not_mem_concat (by simp) hnoDrop, by rw [htoken]; rfl⟩
  | checked checkpoint | acquired checkpoint =>
    obtain ⟨hmem, hnoInstall, hnoDrop, htoken, hlt, hepoch⟩ := h
    refine ⟨mem_append_left _ hmem, not_mem_concat (by simp) hnoInstall,
      not_mem_concat (by simp) hnoDrop, by rw [htoken]; rfl, hlt, ?_⟩
    rw [since_append hmem, count_append, count_singleton_self, hepoch, fetchAdd,
      Nat.mod_add_mod, Nat.add_assoc]
  | rejected => exact ⟨not_mem_concat (by simp) h.1, by rw [h.2]; rfl⟩
  | admitted guard | captured guard =>
    obtain ⟨hnoDrop, htold, hguard⟩ := h
    have htrue : (token || guard.isSome) = true := by
      cases guard with
      | none => rw [hguard rfl, Bool.true_or]
      | some generation => exact Bool.or_true _
    refine ⟨not_mem_concat (by simp) hnoDrop, ?_, fun _ => htrue⟩
    show Told _ _ (token || guard.isSome)
    rw [htrue]
    exact htold.cancel hnoDrop
  | released | finished =>
    refine ⟨h.2.mem_since h.1 _, ?_⟩
    show Told _ _ (token || false)
    rw [Bool.or_false]
    exact h.2.dropped h.1 .cancel

theorem Story.checkpoint (h : Story past request epoch token .ready) (hepoch : epoch < 2 ^ 64) :
    Story (past ++ [.checkpoint request]) request epoch token (.checked epoch) := by
  obtain ⟨hnoCheck, hnoInstall, hnoDrop, htoken⟩ := h
  refine ⟨by simp, by simpa using hnoInstall, by simpa using hnoDrop, htoken, hepoch, ?_⟩
  rw [since_concat_first hnoCheck]
  exact (Nat.mod_eq_of_lt hepoch).symm

/-- The install finds the epoch moved exactly if the cancels since the
checkpoint are not a multiple of `2 ^ 64`. -/
theorem Story.install {checkpoint} (h : Story past request epoch token (.acquired checkpoint))
    (guard : Option Nat) (hguard : guard = none ↔ epoch ≠ checkpoint) :
    Story (past ++ [.install request]) request epoch (token || guard.isNone)
      (.admitted guard) := by
  obtain ⟨hmem, hnoInstall, hnoDrop, htoken, hlt, hepoch⟩ := h
  have hinstall : .install request ∉ since (.checkpoint request) past :=
    fun hin => hnoInstall (mem_of_mem_since hin)
  have hdrop : .dropCurrent request ∉ since (.checkpoint request) past :=
    fun hin => hnoDrop (mem_of_mem_since hin)
  have hcancel : .cancel ∈ held request (past ++ [.install request]) ↔
      0 < (since (.checkpoint request) past).count .cancel := by
    rw [held, between_concat hmem hdrop, count_pos_iff]
    simp
  have hwaited : waited request (past ++ [.install request]) =
      since (.checkpoint request) past := by
    rw [waited, between_concat hmem hinstall]
    simp
  rw [htoken, Bool.false_or]
  refine ⟨by simpa using hnoDrop, ⟨?_, ?_, ?_⟩, fun hnone => by rw [hnone]; rfl⟩
  · rw [since_append hmem]
    simp
  · intro hnone
    have hmoved := hguard.mp (Option.isNone_iff_eq_none.mp hnone)
    rw [hcancel]
    by_contra hzero
    rw [Nat.eq_zero_of_not_pos hzero, Nat.add_zero, Nat.mod_eq_of_lt hlt] at hepoch
    exact hmoved hepoch
  · rw [hwaited, hcancel]
    intro hcount hpos
    rw [Option.isNone_iff_eq_none, hguard]
    intro heq
    omega

theorem Story.dropCurrent {guard} (h : Story past request epoch token (.captured guard)) :
    Story (past ++ [.dropCurrent request]) request epoch token .released := by
  obtain ⟨hnoDrop, htold, -⟩ := h
  refine ⟨?_, htold.quiet (by simp)⟩
  rw [since_append htold.checkpoint_mem]
  simp

end Story

/-! ## Every interleaving -/

structure Invariant (past : List Event) (state : State) : Prop where
  exclusive : Exclusive state
  epoch : state.cancellationEpoch < 2 ^ 64
  story : ∀ request, Story past request state.cancellationEpoch (state.tokens request)
    (state.stages request)

theorem Invariant.initial : Invariant [] State.initial :=
  ⟨Exclusive.initial, by decide, fun _ => ⟨by simp, by simp, by simp, rfl⟩⟩

def Event.request : Event → Option Nat
  | .checkpoint request | .tryAcquire request | .install request | .capture request
  | .dropCurrent request | .dropCapture request => some request
  | .cancel => none

section Run

variable {past : List Event} {event : Event} {request : Nat} {state next : State}

section

variable (h : Invariant past state)

include h

/-- A step of one request is nothing to the others. -/
theorem Invariant.story_of_request (hrequest : event.request = some request)
    (hepoch : next.cancellationEpoch = state.cancellationEpoch)
    (hothers : ∀ other, other ≠ request →
      next.tokens other = state.tokens other ∧ next.stages other = state.stages other)
    (hown : Story (past ++ [event]) request state.cancellationEpoch (next.tokens request)
      (next.stages request)) (other : Nat) :
    Story (past ++ [event]) other next.cancellationEpoch (next.tokens other)
      (next.stages other) := by
  rw [hepoch]
  by_cases heq : other = request
  · rw [heq]
    exact hown
  · obtain ⟨htokens, hstages⟩ := hothers other heq
    rw [htokens, hstages]
    apply (h.story other).quiet
    all_goals
      rintro rfl
      simp [Event.request] at hrequest
    all_goals exact heq hrequest

theorem Invariant.advance {before stage}
    (hrequest : event.request = some request) (hstage : state.stages request = before)
    (hnext : next.cancellationEpoch = state.cancellationEpoch ∧ next.tokens = state.tokens ∧
      next.stages = state.stages) (hexclusive : Exclusive (next.advance request stage))
    (hown : Story past request state.cancellationEpoch (state.tokens request) before →
      Story (past ++ [event]) request state.cancellationEpoch (state.tokens request) stage) :
    Invariant (past ++ [event]) (next.advance request stage) := by
  obtain ⟨hepoch, htokens, hstages⟩ := hnext
  refine ⟨hexclusive, hepoch.trans_lt h.epoch, h.story_of_request hrequest hepoch ?_ ?_⟩
  · intro other hne
    rw [State.advance_other _ _ hne, hstages]
    exact ⟨congrFun htokens other, rfl⟩
  · rw [State.advance_self]
    show Story _ _ _ (next.tokens request) _
    rw [htokens]
    exact hown (hstage ▸ h.story request)

theorem Invariant.checkpoint (hstage : state.stages request = .ready) :
    Invariant (past ++ [.checkpoint request])
      (state.advance request (.checked state.cancellationEpoch)) := by
  refine h.advance rfl hstage ⟨rfl, rfl, rfl⟩ ?_ fun hown => hown.checkpoint h.epoch
  exact h.exclusive.advance (by rw [hstage]; rfl) (by rw [hstage]; rfl)

theorem Invariant.tryAcquire {checkpoint} (hstage : state.stages request = .checked checkpoint) :
    Invariant (past ++ [.tryAcquire request]) (state.tryAcquire request checkpoint) := by
  have hexclusive := h.exclusive.tryAcquire hstage
  unfold State.tryAcquire at hexclusive ⊢
  split_ifs at hexclusive ⊢
  · refine h.advance rfl hstage ⟨rfl, rfl, rfl⟩ hexclusive fun hown => ?_
    exact ⟨not_mem_concat (by simp) hown.2.1, hown.2.2.2.1⟩
  · refine h.advance rfl hstage ⟨rfl, rfl, rfl⟩ hexclusive fun hown => ?_
    exact hown.quiet (by simp) (by simp) (by simp) (by simp)

theorem Invariant.install {checkpoint} (hstage : state.stages request = .acquired checkpoint) :
    Invariant (past ++ [.install request])
      (state.installUnlessCancelledSince request checkpoint) := by
  have hown := h.story request
  rw [hstage] at hown
  have hexclusive := h.exclusive.install hstage
  unfold State.installUnlessCancelledSince at hexclusive ⊢
  split_ifs at hexclusive ⊢ with hmoved
  · refine ⟨hexclusive, h.epoch, h.story_of_request rfl rfl
      (fun other hne => ⟨Function.update_of_ne hne .., State.advance_other _ _ hne⟩) ?_⟩
    have hnext := hown.install none (by simp [hmoved])
    rw [State.advance_self]
    show Story _ _ _ (Function.update state.tokens request true request) _
    rw [Function.update_self]
    rwa [Option.isNone_none, Bool.or_true] at hnext
  · refine h.advance rfl hstage ⟨rfl, rfl, rfl⟩ hexclusive fun hown => ?_
    have hnext := hown.install (some (fetchAdd state.generation)) (by simpa using hmoved)
    rwa [Option.isNone_some, Bool.or_false] at hnext

theorem Invariant.capture {guard} (hstage : state.stages request = .admitted guard) :
    Invariant (past ++ [.capture request]) (state.advance request (.captured guard)) := by
  refine h.advance rfl hstage ⟨rfl, rfl, rfl⟩ ?_ fun hown =>
    hown.quiet (by simp) (by simp) (by simp) (by simp)
  exact h.exclusive.advance (by rw [hstage]; rfl) (by rw [hstage]; rfl)

theorem Invariant.dropCurrent {guard} (hstage : state.stages request = .captured guard) :
    Invariant (past ++ [.dropCurrent request])
      ((state.dropCurrent guard).advance request .released) := by
  have hexclusive := h.exclusive.dropCurrent hstage
  rw [State.dropCurrent_eq] at hexclusive ⊢
  exact h.advance rfl hstage ⟨rfl, rfl, rfl⟩ hexclusive fun hown => hown.dropCurrent

theorem Invariant.dropCapture (hstage : state.stages request = .released) :
    Invariant (past ++ [.dropCapture request])
      ({ state with busy := false }.advance request .finished) :=
  h.advance rfl hstage ⟨rfl, rfl, rfl⟩ (h.exclusive.dropCapture hstage) fun hown =>
    hown.quiet (by simp) (by simp) (by simp) (by simp)

theorem Invariant.cancel : Invariant (past ++ [.cancel]) state.cancel := by
  have hexclusive := h.exclusive.cancel
  have hslot : ∀ request, state.slot.any (fun entry => entry.2 == request) =
      (state.stages request).guard.isSome := by
    intro request
    rw [Bool.eq_iff_iff, Option.any_eq_true, Option.isSome_iff_exists]
    constructor
    · rintro ⟨⟨generation, other⟩, hentry, heq⟩
      obtain rfl := beq_iff_eq.mp heq
      exact ⟨generation, (h.exclusive.owner generation other).mp hentry⟩
    · rintro ⟨generation, hguard⟩
      exact ⟨_, (h.exclusive.owner generation request).mpr hguard, beq_self_eq_true request⟩
  rw [State.cancel_eq] at hexclusive ⊢
  refine ⟨hexclusive, Nat.mod_lt _ (by decide), fun request => ?_⟩
  dsimp only
  rw [hslot]
  exact (h.story request).cancel

end

theorem Invariant.step (h : Invariant past state) (hstep : step event state = some next) :
    Invariant (past ++ [event]) next := by
  cases event
  case cancel =>
    obtain rfl := Option.some.inj hstep
    exact h.cancel
  -- the other events are those of a request at one stage
  all_goals
    rw [CurrentRequest.step] at hstep
    split at hstep <;> cases hstep
    rename_i hstage
  · exact h.checkpoint hstage
  · exact h.tryAcquire hstage
  · exact h.install hstage
  · exact h.capture hstage
  · exact h.dropCurrent hstage
  · exact h.dropCapture hstage

/-- A token is set only by a cancel since the checkpoint. -/
theorem Story.cancelled {epoch token stage} (h : Story past request epoch token stage)
    (htoken : token = true) : .cancel ∈ held request past := by
  subst htoken
  cases stage with
  | ready => cases h.2.2.2
  | checked | acquired => cases h.2.2.2.1
  | rejected => cases h.2
  | admitted | captured => exact h.2.1.cancelled rfl
  | released | finished => exact h.2.cancelled rfl

theorem Story.told {epoch token stage} (h : Story past request epoch token stage)
    (hinstall : .install request ∈ past) : Told past request token := by
  cases stage with
  | ready | checked | acquired => exact absurd hinstall h.2.1
  | rejected => exact absurd hinstall h.1
  | admitted | captured => exact h.2.1
  | released | finished => exact h.2

end Run

/-- In every interleaving: a cancel between a request's checkpoint and the
drop of its guard sets its token, if the request comes to its install and
the epoch has not wrapped by then; a token is set only by such a cancel;
and dropping a guard leaves the token of another request in the slot. -/
theorem cancels_reach_their_request (events : List Event) (final : State)
    (hrun : run step events State.initial = some final) :
    (∀ request, .install request ∈ events →
      (between (.checkpoint request) (.install request) events).count .cancel < 2 ^ 64 →
      .cancel ∈ between (.checkpoint request) (.dropCurrent request) events →
      final.tokens request = true) ∧
    (∀ request, final.tokens request = true →
      .cancel ∈ between (.checkpoint request) (.dropCurrent request) events) ∧
    ∀ request next, step (.dropCurrent request) final = some next →
      ∀ generation other, other ≠ request → final.slot = some (generation, other) →
        next.slot = some (generation, other) := by
  have hinv : Invariant ([] ++ events) final :=
    run_traces (fun _ _ _ _ h hstep => h.step hstep) Invariant.initial hrun
  refine ⟨fun request hinstall => ((hinv.story request).told hinstall).heard,
    fun request => (hinv.story request).cancelled, ?_⟩
  intro request next hstep generation other hne hslot
  rw [step] at hstep
  split at hstep
  · next guard hstage =>
    -- The request with the token in the slot would hold the capture slot as well.
    have hguard := (hinv.exclusive.owner generation other).mp hslot
    exact absurd (hinv.exclusive.alone other request (Stage.holds_of_guard hguard)
      (by rw [hstage]; rfl)) hne
  · cases hstep

/-- Two requests overlap, and a third one begins after the cancel. -/
def overlapping : List Event :=
  [.checkpoint 0, .checkpoint 1, .tryAcquire 0, .install 0, .cancel, .capture 0, .dropCurrent 0,
    .dropCapture 0, .tryAcquire 1, .install 1, .checkpoint 2]

theorem cancels_reach_their_request_overlapping :
    ∃ final, run step overlapping State.initial = some final ∧
      final.tokens 0 = true ∧ final.tokens 1 = true ∧ final.tokens 2 = false := by
  have hrun : run step overlapping State.initial =
      some ((run step overlapping State.initial).get rfl) := rfl
  obtain ⟨hset, honly, -⟩ := cancels_reach_their_request overlapping _ hrun
  refine ⟨_, hrun, hset 0 (by decide) (by decide) (by decide),
    hset 1 (by decide) (by decide) (by decide), ?_⟩
  by_contra htoken
  exact absurd (honly 2 (by simpa using htoken)) (by decide)

/-- In every interleaving at most one request holds the capture slot, the
flag is set while one does, and the token in the slot is that of the
request with the guard. -/
theorem capture_slot_exclusive (events : List Event) (final : State)
    (hrun : run step events State.initial = some final) : Exclusive final := by
  have hinv : Invariant ([] ++ events) final :=
    run_traces (fun _ _ _ _ h hstep => h.step hstep) Invariant.initial hrun
  exact hinv.exclusive

theorem capture_slot_exclusive_overlapping :
    ∃ final, run step overlapping State.initial = some final ∧ Exclusive final :=
  ⟨_, rfl, capture_slot_exclusive overlapping _ rfl⟩

variable (count : Nat)

theorem run_cancels (state : State) (events : List Event)
    (hslot : state.slot = none) (hepoch : state.cancellationEpoch < 2 ^ 64) :
    run step (List.replicate count .cancel ++ events) state =
      run step events { state with
        cancellationEpoch := (state.cancellationEpoch + count) % 2 ^ 64 } := by
  induction count generalizing state with
  | zero =>
    rw [Nat.add_zero, Nat.mod_eq_of_lt hepoch]
    rfl
  | succ count ih =>
    have hcancel : state.cancel =
        { state with cancellationEpoch := fetchAdd state.cancellationEpoch } := by
      unfold State.cancel
      rw [hslot]
    rw [replicate_succ, cons_append, run, step, Option.bind_some, hcancel]
    have hrest := ih { state with cancellationEpoch := fetchAdd state.cancellationEpoch } hslot
      (Nat.mod_lt _ (by decide))
    rw [hrest]
    simp [fetchAdd, Nat.mod_add_mod, Nat.add_assoc, Nat.add_comm count 1]

/-- A request that waits through any number of cancels. -/
def patient : List Event :=
  .checkpoint 0 :: (List.replicate count .cancel ++ [.tryAcquire 0, .install 0])

theorem run_patient : run step (patient count) State.initial =
      run step [.tryAcquire 0, .install 0]
        { State.initial.advance 0 (.checked 0) with cancellationEpoch := count % 2 ^ 64 } := by
  have hcancels := run_cancels count (State.initial.advance 0 (.checked 0))
    [.tryAcquire 0, .install 0] rfl (by decide)
  rw [show (State.initial.advance 0 (.checked 0)).cancellationEpoch = 0 from rfl, Nat.zero_add]
    at hcancels
  exact hcancels

theorem between_patient :
    between (.checkpoint 0) (.dropCurrent 0) (patient count) = patient count := by
  have hsince : since (.checkpoint 0) (patient count) = patient count := by
    simp [since, patient]
  rw [between_eq_since, hsince]
  rw [hsince]
  simp [patient]

theorem install_mem_patient : .install 0 ∈ patient count := by
  simp [patient]

theorem cancel_mem_patient {count} (h : 0 < count) : .cancel ∈ patient count :=
  mem_cons_of_mem _ (mem_append_left _ (mem_replicate.mpr ⟨by omega, rfl⟩))

/-- After `2 ^ 64` cancels the epoch is the one of the checkpoint again, so
the install goes through and the cancels are lost. -/
theorem epoch_wraps : ∃ events final, run step events State.initial = some final ∧
      .install 0 ∈ events ∧ .cancel ∈ between (.checkpoint 0) (.dropCurrent 0) events ∧
      final.tokens 0 = false := by
  have hrun := run_patient (2 ^ 64)
  refine ⟨patient (2 ^ 64), _, hrun.trans rfl, install_mem_patient _, ?_, rfl⟩
  rw [between_patient]
  exact cancel_mem_patient (by decide)

end Facelock.Daemon.CurrentRequest
