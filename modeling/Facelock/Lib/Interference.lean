import Mathlib.Logic.Basic

/-!
# Programs among other processes

A process works on a state that other processes share.  It reaches the
state by calls.  Before every call the others may have changed the state,
and every call may fail without an effect of its own.  A `Schedule` fixes
both for each call, and also what the call is free to choose, so the run of
a program under a schedule is a function and the interleavings of the
program are its runs under all schedules.

`Ensures` is the logic over these programs.  A precondition that has to
last until a call is `Stable`: no step of the others ends it.  Every
construct has one rule.  The rule of a call asks for three things: that the
precondition is stable, that a failure is covered, and that the effect of
the call is.
-/

namespace Facelock.Interference

variable {σ ε κ α β : Type}

/-! ## Programs -/

/-- What happens around the calls of a process, counted from its start. -/
structure Schedule (σ ε κ : Type) where
  /-- What the other processes do to the state before a call. -/
  interfere : Nat → σ → σ
  /-- The error of a call that fails. -/
  fails : Nat → Option ε
  /-- What a call chooses where its description leaves it free. -/
  choose : Nat → κ

/-- The state, and how many calls have been made. -/
structure Point (σ : Type) where
  clock : Nat
  state : σ

structure Prog (σ ε κ α : Type) where
  run : Schedule σ ε κ → Point σ → α × Point σ

namespace Prog

instance : Monad (Prog σ ε κ) where
  pure value := ⟨fun _ point => (value, point)⟩
  bind program next :=
    ⟨fun schedule point =>
      (next (program.run schedule point).1).run schedule (program.run schedule point).2⟩

/-- A step on what is private to the process. -/
def update (f : σ → α × σ) : Prog σ ε κ α :=
  ⟨fun _ point => ((f point.state).1, { point with state := (f point.state).2 })⟩

/-- A call: the others move, then the call fails or takes effect. -/
def call (effect : κ → σ → Except ε α × σ) : Prog σ ε κ (Except ε α) :=
  ⟨fun schedule point =>
    let state := schedule.interfere point.clock point.state
    match schedule.fails point.clock with
    | some e => (.error e, { clock := point.clock + 1, state })
    | none =>
      let outcome := effect (schedule.choose point.clock) state
      (outcome.1, { clock := point.clock + 1, state := outcome.2 })⟩

/-- A call that cannot fail and has no effect. -/
def observe (f : κ → σ → α) : Prog σ ε κ α :=
  ⟨fun schedule point =>
    let state := schedule.interfere point.clock point.state
    (f (schedule.choose point.clock) state, { clock := point.clock + 1, state })⟩

end Prog

open Prog

/-! ## Rules -/

/-- Under `schedule` the program takes every state with `pre` to a result
and a state with `post`. -/
def Ensures (schedule : Schedule σ ε κ) (pre : σ → Prop) (program : Prog σ ε κ α)
    (post : α → σ → Prop) : Prop :=
  ∀ point : Point σ, pre point.state →
    post (program.run schedule point).1 (program.run schedule point).2.state

/-- No step of the other processes ends `p`. -/
def Stable (schedule : Schedule σ ε κ) (p : σ → Prop) : Prop :=
  ∀ n state, p state → p (schedule.interfere n state)

section Rules

variable {schedule : Schedule σ ε κ} {pre pre' : σ → Prop} {post post' : α → σ → Prop}

variable {program : Prog σ ε κ α}

theorem Ensures.mono (h : Ensures schedule pre' program post')
    (hpre : ∀ state, pre state → pre' state)
    (hpost : ∀ value state, post' value state → post value state) :
    Ensures schedule pre program post :=
  fun point hpoint => hpost _ _ (h point (hpre _ hpoint))

theorem Ensures.weaken (h : Ensures schedule pre program post')
    (hpost : ∀ value state, post' value state → post value state) :
    Ensures schedule pre program post :=
  h.mono (fun _ hstate => hstate) hpost

theorem Ensures.strengthen (h : Ensures schedule pre' program post)
    (hpre : ∀ state, pre state → pre' state) : Ensures schedule pre program post :=
  h.mono hpre fun _ _ hstate => hstate

/-- It is enough to look at one state at a time. -/
theorem ensures_of_forall (h : ∀ state, pre state → Ensures schedule (· = state) program post) :
    Ensures schedule pre program post :=
  fun point hpoint => h point.state hpoint point rfl

theorem ensures_exists {ι : Type} {p : ι → σ → Prop}
    (h : ∀ i, Ensures schedule (p i) program post) :
    Ensures schedule (fun state => ∃ i, p i state) program post :=
  fun point ⟨i, hi⟩ => h i point hi

/-- A fact that is not about the state is a hypothesis. -/
theorem ensures_of_fact {fact : Prop} (h : fact → Ensures schedule pre program post) :
    Ensures schedule (fun state => pre state ∧ fact) program post :=
  fun point hpoint => h hpoint.2 point hpoint.1

theorem ensures_pure {value} (h : ∀ state, pre state → post value state) :
    Ensures schedule pre (pure value) post :=
  fun point hpoint => h point.state hpoint

theorem ensures_bind {next mid} {post : β → σ → Prop} (hfirst : Ensures schedule pre program mid)
    (hnext : ∀ value, Ensures schedule (mid value) (next value) post) :
    Ensures schedule pre (program >>= next) post :=
  fun point hpoint => hnext _ _ (hfirst point hpoint)

theorem ensures_update {f} (h : ∀ state, pre state → post (f state).1 (f state).2) :
    Ensures schedule pre (update f) post :=
  fun point hpoint => h point.state hpoint

theorem ensures_observe {f} (hstable : Stable schedule pre)
    (h : ∀ choice state, pre state → post (f choice state) state) :
    Ensures schedule pre (observe f) post :=
  fun point hpoint => h _ _ (hstable point.clock point.state hpoint)

theorem ensures_call {effect} {post : Except ε α → σ → Prop} (hstable : Stable schedule pre)
    (herror : ∀ e state, pre state → post (.error e) state)
    (heffect : ∀ choice state, pre state → post (effect choice state).1 (effect choice state).2) :
    Ensures schedule pre (call effect) post := by
  intro point hpoint
  have hmoved := hstable point.clock point.state hpoint
  cases hfails : schedule.fails point.clock with
  | some e => simpa [call, hfails] using herror e _ hmoved
  | none => simpa [call, hfails] using heffect (schedule.choose point.clock) _ hmoved

end Rules

end Facelock.Interference
