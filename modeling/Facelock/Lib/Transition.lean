import Mathlib.Data.Option.Basic
import Mathlib.Data.List.TakeWhile

/-!
# Interleaved runs

A system is a partial step function on events: `step event state` is the
state after the event, and `none` if the event cannot happen.  Several
processes interleave in one run, since an event says which of them moves.
A process that is killed has no events any more, so the runs of a system
are also the runs with crashes between any two steps.

`Obeys allowed` is the class of runs in which every event is allowed in
the state where it happens.  An invariant has to be kept by the allowed
events only.  Whether a given run obeys can be decided if the condition on
one event can.

`since` and `between` are the parts of a trace that begin with the first
occurrence of an event.  Their lemmas say how they grow with the trace.
-/

namespace Facelock.Transition

open List

universe u

variable {σ : Type u} {ε : Type}

/-- The state after a list of events. -/
def run (step : ε → σ → Option σ) : List ε → σ → Option σ
  | [], state => some state
  | event :: events, state => (step event state).bind (run step events)

/-- Every event of a run is allowed where it happens. -/
def Obeys (step : ε → σ → Option σ) (allowed : ε → σ → Prop) : List ε → σ → Prop
  | [], _ => True
  | event :: events, state =>
    allowed event state ∧ ∀ next, step event state = some next → Obeys step allowed events next

variable {step : ε → σ → Option σ} {allowed : ε → σ → Prop} {inv : σ → Prop}

instance Obeys.decidable [∀ event state, Decidable (allowed event state)] :
    ∀ events state, Decidable (Obeys step allowed events state)
  | [], _ => isTrue trivial
  | event :: events, state =>
    match h : step event state with
    | none => decidable_of_iff (allowed event state) (by simp [Obeys, h])
    | some next =>
      have := Obeys.decidable events next
      decidable_of_iff (allowed event state ∧ Obeys step allowed events next) (by simp [Obeys, h])

variable {events : List ε} {state final : σ}

theorem run_cons_eq_some {event} :
    run step (event :: events) state = some final ↔
      ∃ next, step event state = some next ∧ run step events next = some final := by
  rw [run, Option.bind_eq_some_iff]

theorem run_append_eq_some {past later : List ε} :
    run step (past ++ later) state = some final ↔
      ∃ mid, run step past state = some mid ∧ run step later mid = some final := by
  induction past generalizing state with
  | nil => simp [run]
  | cons event past ih =>
    simp only [cons_append, run_cons_eq_some, ih]
    grind

/-- The state in front of every event allows it. -/
theorem obeys_iff : Obeys step allowed events state ↔
    ∀ past event rest mid, events = past ++ event :: rest → run step past state = some mid →
      allowed event mid := by
  induction events generalizing state with
  | nil => simp [Obeys]
  | cons first events ih =>
    constructor
    · rintro ⟨hfirst, hrest⟩ (_ | ⟨_, past⟩) event rest mid heq hrun
      · cases heq
        cases hrun
        exact hfirst
      · cases heq
        obtain ⟨next, hnext, hpast⟩ := run_cons_eq_some.mp hrun
        exact ih.mp (hrest next hnext) past event rest mid rfl hpast
    · intro h
      refine ⟨h [] first events state rfl rfl, fun next hnext => ih.mpr ?_⟩
      rintro past event rest mid rfl hpast
      exact h (first :: past) event rest mid rfl (run_cons_eq_some.mpr ⟨next, hnext, hpast⟩)

/-- What every allowed event keeps, a run that obeys keeps. -/
theorem Obeys.keeps
    (hstep : ∀ event state next, allowed event state → inv state → step event state = some next →
      inv next) (hobeys : Obeys step allowed events state) (hinv : inv state)
    (hrun : run step events state = some final) : inv final := by
  induction events generalizing state with
  | nil =>
    cases hrun
    exact hinv
  | cons event events ih =>
    obtain ⟨next, hnext, hrest⟩ := run_cons_eq_some.mp hrun
    exact ih (hobeys.2 next hnext) (hstep event state next hobeys.1 hinv hnext) hrest

/-- What every event keeps, every run keeps. -/
theorem run_keeps (hstep : ∀ event state next, inv state → step event state = some next → inv next)
    (hinv : inv state) (hrun : run step events state = some final) : inv final := by
  induction events generalizing state with
  | nil =>
    cases hrun
    exact hinv
  | cons event events ih =>
    obtain ⟨next, hnext, hrest⟩ := run_cons_eq_some.mp hrun
    exact ih (hstep event state next hinv hnext) hrest

/-- An invariant that speaks about the events so far. -/
theorem run_traces {inv : List ε → σ → Prop}
    (hstep : ∀ past event state next, inv past state → step event state = some next →
      inv (past ++ [event]) next) {past} (hinv : inv past state)
    (hrun : run step events state = some final) : inv (past ++ events) final := by
  induction events generalizing past state with
  | nil =>
    cases hrun
    rwa [append_nil]
  | cons event events ih =>
    obtain ⟨next, hnext, hrest⟩ := run_cons_eq_some.mp hrun
    have hfinal := ih (hstep past event state next hinv hnext) hrest
    rwa [append_assoc] at hfinal

/-! ## Parts of a trace -/

section Parts

variable [DecidableEq ε] {first last event : ε} {past : List ε}

/-- The trace from the first occurrence of the event on. -/
def since (first : ε) (trace : List ε) : List ε :=
  trace.dropWhile fun event => decide (event ≠ first)

/-- The trace from the first occurrence of one event up to another. -/
def between (first last : ε) (trace : List ε) : List ε :=
  (since first trace).takeWhile fun event => decide (event ≠ last)

theorem since_eq_nil : since first past = [] ↔ first ∉ past := by
  rw [since, dropWhile_eq_nil_iff]
  constructor
  · intro h hmem
    exact of_decide_eq_true (h first hmem) rfl
  · intro h event hevent
    exact decide_eq_true fun heq => h (heq ▸ hevent)

theorem mem_of_mem_since (h : event ∈ since first past) : event ∈ past :=
  (dropWhile_sublist _).subset h

theorem since_append (h : first ∈ past) (events : List ε) :
    since first (past ++ events) = since first past ++ events := by
  unfold since
  rw [dropWhile_append, if_neg]
  rw [List.isEmpty_iff]
  exact fun hnil => since_eq_nil.mp hnil h

theorem since_concat_first (h : first ∉ past) : since first (past ++ [first]) = [first] := by
  have hnil : past.dropWhile (fun event => decide (event ≠ first)) = [] := since_eq_nil.mpr h
  rw [since, dropWhile_append, hnil]
  simp

theorem between_eq_since (h : last ∉ since first past) :
    between first last past = since first past := by
  rw [between, takeWhile_eq_self_iff]
  intro event hevent
  exact decide_eq_true fun heq => h (heq ▸ hevent)

theorem between_append_of_mem (h : last ∈ since first past) (events : List ε) :
    between first last (past ++ events) = between first last past := by
  have hfirst : first ∈ past := by
    by_contra hnot
    rw [since_eq_nil.mpr hnot] at h
    cases h
  rw [between, since_append hfirst, between, takeWhile_append, if_neg]
  intro hlength
  have hself := takeWhile_prefix _ |>.eq_of_length hlength
  exact of_decide_eq_true (takeWhile_eq_self_iff.mp hself last h) rfl

theorem between_concat (hfirst : first ∈ past) (hlast : last ∉ since first past) (event : ε) :
    between first last (past ++ [event]) =
      since first past ++ if event = last then [] else [event] := by
  rw [between, since_append hfirst, takeWhile_append_of_pos]
  · by_cases heq : event = last <;> simp [heq]
  · intro other hother
    exact decide_eq_true fun heq => hlast (heq ▸ hother)

theorem mem_between_concat {other} (hfirst : first ∈ past) (hne : other ≠ event) :
    other ∈ between first last (past ++ [event]) ↔ other ∈ between first last past := by
  by_cases hlast : last ∈ since first past
  · rw [between_append_of_mem hlast]
  · rw [between_concat hfirst hlast, between_eq_since hlast]
    split <;> simp [hne]

end Parts

end Facelock.Transition
