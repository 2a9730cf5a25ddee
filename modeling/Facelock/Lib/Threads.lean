import Facelock.Lib.Transition
import Mathlib.Logic.Function.Basic
import Mathlib.Logic.Relation

/-!
# Threads that share a state

A thread is a program of atomic steps on a state that it shares with other
threads.  What a step finds out about the world (an answer, a failure, the
time) is a choice, and a step for which the thread has to wait is not
possible.  In a pool one thread moves at a time, so the runs of a pool are
the interleavings of its threads, and a run may end anywhere.

`Ensures` is the logic over one thread.  A `Protocol` says what each thread
guarantees about its steps, and an invariant that all of them keep.  A
thread may rely on what the others guarantee.  So a condition that has to
last until the next step is `Stable`: no step that another thread guarantees
ends it.  `run_keeps_inv` puts the threads together.

`Only` is for the parts of a thread that do nothing of interest: all their
steps are in one relation.
-/

namespace Facelock.Threads

open Transition

/-! ## Threads -/

/-- The program of a thread: what it still has to do. -/
inductive Code (σ χ α : Type) : Type 1 where
  | done (value : α)
  | step {β : Type} (act : χ → σ → Option (β × σ)) (next : β → Code σ χ α)

variable {ι σ χ α β : Type}

namespace Code

def bind : Code σ χ α → (α → Code σ χ β) → Code σ χ β
  | done value, rest => rest value
  | step act next, rest => step act fun answer => (next answer).bind rest

instance : Monad (Code σ χ) where
  pure := done
  bind := bind

def atomic (act : χ → σ → Option (β × σ)) : Code σ χ β := step act done

/-- A thread that is not woken up any more. -/
def asleep : Code σ χ α := step (fun _ _ => (none : Option (Empty × σ))) Empty.elim

def move (choice : χ) (state : σ) : Code σ χ α → Option (Code σ χ α × σ)
  | done _ => none
  | step act next => (act choice state).map fun answer => (next answer.1, answer.2)

/-- All steps are in `relation`. -/
def Only (relation : σ → σ → Prop) : Code σ χ α → Prop
  | done _ => True
  | step act next =>
    (∀ choice state answer after, act choice state = some (answer, after) →
      relation state after) ∧ ∀ answer, (next answer).Only relation

end Code

open Code

/-- Threads and the state that they share. -/
structure Pool (ι σ χ : Type) : Type 1 where
  threads : ι → Code σ χ Unit
  state : σ

/-! ## Protocols -/

structure Protocol (ι σ : Type) where
  inv : σ → Prop
  /-- What a thread guarantees about its steps. -/
  guarantee : ι → σ → σ → Prop

variable (protocol : Protocol ι σ)

/-- A step of another thread. -/
def Protocol.Outside (me : ι) (before after : σ) : Prop :=
  ∃ other, other ≠ me ∧ protocol.inv before ∧ protocol.guarantee other before after ∧
    protocol.inv after

/-- A condition that only the thread itself ends. -/
def Stable (me : ι) (p : σ → Prop) : Prop :=
  ∀ before after, protocol.Outside me before after → p before → p after

/-- From `state` on, with the others moving in between, every step of the
thread keeps its promise, and the thread ends with `post`. -/
def Runs (protocol : Protocol ι σ) (me : ι) (post : α → σ → Prop) : Code σ χ α → σ → Prop
  | .done value, state => post value state
  | .step act next, state =>
    ∀ before, Relation.ReflTransGen (protocol.Outside me) state before → protocol.inv before →
      ∀ choice answer after, act choice before = some (answer, after) →
        protocol.guarantee me before after ∧ protocol.inv after ∧
          Runs protocol me post (next answer) after

def Ensures (me : ι) (pre : σ → Prop) (code : Code σ χ α) (post : α → σ → Prop) : Prop :=
  ∀ state, pre state → Runs protocol me post code state

section Rules

variable {protocol : Protocol ι σ} {me : ι} {pre pre' : σ → Prop} {post post' : α → σ → Prop}

theorem Stable.and {p q} (hp : Stable protocol me p) (hq : Stable protocol me q) :
    Stable protocol me fun state => p state ∧ q state :=
  fun before after houtside h => ⟨hp before after houtside h.1, hq before after houtside h.2⟩

theorem Stable.reach {p} (hp : Stable protocol me p) {state before}
    (hreach : Relation.ReflTransGen (protocol.Outside me) state before) (h : p state) :
    p before := by
  induction hreach with
  | refl => exact h
  | tail _ houtside ih => exact hp _ _ houtside ih

variable {code : Code σ χ α}

theorem Runs.mono (hpost : ∀ value state, post' value state → post value state) {state}
    (h : Runs protocol me post' code state) : Runs protocol me post code state := by
  induction code generalizing state with
  | done value => exact hpost value state h
  | step act next ih =>
    intro before hreach hinv choice answer after hact
    obtain ⟨hguarantee, hafter, hnext⟩ := h before hreach hinv choice answer after hact
    exact ⟨hguarantee, hafter, ih answer hnext⟩

variable {rest : α → Code σ χ β}

theorem Runs.bind {post state}
    (h : Runs protocol me (fun value after => Runs protocol me post (rest value) after) code
      state) : Runs protocol me post (code.bind rest) state := by
  induction code generalizing state with
  | done value => exact h
  | step act next ih =>
    intro before hreach hinv choice answer after hact
    obtain ⟨hguarantee, hafter, hnext⟩ := h before hreach hinv choice answer after hact
    exact ⟨hguarantee, hafter, ih answer hnext⟩

theorem Ensures.mono (h : Ensures protocol me pre' code post')
    (hpre : ∀ state, pre state → pre' state)
    (hpost : ∀ value state, post' value state → post value state) :
    Ensures protocol me pre code post :=
  fun state hstate => (h state (hpre state hstate)).mono hpost

theorem ensures_pure {value} (h : ∀ state, pre state → post value state) :
    Ensures protocol me pre (pure value : Code σ χ α) post := h

theorem ensures_bind {mid post} (hfirst : Ensures protocol me pre code mid)
    (hrest : ∀ value, Ensures protocol me (mid value) (rest value) post) :
    Ensures protocol me pre (code >>= rest) post :=
  fun state hstate => ((hfirst state hstate).mono hrest).bind

theorem ensures_atomic {act : χ → σ → Option (β × σ)} {post}
    (hstable : Stable protocol me pre)
    (h : ∀ choice before answer after, pre before → protocol.inv before →
      act choice before = some (answer, after) →
      protocol.guarantee me before after ∧ protocol.inv after ∧ post answer after) :
    Ensures protocol me pre (atomic act) post := by
  intro state hstate before hreach hinv choice answer after hact
  exact h choice before answer after (hstable.reach hreach hstate) hinv hact

/-! ## Parts of a thread -/

variable {relation : σ → σ → Prop}

theorem only_pure {value} :
    (pure value : Code σ χ α).Only relation := trivial

theorem only_atomic {act : χ → σ → Option (β × σ)}
    (h : ∀ choice state answer after, act choice state = some (answer, after) →
      relation state after) : (atomic act).Only relation :=
  ⟨h, fun _ => trivial⟩

theorem only_bind (hfirst : code.Only relation) (hrest : ∀ value, (rest value).Only relation) :
    (code >>= rest).Only relation := by
  change (code.bind rest).Only relation
  induction code with
  | done value => exact hrest value
  | step act next ih => exact ⟨hfirst.1, fun answer => ih answer (hfirst.2 answer)⟩

theorem only_asleep : (asleep : Code σ χ α).Only relation :=
  ⟨fun _ _ _ _ h => (Option.some_ne_none _ h.symm).elim, fun answer => answer.elim⟩

/-- What no step of the relation ends is there after such a part. -/
theorem Code.Only.ensures (honly : code.Only relation) (hstable : Stable protocol me pre)
    (h : ∀ before after, relation before after → pre before → protocol.inv before →
      protocol.guarantee me before after ∧ protocol.inv after ∧ pre after) :
    Ensures protocol me pre code fun _ => pre := by
  induction code with
  | done value => exact fun state hstate => hstate
  | step act next ih =>
    intro state hstate before hreach hinv choice answer after hact
    have hbefore := hstable.reach hreach hstate
    obtain ⟨hguarantee, hafter, hkept⟩ :=
      h before after (honly.1 choice before answer after hact) hbefore hinv
    exact ⟨hguarantee, hafter, ih answer (honly.2 answer) after hkept⟩

/-- A thread whose end does not matter is not disturbed by the others. -/
theorem Runs.outside {before after} (houtside : protocol.Outside me before after)
    (h : Runs protocol me (fun _ _ => True) code before) :
    Runs protocol me (fun _ _ => True) code after := by
  cases code with
  | done value => trivial
  | step act next => exact fun state hreach => h state (.head houtside hreach)

end Rules

/-! ## Pools -/

section Pools

variable [DecidableEq ι]

def Pool.step (event : ι × χ) (pool : Pool ι σ χ) : Option (Pool ι σ χ) :=
  ((pool.threads event.1).move event.2 pool.state).map fun moved =>
    { threads := Function.update pool.threads event.1 moved.1, state := moved.2 }

/-- Every thread is on its way, and the invariant holds. -/
structure Pool.Follows (protocol : Protocol ι σ) (pool : Pool ι σ χ) : Prop where
  inv : protocol.inv pool.state
  threads : ∀ i, Runs protocol i (fun _ _ => True) (pool.threads i) pool.state

theorem Pool.Follows.step {protocol event} {pool next : Pool ι σ χ} (h : pool.Follows protocol)
    (hstep : pool.step event = some next) : next.Follows protocol := by
  obtain ⟨me, choice⟩ := event
  obtain ⟨⟨code, after⟩, hmove, rfl⟩ := Option.map_eq_some_iff.mp hstep
  have hrun := h.threads me
  cases hcode : pool.threads me with
  | done value =>
    rw [hcode] at hmove
    cases hmove
  | step act rest =>
    rw [hcode] at hmove hrun
    obtain ⟨⟨answer, state⟩, hact, hmoved⟩ := Option.map_eq_some_iff.mp hmove
    obtain ⟨rfl, rfl⟩ := Prod.mk.inj hmoved
    obtain ⟨hguarantee, hafter, hnext⟩ := hrun pool.state .refl h.inv choice answer state hact
    refine ⟨hafter, fun i => ?_⟩
    change Runs protocol i _ (Function.update pool.threads me (rest answer) i) state
    by_cases hi : i = me
    · subst hi
      rw [Function.update_self]
      exact hnext
    · rw [Function.update_of_ne hi]
      exact (h.threads i).outside ⟨me, Ne.symm hi, h.inv, hguarantee, hafter⟩

/-- The invariant of a protocol holds in every run of threads that keep to
it. -/
theorem run_keeps_inv {protocol} {pool final : Pool ι σ χ} (h : pool.Follows protocol)
    {events : List (ι × χ)}
    (hrun : run Pool.step events pool = some final) : protocol.inv final.state := by
  have hfollows : final.Follows protocol :=
    run_keeps (fun _ _ _ hinv hstep => hinv.step hstep) h hrun
  exact hfollows.inv

end Pools

end Facelock.Threads
