import Facelock.Lib.Results

/-!
# Programs that can be cut short

A program runs on a durable state and may fail.  Its run is the sequence
of the durable states it passes through, ended by a result: a crash
leaves exactly one of these states behind, and `Run.cut` picks it by the
number of atomic steps that were made.

`Run.Meets inv post` is the logic over runs.  The first argument is about
the states a crash before the last step leaves, the second about the end
of the run, so a single statement says what holds at every crash point
and what the result is.  Each construct of a program has one rule, and
the rules are equivalences, so a run of a straight program is computed by
rewriting.

`After` closes a program under repetition: it runs again and again from
the state that its last run left, and each run may be cut short.
-/

namespace Facelock.Crash

variable {σ τ ε α β : Type}

/-! ## Runs -/

/-- A sequence of durable states with the result it ends in.  A `step`
holds the state in front of an atomic change. -/
inductive Run (σ ε α : Type) where
  | done (state : σ) (result : Except ε α)
  | step (state : σ) (rest : Run σ ε α)
  deriving Repr

namespace Run

def final : Run σ ε α → σ
  | done state _ => state
  | step _ rest => rest.final

def result : Run σ ε α → Except ε α
  | done _ result => result
  | step _ rest => rest.result

/-- The state that a crash after `n` atomic steps leaves.  A run that has
fewer steps has ended. -/
def cut : Run σ ε α → Nat → σ
  | done state _, _ => state
  | step state _, 0 => state
  | step _ rest, n + 1 => rest.cut n

/-- Go on with `next` where a run ends without an error. -/
def bind (next : α → σ → Run σ ε β) : Run σ ε α → Run σ ε β
  | done state (.ok value) => next value state
  | done state (.error e) => done state (.error e)
  | step state rest => step state (rest.bind next)

/-- The run whose result is always a value: the result of the first. -/
def attempt : Run σ ε α → Run σ ε (Except ε α)
  | done state result => done state (.ok result)
  | step state rest => step state rest.attempt

/-- The same run over a larger state. -/
def mapStates (f : σ → τ) : Run σ ε α → Run τ ε α
  | done state result => done (f state) result
  | step state rest => step (f state) (rest.mapStates f)

/-- Every state in front of a step satisfies `inv`, and the end of the run
satisfies `post`. -/
def Meets (inv : σ → Prop) (post : Except ε α → σ → Prop) : Run σ ε α → Prop
  | done state result => post result state
  | step state rest => inv state ∧ rest.Meets inv post

end Run

/-! ## Programs -/

structure Prog (σ ε α : Type) where
  run : σ → Run σ ε α

namespace Prog

instance : Monad (Prog σ ε) where
  pure value := ⟨fun state => .done state (.ok value)⟩
  bind program next := ⟨fun state => (program.run state).bind fun value => (next value).run⟩

/-- Look at the state and change nothing. -/
def read (f : σ → Except ε α) : Prog σ ε α :=
  ⟨fun state => .done state (f state)⟩

/-- One atomic durable change, or an error and no change. -/
def act (f : σ → Except ε σ) : Prog σ ε Unit :=
  ⟨fun state =>
    match f state with
    | .ok next => .step state (.done next (.ok ()))
    | .error e => .done state (.error e)⟩

def fail (e : ε) : Prog σ ε α :=
  ⟨fun state => .done state (.error e)⟩

/-- Run a program and return its result, an error included, as a value. -/
def attempt (program : Prog σ ε α) : Prog σ ε (Except ε α) :=
  ⟨fun state => (program.run state).attempt⟩

/-- Give back a result that `attempt` returned. -/
def ofResult (result : Except ε α) : Prog σ ε α :=
  ⟨fun state => .done state result⟩

/-- The same program with another error. -/
def mapError (f : ε → ε) (program : Prog σ ε α) : Prog σ ε α :=
  program.attempt >>= fun result => ofResult (result.mapError f)

/-- Run a program on a part of the state. -/
def zoom (get : τ → σ) (put : τ → σ → τ) (program : Prog σ ε α) : Prog τ ε α :=
  ⟨fun state => (program.run (get state)).mapStates (put state)⟩

end Prog

/-! ## Rules -/

open Run Prog List

variable {program : Prog σ ε α}

section Rules

variable {inv : σ → Prop} {post : Except ε α → σ → Prop} {state : σ}

@[simp] theorem meets_done {result} :
    (done state result).Meets inv post ↔ post result state := Iff.rfl

variable {rest : Run σ ε α}

@[simp] theorem meets_step :
    (step state rest).Meets inv post ↔ inv state ∧ rest.Meets inv post := Iff.rfl

@[simp] theorem run_pure (value : α) :
    (pure value : Prog σ ε α).run state = done state (.ok value) := rfl

@[simp] theorem run_read (f : σ → Except ε α) :
    (Prog.read f).run state = done state (f state) := rfl

@[simp] theorem run_fail (e : ε) :
    (Prog.fail e : Prog σ ε α).run state = done state (.error e) := rfl

@[simp] theorem run_ofResult (result : Except ε α) :
    (Prog.ofResult result : Prog σ ε α).run state = done state result := rfl

theorem run_bind {next : α → Prog σ ε β} :
    (program >>= next).run state = (program.run state).bind fun value => (next value).run := rfl

theorem run_attempt :
    program.attempt.run state = (program.run state).attempt := rfl

variable {next : α → σ → Run σ ε β}

@[simp] theorem bind_ok {value} :
    (done state (.ok value)).bind next = next value state := rfl

@[simp] theorem bind_error {e} :
    (done state (.error e)).bind next = done state (.error e) := rfl

@[simp] theorem bind_step :
    (step state rest).bind next = step state (rest.bind next) := rfl

@[simp] theorem attempt_done {result : Except ε α} :
    (done state result).attempt = done state (.ok result) := rfl

@[simp] theorem attempt_step :
    (step state rest).attempt = step state rest.attempt := rfl

variable {f : σ → Except ε σ}

theorem run_act_ok {next} (h : f state = .ok next) :
    (Prog.act f).run state = step state (done next (.ok ())) := by
  simp [Prog.act, h]

theorem run_act_error {e} (h : f state = .error e) :
    (Prog.act f).run state = done state (.error e) := by
  simp [Prog.act, h]

/-- What is left to show of `next` after a run, by its result. -/
def afterwards (inv : σ → Prop) (post : Except ε β → σ → Prop) (next : α → σ → Run σ ε β) :
    Except ε α → σ → Prop
  | .ok value, state => (next value state).Meets inv post
  | .error e, state => post (.error e) state

@[simp] theorem afterwards_ok {post value} :
    afterwards inv post next (.ok value) state = (next value state).Meets inv post := rfl

@[simp] theorem afterwards_error {post e} :
    afterwards inv post next (.error e) state = post (.error e) state := rfl

theorem Run.meets_bind {post} (run : Run σ ε α) :
    (run.bind next).Meets inv post ↔ run.Meets inv (afterwards inv post next) := by
  induction run with
  | done state result => cases result <;> exact Iff.rfl
  | step state rest ih => simp only [Run.bind, meets_step, ih]

@[simp] theorem meets_bind {post} {next : α → Prog σ ε β} :
    ((program >>= next).run state).Meets inv post ↔
      (program.run state).Meets inv (afterwards inv post fun value => (next value).run) :=
  Run.meets_bind _

theorem meets_read_bind {post} {f : σ → Except ε α} {next : α → Prog σ ε β}
    (herror : ∀ e, post (.error e) state)
    (hok : ∀ value, f state = .ok value → ((next value).run state).Meets inv post) :
    ((Prog.read f >>= next).run state).Meets inv post := by
  rw [meets_bind, run_read, meets_done]
  cases hread : f state with
  | ok value => exact hok value hread
  | error e => exact herror e

@[simp] theorem meets_attempt {post} :
    (program.attempt.run state).Meets inv post ↔
      (program.run state).Meets inv fun result final => post (.ok result) final := by
  simp only [Prog.attempt]
  induction program.run state with
  | done state result => exact Iff.rfl
  | step state rest ih => simp only [Run.attempt, meets_step, ih]

@[simp] theorem meets_mapError {f : ε → ε} :
    ((program.mapError f).run state).Meets inv post ↔
      (program.run state).Meets inv fun result final => post (result.mapError f) final := by
  simp [Prog.mapError, meets_bind, meets_attempt, afterwards_ok, run_ofResult, meets_done]

theorem Run.meets_mapStates {inv post} {f : σ → τ} (run : Run σ ε α) :
    (run.mapStates f).Meets inv post ↔
      run.Meets (fun state => inv (f state)) fun result final => post result (f final) := by
  induction run with
  | done state result => exact Iff.rfl
  | step state rest ih => simp only [Run.mapStates, meets_step, ih]

@[simp] theorem meets_zoom {inv post} {state : τ} {get put} :
    ((program.zoom get put).run state).Meets inv post ↔
      (program.run (get state)).Meets (fun part => inv (put state part))
        fun result part => post result (put state part) :=
  Run.meets_mapStates _

variable {run : Run σ ε α}

theorem Run.Meets.mono {inv' post'} (h : run.Meets inv post) (hinv : ∀ s, inv s → inv' s)
    (hpost : ∀ r s, post r s → post' r s) : run.Meets inv' post' := by
  induction run with
  | done state result => exact hpost _ _ h
  | step state rest ih => exact ⟨hinv _ h.1, ih h.2⟩

theorem Run.Meets.bind {inv' post'} {next : α → Prog σ ε β}
    (h : (program.run state).Meets inv post) (hinv : ∀ s, inv s → inv' s)
    (herror : ∀ e s, post (.error e) s → post' (.error e) s)
    (hok : ∀ value s, post (.ok value) s → ((next value).run s).Meets inv' post') :
    ((program >>= next).run state).Meets inv' post' := by
  rw [run_bind, meets_bind]
  refine h.mono hinv fun result s hs => ?_
  cases result with
  | ok value => exact hok value s hs
  | error e => exact herror e s hs

theorem Run.Meets.post_final (h : run.Meets inv post) : post run.result run.final := by
  induction run with
  | done state result => exact h
  | step state rest ih => exact ih h.2

theorem Run.meets_end : run.Meets (fun _ => True) post ↔ post run.result run.final := by
  induction run with
  | done state result => exact Iff.rfl
  | step state rest ih => exact (and_iff_right trivial).trans ih

theorem Run.Meets.cut (h : run.Meets inv fun _ s => inv s) (n : Nat) : inv (run.cut n) := by
  induction run generalizing n with
  | done state result => exact h
  | step state rest ih =>
    cases n with
    | zero => exact h.1
    | succ n => exact ih h.2 n

theorem Run.exists_cut_eq_final (run : Run σ ε α) : ∃ n, run.cut n = run.final := by
  induction run with
  | done state result => exact ⟨0, rfl⟩
  | step state rest ih =>
    obtain ⟨n, hn⟩ := ih
    exact ⟨n + 1, hn⟩

/-- The program keeps `inv` at every step, whatever its result. -/
def Prog.Keeps (inv : σ → Prop) (program : Prog σ ε α) : Prop :=
  ∀ state, inv state → (program.run state).Meets inv fun _ final => inv final

theorem Prog.Keeps.meets {inv'} (h : program.Keeps inv) (hstate : inv state)
    (hinv : ∀ s, inv s → inv' s) (hpost : ∀ r s, inv s → post r s) :
    (program.run state).Meets inv' post :=
  (h state hstate).mono hinv hpost

theorem keeps_pure (value : α) : Prog.Keeps inv (pure value : Prog σ ε α) :=
  fun _ h => h

theorem keeps_read (f : σ → Except ε α) : Prog.Keeps inv (Prog.read f) :=
  fun _ h => h

theorem keeps_fail (e : ε) : Prog.Keeps inv (Prog.fail e : Prog σ ε α) :=
  fun _ h => h

theorem keeps_act (hact : ∀ state next, inv state → f state = .ok next → inv next) :
    Prog.Keeps inv (Prog.act f) := by
  intro state h
  cases hf : f state with
  | ok next =>
    rw [run_act_ok hf]
    exact ⟨h, hact state next h hf⟩
  | error e =>
    rw [run_act_error hf]
    exact h

theorem keeps_bind {next : α → Prog σ ε β} (hprogram : program.Keeps inv)
    (hnext : ∀ value, (next value).Keeps inv) : (program >>= next).Keeps inv :=
  fun state h => (hprogram state h).bind (fun _ hs => hs) (fun _ _ hs => hs) hnext

theorem keeps_attempt (h : program.Keeps inv) : program.attempt.Keeps inv := by
  intro state hstate
  rw [meets_attempt]
  exact h state hstate

theorem keeps_attempt_bind {next : Except ε α → Prog σ ε β} (hprogram : program.Keeps inv)
    (hok : ∀ value, (next (.ok value)).Keeps inv) (herror : ∀ e, (next (.error e)).Keeps inv) :
    (program.attempt >>= next).Keeps inv := by
  refine keeps_bind (keeps_attempt hprogram) fun result => ?_
  cases result with
  | ok value => exact hok value
  | error e => exact herror e

theorem keeps_attempt_fail (h : program.Keeps inv) (e : ε) :
    (program.attempt >>= fun _ => (Prog.fail e : Prog σ ε β)).Keeps inv :=
  keeps_bind (keeps_attempt h) fun _ => keeps_fail e

theorem keeps_mapError {f} (h : program.Keeps inv) : (program.mapError f).Keeps inv := by
  intro state hstate
  rw [meets_mapError]
  exact h state hstate

theorem keeps_ite {c : Prop} [Decidable c] {p q : Prog σ ε α}
    (hp : p.Keeps inv) (hq : q.Keeps inv) : (if c then p else q).Keeps inv := by
  split
  · exact hp
  · exact hq

theorem keeps_reading {f} {next : α → Prog σ ε β} (h : ∀ value, (next value).Keeps inv) :
    (Prog.read f >>= next).Keeps inv :=
  keeps_bind (keeps_read f) h

theorem keeps_read_bind {f} {next : α → Prog σ ε β}
    (h : ∀ state value, f state = .ok value → (next value).Keeps inv) :
    (Prog.read f >>= next).Keeps inv := by
  intro state hstate
  rw [meets_bind, run_read, meets_done]
  cases hf : f state with
  | ok value => exact h state value hf state hstate
  | error e => exact hstate

theorem keeps_ofResult (result : Except ε α) : Prog.Keeps inv (Prog.ofResult result : Prog σ ε α) :=
  fun _ h => h

variable {items : List β} {body : β → Prog σ ε Unit}

theorem keeps_forM (h : ∀ item ∈ items, (body item).Keeps inv) : (items.forM body).Keeps inv := by
  induction items with
  | nil => exact keeps_pure ()
  | cons item items ih =>
    refine keeps_bind (h item mem_cons_self) fun _ => ?_
    exact ih fun other hother => h other (mem_cons_of_mem _ hother)

/-- A program on a part of the state keeps what does not depend on the
part. -/
theorem keeps_zoom {inv get} {put : τ → σ → τ}
    (h : ∀ state part, inv state → inv (put state part)) : (program.zoom get put).Keeps inv := by
  intro state hstate
  rw [meets_zoom]
  induction program.run (get state) with
  | done part result => exact h state part hstate
  | step part rest ih => exact ⟨h state part hstate, ih⟩

/-- The run keeps `inv`, and where it succeeds its value and its end satisfy
`post`. -/
def Run.Yields (inv : σ → Prop) (post : α → σ → Prop) (run : Run σ ε α) : Prop :=
  run.Meets inv fun result final => inv final ∧ ∀ value, result = .ok value → post value final

section Yields

variable {post : α → σ → Prop}

theorem yields_error {e : ε} (h : inv state) : (done state (.error e)).Yields inv post :=
  ⟨h, nofun⟩

theorem yields_ok {value} (h : inv state) (hpost : post value state) :
    (done state (.ok value) : Run σ ε α).Yields inv post := by
  refine ⟨h, ?_⟩
  rintro _ ⟨⟩
  exact hpost

theorem Run.Yields.keeps (h : run.Yields inv post) : run.Meets inv fun _ final => inv final :=
  h.mono (fun _ hs => hs) fun _ _ hs => hs.1

theorem Prog.Keeps.yields (h : program.Keeps inv) (hstate : inv state) :
    (program.run state).Yields inv fun _ _ => True :=
  (h state hstate).mono (fun _ hs => hs) fun _ _ hs => ⟨hs, fun _ _ => trivial⟩

theorem Run.Yields.bind {post'} {next : α → Prog σ ε β} (h : (program.run state).Yields inv post)
    (hnext : ∀ value s, inv s → post value s → ((next value).run s).Yields inv post') :
    ((program >>= next).run state).Yields inv post' :=
  Run.Meets.bind h (fun _ hs => hs) (fun _ _ hs => yields_error hs.1) fun value s hs =>
    hnext value s hs.1 (hs.2 value rfl)

theorem yields_ite {c : Prop} [Decidable c] {p q : Prog σ ε α}
    (hp : c → (p.run state).Yields inv post) (hq : ¬c → (q.run state).Yields inv post) :
    ((if c then p else q).run state).Yields inv post := by
  split
  · exact hp ‹_›
  · exact hq ‹_›

/-- What the run keeps besides holds at its end. -/
theorem Run.Yields.and_keeps {inv'} (h : run.Yields inv post)
    (h' : run.Meets inv' fun _ final => inv' final) :
    run.Yields inv fun value final => post value final ∧ inv' final := by
  induction run with
  | done final result => exact ⟨h.1, fun value hvalue => ⟨h.2 value hvalue, h'⟩⟩
  | step state rest ih => exact ⟨h.1, ih h.2 h'.2⟩

theorem yields_read_bind {post f} {next : α → Prog σ ε β} (h : inv state)
    (hok : ∀ value, f state = .ok value → ((next value).run state).Yields inv post) :
    ((Prog.read f >>= next).run state).Yields inv post :=
  meets_read_bind (fun _ => yields_error h) hok

end Yields

/-- A crash point of a run satisfies `p`. -/
def Run.Passes (p : σ → Prop) (run : Run σ ε α) : Prop :=
  ∃ n, p (run.cut n)

theorem Run.passes_step {p} (h : p state) : (step state rest).Passes p :=
  ⟨0, h⟩

/-- What comes after a run that does not fail is passed. -/
theorem Run.passes_bind {p} (h : run.Meets (fun _ => True) fun result final =>
      ∃ value, result = .ok value ∧ (next value final).Passes p) : (run.bind next).Passes p := by
  induction run with
  | done state result =>
    obtain ⟨value, rfl, hpasses⟩ := h
    exact hpasses
  | step state rest ih =>
    obtain ⟨n, hn⟩ := ih h.2
    exact ⟨n + 1, hn⟩

/-- A loop whose rounds all do nothing does nothing. -/
theorem run_forM_idle (h : ∀ item ∈ items, (body item).run state = done state (.ok ())) :
    (items.forM body).run state = done state (.ok ()) := by
  induction items with
  | nil => rfl
  | cons item items ih =>
    show (body item >>= fun _ => items.forM body).run state = _
    rw [run_bind, h item mem_cons_self]
    exact ih fun item hitem => h item (mem_cons_of_mem _ hitem)

theorem Run.bind_pure (run : Run σ ε Unit) :
    (run.bind fun _ => (pure () : Prog σ ε Unit).run) = run := by
  induction run with
  | done state result => cases result <;> rfl
  | step state rest ih => rw [bind_step, ih]

theorem run_forM_singleton (item : β) (body : β → Prog σ ε Unit) :
    ([item].forM body).run state = (body item).run state := by
  show (body item >>= fun _ => pure ()).run state = _
  rw [run_bind, Run.bind_pure]

theorem run_forM_append (items others : List β) (body : β → Prog σ ε Unit) :
    ((items ++ others).forM body).run state =
      ((items.forM body) >>= fun _ => others.forM body).run state := by
  induction items generalizing state with
  | nil => rfl
  | cons item items ih =>
    show (body item >>= fun _ => (items ++ others).forM body).run state =
      ((body item >>= fun _ => items.forM body) >>= fun _ => others.forM body).run state
    simp only [run_bind]
    induction (body item).run state with
    | done state result =>
      cases result with
      | ok value => exact ih
      | error e => rfl
    | step state rest ihrest => simp only [bind_step, ihrest]

/-- A loop in which one round works and all others do nothing, in front of
it and after it. -/
theorem meets_forM_only {post item} (hitem : item ∈ items)
    (hnodup : items.Nodup)
    (hbefore : ∀ other ∈ items, other ≠ item → (body other).run state = done state (.ok ()))
    (hrun : ((body item).run state).Meets inv fun result final =>
      match result with
      | .ok _ => post (.ok ()) final ∧
          ∀ other ∈ items, other ≠ item → (body other).run final = done final (.ok ())
      | .error e => post (.error e) final) : ((items.forM body).run state).Meets inv post := by
  obtain ⟨before, after, rfl⟩ := append_of_mem hitem
  obtain ⟨hneBefore, hneAfter⟩ : item ∉ before ∧ item ∉ after := by
    obtain ⟨-, hafter, hdisjoint⟩ := nodup_append.mp hnodup
    exact ⟨fun h => hdisjoint item h item mem_cons_self rfl, (nodup_cons.mp hafter).1⟩
  have hidle : (before.forM body).run state = done state (.ok ()) := by
    apply run_forM_idle
    intro other hother
    refine hbefore other (mem_append_left _ hother) ?_
    intro heq
    exact hneBefore (heq ▸ hother)
  rw [run_forM_append, meets_bind, hidle, meets_done, afterwards_ok]
  show ((body item >>= fun _ => after.forM body).run state).Meets inv post
  rw [meets_bind]
  refine hrun.mono (fun _ hs => hs) ?_
  intro result final hresult
  cases result with
  | error e => exact hresult
  | ok value =>
    obtain ⟨hpost, hidleAfter⟩ := hresult
    have hafter : (after.forM body).run final = done final (.ok ()) := by
      apply run_forM_idle
      intro other hother
      refine hidleAfter other (mem_append_right _ (mem_cons_of_mem _ hother)) ?_
      intro heq
      exact hneAfter (heq ▸ hother)
    rw [afterwards_ok, hafter]
    exact hpost

end Rules

/-! ## Repeated runs -/

/-- The states that runs of `program`, one after the other and each cut
short or not, leave behind. -/
inductive After (program : Prog σ ε α) (start : σ) : σ → Prop where
  | refl : After program start start
  | cut {state : σ} (before : After program start state) (n : Nat) :
      After program start ((program.run state).cut n)

/-- A property that every crash point of a run inherits from its start
holds however often the program is run. -/
theorem After.keeps {inv}
    (hprogram : ∀ state, inv state → (program.run state).Meets inv fun _ s => inv s) {start state}
    (h : After program start state) (hstart : inv start) : inv state := by
  induction h with
  | refl => exact hstart
  | cut before n ih => exact (hprogram _ ih).cut n

end Facelock.Crash
