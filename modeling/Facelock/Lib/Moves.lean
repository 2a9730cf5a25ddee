import Facelock.Lib.Crash

/-!
# Steps of a run

`Run.Meets` speaks about the states of a run one at a time.  `Run.Moves`
speaks about its steps: consecutive states are related by `R`.  It keeps
the start of the run as an argument, so that a run that goes on where
another one ends starts in the right state.

Each construct of a program has one rule.  `Moves.cut` reads the relation
off between one crash point and the next, and `moves_forM` carries it
through a list of programs.
-/

namespace Facelock.Crash

variable {σ τ ε α β : Type} {R : σ → σ → Prop}

/-- The run starts in the given state, each of its steps is in `R`, and its
end satisfies `post`. -/
def Run.Moves (R : σ → σ → Prop) (post : Except ε α → σ → Prop) : Run σ ε α → σ → Prop
  | done state result, start => state = start ∧ post result state
  | step state rest, start => state = start ∧ ∃ next, R state next ∧ rest.Moves R post next

def Prog.Moves (R : σ → σ → Prop) (post : Except ε α → σ → Prop) (program : Prog σ ε α)
    (start : σ) : Prop :=
  (program.run start).Moves R post start

/-! ## Rules -/

variable {run : Run σ ε α}

section Rules

variable {post : Except ε α → σ → Prop} {start : σ}

theorem moves_pure {value} (h : post (.ok value) start) : Prog.Moves R post (pure value) start :=
  ⟨rfl, h⟩

theorem moves_read {f} (h : post (f start) start) : Prog.Moves R post (Prog.read f) start :=
  ⟨rfl, h⟩

theorem moves_ofResult {result} (h : post result start) :
    Prog.Moves R post (Prog.ofResult result) start :=
  ⟨rfl, h⟩

theorem moves_fail {e} (h : post (.error e) start) : Prog.Moves R post (Prog.fail e) start :=
  ⟨rfl, h⟩

theorem moves_act {post} {f : σ → Except ε σ}
    (hok : ∀ next, f start = .ok next → R start next ∧ post (.ok ()) next)
    (herror : ∀ e, f start = .error e → post (.error e) start) :
    Prog.Moves R post (Prog.act f) start := by
  unfold Prog.Moves
  cases hf : f start with
  | ok next =>
    rw [run_act_ok hf]
    obtain ⟨hstep, hpost⟩ := hok next hf
    exact ⟨rfl, next, hstep, rfl, hpost⟩
  | error e =>
    rw [run_act_error hf]
    exact ⟨rfl, herror e hf⟩

theorem Run.Moves.mono {S post'} (h : run.Moves R post start) (hstep : ∀ s t, R s t → S s t)
    (hpost : ∀ r s, post r s → post' r s) : run.Moves S post' start := by
  induction run generalizing start with
  | done state result => exact ⟨h.1, hpost _ _ h.2⟩
  | step state rest ih =>
    obtain ⟨heq, next, hR, hrest⟩ := h
    exact ⟨heq, next, hstep _ _ hR, ih hrest⟩

variable {program : Prog σ ε α}

theorem Prog.Moves.mono {post'} (h : program.Moves R post start)
    (hpost : ∀ r s, post r s → post' r s) : program.Moves R post' start :=
  Run.Moves.mono h (fun _ _ hR => hR) hpost

/-- What is left to show of `next` after a program, by its result. -/
def continuing (R : σ → σ → Prop) (post : Except ε β → σ → Prop) (next : α → Prog σ ε β) :
    Except ε α → σ → Prop
  | .ok value, state => (next value).Moves R post state
  | .error e, state => post (.error e) state

theorem moves_bind {post} {next : α → Prog σ ε β}
    (h : program.Moves R (continuing R post next) start) :
    (program >>= next).Moves R post start := by
  unfold Prog.Moves at h ⊢
  rw [run_bind]
  generalize program.run start = run at h
  induction run generalizing start with
  | done state result =>
    obtain ⟨rfl, hpost⟩ := h
    cases result with
    | ok value => exact hpost
    | error e => exact ⟨rfl, hpost⟩
  | step state rest ih =>
    obtain ⟨rfl, after, hR, hrest⟩ := h
    exact ⟨rfl, after, hR, ih hrest⟩

/-- Each step of the run is in `R`. -/
abbrev Prog.Steps (R : σ → σ → Prop) (program : Prog σ ε α) (start : σ) : Prop :=
  program.Moves R (fun _ _ => True) start

theorem steps_bind {next : α → Prog σ ε β} (h : program.Moves R post start)
    (hnext : ∀ value final, post (.ok value) final → (next value).Steps R final) :
    (program >>= next).Steps R start := by
  refine moves_bind (h.mono fun result final hpost => ?_)
  cases result with
  | error e => trivial
  | ok value => exact hnext value final hpost

theorem steps_read {f} {next : α → Prog σ ε β}
    (h : ∀ value, f start = .ok value → (next value).Steps R start) :
    (Prog.read f >>= next).Steps R start := by
  refine moves_bind (moves_read ?_)
  cases hf : f start with
  | error e => trivial
  | ok value => exact h value hf

theorem moves_attempt {post}
    (h : program.Moves R (fun result final => post (.ok result) final) start) :
    program.attempt.Moves R post start := by
  unfold Prog.Moves at h ⊢
  rw [run_attempt]
  generalize program.run start = run at h
  induction run generalizing start with
  | done state result => exact h
  | step state rest ih =>
    obtain ⟨rfl, after, hR, hrest⟩ := h
    exact ⟨rfl, after, hR, ih hrest⟩

theorem moves_mapError {f}
    (h : program.Moves R (fun result final => post (result.mapError f) final) start) :
    (program.mapError f).Moves R post start :=
  moves_bind (moves_attempt (h.mono fun _ _ hpost => ⟨rfl, hpost⟩))

theorem moves_zoom {R post start get}
    {put : τ → σ → τ} (hput : put start (get start) = start)
    (h : program.Moves (fun part part' => R (put start part) (put start part'))
      (fun result part => post result (put start part)) (get start)) :
    (program.zoom get put).Moves R post start := by
  have hrun : ∀ (run : Run σ ε α) (part : σ),
      run.Moves (fun part part' => R (put start part) (put start part'))
        (fun result part => post result (put start part)) part →
      (run.mapStates (put start)).Moves R post (put start part) := by
    intro run
    induction run with
    | done state result =>
      rintro part ⟨rfl, hpost⟩
      exact ⟨rfl, hpost⟩
    | step state rest ih =>
      rintro part ⟨rfl, after, hR, hrest⟩
      exact ⟨rfl, put start after, hR, ih after hrest⟩
  have hzoom := hrun (program.run (get start)) (get start) h
  rw [hput] at hzoom
  exact hzoom

end Rules

/-! ## Whole runs -/

theorem Run.Moves.cut_zero {post start} (h : run.Moves R post start) : run.cut 0 = start := by
  cases run with
  | done state result => exact h.1
  | step state rest => exact h.1

theorem Run.Moves.cut_succ {post start} (hrefl : ∀ state, R state state)
    (h : run.Moves R post start) (n : Nat) : R (run.cut n) (run.cut (n + 1)) := by
  induction run generalizing start n with
  | done state result => exact hrefl state
  | step state rest ih =>
    obtain ⟨-, next, hR, hrest⟩ := h
    cases n with
    | zero =>
      show R state (rest.cut 0)
      rw [hrest.cut_zero]
      exact hR
    | succ n => exact ih hrest n

theorem Run.Moves.cut {post start} {inv : σ → Prop} (hstep : ∀ s t, R s t → inv s → inv t)
    (h : run.Moves R post start) (hstart : inv start) (n : Nat) : inv (run.cut n) := by
  induction run generalizing start n with
  | done state result =>
    obtain ⟨rfl, -⟩ := h
    exact hstart
  | step state rest ih =>
    obtain ⟨rfl, next, hR, hrest⟩ := h
    cases n with
    | zero => exact hstart
    | succ n => exact ih hrest (hstep _ _ hR hstart) n

/-- A list of programs, run one after the other whatever their results. -/
def inTurn (programs : List (Prog σ ε Unit)) : Prog σ ε Unit :=
  programs.forM fun program => program.attempt >>= fun _ => pure ()

theorem moves_inTurn {programs : List (Prog σ ε Unit)}
    (h : ∀ program ∈ programs, ∀ state, program.Steps R state) (start : σ) :
    (inTurn programs).Steps R start := by
  induction programs generalizing start with
  | nil => exact moves_pure trivial
  | cons program programs ih =>
    have hprogram : (program.attempt >>= fun _ => pure ()).Moves R
        (continuing R (fun _ _ => True) fun _ => inTurn programs) start := by
      refine moves_bind (moves_attempt ?_)
      refine (h program List.mem_cons_self start).mono fun _ final _ => moves_pure ?_
      exact ih (fun other hother => h other (List.mem_cons_of_mem _ hother)) final
    exact moves_bind hprogram

end Facelock.Crash
