import Mathlib.Order.Lattice
import Mathlib.Data.List.Basic

/-!
# Logs that are pruned

A log is a list of entries with times.  `after cutoff` is what a cutoff
leaves of it.  A pruned log retains the full one from a cutoff on if both
leave the same after it (`Retains`).

A cutoff that only moves forward never sees what was pruned before it:
`Retains` holds for every later cutoff (`Retains.mono`), survives pruning
up to the cutoff (`Retains.prune`) and new entries (`Retains.cons`), and
every count behind the cutoff is the count of the full log
(`Retains.countP_eq`).
-/

namespace Retention

variable {α τ : Type*} [LinearOrder τ] {time : α → τ} {cutoff later : τ} {kept all : List α}

def after (time : α → τ) (cutoff : τ) (log : List α) : List α :=
  log.filter fun entry => decide (cutoff < time entry)

/-- The pruned log has everything that the full one has after the cutoff. -/
def Retains (time : α → τ) (cutoff : τ) (kept all : List α) : Prop :=
  after time cutoff kept = after time cutoff all

theorem after_after (h : cutoff ≤ later) (log : List α) :
    after time later (after time cutoff log) = after time later log := by
  rw [after, after, List.filter_filter]
  refine List.filter_congr fun entry _ => ?_
  rw [Bool.eq_iff_iff, Bool.and_eq_true, decide_eq_true_eq, decide_eq_true_eq]
  exact ⟨fun hboth => hboth.1, fun hlater => ⟨hlater, lt_of_le_of_lt h hlater⟩⟩

theorem Retains.mono (h : Retains time cutoff kept all) (hle : cutoff ≤ later) :
    Retains time later kept all := by
  have := congrArg (after time later) h
  rwa [after_after hle, after_after hle] at this

theorem Retains.prune (h : Retains time later kept all) (hle : cutoff ≤ later) :
    Retains time later (after time cutoff kept) all :=
  (after_after hle kept).trans h

theorem Retains.cons (h : Retains time cutoff kept all) (entry : α) :
    Retains time cutoff (entry :: kept) (entry :: all) := by
  unfold Retains after at *
  rw [List.filter_cons, List.filter_cons, h]

theorem Retains.countP_eq (h : Retains time cutoff kept all) (p : α → Bool) :
    kept.countP (fun entry => p entry && decide (cutoff < time entry)) =
      all.countP (fun entry => p entry && decide (cutoff < time entry)) := by
  have hcount : ∀ log : List α,
      log.countP (fun entry => p entry && decide (cutoff < time entry)) =
        (after time cutoff log).countP p := by
    intro log
    rw [after, List.countP_filter]
  rw [hcount, hcount, h]

end Retention
