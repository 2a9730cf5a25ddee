import Facelock.Auth.RateLimit
import Facelock.Lib.Retention

/-!
# The window of the rate limiter

`check` and `record_failure` of `crates/facelock-daemon/src/rate_limit.rs`
delete old rows of all users as they go.  Here the operations come one
after the other and the clock never goes back.  The limiter is compared
with one that keeps every failure and counts those of the last
`window_secs` seconds.

A deleted row lies before the cutoff of its deletion, and cutoffs only
move forward, so no later count misses it.  The rows in the table retain
the history from the cutoff on (`Retention.Retains`), which is the
invariant of the run (`answers_eq_ideal_of_retains`).

The comparison needs that the cutoff is `now - window_secs`.  The cast to
`i64` makes a window above `2 ^ 63` negative, so the cutoff can lie in
the future.  Then every check deletes and passes over all rows.
-/

namespace Facelock.Auth.RateLimit

open Retention List

/-! ## Operations -/

/-- One call.  The times are the readings of the clock, and the booleans
say whether a statement succeeds. -/
inductive Operation where
  | check (user : String) (cleanup : Bool) (cleanupAt now : Int)
  | recordFailure (user : String) (insert : Bool) (now : Int) (cleanup : Bool) (cleanupAt : Int)
  deriving DecidableEq, Repr

/-- The readings of the clock in their order. -/
def Operation.readings : Operation → List Int
  | .check _ _ cleanupAt now => [cleanupAt, now]
  | .recordFailure _ _ now _ cleanupAt => [now, cleanupAt]

variable (limiter : RateLimiter)

/-- `cleanup_rate_limit`, which may fail. -/
def cleanupRateLimit (ok : Bool) (now : Int) (rows : List Row) : List Row :=
  if ok then deleteUpTo (cutoffAt now limiter.windowSecs) rows else rows

/-- `check_rate_limit`.  The count is read as a `u32`. -/
def checkRateLimit (user : String) (now : Int) (rows : List Row) : Option Bool :=
  let count := countAfter user (cutoffAt now limiter.windowSecs) rows
  if count < 2 ^ 32 then some (count < limiter.maxFailures) else none

def Operation.apply : Operation → List Row → List Row
  | .check _ cleanup cleanupAt _, rows => cleanupRateLimit limiter cleanup cleanupAt rows
  | .recordFailure user insert now cleanup cleanupAt, rows =>
    if insert then
      cleanupRateLimit limiter cleanup cleanupAt ({ user, attemptTime := now } :: rows)
    else rows

/-- Whether each `check` of a sequence returns `Ok(true)`. -/
def answers (limiter : RateLimiter) : List Operation → List Row → List Bool
  | [], _ => []
  | operation :: operations, rows =>
    let next := operation.apply limiter rows
    match operation with
    | .check user _ _ now =>
      (checkRateLimit limiter user now next == some true) :: answers limiter operations next
    | .recordFailure .. => answers limiter operations next

/-! ## The limiter that never deletes -/

/-- The failures that have been recorded. -/
def Operation.remember : Operation → List Row → List Row
  | .check .., history => history
  | .recordFailure user insert now _ _, history =>
    if insert then { user, attemptTime := now } :: history else history

/-- The answers of the limiter that keeps every failure: fewer than
`max_failures` failures of the user in the last `window_secs` seconds. -/
def idealAnswers (limiter : RateLimiter) : List Operation → List Row → List Bool
  | [], _ => []
  | operation :: operations, history =>
    match operation with
    | .check user _ _ now =>
      decide (countWindow user (now - limiter.windowSecs) limiter.windowSecs history <
        limiter.maxFailures) :: idealAnswers limiter operations (operation.remember history)
    | .recordFailure .. => idealAnswers limiter operations (operation.remember history)

section

variable (budget : Nat) {windowSecs : Nat} (operations : List Operation)

/-- The clock counts seconds in an `i64` and never goes back. -/
def InOrder : Prop :=
  (operations.flatMap Operation.readings).Pairwise (· ≤ ·) ∧
    ∀ now ∈ operations.flatMap Operation.readings, 0 ≤ now ∧ now < 2 ^ 63

instance : Decidable (InOrder operations) :=
  inferInstanceAs (Decidable (_ ∧ _))

/-! ## Windows that the cast leaves alone -/

/-- Up to `2 ^ 63` the cutoff is what it should be. -/
theorem cutoffAt_eq_of_le {now} (hwindow : windowSecs ≤ 2 ^ 63) (hnow : 0 ≤ now)
    (hlt : now < 2 ^ 63) : cutoffAt now windowSecs = now - windowSecs := by
  unfold cutoffAt asI64
  rw [Int.bmod_def, Int.bmod_def]
  split <;> split <;> omega

theorem deleteUpTo_eq (cutoff : Int) (rows : List Row) :
    deleteUpTo cutoff rows = after Row.attemptTime cutoff rows := rfl

/-- Counting the rows after the cutoff counts the window, if no row lies in
the future. -/
theorem countWindow_eq {user now history} (hpast : ∀ row ∈ history, row.attemptTime ≤ now) :
    countWindow user (now - windowSecs) windowSecs history =
      countAfter user (now - windowSecs) history := by
  refine countP_congr fun row hrow => ?_
  have := hpast row hrow
  simp only [Bool.and_eq_true, decide_eq_true_eq]
  constructor
  · exact fun h => h.1
  · intro h
    exact ⟨h, by omega⟩

/-- What the table must have at the time `now`. -/
structure Kept (limiter : RateLimiter) (now : Int) (rows history : List Row) : Prop where
  retains : Retains Row.attemptTime (now - limiter.windowSecs) rows history
  past : ∀ row ∈ history, row.attemptTime ≤ now

section Keeps

variable {limiter : RateLimiter} {now later : Int} {rows history : List Row}

theorem Kept.mono (h : Kept limiter now rows history) (hle : now ≤ later) :
    Kept limiter later rows history :=
  ⟨h.retains.mono (by omega), fun row hrow => (h.past row hrow).trans hle⟩

theorem Kept.cleanup (h : Kept limiter now rows history) (hwindow : limiter.windowSecs ≤ 2 ^ 63)
    (hnow : 0 ≤ now) (hlt : now < 2 ^ 63) (ok : Bool) :
    Kept limiter now (cleanupRateLimit limiter ok now rows) history := by
  refine ⟨?_, h.past⟩
  cases ok with
  | false => exact h.retains
  | true =>
    show Retains _ _ (deleteUpTo (cutoffAt now limiter.windowSecs) rows) history
    rw [cutoffAt_eq_of_le hwindow hnow hlt, deleteUpTo_eq]
    exact h.retains.prune le_rfl

theorem Kept.record (h : Kept limiter now rows history) (user : String) :
    Kept limiter now ({ user, attemptTime := now } :: rows)
      ({ user, attemptTime := now } :: history) := by
  refine ⟨h.retains.cons _, ?_⟩
  intro row hrow
  rcases mem_cons.mp hrow with rfl | hrow
  · exact le_rfl
  · exact h.past row hrow

/-- A check on the table answers like one on the history. -/
theorem Kept.check (h : Kept limiter now rows history) (hwindow : limiter.windowSecs ≤ 2 ^ 63)
    (hmax : limiter.maxFailures < 2 ^ 32) (hnow : 0 ≤ now) (hlt : now < 2 ^ 63) (user : String) :
    (checkRateLimit limiter user now rows == some true) =
      decide (countWindow user (now - limiter.windowSecs) limiter.windowSecs history <
        limiter.maxFailures) := by
  have hcount : countAfter user (now - limiter.windowSecs) rows =
      countAfter user (now - limiter.windowSecs) history :=
    h.retains.countP_eq fun row => row.user = user
  rw [countWindow_eq h.past, ← hcount, checkRateLimit, cutoffAt_eq_of_le hwindow hnow hlt]
  -- A count that does not fit into a `u32` is above every budget.
  split
  · simp
  · simp
    omega

end Keeps

theorem InOrder.of_cons {operation operations}
    (h : InOrder (operation :: operations)) : InOrder operations := by
  obtain ⟨hsorted, hrange⟩ := h
  exact ⟨(pairwise_append.mp hsorted).2.1, fun now hnow => hrange now (by simp [hnow])⟩

/-- From a table that has what it must have, all answers agree. -/
theorem answers_eq_ideal_of_retains {limiter} (hwindow : limiter.windowSecs ≤ 2 ^ 63)
    (hmax : limiter.maxFailures < 2 ^ 32) {operations now rows history}
    (horder : InOrder operations)
    (hlater : ∀ later ∈ operations.flatMap Operation.readings, now ≤ later)
    (h : Kept limiter now rows history) :
    answers limiter operations rows = idealAnswers limiter operations history := by
  induction operations generalizing now rows history with
  | nil => rfl
  | cons operation operations ih =>
    have htail := horder.of_cons
    obtain ⟨hsorted, hrange⟩ := horder
    have hnext := (pairwise_append.mp hsorted).2.2
    have hown := (pairwise_append.mp hsorted).1
    cases operation with
    | check user cleanup cleanupAt checkAt =>
      have hbefore : cleanupAt ≤ checkAt := by simpa [Operation.readings] using hown
      obtain ⟨hcleanup, hcleanup'⟩ := hrange cleanupAt (by simp [Operation.readings])
      obtain ⟨hcheck, hcheck'⟩ := hrange checkAt (by simp [Operation.readings])
      have hkept : Kept limiter checkAt
          (cleanupRateLimit limiter cleanup cleanupAt rows) history :=
        ((h.mono (hlater cleanupAt (by simp [Operation.readings]))).cleanup hwindow hcleanup
          hcleanup' cleanup).mono hbefore
      show _ :: _ = _ :: _
      refine congrArg₂ List.cons (hkept.check hwindow hmax hcheck hcheck' user) ?_
      exact ih htail (hnext checkAt (by simp [Operation.readings])) hkept
    | recordFailure user insert recordAt cleanup cleanupAt =>
      have hbefore : recordAt ≤ cleanupAt := by simpa [Operation.readings] using hown
      obtain ⟨hcleanup, hcleanup'⟩ := hrange cleanupAt (by simp [Operation.readings])
      have hrecord := h.mono (hlater recordAt (by simp [Operation.readings]))
      cases insert with
      | false =>
        exact ih htail (hnext recordAt (by simp [Operation.readings]))
          hrecord
      | true =>
        exact ih htail (hnext cleanupAt (by simp [Operation.readings]))
          (((hrecord.record user).mono hbefore).cleanup hwindow hcleanup hcleanup' cleanup)

/-! ## Windows that the cast turns around -/

theorem cutoffAt_zero_pos (hwindow : 2 ^ 63 < windowSecs)
    (hlt : windowSecs < 2 ^ 64) : 0 < cutoffAt 0 windowSecs := by
  unfold cutoffAt asI64
  rw [Int.bmod_def, Int.bmod_def]
  split <;> split <;> omega

/-- As many failures as the budget allows, and a check, all at the epoch. -/
def exhausting : List Operation :=
  List.replicate budget (.recordFailure "alice" true 0 false 0) ++ [.check "alice" false 0 0]

theorem inOrder_exhausting : InOrder (exhausting budget) := by
  have hzero : ∀ now ∈ (exhausting budget).flatMap Operation.readings, now = 0 := by
    intro now hnow
    simp only [exhausting, flatMap_append, mem_append, mem_flatMap,
      mem_replicate, mem_singleton] at hnow
    rcases hnow with ⟨operation, ⟨-, rfl⟩, hnow⟩ | ⟨operation, rfl, hnow⟩
    · simpa [Operation.readings] using hnow
    · simpa [Operation.readings] using hnow
  refine ⟨pairwise_of_forall_mem_list fun a ha b hb => ?_, fun now hnow => ?_⟩
  · rw [hzero a ha, hzero b hb]
  · rw [hzero now hnow]
    decide

theorem answers_exhausting (rows : List Row) :
    answers limiter (exhausting budget) rows = [checkRateLimit limiter "alice" 0
      (List.replicate budget { user := "alice", attemptTime := 0 } ++ rows) == some true] := by
  induction budget generalizing rows with
  | zero => rfl
  | succ budget ih =>
    show answers limiter (exhausting budget) ({ user := "alice", attemptTime := 0 } :: rows) = _
    rw [ih, replicate_succ', append_assoc]
    rfl

theorem idealAnswers_exhausting (history : List Row) :
    idealAnswers limiter (exhausting budget) history =
      [decide (countWindow "alice" (0 - limiter.windowSecs) limiter.windowSecs
        (List.replicate budget { user := "alice", attemptTime := 0 } ++ history) <
          limiter.maxFailures)] := by
  induction budget generalizing history with
  | zero => rfl
  | succ budget ih =>
    show idealAnswers limiter (exhausting budget)
      ({ user := "alice", attemptTime := 0 } :: history) = _
    rw [ih, replicate_succ', append_assoc]
    rfl

end

/-- With such a window the limiter passes a user whose budget is used up. -/
theorem answers_ne_ideal {limiter} (hmax : 0 < limiter.maxFailures)
    (hwindow : 2 ^ 63 < limiter.windowSecs) (hlt : limiter.windowSecs < 2 ^ 64) :
    answers limiter (exhausting limiter.maxFailures) [] ≠
      idealAnswers limiter (exhausting limiter.maxFailures) [] := by
  have hcutoff := cutoffAt_zero_pos hwindow hlt
  have hpassed : checkRateLimit limiter "alice" 0 (List.replicate limiter.maxFailures
      { user := "alice", attemptTime := 0 } ++ []) = some true := by
    have hcount : countAfter "alice" (cutoffAt 0 limiter.windowSecs)
        (List.replicate limiter.maxFailures { user := "alice", attemptTime := 0 } ++ []) = 0 := by
      rw [countAfter, countP_eq_zero]
      intro row hrow
      obtain ⟨-, rfl⟩ : limiter.maxFailures ≠ 0 ∧ row = { user := "alice", attemptTime := 0 } := by
        simpa using hrow
      have : ¬ cutoffAt 0 limiter.windowSecs < 0 := by omega
      simp [this]
    rw [checkRateLimit, hcount]
    simp [hmax]
  have hideal : countWindow "alice" (0 - limiter.windowSecs) limiter.windowSecs
      (List.replicate limiter.maxFailures { user := "alice", attemptTime := 0 } ++ []) =
        limiter.maxFailures := by
    have hall : ∀ row ∈ List.replicate limiter.maxFailures
        ({ user := "alice", attemptTime := 0 } : Row) ++ [],
        (row.user = "alice" && decide (0 - (limiter.windowSecs : Int) < row.attemptTime) &&
          decide (row.attemptTime ≤ 0 - (limiter.windowSecs : Int) + limiter.windowSecs)) =
            true := by
      intro row hrow
      obtain ⟨-, rfl⟩ : limiter.maxFailures ≠ 0 ∧ row = { user := "alice", attemptTime := 0 } := by
        simpa using hrow
      simp only [Bool.and_eq_true, decide_eq_true_eq]
      exact ⟨⟨trivial, by omega⟩, by omega⟩
    rw [countWindow, countP_eq_length.mpr hall]
    simp
  rw [answers_exhausting, idealAnswers_exhausting, hpassed, hideal]
  simp

/-! ## Results -/

theorem answers_of_zero {limiter} (hmax : limiter.maxFailures = 0) (operations : List Operation)
    (rows history : List Row) :
    answers limiter operations rows = idealAnswers limiter operations history := by
  induction operations generalizing rows history with
  | nil => rfl
  | cons operation operations ih =>
    cases operation with
    | check user cleanup cleanupAt now =>
      show _ :: _ = _ :: _
      refine congrArg₂ List.cons ?_ (ih _ _)
      rw [checkRateLimit, hmax]
      split <;> simp
    | recordFailure user insert now cleanup cleanupAt => exact ih _ _

/-- The limiter answers every sequence of calls like the one that never
deletes exactly when it passes nobody anyway or its window is at most
`2 ^ 63` seconds. -/
theorem answers_eq_ideal_iff (limiter : RateLimiter) (hmax : limiter.maxFailures < 2 ^ 32)
    (hwindow : limiter.windowSecs < 2 ^ 64) :
    (∀ operations, InOrder operations →
      answers limiter operations [] = idealAnswers limiter operations []) ↔
      limiter.maxFailures = 0 ∨ limiter.windowSecs ≤ 2 ^ 63 := by
  constructor
  · intro h
    by_contra hnot
    rw [not_or, Nat.not_le] at hnot
    exact answers_ne_ideal (Nat.pos_of_ne_zero hnot.1) hnot.2 hwindow
      (h _ (inOrder_exhausting limiter.maxFailures))
  · rintro (hzero | hle) operations horder
    · exact answers_of_zero hzero operations [] []
    · have hkept : Kept limiter 0 [] [] := ⟨rfl, by simp⟩
      exact answers_eq_ideal_of_retains hle hmax horder
        (fun later hlater => (horder.2 later hlater).1) hkept

/-- A minute with a budget of one. -/
theorem answers_eq_ideal_iff_minute :
    answers onePerMinute [.recordFailure "alice" true 1000 true 1000,
        .check "alice" true 1059 1059, .check "bob" false 1059 1060,
        .check "alice" true 1060 1060] [] = [false, true, true] ∧
      ∀ operations, InOrder operations →
        answers onePerMinute operations [] = idealAnswers onePerMinute operations [] :=
  ⟨by decide, (answers_eq_ideal_iff onePerMinute (by decide) (by decide)).mpr
    (Or.inr (by decide))⟩

/-- A window of `u64::MAX` seconds is one of minus one second. -/
theorem maximal_window_passes :
    InOrder [.recordFailure "alice" true 1000 true 1000, .check "alice" true 1000 1000] ∧
      answers { maxFailures := 1, windowSecs := 2 ^ 64 - 1 }
        [.recordFailure "alice" true 1000 true 1000, .check "alice" true 1000 1000] [] = [true] ∧
      idealAnswers { maxFailures := 1, windowSecs := 2 ^ 64 - 1 }
        [.recordFailure "alice" true 1000 true 1000, .check "alice" true 1000 1000] [] =
          [false] := by
  decide

end Facelock.Auth.RateLimit
