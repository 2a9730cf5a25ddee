import Facelock.Lib.Transition
import Mathlib.Algebra.Group.Nat.Defs
import Mathlib.Algebra.Order.Group.Int
import Mathlib.Tactic.SplitIfs

/-!
# The shared budget of failed attempts

Every process that authenticates a user shares one table of failures.  An
attempt first asks whether the budget is used up
(`RateLimiter::check` of `crates/facelock-daemon/src/rate_limit.rs` with
`check_rate_limit` of `crates/facelock-store/src/db.rs`), then it scans,
and if the scan saw a face and did not match, it records a failure
(`record_failure`).  Both calls also delete old rows.

An attempt is a process that reads the clock and runs one SQL statement
after the other.  Any number of attempts interleave, and `Event.act` says
which of them moves and what the machine answers it.  A statement is
atomic, and the clock reading that goes into it is a step of its own.

The check and the recording are two statements, so attempts that overlap
can each pass the check and then each record (`overlapping_attempts`).  If
no check of a user runs while another attempt of the user stands between
its passed check and its recording, the table never takes more than the
budget in any window (`recorded_withinBudget`).
-/

namespace Facelock.Auth.RateLimit

open Facelock.Transition List

/-- A row of the table `rate_limit`. -/
structure Row where
  user : String
  attemptTime : Int
  deriving DecidableEq, Repr

structure RateLimiter where
  maxFailures : Nat
  windowSecs : Nat

/-- Where an attempt stands.  A time is a clock reading that the next
statement uses. -/
inductive Phase where
  | start
  | cleaning (cutoff : Int)
  | cleaned
  | checking (cutoff : Int)
  | admitted
  | charging
  | recording (now : Int)
  | recorded
  | tidying (cutoff : Int)
  | ended
  deriving DecidableEq, Repr

structure Attempt where
  user : String
  phase : Phase

/-- The clock in seconds, the table, the attempts in the order in which they
came, and every row that was ever inserted. -/
structure State where
  clock : Int
  rows : List Row
  attempts : List Attempt
  recorded : List Row

/-- What can happen.  `ok` is the answer to an attempt: whether its statement
succeeds, and after a scan whether it saw a face and did not match. -/
inductive Event where
  | tick (seconds : Nat)
  | arrive (user : String)
  | act (attempt : Nat) (ok : Bool)
  deriving DecidableEq, Repr

/-! ## The statements -/

/-- A value as an `i64`. -/
def asI64 (value : Int) : Int :=
  Int.bmod value (2 ^ 64)

/-- `now - window_secs as i64`. -/
def cutoffAt (now : Int) (windowSecs : Nat) : Int :=
  asI64 (now - asI64 windowSecs)

/-- `DELETE FROM rate_limit WHERE attempt_time <= ?1`. -/
def deleteUpTo (cutoff : Int) (rows : List Row) : List Row :=
  rows.filter fun row => decide (cutoff < row.attemptTime)

/-- `SELECT COUNT(*) FROM rate_limit WHERE user = ?1 AND attempt_time > ?2`. -/
def countAfter (user : String) (cutoff : Int) (rows : List Row) : Nat :=
  rows.countP fun row => row.user = user && decide (cutoff < row.attemptTime)

/-! ## Steps -/

def State.setPhase (state : State) (i : Nat) (user : String) (phase : Phase) : State :=
  { state with attempts := state.attempts.set i { user, phase } }

/-- One step of the attempt `i`.  A failed `DELETE` is ignored, a failed
`SELECT` rejects, and a failed `INSERT` ends the attempt without a row. -/
def advance (limiter : RateLimiter) (state : State) (i : Nat) (attempt : Attempt) (ok : Bool) :
    Option State :=
  let user := attempt.user
  let cutoff := cutoffAt state.clock limiter.windowSecs
  match attempt.phase with
  | .start => some (state.setPhase i user (.cleaning cutoff))
  | .cleaning cutoff =>
    let rows := if ok then deleteUpTo cutoff state.rows else state.rows
    some ({ state with rows }.setPhase i user .cleaned)
  | .cleaned => some (state.setPhase i user (.checking cutoff))
  | .checking cutoff =>
    if ok && countAfter user cutoff state.rows < limiter.maxFailures then
      some (state.setPhase i user .admitted)
    else some (state.setPhase i user .ended)
  | .admitted => some (state.setPhase i user (if ok then .charging else .ended))
  | .charging => some (state.setPhase i user (.recording state.clock))
  | .recording now =>
    if ok then
      let row : Row := { user, attemptTime := now }
      some ({ state with
        rows := row :: state.rows
        recorded := row :: state.recorded }.setPhase i user .recorded)
    else some (state.setPhase i user .ended)
  | .recorded => some (state.setPhase i user (.tidying cutoff))
  | .tidying cutoff =>
    let rows := if ok then deleteUpTo cutoff state.rows else state.rows
    some ({ state with rows }.setPhase i user .ended)
  | .ended => none

/-- One event.  The clock counts seconds in an `i64` and never goes back. -/
def step (limiter : RateLimiter) (event : Event) (state : State) : Option State :=
  match event with
  | .tick seconds =>
    if state.clock + seconds < 2 ^ 63 then some { state with clock := state.clock + seconds }
    else none
  | .arrive user =>
    some { state with attempts := state.attempts ++ [{ user, phase := .start }] }
  | .act i ok => (state.attempts[i]?).bind fun attempt => advance limiter state i attempt ok

/-- No attempt has come yet.  The table may hold rows of earlier runs. -/
def initial (clock : Int) (rows : List Row) : State :=
  { clock, rows, attempts := [], recorded := [] }

/-! ## The budget -/

/-- The rows of a user in the `w` seconds after `start`. -/
def countWindow (user : String) (start : Int) (windowSecs : Nat) (rows : List Row) : Nat :=
  rows.countP fun row => row.user = user && decide (start < row.attemptTime) &&
    decide (row.attemptTime ≤ start + windowSecs)

/-- No window holds more rows than the budget allows. -/
def WithinBudget (limiter : RateLimiter) (user : String) (rows : List Row) : Prop :=
  ∀ start, countWindow user start limiter.windowSecs rows ≤ limiter.maxFailures

/-- An attempt that has passed its check and may still record. -/
def Attempt.isPending (attempt : Attempt) : Bool :=
  match attempt.phase with
  | .admitted | .charging | .recording _ => true
  | _ => false

def Attempt.isChecking (attempt : Attempt) : Bool :=
  match attempt.phase with
  | .checking _ => true
  | _ => false

/-- A check of a user runs only while no other attempt of the user is
pending. -/
def ChecksAlone : Event → State → Prop
  | .act i _, state => ∀ attempt ∈ state.attempts[i]?, attempt.isChecking = true →
      ∀ other ∈ state.attempts.eraseIdx i, other.user = attempt.user → other.isPending = false
  | _, _ => True

instance : ∀ event state, Decidable (ChecksAlone event state)
  | .act i _, state => inferInstanceAs (Decidable (∀ attempt ∈ state.attempts[i]?, _))
  | .tick _, _ => isTrue trivial
  | .arrive _, _ => isTrue trivial

variable {i : Nat} {attempt : Attempt}

theorem ChecksAlone.not_pending {j ok state other} (h : ChecksAlone (.act i ok) state)
    (hget : state.attempts[i]? = some attempt) (hchecking : attempt.isChecking = true) (hji : j ≠ i)
    (hother : state.attempts[j]? = some other)
    (huser : other.user = attempt.user) : other.isPending = false := by
  refine h attempt hget hchecking other ?_ huser
  rw [mem_eraseIdx_iff_getElem?]
  exact ⟨j, hji, hother⟩

theorem asI64_eq {value} (hle : -2 ^ 63 ≤ value) (hlt : value < 2 ^ 63) : asI64 value = value :=
  Int.bmod_eq_of_le (by omega) (by omega)

theorem cutoffAt_eq {now windowSecs} (hnow : 0 ≤ now) (hlt : now < 2 ^ 63)
    (hwindow : windowSecs < 2 ^ 63) : cutoffAt now windowSecs = now - windowSecs := by
  have hcast : asI64 (windowSecs : Int) = windowSecs := asI64_eq (by omega) (by omega)
  rw [cutoffAt, hcast, asI64_eq (by omega) (by omega)]

theorem countAfter_anti (user : String) {earlier later} (h : earlier ≤ later)
    (rows : List Row) : countAfter user later rows ≤ countAfter user earlier rows := by
  apply countP_mono_left
  intro row _ hrow
  simp only [Bool.and_eq_true, decide_eq_true_eq] at hrow ⊢
  exact ⟨hrow.1, by omega⟩

/-- A deletion of older rows is not seen by a count. -/
theorem countAfter_deleteUpTo {user cutoff later} (h : cutoff ≤ later)
    (rows : List Row) : countAfter user later (deleteUpTo cutoff rows) =
      countAfter user later rows := by
  rw [countAfter, countAfter, deleteUpTo, countP_filter]
  apply countP_congr
  intro row _
  simp only [Bool.and_eq_true, decide_eq_true_eq]
  constructor
  · exact fun hrow => hrow.1
  · exact fun hrow => ⟨hrow, by omega⟩

theorem countAfter_cons (user : String) (cutoff : Int) (row : Row) (rows : List Row) :
    countAfter user cutoff (row :: rows) = countAfter user cutoff rows +
      if row.user = user ∧ cutoff < row.attemptTime then 1 else 0 := by
  rw [countAfter, countP_cons]
  simp only [Bool.and_eq_true, decide_eq_true_eq]
  rfl

theorem countWindow_le (user : String) (start : Int) (windowSecs : Nat) (rows : List Row) :
    countWindow user start windowSecs rows ≤ countAfter user start rows := by
  apply countP_mono_left
  intro row _ hrow
  simp only [Bool.and_eq_true] at hrow ⊢
  exact hrow.1

theorem countWindow_cons (user : String) (start : Int) (windowSecs : Nat) (row : Row)
    (rows : List Row) :
    countWindow user start windowSecs (row :: rows) = countWindow user start windowSecs rows +
      if row.user = user ∧ start < row.attemptTime ∧ row.attemptTime ≤ start + windowSecs then 1
      else 0 := by
  rw [countWindow, countP_cons]
  simp only [Bool.and_eq_true, decide_eq_true_eq, and_assoc]
  rfl

/-! ## The invariant -/

/-- The clock readings of an attempt are not in the future. -/
def Timely (clock : Int) (windowSecs : Nat) (attempt : Attempt) : Prop :=
  match attempt.phase with
  | .cleaning cutoff | .checking cutoff | .tidying cutoff => cutoff ≤ clock - windowSecs
  | .recording now => now ≤ clock
  | _ => True

/-- The time from which a pending attempt sees the table: the time it is
about to record, or any time from now on. -/
def viewTime (clock : Int) (attempt : Attempt) : Int :=
  match attempt.phase with
  | .recording now => now
  | _ => clock

/-- The invariant of a run, for one user. -/
structure Inv (limiter : RateLimiter) (user : String) (state : State) : Prop where
  clock_nonneg : 0 ≤ state.clock
  clock_lt : state.clock < 2 ^ 63
  timely : ∀ (i : Nat) attempt, state.attempts[i]? = some attempt →
    Timely state.clock limiter.windowSecs attempt
  kept : ∀ cutoff, state.clock - limiter.windowSecs ≤ cutoff →
    countAfter user cutoff state.recorded ≤ countAfter user cutoff state.rows
  single : ∀ (i j : Nat) attempt other, state.attempts[i]? = some attempt →
    state.attempts[j]? = some other → attempt.user = user → other.user = user →
      attempt.isPending = true → other.isPending = true → i = j
  room : ∀ (i : Nat) attempt, state.attempts[i]? = some attempt → attempt.user = user →
    attempt.isPending = true →
      countAfter user (viewTime state.clock attempt - limiter.windowSecs) state.recorded <
        limiter.maxFailures
  budget : WithinBudget limiter user state.recorded

variable {limiter : RateLimiter} {user : String} {state : State}

theorem Inv.initial {clock} (hclock : 0 ≤ clock) (hlt : clock < 2 ^ 63)
    (rows : List Row) : Inv limiter user (initial clock rows) where
  clock_nonneg := hclock
  clock_lt := hlt
  timely := by simp [RateLimit.initial]
  kept := by simp [RateLimit.initial, countAfter]
  single := by simp [RateLimit.initial]
  room := by simp [RateLimit.initial]
  budget := by simp [WithinBudget, RateLimit.initial, countWindow]

theorem Inv.tick (h : Inv limiter user state) {seconds : Nat}
    (hlt : state.clock + seconds < 2 ^ 63) :
    Inv limiter user { state with clock := state.clock + seconds } where
  clock_nonneg := by
    have := h.clock_nonneg
    show 0 ≤ state.clock + seconds
    omega
  clock_lt := hlt
  timely i attempt hget := by
    have htimely := h.timely i attempt hget
    unfold Timely at htimely ⊢
    split <;> simp_all <;> omega
  kept cutoff hcutoff := h.kept cutoff (by simp only at hcutoff; omega)
  single := h.single
  room i attempt hget huser hpending := by
    refine lt_of_le_of_lt (countAfter_anti user ?_ _) (h.room i attempt hget huser hpending)
    unfold viewTime
    split
    · exact le_rfl
    · show state.clock - (limiter.windowSecs : Int) ≤ state.clock + seconds - limiter.windowSecs
      omega
  budget := h.budget

theorem Inv.arrive (h : Inv limiter user state) (newcomer : String) :
    Inv limiter user
      { state with attempts := state.attempts ++ [{ user := newcomer, phase := .start }] } := by
  -- the newcomer is not pending and holds no clock reading
  have hget : ∀ (i : Nat) attempt,
      (state.attempts ++ [{ user := newcomer, phase := .start }])[i]? = some attempt →
        state.attempts[i]? = some attempt ∨ attempt = { user := newcomer, phase := .start } := by
    intro i attempt hi
    rw [getElem?_append] at hi
    split_ifs at hi
    · exact .inl hi
    · exact .inr (mem_singleton.mp (mem_of_getElem? hi))
  refine ⟨h.clock_nonneg, h.clock_lt, ?_, h.kept, ?_, ?_, h.budget⟩
  · intro i attempt hi
    rcases hget i attempt hi with hold | rfl
    · exact h.timely i attempt hold
    · trivial
  · intro i j attempt other hi hj huser hother hpending hpending'
    rcases hget i attempt hi with hold | rfl
    · rcases hget j other hj with hold' | rfl
      · exact h.single i j attempt other hold hold' huser hother hpending hpending'
      · cases hpending'
    · cases hpending
  · intro i attempt hi huser hpending
    rcases hget i attempt hi with hold | rfl
    · exact h.room i attempt hold huser hpending
    · cases hpending

theorem Inv.delete (h : Inv limiter user state) {cutoff}
    (hcutoff : cutoff ≤ state.clock - limiter.windowSecs) :
    Inv limiter user { state with rows := deleteUpTo cutoff state.rows } :=
  { h with
    kept := by
      intro later hlater
      rw [countAfter_deleteUpTo (by simp only at hlater; omega)]
      exact h.kept later hlater }

variable {owner : String} {phase : Phase}

theorem getElem?_setPhase (state : State) {j}
    (h : (state.setPhase i owner phase).attempts[j]? = some attempt) :
    (i = j ∧ attempt = { user := owner, phase }) ∨ (i ≠ j ∧ state.attempts[j]? = some attempt) := by
  rw [State.setPhase, getElem?_set] at h
  split_ifs at h with hij hlt
  · exact .inl ⟨hij, (Option.some.inj h).symm⟩
  · exact .inr ⟨hij, h⟩

/-- An attempt moves on.  If it is pending afterwards, there is room for it
and no other attempt of the user is pending. -/
theorem Inv.setPhase (h : Inv limiter user state)
    (htimely : Timely state.clock limiter.windowSecs { user := owner, phase })
    (hpending : owner = user → Attempt.isPending { user := owner, phase } = true →
      countAfter user (viewTime state.clock { user := owner, phase } - limiter.windowSecs)
          state.recorded < limiter.maxFailures ∧
        ∀ (j : Nat) other, j ≠ i → state.attempts[j]? = some other → other.user = user →
          other.isPending = false) : Inv limiter user (state.setPhase i owner phase) := by
  refine ⟨h.clock_nonneg, h.clock_lt, ?_, h.kept, ?_, ?_, h.budget⟩
  · intro j attempt hj
    rcases getElem?_setPhase state hj with ⟨-, rfl⟩ | ⟨-, hold⟩
    · exact htimely
    · exact h.timely j attempt hold
  · intro j k attempt other hj hk huser hother hp hp'
    rcases getElem?_setPhase state hj with ⟨rfl, rfl⟩ | ⟨hij, hold⟩
    · rcases getElem?_setPhase state hk with ⟨rfl, -⟩ | ⟨hik, hold'⟩
      · rfl
      · have := (hpending huser hp).2 k other (Ne.symm hik) hold' hother
        rw [this] at hp'
        cases hp'
    · rcases getElem?_setPhase state hk with ⟨rfl, rfl⟩ | ⟨-, hold'⟩
      · have := (hpending hother hp').2 j attempt (Ne.symm hij) hold huser
        rw [this] at hp
        cases hp
      · exact h.single j k attempt other hold hold' huser hother hp hp'
  · intro j attempt hj huser hp
    rcases getElem?_setPhase state hj with ⟨rfl, rfl⟩ | ⟨-, hold⟩
    · exact (hpending huser hp).1
    · exact h.room j attempt hold huser hp

def State.insertRow (state : State) (i : Nat) (row : Row) : State :=
  { state with
    rows := row :: state.rows
    recorded := row :: state.recorded }.setPhase i row.user .recorded

theorem WithinBudget.insert {rows} (h : WithinBudget limiter user rows) {row}
    (hroom : row.user = user →
      countAfter user (row.attemptTime - limiter.windowSecs) rows < limiter.maxFailures) :
    WithinBudget limiter user (row :: rows) := by
  intro start
  rw [countWindow_cons]
  split_ifs with hrow
  · -- every window that holds the new row starts after the view of its attempt
    obtain ⟨huser, hstart, hend⟩ := hrow
    calc countWindow user start limiter.windowSecs rows + 1
        ≤ countAfter user start rows + 1 := by
          have := countWindow_le user start limiter.windowSecs rows
          omega
      _ ≤ countAfter user (row.attemptTime - limiter.windowSecs) rows + 1 := by
          have := countAfter_anti user
            (show row.attemptTime - (limiter.windowSecs : Int) ≤ start by omega) rows
          omega
      _ ≤ limiter.maxFailures := hroom huser
  · exact h start

/-- A pending attempt stays pending while time has not passed, so there is
still room for it. -/
theorem Inv.stays (h : Inv limiter user state) (hget : state.attempts[i]? = some attempt)
    (hpending : attempt.isPending = true)
    (htimely : Timely state.clock limiter.windowSecs { user := attempt.user, phase })
    (hview : viewTime state.clock attempt ≤
      viewTime state.clock { user := attempt.user, phase }) :
    Inv limiter user (state.setPhase i attempt.user phase) := by
  apply h.setPhase htimely
  intro huser _
  refine ⟨lt_of_le_of_lt (countAfter_anti user (by omega) _) (h.room i attempt hget huser hpending),
    ?_⟩
  intro j other hji hother hotherUser
  by_contra hp
  exact hji (h.single j i other attempt hother hget hotherUser huser
    (Bool.not_eq_false _ ▸ hp) hpending)

theorem Inv.idles (h : Inv limiter user state)
    (htimely : Timely state.clock limiter.windowSecs { user := owner, phase })
    (hidle : Attempt.isPending { user := owner, phase } = false) :
    Inv limiter user (state.setPhase i owner phase) := by
  apply h.setPhase htimely
  intro _ hpending
  rw [hidle] at hpending
  cases hpending

theorem Inv.insert (h : Inv limiter user state) {now}
    (hget : state.attempts[i]? = some { user := owner, phase := .recording now }) :
    Inv limiter user (state.insertRow i { user := owner, attemptTime := now }) := by
  have hidle : Inv limiter user (state.setPhase i owner .recorded) := h.idles trivial rfl
  refine { hidle with kept := ?_, room := ?_, budget := h.budget.insert ?_ }
  · intro cutoff hcutoff
    have := h.kept cutoff hcutoff
    simp only [State.insertRow, State.setPhase, countAfter_cons]
    omega
  · intro j attempt hj huser hp
    rcases getElem?_setPhase _ hj with ⟨-, rfl⟩ | ⟨hij, hold⟩
    · cases hp
    · have hroom := h.room j attempt hold huser hp
      simp only [State.insertRow, State.setPhase, countAfter_cons]
      rw [if_neg, Nat.add_zero]
      · exact hroom
      · -- a row of this user would come from a second pending attempt
        rintro ⟨howner, -⟩
        exact hij (h.single i j _ attempt hget hold howner huser rfl hp)
  · intro howner
    have hroom := h.room i _ hget howner rfl
    exact hroom

theorem Inv.advance (hwindow : limiter.windowSecs < 2 ^ 63) (h : Inv limiter user state) {ok next}
    (hget : state.attempts[i]? = some attempt) (halone : ChecksAlone (.act i ok) state)
    (hnext : RateLimit.advance limiter state i attempt ok = some next) : Inv limiter user next := by
  have hcutoff := cutoffAt_eq h.clock_nonneg h.clock_lt hwindow
  have htimely := h.timely i attempt hget
  obtain ⟨owner, phase⟩ := attempt
  simp only [RateLimit.advance] at hnext
  cases phase with
  | start | cleaned | recorded =>
    cases hnext
    exact h.idles hcutoff.le rfl
  | cleaning cutoff | tidying cutoff =>
    cases hnext
    cases ok with
    | true => exact (h.delete htimely).idles trivial rfl
    | false => exact h.idles trivial rfl
  | checking cutoff =>
    simp only [Bool.and_eq_true, decide_eq_true_eq] at hnext
    split_ifs at hnext with hcheck
    · cases hnext
      have hnone : Timely state.clock limiter.windowSecs { user := owner, phase := .admitted } :=
        trivial
      apply h.setPhase hnone
      rintro rfl -
      refine ⟨?_, fun j other hji hother hotherUser => ?_⟩
      · -- the rows that count are still in the table, and the check counted them
        calc countAfter owner (state.clock - limiter.windowSecs) state.recorded
            ≤ countAfter owner (state.clock - limiter.windowSecs) state.rows := h.kept _ le_rfl
          _ ≤ countAfter owner cutoff state.rows := countAfter_anti owner htimely _
          _ < limiter.maxFailures := hcheck.2
      · exact halone.not_pending hget rfl hji hother hotherUser
    · cases hnext
      exact h.idles trivial rfl
  | admitted =>
    cases hnext
    cases ok with
    | true => exact h.stays hget rfl trivial le_rfl
    | false => exact h.idles trivial rfl
  | charging =>
    cases hnext
    exact h.stays hget rfl le_rfl le_rfl
  | recording now =>
    split_ifs at hnext with hok
    · cases hnext
      exact h.insert hget
    · cases hnext
      exact h.idles trivial rfl
  | ended => cases hnext

theorem Inv.step (hwindow : limiter.windowSecs < 2 ^ 63) (event : Event) (state next : State)
    (halone : ChecksAlone event state) (h : Inv limiter user state)
    (hnext : RateLimit.step limiter event state = some next) : Inv limiter user next := by
  cases event with
  | tick seconds =>
    simp only [RateLimit.step] at hnext
    split_ifs at hnext with hlt
    cases hnext
    exact h.tick hlt
  | arrive newcomer =>
    cases hnext
    exact h.arrive newcomer
  | act i ok =>
    obtain ⟨attempt, hget, hadvance⟩ := Option.bind_eq_some_iff.mp hnext
    exact h.advance hwindow hget halone hadvance

/-! ## Results -/

/-- If no two attempts of a user overlap between check and recording, no
window of the configured length takes more failures than the budget. -/
theorem recorded_withinBudget (limiter : RateLimiter) (user : String)
    (hwindow : limiter.windowSecs < 2 ^ 63) {clock : Int} (hclock : 0 ≤ clock)
    (hlt : clock < 2 ^ 63) (rows : List Row) {events : List Event} {final : State}
    (halone : Obeys (step limiter) ChecksAlone events (initial clock rows))
    (hrun : run (step limiter) events (initial clock rows) = some final) :
    WithinBudget limiter user final.recorded :=
  (halone.keeps (Inv.step hwindow) (Inv.initial hclock hlt rows) hrun).budget

/-- A budget of one failure in a minute. -/
def onePerMinute : RateLimiter where
  maxFailures := 1
  windowSecs := 60

/-- Two attempts one after the other. -/
def serialRun : List Event :=
  [.arrive "alice", .arrive "alice"] ++ replicate 7 (.act 0 true) ++
    replicate 4 (.act 1 true)

/-- The second of two attempts that do not overlap is refused. -/
theorem recorded_withinBudget_alice :
    ∃ final, run (step onePerMinute) serialRun (initial 1000 []) = some final ∧
      final.recorded = [{ user := "alice", attemptTime := 1000 }] ∧
      WithinBudget onePerMinute "alice" final.recorded := by
  have halone : Obeys (step onePerMinute) ChecksAlone serialRun (initial 1000 []) := by decide
  have hmap : (run (step onePerMinute) serialRun (initial 1000 [])).map State.recorded =
      some [{ user := "alice", attemptTime := 1000 }] := by decide
  obtain ⟨final, hrun, hrecorded⟩ := Option.map_eq_some_iff.mp hmap
  exact ⟨final, hrun, hrecorded, recorded_withinBudget onePerMinute "alice" (by decide)
    (by decide) (by decide) [] halone hrun⟩

/-- Two attempts that both check before either of them records. -/
def overlappingRun : List Event :=
  [.arrive "alice", .arrive "alice"] ++ replicate 4 (.act 0 true) ++
    replicate 4 (.act 1 true) ++ replicate 3 (.act 0 true) ++
    replicate 3 (.act 1 true)

/-- Attempts that overlap record two failures in one minute, with a budget
of one. -/
theorem overlapping_attempts :
    ∃ final, run (step onePerMinute) overlappingRun (initial 1000 []) = some final ∧
      ¬ WithinBudget onePerMinute "alice" final.recorded := by
  have hmap : (run (step onePerMinute) overlappingRun (initial 1000 [])).map State.recorded =
      some (replicate 2 { user := "alice", attemptTime := 1000 }) := by decide
  obtain ⟨final, hrun, hrecorded⟩ := Option.map_eq_some_iff.mp hmap
  refine ⟨final, hrun, ?_⟩
  rw [hrecorded]
  intro h
  exact absurd (h 990) (by decide)

end Facelock.Auth.RateLimit
