import Mathlib.Data.List.Basic
import Mathlib.Order.Basic

/-!
# Token buckets

A bucket holds at most `capacity` tokens and gets one for each whole
`period` since its last refill.  A bucket that could have refilled
completely is full and starts a new period.  Times are natural numbers.

`take` refills and then takes one token if there is one.  What a bucket
can give up to a time is bounded by its tokens and the whole periods up to
that time (`count_takes_le`): a token that is given was there, or it was
refilled, and a refill moves the refill point by as many periods.

`count_takes_interval_le` is the bound for an interval.  A take leaves the
refill point less than one period back, so all takes of an interval
together give at most the capacity, one token for each whole period of
the interval, and one more.
-/

namespace TokenBucket

structure Bucket where
  tokens : Nat
  refilled : Nat

variable (capacity period : Nat)

def full (now : Nat) : Bucket := ⟨capacity, now⟩

/-- The bucket with the tokens of the whole periods since the last
refill. -/
def refill (bucket : Bucket) (now : Nat) : Bucket :=
  let units := (now - bucket.refilled) / period
  if capacity ≤ units then full capacity now
  else ⟨min (bucket.tokens + units) capacity, bucket.refilled + period * units⟩

def take (bucket : Bucket) (now : Nat) : Bool × Bucket :=
  let bucket := refill capacity period bucket now
  (decide (0 < bucket.tokens), ⟨bucket.tokens - 1, bucket.refilled⟩)

def takes : List Nat → Bucket → List Bool
  | [], _ => []
  | now :: times, bucket =>
    (take capacity period bucket now).1 :: takes times (take capacity period bucket now).2

variable {capacity period} {bucket : Bucket} {now : Nat}

theorem refill_of_complete (h : bucket.refilled + capacity * period ≤ now)
    (hperiod : 0 < period) : refill capacity period bucket now = full capacity now := by
  unfold refill
  rw [if_pos]
  rw [Nat.le_div_iff_mul_le hperiod]
  omega

theorem refill_full (now : Nat) :
    refill capacity period (full capacity now) now = full capacity now := by
  unfold refill
  simp [full]

theorem refill_tokens_le (bucket : Bucket) (now : Nat) :
    (refill capacity period bucket now).tokens ≤ capacity := by
  unfold refill
  dsimp only
  split
  · exact Nat.le_refl _
  · exact Nat.min_le_right _ _

theorem refilled_le (h : bucket.refilled ≤ now) :
    (refill capacity period bucket now).refilled ≤ now := by
  unfold refill
  dsimp only
  split
  · exact Nat.le_refl _
  · have := Nat.mul_div_le (now - bucket.refilled) period
    dsimp only
    omega

theorem lt_refilled_add (hperiod : 0 < period) (h : bucket.refilled ≤ now) :
    now < (refill capacity period bucket now).refilled + period := by
  unfold refill
  dsimp only
  split
  · exact Nat.lt_add_of_pos_right hperiod
  · have := Nat.lt_mul_div_succ (now - bucket.refilled) hperiod
    rw [Nat.mul_add, Nat.mul_one] at this
    dsimp only
    omega

/-- A refill gives at most one token for each period that it moves the
refill point. -/
theorem refill_tokens_add_le (hperiod : 0 < period) (h : bucket.refilled ≤ now) {last}
    (hlast : now ≤ last) :
    (refill capacity period bucket now).tokens +
        (last - (refill capacity period bucket now).refilled) / period ≤
      bucket.tokens + (last - bucket.refilled) / period := by
  have hmul := Nat.mul_div_le (now - bucket.refilled) period
  -- The periods up to the last time are those of the refill and those after it.
  have hsplit : ∀ point, bucket.refilled + period * ((now - bucket.refilled) / period) ≤ point →
      (last - point) / period + (now - bucket.refilled) / period ≤
        (last - bucket.refilled) / period := by
    intro point hpoint
    rw [Nat.le_div_iff_mul_le hperiod, Nat.add_mul]
    have hdiv := Nat.div_mul_le_self (last - point) period
    rw [Nat.mul_comm ((now - bucket.refilled) / period) period]
    by_cases hle : point ≤ last
    · omega
    · have hzero : last - point = 0 := by omega
      omega
  unfold refill
  dsimp only
  split
  · next hunits =>
    have := hsplit now (by omega)
    show capacity + (last - now) / period ≤ _
    omega
  · have := hsplit _ (Nat.le_refl _)
    have hmin := Nat.min_le_left (bucket.tokens + (now - bucket.refilled) / period) capacity
    dsimp only
    omega

theorem count_take (capacity period : Nat) (bucket : Bucket) (now : Nat) (answers : List Bool) :
    ((take capacity period bucket now).1 :: answers).count true +
        (take capacity period bucket now).2.tokens =
      (refill capacity period bucket now).tokens + answers.count true := by
  show (decide (0 < (refill capacity period bucket now).tokens) :: answers).count true +
    ((refill capacity period bucket now).tokens - 1) = _
  rw [List.count_cons]
  by_cases hpos : 0 < (refill capacity period bucket now).tokens
  · simp only [hpos, decide_true, beq_self_eq_true, if_true]
    omega
  · rw [decide_eq_false hpos, if_neg (by decide)]
    omega

/-- A bucket gives what it has and what it gets. -/
theorem count_takes_le (hperiod : 0 < period) {times last} (hsorted : times.Pairwise (· ≤ ·))
    (hlast : ∀ now ∈ times, now ≤ last) (hrefilled : ∀ now ∈ times, bucket.refilled ≤ now) :
    (takes capacity period times bucket).count true ≤
      bucket.tokens + (last - bucket.refilled) / period := by
  induction times generalizing bucket with
  | nil => simp [takes]
  | cons now times ih =>
    obtain ⟨hnext, hsorted⟩ := List.pairwise_cons.mp hsorted
    have hnow := hrefilled now (by simp)
    have hpoint : (refill capacity period bucket now).refilled ≤ now := refilled_le hnow
    have hpotential : (refill capacity period bucket now).tokens +
        (last - (refill capacity period bucket now).refilled) / period ≤ _ :=
      refill_tokens_add_le hperiod hnow (hlast now (by simp))
    have hrest : (takes capacity period times (take capacity period bucket now).2).count true ≤
        (take capacity period bucket now).2.tokens +
          (last - (refill capacity period bucket now).refilled) / period :=
      ih hsorted (fun later hlater => hlast later (by simp [hlater]))
        fun later hlater => Nat.le_trans hpoint (hnext later hlater)
    have hcount := count_take capacity period bucket now
      (takes capacity period times (take capacity period bucket now).2)
    rw [takes]
    omega

theorem count_takes_interval_le (hperiod : 0 < period) {times start length}
    (hsorted : times.Pairwise (· ≤ ·))
    (hinterval : ∀ now ∈ times, start ≤ now ∧ now ≤ start + length)
    (hrefilled : ∀ now ∈ times, bucket.refilled ≤ now) :
    (takes capacity period times bucket).count true ≤ capacity + length / period + 1 := by
  cases times with
  | nil => simp [takes]
  | cons now times =>
    obtain ⟨hnext, hsorted⟩ := List.pairwise_cons.mp hsorted
    obtain ⟨hstart, -⟩ := hinterval now (by simp)
    have hnow := hrefilled now (by simp)
    have hpoint : (refill capacity period bucket now).refilled ≤ now := refilled_le hnow
    have hclose : now < (refill capacity period bucket now).refilled + period :=
      lt_refilled_add hperiod hnow
    have htokens : (refill capacity period bucket now).tokens ≤ capacity :=
      refill_tokens_le bucket now
    have hrest : (takes capacity period times (take capacity period bucket now).2).count true ≤
        (take capacity period bucket now).2.tokens +
          (start + length - (refill capacity period bucket now).refilled) / period :=
      count_takes_le hperiod hsorted (fun later hlater => (hinterval later (by simp [hlater])).2)
        fun later hlater => Nat.le_trans hpoint (hnext later hlater)
    have hperiods : (start + length - (refill capacity period bucket now).refilled) / period ≤
        length / period + 1 := by
      rw [← Nat.add_div_right length hperiod]
      apply Nat.div_le_div_right
      omega
    have hcount := count_take capacity period bucket now
      (takes capacity period times (take capacity period bucket now).2)
    rw [takes]
    omega

end TokenBucket
