import Facelock.Lib.TokenBucket
import Mathlib.Data.List.Nodup
import Mathlib.Data.Finset.Card

/-!
# The ingress limiter

`IngressLimiter` of `crates/facelock-daemon/src/server.rs` bounds how
often a caller can start an authentication.  It keeps a token bucket for
each caller, forgets a bucket that was not used for the time in which it
refills completely, and evicts the bucket that was used longest ago when
there is no room for a new one.

The ideal limiter keeps one bucket for every caller for ever
(`idealCheckAndCharge`).  The two agree as long as nothing is evicted: a
bucket that was forgotten would be full at every later call, and so is the
new one (`Agrees`).  Nothing is evicted if at most `MAX_INGRESS_BUCKETS`
callers come within the time in which a bucket refills (`Sparse`).  What
the ideal limiter admits of an interval is what one bucket gives
(`admittedIn_le_takes`).

Times are in nanoseconds.
-/

namespace Facelock.Daemon.Ingress

open List

open TokenBucket (Bucket)

/-! ## The source -/

def ingressBurst : Nat := 10

/-- `INGRESS_REFILL`, one second. -/
def ingressRefill : Nat := 1000000000

def ingressBucketTtl : Nat := ingressBurst * ingressRefill

def maxIngressBuckets : Nat := 1024

structure IngressBucket where
  tokens : Nat
  lastRefill : Nat
  lastSeen : Nat

/-- The buckets of the callers.  A caller has one bucket at most. -/
structure IngressState where
  buckets : List (Nat × IngressBucket)
  distinct : (buckets.map Prod.fst).Nodup

def IngressState.empty : IngressState := ⟨[], nodup_nil⟩

variable (state : IngressState)

def IngressState.retain (keep : Nat × IngressBucket → Bool) : IngressState :=
  ⟨state.buckets.filter keep, state.distinct.sublist (filter_sublist.map _)⟩

def IngressState.remove (uid : Nat) : IngressState :=
  state.retain fun entry => entry.1 != uid

def IngressState.insert (uid : Nat) (bucket : IngressBucket) : IngressState :=
  ⟨(uid, bucket) :: (state.remove uid).buckets, by
    refine nodup_cons.mpr ⟨?_, (state.remove uid).distinct⟩
    simp [remove, retain]⟩

def IngressState.get (uid : Nat) : Option IngressBucket :=
  state.buckets.lookup uid

/-- `iter().min_by_key(|(_, bucket)| bucket.last_seen)`, in the order of
the iteration. -/
def oldest : List (Nat × IngressBucket) → Option (Nat × IngressBucket)
  | [] => none
  | entry :: rest =>
    match oldest rest with
    | none => some entry
    | some other => if other.2.lastSeen < entry.2.lastSeen then some other else some entry

variable (order : List (Nat × IngressBucket) → List (Nat × IngressBucket))

/-- Make room for a new bucket.  `order` is the order in which the map is
iterated. -/
def IngressState.evict (state : IngressState) (uid : Nat) : IngressState :=
  if (state.get uid).isNone ∧ maxIngressBuckets ≤ state.buckets.length then
    match oldest (order state.buckets) with
    | some entry => state.remove entry.1
    | none => state
  else state

def IngressBucket.refill (bucket : IngressBucket) (now : Nat) : IngressBucket :=
  let refillUnits := (now - bucket.lastRefill) / ingressRefill
  if ingressBurst ≤ refillUnits then { bucket with tokens := ingressBurst, lastRefill := now }
  else if 0 < refillUnits then
    { bucket with
      tokens := min (bucket.tokens + refillUnits) ingressBurst
      lastRefill := bucket.lastRefill + ingressRefill * refillUnits }
  else bucket

def checkAndChargeAt (state : IngressState) (uid now : Nat) : Bool × IngressState :=
  let state := state.retain fun entry => decide (now - entry.2.lastSeen < ingressBucketTtl)
  let state := state.evict order uid
  let bucket := (state.get uid).getD ⟨ingressBurst, now, now⟩
  let bucket := { bucket with lastSeen := now }.refill now
  if bucket.tokens = 0 then (false, state.insert uid bucket)
  else (true, state.insert uid { bucket with tokens := bucket.tokens - 1 })

/-- One call of the limiter. -/
structure Call where
  uid : Nat
  now : Nat

def answers (order : List (Nat × IngressBucket) → List (Nat × IngressBucket)) :
    List Call → IngressState → List Bool
  | [], _ => []
  | call :: calls, state =>
    let (admitted, next) := checkAndChargeAt order state call.uid call.now
    admitted :: answers order calls next

theorem answers_cons (call : Call) (calls : List Call) (state : IngressState) :
    answers order (call :: calls) state =
      (checkAndChargeAt order state call.uid call.now).1 ::
        answers order calls (checkAndChargeAt order state call.uid call.now).2 :=
  rfl

/-! ## The limiter that keeps every bucket -/

/-- The buckets of all callers that have ever come. -/
abbrev IdealState := Nat → Option Bucket

/-- Take a token from the caller's bucket, which is full at the first
call. -/
def idealCheckAndCharge (state : IdealState) (uid now : Nat) : Bool × IdealState :=
  let bucket := (state uid).getD (TokenBucket.full ingressBurst now)
  let (admitted, next) := TokenBucket.take ingressBurst ingressRefill bucket now
  (admitted, Function.update state uid (some next))

def idealAnswers : List Call → IdealState → List Bool
  | [], _ => []
  | call :: calls, state =>
    let (admitted, next) := idealCheckAndCharge state call.uid call.now
    admitted :: idealAnswers calls next

theorem idealAnswers_cons (call : Call) (calls : List Call) (state : IdealState) :
    idealAnswers (call :: calls) state =
      (idealCheckAndCharge state call.uid call.now).1 ::
        idealAnswers calls (idealCheckAndCharge state call.uid call.now).2 :=
  rfl

/-! ## Lookups -/

section Lookups

variable {state : IngressState} {uid : Nat} {bucket : IngressBucket}

theorem IngressState.mem_of_get (h : state.get uid = some bucket) :
    (uid, bucket) ∈ state.buckets := by
  obtain ⟨front, rest, heq, -⟩ := lookup_eq_some_iff.mp h
  rw [heq]
  simp

theorem IngressState.get_eq_none :
    state.get uid = none ↔ ∀ entry ∈ state.buckets, entry.1 ≠ uid := by
  rw [get, lookup_eq_none_iff]
  constructor
  · intro h entry hentry heq
    simpa [heq] using h entry hentry
  · intro h entry hentry
    exact bne_iff_ne.mpr (h entry hentry).symm

theorem IngressState.forall_mem_insert {p : Nat × IngressBucket → Prop} (hnew : p (uid, bucket))
    (hold : ∀ entry ∈ state.buckets, entry.1 ≠ uid → p entry) :
    ∀ entry ∈ (state.insert uid bucket).buckets, p entry :=
  forall_mem_cons.mpr ⟨hnew, by simpa [remove, retain] using hold⟩

theorem IngressState.mem_insert_of_ne {entry} (h : entry ∈ state.buckets)
    (hne : entry.1 ≠ uid) : entry ∈ (state.insert uid bucket).buckets := by
  simp [insert, remove, retain, h, hne]

end Lookups

/-! ## One refill -/

/-- The bucket without the time of its last use. -/
def IngressBucket.toBucket (bucket : IngressBucket) : Bucket :=
  ⟨bucket.tokens, bucket.lastRefill⟩

theorem IngressBucket.toBucket_refill {bucket : IngressBucket} (now : Nat)
    (h : bucket.tokens ≤ ingressBurst) :
    (bucket.refill now).toBucket =
      TokenBucket.refill ingressBurst ingressRefill bucket.toBucket now := by
  unfold refill TokenBucket.refill
  dsimp only [toBucket]
  split
  · rfl
  · split
    · rfl
    · next hunits =>
      have hzero : (now - bucket.lastRefill) / ingressRefill = 0 :=
        Nat.eq_zero_of_not_pos hunits
      rw [hzero, Nat.add_zero, Nat.mul_zero, Nat.add_zero, Nat.min_eq_left h]

theorem IngressBucket.refill_lastSeen (bucket : IngressBucket) (now : Nat) :
    (bucket.refill now).lastSeen = bucket.lastSeen := by
  unfold refill
  dsimp only
  split
  · rfl
  · split <;> rfl

/-! ## The refill points of the ideal limiter -/

/-- No bucket was refilled after the given time. -/
def IdealState.Before (state : IdealState) (now : Nat) : Prop :=
  ∀ uid bucket, state uid = some bucket → bucket.refilled ≤ now

section Ideal

variable {ideal : IdealState} {now later : Nat}

theorem IdealState.Before.mono (h : ideal.Before now) (hle : now ≤ later) : ideal.Before later :=
  fun uid bucket hideal => Nat.le_trans (h uid bucket hideal) hle

theorem IdealState.Before.found_le (h : ideal.Before now) (uid : Nat) :
    ((ideal uid).getD (TokenBucket.full ingressBurst now)).refilled ≤ now := by
  cases hideal : ideal uid with
  | none => exact Nat.le_refl _
  | some bucket => exact h uid bucket hideal

theorem idealCheckAndCharge_self (ideal : IdealState) (uid now : Nat) :
    (idealCheckAndCharge ideal uid now).2 uid = some (TokenBucket.take ingressBurst ingressRefill
      ((ideal uid).getD (TokenBucket.full ingressBurst now)) now).2 :=
  Function.update_self ..

theorem idealCheckAndCharge_other (ideal : IdealState) {uid other} (now : Nat)
    (hne : other ≠ uid) : (idealCheckAndCharge ideal uid now).2 other = ideal other :=
  Function.update_of_ne hne ..

theorem IdealState.Before.idealCheckAndCharge (h : ideal.Before now) (uid : Nat) :
    (idealCheckAndCharge ideal uid now).2.Before now := by
  intro other bucket hother
  by_cases heq : other = uid
  · subst heq
    rw [idealCheckAndCharge_self] at hother
    obtain rfl := Option.some.inj hother
    exact TokenBucket.refilled_le (h.found_le other)
  · rw [idealCheckAndCharge_other ideal now heq] at hother
    exact h other bucket hother

end Ideal

/-! ## Agreement -/

/-- What the state has to say about the ideal one at the time `now`, after
the calls `past`. -/
structure Agrees (past : List Call) (now : Nat) (state : IngressState) (ideal : IdealState) :
    Prop where
  same : ∀ entry ∈ state.buckets, ideal entry.1 = some entry.2.toBucket
  tokens : ∀ entry ∈ state.buckets, entry.2.tokens ≤ ingressBurst
  refilled : ∀ entry ∈ state.buckets, entry.2.lastRefill ≤ entry.2.lastSeen
  seen : ∀ entry ∈ state.buckets,
    entry.2.lastSeen ≤ now ∧ ⟨entry.1, entry.2.lastSeen⟩ ∈ past
  /-- A bucket that was forgotten has had the time to refill. -/
  gone : ∀ uid bucket, ideal uid = some bucket → state.get uid = none →
    bucket.refilled + ingressBucketTtl ≤ now

section Step

variable {past : List Call} {now later : Nat} {state : IngressState} {ideal : IdealState}

theorem Agrees.empty : Agrees [] 0 .empty fun _ => none where
  same := by simp [IngressState.empty]
  tokens := by simp [IngressState.empty]
  refilled := by simp [IngressState.empty]
  seen := by simp [IngressState.empty]
  gone := by simp

theorem Agrees.retain (h : Agrees past now state ideal) (hle : now ≤ later) :
    Agrees past later
      (state.retain fun entry => decide (later - entry.2.lastSeen < ingressBucketTtl)) ideal := by
  have hmem : ∀ entry ∈ (state.retain fun entry =>
      decide (later - entry.2.lastSeen < ingressBucketTtl)).buckets, entry ∈ state.buckets :=
    fun entry hentry => (mem_filter.mp hentry).1
  refine ⟨fun e he => h.same e (hmem e he), fun e he => h.tokens e (hmem e he),
    fun e he => h.refilled e (hmem e he), fun e he => ?_, ?_⟩
  · obtain ⟨hseen, hpast⟩ := h.seen e (hmem e he)
    exact ⟨Nat.le_trans hseen hle, hpast⟩
  · intro uid bucket hideal hnone
    cases hget : state.get uid with
    | none => exact Nat.le_trans (h.gone uid bucket hideal hget) hle
    | some own =>
      -- The caller had a bucket, so it is the one that was just dropped.
      have hown := IngressState.mem_of_get hget
      have hdropped : ¬ later - own.lastSeen < ingressBucketTtl := by
        intro hkeep
        refine IngressState.get_eq_none.mp hnone (uid, own) ?_ rfl
        exact mem_filter.mpr ⟨hown, decide_eq_true hkeep⟩
      have hsame := h.same _ hown
      rw [hideal] at hsame
      obtain rfl := Option.some.inj hsame
      have hrefilled := h.refilled _ hown
      have hseen := (h.seen _ hown).1
      show own.lastRefill + ingressBucketTtl ≤ later
      dsimp only at hrefilled hseen
      omega

end Step

variable (calls : List Call)

/-- The callers within one refill time. -/
def callersIn (start : Nat) : Finset Nat :=
  ((calls.filter fun call => decide (start ≤ call.now) &&
    decide (call.now < start + ingressBucketTtl)).map Call.uid).toFinset

/-- No span of one refill time has more callers than there is room for. -/
def Sparse : Prop :=
  ∀ start, (callersIn calls start).card ≤ maxIngressBuckets

section Step

variable {calls past : List Call} {now : Nat} {state : IngressState} {ideal : IdealState}

theorem mem_callersIn {start call} (hcall : call ∈ calls)
    (h : start ≤ call.now ∧ call.now < start + ingressBucketTtl) :
    call.uid ∈ callersIn calls start := by
  rw [callersIn, mem_toFinset]
  exact mem_map_of_mem (mem_filter.mpr ⟨hcall, by simpa using h⟩)

/-- Nothing is evicted, as every bucket of the state stands for a caller of
the last refill time. -/
theorem Agrees.evict_eq (h : Agrees past now state ideal) (hsparse : Sparse calls) {uid}
    (hfresh : ∀ entry ∈ state.buckets, now - entry.2.lastSeen < ingressBucketTtl)
    (hpast : past ⊆ calls) (hcall : ⟨uid, now⟩ ∈ calls) : state.evict order uid = state := by
  unfold IngressState.evict
  rw [if_neg]
  rintro ⟨hnone, hfull⟩
  rw [Option.isNone_iff_eq_none, IngressState.get_eq_none] at hnone
  have hpos : 0 < ingressBucketTtl := by decide
  -- The callers of the buckets and the new one all come within one refill time.
  have hmem : (uid :: state.buckets.map Prod.fst).toFinset ⊆
      callersIn calls (now + 1 - ingressBucketTtl) := by
    intro other hother
    rw [mem_toFinset, mem_cons, mem_map] at hother
    obtain rfl | ⟨entry, hentry, rfl⟩ := hother
    · exact mem_callersIn hcall (by dsimp only; omega)
    · obtain ⟨hseen, hmade⟩ := h.seen entry hentry
      have hrecent := hfresh entry hentry
      exact mem_callersIn (hpast hmade) (by dsimp only; omega)
  have hnodup : (uid :: state.buckets.map Prod.fst).Nodup := by
    refine nodup_cons.mpr ⟨?_, state.distinct⟩
    rw [mem_map]
    rintro ⟨entry, hentry, rfl⟩
    exact hnone entry hentry rfl
  have hcard := Finset.card_le_card hmem
  rw [toFinset_card_of_nodup hnodup, length_cons, length_map] at hcard
  have hroom := hsparse (now + 1 - ingressBucketTtl)
  omega

/-- The bucket that a call finds has the tokens that the ideal one has. -/
theorem Agrees.toBucket_found (h : Agrees past now state ideal) (uid : Nat) :
    ({ (state.get uid).getD ⟨ingressBurst, now, now⟩ with lastSeen := now }.refill now).toBucket =
      TokenBucket.refill ingressBurst ingressRefill
        ((ideal uid).getD (TokenBucket.full ingressBurst now)) now := by
  cases hget : state.get uid with
  | some bucket =>
    have hmem := IngressState.mem_of_get hget
    rw [h.same _ hmem]
    exact IngressBucket.toBucket_refill now (h.tokens _ hmem)
  | none =>
    rw [Option.getD_none, IngressBucket.toBucket_refill now (Nat.le_refl _)]
    show TokenBucket.refill _ _ (TokenBucket.full ingressBurst now) now = _
    cases hideal : ideal uid with
    | none => rfl
    | some bucket =>
      -- The forgotten bucket would be full again.
      rw [TokenBucket.refill_full now, Option.getD_some,
        TokenBucket.refill_of_complete (h.gone uid bucket hideal hget) (by decide)]

theorem Agrees.insert (h : Agrees past now state ideal) (uid : Nat) {bucket}
    (htokens : bucket.tokens ≤ ingressBurst) (hrefilled : bucket.lastRefill ≤ now)
    (hseen : bucket.lastSeen = now) :
    Agrees (past ++ [⟨uid, now⟩]) now (state.insert uid bucket)
      (Function.update ideal uid (some bucket.toBucket)) := by
  refine ⟨?_, ?_, ?_, ?_, ?_⟩
  · refine IngressState.forall_mem_insert (Function.update_self ..) fun entry hold hne => ?_
    rw [Function.update_of_ne hne]
    exact h.same entry hold
  · exact IngressState.forall_mem_insert htokens fun entry hold _ => h.tokens entry hold
  · exact IngressState.forall_mem_insert (hrefilled.trans_eq hseen.symm)
      fun entry hold _ => h.refilled entry hold
  · refine IngressState.forall_mem_insert ⟨hseen.le, by simp [hseen]⟩ fun entry hold _ => ?_
    exact (h.seen entry hold).imp_right (mem_append_left _)
  · intro other otherBucket hideal hnone
    rw [IngressState.get_eq_none] at hnone
    by_cases heq : other = uid
    · subst heq
      exact absurd rfl (hnone (other, bucket) (mem_cons_self ..))
    · rw [Function.update_of_ne heq] at hideal
      refine h.gone other otherBucket hideal (IngressState.get_eq_none.mpr ?_)
      rintro entry hentry rfl
      exact hnone entry (IngressState.mem_insert_of_ne hentry heq) rfl

/-- One call answers like the ideal limiter and keeps the agreement. -/
theorem Agrees.checkAndChargeAt (h : Agrees past now state ideal) (hsparse : Sparse calls)
    {call} (hpast : past ⊆ calls) (hcall : call ∈ calls) (hle : now ≤ call.now)
    (hbefore : ideal.Before call.now) :
    (checkAndChargeAt order state call.uid call.now).1 =
        (idealCheckAndCharge ideal call.uid call.now).1 ∧
      Agrees (past ++ [call]) call.now (checkAndChargeAt order state call.uid call.now).2
        (idealCheckAndCharge ideal call.uid call.now).2 := by
  have hretain := h.retain hle
  have hfresh : ∀ entry ∈ (state.retain fun entry =>
      decide (call.now - entry.2.lastSeen < ingressBucketTtl)).buckets,
      call.now - entry.2.lastSeen < ingressBucketTtl :=
    fun entry hentry => of_decide_eq_true (mem_filter.mp hentry).2
  have hevict := hretain.evict_eq order hsparse hfresh hpast hcall
  have hfound := hretain.toBucket_found call.uid
  unfold Ingress.checkAndChargeAt idealCheckAndCharge TokenBucket.take
  dsimp only
  rw [hevict, ← hfound]
  generalize hbucket : IngressBucket.refill _ call.now = bucket at hfound ⊢
  have hseen : bucket.lastSeen = call.now := by
    rw [← hbucket, IngressBucket.refill_lastSeen]
  have hpoint : bucket.lastRefill ≤ call.now := by
    show bucket.toBucket.refilled ≤ call.now
    rw [hfound]
    exact TokenBucket.refilled_le (hbefore.found_le call.uid)
  have htokens : bucket.tokens ≤ ingressBurst := by
    show bucket.toBucket.tokens ≤ ingressBurst
    rw [hfound]
    exact TokenBucket.refill_tokens_le _ _
  by_cases hzero : bucket.tokens = 0
  · have hnext := hretain.insert call.uid htokens hpoint hseen
    refine ⟨by simp [IngressBucket.toBucket, hzero], ?_⟩
    simpa [IngressBucket.toBucket, hzero] using hnext
  · rw [if_neg hzero]
    refine ⟨by simp [IngressBucket.toBucket, Nat.pos_of_ne_zero hzero], ?_⟩
    exact hretain.insert _ (Nat.le_trans (Nat.sub_le _ _) htokens) hpoint hseen

end Step

def InOrder : Prop := calls.Pairwise (·.now ≤ ·.now)

instance : Decidable (InOrder calls) :=
  inferInstanceAs (Decidable (List.Pairwise _ _))

theorem Agrees.answers_eq {calls past rest now state ideal} (h : Agrees past now state ideal)
    (hsparse : Sparse calls) (hpast : past ⊆ calls) (hrest : rest ⊆ calls) (horder : InOrder rest)
    (hle : ∀ call ∈ rest, now ≤ call.now) (hbefore : ideal.Before now) :
    answers order rest state = idealAnswers rest ideal := by
  induction rest generalizing past now state ideal with
  | nil => rfl
  | cons call rest ih =>
    obtain ⟨hlater, horder⟩ := pairwise_cons.mp horder
    have hcall : call ∈ calls := hrest (by simp)
    have hbefore' := hbefore.mono (hle call (by simp))
    obtain ⟨hanswer, hnext⟩ :=
      h.checkAndChargeAt order hsparse hpast hcall (hle call (by simp)) hbefore'
    have hpast' : past ++ [call] ⊆ calls := by
      intro other hother
      rw [mem_append, mem_singleton] at hother
      obtain hold | rfl := hother
      · exact hpast hold
      · exact hcall
    rw [answers_cons, idealAnswers_cons, hanswer,
      ih hnext hpast' (fun other hother => hrest (by simp [hother])) horder hlater
      (hbefore'.idealCheckAndCharge call.uid)]

/-! ## Admissions of an interval -/

/-- The call is one of the caller in the interval. -/
def Call.isIn (uid start length : Nat) (call : Call) : Bool :=
  call.uid == uid && decide (start ≤ call.now) && decide (call.now ≤ start + length)

/-- The number of calls of the interval that were admitted. -/
def admittedIn (uid start length : Nat) (calls : List Call) (answers : List Bool) : Nat :=
  (calls.zip answers).countP fun (call, admitted) => call.isIn uid start length && admitted

section Interval

variable {uid start length : Nat} {call : Call} {calls : List Call} {ideal : IdealState}

theorem Call.isIn_iff : call.isIn uid start length = true ↔
    call.uid = uid ∧ start ≤ call.now ∧ call.now ≤ start + length := by
  simp [isIn, and_assoc]

theorem admittedIn_cons (call : Call) (calls : List Call) (admitted : Bool) (answers : List Bool) :
    admittedIn uid start length (call :: calls) (admitted :: answers) =
      admittedIn uid start length calls answers +
        if call.isIn uid start length && admitted then 1 else 0 :=
  countP_cons ..

theorem admittedIn_of_not_isIn (h : call.isIn uid start length = false) (calls : List Call)
    (ideal : IdealState) :
    admittedIn uid start length (call :: calls) (idealAnswers (call :: calls) ideal) =
      admittedIn uid start length calls
        (idealAnswers calls (idealCheckAndCharge ideal call.uid call.now).2) := by
  rw [idealAnswers_cons, admittedIn_cons, h]
  rfl

theorem admittedIn_of_isIn (h : call.isIn uid start length = true) (calls : List Call)
    (ideal : IdealState) {rest}
    (hrest : admittedIn uid start length calls
        (idealAnswers calls (idealCheckAndCharge ideal call.uid call.now).2) ≤
      rest.count true) :
    admittedIn uid start length (call :: calls) (idealAnswers (call :: calls) ideal) ≤
      ((TokenBucket.take ingressBurst ingressRefill
        ((ideal uid).getD (TokenBucket.full ingressBurst call.now)) call.now).1 :: rest).count
          true := by
  obtain ⟨rfl, -⟩ := Call.isIn_iff.mp h
  rw [idealAnswers_cons, admittedIn_cons, h, count_cons, Bool.true_and, beq_true]
  exact Nat.add_le_add_right hrest _

/-- The times of the caller's calls in the interval. -/
def timesIn (uid start length : Nat) (calls : List Call) : List Nat :=
  (calls.filter (Call.isIn uid start length)).map Call.now

/-- From a time in the interval on, the caller's bucket gives the
answers. -/
theorem admittedIn_le_takes (length : Nat) {bucket} (horder : InOrder calls)
    (hstart : ∀ call ∈ calls, start ≤ call.now) (hideal : ideal uid = some bucket) :
    admittedIn uid start length calls (idealAnswers calls ideal) ≤
      (TokenBucket.takes ingressBurst ingressRefill (timesIn uid start length calls)
        bucket).count true := by
  induction calls generalizing ideal bucket with
  | nil => exact Nat.zero_le _
  | cons call calls ih =>
    obtain ⟨hlater, horder⟩ := pairwise_cons.mp horder
    have hstart' : ∀ call ∈ calls, start ≤ call.now :=
      fun other hother => hstart other (by simp [hother])
    cases hin : call.isIn uid start length with
    | true =>
      obtain ⟨rfl, -⟩ := Call.isIn_iff.mp hin
      have hnext := idealCheckAndCharge_self ideal call.uid call.now
      have hcons := admittedIn_of_isIn hin calls ideal (ih horder hstart' hnext)
      rw [hideal, Option.getD_some] at hcons
      rw [timesIn, filter_cons_of_pos hin]
      exact hcons
    | false =>
      rw [admittedIn_of_not_isIn hin, timesIn, filter_cons_of_neg (by simp [hin])]
      by_cases huid : uid = call.uid
      · -- The caller's calls are past the interval.
        have hpast : ∀ other ∈ calls, other.isIn uid start length = false := by
          intro other hother
          have := hlater other hother
          have hnow := hstart call (by simp)
          rw [Bool.eq_false_iff, ne_eq, Call.isIn_iff] at hin ⊢
          intro hother
          exact hin ⟨huid.symm, hnow, by omega⟩
        have hnone : admittedIn uid start length calls
            (idealAnswers calls (idealCheckAndCharge ideal call.uid call.now).2) = 0 := by
          refine countP_eq_zero.mpr fun pair hpair => ?_
          simp [hpast pair.1 (of_mem_zip hpair).1]
        omega
      · apply ih horder hstart'
        rw [idealCheckAndCharge_other ideal call.now huid, hideal]

/-- The ideal limiter admits a bounded number of calls of an interval. -/
theorem admittedIn_idealAnswers_le {now} (horder : InOrder calls)
    (hle : ∀ call ∈ calls, now ≤ call.now) (hbefore : ideal.Before now) :
    admittedIn uid start length calls (idealAnswers calls ideal) ≤
      ingressBurst + length / ingressRefill + 1 := by
  induction calls generalizing now ideal with
  | nil => exact Nat.zero_le _
  | cons call calls ih =>
    obtain ⟨hlater, horder'⟩ := pairwise_cons.mp horder
    have hbefore' := hbefore.mono (hle call (by simp))
    cases hin : call.isIn uid start length with
    | false =>
      rw [admittedIn_of_not_isIn hin]
      exact ih horder' hlater (hbefore'.idealCheckAndCharge call.uid)
    | true =>
      obtain ⟨rfl, hstart, -⟩ := Call.isIn_iff.mp hin
      have hrest := admittedIn_le_takes length horder'
        (fun other hother => Nat.le_trans hstart (hlater other hother))
        (idealCheckAndCharge_self ideal call.uid call.now)
      refine Nat.le_trans (admittedIn_of_isIn hin calls ideal hrest) ?_
      show (TokenBucket.takes ingressBurst ingressRefill
        (call.now :: timesIn call.uid start length calls) _).count true ≤ _
      have htimes : call.now :: timesIn call.uid start length calls =
          timesIn call.uid start length (call :: calls) := by
        rw [timesIn, timesIn, filter_cons_of_pos hin, map_cons]
      rw [htimes]
      apply TokenBucket.count_takes_interval_le (by decide)
      · exact pairwise_map.mpr (horder.sublist filter_sublist)
      · intro now hnow
        obtain ⟨other, hother, rfl⟩ := mem_map.mp hnow
        exact (Call.isIn_iff.mp (mem_filter.mp hother).2).2
      · intro now hnow
        obtain ⟨other, hother, rfl⟩ := mem_map.mp hnow
        have hfirst : call.now ≤ other.now := by
          obtain rfl | hmem := mem_cons.mp (mem_filter.mp hother).1
          · exact Nat.le_refl _
          · exact hlater other hmem
        exact Nat.le_trans (hbefore'.found_le call.uid) hfirst

end Interval

/-- The limiter answers like the one that keeps every bucket, and admits at
most the burst, one call for each second of the interval and one more. -/
theorem answers_eq_ideal (order : List (Nat × IngressBucket) → List (Nat × IngressBucket))
    (calls : List Call) (horder : InOrder calls) (hsparse : Sparse calls) :
    answers order calls .empty = idealAnswers calls (fun _ => none) ∧
      ∀ uid start length, admittedIn uid start length calls (answers order calls .empty) ≤
        ingressBurst + length / ingressRefill + 1 := by
  have hbefore : IdealState.Before (fun _ => none) 0 := by
    intro uid bucket h
    cases h
  have hsame := Agrees.empty.answers_eq order hsparse (nil_subset _) (List.Subset.refl calls)
    horder (fun _ _ => Nat.zero_le _) hbefore
  refine ⟨hsame, fun uid start length => ?_⟩
  rw [hsame]
  exact admittedIn_idealAnswers_le horder (fun _ _ => Nat.zero_le _) hbefore

theorem sparse_of_length_le {calls} (h : calls.length ≤ maxIngressBuckets) : Sparse calls := by
  intro start
  have hmap := toFinset_card_le ((calls.filter fun call => decide (start ≤ call.now) &&
    decide (call.now < start + ingressBucketTtl)).map Call.uid)
  rw [length_map] at hmap
  exact Nat.le_trans hmap (Nat.le_trans (length_filter_le ..) h)

/-- A caller that comes eleven times at once and again a second and a
minute later, and another caller in between. -/
def surge : List Call :=
  List.replicate 11 ⟨1000, 0⟩ ++ [⟨1001, 5⟩, ⟨1000, ingressRefill⟩, ⟨1000, 60 * ingressRefill⟩]

theorem answers_eq_ideal_surge :
    idealAnswers surge (fun _ => none) =
        List.replicate 10 true ++ [false, true, true, true] ∧
      answers id surge .empty = idealAnswers surge (fun _ => none) ∧
      admittedIn 1000 0 ingressRefill surge (answers id surge .empty) ≤ 12 := by
  have horder : InOrder surge := by decide +kernel
  have hsparse : Sparse surge := sparse_of_length_le (by decide)
  obtain ⟨hsame, hbound⟩ := answers_eq_ideal id surge horder hsparse
  exact ⟨by decide +kernel, hsame, hbound 1000 0 ingressRefill⟩

end Facelock.Daemon.Ingress
