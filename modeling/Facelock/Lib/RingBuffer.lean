import Mathlib.Data.List.DropRight
import Mathlib.Data.List.Chain

/-!
# Bounded histories and ring buffers

A bounded history keeps the last `n` of the values it was given,
`List.rtake n` of Mathlib.  Cutting it at every step is the same as
cutting it once (`rtake_rtake_concat`).

A ring buffer is such a history in fixed memory.  It overwrites its oldest
entry when it is full.  `RingBuffer` carries the bounds on its write position as
fields.  `RingBuffer.toList` is the content in order of arrival, and
`RingBuffer.toList_push` says that a push keeps the last `capacity` values.
-/

/-- A buffer of fixed capacity that overwrites its oldest entry. -/
structure RingBuffer (α : Type*) where
  slots : List α
  capacity : Nat
  /-- The slot of the next push, and the oldest slot once the ring is
  full. -/
  next : Nat
  length_le : slots.length ≤ capacity
  next_lt : next < capacity
  next_eq : slots.length < capacity → next = slots.length

namespace RingBuffer

open List

variable {α : Type*}

/-! ## The last entries of a list -/

theorem rtake_of_length_le {l : List α} {n} (h : l.length ≤ n) : l.rtake n = l := by
  rw [List.rtake, Nat.sub_eq_zero_of_le h, drop_zero]

theorem length_rtake (l : List α) (n : Nat) : (l.rtake n).length = min n l.length := by
  rw [List.rtake, length_drop]
  omega

theorem rtake_rtake {l : List α} {m n} (h : m ≤ n) : (l.rtake n).rtake m = l.rtake m := by
  rw [List.rtake, length_rtake, List.rtake, List.rtake, drop_drop]
  congr 1
  omega

theorem rtake_rtake_concat (l : List α) (x : α) {n : Nat} (h : 0 < n) :
    (l.rtake n ++ [x]).rtake n = (l ++ [x]).rtake n := by
  obtain ⟨n, rfl⟩ : ∃ k, n = k + 1 := ⟨n - 1, by omega⟩
  rw [rtake_concat_succ, rtake_concat_succ, rtake_rtake (Nat.le_succ n)]

/-- Below its bound a history only grows, and at its bound it drops the
oldest entry. -/
theorem rtake_concat_of_full {l} {x : α} {n} (hn : 0 < n) (h : l.length = n) :
    (l ++ [x]).rtake n = l.tail ++ [x] := by
  obtain ⟨n, rfl⟩ : ∃ k, n = k + 1 := ⟨n - 1, by omega⟩
  rw [rtake_concat_succ, List.rtake, h, Nat.add_sub_cancel_left, drop_one]

/-! ## The buffer -/

def empty (capacity : Nat) (h : 0 < capacity) : RingBuffer α where
  slots := []
  capacity := capacity
  next := 0
  length_le := Nat.zero_le _
  next_lt := h
  next_eq _ := rfl

variable (ring : RingBuffer α)

/-- Add a value, in place of the oldest one when the ring is full. -/
def push (x : α) : RingBuffer α :=
  if h : ring.slots.length < ring.capacity then
    { slots := ring.slots ++ [x]
      capacity := ring.capacity
      next := (ring.slots ++ [x]).length % ring.capacity
      length_le := by simpa using Nat.succ_le_of_lt h
      next_lt := Nat.mod_lt _ (by omega)
      next_eq := Nat.mod_eq_of_lt }
  else
    { slots := ring.slots.set ring.next x
      capacity := ring.capacity
      next := (ring.next + 1) % ring.capacity
      length_le := by simpa using ring.length_le
      next_lt := Nat.mod_lt _ (Nat.zero_lt_of_lt ring.next_lt)
      next_eq := fun hlt => absurd (by simpa using hlt) h }

/-- The slot of the `chrono`-th oldest entry. -/
def indexAt (chrono : Nat) : Nat :=
  if ring.slots.length < ring.capacity then chrono
  else (ring.next + chrono) % ring.capacity

def toList : List α :=
  if ring.slots.length < ring.capacity then ring.slots
  else ring.slots.drop ring.next ++ ring.slots.take ring.next

theorem capacity_pos : 0 < ring.capacity :=
  Nat.zero_lt_of_lt ring.next_lt

@[simp] theorem capacity_push (x : α) : (ring.push x).capacity = ring.capacity := by
  unfold push
  split_ifs <;> rfl

@[simp] theorem length_toList : ring.toList.length = ring.slots.length := by
  unfold toList
  split_ifs with h
  · rfl
  · have := ring.next_lt
    simp only [length_append, length_drop, length_take]
    omega

theorem getElem?_indexAt {chrono} (h : chrono < ring.slots.length) :
    ring.slots[ring.indexAt chrono]? = ring.toList[chrono]? := by
  unfold indexAt toList
  split_ifs with hlt
  · rfl
  · have hfull : ring.slots.length = ring.capacity := by
      have := ring.length_le
      omega
    have hnext := ring.next_lt
    by_cases hwrap : ring.next + chrono < ring.capacity
    · rw [Nat.mod_eq_of_lt hwrap, getElem?_append_left (by simp; omega), getElem?_drop]
    · have hmod : (ring.next + chrono) % ring.capacity = ring.next + chrono - ring.capacity := by
        rw [Nat.mod_eq_sub_mod (by omega), Nat.mod_eq_of_lt (by omega)]
      rw [hmod, getElem?_append_right (by simp; omega), getElem?_take_of_lt (by simp; omega)]
      congr 1
      simp
      omega

theorem toList_push (x : α) : (ring.push x).toList = (ring.toList ++ [x]).rtake ring.capacity := by
  have hnext := ring.next_lt
  by_cases hlt : ring.slots.length < ring.capacity
  · have hold : ring.toList = ring.slots := if_pos hlt
    have hpush : (ring.push x).toList = ring.slots ++ [x] := by
      rw [push, dif_pos hlt, toList]
      split_ifs with hroom
      · rfl
      · -- The ring has just become full, and its oldest slot is slot 0.
        have hfull : (ring.slots ++ [x]).length = ring.capacity := by
          simp only [length_append, length_singleton] at hroom ⊢
          omega
        simp [hfull]
    rw [hpush, hold, rtake_of_length_le (by simpa using Nat.succ_le_of_lt hlt)]
  · have hfull : ring.slots.length = ring.capacity := by
      have := ring.length_le
      omega
    have hold : ring.toList = ring.slots.drop ring.next ++ ring.slots.take ring.next := if_neg hlt
    have hlen : ring.toList.length = ring.capacity := by rw [length_toList, hfull]
    rw [rtake_concat_of_full ring.capacity_pos hlen, hold,
      drop_eq_getElem_cons (by omega), cons_append, tail_cons]
    rw [push, dif_neg hlt, toList, if_neg (by simpa using hlt)]
    simp only
    by_cases hwrap : ring.next + 1 < ring.capacity
    · rw [Nat.mod_eq_of_lt hwrap, drop_set_of_lt (by omega),
        take_succ_eq_append_getElem (by simp; omega), take_set_of_le le_rfl]
      simp
    · have hlast : ring.next + 1 = ring.capacity := by omega
      rw [hlast, Nat.mod_self, drop_zero, take_zero, append_nil, drop_of_length_le (by omega),
        nil_append, set_eq_take_append_cons_drop, if_pos (by omega), drop_of_length_le (by omega)]

end RingBuffer
