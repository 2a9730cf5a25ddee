import Mathlib.Algebra.Group.Int.Defs
import Mathlib.Algebra.Group.Nat.Defs
import Mathlib.Tactic.SplitIfs

/-!
# Binary32 patterns and their comparisons

A single-precision number is its bit pattern.  Arithmetic is left out.
The comparisons are those of IEEE 754: a NaN compares with nothing, and
the two zeros are equal.  `rank` orders the other patterns by sign and
magnitude, and `<` and `≤` are the order of ranks away from NaN.  `place`
orders all patterns, and there the two zeros differ.
-/

/-- A single-precision number as a bit pattern. -/
structure Binary32 where
  bits : UInt32
  deriving DecidableEq, Repr

namespace Binary32

def zero : Binary32 := ⟨0⟩
def one : Binary32 := ⟨0x3f800000⟩
def negOne : Binary32 := ⟨0xbf800000⟩

/-- The pattern without its sign. -/
def magnitude (x : Binary32) : Nat :=
  (x.bits &&& 0x7fffffff).toNat

def isNaN (x : Binary32) : Bool :=
  0x7f800000 < x.magnitude

/-- The place of a pattern in the order of numbers. -/
def rank (x : Binary32) : Int :=
  if x.bits &&& 0x80000000 = 0 then x.magnitude else -x.magnitude

/-- The place of a pattern among all patterns, with `-0` below `+0`. -/
def place (x : Binary32) : Int :=
  if x.bits.toNat < 2 ^ 31 then x.magnitude else -x.magnitude - 1

instance : LE Binary32 :=
  ⟨fun x y => x.isNaN = false ∧ y.isNaN = false ∧ x.rank ≤ y.rank⟩

instance : LT Binary32 :=
  ⟨fun x y => x.isNaN = false ∧ y.isNaN = false ∧ x.rank < y.rank⟩

variable {x y : Binary32}

theorem le_def :
    x ≤ y ↔ x.isNaN = false ∧ y.isNaN = false ∧ x.rank ≤ y.rank := Iff.rfl

theorem lt_def :
    x < y ↔ x.isNaN = false ∧ y.isNaN = false ∧ x.rank < y.rank := Iff.rfl

instance (x y : Binary32) : Decidable (x ≤ y) :=
  decidable_of_iff _ le_def.symm

instance (x y : Binary32) : Decidable (x < y) :=
  decidable_of_iff _ lt_def.symm

theorem le_trans {z} (hxy : x ≤ y) (hyz : y ≤ z) : x ≤ z :=
  ⟨hxy.1, hyz.2.1, Int.le_trans hxy.2.2 hyz.2.2⟩

theorem lt_of_lt_of_le {z} (hxy : x < y) (hyz : y ≤ z) : x < z :=
  ⟨hxy.1, hyz.2.1, Int.lt_of_lt_of_le hxy.2.2 hyz.2.2⟩

theorem le_of_lt (h : x < y) : x ≤ y :=
  ⟨h.1, h.2.1, Int.le_of_lt h.2.2⟩

theorem magnitude_eq (x : Binary32) : x.magnitude = x.bits.toNat % 2 ^ 31 := by
  exact Nat.and_two_pow_sub_one_eq_mod _ 31

theorem le_of_not_lt (hx : x.isNaN = false) (hy : y.isNaN = false) (h : ¬ x < y) : y ≤ x :=
  ⟨hy, hx, Int.not_lt.mp fun hlt => h ⟨hx, hy, hlt⟩⟩

/-- A number at or above zero is above it, or is one of the two zeros. -/
theorem zero_lt_of_le (h : zero ≤ x) (hne : x.magnitude ≠ 0) : zero < x := by
  have hzero : zero.rank = 0 := by decide
  have hrank : x.rank ≠ 0 := by
    rw [rank]
    split_ifs <;> omega
  refine ⟨h.1, h.2.1, ?_⟩
  have := h.2.2
  omega

end Binary32
