import Mathlib.Algebra.BigOperators.Group.List.Basic
import Mathlib.Algebra.Order.Group.Unbundled.Int
import Mathlib.Algebra.Order.Ring.Int
import Mathlib.Data.Int.Basic
import Mathlib.Tactic.Common

/-!
# Numbers of SQLite

The arithmetic of SQL expressions on integers of 64 bits. An operation whose
result does not fit computes with doubles instead, and its result is a REAL. Every
value here is integral: a double made of integers rounds to a multiple of one.

A column of type INTEGER of a STRICT table takes a REAL only when it is an integer
strictly between the two ends of the range.
-/

namespace LzuMirror

/-- What 64 bits with a sign hold. -/
def IsInt64 (n : ℤ) : Prop := -2 ^ 63 ≤ n ∧ n < 2 ^ 63

instance (n : ℤ) : Decidable (IsInt64 n) := inferInstanceAs (Decidable (_ ∧ _))

/-- The double next to an integer: 53 significant bits, ties to even. -/
def nearestDouble (n : ℤ) : ℤ :=
  let unit := 2 ^ (n.natAbs.log2 - 52)
  let quotient := n.natAbs / unit
  let remainder := n.natAbs % unit
  let rounded :=
    if 2 * remainder < unit ∨ (2 * remainder = unit ∧ quotient % 2 = 0) then quotient
    else quotient + 1
  n.sign * (rounded * unit : ℕ)

inductive SqliteNumber where
  | integer (n : ℤ)
  | real (n : ℤ)
  deriving DecidableEq, Repr

namespace SqliteNumber

/-- The operand of an operation on doubles. -/
def asReal : SqliteNumber → ℤ
  | .integer n => nearestDouble n
  | .real n => n

def compute (operation : ℤ → ℤ → ℤ) : SqliteNumber → SqliteNumber → SqliteNumber
  | .integer a, .integer b =>
      if IsInt64 (operation a b) then .integer (operation a b)
      else .real (nearestDouble (operation (nearestDouble a) (nearestDouble b)))
  | a, b => .real (nearestDouble (operation a.asReal b.asReal))

def add : SqliteNumber → SqliteNumber → SqliteNumber := compute (· + ·)

def sub : SqliteNumber → SqliteNumber → SqliteNumber := compute (· - ·)

/-- The value that an INTEGER column of a STRICT table takes. -/
def asColumn : SqliteNumber → Option ℤ
  | .integer n => some n
  | .real n => if -2 ^ 63 < n ∧ n < 2 ^ 63 - 1 then some n else none

/-- `SUM` of integers, which fails when a partial sum does not fit. -/
def sum (values : List ℤ) : Option ℤ :=
  values.foldlM (fun total value => if IsInt64 (total + value) then some (total + value) else none) 0

section Lemmas

variable {a b : ℤ}

theorem add_integer (fits : IsInt64 (a + b)) :
    (integer a).add (integer b) = integer (a + b) := by
  simp [add, compute, fits]

theorem sub_integer (fits : IsInt64 (a - b)) :
    (integer a).sub (integer b) = integer (a - b) := by
  simp [sub, compute, fits]

theorem foldlM_eq_some {values : List ℤ} {total : ℤ}
    (sums : values.foldlM (fun total value =>
      if IsInt64 (total + value) then some (total + value) else none) a = some total) :
    total = a + values.sum := by
  induction values generalizing a with
  | nil => simp_all
  | cons value rest ih =>
      rw [List.foldlM_cons] at sums
      split at sums
      · rw [ih sums, List.sum_cons]
        omega
      · cases sums

/-- A sum that fits at every value is the sum. -/
theorem sum_eq_some {values : List ℤ} {total : ℤ} (sums : sum values = some total) :
    total = values.sum := by
  rw [foldlM_eq_some sums, zero_add]

end Lemmas

end SqliteNumber

end LzuMirror
