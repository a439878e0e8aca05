/-
# Decimal operands

Shell arithmetic passes numbers between commands as text. `expr`, `dd` and the
numeric comparisons of `[` read an operand as decimal whatever zeros lead it,
while `expr` prints its result without any. One number therefore has many
spellings that compare equal as numbers and differ as words, and a word that is
no number at all makes the command fail.
-/

import Mathlib.Data.List.Basic

namespace BbBot.Unix

/-- A word, a line or the contents of a file, one character a byte. -/
abbrev Str := List Char

/-- The canonical spelling of a number, as `expr`, `du` and `seq` print it. -/
def decimal (n : ℕ) : Str := Nat.toDigits 10 n

/-- How a command reads a decimal operand: digits only, leading zeros allowed. -/
def readDecimal (word : Str) : Option ℕ :=
  if word ≠ [] ∧ word.all Char.isDigit then some (Nat.ofDigitChars 10 word 0) else none

theorem decimal_ne_nil (n : ℕ) : decimal n ≠ [] := Nat.toDigits_ne_nil

theorem decimal_all_isDigit (n : ℕ) : (decimal n).all Char.isDigit := by
  rw [List.all_eq_true]
  exact fun _ member => Nat.isDigit_of_mem_toDigits (by decide) (by decide) member

/-- Only zero is printed as `0`. -/
theorem decimal_zero : decimal 0 = ['0'] := Nat.toDigits_zero 10

@[simp] theorem readDecimal_decimal (n : ℕ) : readDecimal (decimal n) = some n := by
  unfold readDecimal
  rw [if_pos ⟨decimal_ne_nil n, decimal_all_isDigit n⟩]
  exact congrArg some Nat.ofDigitChars_ten_toDigits

/-- Zeros in front of a decimal do not change the number a command reads. -/
@[simp] theorem readDecimal_zeros_append (count n : ℕ) :
    readDecimal (List.replicate count '0' ++ decimal n) = some n := by
  unfold readDecimal
  have digits : (List.replicate count '0' ++ decimal n).all Char.isDigit := by
    rw [List.all_append, decimal_all_isDigit, Bool.and_true, List.all_replicate]
    split <;> rfl
  -- Reading from the left, zeros leave the value at zero.
  rw [if_pos ⟨by simp [decimal_ne_nil], digits⟩, Nat.ofDigitChars_append,
    Nat.ofDigitChars_replicate_zero, Nat.mul_zero]
  exact congrArg some Nat.ofDigitChars_ten_toDigits

/-- The operations of `expr` that the scripts use. -/
inductive ExprOp
  | add
  | rem
  | div
  deriving DecidableEq, Repr

/-- What `expr x op y` prints: a canonical decimal, or nothing when an operand is
not a number or the divisor is zero. -/
def expr (op : ExprOp) (x y : Str) : Str :=
  match readDecimal x, readDecimal y with
  | some a, some b =>
    match op with
    | .add => decimal (a + b)
    -- `expr` complains about a division by zero on its error output only.
    | .rem => if b = 0 then [] else decimal (a % b)
    | .div => if b = 0 then [] else decimal (a / b)
  | _, _ => []

theorem expr_add {x y : Str} {a b : ℕ} (hx : readDecimal x = some a)
    (hy : readDecimal y = some b) : expr .add x y = decimal (a + b) := by
  simp only [expr, hx, hy]

theorem expr_rem {x y : Str} {a b : ℕ} (hx : readDecimal x = some a)
    (hy : readDecimal y = some b) (nonzero : b ≠ 0) : expr .rem x y = decimal (a % b) := by
  simp only [expr, hx, hy, if_neg nonzero]

/-- There is no remainder by zero or by what is no number. -/
theorem expr_rem_eq_nil {x y : Str} (noDivisor : ∀ n, readDecimal y = some n → n = 0) :
    expr .rem x y = [] := by
  unfold expr
  split
  · rename_i b _ reads
    exact if_pos (noDivisor b reads)
  · rfl

theorem expr_div {x y : Str} {a b : ℕ} (hx : readDecimal x = some a)
    (hy : readDecimal y = some b) (nonzero : b ≠ 0) : expr .div x y = decimal (a / b) := by
  simp only [expr, hx, hy, if_neg nonzero]

/-- `[ x -gt y ]`: a numeric comparison, failing when an operand is not a number. -/
def greater (x y : Str) : Bool :=
  match readDecimal x, readDecimal y with
  | some a, some b => b < a
  | _, _ => false

theorem greater_iff {x y : Str} {a b : ℕ} (hx : readDecimal x = some a)
    (hy : readDecimal y = some b) : greater x y = true ↔ b < a := by
  simp only [greater, hx, hy, decide_eq_true_eq]

end BbBot.Unix
