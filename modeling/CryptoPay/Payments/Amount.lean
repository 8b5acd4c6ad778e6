import Mathlib.Data.Rat.Floor
import Mathlib.Tactic.Common

/-!
# Amounts

`Prisma.Decimal` values at the scale of the `Decimal(20, 8)` columns they are
stored in: an amount is an integer number of units of `10^-8`. Invoice amounts
have at most 8 fractional digits (`decimalAmountSchema`) and USDC has 6, so
every amount the pipeline computes with is exact at this scale.

Also `evaluatePaymentAmount` of `packages/payments/src/payment-amount.ts`.
-/

namespace CryptoPay

/-- An amount, in units of `10^-8`. -/
structure Decimal where
  units : ℤ
  deriving DecidableEq, Repr

namespace Decimal

/-- `new Prisma.Decimal(0)`. -/
def zero : Decimal := ⟨0⟩

/-- `a.comparedTo(b)`: negative, zero or positive. -/
def comparedTo (a b : Decimal) : ℤ := (a.units - b.units).sign

/-- `a.equals(b)`. -/
def equals (a b : Decimal) : Bool := a.units = b.units

/-- Whether Postgres stores the value in a `DECIMAL(20, 8)` column: below
    `10^12` in absolute value. -/
def fitsColumn (a : Decimal) : Bool := a.units.natAbs < 10 ^ 20

@[simp] theorem comparedTo_eq_zero {a b : Decimal} : a.comparedTo b = 0 ↔ a = b := by
  cases a; cases b
  simp only [comparedTo, Int.sign_eq_zero_iff_zero, mk.injEq]
  omega

@[simp] theorem comparedTo_neg {a b : Decimal} : a.comparedTo b < 0 ↔ a.units < b.units := by
  simp only [comparedTo, Int.sign_neg_iff]
  omega

@[simp] theorem equals_iff {a b : Decimal} : a.equals b = true ↔ a = b := by
  cases a; cases b
  simp [equals]

/-- Drop the trailing zeros of a digit string. -/
def trimZeros (digits : List Char) : List Char :=
  (digits.reverse.dropWhile (· = '0')).reverse

/-- `a.toString()`: plain notation without trailing zeros, or exponential
    notation where the leading digit is at `10^-7` or below (decimal.js
    `toExpNeg = -7`; no stored amount reaches `toExpPos = 21`). -/
def toString (a : Decimal) : String :=
  let n := a.units.natAbs
  let digits := Nat.toDigits 10 n
  let magnitude : List Char :=
    if n = 0 then ['0']
    else if n < 100 then
      let exponent := if n < 10 then ['e', '-', '8'] else ['e', '-', '7']
      match trimZeros digits with
      | [] => []
      | d :: [] => d :: exponent
      | d :: ds => d :: '.' :: ds ++ exponent
    else
      let fraction := Nat.toDigits 10 (10 ^ 8 + n % 10 ^ 8)
      match trimZeros fraction.tail with
      | [] => Nat.toDigits 10 (n / 10 ^ 8)
      | ds => Nat.toDigits 10 (n / 10 ^ 8) ++ '.' :: ds
  String.ofList (if a.units < 0 then '-' :: magnitude else magnitude)

example : toString ⟨4900000000⟩ = "49" := by decide
example : toString ⟨10050000⟩ = "0.1005" := by decide
example : toString ⟨12⟩ = "1.2e-7" := by decide

end Decimal

/-- `PaymentAmountMatch` (payment-amount.ts, line 3). -/
inductive PaymentAmountMatch where
  | exact | underpaid | overpaid
  deriving DecidableEq, Repr

/-- `evaluatePaymentAmount` (payment-amount.ts, lines 10–17). -/
def evaluatePaymentAmount (expectedAmount receivedAmount : Decimal) : PaymentAmountMatch :=
  let comparison := receivedAmount.comparedTo expectedAmount
  if comparison = 0 then .exact
  else if comparison < 0 then .underpaid else .overpaid

theorem evaluatePaymentAmount_eq_exact {e r : Decimal} :
    evaluatePaymentAmount e r = .exact ↔ r = e := by
  simp only [evaluatePaymentAmount, Decimal.comparedTo_eq_zero]
  split_ifs with h1 h2 <;> simp [h1]

theorem evaluatePaymentAmount_eq_underpaid {e r : Decimal} :
    evaluatePaymentAmount e r = .underpaid ↔ r.units < e.units := by
  simp only [evaluatePaymentAmount, Decimal.comparedTo_eq_zero, Decimal.comparedTo_neg]
  split_ifs with h1 h2
  · subst h1; simp
  · simpa using h2
  · simpa using h2

theorem evaluatePaymentAmount_eq_overpaid {e r : Decimal} :
    evaluatePaymentAmount e r = .overpaid ↔ e.units < r.units := by
  simp only [evaluatePaymentAmount, Decimal.comparedTo_eq_zero, Decimal.comparedTo_neg]
  split_ifs with h1 h2
  · subst h1; simp
  · simp; omega
  · have : r.units ≠ e.units := fun h => h1 (by cases r; cases e; simp_all)
    simp; omega

end CryptoPay
