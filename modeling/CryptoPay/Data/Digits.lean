import Mathlib

/-!
# Digits

The values of digits and of texts of digits. Letters count in either case; `lowerCase` changes
ASCII letters only.
-/

namespace CryptoPay.Data

/-- The value of a hexadecimal digit, in either case. -/
def hex? (c : Char) : Option ℕ := "0123456789abcdef".toList.idxOf? c.toLower

/-- The number that a text of decimal digits denotes. -/
def decimalValue (t : List Char) : ℕ := t.foldl (fun n c => 10 * n + (c.toNat - '0'.toNat)) 0

/-- The value of a text, if it consists of decimal digits. -/
def decimal? (t : List Char) : Option ℕ :=
  if t.all Char.isDigit && !t.isEmpty then some (decimalValue t) else none

/-- The text in lower case. -/
def lowerCase (t : List Char) : List Char := t.map Char.toLower

variable {c : Char} {d : ℕ}

theorem hex?_eq_some (h : hex? c = some d) :
    ∃ hd : d < 16, c.toLower = "0123456789abcdef".toList.get ⟨d, hd⟩ := by
  obtain ⟨hd, heq, -⟩ := List.idxOf?_eq_some_iff.mp h
  exact ⟨hd, heq.symm⟩

theorem hex?_lt (h : hex? c = some d) : d < 16 := (hex?_eq_some h).1

theorem hex?_toLower (c : Char) : hex? c.toLower = hex? c := by
  rw [hex?, Char.toLower_toLower_eq_toLower, hex?]

end CryptoPay.Data
