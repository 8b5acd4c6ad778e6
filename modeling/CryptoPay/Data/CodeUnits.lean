import CryptoPay.Data.Digits
import CryptoPay.Data.Pairs

/-!
# Hexadecimal decoding of code units

A string is a list of UTF-16 code units. Decoding takes two units at a time; a unit counts as the
digit that its low byte is, whatever its high byte.

Results:
* `fromHex_eq_iff`: which strings decode to the same bytes.
* `fromHex_sound_iff`: the strings on which equal bytes mean the same string up to case.
-/

namespace CryptoPay.Data

/-- A string, as its UTF-16 code units; surrogates need not come in pairs. -/
abbrev CodeUnits := List UInt16

/-- The code units of a character: one, or a pair of surrogates. -/
def charUnits (c : Char) : CodeUnits :=
  if c.toNat < 0x10000 then [UInt16.ofNat c.toNat]
  else [UInt16.ofNat (0xd800 + (c.toNat - 0x10000) / 0x400),
    UInt16.ofNat (0xdc00 + (c.toNat - 0x10000) % 0x400)]

/-- The code units of a string. -/
def codeUnits (s : String) : CodeUnits := s.toList.flatMap charUnits

/-- The value of the digit that the low byte of a code unit is. -/
def unitDigit (u : UInt16) : Option ℕ := hex? (Char.ofNat (u.toNat % 256))

/-- The byte of two digits. -/
def byteOf (y : ℕ × ℕ) : UInt8 := UInt8.ofNat (16 * y.1 + y.2)

/-- The bytes up to the first pair that is incomplete or not hexadecimal. -/
def fromHex (s : CodeUnits) : List UInt8 := (pairs unitDigit s).map byteOf

-- The low bytes of U+0162 and U+0137 are those of `b` and `7`.
example : fromHex (codeUnits "Ţķc2") = [0xb7, 0xc2] := by decide

/-! ## Which strings decode alike -/

/-- The digits of a byte. -/
def digitsOf (byte : UInt8) : ℕ × ℕ := (byte.toNat / 16, byte.toNat % 16)

theorem digitsOf_byteOf {y : ℕ × ℕ} (hhigh : y.1 < 16) (hlow : y.2 < 16) :
    digitsOf (byteOf y) = y := by
  have hbyte : (byteOf y).toNat = 16 * y.1 + y.2 := by
    show (UInt8.ofNat (16 * y.1 + y.2)).toNat = _
    rw [UInt8.toNat_ofNat']
    omega
  refine Prod.ext ?_ ?_
  · show (byteOf y).toNat / 16 = y.1
    omega
  · show (byteOf y).toNat % 16 = y.2
    omega

variable {s t : CodeUnits}

theorem pairs_lt : ∀ y ∈ pairs unitDigit s, y.1 < 16 ∧ y.2 < 16 := by
  fun_induction pairs unitDigit s with
  | case1 h l rest a b hb ha ih =>
    intro y hy
    rcases List.mem_cons.mp hy with rfl | hy
    · exact ⟨hex?_lt ha, hex?_lt hb⟩
    · exact ih y hy
  | case2 h l rest hnone =>
    intro y hy
    exact absurd hy List.not_mem_nil
  | case3 s hs =>
    intro y hy
    exact absurd hy List.not_mem_nil

/-- The bytes determine the digits. -/
theorem fromHex_eq_iff : fromHex s = fromHex t ↔ pairs unitDigit s = pairs unitDigit t := by
  have hdigits : ∀ u : CodeUnits, (fromHex u).map digitsOf = pairs unitDigit u := by
    intro u
    rw [fromHex, List.map_map]
    refine (List.map_congr_left fun y hy => ?_).trans (List.map_id _)
    obtain ⟨hhigh, hlow⟩ := pairs_lt y hy
    exact digitsOf_byteOf hhigh hlow
  constructor
  · intro h
    rw [← hdigits, h, hdigits]
  · intro h
    rw [fromHex, h, fromHex]

/-! ## Strings up to case -/

/-- A hexadecimal letter in lower case. -/
def lowerHex (u : UInt16) : UInt16 := if 65 ≤ u ∧ u ≤ 70 then u + 32 else u

/-- The same string up to the case of hexadecimal letters. -/
def SameHex (s t : CodeUnits) : Prop := s.map lowerHex = t.map lowerHex

instance (s t : CodeUnits) : Decidable (SameHex s t) := inferInstanceAs (Decidable (_ = _))

/-- The strings start with pairs of the same values, and neither goes on with another pair; they
    differ in the spelling of the pairs or in what follows. -/
def Confusable (s t : CodeUnits) : Prop :=
  ∃ ps qs xs ys, s = ps ++ xs ∧ t = qs ++ ys ∧ WholePairs unitDigit ps ∧
    ps.map unitDigit = qs.map unitDigit ∧ ¬ StartsPair unitDigit xs ∧ ¬ StartsPair unitDigit ys ∧
    (¬ SameHex ps qs ∨ ¬ SameHex xs ys)

theorem fromHex_sound_iff : (fromHex s = fromHex t → SameHex s t) ↔ ¬ Confusable s t := by
  rw [fromHex_eq_iff]
  exact pairs_norm_iff

end CryptoPay.Data
