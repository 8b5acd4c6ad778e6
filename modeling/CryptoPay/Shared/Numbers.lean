import CryptoPay.Api.Schemas
import CryptoPay.Data.Digits
import CryptoPay.Data.Doubles
import Mathlib.Data.List.TakeWhile

/-!
# Numbers from strings

`Number(s)` of ECMAScript for a string: white space around the literal is
trimmed, nothing is zero, a prefix `0x`, `0o` or `0b` selects a base, and
anything else is a decimal literal or `Infinity`, with a sign.

Results:
* `Number.ofString_int`: the decimal digits of an integer denote it.
* `Number.ofString_brace`: a string with an opening brace denotes no number.
-/

namespace CryptoPay

open Data

/-- A value of type `number`; the zeros are not told apart. -/
inductive Number where
  | nan
  | infinity (negative : Bool)
  | finite (value : ℚ)
  deriving DecidableEq, Repr

namespace Number

/-- The number nearest to `x`. -/
def round (x : ℚ) : Number :=
  match roundDouble x with
  | some value => .finite value
  | none => .infinity (x < 0)

/-- The digits of a base below 17, with either case of the letters. -/
def digit (base : ℕ) (c : Char) : Option ℕ := (hex? c).filter (· < base)

/-- A literal with at least one digit of the base. -/
def digits (base : ℕ) (s : List Char) : Option ℕ :=
  if s = [] then none else s.foldlM (fun n c => (digit base c).map (base * n + ·)) 0

/-- `NonDecimalIntegerLiteral`. -/
def nonDecimal : List Char → Option ℕ
  | '0' :: c :: s =>
    if c = 'x' || c = 'X' then digits 16 s
    else if c = 'o' || c = 'O' then digits 8 s
    else if c = 'b' || c = 'B' then digits 2 s
    else none
  | _ => none

/-- An optional sign, and what follows it. -/
def sign : List Char → Bool × List Char
  | '-' :: s => (true, s)
  | '+' :: s => (false, s)
  | s => (false, s)

/-- `ExponentPart`, or nothing. -/
def exponentPart : List Char → Option ℤ
  | [] => some 0
  | c :: s =>
    if c = 'e' || c = 'E' then
      (digits 10 (sign s).2).map fun (n : ℕ) => if (sign s).1 then -(n : ℤ) else (n : ℤ)
    else none

/-- The digits after the point, if there is one, and what follows them. -/
def fractionPart : List Char → List Char × List Char
  | '.' :: s => (s.takeWhile Char.isDigit, s.dropWhile Char.isDigit)
  | s => ([], s)

/-- `StrUnsignedDecimalLiteral`, apart from `Infinity`. -/
def unsignedDecimal (s : List Char) : Option ℚ :=
  let whole := s.takeWhile Char.isDigit
  let (fraction, rest) := fractionPart (s.dropWhile Char.isDigit)
  if whole = [] && fraction = [] then none
  else (exponentPart rest).map fun (e : ℤ) =>
    (Nat.ofDigitChars 10 (whole ++ fraction) 0 : ℚ) * (10 : ℚ) ^ (e - fraction.length)

/-- `StrDecimalLiteral`. -/
def decimal (s : List Char) : Number :=
  let (negative, s) := sign s
  if s = "Infinity".toList then .infinity negative
  else match unsignedDecimal s with
    | some x => round (if negative then -x else x)
    | none => .nan

/-- `Number(s)`. -/
def ofString (s : String) : Number :=
  let text := (Api.trim s).toList
  if text = [] then .finite 0
  else match nonDecimal text with
    | some n => round n
    | none => decimal text

/-! ## Integers -/

section Integers

theorem all_isDigit (n : ℕ) : ∀ c ∈ Nat.toDigits 10 n, c.isDigit = true := fun _ hc =>
  Nat.isDigit_of_mem_toDigits (by omega) (by omega) hc

theorem isWhitespace_digit {c : Char} (hc : c.isDigit = true ∨ c = '-') :
    Api.isWhitespace c = false := by
  have hrange : 0x2D ≤ c.toNat ∧ c.toNat ≤ 0x39 := by
    rcases hc with hc | rfl
    · simp only [Char.isDigit, Bool.and_eq_true, decide_eq_true_eq, ge_iff_le,
        UInt32.le_iff_toNat_le] at hc
      have hval : c.val.toNat = c.toNat := rfl
      simp at hc
      omega
    · decide
  simp only [Api.isWhitespace, Bool.or_eq_false_iff, Bool.and_eq_false_iff,
    decide_eq_false_iff_not, List.contains_eq_mem, List.mem_cons, List.not_mem_nil, or_false]
  omega

/-- There is nothing to trim where there is no white space. -/
theorem trim_eq {s : String} (h : ∀ c ∈ s.toList, Api.isWhitespace c = false) :
    Api.trim s = s := by
  have hdrop : ∀ l : List Char, (∀ c ∈ l, Api.isWhitespace c = false) →
      l.dropWhile Api.isWhitespace = l := by
    intro l hl
    cases l with
    | nil => rfl
    | cons c l => rw [List.dropWhile_cons_of_neg (by rw [hl c List.mem_cons_self]; exact nofun)]
  unfold Api.trim
  rw [hdrop s.toList h, hdrop _ fun c hc => h c (List.mem_reverse.mp hc), List.reverse_reverse,
    String.ofList_toList]

theorem unsignedDecimal_digits (n : ℕ) : unsignedDecimal (Nat.toDigits 10 n) = some (n : ℚ) := by
  have htake : (Nat.toDigits 10 n).takeWhile Char.isDigit = Nat.toDigits 10 n :=
    List.takeWhile_eq_self_iff.mpr (all_isDigit n)
  have hdrop : (Nat.toDigits 10 n).dropWhile Char.isDigit = [] :=
    List.dropWhile_eq_nil_iff.mpr (all_isDigit n)
  have hvalue : Nat.ofDigitChars 10 (Nat.toDigits 10 n) 0 = n := Nat.ofDigitChars_ten_toDigits
  simp [unsignedDecimal, htake, hdrop, fractionPart, exponentPart, hvalue]

/-- The first digits of a natural number are no sign, no prefix and no `Infinity`. -/
theorem literal_digits {l : List Char} (h : ∀ c ∈ l, c.isDigit = true) :
    sign l = (false, l) ∧ nonDecimal l = none ∧ l ≠ "Infinity".toList := by
  have hhead : ∀ c, c.isDigit = false → ∀ rest, l ≠ c :: rest := by
    rintro c hc rest rfl
    rw [h c List.mem_cons_self] at hc
    cases hc
  have hsecond : ∀ b c rest, l = b :: c :: rest → c.isDigit = true := by
    rintro b c rest rfl
    exact h c (List.mem_cons_of_mem _ List.mem_cons_self)
  refine ⟨?_, ?_, hhead 'I' (by decide) _⟩
  · unfold sign
    split
    · exact absurd rfl (hhead '-' (by decide) _)
    · exact absurd rfl (hhead '+' (by decide) _)
    · rfl
  · unfold nonDecimal
    split
    · rename_i c s
      have hc := hsecond _ _ _ rfl
      have hne : ∀ d : Char, d.isDigit = false → ¬ c = d := by
        rintro d hd rfl
        rw [hc] at hd
        cases hd
      simp [hne 'x' (by decide), hne 'X' (by decide), hne 'o' (by decide), hne 'O' (by decide),
        hne 'b' (by decide), hne 'B' (by decide)]
    · rfl

/-- The decimal digits of an integer denote it. -/
theorem ofString_int {n : ℤ} (hn : |n| ≤ 2 ^ 53) : ofString (toString n) = .finite n := by
  have hround : round n = .finite n := by
    unfold round
    rw [roundDouble_int hn]
  by_cases hpos : 0 ≤ n
  · have htext : (toString n).toList = Nat.toDigits 10 n.toNat := by
      rw [Int.toString_eq_repr, Int.repr_eq_if, if_pos hpos, Nat.toList_repr]
    have htrim : Api.trim (toString n) = toString n := trim_eq fun c hc =>
      isWhitespace_digit (.inl (all_isDigit _ c (htext ▸ hc)))
    obtain ⟨hsign, hprefix, hword⟩ := literal_digits (all_isDigit n.toNat)
    have hcast : ((n.toNat : ℕ) : ℚ) = n := by
      rw [← Int.cast_natCast, Int.toNat_of_nonneg hpos]
    simp only [ofString, htrim, htext, Nat.toDigits_ne_nil, if_false, hprefix, decimal, hsign, hword,
      unsignedDecimal_digits, hcast, Bool.false_eq_true]
    exact hround
  · have htext : (toString n).toList = '-' :: Nat.toDigits 10 (-n).toNat := by
      rw [Int.toString_eq_repr, Int.repr_eq_if, if_neg hpos, String.toList_append, Nat.toList_repr]
      rfl
    have htrim : Api.trim (toString n) = toString n := by
      refine trim_eq fun c hc => isWhitespace_digit ?_
      rw [htext] at hc
      exact (List.mem_cons.mp hc).symm.imp_left (all_isDigit _ c)
    obtain ⟨-, -, hword⟩ := literal_digits (all_isDigit (-n).toNat)
    have hcast : (((-n).toNat : ℕ) : ℚ) = -n := by
      rw [← Int.cast_natCast, Int.toNat_of_nonneg (by omega), Int.cast_neg]
    have hprefix : nonDecimal ('-' :: Nat.toDigits 10 (-n).toNat) = none := rfl
    have hsign : sign ('-' :: Nat.toDigits 10 (-n).toNat) = (true, Nat.toDigits 10 (-n).toNat) := rfl
    simp only [ofString, htrim, htext, List.cons_ne_nil, if_false, hprefix, decimal, hsign, hword,
      unsignedDecimal_digits, hcast, if_true, neg_neg]
    exact hround

end Integers

/-! ## Strings that denote no number -/

section Braces

theorem digit_brace (base : ℕ) : digit base '\x7b' = none := by
  have hnone : hex? '\x7b' = none := by decide
  rw [digit, hnone, Option.filter_none]

theorem digits_brace {base : ℕ} {s : List Char} (h : '\x7b' ∈ s) : digits base s = none := by
  have hfold : ∀ (l : List Char) (acc : ℕ), '\x7b' ∈ l →
      l.foldlM (fun n c => (digit base c).map (base * n + ·)) acc = none := by
    intro l
    induction l with
    | nil => exact fun _ hmem => absurd hmem List.not_mem_nil
    | cons c l ih =>
      intro acc hmem
      rw [List.foldlM_cons]
      rcases List.mem_cons.mp hmem with rfl | hmem
      · rw [digit_brace]
        rfl
      · cases digit base c with
        | none => rfl
        | some d => exact ih _ hmem
  unfold digits
  split_ifs
  · rfl
  · exact hfold s 0 h

theorem nonDecimal_brace {s : List Char} (h : '\x7b' ∈ s) : nonDecimal s = none := by
  unfold nonDecimal
  split
  · rename_i c rest
    split_ifs with hx ho hb
    all_goals try rfl
    all_goals
      refine digits_brace ?_
      rcases List.mem_cons.mp h with hmem | hmem
      · cases hmem
      · rcases List.mem_cons.mp hmem with rfl | hmem
        · simp at *
        · exact hmem
  · rfl

theorem sign_brace {s : List Char} (h : '\x7b' ∈ s) : '\x7b' ∈ (sign s).2 := by
  unfold sign
  split
  · exact (List.mem_cons.mp h).resolve_left (by decide)
  · exact (List.mem_cons.mp h).resolve_left (by decide)
  · exact h

theorem exponentPart_brace {s : List Char} (h : '\x7b' ∈ s) : exponentPart s = none := by
  cases s with
  | nil => cases h
  | cons c s =>
    by_cases he : (c = 'e' || c = 'E') = true
    · have hmem : '\x7b' ∈ s := by
        refine (List.mem_cons.mp h).resolve_left ?_
        rintro rfl
        simp at he
      rw [exponentPart, if_pos he, digits_brace (sign_brace hmem), Option.map_none]
    · rw [exponentPart, if_neg he]

/-- What follows the digits still has the brace. -/
theorem dropDigits_brace {s : List Char} (h : '\x7b' ∈ s) : '\x7b' ∈ s.dropWhile Char.isDigit := by
  rw [← List.takeWhile_append_dropWhile (p := Char.isDigit) (l := s)] at h
  rcases List.mem_append.mp h with hmem | hmem
  · have hdigit := List.mem_takeWhile_imp hmem
    cases hdigit
  · exact hmem

theorem unsignedDecimal_brace {s : List Char} (h : '\x7b' ∈ s) : unsignedDecimal s = none := by
  have hrest : '\x7b' ∈ (fractionPart (s.dropWhile Char.isDigit)).2 := by
    have hdrop := dropDigits_brace h
    unfold fractionPart
    split
    · rename_i rest heq
      rw [heq] at hdrop
      exact dropDigits_brace ((List.mem_cons.mp hdrop).resolve_left (by decide))
    · exact hdrop
  simp only [unsignedDecimal, exponentPart_brace hrest, Option.map_none, ite_self]

theorem decimal_brace {s : List Char} (h : '\x7b' ∈ s) : decimal s = .nan := by
  have hmem := sign_brace h
  have hword : (sign s).2 ≠ "Infinity".toList := fun heq => absurd (heq ▸ hmem) (by decide)
  simp only [decimal, if_neg hword, unsignedDecimal_brace hmem]

theorem trim_brace {s : String} (h : '\x7b' ∈ s.toList) : '\x7b' ∈ (Api.trim s).toList := by
  have hdrop : ∀ l : List Char, '\x7b' ∈ l → '\x7b' ∈ l.dropWhile Api.isWhitespace := by
    intro l hl
    rw [← List.takeWhile_append_dropWhile (p := Api.isWhitespace) (l := l)] at hl
    rcases List.mem_append.mp hl with hmem | hmem
    · have hspace := List.mem_takeWhile_imp hmem
      cases hspace
    · exact hmem
  unfold Api.trim
  rw [String.toList_ofList, List.mem_reverse]
  exact hdrop _ (List.mem_reverse.mpr (hdrop _ h))

/-- A string with an opening brace denotes no number. -/
theorem ofString_brace {s : String} (h : '\x7b' ∈ s.toList) : ofString s = .nan := by
  have hmem := trim_brace h
  have hne : (Api.trim s).toList ≠ [] := List.ne_nil_of_mem hmem
  simp only [ofString, if_neg hne, nonDecimal_brace hmem, decimal_brace hmem]

end Braces

end Number

end CryptoPay
