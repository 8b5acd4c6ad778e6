import Mathlib.Data.List.Basic

/-!
# base64url

`buffer.toString('base64url')` of Node: three bytes are four characters, one byte
or two at the end are two characters or three, and nothing is padded.

Results:
* `mem_base64UrlChars`: the characters are letters, digits, `-` and `_`.
-/

namespace CryptoPay.Data

/-- The 64 characters. -/
def base64UrlAlphabet : List Char :=
  "ABCDEFGHIJKLMNOPQRSTUVWXYZabcdefghijklmnopqrstuvwxyz0123456789-_".toList

/-- The character of the lowest six bits. -/
def sextet (n : ℕ) : Char := base64UrlAlphabet.getD (n % 64) 'A'

/-- The characters of some bytes. -/
def base64UrlChars : List UInt8 → List Char
  | a :: b :: c :: rest =>
    let n := a.toNat * 65536 + b.toNat * 256 + c.toNat
    sextet (n / 262144) :: sextet (n / 4096) :: sextet (n / 64) :: sextet n :: base64UrlChars rest
  | [a, b] =>
    let n := a.toNat * 65536 + b.toNat * 256
    [sextet (n / 262144), sextet (n / 4096), sextet (n / 64)]
  | [a] =>
    let n := a.toNat * 65536
    [sextet (n / 262144), sextet (n / 4096)]
  | [] => []

/-- `buffer.toString('base64url')`. -/
def base64Url (bytes : List UInt8) : String := String.ofList (base64UrlChars bytes)

theorem sextet_mem (n : ℕ) : sextet n ∈ base64UrlAlphabet := by
  have hlen : base64UrlAlphabet.length = 64 := by decide
  have hlt : n % 64 < base64UrlAlphabet.length := by
    rw [hlen]
    omega
  unfold sextet
  rw [List.getD_eq_getElem?_getD, List.getElem?_eq_getElem hlt]
  exact List.getElem_mem hlt

theorem mem_base64UrlChars {bytes : List UInt8} {c : Char} (h : c ∈ base64UrlChars bytes) :
    c ∈ base64UrlAlphabet := by
  induction bytes using base64UrlChars.induct with
  | case1 x y z rest ih =>
    simp only [base64UrlChars, List.mem_cons] at h
    rcases h with rfl | rfl | rfl | rfl | h
    · exact sextet_mem _
    · exact sextet_mem _
    · exact sextet_mem _
    · exact sextet_mem _
    · exact ih h
  | case2 x y =>
    simp only [base64UrlChars, List.mem_cons, List.not_mem_nil, or_false] at h
    rcases h with rfl | rfl | rfl <;> exact sextet_mem _
  | case3 x =>
    simp only [base64UrlChars, List.mem_cons, List.not_mem_nil, or_false] at h
    rcases h with rfl | rfl <;> exact sextet_mem _
  | case4 => cases h

/-- `Hello` and a byte that gives the last two characters of the alphabet. -/
example : base64UrlChars [72, 101, 108, 108, 111] = "SGVsbG8".toList ∧
    base64UrlChars [251, 240] = "-_A".toList := by
  decide

end CryptoPay.Data
