import CryptoPay.Data.CodeUnits
import CryptoPay.Shared.Errors
import CryptoPay.Webhooks.Signatures

/-!
# Comparing tokens

`CsrfGuard` of `csrf.guard.ts`, with `safeEqualHex` and `verifyHmacSha256` of
`packages/crypto/src/hmac.ts`. `safeEqualHex` compares what its arguments decode to, and
`Buffer.from(s, 'hex')` decodes as far as it can, by the low byte of each code unit.

Results:
* `comparison_sound_iff`: the comparison is sound except on strings that start with the same bytes,
  are cut off there, and differ in the spelling of these bytes or in what follows.
* `token_forged`: a request with a cookie and a header that differ, which the guard lets through.
-/

namespace CryptoPay.Api

open Data
open Webhooks (Platform safeEqualHex verifyHmacSha256 safeEqualHex_iff)

/-! ## csrf.guard.ts -/

/-- A header, which may be sent several times. -/
inductive HeaderValue where
  | single (value : String)
  | multiple (values : List String)
  deriving DecidableEq, Repr

/-- What the guard reads of a `FastifyRequest`. -/
structure CsrfRequest where
  method : String
  /-- `request.cookies`, which the cookie plugin sets. -/
  cookies : Option (String → Option String)
  headers : String → Option HeaderValue

/-- `SAFE_METHODS` (line 6). -/
def SAFE_METHODS : List String := ["GET", "HEAD", "OPTIONS"]

/-- `request.cookies?.cp_csrf`. -/
def CsrfRequest.cookieToken (request : CsrfRequest) : Option String :=
  request.cookies.bind fun cookies => cookies "cp_csrf"

/-- `request.headers['x-csrf-token']`. -/
def CsrfRequest.headerToken (request : CsrfRequest) : Option HeaderValue :=
  request.headers "x-csrf-token"

/-- `CsrfGuard.canActivate` (lines 11–26); `upper` is `String.prototype.toUpperCase`. -/
def canActivate (upper : String → String) (request : CsrfRequest) : Except Error Bool :=
  if upper request.method ∈ SAFE_METHODS then .ok true
  else
    match request.cookieToken, request.headerToken with
    | some cookieToken, some (.single headerToken) =>
      if cookieToken = "" ∨ safeEqualHex (codeUnits cookieToken) (codeUnits headerToken) = false then
        .error (.forbidden "Invalid or missing CSRF token")
      else .ok true
    | _, _ => .error (.forbidden "Invalid or missing CSRF token")

/-- The guard does not let the request through for its method. -/
def CsrfRequest.StateChanging (upper : String → String) (request : CsrfRequest) : Prop :=
  upper request.method ∉ SAFE_METHODS

/-- The tokens of a request that has both. -/
def CsrfRequest.Tokens (request : CsrfRequest) (cookieToken headerToken : String) : Prop :=
  request.cookieToken = some cookieToken ∧ request.headerToken = some (.single headerToken)

theorem CsrfRequest.Tokens.unique {request : CsrfRequest} {c c' t t' : String}
    (h : request.Tokens c t) (h' : request.Tokens c' t') : c = c' ∧ t = t' :=
  ⟨Option.some.inj (h.1.symm.trans h'.1),
    HeaderValue.single.inj (Option.some.inj (h.2.symm.trans h'.2))⟩

theorem canActivate_iff {upper : String → String} {request : CsrfRequest}
    (h : request.StateChanging upper) : canActivate upper request = .ok true ↔
      ∃ cookieToken headerToken, request.Tokens cookieToken headerToken ∧ cookieToken ≠ "" ∧
        safeEqualHex (codeUnits cookieToken) (codeUnits headerToken) = true := by
  unfold canActivate
  rw [if_neg h]
  constructor
  · intro hok
    split at hok
    · rename_i cookieToken headerToken hcookie hheader
      split_ifs at hok with hbad
      push Not at hbad
      exact ⟨cookieToken, headerToken, ⟨hcookie, hheader⟩, hbad.1, Bool.of_not_eq_false hbad.2⟩
    · cases hok
  · rintro ⟨cookieToken, headerToken, ⟨hcookie, hheader⟩, hne, hequal⟩
    rw [hcookie, hheader]
    show (if cookieToken = "" ∨ safeEqualHex (codeUnits cookieToken) (codeUnits headerToken) = false then
      Except.error _ else _) = _
    rw [if_neg]
    rintro (hempty | hunequal)
    · exact hne hempty
    · exact Bool.false_ne_true (hunequal.symm.trans hequal)

/-! ## The three comparisons -/

theorem safeEqualHex_sound_iff (a b : CodeUnits) :
    (safeEqualHex a b = true → SameHex a b) ↔ ¬ Confusable a b := by
  rw [safeEqualHex_iff]
  exact fromHex_sound_iff

/-- Each comparison lets a string pass only if it is the other one up to case, unless both start
    with the same bytes and are cut off there. -/
theorem comparison_sound_iff (upper : String → String) (P : Platform) :
    (∀ a b, (safeEqualHex a b = true → SameHex a b) ↔ ¬ Confusable a b) ∧
    (∀ request : CsrfRequest,
      (request.StateChanging upper ∧ canActivate upper request = .ok true →
          ∃ cookieToken headerToken, request.Tokens cookieToken headerToken ∧
            SameHex (codeUnits cookieToken) (codeUnits headerToken)) ↔
        ¬ (request.StateChanging upper ∧ ∃ cookieToken headerToken,
          request.Tokens cookieToken headerToken ∧ cookieToken ≠ "" ∧
            Confusable (codeUnits cookieToken) (codeUnits headerToken))) ∧
    ∀ payload secret signatureHex,
      ((verifyHmacSha256 P payload secret signatureHex = true →
          SameHex (codeUnits (P.hmacSha256Hex payload secret)) signatureHex) ↔
        ¬ Confusable (codeUnits (P.hmacSha256Hex payload secret)) signatureHex) := by
  refine ⟨safeEqualHex_sound_iff, fun request => ?_, fun payload secret signatureHex => ?_⟩
  · constructor
    · rintro h ⟨hrequest, cookieToken, headerToken, htokens, hne, hconfusable⟩
      refine (safeEqualHex_sound_iff _ _).mp (fun hequal => ?_) hconfusable
      have hpasses : canActivate upper request = .ok true :=
        (canActivate_iff hrequest).mpr ⟨cookieToken, headerToken, htokens, hne, hequal⟩
      obtain ⟨c, t, htokens', hsame⟩ := h ⟨hrequest, hpasses⟩
      obtain ⟨rfl, rfl⟩ := htokens.unique htokens'
      exact hsame
    · rintro h ⟨hrequest, hpasses⟩
      obtain ⟨cookieToken, headerToken, htokens, hne, hequal⟩ := (canActivate_iff hrequest).mp hpasses
      refine ⟨cookieToken, headerToken, htokens, ?_⟩
      refine (safeEqualHex_sound_iff _ _).mpr (fun hconfusable => ?_) hequal
      exact h ⟨hrequest, cookieToken, headerToken, htokens, hne, hconfusable⟩
  · exact safeEqualHex_sound_iff _ _

/-! ## A forged header -/

/-- A request whose header is the cookie with two more characters. -/
def forged : CsrfRequest where
  method := "POST"
  cookies := some fun name => if name = "cp_csrf" then some "b7c2" else none
  headers name := if name = "x-csrf-token" then some (.single "b7c2zz") else none

/-- `String.prototype.toUpperCase` on ASCII. -/
def toUpperCase (s : String) : String := String.ofList (s.toList.map Char.toUpper)

theorem token_forged : safeEqualHex (codeUnits "b7c2") (codeUnits "b7c2zz") = true ∧
    ¬ SameHex (codeUnits "b7c2") (codeUnits "b7c2zz") ∧
    forged.StateChanging toUpperCase ∧ canActivate toUpperCase forged = .ok true ∧
    forged.Tokens "b7c2" "b7c2zz" := by
  unfold CsrfRequest.StateChanging CsrfRequest.Tokens
  decide

end CryptoPay.Api
