import CryptoPay.Async.TwoRuns
import CryptoPay.Shared.Numbers
import CryptoPay.Webhooks.Deliver

/-!
# Signed webhook requests

`verifyWebhookSignature` of `packages/webhooks/src/webhook-payload.ts`, the
reference for merchants, with `verifyHmacSha256` and `safeEqualHex` of
`packages/crypto/src/hmac.ts`; `signWebhookRequest` is in `Deliver`. The signed
string is the timestamp, a point and the body, and a timestamp is whatever
`Number` accepts. A point inside the body does not matter: the body starts with a
brace, and no string with a brace is a number.

Results:
* `split_unique`: the signed string has one split into a timestamp and a body.
* `signatures_bind`: a signed request is accepted exactly within the tolerance,
  and no other body or timestamp with the same signature is.
-/

namespace CryptoPay.Webhooks

open Async Data

/-! ## hmac.ts -/

/-- `safeEqualHex` (hmac.ts, lines 13–24). -/
def safeEqualHex (aHex bHex : CodeUnits) : Bool :=
  let a := fromHex aHex
  let b := fromHex bHex
  if a.length ≠ b.length then false else a = b

/-- `verifyHmacSha256` (hmac.ts, lines 8–11). -/
def verifyHmacSha256 (P : Platform) (payload secret : String) (signatureHex : CodeUnits) : Bool :=
  safeEqualHex (codeUnits (P.hmacSha256Hex payload secret)) signatureHex

theorem safeEqualHex_iff {aHex bHex : CodeUnits} :
    safeEqualHex aHex bHex = true ↔ fromHex aHex = fromHex bHex := by
  unfold safeEqualHex
  dsimp only
  split_ifs with hlen
  · exact iff_of_false nofun fun heq => hlen (congrArg List.length heq)
  · exact decide_eq_true_iff

/-! ## webhook-payload.ts -/

/-- `Math.abs(nowSeconds - timestampSeconds) > toleranceSeconds`. -/
def stale (nowSeconds : ℤ) (timestampSeconds toleranceSeconds : ℚ) : Bool :=
  match roundDouble (nowSeconds - timestampSeconds) with
  | some age => toleranceSeconds < |age|
  | none => true

/-- `verifyWebhookSignature` (webhook-payload.ts, lines 55–69). -/
def verifyWebhookSignature (P : Platform) (body secret timestamp signatureHex : String)
    (toleranceSeconds : ℚ) : Action Bool :=
  match Number.ofString timestamp with
  | .finite timestampSeconds => do
    let now ← dateNow
    if stale (now / 1000) timestampSeconds toleranceSeconds then return false
    else return verifyHmacSha256 P (timestamp ++ "." ++ body) secret (codeUnits signatureHex)
  | _ => return false

/-- What `Date.now()` may return: a time value of ECMAScript. -/
structure Instant where
  ms : ℤ
  valid : |ms| ≤ 8640000000000000

/-- The seconds of a signed request, `Math.floor(ms / 1000)`. -/
def Instant.seconds (t : Instant) : ℤ := t.ms / 1000

/-- For a fixed secret, different payloads have different signatures. -/
def Platform.HmacInjective (P : Platform) : Prop :=
  ∀ secret, Function.Injective fun payload => fromHex (codeUnits (P.hmacSha256Hex payload secret))

/-- The function signs in the world `w` and returns the request. -/
def Signs (P : Platform) (payload : WebhookEventPayload) (secret : String) (w : World)
    (request : SignedWebhookRequest) : Prop :=
  ∃ pid is evs, (signWebhookRequest P payload secret).execute machine pid w is =
    some (evs, .ok request, w)

/-- The function verifies in the world `w` and returns the answer. -/
def Verifies (P : Platform) (body secret timestamp signatureHex : String) (toleranceSeconds : ℚ)
    (w : World) (answer : Bool) : Prop :=
  ∃ pid is evs, (verifyWebhookSignature P body secret timestamp signatureHex
    toleranceSeconds).execute machine pid w is = some (evs, .ok answer, w)

/-! ## What the two functions return -/

section Returns

variable {P : Platform} {payload : WebhookEventPayload} {body secret timestamp signatureHex : String}
  {tolerance : ℚ} {w : World}

/-- What is signed at a time. -/
def signedAt (P : Platform) (payload : WebhookEventPayload) (secret : String) (now : Time) :
    SignedWebhookRequest where
  body := payload.body
  headers := {
    signature := P.hmacSha256Hex (toString (now / 1000) ++ "." ++ payload.body) secret
    timestamp := toString (now / 1000)
    eventId := payload.id
    contentType := "application/json" }

theorem signs_iff {request : SignedWebhookRequest} :
    Signs P payload secret w request ↔ request = signedAt P payload secret w.clock := by
  constructor
  · rintro ⟨pid, is, evs, hrun⟩
    obtain ⟨i, rest, r, w₁, evs', rfl, hr, hk, -⟩ := Prog.execute_await hrun
    cases i <;> cases hr
    obtain ⟨-, hrequest, -⟩ := Prog.execute_ofExcept (x := .ok (signedAt P payload secret w.clock)) hk
    exact Except.ok.inj hrequest
  · rintro rfl
    exact ⟨0, [.ok], _, rfl⟩

/-- The answer at a time. -/
def acceptsAt (P : Platform) (body secret timestamp signatureHex : String) (toleranceSeconds : ℚ)
    (now : Time) : Bool :=
  match Number.ofString timestamp with
  | .finite seconds => !stale (now / 1000) seconds toleranceSeconds &&
      verifyHmacSha256 P (timestamp ++ "." ++ body) secret (codeUnits signatureHex)
  | _ => false

theorem verifies_iff {answer : Bool} :
    Verifies P body secret timestamp signatureHex tolerance w answer ↔
      answer = acceptsAt P body secret timestamp signatureHex tolerance w.clock := by
  unfold Verifies verifyWebhookSignature acceptsAt
  cases Number.ofString timestamp with
  | finite seconds =>
    have hprog : (if stale (w.clock / 1000) seconds tolerance then (return false : Action Bool)
        else return verifyHmacSha256 P (timestamp ++ "." ++ body) secret (codeUnits signatureHex)) =
          .ofExcept (.ok (!stale (w.clock / 1000) seconds tolerance &&
            verifyHmacSha256 P (timestamp ++ "." ++ body) secret (codeUnits signatureHex))) := by
      cases stale (w.clock / 1000) seconds tolerance <;> rfl
    dsimp only
    constructor
    · rintro ⟨pid, is, evs, hrun⟩
      obtain ⟨i, rest, r, w₁, evs', rfl, hr, hk, -⟩ := Prog.execute_await hrun
      cases i <;> cases hr
      replace hk := (congrArg (Prog.execute machine pid · w rest) hprog).symm.trans hk
      exact Except.ok.inj (Prog.execute_ofExcept hk).2.1
    · rintro rfl
      refine ⟨0, [.ok], [⟨0, .now, w.clock⟩], ?_⟩
      exact congrArg (fun p : Action Bool => (p.execute machine 0 w []).map fun run =>
        ((⟨0, .now, w.clock⟩ : Event calls) :: run.1, run.2.1, run.2.2)) hprog
  | nan =>
    constructor
    · rintro ⟨pid, is, evs, hrun⟩
      exact Except.ok.inj (Prog.execute_ofExcept (x := .ok false) hrun).2.1
    · rintro rfl
      exact ⟨0, [], [], rfl⟩
  | infinity negative =>
    constructor
    · rintro ⟨pid, is, evs, hrun⟩
      exact Except.ok.inj (Prog.execute_ofExcept (x := .ok false) hrun).2.1
    · rintro rfl
      exact ⟨0, [], [], rfl⟩

end Returns

/-! ## The split -/

/-- The body of a payload starts with a brace. -/
theorem body_brace (payload : WebhookEventPayload) :
    ∃ rest, payload.body.toList = '\x7b' :: rest := by
  unfold WebhookEventPayload.body Json.stringify
  rw [String.toList_append, String.toList_append]
  exact ⟨_, rfl⟩

/-- A timestamp has no point. -/
theorem timestamp_point (n : ℤ) : '.' ∉ (toString n).toList := by
  have hdigits : ∀ m : ℕ, '.' ∉ Nat.toDigits 10 m := fun m hmem =>
    absurd (Number.all_isDigit m '.' hmem) (by decide)
  rw [Int.toString_eq_repr, Int.repr_eq_if]
  split_ifs
  · rw [Nat.toList_repr]
    exact hdigits _
  · rw [String.toList_append, Nat.toList_repr]
    intro hmem
    rcases List.mem_append.mp hmem with hmem | hmem
    · exact absurd hmem (by decide)
    · exact hdigits _ hmem

/-- Two splits at a point, of which the left part of one has no point: they are the same, or the
    other one is further right. -/
theorem split_cases {a b c d : List Char} (h : a ++ '.' :: b = c ++ '.' :: d) (ha : '.' ∉ a) :
    (a = c ∧ b = d) ∨ ∃ rest, c = a ++ '.' :: rest ∧ b = rest ++ '.' :: d := by
  rcases List.append_eq_append_iff.mp h with ⟨e, rfl, he⟩ | ⟨e, rfl, he⟩
  · cases e with
    | nil => exact .inl ⟨(List.append_nil a).symm, (List.cons.inj he).2⟩
    | cons x e =>
      obtain ⟨rfl, hb⟩ := List.cons.inj he
      exact .inr ⟨e, rfl, hb⟩
  · cases e with
    | nil => exact .inl ⟨List.append_nil c, (List.cons.inj he).2.symm⟩
    | cons x e =>
      obtain ⟨rfl, -⟩ := List.cons.inj he
      exact absurd (List.mem_append_right c List.mem_cons_self) ha

/-- The signed string has one split into a timestamp that is a number and a body. -/
theorem split_unique {payload : WebhookEventPayload} {n : ℤ} {body timestamp : String}
    (h : timestamp ++ "." ++ body = toString n ++ "." ++ payload.body)
    (hnumber : Number.ofString timestamp ≠ .nan) :
    body = payload.body ∧ timestamp = toString n := by
  have hlist : (toString n).toList ++ '.' :: payload.body.toList =
      timestamp.toList ++ '.' :: body.toList := by
    have := congrArg String.toList h
    simp only [String.toList_append, List.append_assoc] at this
    exact this.symm
  rcases split_cases hlist (timestamp_point n) with ⟨hts, hbody⟩ | ⟨rest, hts, hbody⟩
  · exact ⟨(String.toList_inj.mp hbody).symm, (String.toList_inj.mp hts).symm⟩
  · -- the rest starts where the body starts
    obtain ⟨tail, htail⟩ := body_brace payload
    rw [htail] at hbody
    cases rest with
    | nil => cases hbody
    | cons x rest =>
      obtain ⟨rfl, -⟩ := List.cons.inj hbody
      refine absurd (Number.ofString_brace ?_) hnumber
      rw [hts]
      exact List.mem_append_right _ (List.mem_cons_of_mem _ List.mem_cons_self)

/-! ## The specification -/

/-- What signing and verifying guarantee. -/
structure SignaturesBind (P : Platform) : Prop where
  /-- A signed request is accepted exactly within the tolerance. -/
  roundTrip : ∀ payload secret (t₀ t₁ : Instant) (tolerance : ℚ) db db',
    ∃ request, Signs P payload secret ⟨db, t₀.ms⟩ request ∧
      Verifies P request.body secret request.headers.timestamp request.headers.signature tolerance
        ⟨db', t₁.ms⟩ (decide ((|t₁.seconds - t₀.seconds| : ℤ) ≤ tolerance))
  /-- No other body or timestamp is accepted with the bytes of its signature. -/
  binding : P.HmacInjective → ∀ payload secret w request, Signs P payload secret w request →
    ∀ body timestamp signatureHex tolerance w',
      Verifies P body secret timestamp signatureHex tolerance w' true →
      fromHex (codeUnits signatureHex) = fromHex (codeUnits request.headers.signature) →
        body = request.body ∧ timestamp = request.headers.timestamp

/-- Within the range of time values, the age is exact. -/
theorem stale_seconds (t₀ t₁ : Instant) (tolerance : ℚ) :
    stale t₁.seconds t₀.seconds tolerance =
      !decide ((|t₁.seconds - t₀.seconds| : ℤ) ≤ tolerance) := by
  have hrange : |t₁.seconds - t₀.seconds| ≤ 2 ^ 53 := by
    have h₀ := abs_le.mp t₀.valid
    have h₁ := abs_le.mp t₁.valid
    unfold Instant.seconds
    rw [abs_le]
    omega
  unfold stale
  rw [← Int.cast_sub, roundDouble_int hrange]
  dsimp only
  rw [← Int.cast_abs]
  by_cases hage : ((|t₁.seconds - t₀.seconds| : ℤ) : ℚ) ≤ tolerance
  · rw [decide_eq_true hage, decide_eq_false (not_lt.mpr hage)]
    rfl
  · rw [decide_eq_false hage, decide_eq_true (not_le.mp hage)]
    rfl

/-- What is signed at one time is accepted at another exactly within the tolerance. -/
theorem signedAt_verifies (P : Platform) (payload : WebhookEventPayload) (secret : String)
    (t₀ t₁ : Instant) (tolerance : ℚ) (db : WebhookDb) :
    Verifies P payload.body secret (signedAt P payload secret t₀.ms).headers.timestamp
      (signedAt P payload secret t₀.ms).headers.signature tolerance ⟨db, t₁.ms⟩
      (decide (((|t₁.seconds - t₀.seconds| : ℤ) : ℚ) ≤ tolerance)) := by
  refine verifies_iff.mpr ?_
  have hrange : |t₀.seconds| ≤ 2 ^ 53 := by
    have h₀ := abs_le.mp t₀.valid
    unfold Instant.seconds
    rw [abs_le]
    omega
  have hnumber : Number.ofString (toString (t₀.ms / 1000)) = .finite t₀.seconds :=
    Number.ofString_int hrange
  have hhmac : verifyHmacSha256 P (toString (t₀.ms / 1000) ++ "." ++ payload.body) secret
      (codeUnits (P.hmacSha256Hex (toString (t₀.ms / 1000) ++ "." ++ payload.body) secret)) = true :=
    safeEqualHex_iff.mpr rfl
  have hstale : stale (t₁.ms / 1000) t₀.seconds tolerance = _ := stale_seconds t₀ t₁ tolerance
  simp only [acceptsAt, signedAt, hnumber, hhmac, hstale, Bool.not_not, Bool.and_true]

theorem signatures_bind (P : Platform) : SignaturesBind P where
  roundTrip payload secret t₀ t₁ tolerance db db' :=
    ⟨signedAt P payload secret t₀.ms, signs_iff.mpr rfl,
      signedAt_verifies P payload secret t₀ t₁ tolerance db'⟩
  binding hP payload secret w request hsigns body timestamp signatureHex tolerance w' hverifies
      hbytes := by
    obtain rfl := signs_iff.mp hsigns
    have haccepts := (verifies_iff.mp hverifies).symm
    unfold acceptsAt at haccepts
    split at haccepts
    · rename_i seconds hnumber
      obtain ⟨-, hhmac⟩ := Bool.and_eq_true_iff.mp haccepts
      have hpayload := hP secret ((safeEqualHex_iff.mp hhmac).trans hbytes)
      exact split_unique hpayload (by rw [hnumber]; exact nofun)
    · cases haccepts

end CryptoPay.Webhooks
