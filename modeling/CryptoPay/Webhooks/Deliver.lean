import CryptoPay.Async.Prog
import CryptoPay.Data.CodeUnits
import CryptoPay.Payments.StateMachines
import CryptoPay.Webhooks.Effects

/-!
# One delivery attempt

`packages/webhooks/src` (`ssrf-guard.ts`, `webhook-payload.ts`,
`deliver-webhook.ts`, `retry-schedule.ts`) and `decryptSecret` of
`packages/crypto/src/encryption.ts`. The option `timeoutMs` is not modelled: a
request that times out is one that rejects. The jitter of `getRetryDelayMs` is
computed in rational numbers.

Results:
* `assertSafeWebhookUrl_only`: the URL check asks for addresses only.
* `retryBase_eq_none_iff`: the schedule ends after the sixth failure.
-/

namespace CryptoPay.Webhooks

open Async Data

/-! ## ssrf-guard.ts -/

/-- The branch `version === 4` (lines 15–25), where `Number` reads decimal digits. -/
def isPrivateIpv4 (ip : List Char) : Bool :=
  match (ip.splitOn '.').map decimal? with
  | a :: b :: _ =>
    a = some 127 || a = some 10 ||
      (a = some 172 && b.any fun b => 16 ≤ b && b ≤ 31) ||
      (a = some 192 && b = some 168) || (a = some 169 && b = some 254) || a = some 0
  | [a] => a = some 127 || a = some 10 || a = some 0
  | [] => false

/-- `/[0-9a-f]/`. -/
def isLowerHex (c : Char) : Bool := c.isDigit || ('a' ≤ c && c ≤ 'f')

/-- `/^f[cd][0-9a-f]{2}:/`. -/
def isUniqueLocal : List Char → Bool
  | f :: x :: h :: l :: colon :: _ =>
    f = 'f' && (x = 'c' || x = 'd') && isLowerHex h && isLowerHex l && colon = ':'
  | _ => false

/-- `isPrivateOrReservedIp` (lines 13–39) on the characters of the address; `ip.toLowerCase()` is
    of an address, whose letters are ASCII. -/
def isPrivateOrReserved (P : Platform) (ip : List Char) : Bool :=
  match P.isIP (String.ofList ip) with
  | 4 => isPrivateIpv4 ip
  | 6 =>
    let normalized := lowerCase ip
    if normalized = "::1".toList || normalized = "::".toList then true
    else if "fe80:".toList.isPrefixOf normalized then true
    else if isUniqueLocal normalized then true
    else if "::ffff:".toList.isPrefixOf normalized then
      isPrivateOrReserved P (normalized.drop 7)
    else false
  | _ => true
termination_by ip.length
decreasing_by
  rename_i _ _ _ h
  have hlen : "::ffff:".toList.length ≤ (lowerCase ip).length :=
    (List.isPrefixOf_iff_prefix.mp h).length_le
  have hseven : "::ffff:".toList.length = 7 := by decide
  have hlower : (lowerCase ip).length = ip.length := List.length_map _
  show ((lowerCase ip).drop 7).length < ip.length
  rw [List.length_drop]
  omega

/-- `isPrivateOrReservedIp` (lines 13–39). -/
def isPrivateOrReservedIp (P : Platform) (ip : String) : Bool := isPrivateOrReserved P ip.toList

/-- The addresses that `assertSafeWebhookUrl` examines (lines 60–68): a literal address, or
    what the lookup returns. -/
def resolve (P : Platform) (hostname : String) : Action (List String) :=
  if P.isIP hostname ≠ 0 then return [hostname]
  else do
    let records ← lookup hostname
    match records with
    | some addresses => return addresses
    | none => .throw (.validation "Webhook URL hostname could not be resolved")

/-- `assertSafeWebhookUrl` (lines 48–75). -/
def assertSafeWebhookUrl (P : Platform) (rawUrl : String) : Action Url :=
  match P.parseUrl rawUrl with
  | none => .throw (.validation "Webhook URL is not a valid URL")
  | some url =>
    if url.protocol ≠ "https:" then .throw (.validation "Webhook URL must use HTTPS")
    else do
      let addresses ← resolve P url.hostname
      if addresses.isEmpty || addresses.any (isPrivateOrReservedIp P) then
        .throw (.validation "Webhook URL resolves to a private or reserved address")
      else return url

/-! ## encryption.ts -/

/-- `decodeKey` (lines 33–39); `fromHex` is `Buffer.from(s, 'hex')`. -/
def decodeKey (keyHex : String) : Except String (List UInt8) :=
  let key := fromHex (codeUnits keyHex)
  if key.length ≠ 32 then
    .error s!"Encryption key must decode to 32 bytes, got {key.length}"
  else .ok key

/-- `decryptSecret` (lines 22–31). -/
def decryptSecret (P : Platform) (encoded keyHex : String) : Except Thrown String := do
  let key ← (decodeKey keyHex).mapError .crypto
  let raw := P.fromBase64 encoded
  let iv := raw.take 12
  let authTag := (raw.drop 12).take 16
  let ciphertext := raw.drop 28
  let plaintext ← (P.decipher key iv authTag ciphertext).mapError .crypto
  return P.toUtf8 plaintext

/-! ## webhook-payload.ts -/

/-- A JSON value; a number is kept as its literal. -/
inductive Json where
  | null
  | bool (b : Bool)
  | number (literal : String)
  | string (s : String)
  | array (items : List Json)
  | object (members : List (String × Json))

/-- A character inside a JSON string, as `JSON.stringify` writes it. -/
def escapeChar (c : Char) : List Char :=
  if c = '"' then ['\\', '"']
  else if c = '\\' then ['\\', '\\']
  else if c.toNat = 8 then ['\\', 'b']
  else if c.toNat = 9 then ['\\', 't']
  else if c.toNat = 10 then ['\\', 'n']
  else if c.toNat = 12 then ['\\', 'f']
  else if c.toNat = 13 then ['\\', 'r']
  else if c.toNat < 32 then
    ['\\', 'u', '0', '0', Nat.digitChar (c.toNat / 16), Nat.digitChar (c.toNat % 16)]
  else [c]

/-- A JSON string literal. -/
def quote (s : String) : String := String.ofList ('"' :: s.toList.flatMap escapeChar ++ ['"'])

mutual

/-- `JSON.stringify`. -/
def Json.stringify : Json → String
  | .null => "null"
  | .bool b => if b then "true" else "false"
  | .number literal => literal
  | .string s => quote s
  | .array items => "[" ++ ",".intercalate (Json.stringifyItems items) ++ "]"
  | .object members => "\x7b" ++ ",".intercalate (Json.stringifyMembers members) ++ "\x7d"

/-- The items of an array. -/
def Json.stringifyItems : List Json → List String
  | [] => []
  | x :: xs => x.stringify :: Json.stringifyItems xs

/-- The members of an object. -/
def Json.stringifyMembers : List (String × Json) → List String
  | [] => []
  | (k, x) :: xs => (quote k ++ ":" ++ x.stringify) :: Json.stringifyMembers xs

end

/-- A string or `null`. -/
def Json.ofOption : Option String → Json
  | some s => .string s
  | none => .null

/-- The column `data` of an event as Postgres returns it: a `jsonb` object keeps its keys in
    order of their lengths. -/
def eventData (d : WebhookEventData) : List (String × Json) := [
  ("amount", .string d.amount),
  ("status", .string d.status),
  ("network", .string d.network),
  ("tx_hash", .ofOption d.tx_hash),
  ("currency", .string d.currency),
  ("invoice_id", .string d.invoice_id),
  ("external_id", .ofOption d.external_id)]

/-- `WebhookEventPayload` (lines 3–8). -/
structure WebhookEventPayload where
  id : String
  type : String
  created : ℤ
  data : List (String × Json)

/-- `buildWebhookPayload` (lines 10–22). -/
def buildWebhookPayload (event : WebhookEvent) : WebhookEventPayload where
  id := event.id
  type := event.type
  created := event.createdAt / 1000
  data := eventData event.data

/-- `JSON.stringify(payload)`. -/
def WebhookEventPayload.body (p : WebhookEventPayload) : String :=
  (Json.object [
    ("id", .string p.id),
    ("type", .string p.type),
    ("created", .number (toString p.created)),
    ("data", .object p.data)]).stringify

/-- `SignedWebhookRequest` (lines 24–32). -/
structure SignedWebhookRequest where
  body : String
  headers : WebhookHeaders
  deriving DecidableEq, Repr

/-- `signWebhookRequest` (lines 39–53). -/
def signWebhookRequest (P : Platform) (payload : WebhookEventPayload) (secret : String) :
    Action SignedWebhookRequest := do
  let body := payload.body
  let now ← dateNow
  let timestamp := toString (now / 1000)
  let signature := P.hmacSha256Hex (timestamp ++ "." ++ body) secret
  return {
    body := body
    headers := {
      signature := signature
      timestamp := timestamp
      eventId := payload.id
      contentType := "application/json" } }

/-! ## deliver-webhook.ts -/

/-- `DeliverWebhookInput` (lines 5–12), without its overrides. -/
structure DeliverWebhookInput where
  url : String
  secretEnc : String
  event : WebhookEvent
  encryptionKey : String

/-- `WebhookDeliveryResult` (lines 14–19). -/
structure WebhookDeliveryResult where
  success : Bool
  statusCode : Option ℤ
  responseTimeMs : ℤ
  error : Option String
  deriving DecidableEq, Repr

/-- The result for a reply of the merchant's server (lines 63–81). -/
def deliveryResult (responseTimeMs : ℤ) : Except (Option String) ℤ → WebhookDeliveryResult
  | .ok status =>
    if 200 ≤ status ∧ status < 300 then ⟨true, some status, responseTimeMs, none⟩
    else ⟨false, some status, responseTimeMs,
      some s!"Merchant endpoint responded with HTTP {status}"⟩
  | .error message => ⟨false, none, responseTimeMs, some (message.getD "Webhook delivery failed")⟩

/-- `deliverWebhook` from the URL check on (lines 43–84). -/
def sendWebhook (P : Platform) (deliveryId : String) (input : DeliverWebhookInput)
    (start : Time) : Action WebhookDeliveryResult := do
  let secret ← .ofExcept (decryptSecret P input.secretEnc input.encryptionKey)
  let request ← signWebhookRequest P (buildWebhookPayload input.event) secret
  let response ← fetch deliveryId {
    url := input.url
    method := "POST"
    headers := request.headers
    body := request.body
    redirect := "manual" }
  let now ← dateNow
  return deliveryResult (now - start) response

/-- `deliverWebhook` (lines 31–84); `deliveryId` only labels its requests. -/
def deliverWebhook (P : Platform) (deliveryId : String) (input : DeliverWebhookInput) :
    Action WebhookDeliveryResult := do
  let start ← dateNow
  let checked ← (assertSafeWebhookUrl P input.url).attempt
  match checked with
  | .error error => do
    let now ← dateNow
    return {
      success := false
      statusCode := none
      responseTimeMs := now - start
      error := some (error.message.getD "Webhook URL failed safety validation") }
  | .ok _ => do
    mark (.accepted deliveryId input.secretEnc)
    sendWebhook P deliveryId input start

/-! ## retry-schedule.ts -/

/-- `RETRY_SCHEDULE_MS` (lines 2–9). -/
def RETRY_SCHEDULE_MS : List ℤ := [60000, 300000, 900000, 3600000, 21600000, 86400000]

/-- `RETRY_SCHEDULE_MS[failedAttempt - 1]`. -/
def retryBase (failedAttempt : ℤ) : Option ℤ :=
  if failedAttempt < 1 then none else RETRY_SCHEDULE_MS[(failedAttempt - 1).toNat]?

/-- `Math.round(base + base * JITTER_RATIO * (random() * 2 - 1))`. -/
def jittered (base : ℤ) (r : ℚ) : ℤ := ⌊(base : ℚ) + base * (1 / 5) * (r * 2 - 1) + 1 / 2⌋

/-- `getRetryDelayMs` (lines 24–29). -/
def getRetryDelayMs (failedAttempt : ℤ) : Action (Option ℤ) :=
  match retryBase failedAttempt with
  | none => return none
  | some base => do
    let r ← random
    return some (jittered base r)

theorem retryBase_eq_none_iff {failedAttempt : ℤ} :
    retryBase failedAttempt = none ↔ failedAttempt < 1 ∨ 6 < failedAttempt := by
  unfold retryBase RETRY_SCHEDULE_MS
  split_ifs with h
  · exact iff_of_true rfl (.inl h)
  · rw [List.getElem?_eq_none_iff]
    simp only [List.length_cons, List.length_nil]
    omega

/-! ## Footprints -/

/-- An address lookup. -/
def Op.Looks : Op → Prop
  | .lookup _ => True
  | _ => False

theorem resolve_only (P : Platform) (hostname : String) : (resolve P hostname).Only Op.Looks := by
  unfold resolve
  split_ifs
  · trivial
  · refine Prog.Only.bind (Prog.Only.perform trivial) fun records => ?_
    cases records <;> trivial

/-- The URL check asks for addresses only. -/
theorem assertSafeWebhookUrl_only (P : Platform) (rawUrl : String) :
    (assertSafeWebhookUrl P rawUrl).Only Op.Looks := by
  unfold assertSafeWebhookUrl
  split
  · trivial
  · split_ifs
    · trivial
    · refine Prog.Only.bind (resolve_only P _) fun addresses => ?_
      split_ifs <;> trivial

end CryptoPay.Webhooks
