import CryptoPay.Webhooks.Deliver

/-!
# The webhook queues

`runWebhookDispatch` (`apps/worker/src/queues/webhook-dispatch.queue.ts`) and
`runWebhookRetry` (`webhook-retry.queue.ts`), the jobs of the two workers and
the systems that their interleavings reach. Any number of passes of each queue
may be in flight (a queue worker runs one at a time; replicas of the process,
or a stalled job that is run again, overlap). Log lines are not modelled.
-/

namespace CryptoPay.Webhooks

open Async

/-- `BATCH_SIZE` of both queues. -/
def BATCH_SIZE : ℕ := 25

/-- `delayMs === null ? null : new Date(Date.now() + delayMs)`. -/
def retryAt (delayMs : Option ℤ) : Action (Option Time) :=
  match delayMs with
  | none => return none
  | some delay => do
    let now ← dateNow
    return some (now + delay)

/-- What both queues store after `deliverWebhook` (dispatch, lines 65–88; retry, lines 59–86).
    `attempt` is the column that is written, `failedAttempt` the argument of `getRetryDelayMs`,
    `lastStatus` the status without a next retry. -/
def recordResult (deliveryId : String) (attempt : Option ℤ) (failedAttempt : ℤ)
    (lastStatus : WebhookDeliveryStatus) (result : WebhookDeliveryResult) : Action Unit :=
  if result.success then do
    let deliveredAt ← dateNow
    let _ ← prisma (.deliveryUpdate deliveryId {
      attempt := attempt
      status := .succeeded
      responseTimeMs := result.responseTimeMs
      deliveredAt := some deliveredAt
      statusCode := result.statusCode })
    return ()
  else do
    let delayMs ← getRetryDelayMs failedAttempt
    let nextRetryAt ← retryAt delayMs
    let _ ← prisma (.deliveryUpdate deliveryId {
      attempt := attempt
      status := if delayMs.isNone then lastStatus else .failed
      responseTimeMs := result.responseTimeMs
      nextRetryAt := some nextRetryAt
      statusCode := result.statusCode
      error := result.error })
    return ()

/-! ## webhook-dispatch.queue.ts -/

/-- The first attempt for a row that was just created (lines 58–92). -/
def deliverFirst (P : Platform) (encryptionKey : String) (event : WebhookEvent)
    (endpoint : WebhookEndpoint) (deliveryId : String) : Action Unit := do
  mark (.delivering ⟨.dispatch, deliveryId, event.id, endpoint.id, 1⟩)
  let result ← deliverWebhook P deliveryId ⟨endpoint.url, endpoint.secretEnc, event, encryptionKey⟩
  recordResult deliveryId none 1 .failed result

/-- The body of the loop over the endpoints (lines 47–93); `.catch(() => null)` drops every
    error of `create`. -/
def deliverTo (P : Platform) (encryptionKey : String) (event : WebhookEvent)
    (endpoint : WebhookEndpoint) : Action Unit := do
  let id ← generateId "whd"
  let delivery ← (prisma (.deliveryCreate ⟨id, event.id, endpoint.id, .pending⟩)).attempt
  match delivery with
  | .error _ => return ()
  | .ok row => deliverFirst P encryptionKey event endpoint row.id

/-- The body of the loop over the events (lines 46–94). -/
def fanOut (P : Platform) (encryptionKey : String) (event : EventWithEndpoints) : Action Unit := do
  .forEach (deliverTo P encryptionKey event.toWebhookEvent) event.webhookEndpoints
  mark (.fannedOut event.id)

/-- `runWebhookDispatch` (lines 33–95). -/
def runWebhookDispatch (P : Platform) (encryptionKey : String) : Action Unit := do
  let events ← (prisma (.eventFindMany BATCH_SIZE) : Action (List EventWithEndpoints))
  .forEach (fanOut P encryptionKey) events

/-! ## webhook-retry.queue.ts -/

/-- The body of the loop (lines 46–90). -/
def retryDelivery (P : Platform) (encryptionKey : String) (delivery : DueDelivery) :
    Action Unit := do
  let attempt := delivery.attempt + 1
  mark (.delivering ⟨.retry, delivery.id, delivery.event.id, delivery.endpoint.id, attempt⟩)
  let result ← deliverWebhook P delivery.id
    ⟨delivery.endpoint.url, delivery.endpoint.secretEnc, delivery.event, encryptionKey⟩
  recordResult delivery.id (some attempt) attempt .exhausted result

/-- `runWebhookRetry` (lines 34–91). -/
def runWebhookRetry (P : Platform) (encryptionKey : String) : Action Unit := do
  let now ← dateNow
  let due ← (prisma (.deliveryFindMany now BATCH_SIZE) : Action (List DueDelivery))
  .forEach (retryDelivery P encryptionKey) due

/-! ## Runs -/

/-- The program of a queue. -/
def launch (P : Platform) (encryptionKey : String) : QueueName → Action Unit
  | .dispatch => runWebhookDispatch P encryptionKey
  | .retry => runWebhookRetry P encryptionKey

/-- Passes of both queues, in any number. -/
def workload (P : Platform) (encryptionKey : String) : Workload calls Thrown QueueName where
  launch := launch P encryptionKey
  compatible _ _ := true
  symm _ _ := rfl

abbrev WebhookSystem := System calls Thrown QueueName World

abbrev WebhookMove := Move QueueName Input Act

/-- The tables and the requests answered so far. -/
abbrev Log := Config calls World

/-- No delivery is stored yet. -/
def Undelivered (w : World) : Prop := ∀ d, d ∉ w.db.webhookDeliveries

/-- The systems that some run leads to, all of whose steps meet `allowed`. -/
def WebhookReachable (P : Platform) (encryptionKey : String) (allowed : Condition calls World) :
    WebhookSystem → Prop :=
  Reachable machine (workload P encryptionKey) Undelivered allowed

/-- A run that was computed, as far as `f` shows it. -/
theorem webhookRun_view (P : Platform) (key : String) {w : World} (hw : Undelivered w)
    (ms : List WebhookMove) {β : Type} {f : WebhookSystem → β} {x : β}
    (h : ((System.initial w).run machine (workload P key) ms).map f = some x) :
    ∃ s, WebhookReachable P key anything s ∧ f s = x := Reachable.view hw ms h

/-! ## A small deployment -/

/-- The key of the test configuration (`'f'.repeat(64)`). -/
def sampleKey : String := "ffffffffffffffffffffffffffffffffffffffffffffffffffffffffffffffff"

/-- A secret that is encrypted under `sampleKey`. -/
def goodSecret : String := "AAAAAAAAAAAAAAAA7qiVnTtnov1zk9rBLg/ufLQ="

/-- A secret that does not authenticate under `sampleKey`. -/
def staleSecret : String := "BAAAAAAAAAAAAAAA7qiVnTtnov1zk9rBLg/ufLQ="

/-- The authentication tag of `goodSecret`. -/
def sampleTag : List UInt8 :=
  [238, 168, 149, 157, 59, 103, 162, 253, 115, 147, 218, 193, 46, 15, 238, 124]

/-- Node, as far as the sample endpoints need it; nothing reads the signature. -/
def samplePlatform : Platform where
  parseUrl s := if s = "https://m.example/h" then some ⟨"https:", "m.example"⟩ else none
  isIP s := if s = "93.184.216.34" then 4 else 0
  fromBase64 s :=
    if s = goodSecret then List.replicate 12 0 ++ sampleTag ++ [180]
    else if s = staleSecret then 4 :: List.replicate 11 0 ++ sampleTag ++ [180]
    else []
  decipher key iv authTag ciphertext :=
    if key = List.replicate 32 255 ∧ iv = List.replicate 12 0 ∧ authTag = sampleTag ∧
      ciphertext = [180] then .ok [115]
    else .error "Unsupported state or unable to authenticate data"
  toUtf8 bytes := String.ofList (bytes.map fun b => Char.ofNat b.toNat)
  hmacSha256Hex _ _ := ""

/-- An event of the organization `org`, stored at the given time. -/
def sampleEvent (id org : String) (createdAt : Time) : WebhookEvent where
  id := id
  organizationId := org
  invoiceId := "inv_1"
  type := "payment.paid"
  data := ⟨"inv_1", none, "49.00", "USD", "base", "paid", some "0x1"⟩
  createdAt := createdAt

/-- An enabled endpoint. -/
def sampleEndpoint (id org secretEnc : String) : WebhookEndpoint where
  id := id
  organizationId := org
  url := "https://m.example/h"
  enabled := true
  secretEnc := secretEnc
  revokedAt := none
  createdAt := 0

/-- One event and one endpoint. -/
def sampleWorld : World where
  db := {
    webhookEvents := ⟨[sampleEvent "evt_1" "org" 0], by simp⟩
    webhookEndpoints := ⟨[sampleEndpoint "we_1" "org" goodSecret], by simp⟩
    webhookDeliveries := .empty }
  clock := 0

theorem sampleWorld_undelivered : Undelivered sampleWorld := DeliveryTable.not_mem_empty

/-- The requests of a pass, answered in a row. -/
def performs (pid : ℕ) (inputs : List Input) : List WebhookMove := inputs.map (.perform pid)

/-- The lookup of the sample host. -/
def publicAddress : Input := .addresses (some ["93.184.216.34"])

end CryptoPay.Webhooks
