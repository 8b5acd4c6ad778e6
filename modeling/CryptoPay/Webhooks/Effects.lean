import CryptoPay.Async.System
import CryptoPay.Shared.Errors
import CryptoPay.Webhooks.Tables
import Mathlib.Data.Rat.Floor

/-!
# What the webhook queues await

Prisma calls on the webhook tables, the clock, random numbers and ids, DNS
lookups and HTTP requests. `machine` answers them on the tables and a clock. A
Prisma call may fail before it reaches the database, and its reply may be lost
after it took effect; lookups and requests are answered by anything. Between
requests events are stored, endpoints are created, enabled and revoked, the
clock is set, and the rows of a table change their order.

The functions of Node that deliveries use are fields of a `Platform`.
-/

namespace CryptoPay.Webhooks

open Async

/-- The parts of a URL that are read. -/
structure Url where
  protocol : String
  hostname : String
  deriving DecidableEq, Repr

/-- Functions of Node and of its crypto module. -/
structure Platform where
  /-- `new URL(rawUrl)`, unless it throws. -/
  parseUrl : String → Option Url
  /-- `isIP` of `node:net`: 4, 6, or 0. -/
  isIP : String → ℕ
  /-- `Buffer.from(s, 'base64')`. -/
  fromBase64 : String → List UInt8
  /-- `createDecipheriv('aes-256-gcm', key, iv)`, `setAuthTag(authTag)`, `update(ciphertext)` and
      `final()`: the plaintext, or the message of the error that one of them throws. -/
  decipher : (key iv authTag ciphertext : List UInt8) → Except String (List UInt8)
  /-- `buffer.toString('utf8')`. -/
  toUtf8 : List UInt8 → String
  /-- `createHmac('sha256', secret).update(payload).digest('hex')`. -/
  hmacSha256Hex : (payload secret : String) → String

/-- An error that the modelled functions throw. -/
inductive Thrown where
  /-- `ValidationError`. -/
  | validation (message : String)
  /-- An error of `node:crypto`, or of `decodeKey`. -/
  | crypto (message : String)
  | prisma (code : PrismaErrorCode)
  deriving DecidableEq, Repr

/-- `error.message`, where the model keeps it. -/
def Thrown.message : Thrown → Option String
  | .validation message => some message
  | .crypto message => some message
  | .prisma _ => none

/-- The headers of `SignedWebhookRequest` (webhook-payload.ts, lines 24–32). -/
structure WebhookHeaders where
  signature : String
  timestamp : String
  eventId : String
  contentType : String
  deriving DecidableEq, Repr

/-- The arguments of `fetchImpl`. -/
structure FetchRequest where
  url : String
  method : String
  headers : WebhookHeaders
  body : String
  redirect : String
  deriving DecidableEq, Repr

/-- The two queues. -/
inductive QueueName where
  | dispatch | retry
  deriving DecidableEq, Repr

/-- A delivery that is about to be attempted; `attempt` is its number. -/
structure Attempt where
  queue : QueueName
  deliveryId : String
  eventId : String
  endpointId : String
  attempt : ℤ
  deriving DecidableEq, Repr

/-- Points of the code that the trace records besides its requests; they have no effect. -/
inductive Mark where
  /-- `deliverWebhook` is about to be called. -/
  | delivering (a : Attempt)
  /-- `assertSafeWebhookUrl` has returned in the delivery. -/
  | accepted (deliveryId secretEnc : String)
  /-- The loop over the endpoints of the event has ended. -/
  | fannedOut (eventId : String)
  deriving DecidableEq, Repr

/-- A request of the queues. -/
inductive Op where
  | db (call : WebhookCall)
  /-- `Date.now()` or `new Date()`. -/
  | now
  /-- `Math.random()`. -/
  | random
  /-- `generateId(prefix)`. -/
  | generateId (stem : String)
  /-- `lookup(hostname, { all: true })` of `node:dns/promises`. -/
  | lookup (hostname : String)
  /-- `fetch`; `deliveryId` names the row that the request is for and is not part of it. -/
  | fetch (deliveryId : String) (request : FetchRequest)
  | mark (m : Mark)
  deriving DecidableEq, Repr

/-- The requests with their replies. A lookup that rejects answers `none`; a fetch that rejects
    answers the message, if what it throws is an `Error`. -/
abbrev calls : Signature where
  Op := Op
  Ret
    | .db call => Except PrismaErrorCode call.Ret
    | .now => Time
    | .random => ℚ
    | .generateId _ => String
    | .lookup _ => Option (List String)
    | .fetch .. => Except (Option String) ℤ
    | .mark _ => Unit

/-- An asynchronous function of the worker. -/
abbrev Action (α : Type) := Prog calls Thrown α

/-- `await prisma.…`. -/
def prisma (call : WebhookCall) : Action call.Ret :=
  .request (S := calls) (.db call) (Except.mapError Thrown.prisma)

def dateNow : Action Time := .perform (S := calls) .now

def random : Action ℚ := .perform (S := calls) .random

def generateId (stem : String) : Action String := .perform (S := calls) (.generateId stem)

def lookup (hostname : String) : Action (Option (List String)) :=
  .perform (S := calls) (.lookup hostname)

def fetch (deliveryId : String) (request : FetchRequest) : Action (Except (Option String) ℤ) :=
  .perform (S := calls) (.fetch deliveryId request)

def mark (m : Mark) : Action Unit := .perform (S := calls) (.mark m)

/-! ## The world that answers -/

/-- The database and the clock. -/
structure World where
  db : WebhookDb
  clock : Time

/-- What a request leaves open. -/
inductive Input where
  | ok
  /-- The Prisma call does not reach the database. -/
  | connectionError
  /-- The Prisma call takes effect, but its reply does not arrive. -/
  | lostReply
  /-- The random part of a generated id. -/
  | id (suffix : String)
  | random (r : ℚ)
  | addresses (reply : Option (List String))
  | response (reply : Except (Option String) ℤ)

/-- What may happen between requests. -/
inductive Act where
  | clock (t : Time)
  | storeEvent (e : WebhookEvent)
  | storeEndpoint (p : WebhookEndpoint)
  | enableEndpoint (id : String)
  /-- `WebhookEndpointsService.revoke` at time `t`. -/
  | revokeEndpoint (id : String) (t : Time)
  | reorderEvents (rows : List WebhookEvent)
  | reorderEndpoints (rows : List WebhookEndpoint)
  | reorderDeliveries (rows : List WebhookDelivery)

/-- The reply to a request, and the world after it. -/
def respond (w : World) : (op : Op) → Input → Option (calls.Ret op × World)
  | .db call, .ok =>
    some ((call.exec w.clock w.db).1, { w with db := (call.exec w.clock w.db).2 })
  | .db _, .connectionError => some (.error .connection, w)
  | .db call, .lostReply =>
    some (.error .connection, { w with db := (call.exec w.clock w.db).2 })
  | .now, .ok => some (w.clock, w)
  | .random, .random r => if 0 ≤ r ∧ r < 1 then some (r, w) else none
  | .generateId stem, .id suffix => some (stem ++ "_" ++ suffix, w)
  | .lookup _, .addresses reply => some (reply, w)
  | .fetch .., .response reply => some (reply, w)
  | .mark _, .ok => some ((), w)
  | _, _ => none

/-- An act of the environment. -/
def environment (w : World) : Act → Option World
  | .clock t => some { w with clock := t }
  | .storeEvent e =>
    (w.db.webhookEvents.insert? e).map fun t => { w with db := { w.db with webhookEvents := t } }
  | .storeEndpoint p =>
    (w.db.webhookEndpoints.insert? p).map fun t =>
      { w with db := { w.db with webhookEndpoints := t } }
  | .enableEndpoint id =>
    some { w with db := { w.db with
      webhookEndpoints := w.db.webhookEndpoints.modify id
        (fun p => { p with enabled := true, revokedAt := none }) fun _ => rfl } }
  | .revokeEndpoint id t =>
    some { w with db := { w.db with
      webhookEndpoints := w.db.webhookEndpoints.modify id
        (fun p => { p with enabled := false, revokedAt := some t }) fun _ => rfl } }
  | .reorderEvents rows =>
    if h : rows.Perm w.db.webhookEvents.rows then
      some { w with db := { w.db with webhookEvents := w.db.webhookEvents.reorder rows h } }
    else none
  | .reorderEndpoints rows =>
    if h : rows.Perm w.db.webhookEndpoints.rows then
      some { w with db := { w.db with webhookEndpoints := w.db.webhookEndpoints.reorder rows h } }
    else none
  | .reorderDeliveries rows =>
    if h : rows.Perm w.db.webhookDeliveries.rows then
      some { w with db := { w.db with
        webhookDeliveries := w.db.webhookDeliveries.reorder rows h } }
    else none

/-- The machine that the queues run on. -/
def machine : Machine calls World Input Act where
  respond _ := respond
  env := environment
  restarts _ := false

/-! ## What one reply can be -/

section Replies

variable {w w' : World} {i : Input}

/-- A Prisma call that resolves was executed. -/
theorem respond_db_ok {call : WebhookCall} {a : call.Ret}
    (h : respond w (.db call) i = some (.ok a, w')) :
    call.exec w.clock w.db = (.ok a, w'.db) ∧ w' = { w with db := w'.db } := by
  cases i with
  | ok =>
    obtain ⟨hr, rfl⟩ := Prod.mk.inj (Option.some.inj h)
    exact ⟨Prod.ext hr rfl, rfl⟩
  | connectionError => cases h
  | lostReply => cases h
  | id s => cases h
  | random r => cases h
  | addresses r => cases h
  | response r => cases h

/-- A Prisma call that rejects was refused, did not arrive, or lost its reply. -/
theorem respond_db_error {call : WebhookCall} {code : PrismaErrorCode}
    (h : respond w (.db call) i = some (.error code, w')) :
    call.exec w.clock w.db = (.error code, w'.db) ∧ w' = { w with db := w'.db } ∨
      code = .connection ∧ (w' = w ∨ w' = { w with db := (call.exec w.clock w.db).2 }) := by
  cases i with
  | ok =>
    obtain ⟨hr, rfl⟩ := Prod.mk.inj (Option.some.inj h)
    exact .inl ⟨Prod.ext hr rfl, rfl⟩
  | connectionError =>
    cases h
    exact .inr ⟨rfl, .inl rfl⟩
  | lostReply =>
    cases h
    exact .inr ⟨rfl, .inr rfl⟩
  | id s => cases h
  | random r => cases h
  | addresses r => cases h
  | response r => cases h

/-- Only writes change the world. -/
def Op.Reads : Op → Prop
  | .db (.deliveryCreate _) => False
  | .db (.deliveryUpdate ..) => False
  | _ => True

theorem respond_reads {op : Op} (hop : op.Reads) {r : calls.Ret op}
    (h : respond w op i = some (r, w')) : w' = w := by
  cases op with
  | db call =>
    cases call with
    | eventFindMany take => cases i <;> cases h <;> rfl
    | deliveryFindMany lte take => cases i <;> cases h <;> rfl
    | deliveryCreate d => exact hop.elim
    | deliveryUpdate id u => exact hop.elim
  | now =>
    cases i <;> cases h
    rfl
  | random =>
    cases i with
    | random q =>
      simp only [respond] at h
      split_ifs at h
      cases h
      rfl
    | _ => cases h
  | generateId stem =>
    cases i <;> cases h
    rfl
  | lookup hostname =>
    cases i <;> cases h
    rfl
  | fetch id request =>
    cases i <;> cases h
    rfl
  | mark m =>
    cases i <;> cases h
    rfl

theorem respond_random {r : ℚ} (h : respond w .random i = some (r, w')) : 0 ≤ r ∧ r < 1 := by
  cases i with
  | random q =>
    simp only [respond] at h
    split_ifs at h with hq
    cases h
    exact hq
  | _ => cases h

end Replies

/-! ## What the environment may do -/

/-- What an act of the environment leaves as it is. -/
structure Untouched (w w' : World) : Prop where
  deliveries : ∀ d, d ∈ w'.db.webhookDeliveries ↔ d ∈ w.db.webhookDeliveries
  events : ∀ e ∈ w.db.webhookEvents, e ∈ w'.db.webhookEvents
  endpoints : ∀ p ∈ w.db.webhookEndpoints, ∃ p' ∈ w'.db.webhookEndpoints, p'.id = p.id ∧
    p'.organizationId = p.organizationId ∧ p'.url = p.url ∧ p'.secretEnc = p.secretEnc

theorem Untouched.refl (w : World) : Untouched w w :=
  ⟨fun _ => Iff.rfl, fun _ h => h, fun p h => ⟨p, h, rfl, rfl, rfl, rfl⟩⟩

theorem Untouched.trans {w₁ w₂ w₃ : World} (h : Untouched w₁ w₂) (h' : Untouched w₂ w₃) :
    Untouched w₁ w₃ where
  deliveries d := (h'.deliveries d).trans (h.deliveries d)
  events e he := h'.events e (h.events e he)
  endpoints p hp := by
    obtain ⟨p₂, hp₂, hid, horg, hurl, hsec⟩ := h.endpoints p hp
    obtain ⟨p₃, hp₃, hid', horg', hurl', hsec'⟩ := h'.endpoints p₂ hp₂
    exact ⟨p₃, hp₃, hid'.trans hid, horg'.trans horg, hurl'.trans hurl, hsec'.trans hsec⟩

/-- Rewriting the `enabled` flag of an endpoint. -/
theorem untouched_modify (w : World) (id : String) (f : WebhookEndpoint → WebhookEndpoint)
    (hid : ∀ p, (f p).id = p.id)
    (hf : ∀ p, (f p).organizationId = p.organizationId ∧ (f p).url = p.url ∧
      (f p).secretEnc = p.secretEnc) :
    Untouched w { w with db := { w.db with
      webhookEndpoints := w.db.webhookEndpoints.modify id f hid } } := by
  refine ⟨fun _ => Iff.rfl, fun _ h => h, fun p hp => ?_⟩
  refine ⟨if p.id = id then f p else p, ?_, ?_⟩
  · show _ ∈ w.db.webhookEndpoints.modify id f hid
    rw [Data.Table.mem_modify]
    exact ⟨p, hp, rfl⟩
  · split_ifs
    · exact ⟨hid p, hf p⟩
    · exact ⟨rfl, rfl, rfl, rfl⟩

theorem environment_untouched {w w' : World} {act : Act} (h : environment w act = some w') :
    Untouched w w' := by
  cases act with
  | clock t =>
    cases h
    exact ⟨fun _ => Iff.rfl, fun _ h => h, fun p h => ⟨p, h, rfl, rfl, rfl, rfl⟩⟩
  | storeEvent e =>
    obtain ⟨t, ht, rfl⟩ := Option.map_eq_some_iff.mp h
    have hmem := (Data.Table.insert?_eq_some ht).2
    exact ⟨fun _ => Iff.rfl, fun e he => (hmem e).mpr (.inr he),
      fun p hp => ⟨p, hp, rfl, rfl, rfl, rfl⟩⟩
  | storeEndpoint p =>
    obtain ⟨t, ht, rfl⟩ := Option.map_eq_some_iff.mp h
    have hmem := (Data.Table.insert?_eq_some ht).2
    exact ⟨fun _ => Iff.rfl, fun _ h => h,
      fun p hp => ⟨p, (hmem p).mpr (.inr hp), rfl, rfl, rfl, rfl⟩⟩
  | enableEndpoint id =>
    cases h
    exact untouched_modify w id _ _ fun _ => ⟨rfl, rfl, rfl⟩
  | revokeEndpoint id t =>
    cases h
    exact untouched_modify w id _ _ fun _ => ⟨rfl, rfl, rfl⟩
  | reorderEvents rows =>
    simp only [environment] at h
    split_ifs at h with hp
    cases h
    exact ⟨fun _ => Iff.rfl, fun _ he => (Data.Table.mem_reorder (h := hp)).mpr he,
      fun p hp => ⟨p, hp, rfl, rfl, rfl, rfl⟩⟩
  | reorderEndpoints rows =>
    simp only [environment] at h
    split_ifs at h with hp
    cases h
    exact ⟨fun _ => Iff.rfl, fun _ h => h,
      fun p hmem => ⟨p, (Data.Table.mem_reorder (h := hp)).mpr hmem, rfl, rfl, rfl, rfl⟩⟩
  | reorderDeliveries rows =>
    simp only [environment] at h
    split_ifs at h with hp
    cases h
    exact ⟨fun _ => DeliveryTable.mem_reorder (h := hp), fun _ h => h,
      fun p hp => ⟨p, hp, rfl, rfl, rfl, rfl⟩⟩

end CryptoPay.Webhooks
