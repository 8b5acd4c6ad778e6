import CryptoPay.Api.Invoices
import CryptoPay.Api.Schemas
import CryptoPay.Async.Embedding
import CryptoPay.Shared.Encryption
import CryptoPay.Tenancy.Tables
import CryptoPay.Webhooks.Queues

/-!
# The services that work on an organization's objects

`InvoicesService`, `WalletAddressesService`, `WebhookEndpointsService` and
`ApiKeysService` of `apps/api/src`, behind `ApiKeyAuthGuard` or
`OrganizationScopeGuard`. What a request does is one of the `Operation`s.
`workload` runs them beside the two webhook queues and beside any other programs
over the payment tables: the scan and confirm workers, or the ticks of fake mode.

`RolesGuard`, `ScopesGuard` and `CsrfGuard` only refuse requests and are left
out. The two queries of `Promise.all` are awaited one after the other.
-/

namespace CryptoPay.Tenancy

open Async Data

open Api (RequestContext RecordAuditEventInput CreateInvoiceInput SetWalletAddressInput
  BlockchainMode)

open Organizations (Scope MembershipTable)

variable {A : Signature} {ω ι η κ : Type}

/-- A request of the services, of the payment programs or of the webhook queues. -/
inductive Op (A : Signature) where
  | payments (op : CryptoPay.Op A)
  | webhooks (op : Webhooks.Op)
  | db (call : ObjectCall)
  /-- `randomBytes(size)` of `node:crypto`. -/
  | randomBytes (size : ℕ)

/-- The requests with their replies. -/
abbrev calls (A : Signature) : Signature where
  Op := Op A
  Ret
    | .payments op => (effects A).Ret op
    | .webhooks op => Webhooks.calls.Ret op
    | .db call => Except PrismaErrorCode call.Ret
    | .randomBytes _ => List UInt8

/-- What is thrown: an error of the application, or one of `node:crypto`. -/
inductive Thrown where
  | app (e : Error)
  | crypto (message : String)
  deriving DecidableEq, Repr

/-- The errors of the webhook package. -/
def Thrown.ofWebhooks : Webhooks.Thrown → Thrown
  | .validation message => .app (.validation message)
  | .crypto message => .crypto message
  | .prisma code => .app (.prisma code)

abbrev Action (A : Signature) (α : Type) := Prog (calls A) Thrown α

/-- The requests of the payment programs among all. -/
def paymentCalls (A : Signature) : (effects A).Hom (calls A) := ⟨.payments, fun _ r => r⟩

/-- The requests of the webhook programs among all. -/
def webhookCalls (A : Signature) : Webhooks.calls.Hom (calls A) := ⟨.webhooks, fun _ r => r⟩

/-- A function of the payment services. -/
def ofPayments {α : Type} (p : CryptoPay.Action A α) : Action A α :=
  (p.embed (paymentCalls A)).rethrow .app

/-- A function of the webhook package. -/
def ofWebhooks {α : Type} (p : Webhooks.Action α) : Action A α :=
  (p.embed (webhookCalls A)).rethrow .ofWebhooks

/-- `await prisma.…`. -/
def prisma (call : ObjectCall) : Action A call.Ret :=
  .request (S := calls A) (.db call) (Except.mapError fun code => .app (.prisma code))

def dateNow : Action A Time := ofPayments CryptoPay.dateNow

def generateId (stem : String) : Action A String := ofPayments (CryptoPay.generateId stem)

def cuid : Action A String := ofPayments CryptoPay.cuid

/-- `AuditService.record`. -/
def record (input : RecordAuditEventInput) : Action A Unit := ofPayments (Api.record input)

def randomBytes (size : ℕ) : Action A (List UInt8) := .perform (S := calls A) (.randomBytes size)

/-- What the API is configured with, and the functions of Node that it calls. -/
structure Config (A : Signature) where
  mode : BlockchainMode
  adapter : BlockchainAdapter A
  cipher : Cipher
  /-- `new URL(rawUrl).toString()`. -/
  href : String → String
  /-- `buffer.toString('base64url')`. -/
  toBase64Url : List UInt8 → String
  ENCRYPTION_KEY : String
  API_KEY_PEPPER : String

/-! ## crypto -/

/-- `keyPrefix` (api-key.ts, lines 19–21). -/
def keyPrefix (environment : ApiKeyEnvironment) : String := "cp_" ++ environment.toString ++ "_"

/-- `GeneratedApiKey` (api-key.ts, lines 9–17). -/
structure GeneratedApiKey where
  raw : String
  stem : String
  hash : String
  environment : ApiKeyEnvironment
  deriving DecidableEq, Repr

/-- `hashApiKey` (api-key.ts, lines 37–39). -/
def hashApiKey (C : Config A) (raw : String) : String :=
  C.cipher.hmacSha256Hex raw C.API_KEY_PEPPER

/-- `generateApiKey` (api-key.ts, lines 26–35). -/
def generateApiKey (C : Config A) (environment : ApiKeyEnvironment) : Action A GeneratedApiKey := do
  let bytes ← randomBytes 24
  let raw := keyPrefix environment ++ C.toBase64Url bytes
  return ⟨raw, String.ofList (raw.toList.take 12), hashApiKey C raw, environment⟩

/-- `parseApiKeyEnvironment` (api-key.ts, lines 46–50). -/
def parseApiKeyEnvironment (raw : String) : Option ApiKeyEnvironment :=
  if (keyPrefix .live).toList.isPrefixOf raw.toList then some .live
  else if (keyPrefix .test).toList.isPrefixOf raw.toList then some .test
  else none

/-- `generateWebhookSecret` (webhook-secret.ts, lines 12–14). -/
def generateWebhookSecret (C : Config A) : Action A String := do
  let bytes ← randomBytes 24
  return "whsec_" ++ C.toBase64Url bytes

/-- `encryptSecret` (encryption.ts, lines 13–20). -/
def encrypt (C : Config A) (plaintext : String) : Action A String := do
  let iv ← randomBytes 12
  .ofExcept ((encryptSecret C.cipher iv plaintext C.ENCRYPTION_KEY).mapError .ofWebhooks)

/-! ## InvoicesService -/

namespace Invoices

/-- `create` (invoices.service.ts, lines 23–82). -/
def create (C : Config A) (organizationId apiKeyId : String) (input : CreateInvoiceInput)
    (ctx : RequestContext) : Action A Invoice :=
  ofPayments (Api.create C.mode organizationId apiKeyId input ctx)

/-- `getById` (invoices.service.ts, lines 88–94). -/
def getById (organizationId invoiceId : String) : Action A Invoice := do
  match ← ofPayments (CryptoPay.prisma (.invoiceFindFirst invoiceId organizationId)) with
  | some invoice => return invoice
  | none => .throw (.app (.notFound "Invoice not found"))

/-- `list` (invoices.service.ts, lines 97–111); `page` counts from one. -/
def list (organizationId : String) (page limit : ℕ) : Action A (List Invoice × ℕ) := do
  let data ← prisma (.invoiceFindPage organizationId ((page - 1) * limit) limit)
  let total ← prisma (.invoiceCount organizationId)
  return (data, total)

end Invoices

/-! ## WalletAddressesService -/

namespace WalletAddresses

/-- `list` (wallet-addresses.service.ts, lines 28–33). -/
def list (organizationId : String) : Action A (List MerchantWalletAddress) :=
  prisma (.merchantWalletAddressFindMany organizationId)

/-- `set` (wallet-addresses.service.ts, lines 35–64). -/
def set (C : Config A) (organizationId userId : String) (input : SetWalletAddressInput)
    (ctx : RequestContext) : Action A MerchantWalletAddress :=
  ofPayments (Api.set C.adapter organizationId userId input ctx)

end WalletAddresses

/-! ## WebhookEndpointsService -/

/-- `Actor` (webhook-endpoints.service.ts, lines 26–29); `type` is `user` or `api_key`. -/
structure Actor where
  id : String
  type : String
  deriving DecidableEq, Repr

/-- What the services record of an action on an object. -/
def objectEvent (organizationId : String) (actor : Actor) (action resourceType resourceId : String)
    (metadata : Option (List (String × String))) (ctx : RequestContext) : RecordAuditEventInput where
  organizationId := some organizationId
  actorId := some actor.id
  actorType := actor.type
  action := action
  resourceType := resourceType
  resourceId := some resourceId
  metadata := metadata
  ip := some ctx.ip
  userAgent := ctx.userAgent

namespace WebhookEndpoints

/-- `create` (webhook-endpoints.service.ts, lines 39–68). -/
def create (C : Config A) (organizationId : String) (actor : Actor) (rawUrl : String)
    (ctx : RequestContext) : Action A (Webhooks.WebhookEndpoint × String) := do
  let _ ← ofWebhooks (Webhooks.assertSafeWebhookUrl C.cipher.toPlatform rawUrl)
  let secret ← generateWebhookSecret C
  let id ← generateId "we"
  let secretEnc ← encrypt C secret
  let endpoint ← prisma (.webhookEndpointCreate ⟨id, organizationId, C.href rawUrl, secretEnc⟩)
  record (objectEvent organizationId actor "webhook_endpoint.create" "webhook_endpoint"
    (Webhooks.WebhookEndpoint.id endpoint) none ctx)
  return (endpoint, secret)

/-- `list` (webhook-endpoints.service.ts, lines 70–75). -/
def list (organizationId : String) : Action A (List Webhooks.WebhookEndpoint) :=
  prisma (.webhookEndpointFindMany organizationId)

/-- `revoke` (webhook-endpoints.service.ts, lines 78–100). -/
def revoke (organizationId endpointId : String) (actor : Actor) (ctx : RequestContext) :
    Action A Unit := do
  match ← prisma (.webhookEndpointFindFirst endpointId organizationId) with
  | none => .throw (.app (.notFound "Webhook endpoint not found"))
  | some endpoint =>
    let now ← dateNow
    prisma (.webhookEndpointRevoke endpoint.id now)
    record (objectEvent organizationId actor "webhook_endpoint.revoke" "webhook_endpoint"
      endpoint.id none ctx)

/-- `listDeliveries` (webhook-endpoints.service.ts, lines 107–121). -/
def listDeliveries (organizationId endpointId : String) (limit : ℕ) :
    Action A (List DeliveryWithEvent) := do
  match ← prisma (.webhookEndpointFindFirst endpointId organizationId) with
  | none => .throw (.app (.notFound "Webhook endpoint not found"))
  | some _ => prisma (.webhookDeliveryFindMany endpointId limit)

end WebhookEndpoints

/-! ## ApiKeysService -/

/-- `CreateApiKeyInput` (api-key.schemas.ts). -/
structure CreateApiKeyInput where
  name : String
  environment : ApiKeyEnvironment
  scopes : List String
  deriving DecidableEq, Repr

namespace ApiKeys

/-- `create` (api-keys.service.ts, lines 25–56). The array in the metadata is kept as its items
    with commas between them. -/
def create (C : Config A) (organizationId : String) (input : CreateApiKeyInput) (actorId : String)
    (ctx : RequestContext) : Action A (ApiKey × String) := do
  let generated ← generateApiKey C input.environment
  let id ← cuid
  let apiKey ← prisma (.apiKeyCreate {
    id := id
    organizationId := organizationId
    name := input.name
    environment := input.environment
    keyPrefix := generated.stem
    keyHash := generated.hash
    scopes := input.scopes })
  record (objectEvent organizationId ⟨actorId, "user"⟩ "api_key.create" "api_key" (ApiKey.id apiKey)
    (some [("environment", input.environment.toString), ("scopes", ",".intercalate input.scopes)])
    ctx)
  return (apiKey, generated.raw)

/-- `list` (api-keys.service.ts, lines 58–63). -/
def list (organizationId : String) : Action A (List ApiKey) := prisma (.apiKeyFindMany organizationId)

/-- `revoke` (api-keys.service.ts, lines 70–92). -/
def revoke (organizationId apiKeyId actorId : String) (ctx : RequestContext) : Action A Unit := do
  match ← prisma (.apiKeyFindFirst apiKeyId organizationId) with
  | none => .throw (.app (.notFound "API key not found"))
  | some apiKey =>
    let now ← dateNow
    prisma (.apiKeyUpdate apiKey.id { revokedAt := some now })
    record (objectEvent organizationId ⟨actorId, "user"⟩ "api_key.revoke" "api_key" apiKey.id none
      ctx)

end ApiKeys

/-! ## The guards -/

/-- Whether the key may no longer be used at `now` (api-key-auth.guard.ts, line 38). -/
def ApiKey.ended (k : ApiKey) (now : Time) : Bool :=
  k.revokedAt.isSome || k.expiresAt.any (· < now)

/-- The key that the header carries (api-key-auth.guard.ts, lines 22–32). -/
def bearerKey (authorization : Option String) : Except Error String :=
  let header := (authorization.getD "").toList
  if !"Bearer ".toList.isPrefixOf header then .error (.unauthorized "Missing API key")
  else
    let raw := Api.trim (String.ofList (header.drop 7))
    if (parseApiKeyEnvironment raw).isNone then .error (.unauthorized "Malformed API key")
    else .ok raw

/-- `ApiKeyAuthGuard.canActivate` up to its answer (api-key-auth.guard.ts, lines 20–44). -/
def apiKeyAuth (C : Config A) (authorization : Option String) : Action A ApiKey := do
  let raw ← (.ofExcept ((bearerKey authorization).mapError .app) : Action A String)
  match ← prisma (.apiKeyFindUnique (hashApiKey C raw)) with
  | none => .throw (.app (.unauthorized "Invalid or revoked API key"))
  | some apiKey =>
    let now ← dateNow
    if ApiKey.ended apiKey now then .throw (.app (.unauthorized "Invalid or revoked API key"))
    else return apiKey

/-- The update that the guard starts and does not wait for (api-key-auth.guard.ts, lines 46–48).
    It runs beside the handler, so it is a program of its own. -/
def touchLastUsed (C : Config A) (authorization : Option String) : Action A Unit := do
  let apiKey ← apiKeyAuth C authorization
  let now ← dateNow
  let _ ← (prisma (.apiKeyUpdate apiKey.id { lastUsedAt := some now })).attempt
  return ()

/-- `OrganizationScopeGuard.canActivate` (organization-scope.guard.ts, lines 15–53). -/
def organizationScope (userId headerOrgId : Option String) : Action A Scope :=
  if userId.getD "" = "" then .throw (.app (.unauthorized "Authentication required"))
  else do
    let memberships ← prisma (.membershipFindMany (userId.getD ""))
    .ofExcept ((Organizations.scopeOf headerOrgId memberships).mapError .app)

/-- Who sends a request: the holder of an API key, or a user of the dashboard. -/
inductive Caller where
  | apiKey (authorization : Option String)
  | user (userId headerOrgId : Option String)
  deriving DecidableEq, Repr

/-- The guard of the route: the organization that the request is for. -/
def guard (C : Config A) : Caller → Action A String
  | .apiKey authorization => do
    let apiKey ← apiKeyAuth C authorization
    return apiKey.organizationId
  | .user userId headerOrgId => do
    let scope ← organizationScope userId headerOrgId
    return scope.organizationId

/-! ## The operations -/

/-- A method of the four services, with the arguments that the client supplies. -/
inductive Operation where
  | createInvoice (apiKeyId : String) (input : CreateInvoiceInput) (ctx : RequestContext)
  | getInvoice (invoiceId : String)
  | listInvoices (page limit : ℕ)
  | listWalletAddresses
  | setWalletAddress (userId : String) (input : SetWalletAddressInput) (ctx : RequestContext)
  | createEndpoint (actor : Actor) (rawUrl : String) (ctx : RequestContext)
  | listEndpoints
  | revokeEndpoint (endpointId : String) (actor : Actor) (ctx : RequestContext)
  | listDeliveries (endpointId : String) (limit : ℕ)
  | createApiKey (input : CreateApiKeyInput) (actorId : String) (ctx : RequestContext)
  | listApiKeys
  | revokeApiKey (apiKeyId actorId : String) (ctx : RequestContext)

/-- What the method resolves to. -/
def Operation.Ret : Operation → Type
  | .createInvoice .. => Invoice
  | .getInvoice _ => Invoice
  | .listInvoices .. => List Invoice × ℕ
  | .listWalletAddresses => List MerchantWalletAddress
  | .setWalletAddress .. => MerchantWalletAddress
  | .createEndpoint .. => Webhooks.WebhookEndpoint × String
  | .listEndpoints => List Webhooks.WebhookEndpoint
  | .revokeEndpoint .. => Unit
  | .listDeliveries .. => List DeliveryWithEvent
  | .createApiKey .. => ApiKey × String
  | .listApiKeys => List ApiKey
  | .revokeApiKey .. => Unit

/-- The method, for an organization. -/
def Operation.run (C : Config A) (organizationId : String) : (o : Operation) → Action A o.Ret
  | .createInvoice apiKeyId input ctx => Invoices.create C organizationId apiKeyId input ctx
  | .getInvoice invoiceId => Invoices.getById organizationId invoiceId
  | .listInvoices page limit => Invoices.list organizationId page limit
  | .listWalletAddresses => WalletAddresses.list organizationId
  | .setWalletAddress userId input ctx => WalletAddresses.set C organizationId userId input ctx
  | .createEndpoint actor rawUrl ctx => WebhookEndpoints.create C organizationId actor rawUrl ctx
  | .listEndpoints => WebhookEndpoints.list organizationId
  | .revokeEndpoint endpointId actor ctx =>
    WebhookEndpoints.revoke organizationId endpointId actor ctx
  | .listDeliveries endpointId limit =>
    WebhookEndpoints.listDeliveries organizationId endpointId limit
  | .createApiKey input actorId ctx => ApiKeys.create C organizationId input actorId ctx
  | .listApiKeys => ApiKeys.list organizationId
  | .revokeApiKey apiKeyId actorId ctx => ApiKeys.revoke organizationId apiKeyId actorId ctx

/-! ## The jobs -/

/-- What may run. -/
inductive Job (κ : Type) where
  | request (caller : Caller) (operation : Operation)
  | touch (authorization : Option String)
  | payments (job : κ)
  | webhooks (queue : Webhooks.QueueName)

instance : Inhabited (Job κ) := ⟨.webhooks .dispatch⟩

/-- The program of a job; `W` has the programs over the payment tables. -/
def launch (C : Config A) (W : Workload (effects A) Error κ) : Job κ → Action A Unit
  | .request caller operation => do
    let organizationId ← guard C caller
    let _ ← operation.run C organizationId
    return ()
  | .touch authorization => touchLastUsed C authorization
  | .payments job => ofPayments (W.launch job)
  | .webhooks queue => ofWebhooks (Webhooks.launch C.cipher.toPlatform C.ENCRYPTION_KEY queue)

/-- Any number of them in flight. -/
def workload (C : Config A) (W : Workload (effects A) Error κ) :
    Workload (calls A) Thrown (Job κ) where
  launch := launch C W
  compatible _ _ := true
  symm _ _ := rfl

/-! ## The machine -/

/-- The tables, the clock, and the state behind `A`. -/
structure State (ω : Type) where
  db : Database
  clock : Time
  other : ω

/-- The state as the payment programs see it. -/
def State.payments (s : State ω) : World ω := ⟨s.db.payments, s.clock, s.other⟩

/-- The state after the payment programs have changed theirs. -/
def State.setPayments (s : State ω) (w : World ω) : State ω :=
  ⟨{ s.db with payments := w.db }, w.clock, w.other⟩

/-- What a request leaves open. -/
inductive Input (ι : Type) where
  | payments (i : CryptoPay.Input ι)
  | webhooks (i : Webhooks.Input)
  | ok
  /-- The Prisma call does not reach the database. -/
  | connectionError
  /-- The Prisma call takes effect, but its reply does not arrive. -/
  | lostReply
  | bytes (bytes : List UInt8)

/-- The reply to a request, and the state after it. -/
def respond (B : Backend A ω ι η) (pid : ℕ) (s : State ω) :
    (op : Op A) → Input ι → Option ((calls A).Ret op × State ω)
  | .payments op, .payments i =>
    (CryptoPay.respond B pid s.payments op i).map fun (r, w) => (r, s.setPayments w)
  | .webhooks op, .webhooks i =>
    (Webhooks.respond ⟨s.db.webhooks, s.clock⟩ op i).map fun (r, w) =>
      (r, { s with db := s.db.setWebhooks w.db })
  | .db call, .ok =>
    some ((call.exec s.clock s.db).1, { s with db := (call.exec s.clock s.db).2 })
  | .db _, .connectionError => some (.error .connection, s)
  | .db call, .lostReply =>
    some (.error .connection, { s with db := (call.exec s.clock s.db).2 })
  | .randomBytes _, .bytes bytes => some (bytes, s)
  | _, _ => none

/-- What may happen between requests. -/
inductive Act (η : Type) where
  | payments (act : CryptoPay.Act η)
  /-- `OrganizationsService` changes the memberships. -/
  | memberships (rows : MembershipTable)
  | reorderEndpoints (rows : List Webhooks.WebhookEndpoint)
  | reorderDeliveries (rows : List Webhooks.WebhookDelivery)
  | reorderApiKeys (rows : List ApiKey)

/-- An act of the environment. -/
def environment (B : Backend A ω ι η) (s : State ω) : Act η → Option (State ω)
  | .payments act => (CryptoPay.environment B s.payments act).map s.setPayments
  | .memberships rows => some { s with db := { s.db with memberships := rows } }
  | .reorderEndpoints rows =>
    if h : rows.Perm s.db.webhookEndpoints.rows then
      some { s with db := { s.db with webhookEndpoints := s.db.webhookEndpoints.reorder rows h } }
    else none
  | .reorderDeliveries rows =>
    if h : rows.Perm s.db.webhookDeliveries.rows then
      some { s with db := { s.db with webhookDeliveries := s.db.webhookDeliveries.reorder rows h } }
    else none
  | .reorderApiKeys rows =>
    if h : rows.Perm s.db.apiKeys.rows then
      some { s with db := { s.db with apiKeys := s.db.apiKeys.reorder rows h } }
    else none

/-- The machine that everything runs on. -/
def machine (B : Backend A ω ι η) : Machine (calls A) (State ω) (Input ι) (Act η) where
  respond := respond B
  env := environment B
  restarts
    | .payments act => (CryptoPay.machine B).restarts act
    | _ => false

/-- The requests answered so far, newest first. -/
abbrev Requests (A : Signature) := List (Event (calls A))

/-- No delivery is stored yet. -/
def Undelivered (s : State ω) : Prop := ∀ d, d ∉ s.db.webhookDeliveries

end CryptoPay.Tenancy
