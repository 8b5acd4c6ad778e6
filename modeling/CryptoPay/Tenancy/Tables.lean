import CryptoPay.Blockchain.Adapter
import CryptoPay.Organizations.OrganizationsService
import CryptoPay.Webhooks.Tables

/-!
# The tables of the organizations

The payment tables, the webhook tables, `ApiKey` and `Membership` of
`packages/database/prisma/schema.prisma` in one `Database`, and the queries of
`webhook-endpoints.service.ts`, `api-keys.service.ts`,
`wallet-addresses.service.ts`, `invoices.service.ts` and of the two guards that
`PrismaCall` and `WebhookCall` do not have. A table is a list of rows, and a
`findMany` that orders by `createdAt` leaves rows of one time in the order of
the list.

Results:
* `ApiKeyTable.insert?_eq_some`, `ApiKeyTable.mem_modify`: the two writes of the
  table with two unique columns.
-/

namespace CryptoPay.Tenancy

open Data Webhooks

open Organizations (MembershipRow MembershipTable Scope)

/-- `enum ApiKeyEnvironment`. -/
inductive ApiKeyEnvironment where
  | test | live
  deriving DecidableEq, Repr

def ApiKeyEnvironment.toString : ApiKeyEnvironment → String
  | .test => "test"
  | .live => "live"

/-- `model ApiKey` (schema.prisma, lines 188–210). -/
structure ApiKey where
  id : String
  organizationId : String
  name : String
  environment : ApiKeyEnvironment
  keyPrefix : String
  keyHash : String
  scopes : List String
  lastUsedAt : Option Time
  expiresAt : Option Time
  revokedAt : Option Time
  createdAt : Time
  deriving DecidableEq, Repr

/-- API keys with their two unique columns. -/
structure ApiKeyTable extends Table ApiKey.id where
  uniqueHash : (rows.map ApiKey.keyHash).Nodup

namespace ApiKeyTable

variable {t t' : ApiKeyTable} {k : ApiKey}

instance : Membership ApiKey ApiKeyTable := ⟨fun t k => k ∈ t.toTable⟩

theorem mem_def : k ∈ t ↔ k ∈ t.rows := Iff.rfl

/-- The table without rows. -/
def empty : ApiKeyTable := ⟨.empty, List.nodup_nil⟩

/-- Add a row unless one of the two constraints refuses it. -/
def insert? (t : ApiKeyTable) (k : ApiKey) : Option ApiKeyTable :=
  if hh : k.keyHash ∈ t.rows.map ApiKey.keyHash then none
  else if hid : k.id ∈ t.rows.map ApiKey.id then none
  else some {
    rows := k :: t.rows
    nodup := by rw [List.map_cons]; exact List.nodup_cons.mpr ⟨hid, t.nodup⟩
    uniqueHash := by rw [List.map_cons]; exact List.nodup_cons.mpr ⟨hh, t.uniqueHash⟩ }

theorem insert?_eq_some (h : t.insert? k = some t') : t'.rows = k :: t.rows := by
  unfold insert? at h
  split_ifs at h
  rw [← Option.some.inj h]

/-- An insertion is refused only where one of the two columns is taken. -/
theorem insert?_eq_none (h : t.insert? k = none) :
    ∃ x ∈ t, x.keyHash = k.keyHash ∨ x.id = k.id := by
  unfold insert? at h
  split_ifs at h with hh hid
  · obtain ⟨x, hx, heq⟩ := List.mem_map.mp hh
    exact ⟨x, hx, .inl heq⟩
  · obtain ⟨x, hx, heq⟩ := List.mem_map.mp hid
    exact ⟨x, hx, .inr heq⟩

/-- Where one of the columns is taken, the insertion is refused. -/
theorem insert?_taken {x : ApiKey} (hx : x ∈ t) (h : x.keyHash = k.keyHash ∨ x.id = k.id) :
    t.insert? k = none := by
  unfold insert?
  rcases h with h | h
  · exact dif_pos (h ▸ List.mem_map_of_mem hx)
  · by_cases hh : k.keyHash ∈ t.rows.map ApiKey.keyHash
    · exact dif_pos hh
    · rw [dif_neg hh]
      exact dif_pos (h ▸ List.mem_map_of_mem hx)

/-- Rewrite the row with the given id; `f` keeps both unique columns. -/
def modify (t : ApiKeyTable) (id : String) (f : ApiKey → ApiKey) (hid : ∀ k, (f k).id = k.id)
    (hhash : ∀ k, (f k).keyHash = k.keyHash) : ApiKeyTable where
  toTable := t.toTable.modify id f hid
  uniqueHash := by
    have hkey : ApiKey.keyHash ∘ (fun k => if k.id = id then f k else k) = ApiKey.keyHash := by
      funext k
      simp only [Function.comp_apply]
      split_ifs
      · exact hhash k
      · rfl
    show ((t.rows.map fun k => if k.id = id then f k else k).map ApiKey.keyHash).Nodup
    rw [List.map_map, hkey]
    exact t.uniqueHash

/-- The same rows in another order. -/
def reorder (t : ApiKeyTable) (rows : List ApiKey) (h : rows.Perm t.rows) : ApiKeyTable :=
  ⟨t.toTable.reorder rows h, (h.map ApiKey.keyHash).nodup_iff.mpr t.uniqueHash⟩

end ApiKeyTable

/-- The tables. -/
structure Database where
  payments : Db
  webhookEndpoints : Table WebhookEndpoint.id
  webhookDeliveries : DeliveryTable
  apiKeys : ApiKeyTable
  memberships : MembershipTable

/-- The tables that the webhook queues see. -/
def Database.webhooks (db : Database) : WebhookDb :=
  ⟨db.payments.webhookEvents, db.webhookEndpoints, db.webhookDeliveries⟩

/-- The database after the webhook queues have written theirs. -/
def Database.setWebhooks (db : Database) (w : WebhookDb) : Database :=
  { db with
    payments := { db.payments with webhookEvents := w.webhookEvents }
    webhookEndpoints := w.webhookEndpoints
    webhookDeliveries := w.webhookDeliveries }

/-! ## Queries -/

/-- The `data` of `webhookEndpoint.create`; the other columns take their defaults. -/
structure EndpointCreateInput where
  id : String
  organizationId : String
  url : String
  secretEnc : String
  deriving DecidableEq, Repr

/-- The row that `webhookEndpoint.create` stores. -/
def EndpointCreateInput.row (now : Time) (d : EndpointCreateInput) : WebhookEndpoint where
  id := d.id
  organizationId := d.organizationId
  url := d.url
  enabled := true
  secretEnc := d.secretEnc
  revokedAt := none
  createdAt := now

/-- The `data` of `apiKey.create`, and the `cuid()` of the row. -/
structure ApiKeyCreateInput where
  id : String
  organizationId : String
  name : String
  environment : ApiKeyEnvironment
  keyPrefix : String
  keyHash : String
  scopes : List String
  deriving DecidableEq, Repr

/-- The row that `apiKey.create` stores. -/
def ApiKeyCreateInput.row (now : Time) (d : ApiKeyCreateInput) : ApiKey where
  id := d.id
  organizationId := d.organizationId
  name := d.name
  environment := d.environment
  keyPrefix := d.keyPrefix
  keyHash := d.keyHash
  scopes := d.scopes
  lastUsedAt := none
  expiresAt := none
  revokedAt := none
  createdAt := now

/-- The `data` of `apiKey.update`: absent fields are left as they are. -/
structure ApiKeyUpdateInput where
  lastUsedAt : Option Time := none
  revokedAt : Option Time := none
  deriving DecidableEq, Repr

/-- The row after `apiKey.update`. -/
def ApiKey.update (d : ApiKeyUpdateInput) (k : ApiKey) : ApiKey :=
  { k with
    lastUsedAt := d.lastUsedAt.orElse fun _ => k.lastUsedAt
    revokedAt := d.revokedAt.orElse fun _ => k.revokedAt }

/-- The row after `webhookEndpoint.update({ data: { enabled: false, revokedAt } })`. -/
def revokeEndpoint (revokedAt : Time) (p : WebhookEndpoint) : WebhookEndpoint :=
  { p with enabled := false, revokedAt := some revokedAt }

/-- `DeliveryWithEvent` (webhook-endpoints.service.ts, lines 14–17). -/
structure DeliveryWithEvent extends WebhookDelivery where
  eventType : String
  eventCreatedAt : Time
  deriving DecidableEq, Repr

/-- The awaited Prisma calls. -/
inductive ObjectCall where
  /-- `invoice.findMany({ where: { organizationId }, orderBy: { createdAt: 'desc' }, skip, take })`. -/
  | invoiceFindPage (organizationId : String) (skip take : ℕ)
  | invoiceCount (organizationId : String)
  | merchantWalletAddressFindMany (organizationId : String)
  | webhookEndpointCreate (data : EndpointCreateInput)
  | webhookEndpointFindMany (organizationId : String)
  /-- `webhookEndpoint.findFirst({ where: { id, organizationId } })`. -/
  | webhookEndpointFindFirst (id organizationId : String)
  /-- `webhookEndpoint.update({ where: { id }, data: { enabled: false, revokedAt } })`. -/
  | webhookEndpointRevoke (id : String) (revokedAt : Time)
  /-- `webhookDelivery.findMany({ where: { endpointId }, include: { event: … },
      orderBy: { createdAt: 'desc' }, take })`. -/
  | webhookDeliveryFindMany (endpointId : String) (take : ℕ)
  | apiKeyCreate (data : ApiKeyCreateInput)
  | apiKeyFindMany (organizationId : String)
  /-- `apiKey.findFirst({ where: { id, organizationId } })`. -/
  | apiKeyFindFirst (id organizationId : String)
  /-- `apiKey.findUnique({ where: { keyHash } })`. -/
  | apiKeyFindUnique (keyHash : String)
  /-- `apiKey.update({ where: { id }, data })`. -/
  | apiKeyUpdate (id : String) (data : ApiKeyUpdateInput)
  /-- `membership.findMany({ where: { userId }, select: { organizationId, role } })`. -/
  | membershipFindMany (userId : String)
  deriving DecidableEq, Repr

/-- What a call resolves to. -/
def ObjectCall.Ret : ObjectCall → Type
  | .invoiceFindPage .. => List Invoice
  | .invoiceCount _ => ℕ
  | .merchantWalletAddressFindMany _ => List MerchantWalletAddress
  | .webhookEndpointCreate _ => WebhookEndpoint
  | .webhookEndpointFindMany _ => List WebhookEndpoint
  | .webhookEndpointFindFirst .. => Option WebhookEndpoint
  | .webhookEndpointRevoke .. => Unit
  | .webhookDeliveryFindMany .. => List DeliveryWithEvent
  | .apiKeyCreate _ => ApiKey
  | .apiKeyFindMany _ => List ApiKey
  | .apiKeyFindFirst .. => Option ApiKey
  | .apiKeyFindUnique _ => Option ApiKey
  | .apiKeyUpdate .. => Unit
  | .membershipFindMany _ => List Scope

/-- `orderBy: { createdAt: 'desc' }`. -/
def newestFirst {ρ : Type} (createdAt : ρ → Time) (rows : List ρ) : List ρ :=
  rows.insertionSort fun a b => createdAt b ≤ createdAt a

/-- A delivery with the selected columns of its event. -/
def Database.withEvent (db : Database) (d : WebhookDelivery) : Option DeliveryWithEvent :=
  (db.payments.webhookEvents.find? d.eventId).map fun e => ⟨d, e.type, e.createdAt⟩

/-- The result of a call at time `now`, and the tables after it. A failed write leaves them as
    they were. -/
def ObjectCall.exec (now : Time) (db : Database) :
    (c : ObjectCall) → Except PrismaErrorCode c.Ret × Database
  | .invoiceFindPage organizationId skip take =>
    (.ok (((newestFirst Invoice.createdAt
      (db.payments.invoices.filter fun i => i.organizationId = organizationId)).drop skip).take
        take), db)
  | .invoiceCount organizationId =>
    (.ok (db.payments.invoices.filter fun i => i.organizationId = organizationId).length, db)
  | .merchantWalletAddressFindMany organizationId =>
    (.ok (newestFirst MerchantWalletAddress.createdAt
      (db.payments.merchantWalletAddresses.filter fun w => w.organizationId = organizationId)), db)
  | .webhookEndpointCreate d =>
    match db.webhookEndpoints.insert? (d.row now) with
    | some t => (.ok (d.row now), { db with webhookEndpoints := t })
    | none => (.error .uniqueConstraint, db)
  | .webhookEndpointFindMany organizationId =>
    (.ok (newestFirst WebhookEndpoint.createdAt
      (db.webhookEndpoints.filter fun p => p.organizationId = organizationId)), db)
  | .webhookEndpointFindFirst id organizationId =>
    (.ok (db.webhookEndpoints.rows.find? fun p => p.id = id ∧ p.organizationId = organizationId), db)
  | .webhookEndpointRevoke id revokedAt =>
    match db.webhookEndpoints.find? id with
    | some _ =>
      (.ok (), { db with
        webhookEndpoints := db.webhookEndpoints.modify id (revokeEndpoint revokedAt) fun _ => rfl })
    | none => (.error .recordNotFound, db)
  | .webhookDeliveryFindMany endpointId take =>
    (.ok (((newestFirst WebhookDelivery.createdAt
      (db.webhookDeliveries.filter fun d => d.endpointId = endpointId)).take take).filterMap
        db.withEvent), db)
  | .apiKeyCreate d =>
    match db.apiKeys.insert? (d.row now) with
    | some t => (.ok (d.row now), { db with apiKeys := t })
    | none => (.error .uniqueConstraint, db)
  | .apiKeyFindMany organizationId =>
    (.ok (newestFirst ApiKey.createdAt
      (db.apiKeys.filter fun k => k.organizationId = organizationId)), db)
  | .apiKeyFindFirst id organizationId =>
    (.ok (db.apiKeys.rows.find? fun k => k.id = id ∧ k.organizationId = organizationId), db)
  | .apiKeyFindUnique keyHash => (.ok (db.apiKeys.rows.find? fun k => k.keyHash = keyHash), db)
  | .apiKeyUpdate id d =>
    match db.apiKeys.find? id with
    | some _ =>
      (.ok (), { db with
        apiKeys := db.apiKeys.modify id (ApiKey.update d) (fun _ => rfl) fun _ => rfl })
    | none => (.error .recordNotFound, db)
  | .membershipFindMany userId =>
    (.ok ((db.memberships.filter fun m => m.userId = userId).map fun m => m.scope), db)

end CryptoPay.Tenancy
