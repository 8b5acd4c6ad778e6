import CryptoPay.Database.Schema
import Mathlib.Data.List.Sort

/-!
# The webhook tables

`WebhookEndpoint`, `WebhookEvent` and `WebhookDelivery` of
`packages/database/prisma/schema.prisma`, and the four queries of
`apps/worker/src/queues/webhook-dispatch.queue.ts` and
`webhook-retry.queue.ts` on them. `@@unique([eventId, endpointId])` is a field
of the delivery table. Rows are never deleted, and no code changes the `url` or
the `secretEnc` of an endpoint. The ranges of the `Int` columns are not
modelled.

Results:
* `exec_create_ok`, `exec_create_error`, `exec_update_ok`: what a write does.
* `mem_undelivered`, `mem_due`: what the two reads return.
-/

namespace CryptoPay.Webhooks

open Data

/-- `enum WebhookDeliveryStatus` (schema.prisma, lines 73–78). -/
inductive WebhookDeliveryStatus where
  | pending | succeeded | failed | exhausted
  deriving DecidableEq, Repr

/-- `model WebhookEndpoint` (schema.prisma, lines 390–410). -/
structure WebhookEndpoint where
  id : String
  organizationId : String
  url : String
  enabled : Bool
  secretEnc : String
  revokedAt : Option Time
  createdAt : Time
  deriving DecidableEq, Repr

/-- `model WebhookDelivery` (schema.prisma, lines 434–459). -/
structure WebhookDelivery where
  id : String
  eventId : String
  endpointId : String
  attempt : ℤ
  status : WebhookDeliveryStatus
  statusCode : Option ℤ
  responseTimeMs : Option ℤ
  error : Option String
  nextRetryAt : Option Time
  deliveredAt : Option Time
  createdAt : Time
  deriving DecidableEq, Repr

/-- The columns of `@@unique([eventId, endpointId])`. -/
def WebhookDelivery.pair (d : WebhookDelivery) : String × String := (d.eventId, d.endpointId)

/-- Deliveries with both of their unique constraints. -/
structure DeliveryTable extends Table WebhookDelivery.id where
  unique : (rows.map WebhookDelivery.pair).Nodup

namespace DeliveryTable

variable {t t' : DeliveryTable} {d d' : WebhookDelivery}

instance : Membership WebhookDelivery DeliveryTable := ⟨fun t d => d ∈ t.toTable⟩

theorem mem_def : d ∈ t ↔ d ∈ t.rows := Iff.rfl

/-- The table without rows. -/
def empty : DeliveryTable := ⟨.empty, List.nodup_nil⟩

theorem not_mem_empty (d : WebhookDelivery) : d ∉ empty := List.not_mem_nil

theorem eq_of_id (h : d ∈ t) (h' : d' ∈ t) (hid : d.id = d'.id) : d = d' :=
  t.toTable.eq_of_key h h' hid

/-- There is at most one row for an event and an endpoint. -/
theorem eq_of_pair (h : d ∈ t) (h' : d' ∈ t) (hp : d.pair = d'.pair) : d = d' :=
  List.inj_on_of_nodup_map t.unique h h' hp

/-- The same rows in another order. -/
def reorder (t : DeliveryTable) (rows : List WebhookDelivery) (h : rows.Perm t.rows) :
    DeliveryTable :=
  ⟨t.toTable.reorder rows h, (h.map WebhookDelivery.pair).nodup_iff.mpr t.unique⟩

theorem mem_reorder {rows : List WebhookDelivery} {h : rows.Perm t.rows} :
    d ∈ t.reorder rows h ↔ d ∈ t := h.mem_iff

/-- Add a row unless one of the two constraints refuses it. -/
def insert? (t : DeliveryTable) (d : WebhookDelivery) : Option DeliveryTable :=
  if hp : d.pair ∈ t.rows.map WebhookDelivery.pair then none
  else if hid : d.id ∈ t.rows.map WebhookDelivery.id then none
  else some {
    rows := d :: t.rows
    nodup := by rw [List.map_cons]; exact List.nodup_cons.mpr ⟨hid, t.nodup⟩
    unique := by rw [List.map_cons]; exact List.nodup_cons.mpr ⟨hp, t.unique⟩ }

theorem insert?_eq_some (h : t.insert? d = some t') :
    (∀ x ∈ t, x.pair ≠ d.pair) ∧ (∀ x ∈ t, x.id ≠ d.id) ∧ ∀ x, x ∈ t' ↔ x = d ∨ x ∈ t := by
  unfold insert? at h
  split_ifs at h with hp hid
  refine ⟨fun x hx he => hp (he ▸ List.mem_map_of_mem hx),
    fun x hx he => hid (he ▸ List.mem_map_of_mem hx), fun x => ?_⟩
  rw [← Option.some.inj h]
  exact List.mem_cons

theorem insert?_eq_none (h : t.insert? d = none) :
    (∃ x ∈ t, x.pair = d.pair) ∨ ∃ x ∈ t, x.id = d.id := by
  unfold insert? at h
  split_ifs at h with hp hid
  · exact .inl (List.mem_map.mp hp)
  · exact .inr (List.mem_map.mp hid)

/-- Rewrite the row with the given id; `f` keeps the columns of both constraints. -/
def modify (t : DeliveryTable) (id : String) (f : WebhookDelivery → WebhookDelivery)
    (hid : ∀ d, (f d).id = d.id) (hpair : ∀ d, (f d).pair = d.pair) : DeliveryTable where
  toTable := t.toTable.modify id f hid
  unique := by
    have hkey : WebhookDelivery.pair ∘ (fun d => if d.id = id then f d else d) =
        WebhookDelivery.pair := by
      funext d
      simp only [Function.comp_apply]
      split_ifs
      · exact hpair d
      · rfl
    show ((t.rows.map fun d => if d.id = id then f d else d).map WebhookDelivery.pair).Nodup
    rw [List.map_map, hkey]
    exact t.unique

theorem mem_modify {id : String} {f : WebhookDelivery → WebhookDelivery}
    (hid : ∀ d, (f d).id = d.id) (hpair : ∀ d, (f d).pair = d.pair) :
    d ∈ t.modify id f hid hpair ↔ ∃ d₀ ∈ t, d = if d₀.id = id then f d₀ else d₀ := by
  simp only [mem_def, modify, Table.modify, List.mem_map, eq_comm]

end DeliveryTable

/-- The webhook tables. -/
structure WebhookDb where
  webhookEvents : Table WebhookEvent.id
  webhookEndpoints : Table WebhookEndpoint.id
  webhookDeliveries : DeliveryTable

/-! ## Queries -/

/-- An event with `organization.webhookEndpoints`, where these are enabled. -/
structure EventWithEndpoints extends WebhookEvent where
  webhookEndpoints : List WebhookEndpoint
  deriving DecidableEq, Repr

/-- A delivery with its event and its endpoint. -/
structure DueDelivery extends WebhookDelivery where
  event : WebhookEvent
  endpoint : WebhookEndpoint
  deriving DecidableEq, Repr

/-- The `data` of `webhookDelivery.create`; the other columns take their defaults. -/
structure DeliveryCreateInput where
  id : String
  eventId : String
  endpointId : String
  status : WebhookDeliveryStatus
  deriving DecidableEq, Repr

/-- The row that `webhookDelivery.create` stores. -/
def DeliveryCreateInput.row (now : Time) (d : DeliveryCreateInput) : WebhookDelivery where
  id := d.id
  eventId := d.eventId
  endpointId := d.endpointId
  attempt := 1
  status := d.status
  statusCode := none
  responseTimeMs := none
  error := none
  nextRetryAt := none
  deliveredAt := none
  createdAt := now

/-- The `data` of `webhookDelivery.update`: absent fields are left as they are. -/
structure DeliveryUpdateInput where
  attempt : Option ℤ := none
  status : WebhookDeliveryStatus
  responseTimeMs : ℤ
  statusCode : Option ℤ := none
  error : Option String := none
  /-- `some none` stores `null`. -/
  nextRetryAt : Option (Option Time) := none
  deliveredAt : Option Time := none
  deriving DecidableEq, Repr

/-- The row after `webhookDelivery.update`. -/
def WebhookDelivery.update (u : DeliveryUpdateInput) (d : WebhookDelivery) : WebhookDelivery :=
  { d with
    attempt := u.attempt.getD d.attempt
    status := u.status
    responseTimeMs := some u.responseTimeMs
    statusCode := u.statusCode.orElse fun _ => d.statusCode
    error := u.error.orElse fun _ => d.error
    nextRetryAt := u.nextRetryAt.getD d.nextRetryAt
    deliveredAt := u.deliveredAt.orElse fun _ => d.deliveredAt }

/-- The awaited Prisma calls. -/
inductive WebhookCall where
  /-- `webhookEvent.findMany({ where: { deliveries: { none: {} } }, include: { organization:
      { include: { webhookEndpoints: { where: { enabled: true } } } } },
      orderBy: { createdAt: 'asc' }, take })`. -/
  | eventFindMany (take : ℕ)
  /-- `webhookDelivery.findMany({ where: { status: 'FAILED', nextRetryAt: { lte } },
      include: { event: true, endpoint: true }, take })`. -/
  | deliveryFindMany (lte : Time) (take : ℕ)
  | deliveryCreate (data : DeliveryCreateInput)
  | deliveryUpdate (id : String) (data : DeliveryUpdateInput)
  deriving DecidableEq, Repr

/-- What a call resolves to. -/
def WebhookCall.Ret : WebhookCall → Type
  | .eventFindMany _ => List EventWithEndpoints
  | .deliveryFindMany .. => List DueDelivery
  | .deliveryCreate _ => WebhookDelivery
  | .deliveryUpdate .. => WebhookDelivery

/-- Some delivery is for the event. -/
def WebhookDb.delivered (db : WebhookDb) (eventId : String) : Bool :=
  db.webhookDeliveries.rows.any fun d => d.eventId = eventId

/-- The enabled endpoints of an organization. -/
def WebhookDb.enabledEndpoints (db : WebhookDb) (organizationId : String) : List WebhookEndpoint :=
  db.webhookEndpoints.filter fun p => p.enabled && p.organizationId = organizationId

/-- The events without a delivery, oldest first. -/
def WebhookDb.undeliveredEvents (db : WebhookDb) : List WebhookEvent :=
  (db.webhookEvents.filter fun e => !db.delivered e.id).insertionSort
    fun a b => a.createdAt ≤ b.createdAt

/-- The rows of `eventFindMany`. -/
def WebhookDb.undelivered (db : WebhookDb) (take : ℕ) : List EventWithEndpoints :=
  (db.undeliveredEvents.take take).map fun e => ⟨e, db.enabledEndpoints e.organizationId⟩

/-- The rows of `deliveryFindMany`. -/
def WebhookDb.due (db : WebhookDb) (lte : Time) (take : ℕ) : List DueDelivery :=
  ((db.webhookDeliveries.filter fun d =>
    d.status = .failed && d.nextRetryAt.any (· ≤ lte)).take take).filterMap fun d =>
      (db.webhookEvents.find? d.eventId).bind fun e =>
        (db.webhookEndpoints.find? d.endpointId).map fun p => ⟨d, e, p⟩

/-- The result of a call at time `now`, and the database after it. A failed write leaves the
    database as it was. -/
def WebhookCall.exec (now : Time) (db : WebhookDb) :
    (c : WebhookCall) → Except PrismaErrorCode c.Ret × WebhookDb
  | .eventFindMany take => (.ok (db.undelivered take), db)
  | .deliveryFindMany lte take => (.ok (db.due lte take), db)
  | .deliveryCreate d =>
    if (db.webhookEvents.find? d.eventId).isSome &&
        (db.webhookEndpoints.find? d.endpointId).isSome then
      match db.webhookDeliveries.insert? (d.row now) with
      | some t => (.ok (d.row now), { db with webhookDeliveries := t })
      | none => (.error .uniqueConstraint, db)
    else (.error .foreignKey, db)
  | .deliveryUpdate id u =>
    match db.webhookDeliveries.find? id with
    | some d =>
      (.ok (d.update u), { db with
        webhookDeliveries := db.webhookDeliveries.modify id (WebhookDelivery.update u)
          (fun _ => rfl) fun _ => rfl })
    | none => (.error .recordNotFound, db)

/-! ## What the queries do -/

section Exec

variable {now : Time} {db db' : WebhookDb} {code : PrismaErrorCode}

theorem mem_enabledEndpoints {organizationId : String} {p : WebhookEndpoint} :
    p ∈ db.enabledEndpoints organizationId ↔
      p ∈ db.webhookEndpoints ∧ p.enabled = true ∧ p.organizationId = organizationId := by
  simp [WebhookDb.enabledEndpoints]

theorem delivered_eq_true {eventId : String} :
    db.delivered eventId = true ↔ ∃ d ∈ db.webhookDeliveries, d.eventId = eventId := by
  simp [WebhookDb.delivered, DeliveryTable.mem_def]

theorem mem_undeliveredEvents {e : WebhookEvent} :
    e ∈ db.undeliveredEvents ↔
      e ∈ db.webhookEvents ∧ ∀ d ∈ db.webhookDeliveries, d.eventId ≠ e.id := by
  simp [WebhookDb.undeliveredEvents, WebhookDb.delivered, DeliveryTable.mem_def]

/-- A batch entry is a stored event without deliveries, with the enabled endpoints of its
    organization. -/
theorem mem_undelivered {take : ℕ} {e : EventWithEndpoints} (h : e ∈ db.undelivered take) :
    e.toWebhookEvent ∈ db.undeliveredEvents ∧
      e.webhookEndpoints = db.enabledEndpoints e.organizationId := by
  obtain ⟨e', he', rfl⟩ := List.mem_map.mp h
  exact ⟨List.mem_of_mem_take he', rfl⟩

theorem nodup_undeliveredEvents (db : WebhookDb) :
    (db.undeliveredEvents.map WebhookEvent.id).Nodup := by
  have hperm := List.perm_insertionSort (fun a b : WebhookEvent => a.createdAt ≤ b.createdAt)
    (db.webhookEvents.filter fun e => !db.delivered e.id)
  exact (hperm.map WebhookEvent.id).nodup_iff.mpr (db.webhookEvents.nodup_filter _)

/-- The events of a batch are distinct. -/
theorem nodup_undelivered (db : WebhookDb) (take : ℕ) :
    ((db.undelivered take).map fun e => e.id).Nodup := by
  rw [WebhookDb.undelivered, List.map_map]
  exact ((List.take_sublist take _).map WebhookEvent.id).nodup (nodup_undeliveredEvents db)

/-- A due row is stored as it was read, and so are its event and its endpoint. -/
theorem mem_due {lte : Time} {take : ℕ} {d : DueDelivery} (h : d ∈ db.due lte take) :
    d.toWebhookDelivery ∈ db.webhookDeliveries ∧ d.status = .failed ∧
      (∃ t ≤ lte, d.nextRetryAt = some t) ∧
      (d.event ∈ db.webhookEvents ∧ d.event.id = d.eventId) ∧
      d.endpoint ∈ db.webhookEndpoints ∧ d.endpoint.id = d.endpointId := by
  obtain ⟨d', hd', hb⟩ := List.mem_filterMap.mp h
  obtain ⟨e, he, hb⟩ := Option.bind_eq_some_iff.mp hb
  obtain ⟨p, hp, rfl⟩ := Option.map_eq_some_iff.mp hb
  have hd := Table.mem_filter.mp (List.mem_of_mem_take hd')
  rw [Bool.and_eq_true, decide_eq_true_iff, Option.any_eq_true] at hd
  obtain ⟨t, ht, hle⟩ := hd.2.2
  exact ⟨hd.1, hd.2.1, ⟨t, of_decide_eq_true hle, ht⟩, Table.find?_eq_some_iff.mp he,
    Table.find?_eq_some_iff.mp hp⟩

/-- The rows of a due batch are distinct. -/
theorem nodup_due (db : WebhookDb) (lte : Time) (take : ℕ) :
    ((db.due lte take).map fun d => d.id).Nodup := by
  unfold WebhookDb.due
  refine List.Nodup.sublist ?_ (((List.take_sublist take _).map WebhookDelivery.id).nodup
    (db.webhookDeliveries.nodup_filter fun d => d.status = .failed && d.nextRetryAt.any (· ≤ lte)))
  induction (db.webhookDeliveries.filter fun d =>
    d.status = .failed && d.nextRetryAt.any (· ≤ lte)).take take with
  | nil => exact .slnil
  | cons d ds ih =>
    rw [List.filterMap_cons]
    cases hb : (db.webhookEvents.find? d.eventId).bind fun e =>
        (db.webhookEndpoints.find? d.endpointId).map fun p => (⟨d, e, p⟩ : DueDelivery) with
    | none => exact .cons _ ih
    | some x =>
      obtain ⟨e, -, hb⟩ := Option.bind_eq_some_iff.mp hb
      obtain ⟨p, -, rfl⟩ := Option.map_eq_some_iff.mp hb
      exact .cons_cons _ ih

/-- What a create does that succeeds. -/
structure Created (now : Time) (db : WebhookDb) (d : DeliveryCreateInput) (row : WebhookDelivery)
    (db' : WebhookDb) : Prop where
  row_eq : row = d.row now
  newPair : ∀ x ∈ db.webhookDeliveries, x.pair ≠ (d.eventId, d.endpointId)
  newId : ∀ x ∈ db.webhookDeliveries, x.id ≠ d.id
  events : db'.webhookEvents = db.webhookEvents
  endpoints : db'.webhookEndpoints = db.webhookEndpoints
  deliveries : ∀ x, x ∈ db'.webhookDeliveries ↔ x = d.row now ∨ x ∈ db.webhookDeliveries

/-- What an update does that succeeds. -/
structure Updated (db : WebhookDb) (id : String) (u : DeliveryUpdateInput) (db' : WebhookDb) :
    Prop where
  found : ∃ d ∈ db.webhookDeliveries, d.id = id
  events : db'.webhookEvents = db.webhookEvents
  endpoints : db'.webhookEndpoints = db.webhookEndpoints
  deliveries : ∀ x, x ∈ db'.webhookDeliveries ↔
    ∃ d ∈ db.webhookDeliveries, x = if d.id = id then d.update u else d

theorem Updated.kept {id : String} {u : DeliveryUpdateInput} {db' : WebhookDb}
    (h : Updated db id u db') {x : WebhookDelivery} (hx : x ∈ db.webhookDeliveries)
    (hid : x.id ≠ id) : x ∈ db'.webhookDeliveries :=
  (h.deliveries x).mpr ⟨x, hx, (if_neg hid).symm⟩

/-- A row after an update was there before, or is the updated one. -/
theorem Updated.cases_mem {id : String} {u : DeliveryUpdateInput} {db' : WebhookDb}
    (h : Updated db id u db') {y : WebhookDelivery} (hy : y ∈ db'.webhookDeliveries) :
    (y ∈ db.webhookDeliveries ∧ y.id ≠ id) ∨
      ∃ x ∈ db.webhookDeliveries, y = x.update u ∧ x.id = id := by
  obtain ⟨x, hx, rfl⟩ := (h.deliveries y).mp hy
  split_ifs with hid
  · exact .inr ⟨x, hx, rfl, hid⟩
  · exact .inl ⟨hx, hid⟩

theorem exec_create_ok {d : DeliveryCreateInput} {row : WebhookDelivery}
    (h : (WebhookCall.deliveryCreate d).exec now db = (.ok row, db')) : Created now db d row db' := by
  simp only [WebhookCall.exec] at h
  split_ifs at h with hfk
  · split at h
    · rename_i t ht
      obtain ⟨hpair, hid, hmem⟩ := DeliveryTable.insert?_eq_some ht
      cases h
      exact ⟨rfl, hpair, hid, rfl, rfl, hmem⟩
    · cases h
  · cases h

/-- Why a create fails: the pair or the id is taken, or a row that it refers to is missing. -/
theorem exec_create_error {d : DeliveryCreateInput}
    (h : (WebhookCall.deliveryCreate d).exec now db = (.error code, db')) :
    db' = db ∧ ((∃ x ∈ db.webhookDeliveries, x.pair = (d.eventId, d.endpointId)) ∨
      (∃ x ∈ db.webhookDeliveries, x.id = d.id) ∨ (∀ e ∈ db.webhookEvents, e.id ≠ d.eventId) ∨
      ∀ p ∈ db.webhookEndpoints, p.id ≠ d.endpointId) := by
  simp only [WebhookCall.exec] at h
  split_ifs at h with hfk
  · split at h
    · cases h
    · rename_i hnone
      cases h
      exact ⟨rfl, (DeliveryTable.insert?_eq_none hnone).imp_right .inl⟩
  · cases h
    rw [Bool.and_eq_true, not_and_or, Bool.not_eq_true, Bool.not_eq_true,
      Option.isSome_eq_false_iff, Option.isSome_eq_false_iff, Option.isNone_iff_eq_none,
      Option.isNone_iff_eq_none, Table.find?_eq_none_iff, Table.find?_eq_none_iff] at hfk
    exact ⟨rfl, .inr (.inr hfk)⟩

theorem exec_update_ok {id : String} {u : DeliveryUpdateInput} {row : WebhookDelivery}
    (h : (WebhookCall.deliveryUpdate id u).exec now db = (.ok row, db')) : Updated db id u db' := by
  simp only [WebhookCall.exec] at h
  split at h
  · rename_i d hd
    cases h
    refine ⟨⟨d, Table.find?_eq_some_iff.mp hd⟩, rfl, rfl, fun x => ?_⟩
    exact DeliveryTable.mem_modify (f := WebhookDelivery.update u) (fun _ => rfl) fun _ => rfl
  · cases h

theorem exec_update_error {id : String} {u : DeliveryUpdateInput}
    (h : (WebhookCall.deliveryUpdate id u).exec now db = (.error code, db')) :
    db' = db ∧ ∀ d ∈ db.webhookDeliveries, d.id ≠ id := by
  simp only [WebhookCall.exec] at h
  split at h
  · cases h
  · rename_i hnone
    cases h
    exact ⟨rfl, Table.find?_eq_none_iff.mp hnone⟩

/-- The database does not answer that it was not reached. -/
theorem exec_ne_connection (now : Time) (db : WebhookDb) (call : WebhookCall) :
    (call.exec now db).1 ≠ .error .connection := by
  intro h
  cases call with
  | eventFindMany take => cases h
  | deliveryFindMany lte take => cases h
  | deliveryCreate d =>
    simp only [WebhookCall.exec] at h
    split_ifs at h
    · split at h <;> cases h
    · cases h
  | deliveryUpdate id u =>
    simp only [WebhookCall.exec] at h
    split at h <;> cases h

end Exec

end CryptoPay.Webhooks
