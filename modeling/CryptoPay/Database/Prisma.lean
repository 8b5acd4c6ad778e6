import CryptoPay.Database.Schema

/-!
# Prisma queries

The queries that payment processing awaits, as data (`PrismaCall`), and their
effect on the tables (`PrismaCall.exec`). A `$transaction` array is a list of
`Write`s that takes effect as a whole or not at all; a single `create` or
`update` is a transaction of one write. Writes check the constraints of
schema.prisma: primary keys, `@@unique`, foreign keys between the modelled
tables, and the range of `DECIMAL(20, 8)` columns. `now` is the time at which
the database runs the query; it fills `createdAt` and `updatedAt`.

Each write has one inversion lemma (`invoiceUpdate_ok`, `paymentCreate_ok`, …)
that says when it succeeds and what it changes.
-/

namespace CryptoPay

open Data

/-! ## Data of writes -/

/-- The `data` of `invoice.create`; `paidAt` and `createdAt` take their
    defaults. -/
structure InvoiceCreateInput where
  id : String
  organizationId : String
  externalId : Option String
  status : InvoiceStatus
  description : Option String
  amount : Decimal
  currency : String
  token : String
  network : String
  paymentAddress : String
  successUrl : Option String
  cancelUrl : Option String
  metadata : Option Metadata
  expiresAt : Time
  deriving DecidableEq, Repr

/-- The row that `invoice.create` stores. -/
def InvoiceCreateInput.row (now : Time) (d : InvoiceCreateInput) : Invoice where
  id := d.id
  organizationId := d.organizationId
  externalId := d.externalId
  status := d.status
  description := d.description
  amount := d.amount
  currency := d.currency
  token := d.token
  network := d.network
  paymentAddress := d.paymentAddress
  successUrl := d.successUrl
  cancelUrl := d.cancelUrl
  metadata := d.metadata
  expiresAt := d.expiresAt
  paidAt := none
  createdAt := now

/-- The `data` of `invoice.update`: absent fields are left as they are. -/
structure InvoiceUpdateInput where
  status : InvoiceStatus
  paidAt : Option Time := none
  deriving DecidableEq, Repr

/-- The row after `invoice.update`. -/
def Invoice.update (d : InvoiceUpdateInput) (i : Invoice) : Invoice :=
  { i with status := d.status, paidAt := d.paidAt.orElse fun _ => i.paidAt }

/-- The `data` of `payment.create`; the other columns take their defaults. -/
structure PaymentCreateInput where
  id : String
  invoiceId : String
  organizationId : String
  network : String
  token : String
  expectedAmount : Decimal
  receivedAmount : Decimal
  txHash : String
  fromAddress : String
  toAddress : String
  blockNumber : ℤ
  status : PaymentStatus
  detectedAt : Time
  deriving DecidableEq, Repr

/-- The row that `payment.create` stores. -/
def PaymentCreateInput.row (now : Time) (d : PaymentCreateInput) : Payment where
  id := d.id
  invoiceId := d.invoiceId
  organizationId := d.organizationId
  network := d.network
  token := d.token
  expectedAmount := d.expectedAmount
  receivedAmount := some d.receivedAmount
  txHash := some d.txHash
  fromAddress := some d.fromAddress
  toAddress := d.toAddress
  blockNumber := some d.blockNumber
  confirmations := 0
  status := d.status
  detectedAt := some d.detectedAt
  confirmedAt := none
  createdAt := now
  updatedAt := now

/-- The `data` of `payment.update`: absent fields are left as they are. -/
structure PaymentUpdateInput where
  status : Option PaymentStatus := none
  confirmations : Option ℤ := none
  confirmedAt : Option Time := none
  deriving DecidableEq, Repr

/-- The row after `payment.update`; `@updatedAt` is set. -/
def Payment.update (now : Time) (d : PaymentUpdateInput) (p : Payment) : Payment :=
  { p with
    status := d.status.getD p.status
    confirmations := d.confirmations.getD p.confirmations
    confirmedAt := d.confirmedAt.orElse fun _ => p.confirmedAt
    updatedAt := now }

/-- The `data` of `webhookEvent.create`. -/
structure WebhookEventCreateInput where
  id : String
  organizationId : String
  invoiceId : String
  type : String
  data : WebhookEventData
  deriving DecidableEq, Repr

/-- The row that `webhookEvent.create` stores. -/
def WebhookEventCreateInput.row (now : Time) (d : WebhookEventCreateInput) : WebhookEvent where
  id := d.id
  organizationId := d.organizationId
  invoiceId := d.invoiceId
  type := d.type
  data := d.data
  createdAt := now

/-! ## Writes -/

/-- One write of a `$transaction`. -/
inductive Write where
  | invoiceCreate (data : InvoiceCreateInput)
  | invoiceUpdate (id : String) (data : InvoiceUpdateInput)
  | paymentCreate (data : PaymentCreateInput)
  | paymentUpdate (id : String) (data : PaymentUpdateInput)
  | webhookEventCreate (data : WebhookEventCreateInput)
  | blockchainScanCursorUpdate (network : String) (lastScannedBlock : ℤ)
  | merchantWalletAddressCreate (row : MerchantWalletAddress)
  | auditLogCreate (row : AuditLog)
  deriving DecidableEq, Repr

/-- `@@unique([organizationId, externalId])`; rows without `externalId` never
    collide. -/
def Db.externalIdTaken (db : Db) (d : InvoiceCreateInput) : Bool :=
  d.externalId.isSome &&
    db.invoices.rows.any fun i => i.organizationId = d.organizationId ∧ i.externalId = d.externalId

/-- `@@unique([network, txHash])`. -/
def Db.txHashTaken (db : Db) (network txHash : String) : Bool :=
  db.payments.rows.any fun p => p.network = network ∧ p.txHash = some txHash

/-- The table with a new row, or the unique constraint that refuses it. -/
def insertRow {ρ κ : Type} [DecidableEq κ] {key : ρ → κ} (t : Table key) (r : ρ) :
    Except Error (Table key) :=
  match t.insert? r with
  | some t' => .ok t'
  | none => .error (.prisma .uniqueConstraint)

/-- The effect of one write at time `now`, or the error it raises. -/
def Write.apply (now : Time) (db : Db) : Write → Except Error Db
  | .invoiceCreate d =>
    if !d.amount.fitsColumn then .error (.prisma .valueOutOfRange)
    else if db.externalIdTaken d then .error (.prisma .uniqueConstraint)
    else (insertRow db.invoices (d.row now)).map fun t => { db with invoices := t }
  | .invoiceUpdate id d =>
    if (db.invoices.find? id).isSome then
      .ok { db with invoices := db.invoices.modify id (Invoice.update d) fun _ => rfl }
    else .error (.prisma .recordNotFound)
  | .paymentCreate d =>
    if !d.expectedAmount.fitsColumn || !d.receivedAmount.fitsColumn then
      .error (.prisma .valueOutOfRange)
    else if !(db.invoices.find? d.invoiceId).isSome then .error (.prisma .foreignKey)
    else if db.txHashTaken d.network d.txHash then .error (.prisma .uniqueConstraint)
    else (insertRow db.payments (d.row now)).map fun t => { db with payments := t }
  | .paymentUpdate id d =>
    if (db.payments.find? id).isSome then
      .ok { db with payments := db.payments.modify id (Payment.update now d) fun _ => rfl }
    else .error (.prisma .recordNotFound)
  | .webhookEventCreate d =>
    if (db.invoices.find? d.invoiceId).isSome then
      (insertRow db.webhookEvents (d.row now)).map fun t => { db with webhookEvents := t }
    else .error (.prisma .foreignKey)
  | .blockchainScanCursorUpdate network lastScannedBlock =>
    if (db.blockchainScanCursors.find? network).isSome then
      .ok { db with
        blockchainScanCursors := db.blockchainScanCursors.modify network
          (fun c => { c with lastScannedBlock := lastScannedBlock }) fun _ => rfl }
    else .error (.prisma .recordNotFound)
  | .merchantWalletAddressCreate w =>
    (insertRow db.merchantWalletAddresses w).map fun t => { db with merchantWalletAddresses := t }
  | .auditLogCreate a => .ok { db with auditLogs := { a with createdAt := now } :: db.auditLogs }

/-- A `$transaction` array: every write in order, or none. -/
def Db.transaction (now : Time) (db : Db) (writes : List Write) : Except Error Db :=
  writes.foldlM (Write.apply now) db

/-! ## Queries -/

/-- The `where` of the invoice queries. -/
structure InvoiceWhere where
  status : InvoiceStatus
  /-- `expiresAt: { lt: … }`. -/
  expiresAtLt : Option Time := none
  paymentAddress : Option String := none
  network : Option String := none
  token : Option String := none
  deriving DecidableEq, Repr

/-- Whether a row satisfies the filter. String equality is case-sensitive, as
    in Postgres. -/
def InvoiceWhere.holds (w : InvoiceWhere) (i : Invoice) : Bool :=
  i.status = w.status && w.expiresAtLt.all (i.expiresAt < ·) &&
    w.paymentAddress.all (i.paymentAddress = ·) && w.network.all (i.network = ·) &&
    w.token.all (i.token = ·)

theorem InvoiceWhere.holds_iff {w : InvoiceWhere} {i : Invoice} :
    w.holds i = true ↔ i.status = w.status ∧ (∀ t, w.expiresAtLt = some t → i.expiresAt < t) ∧
      (∀ a, w.paymentAddress = some a → i.paymentAddress = a) ∧
      (∀ n, w.network = some n → i.network = n) ∧ ∀ t, w.token = some t → i.token = t := by
  simp [holds, Option.all_eq_true, and_assoc]

/-- A payment with its invoice (`include: { invoice: true }`). -/
structure PaymentWithInvoice extends Payment where
  invoice : Invoice
  deriving DecidableEq, Repr

/-- The awaited Prisma calls. -/
inductive PrismaCall where
  | invoiceFindMany (filter : InvoiceWhere)
  | invoiceFindUnique (id : String)
  /-- `invoice.findFirst({ where: { id, organizationId } })`. -/
  | invoiceFindFirst (id organizationId : String)
  | invoiceFindByExternalId (organizationId externalId : String)
  /-- `payment.findMany({ where: { status: { in: … } }, include: { invoice: true } })`. -/
  | paymentFindMany (status : List PaymentStatus)
  | paymentFindByTxHash (network txHash : String)
  | merchantWalletAddressFindUnique (organizationId network token : String)
  /-- `upsert({ …, create: { address }, update: { address } })`. -/
  | merchantWalletAddressUpsert (row : MerchantWalletAddress)
  /-- `upsert({ where: { network }, create: { network }, update: {} })`. -/
  | blockchainScanCursorUpsert (network : String)
  | invoiceCreate (data : InvoiceCreateInput)
  | transaction (writes : List Write)

/-- What a call resolves to. -/
def PrismaCall.Ret : PrismaCall → Type
  | .invoiceFindMany _ => List Invoice
  | .invoiceFindUnique _ => Option Invoice
  | .invoiceFindFirst .. => Option Invoice
  | .invoiceFindByExternalId .. => Option Invoice
  | .paymentFindMany _ => List PaymentWithInvoice
  | .paymentFindByTxHash .. => Option Payment
  | .merchantWalletAddressFindUnique .. => Option MerchantWalletAddress
  | .merchantWalletAddressUpsert _ => MerchantWalletAddress
  | .blockchainScanCursorUpsert _ => BlockchainScanCursor
  | .invoiceCreate _ => Invoice
  | .transaction _ => Unit

/-- The rows of `payment.findMany` with their invoices. -/
def Db.paymentsWithInvoice (db : Db) (status : List PaymentStatus) : List PaymentWithInvoice :=
  (db.payments.filter fun p => status.contains p.status).filterMap fun p =>
    (db.invoices.find? p.invoiceId).map fun i => ⟨p, i⟩

/-- The cursor row for a network, and the database that has it. The default of
    `lastScannedBlock` is `-1`. -/
def Db.upsertCursor (db : Db) (network : String) : BlockchainScanCursor × Db :=
  match db.blockchainScanCursors.find? network with
  | some c => (c, db)
  | none =>
    let c : BlockchainScanCursor := ⟨network, -1⟩
    match db.blockchainScanCursors.insert? c with
    | some t => (c, { db with blockchainScanCursors := t })
    | none => (c, db)

/-- The wallet row after an upsert, and the database that has it. -/
def Db.upsertWallet (db : Db) (w : MerchantWalletAddress) : MerchantWalletAddress × Db :=
  match db.merchantWalletAddresses.find? w.key with
  | some old =>
    ({ old with address := w.address }, { db with
      merchantWalletAddresses := db.merchantWalletAddresses.modify w.key
        (fun r => { r with address := w.address }) fun _ => rfl })
  | none =>
    match db.merchantWalletAddresses.insert? w with
    | some t => (w, { db with merchantWalletAddresses := t })
    | none => (w, db)

/-- The result of a call at time `now`, and the database after it. A failed
    write leaves the database as it was. -/
def PrismaCall.exec (now : Time) (db : Db) : (c : PrismaCall) → Except Error c.Ret × Db
  | .invoiceFindMany w => (.ok (db.invoices.filter w.holds), db)
  | .invoiceFindUnique id => (.ok (db.invoices.find? id), db)
  | .invoiceFindFirst id organizationId =>
    (.ok (db.invoices.rows.find? fun i => i.id = id ∧ i.organizationId = organizationId), db)
  | .invoiceFindByExternalId organizationId externalId =>
    (.ok (db.invoices.rows.find? fun i =>
      i.organizationId = organizationId ∧ i.externalId = some externalId), db)
  | .paymentFindMany status => (.ok (db.paymentsWithInvoice status), db)
  | .paymentFindByTxHash network txHash =>
    (.ok (db.payments.rows.find? fun p => p.network = network ∧ p.txHash = some txHash), db)
  | .merchantWalletAddressFindUnique organizationId network token =>
    (.ok (db.merchantWalletAddresses.find? (organizationId, network, token)), db)
  | .merchantWalletAddressUpsert w => ((.ok (db.upsertWallet w).1), (db.upsertWallet w).2)
  | .blockchainScanCursorUpsert network => (.ok (db.upsertCursor network).1, (db.upsertCursor network).2)
  | .invoiceCreate d =>
    match Write.apply now db (.invoiceCreate d) with
    | .ok db' => (.ok (d.row now), db')
    | .error e => (.error e, db)
  | .transaction writes =>
    match db.transaction now writes with
    | .ok db' => (.ok (), db')
    | .error e => (.error e, db)

/-! ## What writes do -/

theorem insertRow_ok {ρ κ : Type} [DecidableEq κ] {key : ρ → κ} {t t' : Table key} {r : ρ}
    (h : insertRow t r = .ok t') : t.insert? r = some t' := by
  unfold insertRow at h
  split at h
  · rename_i t'' ht
    rw [ht, Except.ok.inj h]
  · cases h

/-- A transaction that starts with a write is the first write, then the rest. -/
theorem transaction_cons {now : Time} {db db' : Db} {w : Write} {ws : List Write}
    (h : db.transaction now (w :: ws) = .ok db') :
    ∃ db₁, w.apply now db = .ok db₁ ∧ db₁.transaction now ws = .ok db' := by
  unfold Db.transaction at h ⊢
  rw [List.foldlM_cons] at h
  cases hw : Write.apply now db w with
  | error e => rw [hw] at h; cases h
  | ok db₁ => rw [hw] at h; exact ⟨db₁, rfl, h⟩

theorem transaction_nil {now : Time} {db db' : Db} (h : db.transaction now [] = .ok db') :
    db' = db := (Except.ok.inj h).symm

theorem transaction_singleton {now : Time} {db db' : Db} {w : Write}
    (h : w.apply now db = .ok db') : db.transaction now [w] = .ok db' := by
  simp only [Db.transaction, List.foldlM_cons, List.foldlM_nil, h]
  rfl

theorem transaction_append {now : Time} {db db' : Db} {ws ws' : List Write}
    (h : db.transaction now (ws ++ ws') = .ok db') :
    ∃ db₁, db.transaction now ws = .ok db₁ ∧ db₁.transaction now ws' = .ok db' := by
  unfold Db.transaction at h ⊢
  rw [List.foldlM_append] at h
  cases hw : ws.foldlM (Write.apply now) db with
  | error e => rw [hw] at h; cases h
  | ok db₁ => rw [hw] at h; exact ⟨db₁, rfl, h⟩

/-- A transaction of at most one write. -/
theorem transaction_toList {α : Type} {now : Time} {db db' : Db} {o : Option α} {f : α → Write}
    (h : db.transaction now (o.toList.map f) = .ok db') :
    (o = none ∧ db' = db) ∨ ∃ a, o = some a ∧ (f a).apply now db = .ok db' := by
  cases o with
  | none => exact .inl ⟨rfl, transaction_nil h⟩
  | some a =>
    obtain ⟨db₁, h₁, h₂⟩ := transaction_cons h
    exact .inr ⟨a, rfl, (transaction_nil h₂) ▸ h₁⟩

theorem insertRow_error {ρ κ : Type} [DecidableEq κ] {key : ρ → κ} {t : Table key} {r : ρ}
    {e : Error} (h : insertRow t r = .error e) : e = .prisma .uniqueConstraint := by
  unfold insertRow at h
  split at h
  · cases h
  · exact (Except.error.inj h).symm

/-- A write raises Prisma errors only. -/
theorem apply_error {now : Time} {db : Db} {w : Write} {e : Error}
    (h : w.apply now db = .error e) : ∃ code, e = .prisma code := by
  have insert : ∀ {κ ρ : Type} [DecidableEq κ] {key : ρ → κ} {t : Table key} {r : ρ}
      {f : Table key → Db}, (insertRow t r).map f = .error e → ∃ code, e = .prisma code := by
    intro κ ρ _ key t r f h
    cases hi : insertRow t r with
    | ok t' => rw [hi] at h; cases h
    | error e' => rw [hi] at h; cases h; exact ⟨_, insertRow_error hi⟩
  cases w <;> simp only [Write.apply] at h <;> (try split_ifs at h) <;>
    first
    | exact insert h
    | exact ⟨_, (Except.error.inj h).symm⟩
    | cases h

/-- A transaction raises Prisma errors only. -/
theorem transaction_error {now : Time} {db : Db} {ws : List Write} {e : Error}
    (h : db.transaction now ws = .error e) : ∃ code, e = .prisma code := by
  induction ws generalizing db with
  | nil => cases h
  | cons w ws ih =>
    unfold Db.transaction at h ih
    rw [List.foldlM_cons] at h
    cases hw : Write.apply now db w with
    | error e' => rw [hw] at h; cases h; exact apply_error hw
    | ok db₁ => rw [hw] at h; exact ih h

theorem invoiceCreate_ok {now : Time} {db db' : Db} {d : InvoiceCreateInput}
    (h : Write.apply now db (.invoiceCreate d) = .ok db') :
    db.externalIdTaken d = false ∧
      ∃ t, db.invoices.insert? (d.row now) = some t ∧ db' = { db with invoices := t } := by
  simp only [Write.apply] at h
  split_ifs at h with h1 h2
  cases hi : insertRow db.invoices (d.row now) with
  | error e => rw [hi] at h; cases h
  | ok t => rw [hi] at h; exact ⟨by simpa using h2, t, insertRow_ok hi, (Except.ok.inj h).symm⟩

theorem invoiceUpdate_ok {now : Time} {db db' : Db} {id : String} {d : InvoiceUpdateInput}
    (h : Write.apply now db (.invoiceUpdate id d) = .ok db') :
    (∃ i ∈ db.invoices, i.id = id) ∧
      db' = { db with invoices := db.invoices.modify id (Invoice.update d) fun _ => rfl } := by
  simp only [Write.apply] at h
  split_ifs at h with h1
  exact ⟨Table.find?_isSome_iff.mp h1, (Except.ok.inj h).symm⟩

theorem paymentCreate_ok {now : Time} {db db' : Db} {d : PaymentCreateInput}
    (h : Write.apply now db (.paymentCreate d) = .ok db') :
    (∃ i ∈ db.invoices, i.id = d.invoiceId) ∧ db.txHashTaken d.network d.txHash = false ∧
      ∃ t, db.payments.insert? (d.row now) = some t ∧ db' = { db with payments := t } := by
  simp only [Write.apply] at h
  split_ifs at h with h1 h2 h3
  refine ⟨Table.find?_isSome_iff.mp (by simpa [Option.isSome_iff_ne_none] using h2),
    by simpa using h3, ?_⟩
  cases hi : insertRow db.payments (d.row now) with
  | error e => rw [hi] at h; cases h
  | ok t => rw [hi] at h; exact ⟨t, insertRow_ok hi, (Except.ok.inj h).symm⟩

theorem paymentUpdate_ok {now : Time} {db db' : Db} {id : String} {d : PaymentUpdateInput}
    (h : Write.apply now db (.paymentUpdate id d) = .ok db') :
    (∃ p ∈ db.payments, p.id = id) ∧
      db' = { db with payments := db.payments.modify id (Payment.update now d) fun _ => rfl } := by
  simp only [Write.apply] at h
  split_ifs at h with h1
  exact ⟨Table.find?_isSome_iff.mp h1, (Except.ok.inj h).symm⟩

theorem webhookEventCreate_ok {now : Time} {db db' : Db} {d : WebhookEventCreateInput}
    (h : Write.apply now db (.webhookEventCreate d) = .ok db') :
    ∃ t, db.webhookEvents.insert? (d.row now) = some t ∧ db' = { db with webhookEvents := t } := by
  simp only [Write.apply] at h
  split_ifs at h with h1
  cases hi : insertRow db.webhookEvents (d.row now) with
  | error e => rw [hi] at h; cases h
  | ok t => rw [hi] at h; exact ⟨t, insertRow_ok hi, (Except.ok.inj h).symm⟩

theorem merchantWalletAddressCreate_ok {now : Time} {db db' : Db} {w : MerchantWalletAddress}
    (h : Write.apply now db (.merchantWalletAddressCreate w) = .ok db') :
    ∃ t, db.merchantWalletAddresses.insert? w = some t ∧
      db' = { db with merchantWalletAddresses := t } := by
  simp only [Write.apply] at h
  cases hi : insertRow db.merchantWalletAddresses w with
  | error e => rw [hi] at h; cases h
  | ok t => rw [hi] at h; exact ⟨t, insertRow_ok hi, (Except.ok.inj h).symm⟩

theorem blockchainScanCursorUpdate_ok {now : Time} {db db' : Db} {network : String} {n : ℤ}
    (h : Write.apply now db (.blockchainScanCursorUpdate network n) = .ok db') :
    db' = { db with
      blockchainScanCursors := db.blockchainScanCursors.modify network
        (fun c => { c with lastScannedBlock := n }) fun _ => rfl } := by
  simp only [Write.apply] at h
  split_ifs at h with h1
  exact (Except.ok.inj h).symm

theorem txHashTaken_eq_false {db : Db} {network txHash : String} :
    db.txHashTaken network txHash = false ↔
      ∀ p ∈ db.payments, p.network = network → p.txHash ≠ some txHash := by
  simp [Db.txHashTaken, Table.mem_def]

/-- The rows of `payment.findMany`: the stored payments with one of the
    statuses, each with the invoice it refers to. -/
theorem mem_paymentsWithInvoice {db : Db} {status : List PaymentStatus} {p : PaymentWithInvoice} :
    p ∈ db.paymentsWithInvoice status ↔
      p.toPayment ∈ db.payments ∧ p.status ∈ status ∧ p.invoice ∈ db.invoices ∧
        p.invoice.id = p.invoiceId := by
  obtain ⟨p, i⟩ := p
  simp only [Db.paymentsWithInvoice, List.mem_filterMap, Table.mem_filter, Option.map_eq_some_iff,
    Table.find?_eq_some_iff, List.contains_iff_mem, PaymentWithInvoice.mk.injEq]
  constructor
  · rintro ⟨q, ⟨hq, hs⟩, j, ⟨hj, hk⟩, rfl, rfl⟩
    exact ⟨hq, hs, hj, hk⟩
  · rintro ⟨hq, hs, hj, hk⟩
    exact ⟨p, ⟨hq, hs⟩, i, ⟨hj, hk⟩, rfl, rfl⟩

theorem Db.nodup_paymentsWithInvoice (db : Db) (status : List PaymentStatus) :
    ((db.paymentsWithInvoice status).map fun p => p.id).Nodup := by
  unfold Db.paymentsWithInvoice
  refine List.Nodup.sublist ?_ (db.payments.nodup_filter fun p => status.contains p.status)
  induction db.payments.filter fun p => status.contains p.status with
  | nil => exact .slnil
  | cons p ps ih =>
    rw [List.filterMap_cons]
    cases db.invoices.find? p.invoiceId with
    | none => exact .cons _ ih
    | some i => exact .cons_cons _ ih

end CryptoPay
