import CryptoPay.Payments.Coupling

/-!
# What single requests leave alone, and when a commit goes through

Facts about one request of any service, whichever it is.

Results:
* `respond_spares`: only a transaction that writes payments changes payments.
* `KeptByWrites.respond`: what insertions and updates of invoices keep, every
  request keeps.
* `respond_keepsInvoice`: no request removes an invoice.
* `respond_keepsPayment`: no request removes a payment.
* `respond_clock`: no request moves the clock.
* `Commit.accepted`: a commit goes through when its rows exist, its ids are free, its
  amounts fit and its transaction is not recorded yet.
-/

namespace CryptoPay

open Async Data

variable {A : Signature} {ω ι η : Type} {B : Backend A ω ι η} {pid : ℕ} {w w' : World ω}
  {now : Time} {db db' : Db}

/-! ## Payments -/

/-- The write neither creates nor changes a payment. -/
def Write.SparesPayments : Write → Prop
  | .paymentCreate _ => False
  | .paymentUpdate .. => False
  | _ => True

theorem Write.SparesPayments.apply {x : Write} (hx : x.SparesPayments)
    (h : x.apply now db = .ok db') : db'.payments = db.payments := by
  cases x with
  | invoiceCreate d => obtain ⟨-, t, -, rfl⟩ := invoiceCreate_ok h; rfl
  | invoiceUpdate id d => obtain ⟨-, rfl⟩ := invoiceUpdate_ok h; rfl
  | paymentCreate d => exact hx.elim
  | paymentUpdate id d => exact hx.elim
  | webhookEventCreate d => obtain ⟨t, -, rfl⟩ := webhookEventCreate_ok h; rfl
  | blockchainScanCursorUpdate network n => rw [blockchainScanCursorUpdate_ok h]
  | merchantWalletAddressCreate row => obtain ⟨t, -, rfl⟩ := merchantWalletAddressCreate_ok h; rfl
  | auditLogCreate row => cases h; rfl

/-- The write neither creates nor changes an invoice. -/
def Write.SparesInvoices : Write → Prop
  | .invoiceCreate _ => False
  | .invoiceUpdate .. => False
  | _ => True

theorem Write.SparesInvoices.apply {x : Write} (hx : x.SparesInvoices)
    (h : x.apply now db = .ok db') : db'.invoices = db.invoices := by
  cases x with
  | invoiceCreate d => exact hx.elim
  | invoiceUpdate id d => exact hx.elim
  | paymentCreate d => obtain ⟨-, -, t, -, rfl⟩ := paymentCreate_ok h; rfl
  | paymentUpdate id d => obtain ⟨-, rfl⟩ := paymentUpdate_ok h; rfl
  | webhookEventCreate d => obtain ⟨t, -, rfl⟩ := webhookEventCreate_ok h; rfl
  | blockchainScanCursorUpdate network n => rw [blockchainScanCursorUpdate_ok h]
  | merchantWalletAddressCreate row => obtain ⟨t, -, rfl⟩ := merchantWalletAddressCreate_ok h; rfl
  | auditLogCreate row => cases h; rfl

theorem transaction_spares {ws : List Write} (hws : ∀ x ∈ ws, x.SparesPayments)
    (h : db.transaction now ws = .ok db') : db'.payments = db.payments := by
  induction ws generalizing db with
  | nil => rw [transaction_nil h]
  | cons x ws ih =>
    obtain ⟨db₁, hx, hrest⟩ := transaction_cons h
    rw [ih (fun y hy => hws y (List.mem_cons_of_mem x hy)) hrest]
    exact (hws x List.mem_cons_self).apply hx

/-- The upsert of a cursor changes no other table. -/
theorem upsertCursor_only (db : Db) (network : String) : (db.upsertCursor network).2 =
    { db with blockchainScanCursors := (db.upsertCursor network).2.blockchainScanCursors } := by
  unfold Db.upsertCursor
  split
  · rfl
  · dsimp only
    split <;> rfl

/-- The upsert of a deposit address changes no other table. -/
theorem upsertWallet_only (db : Db) (row : MerchantWalletAddress) : (db.upsertWallet row).2 =
    { db with merchantWalletAddresses := (db.upsertWallet row).2.merchantWalletAddresses } := by
  unfold Db.upsertWallet
  split
  · rfl
  · split <;> rfl

theorem exec_spares {call : PrismaCall}
    (hws : ∀ ws, call = .transaction ws → ∀ x ∈ ws, x.SparesPayments) :
    (call.exec now db).2.payments = db.payments := by
  cases call with
  | transaction ws =>
    simp only [PrismaCall.exec]
    split
    · rename_i db' h; exact transaction_spares (hws ws rfl) h
    · rfl
  | invoiceCreate d =>
    simp only [PrismaCall.exec]
    split
    · rename_i db' h; exact Write.SparesPayments.apply (x := .invoiceCreate d) trivial h
    · rfl
  | merchantWalletAddressUpsert row => exact (congrArg Db.payments (upsertWallet_only db row) :)
  | blockchainScanCursorUpsert network =>
    exact (congrArg Db.payments (upsertCursor_only db network) :)
  | invoiceFindMany f => rfl
  | invoiceFindUnique id => rfl
  | invoiceFindFirst id organizationId => rfl
  | invoiceFindByExternalId organizationId externalId => rfl
  | paymentFindMany status => rfl
  | paymentFindByTxHash network txHash => rfl
  | merchantWalletAddressFindUnique organizationId network token => rfl

/-- A request that is no transaction on payments leaves them as they are. -/
theorem respond_spares {op : Op A} {i : Input ι} {r : (effects A).Ret op}
    (hws : ∀ ws, op = .prisma (.transaction ws) → ∀ x ∈ ws, x.SparesPayments)
    (h : respond B pid w op i = some (r, w')) : w'.db.payments = w.db.payments := by
  cases op with
  | prisma call =>
    rcases respond_prisma h with ⟨-, rfl⟩ | ⟨-, rfl⟩
    · exact exec_spares fun ws hcall => hws ws (congrArg Op.prisma hcall)
    · rfl
  | now => rw [(respond_now h).2]
  | generateId stem => rw [respond_generateId h]
  | generateFakeAddress => rw [respond_generateFakeAddress h]
  | cuid => rw [respond_cuid h]
  | mark m => rw [respond_mark h]
  | other op =>
    obtain ⟨k, o, -, rfl⟩ := respond_other h
    rfl

/-! ## Invoices -/

/-- What holds of the invoices as long as they change by insertions and updates only. -/
structure KeptByWrites (P : Table Invoice.id → Prop) : Prop where
  create : ∀ t t' (d : InvoiceCreateInput) (now : Time), P t →
    (d.externalId.isSome = true → ∀ i ∈ t,
      ¬ (i.organizationId = d.organizationId ∧ i.externalId = d.externalId)) →
    t.insert? (d.row now) = some t' → P t'
  update : ∀ t id (d : InvoiceUpdateInput), P t → P (t.modify id (Invoice.update d) fun _ => rfl)

section KeptByWrites

variable {P : Table Invoice.id → Prop} (hP : KeptByWrites P)
include hP

theorem KeptByWrites.apply {x : Write} (hi : P db.invoices) (h : x.apply now db = .ok db') :
    P db'.invoices := by
  cases x with
  | invoiceCreate d =>
    obtain ⟨htaken, t, ht, rfl⟩ := invoiceCreate_ok h
    refine hP.create _ t d now hi (fun hsome i hi ⟨horg, hext⟩ => ?_) ht
    have hany : (db.invoices.rows.any fun i =>
        i.organizationId = d.organizationId ∧ i.externalId = d.externalId) = true :=
      List.any_eq_true.mpr ⟨i, hi, decide_eq_true ⟨horg, hext⟩⟩
    rw [Db.externalIdTaken, hsome, hany] at htaken
    cases htaken
  | invoiceUpdate id d => obtain ⟨-, rfl⟩ := invoiceUpdate_ok h; exact hP.update _ id d hi
  | paymentCreate d => obtain ⟨-, -, t, -, rfl⟩ := paymentCreate_ok h; exact hi
  | paymentUpdate id d => obtain ⟨-, rfl⟩ := paymentUpdate_ok h; exact hi
  | webhookEventCreate d => obtain ⟨t, -, rfl⟩ := webhookEventCreate_ok h; exact hi
  | blockchainScanCursorUpdate network n => rw [blockchainScanCursorUpdate_ok h]; exact hi
  | merchantWalletAddressCreate row =>
    obtain ⟨t, -, rfl⟩ := merchantWalletAddressCreate_ok h
    exact hi
  | auditLogCreate row => cases h; exact hi

theorem KeptByWrites.transaction {ws : List Write} (hi : P db.invoices)
    (h : db.transaction now ws = .ok db') : P db'.invoices := by
  induction ws generalizing db with
  | nil => rw [transaction_nil h]; exact hi
  | cons x ws ih =>
    obtain ⟨db₁, hx, hrest⟩ := transaction_cons h
    exact ih (hP.apply hi hx) hrest

theorem KeptByWrites.exec {call : PrismaCall} (hi : P db.invoices) :
    P (call.exec now db).2.invoices := by
  cases call with
  | transaction ws =>
    simp only [PrismaCall.exec]
    split
    · rename_i db' h; exact hP.transaction hi h
    · exact hi
  | invoiceCreate d =>
    simp only [PrismaCall.exec]
    split
    · rename_i db' h; exact hP.apply hi h
    · exact hi
  | merchantWalletAddressUpsert row =>
    exact (congrArg Db.invoices (upsertWallet_only db row)).symm ▸ hi
  | blockchainScanCursorUpsert network =>
    exact (congrArg Db.invoices (upsertCursor_only db network)).symm ▸ hi
  | invoiceFindMany f => exact hi
  | invoiceFindUnique id => exact hi
  | invoiceFindFirst id organizationId => exact hi
  | invoiceFindByExternalId organizationId externalId => exact hi
  | paymentFindMany status => exact hi
  | paymentFindByTxHash network txHash => exact hi
  | merchantWalletAddressFindUnique organizationId network token => exact hi

/-- Every request keeps it. -/
theorem KeptByWrites.respond {op : Op A} {i : Input ι} {r : (effects A).Ret op}
    (hi : P w.db.invoices) (h : respond B pid w op i = some (r, w')) : P w'.db.invoices := by
  cases op with
  | prisma call =>
    rcases respond_prisma h with ⟨-, rfl⟩ | ⟨-, rfl⟩
    · exact hP.exec hi
    · exact hi
  | now => rw [(respond_now h).2]; exact hi
  | generateId stem => rw [respond_generateId h]; exact hi
  | generateFakeAddress => rw [respond_generateFakeAddress h]; exact hi
  | cuid => rw [respond_cuid h]; exact hi
  | mark m => rw [respond_mark h]; exact hi
  | other op =>
    obtain ⟨k, o, -, rfl⟩ := respond_other h
    exact hi

end KeptByWrites

/-- An invoice is stored under this id. -/
def InvoiceExists (id : String) (db : Db) : Prop := ∃ i ∈ db.invoices, i.id = id

theorem invoiceExists_kept (id : String) : KeptByWrites fun t => ∃ i ∈ t, i.id = id where
  create t t' d now hi _ ht := by
    obtain ⟨i, hmem, hid⟩ := hi
    exact ⟨i, ((Table.insert?_eq_some ht).2 i).mpr (.inr hmem), hid⟩
  update t id' d hi := by
    obtain ⟨i, hmem, hid⟩ := hi
    refine ⟨_, Table.mem_modify_of_mem (f := Invoice.update d) (k := id') hmem fun _ => rfl, ?_⟩
    split_ifs <;> exact hid

theorem InvoiceExists.transaction {ws : List Write} {id : String} (hi : InvoiceExists id db)
    (h : db.transaction now ws = .ok db') : InvoiceExists id db' :=
  (invoiceExists_kept id).transaction hi h

/-- No request removes an invoice. -/
theorem respond_keepsInvoice {op : Op A} {i : Input ι} {r : (effects A).Ret op} {id : String}
    (hi : InvoiceExists id w.db) (h : respond B pid w op i = some (r, w')) :
    InvoiceExists id w'.db := (invoiceExists_kept id).respond hi h

/-! ## Payments are kept -/

theorem HasPayment.apply {x : Write} {p : Payment} (hp : HasPayment p db)
    (h : x.apply now db = .ok db') : HasPayment p db' := by
  obtain ⟨row, hrow, hterms⟩ := hp
  cases x with
  | paymentCreate d =>
    obtain ⟨-, -, t, ht, rfl⟩ := paymentCreate_ok h
    exact ⟨row, ((Table.insert?_eq_some ht).2 row).2 (.inr hrow), hterms⟩
  | paymentUpdate id d =>
    obtain ⟨-, rfl⟩ := paymentUpdate_ok h
    refine ⟨_, Table.mem_modify_of_mem (f := Payment.update now d) (k := id) hrow fun _ => rfl, ?_⟩
    split_ifs <;> exact hterms
  | _ =>
    rw [HasPayment, Write.SparesPayments.apply (by trivial) h]
    exact ⟨row, hrow, hterms⟩

theorem HasPayment.transaction {ws : List Write} {p : Payment} (hp : HasPayment p db)
    (h : db.transaction now ws = .ok db') : HasPayment p db' := by
  induction ws generalizing db with
  | nil => rw [transaction_nil h]; exact hp
  | cons x ws ih =>
    obtain ⟨db₁, hx, hrest⟩ := transaction_cons h
    exact ih (hp.apply hx) hrest

/-- No request removes a payment, or changes what it is for. -/
theorem respond_keepsPayment {op : Op A} {i : Input ι} {r : (effects A).Ret op} {p : Payment}
    (hp : HasPayment p w.db) (h : respond B pid w op i = some (r, w')) : HasPayment p w'.db := by
  by_cases hws : ∃ ws, op = .prisma (.transaction ws)
  · obtain ⟨ws, rfl⟩ := hws
    rcases respond_transaction h with ⟨db', hdb', -, rfl⟩ | ⟨-, rfl⟩
    · exact hp.transaction hdb'
    · exact hp
  · rw [HasPayment, respond_spares (fun ws hop => absurd ⟨ws, hop⟩ hws) h]
    exact hp

/-! ## The clock -/

/-- No request moves the clock. -/
theorem respond_clock {op : Op A} {i : Input ι} {r : (effects A).Ret op}
    (h : respond B pid w op i = some (r, w')) : w'.clock = w.clock := by
  cases op with
  | prisma call => rcases respond_prisma h with ⟨-, rfl⟩ | ⟨-, rfl⟩ <;> rfl
  | now => rw [(respond_now h).2]
  | generateId stem => rw [respond_generateId h]
  | generateFakeAddress => rw [respond_generateFakeAddress h]
  | cuid => rw [respond_cuid h]
  | mark m => rw [respond_mark h]
  | other op =>
    obtain ⟨k, o, -, rfl⟩ := respond_other h
    rfl

/-- The environment moves the clock as the backend lets it. -/
theorem environment_clock {act : Act η} (h : environment B w act = some w') :
    w'.clock = w.clock ∨ B.tick w.clock w'.clock = true := by
  cases act with
  | clock t =>
    simp only [environment] at h
    split_ifs at h with ht
    cases h
    exact .inr ht
  | reorderInvoices rows =>
    simp only [environment] at h
    split_ifs at h
    cases h
    exact .inl rfl
  | reorderPayments rows =>
    simp only [environment] at h
    split_ifs at h
    cases h
    exact .inl rfl
  | other e =>
    obtain ⟨o, -, rfl⟩ := Option.map_eq_some_iff.mp h
    exact .inl rfl

/-! ## Accepted commits -/

theorem transaction_append_ok {ws ws' : List Write} {db₁ : Db}
    (h : db.transaction now ws = .ok db₁) (h' : db₁.transaction now ws' = .ok db') :
    db.transaction now (ws ++ ws') = .ok db' := by
  unfold Db.transaction at h h' ⊢
  rw [List.foldlM_append, h]
  exact h'

theorem transaction_toList_ok {α : Type} {o : Option α} {f : α → Write}
    (h : ∀ a, o = some a → ∃ db', (f a).apply now db = .ok db') :
    ∃ db', db.transaction now (o.toList.map f) = .ok db' := by
  cases o with
  | none => exact ⟨db, rfl⟩
  | some a =>
    obtain ⟨db', hdb'⟩ := h a rfl
    exact ⟨db', transaction_singleton hdb'⟩

theorem InvoiceExists.found {id : String} (h : InvoiceExists id db) :
    (db.invoices.find? id).isSome = true := Table.find?_isSome_iff.mpr h

theorem insertRow_accepted {ρ κ : Type} [DecidableEq κ] {key : ρ → κ} {t : Table key} {r : ρ}
    (h : ∀ x ∈ t, key x ≠ key r) : ∃ t', insertRow t r = .ok t' := by
  have hnew : key r ∉ t.rows.map key := by
    intro hmem
    obtain ⟨x, hx, hkey⟩ := List.mem_map.mp hmem
    exact h x hx hkey
  unfold insertRow Table.insert?
  rw [dif_neg hnew]
  exact ⟨_, rfl⟩

/-- What a commit that creates no invoice needs to go through. -/
structure Commit.Acceptable (m : Commit) (db : Db) : Prop where
  invoiceCreate : m.invoiceCreate = none
  paymentUpdate : ∀ u, m.paymentUpdate = some u → ∃ p ∈ db.payments, p.id = u.1
  paymentCreate : ∀ d, m.paymentCreate = some d → d.expectedAmount.fitsColumn = true ∧
    d.receivedAmount.fitsColumn = true ∧ InvoiceExists d.invoiceId db ∧
    (∀ p ∈ db.payments, p.network = d.network → p.txHash ≠ some d.txHash) ∧
    ∀ p ∈ db.payments, p.id ≠ d.id
  invoiceUpdate : ∀ u, m.invoiceUpdate = some u → InvoiceExists u.1 db
  webhookEventCreate : ∀ d, m.webhookEventCreate = some d → InvoiceExists d.invoiceId db ∧
    ∀ e ∈ db.webhookEvents, e.id ≠ d.id

/-- A commit that updates a payment creates none. -/
theorem Commit.paymentUpdate_of_create {m : Commit} {d : PaymentCreateInput}
    (h : m.paymentCreate = some d) : m.paymentUpdate = none := by
  cases m <;> first | rfl | cases h

/-- A commit that has what it needs goes through. -/
theorem Commit.accepted {m : Commit} (h : m.Acceptable db) :
    ∃ db', db.transaction now m.writes = .ok db' := by
  obtain ⟨db₁, h₁⟩ : ∃ db₁, db.transaction now
      (m.paymentUpdate.toList.map fun u => .paymentUpdate u.1 u.2) = .ok db₁ := by
    refine transaction_toList_ok fun u hu => ?_
    have hfound := Table.find?_isSome_iff.mpr (h.paymentUpdate u hu)
    exact ⟨_, if_pos hfound⟩
  have hi₁ : ∀ id, InvoiceExists id db → InvoiceExists id db₁ := fun _ hi => hi.transaction h₁
  obtain ⟨db₂, h₂⟩ : ∃ db₂, db₁.transaction now
      (m.paymentCreate.toList.map .paymentCreate) = .ok db₂ := by
    refine transaction_toList_ok fun d hd => ?_
    -- nothing has been written before a payment is created
    rw [paymentUpdate_of_create hd] at h₁
    obtain rfl := transaction_nil h₁
    obtain ⟨hexpected, hreceived, hinvoice, htx, hid⟩ := h.paymentCreate d hd
    obtain ⟨t, ht⟩ := insertRow_accepted (t := db₁.payments) (r := d.row now) hid
    refine ⟨{ db₁ with payments := t }, ?_⟩
    simp [Write.apply, hexpected, hreceived, hinvoice.found, txHashTaken_eq_false.mpr htx, ht,
      Except.map]
  have hi₂ : ∀ id, InvoiceExists id db → InvoiceExists id db₂ := fun id hi => (hi₁ id hi).transaction h₂
  obtain ⟨db₃, h₃⟩ : ∃ db₃, db₂.transaction now
      (m.invoiceUpdate.toList.map fun u => .invoiceUpdate u.1 u.2) = .ok db₃ :=
    transaction_toList_ok fun u hu => ⟨_, if_pos (hi₂ _ (h.invoiceUpdate u hu)).found⟩
  have hi₃ : ∀ id, InvoiceExists id db → InvoiceExists id db₃ := fun id hi => (hi₂ id hi).transaction h₃
  obtain ⟨db₄, h₄⟩ : ∃ db₄, db₃.transaction now
      (m.webhookEventCreate.toList.map .webhookEventCreate) = .ok db₄ := by
    refine transaction_toList_ok fun d hd => ?_
    obtain ⟨hinvoice, hid⟩ := h.webhookEventCreate d hd
    have hevents : db₃.webhookEvents = db.webhookEvents := by
      obtain ⟨t₁, rfl, -⟩ := paymentUpdate_part h₁
      obtain ⟨t₂, rfl, -⟩ := paymentCreate_part h₂
      obtain ⟨t₃, rfl, -⟩ := invoiceUpdate_part h₃
      rfl
    obtain ⟨t, ht⟩ := insertRow_accepted (t := db₃.webhookEvents) (r := d.row now)
      (hevents ▸ hid)
    refine ⟨{ db₃ with webhookEvents := t }, ?_⟩
    simp [Write.apply, (hi₃ _ hinvoice).found, ht, Except.map]
  refine ⟨db₄, ?_⟩
  unfold Commit.writes
  rw [h.invoiceCreate]
  exact transaction_append_ok (transaction_append_ok (transaction_append_ok h₁ h₂) h₃) h₄

/-- Such a commit is made, unless the database is not reached. -/
theorem Commit.respond_accepted {m : Commit} (hm : m.Acceptable w.db) {i : Input ι}
    {r : Except Error Unit}
    (h : respond B pid w (.prisma (.transaction m.writes)) i = some (r, w')) :
    r = .ok () ∧ m.Effect w.clock w.db w'.db ∨ r = .error (.prisma .connection) ∧ w' = w := by
  rcases respond_prisma h with ⟨rfl, rfl⟩ | hfailed
  · obtain ⟨db', hdb'⟩ : ∃ db', w.db.transaction w.clock m.writes = .ok db' := Commit.accepted hm
    refine .inl ?_
    simp only [PrismaCall.exec, hdb']
    exact ⟨rfl, Commit.effect hdb'⟩
  · exact .inr hfailed

end CryptoPay
