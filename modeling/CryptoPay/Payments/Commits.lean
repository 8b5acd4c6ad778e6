import CryptoPay.Payments.Steps

/-!
# The commits of payment processing

Payment processing changes invoices, payments and webhook events in eight
ways, each one a `$transaction` of `CryptoPay.Payments.Steps` or of one of its
two callers. `Commit` lists them with the values that their writes contain:
the rows a pass read earlier, which the database may have moved on from.

Results:
* `Commit.effect`: the rows after a commit, and what the constraints of the
  schema imply about the rows before it.
* `expireInvoice`, `creditTransfer`, … write exactly `Commit.writes`
  (`expire_writes`, `detect_writes`, …), by definition.
-/

namespace CryptoPay

open Data

/-! ## The parts of a row that no write changes -/

/-- An invoice without its status and `paidAt`. -/
def Invoice.terms (i : Invoice) : Invoice := { i with status := .created, paidAt := none }

/-- A payment without its status, confirmations and times of change. -/
def Payment.terms (p : Payment) : Payment :=
  { p with status := .pending, confirmations := 0, confirmedAt := none, updatedAt := 0 }

/-- An invoice after an optional update of the row with some id. -/
def Invoice.updateWhere (i : Invoice) : Option (String × InvoiceUpdateInput) → Invoice
  | some u => if i.id = u.1 then i.update u.2 else i
  | none => i

/-- A payment after an optional update of the row with some id. -/
def Payment.updateWhere (now : Time) (p : Payment) : Option (String × PaymentUpdateInput) → Payment
  | some u => if p.id = u.1 then p.update now u.2 else p
  | none => p

theorem Invoice.terms_updateWhere (i : Invoice) (o : Option (String × InvoiceUpdateInput)) :
    (i.updateWhere o).terms = i.terms := by
  cases o with
  | none => rfl
  | some u => simp only [updateWhere]; split_ifs <;> rfl

theorem Payment.terms_updateWhere (now : Time) (p : Payment)
    (o : Option (String × PaymentUpdateInput)) : (p.updateWhere now o).terms = p.terms := by
  cases o with
  | none => rfl
  | some u => simp only [updateWhere]; split_ifs <;> rfl

/-! ## Commits -/

/-- A successful write to the tables of payment processing. -/
inductive Commit where
  /-- `InvoicesService.create`. -/
  | create (data : InvoiceCreateInput)
  /-- `expireOverdueInvoices`. -/
  | expire (invoice : Invoice) (eventId : String)
  /-- `tryMatchTransfer`. -/
  | detect (invoice : Invoice) (transfer : TokenTransfer) (paymentId : String) (detectedAt : Time)
  /-- `failPayment` and `failOrphanedPayment`. -/
  | fail (payment : PaymentWithInvoice)
  /-- `handleMissingTransaction`, of a confirming payment. -/
  | reorg (payment : PaymentWithInvoice)
  /-- `moveToConfirming`. -/
  | confirm (payment : PaymentWithInvoice) (confirmations : ℤ)
  /-- The new confirmation count of a payment that stays confirming. -/
  | refresh (payment : PaymentWithInvoice) (confirmations : ℤ)
  /-- `finalizePayment`. -/
  | settle (payment : PaymentWithInvoice) (confirmations : ℤ) (confirmedAt : Time)
      (paidAt : Option Time) (eventId : String)

namespace Commit

/-- The invoice that the commit stores. -/
def invoiceCreate : Commit → Option InvoiceCreateInput
  | .create d => some d
  | _ => none

/-- The change it makes to a payment. -/
def paymentUpdate : Commit → Option (String × PaymentUpdateInput)
  | .fail p => some (p.id, { status := some .failed })
  | .reorg p => some (p.id, { status := some .reorgDetected })
  | .confirm p n => some (p.id, { status := some .confirming, confirmations := some n })
  | .refresh p n => some (p.id, { confirmations := some n })
  | .settle p n confirmedAt _ _ => some (p.id,
    { status := some p.amountMatch.outcome.1, confirmations := some n,
      confirmedAt := some confirmedAt })
  | _ => none

/-- The payment that it stores. -/
def paymentCreate : Commit → Option PaymentCreateInput
  | .detect i t paymentId detectedAt => some (detectedPayment paymentId detectedAt i t)
  | _ => none

/-- The change it makes to an invoice. -/
def invoiceUpdate : Commit → Option (String × InvoiceUpdateInput)
  | .expire i _ => some (i.id, { status := .expired })
  | .detect i _ _ _ => some (i.id, { status := .detected })
  | .fail p => some (p.invoiceId, { status := .failed })
  | .confirm p _ => some (p.invoiceId, { status := .confirming })
  | .settle p _ _ paidAt _ => some (p.invoiceId,
    { status := p.amountMatch.outcome.2.1, paidAt := paidAt })
  | _ => none

/-- The write of the webhook event that it stores. -/
def webhookEventCreate : Commit → Option WebhookEventCreateInput
  | .expire i eventId => some (webhookEventInput eventId i "invoice.expired" .expired none)
  | .settle p _ _ _ eventId => some
    (webhookEventInput eventId p.invoice p.amountMatch.outcome.2.2 p.amountMatch.outcome.2.1
      p.txHash)
  | _ => none

/-- Its `$transaction`. -/
def writes (m : Commit) : List Write :=
  m.invoiceCreate.toList.map .invoiceCreate ++
    m.paymentUpdate.toList.map (fun u => .paymentUpdate u.1 u.2) ++
    m.paymentCreate.toList.map .paymentCreate ++
    m.invoiceUpdate.toList.map (fun u => .invoiceUpdate u.1 u.2) ++
    m.webhookEventCreate.toList.map .webhookEventCreate

theorem mem_writes_invoiceUpdate {m : Commit} {id : String} {d : InvoiceUpdateInput}
    (h : .invoiceUpdate id d ∈ m.writes) : m.invoiceUpdate = some (id, d) := by
  simpa [writes] using h

theorem mem_writes_paymentUpdate {m : Commit} {id : String} {d : PaymentUpdateInput}
    (h : .paymentUpdate id d ∈ m.writes) : m.paymentUpdate = some (id, d) := by
  simpa [writes] using h

theorem mem_writes_paymentCreate {m : Commit} {d : PaymentCreateInput} :
    .paymentCreate d ∈ m.writes ↔ m.paymentCreate = some d := by
  simp [writes]

/-- A payment after the commit. -/
def onPayment (m : Commit) (now : Time) (p : Payment) : Payment := p.updateWhere now m.paymentUpdate

/-- An invoice after the commit. -/
def onInvoice (m : Commit) (i : Invoice) : Invoice := i.updateWhere m.invoiceUpdate

@[simp] theorem terms_onPayment (m : Commit) (now : Time) (p : Payment) :
    (m.onPayment now p).terms = p.terms := p.terms_updateWhere now _

@[simp] theorem terms_onInvoice (m : Commit) (i : Invoice) : (m.onInvoice i).terms = i.terms :=
  i.terms_updateWhere _

/-- A commit changes no invoice but the one it names. -/
theorem onInvoice_of_ne {m : Commit} {i : Invoice}
    (h : ∀ u, m.invoiceUpdate = some u → i.id ≠ u.1) : m.onInvoice i = i := by
  unfold onInvoice
  cases hu : m.invoiceUpdate with
  | none => rfl
  | some u => simp only [Invoice.updateWhere]; rw [if_neg (h u hu)]

/-- A commit changes no payment but the one it names. -/
theorem onPayment_of_ne {m : Commit} {now : Time} {p : Payment}
    (h : ∀ u, m.paymentUpdate = some u → p.id ≠ u.1) : m.onPayment now p = p := by
  unfold onPayment
  cases hu : m.paymentUpdate with
  | none => rfl
  | some u => simp only [Payment.updateWhere]; rw [if_neg (h u hu)]

theorem onInvoice_of_eq {m : Commit} {i : Invoice} {u : String × InvoiceUpdateInput}
    (hu : m.invoiceUpdate = some u) (h : i.id = u.1) : m.onInvoice i = i.update u.2 := by
  simp only [onInvoice, hu, Invoice.updateWhere, if_pos h]

theorem onPayment_of_eq {m : Commit} {now : Time} {p : Payment} {u : String × PaymentUpdateInput}
    (hu : m.paymentUpdate = some u) (h : p.id = u.1) : m.onPayment now p = p.update now u.2 := by
  simp only [onPayment, hu, Payment.updateWhere, if_pos h]

/-- What a commit at time `now` does to the tables. -/
structure Effect (m : Commit) (now : Time) (db db' : Db) : Prop where
  invoices : ∀ i', i' ∈ db'.invoices ↔
    (∃ i ∈ db.invoices, i' = m.onInvoice i) ∨ ∃ d, m.invoiceCreate = some d ∧ i' = d.row now
  payments : ∀ p', p' ∈ db'.payments ↔
    (∃ p ∈ db.payments, p' = m.onPayment now p) ∨ ∃ d, m.paymentCreate = some d ∧ p' = d.row now
  webhookEvents : ∀ e', e' ∈ db'.webhookEvents ↔
    e' ∈ db.webhookEvents ∨ ∃ d, m.webhookEventCreate = some d ∧ e' = d.row now
  blockchainScanCursors : db'.blockchainScanCursors = db.blockchainScanCursors
  freshInvoice : ∀ d, m.invoiceCreate = some d → ∀ i ∈ db.invoices, i.id ≠ d.id
  freshPayment : ∀ d, m.paymentCreate = some d → ∀ p ∈ db.payments, p.id ≠ d.id
  freshEvent : ∀ d, m.webhookEventCreate = some d → ∀ e ∈ db.webhookEvents, e.id ≠ d.id
  freshTxHash : ∀ d, m.paymentCreate = some d →
    ∀ p ∈ db.payments, p.network = d.network → p.txHash ≠ some d.txHash
  invoiceExists : ∀ u, m.invoiceUpdate = some u → ∃ i ∈ db.invoices, i.id = u.1
  paymentExists : ∀ u, m.paymentUpdate = some u → ∃ p ∈ db.payments, p.id = u.1

variable {m : Commit} {now : Time} {db db' : Db}

/-! ## The five parts of a transaction -/

theorem invoiceCreate_part {o : Option InvoiceCreateInput}
    (h : db.transaction now (o.toList.map .invoiceCreate) = .ok db') :
    ∃ t, db' = { db with invoices := t } ∧
      (∀ i', i' ∈ t ↔ i' ∈ db.invoices ∨ ∃ d, o = some d ∧ i' = d.row now) ∧
      ∀ d, o = some d → ∀ i ∈ db.invoices, i.id ≠ d.id := by
  rcases transaction_toList h with ⟨rfl, rfl⟩ | ⟨d, rfl, ha⟩
  · exact ⟨_, rfl, by simp, by simp⟩
  · obtain ⟨-, t, ht, rfl⟩ := invoiceCreate_ok ha
    obtain ⟨hfresh, hmem⟩ := Table.insert?_eq_some ht
    refine ⟨t, rfl, fun i' => ?_, ?_⟩
    · rw [hmem, or_comm]; simp
    · rintro _ ⟨⟩; exact hfresh

theorem paymentUpdate_part {o : Option (String × PaymentUpdateInput)}
    (h : db.transaction now (o.toList.map fun u => .paymentUpdate u.1 u.2) = .ok db') :
    ∃ t, db' = { db with payments := t } ∧
      (∀ p', p' ∈ t ↔ ∃ p ∈ db.payments, p' = p.updateWhere now o) ∧
      ∀ u, o = some u → ∃ p ∈ db.payments, p.id = u.1 := by
  rcases transaction_toList h with ⟨rfl, rfl⟩ | ⟨u, rfl, ha⟩
  · exact ⟨_, rfl, by simp [Payment.updateWhere], by simp⟩
  · obtain ⟨hex, rfl⟩ := paymentUpdate_ok ha
    refine ⟨_, rfl, fun p' => Table.mem_modify, ?_⟩
    rintro _ ⟨⟩; exact hex

theorem paymentCreate_part {o : Option PaymentCreateInput}
    (h : db.transaction now (o.toList.map .paymentCreate) = .ok db') :
    ∃ t, db' = { db with payments := t } ∧
      (∀ p', p' ∈ t ↔ p' ∈ db.payments ∨ ∃ d, o = some d ∧ p' = d.row now) ∧
      ∀ d, o = some d → (∀ p ∈ db.payments, p.id ≠ d.id) ∧
        ∀ p ∈ db.payments, p.network = d.network → p.txHash ≠ some d.txHash := by
  rcases transaction_toList h with ⟨rfl, rfl⟩ | ⟨d, rfl, ha⟩
  · exact ⟨_, rfl, by simp, by simp⟩
  · obtain ⟨-, htx, t, ht, rfl⟩ := paymentCreate_ok ha
    obtain ⟨hfresh, hmem⟩ := Table.insert?_eq_some ht
    refine ⟨t, rfl, fun p' => ?_, ?_⟩
    · rw [hmem, or_comm]; simp
    · rintro _ ⟨⟩; exact ⟨hfresh, txHashTaken_eq_false.mp htx⟩

theorem invoiceUpdate_part {o : Option (String × InvoiceUpdateInput)}
    (h : db.transaction now (o.toList.map fun u => .invoiceUpdate u.1 u.2) = .ok db') :
    ∃ t, db' = { db with invoices := t } ∧
      (∀ i', i' ∈ t ↔ ∃ i ∈ db.invoices, i' = i.updateWhere o) ∧
      ∀ u, o = some u → ∃ i ∈ db.invoices, i.id = u.1 := by
  rcases transaction_toList h with ⟨rfl, rfl⟩ | ⟨u, rfl, ha⟩
  · exact ⟨_, rfl, by simp [Invoice.updateWhere], by simp⟩
  · obtain ⟨hex, rfl⟩ := invoiceUpdate_ok ha
    refine ⟨_, rfl, fun i' => Table.mem_modify, ?_⟩
    rintro _ ⟨⟩; exact hex

theorem webhookEventCreate_part {o : Option WebhookEventCreateInput}
    (h : db.transaction now (o.toList.map .webhookEventCreate) = .ok db') :
    ∃ t, db' = { db with webhookEvents := t } ∧
      (∀ e', e' ∈ t ↔ e' ∈ db.webhookEvents ∨ ∃ d, o = some d ∧ e' = d.row now) ∧
      ∀ d, o = some d → ∀ e ∈ db.webhookEvents, e.id ≠ d.id := by
  rcases transaction_toList h with ⟨rfl, rfl⟩ | ⟨d, rfl, ha⟩
  · exact ⟨_, rfl, by simp, by simp⟩
  · obtain ⟨t, ht, rfl⟩ := webhookEventCreate_ok ha
    obtain ⟨hfresh, hmem⟩ := Table.insert?_eq_some ht
    refine ⟨t, rfl, fun e' => ?_, ?_⟩
    · rw [hmem, or_comm]; simp
    · rintro _ ⟨⟩; exact hfresh

/-! ## The whole transaction -/

theorem onInvoice_of_create {d : InvoiceCreateInput} (h : m.invoiceCreate = some d) (i : Invoice) :
    m.onInvoice i = i := by
  cases m <;> first | rfl | cases h

theorem onPayment_of_create {d : PaymentCreateInput} (h : m.paymentCreate = some d) (p : Payment) :
    m.onPayment now p = p := by
  cases m <;> first | rfl | cases h

/-- An invoice is updated by a commit that creates none. -/
theorem invoiceCreate_of_update {u : String × InvoiceUpdateInput} (h : m.invoiceUpdate = some u) :
    m.invoiceCreate = none := by
  cases m <;> first | rfl | cases h

/-- The rows after a commit. -/
theorem effect (h : db.transaction now m.writes = .ok db') : m.Effect now db db' := by
  obtain ⟨db₄, h, h₅⟩ := transaction_append h
  obtain ⟨db₃, h, h₄⟩ := transaction_append h
  obtain ⟨db₂, h, h₃⟩ := transaction_append h
  obtain ⟨db₁, h₁, h₂⟩ := transaction_append h
  obtain ⟨t₁, rfl, hi, hni⟩ := invoiceCreate_part h₁
  obtain ⟨t₂, rfl, hp, hpe⟩ := paymentUpdate_part h₂
  obtain ⟨t₃, rfl, hpc, hnp⟩ := paymentCreate_part h₃
  obtain ⟨t₄, rfl, hiu, hie⟩ := invoiceUpdate_part h₄
  obtain ⟨t₅, rfl, he, hne⟩ := webhookEventCreate_part h₅
  have hpu : ∀ p', p' ∈ t₂ ↔ ∃ p ∈ db.payments, p' = m.onPayment now p := hp
  have hiu : ∀ i', i' ∈ t₄ ↔ ∃ i ∈ t₁, i' = m.onInvoice i := hiu
  refine ⟨fun i' => ?_, fun p' => ?_, he, rfl, hni, fun d hd p hp' => ?_, hne,
    fun d hd p hp' => ?_, fun u hu => ?_, hpe⟩
  · rw [hiu]
    constructor
    · rintro ⟨i, hi', rfl⟩
      rcases (hi i).1 hi' with hi' | ⟨d, hd, rfl⟩
      · exact .inl ⟨i, hi', rfl⟩
      · exact .inr ⟨d, hd, onInvoice_of_create hd _⟩
    · rintro (⟨i, hi', rfl⟩ | ⟨d, hd, rfl⟩)
      · exact ⟨i, (hi i).2 (.inl hi'), rfl⟩
      · exact ⟨_, (hi _).2 (.inr ⟨d, hd, rfl⟩), (onInvoice_of_create hd _).symm⟩
  · rw [hpc, hpu]
  · exact (hnp d hd).1 p ((hpu p).2 ⟨p, hp', (onPayment_of_create hd p).symm⟩)
  · exact (hnp d hd).2 p ((hpu p).2 ⟨p, hp', (onPayment_of_create hd p).symm⟩)
  · obtain ⟨i, hi', hiu'⟩ := hie u hu
    rcases (hi i).1 hi' with hi' | ⟨d, hd, -⟩
    · exact ⟨i, hi', hiu'⟩
    · rw [invoiceCreate_of_update hu] at hd; cases hd

end Commit

end CryptoPay
