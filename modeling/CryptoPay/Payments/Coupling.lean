import CryptoPay.Payments.Commits

/-!
# Coupled invoices and payments

`Db.Owned` relates payments to invoices by what no write changes; `Db.Coupled R`
adds that an invoice has at most one payment and that `R` relates the two
statuses (`none` stands for an invoice without payment). `R` is a parameter:
how far the two machines may drift apart depends on who runs concurrently.

Results:
* `Owned.commit`: every commit that creates its payment for an existing invoice
  keeps the first.
* `Coupled.create`, `Coupled.expire`, `Coupled.detect`, `Coupled.advance`: what
  each kind of commit has to know about the stored rows to keep the second.
-/

namespace CryptoPay

open Data

/-- The payment asks for what the invoice asks for. -/
structure Payment.Charges (p : Payment) (i : Invoice) : Prop where
  invoiceId : p.invoiceId = i.id
  organizationId : p.organizationId = i.organizationId
  network : p.network = i.network
  token : p.token = i.token
  expectedAmount : p.expectedAmount = i.amount

/-- `Charges` depends on nothing that a write changes. -/
theorem Payment.Charges.congr {p p' : Payment} {i i' : Invoice} (h : p.Charges i)
    (hp : p'.terms = p.terms) (hi : i'.terms = i.terms) : p'.Charges i' := by
  simp only [Payment.terms, Payment.mk.injEq] at hp
  simp only [Invoice.terms, Invoice.mk.injEq] at hi
  constructor <;> simp only [hp, hi, h.invoiceId, h.organizationId, h.network, h.token,
    h.expectedAmount]

/-- A final status agrees with the amounts, and an amount was received. -/
structure Payment.Settled (p : Payment) : Prop where
  received : p.receivedAmount.isSome = true
  outcome : ∀ r : PaymentAmountMatch, p.status = r.outcome.1 → p.amountMatch = r

theorem terms_invoiceId {p q : Payment} (h : p.terms = q.terms) : p.invoiceId = q.invoiceId :=
  (congrArg Payment.invoiceId h :)

theorem terms_paymentId {p q : Payment} (h : p.terms = q.terms) : p.id = q.id :=
  (congrArg Payment.id h :)

theorem terms_id {i j : Invoice} (h : i.terms = j.terms) : i.id = j.id :=
  (congrArg Invoice.id h :)

/-- Every payment has an invoice, and charges it. -/
def Db.Owned (db : Db) : Prop := ∀ p ∈ db.payments, ∃ i ∈ db.invoices, p.Charges i

variable {db db' : Db} {m : Commit} {now : Time}

/-- The payment of a detection charges the invoice it was matched to. -/
theorem detectedPayment_charges {i : Invoice} {t : TokenTransfer} {id : String} {at' : Time}
    (ht : i.token = t.token) : ((detectedPayment id at' i t).row now).Charges i :=
  ⟨rfl, rfl, rfl, ht.symm, rfl⟩

namespace Commit.Effect

variable (he : m.Effect now db db')
include he

/-- A row that exists before a commit exists after it. -/
theorem keeps_invoice {i : Invoice} (hi : i ∈ db.invoices) : m.onInvoice i ∈ db'.invoices :=
  (he.invoices _).2 (.inl ⟨i, hi, rfl⟩)

theorem keeps_payment {p : Payment} (hp : p ∈ db.payments) : m.onPayment now p ∈ db'.payments :=
  (he.payments _).2 (.inl ⟨p, hp, rfl⟩)

/-- The row after a commit of an invoice that was stored before. -/
theorem invoice_eq {i i' : Invoice} (hi : i ∈ db.invoices) (hi' : i' ∈ db'.invoices)
    (hid : i'.id = i.id) : i' = m.onInvoice i := by
  rcases (he.invoices i').1 hi' with ⟨i₀, hi₀, rfl⟩ | ⟨d, hd, rfl⟩
  · rw [Table.eq_of_key hi₀ hi ((terms_id (m.terms_onInvoice i₀)).symm.trans hid)]
  · exact absurd hid.symm (he.freshInvoice d hd i hi)

/-- The row after a commit of a payment that was stored before. -/
theorem payment_eq {p p' : Payment} (hp : p ∈ db.payments) (hp' : p' ∈ db'.payments)
    (hid : p'.id = p.id) : p' = m.onPayment now p := by
  rcases (he.payments p').1 hp' with ⟨p₀, hp₀, rfl⟩ | ⟨d, hd, rfl⟩
  · rw [Table.eq_of_key hp₀ hp ((terms_paymentId (m.terms_onPayment now p₀)).symm.trans hid)]
  · exact absurd hid.symm (he.freshPayment d hd p hp)

end Commit.Effect

/-- The invoice is stored, up to what a commit may change. -/
def HasInvoice (i : Invoice) (db : Db) : Prop := ∃ row ∈ db.invoices, row.terms = i.terms

/-- The payment is stored, up to what a commit may change. -/
def HasPayment (p : Payment) (db : Db) : Prop := ∃ row ∈ db.payments, row.terms = p.terms

theorem HasInvoice.commit {i : Invoice} (h : HasInvoice i db) (he : m.Effect now db db') :
    HasInvoice i db' := by
  obtain ⟨row, hrow, hterms⟩ := h
  exact ⟨_, he.keeps_invoice hrow, (m.terms_onInvoice row).trans hterms⟩

theorem HasPayment.commit {p : Payment} (h : HasPayment p db) (he : m.Effect now db db') :
    HasPayment p db' := by
  obtain ⟨row, hrow, hterms⟩ := h
  exact ⟨_, he.keeps_payment hrow, (m.terms_onPayment now row).trans hterms⟩

/-- The payment is for the transaction of the transfer. -/
structure PaysFor (p : Payment) (t : TokenTransfer) : Prop where
  network : p.network = t.network
  txHash : p.txHash = some t.txHash

theorem PaysFor.congr {p p' : Payment} {t : TokenTransfer} (h : PaysFor p t)
    (hp : p'.terms = p.terms) : PaysFor p' t :=
  ⟨(congrArg Payment.network hp :).trans h.network, (congrArg Payment.txHash hp :).trans h.txHash⟩

/-- Every commit keeps `Owned`, if a payment it creates charges a stored invoice. -/
theorem Db.Owned.commit (h : db.Owned) (he : m.Effect now db db')
    (hcreate : ∀ d, m.paymentCreate = some d → ∃ i ∈ db.invoices, (d.row now).Charges i) :
    db'.Owned := by
  intro p' hp'
  rcases (he.payments p').1 hp' with ⟨p, hp, rfl⟩ | ⟨d, hd, rfl⟩
  · obtain ⟨i, hi, hc⟩ := h p hp
    exact ⟨_, he.keeps_invoice hi, hc.congr (m.terms_onPayment now p) (m.terms_onInvoice i)⟩
  · obtain ⟨i, hi, hc⟩ := hcreate d hd
    exact ⟨_, he.keeps_invoice hi, hc.congr rfl (m.terms_onInvoice i)⟩

/-- Invoices and payments in step: see the module text. -/
structure Db.Coupled (R : Option PaymentStatus → InvoiceStatus → Prop) (db : Db) : Prop where
  owned : db.Owned
  single : ∀ p ∈ db.payments, ∀ q ∈ db.payments, p.invoiceId = q.invoiceId → p = q
  settled : ∀ p ∈ db.payments, p.Settled
  unpaid : ∀ i ∈ db.invoices, (∀ p ∈ db.payments, p.invoiceId ≠ i.id) → R none i.status
  paid : ∀ p ∈ db.payments, ∀ i ∈ db.invoices, p.invoiceId = i.id → R (some p.status) i.status

theorem Db.Coupled.empty (R : Option PaymentStatus → InvoiceStatus → Prop)
    (hi : ∀ i, i ∉ db.invoices) (hp : ∀ p, p ∉ db.payments) : db.Coupled R where
  owned p h := absurd h (hp p)
  single p h := absurd h (hp p)
  settled p h := absurd h (hp p)
  unpaid i h := absurd h (hi i)
  paid p h := absurd h (hp p)

/-- The rows of a database, up to their order. -/
structure Db.SameRows (db db' : Db) : Prop where
  invoices : ∀ i, i ∈ db'.invoices ↔ i ∈ db.invoices
  payments : ∀ p, p ∈ db'.payments ↔ p ∈ db.payments
  webhookEvents : ∀ e, e ∈ db'.webhookEvents ↔ e ∈ db.webhookEvents

theorem Db.SameRows.refl (db : Db) : db.SameRows db := ⟨fun _ => .rfl, fun _ => .rfl, fun _ => .rfl⟩

theorem Db.SameRows.symm (h : db.SameRows db') : db'.SameRows db :=
  ⟨fun i => (h.invoices i).symm, fun p => (h.payments p).symm, fun e => (h.webhookEvents e).symm⟩

theorem Db.SameRows.trans {db₁ db₂ db₃ : Db} (h : db₁.SameRows db₂) (h' : db₂.SameRows db₃) :
    db₁.SameRows db₃ where
  invoices i := (h'.invoices i).trans (h.invoices i)
  payments p := (h'.payments p).trans (h.payments p)
  webhookEvents e := (h'.webhookEvents e).trans (h.webhookEvents e)

theorem HasInvoice.congr {i : Invoice} (h : HasInvoice i db) (hs : db.SameRows db') :
    HasInvoice i db' := by
  obtain ⟨row, hrow, hterms⟩ := h
  exact ⟨row, (hs.invoices row).2 hrow, hterms⟩

theorem HasPayment.congr {p : Payment} (h : HasPayment p db) (hs : db.SameRows db') :
    HasPayment p db' := by
  obtain ⟨row, hrow, hterms⟩ := h
  exact ⟨row, (hs.payments row).2 hrow, hterms⟩

theorem Db.Owned.congr (h : db.Owned) (hs : db.SameRows db') : db'.Owned := by
  intro p hp
  obtain ⟨i, hi, hc⟩ := h p ((hs.payments p).1 hp)
  exact ⟨i, (hs.invoices i).2 hi, hc⟩

variable {R : Option PaymentStatus → InvoiceStatus → Prop}

theorem Db.Coupled.congr (h : db.Coupled R) (hs : db.SameRows db') : db'.Coupled R where
  owned := h.owned.congr hs
  single p hp q hq := h.single p ((hs.payments p).1 hp) q ((hs.payments q).1 hq)
  settled p hp := h.settled p ((hs.payments p).1 hp)
  unpaid i hi hno :=
    h.unpaid i ((hs.invoices i).1 hi) fun p hp => hno p ((hs.payments p).2 hp)
  paid p hp i hi := h.paid p ((hs.payments p).1 hp) i ((hs.invoices i).1 hi)

/-- An invoice whose status needs a payment has one. -/
theorem Db.Coupled.payment_of (h : db.Coupled R) {i : Invoice} (hi : i ∈ db.invoices)
    (hs : ¬ R none i.status) : ∃ p ∈ db.payments, p.Charges i ∧ R (some p.status) i.status := by
  by_cases hex : ∃ p ∈ db.payments, p.invoiceId = i.id
  · obtain ⟨p, hp, hpi⟩ := hex
    obtain ⟨j, hj, hc⟩ := h.owned p hp
    rw [Table.eq_of_key hj hi (hc.invoiceId.symm.trans hpi)] at hc
    exact ⟨p, hp, hc, h.paid p hp i hi hpi⟩
  · exact absurd (h.unpaid i hi fun p hp hpi => hex ⟨p, hp, hpi⟩) hs

/-- A settled payment received what its status says. -/
theorem Payment.Settled.received_eq {p : Payment} (h : p.Settled) {r : PaymentAmountMatch}
    (hs : p.status = r.outcome.1) :
    ∃ a, p.receivedAmount = some a ∧ evaluatePaymentAmount p.expectedAmount a = r := by
  obtain ⟨a, ha⟩ := Option.isSome_iff_exists.mp h.received
  have hm := h.outcome r hs
  rw [Payment.amountMatch, ha, Option.getD_some] at hm
  exact ⟨a, ha, hm⟩

/-! ## Commits that create no payment -/

/-- A commit that creates no payment keeps the coupling, if it does so on the
    rows it changes. -/
theorem Db.Coupled.update (h : db.Coupled R) (he : m.Effect now db db')
    (hp : m.paymentCreate = none) (hcreate : ∀ d, m.invoiceCreate = some d → R none d.status)
    (hsettled : ∀ p ∈ db.payments, (m.onPayment now p).Settled)
    (hunpaid : ∀ i ∈ db.invoices, (∀ p ∈ db.payments, p.invoiceId ≠ i.id) →
      R none (m.onInvoice i).status)
    (hpaid : ∀ p ∈ db.payments, ∀ i ∈ db.invoices, p.invoiceId = i.id →
      R (some (m.onPayment now p).status) (m.onInvoice i).status) : db'.Coupled R := by
  have hpay : ∀ p', p' ∈ db'.payments ↔ ∃ p ∈ db.payments, p' = m.onPayment now p := by
    intro p'
    rw [he.payments, hp]
    simp
  have hid : ∀ p, (m.onPayment now p).invoiceId = p.invoiceId := fun p =>
    terms_invoiceId (m.terms_onPayment now p)
  have hiid : ∀ i, (m.onInvoice i).id = i.id := fun i => terms_id (m.terms_onInvoice i)
  refine ⟨h.owned.commit he (by simp [hp]), ?_, ?_, ?_, ?_⟩
  · intro p' hp' q' hq' hpq
    obtain ⟨p, hp, rfl⟩ := (hpay p').1 hp'
    obtain ⟨q, hq, rfl⟩ := (hpay q').1 hq'
    rw [hid, hid] at hpq
    rw [h.single p hp q hq hpq]
  · intro p' hp'
    obtain ⟨p, hp, rfl⟩ := (hpay p').1 hp'
    exact hsettled p hp
  · intro i' hi' hno
    rcases (he.invoices i').1 hi' with ⟨i, hi, rfl⟩ | ⟨d, hd, rfl⟩
    · refine hunpaid i hi fun p hp hpi => hno _ ((hpay _).2 ⟨p, hp, rfl⟩) ?_
      rw [hid, hiid, hpi]
    · exact hcreate d hd
  · intro p' hp' i' hi' hpi
    obtain ⟨p, hp, rfl⟩ := (hpay p').1 hp'
    rcases (he.invoices i').1 hi' with ⟨i, hi, rfl⟩ | ⟨d, hd, rfl⟩
    · rw [hid, hiid] at hpi
      exact hpaid p hp i hi hpi
    · -- a fresh invoice has no payment: the invoice of an old one is stored
      obtain ⟨j, hj, hc⟩ := h.owned p hp
      refine absurd ?_ (he.freshInvoice d hd j hj)
      rw [← hc.invoiceId, ← hid p, hpi]
      rfl

/-- Creating an invoice. -/
theorem Db.Coupled.create {d : InvoiceCreateInput} (h : db.Coupled R)
    (he : (Commit.create d).Effect now db db') (hR : R none d.status) : db'.Coupled R :=
  h.update he rfl (by rintro _ ⟨⟩; exact hR) h.settled h.unpaid h.paid

/-- Expiring an invoice, whatever its status. -/
theorem Db.Coupled.expire {i : Invoice} {eventId : String} (h : db.Coupled R)
    (he : (Commit.expire i eventId).Effect now db db')
    (hunpaid : (∀ p ∈ db.payments, p.invoiceId ≠ i.id) → R none .expired)
    (hpaid : ∀ p ∈ db.payments, p.invoiceId = i.id → R (some p.status) .expired) :
    db'.Coupled R := by
  have hstatus : ∀ j : Invoice, ((Commit.expire i eventId).onInvoice j).status =
      if j.id = i.id then .expired else j.status := by
    intro j
    simp only [Commit.onInvoice, Commit.invoiceUpdate, Invoice.updateWhere]
    split_ifs <;> rfl
  refine h.update he rfl (by rintro _ ⟨⟩) h.settled (fun j hj hno => ?_) fun p hp j hj hpj => ?_
  · rw [hstatus]
    split_ifs with hji
    · exact hunpaid (hji ▸ hno)
    · exact h.unpaid j hj hno
  · rw [hstatus]
    split_ifs with hji
    · exact hpaid p hp (hpj.trans hji)
    · exact h.paid p hp j hj hpj

/-- Changing a payment, and possibly its invoice. -/
theorem Db.Coupled.advance {p : Payment} {d : PaymentUpdateInput} (h : db.Coupled R)
    (he : m.Effect now db db') (hp : p ∈ db.payments) (hcreate : m.invoiceCreate = none)
    (hpcreate : m.paymentCreate = none) (hpu : m.paymentUpdate = some (p.id, d))
    (hiu : ∀ u, m.invoiceUpdate = some u → u.1 = p.invoiceId)
    (hsettled : (p.update now d).Settled)
    (hR : ∀ i ∈ db.invoices, p.invoiceId = i.id →
      R (some (p.update now d).status) (m.onInvoice i).status) : db'.Coupled R := by
  have hon : ∀ q ∈ db.payments, m.onPayment now q = if q.id = p.id then p.update now d else q := by
    intro q hq
    simp only [Commit.onPayment, hpu, Payment.updateWhere]
    split_ifs with hqp
    · rw [Table.eq_of_key hq hp hqp]
    · rfl
  have hother : ∀ i : Invoice, i.id ≠ p.invoiceId → m.onInvoice i = i := fun i hi =>
    Commit.onInvoice_of_ne fun u hu => by rw [hiu u hu]; exact hi
  refine h.update he hpcreate (by simp [hcreate]) (fun q hq => ?_) (fun i hi hno => ?_)
    fun q hq i hi hqi => ?_
  · rw [hon q hq]
    split_ifs
    · exact hsettled
    · exact h.settled q hq
  · rw [hother i fun hip => hno p hp hip.symm]
    exact h.unpaid i hi hno
  · rw [hon q hq]
    split_ifs with hqp
    · rw [Table.eq_of_key hq hp hqp] at hqi
      exact hR i hi hqi
    · have hne : i.id ≠ p.invoiceId := by
        intro hip
        exact hqp (by rw [h.single q hq p hp (hqi.trans hip)])
      rw [hother i hne]
      exact h.paid q hq i hi hqi

/-! ## Snapshots -/

/-- The payment and the invoice of a snapshot are still the stored rows. -/
structure Stored (p : PaymentWithInvoice) (db : Db) : Prop where
  payment : p.toPayment ∈ db.payments
  invoice : p.invoice ∈ db.invoices
  id : p.invoiceId = p.invoice.id

/-- The rows of a snapshot that a commit does not name stay as they are. -/
theorem Stored.keep {p : PaymentWithInvoice} (h : Stored p db) (he : m.Effect now db db')
    (hp : ∀ u, m.paymentUpdate = some u → p.id ≠ u.1)
    (hi : ∀ u, m.invoiceUpdate = some u → p.invoice.id ≠ u.1) : Stored p db' where
  payment := Commit.onPayment_of_ne hp ▸ he.keeps_payment h.payment
  invoice := Commit.onInvoice_of_ne hi ▸ he.keeps_invoice h.invoice
  id := h.id

theorem Stored.congr {p : PaymentWithInvoice} (h : Stored p db) (hr : db.SameRows db') :
    Stored p db' :=
  ⟨(hr.payments _).2 h.payment, (hr.invoices _).2 h.invoice, h.id⟩

/-- The stored invoice of a snapshot is the one in the snapshot. -/
theorem Stored.invoice_eq {p : PaymentWithInvoice} {i : Invoice} (h : Stored p db)
    (hi : i ∈ db.invoices) (hid : i.id = p.invoiceId) : i = p.invoice :=
  Table.eq_of_key hi h.invoice (hid.trans h.id)

/-- The stored payment of a snapshot is the one in the snapshot. -/
theorem Stored.payment_eq {p : PaymentWithInvoice} {q : Payment} (h : Stored p db)
    (hq : q ∈ db.payments) (hid : q.id = p.id) : q = p.toPayment :=
  Table.eq_of_key hq h.payment hid

/-- Advancing a stored payment and its invoice keeps the coupling, if the two
    new statuses go together. -/
theorem Stored.advance {p : PaymentWithInvoice} {d : PaymentUpdateInput} (hs : Stored p db)
    (h : db.Coupled R) (he : m.Effect now db db') (hcreate : m.invoiceCreate = none)
    (hpcreate : m.paymentCreate = none) (hpu : m.paymentUpdate = some (p.id, d))
    (hiu : ∀ u, m.invoiceUpdate = some u → u.1 = p.invoiceId)
    (hout : ∀ r : PaymentAmountMatch, d.status.getD p.status = r.outcome.1 → p.amountMatch = r)
    (hR : R (some p.status) p.invoice.status →
      R (some (d.status.getD p.status)) (m.onInvoice p.invoice).status) :
    db'.Coupled R := by
  refine h.advance he hs.payment hcreate hpcreate hpu hiu
    ⟨(h.settled _ hs.payment).received, hout⟩ fun i hi hpi => ?_
  rw [Table.eq_of_key hi hs.invoice (hpi.symm.trans hs.id)]
  exact hR (h.paid _ hs.payment _ hs.invoice hs.id)

/-! ## Detection -/

/-- Recording a payment for an invoice that has none. -/
theorem Db.Coupled.detect {i : Invoice} {t : TokenTransfer} {paymentId : String}
    {detectedAt : Time} (h : db.Coupled R)
    (he : (Commit.detect i t paymentId detectedAt).Effect now db db') {row : Invoice}
    (hrow : row ∈ db.invoices) (hterms : row.terms = i.terms) (htoken : i.token = t.token)
    (hnone : ∀ p ∈ db.payments, p.invoiceId ≠ i.id) (hR : R (some .detected) .detected) :
    db'.Coupled R := by
  have hinv : ∀ i', i' ∈ db'.invoices ↔
      ∃ j ∈ db.invoices, i' = (Commit.detect i t paymentId detectedAt).onInvoice j := by
    intro i'
    rw [he.invoices]
    simp [Commit.invoiceCreate]
  have hpay : ∀ p', p' ∈ db'.payments ↔
      p' ∈ db.payments ∨ p' = (detectedPayment paymentId detectedAt i t).row now := by
    intro p'
    rw [he.payments]
    simp [Commit.paymentCreate, Commit.onPayment, Commit.paymentUpdate, Payment.updateWhere]
  have hon : ∀ j : Invoice, (Commit.detect i t paymentId detectedAt).onInvoice j =
      if j.id = i.id then j.update { status := .detected } else j := fun _ => rfl
  have hid : ∀ j : Invoice, ((Commit.detect i t paymentId detectedAt).onInvoice j).id = j.id :=
    fun j => terms_id (Commit.terms_onInvoice _ j)
  refine ⟨h.owned.commit he ?_, ?_, ?_, ?_, ?_⟩
  · rintro _ ⟨⟩
    exact ⟨row, hrow, (detectedPayment_charges htoken).congr rfl hterms⟩
  · intro p hp q hq hpq
    rcases (hpay p).1 hp with hp | rfl <;> rcases (hpay q).1 hq with hq | rfl
    · exact h.single p hp q hq hpq
    · exact absurd hpq (hnone p hp)
    · exact absurd hpq.symm (hnone q hq)
    · rfl
  · intro p hp
    rcases (hpay p).1 hp with hp | rfl
    · exact h.settled p hp
    · exact ⟨rfl, fun r hr => by cases r <;> cases hr⟩
  · intro i' hi' hno
    obtain ⟨j, hj, rfl⟩ := (hinv i').1 hi'
    rw [hid] at hno
    have hji : j.id ≠ i.id := fun hji => hno _ ((hpay _).2 (.inr rfl)) hji.symm
    rw [hon, if_neg hji]
    exact h.unpaid j hj fun p hp => hno p ((hpay p).2 (.inl hp))
  · intro p hp i' hi' hpi
    obtain ⟨j, hj, rfl⟩ := (hinv i').1 hi'
    rw [hid] at hpi
    rw [hon]
    rcases (hpay p).1 hp with hp | rfl
    · rw [if_neg fun hji => hnone p hp (hpi.trans hji)]
      exact h.paid p hp j hj hpi
    · rw [if_pos (show j.id = i.id from hpi.symm)]
      exact hR

end CryptoPay
