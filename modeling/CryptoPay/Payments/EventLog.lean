import CryptoPay.Payments.Coupling

/-!
# The event log of the invoices

DATABASE.md keeps `WebhookEvent` as the log of significant status changes: an
invoice that is `PAID`, `UNDERPAID`, `OVERPAID` or `EXPIRED` has one event, which
describes it, and no other invoice has any.

Results:
* `EventLog.commit`: a commit keeps this if it touches no reported invoice, and
  stores an event exactly when it makes an invoice reported.
-/

namespace CryptoPay

open Data

/-- The statuses that an event reports. -/
def InvoiceStatus.reported : InvoiceStatus → Bool
  | .paid => true
  | .underpaid => true
  | .overpaid => true
  | .expired => true
  | _ => false

/-- The type of the event that reports a status. -/
def InvoiceStatus.eventType : InvoiceStatus → String
  | .paid => "payment.paid"
  | .underpaid => "payment.underpaid"
  | .overpaid => "payment.overpaid"
  | _ => "invoice.expired"

/-- The event reports the status of the invoice, with this transaction hash. -/
structure WebhookEvent.Reports (e : WebhookEvent) (i : Invoice) (txHash : Option String) :
    Prop where
  invoiceId : e.invoiceId = i.id
  organizationId : e.organizationId = i.organizationId
  type : e.type = i.status.eventType
  status : e.data.status = toLowerAscii i.status.toString
  amount : e.data.amount = i.amount.toString
  tx_hash : e.data.tx_hash = txHash

/-- The transaction that an event about the invoice names: none for an expired one,
    else that of its payment. -/
def Db.Source (db : Db) (i : Invoice) (txHash : Option String) : Prop :=
  (i.status = .expired ∧ txHash = none) ∨
    (i.status ≠ .expired ∧ ∃ p ∈ db.payments, p.invoiceId = i.id ∧ p.txHash = txHash)

/-- See the module text. -/
structure Db.EventLog (db : Db) : Prop where
  sound : ∀ e ∈ db.webhookEvents, ∃ i ∈ db.invoices, i.status.reported = true ∧
    ∃ txHash, e.Reports i txHash ∧ db.Source i txHash
  complete : ∀ i ∈ db.invoices, i.status.reported = true →
    ∃ e ∈ db.webhookEvents, e.invoiceId = i.id
  unique : ∀ e ∈ db.webhookEvents, ∀ e' ∈ db.webhookEvents, e.invoiceId = e'.invoiceId → e = e'

variable {db db' : Db} {m : Commit} {now : Time} {i : Invoice}

theorem Db.EventLog.empty (hi : ∀ i, i ∉ db.invoices) (he : ∀ e, e ∉ db.webhookEvents) :
    db.EventLog :=
  ⟨fun e h => absurd h (he e), fun i h => absurd h (hi i), fun e h => absurd h (he e)⟩

theorem Db.Source.congr {txHash : Option String} (h : db.Source i txHash) (hs : db.SameRows db') :
    db'.Source i txHash := by
  rcases h with h | ⟨hne, p, hp, h⟩
  · exact .inl h
  · exact .inr ⟨hne, p, (hs.payments p).2 hp, h⟩

theorem Db.Source.commit {txHash : Option String} (h : db.Source i txHash)
    (he : m.Effect now db db') : db'.Source i txHash := by
  rcases h with h | ⟨hne, p, hp, hpi, htx⟩
  · exact .inl h
  · have hterms := m.terms_onPayment now p
    exact .inr ⟨hne, _, he.keeps_payment hp, (terms_invoiceId hterms).trans hpi,
      (congrArg Payment.txHash hterms :).trans htx⟩

theorem Db.EventLog.congr (h : db.EventLog) (hs : db.SameRows db') : db'.EventLog where
  sound e he := by
    obtain ⟨i, hi, hr, tx, hrep, hsrc⟩ := h.sound e ((hs.webhookEvents e).1 he)
    exact ⟨i, (hs.invoices i).2 hi, hr, tx, hrep, hsrc.congr hs⟩
  complete i hi hr := by
    obtain ⟨e, he, hei⟩ := h.complete i ((hs.invoices i).1 hi) hr
    exact ⟨e, (hs.webhookEvents e).2 he, hei⟩
  unique e he e' he' := h.unique e ((hs.webhookEvents e).1 he) e' ((hs.webhookEvents e').1 he')

/-- What a commit has to respect. -/
structure Commit.Logs (m : Commit) (now : Time) (db db' : Db) : Prop where
  created : ∀ d, m.invoiceCreate = some d → d.status.reported = false
  /-- It changes no reported invoice. -/
  kept : ∀ u, m.invoiceUpdate = some u → ∀ i ∈ db.invoices, i.id = u.1 → i.status.reported = false
  /-- If it makes an invoice reported, it stores an event about it. -/
  logged : ∀ u, m.invoiceUpdate = some u → u.2.status.reported = true →
    ∃ d, m.webhookEventCreate = some d ∧ d.invoiceId = u.1
  /-- If it stores an event, it makes that invoice reported. -/
  reports : ∀ d, m.webhookEventCreate = some d → ∃ u, m.invoiceUpdate = some u ∧
    u.2.status.reported = true ∧ ∃ i ∈ db.invoices, i.id = u.1 ∧
      ∃ txHash, (d.row now).Reports (m.onInvoice i) txHash ∧ db'.Source (m.onInvoice i) txHash

namespace Commit.Logs

variable (hm : m.Logs now db db')
include hm

/-- A reported invoice is not touched. -/
theorem onInvoice_eq (hi : i ∈ db.invoices) (hr : i.status.reported = true) :
    m.onInvoice i = i := by
  refine Commit.onInvoice_of_ne fun u hu hid => ?_
  rw [hm.kept u hu i hi hid] at hr
  cases hr

/-- The invoice that a new event is about was not reported before. -/
theorem not_reported {d : WebhookEventCreateInput} (hd : m.webhookEventCreate = some d)
    (hi : i ∈ db.invoices) (hid : i.id = d.invoiceId) : i.status.reported = false := by
  obtain ⟨u, hu, -, j, hj, hju, tx, hrep, -⟩ := hm.reports d hd
  have hdj : d.invoiceId = j.id := hrep.invoiceId.trans (terms_id (m.terms_onInvoice j))
  exact hm.kept u hu i hi (hid.trans (hdj.trans hju))

end Commit.Logs

/-- A commit that respects the log keeps it. -/
theorem Db.EventLog.commit (h : db.EventLog) (he : m.Effect now db db') (hm : m.Logs now db db') :
    db'.EventLog := by
  have hid : ∀ i, (m.onInvoice i).id = i.id := fun i => terms_id (m.terms_onInvoice i)
  refine ⟨fun e hmem => ?_, fun i' hi' hr => ?_, fun e hmem e' hmem' hee => ?_⟩
  · rcases (he.webhookEvents e).1 hmem with hold | ⟨d, hd, rfl⟩
    · obtain ⟨i, hi, hr, tx, hrep, hsrc⟩ := h.sound e hold
      refine ⟨i, ?_, hr, tx, hrep, hsrc.commit he⟩
      have hkeep := he.keeps_invoice hi
      rwa [hm.onInvoice_eq hi hr] at hkeep
    · obtain ⟨u, hu, hur, i, hi, hiu, tx, hrep, hsrc⟩ := hm.reports d hd
      refine ⟨_, he.keeps_invoice hi, ?_, tx, hrep, hsrc⟩
      rw [Commit.onInvoice_of_eq hu hiu]
      exact hur
  · rcases (he.invoices i').1 hi' with ⟨i, hi, rfl⟩ | ⟨d, hd, rfl⟩
    · by_cases hold : i.status.reported = true
      · obtain ⟨e, hmem, hei⟩ := h.complete i hi hold
        exact ⟨e, (he.webhookEvents e).2 (.inl hmem), hei.trans (hid i).symm⟩
      · -- the commit made it reported
        obtain ⟨u, hu, hiu⟩ : ∃ u, m.invoiceUpdate = some u ∧ i.id = u.1 := by
          by_contra hno
          rw [Commit.onInvoice_of_ne fun u hu hiu => hno ⟨u, hu, hiu⟩] at hr
          exact hold hr
        rw [Commit.onInvoice_of_eq hu hiu] at hr
        obtain ⟨d, hd, hdu⟩ := hm.logged u hu hr
        exact ⟨_, (he.webhookEvents _).2 (.inr ⟨d, hd, rfl⟩),
          hdu.trans (hiu.symm.trans (hid i).symm)⟩
    · have hcreated := hm.created d hd
      exact absurd hr (by rw [show (d.row now).status = d.status from rfl, hcreated]; exact nofun)
  · have hnew : ∀ d, m.webhookEventCreate = some d → ∀ e ∈ db.webhookEvents,
        e.invoiceId ≠ d.invoiceId := by
      intro d hd e hold heq
      obtain ⟨i, hi, hr, tx, hrep, -⟩ := h.sound e hold
      have hunreported := hm.not_reported hd hi (hrep.invoiceId.symm.trans heq)
      rw [hr] at hunreported
      cases hunreported
    rcases (he.webhookEvents e).1 hmem with hold | ⟨d, hd, rfl⟩ <;>
      rcases (he.webhookEvents e').1 hmem' with hold' | ⟨d', hd', rfl⟩
    · exact h.unique e hold e' hold' hee
    · exact absurd hee (hnew d' hd' e hold)
    · exact absurd hee.symm (hnew d hd e' hold')
    · rw [hd] at hd'
      cases hd'
      rfl

end CryptoPay
