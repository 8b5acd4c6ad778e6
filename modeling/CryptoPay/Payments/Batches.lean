import CryptoPay.Data.Patches
import CryptoPay.Payments.Requests

/-!
# Several commits

A `Batch` is what a list of dated commits has done to the tables: to a row, what
their patches do one after the other.

Results:
* `Batch.of_sameRows`, `Batch.of_effect`, `Batch.trans`: the empty batch, one commit, and
  one batch after the other.
* `Batch.stored`: a snapshot that no commit names is still stored afterwards.
-/

namespace CryptoPay

open Data

/-- A commit, and the time at which the database made it. -/
abbrev Dated := Commit × Time

namespace Dated

/-- What the commit does to a payment. -/
def payment (m : Dated) : Patch Payment.id where
  target := m.1.paymentUpdate.map Prod.fst
  apply := m.1.onPayment m.2
  key_apply p := terms_paymentId (m.1.terms_onPayment m.2 p)
  apply_of_ne p h := Commit.onPayment_of_ne fun u hu hid => h (by rw [hu, hid]; rfl)

/-- What the commit does to an invoice. -/
def invoice (m : Dated) : Patch Invoice.id where
  target := m.1.invoiceUpdate.map Prod.fst
  apply := m.1.onInvoice
  key_apply i := terms_id (m.1.terms_onInvoice i)
  apply_of_ne i h := Commit.onInvoice_of_ne fun u hu hid => h (by rw [hu, hid]; rfl)

/-- The event that the commit stores. -/
def event (m : Dated) : Option WebhookEvent := m.1.webhookEventCreate.map fun d => d.row m.2

end Dated

/-- The tables after the commits; none of them stores an invoice or a payment. -/
structure Batch (ms : List Dated) (db db' : Db) : Prop where
  invoices : ∀ i', i' ∈ db'.invoices ↔ ∃ i ∈ db.invoices, i' = after (ms.map Dated.invoice) i
  payments : ∀ p', p' ∈ db'.payments ↔ ∃ p ∈ db.payments, p' = after (ms.map Dated.payment) p
  webhookEvents : db'.webhookEvents.rows.Perm (ms.filterMap Dated.event ++ db.webhookEvents.rows)

variable {m : Commit} {now : Time} {ms ms' : List Dated} {db db' db₁ : Db} {p : PaymentWithInvoice}

/-- The rows of a table that has some more rows. -/
theorem rows_perm {ρ κ : Type} {key : ρ → κ} {t t' : Table key} (new : List ρ)
    (h : ∀ r, r ∈ t' ↔ r ∈ t ∨ r ∈ new) (hnew : new.Nodup) (hfresh : ∀ r ∈ new, r ∉ t) :
    t'.rows.Perm (new ++ t.rows) := by
  have hnodup : (new ++ t.rows).Nodup := by
    rw [List.nodup_append']
    exact ⟨hnew, t.nodup.of_map, fun r hr hrt => hfresh r hr hrt⟩
  rw [List.perm_ext_iff_of_nodup t'.nodup.of_map hnodup]
  intro r
  rw [List.mem_append, or_comm]
  exact h r

theorem Batch.of_sameRows (h : db.SameRows db') : Batch [] db db' where
  invoices i' := by simp [after, h.invoices]
  payments p' := by simp [after, h.payments]
  webhookEvents := rows_perm [] (by simp [h.webhookEvents]) .nil nofun

/-- One batch after the other. -/
theorem Batch.trans (h : Batch ms db db₁) (h' : Batch ms' db₁ db') : Batch (ms ++ ms') db db' where
  invoices i' := by
    rw [h'.invoices]
    simp only [h.invoices, List.map_append, after_append]
    constructor
    · rintro ⟨i₁, ⟨i, hi, rfl⟩, rfl⟩
      exact ⟨i, hi, rfl⟩
    · rintro ⟨i, hi, rfl⟩
      exact ⟨_, ⟨i, hi, rfl⟩, rfl⟩
  payments p' := by
    rw [h'.payments]
    simp only [h.payments, List.map_append, after_append]
    constructor
    · rintro ⟨p₁, ⟨p, hp, rfl⟩, rfl⟩
      exact ⟨p, hp, rfl⟩
    · rintro ⟨p, hp, rfl⟩
      exact ⟨_, ⟨p, hp, rfl⟩, rfl⟩
  webhookEvents := by
    rw [List.filterMap_append]
    refine (h'.webhookEvents.trans (h.webhookEvents.append_left _)).trans ?_
    rw [← List.append_assoc]
    exact List.perm_append_comm.append_right _

theorem Batch.congr_left (h : Batch ms db₁ db') (hs : db.SameRows db₁) : Batch ms db db' :=
  (Batch.of_sameRows hs).trans h

theorem Batch.congr_right (h : Batch ms db db₁) (hs : db₁.SameRows db') : Batch ms db db' := by
  have h' := h.trans (Batch.of_sameRows hs)
  rwa [List.append_nil] at h'

/-- A commit is a batch of one. -/
theorem Batch.of_effect (he : m.Effect now db db') (hi : m.invoiceCreate = none)
    (hp : m.paymentCreate = none) : Batch [(m, now)] db db' where
  invoices i' := by simp [he.invoices, hi, after, Dated.invoice]
  payments p' := by simp [he.payments, hp, after, Dated.payment]
  webhookEvents := by
    refine rows_perm _ (fun e => ?_) ?_ ?_
    · rw [he.webhookEvents]
      simp [Dated.event, eq_comm]
    · cases hevent : Dated.event (m, now) with
      | none => simp [hevent]
      | some e => simp [hevent]
    · intro e he' hmem
      obtain ⟨m', hm', hevent⟩ := List.mem_filterMap.mp he'
      obtain rfl := List.mem_singleton.mp hm'
      obtain ⟨d, hd, rfl⟩ := Option.map_eq_some_iff.mp hevent
      exact he.freshEvent d hd _ hmem rfl

theorem Commit.Acceptable.congr (h : m.Acceptable db) (hs : db.SameRows db') : m.Acceptable db' where
  invoiceCreate := h.invoiceCreate
  paymentUpdate := by simpa only [hs.payments] using h.paymentUpdate
  paymentCreate := by simpa only [InvoiceExists, hs.invoices, hs.payments] using h.paymentCreate
  invoiceUpdate := by simpa only [InvoiceExists, hs.invoices] using h.invoiceUpdate
  webhookEventCreate := by
    simpa only [InvoiceExists, hs.invoices, hs.webhookEvents] using h.webhookEventCreate

/-- A payment and an invoice that no commit names stay as they are. -/
theorem Batch.stored (h : Batch ms db db')
    (hp : ∀ m ∈ ms, (Dated.payment m).target ≠ some p.id)
    (hi : ∀ m ∈ ms, (Dated.invoice m).target ≠ some p.invoice.id) (hs : Stored p db) :
    Stored p db' where
  payment := by
    refine (h.payments _).mpr ⟨_, hs.payment, (after_of_ne fun a ha => ?_).symm⟩
    obtain ⟨m, hm, rfl⟩ := List.mem_map.mp ha
    exact hp m hm
  invoice := by
    refine (h.invoices _).mpr ⟨_, hs.invoice, (after_of_ne fun a ha => ?_).symm⟩
    obtain ⟨m, hm, rfl⟩ := List.mem_map.mp ha
    exact hi m hm
  id := hs.id

end CryptoPay
