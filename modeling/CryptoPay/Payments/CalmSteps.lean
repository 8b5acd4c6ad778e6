import CryptoPay.Payments.CalmMatching
import CryptoPay.Payments.CalmWrites

/-!
# Single steps that nothing disturbs

What both pipelines do with one overdue invoice, one orphaned payment and one confirmed
payment, in runs that nothing disturbs: each is one commit.

Results:
* `calm_made`: a commit that has what it needs is made, and nothing else changes.
* `calm_expireInvoice`, `failAttempt_eq`, `calm_settlePayment`: which commit it is.
* `calm_expireOverdue`: a sweep returns, and leaves alone whatever is not overdue.
-/

namespace CryptoPay

open Async Data

/-- The commit is made at `t`, and nothing else changes. -/
structure Made {ω : Type} (m : Commit) (t : Time) (w w' : World ω) : Prop where
  after : w.clock ≤ t
  before : t ≤ w'.clock
  effect : ∃ db db', w.db.SameRows db ∧ m.Effect t db db' ∧ db'.SameRows w'.db
  cursors : w'.db.blockchainScanCursors = w.db.blockchainScanCursors
  other : w'.other = w.other

variable {A : Signature} {ω ι : Type} {B : Backend A ω ι Empty} {pid : ℕ} {w w₁ w' : World ω}
  {evs : List (Event (effects A))} {x : Except Error Unit} {m : Commit} {t : Time}
  {p : PaymentWithInvoice} {i : Invoice}

/-! ## The rows after a commit -/

theorem Made.of_later (h : Made m t w₁ w') (hl : Later w w₁) : Made m t w w' where
  after := le_trans hl.clock h.after
  before := h.before
  effect := by
    obtain ⟨db, db', hrows, he, hrows'⟩ := h.effect
    exact ⟨db, db', hl.rows.trans hrows, he, hrows'⟩
  cursors := h.cursors.trans hl.cursors
  other := h.other.trans hl.other

theorem Made.clock (h : Made m t w w') : w.clock ≤ w'.clock := le_trans h.after h.before

theorem Made.payment (h : Made m t w w') {q : Payment} (hq : q ∈ w.db.payments) :
    m.onPayment t q ∈ w'.db.payments := by
  obtain ⟨db, db', hrows, he, hrows'⟩ := h.effect
  exact (hrows'.payments _).2 (he.keeps_payment ((hrows.payments q).2 hq))

theorem Made.invoice (h : Made m t w w') (hi : i ∈ w.db.invoices) :
    m.onInvoice i ∈ w'.db.invoices := by
  obtain ⟨db, db', hrows, he, hrows'⟩ := h.effect
  exact (hrows'.invoices _).2 (he.keeps_invoice ((hrows.invoices i).2 hi))

/-- A stored payment that the commit changes. -/
theorem Made.updated (h : Made m t w w') (hs : Stored p w.db) {d : PaymentUpdateInput}
    (hu : m.paymentUpdate = some (p.id, d)) : p.toPayment.update t d ∈ w'.db.payments := by
  have hmem := h.payment hs.payment
  rwa [Commit.onPayment_of_eq hu rfl] at hmem

/-- A commit without a payment adds none. -/
theorem Made.payments_iff (h : Made m t w w') (hp : m.paymentCreate = none) {q' : Payment} :
    q' ∈ w'.db.payments ↔ ∃ q ∈ w.db.payments, q' = m.onPayment t q := by
  obtain ⟨db, db', hrows, he, hrows'⟩ := h.effect
  rw [hrows'.payments, he.payments, hp]
  simp [hrows.payments]

/-- A commit without an invoice adds none. -/
theorem Made.invoices_iff (h : Made m t w w') (hi : m.invoiceCreate = none) {j' : Invoice} :
    j' ∈ w'.db.invoices ↔ ∃ j ∈ w.db.invoices, j' = m.onInvoice j := by
  obtain ⟨db, db', hrows, he, hrows'⟩ := h.effect
  rw [hrows'.invoices, he.invoices, hi]
  simp [hrows.invoices]

/-- The rows of a snapshot that the commit does not name stay as they are. -/
theorem Made.stored (h : Made m t w w') (hs : Stored p w.db)
    (hp : ∀ u, m.paymentUpdate = some u → p.id ≠ u.1)
    (hi : ∀ u, m.invoiceUpdate = some u → p.invoice.id ≠ u.1) : Stored p w'.db := by
  obtain ⟨db, db', hrows, he, hrows'⟩ := h.effect
  exact ((hs.congr hrows).keep he hp hi).congr hrows'

theorem Made.batch (h : Made m t w w') (hi : m.invoiceCreate = none) (hp : m.paymentCreate = none) :
    Batch [(m, t)] w.db w'.db := by
  obtain ⟨db, db', hrows, he, hrows'⟩ := h.effect
  exact ((Batch.of_effect he hi hp).congr_left hrows).congr_right hrows'

theorem Made.beside (h : Made m t w w') (hcreate : m.invoiceCreate = none) : Beside w w' where
  cursors := h.cursors
  other := h.other
  amounts i' hi' := by
    obtain ⟨db, db', hrows, he, hrows'⟩ := h.effect
    rcases (he.invoices i').1 ((hrows'.invoices i').1 hi') with ⟨i, hi, rfl⟩ | ⟨d, hd, -⟩
    · have hterms := congrArg Invoice.amount (m.terms_onInvoice i)
      exact ⟨i, (hrows.invoices i).1 hi, hterms⟩
    · rw [hcreate] at hd
      cases hd

/-! ## Commits -/

/-- A commit that has what it needs is made. -/
theorem calm_made (hm : m.Acceptable w.db) (h : Runs (calm B) pid (transaction m.writes) w evs x w') :
    x = .ok () ∧ ∃ t, Made m t w w' := by
  obtain ⟨hx, t, db, db', hle, hle', hrows, he, hrows', hcursors, hother⟩ := calm_commit hm h
  exact ⟨hx, t, hle, hle', ⟨db, db', hrows, he, hrows'⟩, hcursors, hother⟩

/-- Whatever has become of them, the rows of a snapshot are still there. -/
structure Present (p : PaymentWithInvoice) (db : Db) : Prop where
  payment : HasPayment p.toPayment db
  invoice : InvoiceExists p.invoice.id db
  id : p.invoiceId = p.invoice.id

theorem Stored.present {db : Db} (hs : Stored p db) : Present p db :=
  ⟨⟨p.toPayment, hs.payment, rfl⟩, ⟨p.invoice, hs.invoice, rfl⟩, hs.id⟩

theorem Present.congr {db db' : Db} (hs : Present p db) (hr : db.SameRows db') : Present p db' := by
  obtain ⟨row, hrow, hid⟩ := hs.invoice
  exact ⟨hs.payment.congr hr, ⟨row, (hr.invoices row).2 hrow, hid⟩, hs.id⟩

/-- No run removes them. -/
theorem Present.runs {α : Type} {q : Action A α} {y : Except Error α} (hs : Present p w.db)
    (h : Runs (calm B) pid q w evs y w') : Present p w'.db := by
  induction h with
  | ret => exact hs
  | throw => exact hs
  | await i hr h ih =>
    have hr := (calm_respond hr).2
    exact ih ⟨respond_keepsPayment hs.payment hr, respond_keepsInvoice hs.invoice hr, hs.id⟩
  | env act hact henv h ih => exact ih (hs.congr (Ledger.environment_rows (calm_env henv).2).1)

/-- A commit about the rows of a snapshot has what it needs. -/
theorem Present.acceptable {db : Db} (hs : Present p db) (hi : m.invoiceCreate = none)
    (hp : m.paymentCreate = none) (hpu : ∀ u, m.paymentUpdate = some u → u.1 = p.id)
    (hiu : ∀ u, m.invoiceUpdate = some u → u.1 = p.invoiceId)
    (he : ∀ d, m.webhookEventCreate = some d → d.invoiceId = p.invoice.id ∧
      ∀ e ∈ db.webhookEvents, e.id ≠ d.id) : m.Acceptable db where
  invoiceCreate := hi
  paymentUpdate u hu := by
    obtain ⟨row, hrow, hterms⟩ := hs.payment
    exact ⟨row, hrow, (terms_paymentId hterms).trans (hpu u hu).symm⟩
  paymentCreate d hd := by rw [hp] at hd; cases hd
  invoiceUpdate u hu := by
    rw [hiu u hu, hs.id]
    exact hs.invoice
  webhookEventCreate d hd := by
    rw [(he d hd).1]
    exact ⟨hs.invoice, (he d hd).2⟩

/-- The loop body of `expireOverdueInvoices`. -/
theorem calm_expireInvoice (hi : InvoiceExists i.id w.db)
    (h : Runs (calm B) pid (expireInvoice i) w evs x w') :
    x = .ok () ∧ ∃ eventId t, Made (.expire i eventId) t w w' ∧
      writtenIn evs = (Commit.expire i eventId).writes := by
  have h : Runs (calm B) pid (generateId "evt" >>= fun eventId =>
    transaction (Commit.expire i eventId).writes) w evs x w' := h
  obtain ⟨eventId, w₁, evs₁, evs₂, rfl, hid, h⟩ := h.bind_returns fun _ _ _ hrun => by
    obtain ⟨id, hx, -⟩ := calm_generateId hrun
    exact ⟨id, hx⟩
  have hquiet := unwriting_written (generateId_unwriting "evt") hid
  obtain ⟨_, ⟨⟩, hlater, hfresh, -⟩ := calm_generateId hid
  have hstored : InvoiceExists i.id w₁.db := by
    obtain ⟨row, hrow, hid⟩ := hi
    exact ⟨row, (hlater.rows.invoices row).2 hrow, hid⟩
  have hm : (Commit.expire i eventId).Acceptable w₁.db := by
    refine ⟨rfl, nofun, nofun, ?_, ?_⟩
    · rintro _ ⟨⟩
      exact hstored
    · rintro _ ⟨⟩
      exact ⟨hstored, hfresh⟩
  obtain ⟨rfl, t, hmade⟩ := calm_made hm h
  refine ⟨rfl, eventId, t, hmade.of_later hlater, ?_⟩
  rw [writtenIn_append, hquiet, transaction_written h]
  rfl

/-- `failPayment` and `failOrphanedPayment` throw for no payment that may fail. -/
theorem failAttempt_eq (hp : canTransitionPayment p.status .failed = true)
    (hi : canTransitionInvoice p.invoice.status .failed = true) :
    (failAttempt p : Action A Unit) = transaction (Commit.fail p).writes := by
  have hassert : (assertPayment p.status .failed : Action A Unit) = .ret () ∧
      (assertInvoice p.invoice.status .failed : Action A Unit) = .ret () := by
    constructor
    · simp only [assertPayment, assertPaymentTransition, hp, if_true]
      rfl
    · simp only [assertInvoice, assertInvoiceTransition, hi, if_true]
      rfl
  unfold failAttempt
  rw [hassert.1, hassert.2]
  rfl

/-- `finalizePayment` throws for no outcome. -/
theorem settlePayment_eq {n : ℤ} : (settlePayment p n : Action A Unit) =
    dateNow >>= fun confirmedAt => paidAtNow p.amountMatch.outcome.2.1 >>= fun paidAt =>
      generateId "evt" >>= fun eventId =>
        transaction (Commit.settle p n confirmedAt paidAt eventId).writes := by
  have hassert : (assertPayment .confirming p.amountMatch.outcome.1 : Action A Unit) = .ret () ∧
      (assertInvoice .confirming p.amountMatch.outcome.2.1 : Action A Unit) = .ret () := by
    cases p.amountMatch <;> exact ⟨rfl, rfl⟩
  unfold settlePayment
  dsimp only
  rw [hassert.1, hassert.2]
  rfl

/-- `finalizePayment`. -/
theorem calm_settlePayment {n : ℤ} (hs : Present p w.db)
    (h : Runs (calm B) pid (settlePayment p n) w evs x w') :
    x = .ok () ∧ ∃ confirmedAt paidAt eventId t, (w.clock ≤ confirmedAt ∧ confirmedAt ≤ w'.clock) ∧
      (w.clock ≤ paidAt ∧ paidAt ≤ w'.clock) ∧
      Made (.settle p n confirmedAt
        (if p.amountMatch.outcome.2.1 = .paid then some paidAt else none) eventId) t w w' ∧
      writtenIn evs = (Commit.settle p n confirmedAt
        (if p.amountMatch.outcome.2.1 = .paid then some paidAt else none) eventId).writes := by
  rw [settlePayment_eq] at h
  obtain ⟨confirmedAt, w₂, evs₁, evs₂, rfl, hnow, h⟩ := h.bind_returns fun _ _ _ hrun => by
    obtain ⟨t, hx, -⟩ := calm_now hrun
    exact ⟨t, hx⟩
  have hquiet₁ := unwriting_written dateNow_unwriting hnow
  obtain ⟨_, ⟨⟩, hle, hle', hlater₂⟩ := calm_now hnow
  -- `paidAt` is read off the clock only if the invoice is `PAID`
  obtain ⟨paidAt, w₃, hlater₃, hpaid, evs₃, hquiet₃, h⟩ : ∃ (paidAt : Time) (w₃ : World ω),
      Later w₂ w₃ ∧ (w₂.clock ≤ paidAt ∧ paidAt ≤ w₃.clock) ∧ ∃ evs', writtenIn evs₂ = writtenIn evs' ∧
        Runs (calm B) pid (generateId "evt" >>= fun eventId => transaction (Commit.settle p n confirmedAt
          (if p.amountMatch.outcome.2.1 = .paid then some paidAt else none) eventId).writes)
        w₃ evs' x w' := by
    unfold paidAtNow at h
    split_ifs at h ⊢ with hpaid
    · obtain ⟨paidAt, w₃, _, evs', rfl, hnow, h⟩ :=
        (Prog.bind_assoc _ _ _ ▸ h : Runs (calm B) pid _ w₂ _ x w').bind_returns
          fun _ _ _ hrun => by
            obtain ⟨t, hx, -⟩ := calm_now hrun
            exact ⟨t, hx⟩
      have hquiet := unwriting_written dateNow_unwriting hnow
      obtain ⟨_, ⟨⟩, hle, hle', hlater₃⟩ := calm_now hnow
      exact ⟨paidAt, w₃, hlater₃, ⟨hle, hle'⟩, evs', by rw [writtenIn_append, hquiet]; rfl, h⟩
    · exact ⟨w₂.clock, w₂, .refl _, ⟨le_refl _, le_refl _⟩, _, rfl, h⟩
  obtain ⟨eventId, w₄, evs₄, evs₅, rfl, hid, h⟩ := h.bind_returns fun _ _ _ hrun => by
    obtain ⟨id, hx, -⟩ := calm_generateId hrun
    exact ⟨id, hx⟩
  have hquiet₄ := unwriting_written (generateId_unwriting "evt") hid
  obtain ⟨_, ⟨⟩, hlater₄, hfresh, -⟩ := calm_generateId hid
  have hlater : Later w w₄ := hlater₂.trans (hlater₃.trans hlater₄)
  obtain ⟨rfl, t, hmade⟩ := calm_made ((hs.congr hlater.rows).acceptable rfl rfl
    (by rintro _ ⟨⟩; rfl) (by rintro _ ⟨⟩; rfl) (by rintro _ ⟨⟩; exact ⟨rfl, hfresh⟩)) h
  have hafter : w₃.clock ≤ w'.clock := le_trans hlater₄.clock hmade.clock
  refine ⟨rfl, confirmedAt, paidAt, eventId, t, ⟨hle, ?_⟩, ⟨?_, le_trans hpaid.2 hafter⟩,
    hmade.of_later hlater, ?_⟩
  · exact le_trans hle' (le_trans hlater₃.clock hafter)
  · exact le_trans hlater₂.clock hpaid.1
  · rw [writtenIn_append, hquiet₁, hquiet₃, writtenIn_append, hquiet₄, transaction_written h]
    rfl

/-! ## The sweep -/

/-- The sweep changed no payment and no invoice but overdue ones. -/
structure OverdueSwept {ω : Type} (w w' : World ω) : Prop where
  beside : Beside w w'
  payments : ∀ q, q ∈ w'.db.payments ↔ q ∈ w.db.payments
  invoices : ∀ i ∈ w.db.invoices, ¬ (i.status = .pending ∧ i.expiresAt < w'.clock) →
    i ∈ w'.db.invoices

/-- `expireOverdueInvoices` returns. -/
theorem calm_expireOverdue (h : Runs (calm B) pid expireOverdue w evs x w') :
    x = .ok () ∧ OverdueSwept w w' := by
  obtain ⟨now, w₁, _, _, -, hnow, h⟩ := Runs.bind_returns (p := dateNow) h fun _ _ _ hrun => by
    obtain ⟨t, hx, -⟩ := calm_now hrun
    exact ⟨t, hx⟩
  obtain ⟨_, ⟨⟩, -, hle, hlater₁⟩ := calm_now hnow
  obtain ⟨overdue, w₂, _, _, -, hquery, h⟩ := h.bind_returns fun _ _ _ hrun => by
    obtain ⟨db, -, hx, -⟩ := calm_read (.invoiceFindMany (overdueWhere now))
      (fun db => db.invoices.filter (overdueWhere now).holds) (fun _ _ => rfl) hrun
    exact ⟨_, hx⟩
  obtain ⟨db, hrows, hx, hlater₂⟩ := calm_read (.invoiceFindMany (overdueWhere now))
    (fun db => db.invoices.filter (overdueWhere now).holds) (fun _ _ => rfl) hquery
  obtain rfl := Except.ok.inj hx
  have hlater : Later w w₂ := hlater₁.trans hlater₂
  have hdue : ∀ o ∈ db.invoices.filter (overdueWhere now).holds,
      o ∈ w.db.invoices ∧ o.status = .pending ∧ o.expiresAt < now := by
    intro o ho
    obtain ⟨ho, hholds⟩ := Table.mem_filter.mp ho
    exact ⟨(hlater₁.rows.invoices o).1 ((hrows.invoices o).1 ho), overdueWhere_holds.mp hholds⟩
  -- while the invoices `os` remain
  let I : List Invoice → World ω → Prop := fun os v => Beside w v ∧
    (∀ q, q ∈ v.db.payments ↔ q ∈ w.db.payments) ∧ (∀ o ∈ os, o ∈ w.db.invoices ∧
      o.status = .pending ∧ o.expiresAt < now) ∧
    (∀ i ∈ w.db.invoices, InvoiceExists i.id v.db) ∧
    ∀ i ∈ w.db.invoices, ¬ (i.status = .pending ∧ i.expiresAt < now) → i ∈ v.db.invoices
  have hdrift : ∀ os v v', Drifts (calm B) v v' → I os v → I os v' := by
    rintro os v v' hd ⟨hbeside, hpay, hos, hex, hkeep⟩
    have hl := calm_drifts hd
    refine ⟨hbeside.trans hl.beside, fun q => (hl.rows.payments q).trans (hpay q), hos,
      fun i hi => ?_, fun i hi hno => (hl.rows.invoices i).2 (hkeep i hi hno)⟩
    obtain ⟨row, hrow, hid⟩ := hex i hi
    exact ⟨row, (hl.rows.invoices row).2 hrow, hid⟩
  have hbody : ∀ o os v evs x v', I (o :: os) v → Runs (calm B) pid (expireInvoice o) v evs x v' →
      x = .ok () ∧ I os v' := by
    rintro o os v evs x v' ⟨hbeside, hpay, hos, hex, hkeep⟩ hrun
    obtain ⟨ho, hpending, hpast⟩ := hos o List.mem_cons_self
    obtain ⟨hx, eventId, t, hmade, -⟩ := calm_expireInvoice (hex o ho) hrun
    refine ⟨hx, hbeside.trans (hmade.beside rfl), fun q => ?_,
      fun o' ho' => hos o' (List.mem_cons_of_mem o ho'), fun i hi => ?_, fun i hi hno => ?_⟩
    · rw [hmade.payments_iff rfl, ← hpay]
      exact ⟨fun ⟨q', hq', heq⟩ => heq ▸ hq', fun hq => ⟨q, hq, rfl⟩⟩
    · obtain ⟨row, hrow, hid⟩ := hex i hi
      exact ⟨_, hmade.invoice hrow, (terms_id (Commit.terms_onInvoice _ row)).trans hid⟩
    · have hkept := hmade.invoice (hkeep i hi hno)
      rwa [Commit.onInvoice_of_ne] at hkept
      rintro _ ⟨⟩ hid
      rw [Table.eq_of_key hi ho hid] at hno
      exact hno ⟨hpending, hpast⟩
  obtain ⟨hx, hbeside, hpay, -, -, hkeep⟩ := Runs.forEach_returns hdrift hbody h
    ⟨hlater.beside, hlater.rows.payments, hdue, fun i hi => ⟨i, (hlater.rows.invoices i).2 hi, rfl⟩,
      fun i hi _ => (hlater.rows.invoices i).2 hi⟩
  have hclock : now ≤ w'.clock := le_trans hle (le_trans hlater₂.clock (calm_clock h))
  exact ⟨hx, hbeside, hpay, fun i hi hno => hkeep i hi fun hdue =>
    hno ⟨hdue.1, lt_of_lt_of_le hdue.2 hclock⟩⟩

end CryptoPay
