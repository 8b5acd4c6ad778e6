import CryptoPay.Api.Ticks

/-!
# What fake-mode runs keep

Results:
* `fakeRuns_coupled`: in every reachable state an invoice has the payment that
  its status calls for; no transition check fails, and each status write is an
  edge of its state machine from the status that is stored.
* `fakeRuns_logged`: in every reachable state an invoice has one event if its
  status is reported, which describes it, and none otherwise.
-/

namespace CryptoPay.Api

open Async Fake

/-- The pairs of a payment and an invoice status that occur. -/
def statusPairs : List (PaymentStatus × InvoiceStatus) :=
  [(.detected, .detected), (.confirming, .confirming), (.confirmed, .paid),
    (.underpaid, .underpaid), (.overpaid, .overpaid), (.failed, .failed)]

/-- The invoice has the payment that its status calls for. -/
structure HasItsPayment (db : Db) (i : Invoice) : Prop where
  unpaid : i.status = .pending ∨ i.status = .expired → ∀ p ∈ db.payments, p.invoiceId ≠ i.id
  paid : i.status ≠ .pending → i.status ≠ .expired →
    ∃ p ∈ db.payments, p.invoiceId = i.id ∧ (p.status, i.status) ∈ statusPairs
  single : ∀ p ∈ db.payments, ∀ q ∈ db.payments, p.invoiceId = i.id → q.invoiceId = i.id → p = q

/-- Each status that the move from `s` to `s'` writes is an edge from the stored one. -/
structure LegalWrites (s s' : ApiSystem) : Prop where
  invoice : ∀ ev, s'.config.trace = ev :: s.config.trace → ∀ id d,
    .invoiceUpdate id d ∈ written ev → ∀ i ∈ s.config.state.db.invoices, i.id = id →
      canTransitionInvoice i.status d.status = true
  payment : ∀ ev, s'.config.trace = ev :: s.config.trace → ∀ id d,
    .paymentUpdate id d ∈ written ev → ∀ p ∈ s.config.state.db.payments, p.id = id →
      ∀ status, d.status = some status → canTransitionPayment p.status status = true

/-- The invoice has one event if its status is reported, and none otherwise. -/
structure HasItsEvent (db : Db) (i : Invoice) : Prop where
  reported : i.status.reported = true →
    ∃ e ∈ db.webhookEvents, (∃ txHash, e.Reports i txHash ∧ db.Source i txHash) ∧
      ∀ e' ∈ db.webhookEvents, e'.invoiceId = i.id → e' = e
  unreported : i.status.reported = false → ∀ e ∈ db.webhookEvents, e.invoiceId ≠ i.id

variable {C : Config} {pid : ℕ} {m : Commit} {c c' : History fakeCalls Memory} {db : Db}

/-! ## Coupling -/

theorem mem_statusPairs {s : PaymentStatus} {t : InvoiceStatus} (h : Paired (some s) t) :
    (s, t) ∈ statusPairs := by
  cases s <;> simp only [Paired] at h <;> first | exact h.elim | (subst h; decide)

theorem hasItsPayment (h : db.Coupled Paired) {i : Invoice} (hi : i ∈ db.invoices) :
    HasItsPayment db i where
  unpaid hs p hp hpi := by
    have hR := h.paid p hp i hi hpi
    rcases hs with hs | hs <;> rw [hs] at hR <;> cases hst : p.status <;> simp [hst, Paired] at hR
  paid hpending hexpired := by
    obtain ⟨p, hp, hc, hR⟩ := h.payment_of hi fun hR => hR.elim hpending hexpired
    exact ⟨p, hp, hc.invoiceId, mem_statusPairs hR⟩
  single p hp q hq hpi hqi := h.single p hp q hq (hpi.trans hqi.symm)

/-- A permitted commit writes an invoice status along an edge. -/
theorem Can.invoice_edge (hcan : Can pid c m) (h : c.state.db.Coupled Paired)
    {u : String × InvoiceUpdateInput} (hu : m.invoiceUpdate = some u) {i : Invoice}
    (hi : i ∈ c.state.db.invoices) (hid : i.id = u.1) :
    canTransitionInvoice i.status u.2.status = true := by
  cases hcan with
  | create => cases hu
  | expire _ pending =>
    cases hu
    rw [Data.Table.eq_of_key hi pending.1 hid, pending.2]
    rfl
  | detect _ pending =>
    cases hu
    rw [Data.Table.eq_of_key hi pending.1 hid, pending.2]
    rfl
  | fail _ stored status =>
    cases hu
    rw [stored.invoice_eq hi hid]
    rcases status with hs | hs
    · rw [(invoice_of_active h stored).1 hs]
      rfl
    · rw [(invoice_of_active h stored).2 hs]
      rfl
  | confirm _ stored status =>
    cases hu
    rw [stored.invoice_eq hi hid, (invoice_of_active h stored).1 status]
    rfl
  | refresh => cases hu
  | @settle p _ _ _ _ _ stored status =>
    cases hu
    rw [stored.invoice_eq hi hid, (invoice_of_active h stored).2 status]
    show canTransitionInvoice .confirming p.amountMatch.outcome.2.1 = true
    cases p.amountMatch <;> rfl

/-- A permitted commit writes a payment status along an edge. -/
theorem Can.payment_edge (hcan : Can pid c m) {u : String × PaymentUpdateInput}
    (hu : m.paymentUpdate = some u) {p : Payment} (hp : p ∈ c.state.db.payments)
    (hid : p.id = u.1) {status : PaymentStatus} (hs : u.2.status = some status) :
    canTransitionPayment p.status status = true := by
  cases hcan with
  | create => cases hu
  | expire => cases hu
  | detect => cases hu
  | fail _ stored active =>
    cases hu
    cases hs
    rw [stored.payment_eq hp hid]
    rcases active with ha | ha <;> rw [ha] <;> rfl
  | confirm _ stored active =>
    cases hu
    cases hs
    rw [stored.payment_eq hp hid, active]
    rfl
  | refresh =>
    cases hu
    cases hs
  | @settle q _ _ _ _ _ stored active =>
    cases hu
    cases hs
    rw [stored.payment_eq hp hid, active]
    show canTransitionPayment .confirming q.amountMatch.outcome.1 = true
    cases q.amountMatch <;> rfl

/-- An answered request leaves the payment tables alone or is a permitted commit. -/
theorem answered (C : Config) {s s' : ApiSystem} (hs : ApiReachable C s) {move : ApiMove}
    (hstep : apiStep C s move = some s') {ev : Event (effects fakeCalls)}
    (ht : s'.config.trace = ev :: s.config.trace) :
    Quiet ev ∨ ∃ pid m, Records ev m ∧ Can pid s.config m := by
  rcases System.step_trace hstep with hsame | ⟨input, ev', rfl, hev, -⟩
  · rw [hsame] at ht
    exact absurd ht List.ne_cons_self
  · have hK := ticks_sound C
    obtain ⟨j, -, hguar⟩ := hK.guar hs (fun _ _ _ _ _ _ _ => trivial) hstep
    cases hguar with
    | quiet ev₁ _ hp _ =>
      obtain ⟨rfl, -⟩ := List.cons.inj (hp.trace.symm.trans ht)
      exact .inl hp.quiet
    | commit ev₁ m _ hc hcan =>
      obtain ⟨rfl, -⟩ := List.cons.inj (hc.trace.symm.trans ht)
      exact .inr ⟨_, m, hc.records, hcan⟩

/-- Every move writes legal edges only. -/
theorem legalWrites (C : Config) {s s' : ApiSystem} (hs : ApiReachable C s) {move : ApiMove}
    (hstep : apiStep C s move = some s') : LegalWrites s s' := by
  have hI := (ticks_sound C).inv hs
  constructor
  · intro ev ht id d hw i hi hid
    rcases answered C hs hstep ht with hq | ⟨pid, m, hrec, hcan⟩
    · exact (hq _ hw).elim
    · rw [hrec.written_eq] at hw
      exact hcan.invoice_edge hI.coupled (Commit.mem_writes_invoiceUpdate hw) hi hid
  · intro ev ht id d hw p hp hid status hd
    rcases answered C hs hstep ht with hq | ⟨pid, m, hrec, hcan⟩
    · exact (hq _ hw).elim
    · rw [hrec.written_eq] at hw
      exact hcan.payment_edge (Commit.mem_writes_paymentUpdate hw) hp hid hd

/-- In every reachable state of the fake-mode API, invoices and payments are in step, and
    every transition check passes. -/
theorem fakeRuns_coupled (C : Config) {s : ApiSystem} (hs : ApiReachable C s) :
    (∀ i ∈ s.config.state.db.invoices, HasItsPayment s.config.state.db i) ∧
      (∀ p ∈ s.procs, ∀ e, p.prog = .throw e → ¬ e.IsInvalidStateTransition) ∧
      ∀ move s', apiStep C s move = some s' → LegalWrites s s' := by
  have hK := ticks_sound C
  refine ⟨fun i hi => hasItsPayment (hK.inv hs).coupled hi, fun p hp e he => hK.exc hs hp he, ?_⟩
  exact fun move s' hstep => legalWrites C hs hstep

/-! ## A run to `PAID` -/

/-- One confirmation is enough; a block takes a second. -/
def sampleConfig : Config := ⟨1, ⟨1000, by decide⟩⟩

/-- An organization has set its deposit address, and the process has just started. -/
def sampleWorld : World Memory where
  db := { Db.empty with
    merchantWalletAddresses := ⟨[⟨"w", "org", "base", "USDC", "0xA", 0⟩], by simp⟩ }
  clock := 0
  other := .fresh 0

theorem sampleWorld_unused : Unused sampleWorld :=
  ⟨Data.Table.not_mem_empty, Data.Table.not_mem_empty, Data.Table.not_mem_empty, 0, rfl⟩

/-- The requests of a process, answered in a row. -/
def performs (pid : ℕ) (inputs : List (Input Chance)) : List ApiMove :=
  inputs.map (.perform pid)

/-- An invoice over 49 USDC is created and its payment simulated; five seconds later, a
    tick settles it. -/
def paidRun : List ApiMove :=
  .start (.createInvoice "org" "key" {
      externalId := none
      description := none
      amount := ⟨"49.00", ⟨4900000000⟩⟩
      currency := "USD"
      token := "USDC"
      network := "base"
      successUrl := none
      cancelUrl := none
      metadata := none } ⟨"127.0.0.1", none⟩) ::
    performs 0 [.ok, .id "1", .ok, .ok, .ok] ++
  .start (.simulatePayment "org" "inv_1" ⟨none⟩) ::
    performs 1 [.ok, .other (.transfer "a" "b"), .other .ok, .ok, .ok, .other .ok, .other .ok,
      .other .ok, .ok, .ok, .id "1", .ok, .ok, .other .ok, .ok, .other .ok, .ok, .other .ok, .ok] ++
  .env (.clock 5000) :: .start .tick ::
    performs 2 [.other .ok, .ok, .ok, .other .ok, .other .ok, .other .ok, .ok, .other .ok, .ok,
      .other .ok, .ok, .ok, .id "1", .ok, .other .ok]

/-- The stored statuses and the events. -/
def ApiSystem.rows (s : ApiSystem) :
    List InvoiceStatus × List PaymentStatus × List (String × Option String) :=
  (s.config.state.db.invoices.rows.map (·.status), s.config.state.db.payments.rows.map (·.status),
    s.config.state.db.webhookEvents.rows.map fun e => (e.type, e.data.tx_hash))

set_option maxRecDepth 8000 in
theorem paidRun_paid : ∃ s, ApiReachable sampleConfig s ∧
    ApiSystem.rows s = ([.paid], [.confirmed], [("payment.paid", some "0xfakea")]) :=
  Reachable.view sampleWorld_unused paidRun (by decide)

theorem fakeRuns_coupled_paid : ∃ s, ApiReachable sampleConfig s ∧
    ApiSystem.rows s = ([.paid], [.confirmed], [("payment.paid", some "0xfakea")]) ∧
      ∀ i ∈ s.config.state.db.invoices, HasItsPayment s.config.state.db i := by
  obtain ⟨s, hs, hrows⟩ := paidRun_paid
  exact ⟨s, hs, hrows, (fakeRuns_coupled sampleConfig hs).1⟩

/-! ## The event log -/

theorem hasItsEvent (h : db.EventLog) {i : Invoice} (hi : i ∈ db.invoices) : HasItsEvent db i where
  reported hr := by
    obtain ⟨e, he, hei⟩ := h.complete i hi hr
    obtain ⟨j, hj, -, txHash, hrep, hsrc⟩ := h.sound e he
    obtain rfl := Data.Table.eq_of_key hj hi (hrep.invoiceId.symm.trans hei)
    exact ⟨e, he, ⟨txHash, hrep, hsrc⟩, fun e' he' hei' => h.unique e' he' e he (hei'.trans hei.symm)⟩
  unreported hr e he hei := by
    obtain ⟨j, hj, hjr, txHash, hrep, -⟩ := h.sound e he
    obtain rfl := Data.Table.eq_of_key hj hi (hrep.invoiceId.symm.trans hei)
    rw [hr] at hjr
    cases hjr

/-- In every reachable state of the fake-mode API, the event log tells the status of every
    invoice. -/
theorem fakeRuns_logged (C : Config) {s : ApiSystem} (hs : ApiReachable C s) :
    ∀ i ∈ s.config.state.db.invoices, HasItsEvent s.config.state.db i :=
  fun _ hi => hasItsEvent ((ticks_sound C).inv hs).log hi

theorem fakeRuns_logged_paid : ∃ s, ApiReachable sampleConfig s ∧
    ApiSystem.rows s = ([.paid], [.confirmed], [("payment.paid", some "0xfakea")]) ∧
      ∀ i ∈ s.config.state.db.invoices, HasItsEvent s.config.state.db i := by
  obtain ⟨s, hs, hrows⟩ := paidRun_paid
  exact ⟨s, hs, hrows, fakeRuns_logged sampleConfig hs⟩

end CryptoPay.Api
