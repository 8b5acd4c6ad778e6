import CryptoPay.Worker.Pipeline

/-!
# Money safety

What a merchant may rely on while one scan worker and one confirm worker share
the database, under every interleaving, every answer of the adapter and every
crash, stale writes included: an invoice that says `PAID`, `UNDERPAID` or
`OVERPAID` has one payment, which says the same, with the amounts to match; that
payment was settled by a pass that had seen enough confirmations, after another
pass had moved it to `CONFIRMING`; and such an invoice is never changed again.

Results:
* `money_safety`: the above, for every reachable system.
* `money_safety_paid`: a run that gets there.
-/

namespace CryptoPay.Worker

open Async

/-- The invoices of a database tell the truth about their payments. -/
structure TellsTruth (db : Db) : Prop where
  single : ∀ p ∈ db.payments, ∀ q ∈ db.payments, p.invoiceId = q.invoiceId → p = q
  paid : ∀ i ∈ db.invoices, i.status = .paid → ∃ p ∈ db.payments, p.invoiceId = i.id ∧
    p.status = .confirmed ∧ p.expectedAmount = i.amount ∧ p.receivedAmount = some i.amount
  underpaid : ∀ i ∈ db.invoices, i.status = .underpaid → ∃ p ∈ db.payments, p.invoiceId = i.id ∧
    p.status = .underpaid ∧ p.expectedAmount = i.amount ∧
      ∃ r, p.receivedAmount = some r ∧ r.units < i.amount.units
  overpaid : ∀ i ∈ db.invoices, i.status = .overpaid → ∃ p ∈ db.payments, p.invoiceId = i.id ∧
    p.status = .overpaid ∧ p.expectedAmount = i.amount ∧
      ∃ r, p.receivedAmount = some r ∧ i.amount.units < r.units

/-- A confirm pass `pid` settles the payment `p`: the adapter has told it of
    enough confirmations, and an earlier pass moved `p` to `CONFIRMING`. -/
structure SettledBy (D : Setup) (s : EvmSystem) (pid : ℕ) (p : Payment) : Prop where
  job : ∃ q ∈ s.procs, q.pid = pid ∧ q.job = .confirm
  enough : ∃ txHash n, p.txHash = some txHash ∧ D.requiredConfirmations ≤ n ∧
    Ledger.Answered pid (.getConfirmations txHash) (.ok n) s.config
  earlier : MovedEarlier p.id pid s.config

/-- The next move `m`, to `s'`, follows the state machine of payments, settles a
    payment only as `SettledBy` allows, and leaves settled invoices alone. -/
structure StepsSafely (D : Setup) (s : EvmSystem) (m : EvmMove) (s' : EvmSystem) : Prop where
  legal : ∀ p ∈ s.config.state.db.payments, ∀ p' ∈ s'.config.state.db.payments, p'.id = p.id →
    p.status.CanBecome p'.status
  created : ∀ p' ∈ s'.config.state.db.payments, (∀ p ∈ s.config.state.db.payments, p.id ≠ p'.id) →
    p'.status = .detected
  settles : ∀ p ∈ s.config.state.db.payments, ∀ p' ∈ s'.config.state.db.payments, p'.id = p.id →
    p'.status.Settled → p'.status ≠ p.status →
      ∃ pid input, m = .perform pid input ∧ SettledBy D s pid p
  kept : ∀ i ∈ s.config.state.db.invoices, i.status.Settled →
    ∃ i' ∈ s'.config.state.db.invoices, i'.id = i.id ∧ i'.status = i.status

variable {strict : Prop} {requiredConfirmations : ℤ} {j : Job} {pid : ℕ} {m : Commit}
  {c : History adapterCalls Unit} {now : Time}

/-- The coupling leaves one payment status for a settled invoice. -/
theorem Coupling.outcome {s : PaymentStatus} {r : PaymentAmountMatch}
    (h : Coupling strict (some s) r.outcome.2.1) : s = r.outcome.1 := by
  cases r <;> cases s <;> simp_all [Coupling, PaymentAmountMatch.outcome]

/-- The payment of a settled invoice. -/
theorem Inv.payment_of (h : Inv strict c) {i : Invoice} (hi : i ∈ c.state.db.invoices)
    {r : PaymentAmountMatch} (hs : i.status = r.outcome.2.1) :
    ∃ p ∈ c.state.db.payments, p.invoiceId = i.id ∧ p.status = r.outcome.1 ∧
      p.expectedAmount = i.amount ∧
        ∃ a, p.receivedAmount = some a ∧ evaluatePaymentAmount i.amount a = r := by
  obtain ⟨p, hp, hc, hR⟩ := h.coupled.payment_of hi (by rw [hs]; cases r <;> simp [Coupling,
    PaymentAmountMatch.outcome])
  have hps := Coupling.outcome (hs ▸ hR)
  obtain ⟨a, ha, hm⟩ := (h.coupled.settled p hp).received_eq hps
  exact ⟨p, hp, hc.invoiceId, hps, hc.expectedAmount, a, ha, hc.expectedAmount ▸ hm⟩

theorem Inv.tellsTruth (h : Inv strict c) : TellsTruth c.state.db where
  single := h.coupled.single
  paid i hi hs := by
    obtain ⟨p, hp, hpi, hps, he, a, ha, hm⟩ := h.payment_of hi (r := .exact) hs
    exact ⟨p, hp, hpi, hps, he, by rw [ha, evaluatePaymentAmount_eq_exact.mp hm]⟩
  underpaid i hi hs := by
    obtain ⟨p, hp, hpi, hps, he, a, ha, hm⟩ := h.payment_of hi (r := .underpaid) hs
    exact ⟨p, hp, hpi, hps, he, a, ha, evaluatePaymentAmount_eq_underpaid.mp hm⟩
  overpaid i hi hs := by
    obtain ⟨p, hp, hpi, hps, he, a, ha, hm⟩ := h.payment_of hi (r := .overpaid) hs
    exact ⟨p, hp, hpi, hps, he, a, ha, evaluatePaymentAmount_eq_overpaid.mp hm⟩

/-- A permitted commit writes a payment status along an edge. -/
theorem Can.payment (hcan : Can strict requiredConfirmations j pid c m) {p : Payment}
    (hp : p ∈ c.state.db.payments) : p.status.CanBecome (m.onPayment now p).status := by
  by_cases hu : ∃ u, m.paymentUpdate = some u ∧ p.id = u.1
  · obtain ⟨u, hu, hid⟩ := hu
    rw [Commit.onPayment_of_eq hu hid]
    cases hcan with
    | create => cases hu
    | detect => cases hu
    | expire => cases hu
    | fail stored status =>
      cases hu
      rw [stored.payment_eq hp hid]
      rcases status with status | status <;> exact .inr (by rw [status]; rfl)
    | reorg stored status =>
      cases hu
      rw [stored.payment_eq hp hid]
      exact .inr (by rw [status]; rfl)
    | confirm stored status =>
      cases hu
      rw [stored.payment_eq hp hid]
      rcases status with status | status <;> exact .inr (by rw [status]; rfl)
    | refresh => cases hu; exact .inl rfl
    | @settle _ _ q _ _ _ _ _ stored status =>
      cases hu
      rw [stored.payment_eq hp hid, status]
      show PaymentStatus.CanBecome .confirming q.amountMatch.outcome.1
      cases q.amountMatch <;> exact .inr rfl
  · rw [Commit.onPayment_of_ne fun u hmu h => hu ⟨u, hmu, h⟩]
    exact .inl rfl

/-- Only `finalizePayment` settles a payment. -/
theorem Can.settles (hcan : Can strict requiredConfirmations j pid c m) {p : Payment}
    (hp : p ∈ c.state.db.payments) (hs : (m.onPayment now p).status.Settled)
    (hne : (m.onPayment now p).status ≠ p.status) :
    j = .confirm ∧ MovedEarlier p.id pid c ∧ ∃ txHash n, p.txHash = some txHash ∧
      requiredConfirmations ≤ n ∧ Ledger.Answered pid (.getConfirmations txHash) (.ok n) c := by
  by_cases hu : ∃ u, m.paymentUpdate = some u ∧ p.id = u.1
  · obtain ⟨u, hu, hid⟩ := hu
    rw [Commit.onPayment_of_eq hu hid] at hs hne
    cases hcan with
    | create => cases hu
    | detect => cases hu
    | expire => cases hu
    | fail => cases hu; rcases hs with hs | hs | hs <;> cases hs
    | reorg => cases hu; rcases hs with hs | hs | hs <;> cases hs
    | confirm => cases hu; rcases hs with hs | hs | hs <;> cases hs
    | refresh => cases hu; exact absurd rfl hne
    | settle stored status earlier txHash_eq enough answered =>
      cases hu
      rw [stored.payment_eq hp hid]
      exact ⟨rfl, earlier, _, _, txHash_eq, enough, answered⟩
  · rw [Commit.onPayment_of_ne fun u hmu h => hu ⟨u, hmu, h⟩] at hne
    exact absurd rfl hne

/-- No permitted commit changes a settled invoice. -/
theorem Can.kept (hcan : Can strict requiredConfirmations j pid c m) (hI : Inv strict c)
    {i : Invoice} (hi : i ∈ c.state.db.invoices) (hs : i.status.Settled) : m.onInvoice i = i := by
  refine Commit.onInvoice_of_ne fun u hu hid => ?_
  -- the invoice of an unsettled payment is not settled
  have hopen : ∀ p : PaymentWithInvoice, Stored p c.state.db → i.id = p.invoiceId →
      (p.status = .detected ∨ p.status = .confirming ∨ p.status = .reorgDetected) → False := by
    intro p hp hpi hst
    have hR := hI.coupled.paid _ hp.payment i hi hpi.symm
    rcases hst with hst | hst | hst <;> rcases hs with hs | hs | hs <;>
      simp [hst, hs, Coupling] at hR
  have hstand : ∀ {i₀ : Invoice} {s s' : InvoiceStatus}, Standing i₀ s s' c.state.db →
      i.id = i₀.id → i.status = s ∨ i.status = s' := by
    rintro i₀ s s' ⟨row, hrow, hterms, hst⟩ hid
    rw [Data.Table.eq_of_key hi hrow (hid.trans (terms_id hterms).symm)]
    exact hst
  cases hcan with
  | create => cases hu
  | detect standing =>
    cases hu
    rcases hstand standing hid with h | h <;> rcases hs with hs | hs | hs <;> rw [h] at hs <;>
      cases hs
  | expire standing =>
    cases hu
    rcases hstand standing hid with h | h <;> rcases hs with hs | hs | hs <;> rw [h] at hs <;>
      cases hs
  | fail stored status => cases hu; exact hopen _ stored hid (status.imp_right .inr)
  | reorg => cases hu
  | confirm stored status => cases hu; exact hopen _ stored hid (status.imp_right .inr)
  | refresh => cases hu
  | settle stored status => cases hu; exact hopen _ stored hid (.inr (.inl status))

/-- Money safety of one scan worker and one confirm worker. -/
theorem money_safety (D : Setup) {s : EvmSystem} (hs : EvmReachable oneOfEach D anything s) :
    TellsTruth s.config.state.db ∧
      ∀ m s', evmStep oneOfEach D s m = some s' → StepsSafely D s m s' := by
  have hK := pipeline_sound False D
  have hreach : (pipeline False D).protocol.Reaches s := hs.mono fun _ _ _ _ => False.elim
  have hI := hK.inv hreach
  refine ⟨hI.tellsTruth, fun m s' hstep => ?_⟩
  rcases Ledger.step_commit hK hreach (fun _ _ _ _ _ _ _ => False.elim) hstep with
    hrows | ⟨pid, input, j, ev, cm, rfl, hpid, ⟨q, hq, hqp, rfl⟩, hc, hcan⟩
  · have hsame : ∀ p ∈ s.config.state.db.payments, ∀ p' ∈ s'.config.state.db.payments,
        p'.id = p.id → p' = p := fun p hp p' hp' hid =>
      Data.Table.eq_of_key ((hrows.payments p').1 hp') hp hid
    refine ⟨fun p hp p' hp' hid => ?_, fun p' hp' hnew => ?_, fun p hp p' hp' hid _ hne => ?_,
      fun i hi _ => ⟨i, (hrows.invoices i).2 hi, rfl, rfl⟩⟩
    · rw [hsame p hp p' hp' hid]
      exact .inl rfl
    · exact absurd rfl (hnew p' ((hrows.payments p').1 hp'))
    · rw [hsame p hp p' hp' hid] at hne
      exact absurd rfl hne
  · subst hpid
    refine ⟨fun p hp p' hp' hid => ?_, fun p' hp' hnew => ?_, fun p hp p' hp' hid hset hne => ?_,
      fun i hi hset => ?_⟩
    · rw [hc.effect.payment_eq hp hp' hid]
      exact hcan.payment hp
    · rcases (hc.effect.payments p').1 hp' with ⟨p, hp, rfl⟩ | ⟨d, hd, rfl⟩
      · exact absurd (terms_paymentId (cm.terms_onPayment _ p)).symm (hnew p hp)
      · cases cm <;> cases hd
        rfl
    · rw [hc.effect.payment_eq hp hp' hid] at hset hne
      obtain ⟨hj, hearlier, henough⟩ := hcan.settles hp hset hne
      exact ⟨_, input, rfl, ⟨q, hq, hqp, hj⟩, henough, hearlier⟩
    · refine ⟨_, hc.effect.keeps_invoice hi, terms_id (cm.terms_onInvoice i), ?_⟩
      rw [hcan.kept hI hi hset]

set_option maxRecDepth 4000 in
/-- The run of one invoice that is paid in full: created, detected, moved to
    `CONFIRMING` by one pass and settled by the next. -/
theorem money_safety_paid : ∃ s, EvmReachable oneOfEach sample anything s ∧
    s.invoices = [("inv_1", .paid)] ∧ TellsTruth s.config.state.db := by
  obtain ⟨s, hs, hx⟩ : ∃ s, EvmReachable oneOfEach sample anything s ∧
      s.invoices = [("inv_1", .paid)] :=
    evmRun_view sampleWorld_unused (sampleInvoice 0 ++ sampleScan 1 ++ [.perform 1 .ok, .stop 1] ++
      sampleConfirm 2 1 ++ [.perform 2 .ok, .stop 2] ++
      sampleConfirm 3 1 ++ performs 3 [.ok, .ok, .id "1", .ok]) (by decide)
  exact ⟨s, hs, hx, (money_safety sample hs).1⟩

end CryptoPay.Worker
