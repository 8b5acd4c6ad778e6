import CryptoPay.Worker.Pipeline
import CryptoPay.Worker.ReadBefore

/-!
# Which invoice statuses are written

`invoice-state-machine.ts` asks its callers to assert a transition before they
persist it, and calls `EXPIRED` terminal. The sweep of the confirm pass and the
matcher of the scan pass assert a constant, `PENDING`, and then write whatever
the row has become.

Results:
* `notOvertaken_legal`: in a run in which no other process updates an invoice between a
  pass's read of it and its update, each write of an invoice status is an edge of
  `INVOICE_TRANSITIONS`, and no pass throws `InvalidStateTransitionError`. The
  queries of the two passes then see to it that an expiry or a detection finds its
  invoice `PENDING` (`findsPending_legal`).
* `stale_commits_illegal`: without that condition all three can happen, a
  `DETECTED` invoice that expires, an `EXPIRED` one that is detected, and a pass
  that throws.
-/

namespace CryptoPay.Worker

open Async

/-- In runs that meet `allowed`, invoice statuses follow the state machine and
    its assertions pass. -/
structure LegalRuns (D : Setup) (allowed : Condition (effects adapterCalls) (World Unit)) :
    Prop where
  writes : ∀ s, EvmReachable oneOfEach D allowed s → ∀ m s', s.Meets allowed m →
    evmStep oneOfEach D s m = some s' →
      ∀ i ∈ s.config.state.db.invoices, ∀ i' ∈ s'.config.state.db.invoices, i'.id = i.id →
        i.status.CanBecome i'.status
  throws : ∀ s, EvmReachable oneOfEach D allowed s →
    ∀ p ∈ s.procs, ∀ e, p.prog = .throw e → ¬ e.IsInvalidStateTransition

/-- A transaction updates an invoice only if no other process has updated it since this one
    last read it. -/
def NotOvertaken (c : History adapterCalls Unit) (pid : ℕ) (op : Op adapterCalls) : Prop :=
  ∀ ws id d, op = .prisma (.transaction ws) → .invoiceUpdate id d ∈ ws →
    Async.Untouched (ShowsInvoice id) (fun _ => UpdatesInvoice id) pid c.trace

variable {strict : Prop} {requiredConfirmations : ℤ} {j : Job} {pid : ℕ} {m : Commit}
  {c : History adapterCalls Unit}

/-- The stored row of an invoice that is known to be `PENDING`. -/
theorem Standing.pending {i row : Invoice} {db : Db} (h : Standing i .pending .pending db)
    (hrow : row ∈ db.invoices) (hid : row.id = i.id) : row.status = .pending := by
  obtain ⟨row', hrow', hterms, hs⟩ := h
  rw [Data.Table.eq_of_key hrow hrow' (hid.trans (terms_id hterms).symm)]
  exact hs.elim id id

/-- A commit that is not stale writes an invoice status along an edge. -/
theorem Can.invoice (hcan : Can strict requiredConfirmations j pid c m) (hstrict : strict)
    (hI : Inv strict c) {i : Invoice} (hi : i ∈ c.state.db.invoices) :
    i.status.CanBecome (m.onInvoice i).status := by
  by_cases hu : ∃ u, m.invoiceUpdate = some u ∧ i.id = u.1
  · obtain ⟨u, hu, hid⟩ := hu
    rw [Commit.onInvoice_of_eq hu hid]
    cases hcan with
    | create => cases hu
    | detect standing unpaid token fresh =>
      cases hu
      exact .inr (by rw [(fresh hstrict).pending hi hid]; rfl)
    | expire standing fresh =>
      cases hu
      exact .inr (by rw [(fresh hstrict).pending hi hid]; rfl)
    | fail stored status invoice =>
      cases hu
      exact .inr (by rw [stored.invoice_eq hi hid]; exact invoice)
    | reorg => cases hu
    | confirm stored status invoice =>
      cases hu
      rw [stored.invoice_eq hi hid]
      exact invoice.imp_left Eq.symm
    | refresh => cases hu
    | @settle _ _ p _ _ _ _ _ stored status =>
      cases hu
      rw [stored.invoice_eq hi hid]
      have hR := hI.coupled.paid _ stored.payment _ stored.invoice stored.id
      rw [status] at hR
      refine .inr ?_
      rw [show p.invoice.status = .confirming from hR]
      show canTransitionInvoice .confirming p.amountMatch.outcome.2.1 = true
      cases p.amountMatch <;> rfl
  · rw [Commit.onInvoice_of_ne fun u hmu h => hu ⟨u, hmu, h⟩]
    exact .inl rfl

/-- If no expiry and no detection is stale, invoice statuses follow the state
    machine. -/
theorem findsPending_legal (D : Setup) : LegalRuns D fun c _ op => FindsPending c op := by
  have hK := pipeline_sound True D
  have hreach : ∀ s, EvmReachable oneOfEach D (fun c _ op => FindsPending c op) s →
      (pipeline True D).protocol.Reaches s := fun s hs => hs.mono fun _ _ _ h _ => h
  constructor
  · intro s hs m s' hm hstep i hi i' hi' hid
    rcases Ledger.step_commit hK (hreach s hs) (hm.mono fun _ _ _ h _ => h) hstep with
      hrows | ⟨pid, input, j, ev, cm, -, -, -, hc, hcan⟩
    · rw [Data.Table.eq_of_key ((hrows.invoices i').1 hi') hi hid]
      exact .inl rfl
    · rw [hc.effect.invoice_eq hi hi' hid]
      exact hcan.invoice trivial (hK.inv (hreach s hs)) hi
  · intro s hs p hp e he
    exact hK.exc (hreach s hs) hp he trivial

/-- What a process commits is not stale, if nobody has overtaken it. -/
theorem NotOvertaken.findsPending {n : Replicas} {D : Setup}
    {allowed : Condition (effects adapterCalls) (World Unit)} {s : EvmSystem}
    (hs : EvmReachable n D allowed s) {p : Proc (effects adapterCalls) Error Job}
    (hp : p ∈ s.procs) {op : Op adapterCalls}
    {k : (effects adapterCalls).Ret op → Prog (effects adapterCalls) Error Unit}
    (hk : p.prog = .await op k) (h : NotOvertaken s.config p.pid op) :
    FindsPending s.config op := by
  rintro ws id d rfl hw hd i hi hid
  obtain ⟨row, hrow, hrowId, hstatus⟩ := finds_pending hs hp hk hw hd (h ws id d rfl hw)
  rw [Data.Table.eq_of_key hi hrow (hid.trans hrowId.symm)]
  exact hstatus

/-- If nobody updates an invoice between a pass's read and its update, invoice
    statuses follow the state machine. -/
theorem notOvertaken_legal (D : Setup) : LegalRuns D NotOvertaken := by
  have hlegal := findsPending_legal D
  have hreach : ∀ s, EvmReachable oneOfEach D NotOvertaken s →
      EvmReachable oneOfEach D (fun c _ op => FindsPending c op) s := fun s hs =>
    Reachable.refines (fun _ hs _ _ hp _ _ hk h => NotOvertaken.findsPending hs hp hk h) hs
  constructor
  · intro s hs m s' hm hstep
    exact hlegal.writes s (hreach s hs) m s'
      (hm.refines fun _ hp _ _ hk h => NotOvertaken.findsPending hs hp hk h) hstep
  · exact fun s hs => hlegal.throws s (hreach s hs)

/-! ## Stale commits -/

/-- Two passes that overlap around the expiry of an invoice: the sweep of the
    confirm pass 1 has read it as overdue, and the scan pass 2 has read it as a
    candidate, when the first of the two commits. -/
def overlap : List EvmMove :=
  sampleInvoice 0 ++ [.env (.clock 1800001), .start .confirm] ++
    performs 1 [.ok, .ok, .id "1"] ++ sampleScan 2

set_option maxRecDepth 4000 in
/-- When the scan commits first, the sweep expires an invoice that is
    `DETECTED`. -/
theorem stale_sweep : ∃ s s', EvmReachable oneOfEach sample anything s ∧
    evmStep oneOfEach sample s (.perform 1 .ok) = some s' ∧
      (s.invoices, s'.invoices) = ([("inv_1", .detected)], [("inv_1", .expired)]) :=
  evmStep_view sampleWorld_unused (overlap ++ [.perform 2 .ok]) (by decide)

set_option maxRecDepth 4000 in
/-- When the sweep commits first, the scan detects an invoice that is `EXPIRED`. -/
theorem stale_scan : ∃ s s', EvmReachable oneOfEach sample anything s ∧
    evmStep oneOfEach sample s (.perform 2 .ok) = some s' ∧
      (s.invoices, s'.invoices) = ([("inv_1", .expired)], [("inv_1", .detected)]) :=
  evmStep_view sampleWorld_unused (overlap ++ [.perform 1 .ok]) (by decide)

set_option maxRecDepth 4000 in
/-- After a stale sweep the confirm pass throws: an expired invoice cannot
    become `CONFIRMING`. -/
theorem stale_sweep_throws : ∃ s, EvmReachable oneOfEach sample anything s ∧
    s.thrown = [.invalidStateTransition "Invoice cannot transition from EXPIRED to CONFIRMING"
      "EXPIRED" "CONFIRMING"] :=
  evmRun_view sampleWorld_unused (overlap ++ [.perform 2 .ok, .perform 1 .ok] ++
    performs 1 [.ok, .other (.confirmations (.ok 1))]) (by decide)

/-- Without a condition on the commits, neither the writes nor the assertions
    are safe. -/
theorem stale_commits_illegal :
    (∃ s m s', EvmReachable oneOfEach sample anything s ∧ evmStep oneOfEach sample s m = some s' ∧
      ∃ i ∈ s.config.state.db.invoices, ∃ i' ∈ s'.config.state.db.invoices, i'.id = i.id ∧
        i.status = .detected ∧ i'.status = .expired) ∧
    (∃ s m s', EvmReachable oneOfEach sample anything s ∧ evmStep oneOfEach sample s m = some s' ∧
      ∃ i ∈ s.config.state.db.invoices, ∃ i' ∈ s'.config.state.db.invoices, i'.id = i.id ∧
        i.status = .expired ∧ i'.status = .detected) ∧
    (∃ s, EvmReachable oneOfEach sample anything s ∧
      ∃ p ∈ s.procs, ∃ e, p.prog = .throw e ∧ e.IsInvalidStateTransition) ∧
    ¬ LegalRuns sample anything := by
  have hrows : ∀ {s s' : EvmSystem} {a b : InvoiceStatus},
      (s.invoices, s'.invoices) = ([("inv_1", a)], [("inv_1", b)]) →
        ∃ i ∈ s.config.state.db.invoices, ∃ i' ∈ s'.config.state.db.invoices, i'.id = i.id ∧
          i.status = a ∧ i'.status = b := by
    intro s s' a b h
    have hs : ("inv_1", a) ∈ s.invoices := by rw [(Prod.mk.inj h).1]; exact List.mem_singleton_self _
    have hs' : ("inv_1", b) ∈ s'.invoices := by
      rw [(Prod.mk.inj h).2]; exact List.mem_singleton_self _
    obtain ⟨i, hi, hid, hst⟩ := mem_invoiceStatuses hs
    obtain ⟨i', hi', hid', hst'⟩ := mem_invoiceStatuses hs'
    exact ⟨i, hi, i', hi', hid'.trans hid.symm, hst, hst'⟩
  obtain ⟨s₁, s₁', hr₁, hstep₁, hx₁⟩ := stale_sweep
  obtain ⟨s₂, s₂', hr₂, hstep₂, hx₂⟩ := stale_scan
  obtain ⟨s₃, hr₃, hx₃⟩ := stale_sweep_throws
  obtain ⟨i, hi, i', hi', hid, hst, hst'⟩ := hrows hx₁
  refine ⟨⟨s₁, _, s₁', hr₁, hstep₁, i, hi, i', hi', hid, hst, hst'⟩,
    ⟨s₂, _, s₂', hr₂, hstep₂, hrows hx₂⟩, ⟨s₃, hr₃, ?_⟩, fun h => ?_⟩
  · obtain ⟨p, hp, he⟩ := EvmSystem.mem_thrown (hx₃ ▸ List.mem_singleton_self _)
    exact ⟨p, hp, _, he, trivial⟩
  · have hlegal := h.writes s₁ hr₁ _ s₁' (fun _ _ _ _ _ _ _ => trivial) hstep₁ i hi i' hi' hid
    rw [hst, hst'] at hlegal
    revert hlegal
    decide

end CryptoPay.Worker
