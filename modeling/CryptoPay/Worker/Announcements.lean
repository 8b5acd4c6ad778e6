import CryptoPay.Worker.Finality
import CryptoPay.Worker.SettledOnce

/-!
# What an event about a settlement is based on

`finalizePayment` stores an event in the transaction that settles a payment. Passes
may overlap and the chain may fork, so by then the rows may have changed under the
pass. What the event says rests on what no pass changes: the terms of the invoice
and of its payment, and what the node has answered.

Results:
* `announcements_sound`: every stored event about a settlement is about a payment
  that was credited for a logged transfer, says how its amount compares with that of
  the invoice, and was stored when the transaction was deep enough.
-/

namespace CryptoPay.Worker

open Async

/-- The event says how the payment `p` of the invoice `i` was settled, after its
    transaction was found deep enough. -/
structure Announces (D : Setup) (tr : Evm.Trace) (e : WebhookEvent) (p : Payment) (i : Invoice) :
    Prop where
  credited : Credited D.network tr p i
  invoiceId : e.invoiceId = i.id
  organizationId : e.organizationId = i.organizationId
  type : e.type = p.amountMatch.outcome.2.2
  data : e.data = {
    invoice_id := i.id
    external_id := i.externalId
    amount := i.amount.toString
    currency := i.currency
    network := i.network
    status := toLowerAscii p.amountMatch.outcome.2.1.toString
    tx_hash := p.txHash }
  deep : ∃ pid txHash n, p.txHash = some txHash ∧ D.requiredConfirmations ≤ n ∧
    Evm.Depth pid txHash n tr

/-- Every stored event about a settlement announces one. -/
def AllAnnounced (D : Setup) (c : History rpcCalls Evm.Chain) : Prop :=
  ∀ e ∈ c.state.db.webhookEvents, e.type ∈ settlementTypes →
    ∃ i ∈ c.state.db.invoices, ∃ p ∈ c.state.db.payments, Announces D c.trace e p i

/-- A pass that settles a payment has read it, with its invoice. -/
def CanAnnounce (D : Setup) (j : Job) (pid : ℕ) (c : History rpcCalls Evm.Chain) (m : Commit) :
    Prop :=
  CanCredit D j pid c m ∧ ∀ p n confirmedAt paidAt eventId,
    m = .settle p n confirmedAt paidAt eventId → Read p c.state.db

/-- Any number of passes of either kind, on a node. -/
def announcements (n : Replicas) (D : Setup) :
    Ledger rpcCalls Evm.Chain Evm.Reply Evm.Fork Job where
  backend := Evm.node
  work := workload n D.onNode
  start := Unused
  allowed := anything
  Inv c := AllCredited D.network c ∧ AllAnnounced D c
  Can := CanAnnounce D
  Side _ _ _ := False
  Exc _ _ := True

variable {n : Replicas} {D : Setup} {pid : ℕ} {c c' : History rpcCalls Evm.Chain}
  {tr tr' : Evm.Trace} {e : WebhookEvent} {p p' : Payment} {i i' : Invoice}

/-! ## Events stay true -/

theorem Announces.congr (h : Announces D tr e p i) (hp : p'.terms = p.terms)
    (hi : i'.terms = i.terms) (hs : tr <:+ tr') : Announces D tr' e p' i' := by
  obtain ⟨pid, txHash, k, htx, hk, hdepth⟩ := h.deep
  have hhash : p'.txHash = p.txHash := (congrArg Payment.txHash hp :)
  have hmatch : p'.amountMatch = p.amountMatch := by
    have hexpected : p'.expectedAmount = p.expectedAmount := (congrArg Payment.expectedAmount hp :)
    have hreceived : p'.receivedAmount = p.receivedAmount := (congrArg Payment.receivedAmount hp :)
    unfold Payment.amountMatch
    rw [hexpected, hreceived]
  have hid : i'.id = i.id := terms_id hi
  have horg : i'.organizationId = i.organizationId := (congrArg Invoice.organizationId hi :)
  have hexternal : i'.externalId = i.externalId := (congrArg Invoice.externalId hi :)
  have hamount : i'.amount = i.amount := (congrArg Invoice.amount hi :)
  have hcurrency : i'.currency = i.currency := (congrArg Invoice.currency hi :)
  have hnetwork : i'.network = i.network := (congrArg Invoice.network hi :)
  exact {
    credited := h.credited.congr hp hi hs
    invoiceId := h.invoiceId.trans hid.symm
    organizationId := h.organizationId.trans horg.symm
    type := by rw [h.type, hmatch]
    data := by rw [h.data, hmatch, hid, hexternal, hamount, hcurrency, hnetwork, hhash]
    deep := ⟨pid, txHash, k, hhash.trans htx, hk, hdepth.mono hs⟩ }

theorem AllAnnounced.congr (h : AllAnnounced D c) (hr : c.state.db.SameRows c'.state.db)
    (hs : c.trace <:+ c'.trace) : AllAnnounced D c' := by
  intro e he htype
  obtain ⟨i, hi, p, hp, ha⟩ := h e ((hr.webhookEvents e).1 he) htype
  exact ⟨i, (hr.invoices i).2 hi, p, (hr.payments p).2 hp, ha.congr rfl rfl hs⟩

/-- A pass that settles a payment stores an event that announces it. -/
theorem announces_settle {p : PaymentWithInvoice} {k : ℤ} {confirmedAt : Time}
    {paidAt : Option Time} {eventId : String} {j : Job} (hI : AllCredited D.network c)
    (hc : Committed ev (.settle p k confirmedAt paidAt eventId) c c')
    (hcan : CanAnnounce D j pid c (.settle p k confirmedAt paidAt eventId)) :
    ∃ i ∈ c'.state.db.invoices, ∃ q ∈ c'.state.db.payments, Announces D c'.trace
      ((webhookEventInput eventId p.invoice p.amountMatch.outcome.2.2 p.amountMatch.outcome.2.1
        p.txHash).row c.state.clock) q i := by
  have hs : c.trace <:+ c'.trace := hc.trace ▸ List.suffix_cons _ _
  obtain ⟨⟨-, -, txHash, htx, hk, hdepth⟩, hread⟩ := hcan
  obtain ⟨⟨row, hrow, hterms⟩, ⟨inv, hinv, hiterms⟩, hpid⟩ := hread _ _ _ _ _ rfl
  -- the payment's invoice is the one that was read with it
  obtain ⟨i₀, hi₀, hcred⟩ := hI row hrow
  have hsame : i₀ = inv := Data.Table.eq_of_key hi₀ hinv (by
    rw [← hcred.charges.invoiceId, terms_invoiceId hterms, hpid, terms_id hiterms])
  subst hsame
  refine ⟨_, hc.effect.keeps_invoice hinv, _, hc.effect.keeps_payment hrow, ?_⟩
  have hann : Announces D c.trace ((webhookEventInput eventId p.invoice p.amountMatch.outcome.2.2
      p.amountMatch.outcome.2.1 p.txHash).row c.state.clock) p.toPayment p.invoice :=
    ⟨hcred.congr hterms.symm hiterms.symm (List.suffix_refl _), rfl, rfl, rfl, rfl,
      pid, txHash, k, htx, hk, hdepth⟩
  exact hann.congr ((Commit.terms_onPayment _ _ row).trans hterms)
    ((Commit.terms_onInvoice _ i₀).trans hiterms) hs

theorem announcements_lawful (n : Replicas) (D : Setup) : (announcements n D).Lawful where
  initial w hw := ⟨(credits_lawful n D).initial w hw, fun e he => absurd he (hw.2.2 e)⟩
  quiet c c' ev hI hp hside := ⟨(credits_lawful n D).quiet c c' ev hI.1 hp hside,
    hI.2.congr hp.rows (hp.trace ▸ List.suffix_cons _ _)⟩
  env c c' hI ht hr ho := ⟨(credits_lawful n D).env c c' hI.1 ht hr ho,
    hI.2.congr hr (ht ▸ List.suffix_refl _)⟩
  commit c c' ev m j hI hc hcan := by
    refine ⟨(credits_lawful n D).commit c c' ev m j hI.1 hc hcan.1, fun e he htype => ?_⟩
    have hs : c.trace <:+ c'.trace := hc.trace ▸ List.suffix_cons _ _
    rcases (hc.effect.webhookEvents e).1 he with hold | ⟨d, hd, rfl⟩
    · obtain ⟨i, hi, p, hp, ha⟩ := hI.2 e hold htype
      exact ⟨_, hc.effect.keeps_invoice hi, _, hc.effect.keeps_payment hp,
        ha.congr (m.terms_onPayment _ p) (m.terms_onInvoice i) hs⟩
    · cases m with
      | settle p k confirmedAt paidAt eventId =>
        cases hd
        exact announces_settle hI.1 hc hcan
      | expire i eventId =>
        cases hd
        have hexpired : "invoice.expired" ∉ settlementTypes := by decide
        exact absurd htype hexpired
      | _ => cases hd

/-! ## The passes -/

theorem announcements_scan_valid : (announcements n D).protocol.Valid .scan pid (fun _ => True)
    (runBlockchainScan (Evm.adapter D.validateAddress D.network) D.network) (fun _ _ => True)
    AnyError := by
  have hP : (announcements n D).Fact .scan pid fun _ => True := .trivially
  refine runBlockchainScan_rule (fun t c => Evm.Logged D.network t c.trace)
    (fun t _ _ hs h => h.mono hs) (fun _ => trivial) D.network
    (Ledger.getLatestBlock_valid hP Evm.node_readOnly fun _ _ _ => trivial) (fun a b => ?_) ?_
  · exact (Ledger.getTokenTransfers_valid hP Evm.node_readOnly (fun _ _ _ => trivial) _ a b).post
      (fun _ _ _ h => h.2) fun _ _ _ h => h
  · intro i t paymentId detectedAt c c' ev _ hi hmatch hlog
    have hcan : CanAnnounce D .scan pid c (.detect i t paymentId detectedAt) :=
      ⟨⟨hi, hmatch.1, hmatch.2.2, hlog⟩, fun _ _ _ _ _ h => by cases h⟩
    exact hcan

theorem announcements_confirm_valid :
    (announcements n D).protocol.Valid .confirm pid (fun _ => True)
      (runPaymentConfirm (Evm.adapter D.validateAddress D.network) D.requiredConfirmations)
      (fun _ _ => True) AnyError := by
  refine runPaymentConfirm_rule (fun h n c => Evm.Depth pid h n c.trace)
    (fun _ _ _ _ hs h => h.mono hs) (fun _ => trivial)
    (fun F txHash hF => Ledger.getConfirmations_valid (E := fun _ => F) hF Evm.node_readOnly
      (fun _ _ _ h _ => h) txHash) fun m c c' ev hc hknows => ?_
  have hcan : CanAnnounce D .confirm pid c m := by
    cases hknows with
    | settle read status txHash_eq enough reported paid =>
      refine ⟨⟨rfl, read.payment, _, txHash_eq, enough, reported⟩, fun p k _ _ _ heq => ?_⟩
      cases heq
      exact read
    | _ => exact ⟨trivial, fun _ _ _ _ _ h => by cases h⟩
  exact hcan

/-- Creating an invoice announces nothing. -/
theorem announcements_create_valid {j : Job} (mode : Api.BlockchainMode)
    (organizationId apiKeyId : String) (input : Api.CreateInvoiceInput) (ctx : Api.RequestContext) :
    (announcements n D).protocol.Valid j pid (fun _ => True)
      (Api.create mode organizationId apiKeyId input ctx) (fun _ _ => True) AnyError := by
  have hcan : ∀ d c, CanAnnounce D j pid c (.create d) := fun d c =>
    ⟨trivial, fun _ _ _ _ _ h => by cases h⟩
  exact Api.create_valid .trivially mode organizationId apiKeyId input ctx
    (fun d c _ _ _ _ _ _ _ _ => ⟨hcan d c, trivial⟩) fun _ _ _ _ _ => trivial

/-- No job relies on the others. -/
theorem announcements_valid (j : Job) : (announcements n D).protocol.Valid j pid (fun _ => True)
    (launch D.onNode j) (fun _ _ => True) AnyError := by
  cases j with
  | scan => exact announcements_scan_valid
  | confirm => exact announcements_confirm_valid
  | createInvoice organizationId apiKeyId input ctx =>
    exact (announcements_create_valid .evm organizationId apiKeyId input ctx).bind fun _ =>
      .pure fun _ _ h => h
  | setWalletAddress organizationId userId input ctx =>
    exact (Api.set_valid .trivially _ organizationId userId input ctx
      fun _ _ _ _ _ => trivial).bind fun _ => .pure fun _ _ h => h

theorem announcements_sound (n : Replicas) (D : Setup) : (announcements n D).protocol.Sound :=
  (announcements_lawful n D).sound fun j _ =>
    ⟨fun _ => True, .trivially, fun _ _ _ => trivial, announcements_valid j⟩

end CryptoPay.Worker
