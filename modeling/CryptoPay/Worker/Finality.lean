import CryptoPay.Api.Outlines
import CryptoPay.Blockchain.Node
import CryptoPay.Worker.Jobs
import CryptoPay.Worker.Outlines

/-!
# What a paid invoice says about the chain

The worker on a node whose chain forks. The scan pass reads logs, the confirm pass
reads a receipt and then the head, and the chain may change between any two of
these requests and before the commit that follows them.

Results:
* `finality`: a pass that settles a payment and marks its invoice `PAID` had read a receipt of the payment's
  transaction, and then a head at which it was deep enough; and the transfer was in
  the canonical chain when it was detected.
* `forked_paid`: a transaction that has left the chain since, or was mined again as
  reverted, finalises an invoice.
-/

namespace CryptoPay.Worker

open Async

/-- The worker with the EVM adapter. -/
def Setup.onNode (D : Setup) : Deployment rpcCalls where
  adapter := Evm.adapter D.validateAddress D.network
  network := D.network
  requiredConfirmations := D.requiredConfirmations

abbrev NodeSystem := System (effects rpcCalls) Error Job (World Evm.Chain)

abbrev NodeMove := Move Job (Input Evm.Reply) (Act Evm.Fork)

/-- The systems that some run leads to. -/
def NodeReachable (n : Replicas) (D : Setup) : NodeSystem → Prop :=
  Reachable (machine Evm.node) (workload n D.onNode) Unused anything

def NodeLeads (n : Replicas) (D : Setup) : NodeSystem → NodeSystem → Prop :=
  Leads (machine Evm.node) (workload n D.onNode) anything

def nodeStep (n : Replicas) (D : Setup) (s : NodeSystem) (m : NodeMove) : Option NodeSystem :=
  s.step (machine Evm.node) (workload n D.onNode) m

/-- The system's canonical chain. -/
abbrev NodeSystem.chain (s : NodeSystem) : Evm.Chain := s.config.state.other

/-- Process `pid` awaits the answer to the client call. -/
def NodeSystem.Awaits (s : NodeSystem) (pid : ℕ) (call : RpcCall) : Prop :=
  ∃ p ∈ s.procs, p.pid = pid ∧ ∃ k, p.prog = .await (.other call) k

variable {n : Replicas} {D : Setup} {s : NodeSystem} {j : Job} {pid : ℕ}
  {c c' : History rpcCalls Evm.Chain}

/-- An answer in the trace was given in an earlier system, from its chain. -/
theorem node_answered (hs : NodeReachable n D s) {call : RpcCall} {r : rpcCalls.Ret call}
    {tr : Evm.Trace} (h : (⟨pid, .other call, r⟩ :: tr) <:+ s.config.trace) :
    ∃ s₁, NodeReachable n D s₁ ∧ NodeLeads n D s₁ s ∧ s₁.config.trace = tr ∧
      NodeSystem.Awaits s₁ pid call ∧ ∃ reply, (NodeSystem.chain s₁).answer call reply = r := by
  obtain ⟨s₁, hs₁, htr, hp, ⟨i, state, hr⟩, hleads⟩ := Reachable.answered hs h
  obtain ⟨reply, o, ho, -⟩ := respond_other hr
  exact ⟨s₁, hs₁, hleads, htr, hp, reply, congrArg Prod.fst (Option.some.inj ho)⟩

/-! ## The ledger -/

/-- The payment was credited to the invoice for a transfer that was logged. -/
structure Credited (network : String) (tr : Evm.Trace) (p : Payment) (i : Invoice) : Prop where
  charges : p.Charges i
  address : p.toAddress = i.paymentAddress
  logged : ∃ t, Evm.Logged network t tr ∧ p.txHash = some t.txHash ∧
    p.receivedAmount = some t.amount ∧ p.toAddress = t.toAddress ∧ p.token = t.token ∧
    p.blockNumber = some t.blockNumber

/-- What a job knows when it commits: a scan, that its transfer was logged; a confirm
    pass, that the transaction it settles was deep enough. -/
def CanCredit (D : Setup) (j : Job) (pid : ℕ) (c : History rpcCalls Evm.Chain) : Commit → Prop
  | .detect i t _ _ => HasInvoice i c.state.db ∧ i.paymentAddress = t.toAddress ∧
      i.token = t.token ∧ Evm.Logged D.network t c.trace
  | .settle p n _ _ _ => j = .confirm ∧ HasPayment p.toPayment c.state.db ∧
      ∃ txHash, p.txHash = some txHash ∧ D.requiredConfirmations ≤ n ∧
        Evm.Depth pid txHash n c.trace
  | _ => True

/-- Every stored payment was credited. -/
def AllCredited (network : String) (c : History rpcCalls Evm.Chain) : Prop :=
  ∀ p ∈ c.state.db.payments, ∃ i ∈ c.state.db.invoices, Credited network c.trace p i

/-- Any number of passes of either kind, on a node. -/
def credits (n : Replicas) (D : Setup) : Ledger rpcCalls Evm.Chain Evm.Reply Evm.Fork Job where
  backend := Evm.node
  work := workload n D.onNode
  start := Unused
  allowed := anything
  Inv := AllCredited D.network
  Can := CanCredit D
  Side _ _ _ := False
  Exc _ _ := True

theorem Credited.congr {network : String} {tr tr' : Evm.Trace} {p p' : Payment} {i i' : Invoice}
    (h : Credited network tr p i) (hp : p'.terms = p.terms) (hi : i'.terms = i.terms)
    (hs : tr <:+ tr') : Credited network tr' p' i' := by
  obtain ⟨t, hlog, htx, hamount, haddr, htoken, hblock⟩ := h.logged
  have haddress : p'.toAddress = p.toAddress := (congrArg Payment.toAddress hp :)
  have hpay : i'.paymentAddress = i.paymentAddress := (congrArg Invoice.paymentAddress hi :)
  refine ⟨h.charges.congr hp hi, ?_, t, hlog.mono hs, ?_, ?_, haddress.trans haddr, ?_, ?_⟩
  · rw [haddress, hpay, h.address]
  · exact (congrArg Payment.txHash hp :).trans htx
  · exact (congrArg Payment.receivedAmount hp :).trans hamount
  · exact (congrArg Payment.token hp :).trans htoken
  · exact (congrArg Payment.blockNumber hp :).trans hblock

theorem AllCredited.congr {network : String} (h : AllCredited network c)
    (hr : c.state.db.SameRows c'.state.db) (hs : c.trace <:+ c'.trace) :
    AllCredited network c' := by
  intro p hp
  obtain ⟨i, hi, hc⟩ := h p ((hr.payments p).1 hp)
  exact ⟨i, (hr.invoices i).2 hi, hc.congr rfl rfl hs⟩

theorem credits_lawful (n : Replicas) (D : Setup) : (credits n D).Lawful where
  initial w hw p hp := absurd hp (hw.2.1 p)
  quiet c c' ev hI hp _ := AllCredited.congr hI hp.rows (hp.trace ▸ List.suffix_cons _ _)
  env c c' hI ht hr _ := AllCredited.congr hI hr (ht ▸ List.suffix_refl _)
  commit c c' ev m j hI hc hcan := by
    have hs : c.trace <:+ c'.trace := hc.trace ▸ List.suffix_cons _ _
    intro p' hp'
    rcases (hc.effect.payments p').1 hp' with ⟨p, hp, rfl⟩ | ⟨d, hd, rfl⟩
    · obtain ⟨i, hi, hcred⟩ := hI p hp
      exact ⟨_, hc.effect.keeps_invoice hi,
        hcred.congr (m.terms_onPayment _ p) (m.terms_onInvoice i) hs⟩
    · cases m with
      | detect i t paymentId detectedAt =>
        cases hd
        obtain ⟨⟨row, hrow, hterms⟩, haddr, htoken, hlog⟩ := hcan
        have hcred : Credited D.network c.trace
            ((detectedPayment paymentId detectedAt i t).row c.state.clock) i :=
          ⟨detectedPayment_charges htoken, haddr.symm, t, hlog, rfl, rfl, rfl, rfl, rfl⟩
        exact ⟨_, hc.effect.keeps_invoice hrow,
          hcred.congr rfl ((Commit.terms_onInvoice _ row).trans hterms) hs⟩
      | _ => cases hd

/-! ## The passes -/

/-- Nothing is promised about errors. -/
def AnyError (_ : Error) (_ : History rpcCalls Evm.Chain) : Prop := True

theorem credits_scan_valid : (credits n D).protocol.Valid .scan pid (fun _ => True)
    (runBlockchainScan (Evm.adapter D.validateAddress D.network) D.network) (fun _ _ => True)
    AnyError := by
  have hP : (credits n D).Fact .scan pid fun _ => True := .trivially
  refine runBlockchainScan_rule (fun t c => Evm.Logged D.network t c.trace)
    (fun t _ _ hs h => h.mono hs) (fun _ => trivial) D.network
    (Ledger.getLatestBlock_valid hP Evm.node_readOnly fun _ _ _ => trivial) (fun a b => ?_) ?_
  · exact (Ledger.getTokenTransfers_valid hP Evm.node_readOnly (fun _ _ _ => trivial) _ a b).post
      (fun _ _ _ h => h.2) fun _ _ _ h => h
  · intro i t paymentId detectedAt c c' ev _ hi hmatch hlog
    exact ⟨hi, hmatch.1, hmatch.2.2, hlog⟩

theorem credits_confirm_valid : (credits n D).protocol.Valid .confirm pid (fun _ => True)
    (runPaymentConfirm (Evm.adapter D.validateAddress D.network) D.requiredConfirmations)
    (fun _ _ => True) AnyError := by
  refine runPaymentConfirm_rule (fun h n c => Evm.Depth pid h n c.trace)
    (fun _ _ _ _ hs h => h.mono hs) (fun _ => trivial)
    (fun F txHash hF => Ledger.getConfirmations_valid (E := fun _ => F) hF Evm.node_readOnly
      (fun _ _ _ h _ => h) txHash) fun m c c' ev hc hknows => ?_
  cases hknows with
  | settle read status txHash_eq enough reported paid =>
    exact ⟨rfl, read.payment, _, txHash_eq, enough, reported⟩
  | _ => exact trivial

theorem credits_sound (n : Replicas) (D : Setup) : (credits n D).protocol.Sound := by
  refine (credits_lawful n D).sound fun j pid => ⟨fun _ => True, .trivially, fun _ _ _ => trivial, ?_⟩
  have hthrows : Api.Throws (credits n D) (fun _ => True) fun e _ => (credits n D).Exc j e :=
    fun _ _ _ _ _ => trivial
  cases j with
  | scan => exact credits_scan_valid
  | confirm => exact credits_confirm_valid
  | createInvoice organizationId apiKeyId input ctx =>
    exact (Api.create_valid .trivially .evm organizationId apiKeyId input ctx
      (fun _ _ _ _ _ _ _ _ _ _ => ⟨trivial, trivial⟩) hthrows).bind fun _ => .pure fun _ _ h => h
  | setWalletAddress organizationId userId input ctx =>
    exact (Api.set_valid .trivially _ organizationId userId input ctx hthrows).bind
      fun _ => .pure fun _ _ h => h

/-! ## What a paid invoice says -/

/-- Earlier in the run, process `pid` read the receipt of a canonical transaction, and
    after it a head at which that transaction has the required confirmations. -/
def SeenDeep (n : Replicas) (D : Setup) (s : NodeSystem) (pid : ℕ) (txHash : String) : Prop :=
  ∃ s₁ s₂ : NodeSystem, NodeReachable n D s₁ ∧ NodeLeads n D s₁ s₂ ∧ NodeLeads n D s₂ s ∧
    s₁.Awaits pid (.getTransactionReceipt txHash) ∧ s₂.Awaits pid .getBlockNumber ∧
    ∃ b tx, s₁.chain.Contains b tx ∧ tx.hash = txHash ∧
      D.requiredConfirmations ≤ max 0 (s₂.chain.head - b + 1)

/-- The payment's transaction is in block `h` and transfers what was received to the
    address. -/
structure Carries (D : Setup) (chain : Evm.Chain) (p : Payment) (address : String) (h : ℕ)
    (tx : Evm.Tx) : Prop where
  contains : chain.Contains h tx
  txHash : p.txHash = some tx.hash
  status : tx.status = .success
  transfer : ∃ config l, (p.token, config) ∈ getTokensForNetwork D.network ∧ l ∈ tx.logs ∧
    l.contract = config.contractAddress ∧ l.toAddress = address ∧
    p.receivedAmount = some (config.amount l.value)

/-- What is known of the payment `p` when process `pid` marks its invoice `i` as `PAID`:
    it was deep enough earlier in this pass, and it was canonical when it was detected. -/
structure PaidFrom (n : Replicas) (D : Setup) (s : NodeSystem) (pid : ℕ) (p : Payment)
    (i : Invoice) : Prop where
  job : ∃ q ∈ s.procs, q.pid = pid ∧ q.job = .confirm
  invoiceId : p.invoiceId = i.id
  deep : ∃ txHash, p.txHash = some txHash ∧ SeenDeep n D s pid txHash
  carried : ∃ s₀ : NodeSystem, NodeReachable n D s₀ ∧ NodeLeads n D s₀ s ∧
    ∃ (h : ℕ) (tx : Evm.Tx), p.blockNumber = some (h : ℤ) ∧ Carries D s₀.chain p i.paymentAddress h tx

/-- The request wrote `CONFIRMED` to the payment and `PAID` to the invoice. -/
structure Settles (ev : Event (effects rpcCalls)) (p : Payment) (i : Invoice) : Prop where
  payment : ∃ d, .paymentUpdate p.id d ∈ written ev ∧ d.status = some .confirmed
  invoice : ∃ d, .invoiceUpdate i.id d ∈ written ev ∧ d.status = .paid

/-- A receipt and a later head show how deep the transaction was. -/
theorem deep_of_answers {chain₁ chain₂ : Evm.Chain} {txHash : String} {receipt : TransactionReceipt}
    {head k : ℤ} {reply₁ reply₂ : Evm.Reply}
    (hreceipt : chain₁.answer (.getTransactionReceipt txHash) reply₁ = .ok receipt)
    (hhead : chain₂.answer .getBlockNumber reply₂ = .ok head)
    (hk : k ≤ max 0 (head - receipt.blockNumber + 1)) :
    ∃ b tx, chain₁.Contains b tx ∧ tx.hash = txHash ∧ k ≤ max 0 (chain₂.head - b + 1) := by
  have hh : head = chain₂.head := by
    cases reply₂ <;> cases hhead <;> rfl
  have hreceipt : chain₁.receipt txHash = .ok receipt := by
    cases reply₁ with
    | fail => cases hreceipt
    | answer => exact hreceipt
    | pending => exact hreceipt
  obtain ⟨b, tx, hb, hcontains, hhash, -⟩ := Evm.receipt_eq_ok hreceipt
  rw [hh, hb] at hk
  exact ⟨b, tx, hcontains, hhash, hk⟩

theorem seenDeep (hs : NodeReachable n D s) {txHash : String} {k : ℤ}
    (h : Evm.Depth pid txHash k s.config.trace) (hk : D.requiredConfirmations ≤ k) :
    SeenDeep n D s pid txHash := by
  obtain ⟨receipt, head, before, earlier, hhead, hreceipt, rfl⟩ := h
  obtain ⟨s₂, hs₂, hleads₂, htr, hawaits₂, reply₂, hr₂⟩ := node_answered hs hhead
  obtain ⟨s₁, hs₁, hleads₁, -, hawaits₁, reply₁, hr₁⟩ := node_answered hs₂ (htr ▸ hreceipt)
  exact ⟨s₁, s₂, hs₁, hleads₁, hleads₂, hawaits₁, hawaits₂, deep_of_answers hr₁ hr₂ hk⟩

/-- A credited transfer was in the chain that it was read from. -/
theorem Credited.carries {tr : Evm.Trace} {p : Payment} {i : Invoice}
    (h : Credited D.network tr p i) : ∃ pid contract a b logs,
      (⟨pid, .other (.getLogs contract a b), .ok logs⟩ : Event (effects rpcCalls)) ∈ tr ∧
      ∀ (chain : Evm.Chain) reply, chain.answer (.getLogs contract a b) reply = .ok logs →
        ∃ (h : ℕ) (tx : Evm.Tx), p.blockNumber = some (h : ℤ) ∧
          Carries D chain p i.paymentAddress h tx := by
  obtain ⟨t, ⟨pid, token, config, a, b, logs, log, hconfig, hev, hlog, ht⟩, htx, hamount, haddr,
    htoken, hblock⟩ := h.logged
  refine ⟨pid, _, a, b, logs, hev, fun chain reply hr => ?_⟩
  obtain ⟨hhash, hnumber, -, htoken', haddr', hamount'⟩ := Evm.tokenTransfer_eq_some ht
  have hlogs : chain.logs config.contractAddress a b = logs := by
    cases reply <;> cases hr <;> rfl
  obtain ⟨k, tx, l, hcontains, hl, hcontract, rfl⟩ := Evm.mem_logs (hlogs ▸ hlog)
  refine ⟨k, tx, ?_, hcontains, ?_, ?_, config, l, ?_, hl, hcontract, ?_, ?_⟩
  · rw [hblock, ← hnumber]
  · rw [htx, ← hhash]
  · -- a reverted transaction has no logs
    obtain ⟨hash, outcome⟩ := tx
    cases outcome with
    | success logs => rfl
    | reverted => cases hl
  · rw [htoken, htoken']
    exact hconfig
  · rw [← h.address, haddr, haddr']
  · rw [hamount, hamount']

theorem Credited.carried (hs : NodeReachable n D s) {p : Payment} {i : Invoice}
    (h : Credited D.network s.config.trace p i) :
    ∃ s₀ : NodeSystem, NodeReachable n D s₀ ∧ NodeLeads n D s₀ s ∧
      ∃ (h : ℕ) (tx : Evm.Tx), p.blockNumber = some (h : ℤ) ∧ Carries D s₀.chain p i.paymentAddress h tx := by
  obtain ⟨pid, contract, a, b, logs, hev, hcarries⟩ := h.carries
  obtain ⟨before, hev⟩ := exists_suffix_of_mem hev
  obtain ⟨s₀, hs₀, hleads, -, -, reply, hr⟩ := node_answered hs hev
  exact ⟨s₀, hs₀, hleads, hcarries s₀.chain reply hr⟩

/-- The transaction of a commit that makes the invoice `PAID` settles the payment. -/
theorem settles_of_paid {ev : Event (effects rpcCalls)} {q : PaymentWithInvoice} {k : ℤ}
    {confirmedAt : Time} {paidAt : Option Time} {eventId : String} {p : Payment} {i : Invoice}
    (h : written ev = (Commit.settle q k confirmedAt paidAt eventId).writes) (hp : q.id = p.id)
    (hi : q.invoiceId = i.id) (hpaid : q.amountMatch.outcome.2.1 = .paid) : Settles ev p i := by
  have hconfirmed : q.amountMatch.outcome.1 = .confirmed := by
    cases hmatch : q.amountMatch <;> rw [hmatch] at hpaid
    · rfl
    · cases hpaid
    · cases hpaid
  let d : PaymentUpdateInput :=
    { status := some q.amountMatch.outcome.1, confirmations := some k,
      confirmedAt := some confirmedAt }
  refine ⟨⟨d, ?_, congrArg some hconfirmed⟩,
    ⟨{ status := q.amountMatch.outcome.2.1, paidAt := paidAt }, ?_, hpaid⟩⟩
  · rw [h, ← hp]
    simp [Commit.writes, Commit.paymentUpdate, d]
  · rw [h, ← hi]
    simp [Commit.writes, Commit.invoiceUpdate]

/-- A step that marks an invoice `PAID` settles a payment of it, of which `PaidFrom` is
    known. -/
theorem finality (n : Replicas) (D : Setup) {s : NodeSystem} (hs : NodeReachable n D s)
    {m : NodeMove} {s' : NodeSystem} (hstep : nodeStep n D s m = some s') {i i' : Invoice}
    (hi : i ∈ s.config.state.db.invoices) (hi' : i' ∈ s'.config.state.db.invoices)
    (hid : i'.id = i.id) (hne : i' ≠ i) (hpaid : i'.status = .paid) :
    ∃ pid input ev, m = .perform pid input ∧ ev.pid = pid ∧
      s'.config.trace = ev :: s.config.trace ∧ ∃ p ∈ s.config.state.db.payments,
        Settles ev p i ∧ PaidFrom n D s pid p i := by
  have hK := credits_sound n D
  have hI : AllCredited D.network s.config := hK.inv hs
  rcases Ledger.step_commit hK hs (fun _ _ _ _ _ _ _ => trivial) hstep with
    hrows | ⟨pid, input, j, ev, cm, rfl, hev, ⟨q, hq, hqp, rfl⟩, hc, hcan⟩
  · exact absurd (Data.Table.eq_of_key ((hrows.invoices i').1 hi') hi hid) hne
  refine ⟨pid, input, ev, rfl, hev, hc.trace, ?_⟩
  have heq : i' = cm.onInvoice i := hc.effect.invoice_eq hi hi' hid
  obtain ⟨u, hu, hui⟩ : ∃ u, cm.invoiceUpdate = some u ∧ i.id = u.1 := by
    by_contra hnone
    exact hne (heq.trans (Commit.onInvoice_of_ne fun u hu hui => hnone ⟨u, hu, hui⟩))
  rw [heq, Commit.onInvoice_of_eq hu hui] at hpaid
  cases cm with
  | settle p k confirmedAt paidAt eventId =>
    cases hu
    obtain ⟨hjob, ⟨row, hrow, hterms⟩, txHash, htx, hk, hdepth⟩ := hcan
    obtain ⟨i₀, hi₀, hcred⟩ := hI row hrow
    have hinv : row.invoiceId = i.id := (terms_invoiceId hterms).trans hui.symm
    have hsame : i₀ = i := Data.Table.eq_of_key hi₀ hi (hcred.charges.invoiceId.symm.trans hinv)
    have hsettles : Settles ev row i := settles_of_paid hc.records.written_eq
      (terms_paymentId hterms).symm hui.symm hpaid
    refine ⟨row, hrow, hsettles, ⟨q, hq, hqp, hjob⟩, hinv, ⟨txHash, ?_, seenDeep hs hdepth hk⟩,
      (hsame ▸ hcred).carried hs⟩
    exact (congrArg Payment.txHash hterms :).trans htx
  | create d => cases hu
  | expire i₀ eventId => cases hu; cases hpaid
  | detect i₀ t paymentId detectedAt => cases hu; cases hpaid
  | fail p => cases hu; cases hpaid
  | reorg p => cases hu
  | confirm p k => cases hu; cases hpaid
  | refresh p k => cases hu

/-! ## A transaction that is mined again -/

/-- Whenever an invoice is marked `PAID`, its payment's transaction is canonical at that
    moment, deep enough, successful, and carries the transfer. -/
def FinalOnChain (D : Setup) : Prop :=
  ∀ s, NodeReachable oneOfEach D s → ∀ m s', nodeStep oneOfEach D s m = some s' →
    ∀ i ∈ s.config.state.db.invoices, ∀ i' ∈ s'.config.state.db.invoices, i'.id = i.id →
      i' ≠ i → i'.status = .paid → ∃ p ∈ s.config.state.db.payments, p.invoiceId = i.id ∧
        ∃ (h : ℕ) (tx : Evm.Tx), D.requiredConfirmations ≤ (NodeSystem.chain s).head - h + 1 ∧
          Carries D (NodeSystem.chain s) p i.paymentAddress h tx

/-- A block with a transfer of 49 USDC to the organization's address. -/
def paying : Evm.Block := [⟨"0x1", .success [⟨usdc.contractAddress, "0xB", "0xA", 49000000⟩]⟩]

/-- The same transaction, reverted. -/
def reverting : Evm.Block := [⟨"0x1", .reverted⟩]

/-- An invoice is created, its payment detected, and moved to `CONFIRMING`. -/
def untilConfirming : List NodeMove :=
  sampleInvoice 0 ++
    .start .scan :: performs 1 [.ok, .other .answer, .other .answer, .ok, .ok, .ok, .id "1", .ok,
      .ok, .ok, .ok] ++ [.stop 1] ++
    .start .confirm :: performs 2 [.ok, .ok, .ok, .other .answer, .other .answer, .ok] ++ [.stop 2]

/-- A confirm pass up to the commit that settles the payment; `before` and `after`
    happen before it starts and after it has read the head. -/
def untilSettled (before after : List NodeMove) : List NodeMove :=
  untilConfirming ++ before ++ .start .confirm ::
    performs 3 [.ok, .ok, .ok, .other .answer, .other .answer] ++ after ++
    performs 3 [.ok, .ok, .id "1"]

/-- The blocks of the chain are replaced. -/
def replaced (blocks : List Evm.Block) : NodeMove := .env (.other ⟨0, blocks⟩)

/-- In `s`, whose chain is `chain`, the next commit marks an invoice `PAID`. -/
def MarksPaid (chain : Evm.Chain) (s s' : NodeSystem) : Prop :=
  NodeReachable oneOfEach sample s ∧ nodeStep oneOfEach sample s (.perform 3 .ok) = some s' ∧
    s.chain = chain ∧ ∃ i ∈ s.config.state.db.invoices, ∃ i' ∈ s'.config.state.db.invoices,
      i'.id = i.id ∧ i' ≠ i ∧ i'.status = .paid

theorem marksPaid (before after : List NodeMove) {chain : Evm.Chain}
    (h : (((System.initial (sampleWorldOn [paying])).run (machine Evm.node)
        (workload oneOfEach sample.onNode) (untilSettled before after)).bind fun s =>
          (nodeStep oneOfEach sample s (.perform 3 .ok)).map fun s' =>
            (invoiceStatuses s.config.state.db, invoiceStatuses s'.config.state.db,
              NodeSystem.chain s)) =
      some ([("inv_1", .confirming)], [("inv_1", .paid)], chain)) :
    ∃ s s', MarksPaid chain s s' := by
  obtain ⟨s, s', hs, hstep, hx⟩ := Reachable.view_step (sampleWorldOn_unused _) _ h
  obtain ⟨hbefore, hx⟩ := Prod.mk.inj hx
  obtain ⟨hafter, hchain⟩ := Prod.mk.inj hx
  obtain ⟨i, hi, hid, hst⟩ := mem_invoiceStatuses (hbefore ▸ List.mem_singleton_self _)
  obtain ⟨i', hi', hid', hst'⟩ := mem_invoiceStatuses (hafter ▸ List.mem_singleton_self _)
  refine ⟨s, s', hs, hstep, hchain, i, hi, i', hi', hid'.trans hid.symm, fun heq => ?_, hst'⟩
  rw [heq, hst] at hst'
  cases hst'

set_option maxRecDepth 8000 in
/-- The transaction leaves the chain after the pass has read the head, or it is mined
    again as reverted before the pass reads its receipt. The invoice is marked `PAID`
    both times. -/
theorem forked_paid : (∃ s s', MarksPaid [[]] s s') ∧ (∃ s s', MarksPaid [reverting] s s') ∧
    ¬ FinalOnChain sample := by
  have hgone : ∃ s s', MarksPaid [[]] s s' := marksPaid [] [replaced [[]]] (by decide)
  have hreverted : ∃ s s', MarksPaid [reverting] s s' :=
    marksPaid [replaced [reverting]] [] (by decide)
  refine ⟨hgone, hreverted, fun h => ?_⟩
  obtain ⟨s, s', hs, hstep, hchain, i, hi, i', hi', hid, hne, hpaid⟩ := hgone
  obtain ⟨p, -, -, k, tx, -, hcarries⟩ := h s hs _ s' hstep i hi i' hi' hid hne hpaid
  obtain ⟨block, hblock, htx⟩ := hcarries.contains
  rw [hchain] at hblock
  have hmem : block ∈ [[]] := List.mem_of_getElem? hblock
  rw [List.mem_singleton.mp hmem] at htx
  exact List.not_mem_nil htx

set_option maxRecDepth 8000 in
/-- Without a fork the same passes settle the payment, and its depth is known. -/
theorem finality_paid : ∃ s s' : NodeSystem, MarksPaid [paying] s s' ∧
    ∃ ev, s'.config.trace = ev :: s.config.trace ∧ ∃ i ∈ s.config.state.db.invoices,
      ∃ p ∈ s.config.state.db.payments, Settles ev p i ∧ PaidFrom oneOfEach sample s 3 p i := by
  obtain ⟨s, s', h⟩ : ∃ s s', MarksPaid [paying] s s' := marksPaid [] [] (by decide)
  refine ⟨s, s', h, ?_⟩
  obtain ⟨hs, hstep, -, i, hi, i', hi', hid, hne, hpaid⟩ := h
  obtain ⟨pid, input, ev, hm, -, htrace, p, hp, hsettles, hfrom⟩ :=
    finality oneOfEach sample hs hstep hi hi' hid hne hpaid
  cases hm
  exact ⟨ev, htrace, i, hi, p, hp, hsettles, hfrom⟩

end CryptoPay.Worker
