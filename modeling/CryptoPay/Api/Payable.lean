import CryptoPay.Api.ModeChanges

/-!
# Which invoices can be paid exactly

The scanner sees the transfers of the tokens in `TOKEN_REGISTRY`, in units of
`10^-decimals`. A request to create an invoice names any token and network, and
an amount with up to 8 fractional digits.

Results:
* `accepted_payable_iff`: an invoice that was returned in evm mode can be paid
  exactly if and only if its token is registered for its network and no digit
  of its amount is beyond the token's decimals.
* `fraction_unpayable`: an accepted invoice over 49.00000001 USDC cannot.
-/

namespace CryptoPay.Api

open Async Data

/-! ## What the adapter sees -/

/-- The replies of a chain on which `contract` has emitted `log`, and nothing else has happened. -/
def onlyLog (contract : String) (log : TransferLog) :
    (op : (effects rpcCalls).Op) → (effects rpcCalls).Ret op
  | Op.other (.getLogs address _ _) => .ok (if address = contract then [log] else [])
  | Op.other .getBlockNumber => .error .other
  | Op.other (.getTransactionReceipt _) => .error .other
  | Op.other (.getTransaction _) => .error .other
  | Op.prisma _ => .error (.prisma .connection)
  | Op.now => (0 : ℤ)
  | Op.generateId stem => stem
  | Op.generateFakeAddress => ""
  | Op.cuid => ""
  | Op.mark _ => ()

/-- The transfers of `log` that the adapter reports for the tokens. -/
def seen (network contract : String) (log : TransferLog) (tokens : List (String × TokenConfig)) :
    List TokenTransfer :=
  tokens.flatMap fun (token, config) =>
    if config.contractAddress = contract then (Evm.tokenTransfer network token config log).toList
    else []

theorem transfersOf_against (network contract : String) (log : TransferLog) (fromBlock toBlock : ℤ)
    (tokens : List (String × TokenConfig)) :
    (Evm.transfersOf network fromBlock toBlock tokens).against (onlyLog contract log) =
      .ok (seen network contract log tokens) := by
  induction tokens with
  | nil => rfl
  | cons x tokens ih =>
    obtain ⟨token, config⟩ := x
    have hlogs : (awaitRpc (.getLogs config.contractAddress fromBlock toBlock) id :
        Action rpcCalls (List TransferLog)).against (onlyLog contract log) =
        .ok (if config.contractAddress = contract then [log] else []) :=
      Prog.against_request _ _
    unfold Evm.transfersOf
    rw [Prog.against_bind, hlogs]
    show ((Evm.transfersOf network fromBlock toBlock tokens >>= _).against _) = _
    rw [Prog.against_bind, ih]
    have hdecoded : (if config.contractAddress = contract then [log] else []).filterMap
        (Evm.tokenTransfer network token config) = if config.contractAddress = contract then
          (Evm.tokenTransfer network token config log).toList else [] := by
      split_ifs
      · cases h : Evm.tokenTransfer network token config log <;> simp [h]
      · rfl
    exact congrArg (fun ts => Except.ok (ts ++ seen network contract log tokens)) hdecoded

/-- The transfers that `getTokenTransfers` reports, whatever the range. -/
theorem getTokenTransfers_against (network contract : String) (log : TransferLog)
    (fromBlock toBlock : ℤ) :
    (Evm.getTokenTransfers network fromBlock toBlock).against (onlyLog contract log) =
      .ok (seen network contract log (getTokensForNetwork network)) :=
  transfersOf_against network contract log fromBlock toBlock _

theorem mem_seen {network contract : String} {log : TransferLog}
    {tokens : List (String × TokenConfig)} {t : TokenTransfer} :
    t ∈ seen network contract log tokens ↔ ∃ token config, (token, config) ∈ tokens ∧
      config.contractAddress = contract ∧
        Evm.tokenTransfer network token config log = some t := by
  simp only [seen, List.mem_flatMap, Prod.exists]
  refine exists_congr fun token => exists_congr fun config => and_congr_right fun _ => ?_
  by_cases hcontract : config.contractAddress = contract
  · simp [hcontract]
  · simp [hcontract]

/-! ## What can be paid -/

/-- The invoice can be paid exactly: some `Transfer` log of a `uint256` to its address is decoded
    to a transfer that matches it and has its amount. `lower` is `String.prototype.toLowerCase`. -/
def Payable (lower : String → String) (i : Invoice) : Prop :=
  ∃ contract log fromBlock toBlock ts, log.value < 2 ^ 256 ∧
    lower log.toAddress = lower i.paymentAddress ∧
    (Evm.getTokenTransfers i.network fromBlock toBlock).against (onlyLog contract log) = .ok ts ∧
    ∃ t ∈ ts, matchesInvoice lower (candidate i).toInvoicePaymentTarget t.detected = true ∧
      evaluatePaymentAmount i.amount t.amount = .exact

/-- The token is registered for the network, and the amount is a number of its units. -/
def Observable (network token : String) (amount : Decimal) : Prop :=
  ∃ config, (token, config) ∈ getTokensForNetwork network ∧
    (10 : ℤ) ^ (8 - config.decimals) ∣ amount.units

/-- A positive amount that fits its column can be paid exactly if and only if it is observable. -/
theorem payable_iff {lower : String → String} {i : Invoice} (hpos : 0 < i.amount.units)
    (hfits : i.amount.fitsColumn = true) :
    Payable lower i ↔ Observable i.network i.token i.amount := by
  constructor
  · rintro ⟨contract, log, fromBlock, toBlock, ts, -, -, hts, t, ht, hmatch, hexact⟩
    rw [getTokenTransfers_against] at hts
    obtain rfl := Except.ok.inj hts
    obtain ⟨token, config, hmem, -, hdecoded⟩ := mem_seen.mp ht
    obtain ⟨-, -, -, htoken, -, hamount⟩ := Evm.tokenTransfer_eq_some hdecoded
    have htarget : i.token = t.token := (matchesInvoice_iff.mp hmatch).2.1
    have hunits : i.amount = config.amount log.value :=
      (evaluatePaymentAmount_eq_exact.mp hexact).symm.trans hamount
    refine ⟨config, ?_, ?_⟩
    · rw [htarget, htoken]
      exact hmem
    · rw [hunits]
      exact ⟨log.value, mul_comm _ _⟩
  · rintro ⟨config, hmem, m, hm⟩
    have hscale : (0 : ℤ) < 10 ^ (8 - config.decimals) := by positivity
    have hm0 : 0 < m := by
      by_contra hle
      have := mul_nonpos_of_nonneg_of_nonpos hscale.le (not_lt.mp hle)
      omega
    have hbound : m ≤ i.amount.units := by
      rw [hm]
      exact le_mul_of_one_le_left hm0.le hscale
    have hcolumn : i.amount.units.natAbs < 10 ^ 20 := by simpa [Decimal.fitsColumn] using hfits
    have hvalue : ((m.toNat : ℕ) : ℤ) = m := Int.toNat_of_nonneg hm0.le
    -- one block with the one log of the token's contract
    let log : TransferLog := ⟨some "0x0", some 0, "", i.paymentAddress, m.toNat⟩
    have hdecoded : Evm.tokenTransfer i.network i.token config log =
        some ⟨"0x0", i.network, i.token, "", i.paymentAddress, config.amount m.toNat, 0⟩ := rfl
    have hamount : config.amount m.toNat = i.amount :=
      calc config.amount m.toNat = ⟨m * 10 ^ (8 - config.decimals)⟩ := by
            simp only [TokenConfig.amount, hvalue]
        _ = i.amount := by rw [mul_comm, ← hm]
    refine ⟨config.contractAddress, log, 0, 0, _, ?_, rfl, getTokenTransfers_against _ _ _ _ _,
      _, mem_seen.mpr ⟨i.token, config, hmem, rfl, hdecoded⟩, ?_, ?_⟩
    · show m.toNat < 2 ^ 256
      have : (10 : ℕ) ^ 20 < 2 ^ 256 := by norm_num
      omega
    · exact matchesInvoice_iff.mpr ⟨rfl, rfl, rfl⟩
    · exact evaluatePaymentAmount_eq_exact.mpr hamount

/-! ## What a process returns -/

namespace Deployment

variable {D : Deployment} {c : ApiLog} {ev : Event (effects http)} {w : World BlockchainMode}
  {call : Served}

/-- Every stored amount fits its column. -/
def Fitting (w : World BlockchainMode) : Prop :=
  ∀ i ∈ w.db.invoices, i.amount.fitsColumn = true

/-- What is known of the invoices that were stored, found and created. -/
structure Amounts (c : ApiLog) : Prop where
  stored : Fitting c.state
  found : ∀ pid o e i, replayed pid o e i ∈ c.trace → i.amount.fitsColumn = true
  made : ∀ pid d i, created pid d i ∈ c.trace →
    d.amount.fitsColumn = true ∧ ∃ now, i = d.row now

theorem Amounts.next (h : Amounts c) (hstored : Fitting w)
    (hfound : ∀ pid o e i, ev = replayed pid o e i → i.amount.fitsColumn = true)
    (hmade : ∀ pid d i, ev = created pid d i →
      d.amount.fitsColumn = true ∧ ∃ now, i = d.row now) : Amounts ⟨w, ev :: c.trace⟩ where
  stored := hstored
  found pid o e i hev := by
    rcases List.mem_cons.mp hev with heq | hev
    · exact hfound pid o e i heq.symm
    · exact h.found pid o e i hev
  made pid d i hev := by
    rcases List.mem_cons.mp hev with heq | hev
    · exact hmade pid d i heq.symm
    · exact h.made pid d i hev

/-- Every answered request keeps what is known. -/
theorem Amounts.step (h : Amounts c) {pid : ℕ} {op : Op http} {r : (effects http).Ret op}
    {i : Input Unit} (hexp : D.Expected call (own pid c.trace) op)
    (hr : respond processes pid c.state op i = some (r, w)) :
    Amounts ⟨w, ⟨pid, op, r⟩ :: c.trace⟩ := by
  by_cases hprisma : ∃ p, op = .prisma p
  · obtain ⟨p, rfl⟩ := hprisma
    rcases respond_prisma hr with ⟨rfl, rfl⟩ | ⟨rfl, rfl⟩
    swap
    · refine h.next h.stored (fun _ _ _ _ heq => ?_) fun _ _ _ heq => ?_
      · cases heq
      · cases heq
    by_cases hcreate : ∃ d, p = .invoiceCreate d
    · obtain ⟨d, rfl⟩ := hcreate
      simp only [PrismaCall.exec]
      cases happly : Write.apply c.state.clock c.state.db (.invoiceCreate d) with
      | error e =>
        refine h.next h.stored (fun _ _ _ _ heq => ?_) fun _ _ _ heq => ?_
        · cases heq
        · cases heq
      | ok db =>
        have hfits : d.amount.fitsColumn = true := by
          by_contra hnot
          simp only [Bool.not_eq_true] at hnot
          rw [Write.apply, hnot] at happly
          cases happly
        obtain ⟨-, t, ht, rfl⟩ := invoiceCreate_ok happly
        refine h.next (fun j hj => ?_) (fun _ _ _ _ heq => ?_) fun _ _ _ heq => ?_
        · rcases ((Table.insert?_eq_some ht).2 j).mp hj with rfl | hold
          · exact hfits
          · exact h.stored j hold
        · cases heq
        · injection heq with _ hop hret
          cases hop
          exact ⟨hfits, _, (Except.ok.inj hret).symm⟩
    · have hsame : (p.exec c.state.clock c.state.db).2.invoices = c.state.db.invoices :=
        exec_invoices hexp.2 (not_exists.mp hcreate)
      refine h.next (fun j hj => h.stored j (hsame ▸ hj)) (fun q o e j heq => ?_)
        fun q d j heq => ?_
      · injection heq with _ hop hret
        cases hop
        have hret := eq_of_heq hret
        have hfind : c.state.db.invoices.rows.find? (fun x =>
            x.organizationId = o ∧ x.externalId = some e) = some j := Except.ok.inj hret
        exact h.stored j (List.mem_of_find?_eq_some hfind)
      · exact absurd (by injection heq with _ hop _; cases hop; rfl) (not_exists.mp hcreate d)
  · have hdb : w.db = c.state.db := by
      cases op with
      | prisma p => exact absurd ⟨p, rfl⟩ hprisma
      | now => rw [(respond_now hr).2]
      | generateId stem => rw [respond_generateId hr]
      | generateFakeAddress => rw [respond_generateFakeAddress hr]
      | cuid => rw [respond_cuid hr]
      | mark m => rw [respond_mark hr]
      | other x =>
        obtain ⟨k, o, -, rfl⟩ := respond_other hr
        rfl
    refine h.next (fun j hj => h.stored j (hdb ▸ hj)) (fun q o e j heq => ?_) fun q d j heq => ?_
    · exact absurd ⟨_, congrArg Event.op heq⟩ hprisma
    · exact absurd ⟨_, congrArg Event.op heq⟩ hprisma

theorem amounts_inv {s : System (effects http) Error Served (World BlockchainMode)}
    (hs : D.Reached Fitting anything s) : Amounts s.config := by
  refine Reachable.invariant D.requests_obey (fun w hw => ?_) (fun c act w h hw => ?_)
    (fun c ev w h hans => ?_) hs
  · exact ⟨hw, fun _ _ _ _ hev => absurd hev List.not_mem_nil,
      fun _ _ _ hev => absurd hev List.not_mem_nil⟩
  · exact ⟨fun i hi => h.stored i (((environment_keeps hw).1 i).mp hi), h.found, h.made⟩
  · obtain ⟨i, hr⟩ := hans.reply
    obtain ⟨call, hexp, -⟩ := hans.expected
    exact h.step hexp hr

/-- The invoice that a process returns has the amount, the token and the network of the request,
    and fits its column. -/
theorem returned_invoice {s : System (effects http) Error Served (World BlockchainMode)}
    (hs : D.Reached Fitting anything s) {pid : ℕ} {mode : BlockchainMode}
    {organizationId apiKeyId : String} {input : CreateInvoiceInput} {ctx : RequestContext}
    {i : Invoice}
    (hrec : received pid ⟨mode, .createInvoice organizationId apiKeyId input ctx⟩ ∈ s.config.trace)
    (hshown : shown pid i ∈ s.config.trace) : i.network = input.network ∧ i.token = input.token ∧
      i.amount = input.amount.value ∧ i.amount.fitsColumn = true := by
  have h := amounts_inv hs
  obtain ⟨call, hhist⟩ := hs.history D.requests_obey pid
  obtain rfl := eq_of_received hhist (mem_own.mpr ⟨hrec, rfl⟩)
  obtain ⟨h', hsuffix, -, hshows⟩ := hhist.mem (mem_own.mpr ⟨hshown, rfl⟩)
  have hsuffix' : h' <:+ own pid s.config.trace := (List.suffix_cons _ _).trans hsuffix
  rcases hshows with ⟨q, o, e, hev, hreplay⟩ | ⟨q, d, hev⟩
  · have hfits := h.found q o e i (mem_own.mp (hsuffix'.subset hev)).1
    unfold assertIdempotentReplay at hreplay
    split_ifs at hreplay with hmatch
    simp only [Bool.and_eq_true, Decimal.equals_iff, decide_eq_true_eq] at hmatch
    exact ⟨hmatch.2, hmatch.1.2, hmatch.1.1.1, hfits⟩
  · obtain ⟨hfits, now, rfl⟩ := h.made q d i (mem_own.mp (hsuffix'.subset hev)).1
    obtain ⟨h'', -, -, o, k, input', ctx', id, address, t, hcall, rfl, -⟩ :=
      (hhist.of_suffix hsuffix').mem hev
    cases hcall
    exact ⟨rfl, rfl, rfl, hfits⟩

/-- An invoice that is returned in evm mode for an accepted request can be paid exactly if and
    only if its token is registered for its network and its amount is a number of the token's
    units. -/
theorem accepted_payable_iff (lower : String → String) (D : Deployment)
    {s : System (effects http) Error Served (World BlockchainMode)}
    (hs : D.Reached Fitting anything s) (isUrl : String → Bool) (body : CreateInvoiceBody)
    {input : CreateInvoiceInput} (hinput : createInvoiceSchema isUrl body = some input) {pid : ℕ}
    {organizationId apiKeyId : String} {ctx : RequestContext} {i : Invoice}
    (hrec : received pid ⟨.evm, .createInvoice organizationId apiKeyId input ctx⟩ ∈ s.config.trace)
    (hshown : shown pid i ∈ s.config.trace) :
    Payable lower i ↔ Observable input.network input.token input.amount.value := by
  obtain ⟨hnetwork, htoken, hamount, hfits⟩ := returned_invoice hs hrec hshown
  have hpos : 0 < i.amount.units := by
    rw [hamount]
    exact decimalAmount_pos (createInvoiceSchema_amount hinput)
  rw [← hnetwork, ← htoken, ← hamount]
  exact payable_iff hpos hfits

/-! ## Orders in USDC -/

theorem freshWorld_fitting (mode : BlockchainMode) : Fitting (freshWorld mode) :=
  fun i hi => absurd hi (Table.not_mem_empty i)

/-- The last request, and the processes that have returned an invoice. -/
def returns (s : System (effects http) Error Served (World BlockchainMode)) :
    Option (ℕ × Served) × List ℕ :=
  ((receipts s.config.trace).head?, (shownInvoices s.config.trace).map (·.1))

/-- The organization sets its address, and an invoice over the amount is returned in evm mode. -/
theorem suppliedRun_returns {amount : DecimalAmount}
    (hrun : ((System.initial (freshWorld .evm)).run (machine processes) sampleDeployment.requests
      (suppliedRun amount)).map returns = some (some (1, ⟨.evm, sampleRequest amount⟩), [1])) :
    ∃ s i, sampleDeployment.Reached Fitting anything s ∧
      received 1 ⟨.evm, sampleRequest amount⟩ ∈ s.config.trace ∧ shown 1 i ∈ s.config.trace := by
  obtain ⟨s, hs, hview⟩ := Reachable.view (freshWorld_fitting .evm) (suppliedRun amount) hrun
  injection hview with hreceipts hshown
  have hmem : 1 ∈ (shownInvoices s.config.trace).map (·.1) := hshown ▸ List.mem_cons_self
  obtain ⟨⟨pid, i⟩, hi, rfl⟩ := List.mem_map.mp hmem
  exact ⟨s, i, hs, mem_receipts.mp (List.mem_of_head? hreceipts), mem_shownInvoices hi⟩

set_option maxRecDepth 8000 in
theorem returned_usdc : ∃ s i, sampleDeployment.Reached Fitting anything s ∧
    received 1 ⟨.evm, sampleRequest sampleAmount⟩ ∈ s.config.trace ∧
      shown 1 i ∈ s.config.trace :=
  suppliedRun_returns (by decide)

/-- An invoice over 49 USDC can be paid exactly. -/
theorem accepted_payable_iff_usdc : ∃ s i, sampleDeployment.Reached Fitting anything s ∧
    shown 1 i ∈ s.config.trace ∧ Payable toLowerAscii i := by
  obtain ⟨s, i, hs, hrec, hshown⟩ := returned_usdc
  have hinput : createInvoiceSchema (fun _ => true) (sampleBody "49.00") =
      some (sampleInput sampleAmount) := by decide
  have hobservable : Observable "base" "USDC" ⟨4900000000⟩ :=
    ⟨usdc, List.mem_cons_self, by decide⟩
  exact ⟨s, i, hs, hshown, (accepted_payable_iff toLowerAscii sampleDeployment hs (fun _ => true)
    (sampleBody "49.00") hinput hrec hshown).mpr hobservable⟩

/-- An amount with a digit beyond the six decimals of USDC. -/
def fractionAmount : DecimalAmount := ⟨"49.00000001", ⟨4900000001⟩⟩

set_option maxRecDepth 8000 in
theorem returned_fraction : ∃ s i, sampleDeployment.Reached Fitting anything s ∧
    received 1 ⟨.evm, sampleRequest fractionAmount⟩ ∈ s.config.trace ∧
      shown 1 i ∈ s.config.trace :=
  suppliedRun_returns (by decide)

/-- An accepted invoice over 49.00000001 USDC cannot be paid exactly. -/
theorem fraction_unpayable : ¬ ∃ lower : String → String, ∀ (D : Deployment)
    (s : System (effects http) Error Served (World BlockchainMode)) (isUrl : String → Bool)
    (body : CreateInvoiceBody) (input : CreateInvoiceInput) (pid : ℕ)
    (organizationId apiKeyId : String) (ctx : RequestContext) (i : Invoice),
    D.Reached Fitting anything s → createInvoiceSchema isUrl body = some input →
      received pid ⟨.evm, .createInvoice organizationId apiKeyId input ctx⟩ ∈ s.config.trace →
        shown pid i ∈ s.config.trace → Payable lower i := by
  rintro ⟨lower, h⟩
  obtain ⟨s, i, hs, hrec, hshown⟩ := returned_fraction
  have hinput : createInvoiceSchema (fun _ => true) (sampleBody "49.00000001") =
      some (sampleInput fractionAmount) := by decide
  have hpayable := h _ s _ _ _ 1 _ _ _ i hs hinput hrec hshown
  obtain ⟨hnetwork, htoken, hamount, hfits⟩ := returned_invoice hs hrec hshown
  have hpos : 0 < i.amount.units := by
    rw [hamount]
    decide
  obtain ⟨config, hmem, hdvd⟩ := (payable_iff hpos hfits).mp hpayable
  rw [hnetwork, htoken] at hmem
  rw [hamount] at hdvd
  obtain rfl : config = usdc := by
    have hlist : ("USDC", config) ∈ [("USDC", usdc)] := hmem
    exact (Prod.mk.inj (List.mem_singleton.mp hlist)).2
  revert hdvd
  decide

end Deployment

end CryptoPay.Api
