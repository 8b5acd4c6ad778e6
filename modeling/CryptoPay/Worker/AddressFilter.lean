import CryptoPay.Blockchain.Evm
import CryptoPay.Worker.Jobs

/-!
# The candidate filter and the matcher

`tryMatchTransfer` reads its candidates with `paymentAddress = toAddress`, an
exact comparison, and `matchesInvoice` then compares the same two addresses in
lower case. Transfers carry the EIP-55 spelling of an address; deposit addresses
are stored as the merchant typed them, if `validateAddress` accepts them.

Results:
* `filterAgrees_iff`: the filter keeps every invoice that matches a transfer,
  exactly if those invoices store their address in the EIP-55 spelling.
* `lowercase_address_filtered`: a merchant who sets an address in lower case is
  not paid.
-/

namespace CryptoPay.Worker

open Async

/-- A transfer that the EVM adapter reports, of a log whose addresses viem has
    decoded to their EIP-55 spelling. -/
def Reported (V : Viem) (t : TokenTransfer) : Prop :=
  ∃ network token config log, V.Checksummed log.toAddress ∧
    Evm.tokenTransfer network token config log = some t

/-- The rows of `invoice.findMany`. -/
def found (db : Db) (w : InvoiceWhere) : List Invoice := db.invoices.filter w.holds

/-- All `PENDING` invoices. -/
def pendingWhere : InvoiceWhere := { status := .pending }

/-- The matcher selects the same invoice of the filtered rows as of all
    `PENDING` invoices, and no `PENDING` invoice that matches is filtered out. -/
structure FilterAgrees (lower : String → String) (db : Db) (t : TokenTransfer) : Prop where
  selects : selectMatchingInvoice lower (found db (candidateWhere t)) t.detected t.amount =
    selectMatchingInvoice lower (found db pendingWhere) t.detected t.amount
  keeps : ∀ i ∈ db.invoices, i.status = .pending →
    matchesInvoice lower (candidate i).toInvoicePaymentTarget t.detected = true →
      i ∈ found db (candidateWhere t)

/-- A filtered row is `PENDING`. -/
theorem candidateWhere_pending {t : TokenTransfer} {i : Invoice}
    (h : (candidateWhere t).holds i = true) : pendingWhere.holds i = true := by
  rw [InvoiceWhere.holds_iff]
  exact ⟨(candidateWhere_holds.mp h).1, nofun, nofun, nofun, nofun⟩

/-- If the filter keeps the invoices that match, the matcher cannot tell. -/
theorem filterAgrees_of_keeps {lower : String → String} {db : Db} {t : TokenTransfer}
    (h : ∀ i ∈ db.invoices, i.status = .pending →
      matchesInvoice lower (candidate i).toInvoicePaymentTarget t.detected = true →
        i ∈ found db (candidateWhere t)) : FilterAgrees lower db t := by
  refine ⟨selectMatchingInvoice_congr _ ?_, h⟩
  unfold found Data.Table.filter
  rw [List.filter_filter, List.filter_filter]
  refine List.filter_congr fun i hi => ?_
  rw [Bool.eq_iff_iff, Bool.and_eq_true, Bool.and_eq_true]
  constructor
  · rintro ⟨hmatch, hcand⟩
    exact ⟨hmatch, candidateWhere_pending hcand⟩
  · rintro ⟨hmatch, hpend⟩
    have hs : i.status = .pending := (InvoiceWhere.holds_iff.mp hpend).1
    exact ⟨hmatch, (Data.Table.mem_filter.mp (h i hi hs hmatch)).2⟩

/-- The filter agrees with the matcher on a reported transfer, exactly if every
    `PENDING` invoice that the transfer pays, up to the spelling of its address,
    stores that address in the EIP-55 spelling. -/
theorem filterAgrees_iff {lower : String → String} {V : Viem} (hV : V.Lawful lower) {db : Db}
    {t : TokenTransfer} (ht : Reported V t) :
    FilterAgrees lower db t ↔ ∀ i ∈ db.invoices, i.status = .pending → i.network = t.network →
      i.token = t.token → lower i.paymentAddress = lower t.toAddress →
        V.Checksummed i.paymentAddress := by
  obtain ⟨network, token, config, log, hlog, ht⟩ := ht
  obtain ⟨-, -, -, -, haddr, -⟩ := Evm.tokenTransfer_eq_some ht
  have hsum : V.Checksummed t.toAddress := haddr ▸ hlog
  constructor
  · intro h i hi hs hn hk ha
    have hmem := h.keeps i hi hs (matchesInvoice_iff.mpr ⟨hn, hk, ha⟩)
    obtain ⟨-, heq, -, -⟩ := candidateWhere_holds.mp (Data.Table.mem_filter.mp hmem).2
    rw [heq]
    exact hsum
  · intro h
    refine filterAgrees_of_keeps fun i hi hs hmatch => ?_
    obtain ⟨hn, hk, ha⟩ := matchesInvoice_iff.mp hmatch
    have heq : i.paymentAddress = t.toAddress :=
      hV.eq_of_checksummed (h i hi hs hn hk ha) hsum ha
    exact Data.Table.mem_filter.mpr ⟨hi, candidateWhere_holds.mpr ⟨hs, heq, hn, hk⟩⟩

/-! ## An address in lower case -/

/-- The spelling that a merchant may type, and the one that logs have. -/
def typed : String := "0x5aaeb6053f3e94c9b9a09f33669435e7ef1beaed"

def decoded : String := "0x5aAeb6053F3E94C9b9A09f33669435E7Ef1BeAed"

/-- The address functions, as far as this one address goes. -/
def oneAddress : Viem where
  isAddress a := a = typed || a = decoded
  checksumAddress _ := decoded

theorem oneAddress_lawful : oneAddress.Lawful toLowerAscii where
  lower_checksum a h := by
    simp only [oneAddress, Bool.or_eq_true, decide_eq_true_eq] at h
    rcases h with rfl | rfl <;> decide
  checksum_congr _ _ _ _ _ := rfl
  isAddress_lower a h := by
    simp only [oneAddress, Bool.or_eq_true, decide_eq_true_eq] at h
    rcases h with rfl | rfl <;> decide
  isAddress_checksum a h := by
    show oneAddress.isAddress decoded = true
    decide

/-- A transfer of 49 USDC to the address. -/
def toDecoded : TokenTransfer := ⟨"0x1", "base", "USDC", "0xB", decoded, ⟨4900000000⟩, 7⟩

theorem toDecoded_reported : Reported oneAddress toDecoded :=
  ⟨"base", "USDC", usdc, ⟨some "0x1", some 7, "0xB", decoded, 49000000⟩, by decide, by decide⟩

/-- An invoice over 49 USDC, payable to `address`. -/
def payableTo (address : String) : Invoice where
  id := "inv_1"
  organizationId := "org"
  externalId := none
  status := .pending
  description := none
  amount := ⟨4900000000⟩
  currency := "USD"
  token := "USDC"
  network := "base"
  paymentAddress := address
  successUrl := none
  cancelUrl := none
  metadata := none
  expiresAt := Api.INVOICE_EXPIRY_MS
  paidAt := none
  createdAt := 0

/-- An invoice whose address is stored as logs spell it is found. -/
theorem decoded_agrees :
    FilterAgrees toLowerAscii { Db.empty with invoices := ⟨[payableTo decoded], by simp⟩ } toDecoded := by
  refine (filterAgrees_iff oneAddress_lawful toDecoded_reported).mpr fun i hi _ _ _ _ => ?_
  rw [List.mem_singleton.mp hi]
  decide

/-- The deployment, with `isAddress` for that address. -/
def oneAddressSetup : Setup where
  validateAddress := oneAddress.isAddress
  network := "base"
  requiredConfirmations := 1

/-- The organization sets its address in lower case and creates an invoice. -/
def typedInvoice : List EvmMove :=
  .start (.setWalletAddress "org" "user" ⟨"base", "USDC", typed⟩ ⟨"127.0.0.1", none⟩) ::
    performs 0 [.id "w", .ok, .ok, .ok] ++ [.stop 0] ++ sampleInvoice 1

set_option maxRecDepth 4000 in
/-- An invoice whose address was set in lower case matches a transfer that the
    filter does not find it for. -/
theorem lowercase_address_filtered : oneAddress.Lawful toLowerAscii ∧ Reported oneAddress toDecoded ∧
    ∃ s, EvmReachable oneOfEach oneAddressSetup anything s ∧
      (∃ w ∈ s.config.state.db.merchantWalletAddresses,
        w.address = typed ∧ oneAddressSetup.validateAddress w.address = true) ∧
      ¬ FilterAgrees toLowerAscii s.config.state.db toDecoded := by
  refine ⟨oneAddress_lawful, toDecoded_reported, ?_⟩
  obtain ⟨s, hs, hx⟩ : ∃ s, EvmReachable oneOfEach oneAddressSetup anything s ∧
      (s.config.state.db.merchantWalletAddresses.rows.map MerchantWalletAddress.address,
        s.config.state.db.invoices.rows) = ([typed], [payableTo typed]) :=
    evmRun_view (w := ⟨Db.empty, 0, ()⟩)
      ⟨Data.Table.not_mem_empty, Data.Table.not_mem_empty, Data.Table.not_mem_empty⟩
      typedInvoice (by decide)
  obtain ⟨hwallets, hinvoices⟩ := Prod.mk.inj hx
  refine ⟨s, hs, ?_, fun h => ?_⟩
  · obtain ⟨w, hw, ha⟩ := List.mem_map.mp (hwallets ▸ List.mem_singleton_self typed)
    exact ⟨w, hw, ha, by rw [ha]; decide⟩
  · have hi : payableTo typed ∈ s.config.state.db.invoices := by
      rw [Data.Table.mem_def, hinvoices]
      exact List.mem_singleton_self _
    have hmem := h.keeps _ hi rfl (by decide)
    obtain ⟨-, heq, -, -⟩ := candidateWhere_holds.mp (Data.Table.mem_filter.mp hmem).2
    revert heq
    decide

end CryptoPay.Worker
