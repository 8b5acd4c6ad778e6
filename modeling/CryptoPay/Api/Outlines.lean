import CryptoPay.Api.Invoices
import CryptoPay.Payments.Outline

/-!
# Outlines of the API's writes

`InvoicesService.create` and `WalletAddressesService.set`, checked once for
every ledger: the only change they make to the payment tables is a new `PENDING`
invoice, and they never throw `InvalidStateTransitionError`.
-/

namespace CryptoPay.Api

open Async

variable {A : Signature} {ω ι η κ : Type} {L : Ledger A ω ι η κ} {j : κ} {pid : ℕ}
  {P : History A ω → Prop} {E : Error → History A ω → Prop}

/-- What a service may throw in a state where `P` holds. -/
def Throws (L : Ledger A ω ι η κ) (P : History A ω → Prop) (E : Error → History A ω → Prop) :
    Prop := ∀ e c, L.Inv c → P c → ¬ e.IsInvalidStateTransition → E e c

theorem Throws.escapes (hE : Throws L P E) : L.Escapes P E := fun code c hI hp =>
  hE (.prisma code) c hI hp id

/-- The registry knows one adapter. -/
theorem registryGet_valid (adapter : BlockchainAdapter A) (network : String) (hE : Throws L P E) :
    L.protocol.Valid j pid P (.ofExcept (registryGet adapter network))
      (fun a c => P c ∧ a = adapter) E := by
  unfold registryGet
  split_ifs
  · exact .ret fun c _ hp => ⟨hp, rfl⟩
  · exact .throw fun c hI hp => hE _ c hI hp id

theorem record_valid (hP : L.Fact j pid P) (input : RecordAuditEventInput) (hE : L.Escapes P E) :
    L.protocol.Valid j pid P (record input) (fun _ => P) E := by
  refine hP.silentWrites (List.forall_mem_singleton.mpr trivial) (fun now db db' hdb => ?_) hE
  obtain ⟨db₁, hw, hnil⟩ := transaction_cons hdb
  rw [transaction_nil hnil, ← Except.ok.inj hw]
  exact ⟨fun _ => .rfl, fun _ => .rfl, fun _ => .rfl⟩

theorem upsertWallet_sameRows (db : Db) (w : MerchantWalletAddress) :
    db.SameRows (db.upsertWallet w).2 := by
  unfold Db.upsertWallet
  split
  · exact ⟨fun _ => .rfl, fun _ => .rfl, fun _ => .rfl⟩
  · split <;> exact ⟨fun _ => .rfl, fun _ => .rfl, fun _ => .rfl⟩

theorem set_valid (hP : L.Fact j pid P) (adapter : BlockchainAdapter A)
    (organizationId userId : String) (input : SetWalletAddressInput) (ctx : RequestContext)
    (hE : Throws L P E) :
    L.protocol.Valid j pid P (set adapter organizationId userId input ctx) (fun _ => P) E := by
  have hupsert : ∀ w, L.protocol.Valid j pid P
      (prisma (.merchantWalletAddressUpsert w) : Action A MerchantWalletAddress) (fun _ => P) E :=
    fun w => (hP.call (.merchantWalletAddressUpsert w) (R := fun _ _ => True)
      (fun _ db => upsertWallet_sameRows db w)
      (fun r => quiet_of_op (fun _ => nofun) fun _ => nofun) (fun _ => .trivially)
      (fun _ _ _ _ _ _ => trivial) (fun _ _ _ _ _ h => nomatch h) hE.escapes).post
      (fun _ _ _ h => h.1) fun _ _ _ h => h
  refine (registryGet_valid adapter _ hE).bind fun adapter => .assume fun _ => ?_
  split_ifs
  · exact .throw fun c hI hp => hE _ c hI hp id
  refine hP.cuid.bind fun id => hP.dateNow.bind fun createdAt => ?_
  refine (hupsert _).bind fun wallet => ?_
  exact (record_valid hP _ hE.escapes).bind fun _ => .pure fun _ _ hp => hp

theorem getDepositAddress_valid (hP : L.Fact j pid P) (mode : BlockchainMode)
    (organizationId network token : String) (hE : Throws L P E) :
    L.protocol.Valid j pid P (getDepositAddress mode organizationId network token)
      (fun _ => P) E := by
  refine (hP.lookup (.merchantWalletAddressFindUnique organizationId network token)
    (fun db => db.merchantWalletAddresses.find? (organizationId, network, token)) (fun _ _ => rfl)
    (fun r => quiet_of_op (fun _ => nofun) fun _ => nofun) hE.escapes).bind fun existing => ?_
  cases existing with
  | some wallet => exact .pure fun _ _ hp => hp
  | none =>
    cases mode with
    | evm => exact .throw fun c hI hp => hE _ c hI hp id
    | fake =>
      refine hP.generateFakeAddress.bind fun address => hP.cuid.bind fun id =>
        hP.dateNow.bind fun createdAt => ?_
      refine (hP.silentWrites ?_ (fun now db db' hdb => ?_) hE.escapes).bind
        fun _ => .pure fun _ _ hp => hp
      · exact List.forall_mem_singleton.mpr trivial
      · obtain ⟨db₁, hw, hnil⟩ := transaction_cons hdb
        obtain ⟨t, -, rfl⟩ := merchantWalletAddressCreate_ok hw
        rw [transaction_nil hnil]
        exact ⟨fun _ => .rfl, fun _ => .rfl, fun _ => .rfl⟩

/-- Creating an invoice commits at most one row, and that row is `PENDING`. -/
theorem create_valid (hP : L.Fact j pid P) (mode : BlockchainMode)
    (organizationId apiKeyId : String) (input : CreateInvoiceInput) (ctx : RequestContext)
    (hcreate : ∀ d c c' ev, L.Inv c → P c → ev.pid = pid →
      L.allowed c pid (.prisma (.invoiceCreate d)) → Committed ev (.create d) c c' →
      d.status = .pending → L.Can j pid c (.create d) ∧ P c')
    (hE : Throws L P E) :
    L.protocol.Valid j pid P (create mode organizationId apiKeyId input ctx) (fun _ => P) E := by
  have hfresh : L.protocol.Valid j pid P (createFresh mode organizationId apiKeyId input ctx)
      (fun _ => P) E := by
    refine (getDepositAddress_valid hP mode _ _ _ hE).bind fun paymentAddress =>
      (hP.generateId "inv").bind fun id => hP.dateNow.bind fun now => ?_
    refine (hP.invoiceCreate hP (newInvoice id organizationId paymentAddress now input)
      (fun c c' ev hI hp hpid ha hc => hcreate _ c c' ev hI hp hpid ha hc rfl) hE.escapes).bind
      fun invoice => ?_
    exact (record_valid hP _ hE.escapes).bind fun _ => .pure fun _ _ hp => hp
  unfold create
  cases input.externalId with
  | none => exact hfresh
  | some externalId =>
    refine (hP.lookup (.invoiceFindByExternalId organizationId externalId)
      (fun db => db.invoices.rows.find? fun i =>
        i.organizationId = organizationId ∧ i.externalId = some externalId) (fun _ _ => rfl)
      (fun r => quiet_of_op (fun _ => nofun) fun _ => nofun) hE.escapes).bind fun existing => ?_
    cases existing with
    | none => exact hfresh
    | some existing =>
      refine .ofExcept (fun _ _ _ _ hp => hp) fun e he c hI hp => hE e c hI hp ?_
      unfold assertIdempotentReplay at he
      split_ifs at he
      cases he
      exact id

end CryptoPay.Api
