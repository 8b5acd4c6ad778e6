import CryptoPay.Api.Schemas
import CryptoPay.Async.History
import CryptoPay.Blockchain.Evm

/-!
# Processes that start in either mode

A history of processes that serve one database one after the other, each with
its own `BLOCKCHAIN_MODE`: requests to set a deposit address
(wallet-addresses.controller.ts), to create an invoice (invoices.controller.ts)
and to open the checkout page (checkout.controller.ts). A start ends what the
process before it was doing.

Results:
* `requests_obey`: what a request asks of the database, after what it has
  asked; `eq_of_received`: a process serves one request.
-/

namespace CryptoPay.Api

open Async Data

/-- A request to the API. -/
inductive Request where
  | setWalletAddress (organizationId userId : String) (input : SetWalletAddressInput)
      (ctx : RequestContext)
  | createInvoice (organizationId apiKeyId : String) (input : CreateInvoiceInput)
      (ctx : RequestContext)
  | checkout (invoiceId : String)
  deriving DecidableEq, Repr

/-- A request, with the mode of the process that serves it. -/
structure Served where
  mode : BlockchainMode
  request : Request
  deriving DecidableEq, Repr

instance : Inhabited Served := ⟨⟨.fake, .checkout ""⟩⟩

/-- What a process exchanges with its clients. -/
inductive Exchange where
  | received (call : Served)
  | shown (invoice : Invoice)

def http : Signature where
  Op := Exchange
  Ret _ := Unit

/-- A process serves requests in its own mode; it may start at any time. -/
def processes : Backend http BlockchainMode Unit BlockchainMode where
  respond _ _ mode
    | .received call, _ => if call.mode = mode then some ((), mode) else none
    | .shown _, _ => some ((), mode)
  env _ mode := some mode
  restarts _ := true
  tick _ _ := true

/-- The adapters that `createBlockchainAdapterRegistry` (adapter-registry.ts, lines 21–30)
    registers for `base`, as far as `WalletAddressesService` uses them; `isAddress` is viem's. -/
structure Deployment where
  isAddress : String → Bool
  base : BlockchainMode → BlockchainAdapter http
  evm : (base .evm).validateAddress = isAddress
  fake : (base .fake).validateAddress = Fake.validateAddress

/-- `CheckoutController.get` and `CheckoutService.getForCheckout` (checkout.service.ts, lines
    22–31). -/
def getForCheckout (invoiceId : String) : Action http Invoice := do
  let invoice ← (prisma (.invoiceFindUnique invoiceId) : Action http (Option Invoice))
  match invoice with
  | none => .throw (.notFound "Invoice not found")
  | some invoice => return invoice

/-- The invoice is sent to the client. -/
def respondWith (invoice : Invoice) : Action http Unit :=
  .perform (S := effects http) (.other (.shown invoice))

namespace Deployment

/-- The handlers of the controllers. -/
def handle (D : Deployment) (mode : BlockchainMode) : Request → Action http Unit
  | .setWalletAddress organizationId userId input ctx => do
    let _ ← set (D.base mode) organizationId userId input ctx
    return ()
  | .createInvoice organizationId apiKeyId input ctx => do
    let invoice ← create mode organizationId apiKeyId input ctx
    respondWith invoice
  | .checkout invoiceId => do
    let invoice ← getForCheckout invoiceId
    respondWith invoice

/-- A request is received and handled. -/
def serve (D : Deployment) (call : Served) : Action http Unit := do
  .perform (S := effects http) (.other (.received call))
  D.handle call.mode call.request

/-- Any number of requests at a time. -/
def requests (D : Deployment) : Workload (effects http) Error Served where
  launch := D.serve
  compatible _ _ := true
  symm _ _ := rfl

abbrev ApiLog := Async.Config (effects http) (World BlockchainMode)

abbrev Trace := List (Event (effects http))

/-- The systems that a history of starts and requests leads to, from a state that meets `start`,
    with steps that meet `allowed`. -/
abbrev Reached (D : Deployment) (start : World BlockchainMode → Prop)
    (allowed : Condition (effects http) (World BlockchainMode)) :
    System (effects http) Error Served (World BlockchainMode) → Prop :=
  Reachable (machine processes) D.requests start allowed

/-! ## What a request asks of the database -/

abbrev received (pid : ℕ) (call : Served) : Event (effects http) :=
  ⟨pid, .other (.received call), ()⟩

abbrev shown (pid : ℕ) (invoice : Invoice) : Event (effects http) :=
  ⟨pid, .other (.shown invoice), ()⟩

/-- The lookup of `getDepositAddress`. -/
abbrev depositAddress (pid : ℕ) (organizationId network token : String)
    (wallet : MerchantWalletAddress) : Event (effects http) :=
  ⟨pid, .prisma (.merchantWalletAddressFindUnique organizationId network token),
    .ok (some wallet)⟩

/-- The upsert of `WalletAddressesService.set`. -/
abbrev upserted (pid : ℕ) (w row : MerchantWalletAddress) : Event (effects http) :=
  ⟨pid, .prisma (.merchantWalletAddressUpsert w), .ok row⟩

abbrev replayed (pid : ℕ) (organizationId externalId : String) (invoice : Invoice) :
    Event (effects http) :=
  ⟨pid, .prisma (.invoiceFindByExternalId organizationId externalId), .ok (some invoice)⟩

abbrev opened (pid : ℕ) (id : String) (invoice : Invoice) : Event (effects http) :=
  ⟨pid, .prisma (.invoiceFindUnique id), .ok (some invoice)⟩

abbrev created (pid : ℕ) (d : InvoiceCreateInput) (invoice : Invoice) : Event (effects http) :=
  ⟨pid, .prisma (.invoiceCreate d), .ok invoice⟩

/-- The invoice is the one that a request creates: with the address that its process has looked
    up, in evm mode. -/
def Fresh (call : Served) (h : Trace) (d : InvoiceCreateInput) : Prop :=
  ∃ organizationId apiKeyId input ctx id address now,
    call.request = .createInvoice organizationId apiKeyId input ctx ∧
      d = newInvoice id organizationId address now input ∧
      (call.mode = .evm → ∃ pid wallet,
        depositAddress pid organizationId input.network input.token wallet ∈ h ∧
          address = wallet.address)

/-- What a request may return: an invoice that it has looked up or created. -/
def Shows (call : Served) (h : Trace) (invoice : Invoice) : Prop :=
  match call.request with
  | .setWalletAddress .. => False
  | .createInvoice _ _ input _ =>
    (∃ pid organizationId externalId, replayed pid organizationId externalId invoice ∈ h ∧
      assertIdempotentReplay invoice input = .ok invoice) ∨ ∃ pid d, created pid d invoice ∈ h
  | .checkout _ => ∃ pid id, opened pid id invoice ∈ h

/-- When the process that serves `call` makes a request of the database. -/
def Asks (D : Deployment) (call : Served) (h : Trace) : PrismaCall → Prop
  | .merchantWalletAddressUpsert w => ∃ userId ctx,
    call.request = .setWalletAddress w.organizationId userId ⟨w.network, w.token, w.address⟩ ctx ∧
      (D.base call.mode).validateAddress w.address = true
  | .transaction writes => (∃ row, writes = [.auditLogCreate row]) ∨
    (call.mode = .fake ∧ ∃ w, writes = [.merchantWalletAddressCreate w])
  | .invoiceCreate d => Fresh call h d
  | .merchantWalletAddressFindUnique .. => True
  | .invoiceFindByExternalId .. => True
  | .invoiceFindUnique _ => True
  | _ => False

/-- When the process that serves `call` makes a request. -/
def Expected (D : Deployment) (call : Served) (h : Trace) : Op http → Prop
  | .other (.received call') => call' = call ∧ h = []
  | .prisma p => (∃ pid, received pid call ∈ h) ∧ D.Asks call h p
  | .other (.shown invoice) => (∃ pid, received pid call ∈ h) ∧ Shows call h invoice
  | _ => ∃ pid, received pid call ∈ h

section Obeys

variable {D : Deployment} {call : Served} {pid : ℕ} {h : Trace} {α : Type}

/-- The process has received the request. -/
def Started (call : Served) (h : Trace) : Prop := ∃ pid, received pid call ∈ h

theorem Started.mono {h' : Trace} (hc : Started call h) (hs : h <:+ h') : Started call h' := by
  obtain ⟨q, hev⟩ := hc
  exact ⟨q, hs.subset hev⟩

/-- A Prisma call that is expected, and what becomes of its reply. -/
theorem ask_obeys {p : PrismaCall} {Q : p.Ret → Trace → Prop} (hc : Started call h)
    (hexp : D.Asks call h p) (hok : ∀ a, Q a (⟨pid, .prisma p, .ok a⟩ :: h)) :
    (prisma p : Action http p.Ret).Obeys (D.Expected call) pid Q (fun _ _ => True) h :=
  Prog.obeys_request.mpr ⟨⟨hc, hexp⟩, fun r =>
    ⟨fun a (ha : r = .ok a) => ha ▸ hok a, fun _ _ => trivial⟩⟩

theorem audit_obeys (input : RecordAuditEventInput) {Q : Unit → Trace → Prop}
    (hc : Started call h) (hQ : ∀ h', h <:+ h' → Q () h') :
    (record input : Action http Unit).Obeys (D.Expected call) pid Q (fun _ _ => True) h :=
  ask_obeys hc (.inl ⟨_, rfl⟩) fun _ => hQ _ (List.suffix_cons _ _)

theorem set_obeys {organizationId userId : String} {input : SetWalletAddressInput}
    {ctx : RequestContext} (hc : Started call h)
    (hcall : call.request = .setWalletAddress organizationId userId input ctx) :
    (set (D.base call.mode) organizationId userId input ctx :
      Action http MerchantWalletAddress).Obeys (D.Expected call) pid (fun _ _ => True)
      (fun _ _ => True) h := by
  unfold set
  refine Prog.obeys_bind.mpr (Prog.obeys_ofExcept.mpr ⟨fun adapter hget => ?_, fun _ _ => trivial⟩)
  have hadapter : adapter = D.base call.mode := by
    unfold registryGet at hget
    split_ifs at hget
    exact (Except.ok.inj hget).symm
  subst hadapter
  split_ifs with hvalid
  · trivial
  · refine ⟨hc, fun id => ⟨hc.mono (List.suffix_cons _ _), fun createdAt => ?_⟩⟩
    have hc' := hc.mono ((List.suffix_cons _ _).trans (List.suffix_cons _ _) :
      h <:+ ⟨pid, .now, createdAt⟩ :: ⟨pid, .cuid, id⟩ :: h)
    show Prog.Obeys _ _ _ _ (prisma _ >>= _) _
    refine Prog.obeys_bind.mpr ?_
    refine ask_obeys hc' ?_ fun wallet => ?_
    · exact ⟨userId, ctx, hcall, by simpa using hvalid⟩
    · exact Prog.obeys_bind.mpr (audit_obeys _ (hc'.mono (List.suffix_cons _ _))
        fun _ _ => trivial)

/-- The address is the stored one; in fake mode it may have been provisioned. -/
theorem getDepositAddress_obeys {organizationId network token : String}
    {Q : String → Trace → Prop} (hc : Started call h)
    (hQ : ∀ address h', h <:+ h' → (call.mode = .evm → ∃ q wallet,
      depositAddress q organizationId network token wallet ∈ h' ∧ address = wallet.address) →
        Q address h') :
    (getDepositAddress call.mode organizationId network token :
      Action http String).Obeys (D.Expected call) pid Q (fun _ _ => True) h := by
  unfold getDepositAddress
  refine Prog.obeys_bind.mpr (ask_obeys hc trivial fun existing => ?_)
  have hc' := hc.mono (List.suffix_cons _ _ : h <:+ ⟨pid, .prisma
    (.merchantWalletAddressFindUnique organizationId network token), .ok existing⟩ :: h)
  cases existing with
  | some wallet =>
    exact hQ _ _ (List.suffix_cons _ _) fun _ => ⟨pid, wallet, List.mem_cons_self, rfl⟩
  | none =>
    cases hmode : call.mode with
    | evm => trivial
    | fake =>
      refine ⟨hc', fun address => ⟨hc'.mono (List.suffix_cons _ _), fun id =>
        ⟨(hc'.mono (List.suffix_cons _ _)).mono (List.suffix_cons _ _), fun createdAt => ?_⟩⟩⟩
      show Prog.Obeys _ _ _ _ (transaction _ >>= _) _
      refine Prog.obeys_bind.mpr ?_
      refine ask_obeys ?_ ?_ fun _ => hQ _ _ ?_ fun he => by rw [hmode] at he; cases he
      · exact ((hc'.mono (List.suffix_cons _ _)).mono (List.suffix_cons _ _)).mono
          (List.suffix_cons _ _)
      · exact .inr ⟨hmode, _, rfl⟩
      · exact ((((List.suffix_cons _ _).trans (List.suffix_cons _ _)).trans
          (List.suffix_cons _ _)).trans (List.suffix_cons _ _)).trans (List.suffix_cons _ _)

section Create

variable {organizationId apiKeyId : String} {input : CreateInvoiceInput} {ctx : RequestContext}
  (hcall : call.request = .createInvoice organizationId apiKeyId input ctx)

include hcall

theorem createFresh_obeys (hc : Started call h) :
    (createFresh call.mode organizationId apiKeyId input ctx : Action http Invoice).Obeys
      (D.Expected call) pid (fun invoice h' => Started call h' ∧ Shows call h' invoice)
      (fun _ _ => True) h := by
  unfold createFresh
  refine Prog.obeys_bind.mpr (Prog.obeys_ofExcept.mpr ⟨fun _ _ => ?_, fun _ _ => trivial⟩)
  refine Prog.obeys_bind.mpr (getDepositAddress_obeys hc fun address h' hs hread => ?_)
  refine ⟨hc.mono hs, fun id => ⟨(hc.mono hs).mono (List.suffix_cons _ _), fun now => ?_⟩⟩
  have hs' : h' <:+ ⟨pid, .now, now⟩ :: ⟨pid, .generateId "inv", id⟩ :: h' :=
    (List.suffix_cons _ _).trans (List.suffix_cons _ _)
  have hc' := (hc.mono hs).mono hs'
  show Prog.Obeys _ _ _ _ (prisma _ >>= _) _
  refine Prog.obeys_bind.mpr ?_
  refine ask_obeys hc' ?_ fun invoice => ?_
  · refine ⟨organizationId, apiKeyId, input, ctx, id, address, now, hcall, rfl, fun he => ?_⟩
    obtain ⟨q, wallet, hev, heq⟩ := hread he
    exact ⟨q, wallet, hs'.subset hev, heq⟩
  · have hc'' := hc'.mono (List.suffix_cons _ _ : _ <:+
      created pid (newInvoice id organizationId address now input) invoice :: _)
    refine Prog.obeys_bind.mpr (audit_obeys _ hc'' fun h'' hs'' => ?_)
    refine ⟨hc''.mono hs'', ?_⟩
    unfold Shows
    rw [hcall]
    exact .inr ⟨pid, _, hs''.subset List.mem_cons_self⟩

theorem create_obeys (hc : Started call h) :
    (create call.mode organizationId apiKeyId input ctx : Action http Invoice).Obeys
      (D.Expected call) pid (fun invoice h' => Started call h' ∧ Shows call h' invoice)
      (fun _ _ => True) h := by
  unfold create
  split
  · exact createFresh_obeys hcall hc
  · rename_i externalId _
    refine Prog.obeys_bind.mpr (ask_obeys hc trivial fun existing => ?_)
    cases existing with
    | none => exact createFresh_obeys hcall (hc.mono (List.suffix_cons _ _))
    | some existing =>
      refine Prog.obeys_ofExcept.mpr ⟨fun invoice hi => ?_, fun _ _ => trivial⟩
      have heq : invoice = existing := by
        unfold assertIdempotentReplay at hi
        split_ifs at hi
        exact (Except.ok.inj hi).symm
      subst heq
      refine ⟨hc.mono (List.suffix_cons _ _), ?_⟩
      unfold Shows
      rw [hcall]
      exact .inl ⟨pid, organizationId, externalId, List.mem_cons_self, hi⟩

end Create

/-- Every request makes expected requests of the database, and shows what it has read. -/
theorem requests_obey (D : Deployment) : D.requests.Obeys D.Expected := by
  intro call pid
  show (D.serve call).Obeys _ _ _ _ _
  refine ⟨⟨rfl, rfl⟩, fun _ => ?_⟩
  have hc : Started call [received pid call] := ⟨pid, List.mem_cons_self⟩
  show (D.handle call.mode call.request).Obeys _ _ _ _ [received pid call]
  cases hcall : call.request with
  | setWalletAddress organizationId userId input ctx =>
    exact Prog.obeys_bind.mpr (set_obeys hc hcall)
  | createInvoice organizationId apiKeyId input ctx =>
    refine Prog.obeys_bind.mpr ((create_obeys hcall hc).post (fun invoice h' hk => ?_)
      fun _ _ _ => trivial)
    exact ⟨hk, fun _ => trivial⟩
  | checkout invoiceId =>
    refine Prog.obeys_bind.mpr (Prog.obeys_bind.mpr ?_)
    refine ask_obeys hc trivial fun invoice => ?_
    cases invoice with
    | none => trivial
    | some invoice =>
      refine ⟨⟨hc.mono (List.suffix_cons _ _), ?_⟩, fun _ => trivial⟩
      unfold Shows
      rw [hcall]
      exact ⟨pid, invoiceId, List.mem_cons_self⟩

/-- A process receives the request that it serves. -/
theorem eq_of_received {call' : Served} (hh : InOrder (D.Expected call) h) {q : ℕ}
    (hev : received q call' ∈ h) : call' = call := by
  obtain ⟨h', -, hexp⟩ := hh.mem hev
  exact hexp.1

end Obeys

/-! ## What a request changes -/

theorem upsertWallet_invoices {db : Db} {w : MerchantWalletAddress} :
    (db.upsertWallet w).2.invoices = db.invoices := by
  unfold Db.upsertWallet
  split
  · rfl
  · split <;> rfl

/-- Only `invoice.create` changes the stored invoices. -/
theorem exec_invoices {D : Deployment} {call : Served} {h : Trace} {p : PrismaCall} {now : Time}
    {db : Db} (hasks : D.Asks call h p) (hp : ∀ d, p ≠ .invoiceCreate d) :
    (p.exec now db).2.invoices = db.invoices := by
  cases p with
  | invoiceCreate d => exact absurd rfl (hp d)
  | merchantWalletAddressUpsert w => exact upsertWallet_invoices
  | transaction writes =>
    simp only [PrismaCall.exec]
    cases htrans : db.transaction now writes with
    | error e => rfl
    | ok db' =>
      rcases hasks with ⟨row, rfl⟩ | ⟨-, w', rfl⟩
      · obtain ⟨db₁, happly, hnil⟩ := transaction_cons htrans
        cases transaction_nil hnil
        cases happly
        rfl
      · obtain ⟨db₁, happly, hnil⟩ := transaction_cons htrans
        cases transaction_nil hnil
        obtain ⟨t, -, rfl⟩ := merchantWalletAddressCreate_ok happly
        rfl
  | invoiceFindUnique id => rfl
  | invoiceFindByExternalId o e => rfl
  | merchantWalletAddressFindUnique o n t => rfl
  | _ => exact hasks.elim

/-! ## A small deployment -/

/-- `isAddress` accepts what the fake adapter does. -/
def sampleDeployment : Deployment where
  isAddress := Fake.validateAddress
  base _ := {
    validateAddress := Fake.validateAddress
    getLatestBlock := .throw .rpc
    getTransaction := fun _ => .throw .rpc
    getTokenTransfers := fun _ _ => .throw .rpc
    getConfirmations := fun _ => .throw .rpc }
  evm := rfl
  fake := rfl

/-- The database is empty, and the process runs in this mode. -/
def freshWorld (mode : BlockchainMode) : World BlockchainMode := ⟨Db.empty, 0, mode⟩

/-- An order in USDC. -/
def sampleBody (amount : String) : CreateInvoiceBody where
  externalId := none
  description := none
  amount := amount
  currency := "USD"
  token := "USDC"
  network := "base"
  successUrl := none
  cancelUrl := none
  metadata := none

/-- What the schema makes of it. -/
def sampleInput (amount : DecimalAmount) : CreateInvoiceInput where
  externalId := none
  description := none
  amount := amount
  currency := "USD"
  token := "USDC"
  network := "base"
  successUrl := none
  cancelUrl := none
  metadata := none

def sampleContext : RequestContext := ⟨"127.0.0.1", none⟩

def sampleRequest (amount : DecimalAmount) : Request :=
  .createInvoice "org" "key" (sampleInput amount) sampleContext

def sampleAmount : DecimalAmount := ⟨"49.00", ⟨4900000000⟩⟩

example : createInvoiceSchema (fun _ => true) (sampleBody "49.00") =
    some (sampleInput sampleAmount) := by decide

/-- An address of the organization's own. -/
def ownAddress : String := "0x00000000000000000000000000000000000000aa"

abbrev ApiMoves := List (Move Served (Input Unit) (Act BlockchainMode))

/-- In evm mode a user sets the address, and an invoice is created. -/
def suppliedRun (amount : DecimalAmount) : ApiMoves :=
  [.start ⟨.evm, .setWalletAddress "org" "user" ⟨"base", "USDC", ownAddress⟩ sampleContext⟩,
    .perform 0 (.other ()), .perform 0 (.id "w"), .perform 0 .ok, .perform 0 .ok, .perform 0 .ok,
    .start ⟨.evm, sampleRequest amount⟩, .perform 1 (.other ()), .perform 1 .ok,
    .perform 1 (.id "1"), .perform 1 .ok, .perform 1 .ok, .perform 1 .ok, .perform 1 (.other ())]

/-- The requests that were received. -/
def receipts (tr : Trace) : List (ℕ × Served) :=
  tr.filterMap fun
    | ⟨pid, .other (.received call), _⟩ => some (pid, call)
    | _ => none

/-- The invoices that were shown. -/
def shownInvoices (tr : Trace) : List (ℕ × Invoice) :=
  tr.filterMap fun
    | ⟨pid, .other (.shown invoice), _⟩ => some (pid, invoice)
    | _ => none

theorem mem_receipts {tr : Trace} {pid : ℕ} {call : Served} :
    (pid, call) ∈ receipts tr ↔ received pid call ∈ tr := by
  simp only [receipts, List.mem_filterMap]
  constructor
  · rintro ⟨ev, hev, heq⟩
    split at heq
    · cases heq
      exact hev
    · cases heq
  · exact fun hev => ⟨_, hev, rfl⟩

theorem mem_shownInvoices {tr : Trace} {pid : ℕ} {i : Invoice} (h : (pid, i) ∈ shownInvoices tr) :
    shown pid i ∈ tr := by
  simp only [shownInvoices, List.mem_filterMap] at h
  obtain ⟨ev, hev, heq⟩ := h
  split at heq
  · cases heq
    exact hev
  · cases heq

end Deployment

end CryptoPay.Api
