import CryptoPay.Blockchain.Adapter

/-!
# Creating invoices

`InvoicesService.create` of `apps/api/src/invoices/invoices.service.ts`, with
the two services it calls: the deposit addresses of
`wallet-addresses.service.ts` and the audit log of `audit.service.ts`.
-/

namespace CryptoPay.Api

open Async

variable {A : Signature}

/-- `BlockchainMode` (adapter-registry.ts, line 5). -/
inductive BlockchainMode where
  | fake | evm
  deriving DecidableEq, Repr

/-- `RequestContext` (request-context.util.ts, lines 3–6). -/
structure RequestContext where
  ip : String
  userAgent : Option String
  deriving DecidableEq, Repr

/-- `RecordAuditEventInput` (audit.service.ts, lines 5–15). -/
structure RecordAuditEventInput where
  organizationId : Option String
  actorId : Option String
  actorType : String
  action : String
  resourceType : String
  resourceId : Option String
  ip : Option String
  userAgent : Option String
  metadata : Option (List (String × String))
  deriving DecidableEq, Repr

/-- The `data` of `AuditService.record`; the database sets `createdAt`. -/
def RecordAuditEventInput.row (input : RecordAuditEventInput) : AuditLog where
  organizationId := input.organizationId
  actorId := input.actorId
  actorType := input.actorType
  action := input.action
  resourceType := input.resourceType
  resourceId := input.resourceId
  ip := input.ip
  userAgent := input.userAgent
  metadata := input.metadata
  createdAt := 0

/-- `AuditService.record` (audit.service.ts, lines 21–37). -/
def record (input : RecordAuditEventInput) : Action A Unit :=
  transaction [.auditLogCreate input.row]

/-! ## Deposit addresses -/

/-- `SetWalletAddressInput` (wallet-address.schemas.ts). -/
structure SetWalletAddressInput where
  network : String
  token : String
  address : String
  deriving DecidableEq, Repr

/-- `BlockchainAdapterRegistry.get` (blockchain-adapter-registry.service.ts,
    lines 16–22) on the registry of adapter-registry.ts: one adapter, for
    `base`. -/
def registryGet (adapter : BlockchainAdapter A) (network : String) :
    Except Error (BlockchainAdapter A) :=
  if network = "base" then .ok adapter
  else .error (.validation ("Unsupported network: " ++ network))

/-- `WalletAddressesService.set` (wallet-addresses.service.ts, lines 35–64). -/
def set (adapter : BlockchainAdapter A) (organizationId userId : String)
    (input : SetWalletAddressInput) (ctx : RequestContext) : Action A MerchantWalletAddress := do
  let adapter ← (Prog.ofExcept (registryGet adapter input.network) : Action A _)
  if !adapter.validateAddress input.address then
    .throw (.validation
      ("\"" ++ input.address ++ "\" is not a valid " ++ input.network ++ " address"))
  else
    let id ← cuid
    let createdAt ← dateNow
    let wallet ← (prisma (.merchantWalletAddressUpsert {
      id := id
      organizationId := organizationId
      network := input.network
      token := input.token
      address := input.address
      createdAt := createdAt }) : Action A MerchantWalletAddress)
    record {
      organizationId := some organizationId
      actorId := some userId
      actorType := "user"
      action := "wallet_address.set"
      resourceType := "merchant_wallet_address"
      resourceId := some wallet.id
      metadata := some [("network", input.network), ("token", input.token)]
      ip := some ctx.ip
      userAgent := ctx.userAgent }
    return wallet

/-- `WalletAddressesService.getDepositAddress` (wallet-addresses.service.ts,
    lines 74–91). -/
def getDepositAddress (mode : BlockchainMode) (organizationId network token : String) :
    Action A String := do
  let existing ← (prisma (.merchantWalletAddressFindUnique organizationId network token) :
    Action A (Option MerchantWalletAddress))
  match existing, mode with
  | some wallet, _ => return wallet.address
  | none, .fake =>
    let address ← generateFakeAddress
    let id ← cuid
    let createdAt ← dateNow
    transaction [.merchantWalletAddressCreate {
      id := id
      organizationId := organizationId
      network := network
      token := token
      address := address
      createdAt := createdAt }]
    return address
  | none, .evm =>
    .throw (.validation ("No deposit address configured for " ++ network ++ "/" ++ token ++
      ". Set one in the dashboard before creating an invoice."))

/-! ## Invoices -/

/-- A string that `decimalAmountSchema` accepts (invoice.schemas.ts, lines
    6–10), with the value that `new Prisma.Decimal` gives it. -/
structure DecimalAmount where
  text : String
  value : Decimal
  deriving DecidableEq, Repr

/-- `CreateInvoiceInput` (invoice.schemas.ts, lines 12–23). -/
structure CreateInvoiceInput where
  externalId : Option String
  description : Option String
  amount : DecimalAmount
  currency : String
  token : String
  network : String
  successUrl : Option String
  cancelUrl : Option String
  metadata : Option Metadata
  deriving DecidableEq, Repr

/-- `INVOICE_EXPIRY_MS` (invoices.service.ts, line 13): thirty minutes. -/
def INVOICE_EXPIRY_MS : ℤ := 30 * 60 * 1000

/-- `assertIdempotentReplay` (invoices.service.ts, lines 119–131). -/
def assertIdempotentReplay (existing : Invoice) (input : CreateInvoiceInput) :
    Except Error Invoice :=
  if existing.amount.equals input.amount.value && existing.currency = input.currency &&
      existing.token = input.token && existing.network = input.network then .ok existing
  else .error (.conflict ("An invoice with external_id \"" ++ input.externalId.getD "" ++
    "\" already exists with different parameters"))

/-- The `data` of `prisma.invoice.create` (invoices.service.ts, lines 48–65). -/
def newInvoice (id organizationId paymentAddress : String) (now : Time)
    (input : CreateInvoiceInput) : InvoiceCreateInput where
  id := id
  organizationId := organizationId
  externalId := input.externalId
  status := .pending
  description := input.description
  amount := input.amount.value
  currency := input.currency
  token := input.token
  network := input.network
  paymentAddress := paymentAddress
  successUrl := input.successUrl
  cancelUrl := input.cancelUrl
  metadata := input.metadata
  expiresAt := now + INVOICE_EXPIRY_MS

/-- The rest of `InvoicesService.create` when there is no earlier invoice with
    the same external id (invoices.service.ts, lines 40–82). -/
def createFresh (mode : BlockchainMode) (organizationId apiKeyId : String)
    (input : CreateInvoiceInput) (ctx : RequestContext) : Action A Invoice := do
  assertInvoice .created .pending
  let paymentAddress ← getDepositAddress mode organizationId input.network input.token
  let id ← generateId "inv"
  let now ← dateNow
  let invoice ← (prisma (.invoiceCreate (newInvoice id organizationId paymentAddress now input)) :
    Action A Invoice)
  record {
    organizationId := some organizationId
    actorId := some apiKeyId
    actorType := "api_key"
    action := "invoice.create"
    resourceType := "invoice"
    resourceId := some invoice.id
    metadata := some [("amount", input.amount.text), ("currency", input.currency),
      ("token", input.token), ("network", input.network)]
    ip := some ctx.ip
    userAgent := ctx.userAgent }
  return invoice

/-- `InvoicesService.create` (invoices.service.ts, lines 23–83). -/
def create (mode : BlockchainMode) (organizationId apiKeyId : String)
    (input : CreateInvoiceInput) (ctx : RequestContext) : Action A Invoice :=
  match input.externalId with
  | none => createFresh mode organizationId apiKeyId input ctx
  | some externalId => do
    let existing ← (prisma (.invoiceFindByExternalId organizationId externalId) :
      Action A (Option Invoice))
    match existing with
    | some existing => .ofExcept (assertIdempotentReplay existing input)
    | none => createFresh mode organizationId apiKeyId input ctx

end CryptoPay.Api
