import CryptoPay.Api.Invoices
import CryptoPay.Blockchain.Fake
import CryptoPay.Payments.Steps

/-!
# The payments service

`apps/api/src/payments/payments.service.ts`: with `BLOCKCHAIN_MODE=fake` the API
process itself detects and confirms payments. `tick` runs on an interval and
after every simulated payment; the flag `ticking` keeps two ticks from
overlapping.
-/

namespace CryptoPay.Api

open Async Fake

/-- A function of the API process. -/
abbrev Service (α : Type) := Action fakeCalls α

/-- `if (this.ticking) return; this.ticking = true`: whether it was clear. -/
def enterTick : Service Bool := .perform (S := effects fakeCalls) (.other .enterTick)

/-- `this.ticking = false`. -/
def leaveTick : Service Unit := .perform (S := effects fakeCalls) (.other .leaveTick)

/-- `this.lastScannedBlock`. -/
def lastScannedBlock : Service ℤ := .perform (S := effects fakeCalls) (.other .lastScannedBlock)

/-- `this.lastScannedBlock = Math.max(this.lastScannedBlock, latestBlock - 1)`. -/
def advanceLastScannedBlock (latestBlock : ℤ) : Service Unit :=
  .perform (S := effects fakeCalls) (.other (.advanceLastScannedBlock latestBlock))

/-- `expireOverdueInvoices` (lines 147–161). -/
def expireOverdueInvoices : Service Unit := expireOverdue

/-- `tryMatchTransfer` (lines 189–232). -/
def tryMatchTransfer (transfer : TokenTransfer) : Service Unit := matchTransfer transfer

/-- `failOrphanedPayment` (lines 276–283). -/
def failOrphanedPayment (payment : PaymentWithInvoice) : Service Unit := failAttempt payment

/-- `moveToConfirming` (lines 285–299). -/
def moveToConfirming (payment : PaymentWithInvoice) (confirmations : ℤ) : Service Unit := do
  assertPayment .detected .confirming
  assertInvoice .detected .confirming
  transaction (confirmingWrites payment confirmations)

/-- `finalizePayment` (lines 302–336). -/
def finalizePayment (payment : PaymentWithInvoice) (confirmations : ℤ) : Service Unit :=
  settlePayment payment confirmations

/-- `this.blockchainRegistry.get(payment.network).getConfirmations(payment.txHash)`
    (line 247). -/
def confirmationsOf (payment : PaymentWithInvoice) (txHash : String) : Service ℤ := do
  let adapter ← (Prog.ofExcept (registryGet adapter payment.network) : Service _)
  adapter.getConfirmations txHash

/-- The loop body of `advanceConfirmations` after the adapter has answered (lines
    261–272). -/
def advanceWith (requiredConfirmations : ℤ) (payment : PaymentWithInvoice) (confirmations : ℤ) :
    Service Unit := do
  if payment.status = .detected then
    moveToConfirming payment confirmations
  else if confirmations < requiredConfirmations then
    if confirmations ≠ payment.confirmations then
      transaction [.paymentUpdate payment.id { confirmations := some confirmations }]
  else
    finalizePayment payment confirmations

/-- The loop body of `advanceConfirmations` (lines 241–272). -/
def advancePayment (requiredConfirmations : ℤ) (payment : PaymentWithInvoice) : Service Unit :=
  match payment.txHash with
  | none => return ()
  | some txHash => do
    if txHash = "" then return ()
    else
      match ← (confirmationsOf payment txHash).attempt with
      | .error (.notFound _) => failOrphanedPayment payment
      | .error error => .throw error
      | .ok confirmations => advanceWith requiredConfirmations payment confirmations

/-- `advanceConfirmations` (lines 234–274). -/
def advanceConfirmations (requiredConfirmations : ℤ) : Service Unit := do
  let active ←
    (prisma (.paymentFindMany [.detected, .confirming]) : Service (List PaymentWithInvoice))
  .forEach (advancePayment requiredConfirmations) active

/-! ## Ticks

What a tick does with a transfer, `tryMatchTransfer` in the source, is a parameter `pass` of the
functions that lead to it. -/

section Ticks

variable (pass : TokenTransfer → Service Unit) (requiredConfirmations : ℤ)

/-- `detectNewPayments` (lines 163–178). -/
def detectNewPaymentsWith : Service Unit := do
  let latestBlock ← adapter.getLatestBlock
  let scanned ← lastScannedBlock
  if latestBlock > scanned then
    let transfers ← adapter.getTokenTransfers (scanned + 1) latestBlock
    .forEach pass transfers
  advanceLastScannedBlock latestBlock

/-- The body of `tick`'s `try` (lines 139–141). -/
def processPaymentsWith : Service Unit := do
  expireOverdueInvoices
  detectNewPaymentsWith pass
  advanceConfirmations requiredConfirmations

/-- `tick` (lines 135–145). -/
def tickWith : Service Unit := do
  let entered ← enterTick
  if entered then
    Prog.ensuring (processPaymentsWith pass requiredConfirmations) leaveTick

end Ticks

/-- `detectNewPayments`, with the source's `tryMatchTransfer`. -/
def detectNewPayments : Service Unit := detectNewPaymentsWith tryMatchTransfer

/-- The body of `tick`'s `try`. -/
def processPayments (requiredConfirmations : ℤ) : Service Unit :=
  processPaymentsWith tryMatchTransfer requiredConfirmations

/-- `tick`. -/
def tick (requiredConfirmations : ℤ) : Service Unit :=
  tickWith tryMatchTransfer requiredConfirmations

/-! ## Simulated payments -/

/-- `SimulatePaymentInput` (simulate-payment.schemas.ts). -/
structure SimulatePaymentInput where
  amount : Option DecimalAmount
  deriving DecidableEq, Repr

section Simulations

variable (pass : TokenTransfer → Service Unit) (requiredConfirmations : ℤ)

/-- `doSimulatePayment` (lines 113–133). The registry holds the fake adapter, so
    the `instanceof` check passes. -/
def doSimulatePaymentWith (invoice : Invoice) (input : SimulatePaymentInput) : Service Invoice := do
  if invoice.status ≠ .pending then
    .throw (.conflict ("Invoice is " ++ invoice.status.toString ++ ", not awaiting payment"))
  else
    let _ ← (Prog.ofExcept (registryGet adapter invoice.network) : Service _)
    let _ ← (.perform (S := effects fakeCalls) (.other (.simulatePayment {
      network := invoice.network
      token := invoice.token
      toAddress := invoice.paymentAddress
      amount := (input.amount.map DecimalAmount.value).getD invoice.amount })) :
      Service TokenTransfer)
    tickWith pass requiredConfirmations
    let updated ← (prisma (.invoiceFindUnique invoice.id) : Service (Option Invoice))
    match updated with
    | some updated => return updated
    | none => .throw (.prisma .recordNotFound)

/-- `simulatePayment` (lines 87–97). -/
def simulatePaymentWith (organizationId invoiceId : String) (input : SimulatePaymentInput) :
    Service Invoice := do
  let invoice ← (prisma (.invoiceFindFirst invoiceId organizationId) : Service (Option Invoice))
  match invoice with
  | none => .throw (.notFound "Invoice not found")
  | some invoice => doSimulatePaymentWith pass requiredConfirmations invoice input

/-- `simulatePaymentForCheckout` (lines 105–111). -/
def simulatePaymentForCheckoutWith (invoiceId : String) (input : SimulatePaymentInput) :
    Service Invoice := do
  let invoice ← (prisma (.invoiceFindUnique invoiceId) : Service (Option Invoice))
  match invoice with
  | none => .throw (.notFound "Invoice not found")
  | some invoice => doSimulatePaymentWith pass requiredConfirmations invoice input

end Simulations

/-- `doSimulatePayment`. -/
def doSimulatePayment (requiredConfirmations : ℤ) (invoice : Invoice)
    (input : SimulatePaymentInput) : Service Invoice :=
  doSimulatePaymentWith tryMatchTransfer requiredConfirmations invoice input

/-- `simulatePayment`. -/
def simulatePayment (requiredConfirmations : ℤ) (organizationId invoiceId : String)
    (input : SimulatePaymentInput) : Service Invoice :=
  simulatePaymentWith tryMatchTransfer requiredConfirmations organizationId invoiceId input

/-- `simulatePaymentForCheckout`. -/
def simulatePaymentForCheckout (requiredConfirmations : ℤ) (invoiceId : String)
    (input : SimulatePaymentInput) : Service Invoice :=
  simulatePaymentForCheckoutWith tryMatchTransfer requiredConfirmations invoiceId input

/-! ## The jobs of the API process -/

/-- What may run. -/
inductive Job where
  | createInvoice (organizationId apiKeyId : String) (input : CreateInvoiceInput)
      (ctx : RequestContext)
  | setWalletAddress (organizationId userId : String) (input : SetWalletAddressInput)
      (ctx : RequestContext)
  | simulatePayment (organizationId invoiceId : String) (input : SimulatePaymentInput)
  | simulatePaymentForCheckout (invoiceId : String) (input : SimulatePaymentInput)
  | tick

/-- What the process is configured with. -/
structure Config where
  requiredConfirmations : ℤ
  blockTime : BlockTime

/-- The program of a job, by what it does with a transfer. -/
def launchWith (pass : TokenTransfer → Service Unit) (C : Config) : Job → Service Unit
  | .createInvoice organizationId apiKeyId input ctx => do
    let _ ← create .fake organizationId apiKeyId input ctx
    return ()
  | .setWalletAddress organizationId userId input ctx => do
    let _ ← set adapter organizationId userId input ctx
    return ()
  | .simulatePayment organizationId invoiceId input => do
    let _ ← simulatePaymentWith pass C.requiredConfirmations organizationId invoiceId input
    return ()
  | .simulatePaymentForCheckout invoiceId input => do
    let _ ← simulatePaymentForCheckoutWith pass C.requiredConfirmations invoiceId input
    return ()
  | .tick => tickWith pass C.requiredConfirmations

/-- The program of a job. -/
def launch (C : Config) : Job → Service Unit := launchWith tryMatchTransfer C

/-- Any number of jobs of any kind. -/
def workload (C : Config) : Workload (effects fakeCalls) Error Job where
  launch := launch C
  compatible _ _ := true
  symm _ _ := rfl

/-- The API process at some point of a run. -/
abbrev ApiSystem := System (effects fakeCalls) Error Job (World Memory)

abbrev ApiMove := Move Job (Input Chance) (Act Restart)

/-- No invoice, payment or event is stored, and the process has just started. -/
def Unused (w : World Memory) : Prop :=
  (∀ i, i ∉ w.db.invoices) ∧ (∀ p, p ∉ w.db.payments) ∧ (∀ e, e ∉ w.db.webhookEvents) ∧
    ∃ now, w.other = .fresh now

/-- The systems that some run leads to. -/
def ApiReachable (C : Config) : ApiSystem → Prop :=
  Reachable (machine (backend C.blockTime)) (workload C) Unused anything

def apiStep (C : Config) (s : ApiSystem) (m : ApiMove) : Option ApiSystem :=
  s.step (machine (backend C.blockTime)) (workload C) m

end CryptoPay.Api
