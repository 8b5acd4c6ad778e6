import CryptoPay.Blockchain.Adapter

/-!
# The steps that both pipelines share

`apps/worker/src/queues` (for `BLOCKCHAIN_MODE=evm`) and
`apps/api/src/payments/payments.service.ts` (for `fake`) contain the same five
functions twice, word for word. Each is defined here once; the modules of the
two pipelines name them as their source does.
-/

namespace CryptoPay

open Async

variable {A : Signature}

/-- The `data` of `createWebhookEvent` (payment-confirm.queue.ts, lines
    203–228; payments.service.ts, lines 344–368). `id` is the result of
    `generateId('evt')`. -/
def webhookEventInput (id : String) (invoice : Invoice) (type : String) (status : InvoiceStatus)
    (txHash : Option String) : WebhookEventCreateInput where
  id := id
  organizationId := invoice.organizationId
  invoiceId := invoice.id
  type := type
  data := {
    invoice_id := invoice.id
    external_id := invoice.externalId
    amount := invoice.amount.toString
    currency := invoice.currency
    network := invoice.network
    status := toLowerAscii status.toString
    tx_hash := txHash }

/-- `createWebhookEvent`. -/
def createWebhookEvent (id : String) (invoice : Invoice) (type : String) (status : InvoiceStatus)
    (txHash : Option String) : Write :=
  .webhookEventCreate (webhookEventInput id invoice type status txHash)

/-- The filter of `expireOverdueInvoices`. -/
def overdueWhere (now : Time) : InvoiceWhere := { status := .pending, expiresAtLt := some now }

theorem overdueWhere_holds {now : Time} {i : Invoice} :
    (overdueWhere now).holds i = true ↔ i.status = .pending ∧ i.expiresAt < now := by
  rw [InvoiceWhere.holds_iff]
  simp [overdueWhere]

/-- The loop body of `expireOverdueInvoices`. -/
def expireInvoice (invoice : Invoice) : Action A Unit := do
  assertInvoice .pending .expired
  let eventId ← generateId "evt"
  transaction [
    .invoiceUpdate invoice.id { status := .expired },
    createWebhookEvent eventId invoice "invoice.expired" .expired none]

/-- `expireOverdueInvoices` (payment-confirm.queue.ts, lines 95–106;
    payments.service.ts, lines 147–161). -/
def expireOverdue : Action A Unit := do
  let now ← dateNow
  let overdue ← (prisma (.invoiceFindMany (overdueWhere now)) : Action A (List Invoice))
  .forEach expireInvoice overdue

/-- The candidate filter of `tryMatchTransfer`. -/
def candidateWhere (transfer : TokenTransfer) : InvoiceWhere where
  status := .pending
  paymentAddress := some transfer.toAddress
  network := some transfer.network
  token := some transfer.token

theorem candidateWhere_holds {t : TokenTransfer} {i : Invoice} :
    (candidateWhere t).holds i = true ↔ i.status = .pending ∧ i.paymentAddress = t.toAddress ∧
      i.network = t.network ∧ i.token = t.token := by
  rw [InvoiceWhere.holds_iff]
  simp [candidateWhere]

/-- The `data` of the payment row that `tryMatchTransfer` creates. -/
def detectedPayment (id : String) (detectedAt : Time) (invoice : Invoice)
    (transfer : TokenTransfer) : PaymentCreateInput where
  id := id
  invoiceId := invoice.id
  organizationId := invoice.organizationId
  network := invoice.network
  token := transfer.token
  expectedAmount := invoice.amount
  receivedAmount := transfer.amount
  txHash := transfer.txHash
  fromAddress := transfer.fromAddress
  toAddress := transfer.toAddress
  blockNumber := transfer.blockNumber
  status := .detected
  detectedAt := detectedAt

/-- The rest of `tryMatchTransfer` once an invoice is selected: unless the
    transaction is already recorded, create the payment. -/
def creditTransfer (transfer : TokenTransfer) (invoice : Invoice) : Action A Unit := do
  let alreadySeen ←
    (prisma (.paymentFindByTxHash invoice.network transfer.txHash) : Action A (Option Payment))
  if alreadySeen.isSome then
    return ()
  else
    assertPayment .pending .detected
    assertInvoice .pending .detected
    let paymentId ← generateId "pay"
    let detectedAt ← dateNow
    transaction [
      .paymentCreate (detectedPayment paymentId detectedAt invoice transfer),
      .invoiceUpdate invoice.id { status := .detected }]

/-- `tryMatchTransfer` (blockchain-scan.queue.ts, lines 75–120;
    payments.service.ts, lines 189–232). The candidates all have the transfer's address
    (`selectMatchingInvoice_lower`). -/
def matchTransfer (transfer : TokenTransfer) : Action A Unit := do
  let candidates ←
    (prisma (.invoiceFindMany (candidateWhere transfer)) : Action A (List Invoice))
  match selectMatchingInvoice toLowerAscii candidates transfer.detected transfer.amount with
  | none => return ()
  | some invoice => creditTransfer transfer invoice

/-- `tryMatchTransfer` awaits the database, the clock and a generated id. -/
theorem matchTransfer_only {F : Op A → Prop} (hp : ∀ call, F (.prisma call)) (hnow : F .now)
    (hid : F (.generateId "pay")) (transfer : TokenTransfer) :
    (matchTransfer transfer : Action A Unit).Only F := by
  refine .bind (.request (hp _)) fun candidates => ?_
  cases selectMatchingInvoice toLowerAscii candidates transfer.detected transfer.amount with
  | none => trivial
  | some invoice =>
    refine .bind (.request (hp _)) fun alreadySeen => ?_
    split_ifs
    · trivial
    · exact .bind (.ofExcept _) fun _ => .bind (.ofExcept _) fun _ =>
        .bind (.perform hid) fun _ => .bind (.perform hnow) fun _ => .request (hp _)

/-- `await tryMatchTransfer(transfer)`, between two marks. -/
def passTransfer (transfer : TokenTransfer) : Action A Unit := do
  mark (.passed transfer)
  matchTransfer transfer
  mark (.processed transfer)

/-- `for (const transfer of transfers) await tryMatchTransfer(transfer)`. -/
def matchTransfers (transfers : List TokenTransfer) : Action A Unit :=
  .forEach passTransfer transfers

/-- `failPayment` (payment-confirm.queue.ts, lines 141–148) and
    `failOrphanedPayment` (payments.service.ts, lines 276–283). -/
def failAttempt (payment : PaymentWithInvoice) : Action A Unit := do
  assertPayment payment.status .failed
  assertInvoice payment.invoice.status .failed
  transaction [
    .paymentUpdate payment.id { status := some .failed },
    .invoiceUpdate payment.invoiceId { status := .failed }]

/-- The two writes of `moveToConfirming`. -/
def confirmingWrites (payment : PaymentWithInvoice) (confirmations : ℤ) : List Write := [
  .paymentUpdate payment.id { status := some .confirming, confirmations := some confirmations },
  .invoiceUpdate payment.invoiceId { status := .confirming }]

/-- The payment status, invoice status and event type that an amount
    comparison decides (payment-confirm.queue.ts, lines 168–181). -/
def PaymentAmountMatch.outcome : PaymentAmountMatch → PaymentStatus × InvoiceStatus × String
  | .exact => (.confirmed, .paid, "payment.paid")
  | .underpaid => (.underpaid, .underpaid, "payment.underpaid")
  | .overpaid => (.overpaid, .overpaid, "payment.overpaid")

/-- `evaluatePaymentAmount(payment.expectedAmount, payment.receivedAmount ?? 0)`. -/
def Payment.amountMatch (payment : Payment) : PaymentAmountMatch :=
  evaluatePaymentAmount payment.expectedAmount (payment.receivedAmount.getD .zero)

/-- The three writes of `finalizePayment`. -/
def finalWrites (payment : PaymentWithInvoice) (confirmations : ℤ) (confirmedAt : Time)
    (paidAt : Option Time) (eventId : String) : List Write :=
  let outcome := payment.amountMatch.outcome
  [.paymentUpdate payment.id {
      status := some outcome.1
      confirmations := some confirmations
      confirmedAt := some confirmedAt },
    .invoiceUpdate payment.invoiceId { status := outcome.2.1, paidAt := paidAt },
    createWebhookEvent eventId payment.invoice outcome.2.2 outcome.2.1 payment.txHash]

/-- `invoiceStatus === InvoiceStatus.PAID ? { paidAt: new Date() } : {}`. -/
def paidAtNow (invoiceStatus : InvoiceStatus) : Action A (Option Time) :=
  if invoiceStatus = .paid then do
    let now ← dateNow
    pure (some now)
  else pure none

/-- `finalizePayment` (payment-confirm.queue.ts, lines 166–197;
    payments.service.ts, lines 302–336). -/
def settlePayment (payment : PaymentWithInvoice) (confirmations : ℤ) : Action A Unit := do
  let outcome := payment.amountMatch.outcome
  assertPayment .confirming outcome.1
  assertInvoice .confirming outcome.2.1
  let confirmedAt ← dateNow
  let paidAt ← paidAtNow outcome.2.1
  let eventId ← generateId "evt"
  transaction (finalWrites payment confirmations confirmedAt paidAt eventId)

end CryptoPay
