import CryptoPay.Payments.Steps

/-!
# The payment confirm queue

`apps/worker/src/queues/payment-confirm.queue.ts`: one pass expires overdue
invoices, then takes a snapshot of the active payments and advances each of
them by what the adapter says about its transaction.
-/

namespace CryptoPay.Worker

open Async

variable {A : Signature}

/-- `REORG_GRACE_MS` (line 15): ten minutes. -/
def REORG_GRACE_MS : ℤ := 10 * 60 * 1000

/-- The statuses of `runPaymentConfirm`'s snapshot (line 54). -/
def activeStatuses : List PaymentStatus := [.detected, .confirming, .reorgDetected]

/-- `expireOverdueInvoices` (lines 95–106). -/
def expireOverdueInvoices : Action A Unit := expireOverdue

/-- `failPayment` (lines 141–148). -/
def failPayment (payment : PaymentWithInvoice) : Action A Unit := failAttempt payment

/-- `moveToConfirming` (lines 150–163). -/
def moveToConfirming (payment : PaymentWithInvoice) (confirmations : ℤ) : Action A Unit := do
  assertPayment payment.status .confirming
  if payment.invoice.status ≠ .confirming then
    assertInvoice payment.invoice.status .confirming
  transaction (confirmingWrites payment confirmations)

/-- `finalizePayment` (lines 166–197). -/
def finalizePayment (payment : PaymentWithInvoice) (confirmations : ℤ) : Action A Unit :=
  settlePayment payment confirmations

/-- `handleMissingTransaction` (lines 116–139). -/
def handleMissingTransaction (payment : PaymentWithInvoice) : Action A Unit := do
  if payment.status = .detected then
    failPayment payment
  else if payment.status = .confirming then
    assertPayment .confirming .reorgDetected
    transaction [.paymentUpdate payment.id { status := some .reorgDetected }]
  else
    let now ← dateNow
    if now - payment.updatedAt ≥ REORG_GRACE_MS then
      failPayment payment

/-- The loop body of `runPaymentConfirm` after the adapter has answered
    (lines 72–91). -/
def advancePayment (requiredConfirmations : ℤ) (payment : PaymentWithInvoice)
    (confirmations : ℤ) : Action A Unit := do
  if payment.status = .reorgDetected then
    moveToConfirming payment confirmations
  else if payment.status = .detected then
    moveToConfirming payment confirmations
  else if confirmations < requiredConfirmations then
    if confirmations ≠ payment.confirmations then
      transaction [.paymentUpdate payment.id { confirmations := some confirmations }]
  else
    finalizePayment payment confirmations

/-- The loop body of `runPaymentConfirm` for a payment with a transaction hash
    (lines 61–91). -/
def confirmTransaction (adapter : BlockchainAdapter A) (requiredConfirmations : ℤ)
    (payment : PaymentWithInvoice) (txHash : String) : Action A Unit := do
  match ← (adapter.getConfirmations txHash).attempt with
  | .error (.notFound _) => handleMissingTransaction payment
  | .error error => .throw error
  | .ok confirmations => advancePayment requiredConfirmations payment confirmations

/-- The loop body of `runPaymentConfirm` (lines 58–92). -/
def confirmPayment (adapter : BlockchainAdapter A) (requiredConfirmations : ℤ)
    (payment : PaymentWithInvoice) : Action A Unit :=
  match payment.txHash with
  | none => return ()
  | some txHash =>
    if txHash = "" then return ()
    else confirmTransaction adapter requiredConfirmations payment txHash

/-- `runPaymentConfirm` (lines 45–93). -/
def runPaymentConfirm (adapter : BlockchainAdapter A) (requiredConfirmations : ℤ) :
    Action A Unit := do
  expireOverdueInvoices
  let active ← (prisma (.paymentFindMany activeStatuses) : Action A (List PaymentWithInvoice))
  .forEach (confirmPayment adapter requiredConfirmations) active

end CryptoPay.Worker
