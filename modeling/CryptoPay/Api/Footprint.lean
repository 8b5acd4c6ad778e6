import CryptoPay.Api.Payments
import CryptoPay.Worker.CursorFootprint

/-!
# What the phases of a tick ask for

Besides the scan, a tick creates no payment, and of the fake chain it asks only for
confirmations.

Results:
* `expireOverdueInvoices_processing`, `advanceConfirmations_processing`: the two phases
  around the scan.
* `Administrative.processing`: the requests of the other services.
-/

namespace CryptoPay.Api

open Async Fake

/-- The request creates no payment, and asks the chain for confirmations at most. -/
def Processing : Op fakeCalls → Prop
  | .prisma (.transaction ws) => ∀ d, .paymentCreate d ∉ ws
  | .other (.getConfirmations _) => True
  | .other _ => False
  | _ => True

theorem Administrative.processing {op : Op fakeCalls} (h : Administrative op) : Processing op := by
  unfold Processing
  split
  · exact fun d hd => (h _ hd).elim
  · trivial
  · exact h.elim
  · trivial

theorem expireOverdueInvoices_processing : expireOverdueInvoices.Only Processing := by
  refine .bind (.perform trivial) fun now => .bind (.request trivial) fun overdue => ?_
  refine .forEach fun i _ => ?_
  refine .bind (.ofExcept _) fun _ => .bind (.perform trivial) fun eventId => .request ?_
  show ∀ d, _
  simp [createWebhookEvent]

theorem failOrphanedPayment_processing (p : PaymentWithInvoice) :
    (failOrphanedPayment p).Only Processing := by
  refine .bind (.ofExcept _) fun _ => .bind (.ofExcept _) fun _ => .request ?_
  show ∀ d, _
  simp

theorem moveToConfirming_processing (p : PaymentWithInvoice) (n : ℤ) :
    (moveToConfirming p n).Only Processing := by
  refine .bind (.ofExcept _) fun _ => .bind (.ofExcept _) fun _ => .request ?_
  show ∀ d, _
  simp [confirmingWrites]

theorem finalizePayment_processing (p : PaymentWithInvoice) (n : ℤ) :
    (finalizePayment p n).Only Processing := by
  refine .bind (.ofExcept _) fun _ => .bind (.ofExcept _) fun _ => .bind (.perform trivial)
    fun confirmedAt => .bind ?_ fun paidAt => .bind (.perform trivial) fun eventId =>
      .request ?_
  · unfold paidAtNow
    split_ifs
    · exact .bind (.perform trivial) fun now => trivial
    · trivial
  · show ∀ d, _
    simp [finalWrites, createWebhookEvent]

theorem confirmationsOf_processing (p : PaymentWithInvoice) (txHash : String) :
    (confirmationsOf p txHash).Only Processing := by
  unfold confirmationsOf registryGet
  split_ifs
  · exact .request trivial
  · trivial

theorem advancePayment_processing (requiredConfirmations : ℤ) (p : PaymentWithInvoice) :
    (advancePayment requiredConfirmations p).Only Processing := by
  unfold advancePayment
  cases p.txHash with
  | none => trivial
  | some txHash =>
    dsimp only
    split_ifs
    · trivial
    refine .bind (confirmationsOf_processing p txHash).attempt fun r => ?_
    split
    · exact failOrphanedPayment_processing p
    · trivial
    · unfold advanceWith
      split_ifs
      · exact moveToConfirming_processing p _
      · refine .request ?_
        show ∀ d, _
        simp
      · trivial
      · exact finalizePayment_processing p _

theorem advanceConfirmations_processing (requiredConfirmations : ℤ) :
    (advanceConfirmations requiredConfirmations).Only Processing :=
  .bind (.request trivial) fun _ => .forEach fun p _ => advancePayment_processing _ p

end CryptoPay.Api
