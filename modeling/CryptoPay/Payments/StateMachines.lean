import CryptoPay.Shared.Errors
import Mathlib.Tactic.Common

/-!
# Invoice and payment state machines

The status enumerations of `packages/database/prisma/schema.prisma` and the
transition maps of `packages/payments/src/invoice-state-machine.ts` and
`payment-state-machine.ts`.
-/

namespace CryptoPay

/-- `InvoiceStatus` (schema.prisma, lines 45–57). -/
inductive InvoiceStatus where
  | created | pending | detected | confirming | paid | underpaid | overpaid | expired | failed
  | cancelled | refunded
  deriving DecidableEq, Repr

/-- `PaymentStatus` (schema.prisma, lines 62–71). -/
inductive PaymentStatus where
  | pending | detected | confirming | confirmed | underpaid | overpaid | failed | reorgDetected
  deriving DecidableEq, Repr

/-- The database's name of the status. -/
def InvoiceStatus.toString : InvoiceStatus → String
  | .created => "CREATED"
  | .pending => "PENDING"
  | .detected => "DETECTED"
  | .confirming => "CONFIRMING"
  | .paid => "PAID"
  | .underpaid => "UNDERPAID"
  | .overpaid => "OVERPAID"
  | .expired => "EXPIRED"
  | .failed => "FAILED"
  | .cancelled => "CANCELLED"
  | .refunded => "REFUNDED"

/-- The database's name of the status. -/
def PaymentStatus.toString : PaymentStatus → String
  | .pending => "PENDING"
  | .detected => "DETECTED"
  | .confirming => "CONFIRMING"
  | .confirmed => "CONFIRMED"
  | .underpaid => "UNDERPAID"
  | .overpaid => "OVERPAID"
  | .failed => "FAILED"
  | .reorgDetected => "REORG_DETECTED"

/-- `s.toLowerCase()` of an ASCII string, as all statuses and hex addresses are; other letters
    are left as they are. -/
def toLowerAscii (s : String) : String := String.ofList (s.toList.map Char.toLower)

/-- `INVOICE_TRANSITIONS` (invoice-state-machine.ts, lines 10–29). -/
def INVOICE_TRANSITIONS : InvoiceStatus → List InvoiceStatus
  | .created => [.pending]
  | .pending => [.detected, .expired, .cancelled]
  | .detected => [.confirming, .failed]
  | .confirming => [.paid, .underpaid, .overpaid, .failed]
  | .underpaid => [.refunded]
  | .overpaid => [.refunded]
  | .paid => [.refunded]
  | .expired => []
  | .failed => []
  | .cancelled => []
  | .refunded => []

/-- `canTransitionInvoice` (invoice-state-machine.ts, lines 31–33). -/
def canTransitionInvoice (source target : InvoiceStatus) : Bool :=
  (INVOICE_TRANSITIONS source).contains target

/-- `assertInvoiceTransition` (invoice-state-machine.ts, lines 39–46). -/
def assertInvoiceTransition (source target : InvoiceStatus) : Except Error Unit :=
  if canTransitionInvoice source target then .ok ()
  else .error (.invalidStateTransition
    ("Invoice cannot transition from " ++ source.toString ++ " to " ++ target.toString)
    source.toString target.toString)

/-- `PAYMENT_TRANSITIONS` (payment-state-machine.ts, lines 9–24). -/
def PAYMENT_TRANSITIONS : PaymentStatus → List PaymentStatus
  | .pending => [.detected, .failed]
  | .detected => [.confirming, .failed]
  | .confirming => [.confirmed, .underpaid, .overpaid, .reorgDetected, .failed]
  | .reorgDetected => [.confirming, .failed]
  | .confirmed => []
  | .underpaid => []
  | .overpaid => []
  | .failed => []

/-- `canTransitionPayment` (payment-state-machine.ts, lines 26–28). -/
def canTransitionPayment (source target : PaymentStatus) : Bool :=
  (PAYMENT_TRANSITIONS source).contains target

/-- `assertPaymentTransition` (payment-state-machine.ts, lines 34–41). -/
def assertPaymentTransition (source target : PaymentStatus) : Except Error Unit :=
  if canTransitionPayment source target then .ok ()
  else .error (.invalidStateTransition
    ("Payment cannot transition from " ++ source.toString ++ " to " ++ target.toString)
    source.toString target.toString)

/-! ## Legal writes -/

/-- A write of an invoice status that keeps it or follows an edge. -/
def InvoiceStatus.CanBecome (source target : InvoiceStatus) : Prop :=
  target = source ∨ canTransitionInvoice source target = true

/-- A write of a payment status that keeps it or follows an edge. -/
def PaymentStatus.CanBecome (source target : PaymentStatus) : Prop :=
  target = source ∨ canTransitionPayment source target = true

instance (s t : InvoiceStatus) : Decidable (s.CanBecome t) :=
  inferInstanceAs (Decidable (_ ∨ _))

instance (s t : PaymentStatus) : Decidable (s.CanBecome t) :=
  inferInstanceAs (Decidable (_ ∨ _))

/-- `CONFIRMED`, `UNDERPAID`, `OVERPAID` and `FAILED` have no way out
    (payment-state-machine.test.ts, lines 24–33). -/
def PaymentStatus.isFinal (s : PaymentStatus) : Bool := (PAYMENT_TRANSITIONS s).isEmpty

/-- `CONFIRMED`, `UNDERPAID` or `OVERPAID`: the amount has been decided. -/
def PaymentStatus.Settled (s : PaymentStatus) : Prop :=
  s = .confirmed ∨ s = .underpaid ∨ s = .overpaid

theorem PaymentStatus.Settled.isFinal {s : PaymentStatus} (h : s.Settled) : s.isFinal = true := by
  rcases h with rfl | rfl | rfl <;> rfl

/-- `PAID`, `UNDERPAID` or `OVERPAID`. -/
def InvoiceStatus.Settled (s : InvoiceStatus) : Prop := s = .paid ∨ s = .underpaid ∨ s = .overpaid

theorem assertInvoiceTransition_ok {s t : InvoiceStatus} :
    assertInvoiceTransition s t = .ok () ↔ canTransitionInvoice s t = true := by
  unfold assertInvoiceTransition
  split_ifs with h <;> simp [h]

theorem assertPaymentTransition_ok {s t : PaymentStatus} :
    assertPaymentTransition s t = .ok () ↔ canTransitionPayment s t = true := by
  unfold assertPaymentTransition
  split_ifs with h <;> simp [h]

/-- An invoice assertion throws nothing but `InvalidStateTransitionError`, and
    names the two statuses. -/
theorem assertInvoiceTransition_error {s t : InvoiceStatus} {e : Error}
    (h : assertInvoiceTransition s t = .error e) :
    canTransitionInvoice s t = false ∧
      ∃ message, e = .invalidStateTransition message s.toString t.toString := by
  unfold assertInvoiceTransition at h
  split_ifs at h with hc
  exact ⟨by simpa using hc, _, (Except.error.inj h).symm⟩

/-- A payment assertion throws nothing but `InvalidStateTransitionError`, and
    names the two statuses. -/
theorem assertPaymentTransition_error {s t : PaymentStatus} {e : Error}
    (h : assertPaymentTransition s t = .error e) :
    canTransitionPayment s t = false ∧
      ∃ message, e = .invalidStateTransition message s.toString t.toString := by
  unfold assertPaymentTransition at h
  split_ifs at h with hc
  exact ⟨by simpa using hc, _, (Except.error.inj h).symm⟩

end CryptoPay
