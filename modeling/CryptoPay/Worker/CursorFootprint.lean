import CryptoPay.Payments.Outline
import CryptoPay.Worker.Jobs

/-!
# Requests that leave the scan cursors alone

Only the scan pass reads or writes a `BlockchainScanCursor`. `LeavesCursors` says
so of a single request, `Leaves` of every request that a program may make.

Results:
* `LeavesCursors.respond`: such a request changes no cursor, whatever its reply.
* `matchTransfer_leaves`, `runPaymentConfirm_leaves`: the programs that only make
  such requests.
* `create_administrative`, `set_administrative`: creating an invoice and setting a
  deposit address write no payment either.
-/

namespace CryptoPay

open Async

variable {A : Signature} {ω ι η : Type}

/-! ## Requests that leave the cursors alone -/

/-- The write is no update of a cursor. -/
def Write.LeavesCursors : Write → Prop
  | .blockchainScanCursorUpdate .. => False
  | _ => True

/-- The request writes no cursor. -/
def LeavesCursors : Op A → Prop
  | .prisma (.blockchainScanCursorUpsert _) => False
  | .prisma (.transaction ws) => ∀ w ∈ ws, w.LeavesCursors
  | _ => True

theorem Write.LeavesCursors.apply {now : Time} {db db' : Db} {w : Write} (hw : w.LeavesCursors)
    (h : w.apply now db = .ok db') : db'.blockchainScanCursors = db.blockchainScanCursors := by
  cases w with
  | invoiceCreate d => obtain ⟨-, t, -, rfl⟩ := invoiceCreate_ok h; rfl
  | invoiceUpdate id d => obtain ⟨-, rfl⟩ := invoiceUpdate_ok h; rfl
  | paymentCreate d => obtain ⟨-, -, t, -, rfl⟩ := paymentCreate_ok h; rfl
  | paymentUpdate id d => obtain ⟨-, rfl⟩ := paymentUpdate_ok h; rfl
  | webhookEventCreate d => obtain ⟨t, -, rfl⟩ := webhookEventCreate_ok h; rfl
  | blockchainScanCursorUpdate network n => exact hw.elim
  | merchantWalletAddressCreate row => obtain ⟨t, -, rfl⟩ := merchantWalletAddressCreate_ok h; rfl
  | auditLogCreate row => cases h; rfl

theorem transaction_leaves {now : Time} {db db' : Db} {ws : List Write}
    (hws : ∀ w ∈ ws, w.LeavesCursors) (h : db.transaction now ws = .ok db') :
    db'.blockchainScanCursors = db.blockchainScanCursors := by
  induction ws generalizing db with
  | nil => rw [transaction_nil h]
  | cons w ws ih =>
    obtain ⟨db₁, hw, hrest⟩ := transaction_cons h
    rw [ih (fun x hx => hws x (List.mem_cons_of_mem w hx)) hrest]
    exact (hws w List.mem_cons_self).apply hw

theorem upsertWallet_leaves (db : Db) (w : MerchantWalletAddress) :
    (db.upsertWallet w).2.blockchainScanCursors = db.blockchainScanCursors := by
  unfold Db.upsertWallet
  split
  · rfl
  · split <;> rfl

theorem LeavesCursors.exec {call : PrismaCall} (hc : LeavesCursors (A := A) (.prisma call))
    (now : Time) (db : Db) :
    (call.exec now db).2.blockchainScanCursors = db.blockchainScanCursors := by
  cases call with
  | blockchainScanCursorUpsert network => exact hc.elim
  | transaction ws =>
    simp only [PrismaCall.exec]
    split
    · rename_i db' h; exact transaction_leaves hc h
    · rfl
  | invoiceCreate d =>
    simp only [PrismaCall.exec]
    split
    · rename_i db' h; exact Write.LeavesCursors.apply (w := .invoiceCreate d) trivial h
    · rfl
  | merchantWalletAddressUpsert w => exact upsertWallet_leaves db w
  | invoiceFindMany w => rfl
  | invoiceFindUnique id => rfl
  | invoiceFindFirst id organizationId => rfl
  | invoiceFindByExternalId organizationId externalId => rfl
  | paymentFindMany status => rfl
  | paymentFindByTxHash network txHash => rfl
  | merchantWalletAddressFindUnique organizationId network token => rfl

theorem LeavesCursors.respond {B : Backend A ω ι η} {pid : ℕ} {w w' : World ω} {op : Op A}
    {i : Input ι} {r : (effects A).Ret op} (hop : LeavesCursors op)
    (h : respond B pid w op i = some (r, w')) :
    w'.db.blockchainScanCursors = w.db.blockchainScanCursors := by
  cases op with
  | prisma call =>
    rcases respond_prisma h with ⟨-, rfl⟩ | ⟨-, rfl⟩
    · exact hop.exec _ _
    · rfl
  | now => rw [(respond_now h).2]
  | generateId stem => rw [respond_generateId h]
  | generateFakeAddress => rw [respond_generateFakeAddress h]
  | cuid => rw [respond_cuid h]
  | mark m => rw [respond_mark h]
  | other op =>
    obtain ⟨k, o, -, rfl⟩ := respond_other h
    rfl

/-! ## Programs that leave the cursors alone -/

/-- The program writes no cursor. -/
abbrev Leaves {α : Type} (p : Action A α) : Prop := p.Only LeavesCursors

theorem transaction_only {ws : List Write} (h : ∀ w ∈ ws, w.LeavesCursors) :
    Leaves (transaction ws : Action A Unit) :=
  .request h

theorem expireOverdue_leaves : Leaves (expireOverdue : Action A Unit) := by
  refine .bind (.perform trivial) fun now => .bind (.request trivial) fun overdue => ?_
  refine .forEach fun i _ => ?_
  refine .bind (.ofExcept _) fun _ => .bind (.perform trivial) fun eventId => ?_
  exact transaction_only (by simp [createWebhookEvent, Write.LeavesCursors])

theorem matchTransfer_leaves (t : TokenTransfer) : Leaves (matchTransfer t : Action A Unit) := by
  refine .bind (.request trivial) fun candidates => ?_
  split
  · trivial
  · refine .bind (.request trivial) fun alreadySeen => ?_
    split_ifs
    · trivial
    · refine .bind (.ofExcept _) fun _ => .bind (.ofExcept _) fun _ =>
        .bind (.perform trivial) fun paymentId => .bind (.perform trivial) fun detectedAt => ?_
      exact transaction_only (by simp [Write.LeavesCursors])

theorem failAttempt_leaves (p : PaymentWithInvoice) : Leaves (failAttempt p : Action A Unit) := by
  refine .bind (.ofExcept _) fun _ => .bind (.ofExcept _) fun _ => ?_
  exact transaction_only (by simp [Write.LeavesCursors])

theorem settlePayment_leaves (p : PaymentWithInvoice) (n : ℤ) :
    Leaves (settlePayment p n : Action A Unit) := by
  refine .bind (.ofExcept _) fun _ => .bind (.ofExcept _) fun _ => .bind (.perform trivial)
    fun confirmedAt => .bind ?_ fun paidAt => .bind (.perform trivial) fun eventId => ?_
  · unfold paidAtNow
    split_ifs
    · exact .bind (.perform trivial) fun now => trivial
    · trivial
  · exact transaction_only (by simp [finalWrites, createWebhookEvent, Write.LeavesCursors])

namespace Worker

theorem moveToConfirming_leaves (p : PaymentWithInvoice) (n : ℤ) :
    Leaves (moveToConfirming p n : Action A Unit) := by
  have hwrites : Leaves (transaction (confirmingWrites p n) : Action A Unit) :=
    transaction_only (by simp [confirmingWrites, Write.LeavesCursors])
  refine .bind (.ofExcept _) fun _ => ?_
  dsimp only
  split_ifs
  · exact .bind (.ofExcept _) fun _ => hwrites
  · exact hwrites

theorem handleMissingTransaction_leaves (p : PaymentWithInvoice) :
    Leaves (handleMissingTransaction p : Action A Unit) := by
  unfold handleMissingTransaction
  split_ifs
  · exact failAttempt_leaves p
  · exact .bind (.ofExcept _) fun _ => transaction_only (by simp [Write.LeavesCursors])
  · refine .bind (.perform trivial) fun now => ?_
    split_ifs
    · exact failAttempt_leaves p
    · trivial

theorem advancePayment_leaves (requiredConfirmations : ℤ) (p : PaymentWithInvoice) (n : ℤ) :
    Leaves (advancePayment requiredConfirmations p n : Action A Unit) := by
  unfold advancePayment
  split_ifs
  · exact moveToConfirming_leaves p n
  · exact moveToConfirming_leaves p n
  · exact transaction_only (by simp [Write.LeavesCursors])
  · trivial
  · exact settlePayment_leaves p n

theorem runPaymentConfirm_leaves {adapter : BlockchainAdapter A} (requiredConfirmations : ℤ)
    (h : ∀ txHash, Leaves (adapter.getConfirmations txHash)) :
    Leaves (runPaymentConfirm adapter requiredConfirmations) := by
  refine .bind expireOverdue_leaves fun _ => .bind (.request trivial) fun active =>
    .forEach fun p _ => ?_
  unfold confirmPayment
  split
  · trivial
  · split_ifs
    · trivial
    · refine .bind (h _).attempt fun r => ?_
      split
      · exact handleMissingTransaction_leaves p
      · trivial
      · exact advancePayment_leaves _ _ _

end Worker

/-! ## Programs that write no payment and no cursor -/

/-- The write stores a deposit address or an audit log entry. -/
def Write.Administrative : Write → Prop
  | .merchantWalletAddressCreate _ => True
  | .auditLogCreate _ => True
  | _ => False

/-- A request of the services that create invoices and set deposit addresses. -/
def Administrative : Op A → Prop
  | .prisma (.transaction ws) => ∀ w ∈ ws, w.Administrative
  | .prisma (.blockchainScanCursorUpsert _) => False
  | .other _ => False
  | _ => True

theorem Write.Administrative.leaves {w : Write} (h : w.Administrative) : w.LeavesCursors := by
  cases w <;> first | exact trivial | exact h.elim

theorem Administrative.leaves {op : Op A} (h : Administrative op) : LeavesCursors op := by
  unfold LeavesCursors
  split
  · exact h
  · exact fun w hw => (h w hw).leaves
  · trivial

namespace Api

theorem record_administrative (input : RecordAuditEventInput) :
    (record input : Action A Unit).Only Administrative :=
  .request (List.forall_mem_singleton.mpr trivial)

theorem set_administrative (adapter : BlockchainAdapter A) (organizationId userId : String)
    (input : SetWalletAddressInput) (ctx : RequestContext) :
    (set adapter organizationId userId input ctx).Only Administrative := by
  refine .bind (.ofExcept _) fun adapter => ?_
  split_ifs
  · trivial
  · refine .bind (.perform trivial) fun id => .bind (.perform trivial) fun createdAt =>
      .bind (.request trivial) fun wallet => .bind (record_administrative _) fun _ => trivial

theorem getDepositAddress_administrative (mode : BlockchainMode)
    (organizationId network token : String) :
    (getDepositAddress mode organizationId network token : Action A String).Only
      Administrative := by
  refine .bind (.request trivial) fun existing => ?_
  split
  · trivial
  · refine .bind (.perform trivial) fun address => .bind (.perform trivial) fun id =>
      .bind (.perform trivial) fun createdAt => .bind ?_ fun _ => trivial
    exact .request (List.forall_mem_singleton.mpr trivial)
  · trivial

theorem create_administrative (mode : BlockchainMode) (organizationId apiKeyId : String)
    (input : CreateInvoiceInput) (ctx : RequestContext) :
    (create mode organizationId apiKeyId input ctx : Action A Invoice).Only Administrative := by
  have hfresh : (createFresh mode organizationId apiKeyId input ctx :
      Action A Invoice).Only Administrative := by
    refine .bind (.ofExcept _) fun _ => .bind (getDepositAddress_administrative _ _ _ _)
      fun address => .bind (.perform trivial) fun id => .bind (.perform trivial) fun now =>
      .bind (.request trivial) fun invoice => .bind (record_administrative _) fun _ => trivial
  unfold create
  split
  · exact hfresh
  · refine .bind (.request trivial) fun existing => ?_
    split
    · exact .ofExcept _
    · exact hfresh

end Api

end CryptoPay
