import CryptoPay.Payments.Requests
import CryptoPay.Worker.CursorFootprint

/-!
# Which commits a program makes

`OnlyCommits K` says of a request that it commits what `K` allows at most: an invoice may be
created, and writes beside the payment tables may go along, but no cursor is written.

Results:
* `OnlyCommits.respond`: what such a request does to the tables.
* `CommitStep.credited`, `CommitStep.detected`: who creates a payment, and marks an invoice.
* `matchTransfer_onlyCommits`: the commits of `tryMatchTransfer`.
* `runPaymentConfirm_only`: what every request of a confirm pass has in common.
-/

namespace CryptoPay

open Async

variable {A : Signature} {ω ι η : Type}

/-- See the module text. -/
def OnlyCommits (K : Commit → Prop) : Op A → Prop
  | .prisma (.transaction ws) => (∃ m, K m ∧ ws = m.writes) ∨ ∀ w ∈ ws, w.Administrative
  | .prisma (.blockchainScanCursorUpsert _) => False
  | _ => True

/-- What a request with `OnlyCommits K` does to the payment tables. -/
inductive CommitStep (K : Commit → Prop) (now : Time) (db db' : Db) : Prop where
  | commit (m : Commit) (hm : K m ∨ ∃ d, m = .create d) (effect : m.Effect now db db')
  | quiet (rows : db.SameRows db')

variable {K : Commit → Prop} {now : Time} {db db' : Db}

theorem administrative_sameRows {ws : List Write} (hws : ∀ w ∈ ws, w.Administrative)
    (h : db.transaction now ws = .ok db') : db.SameRows db' := by
  induction ws generalizing db with
  | nil =>
    rw [transaction_nil h]
    exact .refl _
  | cons w ws ih =>
    obtain ⟨db₁, hw, hrest⟩ := transaction_cons h
    have hadmin := hws w List.mem_cons_self
    refine Db.SameRows.trans ?_ (ih (fun x hx => hws x (List.mem_cons_of_mem w hx)) hrest)
    cases w with
    | merchantWalletAddressCreate row =>
      obtain ⟨t, -, rfl⟩ := merchantWalletAddressCreate_ok hw
      exact ⟨fun _ => .rfl, fun _ => .rfl, fun _ => .rfl⟩
    | auditLogCreate row =>
      cases hw
      exact ⟨fun _ => .rfl, fun _ => .rfl, fun _ => .rfl⟩
    | _ => exact hadmin.elim

/-- The cursors stay as they are, and the payment tables change by a commit. -/
theorem OnlyCommits.exec {call : PrismaCall} (hc : OnlyCommits K (.prisma call : Op A)) :
    CommitStep K now db (call.exec now db).2 := by
  cases call with
  | transaction ws =>
    simp only [PrismaCall.exec]
    split
    · rename_i db' h
      rcases hc with ⟨m, hm, rfl⟩ | hadmin
      · exact .commit m (.inl hm) (Commit.effect h)
      · exact .quiet (administrative_sameRows hadmin h)
    · exact .quiet (.refl _)
  | invoiceCreate d =>
    simp only [PrismaCall.exec]
    split
    · rename_i db' h
      exact .commit (.create d) (.inr ⟨d, rfl⟩) (Commit.effect (transaction_singleton h))
    · exact .quiet (.refl _)
  | merchantWalletAddressUpsert row =>
    refine .quiet ?_
    simp only [PrismaCall.exec]
    rw [upsertWallet_only]
    exact ⟨fun _ => .rfl, fun _ => .rfl, fun _ => .rfl⟩
  | blockchainScanCursorUpsert network => exact hc.elim
  | _ => exact .quiet (.refl _)

theorem OnlyCommits.leaves {op : Op A} (h : OnlyCommits K op) : LeavesCursors op := by
  cases op with
  | prisma call =>
    cases call with
    | transaction ws =>
      rcases h with ⟨m, -, rfl⟩ | hadmin
      · intro w hw
        simp only [Commit.writes, List.mem_append, List.mem_map] at hw
        rcases hw with (((⟨_, -, rfl⟩ | ⟨_, -, rfl⟩) | ⟨_, -, rfl⟩) | ⟨_, -, rfl⟩) | ⟨_, -, rfl⟩ <;>
          trivial
      · exact fun w hw => (hadmin w hw).leaves
    | blockchainScanCursorUpsert network => exact h.elim
    | _ => trivial
  | _ => trivial

theorem OnlyCommits.respond {B : Backend A ω ι η} {pid : ℕ} {w w' : World ω} {op : Op A}
    {i : Input ι} {r : (effects A).Ret op} (hop : OnlyCommits K op)
    (h : respond B pid w op i = some (r, w')) : CommitStep K w.clock w.db w'.db := by
  cases op with
  | prisma call =>
    rcases respond_prisma h with ⟨-, rfl⟩ | ⟨-, rfl⟩
    · exact hop.exec
    · exact .quiet (.refl _)
  | now => exact (respond_now h).2 ▸ .quiet (.refl _)
  | generateId stem => exact respond_generateId h ▸ .quiet (.refl _)
  | generateFakeAddress => exact respond_generateFakeAddress h ▸ .quiet (.refl _)
  | cuid => exact respond_cuid h ▸ .quiet (.refl _)
  | mark m => exact respond_mark h ▸ .quiet (.refl _)
  | other op =>
    obtain ⟨k, o, -, rfl⟩ := respond_other h
    exact .quiet (.refl _)

/-! ## What such a step shows -/

/-- A payment that is new was created by a commit of the kind. -/
theorem CommitStep.credited {p : Payment} (h : CommitStep K now db db') (hp : p ∈ db'.payments)
    (hnew : ∀ q ∈ db.payments, q.id ≠ p.id) :
    ∃ m d, K m ∧ m.paymentCreate = some d ∧ p = d.row now := by
  cases h with
  | quiet rows => exact absurd rfl (hnew p ((rows.payments p).1 hp))
  | commit m hm effect =>
    rcases (effect.payments p).1 hp with ⟨q, hq, rfl⟩ | ⟨d, hd, rfl⟩
    · have hid : (m.onPayment now q).id = q.id :=
        (congrArg Payment.id (m.terms_onPayment now q) :)
      exact absurd hid.symm (hnew q hq)
    · refine ⟨m, d, hm.resolve_right ?_, hd, rfl⟩
      rintro ⟨d', rfl⟩
      cases hd

/-- An invoice that becomes `DETECTED` gets a payment in the same step. -/
theorem CommitStep.detected {i i' : Invoice} (h : CommitStep K now db db') (hi : i ∈ db.invoices)
    (hi' : i' ∈ db'.invoices) (hid : i'.id = i.id) (hbefore : i.status ≠ .detected)
    (hafter : i'.status = .detected) :
    ∃ p ∈ db'.payments, (∀ q ∈ db.payments, q.id ≠ p.id) ∧ p.invoiceId = i.id := by
  cases h with
  | quiet rows =>
    rw [Data.Table.eq_of_key ((rows.invoices i').1 hi') hi hid] at hafter
    exact absurd hafter hbefore
  | commit m hm effect =>
    have hrow : i' = m.onInvoice i := effect.invoice_eq hi hi' hid
    by_cases hu : ∃ u, m.invoiceUpdate = some u ∧ i.id = u.1
    · obtain ⟨u, hu, hname⟩ := hu
      rw [hrow, Commit.onInvoice_of_eq hu hname] at hafter
      cases m with
      | detect j t paymentId detectedAt =>
        cases hu
        have hp := (effect.payments _).2 (.inr ⟨detectedPayment paymentId detectedAt j t, rfl, rfl⟩)
        exact ⟨_, hp, effect.freshPayment _ rfl, hname.symm⟩
      | settle p n confirmedAt paidAt eventId =>
        cases hu
        have hstatus : p.amountMatch.outcome.2.1 = .detected := hafter
        cases hmatch : p.amountMatch <;> rw [hmatch] at hstatus <;> cases hstatus
      | create d => cases hu
      | reorg p => cases hu
      | refresh p n => cases hu
      | expire j eventId => cases hu; cases hafter
      | fail p => cases hu; cases hafter
      | confirm p n => cases hu; cases hafter
    · rw [hrow, Commit.onInvoice_of_ne fun u hmu h => hu ⟨u, hmu, h⟩] at hafter
      exact absurd hafter hbefore

theorem OnlyCommits.of_administrative {op : Op A} (h : Administrative op) : OnlyCommits K op := by
  unfold OnlyCommits
  split
  · exact .inr h
  · exact h.elim
  · trivial

/-! ## The scan -/

/-- The commit credits the transfer. -/
def Commit.CreditsTransfer (t : TokenTransfer) (m : Commit) : Prop :=
  ∃ i paymentId detectedAt, m = .detect i t paymentId detectedAt

theorem matchTransfer_onlyCommits (t : TokenTransfer) :
    (matchTransfer t : Action A Unit).Only (OnlyCommits (·.CreditsTransfer t)) := by
  refine .bind (.request trivial) fun candidates => ?_
  split
  · trivial
  · rename_i i _
    refine .bind (.request trivial) fun alreadySeen => ?_
    split_ifs
    · trivial
    · exact .bind (.ofExcept _) fun _ => .bind (.ofExcept _) fun _ => .bind (.perform trivial)
        fun paymentId => .bind (.perform trivial) fun detectedAt =>
          .request (.inl ⟨.detect i t paymentId detectedAt, ⟨i, paymentId, detectedAt, rfl⟩, rfl⟩)

/-! ## The confirmations -/

/-- A commit of the confirm pass: one that creates neither an invoice nor a payment. -/
def Commit.OfConfirm : Commit → Prop
  | .create _ => False
  | .detect .. => False
  | _ => True

/-- What the requests of a confirm pass need to have, for `F` to hold of them all. -/
structure ConfirmRequests (F : Op A → Prop) : Prop where
  invoices : ∀ w, F (.prisma (.invoiceFindMany w))
  payments : ∀ status, F (.prisma (.paymentFindMany status))
  commit : ∀ m : Commit, m.OfConfirm → F (.prisma (.transaction m.writes))
  now : F .now
  generateId : ∀ stem, F (.generateId stem)

namespace Worker

section Requests

variable {F : Op A → Prop} (hF : ConfirmRequests F)
include hF

theorem commits_only {m : Commit} (hm : m.OfConfirm) :
    (transaction m.writes : Action A Unit).Only F := .request (hF.commit m hm)

theorem expireOverdueInvoices_only : (expireOverdueInvoices : Action A Unit).Only F := by
  refine .bind (.perform hF.now) fun now => .bind (.request (hF.invoices _)) fun overdue => ?_
  refine .forEach fun i _ => ?_
  exact .bind (.ofExcept _) fun _ => .bind (.perform (hF.generateId _)) fun eventId =>
    commits_only hF (m := .expire i eventId) trivial

theorem failPayment_only (p : PaymentWithInvoice) : (failPayment p : Action A Unit).Only F :=
  .bind (.ofExcept _) fun _ => .bind (.ofExcept _) fun _ => commits_only hF (m := .fail p) trivial

theorem moveToConfirming_only (p : PaymentWithInvoice) (n : ℤ) :
    (moveToConfirming p n : Action A Unit).Only F := by
  have hwrites : (transaction (confirmingWrites p n) : Action A Unit).Only F :=
    commits_only hF (m := .confirm p n) trivial
  refine .bind (.ofExcept _) fun _ => ?_
  dsimp only
  split_ifs
  · exact .bind (.ofExcept _) fun _ => hwrites
  · exact hwrites

theorem handleMissingTransaction_only (p : PaymentWithInvoice) :
    (handleMissingTransaction p : Action A Unit).Only F := by
  unfold handleMissingTransaction
  split_ifs
  · exact failPayment_only hF p
  · exact .bind (.ofExcept _) fun _ => commits_only hF (m := .reorg p) trivial
  · refine .bind (.perform hF.now) fun now => ?_
    split_ifs
    · exact failPayment_only hF p
    · trivial

theorem finalizePayment_only (p : PaymentWithInvoice) (n : ℤ) :
    (finalizePayment p n : Action A Unit).Only F := by
  refine .bind (.ofExcept _) fun _ => .bind (.ofExcept _) fun _ => .bind (.perform hF.now)
    fun confirmedAt => .bind ?_ fun paidAt => .bind (.perform (hF.generateId _)) fun eventId =>
      commits_only hF (m := .settle p n confirmedAt paidAt eventId) trivial
  unfold paidAtNow
  split_ifs
  · exact .bind (.perform hF.now) fun now => trivial
  · trivial

theorem advancePayment_only (requiredConfirmations : ℤ) (p : PaymentWithInvoice) (n : ℤ) :
    (advancePayment requiredConfirmations p n : Action A Unit).Only F := by
  unfold advancePayment
  split_ifs
  · exact moveToConfirming_only hF p n
  · exact moveToConfirming_only hF p n
  · exact commits_only hF (m := .refresh p n) trivial
  · trivial
  · exact finalizePayment_only hF p n

theorem runPaymentConfirm_only {adapter : BlockchainAdapter A} (requiredConfirmations : ℤ)
    (h : ∀ txHash, (adapter.getConfirmations txHash).Only F) :
    (runPaymentConfirm adapter requiredConfirmations).Only F := by
  refine .bind (expireOverdueInvoices_only hF) fun _ => .bind (.request (hF.payments _))
    fun active => .forEach fun p _ => ?_
  unfold confirmPayment
  split
  · trivial
  · split_ifs
    · trivial
    · refine .bind (h _).attempt fun r => ?_
      split
      · exact handleMissingTransaction_only hF p
      · trivial
      · exact advancePayment_only hF _ _ _

end Requests

theorem ofConfirm_requests :
    ConfirmRequests (OnlyCommits Commit.OfConfirm : Op A → Prop) where
  invoices _ := trivial
  payments _ := trivial
  commit m hm := .inl ⟨m, hm, rfl⟩
  now := trivial
  generateId _ := trivial

end Worker

end CryptoPay
