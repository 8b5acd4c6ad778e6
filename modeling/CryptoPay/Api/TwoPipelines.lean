import CryptoPay.Api.Payments
import CryptoPay.Async.Lockstep
import CryptoPay.Blockchain.Oracle
import CryptoPay.Payments.LoneRuns
import CryptoPay.Worker.BlockchainScan
import CryptoPay.Worker.ConfirmOrder
import CryptoPay.Worker.PaymentConfirm

/-!
# The two pipelines

`payments.service.ts` (for `BLOCKCHAIN_MODE=fake`) and the two queues of the worker (for
`evm`) are written out twice. Here the functions of `PaymentsService` are taken over
any adapter, as the worker's are, and are run in lockstep with those of the worker: on
the same database, clock, generated ids and lost connections.

Results:
* `advanceConfirmations_fake` and its kin: over the fake adapter they are the functions
  that the API process runs.
* `bodies_alike`: the two loop bodies are alike on a payment that agrees with its invoice.
* `Steady.expired`: an expiry sweep keeps what the comparison assumes.
* `pipelines_agree`: the two passes, and the two loops over transfers.
-/

namespace CryptoPay.Api

open Async Data

namespace PaymentsService

variable {A : Signature}

/-- `expireOverdueInvoices` (lines 147–161). -/
def expireOverdueInvoices : Action A Unit := expireOverdue

/-- `tryMatchTransfer` (lines 189–232). -/
def tryMatchTransfer (transfer : TokenTransfer) : Action A Unit := matchTransfer transfer

/-- `failOrphanedPayment` (lines 276–283). -/
def failOrphanedPayment (payment : PaymentWithInvoice) : Action A Unit := failAttempt payment

/-- `moveToConfirming` (lines 285–299). -/
def moveToConfirming (payment : PaymentWithInvoice) (confirmations : ℤ) : Action A Unit := do
  assertPayment .detected .confirming
  assertInvoice .detected .confirming
  transaction (confirmingWrites payment confirmations)

/-- `finalizePayment` (lines 302–336). -/
def finalizePayment (payment : PaymentWithInvoice) (confirmations : ℤ) : Action A Unit :=
  settlePayment payment confirmations

/-- `this.blockchainRegistry.get(payment.network).getConfirmations(payment.txHash)`
    (line 247). -/
def confirmationsOf (adapter : BlockchainAdapter A) (payment : PaymentWithInvoice)
    (txHash : String) : Action A ℤ := do
  let adapter ← (Prog.ofExcept (registryGet adapter payment.network) : Action A _)
  adapter.getConfirmations txHash

/-- The loop body of `advanceConfirmations` after the adapter has answered (lines
    261–272). -/
def advanceWith (requiredConfirmations : ℤ) (payment : PaymentWithInvoice) (confirmations : ℤ) :
    Action A Unit := do
  if payment.status = .detected then
    moveToConfirming payment confirmations
  else if confirmations < requiredConfirmations then
    if confirmations ≠ payment.confirmations then
      transaction [.paymentUpdate payment.id { confirmations := some confirmations }]
  else
    finalizePayment payment confirmations

/-- The loop body of `advanceConfirmations` (lines 241–272). -/
def advancePayment (adapter : BlockchainAdapter A) (requiredConfirmations : ℤ)
    (payment : PaymentWithInvoice) : Action A Unit :=
  match payment.txHash with
  | none => return ()
  | some txHash => do
    if txHash = "" then return ()
    else
      match ← (confirmationsOf adapter payment txHash).attempt with
      | .error (.notFound _) => failOrphanedPayment payment
      | .error error => .throw error
      | .ok confirmations => advanceWith requiredConfirmations payment confirmations

/-- `advanceConfirmations` (lines 234–274). -/
def advanceConfirmations (adapter : BlockchainAdapter A) (requiredConfirmations : ℤ) :
    Action A Unit := do
  let active ←
    (prisma (.paymentFindMany [.detected, .confirming]) : Action A (List PaymentWithInvoice))
  .forEach (advancePayment adapter requiredConfirmations) active

/-- The two phases of `processPayments` that `runPaymentConfirm` has as well (lines 139
    and 141). -/
def expireAndAdvance (adapter : BlockchainAdapter A) (requiredConfirmations : ℤ) :
    Action A Unit := do
  expireOverdueInvoices
  advanceConfirmations adapter requiredConfirmations

end PaymentsService

/-! ## Over the fake adapter -/

theorem expireOverdueInvoices_fake :
    PaymentsService.expireOverdueInvoices = Api.expireOverdueInvoices := rfl

theorem tryMatchTransfer_fake (transfer : TokenTransfer) :
    PaymentsService.tryMatchTransfer transfer = Api.tryMatchTransfer transfer := rfl

theorem advanceConfirmations_fake (requiredConfirmations : ℤ) :
    PaymentsService.advanceConfirmations Fake.adapter requiredConfirmations =
      Api.advanceConfirmations requiredConfirmations := rfl

/-! ## What the comparison assumes -/

variable {A : Signature} {ω ι η : Type}

/-- What the adapter answers about a transaction depends on its hash only. -/
def AnswersBy (M : Machine (effects A) (World ω) (Input ι) (Act η)) (pid : ℕ)
    (adapter : BlockchainAdapter A) (answers : String → Except Error ℤ) : Prop :=
  ∀ txHash w evs x w', Runs M pid (adapter.getConfirmations txHash) w evs x w' → x = answers txHash

/-- No payment waits for a lost transaction; every payment is on the registered network, and
    an active one agrees with its invoice. The adapter finds the transactions of the
    confirming ones. -/
structure Steady (answers : String → Except Error ℤ) (db : Db) : Prop where
  noReorg : ∀ p ∈ db.payments, p.status ≠ .reorgDetected
  registered : ∀ p ∈ db.payments, p.network = "base"
  detected : ∀ p ∈ db.payments, p.status = .detected →
    ∀ i ∈ db.invoices, i.id = p.invoiceId → i.status = .detected
  confirming : ∀ p ∈ db.payments, p.status = .confirming →
    ∀ i ∈ db.invoices, i.id = p.invoiceId → i.status = .confirming
  found : ∀ p ∈ db.payments, p.status = .confirming →
    ∀ txHash message, p.txHash = some txHash → answers txHash ≠ .error (.notFound message)

variable {answers : String → Except Error ℤ} {B : Backend A ω ι η} {w w' : World ω} {pid : ℕ}
  {adapter : BlockchainAdapter A} {requiredConfirmations : ℤ} {p : PaymentWithInvoice}
  {db db' : Db} {evs : List (Event (effects A))}

/-! ## One payment -/

/-- What the snapshot holds of an active payment. -/
inductive Agreed (answers : String → Except Error ℤ) (p : PaymentWithInvoice) : Prop where
  | detected (hp : p.status = .detected) (hi : p.invoice.status = .detected)
  | confirming (hp : p.status = .confirming) (hi : p.invoice.status = .confirming)
      (hfound : ∀ txHash message, p.txHash = some txHash →
        answers txHash ≠ .error (.notFound message))

/-- The two bodies do the same with a count. -/
theorem advanceWith_eq (h : Agreed answers p) (confirmations : ℤ) :
    (PaymentsService.advanceWith requiredConfirmations p confirmations : Action A Unit) =
      Worker.advancePayment requiredConfirmations p confirmations := by
  unfold PaymentsService.advanceWith Worker.advancePayment
  cases h with
  | detected hp hi =>
    simp only [hp, if_true, reduceCtorEq, if_false]
    unfold PaymentsService.moveToConfirming Worker.moveToConfirming
    simp only [hp, hi]
    rfl
  | confirming hp hi hfound =>
    simp only [hp, reduceCtorEq, if_false]
    rfl

/-- The two bodies do the same with a transaction that is not found. -/
theorem missing_eq (hp : p.status = .detected) :
    (PaymentsService.failOrphanedPayment p : Action A Unit) =
      Worker.handleMissingTransaction p := by
  unfold Worker.handleMissingTransaction
  rw [if_pos hp]
  rfl

theorem bodies_alike (ha : AnswersBy (machine B) pid adapter answers) (h : Agreed answers p)
    (hn : p.network = "base") (w : World ω) :
    Alike (machine B) pid w (PaymentsService.advancePayment adapter requiredConfirmations p)
      (Worker.confirmPayment adapter requiredConfirmations p) := by
  unfold PaymentsService.advancePayment Worker.confirmPayment
  cases htx : p.txHash with
  | none => exact .refl _
  | some txHash =>
    dsimp only
    by_cases hempty : txHash = ""
    · rw [if_pos hempty, if_pos hempty]
      exact .refl _
    · rw [if_neg hempty, if_neg hempty]
      have hget : PaymentsService.confirmationsOf adapter p txHash =
          adapter.getConfirmations txHash := by
        unfold PaymentsService.confirmationsOf registryGet
        rw [if_pos hn]
        rfl
      unfold Worker.confirmTransaction
      rw [hget]
      refine (Alike.refl _).bind fun evs y w' hrun => ?_
      obtain ⟨_, ⟨⟩, hrun⟩ := hrun.attempt_inv
      obtain rfl := ha txHash _ _ _ _ hrun
      cases hanswer : answers txHash with
      | ok n =>
        show Alike _ pid w' (PaymentsService.advanceWith requiredConfirmations p n) _
        rw [advanceWith_eq h]
        exact .refl _
      | error e =>
        by_cases hmissing : ∃ message, e = .notFound message
        · obtain ⟨message, rfl⟩ := hmissing
          show Alike _ pid w' (PaymentsService.failOrphanedPayment p) _
          cases h with
          | detected hp hi =>
            rw [missing_eq hp]
            exact .refl _
          | confirming hp hi hfound => exact absurd hanswer (hfound _ message htx)
        · cases e <;> first | exact .throw | exact absurd ⟨_, rfl⟩ hmissing

/-! ## The expiry sweep -/

theorem Steady.congr (h : Steady answers db) (hrows : db.SameRows db') : Steady answers db' where
  noReorg p hp := h.noReorg p ((hrows.payments p).1 hp)
  registered p hp := h.registered p ((hrows.payments p).1 hp)
  detected p hp hs i hi := h.detected p ((hrows.payments p).1 hp) hs i ((hrows.invoices i).1 hi)
  confirming p hp hs i hi := h.confirming p ((hrows.payments p).1 hp) hs i ((hrows.invoices i).1 hi)
  found p hp := h.found p ((hrows.payments p).1 hp)

/-- The invoice is of no active payment. -/
def Unpaid (db : Db) (i : Invoice) : Prop :=
  ∀ p ∈ db.payments, p.status = .detected ∨ p.status = .confirming → p.invoiceId ≠ i.id

theorem Steady.unpaid (h : Steady answers db) {i : Invoice} (hi : i ∈ db.invoices)
    (hs : i.status = .pending) : Unpaid db i := by
  intro p hp hactive hid
  rcases hactive with hp' | hp'
  · rw [h.detected p hp hp' i hi hid.symm] at hs
    cases hs
  · rw [h.confirming p hp hp' i hi hid.symm] at hs
    cases hs

/-- The commit of one overdue invoice. -/
theorem Steady.expire {i : Invoice} {eventId : String} {now : Time} (h : Steady answers db)
    (hi : Unpaid db i) (he : (Commit.expire i eventId).Effect now db db') :
    Steady answers db' ∧ ∀ j, Unpaid db j → Unpaid db' j := by
  have hpayments : ∀ p, p ∈ db'.payments ↔ p ∈ db.payments := by
    intro p
    rw [he.payments]
    simp [Commit.paymentCreate, Commit.onPayment, Commit.paymentUpdate, Payment.updateWhere]
  have hinvoices : ∀ p ∈ db.payments, p.status = .detected ∨ p.status = .confirming →
      ∀ j ∈ db'.invoices, j.id = p.invoiceId → j ∈ db.invoices := by
    intro p hp hactive j hj hid
    rcases (he.invoices j).1 hj with ⟨k, hk, rfl⟩ | ⟨d, hd, -⟩
    · have hne : k.id ≠ i.id := by
        intro hki
        refine hi p hp hactive ?_
        rw [← hid, ← hki]
        exact (congrArg Invoice.id (Commit.terms_onInvoice (.expire i eventId) k) :)
      rw [show Commit.onInvoice (.expire i eventId) k = k from if_neg hne]
      exact hk
    · cases hd
  refine ⟨⟨?_, ?_, ?_, ?_, ?_⟩, fun j hj p hp => hj p ((hpayments p).1 hp)⟩
  · exact fun p hp => h.noReorg p ((hpayments p).1 hp)
  · exact fun p hp => h.registered p ((hpayments p).1 hp)
  · intro p hp hs j hj hid
    have hp' := (hpayments p).1 hp
    exact h.detected p hp' hs j (hinvoices p hp' (.inl hs) j hj hid) hid
  · intro p hp hs j hj hid
    have hp' := (hpayments p).1 hp
    exact h.confirming p hp' hs j (hinvoices p hp' (.inr hs) j hj hid) hid
  · exact fun p hp => h.found p ((hpayments p).1 hp)

theorem Unpaid.congr {i : Invoice} (h : Unpaid db i) (hrows : db.SameRows db') : Unpaid db' i :=
  fun p hp => h p ((hrows.payments p).1 hp)

/-- The loop body of the sweep. -/
theorem Steady.expireInvoice {i : Invoice} (h : Steady answers w.db) (hi : Unpaid w.db i)
    (hrun : Runs (machine B) pid (expireInvoice i) w evs (.ok ()) w') :
    Steady answers w'.db ∧ ∀ j, Unpaid w.db j → Unpaid w'.db j := by
  have hrun' : Runs (machine B) pid (generateId "evt" >>= fun eventId =>
      transaction (Commit.expire i eventId).writes) w evs (.ok ()) w' := hrun
  obtain ⟨eventId, w₁, _, _, -, hid, hcommit⟩ := hrun'.bind_ok
  obtain ⟨now, db₁, db₂, hrows, he, hrows'⟩ := lone_commit hcommit
  have hbefore : w.db.SameRows db₁ := (lone_generateId hid).trans hrows
  obtain ⟨hsteady, hunpaid⟩ := (h.congr hbefore).expire (hi.congr hbefore) he
  exact ⟨hsteady.congr hrows', fun j hj => (hunpaid j (hj.congr hbefore)).congr hrows'⟩

/-- A sweep that returns. -/
theorem Steady.expired (h : Steady answers w.db)
    (hrun : Runs (machine B) pid expireOverdue w evs (.ok ()) w') :
    Steady answers w'.db := by
  obtain ⟨now, w₁, _, _, -, hnow, hrun⟩ := hrun.bind_ok
  obtain ⟨overdue, w₂, _, _, -, hread, hloop⟩ := hrun.bind_ok
  obtain ⟨db₁, hrows, rfl, hrows'⟩ := lone_read (.invoiceFindMany (overdueWhere now))
    (fun db => db.invoices.filter (overdueWhere now).holds) (fun _ _ => rfl) hread
  have hsteady : Steady answers w₂.db := h.congr ((lone_dateNow hnow).trans hrows')
  have hunpaid : ∀ i ∈ db₁.invoices.filter (overdueWhere now).holds, Unpaid w₂.db i := by
    intro i hi
    obtain ⟨hi, hholds⟩ := Table.mem_filter.mp hi
    refine hsteady.unpaid ((hrows'.invoices i).2 ((hrows.invoices i).1 hi)) ?_
    exact (overdueWhere_holds.mp hholds).1
  have hkept := hloop.forEach_keeps
    (I := fun xs w _ => Steady answers w.db ∧ ∀ i ∈ xs, Unpaid w.db i) ?_ ?_ (l := [])
    ⟨hsteady, hunpaid⟩
  · exact hkept.1
  · intro xs s s' l hd hI
    exact ⟨hI.1.congr (drifts_rows hd), fun i hi => (hI.2 i hi).congr (drifts_rows hd)⟩
  · intro i xs s l evs s' hI hbody
    obtain ⟨hsteady, hunpaid⟩ := hI.1.expireInvoice (hI.2 i List.mem_cons_self) hbody
    exact ⟨hsteady, fun j hj => hunpaid j (hI.2 j (List.mem_cons_of_mem i hj))⟩

/-! ## The passes -/

/-- Both passes take the same snapshot. -/
theorem Steady.snapshot (h : Steady answers db) :
    db.paymentsWithInvoice [.detected, .confirming] =
      db.paymentsWithInvoice Worker.activeStatuses := by
  unfold Db.paymentsWithInvoice
  congr 1
  refine List.filter_congr fun p hp => ?_
  have hne := h.noReorg p hp
  cases hs : p.status <;> first | rfl | exact absurd hs hne

/-- What the snapshot holds. -/
theorem Steady.agreed (h : Steady answers db)
    (hp : p ∈ db.paymentsWithInvoice [.detected, .confirming]) :
    Agreed answers p ∧ p.network = "base" := by
  obtain ⟨hp, hs, hi, hid⟩ := mem_paymentsWithInvoice.mp hp
  refine ⟨?_, h.registered _ hp⟩
  rcases List.mem_cons.mp hs with hs | hs
  · exact .detected hs (h.detected _ hp hs _ hi hid)
  · have hs := List.mem_singleton.mp hs
    exact .confirming hs (h.confirming _ hp hs _ hi hid) (h.found _ hp hs)

theorem passes_alike (ha : AnswersBy (machine B) pid adapter answers) (h : Steady answers w.db) :
    Alike (machine B) pid w (PaymentsService.expireAndAdvance adapter requiredConfirmations)
      (Worker.runPaymentConfirm adapter requiredConfirmations) := by
  refine (Alike.refl _).bind fun evs _ w₁ hrun => ?_
  have hsteady := h.expired hrun
  refine .await ?_ ?_
  · intro w₂ i hd
    cases i <;> rfl
  · intro w₂ i r r' w₃ hd hr hr'
    have hsteady₂ := hsteady.congr (drifts_rows hd)
    cases i with
    | ok =>
      cases hr
      cases hr'
      show Alike _ pid w₂
        (.forEach (PaymentsService.advancePayment adapter requiredConfirmations)
          (w₂.db.paymentsWithInvoice [.detected, .confirming]))
        (.forEach (Worker.confirmPayment adapter requiredConfirmations)
          (w₂.db.paymentsWithInvoice Worker.activeStatuses))
      rw [← hsteady₂.snapshot]
      refine Alike.forEach fun p hp w => ?_
      obtain ⟨hagreed, hn⟩ := hsteady₂.agreed hp
      exact bodies_alike ha hagreed hn w
    | connectionError =>
      cases hr
      cases hr'
      exact .throw
    | id suffix => cases hr
    | other a => cases hr

/-! ## The loops over transfers -/

/-- The program without its marks, which no code stands for. -/
def unmarked {α : Type} : Action A α → Action A α
  | .ret a => .ret a
  | .throw e => .throw e
  | .await (.mark _) k => unmarked (k ())
  | .await op k => .await op fun r => unmarked (k r)

theorem unmarked_bind {α β : Type} (p : Action A α) (f : α → Action A β) :
    unmarked (p >>= f) = unmarked p >>= fun a => unmarked (f a) := by
  induction p with
  | ret a => rfl
  | throw e => rfl
  | await op k ih =>
    cases op with
    | mark m => exact ih ()
    | _ => exact congrArg (Prog.await _) (funext ih)

/-- A request that is not a mark. -/
def Awaited : Op A → Prop
  | .mark _ => False
  | _ => True

theorem unmarked_of_only {α : Type} {p : Action A α} (h : p.Only Awaited) : unmarked p = p := by
  induction p with
  | ret a => rfl
  | throw e => rfl
  | await op k ih =>
    cases op with
    | mark m => exact h.1.elim
    | _ => exact congrArg (Prog.await _) (funext fun r => ih r (h.2 r))

/-- The worker's loop, as its source has it. -/
theorem unmarked_matchTransfers (transfers : List TokenTransfer) :
    unmarked (matchTransfers transfers : Action A Unit) =
      .forEach Worker.tryMatchTransfer transfers := by
  induction transfers with
  | nil => rfl
  | cons t ts ih =>
    have hmatch : unmarked (matchTransfer t : Action A Unit) = matchTransfer t :=
      unmarked_of_only (matchTransfer_only (fun _ => trivial) trivial trivial t)
    have hbody : unmarked (passTransfer t : Action A Unit) = matchTransfer t := by
      show unmarked (matchTransfer t >>= fun _ => mark (.processed t)) = matchTransfer t
      rw [unmarked_bind, hmatch]
      exact Prog.bind_ret _
    show unmarked (passTransfer t >>= fun _ => matchTransfers ts) = _
    rw [unmarked_bind, hbody, ih]
    rfl

/-- On a database where the active payments agree with their invoices, the two passes are driven
    to the same state by the same stimuli, with the same outcome; on every database, so are the
    two loops over a list of transfers. -/
theorem pipelines_agree (B : Backend A ω ι η) (pid : ℕ) (adapter : BlockchainAdapter A)
    (answers : String → Except Error ℤ) (requiredConfirmations : ℤ) (w : World ω) :
    (AnswersBy (machine B) pid adapter answers → Steady answers w.db → ∀ l,
      (PaymentsService.expireAndAdvance adapter requiredConfirmations).drive (machine B) pid w l =
        (Worker.runPaymentConfirm adapter requiredConfirmations).drive (machine B) pid w l) ∧
      ∀ (transfers : List TokenTransfer) (l : List (Stimulus (Input ι) (Act η))),
        (Prog.forEach PaymentsService.tryMatchTransfer transfers).drive (machine B) pid w l =
          (unmarked (matchTransfers transfers)).drive (machine B) pid w l := by
  refine ⟨fun ha h l => (passes_alike ha h).drive_eq l, fun transfers l => ?_⟩
  rw [unmarked_matchTransfers]
  rfl

/-! ## Three invoices -/

def sameAnswer (r r' : Except AdapterError ℤ) : Bool := decide (r = r')

theorem eq_of_sameAnswer {r r' : Except AdapterError ℤ} (h : sameAnswer r r' = true) : r = r' :=
  of_decide_eq_true h

/-- The reply about a transaction is the one that its hash determines. -/
def determined (answers : String → Except AdapterError ℤ) :
    (call : AdapterCall) → adapterCalls.Ret call → Bool
  | .getConfirmations txHash, r => sameAnswer r (answers txHash)
  | _, _ => true

/-- The oracle with fixed answers. -/
def answeringBy (answers : String → Except AdapterError ℤ) :
    Backend adapterCalls Unit Answer Empty :=
  answering (fun _ => determined answers) fun _ act => nomatch act

theorem oracle_answersBy (answers : String → Except AdapterError ℤ) (D : String → Bool) (pid : ℕ) :
    AnswersBy (machine (answeringBy answers)) pid (oracle D)
      fun txHash => (answers txHash).mapError AdapterError.toError := by
  intro txHash w evs x w' hrun
  obtain ⟨w₁, i, r, w₂, -, hr, -, rfl, -⟩ := hrun.request_inv
  obtain ⟨k, o, ho, -⟩ := respond_other hr
  obtain ⟨r', -, hr'⟩ := Option.bind_eq_some_iff.mp ho
  split_ifs at hr' with haccepts
  cases hr'
  exact congrArg (Except.mapError AdapterError.toError) (eq_of_sameAnswer haccepts)

/-- Besides the two payments, an invoice is overdue. -/
def threeInvoices : World Unit where
  db := { Worker.twoPayments.db with
    invoices := ⟨Worker.trackedInvoice "inv_0" .pending :: Worker.twoPayments.db.invoices.rows,
      by decide⟩ }
  clock := 2000000
  other := ()

/-- The transaction of the first payment is missing, that of the second has three
    confirmations. -/
def twoAnswers (txHash : String) : Except AdapterError ℤ :=
  if txHash = "0x2" then .ok 3 else .error (.notFound "no receipt")

theorem threeInvoices_steady :
    Steady (fun txHash => (twoAnswers txHash).mapError AdapterError.toError) threeInvoices.db := by
  have hpayments : ∀ p ∈ threeInvoices.db.payments,
      p = Worker.trackedPayment "pay_1" "inv_1" "0x1" .detected ∨
        p = Worker.trackedPayment "pay_2" "inv_2" "0x2" .confirming := by
    intro p hp
    simpa [threeInvoices, Worker.twoPayments, Table.mem_def] using hp
  have hinvoices : ∀ i ∈ threeInvoices.db.invoices, i = Worker.trackedInvoice "inv_0" .pending ∨
      i = Worker.trackedInvoice "inv_1" .detected ∨
        i = Worker.trackedInvoice "inv_2" .confirming := by
    intro i hi
    simpa [threeInvoices, Worker.twoPayments, Table.mem_def] using hi
  refine ⟨?_, ?_, ?_, ?_, ?_⟩
  · intro p hp
    rcases hpayments p hp with rfl | rfl <;> decide
  · intro p hp
    rcases hpayments p hp with rfl | rfl <;> rfl
  · intro p hp hs i hi
    rcases hpayments p hp with rfl | rfl
    · rcases hinvoices i hi with rfl | rfl | rfl <;> decide
    · cases hs
  · intro p hp hs i hi
    rcases hpayments p hp with rfl | rfl
    · cases hs
    · rcases hinvoices i hi with rfl | rfl | rfl <;> decide
  · intro p hp hs txHash message htx
    rcases hpayments p hp with rfl | rfl
    · cases hs
    · cases htx
      exact fun h => by cases h

/-- The ids, the clock and the answers of one pass; in between the payments are reordered. -/
def oneRound : List (Stimulus (Input Answer) (Act Empty)) :=
  [.reply .ok, .reply .ok, .reply (.id "a"), .reply .ok,
    .act (.reorderPayments threeInvoices.db.payments.rows.reverse), .reply .ok,
    .reply (.other (.confirmations (.ok 3))), .reply .ok, .reply .ok, .reply (.id "b"), .reply .ok,
    .reply (.other (.confirmations (.error (.notFound "no receipt")))), .reply .ok]

/-- The overdue invoice expires, one payment is settled, and one fails. -/
theorem pipelines_agree_three :
    let drive := fun p : Action adapterCalls Unit =>
      p.drive (machine (answeringBy twoAnswers)) 0 threeInvoices oneRound
    drive (PaymentsService.expireAndAdvance (oracle fun _ => true) 3) =
        drive (Worker.runPaymentConfirm (oracle fun _ => true) 3) ∧
      (drive (Worker.runPaymentConfirm (oracle fun _ => true) 3)).map
          (fun y => (y.1, y.2.db.invoices.rows.map fun i => (i.id, i.status),
            y.2.db.payments.rows.map fun p => (p.id, p.status))) =
        some (some (.ok ()),
          [("inv_0", .expired), ("inv_1", .failed), ("inv_2", .paid)],
          [("pay_2", .confirmed), ("pay_1", .failed)]) :=
  ⟨(pipelines_agree _ 0 _ _ 3 threeInvoices).1 (oracle_answersBy twoAnswers _ 0)
    threeInvoices_steady oneRound, by decide⟩

end CryptoPay.Api
