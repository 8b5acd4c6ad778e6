import CryptoPay.Async.Timed
import CryptoPay.Payments.Requests
import CryptoPay.Worker.CursorFootprint

/-!
# What a pass asks for after what it has asked for

The requests of one pass, newest first, say how far it has come: `snapshot` is
what its `payment.findMany` returned, `asked` are the transactions it has asked
the adapter about, and `answer` is the last answer, as long as the pass has only
read the clock or generated an id since. `Expected` is what a job may request
next.

Results:
* `jobs_obey`: every job makes expected requests only. A confirm pass goes on
  after an answer, ends at an error, and never asks about a transaction twice.
* `jobs_end`: how a confirm pass may end after the answer that a transaction is
  there.
-/

namespace CryptoPay

open Async

theorem Write.Administrative.sparesPayments {w : Write} (h : w.Administrative) :
    w.SparesPayments := by
  cases w <;> first | exact trivial | exact h.elim

namespace Worker

/-- Requests with their replies, newest first. -/
abbrev Requests := List (Event (effects adapterCalls))

/-! ## What has been requested -/

/-- What `payment.findMany` returned. -/
def readBy : Event (effects adapterCalls) → Option (List PaymentWithInvoice)
  | ⟨_, .prisma (.paymentFindMany _), .ok ps⟩ => some ps
  | _ => none

/-- The payments that the pass goes through. -/
def snapshot (h : Requests) : List PaymentWithInvoice := (h.findSome? readBy).getD []

/-- The transaction that the adapter was asked about, and what it answered. -/
def answeredBy : Event (effects adapterCalls) → Option (String × Except AdapterError ℤ)
  | ⟨_, .other (.getConfirmations txHash), r⟩ => some (txHash, r)
  | _ => none

/-- The transactions that the adapter was asked about. -/
def asked (h : Requests) : List String := (h.filterMap answeredBy).map Prod.fst

/-- The request does nothing about an answer yet. -/
def pauses : Op adapterCalls → Bool
  | .now => true
  | .generateId _ => true
  | _ => false

/-- The last answer about a transaction, if nothing was done about it yet. -/
def answer : Requests → Option (String × Except AdapterError ℤ)
  | [] => none
  | ev :: h =>
    match answeredBy ev with
    | some a => some a
    | none => if pauses ev.op then answer h else none

/-- The last request failed in a way that no pass goes on after. -/
def Refused : Requests → Prop
  | ⟨_, .prisma _, .error _⟩ :: _ => True
  | ⟨_, .other (.getConfirmations _), .error .rpc⟩ :: _ => True
  | _ => False

/-- The adapter has handed the transfer out. -/
def HandedOut (t : TokenTransfer) (h : Requests) : Prop :=
  ∃ pid a b ts, (⟨pid, .other (.getTokenTransfers a b), .ok ts⟩ : Event (effects adapterCalls)) ∈ h ∧
    t ∈ ts

section Readings

variable {pid : ℕ} {h : Requests} {ev : Event (effects adapterCalls)}

@[simp] theorem answer_ask {txHash : String} {r : Except AdapterError ℤ} :
    answer ((⟨pid, .other (.getConfirmations txHash), r⟩ : Event (effects adapterCalls)) :: h) =
      some (txHash, r) := rfl

@[simp] theorem answer_now {t : Time} :
    answer ((⟨pid, .now, t⟩ : Event (effects adapterCalls)) :: h) = answer h := rfl

@[simp] theorem answer_generateId {stem s : String} :
    answer ((⟨pid, .generateId stem, s⟩ : Event (effects adapterCalls)) :: h) = answer h := rfl

@[simp] theorem answer_prisma {call : PrismaCall} {r : Except Error call.Ret} :
    answer ((⟨pid, .prisma call, r⟩ : Event (effects adapterCalls)) :: h) = none := rfl

theorem readBy_eq_none (hev : ∀ status, ev.op ≠ .prisma (.paymentFindMany status)) :
    readBy ev = none := by
  unfold readBy
  split
  · exact absurd rfl (hev _)
  · rfl

theorem answeredBy_eq_none (hev : ∀ x, ev.op ≠ .other (.getConfirmations x)) :
    answeredBy ev = none := by
  unfold answeredBy
  split
  · exact absurd rfl (hev _)
  · rfl

/-- Only `payment.findMany` changes what the pass goes through. -/
theorem snapshot_of_readBy (hev : readBy ev = none) : snapshot (ev :: h) = snapshot h := by
  simp only [snapshot, List.findSome?_cons, hev]

theorem snapshot_cons (hev : ∀ status, ev.op ≠ .prisma (.paymentFindMany status)) :
    snapshot (ev :: h) = snapshot h := snapshot_of_readBy (readBy_eq_none hev)

@[simp] theorem snapshot_transaction {ws : List Write} {r : Except Error Unit} :
    snapshot ((⟨pid, .prisma (.transaction ws), r⟩ : Event (effects adapterCalls)) :: h) =
      snapshot h := snapshot_cons fun _ => nofun

@[simp] theorem snapshot_read {status : List PaymentStatus} {ps : List PaymentWithInvoice} :
    snapshot ((⟨pid, .prisma (.paymentFindMany status), .ok ps⟩ : Event (effects adapterCalls)) :: h)
      = ps := rfl

theorem answeredBy_eq_some {x : String} {r : Except AdapterError ℤ} :
    answeredBy ev = some (x, r) ↔ ∃ q, ev = ⟨q, .other (.getConfirmations x), r⟩ := by
  constructor
  · intro h
    unfold answeredBy at h
    split at h
    · cases h
      exact ⟨_, rfl⟩
    · cases h
  · rintro ⟨q, rfl⟩
    rfl

/-- A transaction that was asked about. -/
theorem mem_asked {x : String} :
    x ∈ asked h ↔
      ∃ q r, (⟨q, .other (.getConfirmations x), r⟩ : Event (effects adapterCalls)) ∈ h := by
  constructor
  · intro hx
    obtain ⟨⟨y, r⟩, hmem, rfl⟩ := List.mem_map.mp hx
    obtain ⟨ev, hev, ha⟩ := List.mem_filterMap.mp hmem
    obtain ⟨q, rfl⟩ := answeredBy_eq_some.mp ha
    exact ⟨q, r, hev⟩
  · rintro ⟨q, r, hev⟩
    exact List.mem_map.mpr ⟨(x, r), List.mem_filterMap.mpr ⟨_, hev, rfl⟩, rfl⟩

theorem asked_cons_of_ne (hev : ∀ x, ev.op ≠ .other (.getConfirmations x)) :
    asked (ev :: h) = asked h := by
  simp only [asked, List.filterMap_cons, answeredBy_eq_none hev]

@[simp] theorem asked_prisma {call : PrismaCall} {r : Except Error call.Ret} :
    asked ((⟨pid, .prisma call, r⟩ : Event (effects adapterCalls)) :: h) = asked h :=
  asked_cons_of_ne fun _ => nofun

@[simp] theorem asked_ask {x : String} {r : Except AdapterError ℤ} :
    asked ((⟨pid, .other (.getConfirmations x), r⟩ : Event (effects adapterCalls)) :: h) =
      x :: asked h := rfl

/-- The answer stands while the pass reads the clock and generates ids. -/
theorem answer_eq_some {x : String} {r : Except AdapterError ℤ} (ha : answer h = some (x, r)) :
    ∃ since q before, h = since ++ ⟨q, .other (.getConfirmations x), r⟩ :: before ∧
      ∀ ev ∈ since, pauses ev.op = true := by
  induction h with
  | nil => cases ha
  | cons ev h ih =>
    simp only [answer] at ha
    split at ha
    · rename_i a hby
      cases ha
      obtain ⟨q, rfl⟩ := answeredBy_eq_some.mp hby
      exact ⟨[], q, h, rfl, fun _ hev => absurd hev List.not_mem_nil⟩
    · split_ifs at ha with hp
      obtain ⟨since, q, before, rfl, hall⟩ := ih ha
      exact ⟨ev :: since, q, before, rfl, List.forall_mem_cons.mpr ⟨hp, hall⟩⟩

theorem asked_of_answer {x : String} {r : Except AdapterError ℤ} (ha : answer h = some (x, r)) :
    x ∈ asked h := by
  obtain ⟨since, q, before, rfl, -⟩ := answer_eq_some ha
  exact mem_asked.mpr ⟨q, r, List.mem_append_right _ List.mem_cons_self⟩

end Readings

/-! ## What is expected -/

/-- The last thing that the pass has learned is the adapter's answer about the payment. -/
structure Current (h : Requests) (q : PaymentWithInvoice) (x : String)
    (r : Except AdapterError ℤ) : Prop where
  read : q ∈ snapshot h
  txHash : q.txHash = some x
  answer : answer h = some (x, r)

/-- No two payments that the pass goes through have the same transaction. -/
def Distinct (h : Requests) : Prop := ((snapshot h).map fun p => p.txHash).Nodup

/-- What the pass does about the payment after the answer. -/
inductive Advance (requiredConfirmations : ℤ) (h : Requests) (q : PaymentWithInvoice) :
    Except AdapterError ℤ → Commit → Prop where
  | confirm {n} (status : q.status = .detected ∨ q.status = .reorgDetected) :
      Advance requiredConfirmations h q (.ok n) (.confirm q n)
  | refresh {n} (detected : q.status ≠ .detected) (reorg : q.status ≠ .reorgDetected) :
      Advance requiredConfirmations h q (.ok n) (.refresh q n)
  | settle {n confirmedAt paidAt eventId} (detected : q.status ≠ .detected)
      (reorg : q.status ≠ .reorgDetected) (enough : requiredConfirmations ≤ n) :
      Advance requiredConfirmations h q (.ok n) (.settle q n confirmedAt paidAt eventId)
  | fail {message} (status : q.status = .detected) :
      Advance requiredConfirmations h q (.error (.notFound message)) (.fail q)
  | reorg {message} (status : q.status = .confirming) :
      Advance requiredConfirmations h q (.error (.notFound message)) (.reorg q)
  /-- The pass has just read the clock. -/
  | giveUp {message} {now : Time} (detected : q.status ≠ .detected) (confirming : q.status ≠ .confirming)
      (read : ∃ pid before, h = ⟨pid, .now, now⟩ :: before)
      (elapsed : now - q.updatedAt ≥ REORG_GRACE_MS) :
      Advance requiredConfirmations h q (.error (.notFound message)) (.fail q)

/-- What a confirm pass may request after the requests `h`. -/
structure ConfirmExpected (requiredConfirmations : ℤ) (h : Requests) (op : Op adapterCalls) :
    Prop where
  live : ¬ Refused h
  read : ∀ status, op = .prisma (.paymentFindMany status) → status = activeStatuses
  commit : ∀ ws, op = .prisma (.transaction ws) → (∀ w ∈ ws, w.SparesPayments) ∨
    ∃ q x r m, Current h q x r ∧ Advance requiredConfirmations h q r m ∧ ws = m.writes
  ask : ∀ x, op = .other (.getConfirmations x) →
    (∃ q ∈ snapshot h, q.txHash = some x) ∧ (Distinct h → x ∉ asked h)
  resume : Distinct h → ∀ q x n, Current h q x (.ok n) → q.status = .reorgDetected →
    op = .prisma (.transaction (Commit.confirm q n).writes)

/-- What a scan pass may request after the requests `h`. -/
def ScanExpected (h : Requests) : Op adapterCalls → Prop
  | .prisma (.transaction ws) => (∀ w ∈ ws, w.SparesPayments) ∨
    ∃ i t paymentId detectedAt, ws = (Commit.detect i t paymentId detectedAt).writes ∧
      i.network = t.network ∧ HandedOut t h
  | .other (.getConfirmations _) => False
  | _ => True

/-- What a job may request after the requests `h`. -/
def Expected (requiredConfirmations : ℤ) : Job → Requests → Op adapterCalls → Prop
  | .scan, h => ScanExpected h
  | .confirm, h => ConfirmExpected requiredConfirmations h
  | .createInvoice .., _ => Administrative
  | .setWalletAddress .., _ => Administrative

/-- How a confirm pass may end: not after the answer that a missing transaction is back, unless
    the invoice of its payment is not `CONFIRMING`. -/
def Halted (h : Requests) : Prop :=
  Distinct h → ∀ q x n, Current h q x (.ok n) → q.status = .reorgDetected →
    q.invoice.status ≠ .confirming

theorem halted_of_answer {h : Requests} (ha : ∀ x n, answer h ≠ some (x, .ok n)) : Halted h :=
  fun _ _ x n hc => absurd hc.answer (ha x n)

/-! ## The confirm pass -/

section Confirm

variable {requiredConfirmations : ℤ} {pid : ℕ} {h : Requests} {x : String}
  {r : Except AdapterError ℤ} {q : PaymentWithInvoice} {xs : List PaymentWithInvoice}

/-- The pass has taken no snapshot yet. -/
structure Idle (h : Requests) : Prop where
  live : ¬ Refused h
  answer : answer h = none
  snapshot : snapshot h = []
  asked : asked h = []

/-- The payments `xs` are still to come, and there is nothing left to do about the others. -/
structure Ready (xs : List PaymentWithInvoice) (h : Requests) : Prop where
  live : ¬ Refused h
  split : ∃ done, snapshot h = done ++ xs ∧ ∀ y ∈ asked h, ∃ p ∈ done, p.txHash = some y
  settled : Distinct h → ∀ q x n, Current h q x (.ok n) → q.status ≠ .reorgDetected

/-- The adapter has answered about the payment `q`, and `xs` are still to come. -/
structure At (q : PaymentWithInvoice) (xs : List PaymentWithInvoice) (x : String)
    (r : Except AdapterError ℤ) (h : Requests) : Prop where
  live : ¬ Refused h
  split : ∃ done, snapshot h = done ++ q :: xs ∧
    ∀ y ∈ asked h, y = x ∨ ∃ p ∈ done, p.txHash = some y
  txHash : q.txHash = some x
  answer : answer h = some (x, r)

theorem Idle.expected {op : Op adapterCalls} (hi : Idle h)
    (hread : ∀ status, op = .prisma (.paymentFindMany status) → status = activeStatuses)
    (hask : ∀ x, op ≠ .other (.getConfirmations x))
    (hws : ∀ ws, op = .prisma (.transaction ws) → ∀ w ∈ ws, w.SparesPayments) :
    ConfirmExpected requiredConfirmations h op where
  live := hi.live
  read := hread
  commit ws hop := .inl (hws ws hop)
  ask x hop := absurd hop (hask x)
  resume _ _ _ _ hc := absurd (hi.answer.symm.trans hc.answer) nofun

/-- Among distinct transactions, the answer is about one payment only. -/
theorem At.unique (ha : At q xs x r h) (hd : Distinct h) {q' : PaymentWithInvoice} {x' : String}
    {r' : Except AdapterError ℤ} (hc : Current h q' x' r') : q' = q ∧ r' = r := by
  obtain ⟨rfl, rfl⟩ := Prod.mk.inj (Option.some.inj (hc.answer.symm.trans ha.answer))
  obtain ⟨done, hsnap, -⟩ := ha.split
  have hq : q ∈ snapshot h := hsnap ▸ List.mem_append_right _ List.mem_cons_self
  exact ⟨List.inj_on_of_nodup_map hd hc.read hq (hc.txHash.trans ha.txHash.symm), rfl⟩

/-- Nothing is left to do about the payment. -/
theorem At.ready (ha : At q xs x r h) (hr : ∀ n, r = .ok n → q.status ≠ .reorgDetected) :
    Ready xs h := by
  obtain ⟨done, hsnap, hasked⟩ := ha.split
  refine ⟨ha.live, ⟨done ++ [q], by rw [hsnap, List.append_assoc]; rfl, fun y hy => ?_⟩, ?_⟩
  · rcases hasked y hy with rfl | ⟨p, hp, hpy⟩
    · exact ⟨q, List.mem_append_right _ List.mem_cons_self, ha.txHash⟩
    · exact ⟨p, List.mem_append_left _ hp, hpy⟩
  · intro hd q' x' n hc
    obtain ⟨rfl, hr'⟩ := ha.unique hd hc
    exact hr n hr'.symm

/-- A transaction about the payment was committed. -/
theorem At.committed (ha : At q xs x r h) (ws : List Write) :
    Ready xs (⟨pid, .prisma (.transaction ws), .ok ()⟩ :: h) := by
  obtain ⟨done, hsnap, hasked⟩ := ha.split
  refine ⟨id, ⟨done ++ [q], ?_, fun y hy => ?_⟩, fun _ q' x' n hc => ?_⟩
  · refine snapshot_transaction.trans (hsnap.trans ?_)
    rw [List.append_assoc]
    rfl
  · rcases hasked y hy with rfl | ⟨p, hp, hpy⟩
    · exact ⟨q, List.mem_append_right _ List.mem_cons_self, ha.txHash⟩
    · exact ⟨p, List.mem_append_left _ hp, hpy⟩
  · cases hc.answer

/-- Reading the clock or generating an id. -/
theorem At.pause (ha : At q xs x r h) (pid : ℕ) (op : Op adapterCalls) (hop : pauses op = true)
    (a : (effects adapterCalls).Ret op) : At q xs x r (⟨pid, op, a⟩ :: h) := by
  obtain ⟨done, hsnap, hasked⟩ := ha.split
  have hlive : ¬ Refused (⟨pid, op, a⟩ :: h) := by
    cases op <;> first | exact id | cases hop
  have hans : CryptoPay.Worker.answer (⟨pid, op, a⟩ :: h) = some (x, r) := by
    cases op <;> first | exact ha.answer | cases hop
  refine ⟨hlive, ⟨done, ?_, fun y hy => hasked y ?_⟩, ha.txHash, hans⟩
  · rw [snapshot_cons (fun status hs => by cases hs; cases hop), hsnap]
  · rwa [asked_cons_of_ne (fun y hs => by cases hs; cases hop)] at hy

/-- After an answer that needs no resumption, the pass may read the clock and generate ids. -/
theorem At.expected_pause (ha : At q xs x r h) (hr : ∀ n, r = .ok n → q.status ≠ .reorgDetected)
    {op : Op adapterCalls} (hop : pauses op = true) :
    ConfirmExpected requiredConfirmations h op where
  live := ha.live
  read status hs := by rw [hs] at hop; cases hop
  commit ws hws := by rw [hws] at hop; cases hop
  ask y hy := by rw [hy] at hop; cases hop
  resume hd q' x' n hc hst := absurd hst ((ha.ready hr).settled hd q' x' n hc)

theorem At.expected (ha : At q xs x r h) {m : Commit} (hm : Advance requiredConfirmations h q r m) :
    ConfirmExpected requiredConfirmations h (.prisma (.transaction m.writes)) where
  live := ha.live
  read status hs := nomatch hs
  commit ws hws := by
    obtain ⟨done, hsnap, -⟩ := ha.split
    refine .inr ⟨q, x, r, m, ⟨?_, ha.txHash, ha.answer⟩, hm, ?_⟩
    · exact hsnap ▸ List.mem_append_right _ List.mem_cons_self
    · exact (PrismaCall.transaction.inj (Op.prisma.inj hws)).symm
  ask y hy := nomatch hy
  resume hd q' x' n hc hst := by
    obtain ⟨rfl, rfl⟩ := ha.unique hd hc
    cases hm with
    | confirm status => rfl
    | refresh detected reorg => exact absurd hst reorg
    | settle detected reorg enough => exact absurd hst reorg

/-- The transaction that the answer asks for, and what becomes of it. -/
theorem At.transaction_obeys (ha : At q xs x r h) {m : Commit}
    (hm : Advance requiredConfirmations h q r m) :
    (transaction m.writes : Action adapterCalls Unit).Obeys (ConfirmExpected requiredConfirmations)
      pid (fun _ => Ready xs) (fun _ => Halted) h := by
  refine Prog.obeys_request.mpr ⟨ha.expected hm, fun (r : Except Error Unit) => ⟨fun a hok => ?_, ?_⟩⟩
  · obtain rfl : r = .ok a := hok
    exact ha.committed m.writes
  · exact fun _ _ => halted_of_answer fun _ _ => nofun

/-- `moveToConfirming`: if its assertion throws, the invoice is not `CONFIRMING`. -/
theorem moveToConfirming_obeys {n : ℤ} (ha : At q xs x (.ok n) h)
    (hst : q.status = .detected ∨ q.status = .reorgDetected) :
    (moveToConfirming q n : Action adapterCalls Unit).Obeys (ConfirmExpected requiredConfirmations)
      pid (fun _ => Ready xs) (fun _ => Halted) h := by
  have hpay : (assertPayment q.status .confirming : Action adapterCalls Unit) = .ret () := by
    rcases hst with hst | hst <;> rw [hst] <;> rfl
  have hwrites : (transaction (confirmingWrites q n) : Action adapterCalls Unit).Obeys
      (ConfirmExpected requiredConfirmations) pid (fun _ => Ready xs) (fun _ => Halted) h :=
    ha.transaction_obeys (.confirm hst)
  simp only [moveToConfirming, hpay, Prog.ret_bind]
  split_ifs with hconf
  · refine Prog.obeys_bind.mpr (Prog.obeys_ofExcept.mpr ⟨fun _ _ => hwrites, fun _ _ => ?_⟩)
    intro hd q' x' n' hc _
    obtain ⟨rfl, -⟩ := ha.unique hd hc
    exact hconf
  · exact hwrites

/-- `failPayment` after the answer that the transaction is missing. -/
theorem failPayment_obeys {message : String} (ha : At q xs x (.error (.notFound message)) h)
    (hm : Advance requiredConfirmations h q (.error (.notFound message)) (.fail q)) :
    (failPayment q : Action adapterCalls Unit).Obeys (ConfirmExpected requiredConfirmations)
      pid (fun _ => Ready xs) (fun _ => Halted) h := by
  have hhalted : Halted h := halted_of_answer fun y n hy => by
    rw [ha.answer] at hy
    cases hy
  refine Prog.obeys_bind.mpr (Prog.obeys_ofExcept.mpr ⟨fun _ _ => ?_, fun _ _ => hhalted⟩)
  refine Prog.obeys_bind.mpr (Prog.obeys_ofExcept.mpr ⟨fun _ _ => ?_, fun _ _ => hhalted⟩)
  exact ha.transaction_obeys hm

theorem handleMissingTransaction_obeys {message : String}
    (ha : At q xs x (.error (.notFound message)) h) :
    (handleMissingTransaction q : Action adapterCalls Unit).Obeys
      (ConfirmExpected requiredConfirmations) pid (fun _ => Ready xs) (fun _ => Halted) h := by
  unfold handleMissingTransaction
  split_ifs with hdetected hconfirming
  · exact failPayment_obeys ha (.fail hdetected)
  · exact ha.transaction_obeys (.reorg hconfirming)
  · refine ⟨ha.expected_pause (fun n hn => nomatch hn) rfl, fun now => ?_⟩
    have hnow := ha.pause pid .now rfl now
    show Prog.Obeys _ _ _ _ (if _ then failPayment q else _) _
    split_ifs with helapsed
    · exact failPayment_obeys hnow (.giveUp hdetected hconfirming ⟨pid, h, rfl⟩ helapsed)
    · exact hnow.ready fun n hn => nomatch hn

theorem settlePayment_obeys {n : ℤ} (ha : At q xs x (.ok n) h) (hdetected : q.status ≠ .detected)
    (hreorg : q.status ≠ .reorgDetected) (henough : requiredConfirmations ≤ n) :
    (settlePayment q n : Action adapterCalls Unit).Obeys (ConfirmExpected requiredConfirmations)
      pid (fun _ => Ready xs) (fun _ => Halted) h := by
  have hpay : (assertPayment .confirming q.amountMatch.outcome.1 : Action adapterCalls Unit) =
      .ret () := by
    cases q.amountMatch <;> rfl
  have hinv : (assertInvoice .confirming q.amountMatch.outcome.2.1 : Action adapterCalls Unit) =
      .ret () := by
    cases q.amountMatch <;> rfl
  have hr : ∀ k, (Except.ok n : Except AdapterError ℤ) = .ok k → q.status ≠ .reorgDetected :=
    fun _ _ => hreorg
  simp only [settlePayment, hpay, hinv, Prog.ret_bind]
  refine ⟨ha.expected_pause hr rfl, fun confirmedAt => ?_⟩
  have ha₁ := ha.pause pid .now rfl confirmedAt
  -- the id and the transaction follow, whether the clock is read once more or not
  have hrest : ∀ (paidAt : Option Time) h', At q xs x (.ok n) h' →
      (generateId "evt" >>= fun eventId => transaction (finalWrites q n confirmedAt paidAt eventId) :
        Action adapterCalls Unit).Obeys (ConfirmExpected requiredConfirmations) pid
          (fun _ => Ready xs) (fun _ => Halted) h' := by
    intro paidAt h' ha'
    refine ⟨ha'.expected_pause hr rfl, fun eventId => ?_⟩
    exact (ha'.pause pid (.generateId "evt") rfl eventId).transaction_obeys
      (.settle hdetected hreorg henough)
  show Prog.Obeys _ _ _ _ (paidAtNow q.amountMatch.outcome.2.1 >>= _) _
  unfold paidAtNow
  split_ifs
  · refine ⟨ha₁.expected_pause hr rfl, fun paidAt => ?_⟩
    exact hrest (some paidAt) _ (ha₁.pause pid .now rfl paidAt)
  · exact hrest none _ ha₁

theorem advancePayment_obeys {n : ℤ} (ha : At q xs x (.ok n) h) :
    (advancePayment requiredConfirmations q n : Action adapterCalls Unit).Obeys
      (ConfirmExpected requiredConfirmations) pid (fun _ => Ready xs) (fun _ => Halted) h := by
  unfold advancePayment
  split_ifs with hreorg hdetected hless hsame
  · exact moveToConfirming_obeys ha (.inr hreorg)
  · exact moveToConfirming_obeys ha (.inl hdetected)
  · exact ha.transaction_obeys (.refresh hdetected hreorg)
  · exact ha.ready fun _ _ => hreorg
  · exact settlePayment_obeys ha hdetected hreorg (not_lt.mp hless)

/-- The payment is skipped. -/
theorem Ready.skip (hr : Ready (q :: xs) h) : Ready xs h := by
  obtain ⟨done, hsnap, hasked⟩ := hr.split
  refine ⟨hr.live, ⟨done ++ [q], by rw [hsnap, List.append_assoc]; rfl, fun y hy => ?_⟩, hr.settled⟩
  obtain ⟨p, hp, hpy⟩ := hasked y hy
  exact ⟨p, List.mem_append_left _ hp, hpy⟩

/-- The adapter has not been asked about the next payment. -/
theorem Ready.expected_ask (hr : Ready (q :: xs) h) (hx : q.txHash = some x) :
    ConfirmExpected requiredConfirmations h (.other (.getConfirmations x)) where
  live := hr.live
  read status hs := nomatch hs
  commit ws hws := nomatch hws
  ask y hy := by
    cases hy
    obtain ⟨done, hsnap, hasked⟩ := hr.split
    refine ⟨⟨q, hsnap ▸ List.mem_append_right _ List.mem_cons_self, hx⟩, fun hd hmem => ?_⟩
    obtain ⟨p, hp, hpx⟩ := hasked x hmem
    unfold Distinct at hd
    rw [hsnap, List.map_append, List.nodup_append] at hd
    exact hd.2.2 _ (List.mem_map_of_mem hp) _ (List.mem_map_of_mem List.mem_cons_self)
      (hpx.trans hx.symm)
  resume hd q' x' n hc hst := absurd hst (hr.settled hd q' x' n hc)

/-- The adapter has answered about the next payment. -/
theorem Ready.answered (hr : Ready (q :: xs) h) (hx : q.txHash = some x)
    (hlive : ¬ Refused (⟨pid, .other (.getConfirmations x), r⟩ :: h)) :
    At q xs x r (⟨pid, .other (.getConfirmations x), r⟩ :: h) := by
  obtain ⟨done, hsnap, hasked⟩ := hr.split
  refine ⟨hlive, ⟨done, hsnap, fun y hy => ?_⟩, hx, rfl⟩
  rcases List.mem_cons.mp hy with rfl | hy
  · exact .inl rfl
  · exact .inr (hasked y hy)

/-- The adapter is asked about the payment, and the answer is acted on. -/
theorem confirmPayment_obeys {validateAddress : String → Bool} (hready : Ready (q :: xs) h) :
    (confirmPayment (oracle validateAddress) requiredConfirmations q).Obeys
      (ConfirmExpected requiredConfirmations) pid (fun _ => Ready xs) (fun _ => Halted) h := by
  unfold confirmPayment
  cases htx : q.txHash with
  | none => exact hready.skip
  | some x =>
    dsimp only
    split_ifs
    · exact hready.skip
    refine Prog.obeys_bind.mpr (Prog.obeys_attempt.mpr (Prog.obeys_request.mpr
      ⟨hready.expected_ask htx, fun (r : Except AdapterError ℤ) => ⟨fun n hn => ?_, fun e he => ?_⟩⟩))
    · obtain rfl : r = .ok n := ok_of_mapError hn
      exact advancePayment_obeys (hready.answered htx id)
    · obtain ⟨e', he', rfl⟩ := error_of_mapError he
      obtain rfl : r = .error e' := he'
      cases e' with
      | notFound message => exact handleMissingTransaction_obeys (hready.answered htx id)
      | rpc =>
        refine halted_of_answer fun y n hy => ?_
        cases hy

theorem Idle.pause (hi : Idle h) (pid : ℕ) (op : Op adapterCalls) (hop : pauses op = true)
    (a : (effects adapterCalls).Ret op) : Idle (⟨pid, op, a⟩ :: h) := by
  cases op <;> first | exact ⟨id, hi.answer, hi.snapshot, hi.asked⟩ | cases hop

/-- A Prisma call that returned, and was not the snapshot. -/
theorem Idle.returned (hi : Idle h) {call : PrismaCall} {a : call.Ret}
    (hcall : ∀ status, call ≠ .paymentFindMany status) : Idle (⟨pid, .prisma call, .ok a⟩ :: h) := by
  refine ⟨id, rfl, ?_, asked_prisma.trans hi.asked⟩
  refine (snapshot_cons fun status hs => ?_).trans hi.snapshot
  exact hcall status (Op.prisma.inj hs)

/-- A Prisma call of the sweep. -/
theorem Idle.prisma_obeys (hi : Idle h) (call : PrismaCall)
    (hcall : ∀ status, call ≠ .paymentFindMany status)
    (hws : ∀ ws, call = .transaction ws → ∀ w ∈ ws, w.SparesPayments) :
    (prisma call : Action adapterCalls call.Ret).Obeys (ConfirmExpected requiredConfirmations) pid
      (fun _ => Idle) (fun _ => Halted) h := by
  refine Prog.obeys_request.mpr ⟨hi.expected (fun status hs => absurd (Op.prisma.inj hs) (hcall status)) (fun _ => nofun)
      fun ws hop => hws ws (Op.prisma.inj hop),
    fun (r : Except Error call.Ret) => ⟨fun a ha => ?_, fun _ _ => ?_⟩⟩
  · obtain rfl : r = .ok a := ha
    exact hi.returned hcall
  · exact halted_of_answer fun _ _ => nofun

theorem expireOverdueInvoices_obeys (hi : Idle h) :
    (expireOverdueInvoices : Action adapterCalls Unit).Obeys
      (ConfirmExpected requiredConfirmations) pid (fun _ => Idle) (fun _ => Halted) h := by
  refine ⟨hi.expected (fun _ => nofun) (fun _ => nofun) fun _ => nofun, fun now => ?_⟩
  have hi₁ := hi.pause pid .now rfl now
  show Prog.Obeys _ _ _ _ (prisma _ >>= _) _
  refine Prog.obeys_bind.mpr ((hi₁.prisma_obeys (.invoiceFindMany (overdueWhere now))
    (fun _ => nofun) fun _ => nofun).post (fun overdue h' hi' => ?_) fun _ _ hx => hx)
  refine Prog.Obeys.forEach (fun _ => Idle) (fun i _ h'' hi'' => ?_) hi'
  refine ⟨hi''.expected (fun _ => nofun) (fun _ => nofun) fun _ => nofun, fun eventId => ?_⟩
  refine (hi''.pause pid (.generateId "evt") rfl eventId).prisma_obeys (.transaction _)
    (fun _ => nofun) fun ws hws => ?_
  cases hws
  simp [createWebhookEvent, Write.SparesPayments]

theorem runPaymentConfirm_obeys {validateAddress : String → Bool} :
    (runPaymentConfirm (oracle validateAddress) requiredConfirmations).Obeys
      (ConfirmExpected requiredConfirmations) pid (fun _ => Ready []) (fun _ => Halted) [] := by
  have hidle : Idle ([] : Requests) := ⟨id, rfl, rfl, rfl⟩
  refine Prog.obeys_bind.mpr ((expireOverdueInvoices_obeys hidle).post (fun _ h hi => ?_)
    fun _ _ hx => hx)
  refine Prog.obeys_bind.mpr (Prog.obeys_request.mpr ⟨hi.expected
    (fun status hs => (PrismaCall.paymentFindMany.inj (Op.prisma.inj hs)).symm) (fun _ => nofun)
    fun _ => nofun, fun (r : Except Error (List PaymentWithInvoice)) => ⟨fun active hok => ?_, fun _ _ => ?_⟩⟩)
  · obtain rfl : r = .ok active := hok
    refine Prog.Obeys.forEach Ready (fun q xs h' hr => confirmPayment_obeys hr) ⟨id, ⟨[], rfl, ?_⟩, ?_⟩
    · intro y hy
      have hnil : asked h = [] := hi.asked
      exact absurd (hnil ▸ asked_prisma ▸ hy : y ∈ []) List.not_mem_nil
    · intro _ q x n hc
      cases hc.answer
  · exact halted_of_answer fun _ _ => nofun

end Confirm

/-! ## The scan pass -/

section Scan

variable {pid : ℕ} {h : Requests}

theorem HandedOut.mono {t : TokenTransfer} {h' : Requests} (ht : HandedOut t h) (hs : h <:+ h') :
    HandedOut t h' := by
  obtain ⟨q, a, b, ts, hev, hmem⟩ := ht
  exact ⟨q, a, b, ts, hs.subset hev, hmem⟩

/-- What is promised of a program that is handed transfers. -/
abbrev AllHandedOut (ts : List TokenTransfer) (h : Requests) : Prop := ∀ t ∈ ts, HandedOut t h

theorem AllHandedOut.mono {ts : List TokenTransfer} {h' : Requests} (ht : AllHandedOut ts h)
    (hs : h <:+ h') : AllHandedOut ts h' := fun t hmem => (ht t hmem).mono hs

theorem creditTransfer_obeys {t : TokenTransfer} {ts : List TokenTransfer} {i : Invoice}
    (hi : i.network = t.network) (ht : HandedOut t h) (hts : AllHandedOut ts h) :
    (creditTransfer t i : Action adapterCalls Unit).Obeys ScanExpected pid
      (fun _ => AllHandedOut ts) (fun _ _ => True) h := by
  refine Prog.obeys_bind.mpr (Prog.obeys_request.mpr ⟨trivial, fun (r : Except Error (Option Payment)) =>
    ⟨fun alreadySeen _ => ?_, fun _ _ => trivial⟩⟩)
  have hs := List.suffix_cons
    (⟨pid, .prisma (.paymentFindByTxHash i.network t.txHash), r⟩ : Event (effects adapterCalls)) h
  split_ifs
  · exact hts.mono hs
  · -- the two assertions are about constants and pass
    refine ⟨trivial, fun paymentId => ⟨trivial, fun detectedAt => ?_⟩⟩
    have hs' := (hs.trans (List.suffix_cons (⟨pid, .generateId "pay", paymentId⟩ :
      Event (effects adapterCalls)) _)).trans (List.suffix_cons (⟨pid, .now, detectedAt⟩ :
      Event (effects adapterCalls)) _)
    exact Prog.obeys_request.mpr ⟨.inr ⟨i, t, paymentId, detectedAt, rfl, hi, ht.mono hs'⟩, fun r =>
      ⟨fun _ _ => hts.mono (hs'.trans (List.suffix_cons _ _)), fun _ _ => trivial⟩⟩

theorem passTransfer_obeys {t : TokenTransfer} {ts : List TokenTransfer}
    (hts : AllHandedOut (t :: ts) h) :
    (passTransfer t : Action adapterCalls Unit).Obeys ScanExpected pid
      (fun _ => AllHandedOut ts) (fun _ _ => True) h := by
  have ht : HandedOut t h := hts t List.mem_cons_self
  have hrest : AllHandedOut ts h := fun t' ht' => hts t' (List.mem_cons_of_mem t ht')
  refine ⟨trivial, fun _ => ?_⟩
  show Prog.Obeys _ _ _ _ (matchTransfer t >>= _) _
  refine Prog.obeys_bind.mpr (Prog.obeys_bind.mpr (Prog.obeys_request.mpr
    ⟨trivial, fun (r : Except Error (List Invoice)) => ⟨fun candidates _ => ?_, fun _ _ => trivial⟩⟩))
  have hs : h <:+ (⟨pid, .prisma (.invoiceFindMany (candidateWhere t)), r⟩ :
      Event (effects adapterCalls)) :: ⟨pid, .mark (.passed t), ()⟩ :: h :=
    (List.suffix_cons _ _).trans (List.suffix_cons _ _)
  cases hsel : selectMatchingInvoice toLowerAscii candidates t.detected t.amount with
  | none => exact ⟨trivial, fun _ => hrest.mono (hs.trans (List.suffix_cons _ _))⟩
  | some i =>
    have hmatch := (selectMatchingInvoice_mem hsel).2
    have hi : i.network = t.network := (matchesInvoice_iff.mp hmatch).1
    refine (creditTransfer_obeys hi (ht.mono hs) (hrest.mono hs)).post (fun _ h' hh => ?_)
      fun _ _ hx => hx
    exact ⟨trivial, fun _ => hh.mono (List.suffix_cons _ _)⟩

theorem runBlockchainScan_obeys {validateAddress : String → Bool} {network : String} :
    (runBlockchainScan (oracle validateAddress) network).Obeys ScanExpected pid (fun _ _ => True)
      (fun _ _ => True) [] := by
  refine Prog.obeys_bind.mpr (Prog.obeys_request.mpr ⟨trivial, fun _ =>
    ⟨fun cursor _ => ?_, fun _ _ => trivial⟩⟩)
  refine Prog.obeys_bind.mpr (Prog.obeys_request.mpr ⟨trivial, fun _ =>
    ⟨fun latestBlock _ => ?_, fun _ _ => trivial⟩⟩)
  dsimp only
  split_ifs
  · trivial
  refine Prog.obeys_bind.mpr (Prog.obeys_request.mpr ⟨trivial,
    fun (r : Except AdapterError (List TokenTransfer)) => ⟨fun ts hts => ?_, fun _ _ => trivial⟩⟩)
  obtain rfl : r = .ok ts := ok_of_mapError hts
  refine Prog.obeys_bind.mpr ((Prog.Obeys.forEach AllHandedOut (fun t ts h ht =>
    passTransfer_obeys ht) fun t ht => ?_).post (fun _ h _ => ?_) fun _ _ hx => hx)
  · exact ⟨pid, _, _, ts, List.mem_cons_self, ht⟩
  · exact Prog.obeys_request.mpr ⟨.inl (List.forall_mem_singleton.mpr trivial), fun _ =>
      ⟨fun _ _ => trivial, fun _ _ => trivial⟩⟩

end Scan

/-! ## The jobs -/

/-- How a job returns. -/
def Returned : Job → Requests → Prop
  | .confirm => Ready []
  | _ => fun _ => True

/-- How a job throws. -/
def Thrown : Job → Requests → Prop
  | .confirm => Halted
  | _ => fun _ => True

/-- Every job makes the requests that are expected of it, and ends as it is expected to. -/
theorem jobs_end (D : Setup) (j : Job) (pid : ℕ) : (launch D.deployment j).Obeys
    (Expected D.requiredConfirmations j) pid (fun _ => Returned j) (fun _ => Thrown j) [] := by
  have administrative : ∀ {p : Action adapterCalls Unit}, p.Only Administrative →
      p.Obeys (fun _ => Administrative) pid (fun _ _ => True) (fun _ _ => True) [] := fun hp =>
    Prog.Obeys.only hp (fun _ _ hop _ => hop) (fun _ _ _ _ _ => trivial) trivial
  cases j with
  | scan => exact runBlockchainScan_obeys
  | confirm => exact runPaymentConfirm_obeys
  | createInvoice organizationId apiKeyId input ctx =>
    exact administrative ((Api.create_administrative _ _ _ _ _).bind fun _ => trivial)
  | setWalletAddress organizationId userId input ctx =>
    exact administrative ((Api.set_administrative _ _ _ _ _).bind fun _ => trivial)

theorem jobs_obey (n : Replicas) (D : Setup) :
    (workload n D.deployment).Obeys (Expected D.requiredConfirmations) := fun j pid =>
  (jobs_end D j pid).post (fun _ _ _ => trivial) fun _ _ _ => trivial

end Worker

end CryptoPay
