import CryptoPay.Blockchain.Oracle
import CryptoPay.Payments.CalmSteps
import CryptoPay.Worker.PaymentConfirm

/-!
# What the loop bodies of a confirm pass do

The loop bodies of the confirm worker in a run that nothing disturbs (`calm`), with an adapter that
knows of each transaction how many confirmations it has or that it is missing.

Results:
* `confirmPayment_done`: a loop body makes one commit, none, or throws at an assertion, as the
  snapshot, the clock and the adapter's answer decide.
* `expireInvoice_made`, `confirmPayment_made`: where payments and invoices are paired, it performs
  its `Task`.
-/

namespace CryptoPay.Worker

open Async Data

/-! ## The adapter -/

/-- What the adapter reports of a transaction: its confirmations, or that it is missing. -/
def reports (answers : String → Option ℤ) : (call : AdapterCall) → adapterCalls.Ret call → Bool
  | .getConfirmations txHash, .ok n => answers txHash = some n
  | .getConfirmations txHash, .error (.notFound _) => answers txHash = none
  | .getConfirmations _, .error .rpc => false
  | _, _ => true

/-- An adapter with fixed answers. -/
def fixedAnswers (answers : String → Option ℤ) : Backend adapterCalls Unit Answer Empty :=
  answering (fun _ => reports answers) fun _ act => nomatch act

/-- A complete run of a pass. -/
abbrev CalmPass (pid : ℕ) (D : String → Bool) (requiredConfirmations : ℤ)
    (answers : String → Option ℤ) (w : World Unit) (evs : List (Event (effects adapterCalls)))
    (x : Except Error Unit) (w' : World Unit) : Prop :=
  Runs (calm (fixedAnswers answers)) pid (runPaymentConfirm (oracle D) requiredConfirmations)
    w evs x w'

variable {pid : ℕ} {answers : String → Option ℤ} {w w₁ w' : World Unit}
  {evs : List (Event (effects adapterCalls))}

/-- The adapter's answer about a transaction. -/
theorem calm_confirmations {txHash : String} {x : Except Error ℤ}
    (h : Runs (calm (fixedAnswers answers)) pid (callAdapter (.getConfirmations txHash) id) w evs x
      w') : Later w w' ∧ (∀ n, answers txHash = some n → x = .ok n) ∧
      (answers txHash = none → ∃ message, x = .error (.notFound message)) := by
  obtain ⟨t, k, r, ho, rfl, hlater, -⟩ := calm_other (Ledger.answering_readOnly · · · _) h
  obtain ⟨r', -, hr'⟩ := Option.bind_eq_some_iff.mp ho
  split_ifs at hr' with hreports
  cases hr'
  refine ⟨hlater, ?_⟩
  cases r with
  | ok n =>
    have hn : answers txHash = some n := of_decide_eq_true hreports
    rw [hn]
    exact ⟨fun k hk => by rw [← Option.some.inj hk]; rfl, nofun⟩
  | error e =>
    cases e with
    | notFound message =>
      have hn : answers txHash = none := of_decide_eq_true hreports
      rw [hn]
      exact ⟨nofun, fun _ => ⟨message, rfl⟩⟩
    | rpc => cases hreports

/-- Whatever is asked, there is an answer. -/
theorem fixedAnswers_total (pid : ℕ) (t : Time) (o : Unit) (call : AdapterCall) :
    ∃ k y, (fixedAnswers answers).respond pid t o call k = some y := by
  cases call with
  | getLatestBlock => exact ⟨.latestBlock (.ok 0), _, rfl⟩
  | getTransaction x => exact ⟨.transaction (.ok none), _, rfl⟩
  | getTokenTransfers a b => exact ⟨.tokenTransfers (.ok []), _, rfl⟩
  | getConfirmations txHash =>
    obtain ⟨r, hr⟩ : ∃ r, reports answers (.getConfirmations txHash) r = true := by
      cases hanswer : answers txHash with
      | some n => exact ⟨.ok n, decide_eq_true hanswer⟩
      | none => exact ⟨.error (.notFound ""), decide_eq_true hanswer⟩
    exact ⟨.confirmations r, (r, o), if_pos hr⟩

/-! ## Tasks -/

/-- The statuses of an active payment and of its invoice. -/
def Paired (payment : PaymentStatus) (invoice : InvoiceStatus) : Prop :=
  payment = .detected ∧ invoice = .detected ∨ payment = .confirming ∧ invoice = .confirming ∨
    payment = .reorgDetected ∧ invoice = .confirming

/-- The times that a loop body sees: at the grace check, as `confirmedAt` and as `paidAt`, and in
    the database when it commits. -/
structure Readings where
  now : Time
  confirmedAt : Time
  paidAt : Time
  committed : Time

/-- All of them are between two times. -/
structure Readings.Within (r : Readings) (t t' : Time) : Prop where
  now : t ≤ r.now ∧ r.now ≤ t'
  confirmedAt : t ≤ r.confirmedAt ∧ r.confirmedAt ≤ t'
  paidAt : t ≤ r.paidAt ∧ r.paidAt ≤ t'
  committed : t ≤ r.committed ∧ r.committed ≤ t'

/-- One time throughout. -/
def Readings.constant (t : Time) : Readings := ⟨t, t, t, t⟩

theorem Readings.Within.constant {t a b : Time} (h : a ≤ t) (h' : t ≤ b) :
    (Readings.constant t).Within a b := ⟨⟨h, h'⟩, ⟨h, h'⟩, ⟨h, h'⟩, ⟨h, h'⟩⟩

theorem Readings.Within.mono {r : Readings} {t t' u u' : Time} (h : r.Within t t') (hu : u ≤ t)
    (hu' : t' ≤ u') : r.Within u u' where
  now := ⟨le_trans hu h.now.1, le_trans h.now.2 hu'⟩
  confirmedAt := ⟨le_trans hu h.confirmedAt.1, le_trans h.confirmedAt.2 hu'⟩
  paidAt := ⟨le_trans hu h.paidAt.1, le_trans h.paidAt.2 hu'⟩
  committed := ⟨le_trans hu h.committed.1, le_trans h.committed.2 hu'⟩

/-- What is committed for a payment whose transaction is missing. -/
def missingVerdict (r : Readings) (p : PaymentWithInvoice) : Option Commit :=
  if p.status = .detected then some (.fail p)
  else if p.status = .confirming then some (.reorg p)
  else if r.now - p.updatedAt ≥ REORG_GRACE_MS then some (.fail p)
  else none

/-- What is committed for a payment whose transaction has `n` confirmations. -/
def presentVerdict (requiredConfirmations : ℤ) (r : Readings) (eventId : String)
    (p : PaymentWithInvoice) (n : ℤ) : Option Commit :=
  if p.status = .reorgDetected ∨ p.status = .detected then some (.confirm p n)
  else if n < requiredConfirmations then
    if n ≠ p.confirmations then some (.refresh p n) else none
  else some (.settle p n r.confirmedAt
    (if p.amountMatch.outcome.2.1 = .paid then some r.paidAt else none) eventId)

/-- What is committed for a payment, by its rows, the clock and the answer about its
    transaction. -/
def verdict (requiredConfirmations : ℤ) (r : Readings) (eventId : String) (answer : Option ℤ)
    (p : PaymentWithInvoice) : Option Commit :=
  match p.txHash with
  | none => none
  | some txHash =>
    if txHash = "" then none
    else
      match answer with
      | none => missingVerdict r p
      | some n => presentVerdict requiredConfirmations r eventId p n

/-- What one loop body is about. -/
inductive Task where
  | expire (invoice : Invoice)
  | confirm (payment : PaymentWithInvoice)

/-- The invoice of the task. -/
def Task.invoiceId : Task → String
  | .expire i => i.id
  | .confirm p => p.invoiceId

/-- The payment of the task. -/
def Task.paymentId : Task → Option String
  | .expire _ => none
  | .confirm p => some p.id

/-- The tasks are about different rows. -/
def Task.Apart (t t' : Task) : Prop :=
  t.invoiceId ≠ t'.invoiceId ∧ ∀ id, t.paymentId = some id → t'.paymentId ≠ some id

/-- The rows of the task are stored. -/
def Task.Ready (db : Db) : Task → Prop
  | .expire i => i ∈ db.invoices
  | .confirm p => Stored p db ∧ Paired p.status p.invoice.status

/-- A task, with what the loop body saw on the clock and the id it generated. -/
structure Entry where
  task : Task
  readings : Readings
  eventId : String

/-- What the loop body commits. -/
def Entry.commit (requiredConfirmations : ℤ) (answers : String → Option ℤ) (e : Entry) :
    Option Commit :=
  match e.task with
  | .expire i => some (.expire i e.eventId)
  | .confirm p =>
    verdict requiredConfirmations e.readings e.eventId (answers (p.txHash.getD "")) p

/-- The assertions before the commit hold of the snapshot. -/
def permitted : Commit → Bool
  | .fail p =>
    canTransitionPayment p.status .failed && canTransitionInvoice p.invoice.status .failed
  | .confirm p _ => canTransitionPayment p.status .confirming &&
    (p.invoice.status = .confirming || canTransitionInvoice p.invoice.status .confirming)
  | _ => true

/-- What the loop body commits before it returns: if an assertion throws, nothing. -/
def Entry.made (requiredConfirmations : ℤ) (answers : String → Option ℤ) (e : Entry) :
    Option Commit :=
  (e.commit requiredConfirmations answers).filter permitted

/-- The commit with its time. -/
def Entry.dated (requiredConfirmations : ℤ) (answers : String → Option ℤ) (e : Entry) :
    Option Dated :=
  (e.commit requiredConfirmations answers).map fun m => (m, e.readings.committed)

/-- The loop body that saw `e` made its commit and returned, or threw at an assertion. -/
structure Done (requiredConfirmations : ℤ) (answers : String → Option ℤ) (w w' : World Unit)
    (evs : List (Event (effects adapterCalls))) (x : Except Error Unit) (e : Entry) : Prop where
  readings : e.readings.Within w.clock w'.clock
  returns : x = .ok () ↔ (e.commit requiredConfirmations answers).all permitted = true
  written : writtenIn evs = (e.made requiredConfirmations answers).elim [] Commit.writes
  batch : Batch (((e.made requiredConfirmations answers).map fun m =>
    (m, e.readings.committed)).toList) w.db w'.db

/-- The entries are those of the tasks, and together they make the tables from `w` to `w'`. -/
structure Performed (requiredConfirmations : ℤ) (answers : String → Option ℤ) (tasks : List Task)
    (w w' : World Unit) (es : List Entry) : Prop where
  tasks : es.map Entry.task = tasks
  readings : ∀ e ∈ es, e.readings.Within w.clock w'.clock
  batch : Batch (es.filterMap (Entry.dated requiredConfirmations answers)) w.db w'.db
  clock : w.clock ≤ w'.clock

variable {requiredConfirmations : ℤ} {D : String → Bool} {x : Except Error Unit} {e : Entry}
  {p : PaymentWithInvoice} {m : Commit}

theorem Done.commit (hr : e.readings.Within w.clock w'.clock)
    (hm : e.commit requiredConfirmations answers = some m) (hperm : permitted m = true)
    (hwritten : writtenIn evs = m.writes) (hb : Batch [(m, e.readings.committed)] w.db w'.db) :
    Done requiredConfirmations answers w w' evs (.ok ()) e := by
  have hmade : e.made requiredConfirmations answers = some m := by
    rw [Entry.made, hm, Option.filter_some, if_pos hperm]
  refine ⟨hr, ?_, ?_, ?_⟩
  · simp [hm, hperm]
  · rw [hmade, hwritten]
    rfl
  · rw [hmade]
    exact hb

theorem Done.idle (hr : e.readings.Within w.clock w'.clock)
    (hm : e.commit requiredConfirmations answers = none) (hquiet : writtenIn evs = [])
    (hrows : w.db.SameRows w'.db) : Done requiredConfirmations answers w w' evs (.ok ()) e := by
  have hmade : e.made requiredConfirmations answers = none := by rw [Entry.made, hm]; rfl
  refine ⟨hr, ?_, ?_, ?_⟩
  · simp [hm]
  · rw [hmade, hquiet]
    rfl
  · rw [hmade]
    exact .of_sameRows hrows

theorem Done.throw {err : Error} (hr : e.readings.Within w.clock w'.clock)
    (hm : e.commit requiredConfirmations answers = some m) (hperm : permitted m = false)
    (hquiet : writtenIn evs = []) (hrows : w.db.SameRows w'.db) :
    Done requiredConfirmations answers w w' evs (.error err) e := by
  have hmade : e.made requiredConfirmations answers = none := by
    rw [Entry.made, hm, Option.filter_some, if_neg (by rw [hperm]; exact Bool.false_ne_true)]
  refine ⟨hr, ?_, ?_, ?_⟩
  · simp [hm, hperm]
  · rw [hmade, hquiet]
    rfl
  · rw [hmade]
    exact .of_sameRows hrows

/-- A body none of whose assertions throws performs its task. -/
theorem Done.performed (h : Done requiredConfirmations answers w w' evs x e)
    (hperm : (e.commit requiredConfirmations answers).all permitted = true) :
    x = .ok () ∧ Performed requiredConfirmations answers [e.task] w w' [e] := by
  have hmade : e.made requiredConfirmations answers = e.commit requiredConfirmations answers := by
    unfold Entry.made
    cases hm : e.commit requiredConfirmations answers with
    | none => rfl
    | some m =>
      rw [hm] at hperm
      rw [Option.filter_some]
      exact if_pos hperm
  have hb := h.batch
  rw [hmade] at hb
  refine ⟨h.returns.mpr hperm, rfl, fun e' he' => List.mem_singleton.mp he' ▸ h.readings, ?_,
    le_trans h.readings.now.1 h.readings.now.2⟩
  unfold Entry.dated
  cases hm : e.commit requiredConfirmations answers <;> rw [hm] at hb <;> simpa [hm] using hb

theorem Performed.trans {tasks tasks' : List Task} {es es' : List Entry}
    (h : Performed requiredConfirmations answers tasks w w₁ es)
    (h' : Performed requiredConfirmations answers tasks' w₁ w' es') :
    Performed requiredConfirmations answers (tasks ++ tasks') w w' (es ++ es') where
  tasks := by rw [List.map_append, h.tasks, h'.tasks]
  readings e he := by
    rcases List.mem_append.mp he with he | he
    · exact (h.readings e he).mono (le_refl _) h'.clock
    · exact (h'.readings e he).mono h.clock (le_refl _)
  batch := by
    rw [List.filterMap_append]
    exact h.batch.trans h'.batch
  clock := le_trans h.clock h'.clock

theorem Performed.nil (h : Later w w') : Performed requiredConfirmations answers [] w w' [] where
  tasks := rfl
  readings _ he := absurd he List.not_mem_nil
  batch := .of_sameRows h.rows
  clock := h.clock

/-! ## Loop bodies -/

/-- `failPayment` asserts, and commits. -/
theorem failPayment_eq (h : permitted (.fail p) = true) :
    (failPayment p : Action adapterCalls Unit) = transaction (Commit.fail p).writes := by
  obtain ⟨hp, hi⟩ := (Bool.and_eq_true _ _).mp h
  exact failAttempt_eq hp hi

theorem failPayment_throws (h : permitted (.fail p) = false) :
    ∃ err, (failPayment p : Action adapterCalls Unit) = .throw err := by
  unfold failPayment failAttempt assertPayment assertInvoice assertPaymentTransition
    assertInvoiceTransition
  rcases Bool.and_eq_false_iff.mp h with hp | hi
  · rw [hp]
    exact ⟨_, rfl⟩
  · rw [hi]
    cases canTransitionPayment p.status .failed
    · exact ⟨_, rfl⟩
    · exact ⟨_, rfl⟩

/-- `moveToConfirming` asserts, and commits. -/
theorem moveToConfirming_eq {n : ℤ} (h : permitted (.confirm p n) = true) :
    (moveToConfirming p n : Action adapterCalls Unit) =
      transaction (Commit.confirm p n).writes := by
  obtain ⟨hp, hi⟩ := (Bool.and_eq_true _ _).mp h
  unfold moveToConfirming assertPayment assertInvoice assertPaymentTransition
    assertInvoiceTransition
  rw [hp]
  by_cases hst : p.invoice.status = .confirming
  · rw [hst]
    rfl
  · rw [decide_eq_false hst, Bool.false_or] at hi
    rw [if_pos hst, hi]
    rfl

theorem moveToConfirming_throws {n : ℤ} (h : permitted (.confirm p n) = false) :
    ∃ err, (moveToConfirming p n : Action adapterCalls Unit) = .throw err := by
  unfold moveToConfirming assertPayment assertInvoice assertPaymentTransition
    assertInvoiceTransition
  rcases Bool.and_eq_false_iff.mp h with hp | hi
  · rw [hp]
    exact ⟨_, rfl⟩
  · obtain ⟨hst, hi⟩ := Bool.or_eq_false_iff.mp hi
    rw [if_pos (of_decide_eq_false hst), hi]
    cases canTransitionPayment p.status .confirming
    · exact ⟨_, rfl⟩
    · exact ⟨_, rfl⟩

section Bodies

variable {evs₀ : List (Event (effects adapterCalls))}

/-- A body that commits `m`, on some reading of the clock; `evs₀` is what it did before. -/
theorem done_commit (hacc : m.Acceptable w.db) (hp : m.paymentCreate = none)
    (hm : ∀ t, w.clock ≤ t → t ≤ w'.clock → ∃ e : Entry, e.task = .confirm p ∧
      e.readings.Within w₁.clock w'.clock ∧ e.readings.committed = t ∧
      e.commit requiredConfirmations answers = some m) (hperm : permitted m = true)
    (hlater : Later w₁ w) (hquiet : writtenIn evs₀ = [])
    (h : Runs (calm (fixedAnswers answers)) pid (transaction m.writes) w evs x w') :
    ∃ e, e.task = .confirm p ∧ Done requiredConfirmations answers w₁ w' (evs₀ ++ evs) x e := by
  obtain ⟨rfl, t, hle, hle', hb⟩ := calm_batch hacc hp h
  obtain ⟨e, htask, hwithin, hcommitted, he⟩ := hm t hle hle'
  subst hcommitted
  refine ⟨e, htask, .commit hwithin he hperm ?_ (hb.congr_left hlater.rows)⟩
  rw [writtenIn_append, hquiet, transaction_written h]
  rfl

/-- A body that throws before the commit `m`. -/
theorem done_throw {err : Error} {r : Readings}
    (hm : (Entry.mk (.confirm p) r "").commit requiredConfirmations answers = some m)
    (hr : r.Within w₁.clock w.clock) (hperm : permitted m = false) (hlater : Later w₁ w)
    (hquiet : writtenIn evs₀ = [])
    (h : Runs (calm (fixedAnswers answers)) pid (.throw err : Action adapterCalls Unit) w evs x w') :
    ∃ e, e.task = .confirm p ∧ Done requiredConfirmations answers w₁ w' (evs₀ ++ evs) x e := by
  obtain ⟨rfl, rfl, hd⟩ := h.throw_inv
  have hlater' := calm_drifts hd
  refine ⟨_, rfl, .throw (hr.mono (le_refl _) hlater'.clock) hm hperm ?_
    (hlater.trans hlater').rows⟩
  rw [List.append_nil, hquiet]

/-- A body that returns without a commit. -/
theorem done_idle {r : Readings}
    (hm : (Entry.mk (.confirm p) r "").commit requiredConfirmations answers = none)
    (hr : r.Within w₁.clock w.clock) (hlater : Later w₁ w) (hquiet : writtenIn evs₀ = [])
    (h : Runs (calm (fixedAnswers answers)) pid (.ret () : Action adapterCalls Unit) w evs x w') :
    ∃ e, e.task = .confirm p ∧ Done requiredConfirmations answers w₁ w' (evs₀ ++ evs) x e := by
  obtain ⟨rfl, rfl, hd⟩ := h.ret_inv
  have hlater' := calm_drifts hd
  refine ⟨_, rfl, .idle (hr.mono (le_refl _) hlater'.clock) hm ?_ (hlater.trans hlater').rows⟩
  rw [List.append_nil, hquiet]

/-- `failPayment`, after the readings `r` of the clock. -/
theorem failPayment_done {r : Readings} (hs : Present p w.db)
    (hm : ∀ t, (Entry.mk (.confirm p) { r with committed := t } "").commit requiredConfirmations
      answers = some (.fail p)) (hr : r.Within w₁.clock w.clock)
    (hlater : Later w₁ w) (hquiet : writtenIn evs₀ = [])
    (h : Runs (calm (fixedAnswers answers)) pid (failPayment p) w evs x w') :
    ∃ e, e.task = .confirm p ∧ Done requiredConfirmations answers w₁ w' (evs₀ ++ evs) x e := by
  cases hperm : permitted (.fail p) with
  | true =>
    rw [failPayment_eq hperm] at h
    have hacc : (Commit.fail p).Acceptable w.db :=
      hs.acceptable rfl rfl (by rintro _ ⟨⟩; rfl) (by rintro _ ⟨⟩; rfl) nofun
    refine done_commit hacc rfl (fun t hle hle' => ?_) hperm hlater hquiet h
    have hmono := hr.mono (le_refl _) (le_trans hle hle')
    exact ⟨⟨.confirm p, { r with committed := t }, ""⟩, rfl, ⟨hmono.now, hmono.confirmedAt,
      hmono.paidAt, le_trans hlater.clock hle, hle'⟩, rfl, hm t⟩
  | false =>
    obtain ⟨err, heq⟩ := failPayment_throws hperm
    rw [heq] at h
    exact done_throw (hm r.committed) hr hperm hlater hquiet h

/-- The loop body of `runPaymentConfirm`, once the adapter has answered that the transaction is
    missing. -/
theorem handleMissingTransaction_done {txHash : String} (hs : Present p w.db)
    (hhash : p.txHash = some txHash) (hne : txHash ≠ "") (hanswer : answers txHash = none)
    (hlater : Later w₁ w) (hquiet : writtenIn evs₀ = [])
    (h : Runs (calm (fixedAnswers answers)) pid (handleMissingTransaction p) w evs x w') :
    ∃ e, e.task = .confirm p ∧ Done requiredConfirmations answers w₁ w' (evs₀ ++ evs) x e := by
  have hverdict : ∀ r : Readings, (Entry.mk (.confirm p) r "").commit requiredConfirmations answers =
      missingVerdict r p := by
    intro r
    simp [Entry.commit, verdict, hhash, hne, hanswer]
  have hnow : (Readings.constant w.clock).Within w₁.clock w.clock :=
    .constant hlater.clock (le_refl _)
  unfold handleMissingTransaction at h
  split_ifs at h with hdetected hconfirming
  · refine failPayment_done hs (fun t => ?_) hnow hlater hquiet h
    rw [hverdict]
    exact if_pos hdetected
  · have hacc : (Commit.reorg p).Acceptable w.db :=
      hs.acceptable rfl rfl (by rintro _ ⟨⟩; rfl) nofun nofun
    refine done_commit hacc rfl (fun t hle hle' => ?_) rfl hlater hquiet h
    refine ⟨⟨.confirm p, .constant t, ""⟩, rfl,
      .constant (le_trans hlater.clock hle) hle', rfl, ?_⟩
    rw [hverdict]
    exact (if_neg hdetected).trans (if_pos hconfirming)
  · obtain ⟨now, w₂, evs₁, evs₂, rfl, hread, h⟩ := h.bind_returns fun _ _ _ hrun => by
      obtain ⟨t, hx, -⟩ := calm_now hrun
      exact ⟨t, hx⟩
    have hquiet₁ : writtenIn (evs₀ ++ evs₁) = [] := by
      rw [writtenIn_append, hquiet, unwriting_written dateNow_unwriting hread]
      rfl
    obtain ⟨_, ⟨⟩, hle, hle', hnext⟩ := calm_now hread
    have hlater₂ : Later w₁ w₂ := hlater.trans hnext
    have hnow : (Readings.constant now).Within w₁.clock w₂.clock :=
      .constant (le_trans hlater.clock hle) hle'
    rw [← List.append_assoc]
    split_ifs at h with helapsed
    · refine failPayment_done (hs.congr hnext.rows) (fun t => ?_) hnow hlater₂ hquiet₁ h
      rw [hverdict]
      exact (if_neg hdetected).trans ((if_neg hconfirming).trans (if_pos helapsed))
    · refine done_idle (r := .constant now) ?_ hnow hlater₂ hquiet₁ h
      rw [hverdict]
      exact (if_neg hdetected).trans ((if_neg hconfirming).trans (if_neg helapsed))

/-- `moveToConfirming`. -/
theorem moveToConfirming_done {n : ℤ} (hs : Present p w.db)
    (hm : ∀ r, (Entry.mk (.confirm p) r "").commit requiredConfirmations answers =
      some (.confirm p n)) (hlater : Later w₁ w) (hquiet : writtenIn evs₀ = [])
    (h : Runs (calm (fixedAnswers answers)) pid (moveToConfirming p n) w evs x w') :
    ∃ e, e.task = .confirm p ∧ Done requiredConfirmations answers w₁ w' (evs₀ ++ evs) x e := by
  cases hperm : permitted (.confirm p n) with
  | true =>
    rw [moveToConfirming_eq hperm] at h
    have hacc : (Commit.confirm p n).Acceptable w.db :=
      hs.acceptable rfl rfl (by rintro _ ⟨⟩; rfl) (by rintro _ ⟨⟩; rfl) nofun
    refine done_commit hacc rfl (fun t hle hle' => ?_) hperm hlater hquiet h
    exact ⟨⟨.confirm p, .constant t, ""⟩, rfl, .constant (le_trans hlater.clock hle) hle', rfl, hm _⟩
  | false =>
    obtain ⟨err, heq⟩ := moveToConfirming_throws hperm
    rw [heq] at h
    exact done_throw (hm (.constant w.clock)) (.constant hlater.clock (le_refl _)) hperm hlater
      hquiet h

/-- `finalizePayment`. -/
theorem settlePayment_done {n : ℤ} (hs : Present p w.db) (hlater : Later w₁ w)
    (hquiet : writtenIn evs₀ = [])
    (hverdict : ∀ r eventId, (Entry.mk (.confirm p) r eventId).commit requiredConfirmations answers =
      some (.settle p n r.confirmedAt
        (if p.amountMatch.outcome.2.1 = .paid then some r.paidAt else none) eventId))
    (h : Runs (calm (fixedAnswers answers)) pid (settlePayment p n) w evs x w') :
    ∃ e, e.task = .confirm p ∧ Done requiredConfirmations answers w₁ w' (evs₀ ++ evs) x e := by
  obtain ⟨rfl, confirmedAt, paidAt, eventId, t, hconfirmed, hpaid, hmade, hwritten⟩ :=
    calm_settlePayment hs h
  have hb := (hmade.batch rfl rfl).congr_left hlater.rows
  have hmono : ∀ {u : Time}, w.clock ≤ u ∧ u ≤ w'.clock → w₁.clock ≤ u ∧ u ≤ w'.clock :=
    fun hu => ⟨le_trans hlater.clock hu.1, hu.2⟩
  refine ⟨⟨.confirm p, ⟨paidAt, confirmedAt, paidAt, t⟩, eventId⟩, rfl,
    .commit ⟨hmono hpaid, hmono hconfirmed, hmono hpaid, hmono ⟨hmade.after, hmade.before⟩⟩
      (hverdict _ _) rfl ?_ hb⟩
  rw [writtenIn_append, hquiet, hwritten]
  rfl

/-- The loop body of `runPaymentConfirm`, once the adapter has answered with a count. -/
theorem advancePayment_done {txHash : String} {n : ℤ} (hs : Present p w.db)
    (hhash : p.txHash = some txHash) (hne : txHash ≠ "") (hanswer : answers txHash = some n)
    (hlater : Later w₁ w) (hquiet : writtenIn evs₀ = [])
    (h : Runs (calm (fixedAnswers answers)) pid (advancePayment requiredConfirmations p n) w evs x w') :
    ∃ e, e.task = .confirm p ∧ Done requiredConfirmations answers w₁ w' (evs₀ ++ evs) x e := by
  have hverdict : ∀ r eventId, (Entry.mk (.confirm p) r eventId).commit requiredConfirmations
      answers = presentVerdict requiredConfirmations r eventId p n := by
    intro r eventId
    simp [Entry.commit, verdict, hhash, hne, hanswer]
  unfold advancePayment at h
  split_ifs at h with hreorg hdetected hless hsame
  · refine moveToConfirming_done hs (fun r => ?_) hlater hquiet h
    rw [hverdict]
    exact if_pos (.inl hreorg)
  · refine moveToConfirming_done hs (fun r => ?_) hlater hquiet h
    rw [hverdict]
    exact if_pos (.inr hdetected)
  · have hacc : (Commit.refresh p n).Acceptable w.db :=
      hs.acceptable rfl rfl (by rintro _ ⟨⟩; rfl) nofun nofun
    refine done_commit hacc rfl (fun t hle hle' => ?_) rfl hlater hquiet h
    refine ⟨⟨.confirm p, .constant t, ""⟩, rfl, .constant (le_trans hlater.clock hle) hle', rfl, ?_⟩
    rw [hverdict]
    exact (if_neg (not_or.mpr ⟨hreorg, hdetected⟩)).trans ((if_pos hless).trans (if_pos hsame))
  · refine done_idle (r := .constant w.clock) ?_ (.constant hlater.clock (le_refl _)) hlater hquiet h
    rw [hverdict]
    exact (if_neg (not_or.mpr ⟨hreorg, hdetected⟩)).trans ((if_pos hless).trans (if_neg hsame))
  · refine settlePayment_done hs hlater hquiet (fun r eventId => ?_) h
    rw [hverdict]
    exact (if_neg (not_or.mpr ⟨hreorg, hdetected⟩)).trans (if_neg hless)

end Bodies

/-- The loop body of `runPaymentConfirm`: one commit, or none, or an assertion that throws. -/
theorem confirmPayment_done (hs : Present p w.db)
    (h : Runs (calm (fixedAnswers answers)) pid (confirmPayment (oracle D) requiredConfirmations p) w evs x w') :
    ∃ e, e.task = .confirm p ∧ Done requiredConfirmations answers w w' evs x e := by
  have hskip : (∀ r, (Entry.mk (.confirm p) r "").commit requiredConfirmations answers = none) →
      Runs (calm (fixedAnswers answers)) pid (.ret () : Action adapterCalls Unit) w evs x w' →
      ∃ e, e.task = .confirm p ∧ Done requiredConfirmations answers w w' evs x e :=
    fun hnone h => show ∃ e, e.task = .confirm p ∧
        Done requiredConfirmations answers w w' ([] ++ evs) x e from
      done_idle (hnone _) (.constant (le_refl _) (le_refl _)) (.refl w) rfl h
  unfold confirmPayment at h
  cases hhash : p.txHash with
  | none =>
    rw [hhash] at h
    exact hskip (fun r => by simp [Entry.commit, verdict, hhash]) h
  | some txHash =>
    rw [hhash] at h
    dsimp only at h
    split_ifs at h with hempty
    · exact hskip (fun r => by simp [Entry.commit, verdict, hhash, hempty]) h
    unfold confirmTransaction at h
    obtain ⟨answer, w₁, evs₁, evs₂, rfl, hask, h⟩ := h.bind_returns fun _ _ _ hrun => by
      obtain ⟨y, hx, -⟩ := hrun.attempt_inv
      exact ⟨y, hx⟩
    obtain ⟨y, hy, hask⟩ := hask.attempt_inv
    cases hy
    have hquiet : writtenIn evs₁ = [] := unwriting_written
      (Prog.Only.request (show Unwriting (A := adapterCalls) (.other _) from trivial)) hask
    obtain ⟨hlater, hanswer⟩ := calm_confirmations hask
    cases hn : answers txHash with
    | some n =>
      obtain rfl := (hanswer.1 n hn)
      exact advancePayment_done (hs.congr hlater.rows) hhash hempty hn hlater hquiet h
    | none =>
      obtain ⟨message, rfl⟩ := hanswer.2 hn
      exact handleMissingTransaction_done (hs.congr hlater.rows) hhash hempty hn hlater hquiet h

/-- Of a payment that is paired with its invoice, no assertion throws. -/
theorem verdict_permitted {r : Readings} {eventId : String} {answer : Option ℤ}
    (hpair : Paired p.status p.invoice.status)
    (h : verdict requiredConfirmations r eventId answer p = some m) : permitted m = true := by
  have hfail : permitted (.fail p) = true := by
    simp only [permitted]
    rcases hpair with ⟨hp, hi⟩ | ⟨hp, hi⟩ | ⟨hp, hi⟩ <;> rw [hp, hi] <;> rfl
  have hconfirm : ∀ n, p.status = .reorgDetected ∨ p.status = .detected →
      permitted (.confirm p n) = true := by
    intro n hst
    simp only [permitted]
    rcases hpair with ⟨hp, hi⟩ | ⟨hp, hi⟩ | ⟨hp, hi⟩
    · rw [hp, hi]
      rfl
    · rw [hp] at hst
      simp at hst
    · rw [hp, hi]
      rfl
  unfold verdict missingVerdict presentVerdict at h
  split at h
  · cases h
  split at h
  · cases h
  split at h
  · split_ifs at h <;> cases h
    · exact hfail
    · rfl
    · exact hfail
  · split_ifs at h with hst <;> cases h
    · exact hconfirm _ hst
    · rfl
    · rfl
    · rfl

/-- The loop body of `runPaymentConfirm`, of a payment that is paired with its invoice. -/
theorem confirmPayment_made (hs : Stored p w.db) (hpair : Paired p.status p.invoice.status)
    (h : Runs (calm (fixedAnswers answers)) pid (confirmPayment (oracle D) requiredConfirmations p) w evs x w') :
    x = .ok () ∧ ∃ e, Performed requiredConfirmations answers [.confirm p] w w' [e] := by
  obtain ⟨e, htask, hdone⟩ := confirmPayment_done hs.present h
  have hperm : (e.commit requiredConfirmations answers).all permitted = true := by
    cases hm : e.commit requiredConfirmations answers with
    | none => rfl
    | some m =>
      unfold Entry.commit at hm
      rw [htask] at hm
      exact verdict_permitted hpair hm
  obtain ⟨hx, hperformed⟩ := hdone.performed hperm
  exact ⟨hx, e, htask ▸ hperformed⟩

/-- The loop body of `expireOverdueInvoices`. -/
theorem expireInvoice_made {i : Invoice} (hi : i ∈ w.db.invoices)
    (h : Runs (calm (fixedAnswers answers)) pid (expireInvoice i) w evs x w') :
    x = .ok () ∧ ∃ e, Performed requiredConfirmations answers [.expire i] w w' [e] := by
  obtain ⟨rfl, eventId, t, hmade, hwritten⟩ := calm_expireInvoice ⟨i, hi, rfl⟩ h
  have hdone : Done requiredConfirmations answers w w' evs (.ok ()) ⟨.expire i, .constant t, eventId⟩ :=
    .commit (.constant hmade.after hmade.before) rfl rfl hwritten (hmade.batch rfl rfl)
  exact ⟨rfl, _, (hdone.performed rfl).2⟩

end CryptoPay.Worker
