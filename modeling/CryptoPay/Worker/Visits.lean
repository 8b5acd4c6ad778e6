import CryptoPay.Worker.CalmPasses

/-!
# What a confirm pass names

The updates of an undisturbed pass, over any tables: it expires the invoices that are overdue when
it begins, and visits the active payments, in the order in which the query returned them, until an
assertion throws.

Results:
* `verdict_decided`: what a loop body commits, by the statuses, the clock and the adapter's answer.
* `sweep_named`, `visits_named`: which rows the sweep and the loop update.
* `pass_named`: which rows the pass updates.
-/

namespace CryptoPay.Worker

open Async Data

/-- An active payment as the pass read it, and when its loop body asked for the time. -/
structure Visit where
  payment : PaymentWithInvoice
  time : Time

namespace Visit

/-- The transaction that the adapter is asked about; without one, the payment is skipped. -/
def txHash (v : Visit) : String := v.payment.txHash.getD ""

variable (requiredConfirmations : ℤ) (answers : String → Option ℤ) (v : Visit)

/-- The payment is failed: its transaction is missing, and it was never confirming, or has been
    `REORG_DETECTED` for the grace window. -/
def fails : Bool :=
  v.txHash ≠ "" && (answers v.txHash).isNone &&
    (v.payment.status = .detected ||
      v.payment.status = .reorgDetected && REORG_GRACE_MS ≤ v.time - v.payment.updatedAt)

/-- The payment starts confirming, or resumes. -/
def confirms : Bool :=
  v.txHash ≠ "" && (answers v.txHash).isSome &&
    (v.payment.status = .detected || v.payment.status = .reorgDetected)

/-- The payment is settled. -/
def settles : Bool :=
  v.txHash ≠ "" && (answers v.txHash).any (requiredConfirmations ≤ ·) &&
    v.payment.status = .confirming

/-- There is nothing to write: no transaction, one that is missing for less than the grace window,
    or too few confirmations and no more than are stored. -/
def spared : Bool :=
  v.txHash = "" || match answers v.txHash with
  | none => v.payment.status = .reorgDetected && v.time - v.payment.updatedAt < REORG_GRACE_MS
  | some n => v.payment.status = .confirming && n < requiredConfirmations &&
    n = v.payment.confirmations

/-- An assertion about the invoice throws. -/
def refused : Bool :=
  v.fails answers && !canTransitionInvoice v.payment.invoice.status .failed ||
    v.confirms answers && v.payment.invoice.status ≠ .confirming &&
      !canTransitionInvoice v.payment.invoice.status .confirming

/-- The status of the invoice is written, too. -/
def movesInvoice : Bool :=
  v.fails answers || v.confirms answers || v.settles requiredConfirmations answers

/-- Its updates name the payment `q` or the invoice of it. -/
def Names (q : Payment) : Prop :=
  v.payment.id = q.id ∨
    v.movesInvoice requiredConfirmations answers = true ∧ v.payment.invoiceId = q.invoiceId

/-- The visits that the loop makes and returns from. -/
def made (visits : List Visit) : List Visit := visits.takeWhile fun v => !v.refused answers

end Visit

variable {pid : ℕ} {answers : String → Option ℤ} {requiredConfirmations : ℤ} {D : String → Bool}
  {w w₁ w' : World Unit} {evs : List (Event (effects adapterCalls))} {x : Except Error Unit}
  {p : PaymentWithInvoice} {m : Commit} {e : Entry}

theorem mem_activeStatuses {s : PaymentStatus} :
    s ∈ activeStatuses ↔ s = .detected ∨ s = .confirming ∨ s = .reorgDetected := by
  simp [activeStatuses]

/-! ## Verdicts -/

/-- What the commit for a visit is like. -/
structure Reacts (requiredConfirmations : ℤ) (answers : String → Option ℤ) (v : Visit)
    (m : Commit) : Prop where
  notSpared : v.spared requiredConfirmations answers = false
  movesInvoice : m.invoiceUpdate.isSome = v.movesInvoice requiredConfirmations answers
  permitted : permitted m = !v.refused answers

/-- What a loop body commits: nothing, if and only if the visit is spared. -/
def Decided (requiredConfirmations : ℤ) (answers : String → Option ℤ) (v : Visit) :
    Option Commit → Prop
  | none => v.spared requiredConfirmations answers = true ∧ v.refused answers = false
  | some m => Reacts requiredConfirmations answers v m

theorem missingVerdict_decided {r : Readings} {txHash : String} (ha : p.status ∈ activeStatuses)
    (hhash : p.txHash = some txHash) (hne : txHash ≠ "") (hanswer : answers txHash = none) :
    Decided requiredConfirmations answers ⟨p, r.now⟩ (missingVerdict r p) := by
  have htx : (Visit.mk p r.now).txHash = txHash := by simp [Visit.txHash, hhash]
  have hconfirms : (Visit.mk p r.now).confirms answers = false := by
    simp [Visit.confirms, htx, hanswer]
  have hsettles : (Visit.mk p r.now).settles requiredConfirmations answers = false := by
    simp [Visit.settles, htx, hanswer]
  unfold missingVerdict
  rcases mem_activeStatuses.mp ha with hst | hst | hst
  · have hfails : (Visit.mk p r.now).fails answers = true := by
      simp [Visit.fails, htx, hne, hanswer, hst]
    rw [if_pos hst]
    refine ⟨?_, ?_, ?_⟩
    · simp [Visit.spared, htx, hne, hanswer, hst]
    · simp [Visit.movesInvoice, hfails, Commit.invoiceUpdate]
    · simp only [permitted, Visit.refused, hfails, hconfirms, hst]
      simp [canTransitionPayment, PAYMENT_TRANSITIONS]
  · have hfails : (Visit.mk p r.now).fails answers = false := by
      simp [Visit.fails, htx, hne, hanswer, hst]
    rw [if_neg (by rw [hst]; decide), if_pos hst]
    refine ⟨?_, ?_, ?_⟩
    · simp [Visit.spared, htx, hne, hanswer, hst]
    · simp [Visit.movesInvoice, hfails, hconfirms, hsettles, Commit.invoiceUpdate]
    · simp [permitted, Visit.refused, hfails, hconfirms]
  · rw [if_neg (by rw [hst]; decide), if_neg (by rw [hst]; decide)]
    by_cases helapsed : r.now - p.updatedAt ≥ REORG_GRACE_MS
    · have hfails : (Visit.mk p r.now).fails answers = true := by
        simp [Visit.fails, htx, hne, hanswer, hst, helapsed]
      rw [if_pos helapsed]
      refine ⟨?_, ?_, ?_⟩
      · simp [Visit.spared, htx, hne, hanswer, hst, helapsed]
      · simp [Visit.movesInvoice, hfails, Commit.invoiceUpdate]
      · simp only [permitted, Visit.refused, hfails, hconfirms, hst]
        simp [canTransitionPayment, PAYMENT_TRANSITIONS]
    · have hfails : (Visit.mk p r.now).fails answers = false := by
        simp [Visit.fails, htx, hne, hanswer, hst, helapsed]
      rw [if_neg helapsed]
      refine ⟨?_, ?_⟩
      · simpa [Visit.spared, htx, hne, hanswer, hst] using helapsed
      · simp [Visit.refused, hfails, hconfirms]

theorem presentVerdict_decided {r : Readings} {eventId txHash : String} {n : ℤ}
    (ha : p.status ∈ activeStatuses) (hhash : p.txHash = some txHash) (hne : txHash ≠ "")
    (hanswer : answers txHash = some n) :
    Decided requiredConfirmations answers ⟨p, r.now⟩
      (presentVerdict requiredConfirmations r eventId p n) := by
  have htx : (Visit.mk p r.now).txHash = txHash := by simp [Visit.txHash, hhash]
  have hfails : (Visit.mk p r.now).fails answers = false := by
    simp [Visit.fails, htx, hanswer]
  unfold presentVerdict
  by_cases hst : p.status = .reorgDetected ∨ p.status = .detected
  · have hconfirms : (Visit.mk p r.now).confirms answers = true := by
      simp [Visit.confirms, htx, hne, hanswer, hst.symm]
    have hmay : canTransitionPayment p.status .confirming = true := by
      rcases hst with hst | hst <;> rw [hst] <;> rfl
    have hnot : p.status ≠ .confirming := by
      rcases hst with hst | hst <;> rw [hst] <;> decide
    rw [if_pos hst]
    refine ⟨?_, ?_, ?_⟩
    · simp [Visit.spared, htx, hne, hanswer, hnot]
    · simp [Visit.movesInvoice, hconfirms, Commit.invoiceUpdate]
    · simp [permitted, Visit.refused, hfails, hconfirms, hmay]
  · have hconfirming : p.status = .confirming := by
      rcases mem_activeStatuses.mp ha with h | h | h
      · exact absurd (.inr h) hst
      · exact h
      · exact absurd (.inl h) hst
    have hconfirms : (Visit.mk p r.now).confirms answers = false := by
      simp [Visit.confirms, hconfirming]
    have hpermitted : (Visit.mk p r.now).refused answers = false := by
      simp [Visit.refused, hfails, hconfirms]
    rw [if_neg hst]
    by_cases hless : n < requiredConfirmations
    · have hsettles : (Visit.mk p r.now).settles requiredConfirmations answers = false := by
        simp [Visit.settles, htx, hanswer, hless]
      rw [if_pos hless]
      by_cases hsame : n = p.confirmations
      · rw [if_neg (not_not.mpr hsame)]
        refine ⟨?_, hpermitted⟩
        simp [Visit.spared, htx, hanswer, hconfirming, hless, ← hsame]
      · rw [if_pos hsame]
        refine ⟨?_, ?_, ?_⟩
        · simp [Visit.spared, htx, hne, hanswer, hsame]
        · simp [Visit.movesInvoice, hfails, hconfirms, hsettles, Commit.invoiceUpdate]
        · simp [permitted, hpermitted]
    · have hsettles : (Visit.mk p r.now).settles requiredConfirmations answers = true := by
        simp [Visit.settles, htx, hne, hanswer, hconfirming, not_lt.mp hless]
      rw [if_neg hless]
      refine ⟨?_, ?_, ?_⟩
      · simp [Visit.spared, htx, hne, hanswer, hless]
      · simp [Visit.movesInvoice, hsettles, Commit.invoiceUpdate]
      · simp [permitted, hpermitted]

theorem verdict_decided {r : Readings} {eventId : String} (ha : p.status ∈ activeStatuses) :
    Decided requiredConfirmations answers ⟨p, r.now⟩
      (verdict requiredConfirmations r eventId (answers (p.txHash.getD "")) p) := by
  have hskipped : p.txHash.getD "" = "" → Decided requiredConfirmations answers ⟨p, r.now⟩ none := by
    intro hempty
    have htx : (Visit.mk p r.now).txHash = "" := hempty
    exact ⟨by simp [Visit.spared, htx], by simp [Visit.refused, Visit.fails, Visit.confirms, htx]⟩
  unfold verdict
  cases hhash : p.txHash with
  | none => exact hskipped (by rw [hhash]; rfl)
  | some txHash =>
    dsimp only [Option.getD_some]
    split_ifs with hempty
    · exact hskipped (by rw [hhash, hempty]; rfl)
    cases hanswer : answers txHash with
    | none => exact missingVerdict_decided ha hhash hempty hanswer
    | some n => exact presentVerdict_decided ha hhash hempty hanswer

/-- The updates of a commit for a visit. -/
theorem Reacts.names {v : Visit} (h : Reacts requiredConfirmations answers v m)
    (hm : About v.payment m) (q : Payment) :
    Names m.writes q ↔ v.Names requiredConfirmations answers q := by
  obtain ⟨d, hd⟩ := hm.payment
  rw [names_writes, hd, Visit.Names, ← h.movesInvoice]
  refine or_congr ?_ ?_
  · simp
  · cases hu : m.invoiceUpdate with
    | none => simp
    | some u => simp [hm.invoice u hu]

/-! ## The loop -/

/-- A loop body names what its visit does, unless that is refused or spared. -/
theorem Done.visit (h : Done requiredConfirmations answers w w' evs x e)
    (htask : e.task = .confirm p) (ha : p.status ∈ activeStatuses) :
    (x = .ok () ↔ (Visit.mk p e.readings.now).refused answers = false) ∧
      ∀ q, Names (writtenIn evs) q ↔ (Visit.mk p e.readings.now).refused answers = false ∧
        (Visit.mk p e.readings.now).spared requiredConfirmations answers = false ∧
        (Visit.mk p e.readings.now).Names requiredConfirmations answers q := by
  have hcommit : e.commit requiredConfirmations answers =
      verdict requiredConfirmations e.readings e.eventId (answers (p.txHash.getD "")) p := by
    unfold Entry.commit
    rw [htask]
  have hdecided : Decided requiredConfirmations answers ⟨p, e.readings.now⟩
      (verdict requiredConfirmations e.readings e.eventId (answers (p.txHash.getD "")) p) :=
    verdict_decided ha
  have hreturns := h.returns
  have hwritten := h.written
  unfold Entry.made at hwritten
  rw [hcommit] at hreturns hwritten
  cases hv : verdict requiredConfirmations e.readings e.eventId (answers (p.txHash.getD "")) p with
  | none =>
    rw [hv] at hdecided hreturns hwritten
    obtain ⟨hspared, hrefused⟩ := hdecided
    refine ⟨hreturns.trans (by simp [hrefused]), fun q => ?_⟩
    rw [hwritten, hspared]
    exact ⟨fun hnames => absurd hnames not_names_nil, fun hnot => absurd hnot.2.1 nofun⟩
  | some m =>
    rw [hv] at hdecided hreturns hwritten
    replace hdecided : Reacts requiredConfirmations answers ⟨p, e.readings.now⟩ m := hdecided
    have hperm := hdecided.permitted
    refine ⟨hreturns.trans (by simp [hperm]), fun q => ?_⟩
    cases hrefused : (Visit.mk p e.readings.now).refused answers with
    | true =>
      rw [hrefused] at hperm
      rw [hwritten, Option.filter_some, if_neg (by rw [hperm]; exact nofun)]
      exact ⟨fun hnames => absurd hnames not_names_nil, fun hnot => absurd hnot.1 nofun⟩
    | false =>
      rw [hrefused] at hperm
      rw [hwritten, Option.filter_some, if_pos (by rw [hperm]; rfl)]
      exact (hdecided.names (verdict_about hv) q).trans
        ⟨fun hnames => ⟨rfl, hdecided.notSpared, hnames⟩, fun hnames => hnames.2.2⟩

/-- The loop names what the visits do that it makes and that are not spared. -/
theorem visits_named {active : List PaymentWithInvoice} (hpresent : ∀ p ∈ active, Present p w.db)
    (hactive : ∀ p ∈ active, p.status ∈ activeStatuses)
    (h : Runs (calm (fixedAnswers answers)) pid
      (.forEach (confirmPayment (oracle D) requiredConfirmations) active) w evs x w') :
    ∃ visits : List Visit, visits.map Visit.payment = active ∧
      (∀ v ∈ visits, w.clock ≤ v.time ∧ v.time ≤ w'.clock) ∧
      ∀ q, Names (writtenIn evs) q ↔ ∃ v ∈ Visit.made answers visits,
        v.spared requiredConfirmations answers = false ∧ v.Names requiredConfirmations answers q := by
  induction active generalizing w evs with
  | nil =>
    obtain ⟨rfl, -, -⟩ := Runs.ret_inv h
    refine ⟨[], rfl, fun _ hv => absurd hv List.not_mem_nil, fun q => ?_⟩
    exact ⟨fun hnames => absurd hnames not_names_nil, fun ⟨v, hv, _⟩ => absurd hv List.not_mem_nil⟩
  | cons p active ih =>
    have hhead := hpresent p List.mem_cons_self
    have ha := hactive p List.mem_cons_self
    rcases Runs.bind_inv h with ⟨⟨⟩, w₁, evs₁, evs₂, rfl, hrun, hrest⟩ | ⟨err, rfl, hrun⟩
    · obtain ⟨e, htask, hdone⟩ := confirmPayment_done hhead hrun
      obtain ⟨hreturns, hnames⟩ := hdone.visit htask ha
      have hrefused := hreturns.mp rfl
      have hclock := calm_clock hrun
      have hclock' := calm_clock hrest
      obtain ⟨visits, rfl, htimes, hnames'⟩ := ih (fun q hq =>
        (hpresent q (List.mem_cons_of_mem p hq)).runs hrun)
        (fun q hq => hactive q (List.mem_cons_of_mem p hq)) hrest
      refine ⟨⟨p, e.readings.now⟩ :: visits, rfl, fun v hv => ?_, fun q => ?_⟩
      · rcases List.mem_cons.mp hv with rfl | hv
        · exact ⟨hdone.readings.now.1, le_trans hdone.readings.now.2 hclock'⟩
        · exact ⟨le_trans hclock (htimes v hv).1, (htimes v hv).2⟩
      · have hmade : Visit.made answers (⟨p, e.readings.now⟩ :: visits) =
            ⟨p, e.readings.now⟩ :: Visit.made answers visits :=
          List.takeWhile_cons_of_pos (by rw [hrefused]; rfl)
        rw [writtenIn_append, names_append, hnames, hnames', hmade, List.exists_mem_cons_iff]
        exact or_congr_left ⟨fun hnamed => hnamed.2, fun hnamed => ⟨hrefused, hnamed⟩⟩
    · -- an assertion threw, and the loop with it
      obtain ⟨e, htask, hdone⟩ := confirmPayment_done hhead hrun
      obtain ⟨hreturns, hnames⟩ := hdone.visit htask ha
      have hrefused : (Visit.mk p e.readings.now).refused answers = true := by
        rw [← Bool.not_eq_false]
        exact fun hnot => absurd (hreturns.mpr hnot) nofun
      have hclock := calm_clock hrun
      refine ⟨⟨p, e.readings.now⟩ :: active.map (⟨·, w'.clock⟩), ?_, fun v hv => ?_, fun q => ?_⟩
      · simp [Function.comp_def]
      · rcases List.mem_cons.mp hv with rfl | hv
        · exact hdone.readings.now
        · obtain ⟨q, -, rfl⟩ := List.mem_map.mp hv
          exact ⟨hclock, le_refl _⟩
      · have hmade : Visit.made answers (⟨p, e.readings.now⟩ :: active.map (⟨·, w'.clock⟩)) = [] :=
          List.takeWhile_cons_of_neg (by rw [hrefused]; exact Bool.false_ne_true)
        rw [hnames, hmade, hrefused]
        exact ⟨fun hnot => absurd hnot.1 nofun, fun ⟨v, hv, _⟩ => absurd hv List.not_mem_nil⟩

/-! ## The sweep -/

/-- The sweep expires the invoice. -/
def Overdue (t : Time) (i : Invoice) : Prop := i.status = .pending ∧ i.expiresAt < t

instance (t : Time) (i : Invoice) : Decidable (Overdue t i) := inferInstanceAs (Decidable (_ ∧ _))

/-- The invoice after the sweep. -/
def swept (t : Time) (i : Invoice) : Invoice :=
  if Overdue t i then i.update { status := .expired } else i

theorem swept_id (t : Time) (i : Invoice) : (swept t i).id = i.id := by
  unfold swept
  split_ifs <;> rfl

/-- The loop over the invoices `overdue` expires these. -/
structure Expired (overdue : List Invoice) (w w' : World Unit)
    (evs : List (Event (effects adapterCalls))) : Prop where
  payments : ∀ q, q ∈ w'.db.payments ↔ q ∈ w.db.payments
  invoices : ∀ i', i' ∈ w'.db.invoices ↔ ∃ i ∈ w.db.invoices,
    i' = if i ∈ overdue then i.update { status := .expired } else i
  named : ∀ q, Names (writtenIn evs) q ↔ ∃ i ∈ overdue, i.id = q.invoiceId

theorem expireInvoices_made {overdue : List Invoice} (hmem : ∀ i ∈ overdue, i ∈ w.db.invoices)
    (hnodup : overdue.Nodup)
    (h : Runs (calm (fixedAnswers answers)) pid (.forEach expireInvoice overdue) w evs x w') :
    Expired overdue w w' evs := by
  induction overdue generalizing w evs with
  | nil =>
    obtain ⟨rfl, -, hd⟩ := Runs.ret_inv h
    have hrows := (calm_drifts hd).rows
    refine ⟨hrows.payments, fun i' => ?_, fun q => ?_⟩
    · simp [hrows.invoices]
    · exact ⟨fun hnames => absurd hnames not_names_nil, fun ⟨i, hi, _⟩ => absurd hi List.not_mem_nil⟩
  | cons o overdue ih =>
    obtain ⟨ho, hnodup⟩ := List.nodup_cons.mp hnodup
    have hstored := hmem o List.mem_cons_self
    obtain ⟨⟨⟩, w₁, evs₁, evs₂, rfl, hrun, hrest⟩ := Runs.bind_returns h fun _ _ _ hrun =>
      ⟨(), (calm_expireInvoice ⟨o, hstored, rfl⟩ hrun).1⟩
    obtain ⟨-, eventId, t, hmade, hwritten⟩ := calm_expireInvoice ⟨o, hstored, rfl⟩ hrun
    -- the row of `o` changes, and no other one
    have hsame : (Commit.expire o eventId).onInvoice o = o.update { status := .expired } :=
      Commit.onInvoice_of_eq (u := (o.id, { status := .expired })) rfl rfl
    have hother : ∀ i ∈ w.db.invoices, i ≠ o → (Commit.expire o eventId).onInvoice i = i := by
      intro i hi hne
      refine Commit.onInvoice_of_ne ?_
      rintro _ ⟨⟩ hid
      exact hne (Table.eq_of_key hi hstored hid)
    have hne : ∀ i ∈ overdue, i ≠ o := fun i hi heq => ho (heq ▸ hi)
    have hmem₁ : ∀ i ∈ overdue, i ∈ w₁.db.invoices := fun i hi =>
      (hmade.invoices_iff rfl).mpr ⟨i, hmem i (List.mem_cons_of_mem o hi),
        (hother i (hmem i (List.mem_cons_of_mem o hi)) (hne i hi)).symm⟩
    obtain ⟨hpayments, hinvoices, hnamed⟩ := ih hmem₁ hnodup hrest
    refine ⟨fun q => ?_, fun i' => ?_, fun q => ?_⟩
    · rw [hpayments, hmade.payments_iff rfl]
      exact ⟨fun ⟨q', hq', heq⟩ => heq ▸ hq', fun hq => ⟨q, hq, rfl⟩⟩
    · have hrow : ∀ i ∈ w.db.invoices, (if (Commit.expire o eventId).onInvoice i ∈ overdue then
          ((Commit.expire o eventId).onInvoice i).update { status := .expired }
          else (Commit.expire o eventId).onInvoice i) =
            if i ∈ o :: overdue then i.update { status := .expired } else i := by
        intro i hi
        by_cases heq : i = o
        · subst heq
          have hnot : i.update { status := .expired } ∉ overdue := fun hin =>
            hne _ hin (Table.eq_of_key (hmem _ (List.mem_cons_of_mem i hin)) hstored rfl)
          rw [hsame, if_neg hnot, if_pos List.mem_cons_self]
        · simp [hother i hi heq, heq]
      rw [hinvoices]
      constructor
      · rintro ⟨i₁, hi₁, rfl⟩
        obtain ⟨i, hi, rfl⟩ := (hmade.invoices_iff rfl).mp hi₁
        exact ⟨i, hi, hrow i hi⟩
      · rintro ⟨i, hi, rfl⟩
        exact ⟨_, (hmade.invoices_iff rfl).mpr ⟨i, hi, rfl⟩, (hrow i hi).symm⟩
    · rw [writtenIn_append, names_append, hwritten, names_writes, hnamed]
      simp [Commit.paymentUpdate, Commit.invoiceUpdate]

/-! ## The pass -/

/-- What the pass read: the clock at the sweep, the active payments that the query returned, in
    that order, and the clock at each of them. -/
structure Saw (w w' : World Unit) (evs : List (Event (effects adapterCalls))) (t : Time)
    (visits : List Visit) : Prop where
  sweep : w.clock ≤ t ∧ t ≤ w'.clock
  times : ∀ v ∈ visits, w.clock ≤ v.time ∧ v.time ≤ w'.clock
  returned : ∃ ev ∈ evs, ReturnsPayments activeStatuses (visits.map Visit.payment) ev
  /-- Each of them with its invoice, which may just have expired. -/
  mem : ∀ p, p ∈ visits.map Visit.payment ↔ p.toPayment ∈ w.db.payments ∧
    p.status ∈ activeStatuses ∧ ∃ i ∈ w.db.invoices, i.id = p.invoiceId ∧ p.invoice = swept t i
  nodup : (visits.map Visit.payment).Nodup

/-- The pass updates overdue invoices, and what its visits name. -/
theorem pass_named (h : CalmPass pid D requiredConfirmations answers w evs x w') :
    ∃ t visits, Saw w w' evs t visits ∧ ∀ q, Names (writtenIn evs) q ↔
      (∃ i ∈ w.db.invoices, Overdue t i ∧ i.id = q.invoiceId) ∨
      ∃ v ∈ Visit.made answers visits, v.spared requiredConfirmations answers = false ∧
        v.Names requiredConfirmations answers q := by
  obtain ⟨w₁, w₂, evs₁, evs₂, evs₃, active, rfl, hexpire, hlater, hquiet, ⟨ev, hev, hreturns⟩,
    hactive, hnodup, hloop⟩ := calmPass_inv h
  obtain ⟨t, overdue, w₀, evs₀, evs₁, rfl, ⟨hle, hle'⟩, hlater₀, hquiet₀, hmem, hnodup₀, hsweep⟩ :=
    expireOverdueInvoices_inv hexpire
  have hexpired := expireInvoices_made
    (fun i hi => (hlater₀.rows.invoices i).2 ((hmem i).mp hi).1) hnodup₀ hsweep
  have hstored : ∀ p ∈ active, Stored p w₂.db ∧ p.status ∈ activeStatuses := fun p hp =>
    ⟨((hactive p).mp hp).1.congr hlater.rows, ((hactive p).mp hp).2⟩
  obtain ⟨visits, rfl, htimes, hnamed⟩ := visits_named (fun p hp => (hstored p hp).1.present)
    (fun p hp => (hstored p hp).2) hloop
  have hclock₁ := calm_clock hexpire
  have hclock₂ := calm_clock hsweep
  have hclock₃ := calm_clock hloop
  have hwindow : w.clock ≤ w₂.clock := le_trans hclock₁ hlater.clock
  refine ⟨t, visits, ⟨⟨hle, ?_⟩, fun v hv => ?_, ⟨ev, ?_, hreturns⟩, fun p => ?_, hnodup⟩, fun q => ?_⟩
  · exact le_trans hle' (le_trans hclock₂ (le_trans hlater.clock hclock₃))
  · exact ⟨le_trans hwindow (htimes v hv).1, (htimes v hv).2⟩
  · exact List.mem_append_right _ (List.mem_append_left _ hev)
  · have hrow : ∀ i ∈ w.db.invoices,
        (if i ∈ overdue then i.update { status := .expired } else i) = swept t i := by
      intro i hi
      exact if_congr ((hmem i).trans ⟨fun hdue => hdue.2, fun hdue => ⟨hi, hdue⟩⟩) rfl rfl
    have hinvoice : p.invoice ∈ w₁.db.invoices ↔ ∃ i ∈ w.db.invoices, p.invoice = swept t i := by
      rw [hexpired.invoices]
      constructor
      · rintro ⟨i, hi, heq⟩
        have hi := (hlater₀.rows.invoices i).1 hi
        exact ⟨i, hi, heq.trans (hrow i hi)⟩
      · rintro ⟨i, hi, heq⟩
        exact ⟨i, (hlater₀.rows.invoices i).2 hi, heq.trans (hrow i hi).symm⟩
    have hpayment : p.toPayment ∈ w₁.db.payments ↔ p.toPayment ∈ w.db.payments :=
      (hexpired.payments _).trans (hlater₀.rows.payments _)
    rw [hactive]
    constructor
    · rintro ⟨hs, ha⟩
      obtain ⟨i, hi, heq⟩ := hinvoice.mp hs.invoice
      refine ⟨hpayment.mp hs.payment, ha, i, hi, ?_, heq⟩
      rw [hs.id, heq, swept_id]
    · rintro ⟨hp, ha, i, hi, hid, heq⟩
      refine ⟨⟨hpayment.mpr hp, hinvoice.mpr ⟨i, hi, heq⟩, ?_⟩, ha⟩
      rw [heq, swept_id, hid]
  · rw [writtenIn_append, writtenIn_append, writtenIn_append, hquiet₀, hquiet, List.nil_append,
      List.nil_append, names_append, hexpired.named, hnamed]
    refine or_congr_left ⟨fun ⟨i, hi, hid⟩ => ?_, fun ⟨i, hi, hdue, hid⟩ => ?_⟩
    · exact ⟨i, ((hmem i).mp hi).1, ((hmem i).mp hi).2, hid⟩
    · exact ⟨i, (hmem i).mpr ⟨hi, hdue⟩, hid⟩

end CryptoPay.Worker
