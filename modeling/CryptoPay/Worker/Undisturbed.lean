import CryptoPay.Worker.ReadBefore
import CryptoPay.Worker.SettledOnce

/-!
# Confirm passes that overlap

The query of a confirm pass returns payments that are not final, and the matcher
selects invoices without a payment. Only another pass that writes the same rows
between the query and the commit can change that. Two confirm passes that hold the
same `CONFIRMING` payment both settle it.

Results:
* `undisturbed_idempotent`: in a run without such writes an invoice gets one
  settlement event, `confirmedAt` and `paidAt` are written once, and final statuses
  stay, however many passes overlap.
* `overlapping_settled_twice`: without that condition none of this holds.
-/

namespace CryptoPay.Worker

open Async Data

/-- A transaction writes the status of a payment only if no other process has since this one last
    read the payment, and records a payment of an invoice only if no other process has since this
    one last read the invoice. -/
structure Undisturbed (c : History adapterCalls Unit) (pid : ℕ) (op : Op adapterCalls) : Prop where
  status : ∀ ws id d, op = .prisma (.transaction ws) → .paymentUpdate id d ∈ ws →
    d.status.isSome = true →
      Async.Untouched (ShowsPayment id) (fun _ => SetsPaymentStatus id) pid c.trace
  recorded : ∀ ws d, op = .prisma (.transaction ws) → .paymentCreate d ∈ ws →
    Async.Untouched (ShowsInvoice d.invoiceId) (fun _ => RecordsPayment d.invoiceId) pid c.trace

/-- An invoice has at most one payment, and none while it is `PENDING` or while nobody has
    recorded one since it was. -/
structure SinglePayments (c : History adapterCalls Unit) : Prop where
  stored : ∀ p ∈ c.state.db.payments, ∃ i ∈ c.state.db.invoices, i.id = p.invoiceId
  single : ∀ p ∈ c.state.db.payments, ∀ q ∈ c.state.db.payments, p.invoiceId = q.invoiceId → p = q
  pending : ∀ i ∈ c.state.db.invoices, i.status = .pending → c.state.db.Unrecorded i.id
  since : ∀ pid id, Since (fun e => e.pid = pid ∧ ShowsPending id e) (fun _ => RecordsPayment id)
    c.trace → c.state.db.Unrecorded id

variable {n : Replicas} {D : Setup} {c c' : History adapterCalls Unit} {m : Commit}
  {ev : Event (effects adapterCalls)} {id : String}

/-! ## The invariant -/

theorem Unrecorded.congr {db db' : Db} (h : db.Unrecorded id) (hr : db.SameRows db') :
    db'.Unrecorded id := fun p hp => h p ((hr.payments p).1 hp)

/-- The invariant with the same rows. -/
theorem SinglePayments.congr (h : SinglePayments c) (hr : c.state.db.SameRows c'.state.db)
    (hsince : ∀ pid id, Since (fun e => e.pid = pid ∧ ShowsPending id e)
      (fun _ => RecordsPayment id) c'.trace → c.state.db.Unrecorded id) : SinglePayments c' where
  stored p hp := by
    obtain ⟨i, hi, hid⟩ := h.stored p ((hr.payments p).1 hp)
    exact ⟨i, (hr.invoices i).2 hi, hid⟩
  single p hp q hq := h.single p ((hr.payments p).1 hp) q ((hr.payments q).1 hq)
  pending i hi hs := Unrecorded.congr (h.pending i ((hr.invoices i).1 hi) hs) hr
  since pid id h := Unrecorded.congr (hsince pid id h) hr

/-- A request that leaves the rows as they are may have shown a `PENDING` invoice. -/
theorem SinglePayments.quiet (h : SinglePayments c) (hr : c.state.db.SameRows c'.state.db)
    (ht : c'.trace = ev :: c.trace) (hshown : ∀ id, ShowsPending id ev → c.state.db.Pending id) :
    SinglePayments c' := by
  refine h.congr hr fun pid id hsince => ?_
  rw [ht] at hsince
  rcases hsince with ⟨-, hshows⟩ | ⟨-, hrest⟩
  · obtain ⟨i, hi, rfl, hs⟩ := hshown id hshows
    exact h.pending i hi hs
  · exact h.since pid id hrest

/-- A commit keeps an invoice without payments, unless it records one. -/
theorem Unrecorded.commit {now : Time} {db db' : Db} (h : db.Unrecorded id)
    (he : m.Effect now db db') (hd : ∀ d, m.paymentCreate = some d → d.invoiceId ≠ id) :
    db'.Unrecorded id := by
  intro p' hp'
  rcases (he.payments p').1 hp' with ⟨p, hp, rfl⟩ | ⟨d, hcreate, rfl⟩
  · rw [terms_invoiceId (m.terms_onPayment now p)]
    exact h p hp
  · exact hd d hcreate

/-- No commit makes an invoice `PENDING`. -/
theorem pending_onInvoice {i : Invoice} (h : (m.onInvoice i).status = .pending) :
    i.status = .pending ∧ ∀ u, m.invoiceUpdate = some u → i.id ≠ u.1 := by
  by_cases hu : ∃ u, m.invoiceUpdate = some u ∧ i.id = u.1
  · obtain ⟨u, hu, hid⟩ := hu
    rw [Commit.onInvoice_of_eq hu hid] at h
    cases m with
    | settle q k confirmedAt paidAt eventId =>
      cases hu
      cases hm : q.amountMatch <;> simp [Invoice.update, hm, PaymentAmountMatch.outcome] at h
    | _ => cases hu <;> cases h
  · have hne : ∀ u, m.invoiceUpdate = some u → i.id ≠ u.1 := fun u hmu hid => hu ⟨u, hmu, hid⟩
    rw [Commit.onInvoice_of_ne hne] at h
    exact ⟨h, hne⟩

/-- A commit keeps the invariant, if it records a payment of an invoice without one at most. -/
theorem SinglePayments.commit (h : SinglePayments c) (hc : Committed ev m c c')
    (hnew : ∀ d, m.paymentCreate = some d → c.state.db.Unrecorded d.invoiceId) :
    SinglePayments c' where
  stored p' hp' := by
    have hkept : ∀ i ∈ c.state.db.invoices, ∃ i' ∈ c'.state.db.invoices, i'.id = i.id := fun i hi =>
      ⟨_, hc.effect.keeps_invoice hi, terms_id (m.terms_onInvoice i)⟩
    rcases (hc.effect.payments p').1 hp' with ⟨p, hp, rfl⟩ | ⟨d, hd, rfl⟩
    · obtain ⟨i, hi, hid⟩ := h.stored p hp
      obtain ⟨i', hi', hid'⟩ := hkept i hi
      refine ⟨i', hi', ?_⟩
      rw [terms_invoiceId (m.terms_onPayment _ p), hid', hid]
    · cases m <;> cases hd
      obtain ⟨i, hi, hid⟩ := hc.effect.invoiceExists _ rfl
      obtain ⟨i', hi', hid'⟩ := hkept i hi
      exact ⟨i', hi', hid'.trans hid⟩
  single p' hp' q' hq' hpq := by
    have hfresh : ∀ d, m.paymentCreate = some d → ∀ p ∈ c.state.db.payments,
        (m.onPayment c.state.clock p).invoiceId ≠ d.invoiceId := by
      intro d hd p hp
      rw [terms_invoiceId (m.terms_onPayment _ p)]
      exact hnew d hd p hp
    rcases (hc.effect.payments p').1 hp' with ⟨p, hp, rfl⟩ | ⟨d, hd, rfl⟩ <;>
      rcases (hc.effect.payments q').1 hq' with ⟨q, hq, rfl⟩ | ⟨d', hd', rfl⟩
    · rw [terms_invoiceId (m.terms_onPayment _ p), terms_invoiceId (m.terms_onPayment _ q)] at hpq
      rw [h.single p hp q hq hpq]
    · exact absurd hpq (hfresh d' hd' p hp)
    · exact absurd hpq.symm (hfresh d hd q hq)
    · rw [hd] at hd'
      cases hd'
      rfl
  pending i' hi' hs := by
    rcases (hc.effect.invoices i').1 hi' with ⟨i, hi, rfl⟩ | ⟨d, hd, rfl⟩
    · obtain ⟨hs, hne⟩ := pending_onInvoice hs
      rw [terms_id (m.terms_onInvoice i)]
      refine Unrecorded.commit (h.pending i hi hs) hc.effect fun d hd hid => ?_
      cases m <;> cases hd
      exact hne _ rfl hid.symm
    · -- the payments belong to invoices that were there before
      intro p hp hid
      rcases (hc.effect.payments p).1 hp with ⟨p, hstored, rfl⟩ | ⟨d', hd', -⟩
      · rw [terms_invoiceId (m.terms_onPayment _ p)] at hid
        obtain ⟨i, hi, hii⟩ := h.stored p hstored
        exact hc.effect.freshInvoice d hd i hi (hii.trans hid)
      · cases m <;> cases hd
        cases hd'
  since pid id hsince := by
    rw [hc.trace] at hsince
    rcases hsince with ⟨-, w, is, hreturns, -⟩ | ⟨hnot, hrest⟩
    · rcases hc.records with ⟨d, row, -, hev⟩ | hev <;> rw [hev] at hreturns <;> cases hreturns
    · refine Unrecorded.commit (h.since pid id hrest) hc.effect fun d hd hid => hnot ⟨d, ?_, hid⟩
      rw [hc.records.written_eq]
      exact Commit.mem_writes_paymentCreate.mpr hd

/-! ## Runs -/

variable {allowed : Condition (effects adapterCalls) (World Unit)} {s s' : EvmSystem}
  {p : Proc (effects adapterCalls) Error Job} {op : Op adapterCalls}
  {k : (effects adapterCalls).Ret op → Prog (effects adapterCalls) Error Unit}

/-- A pass that is not disturbed writes to open payments, and settles an invoice once. -/
theorem Undisturbed.findsOpen (hs : EvmReachable n D allowed s) (hI : SinglePayments s.config)
    (hp : p ∈ s.procs) (hk : p.prog = .await op k) (h : Undisturbed s.config p.pid op) :
    FindsOpen s.config op := by
  rintro ws id d status rfl hw hd row hrow hid
  have hsome : d.status.isSome = true := by rw [hd]; rfl
  obtain ⟨row', hrow', hid', hopen⟩ := finds_open hs hp hk hw hsome (h.status ws id d rfl hw hsome)
  rw [Table.eq_of_key hrow' hrow (hid'.trans hid.symm)] at hopen
  refine ⟨fun hfinal => ?_, fun _ q hq hinvoice hsettled => ?_⟩
  · rw [hopen] at hfinal
    cases hfinal
  · rw [hI.single q hq row hrow hinvoice] at hsettled
    rw [hsettled.isFinal] at hopen
    cases hopen

/-- A payment that such a pass records is the first one of its invoice. -/
theorem Undisturbed.unrecorded (hs : EvmReachable n D Undisturbed s) (hI : SinglePayments s.config)
    {mv : EvmMove} {pid : ℕ} {input : Input Answer} (hmv : mv = .perform pid input)
    (hm : s.Meets Undisturbed mv) (hstep : evmStep n D s mv = some s')
    (hc : Committed ev m s.config s'.config) {d : PaymentCreateInput}
    (hd : m.paymentCreate = some d) : s.config.state.db.Unrecorded d.invoiceId := by
  subst hmv
  obtain ⟨job, op, k, r, state, hp, -, rfl⟩ := System.step_perform hstep
  obtain rfl : (⟨pid, op, r⟩ : Event (effects adapterCalls)) = ev := (List.cons.inj hc.trace).1
  rcases hc.records with ⟨_, _, rfl, -⟩ | hev
  · cases hd
  · cases hev
    have hw : .paymentCreate d ∈ m.writes := Commit.mem_writes_paymentCreate.mpr hd
    exact hI.since pid _ (detects_since hs hp rfl hw
      ((hm pid input job _ k rfl hp).recorded m.writes d rfl hw))

/-- A run whose passes are not disturbed. -/
theorem undisturbed_reaches (hs : EvmReachable n D Undisturbed s) :
    EvmReachable n D (fun c _ op => FindsOpen c op) s ∧ SinglePayments s.config := by
  induction hs with
  | initial h₀ =>
    refine ⟨.initial h₀, fun p hp => absurd hp (h₀.2.1 p), fun p hp => absurd hp (h₀.2.1 p),
      fun i hi => absurd hi (h₀.1 i), fun _ _ hsince => hsince.elim⟩
  | @step s s' mv hs hm hstep ih =>
    obtain ⟨hreach, hI⟩ := ih
    have hm' : s.Meets (fun c _ op => FindsOpen c op) mv :=
      hm.refines fun _ hp _ _ hk h => Undisturbed.findsOpen hs hI hp hk h
    refine ⟨.step mv hreach hm' hstep, ?_⟩
    rcases Ledger.step_commit (finalisations_sound n D) hreach hm' hstep with
      hrows | ⟨pid, input, j, ev, cm, hmv, -, -, hc, -⟩
    · rcases System.step_trace hstep with ht | ⟨input, ev, -, ht, hr, -⟩
      · exact hI.congr hrows fun pid id hsince => hI.since pid id (ht ▸ hsince)
      · exact hI.quiet hrows ht fun id hshows => (hshows.respond hr).1
    · exact hI.commit hc fun d hd => Undisturbed.unrecorded hs hI hmv hm hstep hc hd

/-- If passes do not disturb each other, payments are finalised once, however many overlap. -/
theorem undisturbed_idempotent (n : Replicas) (D : Setup) : Idempotent n D Undisturbed := by
  have honce := findsOpen_idempotent n D
  refine ⟨fun s hs => honce.events s (undisturbed_reaches hs).1,
    fun s hs => honce.confirmedAt s (undisturbed_reaches hs).1,
    fun s hs => honce.paidAt s (undisturbed_reaches hs).1, fun s hs m s' hm hstep => ?_⟩
  obtain ⟨hreach, hI⟩ := undisturbed_reaches hs
  exact honce.final s hreach m s'
    (hm.refines fun _ hp _ _ hk h => Undisturbed.findsOpen hs hI hp hk h) hstep

/-! ## Two passes with one payment -/

/-- The passes 3 and 4 hold the same `CONFIRMING` payment, and both have been told that
    it is deep enough. -/
def bothConfirmed : List EvmMove :=
  sampleInvoice 0 ++ sampleScan 1 ++ [.perform 1 .ok, .stop 1] ++
    sampleConfirm 2 1 ++ [.perform 2 .ok, .stop 2] ++ sampleConfirm 3 1 ++ sampleConfirm 4 1

/-- A pass settles the payment; `eventId` is the random part of its event's id. -/
def settles (pid : ℕ) (suffix : String) : List EvmMove := performs pid [.ok, .ok, .id suffix, .ok]

set_option maxRecDepth 8000 in
/-- Both settle it: two `payment.paid` events for one invoice, and both times are written
    twice. -/
theorem settled_twice : ∃ s, EvmReachable ⟨false, true⟩ sample anything s ∧
    (s.config.state.db.webhookEvents.rows.map fun e => (e.id, e.invoiceId, e.type),
      (allWritten s.config.trace).countP (setsConfirmedAt "pay_1"),
      (allWritten s.config.trace).countP (setsPaidAt "inv_1")) =
    ([("evt_2", "inv_1", "payment.paid"), ("evt_1", "inv_1", "payment.paid")], 2, 2) :=
  evmRun_view sampleWorld_unused (bothConfirmed ++ settles 3 "1" ++ settles 4 "2") (by decide)

set_option maxRecDepth 8000 in
/-- Pass 4 has been told that the transaction is missing, and moves a payment out of
    `CONFIRMED`. -/
theorem confirmed_left : ∃ s s', EvmReachable ⟨false, true⟩ sample anything s ∧
    evmStep ⟨false, true⟩ sample s (.perform 4 .ok) = some s' ∧
      (paymentStatuses s.config.state.db, paymentStatuses s'.config.state.db) =
        ([("pay_1", .confirmed)], [("pay_1", .reorgDetected)]) :=
  evmStep_view sampleWorld_unused (sampleInvoice 0 ++ sampleScan 1 ++ [.perform 1 .ok, .stop 1] ++
    sampleConfirm 2 1 ++ [.perform 2 .ok, .stop 2] ++ sampleConfirm 3 1 ++
    .start .confirm :: performs 4 [.ok, .ok, .ok,
      .other (.confirmations (.error (.notFound "Transaction not found")))] ++
    settles 3 "1") (by decide)

/-- Two confirm passes that overlap settle a payment twice, or move it out of a final
    status. -/
theorem overlapping_settled_twice :
    (∃ s, EvmReachable ⟨false, true⟩ sample anything s ∧
      ∃ e ∈ s.config.state.db.webhookEvents, ∃ e' ∈ s.config.state.db.webhookEvents, e ≠ e' ∧
        e.invoiceId = e'.invoiceId ∧ e.type = "payment.paid" ∧ e'.type = "payment.paid") ∧
    (∃ s m s', EvmReachable ⟨false, true⟩ sample anything s ∧
      evmStep ⟨false, true⟩ sample s m = some s' ∧ ∃ p ∈ s.config.state.db.payments,
        ∃ p' ∈ s'.config.state.db.payments, p'.id = p.id ∧ p.status = .confirmed ∧
          p'.status = .reorgDetected) ∧
    ¬ Idempotent ⟨false, true⟩ sample anything := by
  obtain ⟨s, hs, hx⟩ := settled_twice
  obtain ⟨hevents, -⟩ := Prod.mk.inj hx
  obtain ⟨e, he, heq⟩ := List.mem_map.mp (hevents ▸ List.mem_cons_self)
  obtain ⟨e', he', heq'⟩ :=
    List.mem_map.mp (hevents ▸ List.mem_cons_of_mem _ (List.mem_singleton_self _))
  simp only [Prod.mk.injEq] at heq heq'
  have hne : e ≠ e' := by
    rintro rfl
    exact absurd (heq.1.symm.trans heq'.1) (by decide)
  have hinv : e.invoiceId = e'.invoiceId := heq.2.1.trans heq'.2.1.symm
  obtain ⟨t, t', ht, hstep, hy⟩ := confirmed_left
  obtain ⟨hbefore, hafter⟩ := Prod.mk.inj hy
  obtain ⟨p, hp, hid, hst⟩ := mem_paymentStatuses (hbefore ▸ List.mem_singleton_self _)
  obtain ⟨p', hp', hid', hst'⟩ := mem_paymentStatuses (hafter ▸ List.mem_singleton_self _)
  refine ⟨⟨s, hs, e, he, e', he', hne, hinv, heq.2.2, heq'.2.2⟩,
    ⟨t, _, t', ht, hstep, p, hp, p', hp', hid'.trans hid.symm, hst, hst'⟩, fun h => hne ?_⟩
  refine h.events s hs e he e' he' ?_ ?_ hinv
  · rw [heq.2.2]
    exact List.mem_cons_self
  · rw [heq'.2.2]
    exact List.mem_cons_self

end CryptoPay.Worker
