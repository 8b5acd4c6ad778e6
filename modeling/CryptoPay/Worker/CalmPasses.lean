import CryptoPay.Worker.CalmBodies

/-!
# A confirm pass that nothing disturbs

One pass of the confirm worker alone (`calm`), with an adapter that knows of each
transaction how many confirmations it has or that it is missing.

Results:
* `calmPass_inv`: a pass expires the overdue invoices, asks for the active payments, and visits
  each of them.
* `calmPass_made`: where payments and invoices are paired off, the pass returns, and is the batch
  of its tasks.
-/

namespace CryptoPay.Worker

open Async Data

variable {pid : ℕ} {answers : String → Option ℤ} {requiredConfirmations : ℤ} {D : String → Bool}
  {w w₁ w' : World Unit} {evs : List (Event (effects adapterCalls))} {x : Except Error Unit}
  {e : Entry} {p : PaymentWithInvoice} {m : Commit}

/-! ## The loops -/

/-- The commit changes the payment, and no invoice but its own; its event is one of that. -/
structure About (p : PaymentWithInvoice) (m : Commit) : Prop where
  payment : ∃ d, m.paymentUpdate = some (p.id, d)
  invoice : ∀ u, m.invoiceUpdate = some u → u.1 = p.invoiceId
  event : ∀ d, m.webhookEventCreate = some d → d.invoiceId = p.invoice.id

theorem missingVerdict_about {r : Readings} (h : missingVerdict r p = some m) : About p m := by
  unfold missingVerdict at h
  split_ifs at h <;> cases h
  · exact ⟨⟨_, rfl⟩, by rintro _ ⟨⟩; rfl, nofun⟩
  · exact ⟨⟨_, rfl⟩, nofun, nofun⟩
  · exact ⟨⟨_, rfl⟩, by rintro _ ⟨⟩; rfl, nofun⟩

theorem presentVerdict_about {r : Readings} {eventId : String} {n : ℤ}
    (h : presentVerdict requiredConfirmations r eventId p n = some m) : About p m := by
  unfold presentVerdict at h
  split_ifs at h <;> cases h
  · exact ⟨⟨_, rfl⟩, by rintro _ ⟨⟩; rfl, nofun⟩
  · exact ⟨⟨_, rfl⟩, nofun, nofun⟩
  · exact ⟨⟨_, rfl⟩, by rintro _ ⟨⟩; rfl, by rintro _ ⟨⟩; rfl⟩
  · exact ⟨⟨_, rfl⟩, by rintro _ ⟨⟩; rfl, by rintro _ ⟨⟩; rfl⟩

theorem verdict_about {r : Readings} {eventId : String} {answer : Option ℤ}
    (h : verdict requiredConfirmations r eventId answer p = some m) : About p m := by
  unfold verdict at h
  split at h
  · cases h
  · split at h
    · cases h
    · split at h
      · exact missingVerdict_about h
      · exact presentVerdict_about h

/-- What a loop body commits names the rows of its task only. -/
theorem Entry.targets {d : Dated} (h : e.dated requiredConfirmations answers = some d) :
    (∀ k, d.payment.target = some k → e.task.paymentId = some k) ∧
      ∀ k, d.invoice.target = some k → e.task.invoiceId = k := by
  obtain ⟨m, hm, rfl⟩ := Option.map_eq_some_iff.mp h
  unfold Entry.commit at hm
  cases htask : e.task with
  | expire i =>
    rw [htask] at hm
    obtain rfl := Option.some.inj hm
    exact ⟨nofun, fun k hk => Option.some.inj hk⟩
  | confirm p =>
    rw [htask] at hm
    obtain ⟨⟨d, hpay⟩, hinv, -⟩ := verdict_about hm
    refine ⟨fun k hk => ?_, fun k hk => ?_⟩
    · obtain ⟨u, hu, rfl⟩ := Option.map_eq_some_iff.mp hk
      rw [hpay] at hu
      obtain rfl := Option.some.inj hu
      rfl
    · obtain ⟨u, hu, rfl⟩ := Option.map_eq_some_iff.mp hk
      exact (hinv u hu).symm

/-- The rows of a task stay, while another one is done. -/
theorem Task.Ready.kept {t t' : Task} (h : t'.Ready w.db) (hap : t.Apart t')
    (hr : Performed requiredConfirmations answers [t] w w' [e]) : t'.Ready w'.db := by
  obtain rfl : e.task = t := List.singleton_inj.mp hr.tasks
  have htargets : ∀ d ∈ [e].filterMap (Entry.dated requiredConfirmations answers),
      (∀ k, d.payment.target = some k → e.task.paymentId = some k) ∧
        ∀ k, d.invoice.target = some k → e.task.invoiceId = k := by
    intro d hd
    obtain ⟨e', he', hdated⟩ := List.mem_filterMap.mp hd
    obtain rfl := List.mem_singleton.mp he'
    exact Entry.targets hdated
  cases t' with
  | expire i =>
    refine (hr.batch.invoices i).mpr ⟨i, h, (after_of_ne fun a ha => ?_).symm⟩
    obtain ⟨d, hd, rfl⟩ := List.mem_map.mp ha
    exact fun htarget => hap.1 ((htargets d hd).2 _ htarget)
  | confirm p =>
    refine ⟨hr.batch.stored (fun d hd htarget => ?_) (fun d hd htarget => ?_) h.1, h.2⟩
    · exact hap.2 _ ((htargets d hd).1 _ htarget) rfl
    · exact hap.1 (((htargets d hd).2 _ htarget).trans h.1.id.symm)

/-- A loop over tasks that are apart does each of them. -/
theorem forEach_made {β : Type} {body : β → Action adapterCalls Unit} (task : β → Task)
    (hbody : ∀ y w w' evs x, (task y).Ready w.db → Runs (calm (fixedAnswers answers)) pid (body y) w evs x w' →
      x = .ok () ∧ ∃ e, Performed requiredConfirmations answers [task y] w w' [e])
    {ys : List β} (hready : ∀ y ∈ ys, (task y).Ready w.db)
    (hapart : ys.Pairwise fun y z => (task y).Apart (task z))
    (h : Runs (calm (fixedAnswers answers)) pid (.forEach body ys) w evs x w') :
    x = .ok () ∧ ∃ es, Performed requiredConfirmations answers (ys.map task) w w' es := by
  induction ys generalizing w evs with
  | nil =>
    obtain ⟨-, rfl, hd⟩ := Runs.ret_inv h
    exact ⟨rfl, [], .nil (calm_drifts hd)⟩
  | cons y ys ih =>
    obtain ⟨hy, hys⟩ := List.pairwise_cons.mp hapart
    have hfirst := hready y List.mem_cons_self
    obtain ⟨⟨⟩, w₁, _, _, -, hrun, hrest⟩ := Runs.bind_returns h fun _ _ _ hrun =>
      ⟨(), (hbody _ _ _ _ _ hfirst hrun).1⟩
    obtain ⟨-, e, he⟩ := hbody _ _ _ _ _ hfirst hrun
    obtain ⟨rfl, es, hes⟩ := ih (fun z hz =>
      (hready z (List.mem_cons_of_mem y hz)).kept (hy z hz) he) hys hrest
    exact ⟨rfl, e :: es, he.trans hes⟩

/-! ## The pass -/

/-- Each active payment has an invoice of its own, and the two statuses are a pair. -/
structure PairedOff (db : Db) : Prop where
  invoice : ∀ p ∈ db.payments, p.status ∈ activeStatuses →
    ∃ i ∈ db.invoices, i.id = p.invoiceId ∧ Paired p.status i.status
  own : ∀ p ∈ db.payments, ∀ q ∈ db.payments, p.status ∈ activeStatuses →
    q.status ∈ activeStatuses → p.invoiceId = q.invoiceId → p = q

/-- The tasks of a pass that reads the clock at `t`: the overdue invoices, then the active
    payments, each in some order. -/
structure Agenda (db : Db) (t : Time) (overdue : List Invoice) (active : List PaymentWithInvoice) :
    Prop where
  mem_overdue : ∀ i, i ∈ overdue ↔ i ∈ db.invoices ∧ i.status = .pending ∧ i.expiresAt < t
  nodup_overdue : overdue.Nodup
  mem_active : ∀ p, p ∈ active ↔ Stored p db ∧ p.status ∈ activeStatuses
  nodup_active : active.Nodup

/-- The tasks in their order. -/
def agenda (overdue : List Invoice) (active : List PaymentWithInvoice) : List Task :=
  overdue.map .expire ++ active.map .confirm

theorem paired_not_pending {s : PaymentStatus} {i : InvoiceStatus} (h : Paired s i) :
    i ≠ .pending := by
  rintro rfl
  rcases h with ⟨-, h⟩ | ⟨-, h⟩ | ⟨-, h⟩ <;> cases h

section Agenda

variable {db : Db} {t : Time} {overdue : List Invoice} {active : List PaymentWithInvoice}

theorem PairedOff.paired (h : PairedOff db) (hs : Stored p db) (ha : p.status ∈ activeStatuses) :
    Paired p.status p.invoice.status := by
  obtain ⟨i, hi, hid, hpair⟩ := h.invoice _ hs.payment ha
  rwa [hs.invoice_eq hi hid] at hpair

theorem overdue_apart (hmem : ∀ i ∈ overdue, i ∈ db.invoices) (hnodup : overdue.Nodup) :
    overdue.Pairwise fun i j => (Task.expire i).Apart (.expire j) := by
  refine hnodup.pairwise_of_forall_ne fun i hi j hj hne => ⟨fun hid => hne ?_, nofun⟩
  exact Table.eq_of_key (hmem i hi) (hmem j hj) hid

theorem Agenda.active_apart (hp : PairedOff db) (h : Agenda db t overdue active) :
    active.Pairwise fun p q => (Task.confirm p).Apart (.confirm q) := by
  refine h.nodup_active.pairwise_of_forall_ne fun p hp' q hq' hne => ?_
  obtain ⟨hps, hpa⟩ := (h.mem_active p).mp hp'
  obtain ⟨hqs, hqa⟩ := (h.mem_active q).mp hq'
  have hrows : p.toPayment = q.toPayment → p = q := by
    intro heq
    have hinvoice : p.invoice = q.invoice :=
      Table.eq_of_key hps.invoice hqs.invoice (by rw [← hps.id, ← hqs.id, heq])
    obtain ⟨p, i⟩ := p
    obtain ⟨q, j⟩ := q
    rw [show p = q from heq, show i = j from hinvoice]
  refine ⟨fun hid => hne (hrows (hp.own _ hps.payment _ hqs.payment hpa hqa hid)), ?_⟩
  rintro id ⟨⟩ hid
  exact hne (hrows (Table.eq_of_key hps.payment hqs.payment (Option.some.inj hid).symm))

theorem Agenda.apart (hp : PairedOff db) (h : Agenda db t overdue active) :
    (agenda overdue active).Pairwise Task.Apart := by
  unfold agenda
  rw [List.pairwise_append, List.pairwise_map, List.pairwise_map]
  refine ⟨overdue_apart (fun i hi => ((h.mem_overdue i).mp hi).1) h.nodup_overdue,
    h.active_apart hp, ?_⟩
  intro task htask task' htask'
  obtain ⟨i, hi, rfl⟩ := List.mem_map.mp htask
  obtain ⟨p, hp', rfl⟩ := List.mem_map.mp htask'
  obtain ⟨hs, ha⟩ := (h.mem_active p).mp hp'
  obtain ⟨hi, hpending, -⟩ := (h.mem_overdue i).mp hi
  refine ⟨fun hid => paired_not_pending (hp.paired hs ha) ?_, nofun⟩
  rw [← hs.invoice_eq hi hid]
  exact hpending

end Agenda

section Pass

variable {t : Time} {overdue : List Invoice} {active : List PaymentWithInvoice}

theorem stored_iff {db : Db} : p ∈ db.paymentsWithInvoice activeStatuses ↔
    Stored p db ∧ p.status ∈ activeStatuses := by
  rw [mem_paymentsWithInvoice]
  exact ⟨fun ⟨hp, ha, hi, hid⟩ => ⟨⟨hp, hi, hid.symm⟩, ha⟩,
    fun ⟨hs, ha⟩ => ⟨hs.payment, ha, hs.invoice, hs.id.symm⟩⟩

/-- Expiring overdue invoices does not touch active payments and their invoices. -/
theorem stored_of_expired {es : List Entry} (hp : PairedOff w.db)
    (hoverdue : ∀ i, i ∈ overdue ↔ i ∈ w.db.invoices ∧ i.status = .pending ∧ i.expiresAt < t)
    (hr : Performed requiredConfirmations answers (overdue.map .expire) w w' es)
    (ha : p.status ∈ activeStatuses) : Stored p w'.db ↔ Stored p w.db := by
  have htask : ∀ d ∈ es.filterMap (Entry.dated requiredConfirmations answers),
      d.payment.target = none ∧ ∀ k, d.invoice.target = some k → ∃ i ∈ overdue, i.id = k := by
    intro d hd
    obtain ⟨e, he, hdated⟩ := List.mem_filterMap.mp hd
    obtain ⟨i, hi, htask⟩ := List.mem_map.mp (hr.tasks ▸ List.mem_map_of_mem he)
    obtain ⟨hpay, hinv⟩ := Entry.targets hdated
    rw [← htask] at hpay hinv
    refine ⟨?_, fun k hk => ⟨i, hi, hinv k hk⟩⟩
    cases htarget : d.payment.target with
    | none => rfl
    | some k => cases hpay k htarget
  have hkept : ∀ q : PaymentWithInvoice, q.status ∈ activeStatuses → Stored q w.db →
      Stored q w'.db := by
    intro q hqa hq
    refine hr.batch.stored (fun d hd => ?_) (fun d hd hk => ?_) hq
    · rw [(htask d hd).1]
      exact nofun
    · obtain ⟨i, hi, hid⟩ := (htask d hd).2 _ hk
      obtain ⟨hi, hpending, -⟩ := (hoverdue i).mp hi
      refine paired_not_pending (hp.paired hq hqa) ?_
      rw [← hq.invoice_eq hi (hid.trans hq.id.symm)]
      exact hpending
  refine ⟨fun hs => ?_, hkept p ha⟩
  -- the payment was there, and so was the invoice that it had then
  have hpay : p.toPayment ∈ w.db.payments := by
    obtain ⟨q, hq, hqp⟩ := (hr.batch.payments _).mp hs.payment
    rw [after_of_ne] at hqp
    · exact hqp ▸ hq
    · intro a ha
      obtain ⟨d, hd, rfl⟩ := List.mem_map.mp ha
      rw [(htask d hd).1]
      exact nofun
  obtain ⟨i, hi, hid, -⟩ := hp.invoice _ hpay ha
  have hq : Stored ⟨p.toPayment, i⟩ w.db := ⟨hpay, hi, hid.symm⟩
  have hinvoice : p.invoice = i := (hkept ⟨p.toPayment, i⟩ ha hq).invoice_eq hs.invoice hs.id.symm
  exact ⟨hpay, hinvoice ▸ hi, hs.id⟩

/-- `expireOverdueInvoices` reads the clock, asks for the overdue invoices, and expires each. -/
theorem expireOverdueInvoices_inv
    (h : Runs (calm (fixedAnswers answers)) pid expireOverdueInvoices w evs x w') :
    ∃ t overdue w₁ evs₁ evs₂, evs = evs₁ ++ evs₂ ∧ (w.clock ≤ t ∧ t ≤ w₁.clock) ∧ Later w w₁ ∧
      writtenIn evs₁ = [] ∧
      (∀ i, i ∈ overdue ↔ i ∈ w.db.invoices ∧ i.status = .pending ∧ i.expiresAt < t) ∧
      overdue.Nodup ∧
      Runs (calm (fixedAnswers answers)) pid (.forEach expireInvoice overdue) w₁ evs₂ x w' := by
  obtain ⟨t, w₁, evs₁, _, rfl, hnow, h⟩ := Runs.bind_returns (p := dateNow) h fun _ _ _ hrun => by
    obtain ⟨t, hx, -⟩ := calm_now hrun
    exact ⟨t, hx⟩
  have hquiet₁ := unwriting_written dateNow_unwriting hnow
  obtain ⟨_, ⟨⟩, hle, hle', hnext⟩ := calm_now hnow
  obtain ⟨overdue, w₂, evs₂, evs₃, rfl, hquery, h⟩ := h.bind_returns fun _ _ _ hrun => by
    obtain ⟨db, -, hx, -⟩ := calm_read (.invoiceFindMany (overdueWhere t))
      (fun db => db.invoices.filter (overdueWhere t).holds) (fun _ _ => rfl) hrun
    exact ⟨_, hx⟩
  have hquiet₂ : writtenIn evs₂ = [] := unwriting_written (Prog.Only.request
    (show Unwriting (A := adapterCalls) (.prisma (.invoiceFindMany _)) from trivial)) hquery
  obtain ⟨db, hrows', hx, hlater⟩ := calm_read (.invoiceFindMany (overdueWhere t))
    (fun db => db.invoices.filter (overdueWhere t).holds) (fun _ _ => rfl) hquery
  obtain rfl := Except.ok.inj hx
  refine ⟨t, _, w₂, evs₁ ++ evs₂, evs₃, (List.append_assoc _ _ _).symm,
    ⟨hle, le_trans hle' hlater.clock⟩, hnext.trans hlater, ?_, fun i => ?_, ?_, h⟩
  · rw [writtenIn_append, hquiet₁, hquiet₂]
    rfl
  · rw [Table.mem_filter, overdueWhere_holds, (hnext.rows.trans hrows').invoices]
  · exact (db.invoices.nodup_filter _).of_map

theorem expireOverdueInvoices_made (requiredConfirmations : ℤ)
    (h : Runs (calm (fixedAnswers answers)) pid expireOverdueInvoices w evs x w') :
    x = .ok () ∧ ∃ (t : Time) (overdue : List Invoice) (es : List Entry), (w.clock ≤ t ∧ t ≤ w'.clock) ∧
      (∀ i, i ∈ overdue ↔ i ∈ w.db.invoices ∧ i.status = .pending ∧ i.expiresAt < t) ∧
      overdue.Nodup ∧ Performed requiredConfirmations answers (overdue.map .expire) w w' es := by
  obtain ⟨t, overdue, w₁, _, _, -, ⟨hle, hle'⟩, hlater, -, hmem, hnodup, h⟩ :=
    expireOverdueInvoices_inv h
  have hbody : ∀ i w w' evs x, (Task.expire i).Ready w.db →
      Runs (calm (fixedAnswers answers)) pid (expireInvoice i) w evs x w' →
      x = .ok () ∧ ∃ e, Performed requiredConfirmations answers [.expire i] w w' [e] :=
    fun i _ _ _ _ hready hrun => expireInvoice_made hready hrun
  obtain ⟨rfl, es, hes⟩ := forEach_made .expire hbody
    (fun i hi => (hlater.rows.invoices i).2 ((hmem i).mp hi).1)
    (overdue_apart (fun i hi => ((hmem i).mp hi).1) hnodup) h
  refine ⟨rfl, t, _, es, ⟨hle, le_trans hle' hes.clock⟩, hmem, hnodup, ?_⟩
  have hread : Performed requiredConfirmations answers [] w w₁ [] := .nil hlater
  exact hread.trans hes

/-- A pass expires the overdue invoices, asks for the active payments, and visits each. -/
theorem calmPass_inv (h : CalmPass pid D requiredConfirmations answers w evs x w') :
    ∃ w₁ w₂ evs₁ evs₂ evs₃ active, evs = evs₁ ++ (evs₂ ++ evs₃) ∧
      Runs (calm (fixedAnswers answers)) pid expireOverdueInvoices w evs₁ (.ok ()) w₁ ∧
      Later w₁ w₂ ∧ writtenIn evs₂ = [] ∧ (∃ ev ∈ evs₂, ReturnsPayments activeStatuses active ev) ∧
      (∀ p, p ∈ active ↔ Stored p w₁.db ∧ p.status ∈ activeStatuses) ∧ active.Nodup ∧
      Runs (calm (fixedAnswers answers)) pid
        (.forEach (confirmPayment (oracle D) requiredConfirmations) active) w₂ evs₃ x w' := by
  obtain ⟨⟨⟩, w₁, evs₁, _, rfl, hexpire, h⟩ := Runs.bind_returns (p := expireOverdueInvoices) h
    fun _ _ _ hrun => ⟨(), (expireOverdueInvoices_made requiredConfirmations hrun).1⟩
  obtain ⟨active, w₂, evs₂, evs₃, rfl, hquery, hloop⟩ := h.bind_returns fun _ _ _ hrun => by
    obtain ⟨db, -, hx, -⟩ := calm_read (.paymentFindMany activeStatuses)
      (fun db => db.paymentsWithInvoice activeStatuses) (fun _ _ => rfl) hrun
    exact ⟨_, hx⟩
  have hquiet : writtenIn evs₂ = [] := unwriting_written (Prog.Only.request
    (show Unwriting (A := adapterCalls) (.prisma (.paymentFindMany _)) from trivial)) hquery
  obtain ⟨db, hrows, hx, hlater⟩ := calm_read (.paymentFindMany activeStatuses)
    (fun db => db.paymentsWithInvoice activeStatuses) (fun _ _ => rfl) hquery
  obtain ⟨_, _, r, _, -, -, rfl, hr, -⟩ := hquery.request_inv
  obtain rfl := Except.ok.inj hx
  obtain rfl : Except.ok (db.paymentsWithInvoice activeStatuses) = r := hr
  refine ⟨w₁, w₂, evs₁, _, evs₃, _, rfl, hexpire, hlater, hquiet,
    ⟨_, List.mem_singleton_self _, rfl⟩, fun p => ?_,
    (db.nodup_paymentsWithInvoice activeStatuses).of_map, hloop⟩
  rw [stored_iff]
  exact and_congr_left fun _ => ⟨fun hs => hs.congr hrows.symm, fun hs => hs.congr hrows⟩

/-- An undisturbed pass returns, and does the tasks of its agenda. -/
theorem calmPass_made (hp : PairedOff w.db)
    (h : CalmPass pid D requiredConfirmations answers w evs x w') :
    x = .ok () ∧ ∃ t overdue active es, (w.clock ≤ t ∧ t ≤ w'.clock) ∧
      Agenda w.db t overdue active ∧
      Performed requiredConfirmations answers (agenda overdue active) w w' es := by
  obtain ⟨w₁, w₂, _, _, _, active, -, hexpire, hlater, -, -, hactive, hnodup', h⟩ := calmPass_inv h
  -- the overdue invoices
  obtain ⟨-, t, overdue, es, ht, hmem, hnodup, hes⟩ :=
    expireOverdueInvoices_made requiredConfirmations hexpire
  -- the snapshot
  have hstored : ∀ p, p ∈ active ↔ Stored p w.db ∧ p.status ∈ activeStatuses := by
    intro p
    rw [hactive]
    exact and_congr_left fun ha => stored_of_expired hp hmem hes ha
  have hagenda : Agenda w.db t overdue active := ⟨hmem, hnodup, hstored, hnodup'⟩
  -- the payments
  have hbody : ∀ p w w' evs x, (Task.confirm p).Ready w.db →
      Runs (calm (fixedAnswers answers)) pid (confirmPayment (oracle D) requiredConfirmations p) w evs x w' →
      x = .ok () ∧ ∃ e, Performed requiredConfirmations answers [.confirm p] w w' [e] :=
    fun p _ _ _ _ hready hrun => confirmPayment_made hready.1 hready.2 hrun
  have hready : ∀ p ∈ active, (Task.confirm p).Ready w₂.db := by
    intro p hmem'
    obtain ⟨hs, ha⟩ := (hstored p).mp hmem'
    have hs₂ := (stored_of_expired hp hmem hes ha).mpr hs
    exact ⟨hs₂.congr hlater.rows, hp.paired hs ha⟩
  obtain ⟨rfl, es', hes'⟩ := forEach_made .confirm hbody hready (hagenda.active_apart hp) h
  refine ⟨rfl, t, overdue, _, es ++ es', ⟨ht.1, ?_⟩, hagenda, ?_⟩
  · exact le_trans ht.2 (le_trans hlater.clock hes'.clock)
  · have hsnapshot : Performed requiredConfirmations answers [] w₁ w₂ [] := .nil hlater
    exact hes.trans (hsnapshot.trans hes')

end Pass

end CryptoPay.Worker
