import CryptoPay.Worker.CalmPasses

/-!
# The order of a confirm pass does not matter

`payment.findMany` has no `orderBy`. In a database where each active payment has
an invoice of its own, and the two statuses are a pair, the loop bodies of an
undisturbed pass change different rows.

Results:
* `Performed.decides`: of all commits, the one of a task alone decides its rows.
* `CalmPass.outcome`: what becomes of a payment, its invoice and its events.
* `CalmPass.same`: at one time, two passes do the same.
* `confirm_order_independent`: both, and that the pass returns.
-/

namespace CryptoPay.Worker

open Async Data

/-- The event without its generated id. -/
def anonymous (e : WebhookEvent) : WebhookEvent := { e with id := "" }

/-- The same rows, up to the ids of events. -/
structure SameResult (db db' : Db) : Prop where
  invoices : ∀ i, i ∈ db'.invoices ↔ i ∈ db.invoices
  payments : ∀ p, p ∈ db'.payments ↔ p ∈ db.payments
  webhookEvents : (db'.webhookEvents.rows.map anonymous).Perm (db.webhookEvents.rows.map anonymous)

/-- The events of an invoice, without their ids. -/
def eventsOf (db : Db) (invoiceId : String) : List WebhookEvent :=
  (db.webhookEvents.filter fun e => e.invoiceId = invoiceId).map anonymous

/-- What becomes of an active payment, of its invoice, and of its events. -/
structure Outcome where
  payment : Payment
  invoice : Invoice
  events : List WebhookEvent

/-- The outcome, by the payment, its invoice, the clock and the adapter's answer about its
    transaction. -/
def outcome (requiredConfirmations : ℤ) (r : Readings) (answer : Option ℤ)
    (p : PaymentWithInvoice) : Outcome :=
  match verdict requiredConfirmations r "" answer p with
  | none => ⟨p.toPayment, p.invoice, []⟩
  | some m => ⟨m.onPayment r.committed p.toPayment, m.onInvoice p.invoice,
    (Dated.event (m, r.committed)).toList.map anonymous⟩

/-- The database has the outcome, and no other events of the invoice are new. -/
structure Outcome.In (o : Outcome) (db db' : Db) (invoiceId : String) : Prop where
  payment : o.payment ∈ db'.payments
  invoice : o.invoice ∈ db'.invoices
  events : (eventsOf db' invoiceId).Perm (o.events ++ eventsOf db invoiceId)

/-- The pass does not depend on the order of the rows. -/
structure OrderIndependent (D : String → Bool) (requiredConfirmations : ℤ)
    (answers : String → Option ℤ) (w : World Unit) : Prop where
  /-- The pass runs to its end, and returns. -/
  runs : ∀ pid, ∃ evs x w', CalmPass pid D requiredConfirmations answers w evs x w'
  returns : ∀ pid evs x w', CalmPass pid D requiredConfirmations answers w evs x w' → x = .ok ()
  /-- At one time, passes over the same rows in any two orders leave the same rows. -/
  same : ∀ pid pid' evs evs' x x' w₀ w₁ w₂, w.db.SameRows w₀.db → w₀.clock = w.clock →
    CalmPass pid D requiredConfirmations answers w evs x w₁ →
    CalmPass pid' D requiredConfirmations answers w₀ evs' x' w₂ →
    w₁.clock = w.clock → w₂.clock = w.clock → SameResult w₁.db w₂.db
  /-- What becomes of a payment depends on its own rows, the clock and its own answer. -/
  own : ∀ pid evs x w', CalmPass pid D requiredConfirmations answers w evs x w' →
    ∀ p, Stored p w.db → p.status ∈ activeStatuses → ∃ r : Readings, r.Within w.clock w'.clock ∧
      (outcome requiredConfirmations r (answers (p.txHash.getD "")) p).In w.db w'.db p.invoiceId
  /-- Other payments stay as they are. -/
  inactive : ∀ pid evs x w', CalmPass pid D requiredConfirmations answers w evs x w' →
    ∀ p ∈ w.db.payments, p.status ∉ activeStatuses → p ∈ w'.db.payments

variable {pid : ℕ} {answers : String → Option ℤ} {requiredConfirmations : ℤ} {D : String → Bool}
  {w w' : World Unit} {evs : List (Event (effects adapterCalls))} {x : Except Error Unit}
  {e : Entry} {p : PaymentWithInvoice} {m : Commit} {es : List Entry} {tasks : List Task}

/-! ## Each task by itself -/

/-- The commit with another id for its event. -/
def withId (id : String) : Commit → Commit
  | .expire i _ => .expire i id
  | .settle p n confirmedAt paidAt _ => .settle p n confirmedAt paidAt id
  | m => m

@[simp] theorem payment_withId (id : String) (m : Commit) (t : Time) :
    Dated.payment (withId id m, t) = Dated.payment (m, t) := by
  cases m <;> rfl

@[simp] theorem invoice_withId (id : String) (m : Commit) (t : Time) :
    Dated.invoice (withId id m, t) = Dated.invoice (m, t) := by
  cases m <;> rfl

@[simp] theorem event_withId (id : String) (m : Commit) (t : Time) :
    (Dated.event (withId id m, t)).map anonymous = (Dated.event (m, t)).map anonymous := by
  cases m <;> rfl

theorem missingVerdict_withId (id : String) (r : Readings) :
    (missingVerdict r p).map (withId id) = missingVerdict r p := by
  unfold missingVerdict
  split_ifs <;> rfl

theorem presentVerdict_withId (id : String) (r : Readings) (n : ℤ) :
    (presentVerdict requiredConfirmations r "" p n).map (withId id) =
      presentVerdict requiredConfirmations r id p n := by
  unfold presentVerdict
  split_ifs <;> rfl

/-- The id that a body generates has no influence on what it does. -/
theorem verdict_withId (id : String) (r : Readings) (answer : Option ℤ) :
    (verdict requiredConfirmations r "" answer p).map (withId id) =
      verdict requiredConfirmations r id answer p := by
  unfold verdict
  cases p.txHash with
  | none => rfl
  | some txHash =>
    dsimp only
    split_ifs
    · rfl
    · cases answer with
      | none => exact missingVerdict_withId id r
      | some n => exact presentVerdict_withId id r n

/-- What is committed for an entry, under the id that was generated. -/
theorem Entry.dated_withId (e : Entry) :
    ((Entry.mk e.task e.readings "").dated requiredConfirmations answers).map
      (fun d => (withId e.eventId d.1, d.2)) = e.dated requiredConfirmations answers := by
  obtain ⟨task, r, id⟩ := e
  cases task with
  | expire i => rfl
  | confirm p =>
    unfold Entry.dated Entry.commit
    dsimp only
    rw [← verdict_withId id]
    cases verdict requiredConfirmations r "" (answers (p.txHash.getD "")) p <;> rfl

/-- The event of a commit is one of the invoice that it changes. -/
theorem Entry.event_invoice (db : Db) {d : Dated} {event : WebhookEvent} (hready : e.task.Ready db)
    (hd : e.dated requiredConfirmations answers = some d) (hevent : d.event = some event) :
    event.invoiceId = e.task.invoiceId := by
  obtain ⟨m, hm, rfl⟩ := Option.map_eq_some_iff.mp hd
  obtain ⟨input, hinput, rfl⟩ := Option.map_eq_some_iff.mp hevent
  obtain ⟨task, r, id⟩ := e
  cases task with
  | expire i =>
    obtain rfl := Option.some.inj hm
    obtain rfl := Option.some.inj hinput
    rfl
  | confirm p =>
    exact ((verdict_about hm).event input hinput).trans hready.1.id.symm

/-- The commit is about other rows than the task. -/
structure Elsewhere (t : Task) (d : Dated) : Prop where
  payment : ∀ id, t.paymentId = some id → d.payment.target ≠ some id
  invoice : d.invoice.target ≠ some t.invoiceId
  event : ∀ e, d.event = some e → e.invoiceId ≠ t.invoiceId

theorem Task.Apart.symm {t t' : Task} (h : t.Apart t') : t'.Apart t :=
  ⟨h.1.symm, fun id hid hid' => h.2 id hid' hid⟩

theorem Task.Apart.elsewhere {t : Task} {d : Dated} {db : Db} (h : t.Apart e.task)
    (hready : e.task.Ready db) (hd : e.dated requiredConfirmations answers = some d) :
    Elsewhere t d where
  payment id hid htarget := h.2 id hid ((Entry.targets hd).1 id htarget)
  invoice htarget := h.1 ((Entry.targets hd).2 _ htarget).symm
  event _ hevent heq := h.1 (heq.symm.trans (Entry.event_invoice _ hready hd hevent))

/-- Entries of tasks that are apart are apart. -/
theorem Performed.entries_apart (hr : Performed requiredConfirmations answers tasks w w' es)
    (hap : tasks.Pairwise Task.Apart) : es.Pairwise fun e e' => e.task.Apart e'.task := by
  rw [← hr.tasks, List.pairwise_map] at hap
  exact hap

/-- Of all commits, the one of a task alone is about its rows. -/
theorem Performed.decides (hr : Performed requiredConfirmations answers tasks w w' es)
    (hap : tasks.Pairwise Task.Apart) (hready : ∀ t ∈ tasks, t.Ready w.db) {t : Task}
    (ht : t ∈ tasks) : ∃ e before rest, e.task = t ∧ e ∈ es ∧
      es.filterMap (Entry.dated requiredConfirmations answers) =
        before ++ (e.dated requiredConfirmations answers).toList ++ rest ∧
      ∀ d ∈ before ++ rest, Elsewhere t d := by
  rw [← hr.tasks] at ht
  obtain ⟨e, he, rfl⟩ := List.mem_map.mp ht
  obtain ⟨before, rest, rfl⟩ := List.append_of_mem he
  have hperm : (before ++ e :: rest).Perm (e :: (before ++ rest)) := List.perm_middle
  have hapart := List.pairwise_cons.mp
    ((hperm.pairwise_iff fun {_ _} => Task.Apart.symm).mp (hr.entries_apart hap))
  refine ⟨e, before.filterMap (Entry.dated requiredConfirmations answers),
    rest.filterMap (Entry.dated requiredConfirmations answers), rfl, he, ?_, fun d hd => ?_⟩
  · rw [List.filterMap_append, List.filterMap_cons, List.append_assoc]
    cases e.dated requiredConfirmations answers <;> rfl
  · rw [← List.filterMap_append] at hd
    obtain ⟨e', he', hd⟩ := List.mem_filterMap.mp hd
    refine (hapart.1 e' he').elsewhere (hready _ ?_) hd
    rw [← hr.tasks]
    refine List.mem_map_of_mem ((List.mem_append.mp he').elim ?_ ?_)
    · exact List.mem_append_left _
    · exact fun he' => List.mem_append_right _ (List.mem_cons_of_mem _ he')

/-- The outcome, by what is committed. -/
theorem outcome_eq (htask : e.task = .confirm p) :
    outcome requiredConfirmations e.readings (answers (p.txHash.getD "")) p =
      ⟨((e.dated requiredConfirmations answers).map Dated.payment).elim p.toPayment
          fun a => a.apply p.toPayment,
        ((e.dated requiredConfirmations answers).map Dated.invoice).elim p.invoice
          fun a => a.apply p.invoice,
        ((e.dated requiredConfirmations answers).toList.filterMap Dated.event).map anonymous⟩ := by
  obtain ⟨task, r, id⟩ := e
  obtain rfl : task = .confirm p := htask
  rw [← Entry.dated_withId]
  unfold outcome Entry.dated Entry.commit
  dsimp only
  cases verdict requiredConfirmations r "" (answers (p.txHash.getD "")) p with
  | none => rfl
  | some m =>
    simp only [Option.map_some, Option.elim_some, payment_withId, invoice_withId,
      Option.toList_some, List.filterMap_cons, List.filterMap_nil, Outcome.mk.injEq]
    refine ⟨rfl, rfl, ?_⟩
    have hevent := event_withId id m r.committed
    cases h : Dated.event (m, r.committed) with
    | none => 
      rw [h] at hevent
      rw [Option.map_eq_none_iff.mp hevent]
      rfl
    | some ev =>
      rw [h] at hevent
      obtain ⟨ev', hev', heq⟩ := Option.map_eq_some_iff.mp hevent
      rw [hev']
      exact congrArg (fun e => [e]) heq.symm

/-- What becomes of the rows of an active payment. -/
theorem outcome_made (hr : Performed requiredConfirmations answers tasks w w' es)
    (hap : tasks.Pairwise Task.Apart) (hready : ∀ t ∈ tasks, t.Ready w.db)
    (hp : Task.confirm p ∈ tasks) : ∃ r : Readings, r.Within w.clock w'.clock ∧
      (outcome requiredConfirmations r (answers (p.txHash.getD "")) p).In w.db w'.db p.invoiceId := by
  obtain ⟨e, before, rest, htask, he, hsplit, helse⟩ := hr.decides hap hready hp
  have hs : Stored p w.db := (hready _ hp).1
  refine ⟨e.readings, hr.readings e he, ?_⟩
  rw [outcome_eq htask]
  refine ⟨?_, ?_, ?_⟩
  · refine (hr.batch.payments _).mpr ⟨p.toPayment, hs.payment, ?_⟩
    rw [hsplit, List.map_append, List.map_append, ← Option.toList_map]
    refine (after_of_only _ fun b hb => ?_).symm
    rw [← List.map_append] at hb
    obtain ⟨d, hd, rfl⟩ := List.mem_map.mp hb
    exact (helse d hd).payment p.id rfl
  · refine (hr.batch.invoices _).mpr ⟨p.invoice, hs.invoice, ?_⟩
    rw [hsplit, List.map_append, List.map_append, ← Option.toList_map]
    refine (after_of_only _ fun b hb => ?_).symm
    rw [← List.map_append] at hb
    obtain ⟨d, hd, rfl⟩ := List.mem_map.mp hb
    rw [← hs.id]
    exact (helse d hd).invoice
  · have hothers : ∀ l : List Dated, (∀ d ∈ l, Elsewhere (.confirm p) d) →
        (l.filterMap Dated.event).filter (fun e => e.invoiceId = p.invoiceId) = [] := by
      intro l hl
      refine List.filter_eq_nil_iff.mpr fun ev hev => ?_
      obtain ⟨d, hd, hdev⟩ := List.mem_filterMap.mp hev
      have hne : ev.invoiceId ≠ p.invoiceId := (hl d hd).event ev hdev
      simpa using hne
    have hown : ((e.dated requiredConfirmations answers).toList.filterMap Dated.event).filter
        (fun e => e.invoiceId = p.invoiceId) =
          (e.dated requiredConfirmations answers).toList.filterMap Dated.event := by
      refine List.filter_eq_self.mpr fun ev hev => ?_
      obtain ⟨d, hd, hdev⟩ := List.mem_filterMap.mp hev
      have hinvoice := Entry.event_invoice w.db (by rw [htask]; exact hready _ hp)
        (Option.mem_toList.mp hd) hdev
      rw [htask] at hinvoice
      exact decide_eq_true hinvoice
    unfold eventsOf Table.filter
    refine ((hr.batch.webhookEvents.filter _).map anonymous).trans ?_
    rw [hsplit, List.filterMap_append, List.filterMap_append, List.filter_append,
      List.filter_append, List.filter_append, hothers _ fun d hd => helse d (List.mem_append_left _ hd),
      hothers _ fun d hd => helse d (List.mem_append_right _ hd), hown, List.map_append,
      List.nil_append, List.append_nil]

/-! ## Two passes at one time -/

/-- What is committed for a task at the time `c`. -/
def settled (requiredConfirmations : ℤ) (answers : String → Option ℤ) (c : Time) (t : Task) :
    Option Dated :=
  (Entry.mk t (.constant c) "").dated requiredConfirmations answers

theorem Readings.Within.eq_constant {r : Readings} {c : Time} (h : r.Within c c) :
    r = .constant c := by
  obtain ⟨now, confirmedAt, paidAt, committed⟩ := r
  have hnow : now = c := le_antisymm h.now.2 h.now.1
  have hconfirmedAt : confirmedAt = c := le_antisymm h.confirmedAt.2 h.confirmedAt.1
  have hpaidAt : paidAt = c := le_antisymm h.paidAt.2 h.paidAt.1
  have hcommitted : committed = c := le_antisymm h.committed.2 h.committed.1
  rw [hnow, hconfirmedAt, hpaidAt, hcommitted]
  rfl

/-- What is committed at the time `c`, up to the id of its event. -/
theorem Entry.settled_eq {c : Time} (h : e.readings = .constant c) :
    (settled requiredConfirmations answers c e.task).map (fun d => (withId e.eventId d.1, d.2)) =
      e.dated requiredConfirmations answers := by
  unfold settled
  rw [← h]
  exact e.dated_withId

/-- At one time, the tasks alone say what is done. -/
structure Planned (ds ds' : List Dated) : Prop where
  payments : ds.map Dated.payment = ds'.map Dated.payment
  invoices : ds.map Dated.invoice = ds'.map Dated.invoice
  events : (ds.filterMap Dated.event).map anonymous = (ds'.filterMap Dated.event).map anonymous

theorem planned (requiredConfirmations : ℤ) (answers : String → Option ℤ) {c : Time}
    (hes : ∀ e ∈ es, e.readings = .constant c) :
    Planned (es.filterMap (Entry.dated requiredConfirmations answers))
      ((es.map Entry.task).filterMap (settled requiredConfirmations answers c)) := by
  have hdated : ∀ e ∈ es, Entry.dated requiredConfirmations answers e =
      (settled requiredConfirmations answers c e.task).map fun d => (withId e.eventId d.1, d.2) :=
    fun e he => (Entry.settled_eq (hes e he)).symm
  refine ⟨?_, ?_, ?_⟩
  · rw [List.map_filterMap, List.map_filterMap, List.filterMap_map]
    refine List.filterMap_congr fun e he => ?_
    rw [hdated e he, Option.map_map, Function.comp_apply]
    simp [Function.comp_def]
  · rw [List.map_filterMap, List.map_filterMap, List.filterMap_map]
    refine List.filterMap_congr fun e he => ?_
    rw [hdated e he, Option.map_map, Function.comp_apply]
    simp [Function.comp_def]
  · rw [List.filterMap_filterMap, List.filterMap_filterMap, List.map_filterMap, List.map_filterMap,
      List.filterMap_map]
    refine List.filterMap_congr fun e he => ?_
    rw [hdated e he, Function.comp_apply]
    cases settled requiredConfirmations answers c e.task with
    | none => rfl
    | some d => exact event_withId e.eventId d.1 d.2

/-- Tasks that are apart commit what is apart. -/
theorem settled_apart (requiredConfirmations : ℤ) (answers : String → Option ℤ) (c : Time)
    (hap : tasks.Pairwise Task.Apart) :
    AllApart ((tasks.filterMap (settled requiredConfirmations answers c)).map Dated.payment) ∧
      AllApart ((tasks.filterMap (settled requiredConfirmations answers c)).map Dated.invoice) := by
  unfold AllApart
  rw [List.pairwise_map, List.pairwise_map, List.pairwise_filterMap, List.pairwise_filterMap]
  refine ⟨hap.imp fun {t t'} h d hd d' hd' k hk hk' => ?_,
    hap.imp fun {t t'} h d hd d' hd' k hk hk' => ?_⟩
  · exact h.2 k ((Entry.targets hd).1 k hk) ((Entry.targets hd').1 k hk')
  · exact h.1 (((Entry.targets hd).2 k hk).trans ((Entry.targets hd').2 k hk').symm)

theorem Agenda.perm {db : Db} {t : Time} {overdue overdue' : List Invoice}
    {active active' : List PaymentWithInvoice} (h : Agenda db t overdue active)
    (h' : Agenda db t overdue' active') : (agenda overdue active).Perm (agenda overdue' active') := by
  have hoverdue : overdue.Perm overdue' := by
    rw [List.perm_ext_iff_of_nodup h.nodup_overdue h'.nodup_overdue]
    exact fun i => (h.mem_overdue i).trans (h'.mem_overdue i).symm
  have hactive : active.Perm active' := by
    rw [List.perm_ext_iff_of_nodup h.nodup_active h'.nodup_active]
    exact fun p => (h.mem_active p).trans (h'.mem_active p).symm
  exact (hoverdue.map _).append (hactive.map _)

theorem Agenda.congr {db db' : Db} {t : Time} {overdue : List Invoice}
    {active : List PaymentWithInvoice} (h : Agenda db t overdue active) (hs : db.SameRows db') :
    Agenda db' t overdue active where
  mem_overdue i := by rw [h.mem_overdue, hs.invoices]
  nodup_overdue := h.nodup_overdue
  mem_active p := by
    rw [h.mem_active]
    exact and_congr_left fun _ => ⟨fun hp => hp.congr hs, fun hp => hp.congr hs.symm⟩
  nodup_active := h.nodup_active

theorem PairedOff.congr {db db' : Db} (h : PairedOff db) (hs : db.SameRows db') : PairedOff db' where
  invoice p hp ha := by
    obtain ⟨i, hi, hpair⟩ := h.invoice p ((hs.payments p).1 hp) ha
    exact ⟨i, (hs.invoices i).2 hi, hpair⟩
  own p hp q hq := h.own p ((hs.payments p).1 hp) q ((hs.payments q).1 hq)

theorem Agenda.ready {db : Db} {t : Time} {overdue : List Invoice}
    {active : List PaymentWithInvoice} (hp : PairedOff db) (h : Agenda db t overdue active) :
    ∀ task ∈ agenda overdue active, task.Ready db := by
  intro task htask
  rcases List.mem_append.mp htask with htask | htask
  · obtain ⟨i, hi, rfl⟩ := List.mem_map.mp htask
    exact ((h.mem_overdue i).mp hi).1
  · obtain ⟨p, hp', rfl⟩ := List.mem_map.mp htask
    obtain ⟨hs, ha⟩ := (h.mem_active p).mp hp'
    exact ⟨hs, hp.paired hs ha⟩

/-- What a pass at the time `c` does, whatever the order of its tasks. -/
theorem Performed.same {c : Time} {w₀ w₁ w₂ : World Unit} {tasks' : List Task} {es' : List Entry}
    (hr : Performed requiredConfirmations answers tasks w w₁ es)
    (hr' : Performed requiredConfirmations answers tasks' w₀ w₂ es')
    (hap : tasks.Pairwise Task.Apart) (hperm : tasks.Perm tasks') (hrows : w.db.SameRows w₀.db)
    (hes : ∀ e ∈ es, e.readings = .constant c) (hes' : ∀ e ∈ es', e.readings = .constant c) :
    SameResult w₁.db w₂.db := by
  obtain ⟨hpayments, hinvoices, hevents⟩ := planned requiredConfirmations answers hes
  obtain ⟨hpayments', hinvoices', hevents'⟩ := planned requiredConfirmations answers hes'
  rw [hr.tasks] at hpayments hinvoices hevents
  rw [hr'.tasks] at hpayments' hinvoices' hevents'
  have hplan := hperm.filterMap (settled requiredConfirmations answers c)
  obtain ⟨happayments, hapinvoices⟩ :=
    settled_apart requiredConfirmations answers c hap
  refine ⟨fun i => ?_, fun p => ?_, ?_⟩
  · rw [hr'.batch.invoices, hr.batch.invoices, hinvoices, hinvoices']
    simp only [hrows.invoices, after_perm hapinvoices (hplan.map Dated.invoice)]
  · rw [hr'.batch.payments, hr.batch.payments, hpayments, hpayments']
    simp only [hrows.payments, after_perm happayments (hplan.map Dated.payment)]
  · have hold : w₀.db.webhookEvents.rows.Perm w.db.webhookEvents.rows :=
      rows_perm [] (by simp [hrows.webhookEvents]) .nil nofun
    refine (hr'.batch.webhookEvents.map anonymous).trans ?_
    refine .trans ?_ (hr.batch.webhookEvents.map anonymous).symm
    rw [List.map_append, List.map_append, hevents, hevents']
    exact ((hplan.filterMap _).map _).symm.append (hold.map _)

/-! ## The pass -/

/-- What a pass makes of an active payment. -/
theorem CalmPass.outcome (hp : PairedOff w.db)
    (h : CalmPass pid D requiredConfirmations answers w evs x w') (hs : Stored p w.db)
    (ha : p.status ∈ activeStatuses) : ∃ r : Readings, r.Within w.clock w'.clock ∧
      (outcome requiredConfirmations r (answers (p.txHash.getD "")) p).In w.db w'.db p.invoiceId := by
  obtain ⟨-, t, overdue, active, es, ht, hagenda, hr⟩ := calmPass_made hp h
  refine outcome_made hr (hagenda.apart hp) (hagenda.ready hp) ?_
  exact List.mem_append_right _ (List.mem_map_of_mem ((hagenda.mem_active p).mpr ⟨hs, ha⟩))

/-- A pass keeps the payments that are not active. -/
theorem CalmPass.inactive (hp : PairedOff w.db)
    (h : CalmPass pid D requiredConfirmations answers w evs x w') {p : Payment}
    (hmem : p ∈ w.db.payments) (hinactive : p.status ∉ activeStatuses) : p ∈ w'.db.payments := by
  obtain ⟨-, t, overdue, active, es, ht, hagenda, hr⟩ := calmPass_made hp h
  refine (hr.batch.payments p).mpr ⟨p, hmem, (after_of_ne fun a ha htarget => ?_).symm⟩
  obtain ⟨d, hd, rfl⟩ := List.mem_map.mp ha
  obtain ⟨e, he, hd⟩ := List.mem_filterMap.mp hd
  have hid := (Entry.targets hd).1 _ htarget
  have htask : e.task ∈ agenda overdue active := hr.tasks ▸ List.mem_map_of_mem he
  rcases List.mem_append.mp htask with htask | htask
  · obtain ⟨i, -, heq⟩ := List.mem_map.mp htask
    rw [← heq] at hid
    cases hid
  · obtain ⟨q, hq, heq⟩ := List.mem_map.mp htask
    rw [← heq] at hid
    obtain ⟨hs, ha⟩ := (hagenda.mem_active q).mp hq
    have hqp : q.toPayment = p := Table.eq_of_key hs.payment hmem (Option.some.inj hid)
    exact hinactive (hqp ▸ ha)

/-- Two passes over the same rows at one time. -/
theorem CalmPass.same {pid' : ℕ} {evs' : List (Event (effects adapterCalls))}
    {x' : Except Error Unit} {w₀ w₁ w₂ : World Unit} (hp : PairedOff w.db)
    (hrows : w.db.SameRows w₀.db) (hclock : w₀.clock = w.clock)
    (h : CalmPass pid D requiredConfirmations answers w evs x w₁)
    (h' : CalmPass pid' D requiredConfirmations answers w₀ evs' x' w₂) (hw₁ : w₁.clock = w.clock)
    (hw₂ : w₂.clock = w.clock) : SameResult w₁.db w₂.db := by
  obtain ⟨-, t, overdue, active, es, ht, hagenda, hr⟩ := calmPass_made hp h
  obtain ⟨-, t', overdue', active', es', ht', hagenda', hr'⟩ := calmPass_made (hp.congr hrows) h'
  -- both passes saw the clock at `w.clock` only
  rw [hw₁] at ht
  rw [hclock, hw₂] at ht'
  obtain rfl : t = w.clock := le_antisymm ht.2 ht.1
  obtain rfl : t' = w.clock := le_antisymm ht'.2 ht'.1
  refine hr.same (c := w.clock) hr' (hagenda.apart hp) (hagenda.perm (hagenda'.congr hrows.symm))
    hrows (fun e he => ?_) fun e he => ?_
  · have hwithin := hr.readings e he
    rw [hw₁] at hwithin
    exact hwithin.eq_constant
  · have hwithin := hr'.readings e he
    rw [hclock, hw₂] at hwithin
    exact hwithin.eq_constant

/-- An undisturbed pass over payments that are paired off with their invoices returns, does the
    same in every order, and does to a payment what its own rows, the clock and the answer about
    its own transaction say. -/
theorem confirm_order_independent (D : String → Bool) (requiredConfirmations : ℤ)
    (answers : String → Option ℤ) (w : World Unit) (hp : PairedOff w.db) :
    OrderIndependent D requiredConfirmations answers w where
  runs pid := Prog.exists_runs (calm_total fixedAnswers_total pid) _ w
  returns _ _ _ _ h := (calmPass_made hp h).1
  same _ _ _ _ _ _ _ _ _ hrows hclock h h' hw₁ hw₂ := h.same hp hrows hclock h' hw₁ hw₂
  own _ _ _ _ h _ hs ha := h.outcome hp hs ha
  inactive _ _ _ _ h _ hmem hinactive := h.inactive hp hmem hinactive

/-! ## Two payments -/

/-- An invoice over 49 USDC. -/
def trackedInvoice (id : String) (status : InvoiceStatus) : Invoice where
  id := id
  organizationId := "org"
  externalId := none
  status := status
  description := none
  amount := ⟨4900000000⟩
  currency := "USD"
  token := "USDC"
  network := "base"
  paymentAddress := "0xA"
  successUrl := none
  cancelUrl := none
  metadata := none
  expiresAt := 1800000
  paidAt := none
  createdAt := 0

/-- The payment of it. -/
def trackedPayment (id invoiceId txHash : String) (status : PaymentStatus) : Payment where
  id := id
  invoiceId := invoiceId
  organizationId := "org"
  network := "base"
  token := "USDC"
  expectedAmount := ⟨4900000000⟩
  receivedAmount := some ⟨4900000000⟩
  txHash := some txHash
  fromAddress := some "0xB"
  toAddress := "0xA"
  blockNumber := some 0
  confirmations := 0
  status := status
  detectedAt := some 0
  confirmedAt := none
  createdAt := 0
  updatedAt := 0

/-- One payment is detected, the other is confirming. -/
def twoPayments : World Unit where
  db := { Db.empty with
    invoices := ⟨[trackedInvoice "inv_1" .detected, trackedInvoice "inv_2" .confirming], by decide⟩
    payments := ⟨[trackedPayment "pay_1" "inv_1" "0x1" .detected,
      trackedPayment "pay_2" "inv_2" "0x2" .confirming], by decide⟩ }
  clock := 1
  other := ()

theorem twoPayments_pairedOff : PairedOff twoPayments.db where
  invoice p hp _ := by
    rcases List.mem_cons.mp hp with rfl | hp
    · exact ⟨_, List.mem_cons_self, rfl, .inl ⟨rfl, rfl⟩⟩
    · obtain rfl := List.mem_singleton.mp hp
      exact ⟨_, List.mem_cons_of_mem _ List.mem_cons_self, rfl, .inr (.inl ⟨rfl, rfl⟩)⟩
  own p hp q hq _ _ hid := by
    rcases List.mem_cons.mp hp with rfl | hp <;> rcases List.mem_cons.mp hq with rfl | hq
    · rfl
    · obtain rfl := List.mem_singleton.mp hq
      exact absurd hid (by decide)
    · obtain rfl := List.mem_singleton.mp hp
      exact absurd hid (by decide)
    · rw [List.mem_singleton.mp hp, List.mem_singleton.mp hq]

/-- The transaction of the first is missing, that of the second has three confirmations. -/
theorem twoPayments_independent : OrderIndependent (fun _ => true) 3
    (fun txHash => if txHash = "0x2" then some 3 else none) twoPayments :=
  confirm_order_independent _ _ _ _ twoPayments_pairedOff

end CryptoPay.Worker
