import CryptoPay.Worker.CommitFootprint
import CryptoPay.Worker.ConfirmOrder
import CryptoPay.Worker.ScanPass

/-!
# Where the confirm passes lead

Confirm passes that nothing disturbs, with scan passes, new invoices and waiting in
between, while what the adapter says of one transaction stays of one kind (`Fate`). The
payment that is for the transaction goes through a few phases: `Phase.advance` is one pass,
`Phase.limit` is where it stays.

Results:
* `CalmPass.became`: a pass does to the payment, its invoice and its events what
  `Phase.advance` does to their phase.
* `CalmPass.pairedOff`: the payments stay paired off with their invoices.
* `Meanwhile.untouched`: the other jobs leave it alone.
* `confirm_converges`: after a pass, the grace period and another pass, the phase is the
  limit, and stays so.
-/

namespace CryptoPay.Worker

open Async Data

/-! ## Phases -/

/-- What the adapter says of a transaction: it is missing, or has too few confirmations, or
    enough. -/
inductive Fate where
  | missing
  | shallow
  | deep
  deriving DecidableEq

def fate (requiredConfirmations : ℤ) : Option ℤ → Fate
  | none => .missing
  | some n => if n < requiredConfirmations then .shallow else .deep

/-- What is followed of a payment: its status, that of its invoice, and the types of the events
    that were stored for that, newest first. -/
structure Phase where
  payment : PaymentStatus
  invoice : InvoiceStatus
  events : List String
  deriving DecidableEq

theorem fate_eq_missing {requiredConfirmations : ℤ} {answer : Option ℤ} :
    fate requiredConfirmations answer = .missing ↔ answer = none := by
  cases answer with
  | none => simp [fate]
  | some n => by_cases hn : n < requiredConfirmations <;> simp [fate, hn]

namespace Phase

/-- The phase at the beginning. -/
def start (p : PaymentWithInvoice) : Phase := ⟨p.status, p.invoice.status, []⟩

/-- One pass over an active payment; `elapsed` says that the grace period is over. -/
def advance (a : PaymentAmountMatch) (f : Fate) (elapsed : Bool) (s : Phase) : Phase :=
  match s.payment, f with
  | .detected, .missing => { s with payment := .failed, invoice := .failed }
  | .detected, _ => { s with payment := .confirming, invoice := .confirming }
  | .confirming, .missing => { s with payment := .reorgDetected }
  | .confirming, .shallow => s
  | .confirming, .deep => ⟨a.outcome.1, a.outcome.2.1, a.outcome.2.2 :: s.events⟩
  | .reorgDetected, .missing =>
    if elapsed then { s with payment := .failed, invoice := .failed } else s
  | .reorgDetected, _ => { s with payment := .confirming, invoice := .confirming }
  | _, _ => s

/-- The phase that a payment stays in. -/
def limit (a : PaymentAmountMatch) : Fate → Phase
  | .missing => ⟨.failed, .failed, []⟩
  | .shallow => ⟨.confirming, .confirming, []⟩
  | .deep => ⟨a.outcome.1, a.outcome.2.1, [a.outcome.2.2]⟩

/-- The phase after at least one pass, short of the limit. -/
def waiting : Fate → Phase
  | .missing => ⟨.reorgDetected, .confirming, []⟩
  | .shallow => ⟨.confirming, .confirming, []⟩
  | .deep => ⟨.confirming, .confirming, []⟩

variable {a : PaymentAmountMatch} {f : Fate} {elapsed : Bool} {s : Phase}

/-- The first pass. -/
theorem advance_first (a : PaymentAmountMatch) (f : Fate) (elapsed : Bool)
    (hpair : Paired s.payment s.invoice) (hevents : s.events = []) :
    s.advance a f elapsed = waiting f ∨ s.advance a f elapsed = limit a f := by
  obtain ⟨payment, invoice, events⟩ := s
  obtain rfl : events = [] := hevents
  rcases hpair with ⟨rfl, rfl⟩ | ⟨rfl, rfl⟩ | ⟨rfl, rfl⟩ <;> cases f <;> cases elapsed <;>
    simp [advance, waiting, limit]

/-- A further pass. -/
theorem advance_waiting (h : f = .missing → elapsed = true) :
    (waiting f).advance a f elapsed = limit a f := by
  cases f with
  | missing => simp [advance, waiting, limit, h]
  | shallow => rfl
  | deep => rfl

/-- A pass that finds the transaction still missing. -/
theorem advance_missing : (waiting .missing).advance a .missing false = waiting .missing := rfl

theorem advance_limit : (limit a .shallow).advance a .shallow elapsed = limit a .shallow := rfl

theorem waiting_active : (waiting f).payment ∈ activeStatuses := by
  cases f <;> simp [waiting, activeStatuses]

theorem waiting_invoice : (waiting f).invoice ≠ .pending := by
  cases f <;> simp [waiting]

theorem limit_invoice : (limit a f).invoice ≠ .pending := by
  cases f <;> cases a <;> simp [limit, PaymentAmountMatch.outcome]

theorem paired_waiting : Paired (waiting f).payment (waiting f).invoice := by
  cases f <;> simp [waiting, Paired]

theorem limit_paired (ha : (limit a f).payment ∈ activeStatuses) :
    Paired (limit a f).payment (limit a f).invoice := by
  cases f with
  | shallow => exact .inr (.inl ⟨rfl, rfl⟩)
  | missing => simp [limit, activeStatuses] at ha
  | deep => cases a <;> simp [limit, activeStatuses, PaymentAmountMatch.outcome] at ha

/-- In the limit, the payment is not active, and its invoice is in no pair, unless the
    transaction is shallow. -/
theorem limit_final (hf : f ≠ .shallow) : (limit a f).payment ∉ activeStatuses ∧
    ∀ payment, ¬ Paired payment (limit a f).invoice := by
  cases f with
  | shallow => exact absurd rfl hf
  | missing => simp [limit, activeStatuses, Paired]
  | deep => cases a <;> simp [limit, activeStatuses, Paired, PaymentAmountMatch.outcome]

end Phase

/-! ## A pass refines `Phase.advance` -/

/-- `q` is what has become of `p` since the tables were `db₀`, and `s` is its phase. -/
structure Became (p : PaymentWithInvoice) (db₀ : Db) (q : PaymentWithInvoice) (s : Phase)
    (db : Db) : Prop where
  stored : Stored q db
  terms : q.toPayment.terms = p.toPayment.terms
  payment : q.status = s.payment
  invoice : q.invoice.status = s.invoice
  events : ∃ new : List WebhookEvent, new.map WebhookEvent.type = s.events ∧
    (eventsOf db p.invoiceId).Perm (new ++ eventsOf db₀ p.invoiceId)

variable {pid : ℕ} {answers : String → Option ℤ} {requiredConfirmations : ℤ} {D : String → Bool}
  {w w₁ w₂ w₃ w' : World Unit} {evs : List (Event (effects adapterCalls))} {x : Except Error Unit}
  {p q : PaymentWithInvoice} {db db' db₀ : Db} {s : Phase} {f : Fate} {txHash : String}
  {r : Readings} {answer : Option ℤ}

theorem Became.start (hs : Stored p db) : Became p db p (.start p) db where
  stored := hs
  terms := rfl
  payment := rfl
  invoice := rfl
  events := ⟨[], rfl, .refl _⟩

theorem Became.invoiceId (h : Became p db₀ q s db) : q.invoiceId = p.invoiceId :=
  terms_invoiceId h.terms

theorem Became.txHash_eq (h : Became p db₀ q s db) : q.txHash = p.txHash :=
  (congrArg Payment.txHash h.terms :)

theorem Became.amountMatch (h : Became p db₀ q s db) : q.amountMatch = p.amountMatch := by
  unfold Payment.amountMatch
  rw [show q.expectedAmount = p.expectedAmount from (congrArg Payment.expectedAmount h.terms :),
    show q.receivedAmount = p.receivedAmount from (congrArg Payment.receivedAmount h.terms :)]

/-- The grace period is over when the loop body reads the clock. -/
def Readings.elapsed (r : Readings) (q : PaymentWithInvoice) : Bool :=
  decide (r.now - q.updatedAt ≥ REORG_GRACE_MS)

/-- The rows of the outcome are those of the payment, up to their status. -/
theorem outcome_terms (requiredConfirmations : ℤ) (r : Readings) (answer : Option ℤ)
    (q : PaymentWithInvoice) :
    (outcome requiredConfirmations r answer q).payment.terms = q.toPayment.terms ∧
      (outcome requiredConfirmations r answer q).invoice.id = q.invoice.id := by
  unfold outcome
  cases verdict requiredConfirmations r "" answer q with
  | none => exact ⟨rfl, rfl⟩
  | some m => exact ⟨m.terms_onPayment _ _, terms_id (m.terms_onInvoice _)⟩

/-- The payment of the outcome was last changed when it was committed, or earlier. -/
theorem outcome_updatedAt (requiredConfirmations : ℤ) (r : Readings) (answer : Option ℤ)
    (q : PaymentWithInvoice) :
    (outcome requiredConfirmations r answer q).payment.updatedAt = q.updatedAt ∨
      (outcome requiredConfirmations r answer q).payment.updatedAt = r.committed := by
  unfold outcome
  cases verdict requiredConfirmations r "" answer q with
  | none => exact .inl rfl
  | some m =>
    show (m.onPayment r.committed q.toPayment).updatedAt = q.updatedAt ∨
      (m.onPayment r.committed q.toPayment).updatedAt = r.committed
    unfold Commit.onPayment
    cases m.paymentUpdate with
    | none => exact .inl rfl
    | some u =>
      by_cases hid : q.id = u.1
      · exact .inr (by simp [Payment.updateWhere, hid, Payment.update])
      · exact .inl (by simp [Payment.updateWhere, hid])

/-- What a commit makes of the payment and its invoice, with the events that it stores. -/
def Phase.after (m : Commit) (t : Time) (q : PaymentWithInvoice) : Phase where
  payment := (m.onPayment t q.toPayment).status
  invoice := (m.onInvoice q.invoice).status
  events := (Dated.event (m, t)).toList.map WebhookEvent.type

section Commits

variable (hid : q.invoiceId = q.invoice.id) (t : Time) (n : ℤ)

include hid in
theorem after_fail : Phase.after (.fail q) t q = ⟨.failed, .failed, []⟩ := by
  have hpayment : (Commit.fail q).onPayment t q.toPayment = _ := Commit.onPayment_of_eq rfl rfl
  have hinvoice : (Commit.fail q).onInvoice q.invoice = _ := Commit.onInvoice_of_eq rfl hid.symm
  unfold Phase.after
  rw [hpayment, hinvoice]
  rfl

theorem after_reorg : Phase.after (.reorg q) t q = ⟨.reorgDetected, q.invoice.status, []⟩ := by
  have hpayment : (Commit.reorg q).onPayment t q.toPayment = _ := Commit.onPayment_of_eq rfl rfl
  unfold Phase.after
  rw [hpayment]
  rfl

theorem after_refresh : Phase.after (.refresh q n) t q = ⟨q.status, q.invoice.status, []⟩ := by
  have hpayment : (Commit.refresh q n).onPayment t q.toPayment = _ := Commit.onPayment_of_eq rfl rfl
  unfold Phase.after
  rw [hpayment]
  rfl

include hid in
theorem after_confirm : Phase.after (.confirm q n) t q = ⟨.confirming, .confirming, []⟩ := by
  have hpayment : (Commit.confirm q n).onPayment t q.toPayment = _ := Commit.onPayment_of_eq rfl rfl
  have hinvoice : (Commit.confirm q n).onInvoice q.invoice = _ :=
    Commit.onInvoice_of_eq rfl hid.symm
  unfold Phase.after
  rw [hpayment, hinvoice]
  rfl

include hid in
theorem after_settle (confirmedAt : Time) (paidAt : Option Time) (eventId : String) :
    Phase.after (.settle q n confirmedAt paidAt eventId) t q = ⟨q.amountMatch.outcome.1,
      q.amountMatch.outcome.2.1, [q.amountMatch.outcome.2.2]⟩ := by
  have hpayment : (Commit.settle q n confirmedAt paidAt eventId).onPayment t q.toPayment = _ :=
    Commit.onPayment_of_eq rfl rfl
  have hinvoice : (Commit.settle q n confirmedAt paidAt eventId).onInvoice q.invoice = _ :=
    Commit.onInvoice_of_eq rfl hid.symm
  unfold Phase.after
  rw [hpayment, hinvoice]
  rfl

end Commits

/-- The phase of an outcome, if the payment had stored the events before. -/
def Outcome.phase (o : Outcome) (events : List String) : Phase where
  payment := o.payment.status
  invoice := o.invoice.status
  events := o.events.map WebhookEvent.type ++ events

theorem phase_of_none (events : List String)
    (h : verdict requiredConfirmations r "" answer q = none) :
    (outcome requiredConfirmations r answer q).phase events =
      ⟨q.status, q.invoice.status, events⟩ := by
  unfold outcome
  rw [h]
  rfl

theorem phase_of_some {m : Commit} {after : Phase} (events : List String)
    (h : verdict requiredConfirmations r "" answer q = some m)
    (hafter : Phase.after m r.committed q = after) :
    (outcome requiredConfirmations r answer q).phase events =
      { after with events := after.events ++ events } := by
  subst hafter
  unfold outcome
  rw [h]
  unfold Outcome.phase Phase.after
  rw [List.map_map]
  rfl

/-- The phase of the outcome is the advanced phase. -/
theorem outcome_advance (hid : q.invoiceId = q.invoice.id)
    (hpair : Paired q.status q.invoice.status) (hhash : q.txHash = some txHash) (hne : txHash ≠ "")
    (requiredConfirmations : ℤ) (r : Readings) (answer : Option ℤ) (events : List String) :
    (outcome requiredConfirmations r answer q).phase events =
      (Phase.mk q.status q.invoice.status events).advance q.amountMatch
        (fate requiredConfirmations answer) (r.elapsed q) := by
  have hverdict : verdict requiredConfirmations r "" answer q = match answer with
      | none => missingVerdict r q
      | some n => presentVerdict requiredConfirmations r "" q n := by
    unfold verdict
    rw [hhash]
    exact if_neg hne
  cases answer with
  | none =>
    rcases hpair with ⟨hp, hi⟩ | ⟨hp, hi⟩ | ⟨hp, hi⟩
    · rw [phase_of_some events (m := .fail q) (by simp [hverdict, missingVerdict, hp])
        (after_fail hid _)]
      simp [fate, Phase.advance, hp]
    · rw [phase_of_some events (m := .reorg q) (by simp [hverdict, missingVerdict, hp])
        (after_reorg _)]
      simp [fate, Phase.advance, hp]
    · by_cases helapsed : r.now - q.updatedAt ≥ REORG_GRACE_MS
      · rw [phase_of_some events (m := .fail q)
          (by simp [hverdict, missingVerdict, hp, helapsed]) (after_fail hid _)]
        simp [fate, Phase.advance, hp, Readings.elapsed, helapsed]
      · rw [phase_of_none events (by simp [hverdict, missingVerdict, hp, helapsed])]
        simp [fate, Phase.advance, hp, Readings.elapsed, helapsed]
  | some n =>
    rcases hpair with ⟨hp, hi⟩ | ⟨hp, hi⟩ | ⟨hp, hi⟩
    · rw [phase_of_some events (m := .confirm q n) (by simp [hverdict, presentVerdict, hp])
        (after_confirm hid _ _)]
      by_cases hn : n < requiredConfirmations <;> simp [fate, Phase.advance, hp, hn]
    · by_cases hn : n < requiredConfirmations
      · by_cases hsame : n = q.confirmations
        · rw [phase_of_none events (by subst hsame; simp [hverdict, presentVerdict, hp, hn])]
          simp [fate, Phase.advance, hp, hn]
        · rw [phase_of_some events (m := .refresh q n)
            (by simp [hverdict, presentVerdict, hp, hn, hsame]) (after_refresh _ _)]
          simp [fate, Phase.advance, hp, hn]
      · have hsettle : verdict requiredConfirmations r "" (some n) q =
            some (.settle q n r.confirmedAt
              (if q.amountMatch.outcome.2.1 = .paid then some r.paidAt else none) "") := by
          simp [hverdict, presentVerdict, hp, hn]
        rw [phase_of_some events hsettle (after_settle hid _ _ _ _ _)]
        simp [fate, Phase.advance, hp, hn]
    · rw [phase_of_some events (m := .confirm q n) (by simp [hverdict, presentVerdict, hp])
        (after_confirm hid _ _)]
      by_cases hn : n < requiredConfirmations <;> simp [fate, Phase.advance, hp, hn]

/-- A pass does to an active payment what `Phase.advance` does to its phase. -/
theorem CalmPass.became (hp : PairedOff w.db)
    (h : CalmPass pid D requiredConfirmations answers w evs x w') (hb : Became p db₀ q s w.db)
    (ha : s.payment ∈ activeStatuses) (hhash : p.txHash = some txHash) (hne : txHash ≠ "")
    (hq : q.updatedAt ≤ w.clock) :
    ∃ q' elapsed, Became p db₀ q' (s.advance p.amountMatch
        (fate requiredConfirmations (answers txHash)) elapsed) w'.db ∧
      q'.updatedAt ≤ w'.clock ∧ (q.updatedAt + REORG_GRACE_MS ≤ w.clock → elapsed = true) ∧
      (fate requiredConfirmations (answers txHash) = .missing → s.payment = .reorgDetected →
        elapsed = false → q'.updatedAt = q.updatedAt) := by
  have hactive : q.status ∈ activeStatuses := hb.payment ▸ ha
  have hqhash : q.txHash = some txHash := hb.txHash_eq.trans hhash
  obtain ⟨r, hr, hout⟩ := h.outcome hp hb.stored hactive
  rw [hqhash, Option.getD_some] at hout
  obtain ⟨new, hnew, hperm⟩ := hb.events
  obtain ⟨hterms, hid⟩ := outcome_terms requiredConfirmations r (answers txHash) q
  have hadvance := outcome_advance hb.stored.id (hp.paired hb.stored hactive) hqhash hne
    requiredConfirmations r (answers txHash) s.events
  rw [hb.payment, hb.invoice, hb.amountMatch] at hadvance
  have hclock : w.clock ≤ w'.clock := calm_clock h
  refine ⟨⟨_, (Worker.outcome requiredConfirmations r (answers txHash) q).invoice⟩, r.elapsed q,
    ⟨⟨hout.payment, hout.invoice, ?_⟩, hterms.trans hb.terms, congrArg Phase.payment hadvance,
      congrArg Phase.invoice hadvance, ?_⟩, ?_, fun hle => ?_, fun hf hs he => ?_⟩
  · rw [hid, ← hb.stored.id]
    exact terms_invoiceId hterms
  · refine ⟨(Worker.outcome requiredConfirmations r (answers txHash) q).events ++ new, ?_, ?_⟩
    · rw [List.map_append, hnew]
      exact congrArg Phase.events hadvance
    · have hevents := hout.events
      rw [hb.invoiceId] at hevents
      rw [List.append_assoc]
      exact hevents.trans (hperm.append_left _)
  · rcases outcome_updatedAt requiredConfirmations r (answers txHash) q with heq | heq
    · exact heq ▸ le_trans hq hclock
    · exact heq ▸ hr.committed.2
  · refine decide_eq_true ?_
    exact Int.le_sub_left_of_add_le (le_trans hle hr.now.1)
  · -- the transaction is missing for less than the grace period: nothing is committed
    have hverdict : verdict requiredConfirmations r "" (answers txHash) q = none := by
      have hnone := fate_eq_missing.mp hf
      have hshort : ¬ r.now - q.updatedAt ≥ REORG_GRACE_MS := of_decide_eq_false he
      simp [verdict, hqhash, hne, hnone, missingVerdict, hb.payment, hs, hshort]
    show (Worker.outcome requiredConfirmations r (answers txHash) q).payment.updatedAt = _
    unfold Worker.outcome
    rw [hverdict]

/-! ## The other rows -/

/-- Tasks that are not about an invoice keep it, and its events. -/
theorem Performed.apart {tasks : List Task} {es : List Entry} {k : String}
    (hr : Performed requiredConfirmations answers tasks w w' es)
    (hready : ∀ t ∈ tasks, t.Ready w.db) (hk : ∀ t ∈ tasks, t.invoiceId ≠ k) :
    (∀ i ∈ w.db.invoices, i.id = k → i ∈ w'.db.invoices) ∧
      (eventsOf w'.db k).Perm (eventsOf w.db k) := by
  have htask : ∀ e ∈ es, e.task ∈ tasks := fun e he => hr.tasks ▸ List.mem_map_of_mem he
  refine ⟨fun i hi hid => ?_, ?_⟩
  · refine (hr.batch.invoices i).mpr ⟨i, hi, (after_of_ne fun a ha htarget => ?_).symm⟩
    obtain ⟨d, hd, rfl⟩ := List.mem_map.mp ha
    obtain ⟨e, he, hd⟩ := List.mem_filterMap.mp hd
    exact hk _ (htask e he) (((Entry.targets hd).2 _ htarget).trans hid)
  · have hnone : ((es.filterMap (Entry.dated requiredConfirmations answers)).filterMap
        Dated.event).filter (fun e => e.invoiceId = k) = [] := by
      refine List.filter_eq_nil_iff.mpr fun ev hev => ?_
      obtain ⟨d, hd, hdev⟩ := List.mem_filterMap.mp hev
      obtain ⟨e, he, hd⟩ := List.mem_filterMap.mp hd
      have hinvoice := Entry.event_invoice w.db (hready _ (htask e he)) hd hdev
      simpa [hinvoice] using hk _ (htask e he)
    unfold eventsOf Table.filter
    refine ((hr.batch.webhookEvents.filter _).map anonymous).trans ?_
    rw [List.filter_append, hnone, List.nil_append]

/-- A pass keeps what has become final. -/
theorem CalmPass.kept (hp : PairedOff w.db)
    (h : CalmPass pid D requiredConfirmations answers w evs x w') (hb : Became p db₀ q s w.db)
    (hinactive : s.payment ∉ activeStatuses) (hpending : s.invoice ≠ .pending)
    (hfinal : ∀ payment, ¬ Paired payment s.invoice) : Became p db₀ q s w'.db := by
  have hpayment := h.inactive hp hb.stored.payment (hb.payment ▸ hinactive)
  obtain ⟨-, t, overdue, active, es, -, hagenda, hr⟩ := calmPass_made hp h
  have hinvoice : ∀ i ∈ w.db.invoices, i.id = p.invoiceId → i.status = s.invoice := by
    intro i hi hid
    rw [hb.stored.invoice_eq hi (hid.trans hb.invoiceId.symm)]
    exact hb.invoice
  obtain ⟨hkept, hevents⟩ := hr.apart (hagenda.ready hp) (k := p.invoiceId) fun task htask => by
    rcases List.mem_append.mp htask with htask | htask
    · obtain ⟨i, hi, rfl⟩ := List.mem_map.mp htask
      obtain ⟨hi, hstatus, -⟩ := (hagenda.mem_overdue i).mp hi
      exact fun hid => hpending ((hinvoice i hi hid).symm.trans hstatus)
    · obtain ⟨c, hc, rfl⟩ := List.mem_map.mp htask
      obtain ⟨hc, hactive⟩ := (hagenda.mem_active c).mp hc
      intro hid
      have hpair := hp.paired hc hactive
      rw [hinvoice c.invoice hc.invoice (hc.id.symm.trans hid)] at hpair
      exact hfinal _ hpair
  obtain ⟨new, hnew, hperm⟩ := hb.events
  exact ⟨⟨hpayment, hkept _ hb.stored.invoice (hb.stored.id.symm.trans hb.invoiceId),
    hb.stored.id⟩, hb.terms, hb.payment, hb.invoice, new, hnew, hevents.trans hperm⟩

/-- After a body, an active payment and its invoice are a pair again. -/
theorem outcome_paired (hid : q.invoiceId = q.invoice.id)
    (hpair : Paired q.status q.invoice.status)
    (ha : (outcome requiredConfirmations r answer q).payment.status ∈ activeStatuses) :
    Paired (outcome requiredConfirmations r answer q).payment.status
      (outcome requiredConfirmations r answer q).invoice.status := by
  by_cases hhash : ∃ txHash, q.txHash = some txHash ∧ txHash ≠ ""
  · obtain ⟨txHash, hhash, hne⟩ := hhash
    have hadvance := outcome_advance hid hpair hhash hne requiredConfirmations r answer []
    have hpayment : (outcome requiredConfirmations r answer q).payment.status = _ :=
      congrArg Phase.payment hadvance
    have hinvoice : (outcome requiredConfirmations r answer q).invoice.status = _ :=
      congrArg Phase.invoice hadvance
    rw [hpayment] at ha ⊢
    rw [hinvoice]
    rcases Phase.advance_first q.amountMatch (fate requiredConfirmations answer) (r.elapsed q)
      (s := ⟨q.status, q.invoice.status, []⟩) hpair rfl with heq | heq
    · rw [heq]
      exact Phase.paired_waiting
    · rw [heq] at ha ⊢
      exact Phase.limit_paired ha
  · have hnone : verdict requiredConfirmations r "" answer q = none := by
      unfold verdict
      cases hq : q.txHash with
      | none => rfl
      | some txHash =>
        have hempty : txHash = "" := by
          by_contra hne
          exact hhash ⟨txHash, hq, hne⟩
        exact if_pos hempty
    unfold outcome
    rw [hnone]
    exact hpair

/-- A pass keeps the payments paired off with their invoices. -/
theorem CalmPass.pairedOff (hp : PairedOff w.db)
    (h : CalmPass pid D requiredConfirmations answers w evs x w') : PairedOff w'.db := by
  have horigin : ∀ p' ∈ w'.db.payments, p'.status ∈ activeStatuses → ∃ q : PaymentWithInvoice,
      Stored q w.db ∧ q.status ∈ activeStatuses ∧ q.id = p'.id ∧ q.invoiceId = p'.invoiceId ∧
        ∃ i ∈ w'.db.invoices, i.id = p'.invoiceId ∧ Paired p'.status i.status := by
    intro p' hp' ha'
    obtain ⟨-, t, overdue, active, es, -, hagenda, hr⟩ := calmPass_made hp h
    obtain ⟨q₀, hq₀, hafter⟩ := (hr.batch.payments p').mp hp'
    have hid : q₀.id = p'.id := by
      rw [hafter]
      exact (key_after _ _).symm
    by_cases hactive : q₀.status ∈ activeStatuses
    · obtain ⟨i, hi, hii, hpair⟩ := hp.invoice q₀ hq₀ hactive
      have hs : Stored ⟨q₀, i⟩ w.db := ⟨hq₀, hi, hii.symm⟩
      obtain ⟨r, -, hout⟩ := h.outcome hp hs hactive
      obtain ⟨hterms, hoid⟩ := outcome_terms requiredConfirmations r
        (answers ((PaymentWithInvoice.mk q₀ i).txHash.getD "")) ⟨q₀, i⟩
      have heq := Table.eq_of_key hout.payment hp' ((terms_paymentId hterms).trans hid)
      have hinvoiceId : q₀.invoiceId = p'.invoiceId := (terms_invoiceId hterms).symm.trans
        (congrArg Payment.invoiceId heq)
      refine ⟨⟨q₀, i⟩, hs, hactive, hid, hinvoiceId, _, hout.invoice, ?_, ?_⟩
      · exact hoid.trans (hii.trans hinvoiceId)
      · have hoPair := outcome_paired (r := r) hs.id hpair (heq ▸ ha')
        rwa [heq] at hoPair
    · have hsame := Table.eq_of_key (h.inactive hp hq₀ hactive) hp' hid
      exact absurd (hsame ▸ ha') hactive
  refine ⟨fun p' hp' ha' => ?_, fun p' hp' q' hq' ha' hb' hid => ?_⟩
  · obtain ⟨-, -, -, -, -, hinvoice⟩ := horigin p' hp' ha'
    exact hinvoice
  · obtain ⟨q₁, hs₁, ha₁, hid₁, hinv₁, -⟩ := horigin p' hp' ha'
    obtain ⟨q₂, hs₂, ha₂, hid₂, hinv₂, -⟩ := horigin q' hq' hb'
    have heq := hp.own _ hs₁.payment _ hs₂.payment ha₁ ha₂ (hinv₁.trans (hid.trans hinv₂.symm))
    refine Table.eq_of_key hp' hq' ?_
    rw [← hid₁, ← hid₂]
    exact congrArg Payment.id heq

/-! ## The other jobs -/

/-- No payment of the confirm pass, no invoice of such a payment and no event has changed. -/
structure Untouched (db db' : Db) : Prop where
  stored : ∀ q, Stored q db → q.invoice.status ≠ .pending → Stored q db'
  pairedOff : PairedOff db → PairedOff db'
  events : ∀ e, e ∈ db'.webhookEvents ↔ e ∈ db.webhookEvents

theorem Untouched.of_sameRows (h : db.SameRows db') : Untouched db db' where
  stored _ hq _ := hq.congr h
  pairedOff hp := hp.congr h
  events := h.webhookEvents

theorem Untouched.trans {db₁ : Db} (h : Untouched db db₁) (h' : Untouched db₁ db') :
    Untouched db db' where
  stored q hq hs := h'.stored q (h.stored q hq hs) hs
  pairedOff hp := h'.pairedOff (h.pairedOff hp)
  events e := (h'.events e).trans (h.events e)

theorem Became.untouched (hb : Became p db₀ q s db) (h : Untouched db db')
    (hs : s.invoice ≠ .pending) : Became p db₀ q s db' := by
  obtain ⟨new, hnew, hperm⟩ := hb.events
  have hevents : (eventsOf db' p.invoiceId).Perm (eventsOf db p.invoiceId) := by
    have hrows : db'.webhookEvents.rows.Perm db.webhookEvents.rows :=
      rows_perm [] (by simp [h.events]) .nil nofun
    exact (hrows.filter _).map anonymous
  exact ⟨h.stored q hb.stored (hb.invoice ▸ hs), hb.terms, hb.payment, hb.invoice, new, hnew,
    hevents.trans hperm⟩

/-- A new invoice is not the invoice of a payment yet. -/
theorem untouched_of_commitStep {now : Time} (h : CommitStep (fun _ => False) now db db') :
    Untouched db db' := by
  cases h with
  | quiet rows => exact .of_sameRows rows
  | commit m hm effect =>
    obtain ⟨d, rfl⟩ := hm.resolve_left id
    have hpayments : ∀ p, p ∈ db'.payments ↔ p ∈ db.payments := by
      intro p
      rw [effect.payments]
      simp [Commit.onPayment, Payment.updateWhere, Commit.paymentUpdate, Commit.paymentCreate]
    have hinvoices : ∀ i ∈ db.invoices, i ∈ db'.invoices := by
      intro i hi
      exact (effect.invoices i).2 (.inl ⟨i, hi, rfl⟩)
    refine ⟨fun q hq _ => ⟨(hpayments _).2 hq.payment, hinvoices _ hq.invoice, hq.id⟩,
      fun hp => ⟨fun p hp' ha => ?_, fun p hp' q hq => ?_⟩, fun e => ?_⟩
    · obtain ⟨i, hi, hpair⟩ := hp.invoice p ((hpayments p).1 hp') ha
      exact ⟨i, hinvoices i hi, hpair⟩
    · exact hp.own p ((hpayments p).1 hp') q ((hpayments q).1 hq)
    · rw [effect.webhookEvents]
      simp [Commit.webhookEventCreate]

/-- Creating an invoice, or setting a deposit address, leaves the payments alone. -/
theorem untouched_of_administrative {A : Signature} {ω ι η α : Type} {B : Backend A ω ι η}
    {v v' : World ω} {l : List (Event (effects A))} {y : Except Error α} {job : Action A α}
    (hjob : job.Only Administrative) (h : Runs (machine B) pid job v l y v') :
    Untouched v.db v'.db := by
  refine h.relates (R := fun v v' => Untouched v.db v'.db) (fun v => .of_sameRows (.refl v.db))
    (fun u v z (h : Untouched u.db v.db) (h' : Untouched v.db z.db) => h.trans h')
    (fun v op i r v' hop hr => ?_) (fun v act v' hs _ => ?_) hjob
  · exact untouched_of_commitStep ((OnlyCommits.of_administrative hop).respond hr)
  · exact .of_sameRows (Ledger.environment_rows hs).1

/-- The tables after a detection: its invoice was `PENDING`. -/
theorem untouched_of_matched {t : TokenTransfer} (h : Matched t db db')
    (hevents : ∀ e, e ∈ db'.webhookEvents ↔ e ∈ db.webhookEvents) : Untouched db db' := by
  cases h with
  | unclaimed _ rows => exact .of_sameRows rows
  | seen _ rows => exact .of_sameRows rows
  | @credited i paymentId detectedAt now hc =>
    have hkeeps : ∀ j ∈ db.invoices, j.status ≠ .pending → j ∈ db'.invoices := by
      intro j hj hs
      refine (hc.invoices j).2 ⟨j, hj, (if_neg fun hid => hs ?_).symm⟩
      rw [Table.eq_of_key hj hc.stored hid]
      exact hc.awaits.pending
    -- the invoice of an active payment is another one
    have hother : PairedOff db → ∀ p ∈ db.payments, p.status ∈ activeStatuses →
        p.invoiceId ≠ i.id := by
      intro hp p hp' ha hid
      obtain ⟨j, hj, hji, hpair⟩ := hp.invoice p hp' ha
      rw [Table.eq_of_key hj hc.stored (hji.trans hid)] at hpair
      exact paired_not_pending hpair hc.awaits.pending
    refine ⟨fun q hq hs => ⟨(hc.payments _).2 (.inl hq.payment), hkeeps _ hq.invoice hs, hq.id⟩,
      fun hp => ⟨fun p hp' ha => ?_, fun p hp' q hq' ha hb hid => ?_⟩, hevents⟩
    · rcases (hc.payments p).1 hp' with hp' | rfl
      · obtain ⟨j, hj, hji, hpair⟩ := hp.invoice p hp' ha
        exact ⟨j, hkeeps j hj (paired_not_pending hpair), hji, hpair⟩
      · exact ⟨_, (hc.invoices _).2 ⟨i, hc.stored, (if_pos rfl).symm⟩, rfl, .inl ⟨rfl, rfl⟩⟩
    · rcases (hc.payments p).1 hp' with hp' | rfl <;> rcases (hc.payments q).1 hq' with hq' | rfl
      · exact hp.own p hp' q hq' ha hb hid
      · exact absurd hid (hother hp p hp' ha)
      · exact absurd hid.symm (hother hp q hq' hb)
      · rfl

/-- `tryMatchTransfer` stores no event. -/
theorem passTransfer_events {t : TokenTransfer} (h : Runs (machine anyAnswer) pid (passTransfer t) w
    evs x w') (e : WebhookEvent) : e ∈ w'.db.webhookEvents ↔ e ∈ w.db.webhookEvents := by
  have hjob : (passTransfer t : Action adapterCalls Unit).Only
      (OnlyCommits (·.CreditsTransfer t)) :=
    .bind (.perform trivial) fun _ => .bind (matchTransfer_onlyCommits t) fun _ => .perform trivial
  refine h.relates (R := fun w w' => e ∈ w'.db.webhookEvents ↔ e ∈ w.db.webhookEvents)
    (fun _ => .rfl) (fun _ _ _ h h' => h'.trans h) (fun v op i r v' hop hr => ?_)
    (fun v act v' hs _ => (Ledger.environment_rows hs).1.webhookEvents e) hjob
  cases hop.respond hr with
  | quiet rows => exact rows.webhookEvents e
  | commit m hm effect =>
    rw [effect.webhookEvents]
    rcases hm with ⟨j, paymentId, detectedAt, rfl⟩ | ⟨d, rfl⟩ <;>
      simp [Commit.webhookEventCreate]

/-- A scan pass that returns leaves the payments alone that are there. -/
theorem untouched_of_scanPass {network : String} (h : ScanPass pid D network w evs w') :
    Untouched w.db w'.db := by
  obtain ⟨cursor, w₁, _, _, -, hcursor, h⟩ := h.bind_ok
  obtain ⟨latestBlock, w₂, _, _, -, hhead, h⟩ := h.bind_ok
  have hrows : w.db.SameRows w₂.db := (lone_cursor hcursor).trans (lone_adapter hhead).1
  dsimp only at h
  split_ifs at h with hnew
  · obtain ⟨-, -, hd⟩ := h.ret_inv
    exact .of_sameRows (hrows.trans (drifts_rows hd))
  obtain ⟨ts, w₃, _, _, -, htransfers, h⟩ := h.bind_ok
  obtain ⟨⟨⟩, w₄, _, _, -, hmatch, hupdate⟩ := h.bind_ok
  have hloop : Untouched w₃.db w₄.db := by
    refine Runs.forEach_keeps (I := fun _ v _ => Untouched w₃.db v.db)
      (fun _ _ _ _ hd hv => hv.trans (.of_sameRows (drifts_rows hd)))
      (fun t _ v l evs v' hv hrun => hv.trans ?_) hmatch (l := []) (.of_sameRows (.refl _))
    exact untouched_of_matched (passTransfer_matched hrun) (passTransfer_events hrun)
  exact ((Untouched.of_sameRows (hrows.trans (lone_adapter htransfers).1)).trans hloop).trans
    (.of_sameRows (lone_cursorUpdate hupdate))

/-- A job between two confirm passes: a scan pass that returns, or a request that creates an
    invoice or sets a deposit address. Or time goes by. -/
inductive Meanwhile (w w' : World Unit) : Prop where
  | scan {pid : ℕ} {D : String → Bool} {network : String}
      {evs : List (Event (effects adapterCalls))} (h : ScanPass pid D network w evs w')
  | request {pid : ℕ} {α : Type} {job : Action adapterCalls α} {y : Except Error α}
      {evs : List (Event (effects adapterCalls))} (hjob : job.Only Administrative)
      (h : Runs (machine anyAnswer) pid job w evs y w')
  | idle (rows : w.db.SameRows w'.db)

theorem Meanwhile.untouched (h : Meanwhile w w') : Untouched w.db w'.db := by
  cases h with
  | scan h => exact untouched_of_scanPass h
  | request hjob h => exact untouched_of_administrative hjob h
  | idle rows => exact .of_sameRows rows

/-! ## Passes and other jobs in turns -/

/-- Confirm passes, `n` of them, and other jobs in between; what the adapter says of the
    transaction is of one kind. -/
inductive Turns (requiredConfirmations : ℤ) (txHash : String) (f : Fate) :
    ℕ → World Unit → World Unit → Prop where
  | done {w : World Unit} : Turns requiredConfirmations txHash f 0 w w
  | pause {n : ℕ} {w w₁ w' : World Unit} (h : Meanwhile w w₁) (hclock : w.clock ≤ w₁.clock)
      (rest : Turns requiredConfirmations txHash f n w₁ w') :
      Turns requiredConfirmations txHash f n w w'
  | pass {n pid : ℕ} {D : String → Bool} {answers : String → Option ℤ} {w w₁ w' : World Unit}
      {evs : List (Event (effects adapterCalls))} {x : Except Error Unit}
      (hfate : fate requiredConfirmations (answers txHash) = f)
      (h : CalmPass pid D requiredConfirmations answers w evs x w₁)
      (rest : Turns requiredConfirmations txHash f n w₁ w') :
      Turns requiredConfirmations txHash f (n + 1) w w'

/-- The payment is in the phase, and was last changed by `t`. -/
def InPhase (p : PaymentWithInvoice) (db₀ : Db) (s : Phase) (t : Time) (db : Db) : Prop :=
  ∃ q, Became p db₀ q s db ∧ q.updatedAt ≤ t

/-- Before the first pass. -/
structure Followed (p : PaymentWithInvoice) (db₀ : Db) (w : World Unit) : Prop where
  pairedOff : PairedOff w.db
  phase : InPhase p db₀ (.start p) w.clock w.db

/-- The payment has reached the limit. -/
structure Arrived (p : PaymentWithInvoice) (db₀ : Db) (f : Fate) (w : World Unit) : Prop where
  pairedOff : PairedOff w.db
  phase : InPhase p db₀ (.limit p.amountMatch f) w.clock w.db

/-- After a pass: the payment waits since `t` at the latest, or has reached the limit. -/
def Underway (p : PaymentWithInvoice) (db₀ : Db) (f : Fate) (t : Time) (w : World Unit) : Prop :=
  (PairedOff w.db ∧ t ≤ w.clock ∧ InPhase p db₀ (.waiting f) t w.db) ∨ Arrived p db₀ f w

variable {t t' : Time} {n k m : ℕ}

theorem InPhase.untouched (h : InPhase p db₀ s t db) (hu : Untouched db db')
    (hs : s.invoice ≠ .pending) (ht : t ≤ t') : InPhase p db₀ s t' db' := by
  obtain ⟨q, hb, hq⟩ := h
  exact ⟨q, hb.untouched hu hs, le_trans hq ht⟩

theorem Underway.mono (h : Underway p db₀ f t w) (ht : t ≤ t') (ht' : t' ≤ w.clock) :
    Underway p db₀ f t' w := by
  rcases h with ⟨hp, -, q, hb, hq⟩ | h
  · exact .inl ⟨hp, ht', q, hb, le_trans hq ht⟩
  · exact .inr h

section Pass

variable (hhash : p.txHash = some txHash) (hne : txHash ≠ "")
  (hfate : fate requiredConfirmations (answers txHash) = f)
  (h : CalmPass pid D requiredConfirmations answers w evs x w')
include hhash hne hfate h

/-- The first pass. -/
theorem Followed.pass (hstart : Followed p db₀ w) (ha : p.status ∈ activeStatuses) :
    Underway p db₀ f w'.clock w' := by
  obtain ⟨hp, q, hb, hq⟩ := hstart
  have hpair : Paired p.status p.invoice.status := by
    have hpair := hp.paired hb.stored (hb.payment ▸ ha)
    rwa [hb.payment, hb.invoice] at hpair
  obtain ⟨q', elapsed, hb', hq', -, -⟩ := CalmPass.became hp h hb ha hhash hne hq
  rw [hfate] at hb'
  rcases Phase.advance_first p.amountMatch f elapsed (s := .start p) hpair rfl with heq | heq
  · exact .inl ⟨h.pairedOff hp, le_refl _, q', heq ▸ hb', hq'⟩
  · exact .inr ⟨h.pairedOff hp, q', heq ▸ hb', hq'⟩

/-- A pass after the payment has reached the limit. -/
theorem Arrived.pass (harrived : Arrived p db₀ f w) : Arrived p db₀ f w' := by
  obtain ⟨hp, q, hb, hq⟩ := harrived
  refine ⟨h.pairedOff hp, ?_⟩
  by_cases hf : f = .shallow
  · subst hf
    obtain ⟨q', elapsed, hb', hq', -, -⟩ := CalmPass.became hp h hb
      (Phase.waiting_active (f := .shallow)) hhash hne hq
    rw [hfate, Phase.advance_limit] at hb'
    exact ⟨q', hb', hq'⟩
  · obtain ⟨hinactive, hfinal⟩ := Phase.limit_final (a := p.amountMatch) hf
    exact ⟨q, CalmPass.kept hp h hb hinactive Phase.limit_invoice hfinal,
      le_trans hq (calm_clock h)⟩

/-- A further pass; it settles the payment, unless its transaction is missing for less than the
    grace period. -/
theorem Underway.pass (hway : Underway p db₀ f t w) : Underway p db₀ f t w' ∧
    (t + REORG_GRACE_MS ≤ w.clock → Arrived p db₀ f w') := by
  rcases hway with ⟨hp, ht, q, hb, hq⟩ | harrived
  · obtain ⟨q', elapsed, hb', hq', helapsed, hidle⟩ :=
      CalmPass.became hp h hb Phase.waiting_active hhash hne (le_trans hq ht)
    rw [hfate] at hb' hidle
    by_cases hsettles : f = .missing → elapsed = true
    · rw [Phase.advance_waiting hsettles] at hb'
      have harrived : Arrived p db₀ f w' := ⟨h.pairedOff hp, q', hb', hq'⟩
      exact ⟨.inr harrived, fun _ => harrived⟩
    · obtain ⟨rfl, hshort⟩ := Classical.not_imp.mp hsettles
      obtain rfl := Bool.eq_false_of_not_eq_true hshort
      rw [Phase.advance_missing] at hb'
      have hsame := hidle rfl rfl rfl
      refine ⟨.inl ⟨h.pairedOff hp, le_trans ht (calm_clock h), q', hb', hsame ▸ hq⟩, fun hle => ?_⟩
      exact absurd (helapsed (le_trans (Int.add_le_add_right hq _) hle)) Bool.false_ne_true
  · have harrived' := Arrived.pass hhash hne hfate h harrived
    exact ⟨.inr harrived', fun _ => harrived'⟩

end Pass

section Pauses

variable (hu : Untouched w.db w'.db) (hclock : w.clock ≤ w'.clock)
include hu hclock

theorem Followed.pause (hstart : Followed p db₀ w) (ha : p.status ∈ activeStatuses) :
    Followed p db₀ w' := by
  obtain ⟨hp, q, hb, hq⟩ := hstart
  refine ⟨hu.pairedOff hp, InPhase.untouched ⟨q, hb, hq⟩ hu ?_ hclock⟩
  have hpair := hp.paired hb.stored (hb.payment ▸ ha)
  rw [hb.invoice] at hpair
  exact paired_not_pending hpair

theorem Arrived.pause (harrived : Arrived p db₀ f w) : Arrived p db₀ f w' :=
  ⟨hu.pairedOff harrived.pairedOff, harrived.phase.untouched hu Phase.limit_invoice hclock⟩

theorem Underway.pause (hway : Underway p db₀ f t w) : Underway p db₀ f t w' := by
  rcases hway with ⟨hp, ht, hphase⟩ | harrived
  · exact .inl ⟨hu.pairedOff hp, le_trans ht hclock,
      hphase.untouched hu Phase.waiting_invoice (le_refl _)⟩
  · exact .inr (harrived.pause hu hclock)

end Pauses

section Turns

variable (hhash : p.txHash = some txHash) (hne : txHash ≠ "")
include hhash hne

omit hhash hne in
theorem Turns.clock (h : Turns requiredConfirmations txHash f n w w') : w.clock ≤ w'.clock := by
  induction h with
  | done => exact le_refl _
  | pause _ hclock _ ih => exact le_trans hclock ih
  | pass _ hpass _ ih => exact le_trans (calm_clock hpass) ih

theorem Turns.arrived (h : Turns requiredConfirmations txHash f n w w')
    (harrived : Arrived p db₀ f w) : Arrived p db₀ f w' := by
  induction h with
  | done => exact harrived
  | pause hjob hclock _ ih => exact ih (harrived.pause hjob.untouched hclock)
  | pass hfate hpass _ ih => exact ih (Arrived.pass hhash hne hfate hpass harrived)

theorem Turns.underway (h : Turns requiredConfirmations txHash f n w w')
    (hway : Underway p db₀ f t w) : Underway p db₀ f t w' := by
  induction h with
  | done => exact hway
  | pause hjob hclock _ ih => exact ih (hway.pause hjob.untouched hclock)
  | pass hfate hpass _ ih => exact ih (Underway.pass hhash hne hfate hpass hway).1

/-- From the first pass on, the payment is under way. -/
theorem Turns.first (h : Turns requiredConfirmations txHash f n w w') (hn : n ≠ 0)
    (ha : p.status ∈ activeStatuses) (hstart : Followed p db₀ w) :
    Underway p db₀ f w'.clock w' := by
  induction h with
  | done => exact absurd rfl hn
  | pause hjob hclock _ ih => exact ih hn (hstart.pause hjob.untouched hclock ha)
  | pass hfate hpass rest _ =>
    have hway := Followed.pass hhash hne hfate hpass hstart ha
    exact (rest.underway hhash hne hway).mono rest.clock (le_refl _)

/-- A pass after the grace period settles it. -/
theorem Turns.last (h : Turns requiredConfirmations txHash f n w w') (hn : n ≠ 0)
    (hwait : t + REORG_GRACE_MS ≤ w.clock) (hway : Underway p db₀ f t w) : Arrived p db₀ f w' := by
  induction h with
  | done => exact absurd rfl hn
  | pause hjob hclock _ ih =>
    exact ih hn (le_trans hwait hclock) (hway.pause hjob.untouched hclock)
  | pass hfate hpass rest _ =>
    exact rest.arrived hhash hne ((Underway.pass hhash hne hfate hpass hway).2 hwait)

end Turns

/-- Whatever the other jobs do in between: after a confirm pass, the grace period and another
    pass, the payment, its invoice and its events are as the chain says, and stay so. -/
theorem confirm_converges (hp : PairedOff w.db) (hs : Stored p w.db)
    (ha : p.status ∈ activeStatuses) (hhash : p.txHash = some txHash) (hne : txHash ≠ "")
    (hchanged : p.updatedAt ≤ w.clock) (hn : n ≠ 0) (hm : m ≠ 0)
    (h₁ : Turns requiredConfirmations txHash f n w w₁)
    (h₂ : Turns requiredConfirmations txHash f k w₁ w₂)
    (hwait : w₁.clock + REORG_GRACE_MS ≤ w₂.clock)
    (h₃ : Turns requiredConfirmations txHash f m w₂ w₃) :
    ∃ q, Became p w.db q (.limit p.amountMatch f) w₃.db := by
  have hstart : Followed p w.db w := ⟨hp, p, .start hs, hchanged⟩
  have hway := h₁.first hhash hne hn ha hstart
  have harrived := h₃.last hhash hne hm hwait (h₂.underway hhash hne hway)
  obtain ⟨q, hb, -⟩ := harrived.phase
  exact ⟨q, hb⟩

/-- The confirming payment of `twoPayments`. -/
def confirmingPayment : PaymentWithInvoice where
  toPayment := trackedPayment "pay_2" "inv_2" "0x2" .confirming
  invoice := trackedInvoice "inv_2" .confirming

/-- Its transaction has gone: it fails ten minutes later. -/
theorem confirmingPayment_converges : ∃ w₁ w₂ w₃ q,
    Turns 3 "0x2" .missing 1 twoPayments w₁ ∧ w₁.clock + REORG_GRACE_MS ≤ w₂.clock ∧
      Turns 3 "0x2" .missing 1 w₂ w₃ ∧
      Became confirmingPayment twoPayments.db q ⟨.failed, .failed, []⟩ w₃.db := by
  have hpass : ∀ w, ∃ w', Turns 3 "0x2" .missing 1 w w' := by
    intro w
    obtain ⟨evs, x, w', h⟩ := Prog.exists_runs
      (calm_total (B := fixedAnswers fun _ => none) fixedAnswers_total 0)
      (runPaymentConfirm (oracle fun _ => true) 3) w
    exact ⟨w', .pass rfl h .done⟩
  obtain ⟨w₁, h₁⟩ := hpass twoPayments
  have hgrace : w₁.clock ≤ w₁.clock + REORG_GRACE_MS :=
    Int.le_add_of_nonneg_right (by decide : (0 : ℤ) ≤ REORG_GRACE_MS)
  obtain ⟨w₂, hdb, hclock⟩ : ∃ w₂ : World Unit, w₂.db = w₁.db ∧
      w₂.clock = w₁.clock + REORG_GRACE_MS :=
    ⟨{ w₁ with clock := w₁.clock + REORG_GRACE_MS }, rfl, rfl⟩
  have h₂ : Turns 3 "0x2" .missing 0 w₁ w₂ :=
    .pause (.idle (hdb ▸ .refl _)) (hclock ▸ hgrace) .done
  obtain ⟨w₃, h₃⟩ := hpass w₂
  obtain ⟨q, hq⟩ := confirm_converges (p := confirmingPayment) twoPayments_pairedOff
    ⟨List.mem_cons_of_mem _ List.mem_cons_self, List.mem_cons_of_mem _ List.mem_cons_self, rfl⟩
    (by decide) rfl (by decide) (by decide) Nat.one_ne_zero Nat.one_ne_zero h₁ h₂ hclock.ge h₃
  exact ⟨w₁, w₂, w₃, q, h₁, hclock.ge, h₃, hq⟩

end CryptoPay.Worker
