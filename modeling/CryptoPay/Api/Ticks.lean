import CryptoPay.Api.Outlines
import CryptoPay.Api.Payments
import CryptoPay.Payments.EventLog
import CryptoPay.Payments.StepOutlines

/-!
# One tick at a time

The ledger of the API process with the fake chain. The flag `ticking` has one
holder; only the holder commits anything but a new invoice, so what it has read
stays true until it commits, and every snapshot is the stored row.

Results:
* `ticks_sound`: any number of ticks, simulations and creations, with restarts,
  keep the coupling `Paired` and the event log, and throw no
  `InvalidStateTransitionError`.
-/

namespace CryptoPay.Api

open Async Fake

/-- Which invoice status goes with which payment status. -/
def Paired : Option PaymentStatus → InvoiceStatus → Prop
  | none, s => s = .pending ∨ s = .expired
  | some .detected, s => s = .detected
  | some .confirming, s => s = .confirming
  | some .confirmed, s => s = .paid
  | some .underpaid, s => s = .underpaid
  | some .overpaid, s => s = .overpaid
  | some .failed, s => s = .failed
  | some .pending, _ => False
  | some .reorgDetected, _ => False

/-- The process holds the flag. -/
def Ticking (pid : ℕ) (c : History fakeCalls Memory) : Prop := c.state.other.ticking = some pid

/-- The invoice is stored as it was read, and it is `PENDING`. -/
def Pending (i : Invoice) (db : Db) : Prop := i ∈ db.invoices ∧ i.status = .pending

/-- What a job knows about the stored rows when it commits. -/
inductive Can (pid : ℕ) (c : History fakeCalls Memory) : Commit → Prop where
  | create {d : InvoiceCreateInput} (status : d.status = .pending) : Can pid c (.create d)
  | expire {i eventId} (ticking : Ticking pid c) (pending : Pending i c.state.db) :
      Can pid c (.expire i eventId)
  | detect {i t paymentId detectedAt} (ticking : Ticking pid c) (pending : Pending i c.state.db)
      (token : i.token = t.token) : Can pid c (.detect i t paymentId detectedAt)
  | fail {p} (ticking : Ticking pid c) (stored : Stored p c.state.db)
      (status : p.status = .detected ∨ p.status = .confirming) : Can pid c (.fail p)
  | confirm {p n} (ticking : Ticking pid c) (stored : Stored p c.state.db)
      (status : p.status = .detected) : Can pid c (.confirm p n)
  | refresh {p n} (ticking : Ticking pid c) (stored : Stored p c.state.db)
      (status : p.status = .confirming) : Can pid c (.refresh p n)
  | settle {p n confirmedAt paidAt eventId} (ticking : Ticking pid c)
      (stored : Stored p c.state.db) (status : p.status = .confirming) :
      Can pid c (.settle p n confirmedAt paidAt eventId)

/-- What holds between any two requests. -/
structure Inv (c : History fakeCalls Memory) : Prop where
  coupled : c.state.db.Coupled Paired
  log : c.state.db.EventLog

/-- The ledger of the API process. -/
def ticks (C : Config) : Ledger fakeCalls Memory Chance Restart Job where
  backend := backend C.blockTime
  work := workload C
  start := Unused
  allowed := anything
  Inv := Inv
  Can _ := Can
  Side := Holds
  Exc _ e := ¬ e.IsInvalidStateTransition

variable {C : Config} {j : Job} {pid : ℕ} {m : Commit} {c c' : History fakeCalls Memory}
  {now : Time} {db db' : Db}

/-! ## What a permitted commit may change -/

/-- A `PENDING` invoice has no payment. -/
theorem unpaid_of_pending (h : db.Coupled Paired) {i : Invoice} (hi : Pending i db) :
    ∀ p ∈ db.payments, p.invoiceId ≠ i.id := by
  intro p hp hpi
  have hR := h.paid p hp i hi.1 hpi
  rw [hi.2] at hR
  cases hs : p.status <;> simp [hs, Paired] at hR

/-- The invoice of a payment that is not final. -/
theorem invoice_of_active (h : db.Coupled Paired) {p : PaymentWithInvoice} (hp : Stored p db) :
    (p.status = .detected → p.invoice.status = .detected) ∧
      (p.status = .confirming → p.invoice.status = .confirming) := by
  have hR := h.paid _ hp.payment _ hp.invoice hp.id
  constructor <;> intro hs <;> rw [hs] at hR <;> exact hR

/-- Every permitted commit keeps the coupling. -/
theorem Can.coupled (hcan : Can pid c m) (h : c.state.db.Coupled Paired)
    (he : m.Effect now c.state.db db') : db'.Coupled Paired := by
  cases hcan with
  | create status => exact h.create he (by rw [status]; exact .inl rfl)
  | expire ticking pending =>
    refine h.expire he (fun _ => .inr rfl) fun p hp hpi => ?_
    exact absurd hpi (unpaid_of_pending h pending p hp)
  | detect ticking pending token =>
    exact h.detect he pending.1 rfl token (unpaid_of_pending h pending) rfl
  | fail ticking stored status =>
    refine stored.advance h he rfl rfl rfl (by rintro u ⟨⟩; rfl) (fun r => ?_) fun _ => ?_
    · cases r <;> exact nofun
    · rw [Commit.onInvoice_of_eq rfl stored.id.symm]
      rfl
  | confirm ticking stored status =>
    refine stored.advance h he rfl rfl rfl (by rintro u ⟨⟩; rfl) (fun r => ?_) fun _ => ?_
    · cases r <;> exact nofun
    · rw [Commit.onInvoice_of_eq rfl stored.id.symm]
      rfl
  | refresh ticking stored status =>
    exact stored.advance h he rfl rfl rfl nofun (h.settled _ stored.payment).outcome fun hR => hR
  | @settle p n confirmedAt paidAt eventId ticking stored status =>
    refine stored.advance h he rfl rfl rfl (by rintro u ⟨⟩; rfl) (fun r hr => ?_) fun _ => ?_
    · revert hr
      cases p.amountMatch <;> cases r <;> first | exact fun _ => rfl | exact nofun
    · rw [Commit.onInvoice_of_eq rfl stored.id.symm]
      show Paired (some p.amountMatch.outcome.1) p.amountMatch.outcome.2.1
      cases p.amountMatch <;> rfl

/-- The stored invoice that a permitted commit names is not reported yet. -/
theorem Can.unreported (hcan : Can pid c m) (h : c.state.db.Coupled Paired)
    {u : String × InvoiceUpdateInput} (hu : m.invoiceUpdate = some u) {i : Invoice}
    (hi : i ∈ c.state.db.invoices) (hid : i.id = u.1) : i.status.reported = false := by
  have hpending : ∀ {i₀ : Invoice}, Pending i₀ c.state.db → i.id = i₀.id →
      i.status.reported = false := by
    intro i₀ hi₀ hii
    rw [Data.Table.eq_of_key hi hi₀.1 hii, hi₀.2]
    rfl
  have hactive : ∀ {p : PaymentWithInvoice}, Stored p c.state.db → i.id = p.invoiceId →
      (p.status = .detected ∨ p.status = .confirming) → i.status.reported = false := by
    intro p hp hip hs
    rw [hp.invoice_eq hi hip]
    rcases hs with hs | hs
    · rw [(invoice_of_active h hp).1 hs]
      rfl
    · rw [(invoice_of_active h hp).2 hs]
      rfl
  cases hcan with
  | create => cases hu
  | expire _ pending => cases hu; exact hpending pending hid
  | detect _ pending => cases hu; exact hpending pending hid
  | fail _ stored status => cases hu; exact hactive stored hid status
  | confirm _ stored status => cases hu; exact hactive stored hid (.inl status)
  | refresh => cases hu
  | settle _ stored status => cases hu; exact hactive stored hid (.inr status)

/-- Every permitted commit respects the event log. -/
theorem Can.logs (hcan : Can pid c m) (h : c.state.db.Coupled Paired)
    (he : m.Effect now c.state.db db') : m.Logs now c.state.db db' where
  created d hd := by
    cases hcan <;> cases hd
    rename_i status
    rw [status]
    rfl
  kept u hu i hi hid := hcan.unreported h hu hi hid
  logged u hu hr := by
    cases hcan with
    | create => cases hu
    | expire => cases hu; exact ⟨_, rfl, rfl⟩
    | detect => cases hu; cases hr
    | fail => cases hu; cases hr
    | confirm => cases hu; cases hr
    | refresh => cases hu
    | settle _ stored => cases hu; exact ⟨_, rfl, stored.id.symm⟩
  reports d hd := by
    cases hcan with
    | @expire i eventId _ pending =>
      cases hd
      refine ⟨_, rfl, rfl, i, pending.1, rfl, none, ?_, .inl ⟨?_, rfl⟩⟩ <;>
        rw [Commit.onInvoice_of_eq rfl rfl]
      · exact ⟨rfl, rfl, rfl, rfl, rfl, rfl⟩
      · rfl
    | @settle p n confirmedAt paidAt eventId _ stored =>
      cases hd
      have hpay := he.keeps_payment stored.payment
      have hterms := Commit.terms_onPayment (.settle p n confirmedAt paidAt eventId) now p.toPayment
      refine ⟨_, rfl, ?_, p.invoice, stored.invoice, stored.id.symm, p.txHash, ?_, .inr ⟨?_, _, hpay, ?_,
        (congrArg Payment.txHash hterms :)⟩⟩ <;> try rw [Commit.onInvoice_of_eq rfl stored.id.symm]
      · cases p.amountMatch <;> rfl
      · refine ⟨rfl, rfl, ?_, rfl, rfl, rfl⟩
        show p.amountMatch.outcome.2.2 = p.amountMatch.outcome.2.1.eventType
        cases p.amountMatch <;> rfl
      · show p.amountMatch.outcome.2.1 ≠ .expired
        cases p.amountMatch <;> exact nofun
      · exact (terms_invoiceId hterms).trans stored.id
    | _ => cases hd

theorem ticks_lawful (C : Config) : (ticks C).Lawful where
  initial _ hw := ⟨.empty _ hw.1 hw.2.1, .empty hw.1 hw.2.2.1⟩
  quiet _ _ _ hI hp _ := ⟨hI.coupled.congr hp.rows, hI.log.congr hp.rows⟩
  env _ _ hI _ hr _ := ⟨hI.coupled.congr hr, hI.log.congr hr⟩
  commit _ _ _ _ _ hI hc hcan :=
    ⟨hcan.coupled hI.coupled hc.effect, hI.log.commit hc.effect (hcan.logs hI.coupled hc.effect)⟩

/-! ## What the holder of the flag knows -/

/-- What only a new invoice could change while the flag is held. -/
structure Kept (R : Db → Prop) : Prop where
  rows : ∀ db db', Db.SameRows db db' → R db → R db'
  create : ∀ d now db db', (Commit.create d).Effect now db db' → R db → R db'

/-- The process holds the flag, and `R` is true of the stored rows. -/
def Held (pid : ℕ) (R : Db → Prop) (c : History fakeCalls Memory) : Prop :=
  Ticking pid c ∧ R c.state.db

variable {R : Db → Prop}

theorem Kept.trivially : Kept fun _ => True := ⟨fun _ _ _ _ => trivial, fun _ _ _ _ _ _ => trivial⟩

theorem Kept.pending (i : Invoice) : Kept (Pending i) where
  rows _ _ hs h := ⟨(hs.invoices i).2 h.1, h.2⟩
  create _ _ _ _ he h := ⟨he.keeps_invoice h.1, h.2⟩

theorem Kept.stored (p : PaymentWithInvoice) : Kept (Stored p) where
  rows _ _ hs h := h.congr hs
  create _ _ _ _ he h := h.keep he nofun nofun

/-- No one else commits anything but a new invoice. -/
theorem Kept.fact (hR : Kept R) : (ticks C).Fact j pid (Held pid R) where
  quiet c c' ev _ h hp _ ho := by
    refine ⟨?_, hR.rows _ _ hp.rows h.2⟩
    rcases ho with ho | ⟨hne, hside⟩
    · show c'.state.other.ticking = some pid
      rw [ho]
      exact h.1
    · exact Holds.other hside hne h.1
  env c c' _ h _ hr ho := by
    refine ⟨?_, hR.rows _ _ hr h.2⟩
    rcases ho with ho | ⟨e, hrestart, -⟩
    · show c'.state.other.ticking = some pid
      rw [ho]
      exact h.1
    · cases hrestart
  commit c c' ev m j' _ h hc hne _ hcan := by
    have hticking : Ticking pid c' := by
      show c'.state.other.ticking = some pid
      rw [hc.other]
      exact h.1
    have hno : ¬ Ticking ev.pid c := fun ht => hne (Option.some.inj (ht.symm.trans h.1))
    cases hcan with
    | create => exact ⟨hticking, hR.create _ _ _ _ hc.effect h.2⟩
    | expire ht => exact absurd ht hno
    | detect ht => exact absurd ht hno
    | fail ht => exact absurd ht hno
    | confirm ht => exact absurd ht hno
    | refresh ht => exact absurd ht hno
    | settle ht => exact absurd ht hno

theorem Ticking.fact : (ticks C).Fact j pid (Ticking pid) :=
  Kept.trivially.fact.congr fun _ => ⟨fun h => h.1, fun h => ⟨h, trivial⟩⟩

theorem Held.commit {ev : Event (effects fakeCalls)} (hc : Committed ev m c c') (h : Ticking pid c)
    (hR : R c'.state.db) : Held pid R c' := by
  refine ⟨?_, hR⟩
  show c'.state.other.ticking = some pid
  rw [hc.other]
  exact h

/-! ## Calls -/

/-- The body of a tick throws no `InvalidStateTransitionError`, and still holds the
    flag then. -/
def Failed (pid : ℕ) (e : Error) (c : History fakeCalls Memory) : Prop :=
  Ticking pid c ∧ ¬ e.IsInvalidStateTransition

theorem held_escapes : (ticks C).Escapes (Held pid R) (Failed pid) := fun _ _ _ h => ⟨h.1, id⟩

/-- A call that leaves the flag alone. -/
theorem call_valid (hR : Kept R) (call : Call) (henter : call ≠ .enterTick)
    (hleave : call ≠ .leaveTick) {E : Error → History fakeCalls Memory → Prop} :
    (ticks C).protocol.Valid j pid (Held pid R) (.perform (S := effects fakeCalls) (.other call))
      (fun _ => Held pid R) E :=
  Ledger.Fact.act (fun _ => hR.fact) fun c k r o _ h hr => by
    have ho := respond_ticking hr henter hleave
    exact ⟨.inr (.same ho), ho.trans h.1, h.2⟩

/-! ## The body of a tick -/

theorem expireOverdueInvoices_valid : (ticks C).protocol.Valid j pid (Held pid fun _ => True)
    expireOverdueInvoices (fun _ => Held pid fun _ => True) (Failed pid) := by
  refine Ledger.expireOverdue_valid (Kept.trivially.fact) (fun i => (Kept.pending i).fact) ?_ ?_
    held_escapes
  · intro now c i _ h hi hw
    exact ⟨h.1, hi, (overdueWhere_holds.mp hw).1⟩
  · intro i eventId c c' ev hc h hdue
    refine ⟨.expire h.1 hdue.2, .commit hc.committed h.1 trivial, fun i' hne hdue' => ?_⟩
    refine .commit hc.committed h.1 ⟨?_, hdue'.2.2⟩
    have hkeep := hc.committed.effect.keeps_invoice hdue'.2.1
    rwa [Commit.onInvoice_of_ne (by rintro u ⟨⟩; exact hne)] at hkeep

theorem tryMatchTransfer_valid (t : TokenTransfer) :
    (ticks C).protocol.Valid j pid (Held pid fun _ => True) (tryMatchTransfer t)
      (fun _ => Held pid fun _ => True) (Failed pid) := by
  refine Ledger.matchTransfer_valid t (Kept.trivially.fact) (fun i => (Kept.pending i).fact) ?_ ?_
    held_escapes
  · intro c i _ h hi hw
    exact ⟨h.1, hi, (candidateWhere_holds.mp hw).1⟩
  · intro i paymentId detectedAt c c' ev hc h hseen hmatch
    exact ⟨.detect h.1 hseen.2 (matchesInvoice_iff.mp hmatch).2.1,
      .commit hc.committed h.1 trivial⟩

theorem detectNewPayments_valid : (ticks C).protocol.Valid j pid (Held pid fun _ => True)
    detectNewPayments (fun _ => Held pid fun _ => True) (Failed pid) := by
  refine (call_valid .trivially .getLatestBlock nofun nofun).bind fun (latestBlock : ℤ) => ?_
  refine (call_valid .trivially .lastScannedBlock nofun nofun).bind fun (scanned : ℤ) => ?_
  have hadvance : (ticks C).protocol.Valid j pid (Held pid fun _ => True)
      (advanceLastScannedBlock latestBlock) (fun _ => Held pid fun _ => True) (Failed pid) :=
    call_valid .trivially (.advanceLastScannedBlock latestBlock) nofun nofun
  by_cases hnew : latestBlock > scanned
  · rw [if_pos hnew]
    refine (call_valid .trivially (.getTokenTransfers (scanned + 1) latestBlock) nofun nofun).bind
      fun (transfers : List TokenTransfer) => Protocol.Valid.bind ?_ fun _ => hadvance
    exact Protocol.Valid.forEach (fun _ => Held pid fun _ => True)
      (fun t _ => tryMatchTransfer_valid t) transfers
  · rw [if_neg hnew]
    exact hadvance

/-- What is known while the payments `ps` of the snapshot remain. -/
def Remaining (pid : ℕ) (ps : List PaymentWithInvoice) (c : History fakeCalls Memory) : Prop :=
  Ticking pid c ∧ (ps.map fun p => p.id).Nodup ∧
    ∀ p ∈ ps, (p.status = .detected ∨ p.status = .confirming) ∧ Held pid (Stored p) c

variable {p : PaymentWithInvoice} {ps : List PaymentWithInvoice}

theorem Remaining.fact (ps : List PaymentWithInvoice) :
    (ticks C).Fact j pid (Remaining pid ps) :=
  Ticking.fact.and (.and .const (.forall fun p =>
    (Ledger.Fact.const.and (Kept.stored p).fact).imp))

theorem Remaining.escapes (ps : List PaymentWithInvoice) :
    (ticks C).Escapes (Remaining pid ps) (Failed pid) := fun _ _ _ h => ⟨h.1, id⟩

theorem Remaining.head (h : Remaining pid (p :: ps) c) :
    (p.status = .detected ∨ p.status = .confirming) ∧ Stored p c.state.db :=
  ⟨(h.2.2 p List.mem_cons_self).1, (h.2.2 p List.mem_cons_self).2.2⟩

theorem Remaining.tail (h : Remaining pid (p :: ps) c) : Remaining pid ps c :=
  ⟨h.1, (List.nodup_cons.mp h.2.1).2, fun q hq => h.2.2 q (List.mem_cons_of_mem p hq)⟩

/-- A commit on the first payment leaves the others as they are: they belong to other
    invoices. -/
theorem Remaining.commit {ev : Event (effects fakeCalls)} (h : Remaining pid (p :: ps) c)
    (hI : Inv c) (hc : Committed ev m c c') (hpu : ∀ u, m.paymentUpdate = some u → u.1 = p.id)
    (hiu : ∀ u, m.invoiceUpdate = some u → u.1 = p.invoiceId) : Remaining pid ps c' := by
  have hstored := h.head.2
  obtain ⟨hticking, hnodup, hps⟩ := h
  obtain ⟨hnot, hnodup⟩ := List.nodup_cons.mp hnodup
  refine ⟨(Held.commit hc hticking trivial (R := fun _ => True)).1, hnodup, fun q hq => ?_⟩
  obtain ⟨hst, -, hq'⟩ := hps q (List.mem_cons_of_mem p hq)
  have hne : q.id ≠ p.id := fun hid => hnot (List.mem_map.mpr ⟨q, hq, hid⟩)
  refine ⟨hst, .commit hc hticking (hq'.keep hc.effect (fun u hu => by rw [hpu u hu]; exact hne)
    fun u hu hid => hne ?_)⟩
  rw [hiu u hu] at hid
  rw [hI.coupled.single _ hq'.payment _ hstored.payment (hq'.id.trans hid)]

theorem Remaining.congr (h : Remaining pid ps c) (hdb : c'.state.db = c.state.db)
    (hflag : c'.state.other.ticking = c.state.other.ticking) : Remaining pid ps c' := by
  have hticking : Ticking pid c' := hflag.trans h.1
  exact ⟨hticking, h.2.1, fun q hq => ⟨(h.2.2 q hq).1, hticking, hdb ▸ (h.2.2 q hq).2.2⟩⟩

theorem failOrphanedPayment_valid : (ticks C).protocol.Valid j pid (Remaining pid (p :: ps))
    (failOrphanedPayment p) (fun _ => Remaining pid ps) (Failed pid) := by
  refine Ledger.failAttempt_valid p (Remaining.fact _) (Remaining.fact _) ?_ ?_ (Remaining.escapes _)
  · intro c c' ev hc h _ _
    exact ⟨.fail h.1 h.head.2 h.head.1, h.commit hc.inv hc.committed (by rintro u ⟨⟩; rfl)
      (by rintro u ⟨⟩; rfl)⟩
  · -- the assertions pass: the payment is active, and its invoice goes with it
    intro c e hI h _ hbad
    obtain ⟨hst, hstored⟩ := h.head
    have hinv := invoice_of_active hI.coupled hstored
    rcases hst with hst | hst
    · rw [hst, hinv.1 hst] at hbad
      rcases hbad with hbad | hbad <;> cases hbad
    · rw [hst, hinv.2 hst] at hbad
      rcases hbad with hbad | hbad <;> cases hbad

theorem moveToConfirming_valid (n : ℤ) (hst : p.status = .detected) :
    (ticks C).protocol.Valid j pid (Remaining pid (p :: ps)) (moveToConfirming p n)
      (fun _ => Remaining pid ps) (Failed pid) :=
  (Remaining.fact _).commits (Remaining.fact _) (.confirm p n)
    (fun c c' ev hc h => ⟨.confirm h.1 h.head.2 hst, h.commit hc.inv hc.committed
      (by rintro u ⟨⟩; rfl) (by rintro u ⟨⟩; rfl)⟩) (Remaining.escapes _)

theorem advanceWith_valid (n : ℤ) : (ticks C).protocol.Valid j pid (Remaining pid (p :: ps))
    (advanceWith C.requiredConfirmations p n) (fun _ => Remaining pid ps) (Failed pid) := by
  refine Protocol.Valid.pre (P := fun c => Remaining pid (p :: ps) c ∧
    (p.status = .detected ∨ p.status = .confirming)) (.assume fun hst => ?_)
    fun c _ h => ⟨h, h.head.1⟩
  unfold advanceWith
  split_ifs with hdetected hless hsame
  · exact moveToConfirming_valid n hdetected
  · exact (Remaining.fact _).commits (Remaining.fact _) (.refresh p n)
      (fun c c' ev hc h => ⟨.refresh h.1 h.head.2 (hst.resolve_left hdetected),
        h.commit hc.inv hc.committed (by rintro u ⟨⟩; rfl) nofun⟩) (Remaining.escapes _)
  · exact .pure fun c _ h => h.tail
  · exact Ledger.settlePayment_valid p n (Remaining.fact _) (Remaining.fact _)
      (fun confirmedAt paidAt eventId c c' ev hc h _ =>
        ⟨.settle h.1 h.head.2 (hst.resolve_left hdetected), h.commit hc.inv hc.committed
          (by rintro u ⟨⟩; rfl) (by rintro u ⟨⟩; rfl)⟩) (Remaining.escapes _)

/-- The error of `getConfirmations`. -/
theorem getConfirmations_error {now : Time} {chain : Chain} {txHash : String} {e : Error}
    (h : getConfirmations C.blockTime now chain txHash = .error e) :
    ¬ e.IsInvalidStateTransition := by
  unfold getConfirmations at h
  split at h <;> cases h
  exact id

/-- The adapter's answer for a payment, or the error that was thrown. -/
theorem confirmationsOf_valid (txHash : String) :
    (ticks C).protocol.Valid j pid (Remaining pid ps) (confirmationsOf p txHash).attempt
      (fun r c => Remaining pid ps c ∧ ∀ e, r = .error e → ¬ e.IsInvalidStateTransition)
      (Failed pid) := by
  let Answer : Except Error ℤ → History fakeCalls Memory → Prop := fun r c =>
    Remaining pid ps c ∧ ∀ e, r = .error e → ¬ e.IsInvalidStateTransition
  have hAnswer : ∀ r, (ticks C).Fact j pid (Answer r) := fun r => (Remaining.fact ps).and .const
  have hthrows : Throws (ticks C) (Remaining pid ps) fun e => Answer (.error e) :=
    fun e c _ h he => ⟨h, fun e' he' => by cases he'; exact he⟩
  refine Protocol.Valid.attempt ?_
  refine (registryGet_valid adapter p.network hthrows).bind fun a => .assume fun ha => ?_
  subst ha
  refine Protocol.Valid.bind (p := .perform (S := effects fakeCalls)
    (.other (.getConfirmations txHash))) (Q := Answer) (Ledger.Fact.act hAnswer ?_)
    fun (r : Except Error ℤ) => .ofExcept (fun a ha c _ h => ha ▸ h) fun e he c _ h => he ▸ h
  intro c k r o hI h hr
  have ho := respond_ticking hr nofun nofun
  refine ⟨.inr (.same ho), ?_, fun e he => ?_⟩
  · exact h.congr rfl ho
  · cases k <;> cases hr
    exact getConfirmations_error he

theorem advancePayment_valid : (ticks C).protocol.Valid j pid (Remaining pid (p :: ps))
    (advancePayment C.requiredConfirmations p) (fun _ => Remaining pid ps) (Failed pid) := by
  unfold advancePayment
  cases p.txHash with
  | none => exact .pure fun c _ h => h.tail
  | some txHash =>
    dsimp only
    split_ifs
    · exact .pure fun c _ h => h.tail
    refine (confirmationsOf_valid txHash).bind fun r => .assume fun hr => ?_
    split
    · exact failOrphanedPayment_valid
    · rename_i e _
      exact .throw fun c _ h => ⟨h.1, hr e rfl⟩
    · exact advanceWith_valid _

theorem advanceConfirmations_valid : (ticks C).protocol.Valid j pid (Held pid fun _ => True)
    (advanceConfirmations C.requiredConfirmations) (fun _ => Held pid fun _ => True)
    (Failed pid) := by
  refine (Kept.trivially.fact.paymentFindMany [.detected, .confirming]
    (F := fun p c => (p.status = .detected ∨ p.status = .confirming) ∧ Held pid (Stored p) c)
    (fun p => Ledger.Fact.const.and (Kept.stored p).fact) (fun c p _ h hpay hst hinv hid => ?_)
    held_escapes).bind fun active => ?_
  · exact ⟨by simpa using hst, h.1, hpay, hinv, hid.symm⟩
  · refine ((Protocol.Valid.forEach (Remaining pid) (fun p ps => advancePayment_valid) active).pre
      fun c _ h => ⟨h.1.1, h.2⟩).post (fun _ c _ h => ⟨h.1, trivial⟩) fun _ _ _ h => h

/-- The body of a tick. -/
theorem processPayments_valid : (ticks C).protocol.Valid j pid (Held pid fun _ => True)
    (processPayments C.requiredConfirmations) (fun _ => Held pid fun _ => True) (Failed pid) :=
  expireOverdueInvoices_valid.bind fun _ => detectNewPayments_valid.bind fun _ =>
    advanceConfirmations_valid

/-! ## The jobs -/

/-- What a job throws when it does not hold the flag. -/
def Thrown (e : Error) (_ : History fakeCalls Memory) : Prop := ¬ e.IsInvalidStateTransition

theorem throws_thrown {P : History fakeCalls Memory → Prop} : Throws (ticks C) P Thrown :=
  fun _ _ _ _ h => h

/-- A tick takes the flag, or does nothing; whatever it throws, it gives it back. -/
theorem tick_valid : (ticks C).protocol.Valid j pid (fun _ => True)
    (tick C.requiredConfirmations) (fun _ _ => True) Thrown := by
  refine Protocol.Valid.bind (Q := fun (entered : Bool) c => entered = true → Ticking pid c)
    (Ledger.Fact.act (fun _ => Ticking.fact.imp) ?_) fun (entered : Bool) => ?_
  · intro c k r o _ _ hr
    cases k with
    | transfer hash digits => cases hr
    | ok =>
      cases hflag : c.state.other.ticking with
      | none =>
        simp only [ticks, Fake.backend, Fake.respond, hflag] at hr
        cases hr
        exact ⟨.inr (.enter hflag rfl), fun _ => rfl⟩
      | some q =>
        simp only [ticks, Fake.backend, Fake.respond, hflag] at hr
        cases hr
        exact ⟨.inl rfl, nofun⟩
  cases entered with
  | false => exact .pure fun _ _ _ => trivial
  | true =>
    refine Protocol.Valid.ensuring (R := fun r c => Ticking pid c ∧
        ∀ e, r = .error e → ¬ e.IsInvalidStateTransition)
      ((processPayments_valid.pre fun c _ h => ⟨h rfl, trivial⟩).post (fun _ c _ h => ⟨h.1, nofun⟩)
        fun e c _ h => ⟨h.1, fun e' he => by cases he; exact h.2⟩) fun r => ?_
    refine (Ledger.Fact.act (Q := fun _ _ => ∀ e, r = .error e → ¬ e.IsInvalidStateTransition)
      (fun _ => .const) fun c k _ o _ h hr => ?_).post (fun _ _ _ h => ⟨fun _ _ => trivial, h⟩)
      fun _ _ _ h => h
    cases k <;> cases hr
    exact ⟨.inr (.leave h.1 rfl), h.2⟩

/-- A simulated payment, then a tick. -/
theorem doSimulatePayment_valid (invoice : Invoice) (input : SimulatePaymentInput) :
    (ticks C).protocol.Valid j pid (fun _ => True)
      (doSimulatePayment C.requiredConfirmations invoice input) (fun _ _ => True) Thrown := by
  unfold doSimulatePayment doSimulatePaymentWith
  split_ifs
  · exact .throw fun _ _ _ => id
  refine (registryGet_valid adapter _ throws_thrown).bind fun _ => .assume fun _ => ?_
  refine Protocol.Valid.bind (Q := fun _ _ => True) (Ledger.Fact.act (fun _ => .trivially) ?_)
    fun _ => ?_
  · exact fun c k r o _ _ hr => ⟨.inr (.same (respond_ticking hr nofun nofun)), trivial⟩
  refine tick_valid.bind fun _ => ?_
  refine (Ledger.Fact.trivially.lookup (.invoiceFindUnique invoice.id)
    (fun db => db.invoices.find? invoice.id) (fun _ _ => rfl)
    (fun r => quiet_of_op (fun _ => nofun) fun _ => nofun) throws_thrown.escapes).bind
    fun updated => ?_
  cases updated with
  | none => exact .throw fun _ _ _ => id
  | some updated => exact .pure fun _ _ _ => trivial

theorem simulatePayment_valid (organizationId invoiceId : String) (input : SimulatePaymentInput) :
    (ticks C).protocol.Valid j pid (fun _ => True)
      (simulatePayment C.requiredConfirmations organizationId invoiceId input) (fun _ _ => True)
      Thrown := by
  refine (Ledger.Fact.trivially.lookup (.invoiceFindFirst invoiceId organizationId)
    (fun db => db.invoices.rows.find? fun i =>
      i.id = invoiceId ∧ i.organizationId = organizationId) (fun _ _ => rfl)
    (fun r => quiet_of_op (fun _ => nofun) fun _ => nofun) throws_thrown.escapes).bind
    fun invoice => ?_
  cases invoice with
  | none => exact .throw fun _ _ _ => id
  | some invoice => exact doSimulatePayment_valid invoice input

theorem simulatePaymentForCheckout_valid (invoiceId : String) (input : SimulatePaymentInput) :
    (ticks C).protocol.Valid j pid (fun _ => True)
      (simulatePaymentForCheckout C.requiredConfirmations invoiceId input) (fun _ _ => True)
      Thrown := by
  refine (Ledger.Fact.trivially.lookup (.invoiceFindUnique invoiceId)
    (fun db => db.invoices.find? invoiceId) (fun _ _ => rfl)
    (fun r => quiet_of_op (fun _ => nofun) fun _ => nofun) throws_thrown.escapes).bind
    fun invoice => ?_
  cases invoice with
  | none => exact .throw fun _ _ _ => id
  | some invoice => exact doSimulatePayment_valid invoice input

/-- Every job keeps the ledger. -/
theorem ticks_sound (C : Config) : (ticks C).protocol.Sound := by
  refine (ticks_lawful C).sound fun j pid =>
    ⟨fun _ => True, .trivially, fun _ _ _ => trivial, ?_⟩
  cases j with
  | createInvoice organizationId apiKeyId input ctx =>
    refine (create_valid .trivially .fake organizationId apiKeyId input ctx ?_ throws_thrown).bind
      fun _ => .pure fun _ _ _ => trivial
    exact fun d c c' ev _ _ _ _ _ hst => ⟨.create hst, trivial⟩
  | setWalletAddress organizationId userId input ctx =>
    exact (set_valid .trivially adapter organizationId userId input ctx throws_thrown).bind
      fun _ => .pure fun _ _ _ => trivial
  | simulatePayment organizationId invoiceId input =>
    exact (simulatePayment_valid organizationId invoiceId input).bind
      fun _ => .pure fun _ _ _ => trivial
  | simulatePaymentForCheckout invoiceId input =>
    exact (simulatePaymentForCheckout_valid invoiceId input).bind
      fun _ => .pure fun _ _ _ => trivial
  | tick => exact tick_valid

end CryptoPay.Api
