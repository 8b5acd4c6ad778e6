import CryptoPay.Api.Outlines
import CryptoPay.Blockchain.Oracle
import CryptoPay.Worker.Jobs
import CryptoPay.Worker.Outlines

/-!
# The pipeline with one worker of each kind

The ledger of one scan worker and one confirm worker on one database, with
invoice creation, for an adapter that answers anything. `strict` says whether
expiry and detection are known to find their invoice `PENDING`: both write what
an earlier read decided, and nothing keeps the other from committing in between.

Results:
* `pipeline_sound`: the protocol holds for every interleaving (`strict` false)
  and for the runs in which no commit is stale (`strict` true).
* `Can.invoice`, `Can.payment`: which statuses a permitted commit may write.
-/

namespace CryptoPay.Worker

open Async

/-! ## The coupling -/

/-- Which invoice status goes with which payment status, when a stale sweep may
    have expired an invoice whose payment was just detected (`¬ strict`). -/
def Coupling (strict : Prop) : Option PaymentStatus → InvoiceStatus → Prop
  | none, s => s = .pending ∨ s = .expired
  | some .pending, _ => False
  | some .detected, s => s = .detected ∨ ¬ strict ∧ s = .expired
  | some .confirming, s => s = .confirming
  | some .reorgDetected, s => s = .confirming
  | some .confirmed, s => s = .paid
  | some .underpaid, s => s = .underpaid
  | some .overpaid, s => s = .overpaid
  | some .failed, s => s = .failed

/-- The invoice `i` is stored, up to its status, which is `s` or `s'`. -/
def Standing (i : Invoice) (s s' : InvoiceStatus) (db : Db) : Prop :=
  ∃ row ∈ db.invoices, row.terms = i.terms ∧ (row.status = s ∨ row.status = s')

/-- No payment refers to the invoice `i`. -/
def Unpaid (i : Invoice) (db : Db) : Prop := ∀ p ∈ db.payments, p.invoiceId ≠ i.id

variable {ω : Type}

/-- The event moved the payment `id` to `CONFIRMING`. -/
def MovedToConfirming (ev : Event (effects adapterCalls)) (id : String) : Prop :=
  ∃ (p : PaymentWithInvoice) (n : ℤ), p.id = id ∧ Records ev (.confirm p n)

/-- An earlier pass than `pid` moved the payment `id` to `CONFIRMING`. -/
def MovedEarlier (id : String) (pid : ℕ) (c : History adapterCalls ω) : Prop :=
  ∃ ev ∈ c.trace, ev.pid < pid ∧ MovedToConfirming ev id

/-! ## The ledger -/

/-- A commit writes `EXPIRED` or `DETECTED` only to invoices that are
    `PENDING`. -/
def FindsPending (c : History adapterCalls ω) (op : Op adapterCalls) : Prop :=
  ∀ ws id d, op = .prisma (.transaction ws) → .invoiceUpdate id d ∈ ws →
    (d.status = .expired ∨ d.status = .detected) →
      ∀ i ∈ c.state.db.invoices, i.id = id → i.status = .pending

/-- What each job knows about the stored rows when it commits. -/
inductive Can (strict : Prop) (requiredConfirmations : ℤ) :
    Job → ℕ → History adapterCalls ω → Commit → Prop where
  | create {organizationId apiKeyId input ctx pid c} {d : InvoiceCreateInput}
      (status : d.status = .pending) :
      Can strict requiredConfirmations (.createInvoice organizationId apiKeyId input ctx) pid c
        (.create d)
  | detect {pid c i t paymentId detectedAt} (standing : Standing i .pending .expired c.state.db)
      (unpaid : Unpaid i c.state.db) (token : i.token = t.token)
      (fresh : strict → Standing i .pending .pending c.state.db) :
      Can strict requiredConfirmations .scan pid c (.detect i t paymentId detectedAt)
  | expire {pid c i eventId} (standing : Standing i .pending .detected c.state.db)
      (fresh : strict → Standing i .pending .pending c.state.db) :
      Can strict requiredConfirmations .confirm pid c (.expire i eventId)
  | fail {pid c p} (stored : Stored p c.state.db)
      (status : p.status = .detected ∨ p.status = .reorgDetected)
      (invoice : canTransitionInvoice p.invoice.status .failed = true) :
      Can strict requiredConfirmations .confirm pid c (.fail p)
  | reorg {pid c p} (stored : Stored p c.state.db) (status : p.status = .confirming) :
      Can strict requiredConfirmations .confirm pid c (.reorg p)
  | confirm {pid c p n} (stored : Stored p c.state.db)
      (status : p.status = .detected ∨ p.status = .reorgDetected)
      (invoice : p.invoice.status = .confirming ∨
        canTransitionInvoice p.invoice.status .confirming = true) :
      Can strict requiredConfirmations .confirm pid c (.confirm p n)
  | refresh {pid c p n} (stored : Stored p c.state.db) (status : p.status = .confirming) :
      Can strict requiredConfirmations .confirm pid c (.refresh p n)
  | settle {pid c p n confirmedAt paidAt eventId txHash} (stored : Stored p c.state.db)
      (status : p.status = .confirming) (earlier : MovedEarlier p.id pid c)
      (txHash_eq : p.txHash = some txHash) (enough : requiredConfirmations ≤ n)
      (answered : Ledger.Answered pid (.getConfirmations txHash) (.ok n) c) :
      Can strict requiredConfirmations .confirm pid c (.settle p n confirmedAt paidAt eventId)

/-- What holds between any two requests. -/
structure Inv (strict : Prop) (c : History adapterCalls ω) : Prop where
  coupled : c.state.db.Coupled (Coupling strict)
  moved : ∀ p ∈ c.state.db.payments, p.status = .confirming →
    ∃ ev ∈ c.trace, MovedToConfirming ev p.id

/-- The ledger of one worker of each kind. -/
def pipeline (strict : Prop) (D : Setup) :
    Ledger adapterCalls Unit Answer Empty Job where
  backend := anyAnswer
  work := workload oneOfEach D.deployment
  start := Unused
  allowed c _ op := strict → FindsPending c op
  Inv := Inv strict
  Can := Can strict D.requiredConfirmations
  Side _ _ _ := False
  Exc _ e := strict → ¬ e.IsInvalidStateTransition

variable {strict : Prop} {requiredConfirmations : ℤ} {j : Job} {pid : ℕ} {m : Commit}
  {c c' : History adapterCalls ω} {now : Time} {db db' : Db}

/-! ## What a permitted commit may change -/

/-- A stored invoice stays, with a status that the commit leaves or writes. -/
theorem Standing.keep {i : Invoice} {s s' : InvoiceStatus} (h : Standing i s s' db)
    (he : m.Effect now db db')
    (hu : ∀ u, m.invoiceUpdate = some u → i.id = u.1 → u.2.status = s ∨ u.2.status = s') :
    Standing i s s' db' := by
  obtain ⟨row, hrow, hterms, hs⟩ := h
  refine ⟨m.onInvoice row, he.keeps_invoice hrow, (m.terms_onInvoice row).trans hterms, ?_⟩
  by_cases hid : ∃ u, m.invoiceUpdate = some u ∧ row.id = u.1
  · obtain ⟨u, hmu, hid⟩ := hid
    rw [Commit.onInvoice_of_eq hmu hid]
    exact hu u hmu ((terms_id hterms).symm.trans hid)
  · rw [Commit.onInvoice_of_ne fun u hmu h => hid ⟨u, hmu, h⟩]
    exact hs

theorem Standing.congr {i : Invoice} {s s' : InvoiceStatus} (h : Standing i s s' db)
    (hr : db.SameRows db') : Standing i s s' db' := by
  obtain ⟨row, hrow, h⟩ := h
  exact ⟨row, (hr.invoices row).2 hrow, h⟩

/-- A commit that creates no payment for `i` leaves it unpaid. -/
theorem Unpaid.keep {i : Invoice} (h : Unpaid i db) (he : m.Effect now db db')
    (hm : ∀ d, m.paymentCreate = some d → d.invoiceId ≠ i.id) : Unpaid i db' := by
  intro p' hp'
  rcases (he.payments p').1 hp' with ⟨p, hp, rfl⟩ | ⟨d, hd, rfl⟩
  · rw [terms_invoiceId (m.terms_onPayment now p)]
    exact h p hp
  · exact hm d hd

theorem Unpaid.congr {i : Invoice} (h : Unpaid i db) (hr : db.SameRows db') : Unpaid i db' :=
  fun p hp => h p ((hr.payments p).1 hp)

/-! ## The invariant -/

/-- A payment is `CONFIRMING` after a commit because it was, or because the
    commit moved it there. -/
theorem confirming_onPayment {p : Payment} (h : (m.onPayment now p).status = .confirming) :
    p.status = .confirming ∨ ∃ q n, m = .confirm q n ∧ p.id = q.id := by
  by_cases hu : ∃ u, m.paymentUpdate = some u ∧ p.id = u.1
  · obtain ⟨u, hu, hid⟩ := hu
    rw [Commit.onPayment_of_eq hu hid] at h
    cases m with
    | confirm q n => cases hu; exact .inr ⟨q, n, rfl, hid⟩
    | refresh q n => cases hu; exact .inl h
    | settle q n confirmedAt paidAt eventId =>
      cases hu
      cases hm : q.amountMatch <;> simp [Payment.update, hm, PaymentAmountMatch.outcome] at h
    | fail q => cases hu; cases h
    | reorg q => cases hu; cases h
    | create d => cases hu
    | expire i eventId => cases hu
    | detect i t paymentId detectedAt => cases hu
  · rw [Commit.onPayment_of_ne fun u hmu hid => hu ⟨u, hmu, hid⟩] at h
    exact .inl h

/-- A payment whose invoice is `PENDING` does not exist. -/
theorem Coupling.not_pending {s : PaymentStatus} : ¬ Coupling strict (some s) .pending := by
  cases s <;> simp [Coupling]

/-- The payment of a `DETECTED` invoice is `DETECTED`. -/
theorem Coupling.detected {s : PaymentStatus} (h : Coupling strict (some s) .detected) :
    s = .detected := by
  cases s <;> simp [Coupling] at h ⊢

/-- Every permitted commit keeps the coupling. -/
theorem Can.coupled (hcan : Can strict requiredConfirmations j pid c m)
    (h : c.state.db.Coupled (Coupling strict)) (he : m.Effect now c.state.db db') :
    db'.Coupled (Coupling strict) := by
  cases hcan with
  | create status => exact h.create he (by rw [status]; exact .inl rfl)
  | detect standing unpaid token fresh =>
    obtain ⟨row, hrow, hterms, -⟩ := standing
    exact h.detect he hrow hterms token unpaid (.inl rfl)
  | expire standing fresh =>
    obtain ⟨row, hrow, hterms, hs⟩ := standing
    refine h.expire he (fun _ => .inr rfl) fun p hp hpi => ?_
    have hR := h.paid p hp row hrow (hpi.trans (terms_id hterms).symm)
    rcases hs with hs | hs <;> rw [hs] at hR
    · exact absurd hR Coupling.not_pending
    · rw [Coupling.detected hR]
      refine .inr ⟨fun hstrict => ?_, rfl⟩
      -- a fresh commit would have found the invoice `PENDING`
      obtain ⟨row', hrow', hterms', hs'⟩ := fresh hstrict
      have hsame := Data.Table.eq_of_key hrow' hrow (terms_id (hterms'.trans hterms.symm))
      rw [hsame, hs] at hs'
      simp at hs'
  | fail stored status invoice =>
    refine stored.advance h he rfl rfl rfl (by rintro u ⟨⟩; rfl) (fun r => ?_) fun _ => ?_
    · cases r <;> exact nofun
    · rw [Commit.onInvoice_of_eq rfl stored.id.symm]
      rfl
  | reorg stored status =>
    refine stored.advance h he rfl rfl rfl nofun (fun r => ?_) fun hR => ?_
    · cases r <;> exact nofun
    · rw [status] at hR
      exact hR
  | confirm stored status invoice =>
    refine stored.advance h he rfl rfl rfl (by rintro u ⟨⟩; rfl) (fun r => ?_) fun _ => ?_
    · cases r <;> exact nofun
    · rw [Commit.onInvoice_of_eq rfl stored.id.symm]
      rfl
  | refresh stored status =>
    refine stored.advance h he rfl rfl rfl nofun (h.settled _ stored.payment).outcome fun hR => hR
  | @settle pid c p n confirmedAt paidAt eventId txHash stored status earlier =>
    refine stored.advance h he rfl rfl rfl (by rintro u ⟨⟩; rfl) (fun r hr => ?_) fun _ => ?_
    · revert hr
      cases p.amountMatch <;> cases r <;> first | exact fun _ => rfl | exact nofun
    · rw [Commit.onInvoice_of_eq rfl stored.id.symm]
      show Coupling strict (some p.amountMatch.outcome.1) p.amountMatch.outcome.2.1
      cases p.amountMatch <;> rfl

theorem pipeline_lawful (D : Setup) : (pipeline strict D).Lawful where
  initial w hw := ⟨.empty _ hw.1 hw.2.1, fun p hp => absurd hp (hw.2.1 p)⟩
  quiet c c' ev hI hp _ := by
    refine ⟨hI.coupled.congr hp.rows, fun p hpay hs => ?_⟩
    obtain ⟨ev', hev', h⟩ := hI.moved p ((hp.rows.payments p).1 hpay) hs
    exact ⟨ev', hp.trace ▸ List.mem_cons_of_mem ev hev', h⟩
  env c c' hI ht hr _ := by
    refine ⟨hI.coupled.congr hr, fun p hpay hs => ?_⟩
    rw [ht]
    exact hI.moved p ((hr.payments p).1 hpay) hs
  commit c c' ev m j hI hc hcan := by
    refine ⟨hcan.coupled hI.coupled hc.effect, fun p' hp' hs => ?_⟩
    rw [hc.trace]
    rcases (hc.effect.payments p').1 hp' with ⟨p, hp, rfl⟩ | ⟨d, hd, rfl⟩
    · rcases confirming_onPayment hs with hs | ⟨q, n, rfl, hid⟩
      · obtain ⟨ev', hev', q, n, hq, hrec⟩ := hI.moved p hp hs
        exact ⟨ev', List.mem_cons_of_mem ev hev', q, n,
          hq.trans (terms_paymentId (m.terms_onPayment _ p)).symm, hrec⟩
      · exact ⟨ev, List.mem_cons_self, q, n,
          hid.symm.trans (terms_paymentId (Commit.terms_onPayment _ _ p)).symm, hc.records⟩
    · cases m <;> cases hd
      cases hs

/-! ## What the passes know -/

variable {D : Setup}

/-- A scan knows that its candidate is unpaid, and written by no one but the
    sweep. -/
theorem candidate_fact (i : Invoice) : (pipeline strict D).Fact .scan pid fun c =>
    Standing i .pending .expired c.state.db ∧ Unpaid i c.state.db := by
  refine Ledger.Fact.rows (R := fun db => Standing i .pending .expired db ∧ Unpaid i db)
    (fun _ _ hr h => ⟨h.1.congr hr, h.2.congr hr⟩) ?_
  rintro c c' ev m j' - ⟨hstand, hunpaid⟩ hc - hcompat hcan
  have hkeep : (∀ d, m.paymentCreate = some d → d.invoiceId ≠ i.id) →
      (∀ u, m.invoiceUpdate = some u → i.id = u.1 →
        u.2.status = .pending ∨ u.2.status = .expired) →
      Standing i .pending .expired c'.state.db ∧ Unpaid i c'.state.db :=
    fun hp hu => ⟨hstand.keep hc.effect hu, hunpaid.keep hc.effect hp⟩
  have hunrecorded : ∀ d, (none : Option PaymentCreateInput) = some d → d.invoiceId ≠ i.id := nofun
  have hspared : ∀ u, (none : Option (String × InvoiceUpdateInput)) = some u → i.id = u.1 →
      u.2.status = .pending ∨ u.2.status = .expired := nofun
  cases hcan with
  | create => exact hkeep hunrecorded hspared
  | detect => cases hcompat
  | expire => exact hkeep hunrecorded (by rintro u ⟨⟩ _; exact .inr rfl)
  | fail stored => exact hkeep hunrecorded (by rintro u ⟨⟩ h; exact absurd h.symm (hunpaid _ stored.payment))
  | reorg => exact hkeep hunrecorded hspared
  | confirm stored =>
    exact hkeep hunrecorded (by rintro u ⟨⟩ h; exact absurd h.symm (hunpaid _ stored.payment))
  | refresh => exact hkeep hunrecorded hspared
  | settle stored =>
    exact hkeep hunrecorded (by rintro u ⟨⟩ h; exact absurd h.symm (hunpaid _ stored.payment))

/-- A sweep knows that an overdue invoice was written by no one but the scan. -/
theorem due_fact (i : Invoice) : (pipeline strict D).Fact .confirm pid fun c =>
    Standing i .pending .detected c.state.db := by
  refine Ledger.Fact.rows (fun _ _ hr h => h.congr hr) ?_
  intro c c' ev m j' _ hstand hc _ hcompat hcan
  cases hcan with
  | create => exact hstand.keep hc.effect nofun
  | detect => exact hstand.keep hc.effect (by rintro u ⟨⟩ _; exact .inr rfl)
  | _ => cases hcompat

/-- What a confirm pass knows of a payment in its snapshot. -/
def Snapshot (pid : ℕ) (p : PaymentWithInvoice) (c : History adapterCalls ω) : Prop :=
  Stored p c.state.db ∧ (p.status = .confirming → MovedEarlier p.id pid c)

theorem MovedEarlier.lasting {id : String} :
    Protocol.Lasting (MovedEarlier (ω := ω) id pid) := fun _ _ h ⟨ev, hev, hm⟩ =>
  ⟨ev, h.mem hev, hm⟩

/-- No one else writes a payment, or the invoice of a payment. -/
theorem snapshot_fact (p : PaymentWithInvoice) :
    (pipeline strict D).Fact .confirm pid (Snapshot pid p) := by
  refine Ledger.Fact.and (Ledger.Fact.rows (fun _ _ hr h => h.congr hr) ?_)
    (Ledger.Fact.lasting MovedEarlier.lasting).imp
  intro c c' ev m j' _ hs hc _ hcompat hcan
  cases hcan with
  | create => exact hs.keep hc.effect nofun nofun
  | detect standing unpaid =>
    refine hs.keep hc.effect nofun ?_
    rintro u ⟨⟩ h
    exact unpaid _ hs.payment (hs.id.trans h)
  | _ => cases hcompat

/-- Until a confirm pass moves a payment itself, only earlier passes have. -/
def OnlyEarlier (pid : ℕ) (c : History adapterCalls Unit) : Prop :=
  ∀ ev ∈ c.trace, ∀ id, MovedToConfirming ev id → ev.pid < pid

theorem onlyEarlier_fact : (pipeline strict D).Fact .confirm pid (OnlyEarlier pid) where
  quiet c c' ev _ h hp _ _ := by
    intro ev' hev' id hm
    rw [hp.trace] at hev'
    rcases List.mem_cons.mp hev' with rfl | hev'
    · obtain ⟨p, n, -, hrec⟩ := hm
      exact absurd hrec (hp.quiet.not_records _)
    · exact h ev' hev' id hm
  env c c' _ h ht _ _ := by
    unfold OnlyEarlier
    rw [ht]
    exact h
  commit c c' ev m j' _ h hc _ hcompat hcan := by
    intro ev' hev' id hm
    rw [hc.trace] at hev'
    rcases List.mem_cons.mp hev' with rfl | hev'
    · obtain ⟨p, n, -, hrec⟩ := hm
      obtain ⟨q, k, rfl⟩ := hc.records.eq_confirm hrec
      cases hcan
      cases hcompat
    · exact h ev' hev' id hm

/-! ## The passes -/

/-- Where the pipeline promises anything about errors, it is that no assertion
    of a state machine fails. -/
def NoInvalid (strict : Prop) (e : Error) (_ : History adapterCalls Unit) : Prop :=
  strict → ¬ e.IsInvalidStateTransition

theorem noInvalid_of {P : History adapterCalls Unit → Prop} :
    ∀ e c, (pipeline strict D).Inv c → P c → ¬ e.IsInvalidStateTransition → NoInvalid strict e c :=
  fun _ _ _ _ h _ => h

theorem noInvalid_escapes {P : History adapterCalls Unit → Prop} :
    (pipeline strict D).Escapes P (NoInvalid strict) := fun _ _ _ _ _ => id

/-- An adapter call of the pipeline. -/
theorem oracle_valid {P : History adapterCalls Unit → Prop} (hP : (pipeline strict D).Fact j pid P)
    (call : AdapterCall) {α : Type} (read : adapterCalls.Ret call → Except AdapterError α) :
    (pipeline strict D).protocol.Valid j pid P (callAdapter call read)
      (fun a c => P c ∧ ∃ r, read r = .ok a ∧ Ledger.Answered pid call r c) (NoInvalid strict) :=
  hP.callAdapter rfl call read noInvalid_of

/-- A commit that is not stale finds its invoice `PENDING`. -/
theorem Standing.fresh {i : Invoice} {s : InvoiceStatus} {d : InvoiceUpdateInput}
    (h : Standing i .pending s c.state.db)
    (ha : FindsPending c (.prisma (.transaction m.writes)))
    (hu : m.invoiceUpdate = some (i.id, d)) (hd : d.status = .expired ∨ d.status = .detected) :
    Standing i .pending .pending c.state.db := by
  obtain ⟨row, hrow, hterms, -⟩ := h
  have hmem : Write.invoiceUpdate i.id d ∈ m.writes := by simp [Commit.writes, hu]
  exact ⟨row, hrow, hterms, .inl (ha _ _ _ rfl hmem hd row hrow (terms_id hterms))⟩

/-- A `PENDING` invoice has no payment. -/
theorem Inv.unpaid (h : Inv strict c) {i : Invoice} (hi : i ∈ c.state.db.invoices)
    (hs : i.status = .pending) : Unpaid i c.state.db := fun p hp hpi =>
  @Coupling.not_pending strict _ (hs ▸ h.coupled.paid p hp i hi hpi)

theorem scan_valid : (pipeline strict D).protocol.Valid .scan pid (fun _ => True)
    (runBlockchainScan (oracle D.validateAddress) D.network) (fun _ _ => True)
    (NoInvalid strict) := by
  have hP : (pipeline strict D).Fact .scan pid fun _ => True := .trivially
  suffices h : ScanOutline (pipeline strict D) .scan pid (fun _ => True) (NoInvalid strict)
      (oracle D.validateAddress) (fun _ _ => True) from h.valid D.network
  refine ⟨hP, fun _ _ _ _ _ => trivial, noInvalid_escapes,
    (oracle_valid hP _ _).post (fun _ _ _ _ => trivial) fun _ _ _ h => h,
    fun _ _ => (oracle_valid hP _ _).post (fun _ _ _ _ => ⟨trivial, fun _ _ => trivial⟩)
      fun _ _ _ h => h, fun t => ?_⟩
  refine (hP.mark _ fun _ _ => trivial).bind fun _ => ?_
  refine Protocol.Valid.bind (Ledger.matchTransfer_valid t hP candidate_fact ?_ ?_
    noInvalid_escapes) fun _ => hP.mark _ fun _ _ => trivial
  · intro c i hI _ hi hw
    obtain ⟨hs, -⟩ := candidateWhere_holds.mp hw
    exact ⟨⟨i, hi, rfl, .inl hs⟩, hI.unpaid hi hs⟩
  · intro i paymentId detectedAt c c' ev hc _ hseen hmatch
    exact ⟨.detect hseen.1 hseen.2 (matchesInvoice_iff.mp hmatch).2.1
      fun hstrict => hseen.1.fresh (hc.allowed hstrict) rfl (.inr rfl), trivial⟩

theorem sweep_valid : (pipeline strict D).protocol.Valid .confirm pid (OnlyEarlier pid)
    expireOverdueInvoices (fun _ => OnlyEarlier pid) (NoInvalid strict) := by
  refine Ledger.expireOverdue_valid onlyEarlier_fact due_fact ?_ ?_ noInvalid_escapes
  · intro now c i _ _ hi hw
    exact ⟨i, hi, rfl, .inl (overdueWhere_holds.mp hw).1⟩
  · intro i eventId c c' ev hc honly hdue
    refine ⟨.expire hdue fun hstrict => hdue.fresh (hc.allowed hstrict) rfl (.inl rfl), ?_, ?_⟩
    · intro ev' hev' id hm
      rw [hc.committed.trace] at hev'
      rcases List.mem_cons.mp hev' with rfl | hev'
      · obtain ⟨p, n, -, hrec⟩ := hm
        obtain ⟨q, k, hq⟩ := hc.committed.records.eq_confirm hrec
        cases hq
      · exact honly ev' hev' id hm
    · intro i' hne hdue'
      exact hdue'.keep hc.committed.effect (by rintro u ⟨⟩ h; exact absurd h hne)

/-- A commit on one payment leaves the snapshot of another as it is. -/
theorem Snapshot.keep {p q : PaymentWithInvoice} {ev : Event (effects adapterCalls)}
    (hI : Inv strict c) (hc : Committed ev m c c') (hs : Stored p c.state.db)
    (hq : Snapshot pid q c) (hne : q.id ≠ p.id)
    (hpu : ∀ u, m.paymentUpdate = some u → u.1 = p.id)
    (hiu : ∀ u, m.invoiceUpdate = some u → u.1 = p.invoiceId) : Snapshot pid q c' := by
  refine ⟨hq.1.keep hc.effect (fun u hu => by rw [hpu u hu]; exact hne) fun u hu h => ?_,
    fun h => MovedEarlier.lasting c c' (by rw [hc.trace]; exact List.suffix_cons _ _) (hq.2 h)⟩
  rw [hiu u hu] at h
  refine hne ?_
  rw [hI.coupled.single _ hq.1.payment _ hs.payment (hq.1.id.trans h)]

theorem confirm_valid : (pipeline strict D).protocol.Valid .confirm pid (OnlyEarlier pid)
    (runPaymentConfirm (oracle D.validateAddress) D.requiredConfirmations) (fun _ _ => True)
    (NoInvalid strict) := by
  suffices h : ConfirmOutline (pipeline strict D) .confirm pid (OnlyEarlier pid) (fun _ => True)
      (NoInvalid strict) (oracle D.validateAddress) D.requiredConfirmations (Snapshot pid)
      (fun h n c => Ledger.Answered pid (.getConfirmations h) (.ok n) c) from h.valid
  refine {
      fact := .trivially
      factSeen := snapshot_fact
      factReported := fun h n => .lasting Ledger.Answered.lasting
      escapes := noInvalid_escapes
      factSweep := onlyEarlier_fact
      begins := fun _ _ => trivial
      sweep := sweep_valid
      snapshot := ?_
      confirmations := ?_
      fail := ?_
      reorg := ?_
      confirm := ?_
      refresh := ?_
      settle := ?_
      throws := ?_ }
  · intro c p hI honly hp _ hi hid
    refine ⟨⟨hp, hi, hid.symm⟩, fun hs => ?_⟩
    obtain ⟨ev, hev, hm⟩ := hI.moved _ hp hs
    exact ⟨ev, hev, honly ev hev _ hm, hm⟩
  · intro F txHash hF _
    refine Protocol.Valid.attempt ((hF.callAdapter rfl (.getConfirmations txHash) id
      fun e c _ hF' he => ?_).post (fun n c _ h => ⟨h.1, fun n' hn => ?_, nofun⟩) fun _ _ _ h => h)
    · exact ⟨hF', nofun, fun e' he' _ _ => by rw [← Except.error.inj he']; exact he⟩
    · obtain ⟨r, hr, ha⟩ := h.2
      rw [← Except.ok.inj hn]
      exact (show r = .ok n from hr) ▸ ha
  · intro p hst hinv c c' ev hc _ hseen _
    exact ⟨.fail hseen.1 hst hinv, trivial, fun q hne hq => hq.keep hc.inv hc.committed hseen.1 hne
      (by rintro u ⟨⟩; rfl) (by rintro u ⟨⟩; rfl)⟩
  · intro p hst c c' ev hc _ hseen _
    exact ⟨.reorg hseen.1 hst, trivial, fun q hne hq => hq.keep hc.inv hc.committed hseen.1 hne
      (by rintro u ⟨⟩; rfl) nofun⟩
  · intro p n hst hinv c c' ev hc _ hseen _
    exact ⟨.confirm hseen.1 hst hinv, trivial, fun q hne hq => hq.keep hc.inv hc.committed hseen.1
      hne (by rintro u ⟨⟩; rfl) (by rintro u ⟨⟩; rfl)⟩
  · intro p n hst c c' ev hc _ hseen _
    exact ⟨.refresh hseen.1 hst, trivial, fun q hne hq => hq.keep hc.inv hc.committed hseen.1 hne
      (by rintro u ⟨⟩; rfl) nofun⟩
  · intro p n confirmedAt paidAt eventId txHash hst htx hn _ c c' ev hc _ hseen hrep
    exact ⟨.settle hseen.1 hst (hseen.2 hst) htx hn hrep, trivial, fun q hne hq =>
      hq.keep hc.inv hc.committed hseen.1 hne (by rintro u ⟨⟩; rfl) (by rintro u ⟨⟩; rfl)⟩
  · intro p c e hI _ hseen _ hbad hstrict
    have hR := hI.coupled.paid _ hseen.1.payment _ hseen.1.invoice hseen.1.id
    rcases hbad with ⟨hbad, hst⟩ | ⟨hne, hbad, hst⟩ <;> rcases hst with hst | hst <;>
      rw [hst] at hR
    · rcases hR with hR | ⟨hnot, -⟩
      · rw [hR] at hbad; cases hbad
      · exact absurd hstrict hnot
    · rw [show p.invoice.status = .confirming from hR] at hbad
      cases hbad
    · rcases hR with hR | ⟨hnot, -⟩
      · rw [hR] at hbad; cases hbad
      · exact absurd hstrict hnot
    · exact absurd hR hne

/-- The pipeline keeps its invariant, its guarantees and its promise about
    errors under every interleaving. -/
theorem pipeline_sound (strict : Prop) (D : Setup) : (pipeline strict D).protocol.Sound := by
  refine (pipeline_lawful D).sound fun j pid => ?_
  cases j with
  | scan => exact ⟨_, .trivially, fun _ _ _ => trivial, scan_valid⟩
  | confirm =>
    exact ⟨_, onlyEarlier_fact, fun c _ hpast ev hev _ _ => hpast ev hev, confirm_valid⟩
  | createInvoice organizationId apiKeyId input ctx =>
    refine ⟨_, .trivially, fun _ _ _ => trivial, ?_⟩
    refine (Api.create_valid .trivially .evm organizationId apiKeyId input ctx
      (fun d c c' ev _ _ _ _ _ hs => ⟨Can.create hs, trivial⟩) ?_).bind fun _ => .pure fun _ _ h => h
    exact noInvalid_of
  | setWalletAddress organizationId userId input ctx =>
    refine ⟨_, .trivially, fun _ _ _ => trivial, ?_⟩
    exact (Api.set_valid .trivially _ organizationId userId input ctx noInvalid_of).bind
      fun _ => .pure fun _ _ h => h

end CryptoPay.Worker
