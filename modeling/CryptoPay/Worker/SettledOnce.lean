import CryptoPay.Api.Outlines
import CryptoPay.Blockchain.Oracle
import CryptoPay.Worker.Jobs
import CryptoPay.Worker.Outlines

/-!
# What a settlement writes

A confirm pass works from the snapshot that it takes at its start and updates the
rows by id, whatever they have become.

Results:
* `findsOpen_idempotent`: in a run in which every write of a payment status finds
  that payment open, and every settlement finds an invoice that is not settled yet,
  an invoice gets one settlement event, `confirmedAt` and `paidAt` are written once,
  and final statuses stay.
-/

namespace CryptoPay.Worker

open Async

/-! ## What is written once -/

/-- The event types of `finalizePayment` (payment-confirm.queue.ts, lines 180–181). -/
def settlementTypes : List String := ["payment.paid", "payment.underpaid", "payment.overpaid"]

/-- The write sets `confirmedAt` of the payment `id`. -/
def setsConfirmedAt (id : String) : Write → Bool
  | .paymentUpdate p d => p = id && d.confirmedAt.isSome
  | _ => false

/-- The write sets `paidAt` of the invoice `id`. -/
def setsPaidAt (id : String) : Write → Bool
  | .invoiceUpdate i d => i = id && d.paidAt.isSome
  | _ => false

/-- All writes of a run that succeeded. -/
def allWritten {A : Signature} (tr : List (Event (effects A))) : List Write := tr.flatMap written

/-- A transaction that writes a status to a payment finds it open, or fails what has
    failed; and one that settles a payment finds no settled payment of its invoice. -/
def FindsOpen (c : History adapterCalls Unit) (op : Op adapterCalls) : Prop :=
  ∀ ws id d status, op = .prisma (.transaction ws) → .paymentUpdate id d ∈ ws →
    d.status = some status → ∀ p ∈ c.state.db.payments, p.id = id →
      (p.status.isFinal = true → p.status = .failed ∧ status = .failed) ∧
        (status.Settled → ∀ q ∈ c.state.db.payments, q.invoiceId = p.invoiceId →
          ¬ q.status.Settled)

/-- In runs that meet `allowed`, payments are finalised once. -/
structure Idempotent (n : Replicas) (D : Setup)
    (allowed : Condition (effects adapterCalls) (World Unit)) : Prop where
  events : ∀ s, EvmReachable n D allowed s → ∀ e ∈ s.config.state.db.webhookEvents,
    ∀ e' ∈ s.config.state.db.webhookEvents, e.type ∈ settlementTypes → e'.type ∈ settlementTypes →
      e.invoiceId = e'.invoiceId → e = e'
  confirmedAt : ∀ s, EvmReachable n D allowed s → ∀ id,
    (allWritten s.config.trace).countP (setsConfirmedAt id) ≤ 1
  paidAt : ∀ s, EvmReachable n D allowed s → ∀ id,
    (allWritten s.config.trace).countP (setsPaidAt id) ≤ 1
  final : ∀ s, EvmReachable n D allowed s → ∀ m s', s.Meets allowed m →
    evmStep n D s m = some s' → ∀ p ∈ s.config.state.db.payments,
      ∀ p' ∈ s'.config.state.db.payments, p'.id = p.id → p.status.isFinal = true →
        p'.status = p.status

variable {n : Replicas} {D : Setup} {j : Job} {pid : ℕ} {m : Commit}
  {c c' : History adapterCalls Unit} {now : Time} {db db' : Db}

/-! ## The ledger -/

/-- The stored payment with this id is open. -/
def OpenPayment (id : String) (db : Db) : Prop :=
  ∀ p ∈ db.payments, p.id = id → p.status.isFinal = false

/-- No payment of the invoice is settled. -/
def Unsettled (invoiceId : String) (db : Db) : Prop :=
  ∀ q ∈ db.payments, q.invoiceId = invoiceId → ¬ q.status.Settled

/-- What a commit finds. -/
def CanFinalise (c : History adapterCalls Unit) : Commit → Prop
  | .fail p => ∀ row ∈ c.state.db.payments, row.id = p.id → row.status.isFinal = true →
      row.status = .failed
  | .reorg p => OpenPayment p.id c.state.db
  | .confirm p _ => OpenPayment p.id c.state.db
  | .settle p _ _ _ _ => Read p c.state.db ∧ OpenPayment p.id c.state.db ∧
      Unsettled p.invoiceId c.state.db
  | _ => True

/-- Something was written `x` times, and only if a payment that `K` describes is settled. -/
structure OnceSettled (K : Payment → Prop) (x : ℕ) (db : Db) : Prop where
  le : x ≤ 1
  settled : 0 < x → ∃ p ∈ db.payments, K p ∧ p.status.Settled

/-- What holds between any two requests. -/
structure InvSettled (c : History adapterCalls Unit) : Prop where
  single : ∀ p ∈ c.state.db.payments, ∀ q ∈ c.state.db.payments, p.invoiceId = q.invoiceId →
    p.status.Settled → q.status.Settled → p = q
  events : ∀ e ∈ c.state.db.webhookEvents, ∀ e' ∈ c.state.db.webhookEvents,
    e.type ∈ settlementTypes → e'.type ∈ settlementTypes → e.invoiceId = e'.invoiceId → e = e'
  event : ∀ e ∈ c.state.db.webhookEvents, e.type ∈ settlementTypes →
    ∃ p ∈ c.state.db.payments, p.invoiceId = e.invoiceId ∧ p.status.Settled
  confirmedAt : ∀ id, OnceSettled (fun p => p.id = id)
    ((allWritten c.trace).countP (setsConfirmedAt id)) c.state.db
  paidAt : ∀ id, OnceSettled (fun p => p.invoiceId = id)
    ((allWritten c.trace).countP (setsPaidAt id)) c.state.db

/-- Any number of passes of either kind, in runs that meet the condition. -/
def finalisations (n : Replicas) (D : Setup) : Ledger adapterCalls Unit Answer Empty Job where
  backend := anyAnswer
  work := workload n D.deployment
  start := Unused
  allowed c _ op := FindsOpen c op
  Inv := InvSettled
  Can _ _ := CanFinalise
  Side _ _ _ := False
  Exc _ _ := True

theorem settled_outcome (r : PaymentAmountMatch) : r.outcome.1.Settled := by
  cases r
  · exact .inl rfl
  · exact .inr (.inl rfl)
  · exact .inr (.inr rfl)

/-! ## What a commit changes -/

/-- A permitted commit leaves a final payment as it is. -/
theorem CanFinalise.final (hcan : CanFinalise c m) {p : Payment} (hp : p ∈ c.state.db.payments)
    (hfinal : p.status.isFinal = true) : (m.onPayment now p).status = p.status := by
  have hopen : ∀ id, OpenPayment id c.state.db → p.id ≠ id := by
    intro id h hid
    rw [h p hp hid] at hfinal
    cases hfinal
  by_cases hu : ∃ u, m.paymentUpdate = some u ∧ p.id = u.1
  · obtain ⟨u, hu, hid⟩ := hu
    rw [Commit.onPayment_of_eq hu hid]
    cases m with
    | create d => cases hu
    | expire i eventId => cases hu
    | detect i t paymentId detectedAt => cases hu
    | fail q =>
      cases hu
      exact (hcan p hp hid hfinal).symm
    | reorg q => cases hu; exact absurd hid (hopen _ hcan)
    | confirm q k => cases hu; exact absurd hid (hopen _ hcan)
    | refresh q k => cases hu; rfl
    | settle q k confirmedAt paidAt eventId => cases hu; exact absurd hid (hopen _ hcan.2.1)
  · rw [Commit.onPayment_of_ne fun u hmu hid => hu ⟨u, hmu, hid⟩]

/-- A payment is settled after a commit because it was, or because the commit settled it. -/
theorem settled_onPayment {p : Payment} (h : (m.onPayment now p).status.Settled) :
    p.status.Settled ∨ ∃ q k confirmedAt paidAt eventId,
      m = .settle q k confirmedAt paidAt eventId ∧ p.id = q.id := by
  by_cases hu : ∃ u, m.paymentUpdate = some u ∧ p.id = u.1
  · obtain ⟨u, hu, hid⟩ := hu
    rw [Commit.onPayment_of_eq hu hid] at h
    cases m with
    | create d => cases hu
    | expire i eventId => cases hu
    | detect i t paymentId detectedAt => cases hu
    | fail q => cases hu; rcases h with h | h | h <;> cases h
    | reorg q => cases hu; rcases h with h | h | h <;> cases h
    | confirm q k => cases hu; rcases h with h | h | h <;> cases h
    | refresh q k => cases hu; exact .inl h
    | settle q k confirmedAt paidAt eventId => cases hu; exact .inr ⟨q, k, _, _, _, rfl, hid⟩
  · rw [Commit.onPayment_of_ne fun u hmu hid => hu ⟨u, hmu, hid⟩] at h
    exact .inl h

/-- `confirmedAt` is written by settlements only. -/
theorem countP_setsConfirmedAt (m : Commit) (id : String) :
    m.writes.countP (setsConfirmedAt id) = 0 ∨ ∃ q k confirmedAt paidAt eventId,
      m = .settle q k confirmedAt paidAt eventId ∧ q.id = id ∧
        m.writes.countP (setsConfirmedAt id) = 1 := by
  cases m with
  | settle q k confirmedAt paidAt eventId =>
    by_cases hq : q.id = id
    · refine .inr ⟨q, k, _, _, _, rfl, hq, ?_⟩
      simp [Commit.writes, Commit.invoiceCreate, Commit.paymentUpdate, Commit.paymentCreate,
        Commit.invoiceUpdate, Commit.webhookEventCreate, setsConfirmedAt, hq]
    · left
      simp [Commit.writes, Commit.invoiceCreate, Commit.paymentUpdate, Commit.paymentCreate,
        Commit.invoiceUpdate, Commit.webhookEventCreate, setsConfirmedAt, hq]
  | _ =>
    left
    simp [Commit.writes, Commit.invoiceCreate, Commit.paymentUpdate, Commit.paymentCreate,
      Commit.invoiceUpdate, Commit.webhookEventCreate, setsConfirmedAt]

/-- `paidAt` is written by settlements only. -/
theorem countP_setsPaidAt (m : Commit) (id : String) :
    m.writes.countP (setsPaidAt id) = 0 ∨ ∃ q k confirmedAt paidAt eventId,
      m = .settle q k confirmedAt paidAt eventId ∧ q.invoiceId = id ∧
        m.writes.countP (setsPaidAt id) = 1 := by
  cases m with
  | settle q k confirmedAt paidAt eventId =>
    by_cases hq : q.invoiceId = id ∧ paidAt.isSome = true
    · refine .inr ⟨q, k, _, _, _, rfl, hq.1, ?_⟩
      simp [Commit.writes, Commit.invoiceCreate, Commit.paymentUpdate, Commit.paymentCreate,
        Commit.invoiceUpdate, Commit.webhookEventCreate, setsPaidAt, hq]
    · left
      simp only [Commit.writes, Commit.invoiceCreate, Commit.paymentUpdate, Commit.paymentCreate,
        Commit.invoiceUpdate, Commit.webhookEventCreate, setsPaidAt, Option.toList, List.map,
        List.nil_append, List.cons_append, List.countP_cons, List.countP_nil]
      simpa using hq
  | _ =>
    left
    simp [Commit.writes, Commit.invoiceCreate, Commit.paymentUpdate, Commit.paymentCreate,
      Commit.invoiceUpdate, Commit.webhookEventCreate, setsPaidAt]

/-- An event of a settlement is created by a settlement only. -/
theorem settlementType_commit {d : WebhookEventCreateInput} (hd : m.webhookEventCreate = some d)
    (ht : d.type ∈ settlementTypes) : ∃ q k confirmedAt paidAt eventId,
      m = .settle q k confirmedAt paidAt eventId ∧ d.invoiceId = q.invoice.id := by
  cases m with
  | expire i eventId =>
    cases hd
    exact absurd ht (show "invoice.expired" ∉ settlementTypes by decide)
  | settle q k confirmedAt paidAt eventId =>
    cases hd
    exact ⟨q, k, _, _, _, rfl, rfl⟩
  | _ => cases hd

variable {K : Payment → Prop} {x y : ℕ}

/-- A settled payment stays settled. -/
theorem CanFinalise.keeps_settled (hcan : CanFinalise c m) (he : m.Effect now c.state.db db')
    (hK : ∀ p : Payment, K (m.onPayment now p) ↔ K p)
    (h : ∃ p ∈ c.state.db.payments, K p ∧ p.status.Settled) :
    ∃ p ∈ db'.payments, K p ∧ p.status.Settled := by
  obtain ⟨p, hp, hk, hs⟩ := h
  refine ⟨_, he.keeps_payment hp, (hK p).2 hk, ?_⟩
  rw [hcan.final hp hs.isFinal]
  exact hs

/-- The payment of a permitted settlement, before and after. -/
theorem CanFinalise.settles {q : PaymentWithInvoice} {k : ℤ} {confirmedAt : Time}
    {paidAt : Option Time} {eventId : String}
    (hcan : CanFinalise c (.settle q k confirmedAt paidAt eventId))
    (he : (Commit.settle q k confirmedAt paidAt eventId).Effect now c.state.db db') :
    ∃ row ∈ c.state.db.payments, row.id = q.id ∧ row.invoiceId = q.invoiceId ∧
      ((Commit.settle q k confirmedAt paidAt eventId).onPayment now row).status.Settled ∧
      (Commit.settle q k confirmedAt paidAt eventId).onPayment now row ∈ db'.payments := by
  obtain ⟨⟨⟨row, hrow, hterms⟩, -, -⟩, -, -⟩ := hcan
  refine ⟨row, hrow, terms_paymentId hterms, terms_invoiceId hterms, ?_, he.keeps_payment hrow⟩
  rw [Commit.onPayment_of_eq rfl (terms_paymentId hterms)]
  exact settled_outcome q.amountMatch

/-- What a commit writes again was not written before. -/
theorem OnceSettled.commit (h : OnceSettled K x c.state.db) (hcan : CanFinalise c m)
    (he : m.Effect now c.state.db db') (hK : ∀ p : Payment, K (m.onPayment now p) ↔ K p)
    (hy : y = 0 ∨ ∃ q k confirmedAt paidAt eventId, m = .settle q k confirmedAt paidAt eventId ∧
      (∀ p ∈ c.state.db.payments, K p → p.invoiceId = q.invoiceId) ∧
      (∀ p ∈ c.state.db.payments, p.id = q.id → p.invoiceId = q.invoiceId → K p) ∧ y = 1) :
    OnceSettled K (y + x) db' := by
  rcases hy with rfl | ⟨q, k, confirmedAt, paidAt, eventId, rfl, hinv, hrowK, rfl⟩
  · rw [Nat.zero_add]
    exact ⟨h.le, fun hx => hcan.keeps_settled he hK (h.settled hx)⟩
  · obtain ⟨row, hrow, hid, hiid, hset, hmem⟩ := hcan.settles he
    have hx : x = 0 := by
      by_contra hx
      obtain ⟨p, hp, hk, hs⟩ := h.settled (Nat.pos_of_ne_zero hx)
      exact hcan.2.2 p hp (hinv p hp hk) hs
    rw [hx]
    exact ⟨le_refl 1, fun _ => ⟨_, hmem, (hK row).2 (hrowK row hrow hid hiid), hset⟩⟩

theorem OnceSettled.congr (h : OnceSettled K x db) (hs : db.SameRows db') : OnceSettled K x db' :=
  ⟨h.le, fun hx => by
    obtain ⟨p, hp, hk⟩ := h.settled hx
    exact ⟨p, (hs.payments p).2 hp, hk⟩⟩

theorem InvSettled.congr (h : InvSettled c) (hs : c.state.db.SameRows c'.state.db)
    (hw : allWritten c'.trace = allWritten c.trace ∨
      ∃ ws, allWritten c'.trace = ws ++ allWritten c.trace ∧ ∀ w ∈ ws, w.Aside) :
    InvSettled c' := by
  have hcount : ∀ f : Write → Bool, (∀ w, w.Aside → f w = false) →
      (allWritten c'.trace).countP f = (allWritten c.trace).countP f := by
    intro f hf
    rcases hw with hw | ⟨ws, hw, haside⟩
    · rw [hw]
    · have hzero : ws.countP f = 0 := List.countP_eq_zero.mpr fun w hmem => by
        rw [hf w (haside w hmem)]
        exact Bool.false_ne_true
      rw [hw, List.countP_append, hzero, Nat.zero_add]
  refine ⟨fun p hp q hq => h.single p ((hs.payments p).1 hp) q ((hs.payments q).1 hq),
    fun e he e' he' => h.events e ((hs.webhookEvents e).1 he) e' ((hs.webhookEvents e').1 he'),
    fun e he ht => ?_, fun id => ?_, fun id => ?_⟩
  · obtain ⟨p, hp, hp'⟩ := h.event e ((hs.webhookEvents e).1 he) ht
    exact ⟨p, (hs.payments p).2 hp, hp'⟩
  · rw [hcount _ fun w hw => by cases w <;> first | rfl | cases hw]
    exact (h.confirmedAt id).congr hs
  · rw [hcount _ fun w hw => by cases w <;> first | rfl | cases hw]
    exact (h.paidAt id).congr hs

/-- Every permitted commit keeps the invariant. -/
theorem InvSettled.commit {ev : Event (effects adapterCalls)} (h : InvSettled c)
    (hc : Committed ev m c c') (hcan : CanFinalise c m) : InvSettled c' := by
  have he := hc.effect
  have hid : ∀ p : Payment, (m.onPayment c.state.clock p).id = p.id := fun p =>
    terms_paymentId (m.terms_onPayment _ p)
  have hiid : ∀ p : Payment, (m.onPayment c.state.clock p).invoiceId = p.invoiceId := fun p =>
    terms_invoiceId (m.terms_onPayment _ p)
  have hwritten : ∀ f, (allWritten c'.trace).countP f =
      m.writes.countP f + (allWritten c.trace).countP f := by
    intro f
    rw [allWritten, hc.trace, List.flatMap_cons, List.countP_append, hc.records.written_eq]
    rfl
  -- a payment that is settled now was settled before, or is the one of this commit
  have hsettled : ∀ p' ∈ c'.state.db.payments, p'.status.Settled →
      ∃ p ∈ c.state.db.payments, p' = m.onPayment c.state.clock p ∧ (p.status.Settled ∨
        ∃ q k confirmedAt paidAt eventId, m = .settle q k confirmedAt paidAt eventId ∧
          p.id = q.id) := by
    intro p' hp' hs
    rcases (he.payments p').1 hp' with ⟨p, hp, rfl⟩ | ⟨d, hd, rfl⟩
    · exact ⟨p, hp, rfl, settled_onPayment hs⟩
    · cases m <;> cases hd
      rcases hs with hs | hs | hs <;> cases hs
  refine ⟨fun p' hp' q' hq' hpq hsp hsq => ?_, fun e he₁ e' he₂ ht ht' hee => ?_,
    fun e he₁ ht => ?_, fun id => ?_, fun id => ?_⟩
  · obtain ⟨p, hp, rfl, hcp⟩ := hsettled p' hp' hsp
    obtain ⟨q, hq, rfl, hcq⟩ := hsettled q' hq' hsq
    rw [hiid, hiid] at hpq
    have hno : ∀ p₀ ∈ c.state.db.payments, ∀ q₀ ∈ c.state.db.payments,
        p₀.invoiceId = q₀.invoiceId → p₀.status.Settled →
        ¬ ∃ r k confirmedAt paidAt eventId, m = .settle r k confirmedAt paidAt eventId ∧
          q₀.id = r.id := by
      rintro p₀ hp₀ q₀ hq₀ hinv hs₀ ⟨r, k, confirmedAt, paidAt, eventId, rfl, hqr⟩
      obtain ⟨row, hrow, hrid, hriid, -⟩ := hcan.settles he
      rw [Data.Table.eq_of_key hq₀ hrow (hqr.trans hrid.symm)] at hinv
      exact hcan.2.2 p₀ hp₀ (hinv.trans hriid) hs₀
    rcases hcp with hsp | hsp <;> rcases hcq with hsq | hsq
    · rw [h.single p hp q hq hpq hsp hsq]
    · exact absurd hsq (hno p hp q hq hpq hsp)
    · exact absurd hsp (hno q hq p hp hpq.symm hsq)
    · obtain ⟨r, k, confirmedAt, paidAt, eventId, rfl, hpr⟩ := hsp
      obtain ⟨r', _, _, _, _, hm, hqr⟩ := hsq
      cases hm
      rw [Data.Table.eq_of_key hp hq (hpr.trans hqr.symm)]
  · -- an event of this commit has no older companion: the invoice was not settled
    have hnew : ∀ d, m.webhookEventCreate = some d → d.type ∈ settlementTypes →
        ∀ e ∈ c.state.db.webhookEvents, e.type ∈ settlementTypes → e.invoiceId ≠ d.invoiceId := by
      intro d hd htd e hmem hte heq
      obtain ⟨q, k, confirmedAt, paidAt, eventId, rfl, hdi⟩ := settlementType_commit hd htd
      obtain ⟨p, hp, hpi, hs⟩ := h.event e hmem hte
      exact hcan.2.2 p hp (by rw [hpi, heq, hdi, hcan.1.id]) hs
    rcases (he.webhookEvents e).1 he₁ with hold | ⟨d, hd, rfl⟩ <;>
      rcases (he.webhookEvents e').1 he₂ with hold' | ⟨d', hd', rfl⟩
    · exact h.events e hold e' hold' ht ht' hee
    · exact absurd hee (hnew d' hd' ht' e hold ht)
    · exact absurd hee.symm (hnew d hd ht e' hold' ht')
    · rw [hd] at hd'
      cases hd'
      rfl
  · rcases (he.webhookEvents e).1 he₁ with hold | ⟨d, hd, rfl⟩
    · exact hcan.keeps_settled he (K := fun p => p.invoiceId = e.invoiceId)
        (fun p => by rw [hiid]) (h.event e hold ht)
    · obtain ⟨q, k, confirmedAt, paidAt, eventId, rfl, hdi⟩ := settlementType_commit hd ht
      obtain ⟨row, -, -, hriid, hset, hmem⟩ := hcan.settles he
      refine ⟨_, hmem, ?_, hset⟩
      rw [hiid, hriid]
      exact hcan.1.id.trans hdi.symm
  · rw [hwritten]
    refine (h.confirmedAt id).commit hcan he (fun p => by rw [hid]) ?_
    rcases countP_setsConfirmedAt m id with h0 | ⟨q, k, confirmedAt, paidAt, eventId, rfl, hq, h1⟩
    · exact .inl h0
    · refine .inr ⟨q, k, confirmedAt, paidAt, eventId, rfl, fun p hp hpid => ?_, ?_, h1⟩
      · obtain ⟨row, hrow, hrid, hriid, -⟩ := hcan.settles he
        rw [Data.Table.eq_of_key hp hrow (hpid.trans (hq.symm.trans hrid.symm)), hriid]
      · exact fun p _ hpid _ => hpid.trans hq
  · rw [hwritten]
    refine (h.paidAt id).commit hcan he (fun p => by rw [hiid]) ?_
    rcases countP_setsPaidAt m id with h0 | ⟨q, k, confirmedAt, paidAt, eventId, rfl, hq, h1⟩
    · exact .inl h0
    · exact .inr ⟨q, k, confirmedAt, paidAt, eventId, rfl, fun p _ hpid => hpid.trans hq.symm,
        fun p _ _ hpid => hpid.trans hq, h1⟩

theorem finalisations_lawful (n : Replicas) (D : Setup) : (finalisations n D).Lawful where
  initial w hw := by
    refine ⟨fun p hp => absurd hp (hw.2.1 p), fun e he => absurd he (hw.2.2 e),
      fun e he => absurd he (hw.2.2 e), fun id => ⟨Nat.zero_le 1, fun h => ?_⟩,
      fun id => ⟨Nat.zero_le 1, fun h => ?_⟩⟩ <;> exact absurd h (Nat.lt_irrefl 0)
  quiet c c' ev hI hp _ := by
    refine InvSettled.congr hI hp.rows (.inr ⟨written ev, ?_, hp.quiet⟩)
    rw [allWritten, hp.trace, List.flatMap_cons]
    rfl
  env c c' hI ht hr _ := InvSettled.congr hI hr (.inl (by rw [ht]))
  commit c c' ev m j hI hc hcan := InvSettled.commit hI hc hcan

/-! ## The passes -/

/-- What the condition says about the payment that a commit updates. -/
theorem FindsOpen.update {id : String} {d : PaymentUpdateInput} {status : PaymentStatus}
    (h : FindsOpen c (.prisma (.transaction m.writes))) (hu : m.paymentUpdate = some (id, d))
    (hd : d.status = some status) : ∀ p ∈ c.state.db.payments, p.id = id →
      (p.status.isFinal = true → p.status = .failed ∧ status = .failed) ∧
        (status.Settled → Unsettled p.invoiceId c.state.db) := by
  have hmem : Write.paymentUpdate id d ∈ m.writes := by simp [Commit.writes, hu]
  exact h m.writes id d status rfl hmem hd

theorem FindsOpen.openPayment {id : String} {d : PaymentUpdateInput} {status : PaymentStatus}
    (h : FindsOpen c (.prisma (.transaction m.writes))) (hu : m.paymentUpdate = some (id, d))
    (hd : d.status = some status) (hne : status ≠ .failed) : OpenPayment id c.state.db := by
  intro p hp hid
  by_contra hfinal
  exact hne ((h.update hu hd p hp hid).1 (by simpa using hfinal)).2

theorem finalisations_scan_valid : (finalisations n D).protocol.Valid .scan pid (fun _ => True)
    (runBlockchainScan (oracle D.validateAddress) D.network) (fun _ _ => True)
    (fun _ _ => True) := by
  have hcall : ∀ (call : AdapterCall) {α : Type}
      (read : adapterCalls.Ret call → Except AdapterError α),
      (finalisations n D).protocol.Valid .scan pid (fun _ => True) (callAdapter call read)
        (fun _ _ => True) (fun _ _ => True) := fun call _ read =>
    (Ledger.Fact.trivially.callAdapter rfl call read fun _ _ _ _ _ => trivial).post
      (fun _ _ _ _ => trivial) fun _ _ _ h => h
  exact runBlockchainScan_rule (fun _ _ => True) (fun _ _ _ _ _ => trivial)
    (fun _ => trivial) D.network (hcall _ _)
    (fun _ _ => (hcall _ _).post (fun _ _ _ _ _ _ => trivial) fun _ _ _ h => h)
    fun _ _ _ _ _ _ _ _ _ _ _ => trivial

theorem finalisations_confirm_valid : (finalisations n D).protocol.Valid .confirm pid
    (fun _ => True) (runPaymentConfirm (oracle D.validateAddress) D.requiredConfirmations)
    (fun _ _ => True) (fun _ _ => True) := by
  refine runPaymentConfirm_rule (fun _ _ _ => True) (fun _ _ _ _ _ _ => trivial)
    (fun _ => trivial) (fun F txHash hF => ?_) fun m c c' ev hc hknows => ?_
  · exact (hF.callAdapter rfl (.getConfirmations txHash) id fun _ _ _ h _ => h).post
      (fun _ _ _ h => ⟨h.1, trivial⟩) fun _ _ _ h => h
  have ha : FindsOpen c (.prisma (.transaction m.writes)) := hc.allowed
  cases hknows with
  | expire => exact trivial
  | fail => exact fun row hrow hid hfinal => ((ha.update rfl rfl row hrow hid).1 hfinal).1
  | reorg => exact ha.openPayment rfl rfl nofun
  | confirm => exact ha.openPayment rfl rfl nofun
  | refresh => exact trivial
  | @settle p k confirmedAt paidAt eventId txHash read =>
    have hne : p.amountMatch.outcome.1 ≠ .failed := by cases p.amountMatch <;> exact nofun
    obtain ⟨row, hrow, hterms⟩ := read.payment
    have hun := (ha.update rfl rfl row hrow (terms_paymentId hterms)).2
      (settled_outcome p.amountMatch)
    rw [terms_invoiceId hterms] at hun
    exact ⟨read, ha.openPayment rfl rfl hne, hun⟩

theorem finalisations_sound (n : Replicas) (D : Setup) : (finalisations n D).protocol.Sound := by
  refine (finalisations_lawful n D).sound fun j pid =>
    ⟨fun _ => True, .trivially, fun _ _ _ => trivial, ?_⟩
  have hthrows : Api.Throws (finalisations n D) (fun _ => True)
      fun e _ => (finalisations n D).Exc j e := fun _ _ _ _ _ => trivial
  cases j with
  | scan => exact finalisations_scan_valid
  | confirm => exact finalisations_confirm_valid
  | createInvoice organizationId apiKeyId input ctx =>
    exact (Api.create_valid .trivially .evm organizationId apiKeyId input ctx
      (fun _ _ _ _ _ _ _ _ _ _ => ⟨trivial, trivial⟩) hthrows).bind fun _ => .pure fun _ _ h => h
  | setWalletAddress organizationId userId input ctx =>
    exact (Api.set_valid .trivially _ organizationId userId input ctx hthrows).bind
      fun _ => .pure fun _ _ h => h

/-! ## Idempotence -/

/-- If every write of a payment status finds it open, payments are finalised once, however
    many passes overlap. -/
theorem findsOpen_idempotent (n : Replicas) (D : Setup) :
    Idempotent n D fun c _ op => FindsOpen c op := by
  have hK := finalisations_sound n D
  refine ⟨fun s hs => (hK.inv hs).events, fun s hs id => ((hK.inv hs).confirmedAt id).le,
    fun s hs id => ((hK.inv hs).paidAt id).le, fun s hs m s' hm hstep p hp p' hp' hid hfinal => ?_⟩
  rcases Ledger.step_commit hK hs hm hstep with hrows | ⟨_, _, _, _, cm, _, _, _, hc, hcan⟩
  · rw [Data.Table.eq_of_key ((hrows.payments p').1 hp') hp hid]
  · rw [hc.effect.payment_eq hp hp' hid]
    exact CanFinalise.final hcan hp hfinal

end CryptoPay.Worker
