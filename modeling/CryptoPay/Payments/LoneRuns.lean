import CryptoPay.Async.Sequential
import CryptoPay.Payments.Outline

/-!
# Matching a transfer without interference

What one completed call of `tryMatchTransfer` does to the tables when no other
process takes a step in between: nothing if no pending invoice awaits the
transfer or if its transaction is recorded; else it records a payment for one of
the invoices that await it.

Results:
* `lone_matchTransfer`: these are the three outcomes.
* `Matched.payments`, `Matched.keeps`, `Matched.pending`: the rows afterwards.
-/

namespace CryptoPay

open Async Data

/-- A `PENDING` invoice with the network, the token and the address of the transfer. -/
structure Awaits (i : Invoice) (t : TokenTransfer) : Prop where
  pending : i.status = .pending
  network : i.network = t.network
  token : i.token = t.token
  address : i.paymentAddress = t.toAddress

/-- The tables after the payment `paymentId` for the transfer has been recorded, as one for
    the invoice. -/
structure Credits (i : Invoice) (t : TokenTransfer) (paymentId : String) (detectedAt now : Time)
    (db db' : Db) : Prop where
  awaits : Awaits i t
  stored : i ∈ db.invoices
  /-- It asks for the amount, or no invoice that awaits the transfer does and it is the
      oldest of these. -/
  choice : i.amount = t.amount ∨
    ∀ j ∈ db.invoices, Awaits j t → j.amount ≠ t.amount ∧ i.createdAt ≤ j.createdAt
  unrecorded : ∀ p ∈ db.payments, ¬ PaysFor p t
  payments : ∀ p, p ∈ db'.payments ↔
    p ∈ db.payments ∨ p = (detectedPayment paymentId detectedAt i t).row now
  invoices : ∀ j', j' ∈ db'.invoices ↔ ∃ j ∈ db.invoices,
    j' = if j.id = i.id then j.update { status := .detected } else j

/-- What `tryMatchTransfer` does to the tables. -/
inductive Matched (t : TokenTransfer) (db db' : Db) : Prop where
  | unclaimed (h : ∀ i ∈ db.invoices, ¬ Awaits i t) (rows : db.SameRows db')
  | seen (h : ∃ p ∈ db.payments, PaysFor p t) (rows : db.SameRows db')
  | credited {i : Invoice} {paymentId : String} {detectedAt now : Time}
      (h : Credits i t paymentId detectedAt now db db')

variable {A : Signature} {ω ι η α : Type} {B : Backend A ω ι η} {pid : ℕ} {w w' : World ω}
  {evs : List (Event (effects A))} {t : TokenTransfer} {db db' : Db}

/-! ## Single requests -/

/-- The environment keeps the rows. -/
theorem drifts_rows (h : Drifts (machine B) w w') : w.db.SameRows w'.db := by
  induction h with
  | refl => exact .refl _
  | tail _ hstep ih =>
    obtain ⟨act, -, hact⟩ := hstep
    exact ih.trans (Ledger.environment_rows hact).1

/-- A Prisma call that returned was executed. -/
theorem lone_prisma {call : PrismaCall} {a : call.Ret}
    (h : Runs (machine B) pid (prisma call) w evs (.ok a) w') :
    ∃ now db, w.db.SameRows db ∧ (call.exec now db).1 = .ok a ∧
      (call.exec now db).2.SameRows w'.db := by
  obtain ⟨w₁, i, r, w₂, hd, hr, -, hx, hd'⟩ := h.request_inv
  rcases respond_prisma hr with ⟨rfl, rfl⟩ | ⟨rfl, rfl⟩
  · exact ⟨_, _, drifts_rows hd, hx.symm, drifts_rows hd'⟩
  · cases hx

/-- A query that computes its result from the tables. -/
theorem lone_read (call : PrismaCall) {a : call.Ret} (f : Db → call.Ret)
    (hf : ∀ now db, call.exec now db = (.ok (f db), db))
    (h : Runs (machine B) pid (prisma call) w evs (.ok a) w') :
    ∃ db, w.db.SameRows db ∧ a = f db ∧ w.db.SameRows w'.db := by
  obtain ⟨now, db, hrows, ha, hrows'⟩ := lone_prisma h
  rw [hf] at ha hrows'
  exact ⟨db, hrows, (Except.ok.inj ha).symm, hrows.trans hrows'⟩

theorem lone_dateNow {x : Except Error Time}
    (h : Runs (machine B) pid dateNow w evs x w') : w.db.SameRows w'.db := by
  obtain ⟨w₁, i, r, w₂, hd, hr, -, -, hd'⟩ := h.perform_inv
  obtain ⟨-, rfl⟩ := respond_now hr
  exact (drifts_rows hd).trans (drifts_rows hd')

theorem lone_generateId {stem : String} {x : Except Error String}
    (h : Runs (machine B) pid (generateId stem) w evs x w') : w.db.SameRows w'.db := by
  obtain ⟨w₁, i, r, w₂, hd, hr, -, -, hd'⟩ := h.perform_inv
  obtain rfl := respond_generateId hr
  exact (drifts_rows hd).trans (drifts_rows hd')

theorem lone_mark {m : Mark} {x : Except Error Unit}
    (h : Runs (machine B) pid (mark m) w evs x w') : w.db.SameRows w'.db := by
  obtain ⟨w₁, i, r, w₂, hd, hr, -, -, hd'⟩ := h.perform_inv
  obtain rfl := respond_mark hr
  exact (drifts_rows hd).trans (drifts_rows hd')

/-- A transaction that returned has committed. -/
theorem lone_commit {m : Commit}
    (h : Runs (machine B) pid (transaction m.writes) w evs (.ok ()) w') :
    ∃ now db db', w.db.SameRows db ∧ m.Effect now db db' ∧ db'.SameRows w'.db := by
  obtain ⟨now, db, hrows, ha, hrows'⟩ := lone_prisma h
  simp only [PrismaCall.exec] at ha hrows'
  split at ha
  · rename_i db' hdb
    rw [hdb] at hrows'
    exact ⟨now, db, db', hrows, Commit.effect hdb, hrows'⟩
  · cases ha

theorem Credits.of_effect {i : Invoice} {paymentId : String} {detectedAt now : Time} {db₁ db₂ : Db}
    (hi : i ∈ db.invoices) (ha : Awaits i t)
    (hchoice : i.amount = t.amount ∨
      ∀ j ∈ db.invoices, Awaits j t → j.amount ≠ t.amount ∧ i.createdAt ≤ j.createdAt)
    (hrows : db.SameRows db₁) (he : (Commit.detect i t paymentId detectedAt).Effect now db₁ db₂)
    (hrows' : db₂.SameRows db') : Credits i t paymentId detectedAt now db db' where
  awaits := ha
  stored := hi
  choice := hchoice
  unrecorded p hp hpays :=
    he.freshTxHash _ rfl p ((hrows.payments p).2 hp) (hpays.network.trans ha.network.symm) hpays.txHash
  payments p := by
    rw [hrows'.payments, he.payments]
    simp [Commit.paymentCreate, Commit.onPayment, Commit.paymentUpdate, Payment.updateWhere,
      hrows.payments]
  invoices j := by
    rw [hrows'.invoices, he.invoices]
    simp [Commit.invoiceCreate, Commit.onInvoice, Commit.invoiceUpdate, Invoice.updateWhere,
      hrows.invoices]

/-! ## The rows after a call -/

theorem Credits.congr {i : Invoice} {paymentId : String} {detectedAt now : Time} {db₁ db₂ : Db}
    (h : Credits i t paymentId detectedAt now db₁ db₂) (hs : db.SameRows db₁)
    (hs' : db₂.SameRows db') : Credits i t paymentId detectedAt now db db' where
  awaits := h.awaits
  stored := (hs.invoices i).1 h.stored
  choice := h.choice.imp_right fun hall j hj => hall j ((hs.invoices j).2 hj)
  unrecorded p hp := h.unrecorded p ((hs.payments p).2 hp)
  payments p := by rw [hs'.payments, h.payments, hs.payments]
  invoices j := by
    rw [hs'.invoices, h.invoices]
    simp [hs.invoices]

theorem Matched.congr {db₁ db₂ : Db} (h : Matched t db₁ db₂) (hs : db.SameRows db₁)
    (hs' : db₂.SameRows db') : Matched t db db' := by
  cases h with
  | unclaimed h rows =>
    exact .unclaimed (fun i hi => h i ((hs.invoices i).2 hi)) ((hs.trans rows).trans hs')
  | seen h rows =>
    obtain ⟨p, hp, hpt⟩ := h
    exact .seen ⟨p, (hs.payments p).1 hp, hpt⟩ ((hs.trans rows).trans hs')
  | credited h => exact .credited (h.congr hs hs')

/-- No payment is lost, and a new one is for the transfer. -/
theorem Matched.payments (h : Matched t db db') {p : Payment} :
    (p ∈ db.payments → p ∈ db'.payments) ∧
      (p ∈ db'.payments → p ∈ db.payments ∨ PaysFor p t) := by
  cases h with
  | unclaimed _ rows => exact ⟨(rows.payments p).2, fun hp => .inl ((rows.payments p).1 hp)⟩
  | seen _ rows => exact ⟨(rows.payments p).2, fun hp => .inl ((rows.payments p).1 hp)⟩
  | credited h =>
    refine ⟨fun hp => (h.payments p).2 (.inl hp), fun hp => ?_⟩
    rcases (h.payments p).1 hp with hp | rfl
    · exact .inl hp
    · exact .inr ⟨h.awaits.network, rfl⟩

/-- A transfer whose transaction is recorded is not recorded again, and no invoice changes. -/
theorem Matched.sameRows (h : Matched t db db') (hseen : ∃ p ∈ db.payments, PaysFor p t) :
    db.SameRows db' := by
  cases h with
  | unclaimed _ rows => exact rows
  | seen _ rows => exact rows
  | credited h =>
    obtain ⟨p, hp, hpays⟩ := hseen
    exact absurd hpays (h.unrecorded p hp)

/-- A transfer that some invoice awaits is recorded afterwards. -/
theorem Matched.recorded (h : Matched t db db') (hawaits : ∃ i ∈ db.invoices, Awaits i t) :
    ∃ p ∈ db'.payments, PaysFor p t := by
  cases h with
  | unclaimed hno _ =>
    obtain ⟨i, hi, ha⟩ := hawaits
    exact absurd ha (hno i hi)
  | seen hseen rows =>
    obtain ⟨p, hp, hpays⟩ := hseen
    exact ⟨p, (rows.payments p).2 hp, hpays⟩
  | credited hc => exact ⟨_, (hc.payments _).2 (.inr rfl), hc.awaits.network, rfl⟩

/-- An invoice stays as it is, unless the transfer is credited to it. -/
theorem Matched.keeps (h : Matched t db db') {i : Invoice} (hi : i ∈ db.invoices) :
    i ∈ db'.invoices ∨ ∃ paymentId detectedAt now, Credits i t paymentId detectedAt now db db' := by
  cases h with
  | unclaimed _ rows => exact .inl ((rows.invoices i).2 hi)
  | seen _ rows => exact .inl ((rows.invoices i).2 hi)
  | @credited j paymentId detectedAt now h =>
    by_cases hij : i.id = j.id
    · rw [Table.eq_of_key hi h.stored hij]
      exact .inr ⟨paymentId, detectedAt, now, h⟩
    · exact .inl ((h.invoices i).2 ⟨i, hi, (if_neg hij).symm⟩)

/-- No invoice becomes `PENDING`. -/
theorem Matched.pending (h : Matched t db db') {i : Invoice} (hi : i ∈ db'.invoices)
    (hs : i.status = .pending) : i ∈ db.invoices := by
  cases h with
  | unclaimed _ rows => exact (rows.invoices i).1 hi
  | seen _ rows => exact (rows.invoices i).1 hi
  | credited h =>
    obtain ⟨j, hj, rfl⟩ := (h.invoices i).1 hi
    split_ifs at hs ⊢
    · cases hs
    · exact hj

/-! ## One transfer -/

theorem awaits_matches {i : Invoice} (h : Awaits i t) :
    matchesInvoice toLowerAscii (candidate i).toInvoicePaymentTarget t.detected = true :=
  matchesInvoice_iff.mpr ⟨h.network, h.token, congrArg toLowerAscii h.address⟩

/-- The outcomes of a call that returns. -/
theorem lone_matchTransfer (h : Runs (machine B) pid (matchTransfer t) w evs (.ok ()) w') :
    Matched t w.db w'.db := by
  obtain ⟨candidates, w₁, _, _, -, hread, h⟩ := h.bind_ok
  obtain ⟨db, hrows, rfl, hrows₁⟩ := lone_read
    (.invoiceFindMany (candidateWhere t))
    (fun db => db.invoices.filter (candidateWhere t).holds) (fun _ _ => rfl) hread
  have hmem : ∀ i, i ∈ db.invoices.filter (candidateWhere t).holds ↔
      i ∈ w.db.invoices ∧ Awaits i t := by
    intro i
    rw [Table.mem_filter, hrows.invoices, candidateWhere_holds]
    exact and_congr_right fun _ =>
      ⟨fun h => ⟨h.1, h.2.2.1, h.2.2.2, h.2.1⟩, fun h => ⟨h.pending, h.address, h.network, h.token⟩⟩
  cases hsel : selectMatchingInvoice toLowerAscii (db.invoices.filter (candidateWhere t).holds) t.detected
      t.amount with
  | none =>
    rw [hsel] at h
    obtain ⟨-, -, hd⟩ := h.ret_inv
    refine .unclaimed (fun i hi ha => ?_) (hrows₁.trans (drifts_rows hd))
    have hno := selectMatchingInvoice_eq_none hsel i ((hmem i).2 ⟨hi, ha⟩)
    rw [awaits_matches ha] at hno
    cases hno
  | some i =>
    rw [hsel] at h
    obtain ⟨hi, ha⟩ := (hmem i).1 (selectMatchingInvoice_mem hsel).1
    obtain ⟨alreadySeen, w₂, _, _, -, hseen, h⟩ := h.bind_ok
    obtain ⟨db₂, hrows₂, rfl, hrows₂'⟩ := lone_read
      (.paymentFindByTxHash i.network t.txHash) (fun db =>
        db.payments.rows.find? fun p => p.network = i.network ∧ p.txHash = some t.txHash)
      (fun _ _ => rfl) hseen
    split_ifs at h with hsome
    · obtain ⟨-, -, hd⟩ := h.ret_inv
      obtain ⟨p, hp⟩ := Option.isSome_iff_exists.mp hsome
      have hfor := List.find?_some hp
      simp only [decide_eq_true_eq] at hfor
      have hmem₂ : p ∈ db₂.payments := List.mem_of_find?_eq_some hp
      refine .seen ⟨p, ?_, hfor.1.trans ha.network, hfor.2⟩
        ((hrows₁.trans hrows₂').trans (drifts_rows hd))
      exact (hrows₁.payments p).1 ((hrows₂.payments p).1 hmem₂)
    · -- the two assertions are about constants and pass
      have hrest : Runs (machine B) pid (generateId "pay" >>= fun paymentId =>
          dateNow >>= fun detectedAt => transaction (Commit.detect i t paymentId detectedAt).writes)
          w₂ _ (.ok ()) w' := h
      obtain ⟨paymentId, w₃, _, _, -, hid, hrest⟩ := hrest.bind_ok
      obtain ⟨detectedAt, w₄, _, _, -, hnow, hrest⟩ := hrest.bind_ok
      obtain ⟨now, db₄, db₅, hrows₄, he, hrows₅⟩ := lone_commit hrest
      have hrows' : w.db.SameRows db₄ :=
        (((hrows₁.trans hrows₂').trans (lone_generateId hid)).trans (lone_dateNow hnow)).trans hrows₄
      refine .credited (Credits.of_effect hi ha ?_ hrows' he hrows₅)
      refine (selectMatchingInvoice_choice hsel).imp id fun hchoice j hj hj' => ?_
      exact hchoice j ((hmem j).2 ⟨hj, hj'⟩) (awaits_matches hj')

end CryptoPay
