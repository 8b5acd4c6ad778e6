import CryptoPay.Payments.Outline

/-!
# Outlines of the shared steps

The control flow of the functions in `CryptoPay.Payments.Steps`, checked once
for every ledger. A specification names what the rows that a function reads are
known to be from then on (`Due` for an overdue invoice, `Seen` for a candidate)
and asks why each commit is safe; the rest of the function is quiet.
-/

namespace CryptoPay

open Async

namespace Ledger

variable {A : Signature} {ω ι η κ : Type} {L : Ledger A ω ι η κ} {j : κ} {pid : ℕ}
  {P Q : History A ω → Prop} {E : Error → History A ω → Prop}

/-- The process commits `m` in a state where `L` allows it. -/
structure Commits (L : Ledger A ω ι η κ) (pid : ℕ) (ev : Event (effects A)) (m : Commit)
    (c c' : History A ω) : Prop where
  inv : L.Inv c
  pid_eq : ev.pid = pid
  allowed : L.allowed c pid (.prisma (.transaction m.writes))
  committed : Committed ev m c c'

/-- `Fact.transaction`, with the hypotheses about the step in one. -/
theorem Fact.commits (hP : L.Fact j pid P) (hQ : L.Fact j pid Q) (m : Commit)
    (h : ∀ c c' ev, L.Commits pid ev m c c' → P c → L.Can j pid c m ∧ Q c')
    (hE : L.Escapes P E) :
    L.protocol.Valid j pid P (CryptoPay.transaction m.writes) (fun _ => Q) E :=
  hP.transaction hQ m (fun c c' ev hI hp hpid ha hc => h c c' ev ⟨hI, hpid, ha, hc⟩ hp) hE

theorem Escapes.pre {P' : History A ω → Prop} (hE : L.Escapes P E) (h : ∀ c, P' c → P c) :
    L.Escapes P' E := fun code c hI hp => hE code c hI (h c hp)

/-- An assertion passes, or throws `InvalidStateTransitionError`. -/
theorem assertInvoice_valid (s t : InvoiceStatus)
    (hE : canTransitionInvoice s t = false →
      ∀ c e, L.Inv c → P c → e.IsInvalidStateTransition → E e c) :
    L.protocol.Valid j pid P (assertInvoice s t)
      (fun _ c => P c ∧ canTransitionInvoice s t = true) E := by
  refine Protocol.Valid.ofExcept (fun u hu c _ hp => ⟨hp, assertInvoiceTransition_ok.mp hu⟩) ?_
  intro e he c hI hp
  obtain ⟨hc, message, rfl⟩ := assertInvoiceTransition_error he
  exact hE hc c _ hI hp trivial

theorem assertPayment_valid (s t : PaymentStatus)
    (hE : canTransitionPayment s t = false →
      ∀ c e, L.Inv c → P c → e.IsInvalidStateTransition → E e c) :
    L.protocol.Valid j pid P (assertPayment s t)
      (fun _ c => P c ∧ canTransitionPayment s t = true) E := by
  refine Protocol.Valid.ofExcept (fun u hu c _ hp => ⟨hp, assertPaymentTransition_ok.mp hu⟩) ?_
  intro e he c hI hp
  obtain ⟨hc, message, rfl⟩ := assertPaymentTransition_error he
  exact hE hc c _ hI hp trivial

/-! ## Expiry -/

theorem expireInvoice_valid (i : Invoice) (hP : L.Fact j pid P) (hQ : L.Fact j pid Q)
    (h : ∀ eventId c c' ev, L.Commits pid ev (.expire i eventId) c c' → P c →
      L.Can j pid c (.expire i eventId) ∧ Q c')
    (hE : L.Escapes P E) :
    L.protocol.Valid j pid P (expireInvoice i) (fun _ => Q) E :=
  (hP.generateId "evt").bind fun eventId => hP.commits hQ (.expire i eventId) (h eventId) hE

/-- The sweep: `Due` is known of an overdue invoice until it is expired. -/
theorem expireOverdue_valid {Due : Invoice → History A ω → Prop} (hP : L.Fact j pid P)
    (hDue : ∀ i, L.Fact j pid (Due i))
    (hread : ∀ now c i, L.Inv c → P c → i ∈ c.state.db.invoices →
      (overdueWhere now).holds i = true → Due i c)
    (hexpire : ∀ i eventId c c' ev, L.Commits pid ev (.expire i eventId) c c' → P c → Due i c →
      L.Can j pid c (.expire i eventId) ∧ P c' ∧ ∀ i', i'.id ≠ i.id → Due i' c → Due i' c')
    (hE : L.Escapes P E) :
    L.protocol.Valid j pid P expireOverdue (fun _ => P) E := by
  -- the loop keeps what is known of the invoices that remain, each listed once
  let I : List Invoice → History A ω → Prop := fun is c =>
    P c ∧ (is.map Invoice.id).Nodup ∧ ∀ i ∈ is, Due i c
  have hI : ∀ is, L.Fact j pid (I is) := fun is =>
    hP.and (Fact.const.and (Fact.forall fun i => (hDue i).imp))
  refine hP.dateNow.bind fun now => ?_
  refine (hP.invoiceFindMany (overdueWhere now) hDue (hread now) hE).bind fun is => ?_
  refine (Protocol.Valid.forEach I (fun i is => ?_) is).post (fun _ c _ h => h.1)
    fun _ _ _ h => h
  refine expireInvoice_valid i (hI (i :: is)) (hI is) (fun eventId c c' ev hc h => ?_)
    (hE.pre fun c h => h.1)
  obtain ⟨hp, hnodup, hdue⟩ := h
  rw [List.map_cons, List.nodup_cons] at hnodup
  obtain ⟨hcan, hp', hkeep⟩ := hexpire i eventId c c' ev hc hp (hdue i List.mem_cons_self)
  refine ⟨hcan, hp', hnodup.2, fun i' hi' => hkeep i' ?_ (hdue i' (List.mem_cons_of_mem _ hi'))⟩
  intro hid
  exact hnodup.1 (hid ▸ List.mem_map_of_mem hi')

/-! ## Detection -/

/-- Matching one transfer: `Seen` is known of a candidate. -/
theorem matchTransfer_valid (t : TokenTransfer) {Seen : Invoice → History A ω → Prop}
    (hP : L.Fact j pid P) (hSeen : ∀ i, L.Fact j pid (Seen i))
    (hread : ∀ c i, L.Inv c → P c → i ∈ c.state.db.invoices → (candidateWhere t).holds i = true →
      Seen i c)
    (hdetect : ∀ i paymentId detectedAt c c' ev,
      L.Commits pid ev (.detect i t paymentId detectedAt) c c' → P c → Seen i c →
      matchesInvoice toLowerAscii (candidate i).toInvoicePaymentTarget t.detected = true →
      L.Can j pid c (.detect i t paymentId detectedAt) ∧ P c')
    (hE : L.Escapes P E) :
    L.protocol.Valid j pid P (matchTransfer t) (fun _ => P) E := by
  refine (hP.invoiceFindMany (candidateWhere t) hSeen hread hE).bind fun candidates => ?_
  cases hsel : selectMatchingInvoice toLowerAscii candidates t.detected t.amount with
  | none =>
    dsimp only
    exact .pure fun _ _ h => h.1
  | some i =>
    obtain ⟨hi, hmatch⟩ := selectMatchingInvoice_mem hsel
    have hPi : L.Fact j pid fun c => P c ∧ Seen i c := hP.and (hSeen i)
    have hEi : L.Escapes (fun c => P c ∧ Seen i c) E := hE.pre fun c h => h.1
    dsimp only
    refine Protocol.Valid.pre (P := fun c => P c ∧ Seen i c) ?_ fun c _ h => ⟨h.1, h.2.2 i hi⟩
    refine (hPi.lookup (.paymentFindByTxHash i.network t.txHash)
      (fun db => db.payments.rows.find? fun p =>
        p.network = i.network ∧ p.txHash = some t.txHash) (fun _ _ => rfl)
      (fun r => quiet_of_op (fun _ => nofun) fun _ => nofun) hEi).bind fun alreadySeen => ?_
    split_ifs
    · exact .pure fun _ _ h => h.1
    · refine (hPi.generateId "pay").bind fun paymentId => hPi.dateNow.bind fun detectedAt => ?_
      exact hPi.commits hP (.detect i t paymentId detectedAt)
        (fun c c' ev hc h => hdetect i paymentId detectedAt c c' ev hc h.1 h.2 hmatch) hEi

/-! ## Failure and finality -/

theorem failAttempt_valid (p : PaymentWithInvoice) (hP : L.Fact j pid P) (hQ : L.Fact j pid Q)
    (hfail : ∀ c c' ev, L.Commits pid ev (.fail p) c c' → P c →
      canTransitionPayment p.status .failed = true →
      canTransitionInvoice p.invoice.status .failed = true → L.Can j pid c (.fail p) ∧ Q c')
    (hthrow : ∀ c e, L.Inv c → P c → e.IsInvalidStateTransition →
      canTransitionPayment p.status .failed = false ∨
        canTransitionInvoice p.invoice.status .failed = false → E e c)
    (hE : L.Escapes P E) :
    L.protocol.Valid j pid P (failAttempt p) (fun _ => Q) E := by
  refine (assertPayment_valid _ _ fun h c e hI hp he => hthrow c e hI hp he (.inl h)).bind
    fun _ => .assume fun hpay => ?_
  refine (assertInvoice_valid _ _ fun h c e hI hp he => hthrow c e hI hp he (.inr h)).bind
    fun _ => .assume fun hinv => ?_
  exact hP.commits hQ (.fail p) (fun c c' ev hc hp => hfail c c' ev hc hp hpay hinv) hE

/-- `finalizePayment`: its assertions are about constants and pass. `paidAt` is
    set exactly when the invoice becomes `PAID`. -/
theorem settlePayment_valid (p : PaymentWithInvoice) (n : ℤ) (hP : L.Fact j pid P)
    (hQ : L.Fact j pid Q)
    (hsettle : ∀ confirmedAt paidAt eventId c c' ev,
      L.Commits pid ev (.settle p n confirmedAt paidAt eventId) c c' → P c →
      (paidAt.isSome = true ↔ p.amountMatch = .exact) →
      L.Can j pid c (.settle p n confirmedAt paidAt eventId) ∧ Q c')
    (hE : L.Escapes P E) :
    L.protocol.Valid j pid P (settlePayment p n) (fun _ => Q) E := by
  have hpay : (assertPayment .confirming p.amountMatch.outcome.1 : Action A Unit) = .ret () := by
    cases p.amountMatch <;> rfl
  have hinv : (assertInvoice .confirming p.amountMatch.outcome.2.1 : Action A Unit) = .ret () := by
    cases p.amountMatch <;> rfl
  have hpaid : p.amountMatch.outcome.2.1 = .paid ↔ p.amountMatch = .exact := by
    cases p.amountMatch <;> decide
  simp only [settlePayment, hpay, hinv, Prog.ret_bind]
  refine hP.dateNow.bind fun confirmedAt => ?_
  refine Protocol.Valid.bind
    (Q := fun (paidAt : Option Time) c => P c ∧ (paidAt.isSome = true ↔ p.amountMatch = .exact))
    ?_ fun paidAt => ?_
  · unfold paidAtNow
    split_ifs with h
    · exact hP.dateNow.bind fun now => .pure fun c _ hp => ⟨hp, by simp [hpaid.mp h]⟩
    · exact .pure fun c _ hp => ⟨hp, by simp [mt hpaid.mpr h]⟩
  · have hP' : L.Fact j pid fun c => P c ∧ (paidAt.isSome = true ↔ p.amountMatch = .exact) :=
      hP.and Fact.const
    refine (hP'.generateId "evt").bind fun eventId => ?_
    exact hP'.commits hQ (.settle p n confirmedAt paidAt eventId)
      (fun c c' ev hc h => hsettle confirmedAt paidAt eventId c c' ev hc h.1 h.2)
      (hE.pre fun c h => h.1)

end Ledger

end CryptoPay
