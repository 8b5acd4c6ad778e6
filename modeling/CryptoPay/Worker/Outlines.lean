import CryptoPay.Payments.StepOutlines
import CryptoPay.Worker.BlockchainScan
import CryptoPay.Worker.PaymentConfirm

/-!
# Outlines of the worker's passes

The control flow of `runBlockchainScan` and `runPaymentConfirm`, checked once
for every ledger. `ScanOutline` and `ConfirmOutline` list what is left to show:
what the rows and the adapter's answers are known to be, and why each commit is
safe.
-/

namespace CryptoPay.Worker

open Async

variable {A : Signature} {ω ι η κ : Type} {L : Ledger A ω ι η κ} {j : κ} {pid : ℕ}
  {P : History A ω → Prop} {E : Error → History A ω → Prop}
  {adapter : BlockchainAdapter A}

/-! ## The scan -/

/-- `Reported` is known of a transfer that the adapter returned, for good. -/
structure ScanOutline (L : Ledger A ω ι η κ) (j : κ) (pid : ℕ) (P : History A ω → Prop)
    (E : Error → History A ω → Prop) (adapter : BlockchainAdapter A)
    (Reported : TokenTransfer → History A ω → Prop) : Prop where
  fact : L.Fact j pid P
  lasting : ∀ t, Protocol.Lasting (Reported t)
  escapes : L.Escapes P E
  latestBlock : L.protocol.Valid j pid P adapter.getLatestBlock (fun _ => P) E
  transfers : ∀ fromBlock toBlock,
    L.protocol.Valid j pid P (adapter.getTokenTransfers fromBlock toBlock)
      (fun ts c => P c ∧ ∀ t ∈ ts, Reported t c) E
  pass : ∀ t, L.protocol.Valid j pid (fun c => P c ∧ Reported t c) (passTransfer t)
    (fun _ => P) E

/-- The cursor upsert changes no row of the payment tables. -/
theorem upsertCursor_sameRows (db : Db) (network : String) :
    db.SameRows (db.upsertCursor network).2 := by
  unfold Db.upsertCursor
  split
  · exact .refl _
  · dsimp only
    split <;> exact ⟨fun _ => .rfl, fun _ => .rfl, fun _ => .rfl⟩

/-- Nor does moving the cursor. -/
theorem cursorUpdate_sameRows {now : Time} {db db' : Db} {network : String} {n : ℤ}
    (h : db.transaction now [.blockchainScanCursorUpdate network n] = .ok db') :
    db.SameRows db' := by
  obtain ⟨db₁, hw, hnil⟩ := transaction_cons h
  rw [transaction_nil hnil, blockchainScanCursorUpdate_ok hw]
  exact ⟨fun _ => .rfl, fun _ => .rfl, fun _ => .rfl⟩

theorem ScanOutline.valid {Reported : TokenTransfer → History A ω → Prop}
    (h : ScanOutline L j pid P E adapter Reported) (network : String) :
    L.protocol.Valid j pid P (runBlockchainScan adapter network) (fun _ => P) E := by
  have hcursor : L.protocol.Valid j pid P
      (prisma (.blockchainScanCursorUpsert network) : Action A BlockchainScanCursor)
      (fun _ => P) E :=
    (h.fact.call (.blockchainScanCursorUpsert network) (R := fun _ _ => True)
      (fun _ db => upsertCursor_sameRows db network)
      (fun r => quiet_of_op (fun _ => nofun) fun _ => nofun)
      (fun _ => .trivially) (fun _ _ _ _ _ _ => trivial) (fun _ _ _ _ _ h => nomatch h)
      h.escapes).post (fun _ _ _ h => h.1) fun _ _ _ h => h
  refine hcursor.bind fun cursor => h.latestBlock.bind fun latestBlock => ?_
  dsimp only
  split_ifs
  · exact .pure fun _ _ hp => hp
  refine (h.transfers _ _).bind fun ts => ?_
  refine Protocol.Valid.bind (Q := fun _ => P) ?_ fun _ => ?_
  · -- what is known of the transfers that remain outlasts the one being matched
    refine (Protocol.Valid.forEach (fun ts c => P c ∧ ∀ t ∈ ts, Reported t c)
      (fun t ts => ?_) ts).post (fun _ _ _ hp => hp.1) fun _ _ _ he => he
    have hlast : Protocol.Lasting fun c => ∀ t' ∈ ts, Reported t' c :=
      fun c c' hc hall t' ht' => h.lasting t' c c' hc (hall t' ht')
    refine ((h.pass t).frame L.growing hlast).pre fun c _ hp => ?_
    exact ⟨⟨hp.1, hp.2 t List.mem_cons_self⟩, fun t' ht' => hp.2 t' (List.mem_cons_of_mem t ht')⟩
  · exact h.fact.silentWrites (List.forall_mem_singleton.mpr trivial)
      (fun _ _ _ hdb => cursorUpdate_sameRows hdb) h.escapes

/-! ## The confirmations -/

/-- The commit `m` of payment `p` is safe, and spoils nothing that is known of
    the payments still to come. -/
def Advances (L : Ledger A ω ι η κ) (j : κ) (pid : ℕ) (P : History A ω → Prop)
    (Seen : PaymentWithInvoice → History A ω → Prop) (Knows : History A ω → Prop)
    (p : PaymentWithInvoice) (m : Commit) : Prop :=
  ∀ c c' ev, L.Commits pid ev m c c' → P c → Seen p c → Knows c →
    L.Can j pid c m ∧ P c' ∧ ∀ p' : PaymentWithInvoice, p'.id ≠ p.id → Seen p' c → Seen p' c'

/-- `P₀` holds until the snapshot is taken and `P` from then on; `Seen` is known
    of a payment of the snapshot, `Reported h n` of an answer `n` of
    `getConfirmations(h)`. -/
structure ConfirmOutline (L : Ledger A ω ι η κ) (j : κ) (pid : ℕ) (P₀ P : History A ω → Prop)
    (E : Error → History A ω → Prop) (adapter : BlockchainAdapter A) (requiredConfirmations : ℤ)
    (Seen : PaymentWithInvoice → History A ω → Prop) (Reported : String → ℤ → History A ω → Prop) :
    Prop where
  fact : L.Fact j pid P
  factSeen : ∀ p, L.Fact j pid (Seen p)
  factReported : ∀ h n, L.Fact j pid (Reported h n)
  escapes : L.Escapes P E
  factSweep : L.Fact j pid P₀
  begins : ∀ c, P₀ c → P c
  sweep : L.protocol.Valid j pid P₀ expireOverdueInvoices (fun _ => P₀) E
  snapshot : ∀ c (p : PaymentWithInvoice), L.Inv c → P₀ c → p.toPayment ∈ c.state.db.payments →
    p.status ∈ activeStatuses → p.invoice ∈ c.state.db.invoices → p.invoice.id = p.invoiceId →
    Seen p c
  confirmations : ∀ (F : History A ω → Prop) (txHash : String), L.Fact j pid F → (∀ c, F c → P c) →
    L.protocol.Valid j pid F (adapter.getConfirmations txHash).attempt
      (fun r c => F c ∧ (∀ n, r = .ok n → Reported txHash n c) ∧
        ∀ e, r = .error e → (∀ message, e ≠ .notFound message) → E e c) E
  fail : ∀ p : PaymentWithInvoice, (p.status = .detected ∨ p.status = .reorgDetected) →
    canTransitionInvoice p.invoice.status .failed = true →
    Advances L j pid P Seen (fun _ => True) p (.fail p)
  reorg : ∀ p : PaymentWithInvoice, p.status = .confirming →
    Advances L j pid P Seen (fun _ => True) p (.reorg p)
  confirm : ∀ (p : PaymentWithInvoice) (n : ℤ),
    (p.status = .detected ∨ p.status = .reorgDetected) →
    (p.invoice.status = .confirming ∨ canTransitionInvoice p.invoice.status .confirming = true) →
    Advances L j pid P Seen (fun _ => True) p (.confirm p n)
  refresh : ∀ (p : PaymentWithInvoice) (n : ℤ), p.status = .confirming →
    Advances L j pid P Seen (fun _ => True) p (.refresh p n)
  settle : ∀ (p : PaymentWithInvoice) (n : ℤ) (confirmedAt : Time) (paidAt : Option Time)
    (eventId txHash : String), p.status = .confirming → p.txHash = some txHash →
    requiredConfirmations ≤ n → (paidAt.isSome = true ↔ p.amountMatch = .exact) →
    Advances L j pid P Seen (Reported txHash n) p (.settle p n confirmedAt paidAt eventId)
  throws : ∀ (p : PaymentWithInvoice) c e, L.Inv c → P c → Seen p c →
    e.IsInvalidStateTransition →
    (canTransitionInvoice p.invoice.status .failed = false ∧
        (p.status = .detected ∨ p.status = .reorgDetected)) ∨
      (p.invoice.status ≠ .confirming ∧
        canTransitionInvoice p.invoice.status .confirming = false ∧
        (p.status = .detected ∨ p.status = .reorgDetected)) → E e c

/-- What is known while the payments `ps` of the snapshot remain. -/
def Remaining (P : History A ω → Prop) (Seen : PaymentWithInvoice → History A ω → Prop)
    (ps : List PaymentWithInvoice) (c : History A ω) : Prop :=
  P c ∧ (ps.map fun p => p.id).Nodup ∧ (∀ p ∈ ps, p.status ∈ activeStatuses) ∧
    ∀ p ∈ ps, Seen p c

variable {Seen : PaymentWithInvoice → History A ω → Prop} {p : PaymentWithInvoice}
  {ps : List PaymentWithInvoice}

theorem Remaining.fact (hP : L.Fact j pid P) (hSeen : ∀ p, L.Fact j pid (Seen p))
    (ps : List PaymentWithInvoice) : L.Fact j pid (Remaining P Seen ps) :=
  hP.and (.and .const (.and .const (.forall fun p => (hSeen p).imp)))

theorem Remaining.tail {c : History A ω} (h : Remaining P Seen (p :: ps) c) :
    Remaining P Seen ps c := by
  obtain ⟨hp, hnodup, hactive, hseen⟩ := h
  exact ⟨hp, (List.nodup_cons.mp hnodup).2, fun q hq => hactive q (List.mem_cons_of_mem p hq),
    fun q hq => hseen q (List.mem_cons_of_mem p hq)⟩

/-- The payments that remain are other payments. -/
theorem Remaining.after {c c' : History A ω} (h : Remaining P Seen (p :: ps) c) (hP : P c')
    (hkeep : ∀ p' : PaymentWithInvoice, p'.id ≠ p.id → Seen p' c → Seen p' c') :
    Remaining P Seen ps c' := by
  obtain ⟨-, hnodup, hactive, hseen⟩ := h
  obtain ⟨hnot, hnodup⟩ := List.nodup_cons.mp hnodup
  refine ⟨hP, hnodup, fun q hq => hactive q (List.mem_cons_of_mem p hq), fun q hq => ?_⟩
  refine hkeep q (fun hid => hnot ?_) (hseen q (List.mem_cons_of_mem p hq))
  exact List.mem_map.mpr ⟨q, hq, hid⟩

/-- What a commit that advances `p` needs from the loop. -/
theorem Advances.step {Knows : History A ω → Prop} {m : Commit}
    (h : Advances L j pid P Seen Knows p m) {c c' : History A ω} {ev : Event (effects A)}
    (hc : L.Commits pid ev m c c') (hrem : Remaining P Seen (p :: ps) c) (hknows : Knows c) :
    L.Can j pid c m ∧ Remaining P Seen ps c' := by
  obtain ⟨hcan, hp, hkeep⟩ := h c c' ev hc hrem.1 (hrem.2.2.2 p List.mem_cons_self) hknows
  exact ⟨hcan, hrem.after hp hkeep⟩

namespace ConfirmOutline

variable {requiredConfirmations : ℤ} {Reported : String → ℤ → History A ω → Prop}
  {P₀ : History A ω → Prop} (h : ConfirmOutline L j pid P₀ P E adapter requiredConfirmations Seen Reported)
include h

theorem remaining (ps : List PaymentWithInvoice) : L.Fact j pid (Remaining P Seen ps) :=
  Remaining.fact h.fact h.factSeen ps

theorem escapesRemaining (ps : List PaymentWithInvoice) : L.Escapes (Remaining P Seen ps) E :=
  h.escapes.pre fun _ hc => hc.1

theorem failPayment_valid (hst : p.status = .detected ∨ p.status = .reorgDetected) :
    L.protocol.Valid j pid (Remaining P Seen (p :: ps)) (failPayment p)
      (fun _ => Remaining P Seen ps) E := by
  refine Ledger.failAttempt_valid p (h.remaining _) (h.remaining _)
    (fun c c' ev hc hrem _ hinv => (h.fail p hst hinv).step hc hrem trivial)
    (fun c e hI hrem he hbad => ?_) (h.escapesRemaining _)
  refine h.throws p c e hI hrem.1 (hrem.2.2.2 p List.mem_cons_self) he (.inl ⟨?_, hst⟩)
  rcases hbad with hbad | hbad
  · rcases hst with hst | hst <;> rw [hst] at hbad <;> cases hbad
  · exact hbad

theorem moveToConfirming_valid (n : ℤ) (hst : p.status = .detected ∨ p.status = .reorgDetected) :
    L.protocol.Valid j pid (Remaining P Seen (p :: ps)) (moveToConfirming p n)
      (fun _ => Remaining P Seen ps) E := by
  have hpay : (assertPayment p.status .confirming : Action A Unit) = .ret () := by
    rcases hst with hst | hst <;> rw [hst] <;> rfl
  have hstep : (p.invoice.status = .confirming ∨
      canTransitionInvoice p.invoice.status .confirming = true) →
      L.protocol.Valid j pid (Remaining P Seen (p :: ps)) (transaction (confirmingWrites p n))
        (fun _ => Remaining P Seen ps) E := fun hinv =>
    (h.remaining _).commits (h.remaining _) (.confirm p n)
      (fun c c' ev hc hrem => (h.confirm p n hst hinv).step hc hrem trivial) (h.escapesRemaining _)
  simp only [moveToConfirming, hpay, Prog.ret_bind]
  split_ifs with hconf
  · refine (Ledger.assertInvoice_valid _ _ fun hcan c e hI hrem he => ?_).bind fun _ =>
      .assume fun hcan => hstep (.inr hcan)
    exact h.throws p c e hI hrem.1 (hrem.2.2.2 p List.mem_cons_self) he
      (.inr ⟨hconf, hcan, hst⟩)
  · exact hstep (.inl (not_not.mp hconf))

theorem handleMissingTransaction_valid (hst : p.status ∈ activeStatuses) :
    L.protocol.Valid j pid (Remaining P Seen (p :: ps)) (handleMissingTransaction p)
      (fun _ => Remaining P Seen ps) E := by
  unfold handleMissingTransaction
  split_ifs with hdetected hconfirming
  · exact h.failPayment_valid (.inl hdetected)
  · exact (h.remaining _).commits (h.remaining _) (.reorg p)
      (fun c c' ev hc hrem => (h.reorg p hconfirming).step hc hrem trivial) (h.escapesRemaining _)
  · have hreorg : p.status = .reorgDetected := by
      simpa [activeStatuses, hdetected, hconfirming] using hst
    refine (h.remaining (p :: ps)).dateNow.bind fun now => ?_
    split_ifs
    · exact h.failPayment_valid (.inr hreorg)
    · exact .pure fun c _ hrem => hrem.tail

theorem advancePayment_valid (hst : p.status ∈ activeStatuses) {txHash : String}
    (htx : p.txHash = some txHash) (n : ℤ) :
    L.protocol.Valid j pid (fun c => Remaining P Seen (p :: ps) c ∧ Reported txHash n c)
      (advancePayment requiredConfirmations p n) (fun _ => Remaining P Seen ps) E := by
  unfold advancePayment
  split_ifs with hreorg hdetected hless hsame
  · exact (h.moveToConfirming_valid n (.inr hreorg)).pre fun c _ hc => hc.1
  · exact (h.moveToConfirming_valid n (.inl hdetected)).pre fun c _ hc => hc.1
  all_goals
    have hconfirming : p.status = .confirming := by
      simpa [activeStatuses, hdetected, hreorg] using hst
  · refine ((h.remaining (p :: ps)).commits (h.remaining ps) (.refresh p n) (fun c c' ev hc hrem =>
      (h.refresh p n hconfirming).step hc hrem trivial) (h.escapesRemaining _)).pre fun c _ hc => hc.1
  · exact .pure fun c _ hc => hc.1.tail
  · refine Ledger.settlePayment_valid p n ((h.remaining _).and (h.factReported txHash n))
      (h.remaining _) (fun confirmedAt paidAt eventId c c' ev hc hrem hpaid => ?_)
      ((h.escapesRemaining _).pre fun c hc => hc.1)
    exact (h.settle p n confirmedAt paidAt eventId txHash hconfirming htx (not_lt.mp hless)
      hpaid).step hc hrem.1 hrem.2

theorem confirmPayment_valid (p : PaymentWithInvoice) (ps : List PaymentWithInvoice) :
    L.protocol.Valid j pid (Remaining P Seen (p :: ps))
      (confirmPayment adapter requiredConfirmations p) (fun _ => Remaining P Seen ps) E := by
  refine Protocol.Valid.pre
    (P := fun c => Remaining P Seen (p :: ps) c ∧ p.status ∈ activeStatuses) (.assume fun hst => ?_)
    fun c _ hrem => ⟨hrem, hrem.2.2.1 p List.mem_cons_self⟩
  unfold confirmPayment
  cases htx : p.txHash with
  | none => exact .pure fun c _ hrem => hrem.tail
  | some txHash =>
    dsimp only
    split_ifs
    · exact .pure fun c _ hrem => hrem.tail
    refine (h.confirmations _ txHash (h.remaining (p :: ps)) fun c hrem => hrem.1).bind
      fun r => ?_
    cases r with
    | ok n =>
      exact (h.advancePayment_valid hst htx n).pre fun c _ hc => ⟨hc.1, hc.2.1 n rfl⟩
    | error e =>
      have hother : (∀ message, e ≠ .notFound message) → L.protocol.Valid j pid
          (fun c => Remaining P Seen (p :: ps) c ∧ (∀ n, Except.error e = .ok n →
            Reported txHash n c) ∧ ∀ e', Except.error e = (.error e' : Except Error ℤ) →
              (∀ message, e' ≠ .notFound message) → E e' c)
          (.throw e : Action A Unit) (fun _ => Remaining P Seen ps) E :=
        fun he => .throw fun c _ hc => hc.2.2 e rfl he
      cases e with
      | notFound message => exact (h.handleMissingTransaction_valid hst).pre fun c _ hc => hc.1
      | validation => exact hother nofun
      | unauthorized => exact hother nofun
      | forbidden => exact hother nofun
      | conflict => exact hother nofun
      | rateLimited => exact hother nofun
      | internal => exact hother nofun
      | invalidStateTransition => exact hother nofun
      | prisma => exact hother nofun
      | rpc => exact hother nofun

/-- A pass leads from `P₀` to `P`. -/
theorem valid : L.protocol.Valid j pid P₀ (runPaymentConfirm adapter requiredConfirmations)
    (fun _ => P) E := by
  refine h.sweep.bind fun _ => ?_
  have hSeen : ∀ p, L.Fact j pid fun c => p.status ∈ activeStatuses ∧ Seen p c :=
    fun p => Ledger.Fact.const.and (h.factSeen p)
  refine (h.factSweep.paymentFindMany activeStatuses hSeen
    (fun c p hI hP hp hst hi hid => ⟨hst, h.snapshot c p hI hP hp hst hi hid⟩)
    (h.escapes.pre h.begins)).bind fun ps => ?_
  refine (Protocol.Valid.forEach (Remaining P Seen) (fun p ps => h.confirmPayment_valid p ps)
    ps).pre ?_ |>.post (fun _ _ _ hc => hc.1) fun _ _ _ he => he
  rintro c - ⟨hP, hnodup, hseen⟩
  exact ⟨h.begins c hP, hnodup, fun p hp => (hseen p hp).1, fun p hp => (hseen p hp).2⟩

end ConfirmOutline

/-! ## Passes that rely on no one -/

/-- The rows that a pass has read are stored, up to what a commit may change. -/
structure Read (p : PaymentWithInvoice) (db : Db) : Prop where
  payment : HasPayment p.toPayment db
  invoice : HasInvoice p.invoice db
  id : p.invoiceId = p.invoice.id

theorem Read.fact (p : PaymentWithInvoice) : L.Fact j pid fun c => Read p c.state.db :=
  ((Ledger.Fact.hasPayment p.toPayment).and
    ((Ledger.Fact.hasInvoice p.invoice).and (.const (p := p.invoiceId = p.invoice.id)))).congr
    fun _ => ⟨fun h => ⟨h.1, h.2.1, h.2.2⟩, fun h => ⟨h.payment, h.invoice, h.id⟩⟩

/-- A scan among any others, if what it knows of a candidate permits its commit. -/
theorem runBlockchainScan_rule (Reported : TokenTransfer → History A ω → Prop)
    (hlast : ∀ t, Protocol.Lasting (Reported t)) (hexc : ∀ e, L.Exc j e) (network : String)
    (hlatest : L.protocol.Valid j pid (fun _ => True) adapter.getLatestBlock (fun _ _ => True)
      (fun e _ => L.Exc j e))
    (htransfers : ∀ a b, L.protocol.Valid j pid (fun _ => True) (adapter.getTokenTransfers a b)
      (fun ts c => ∀ t ∈ ts, Reported t c) (fun e _ => L.Exc j e))
    (hcan : ∀ i t paymentId detectedAt c c' ev,
      L.Commits pid ev (.detect i t paymentId detectedAt) c c' → HasInvoice i c.state.db →
      (i.paymentAddress = t.toAddress ∧ i.network = t.network ∧ i.token = t.token) →
      Reported t c → L.Can j pid c (.detect i t paymentId detectedAt)) :
    L.protocol.Valid j pid (fun _ => True) (runBlockchainScan adapter network) (fun _ _ => True)
      (fun e _ => L.Exc j e) := by
  have hP : L.Fact j pid fun _ => True := .trivially
  suffices h : ScanOutline L j pid (fun _ => True) (fun e _ => L.Exc j e) adapter Reported from
    h.valid network
  refine ⟨hP, hlast, fun _ _ _ _ => hexc _, hlatest, fun a b => (htransfers a b).post
    (fun _ _ _ h => ⟨trivial, h⟩) fun _ _ _ h => h, fun t => ?_⟩
  have hrep : L.Fact j pid (Reported t) := .lasting (hlast t)
  refine (hrep.mark _ fun c h => hlast t c _ (List.suffix_cons _ _) h.2).bind fun _ => ?_
  refine Protocol.Valid.bind (Ledger.matchTransfer_valid t hrep
    (fun i => (Ledger.Fact.hasInvoice i).and (.const (p := i.paymentAddress = t.toAddress ∧
      i.network = t.network ∧ i.token = t.token))) ?_ ?_ fun _ _ _ _ => hexc _)
    fun _ => hP.mark _ fun _ _ => trivial
  · intro c i _ _ hi hw
    exact ⟨⟨i, hi, rfl⟩, (candidateWhere_holds.mp hw).2⟩
  · intro i paymentId detectedAt c c' ev hc hr hseen _
    exact ⟨hcan i t paymentId detectedAt c c' ev hc hseen.1 hseen.2 hr,
      hlast t c c' (hc.committed.trace ▸ List.suffix_cons _ _) hr⟩

/-- What a confirm pass knows when it commits, although the other passes may have
    changed every status since it read. -/
inductive Knows (requiredConfirmations : ℤ) (Reported : String → ℤ → History A ω → Prop)
    (c : History A ω) : Commit → Prop where
  | expire {i eventId} (read : HasInvoice i c.state.db) :
      Knows requiredConfirmations Reported c (.expire i eventId)
  | fail {p : PaymentWithInvoice} (read : Read p c.state.db)
      (status : p.status = .detected ∨ p.status = .reorgDetected) :
      Knows requiredConfirmations Reported c (.fail p)
  | reorg {p : PaymentWithInvoice} (read : Read p c.state.db) (status : p.status = .confirming) :
      Knows requiredConfirmations Reported c (.reorg p)
  | confirm {p : PaymentWithInvoice} {n} (read : Read p c.state.db)
      (status : p.status = .detected ∨ p.status = .reorgDetected) :
      Knows requiredConfirmations Reported c (.confirm p n)
  | refresh {p : PaymentWithInvoice} {n} (read : Read p c.state.db) (status : p.status = .confirming) :
      Knows requiredConfirmations Reported c (.refresh p n)
  | settle {p : PaymentWithInvoice} {n confirmedAt paidAt eventId txHash} (read : Read p c.state.db)
      (status : p.status = .confirming) (txHash_eq : p.txHash = some txHash)
      (enough : requiredConfirmations ≤ n) (reported : Reported txHash n c)
      (paid : paidAt.isSome = true ↔ p.amountMatch = .exact) :
      Knows requiredConfirmations Reported c (.settle p n confirmedAt paidAt eventId)

/-- A confirm pass among any others, if what it knows permits its commits. -/
theorem runPaymentConfirm_rule {requiredConfirmations : ℤ}
    (Reported : String → ℤ → History A ω → Prop)
    (hlast : ∀ h n, Protocol.Lasting (Reported h n)) (hexc : ∀ e, L.Exc j e)
    (hadapter : ∀ (F : History A ω → Prop) (txHash : String), L.Fact j pid F →
      L.protocol.Valid j pid F (adapter.getConfirmations txHash)
        (fun n c => F c ∧ Reported txHash n c) (fun _ => F))
    (hcan : ∀ m c c' ev, L.Commits pid ev m c c' → Knows requiredConfirmations Reported c m →
      L.Can j pid c m) :
    L.protocol.Valid j pid (fun _ => True) (runPaymentConfirm adapter requiredConfirmations)
      (fun _ _ => True) (fun e _ => L.Exc j e) := by
  have hP : L.Fact j pid fun _ => True := .trivially
  have hadv : ∀ {p : PaymentWithInvoice} {m : Commit} {K : History A ω → Prop},
      (∀ c, Read p c.state.db → K c → Knows requiredConfirmations Reported c m) →
        Advances L j pid (fun _ => True) (fun p c => Read p c.state.db) K p m := by
    intro p m K hknows c c' ev hc _ hread hK
    refine ⟨hcan m c c' ev hc (hknows c hread hK), trivial, fun p' _ hp' => ?_⟩
    have he := hc.committed.effect
    exact ⟨hp'.payment.commit he, hp'.invoice.commit he, hp'.id⟩
  suffices h : ConfirmOutline L j pid (fun _ => True) (fun _ => True) (fun e _ => L.Exc j e)
      adapter requiredConfirmations (fun p c => Read p c.state.db) Reported from h.valid
  exact {
    fact := hP
    factSeen := Read.fact
    factReported := fun h n => .lasting (hlast h n)
    escapes := fun _ _ _ _ => hexc _
    factSweep := hP
    begins := fun _ _ => trivial
    sweep := Ledger.expireOverdue_valid hP Ledger.Fact.hasInvoice
      (fun _ _ i _ _ hi _ => ⟨i, hi, rfl⟩)
      (fun i eventId c c' ev hc _ hread =>
        ⟨hcan _ c c' ev hc (.expire hread), trivial, fun _ _ h => h.commit hc.committed.effect⟩)
      fun _ _ _ _ => hexc _
    snapshot := fun c p _ _ hp _ hi hid => ⟨⟨_, hp, rfl⟩, ⟨_, hi, rfl⟩, hid.symm⟩
    confirmations := fun F txHash hF _ => Protocol.Valid.attempt
      ((hadapter F txHash hF).post
        (fun n c _ h => ⟨h.1, fun n' hn => Except.ok.inj hn ▸ h.2, nofun⟩)
        fun e c _ h => ⟨h, nofun, fun _ _ _ => hexc _⟩)
    fail := fun p hst _ => hadv fun c hread _ => .fail hread hst
    reorg := fun p hst => hadv fun c hread _ => .reorg hread hst
    confirm := fun p n hst _ => hadv fun c hread _ => .confirm hread hst
    refresh := fun p n hst => hadv fun c hread _ => .refresh hread hst
    settle := fun p n _ _ _ txHash hst htx hn hpaid =>
      hadv fun c hread hrep => .settle hread hst htx hn hrep hpaid
    throws := fun _ _ _ _ _ _ _ _ => hexc _ }

end CryptoPay.Worker
