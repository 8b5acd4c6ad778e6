import CryptoPay.Api.Outlines
import CryptoPay.Blockchain.Oracle
import CryptoPay.Worker.Jobs
import CryptoPay.Worker.Outlines

/-!
# What a transaction may change

`tryMatchTransfer` reads the candidates, looks the transaction up, and then
commits two rows. Passes that overlap may hold different candidates for one
transaction; the constraint on `(network, txHash)` lets one of them commit.

Results:
* `CanRecord`, `OnePerTransaction`: what a scan knows when it commits, and what
  its commits keep.
* `exactly_once`: at most one payment for a transaction; whoever matches a
  transfer changes only the invoice of that payment, and nothing at all once the
  payment exists.
-/

namespace CryptoPay.Worker

open Async

/-- The last mark that process `pid` made. -/
def lastMark (pid : ℕ) : List (Event (effects adapterCalls)) → Option Mark
  | [] => none
  | ⟨q, .mark m, _⟩ :: tr => if q = pid then some m else lastMark pid tr
  | _ :: tr => lastMark pid tr

/-- Scan pass `pid` is inside `tryMatchTransfer(t)`. -/
structure Matching (s : EvmSystem) (pid : ℕ) (t : TokenTransfer) : Prop where
  scan : ∃ q ∈ s.procs, q.pid = pid ∧ q.job = .scan
  mark : lastMark pid s.config.trace = some (.passed t)

variable {n : Replicas} {D : Setup} {j : Job} {pid : ℕ} {m : Commit} {t : TokenTransfer}
  {c c' : History adapterCalls Unit} {now : Time} {db db' : Db}

theorem lastMark_cons {ev : Event (effects adapterCalls)} {tr : List (Event (effects adapterCalls))}
    (h : Ledger.Unmarked pid ev) : lastMark pid (ev :: tr) = lastMark pid tr := by
  obtain ⟨q, op, r⟩ := ev
  cases op with
  | mark m =>
    have hq : q ≠ pid := fun hq => h hq m rfl
    simp only [lastMark, if_neg hq]
  | _ => rfl

/-! ## The ledger -/

/-- Payments belong to invoices, and no two are for the same transaction. -/
structure OnePerTransaction (db : Db) : Prop where
  owned : db.Owned
  unique : ∀ p ∈ db.payments, ∀ q ∈ db.payments, ∀ h, p.network = q.network →
    p.txHash = some h → q.txHash = some h → p = q

theorem OnePerTransaction.congr (h : OnePerTransaction db) (hs : db.SameRows db') :
    OnePerTransaction db' where
  owned := h.owned.congr hs
  unique p hp q hq := h.unique p ((hs.payments p).1 hp) q ((hs.payments q).1 hq)

/-- A commit keeps this, if a payment it creates charges a stored invoice: the constraint
    refuses a second payment for a transaction. -/
theorem OnePerTransaction.commit (h : OnePerTransaction db) (he : m.Effect now db db')
    (hcreate : ∀ d, m.paymentCreate = some d → ∃ i ∈ db.invoices, (d.row now).Charges i) :
    OnePerTransaction db' where
  owned := h.owned.commit he hcreate
  unique p' hp' q' hq' x hnet hx hx' := by
    have hnetwork : ∀ p, (m.onPayment now p).network = p.network := fun p =>
      (congrArg Payment.network (m.terms_onPayment now p) :)
    have htx : ∀ p, (m.onPayment now p).txHash = p.txHash := fun p =>
      (congrArg Payment.txHash (m.terms_onPayment now p) :)
    rcases (he.payments p').1 hp' with ⟨p, hp, rfl⟩ | ⟨d, hd, rfl⟩ <;>
      rcases (he.payments q').1 hq' with ⟨q, hq, rfl⟩ | ⟨d', hd', rfl⟩
    · rw [hnetwork, hnetwork] at hnet
      rw [htx] at hx hx'
      rw [h.unique p hp q hq x hnet hx hx']
    · rw [hnetwork] at hnet
      rw [htx] at hx
      exact absurd (hx.trans hx'.symm) (he.freshTxHash d' hd' p hp hnet)
    · rw [hnetwork] at hnet
      rw [htx] at hx'
      exact absurd (hx'.trans hx.symm) (he.freshTxHash d hd q hq hnet.symm)
    · rw [hd] at hd'
      cases hd'
      rfl

/-- What a job knows when it commits: a scan, which transfer it is matching, and that its
    candidate is stored. -/
def CanRecord (j : Job) (pid : ℕ) (c : History adapterCalls Unit) : Commit → Prop
  | .create _ => j ≠ .scan
  | .detect i t _ _ => lastMark pid c.trace = some (.passed t) ∧ HasInvoice i c.state.db ∧
      i.network = t.network ∧ i.token = t.token
  | _ => j = .confirm

/-- Any number of passes of either kind. -/
def records (n : Replicas) (D : Setup) : Ledger adapterCalls Unit Answer Empty Job where
  backend := anyAnswer
  work := workload n D.deployment
  start := Unused
  allowed := anything
  Inv c := OnePerTransaction c.state.db
  Can := CanRecord
  Side _ _ _ := False
  Exc _ _ := True

theorem records_lawful (n : Replicas) (D : Setup) : (records n D).Lawful where
  initial w hw := ⟨fun p hp => absurd hp (hw.2.1 p), fun p hp => absurd hp (hw.2.1 p)⟩
  quiet c c' ev hI hp _ := OnePerTransaction.congr hI hp.rows
  env c c' hI _ hr _ := OnePerTransaction.congr hI hr
  commit c c' ev m j hI hc hcan := by
    refine OnePerTransaction.commit hI hc.effect fun d hd => ?_
    cases m with
    | detect i t paymentId detectedAt =>
      cases hd
      obtain ⟨-, ⟨row, hrow, hterms⟩, -, htoken⟩ := hcan
      exact ⟨row, hrow, (detectedPayment_charges htoken).congr rfl hterms⟩
    | _ => cases hd

/-! ## The passes -/

/-- While a process matches a transfer, only its own marks say otherwise. -/
theorem matching_fact (t : TokenTransfer) :
    (records n D).Fact j pid fun c => lastMark pid c.trace = some (.passed t) where
  quiet c c' ev _ h hp hu _ := by
    rw [hp.trace, lastMark_cons hu]
    exact h
  env c c' _ h ht _ _ := by
    rw [ht]
    exact h
  commit c c' ev m j' _ h hc hne _ _ := by
    rw [hc.trace, lastMark_cons fun hpid => absurd hpid hne]
    exact h

theorem records_scan_valid : (records n D).protocol.Valid .scan pid (fun _ => True)
    (runBlockchainScan (oracle D.validateAddress) D.network) (fun _ _ => True)
    (fun _ _ => True) := by
  have hP : (records n D).Fact .scan pid fun _ => True := .trivially
  have hcall : ∀ (call : AdapterCall) {α : Type}
      (read : adapterCalls.Ret call → Except AdapterError α),
      (records n D).protocol.Valid .scan pid (fun _ => True) (callAdapter call read)
        (fun _ _ => True) (fun _ _ => True) := fun call _ read =>
    (hP.callAdapter rfl call read fun _ _ _ _ _ => trivial).post (fun _ _ _ _ => trivial)
      fun _ _ _ h => h
  suffices h : ScanOutline (records n D) .scan pid (fun _ => True) (fun _ _ => True)
      (oracle D.validateAddress) (fun _ _ => True) from h.valid D.network
  refine ⟨hP, fun _ _ _ _ _ => trivial, fun _ _ _ _ => trivial, hcall _ _, fun a b =>
    (hcall _ _).post (fun _ _ _ _ => ⟨trivial, fun _ _ => trivial⟩) fun _ _ _ h => h, fun t => ?_⟩
  have hmark : (records n D).Fact .scan pid fun c => lastMark pid c.trace = some (.passed t) :=
    matching_fact t
  refine (hmark.mark (.passed t) fun c _ => if_pos rfl).bind fun _ => ?_
  refine Protocol.Valid.bind (Ledger.matchTransfer_valid t hmark
    (fun i => (Ledger.Fact.hasInvoice i).and
      (.const (p := i.network = t.network ∧ i.token = t.token))) ?_ ?_ fun _ _ _ _ => trivial)
    fun _ => hP.mark _ fun _ _ => trivial
  · intro c i _ _ hi hw
    exact ⟨⟨i, hi, rfl⟩, (candidateWhere_holds.mp hw).2.2⟩
  · intro i paymentId detectedAt c c' ev hc hp hseen _
    refine ⟨⟨hp, hseen.1, hseen.2.1, hseen.2.2⟩, ?_⟩
    rw [hc.committed.trace, lastMark_cons fun _ => hc.committed.records.op_ne_mark]
    exact hp

theorem records_sound (n : Replicas) (D : Setup) : (records n D).protocol.Sound := by
  refine (records_lawful n D).sound fun j pid => ⟨fun _ => True, .trivially, fun _ _ _ => trivial, ?_⟩
  have hthrows : Api.Throws (records n D) (fun _ => True) fun e _ => (records n D).Exc j e :=
    fun _ _ _ _ _ => trivial
  cases j with
  | scan => exact records_scan_valid
  | confirm =>
    refine runPaymentConfirm_rule (fun _ _ _ => True) (fun _ _ _ _ _ _ => trivial)
      (fun _ => trivial) (fun F txHash hF => ?_) fun m c c' ev hc hknows => ?_
    · exact (hF.callAdapter rfl (.getConfirmations txHash) id fun _ _ _ h _ => h).post
        (fun _ _ _ h => ⟨h.1, trivial⟩) fun _ _ _ h => h
    · cases hknows <;> rfl
  | createInvoice organizationId apiKeyId input ctx =>
    exact (Api.create_valid .trivially .evm organizationId apiKeyId input ctx
      (fun _ _ _ _ _ _ _ _ _ _ => ⟨(fun h => nomatch h), trivial⟩) hthrows).bind fun _ => .pure fun _ _ h => h
  | setWalletAddress organizationId userId input ctx =>
    exact (Api.set_valid .trivially _ organizationId userId input ctx hthrows).bind
      fun _ => .pure fun _ _ h => h

/-! ## Exactly once -/

/-- In `s`, one payment is for the transaction of `t`, and it charges the invoice `i`. -/
def Recorded (t : TokenTransfer) (i : Invoice) (s : EvmSystem) : Prop :=
  ∃ p ∈ s.config.state.db.payments, PaysFor p t ∧
    (∀ q ∈ s.config.state.db.payments, PaysFor q t → q = p) ∧
      ∃ i' ∈ s.config.state.db.invoices, i'.terms = i.terms ∧ p.Charges i'

/-- What holds of every transaction in `s`. -/
structure ExactlyOnce (n : Replicas) (D : Setup) (s : EvmSystem) : Prop where
  unique : ∀ t, ∀ p ∈ s.config.state.db.payments, ∀ q ∈ s.config.state.db.payments,
    PaysFor p t → PaysFor q t → p = q
  /-- A pass that is matching `t` changes the invoice that the payment for `t` charges
      from then on. -/
  changes : ∀ pid t input s', Matching s pid t → evmStep n D s (.perform pid input) = some s' →
    ∀ i ∈ s.config.state.db.invoices, ∀ i' ∈ s'.config.state.db.invoices, i'.id = i.id → i' ≠ i →
      ∀ s'', EvmLeads n D s' s'' → Recorded t i s''
  /-- Once there is a payment for `t`, a pass that is matching `t` changes no row. -/
  loses : ∀ pid t input s', Matching s pid t → evmStep n D s (.perform pid input) = some s' →
    (∃ p ∈ s.config.state.db.payments, PaysFor p t) →
      s.config.state.db.SameRows s'.config.state.db

variable {s s' : EvmSystem}

/-- The commit of a scan that is matching `t` detects a payment for `t`. -/
theorem Matching.commit (h : Matching s pid t) (hK : (records n D).protocol.Holds s)
    (hq : ∃ q ∈ s.procs, q.pid = pid ∧ q.job = j) (hcan : CanRecord j pid s.config m) :
    ∃ i paymentId detectedAt, m = .detect i t paymentId detectedAt ∧
      HasInvoice i s.config.state.db ∧ i.network = t.network ∧ i.token = t.token := by
  obtain ⟨q, hq, hqp, rfl⟩ := hq
  obtain ⟨p, hp, hpp, hscan⟩ := h.scan
  rw [hK.distinct p hp q hq (hpp.trans hqp.symm)] at hscan
  cases m with
  | create d => exact absurd hscan hcan
  | detect i t' paymentId detectedAt =>
    obtain ⟨hlast, hinv, hnet, htoken⟩ := hcan
    have ht : t' = t := Mark.passed.inj (Option.some.inj (hlast.symm.trans h.mark))
    subst ht
    exact ⟨i, paymentId, detectedAt, rfl, hinv, hnet, htoken⟩
  | _ => cases hscan.symm.trans hcan

/-- However many passes overlap, a transaction has at most one effect. -/
theorem exactly_once (n : Replicas) (D : Setup) {s : EvmSystem}
    (hs : EvmReachable n D anything s) : ExactlyOnce n D s := by
  have hK := records_sound n D
  have hstep : ∀ {s s' : EvmSystem} {pid input t}, EvmReachable n D anything s → Matching s pid t →
      evmStep n D s (.perform pid input) = some s' →
      s.config.state.db.SameRows s'.config.state.db ∨ ∃ i paymentId detectedAt,
        (Commit.detect i t paymentId detectedAt).Effect s.config.state.clock s.config.state.db
            s'.config.state.db ∧
          HasInvoice i s.config.state.db ∧ i.network = t.network ∧ i.token = t.token := by
    intro s s' pid input t hs ht hstep
    rcases Ledger.step_commit hK hs (fun _ _ _ _ _ _ _ => trivial) hstep with
      hrows | ⟨_, _, j, ev, m, hm, -, hq, hc, hcan⟩
    · exact .inl hrows
    · cases hm
      obtain ⟨i, paymentId, detectedAt, rfl, h⟩ := ht.commit (hK.holds hs) hq hcan
      exact .inr ⟨i, paymentId, detectedAt, hc.effect, h⟩
  have hunique : ∀ {s : EvmSystem}, EvmReachable n D anything s → ∀ t,
      ∀ p ∈ s.config.state.db.payments, ∀ q ∈ s.config.state.db.payments,
        PaysFor p t → PaysFor q t → p = q := fun hs t p hp q hq hpt hqt =>
    (hK.inv hs).unique p hp q hq t.txHash (hpt.network.trans hqt.network.symm) hpt.txHash hqt.txHash
  refine ⟨hunique hs, ?_, ?_⟩
  · intro pid t input s' ht hs' i hi i' hi' hid hne s'' hleads
    rcases hstep hs ht hs' with hrows | ⟨j, paymentId, detectedAt, he, hinv, hnet, htoken⟩
    · exact absurd (Data.Table.eq_of_key ((hrows.invoices i').1 hi') hi hid) hne
    -- the commit changes the invoice that it was matched to, and creates its payment
    have hji : i.id = j.id := by
      by_contra hji
      have hsame := Commit.onInvoice_of_ne (m := .detect j t paymentId detectedAt) (i := i)
        (by rintro u ⟨⟩; exact hji)
      exact hne ((he.invoice_eq hi hi' hid).trans hsame)
    obtain ⟨row, hrow, hterms⟩ := hinv
    have hij : j.terms = i.terms := by
      rw [← hterms, Data.Table.eq_of_key hrow hi ((terms_id hterms).trans hji.symm)]
    have hp : (detectedPayment paymentId detectedAt j t).row s.config.state.clock ∈
        s'.config.state.db.payments := (he.payments _).2 (.inr ⟨_, rfl, rfl⟩)
    have hi₁ : HasInvoice i s'.config.state.db := HasInvoice.commit ⟨i, hi, rfl⟩ he
    have hs₁ : EvmReachable n D anything s' := .step _ hs (fun _ _ _ _ _ _ _ => trivial) hs'
    obtain ⟨hs₂, hinvs, hpays⟩ := Ledger.leads_keeps hK hs₁ hleads
    obtain ⟨p, hp, hpterms⟩ := hpays _ ⟨_, hp, rfl⟩
    obtain ⟨i'', hi'', hi''terms⟩ := hinvs i hi₁
    have hpt : PaysFor p t := PaysFor.congr ⟨hnet, rfl⟩ hpterms
    refine ⟨p, hp, hpt, fun q hq hqt => hunique hs₂ t q hq p hp hqt hpt, i'', hi'', hi''terms, ?_⟩
    exact (detectedPayment_charges htoken).congr hpterms (hi''terms.trans hij.symm)
  · rintro pid t input s' ht hs' ⟨p, hp, hpt⟩
    rcases hstep hs ht hs' with hrows | ⟨j, paymentId, detectedAt, he, -, hnet, -⟩
    · exact hrows
    · -- a second payment would break the constraint on the transaction
      exact absurd hpt.txHash (he.freshTxHash _ rfl p hp (hpt.network.trans hnet.symm))

/-! ## A race -/

/-- Pass 1 has read one invoice as its candidate and pass 3 another, for the same
    transaction, and pass 1 has committed. -/
def race : List EvmMove :=
  sampleInvoiceAs 0 "1" ++ sampleScanAs 1 "1" ++ sampleInvoiceAs 2 "2" ++ sampleScanAs 3 "2" ++
    [.perform 1 .ok]

/-- The scan passes in flight, by their process ids. -/
def EvmSystem.scans (s : EvmSystem) : List ℕ :=
  s.procs.filterMap fun q => match q.job with
    | .scan => some q.pid
    | _ => none

theorem EvmSystem.mem_scans (h : pid ∈ s.scans) : ∃ q ∈ s.procs, q.pid = pid ∧ q.job = .scan := by
  obtain ⟨q, hq, hs⟩ := List.mem_filterMap.mp h
  split at hs
  · rename_i hjob
    exact ⟨q, hq, Option.some.inj hs, hjob⟩
  · cases hs

set_option maxRecDepth 8000 in
set_option synthInstance.maxSize 1000 in
/-- The pass that loses the race changes no row. -/
theorem exactly_once_race : ∃ s s', EvmReachable ⟨true, false⟩ sample anything s ∧
    evmStep ⟨true, false⟩ sample s (.perform 3 .ok) = some s' ∧
      s.invoices = [("inv_2", .pending), ("inv_1", .detected)] ∧
        Matching s 3 sampleTransfer ∧ s.config.state.db.SameRows s'.config.state.db := by
  obtain ⟨s, s', hs, hstep, hx⟩ : ∃ s s', EvmReachable ⟨true, false⟩ sample anything s ∧
      evmStep ⟨true, false⟩ sample s (.perform 3 .ok) = some s' ∧
        (s.invoices, lastMark 3 s.config.trace, s.scans,
          s.config.state.db.payments.rows.map fun p => (p.network, p.txHash)) =
        ([("inv_2", .pending), ("inv_1", .detected)], some (.passed sampleTransfer), [1, 3],
          [("base", some "0x1")]) :=
    evmStep_view sampleWorld_unused race (by decide)
  simp only [Prod.mk.injEq] at hx
  obtain ⟨hinv, hmark, hscans, hpays⟩ := hx
  have hmatch : Matching s 3 sampleTransfer :=
    ⟨EvmSystem.mem_scans (hscans ▸ by decide), hmark⟩
  obtain ⟨p, hp, heq⟩ : ∃ p ∈ s.config.state.db.payments.rows,
      (p.network, p.txHash) = ("base", some "0x1") :=
    List.mem_map.mp (hpays ▸ List.mem_singleton_self _)
  have hpt : PaysFor p sampleTransfer := ⟨congrArg Prod.fst heq, congrArg Prod.snd heq⟩
  exact ⟨s, s', hs, hstep, hinv, hmatch,
    (exactly_once ⟨true, false⟩ sample hs).loses 3 _ _ s' hmatch hstep ⟨p, hp, hpt⟩⟩

end CryptoPay.Worker
