import CryptoPay.Api.Ticks
import CryptoPay.Data.Ranges
import CryptoPay.Payments.CalmSteps

/-!
# A tick that nothing disturbs

One tick of the API process alone (`calm`), from a state in which no other tick is in flight:
the database is reached, generated ids are new and the clock does not go back.

Results:
* `calm_detectNewPayments`: if the amounts fit their columns, every transfer that the scan
  returns is recorded, unless the invoice that awaits it was paid by another.
* `calm_advanceConfirmations`: every active payment is taken one step further.
* `calm_tick`: a tick returns, and does both.
-/

namespace CryptoPay.Api

open Async Data Fake

/-- The memory of the API process, while the process is not restarted. -/
def steady (blockTime : BlockTime) : Backend fakeCalls Memory Chance Empty where
  respond := Fake.respond blockTime
  env _ act := act.elim
  restarts act := act.elim
  tick _ _ := true

/-- The payment is on the registered network, and names a transaction. -/
def OnChain (p : Payment) : Prop := p.network = "base" ∧ ∃ txHash, p.txHash = some txHash ∧ txHash ≠ ""

/-- What a tick needs to run to its end: the transfers and the amounts are what they should be. -/
structure Ready (w : World Memory) : Prop where
  transfers : ∀ n, ∀ t ∈ w.other.adapter.transfersByBlock n,
    t.network = "base" ∧ t.txHash ≠ "" ∧ t.amount.fitsColumn = true
  payments : ∀ p ∈ w.db.payments, OnChain p
  amounts : ∀ i ∈ w.db.invoices, i.amount.fitsColumn = true

/-- `p'` is the active payment `p` one step further: `answer` is what the chain says of its
    transaction. -/
structure Advanced (requiredConfirmations : ℤ) (answer : Except Error ℤ) (p p' : Payment) : Prop where
  id : p'.id = p.id
  missing : ∀ e, answer = .error e → p'.status = .failed
  counted : ∀ n, answer = .ok n → p'.confirmations = n
  detected : ∀ n, answer = .ok n → p.status = .detected → p'.status = .confirming
  confirming : ∀ n, answer = .ok n → p.status = .confirming → n < requiredConfirmations →
    p'.status = .confirming
  final : ∀ n, answer = .ok n → p.status = .confirming → requiredConfirmations ≤ n →
    p'.status = p.amountMatch.outcome.1

/-- The transfer is recorded, or the invoice has a payment all the same. -/
def Handled (t : TokenTransfer) (i : Invoice) (db : Db) : Prop :=
  (∃ p ∈ db.payments, PaysFor p t) ∨ ∃ p ∈ db.payments, p.invoiceId = i.id

variable {C : Config} {pid : ℕ} {w w₁ w' : World Memory} {evs : List (Event (effects fakeCalls))}
  {x : Except Error Unit}

/-- Such a run is one of the API process. -/
theorem steady_runs {b : BlockTime} {α : Type} {p : Service α} {x : Except Error α}
    (h : Runs (calm (steady b)) pid p w evs x w') : Runs (machine (backend b)) pid p w evs x w' := by
  have hsame : ∀ (w : World Memory) (op : Op fakeCalls) (i : Input Chance),
      respond (steady b) pid w op i = respond (backend b) pid w op i := by
    intro w op i
    cases op <;> rfl
  refine Runs.imp (N := machine (backend b)) (fun w op i y hr => ?_)
    (fun w₁ act w₂ henv _ => ?_) h
  · obtain ⟨r, w'⟩ := y
    exact (hsame w op i).symm.trans (calm_respond hr).2
  have hact := (calm_env henv).2
  cases act with
  | clock t => exact ⟨.clock t, hact, rfl⟩
  | reorderInvoices rows => exact ⟨.reorderInvoices rows, hact, rfl⟩
  | reorderPayments rows => exact ⟨.reorderPayments rows, hact, rfl⟩
  | other e => exact e.elim

/-- A phase of a tick keeps the invoices and the payments in step, and the flag set. -/
theorem phase_keeps {p : Service Unit} (hp : (ticks C).protocol.Valid Job.tick pid
    (Held pid fun _ => True) p (fun _ => Held pid fun _ => True) (Failed pid))
    (hI : Inv ⟨w, []⟩) (hflag : w.other.ticking = some pid)
    (h : Runs (calm (steady C.blockTime)) pid p w evs (.ok ()) w') :
    Inv ⟨w', []⟩ ∧ w'.other.ticking = some pid := by
  have hstable : (ticks C).protocol.Stable Job.tick pid (Held pid fun _ => True) :=
    (Kept.trivially.fact).stable
  obtain ⟨hI', hheld, -⟩ := hp.runs (ticks_sound C) (fun _ _ _ => trivial) hstable (c := ⟨w, []⟩) hI
    ⟨hflag, trivial⟩ (steady_runs h)
  exact ⟨⟨hI'.coupled, hI'.log⟩, (hheld () rfl).1⟩

/-! ## Detection -/

/-- What a call of `tryMatchTransfer` leaves for the calls after it. -/
structure Matching (all : List TokenTransfer) (w₀ w : World Memory) : Prop where
  beside : Beside w₀ w
  kept : ∀ p ∈ w₀.db.payments, p ∈ w.db.payments
  new : ∀ p ∈ w.db.payments, p ∈ w₀.db.payments ∨ ∃ t ∈ all, PaysFor p t
  invoices : ∀ i ∈ w₀.db.invoices, i ∈ w.db.invoices ∨ ∃ p ∈ w.db.payments, p.invoiceId = i.id

theorem Matching.congr {all : List TokenTransfer} (h : Matching all w w₁) (hl : Later w₁ w') :
    Matching all w w' where
  beside := h.beside.trans hl.beside
  kept p hp := (hl.rows.payments p).2 (h.kept p hp)
  new p hp := h.new p ((hl.rows.payments p).1 hp)
  invoices i hi := by
    rcases h.invoices i hi with hi | ⟨p, hp, hpi⟩
    · exact .inl ((hl.rows.invoices i).2 hi)
    · exact .inr ⟨p, (hl.rows.payments p).2 hp, hpi⟩

/-- Later commits change neither what a payment is for nor whose it is. -/
theorem Handled.mono {t : TokenTransfer} {i : Invoice} {db db' : Db} (h : Handled t i db)
    (hp : ∀ p ∈ db.payments, HasPayment p db') : Handled t i db' := by
  rcases h with ⟨p, hmem, hpt⟩ | ⟨p, hmem, hpi⟩
  · obtain ⟨p', hp', hterms⟩ := hp p hmem
    exact .inl ⟨p', hp', hpt.congr hterms⟩
  · obtain ⟨p', hp', hterms⟩ := hp p hmem
    exact .inr ⟨p', hp', (terms_invoiceId hterms).trans hpi⟩

/-- One transfer. -/
theorem calm_tryMatchTransfer {all : List TokenTransfer} {t : TokenTransfer} (ht : t ∈ all)
    (hfits : t.amount.fitsColumn = true) (hamounts : ∀ i ∈ w₁.db.invoices, i.amount.fitsColumn = true)
    (hm : Matching all w w₁)
    (h : Runs (calm (steady C.blockTime)) pid (tryMatchTransfer t) w₁ evs x w') :
    x = .ok () ∧ Matching all w w' ∧ (∀ p ∈ w₁.db.payments, p ∈ w'.db.payments) ∧
      ∀ i ∈ w.db.invoices, Awaits i t → Handled t i w'.db := by
  obtain ⟨rfl, hbeside⟩ := matchTransfer_returns hfits hamounts h
  have hmatched := lone_matchTransfer (calm_runs h)
  have hkept : ∀ p ∈ w₁.db.payments, p ∈ w'.db.payments := fun p => hmatched.payments.1
  refine ⟨rfl, ⟨hm.beside.trans hbeside, fun p hp => hkept p (hm.kept p hp), fun p hp => ?_,
    fun i hi => ?_⟩, hkept, fun i hi ha => ?_⟩
  · rcases hmatched.payments.2 hp with hp | hpt
    · exact hm.new p hp
    · exact .inr ⟨t, ht, hpt⟩
  · rcases hm.invoices i hi with hstored | ⟨p, hp, hpi⟩
    · rcases hmatched.keeps hstored with hstored | ⟨paymentId, detectedAt, now, hcredit⟩
      · exact .inl hstored
      · exact .inr ⟨_, (hcredit.payments _).2 (.inr rfl), rfl⟩
    · exact .inr ⟨p, hkept p hp, hpi⟩
  · rcases hm.invoices i hi with hstored | ⟨p, hp, hpi⟩
    · cases hmatched with
      | unclaimed hno rows => exact absurd ha (hno i hstored)
      | seen hseen rows =>
        obtain ⟨p, hp, hpt⟩ := hseen
        exact .inl ⟨p, hkept p hp, hpt⟩
      | credited hcredit =>
        exact .inl ⟨_, (hcredit.payments _).2 (.inr rfl), hcredit.awaits.network, rfl⟩
    · exact .inr ⟨p, hkept p hp, hpi⟩

/-- The loop over the transfers. -/
theorem calm_tryMatchTransfers {all : List TokenTransfer}
    (hall : ∀ t ∈ all, t.amount.fitsColumn = true)
    (hamounts : ∀ i ∈ w.db.invoices, i.amount.fitsColumn = true)
    (h : Runs (calm (steady C.blockTime)) pid (.forEach tryMatchTransfer all) w evs x w') :
    x = .ok () ∧ Matching all w w' ∧
      ∀ t ∈ all, ∀ i ∈ w.db.invoices, Awaits i t → Handled t i w'.db := by
  -- while the transfers `ts` remain
  let I : List TokenTransfer → World Memory → Prop := fun ts v => Matching all w v ∧
    (∀ t ∈ ts, t ∈ all) ∧
    ∀ t ∈ all, t ∈ ts ∨ ∀ i ∈ w.db.invoices, Awaits i t → Handled t i v.db
  have hdrift : ∀ ts v v', Drifts (calm (steady C.blockTime)) v v' → I ts v → I ts v' := by
    rintro ts v v' hd ⟨hm, hts, hdone⟩
    have hl := calm_drifts hd
    refine ⟨hm.congr hl, hts, fun t ht => (hdone t ht).imp_right fun hh i hi ha => ?_⟩
    exact (hh i hi ha).mono fun p hp => ⟨p, (hl.rows.payments p).2 hp, rfl⟩
  have hbody : ∀ t ts v evs x v', I (t :: ts) v →
      Runs (calm (steady C.blockTime)) pid (tryMatchTransfer t) v evs x v' →
      x = .ok () ∧ I ts v' := by
    rintro t ts v evs x v' ⟨hm, hts, hdone⟩ hrun
    have ht := hts t List.mem_cons_self
    obtain ⟨hx, hm', hkept, hhandled⟩ :=
      calm_tryMatchTransfer ht (hall t ht) (hm.beside.fits hamounts) hm hrun
    refine ⟨hx, hm', fun u hu => hts u (List.mem_cons_of_mem t hu), fun u hu => ?_⟩
    rcases hdone u hu with hmem | hh
    · rcases List.mem_cons.mp hmem with rfl | hmem
      · exact .inr hhandled
      · exact .inl hmem
    · exact .inr fun i hi ha => (hh i hi ha).mono fun p hp => ⟨p, hkept p hp, rfl⟩
  have hstart : I all w := ⟨⟨(Later.refl w).beside, fun p hp => hp, fun p hp => .inl hp,
    fun i hi => .inl hi⟩, fun t ht => ht, fun t ht => .inl ht⟩
  obtain ⟨hx, hm, -, hdone⟩ := Runs.forEach_returns hdrift hbody h hstart
  exact ⟨hx, hm, fun t ht => (hdone t ht).resolve_left List.not_mem_nil⟩

/-- A call that reads the memory only. -/
theorem calm_reads (call : Call) (hread : ∀ b pid t o k (r : fakeCalls.Ret call) o',
    Fake.respond b pid t o call k = some (r, o') → o' = o) {x : Except Error (fakeCalls.Ret call)}
    (h : Runs (calm (steady C.blockTime)) pid (.perform (S := effects fakeCalls) (.other call)) w evs
      x w') : ∃ t k r, Fake.respond C.blockTime pid t w.other call k = some (r, w.other) ∧
        x = .ok r ∧ Later w w' ∧ w.clock ≤ t ∧ t ≤ w'.clock := by
  have h : Runs (calm (steady C.blockTime)) pid
    (.request (S := effects fakeCalls) (.other call) .ok) w evs x w' := h
  obtain ⟨t, k, r, hr, rfl, hlater, -, hle, hle'⟩ := calm_other (hread C.blockTime) h
  exact ⟨t, k, r, hr, rfl, hlater, hle, hle'⟩

/-- `getLatestBlock`. -/
theorem calm_getLatestBlock {x : Except Error ℤ}
    (h : Runs (calm (steady C.blockTime)) pid adapter.getLatestBlock w evs x w') :
    ∃ t, x = .ok (currentBlock C.blockTime t w.other.adapter) ∧ Later w w' ∧ w.clock ≤ t ∧
      t ≤ w'.clock := by
  obtain ⟨t, k, r, hr, rfl, hlater, hle, hle'⟩ := calm_reads .getLatestBlock
    (fun b pid t o k r o' hr => by cases k <;> cases hr; rfl) h
  cases k <;> cases hr
  exact ⟨t, rfl, hlater, hle, hle'⟩

/-- `this.lastScannedBlock`. -/
theorem calm_lastScannedBlock {x : Except Error ℤ}
    (h : Runs (calm (steady C.blockTime)) pid lastScannedBlock w evs x w') :
    x = .ok w.other.lastScannedBlock ∧ Later w w' := by
  obtain ⟨t, k, r, hr, rfl, hlater, -, -⟩ := calm_reads .lastScannedBlock
    (fun b pid t o k r o' hr => by cases k <;> cases hr; rfl) h
  cases k <;> cases hr
  exact ⟨rfl, hlater⟩

/-- `getTokenTransfers`. -/
theorem calm_getTokenTransfers {a b : ℤ} {x : Except Error (List TokenTransfer)}
    (h : Runs (calm (steady C.blockTime)) pid (adapter.getTokenTransfers a b) w evs x w') :
    x = .ok (getTokenTransfers w.other.adapter a b) ∧ Later w w' := by
  obtain ⟨t, k, r, hr, rfl, hlater, -, -⟩ := calm_reads (.getTokenTransfers a b)
    (fun b pid t o k r o' hr => by cases k <;> cases hr; rfl) h
  cases k <;> cases hr
  exact ⟨rfl, hlater⟩

/-- `getConfirmations`. -/
theorem calm_getConfirmations {txHash : String} {x : Except Error ℤ}
    (h : Runs (calm (steady C.blockTime)) pid (adapter.getConfirmations txHash) w evs x w') :
    ∃ t, x = getConfirmations C.blockTime t w.other.adapter txHash ∧ Later w w' ∧ w.clock ≤ t ∧
      t ≤ w'.clock := by
  have h : Runs (calm (steady C.blockTime)) pid
    (.request (S := effects fakeCalls) (.other (.getConfirmations txHash)) id) w evs x w' := h
  obtain ⟨t, k, r, hr, rfl, hlater, -, hle, hle'⟩ := calm_other
    (fun pid t o k r o' hr => by cases k <;> cases hr; rfl) h
  cases k <;> cases hr
  exact ⟨t, rfl, hlater, hle, hle'⟩

/-- A call that writes the memory. -/
theorem calm_writes {call : Call} {x : Except Error (fakeCalls.Ret call)}
    (h : Runs (calm (steady C.blockTime)) pid (.perform (S := effects fakeCalls) (.other call)) w evs
      x w') : ∃ w₁ k r m, Later w w₁ ∧ Fake.respond C.blockTime pid w₁.clock w.other call k = some (r, m) ∧
        x = .ok r ∧ Later { w₁ with other := m } w' := by
  have h : Runs (calm (steady C.blockTime)) pid
    (.request (S := effects fakeCalls) (.other call) .ok) w evs x w' := h
  obtain ⟨w₁, k, r, m, hlater, hr, rfl, hlater', -⟩ := calm_call h
  exact ⟨w₁, k, r, m, hlater, hr, rfl, hlater'⟩

/-- The rows stay, and of the memory only the two fields of the service change. -/
structure Around (w w' : World Memory) : Prop where
  rows : w.db.SameRows w'.db
  adapter : w'.other.adapter = w.other.adapter
  clock : w.clock ≤ w'.clock

theorem Around.of_writes {m : Memory} (h : Later w w₁) (hm : m.adapter = w.other.adapter)
    (h' : Later { w₁ with other := m } w') : Around w w' where
  rows := h.rows.trans h'.rows
  adapter := (congrArg Memory.adapter h'.other).trans hm
  clock := le_trans h.clock h'.clock

/-- What `detectNewPayments` leaves. -/
structure Scanned (C : Config) (w w' : World Memory) : Prop where
  adapter : w'.other.adapter = w.other.adapter
  kept : ∀ p ∈ w.db.payments, p ∈ w'.db.payments
  onChain : ∀ p ∈ w'.db.payments, OnChain p
  recorded : ∃ t, w.clock ≤ t ∧ t ≤ w'.clock ∧ ∀ tr ∈ getTokenTransfers w.other.adapter
    (w.other.lastScannedBlock + 1) (currentBlock C.blockTime t w.other.adapter),
    ∀ i ∈ w.db.invoices, Awaits i tr → Handled tr i w'.db

theorem getTokenTransfers_empty {chain : Chain} {a b : ℤ} (h : b < a) :
    getTokenTransfers chain a b = [] := by
  unfold getTokenTransfers
  rw [show (b - a + 1).toNat = 0 by omega]
  rfl

theorem calm_detectNewPayments (hready : Ready w)
    (h : Runs (calm (steady C.blockTime)) pid detectNewPayments w evs x w') :
    x = .ok () ∧ Scanned C w w' := by
  obtain ⟨latestBlock, w₁, _, _, -, hlatest, h⟩ := Runs.bind_returns (p := adapter.getLatestBlock) h
    fun _ _ _ hrun => by
      obtain ⟨t, hx, -⟩ := calm_getLatestBlock (C := C) hrun
      exact ⟨_, hx⟩
  obtain ⟨t, ⟨⟩, hlater₁, hle, hle'⟩ := calm_getLatestBlock (C := C) hlatest
  obtain ⟨scanned, w₂, _, _, -, hscanned, h⟩ := Runs.bind_returns (p := lastScannedBlock) h
    fun _ _ _ hrun => ⟨_, (calm_lastScannedBlock (C := C) hrun).1⟩
  obtain ⟨⟨⟩, hlater₂⟩ := calm_lastScannedBlock (C := C) hscanned
  have hlater : Later w w₂ := hlater₁.trans hlater₂
  have hadvance : ∀ {v : World Memory} {evs x}, Runs (calm (steady C.blockTime)) pid
      (advanceLastScannedBlock (currentBlock C.blockTime t w.other.adapter)) v evs x w' →
      x = .ok () ∧ Around v w' := by
    intro v evs x hrun
    obtain ⟨v₁, k, r, m, hl, hr, rfl, hl'⟩ := calm_writes (C := C) hrun
    cases k <;> cases hr
    refine ⟨rfl, .of_writes hl ?_ hl'⟩
    rfl
  rw [hlater₁.other] at h
  by_cases hnew : currentBlock C.blockTime t w.other.adapter > w.other.lastScannedBlock
  · rw [if_pos hnew] at h
    obtain ⟨transfers, w₃, _, _, -, hfetch, h⟩ := Runs.bind_returns
      (p := adapter.getTokenTransfers _ _) h
      fun _ _ _ hrun => ⟨_, (calm_getTokenTransfers (C := C) hrun).1⟩
    obtain ⟨⟨⟩, hlater₃⟩ := calm_getTokenTransfers (C := C) hfetch
    have hlater' : Later w w₃ := hlater.trans hlater₃
    rw [hlater.other] at h
    have hgenuine : ∀ tr ∈ getTokenTransfers w.other.adapter (w.other.lastScannedBlock + 1)
        (currentBlock C.blockTime t w.other.adapter),
        tr.network = "base" ∧ tr.txHash ≠ "" ∧ tr.amount.fitsColumn = true := by
      intro tr htr
      have hscan : tr ∈ Data.scan w.other.adapter.transfersByBlock (w.other.lastScannedBlock + 1)
        (currentBlock C.blockTime t w.other.adapter) := htr
      obtain ⟨n, -, -, hmem⟩ := Data.mem_scan.mp hscan
      exact hready.transfers n tr hmem
    have hamounts : ∀ i ∈ w₃.db.invoices, i.amount.fitsColumn = true :=
      hlater'.beside.fits hready.amounts
    have hloop : ∀ {evs x w₄}, Runs (calm (steady C.blockTime)) pid (.forEach tryMatchTransfer
        (getTokenTransfers w.other.adapter (w.other.lastScannedBlock + 1)
          (currentBlock C.blockTime t w.other.adapter))) w₃ evs x w₄ → _ := fun hrun =>
      calm_tryMatchTransfers (C := C) (fun tr htr => (hgenuine tr htr).2.2) hamounts hrun
    obtain ⟨⟨⟩, w₄, _, _, -, hmatch, h⟩ := Runs.bind_returns (p := Prog.forEach tryMatchTransfer _) h
      fun _ _ _ hrun => ⟨(), (hloop hrun).1⟩
    obtain ⟨-, hm, hdone⟩ := hloop hmatch
    obtain ⟨rfl, haround⟩ := hadvance h
    refine ⟨rfl, ?_, fun p hp => ?_, fun p hp => ?_, t, hle, ?_, fun tr htr i hi ha => ?_⟩
    · rw [haround.adapter, hm.beside.other, hlater'.other]
    · exact (haround.rows.payments p).2 (hm.kept p ((hlater'.rows.payments p).2 hp))
    · rcases hm.new p ((haround.rows.payments p).1 hp) with hold | ⟨tr, htr, hpt⟩
      · exact hready.payments p ((hlater'.rows.payments p).1 hold)
      · obtain ⟨hnetwork, hne, -⟩ := hgenuine tr htr
        exact ⟨hpt.network.trans hnetwork, tr.txHash, hpt.txHash, hne⟩
    · refine le_trans hle' (le_trans hlater₂.clock (le_trans hlater₃.clock ?_))
      exact le_trans (calm_clock hmatch) haround.clock
    · refine (hdone tr htr i ((hlater'.rows.invoices i).2 hi) ha).mono fun p hp => ?_
      exact ⟨p, (haround.rows.payments p).2 hp, rfl⟩
  · -- no block since the last tick
    rw [if_neg hnew] at h
    obtain ⟨rfl, haround⟩ := hadvance h
    have hrows : w.db.SameRows w'.db := hlater.rows.trans haround.rows
    refine ⟨rfl, ?_, fun p hp => (hrows.payments p).2 hp, fun p hp => ?_, t, hle, ?_, fun tr htr => ?_⟩
    · rw [haround.adapter, hlater.other]
    · exact hready.payments p ((hrows.payments p).1 hp)
    · exact le_trans hle' (le_trans hlater₂.clock haround.clock)
    · rw [getTokenTransfers_empty (by omega)] at htr
      exact absurd htr List.not_mem_nil

/-! ## Confirmations -/

/-- Only the payment, and its invoice, may have changed. -/
structure Leaves (p : PaymentWithInvoice) (w w' : World Memory) : Prop where
  other : w'.other = w.other
  stored : ∀ q, Stored q w.db → q.id ≠ p.id → q.invoice.id ≠ p.invoiceId → Stored q w'.db
  payments : ∀ q ∈ w.db.payments, q.id ≠ p.id → q ∈ w'.db.payments
  terms : ∀ q ∈ w.db.payments, HasPayment q w'.db

variable {p : PaymentWithInvoice} {m : Commit} {t : Time} {n : ℤ}

theorem Leaves.of_later (h : Later w w') : Leaves p w w' where
  other := h.other
  stored _ hq _ _ := hq.congr h.rows
  payments q hq _ := (h.rows.payments q).2 hq
  terms q hq := ⟨q, (h.rows.payments q).2 hq, rfl⟩

theorem Leaves.of_made (h : Made m t w w') (hpu : ∀ u, m.paymentUpdate = some u → u.1 = p.id)
    (hiu : ∀ u, m.invoiceUpdate = some u → u.1 = p.invoiceId) : Leaves p w w' where
  other := h.other
  stored _ hq hne hinvoice := h.stored hq (fun u hu => by rw [hpu u hu]; exact hne)
    fun u hu => by rw [hiu u hu]; exact hinvoice
  payments _ hq hne := by
    have hkept := h.payment hq
    rwa [Commit.onPayment_of_ne fun u hu => by rw [hpu u hu]; exact hne] at hkept
  terms q hq := ⟨_, h.payment hq, m.terms_onPayment t q⟩

theorem Leaves.of_later_left (h : Later w w₁) (h' : Leaves p w₁ w') : Leaves p w w' where
  other := h'.other.trans h.other
  stored q hq := h'.stored q (hq.congr h.rows)
  payments q hq := h'.payments q ((h.rows.payments q).2 hq)
  terms q hq := h'.terms q ((h.rows.payments q).2 hq)

/-- `failOrphanedPayment`. -/
theorem calm_failOrphanedPayment (hs : Stored p w.db)
    (hpair : Paired (some p.status) p.invoice.status)
    (hactive : p.status = .detected ∨ p.status = .confirming)
    (h : Runs (calm (steady C.blockTime)) pid (failOrphanedPayment p) w evs x w') :
    x = .ok () ∧ Leaves p w w' ∧ ∀ e, ∃ p' ∈ w'.db.payments,
      Advanced C.requiredConfirmations (.error e) p.toPayment p' := by
  have heq : (failOrphanedPayment p : Service Unit) = transaction (Commit.fail p).writes := by
    rcases hactive with hst | hst <;> rw [hst] at hpair <;>
      exact failAttempt_eq (by rw [hst]; rfl) (by rw [show p.invoice.status = _ from hpair]; rfl)
  rw [heq] at h
  have hacc : (Commit.fail p).Acceptable w.db :=
    hs.present.acceptable rfl rfl (by rintro _ ⟨⟩; rfl) (by rintro _ ⟨⟩; rfl) nofun
  obtain ⟨hx, t, hmade⟩ := calm_made hacc h
  refine ⟨hx, .of_made hmade (by rintro _ ⟨⟩; rfl) (by rintro _ ⟨⟩; rfl),
    fun e => ⟨_, hmade.updated hs rfl, rfl, fun _ _ => rfl, ?_, ?_, ?_, ?_⟩⟩ <;> rintro n ⟨⟩

/-- The loop body of `advanceConfirmations`, after the chain has answered with a count. -/
theorem calm_advanceWith (hs : Stored p w.db)
    (hactive : p.status = .detected ∨ p.status = .confirming)
    (h : Runs (calm (steady C.blockTime)) pid (advanceWith C.requiredConfirmations p n) w evs x w') :
    x = .ok () ∧ Leaves p w w' ∧ ∃ p' ∈ w'.db.payments,
      Advanced C.requiredConfirmations (.ok n) p.toPayment p' := by
  unfold advanceWith at h
  split_ifs at h with hdetected hless hsame
  · have h : Runs (calm (steady C.blockTime)) pid (transaction (Commit.confirm p n).writes) w evs x
      w' := by
      have heq : (moveToConfirming p n : Service Unit) = transaction (Commit.confirm p n).writes := rfl
      rwa [heq] at h
    have hacc : (Commit.confirm p n).Acceptable w.db :=
      hs.present.acceptable rfl rfl (by rintro _ ⟨⟩; rfl) (by rintro _ ⟨⟩; rfl) nofun
    obtain ⟨hx, t, hmade⟩ := calm_made hacc h
    refine ⟨hx, .of_made hmade (by rintro _ ⟨⟩; rfl) (by rintro _ ⟨⟩; rfl), _, hmade.updated hs rfl,
      rfl, nofun, by rintro _ ⟨⟩; rfl, by rintro _ ⟨⟩ _; rfl, by rintro _ ⟨⟩ _ _; rfl, ?_⟩
    intro n' _ hconfirming
    rw [hdetected] at hconfirming
    cases hconfirming
  · have hst : p.status = .confirming := hactive.resolve_left hdetected
    have h : Runs (calm (steady C.blockTime)) pid (transaction (Commit.refresh p n).writes) w evs x
      w' := h
    have hacc : (Commit.refresh p n).Acceptable w.db :=
      hs.present.acceptable rfl rfl (by rintro _ ⟨⟩; rfl) nofun nofun
    obtain ⟨hx, t, hmade⟩ := calm_made hacc h
    refine ⟨hx, .of_made hmade (by rintro _ ⟨⟩; rfl) nofun, _, hmade.updated hs rfl,
      rfl, nofun, by rintro _ ⟨⟩; rfl, fun _ _ hd => absurd hd hdetected,
      by rintro _ ⟨⟩ _ _; exact hst, ?_⟩
    rintro _ ⟨⟩ _ hle
    exact absurd hless (not_lt.mpr hle)
  · -- the stored count is the same
    have hst : p.status = .confirming := hactive.resolve_left hdetected
    obtain ⟨-, rfl, hd⟩ := h.ret_inv
    have hlater := calm_drifts hd
    refine ⟨rfl, .of_later hlater, p.toPayment, (hlater.rows.payments _).2 hs.payment, rfl, nofun,
      ?_, fun _ _ hd => absurd hd hdetected, by rintro _ ⟨⟩ _ _; exact hst, ?_⟩
    · rintro _ ⟨⟩
      exact (not_ne_iff.mp hsame).symm
    · rintro _ ⟨⟩ _ hle
      exact absurd hless (not_lt.mpr hle)
  · obtain ⟨hx, confirmedAt, paidAt, eventId, t, -, -, hmade, -⟩ := calm_settlePayment hs.present h
    refine ⟨hx, .of_made hmade (by rintro _ ⟨⟩; rfl) (by rintro _ ⟨⟩; rfl), _,
      hmade.updated hs rfl, rfl, nofun, by rintro _ ⟨⟩; rfl, fun _ _ hd => absurd hd hdetected, ?_,
      by rintro _ ⟨⟩ _ _; rfl⟩
    rintro _ ⟨⟩ _ hlt
    exact absurd hlt hless

/-- The payment is one step further than `p`, by what the chain said between the two times. -/
def HasAdvanced (C : Config) (chain : Chain) (from' to' : Time) (p : Payment) (db : Db) : Prop :=
  ∃ t, from' ≤ t ∧ t ≤ to' ∧ ∃ p' ∈ db.payments,
    Advanced C.requiredConfirmations (getConfirmations C.blockTime t chain (p.txHash.getD "")) p p'

/-- The loop body of `advanceConfirmations`. -/
theorem calm_advancePayment (hs : Stored p w.db) (hpair : Paired (some p.status) p.invoice.status)
    (hactive : p.status = .detected ∨ p.status = .confirming) (hchain : OnChain p.toPayment)
    (h : Runs (calm (steady C.blockTime)) pid (advancePayment C.requiredConfirmations p) w evs x w') :
    x = .ok () ∧ Leaves p w w' ∧ HasAdvanced C w.other.adapter w.clock w'.clock p.toPayment w'.db := by
  obtain ⟨hnetwork, txHash, hhash, hne⟩ := hchain
  unfold advancePayment at h
  rw [hhash] at h
  dsimp only at h
  rw [if_neg hne] at h
  have hask : confirmationsOf p txHash = adapter.getConfirmations txHash := by
    unfold confirmationsOf registryGet
    rw [if_pos hnetwork]
    rfl
  rw [hask] at h
  obtain ⟨answer, w₁, _, _, -, hattempt, h⟩ := h.bind_returns fun _ _ _ hrun => by
    obtain ⟨y, hx, -⟩ := hrun.attempt_inv
    exact ⟨y, hx⟩
  obtain ⟨y, ⟨⟩, hget⟩ := hattempt.attempt_inv
  obtain ⟨t, hanswer, hlater, hle, hle'⟩ := calm_getConfirmations (C := C) hget
  have hs₁ : Stored p w₁.db := hs.congr hlater.rows
  have hdone : ∀ {p' : Payment}, p' ∈ w'.db.payments → w₁.clock ≤ w'.clock →
      Advanced C.requiredConfirmations answer p.toPayment p' →
      HasAdvanced C w.other.adapter w.clock w'.clock p.toPayment w'.db := by
    intro p' hp' hclock hadvanced
    refine ⟨t, hle, le_trans hle' hclock, p', hp', ?_⟩
    rw [hhash]
    exact hanswer ▸ hadvanced
  have hclock := calm_clock h
  cases answer with
  | ok n =>
    obtain ⟨hx, hleaves, p', hp', hadvanced⟩ := calm_advanceWith (C := C) hs₁ hactive h
    exact ⟨hx, .of_later_left hlater hleaves, hdone hp' hclock hadvanced⟩
  | error e =>
    -- the chain's only error is that it does not know the transaction
    obtain ⟨message, rfl⟩ : ∃ message, e = .notFound message := by
      unfold getConfirmations at hanswer
      split at hanswer
      · exact ⟨_, Except.error.inj hanswer⟩
      · cases hanswer
    obtain ⟨hx, hleaves, hfailed⟩ := calm_failOrphanedPayment (C := C) hs₁ hpair hactive h
    obtain ⟨p', hp', hadvanced⟩ := hfailed (.notFound message)
    exact ⟨hx, .of_later_left hlater hleaves, hdone hp' hclock hadvanced⟩

/-- What is known while the payments `ps` of the snapshot `all` remain. -/
structure Advancing (C : Config) (w₀ : World Memory) (all ps : List PaymentWithInvoice)
    (w : World Memory) : Prop where
  apart : ps.Pairwise fun p q => p.id ≠ q.id ∧ p.invoiceId ≠ q.invoiceId
  stored : ∀ p ∈ ps, Stored p w.db
  active : ∀ p ∈ ps, p ∈ all
  other : w.other = w₀.other
  clock : w₀.clock ≤ w.clock
  terms : ∀ q ∈ w₀.db.payments, HasPayment q w.db
  advanced : ∀ p ∈ all, p ∈ ps ∨ (∀ q ∈ ps, q.id ≠ p.id) ∧
    HasAdvanced C w₀.other.adapter w₀.clock w.clock p.toPayment w.db

theorem HasAdvanced.mono {chain : Chain} {a b b' : Time} {q : Payment} {db db' : Db}
    (h : HasAdvanced C chain a b q db) (hb : b ≤ b') (hp : ∀ p ∈ db.payments, p.id = q.id → p ∈ db'.payments) :
    HasAdvanced C chain a b' q db' := by
  obtain ⟨t, hle, hle', p', hp', hadvanced⟩ := h
  exact ⟨t, hle, le_trans hle' hb, p', hp p' hp' hadvanced.id, hadvanced⟩

theorem Advancing.later {all ps : List PaymentWithInvoice} (h : Advancing C w all ps w₁)
    (hl : Later w₁ w') : Advancing C w all ps w' where
  apart := h.apart
  stored p hp := (h.stored p hp).congr hl.rows
  active := h.active
  other := hl.other.trans h.other
  clock := le_trans h.clock hl.clock
  terms q hq := (h.terms q hq).congr hl.rows
  advanced p hp := (h.advanced p hp).imp_right fun ⟨hne, hdone⟩ =>
    ⟨hne, hdone.mono hl.clock fun p' hp' _ => (hl.rows.payments p').2 hp'⟩

theorem Advancing.step {all ps : List PaymentWithInvoice} (h : Advancing C w all (p :: ps) w₁)
    (hleaves : Leaves p w₁ w') (hclock : w₁.clock ≤ w'.clock)
    (hdone : HasAdvanced C w₁.other.adapter w₁.clock w'.clock p.toPayment w'.db) :
    Advancing C w all ps w' := by
  obtain ⟨hp, hps⟩ := List.pairwise_cons.mp h.apart
  refine ⟨hps, fun q hq => ?_, fun q hq => h.active q (List.mem_cons_of_mem p hq),
    hleaves.other.trans h.other, le_trans h.clock hclock, fun q hq => ?_, fun q hq => ?_⟩
  · have hs := h.stored q (List.mem_cons_of_mem p hq)
    exact hleaves.stored q hs (hp q hq).1.symm (hs.id ▸ (hp q hq).2.symm)
  · obtain ⟨q₁, hq₁, hterms⟩ := h.terms q hq
    obtain ⟨q', hq', hterms'⟩ := hleaves.terms q₁ hq₁
    exact ⟨q', hq', hterms'.trans hterms⟩
  · rcases h.advanced q hq with hmem | ⟨hne, hold⟩
    · rcases List.mem_cons.mp hmem with rfl | hmem
      · refine .inr ⟨fun r hr => (hp r hr).1.symm, ?_⟩
        rw [h.other] at hdone
        obtain ⟨t, hle, hle', hrest⟩ := hdone
        exact ⟨t, le_trans h.clock hle, hle', hrest⟩
      · exact .inl hmem
    · refine .inr ⟨fun r hr => hne r (List.mem_cons_of_mem p hr), hold.mono hclock
        fun q' hq' hid => hleaves.payments q' hq' ?_⟩
      rw [hid]
      exact (hne p List.mem_cons_self).symm

/-- `advanceConfirmations`. -/
theorem calm_advanceConfirmations (hI : w.db.Coupled Paired) (hchain : ∀ p ∈ w.db.payments, OnChain p)
    (h : Runs (calm (steady C.blockTime)) pid (advanceConfirmations C.requiredConfirmations) w evs x
      w') : x = .ok () ∧ w'.other = w.other ∧ (∀ q ∈ w.db.payments, HasPayment q w'.db) ∧
      ∀ p ∈ w.db.payments, p.status = .detected ∨ p.status = .confirming →
        HasAdvanced C w.other.adapter w.clock w'.clock p w'.db := by
  obtain ⟨active, w₁, _, _, -, hquery, h⟩ := Runs.bind_returns h fun _ _ _ hrun => by
    obtain ⟨db, -, hx, -⟩ := calm_read (.paymentFindMany [.detected, .confirming])
      (fun db => db.paymentsWithInvoice [.detected, .confirming]) (fun _ _ => rfl) hrun
    exact ⟨_, hx⟩
  obtain ⟨db, hrows, hx, hlater⟩ := calm_read (.paymentFindMany [.detected, .confirming])
    (fun db => db.paymentsWithInvoice [.detected, .confirming]) (fun _ _ => rfl) hquery
  obtain rfl := Except.ok.inj hx
  have hmem : ∀ p, p ∈ db.paymentsWithInvoice [.detected, .confirming] ↔
      Stored p w.db ∧ (p.status = .detected ∨ p.status = .confirming) := by
    intro p
    rw [mem_paymentsWithInvoice, hrows.payments, hrows.invoices]
    simp only [List.mem_cons, List.not_mem_nil, or_false]
    exact ⟨fun ⟨hp, hst, hi, hid⟩ => ⟨⟨hp, hi, hid.symm⟩, hst⟩,
      fun ⟨hs, hst⟩ => ⟨hs.payment, hst, hs.invoice, hs.id.symm⟩⟩
  have hapart : (db.paymentsWithInvoice [.detected, .confirming]).Pairwise
      fun p q => p.id ≠ q.id ∧ p.invoiceId ≠ q.invoiceId := by
    have hnodup := db.nodup_paymentsWithInvoice [.detected, .confirming]
    refine (List.pairwise_map.mp hnodup).imp_of_mem fun {p q} hp hq hne => ⟨hne, fun hinvoice => ?_⟩
    obtain ⟨hps, -⟩ := (hmem p).mp hp
    obtain ⟨hqs, -⟩ := (hmem q).mp hq
    exact hne (congrArg Payment.id (hI.single _ hps.payment _ hqs.payment hinvoice))
  have hstart : Advancing C w (db.paymentsWithInvoice [.detected, .confirming])
      (db.paymentsWithInvoice [.detected, .confirming]) w₁ :=
    ⟨hapart, fun p hp => ((hmem p).mp hp).1.congr hlater.rows, fun p hp => hp, hlater.other,
      hlater.clock, fun q hq => ⟨q, (hlater.rows.payments q).2 hq, rfl⟩, fun p hp => .inl hp⟩
  have hbody : ∀ p ps v evs x v',
      Advancing C w (db.paymentsWithInvoice [.detected, .confirming]) (p :: ps) v →
      Runs (calm (steady C.blockTime)) pid (advancePayment C.requiredConfirmations p) v evs x v' →
      x = .ok () ∧ Advancing C w (db.paymentsWithInvoice [.detected, .confirming]) ps v' := by
    intro p ps v evs x v' hadvancing hrun
    obtain ⟨hs, hst⟩ := (hmem p).mp (hadvancing.active p List.mem_cons_self)
    have hpair := hI.paid _ hs.payment _ hs.invoice hs.id
    obtain ⟨hx, hleaves, hdone⟩ := calm_advancePayment (C := C)
      (hadvancing.stored p List.mem_cons_self) hpair hst (hchain _ hs.payment) hrun
    exact ⟨hx, hadvancing.step hleaves (calm_clock hrun) hdone⟩
  obtain ⟨hx, hend⟩ := Runs.forEach_returns (fun ps v v' hd hadv => hadv.later (calm_drifts hd))
    hbody h hstart
  refine ⟨hx, hend.other, hend.terms, fun p hp hst => ?_⟩
  obtain ⟨i, hi, hcharges⟩ := hI.owned p hp
  have hsnapshot : (⟨p, i⟩ : PaymentWithInvoice) ∈ db.paymentsWithInvoice [.detected, .confirming] :=
    (hmem _).mpr ⟨⟨hp, hi, hcharges.invoiceId⟩, hst⟩
  exact ((hend.advanced _ hsnapshot).resolve_left List.not_mem_nil).2

/-! ## The tick -/

/-- What a tick has to do: record the transfers of the blocks since the last one for the invoices
    that await them, and take every active payment one step further. -/
structure Progress (C : Config) (w w' : World Memory) : Prop where
  recorded : ∃ t, w.clock ≤ t ∧ t ≤ w'.clock ∧ ∀ tr ∈ getTokenTransfers w.other.adapter
    (w.other.lastScannedBlock + 1) (currentBlock C.blockTime t w.other.adapter),
    ∀ i ∈ w.db.invoices, Awaits i tr → w'.clock ≤ i.expiresAt → Handled tr i w'.db
  advanced : ∀ p ∈ w.db.payments, p.status = .detected ∨ p.status = .confirming →
    HasAdvanced C w.other.adapter w.clock w'.clock p w'.db

/-- The body of a tick. -/
theorem calm_processPayments (hready : Ready w) (hI : Inv ⟨w, []⟩) (hflag : w.other.ticking = some pid)
    (h : Runs (calm (steady C.blockTime)) pid (processPayments C.requiredConfirmations) w evs x w') :
    x = .ok () ∧ Progress C w w' := by
  obtain ⟨⟨⟩, w₁, _, _, -, hexpire, h⟩ := Runs.bind_returns (p := expireOverdueInvoices) h
    fun _ _ _ hrun => ⟨(), (calm_expireOverdue hrun).1⟩
  obtain ⟨-, hswept⟩ := calm_expireOverdue hexpire
  obtain ⟨hI₁, hflag₁⟩ := phase_keeps expireOverdueInvoices_valid hI hflag hexpire
  have hready₁ : Ready w₁ := by
    refine ⟨?_, fun p hp => hready.payments p ((hswept.payments p).1 hp),
      hswept.beside.fits hready.amounts⟩
    rw [hswept.beside.other]
    exact hready.transfers
  obtain ⟨⟨⟩, w₂, _, _, -, hdetect, h⟩ := Runs.bind_returns (p := detectNewPayments) h
    fun _ _ _ hrun => ⟨(), (calm_detectNewPayments (C := C) hready₁ hrun).1⟩
  obtain ⟨-, hscanned⟩ := calm_detectNewPayments (C := C) hready₁ hdetect
  obtain ⟨hI₂, -⟩ := phase_keeps detectNewPayments_valid hI₁ hflag₁ hdetect
  obtain ⟨rfl, -, hterms, hdone⟩ := calm_advanceConfirmations (C := C) hI₂.coupled hscanned.onChain h
  have hclock₁ := calm_clock hexpire
  have hclock₂ := calm_clock hdetect
  have hclock₃ := calm_clock h
  refine ⟨rfl, ?_, fun p hp hst => ?_⟩
  · obtain ⟨t, hle, hle', hrecorded⟩ := hscanned.recorded
    refine ⟨t, le_trans hclock₁ hle, le_trans hle' hclock₃, fun tr htr i hi ha hdue => ?_⟩
    rw [← hswept.beside.other] at htr
    -- an invoice that is not overdue at the end was not overdue when the sweep ran
    have hi₁ : i ∈ w₁.db.invoices := hswept.invoices i hi fun hexpired =>
      absurd hexpired.2 (not_lt.mpr (le_trans (le_trans hclock₂ hclock₃) hdue))
    exact (hrecorded tr htr i hi₁ ha).mono hterms
  · have hp₂ : p ∈ w₂.db.payments := hscanned.kept p ((hswept.payments p).2 hp)
    obtain ⟨t, hle, hle', hadvanced⟩ := hdone p hp₂ hst
    rw [hscanned.adapter, hswept.beside.other] at hadvanced
    exact ⟨t, le_trans (le_trans hclock₁ hclock₂) hle, hle', hadvanced⟩

/-- The flag is set before the body and cleared after it. -/
theorem Progress.around {w₀ : World Memory} (h : Progress C w w₁) (hrows : w₀.db.SameRows w.db)
    (hadapter : w.other.adapter = w₀.other.adapter)
    (hscanned : w.other.lastScannedBlock = w₀.other.lastScannedBlock) (hclock : w₀.clock ≤ w.clock)
    (haround : Around w₁ w') : Progress C w₀ w' where
  recorded := by
    obtain ⟨t, hle, hle', hrecorded⟩ := h.recorded
    rw [hadapter, hscanned] at hrecorded
    refine ⟨t, le_trans hclock hle, le_trans hle' haround.clock, fun tr htr i hi ha hdue => ?_⟩
    refine (hrecorded tr htr i ((hrows.invoices i).2 hi) ha (le_trans haround.clock hdue)).mono
      fun p hp => ?_
    exact ⟨p, (haround.rows.payments p).2 hp, rfl⟩
  advanced p hp hst := by
    obtain ⟨t, hle, hle', p', hp', hadvanced⟩ := h.advanced p ((hrows.payments p).2 hp) hst
    rw [hadapter] at hadvanced
    exact ⟨t, le_trans hclock hle, le_trans hle' haround.clock, p', (haround.rows.payments p').2 hp',
      hadvanced⟩

/-- A tick returns, and has done what it has to do. -/
theorem calm_tick (hready : Ready w) (hI : Inv ⟨w, []⟩) (hflag : w.other.ticking = none)
    (h : Runs (calm (steady C.blockTime)) pid (tick C.requiredConfirmations) w evs x w') :
    x = .ok () ∧ Progress C w w' := by
  have henter : ∀ {evs x w₁}, Runs (calm (steady C.blockTime)) pid enterTick w evs x w₁ →
      x = .ok true ∧ Around w w₁ ∧ w₁.other = { w.other with ticking := some pid } := by
    intro evs x w₁ hrun
    obtain ⟨v, k, r, m, hl, hr, rfl, hl'⟩ := calm_writes (C := C) hrun
    have hr' : r = true ∧ m = { w.other with ticking := some pid } := by
      cases k with
      | ok =>
        simp only [Fake.respond, hflag] at hr
        cases hr
        exact ⟨rfl, rfl⟩
      | transfer hash digits => cases hr
    obtain ⟨rfl, rfl⟩ := hr'
    refine ⟨rfl, .of_writes hl ?_ hl', hl'.other⟩
    rfl
  obtain ⟨entered, w₁, _, _, -, hentered, h⟩ := Runs.bind_returns (p := enterTick) h
    fun _ _ _ hrun => ⟨true, (henter hrun).1⟩
  obtain ⟨⟨⟩, haround, hother⟩ := henter hentered
  rw [if_pos rfl] at h
  have hready₁ : Ready w₁ := by
    refine ⟨?_, fun p hp => hready.payments p ((haround.rows.payments p).1 hp),
      fun i hi => hready.amounts i ((haround.rows.invoices i).1 hi)⟩
    rw [haround.adapter]
    exact hready.transfers
  have hI₁ : Inv ⟨w₁, []⟩ := ⟨hI.coupled.congr haround.rows, hI.log.congr haround.rows⟩
  have hbody : ∀ {evs y w₂}, Runs (calm (steady C.blockTime)) pid
      (processPayments C.requiredConfirmations) w₁ evs y w₂ → y = .ok () ∧ Progress C w₁ w₂ :=
    fun hrun => calm_processPayments (C := C) hready₁ hI₁ (by rw [hother]) hrun
  unfold Prog.ensuring at h
  obtain ⟨y, w₂, _, _, -, hattempt, h⟩ := h.bind_returns fun _ _ _ hrun => by
    obtain ⟨y, hx, -⟩ := hrun.attempt_inv
    exact ⟨y, hx⟩
  obtain ⟨_, ⟨⟩, hrun⟩ := hattempt.attempt_inv
  obtain ⟨rfl, hprogress⟩ := hbody hrun
  have hleave : ∀ {evs x w₃}, Runs (calm (steady C.blockTime)) pid leaveTick w₂ evs x w₃ →
      x = .ok () ∧ Around w₂ w₃ := by
    intro evs x w₃ hrun
    obtain ⟨v, k, r, m, hl, hr, rfl, hl'⟩ := calm_writes (C := C) hrun
    cases k <;> cases hr
    refine ⟨rfl, .of_writes hl ?_ hl'⟩
    rfl
  obtain ⟨⟨⟩, w₃, _, _, -, hleft, h⟩ := Runs.bind_returns (p := leaveTick) h
    fun _ _ _ hrun => ⟨(), (hleave hrun).1⟩
  obtain ⟨-, haround₃⟩ := hleave hleft
  obtain ⟨-, rfl, hd⟩ := h.ret_inv
  have hlater := calm_drifts hd
  have haround' : Around w₂ w' := ⟨haround₃.rows.trans hlater.rows,
    (congrArg Memory.adapter hlater.other).trans haround₃.adapter,
    le_trans haround₃.clock hlater.clock⟩
  exact ⟨rfl, hprogress.around haround.rows haround.adapter
    (by rw [hother]) haround.clock haround'⟩

end CryptoPay.Api
