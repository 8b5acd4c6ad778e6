import CryptoPay.Worker.CommitFootprint
import CryptoPay.Worker.Passes
import CryptoPay.Worker.ScanCursor

/-!
# What becomes of the transfers that a scan has passed

`ScanCursor` says that every height at or below the cursor was queried, and that the pass has
completed `tryMatchTransfer` on every transfer that it was told of. Here: what that means for
the database. A transfer is recorded, or there was a moment while the pass was matching it
at which no `PENDING` invoice asked for it; there is no third way for it to be dropped, however
the passes overlap, fail and crash.

Results:
* `runBlockchainScan_disposes`: what a pass has seen before it goes on to the next transfer.
* `transfers_accounted`: the above, for every height at or below the cursor.
-/

namespace CryptoPay.Worker

open Async Data

/-- An event that shows a payment for the transaction of the transfer. -/
inductive Shows (t : TokenTransfer) : Event (effects adapterCalls) → Prop where
  | seen (pid : ℕ) (p : Payment) :
    Shows t ⟨pid, .prisma (.paymentFindByTxHash t.network t.txHash), .ok (some p)⟩
  | credited (pid : ℕ) (i : Invoice) (paymentId : String) (detectedAt : Time)
    (network : i.network = t.network) :
    Shows t ⟨pid, .prisma (.transaction (Commit.detect i t paymentId detectedAt).writes), .ok ()⟩

/-- The pass has found the transfer recorded, has recorded it, or has found no invoice for it
    after it had started to match it. -/
def Disposed (t : TokenTransfer) (h : Trace) : Prop :=
  (∃ ev ∈ h, Shows t ev) ∨ ∃ pid candidates before,
    (⟨pid, .prisma (.invoiceFindMany (candidateWhere t)), .ok candidates⟩ :: before) <:+ h ∧
      ⟨pid, .mark (.passed t), ()⟩ ∈ before ∧
      selectMatchingInvoice toLowerAscii candidates t.detected t.amount = none

/-- A payment for the transaction of the transfer is stored. -/
def TransferStored (t : TokenTransfer) (db : Db) : Prop := ∃ p ∈ db.payments, PaysFor p t

/-- No `PENDING` invoice asks for the transfer. -/
def Unclaimed (t : TokenTransfer) (db : Db) : Prop :=
  ∀ i ∈ db.invoices, (candidateWhere t).holds i = false

/-- What a job may request after its own earlier requests: a scan only goes on to the next
    transfer when it has disposed of this one, and no other job matches transfers. -/
def Disposes : Job → Trace → Op adapterCalls → Prop
  | .scan, h => fun op => ∀ t, op = .mark (.processed t) → Disposed t h
  | .confirm, _ => fun op => ∀ m, op ≠ .mark m
  | _, _ => Administrative

variable {ω η : Type} {B : Backend adapterCalls ω Answer η} {n : Replicas} {D : Setup} {pid : ℕ}
  {t : TokenTransfer} {h : Trace}

/-! ## The scan -/

/-- A request that is no mark. -/
theorem disposes_of_ne {op : Op adapterCalls} (hop : ∀ m, op ≠ .mark m) :
    Disposes .scan h op := fun _ ht => absurd ht (hop _)

theorem creditTransfer_disposes {i : Invoice} (hi : i.network = t.network) :
    (creditTransfer t i : Action adapterCalls Unit).Obeys (Disposes .scan) pid
      (fun _ => Disposed t) (fun _ _ => True) h := by
  refine Prog.obeys_bind.mpr (Prog.obeys_request.mpr ⟨disposes_of_ne fun _ => nofun,
    fun (r : Except Error (Option Payment)) => ⟨fun alreadySeen hr => ?_, fun _ _ => trivial⟩⟩)
  obtain rfl : r = .ok alreadySeen := hr
  split_ifs with hseen
  · obtain ⟨p, rfl⟩ := Option.isSome_iff_exists.mp hseen
    exact .inl ⟨_, List.mem_cons_self, hi ▸ .seen pid p⟩
  · -- the two assertions are about constants and pass
    refine ⟨disposes_of_ne fun _ => nofun, fun paymentId => ⟨disposes_of_ne fun _ => nofun,
      fun detectedAt => Prog.obeys_request.mpr ⟨disposes_of_ne fun _ => nofun,
        fun (r : Except Error Unit) => ⟨fun _ hr => ?_, fun _ _ => trivial⟩⟩⟩⟩
    obtain rfl : r = .ok () := hr
    exact .inl ⟨_, List.mem_cons_self, .credited pid i paymentId detectedAt hi⟩

theorem passTransfer_disposes :
    (passTransfer t : Action adapterCalls Unit).Obeys (Disposes .scan) pid
      (fun _ _ => True) (fun _ _ => True) h := by
  refine ⟨fun _ ht => (by cases ht), fun _ => ?_⟩
  show Prog.Obeys _ _ _ _ (matchTransfer t >>= _) _
  refine Prog.obeys_bind.mpr ((?_ : Prog.Obeys _ _ (fun _ => Disposed t) _ _ _).post
    (fun _ h' hd => ⟨fun t' ht' => ?_, fun _ => trivial⟩) fun _ _ hx => hx)
  · refine Prog.obeys_bind.mpr (Prog.obeys_request.mpr ⟨disposes_of_ne fun _ => nofun,
      fun (r : Except Error (List Invoice)) => ⟨fun candidates hr => ?_, fun _ _ => trivial⟩⟩)
    obtain rfl : r = .ok candidates := hr
    cases hsel : selectMatchingInvoice toLowerAscii candidates t.detected t.amount with
    | none => exact .inr ⟨pid, candidates, _, List.suffix_rfl, List.mem_cons_self, hsel⟩
    | some i =>
      exact creditTransfer_disposes (matchesInvoice_iff.mp (selectMatchingInvoice_mem hsel).2).1
  · cases ht'
    exact hd

theorem runBlockchainScan_disposes {validateAddress : String → Bool} {network : String} :
    (runBlockchainScan (oracle validateAddress) network).Obeys (Disposes .scan) pid
      (fun _ _ => True) (fun _ _ => True) h := by
  refine Prog.obeys_bind.mpr (Prog.obeys_request.mpr ⟨disposes_of_ne fun _ => nofun, fun _ =>
    ⟨fun cursor _ => ?_, fun _ _ => trivial⟩⟩)
  refine Prog.obeys_bind.mpr (Prog.obeys_request.mpr ⟨disposes_of_ne fun _ => nofun, fun _ =>
    ⟨fun latestBlock _ => ?_, fun _ _ => trivial⟩⟩)
  dsimp only
  split_ifs
  · trivial
  refine Prog.obeys_bind.mpr (Prog.obeys_request.mpr ⟨disposes_of_ne fun _ => nofun, fun _ =>
    ⟨fun ts _ => ?_, fun _ _ => trivial⟩⟩)
  refine Prog.obeys_bind.mpr ((Prog.Obeys.forEach (fun _ _ => True) (fun _ _ _ _ =>
    passTransfer_disposes) trivial).post (fun _ h _ => ?_) fun _ _ hx => hx)
  exact Prog.obeys_request.mpr ⟨disposes_of_ne fun _ => nofun, fun _ =>
    ⟨fun _ _ => trivial, fun _ _ => trivial⟩⟩

theorem jobs_dispose (j : Job) : (launch D.deployment j).Obeys (Disposes j) pid
    (fun _ _ => True) (fun _ _ => True) [] := by
  have unmarked : ConfirmRequests fun op : Op adapterCalls => ∀ m, op ≠ .mark m :=
    ⟨fun _ _ => nofun, fun _ _ => nofun, fun _ _ _ => nofun, fun _ => nofun, fun _ _ => nofun⟩
  have only : ∀ {F : Op adapterCalls → Prop} {p : Action adapterCalls Unit}, p.Only F →
      p.Obeys (fun _ => F) pid (fun _ _ => True) (fun _ _ => True) [] := fun hp =>
    Prog.Obeys.only hp (fun _ _ hop _ => hop) (fun _ _ _ _ _ => trivial) trivial
  cases j with
  | scan => exact runBlockchainScan_disposes
  | confirm => exact only (runPaymentConfirm_only unmarked _ fun _ => .request fun _ => nofun)
  | createInvoice organizationId apiKeyId input ctx =>
    exact only ((Api.create_administrative _ _ _ _ _).bind fun _ => trivial)
  | setWalletAddress organizationId userId input ctx =>
    exact only ((Api.set_administrative _ _ _ _ _).bind fun _ => trivial)

/-! ## The system -/

/-- The systems that some run leads to, for a network without a cursor at first. -/
def FreshReachable (B : Backend adapterCalls ω Answer η) (n : Replicas) (D : Setup) :
    System (effects adapterCalls) Error Job (World ω) → Prop :=
  Reachable (machine B) (workload n D.deployment)
    (fun w => ∀ cur ∈ w.db.blockchainScanCursors, cur.network ≠ D.network) anything

variable {s : System (effects adapterCalls) Error Job (World ω)} {db db' : Db}

theorem TransferStored.kept (hp : ∀ p, HasPayment p db → HasPayment p db')
    (h : TransferStored t db) :
    TransferStored t db' := by
  obtain ⟨p, hmem, hpays⟩ := h
  obtain ⟨row, hrow, hterms⟩ := hp p ⟨p, hmem, rfl⟩
  exact ⟨row, hrow, hpays.congr hterms⟩

/-- A payment that some event shows is stored. -/
theorem shows_stored (hs : FreshReachable B n D s) {ev : Event (effects adapterCalls)}
    (hev : ev ∈ s.config.trace) (hshows : Shows t ev) : TransferStored t s.config.state.db := by
  let I : History adapterCalls ω → Prop := fun c =>
    ∀ ev ∈ c.trace, Shows t ev → TransferStored t c.state.db
  suffices hI : I s.config from hI ev hev hshows
  refine Reachable.invariant (workload n D.deployment).obeys_any (fun _ _ ev hev => ?_)
    (fun c act w hI henv ev hev hshows => ?_) (fun c ev w hI hans ev' hev' hshows => ?_) hs
  · exact absurd hev List.not_mem_nil
  · have hrows := (Ledger.environment_rows henv).1
    exact (hI ev hev hshows).kept fun p hp => hp.congr hrows
  · obtain ⟨i, hr⟩ := hans.reply
    rcases List.mem_cons.mp hev' with rfl | hev'
    · cases hshows with
      | seen pid p =>
        rcases respond_prisma hr with ⟨hfound, hw⟩ | ⟨hfound, -⟩
        · have hrow := (Except.ok.inj hfound).symm
          have hpays := List.find?_some hrow
          simp only [decide_eq_true_eq] at hpays
          rw [hw]
          exact ⟨p, List.mem_of_find?_eq_some hrow, hpays.1, hpays.2⟩
        · cases hfound
      | credited pid i paymentId detectedAt hnetwork =>
        rcases respond_transaction hr with ⟨db', hdb', -, rfl⟩ | ⟨⟨code, herror⟩, -⟩
        · have hp := ((Commit.effect hdb').payments _).2
            (.inr ⟨detectedPayment paymentId detectedAt i t, rfl, rfl⟩)
          exact ⟨_, hp, hnetwork, rfl⟩
        · cases herror
    · exact (hI ev' hev' hshows).kept fun p hp => respond_keepsPayment hp hr

/-- For every height at or below the cursor some pass has queried a range with it, and each
    transfer in the answer is recorded, or at some moment after that pass had turned to it no
    `PENDING` invoice asked for it. -/
theorem transfers_accounted (B : Backend adapterCalls ω Answer η) (n : Replicas) (D : Setup)
    {s : System (effects adapterCalls) Error Job (World ω)} (hs : FreshReachable B n D s) :
    ∀ cur ∈ s.config.state.db.blockchainScanCursors, cur.network = D.network →
      ∀ h, 0 ≤ h → h ≤ cur.lastScannedBlock → ∃ pid a b ts before, a ≤ h ∧ h ≤ b ∧
        Queried pid a b ts s.config.trace before ∧ ∀ t ∈ ts, TransferStored t s.config.state.db ∨
          ∃ s₁, FreshReachable B n D s₁ ∧
            Leads (machine B) (workload n D.deployment) anything s₁ s ∧
            ⟨pid, .mark (.passed t), ()⟩ ∈ s₁.config.trace ∧ Unclaimed t s₁.config.state.db := by
  intro cur hcur hnetwork h h0 hle
  obtain ⟨pid, a, b, ts, before, ha, hb, hq, hp⟩ :=
    (coverage_sound n D B).inv hs cur hcur hnetwork h h0 hle
  refine ⟨pid, a, b, ts, before, ha, hb, hq, fun t ht => ?_⟩
  obtain ⟨j, hj⟩ := Reachable.history (E := Disposes) (fun j pid => jobs_dispose j) hs pid
  obtain ⟨earlier, hearlier, hdisposes⟩ := hj.mem (mem_own.mpr ⟨(hp t ht).processed, rfl⟩)
  have hdisposed : Disposed t earlier := by
    cases j with
    | scan => exact hdisposes t rfl
    | confirm => exact absurd rfl (hdisposes _)
    -- no other job asks the adapter
    | _ =>
      obtain ⟨_, -, hadmin⟩ := hj.mem (mem_own.mpr ⟨hq.answer.mem List.mem_cons_self, rfl⟩)
      exact hadmin.elim
  have hown : earlier <:+ own pid s.config.trace := (List.suffix_cons _ _).trans hearlier
  rcases hdisposed with ⟨ev, hev, hshows⟩ | ⟨q, candidates, passed, hread, hpassed, hnone⟩
  · exact .inl (shows_stored hs (mem_own.mp (hown.mem hev)).1 hshows)
  · obtain rfl : q = pid := (mem_own.mp (hown.mem (hread.mem List.mem_cons_self))).2
    obtain ⟨tr, htr, hpast⟩ := own_suffix (hread.trans hown)
    obtain ⟨s₁, hs₁, htrace, -, ⟨i, w, hr⟩, hleads⟩ := Reachable.answered hs htr
    refine .inr ⟨s₁, hs₁, hleads, ?_, fun i hi => ?_⟩
    · rw [← hpast] at hpassed
      exact htrace ▸ (mem_own.mp hpassed).1
    · rcases respond_prisma hr with ⟨hfound, -⟩ | ⟨hfound, -⟩
      · obtain rfl := Except.ok.inj hfound
        by_contra hasked
        have hholds : (candidateWhere t).holds i = true := by simpa using hasked
        have hno := selectMatchingInvoice_eq_none hnone i (Table.mem_filter.mpr ⟨hi, hholds⟩)
        obtain ⟨-, haddress, hnet, htoken⟩ := candidateWhere_holds.mp hholds
        have hyes :
            matchesInvoice toLowerAscii (ExtendsCandidate.candidate i).toInvoicePaymentTarget t.detected = true :=
          matchesInvoice_iff.mpr ⟨hnet, htoken, congrArg toLowerAscii haddress⟩
        rw [hyes] at hno
        cases hno
      · cases hfound

set_option maxRecDepth 4000 in
/-- A pass that has credited one transfer and moved the cursor to block 7. -/
theorem transfers_accounted_sample : ∃ s : EvmSystem, FreshReachable anyAnswer oneOfEach sample s ∧
    s.config.state.db.blockchainScanCursors.rows = [⟨"base", 7⟩] ∧
    ∃ pid a b ts before, a ≤ 7 ∧ 7 ≤ b ∧ Queried pid a b ts s.config.trace before ∧
      ∀ t ∈ ts, TransferStored t s.config.state.db ∨ ∃ s₁,
        FreshReachable anyAnswer oneOfEach sample s₁ ∧
        Leads (machine anyAnswer) (workload oneOfEach sample.deployment) anything s₁ s ∧
        ⟨pid, .mark (.passed t), ()⟩ ∈ s₁.config.trace ∧ Unclaimed t s₁.config.state.db := by
  have hstart : ∀ cur ∈ sampleWorld.db.blockchainScanCursors, cur.network ≠ sample.network :=
    fun _ h => absurd h List.not_mem_nil
  obtain ⟨s, hs, hrows⟩ : ∃ s : EvmSystem, FreshReachable anyAnswer oneOfEach sample s ∧
      s.config.state.db.blockchainScanCursors.rows = [⟨"base", 7⟩] :=
    Reachable.view hstart (sampleInvoice 0 ++ sampleScan 1 ++ performs 1 [.ok, .ok, .ok])
      (by decide)
  have hcur : ⟨"base", 7⟩ ∈ s.config.state.db.blockchainScanCursors := by
    rw [Table.mem_def, hrows]
    exact List.mem_singleton_self _
  exact ⟨s, hs, hrows, transfers_accounted anyAnswer oneOfEach sample hs _ hcur rfl 7 (by decide)
    (by decide)⟩

end CryptoPay.Worker
