import CryptoPay.Worker.CatchUp
import CryptoPay.Worker.CommitFootprint
import CryptoPay.Worker.ScanCoverage

/-!
# Transfers below the scan cursor

Nothing in the matcher compares the time of a transfer with that of an invoice; the cursor is
what keeps the scanner from crediting old transfers. A `faithful` adapter returns the transfers
of the blocks that it is asked for, with the numbers of these blocks.

Results:
* `watermark_sound`: what a step of each job does to the cursor, the payments and the invoices.
* `lastScanned_leads`: the cursor of a single scan worker never moves back.
* `past_not_credited`: every transfer that is credited lies above the cursor as it was at any
  earlier moment, so one that is older than an invoice is credited to it only while the
  scanner lags; and an invoice becomes `DETECTED` in no other way.
-/

namespace CryptoPay.Worker

open Async Data

/-- What a complete adapter may answer that names the blocks of its transfers. -/
def faithful (chain : Chain) (call : AdapterCall) (r : adapterCalls.Ret call) : Bool :=
  complete chain call r &&
    match call, r with
    | .getTokenTransfers a b, .ok ts => ts.all fun t =>
      a ≤ t.blockNumber ∧ t.blockNumber ≤ b ∧ t ∈ chain.transfers t.blockNumber t.blockNumber
    | _, _ => true

/-- A faithful adapter on a chain. -/
def faithfulOn (forks : Bool) : Backend adapterCalls Chain Answer ChainAct :=
  answering faithful (ChainAct.apply forks)

/-- The database may hold anything at first. -/
def AnyWorld (_ : World Chain) : Prop := True

/-- The systems that some run leads to. -/
def FaithfulReachable (forks : Bool) (n : Replicas) (D : Setup) : ChainSystem → Prop :=
  Reachable (machine (faithfulOn forks)) (workload n D.deployment) AnyWorld anything

def FaithfulLeads (forks : Bool) (n : Replicas) (D : Setup) : ChainSystem → ChainSystem → Prop :=
  Leads (machine (faithfulOn forks)) (workload n D.deployment) anything

/-- Process `pid` has read the cursor, which stood at `k`. -/
def CursorRead (network : String) (pid : ℕ) (k : ℤ) (tr : Trace) : Prop :=
  ∃ cur : BlockchainScanCursor, cur.lastScannedBlock = k ∧
    (⟨pid, .prisma (.blockchainScanCursorUpsert network), .ok cur⟩ :
      Event (effects adapterCalls)) ∈ tr

/-- The payment is stored, and was not before. -/
def NewPayment (db db' : Db) (p : Payment) : Prop :=
  p ∈ db'.payments ∧ ∀ q ∈ db.payments, q.id ≠ p.id

variable {forks : Bool} {n : Replicas} {D : Setup} {j : Job} {pid : ℕ} {k b : ℤ}
  {network : String} {db db' : Db} {c c' : History adapterCalls Chain} {s s' : ChainSystem}

theorem CursorRead.mono {tr tr' : Trace} (h : CursorRead network pid k tr) (hs : tr <:+ tr') :
    CursorRead network pid k tr' := by
  obtain ⟨cur, hk, hev⟩ := h
  exact ⟨cur, hk, hs.mem hev⟩

/-! ## The cursor -/

theorem lastScanned_congr (h : db'.blockchainScanCursors = db.blockchainScanCursors) :
    lastScanned network db' = lastScanned network db := by
  rw [lastScanned, h, lastScanned]

/-- The upsert returns the cursor, which afterwards stands where it stood before. -/
theorem upsertCursor_lastScanned (db : Db) (network : String) :
    (db.upsertCursor network).1.lastScannedBlock = lastScanned network db ∧
      lastScanned network (db.upsertCursor network).2 = lastScanned network db := by
  obtain ⟨hstored, hlast⟩ := upsertCursor_stored db network
  exact ⟨hlast, (lastScanned_eq hstored).trans hlast⟩

/-- The update sets the cursor, if there is one. -/
theorem cursorUpdate_lastScanned {now : Time}
    (h : db.transaction now [.blockchainScanCursorUpdate network b] = .ok db') :
    lastScanned network db' = b ∨ lastScanned network db' = lastScanned network db := by
  cases hfind : db.blockchainScanCursors.find? network with
  | some cur =>
    obtain ⟨db₁, hdb₁, hstored⟩ := cursorUpdate_stored now b hfind
    obtain rfl := Except.ok.inj (hdb₁.symm.trans h)
    exact .inl (lastScanned_eq hstored)
  | none =>
    obtain ⟨db₁, hw, hnil⟩ := transaction_cons h
    have hdb' := (transaction_nil hnil).trans (blockchainScanCursorUpdate_ok hw)
    have hnone := Table.find?_eq_none_iff.mp hfind
    have hnone' : db'.blockchainScanCursors.find? network = none := by
      rw [hdb']
      refine Table.find?_eq_none_iff.mpr fun r hr => ?_
      obtain ⟨r₀, hr₀, rfl⟩ := List.mem_map.mp (Table.mem_def.mp hr)
      rw [if_neg (hnone r₀ hr₀)]
      exact hnone r₀ hr₀
    unfold lastScanned
    exact .inr (by rw [hnone', hfind])

/-! ## The protocol -/

/-- What a step of process `pid` does. -/
structure WatermarkStep (n : Replicas) (network : String) (j : Job) (pid : ℕ)
    (c c' : History adapterCalls Chain) : Prop where
  trace : c.trace <:+ c'.trace
  others : j ≠ .scan → lastScanned network c'.state.db = lastScanned network c.state.db
  forward : n.scans = false → lastScanned network c.state.db ≤ lastScanned network c'.state.db
  credited : ∀ p, NewPayment c.state.db c'.state.db p → ∃ b, p.blockNumber = some b ∧
    (∃ k < b, CursorRead network pid k c.trace) ∧
      (n.scans = false → lastScanned network c.state.db < b)
  detected : ∀ i ∈ c.state.db.invoices, ∀ i' ∈ c'.state.db.invoices, i'.id = i.id →
    i.status ≠ .detected → i'.status = .detected →
      ∃ p, NewPayment c.state.db c'.state.db p ∧ p.invoiceId = i.id

/-- Any number of passes, from whatever database. -/
def watermark (forks : Bool) (n : Replicas) (D : Setup) :
    Protocol (effects adapterCalls) Error Job (World Chain) (Input Answer) (Act ChainAct) where
  machine := machine (faithfulOn forks)
  work := workload n D.deployment
  start := AnyWorld
  allowed := anything
  Inv _ := True
  Guar := WatermarkStep n D.network
  Exc _ _ _ := True

theorem environment_lastScanned {act : Act ChainAct} {w w' : World Chain}
    (h : environment (faithfulOn forks) w act = some w') :
    lastScanned network w'.db = lastScanned network w.db := by
  refine lastScanned_congr ?_
  cases act with
  | clock t => simp only [environment] at h; split_ifs at h; cases h; rfl
  | reorderInvoices rows => simp only [environment] at h; split_ifs at h; cases h; rfl
  | reorderPayments rows => simp only [environment] at h; split_ifs at h; cases h; rfl
  | other e => obtain ⟨o, -, rfl⟩ := Option.map_eq_some_iff.mp h; rfl

/-- What a scan knows of the cursor after it has read it: it still stands there, unless
    another scan may run. -/
structure Holding (n : Replicas) (network : String) (pid : ℕ) (k : ℤ)
    (c : History adapterCalls Chain) : Prop where
  read : CursorRead network pid k c.trace
  stands : n.scans = false → lastScanned network c.state.db = k

theorem Holding.stable : (watermark forks n D).Stable .scan pid (Holding n D.network pid k) := by
  rintro c c' - h (⟨j', pid', -, hcompatible, hG⟩ | ⟨act, state, -, henv, rfl⟩)
  · refine ⟨h.read.mono hG.trace, fun hn => ?_⟩
    rw [hG.others ?_]
    · exact h.stands hn
    -- a scan that runs beside this one is another replica
    · rintro rfl
      have htwo : n.scans = true := hcompatible
      rw [hn] at htwo
      cases htwo
  · exact ⟨h.read, fun hn => (environment_lastScanned henv).trans (h.stands hn)⟩

/-! ## Requests -/

/-- A request that commits what `K` allows, if these commits credit transfers above the
    cursor only. -/
theorem commits_step {K : Commit → Prop} {op : Op adapterCalls} {i : Input Answer}
    {r : (effects adapterCalls).Ret op} {w : World Chain} (hop : OnlyCommits K op)
    (hr : (machine (faithfulOn forks)).respond pid c.state op i = some (r, w))
    (hK : ∀ m d, K m → m.paymentCreate = some d →
      (∃ k < d.blockNumber, CursorRead network pid k c.trace) ∧
        (n.scans = false → lastScanned network c.state.db < d.blockNumber)) :
    WatermarkStep n network j pid c (c.after pid op r w) := by
  have hcursor : lastScanned network w.db = lastScanned network c.state.db :=
    lastScanned_congr (hop.leaves.respond hr)
  have hstep : CommitStep K c.state.clock c.state.db w.db := hop.respond hr
  refine ⟨List.suffix_cons _ _, fun _ => hcursor, fun _ => hcursor.ge, fun p hp => ?_, ?_⟩
  · obtain ⟨m, d, hm, hd, rfl⟩ := hstep.credited hp.1 hp.2
    exact ⟨d.blockNumber, rfl, hK m d hm hd⟩
  · intro i hi i' hi' hid hbefore hafter
    obtain ⟨p, hp, hnew, hinvoice⟩ := hstep.detected hi hi' hid hbefore hafter
    exact ⟨p, ⟨hp, hnew⟩, hinvoice⟩

/-- A request of a scan that moves the cursor at most. -/
theorem cursor_step {op : Op adapterCalls} {r : (effects adapterCalls).Ret op} {w : World Chain}
    (hsame : c.state.db.SameRows w.db)
    (hforward : n.scans = false → lastScanned network c.state.db ≤ lastScanned network w.db) :
    WatermarkStep n network .scan pid c (c.after pid op r w) := by
  refine ⟨List.suffix_cons _ _, fun h => absurd rfl h, hforward, fun p hp => ?_, ?_⟩
  · exact absurd rfl (hp.2 p ((hsame.payments p).1 hp.1))
  · intro i hi i' hi' hid hbefore hafter
    rw [Table.eq_of_key ((hsame.invoices i').1 hi') hi hid] at hafter
    exact absurd hafter hbefore

theorem ofConfirm_create {m : Commit} {d : PaymentCreateInput} (h : m.OfConfirm)
    (hd : m.paymentCreate = some d) : False := by
  cases m <;> first | exact h.elim | cases hd

/-- A job that credits nothing. -/
theorem others_valid {p : Action adapterCalls Unit} (hp : p.Only (OnlyCommits Commit.OfConfirm)) :
    (watermark forks n D).Valid j pid (fun _ => True) p (fun _ _ => True) fun _ _ => True :=
  (Protocol.Valid.only hp (fun _ _ _ _ _ => trivial) fun _ _ _ _ _ hop _ _ _ hr =>
    ⟨commits_step hop hr fun _ _ hm hd => (ofConfirm_create hm hd).elim, trivial⟩).post
      (fun _ _ _ _ => trivial) fun _ _ _ _ => trivial

/-- An adapter call of a scan that holds the cursor at `k`. -/
theorem holding_call (call : AdapterCall) {α : Type}
    (read : adapterCalls.Ret call → Except AdapterError α) (F : α → Prop)
    (hF : ∀ chain r a, faithful chain call r = true → read r = .ok a → F a) :
    (watermark forks n D).Valid .scan pid (Holding n D.network pid k) (callAdapter call read)
      (fun a c => Holding n D.network pid k c ∧ F a) fun _ _ => True := by
  let R : adapterCalls.Ret call → History adapterCalls Chain → Prop := fun r c =>
    Holding n D.network pid k c ∧ ∀ a, read r = .ok a → F a
  have hR : ∀ r, (watermark forks n D).Stable .scan pid (R r) := fun r c c' hI h hi =>
    ⟨Holding.stable c c' hI h.1 hi, h.2⟩
  refine Protocol.Valid.await R hR (fun c i r w _ hc _ hr => ?_)
    fun r => Protocol.Valid.ofExcept (fun a ha c _ h => ⟨h.1, h.2 a (ok_of_mapError ha)⟩)
      fun _ _ _ _ _ => trivial
  obtain ⟨answer, o, ho, rfl⟩ := respond_other hr
  obtain ⟨r', -, hr'⟩ := Option.bind_eq_some_iff.mp ho
  split_ifs at hr' with hfaithful
  cases hr'
  have hother : OnlyCommits (fun _ => False) (.other call : Op adapterCalls) := trivial
  refine ⟨commits_step hother hr fun _ _ hm => hm.elim, ⟨?_, hc.stands⟩,
    fun a ha => hF _ _ a hfaithful ha⟩
  exact hc.read.mono (List.suffix_cons _ _)

/-- Reading the cursor. -/
theorem holding_upsert :
    (watermark forks n D).Valid .scan pid (fun _ => True)
      (prisma (.blockchainScanCursorUpsert D.network) : Action adapterCalls BlockchainScanCursor)
      (fun (cur : BlockchainScanCursor) c => Holding n D.network pid cur.lastScannedBlock c)
      fun _ _ => True := by
  let R : Except Error BlockchainScanCursor → History adapterCalls Chain → Prop := fun r c =>
    ∀ cur, r = .ok cur → Holding n D.network pid cur.lastScannedBlock c
  have hR : ∀ r, (watermark forks n D).Stable .scan pid (R r) := fun r c c' hI h hi cur hr =>
    Holding.stable c c' hI (h cur hr) hi
  refine Protocol.Valid.await R hR (fun c i r w _ _ _ hr => ?_)
    fun r => Protocol.Valid.ofExcept (fun cur hr c _ h => h cur hr) fun _ _ _ _ _ => trivial
  have hrows : c.state.db.SameRows w.db ∧
      lastScanned D.network w.db = lastScanned D.network c.state.db ∧
      ∀ cur, r = .ok cur → cur.lastScannedBlock = lastScanned D.network c.state.db := by
    obtain ⟨hret, hrow⟩ := upsertCursor_lastScanned c.state.db D.network
    rcases respond_prisma hr with ⟨rfl, rfl⟩ | ⟨rfl, rfl⟩
    · refine ⟨upsertCursor_sameRows _ _, hrow, ?_⟩
      rintro cur ⟨⟩
      exact hret
    · refine ⟨.refl _, rfl, ?_⟩
      rintro cur ⟨⟩
  obtain ⟨hsame, hcursor, hret⟩ := hrows
  refine ⟨cursor_step hsame fun _ => hcursor.ge, ?_⟩
  rintro cur rfl
  exact ⟨⟨cur, rfl, List.mem_cons_self⟩, fun _ => hcursor.trans (hret cur rfl).symm⟩

/-- Moving the cursor on. -/
theorem holding_update (hb : k < b) :
    (watermark forks n D).Valid .scan pid (Holding n D.network pid k)
      (transaction [.blockchainScanCursorUpdate D.network b]) (fun _ _ => True)
      fun _ _ => True := by
  refine Protocol.Valid.await (fun _ _ => True) (fun _ _ _ _ _ _ => trivial)
    (fun c i r w _ hc _ hr => ⟨?_, trivial⟩)
    fun r => Protocol.Valid.ofExcept (fun _ _ _ _ _ => trivial) fun _ _ _ _ _ => trivial
  have hrows : c.state.db.SameRows w.db ∧ (lastScanned D.network w.db = b ∨
      lastScanned D.network w.db = lastScanned D.network c.state.db) := by
    rcases respond_transaction hr with ⟨db, hdb, -, rfl⟩ | ⟨-, rfl⟩
    · exact ⟨cursorUpdate_sameRows hdb, cursorUpdate_lastScanned hdb⟩
    · exact ⟨.refl _, .inr rfl⟩
  obtain ⟨hsame, hcursor⟩ := hrows
  refine cursor_step hsame fun hn => ?_
  have hk := hc.stands hn
  omega

/-- Matching a transfer above the cursor. -/
theorem passTransfer_holding {t : TokenTransfer} (ht : k < t.blockNumber) :
    (watermark forks n D).Valid .scan pid (Holding n D.network pid k) (passTransfer t)
      (fun _ => Holding n D.network pid k) fun _ _ => True := by
  have honly : (passTransfer t : Action adapterCalls Unit).Only
      (OnlyCommits (·.CreditsTransfer t)) :=
    .bind (.perform trivial) fun _ => .bind (matchTransfer_onlyCommits t) fun _ => .perform trivial
  refine (Protocol.Valid.only honly Holding.stable fun c i op r w hop _ hc _ hr => ?_).post
    (fun _ _ _ h => h) fun _ _ _ _ => trivial
  have hcursor : lastScanned D.network w.db = lastScanned D.network c.state.db :=
    lastScanned_congr (hop.leaves.respond hr)
  refine ⟨commits_step hop hr fun m d hm hd => ?_, ?_, fun hn => hcursor.trans (hc.stands hn)⟩
  · obtain ⟨i, paymentId, detectedAt, rfl⟩ := hm
    cases hd
    exact ⟨⟨k, ht, hc.read⟩, fun hn => (hc.stands hn).trans_lt ht⟩
  · exact hc.read.mono (List.suffix_cons _ _)

theorem runBlockchainScan_holding :
    (watermark forks n D).Valid .scan pid (fun _ => True)
      (runBlockchainScan (oracle D.validateAddress) D.network) (fun _ _ => True)
      fun _ _ => True := by
  refine holding_upsert.bind fun cursor => ?_
  refine (holding_call .getLatestBlock id (fun _ => True) fun _ _ _ _ _ => trivial).bind
    fun latestBlock => ?_
  dsimp only
  split_ifs with hbehind
  · exact .pure fun _ _ _ => trivial
  refine Protocol.Valid.bind (Q := fun ts c => Holding n D.network pid cursor.lastScannedBlock c ∧
    ∀ t ∈ ts, cursor.lastScannedBlock < t.blockNumber) ?_ fun ts => ?_
  · refine (holding_call (.getTokenTransfers (cursor.lastScannedBlock + 1) latestBlock) id
      (fun ts => ∀ t ∈ ts, cursor.lastScannedBlock < t.blockNumber) ?_).pre fun _ _ h => h.1
    rintro chain r ts hfaithful rfl t ht
    have hall := (Bool.and_eq_true _ _ ▸ hfaithful).2
    have hrange := of_decide_eq_true (List.all_eq_true.mp hall t ht)
    omega
  · refine Protocol.Valid.assume fun hts => ?_
    refine Protocol.Valid.bind (Q := fun _ => Holding n D.network pid cursor.lastScannedBlock)
      (Protocol.Valid.forEach_mem fun t ht => passTransfer_holding (hts t ht)) fun _ => ?_
    exact holding_update (by omega)

theorem watermark_sound (forks : Bool) (n : Replicas) (D : Setup) :
    (watermark forks n D).Sound where
  initial _ _ := trivial
  env _ _ _ _ _ := trivial
  step _ _ _ _ _ _ := trivial
  job j pid := by
    refine ⟨fun _ => True, fun _ _ _ _ _ => trivial, fun _ _ _ => trivial, ?_⟩
    cases j with
    | scan => exact runBlockchainScan_holding
    | confirm =>
      exact others_valid (runPaymentConfirm_only ofConfirm_requests _ fun _ => .request trivial)
    | createInvoice organizationId apiKeyId input ctx =>
      exact others_valid (((Api.create_administrative _ _ _ _ _).imp fun _ =>
        OnlyCommits.of_administrative).bind fun _ => trivial)
    | setWalletAddress organizationId userId input ctx =>
      exact others_valid (((Api.set_administrative _ _ _ _ _).imp fun _ =>
        OnlyCommits.of_administrative).bind fun _ => trivial)

/-! ## Every run -/

/-- What the step of one process does in a run. -/
theorem watermark_step (hs : FaithfulReachable forks n D s) {input : Input Answer}
    (hstep : s.step (machine (faithfulOn forks)) (workload n D.deployment) (.perform pid input) =
      some s') : ∃ j, WatermarkStep n D.network j pid s.config s'.config := by
  obtain ⟨j, -, hG⟩ := (watermark_sound forks n D).guar (s := s) hs
    (fun _ _ _ _ _ _ _ => trivial) hstep
  exact ⟨j, hG⟩

/-- A move that answers no request changes neither the cursor nor the rows. -/
theorem step_aside {m : ChainMove} (hm : ∀ pid input, m ≠ .perform pid input)
    (hstep : s.step (machine (faithfulOn forks)) (workload n D.deployment) m = some s') :
    lastScanned D.network s'.config.state.db = lastScanned D.network s.config.state.db ∧
      s.config.state.db.SameRows s'.config.state.db := by
  cases m with
  | start job =>
    obtain ⟨-, rfl⟩ := System.step_start hstep
    exact ⟨rfl, .refl _⟩
  | perform pid input => exact absurd rfl (hm pid input)
  | stop pid =>
    cases hstep
    exact ⟨rfl, .refl _⟩
  | env act =>
    obtain ⟨state, hstate, rfl⟩ := System.step_env hstep
    exact ⟨environment_lastScanned hstate, (Ledger.environment_rows hstate).1⟩

/-- With one scan worker the cursor never moves back. -/
theorem lastScanned_leads (hn : n.scans = false) (hs : FaithfulReachable forks n D s)
    (h : FaithfulLeads forks n D s s') :
    lastScanned D.network s.config.state.db ≤ lastScanned D.network s'.config.state.db := by
  have hreach : FaithfulReachable forks n D s ∧
      lastScanned D.network s.config.state.db ≤ lastScanned D.network s.config.state.db :=
    ⟨hs, le_refl _⟩
  refine (h.keeps (R := fun t => FaithfulReachable forks n D t ∧
    lastScanned D.network s.config.state.db ≤ lastScanned D.network t.config.state.db) hreach ?_).2
  rintro t u m ⟨ht, hle⟩ hm hstep
  refine ⟨.step m ht hm hstep, hle.trans ?_⟩
  by_cases hperform : ∃ pid input, m = .perform pid input
  · obtain ⟨pid, input, rfl⟩ := hperform
    obtain ⟨j, hG⟩ := watermark_step ht hstep
    exact hG.forward hn
  · exact (step_aside (fun pid input h => hperform ⟨pid, input, h⟩) hstep).1.ge

/-- Whatever the passes do, a transfer is credited by a pass that had itself found the cursor below
    its block. With one scan worker the cursor was below it at every earlier moment, so the block
    was not there yet if the scanner had caught up then. An invoice becomes `DETECTED` in no
    other way. -/
theorem past_not_credited (forks : Bool) (n : Replicas) (D : Setup) {s s' : ChainSystem}
    (hs : FaithfulReachable forks n D s) {m : ChainMove}
    (hstep : s.step (machine (faithfulOn forks)) (workload n D.deployment) m = some s') :
    (∀ p, NewPayment s.config.state.db s'.config.state.db p → ∃ b, p.blockNumber = some b ∧
      (∃ pid input, m = .perform pid input ∧ ∃ k < b, CursorRead D.network pid k s.config.trace) ∧
      (n.scans = false → ∀ s₀, FaithfulReachable forks n D s₀ → FaithfulLeads forks n D s₀ s →
        lastScanned D.network s₀.config.state.db < b ∧
        ((chainOf s₀).head ≤ lastScanned D.network s₀.config.state.db → (chainOf s₀).head < b))) ∧
    ∀ i ∈ s.config.state.db.invoices, ∀ i' ∈ s'.config.state.db.invoices, i'.id = i.id →
      i.status ≠ .detected → i'.status = .detected →
        ∃ p, NewPayment s.config.state.db s'.config.state.db p ∧ p.invoiceId = i.id := by
  by_cases hperform : ∃ pid input, m = .perform pid input
  · obtain ⟨pid, input, rfl⟩ := hperform
    obtain ⟨j, hG⟩ := watermark_step hs hstep
    refine ⟨fun p hp => ?_, hG.detected⟩
    obtain ⟨b, hb, ⟨k, hk, hread⟩, hbelow⟩ := hG.credited p hp
    refine ⟨b, hb, ⟨pid, input, rfl, k, hk, hread⟩, fun hn s₀ hs₀ hleads => ?_⟩
    have hlast := (lastScanned_leads hn hs₀ hleads).trans_lt (hbelow hn)
    exact ⟨hlast, fun hcaught => hcaught.trans_lt hlast⟩
  · obtain ⟨-, hrows⟩ := step_aside (fun pid input h => hperform ⟨pid, input, h⟩) hstep
    refine ⟨fun p hp => absurd rfl (hp.2 p ((hrows.payments p).1 hp.1)), ?_⟩
    intro i hi i' hi' hid hbefore hafter
    rw [Table.eq_of_key ((hrows.invoices i').1 hi') hi hid] at hafter
    exact absurd hafter hbefore

/-- Block 0 has been scanned when the invoice is created, and block 1 is mined afterwards; each
    has a transfer of its amount. -/
def scannedBefore : List ChainMove :=
  .start .scan :: performs 0 (scanAnswers 0 block0.transfers ++ [.ok]) ++ [.stop 0] ++
    sampleInvoice 1 ++ [.env (.other (.mine block1)), .start .scan] ++
    performs 2 [.ok, .other (.latestBlock (.ok 1)), .other (.tokenTransfers (.ok block1.transfers)),
      .ok, .ok, .ok, .id "1", .ok]

set_option maxRecDepth 4000 in
/-- The transfer of block 1 is credited, and the cursor was at 0 at most until then. -/
theorem past_not_credited_later : ∃ s s', FaithfulReachable false oneOfEach sample s ∧
    s.step (machine (faithfulOn false)) (workload oneOfEach sample.deployment) (.perform 2 .ok) =
      some s' ∧
    (∃ p, NewPayment s.config.state.db s'.config.state.db p ∧ p.blockNumber = some 1) ∧
    (∃ k < 1, CursorRead "base" 2 k s.config.trace) ∧
    ∀ s₀, FaithfulReachable false oneOfEach sample s₀ → FaithfulLeads false oneOfEach sample s₀ s →
      lastScanned "base" s₀.config.state.db < 1 := by
  have hstart : AnyWorld (sampleWorldOn [block0]) := trivial
  obtain ⟨s, s', hs, hstep, hrows⟩ : ∃ s s', FaithfulReachable false oneOfEach sample s ∧
      s.step (machine (faithfulOn false)) (workload oneOfEach sample.deployment) (.perform 2 .ok) =
        some s' ∧ (s.config.state.db.payments.rows.length,
          s'.config.state.db.payments.rows.map fun p => p.blockNumber) = (0, [some 1]) :=
    Reachable.view_step hstart scannedBefore (by decide)
  obtain ⟨hbefore, hafter⟩ := Prod.mk.inj hrows
  obtain ⟨p, hp, hblock⟩ : ∃ p ∈ s'.config.state.db.payments.rows, p.blockNumber = some 1 :=
    List.mem_map.mp (hafter ▸ List.mem_singleton_self _)
  have hcredited : NewPayment s.config.state.db s'.config.state.db p := by
    refine ⟨hp, fun q hq => ?_⟩
    have hnone := List.length_eq_zero_iff.mp hbefore
    rw [Table.mem_def, hnone] at hq
    exact absurd hq List.not_mem_nil
  obtain ⟨b, hb, ⟨pid, input, hmove, hread⟩, hbelow⟩ :=
    (past_not_credited false oneOfEach sample hs hstep).1 p hcredited
  obtain rfl : 1 = b := Option.some.inj (hblock.symm.trans hb)
  obtain ⟨rfl, -⟩ := Move.perform.inj hmove
  exact ⟨s, s', hs, hstep, ⟨p, hcredited, hblock⟩, hread,
    fun s₀ hs₀ hleads => (hbelow rfl s₀ hs₀ hleads).1⟩

end CryptoPay.Worker
