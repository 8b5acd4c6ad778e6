import CryptoPay.Async.RelyGuarantee
import CryptoPay.Worker.CursorFootprint

/-!
# What the scan cursor stands for

The cursor of a network is read when a pass starts and overwritten when it ends;
passes may overlap, crash or throw in between. Whatever the adapter answers, a
height at or below the cursor was part of a range that some pass asked for, up
to the head that it had seen before, and that pass has completed
`tryMatchTransfer` on every transfer that it was told of (`Scanned`).

Results:
* `runBlockchainScan_valid`: a pass that overlaps with any others keeps this.
* `coverage_sound`: so does every system, and the cursors of a reachable one
  stand for scanned heights.
-/

namespace CryptoPay.Worker

open Async

/-- The requests answered so far, newest first. -/
abbrev Trace := List (Event (effects adapterCalls))

/-- Pass `pid` has passed the transfer to `tryMatchTransfer`, which completed
    normally. -/
structure Processed (pid : ℕ) (t : TokenTransfer) (tr : Trace) : Prop where
  passed : ⟨pid, .mark (.passed t), ()⟩ ∈ tr
  processed : ⟨pid, .mark (.processed t), ()⟩ ∈ tr

/-- Pass `pid` asked for the transfers of the blocks `a … b`, after it had seen
    the head `b`, and got `ts`. -/
structure Queried (pid : ℕ) (a b : ℤ) (ts : List TokenTransfer) (tr before : Trace) : Prop where
  answer : (⟨pid, .other (.getTokenTransfers a b), .ok ts⟩ :: before) <:+ tr
  head : ⟨pid, .other .getLatestBlock, .ok b⟩ ∈ before

/-- Some pass queried the height `h` and has processed all that it was told of. -/
def Scanned (h : ℤ) (tr : Trace) : Prop :=
  ∃ pid a b ts before, a ≤ h ∧ h ≤ b ∧ Queried pid a b ts tr before ∧
    ∀ t ∈ ts, Processed pid t tr

/-- Every height up to `n` is scanned. -/
def ScannedTo (n : ℤ) (tr : Trace) : Prop := ∀ h, 0 ≤ h → h ≤ n → Scanned h tr

theorem Processed.mono {pid : ℕ} {t : TokenTransfer} {tr tr' : Trace} (h : Processed pid t tr)
    (hs : tr <:+ tr') : Processed pid t tr' := ⟨hs.mem h.passed, hs.mem h.processed⟩

theorem Queried.mono {pid : ℕ} {a b : ℤ} {ts : List TokenTransfer} {tr tr' before : Trace}
    (h : Queried pid a b ts tr before) (hs : tr <:+ tr') : Queried pid a b ts tr' before :=
  ⟨h.answer.trans hs, h.head⟩

theorem ScannedTo.mono {n : ℤ} {tr tr' : Trace} (h : ScannedTo n tr) (hs : tr <:+ tr') :
    ScannedTo n tr' := by
  intro k h0 hk
  obtain ⟨pid, a, b, ts, before, ha, hb, hq, hp⟩ := h k h0 hk
  exact ⟨pid, a, b, ts, before, ha, hb, hq.mono hs, fun t ht => (hp t ht).mono hs⟩

/-- A pass that continues where the cursor stood has scanned everything up to
    the head that it had seen. -/
theorem ScannedTo.extend {n b : ℤ} {pid : ℕ} {ts : List TokenTransfer} {tr before : Trace}
    (h : ScannedTo n tr) (hq : Queried pid (n + 1) b ts tr before)
    (hp : ∀ t ∈ ts, Processed pid t tr) : ScannedTo b tr := by
  intro k h0 hk
  by_cases hn : k ≤ n
  · exact h k h0 hn
  · exact ⟨pid, n + 1, b, ts, before, by omega, hk, hq, hp⟩

variable {ω η : Type} {B : Backend adapterCalls ω Answer η} {n : Replicas} {D : Setup}
  {j : Job} {pid : ℕ} {db : Db}

/-! ## The protocol -/

/-- The cursors of the network stand for scanned heights. -/
def CursorsScanned (network : String) (c : History adapterCalls ω) : Prop :=
  ∀ cur ∈ c.state.db.blockchainScanCursors, cur.network = network →
    ScannedTo cur.lastScannedBlock c.trace

/-- A step leaves the cursors of the network as they are, or at a height up to
    which everything is scanned. -/
structure CursorStep (network : String) (c c' : History adapterCalls ω) : Prop where
  trace : c.trace <:+ c'.trace
  cursors : ∀ cur ∈ c'.state.db.blockchainScanCursors, cur.network = network →
    cur ∈ c.state.db.blockchainScanCursors ∨ ScannedTo cur.lastScannedBlock c'.trace

/-- Any number of passes over a network that no cursor exists for at first. -/
def coverage (n : Replicas) (D : Setup) (B : Backend adapterCalls ω Answer η) :
    Protocol (effects adapterCalls) Error Job (World ω) (Input Answer) (Act η) where
  machine := machine B
  work := workload n D.deployment
  start w := ∀ cur ∈ w.db.blockchainScanCursors, cur.network ≠ D.network
  allowed := anything
  Inv := CursorsScanned D.network
  Guar _ _ := CursorStep D.network
  Exc _ _ _ := True

theorem CursorsScanned.step {network : String} {c c' : History adapterCalls ω}
    (h : CursorsScanned network c) (hs : CursorStep network c c') : CursorsScanned network c' := by
  intro cur hcur hn
  rcases hs.cursors cur hcur hn with hcur | hscanned
  · exact (h cur hcur hn).mono hs.trace
  · exact hscanned

theorem coverage_growing : (coverage n D B).Growing := fun _ _ _ _ h => h.trace

/-- What is known of the trace survives every step of the others. -/
theorem coverage_stable {F : Trace → Prop} (hF : ∀ tr tr', tr <:+ tr' → F tr → F tr') :
    (coverage n D B).Stable j pid fun c => F c.trace :=
  Protocol.Lasting.stable (F := fun c => F c.trace) coverage_growing fun _ _ h => hF _ _ h

/-- A request that writes no cursor. -/
theorem leaves_step {c : History adapterCalls ω} {op : Op adapterCalls} {i : Input Answer}
    {r : (effects adapterCalls).Ret op} {w : World ω} (hop : LeavesCursors op)
    (h : (machine B).respond pid c.state op i = some (r, w)) :
    CursorStep D.network c (c.after pid op r w) where
  trace := List.suffix_cons _ _
  cursors _ hcur _ := .inl (hop.respond h ▸ hcur)

/-- A program that writes no cursor. -/
theorem leaves_valid {α : Type} {p : Action adapterCalls α} (hp : Leaves p) {F : Trace → Prop}
    (hF : ∀ tr tr', tr <:+ tr' → F tr → F tr') :
    (coverage n D B).Valid j pid (fun c => F c.trace) p (fun _ c => F c.trace) fun _ _ => True :=
  (Protocol.Valid.only hp (coverage_stable hF) fun _ _ _ _ _ hop _ hc _ h =>
    ⟨leaves_step hop h, hF _ _ (List.suffix_cons _ _) hc⟩).post (fun _ _ _ h => h) fun _ _ _ _ => trivial

/-! ## The pass -/

/-- An adapter call leaves its answer in the trace, after what was there before. -/
theorem coverage_call (call : AdapterCall) {α : Type}
    (read : adapterCalls.Ret call → Except AdapterError α) {F : Trace → Prop}
    (hF : ∀ tr tr', tr <:+ tr' → F tr → F tr') :
    (coverage n D B).Valid j pid (fun c => F c.trace) (callAdapter call read)
      (fun a c => F c.trace ∧ ∃ r before, read r = .ok a ∧
        (⟨pid, .other call, r⟩ :: before) <:+ c.trace ∧ F before) fun _ _ => True := by
  let G : adapterCalls.Ret call → Trace → Prop := fun r tr =>
    F tr ∧ ∃ before, (⟨pid, .other call, r⟩ :: before) <:+ tr ∧ F before
  have hG : ∀ r tr tr', tr <:+ tr' → G r tr → G r tr' := by
    rintro r tr tr' hs ⟨hf, before, hb, hfb⟩
    exact ⟨hF _ _ hs hf, before, hb.trans hs, hfb⟩
  refine Protocol.Valid.await (fun r c => G r c.trace) (fun r => coverage_stable (hG r))
    (fun c i r w _ hf _ hr => ?_) fun r => Protocol.Valid.ofExcept ?_ fun _ _ _ _ _ => trivial
  · exact ⟨leaves_step trivial hr, hF _ _ (List.suffix_cons _ _) hf, c.trace, List.suffix_refl _, hf⟩
  · rintro a ha c - ⟨hf, before, hb, hfb⟩
    exact ⟨hf, r, before, ok_of_mapError ha, hb, hfb⟩

/-- The upsert returns a stored cursor, or stores a fresh one. -/
theorem upsertCursor_eq (db : Db) (network : String) :
    ((db.upsertCursor network).1 ∈ db.blockchainScanCursors ∧
        (db.upsertCursor network).2 = db ∨ (db.upsertCursor network).1.lastScannedBlock = -1) ∧
      (db.upsertCursor network).1.network = network ∧
      ∀ cur ∈ (db.upsertCursor network).2.blockchainScanCursors,
        cur ∈ db.blockchainScanCursors ∨ cur.lastScannedBlock = -1 := by
  unfold Db.upsertCursor
  split
  · rename_i cur h
    obtain ⟨hmem, hnet⟩ := Data.Table.find?_eq_some_iff.mp h
    exact ⟨.inl ⟨hmem, rfl⟩, hnet, fun _ h => .inl h⟩
  · dsimp only
    split
    · rename_i t ht
      refine ⟨.inr rfl, rfl, fun cur hcur => ?_⟩
      rcases ((Data.Table.insert?_eq_some ht).2 cur).1 hcur with rfl | hcur
      · exact .inr rfl
      · exact .inl hcur
    · exact ⟨.inr rfl, rfl, fun _ h => .inl h⟩

theorem scannedTo_nothing (tr : Trace) : ScannedTo (-1) tr := fun h h0 hn => by omega

/-- The cursor that a pass starts from stands for scanned heights. -/
theorem cursorUpsert_valid :
    (coverage n D B).Valid j pid (fun _ => True)
      (prisma (.blockchainScanCursorUpsert D.network) : Action adapterCalls BlockchainScanCursor)
      (fun (cur : BlockchainScanCursor) c => ScannedTo cur.lastScannedBlock c.trace)
      fun _ _ => True := by
  let F : Except Error BlockchainScanCursor → Trace → Prop := fun r tr =>
    ∀ cur, r = .ok cur → ScannedTo cur.lastScannedBlock tr
  refine Protocol.Valid.await (fun r c => F r c.trace)
    (fun r => coverage_stable fun _ _ hs h cur hr => (h cur hr).mono hs)
    (fun c i r w hI _ _ hr => ?_) fun r => Protocol.Valid.ofExcept (fun cur hr c _ h => h cur hr)
      fun _ _ _ _ _ => trivial
  rcases respond_prisma hr with ⟨rfl, rfl⟩ | ⟨rfl, rfl⟩
  · obtain ⟨hret, hnet, hrows⟩ := upsertCursor_eq c.state.db D.network
    refine ⟨⟨List.suffix_cons _ _, fun cur hcur _ => ?_⟩, ?_⟩
    · refine (hrows cur hcur).imp_right fun h => ?_
      rw [h]
      exact scannedTo_nothing _
    · rintro cur ⟨⟩
      rcases hret with ⟨hmem, -⟩ | hfresh
      · exact (hI _ hmem hnet).mono (List.suffix_cons _ _)
      · show ScannedTo (c.state.db.upsertCursor D.network).1.lastScannedBlock _
        rw [hfresh]
        exact scannedTo_nothing _
  · exact ⟨⟨List.suffix_cons _ _, fun cur hcur _ => .inl hcur⟩, nofun⟩

/-- The update writes its height to every row that it changes. -/
theorem cursorUpdate_rows {now : Time} {db' : Db} {network : String} {b : ℤ}
    (h : db.transaction now [.blockchainScanCursorUpdate network b] = .ok db') :
    ∀ cur ∈ db'.blockchainScanCursors,
      cur ∈ db.blockchainScanCursors ∨ cur.lastScannedBlock = b := by
  obtain ⟨db₁, hw, hnil⟩ := transaction_cons h
  have hdb' := (transaction_nil hnil).trans (blockchainScanCursorUpdate_ok hw)
  subst hdb'
  intro cur hcur
  obtain ⟨cur₀, hcur₀, rfl⟩ := List.mem_map.mp (Data.Table.mem_def.mp hcur)
  split_ifs
  · exact .inr rfl
  · exact .inl hcur₀

/-- Moving the cursor to a height up to which everything is scanned. -/
theorem cursorUpdate_valid (b : ℤ) :
    (coverage n D B).Valid j pid (fun c => ScannedTo b c.trace)
      (transaction [.blockchainScanCursorUpdate D.network b]) (fun _ _ => True)
      fun _ _ => True := by
  refine Protocol.Valid.await (fun _ _ => True)
    (fun _ => coverage_stable (F := fun _ => True) fun _ _ _ _ => trivial)
    (fun c i r w _ hb _ hr => ⟨⟨List.suffix_cons _ _, fun cur hcur _ => ?_⟩, trivial⟩)
    fun r => Protocol.Valid.ofExcept (fun _ _ _ _ _ => trivial) fun _ _ _ _ _ => trivial
  rcases respond_transaction hr with ⟨db, hdb, -, rfl⟩ | ⟨-, rfl⟩
  · refine (cursorUpdate_rows hdb cur hcur).imp_right fun h => ?_
    rw [h]
    exact hb.mono (List.suffix_cons _ _)
  · exact .inl hcur

/-- Passing a transfer to `tryMatchTransfer` and completing it. -/
theorem passTransfer_valid (t : TokenTransfer) {F : Trace → Prop}
    (hF : ∀ tr tr', tr <:+ tr' → F tr → F tr') :
    (coverage n D B).Valid j pid (fun c => F c.trace) (passTransfer t)
      (fun _ c => F c.trace ∧ Processed pid t c.trace) fun _ _ => True := by
  have hmark : ∀ (m : Mark) {G : Trace → Prop}, (∀ tr tr', tr <:+ tr' → G tr → G tr') →
      (coverage n D B).Valid j pid (fun c => G c.trace) (mark m : Action adapterCalls Unit)
        (fun _ c => G c.trace ∧ ⟨pid, .mark m, ()⟩ ∈ c.trace) fun _ _ => True := by
    intro m G hG
    have hG' : ∀ tr tr' : Trace, tr <:+ tr' → G tr ∧ ⟨pid, .mark m, ()⟩ ∈ tr →
        G tr' ∧ ⟨pid, .mark m, ()⟩ ∈ tr' := fun _ _ hs h => ⟨hG _ _ hs h.1, hs.mem h.2⟩
    refine Protocol.Valid.perform (fun _ => coverage_stable hG') fun c i r w _ hg _ hr => ?_
    exact ⟨leaves_step trivial hr, hG _ _ (List.suffix_cons _ _) hg, List.mem_cons_self⟩
  have hF₁ : ∀ tr tr' : Trace, tr <:+ tr' → F tr ∧ ⟨pid, .mark (.passed t), ()⟩ ∈ tr →
      F tr' ∧ ⟨pid, .mark (.passed t), ()⟩ ∈ tr' :=
    fun _ _ hs h => ⟨hF _ _ hs h.1, hs.mem h.2⟩
  refine (hmark (.passed t) hF).bind fun _ => ?_
  refine (leaves_valid (matchTransfer_leaves t) hF₁).bind fun _ => ?_
  exact (hmark (.processed t) hF₁).post (fun _ _ _ h => ⟨h.1.1, h.1.2, h.2⟩) fun _ _ _ h => h

/-- A pass keeps the cursors at heights up to which everything is scanned. -/
theorem runBlockchainScan_valid :
    (coverage n D B).Valid j pid (fun _ => True)
      (runBlockchainScan (oracle D.validateAddress) D.network) (fun _ _ => True)
      fun _ _ => True := by
  refine cursorUpsert_valid.bind fun cursor => ?_
  refine (coverage_call .getLatestBlock id fun _ _ hs h => h.mono hs).bind fun latestBlock => ?_
  dsimp only
  split_ifs
  · exact .pure fun _ _ _ => trivial
  -- from here on the pass knows which answer its head was
  let F : Trace → Prop := fun tr => ScannedTo cursor.lastScannedBlock tr ∧
    ⟨pid, .other .getLatestBlock, .ok latestBlock⟩ ∈ tr
  have hF : ∀ tr tr', tr <:+ tr' → F tr → F tr' := fun _ _ hs h => ⟨h.1.mono hs, hs.mem h.2⟩
  refine Protocol.Valid.pre (P := fun c => F c.trace) ?_ ?_
  swap
  · rintro c - ⟨hscanned, r, before, hr, hb, -⟩
    exact ⟨hscanned, hb.mem (hr ▸ List.mem_cons_self)⟩
  refine (coverage_call (.getTokenTransfers _ _) id hF).bind fun ts => ?_
  -- the loop has processed the transfers that no longer remain
  let G : List TokenTransfer → Trace → Prop := fun rest tr =>
    ScannedTo cursor.lastScannedBlock tr ∧
      (∃ before, Queried pid (cursor.lastScannedBlock + 1) latestBlock ts tr before) ∧
      ∀ t ∈ ts, t ∈ rest ∨ Processed pid t tr
  have hG : ∀ rest tr tr', tr <:+ tr' → G rest tr → G rest tr' := by
    rintro rest tr tr' hs ⟨hsc, ⟨before, hq⟩, hp⟩
    exact ⟨hsc.mono hs, ⟨before, hq.mono hs⟩, fun t ht => (hp t ht).imp_right (·.mono hs)⟩
  refine Protocol.Valid.pre (P := fun c => G ts c.trace) ?_ ?_
  swap
  · rintro c - ⟨hf, r, before, hr, hb, hfb⟩
    exact ⟨hf.1, ⟨before, hr ▸ hb, hfb.2⟩, fun t ht => .inl ht⟩
  refine Protocol.Valid.bind (Protocol.Valid.forEach (fun rest c => G rest c.trace)
    (fun t rest => ?_) ts) fun _ => ?_
  · refine (passTransfer_valid t (hG (t :: rest))).post (fun _ c _ h => ?_) fun _ _ _ h => h
    obtain ⟨⟨hsc, hq, hp⟩, hdone⟩ := h
    refine ⟨hsc, hq, fun t' ht' => ?_⟩
    rcases hp t' ht' with hmem | hp
    · rcases List.mem_cons.mp hmem with rfl | hmem
      · exact .inr hdone
      · exact .inl hmem
    · exact .inr hp
  · refine (cursorUpdate_valid latestBlock).pre fun c _ h => ?_
    obtain ⟨hsc, ⟨before, hq⟩, hp⟩ := h
    exact hsc.extend hq fun t ht => (hp t ht).resolve_left List.not_mem_nil

/-! ## The system -/

theorem coverage_sound (n : Replicas) (D : Setup) (B : Backend adapterCalls ω Answer η) :
    (coverage n D B).Sound where
  initial w hw cur hcur hn := absurd hn (hw cur hcur)
  env c act w hI hw cur hcur hn := by
    have hsame : w.db.blockchainScanCursors = c.state.db.blockchainScanCursors := by
      cases act with
      | clock t => simp only [coverage, machine, environment] at hw; split_ifs at hw; cases hw; rfl
      | reorderInvoices rows =>
        simp only [coverage, machine, environment] at hw; split_ifs at hw; cases hw; rfl
      | reorderPayments rows =>
        simp only [coverage, machine, environment] at hw; split_ifs at hw; cases hw; rfl
      | other e =>
        simp only [coverage, machine, environment, Option.map_eq_some_iff] at hw
        obtain ⟨o, -, rfl⟩ := hw
        rfl
    exact hI cur (hsame ▸ hcur) hn
  step j pid c c' hI hs := hI.step hs
  job j pid := by
    refine ⟨fun _ => True, coverage_stable (F := fun _ => True) fun _ _ _ _ => trivial,
      fun _ _ _ => trivial, ?_⟩
    have hleaves : ∀ {p : Action adapterCalls Unit}, Leaves p →
        (coverage n D B).Valid j pid (fun _ => True) p (fun _ _ => True) fun _ _ => True :=
      fun hp => leaves_valid (F := fun _ => True) hp fun _ _ _ _ => trivial
    cases j with
    | scan => exact runBlockchainScan_valid
    | confirm => exact hleaves (runPaymentConfirm_leaves _ fun _ => .request trivial)
    | createInvoice organizationId apiKeyId input ctx =>
      exact hleaves (((Api.create_administrative _ _ _ _ _).imp fun _ => Administrative.leaves).bind
        fun _ => trivial)
    | setWalletAddress organizationId userId input ctx =>
      exact hleaves (((Api.set_administrative _ _ _ _ _).imp fun _ => Administrative.leaves).bind
        fun _ => trivial)

end CryptoPay.Worker
