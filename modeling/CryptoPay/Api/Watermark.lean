import CryptoPay.Api.FakeRuns
import CryptoPay.Api.Footprint
import CryptoPay.Async.History
import CryptoPay.Blockchain.FakeIndexes

/-!
# The watermark of the fake chain

`detectNewPayments` scans up to the latest block and lets `lastScannedBlock` lag one block behind,
because a payment may still land in the block that is open. `activities` are the programs of the
API process, with a mark before and after each call of `tryMatchTransfer`, and calls of
`simulatePayment` by anyone else.

Results:
* `activities_expected`: a tick moves the watermark only after it has tried what it fetched.
* `Grows`: what the memory keeps as the clock advances; a block below the current one is closed.
* `nothing_missed`: whatever is simulated at or below the watermark has been tried.
-/

namespace CryptoPay.Api

open Async Fake

/-! ## The activities -/

/-- What may run beside the clock. -/
inductive Activity where
  /-- A call of `FakeBlockchainAdapter.simulatePayment`. -/
  | simulate (input : Fake.SimulatePaymentInput)
  | job (j : Job)

instance : Inhabited Activity := ⟨.job .tick⟩

/-- Any number of payments and jobs. -/
def activities (C : Config) : Workload (effects fakeCalls) Error Activity where
  launch
    | .simulate input => do
      let _ ← (.perform (S := effects fakeCalls) (.other (.simulatePayment input)) :
        Service TokenTransfer)
      return ()
    | .job j => launchWith passTransfer C j
  compatible _ _ := true
  symm _ _ := rfl

/-- The memory of one process lifetime, under a clock that is never set back. -/
def lifetime (blockTime : BlockTime) : Backend fakeCalls Memory Chance Restart where
  respond := Fake.respond blockTime
  env _ _ := none
  restarts _ := true
  tick now t := decide (now ≤ t)

abbrev Lifetime (C : Config) : System (effects fakeCalls) Error Activity (World Memory) → Prop :=
  Reachable (machine (lifetime C.blockTime)) (activities C) Unused anything

/-! ## What a tick has done when it moves the watermark -/

abbrev Calls := List (Event (effects fakeCalls))

/-- The call got this reply. -/
def Got (call : Call) (r : fakeCalls.Ret call) (h : Calls) : Prop :=
  ∃ pid, (⟨pid, .other call, r⟩ : Event (effects fakeCalls)) ∈ h

/-- The transfer was passed to `tryMatchTransfer`, which completed. -/
structure Tried (t : TokenTransfer) (h : Calls) : Prop where
  passed : ∃ pid, (⟨pid, .mark (.passed t), ()⟩ : Event (effects fakeCalls)) ∈ h
  processed : ∃ pid, (⟨pid, .mark (.processed t), ()⟩ : Event (effects fakeCalls)) ∈ h

/-- The range that ends at `latest` is empty, or all that was fetched of it has been tried. -/
def Swept (latest : ℤ) (h : Calls) : Prop :=
  ∃ scanned : ℤ, Got .lastScannedBlock scanned h ∧ (scanned < latest →
    ∃ ts : List TokenTransfer, Got (.getTokenTransfers (scanned + 1) latest) ts h ∧
      ∀ t ∈ ts, Tried t h)

/-- The transfers that `simulatePayment` has returned, newest first. -/
def simulated (h : Calls) : List TokenTransfer :=
  h.filterMap fun
    | ⟨_, .other (.simulatePayment _), transfer⟩ => some transfer
    | _ => none

section Growth

variable {call : Call} {r : fakeCalls.Ret call} {t : TokenTransfer} {h h' : Calls}

theorem Got.mono (hgot : Got call r h) (hs : h ⊆ h') : Got call r h' :=
  hgot.imp fun _ hev => hs hev

theorem Tried.mono (ht : Tried t h) (hs : h ⊆ h') : Tried t h' :=
  ⟨ht.passed.imp fun _ hev => hs hev, ht.processed.imp fun _ hev => hs hev⟩

theorem Swept.mono {latest : ℤ} (hswept : Swept latest h) (hs : h ⊆ h') : Swept latest h' := by
  obtain ⟨scanned, hscanned, hrange⟩ := hswept
  refine ⟨scanned, hscanned.mono hs, fun hlt => ?_⟩
  obtain ⟨ts, hts, htried⟩ := hrange hlt
  exact ⟨ts, hts.mono hs, fun t ht => (htried t ht).mono hs⟩

theorem Got.cons {ev : Event (effects fakeCalls)} (hgot : Got call r (ev :: h)) :
    (∃ pid, ev = ⟨pid, .other call, r⟩) ∨ Got call r h := by
  obtain ⟨pid, hev⟩ := hgot
  rcases List.mem_cons.mp hev with heq | hev
  · exact .inl ⟨pid, heq.symm⟩
  · exact .inr ⟨pid, hev⟩

theorem mem_simulated : t ∈ simulated h ↔ ∃ input, Got (.simulatePayment input) t h := by
  unfold simulated
  rw [List.mem_filterMap]
  constructor
  · rintro ⟨⟨pid, op, r⟩, hev, hsome⟩
    split at hsome
    · rename_i pid' input t' heq
      cases Option.some.inj hsome
      exact ⟨input, pid', heq ▸ hev⟩
    · cases hsome
  · rintro ⟨input, pid, hev⟩
    exact ⟨_, hev, rfl⟩

end Growth

/-- When a process scans blocks, and when it moves the watermark. -/
def Scans (h : Calls) : Op fakeCalls → Prop
  | .other (.getTokenTransfers _ latest) => Got .getLatestBlock latest h
  | .other (.advanceLastScannedBlock latest) => Got .getLatestBlock latest h ∧ Swept latest h
  | _ => True

/-- The request neither scans blocks nor moves the watermark. -/
def Still : Op fakeCalls → Prop
  | .other (.getTokenTransfers ..) => False
  | .other (.advanceLastScannedBlock _) => False
  | _ => True

theorem Still.scans {op : Op fakeCalls} (hop : Still op) (h : Calls) : Scans h op := by
  unfold Scans
  split
  · exact hop.elim
  · exact hop.elim
  · trivial

theorem Processing.still {op : Op fakeCalls} (hop : Processing op) : Still op := by
  unfold Still
  split
  · exact hop.elim
  · exact hop.elim
  · trivial

section Still

theorem prisma_still (call : PrismaCall) : (prisma call : Service call.Ret).Only Still :=
  .request trivial

theorem matchTransfer_still (t : TokenTransfer) : (matchTransfer t : Service Unit).Only Still :=
  matchTransfer_only (fun _ => trivial) trivial trivial t

theorem processing_still {α : Type} {p : Service α} (hp : p.Only Processing) : p.Only Still :=
  hp.imp fun _ hop => Processing.still hop

theorem administrative_still {α : Type} {p : Service α} (hp : p.Only Administrative) :
    (p >>= fun _ => (return ()) : Service Unit).Only Still :=
  (processing_still (hp.imp fun _ hop => Administrative.processing hop)).bind fun _ => trivial

end Still

section Obeys

variable {pid : ℕ} {h : Calls} {α : Type}

/-- The requests of the past stay. -/
theorem still_obeys {p : Service α} (hp : p.Only Still) :
    p.Obeys Scans pid (fun _ h' => h <:+ h') (fun _ _ => True) h :=
  ((Prog.Obeys.only hp (fun _ h' hop _ => hop.scans h')
    (fun _ _ _ _ hs => hs.trans (List.suffix_cons _ _)) List.suffix_rfl).post
      (fun _ _ hs => hs) fun _ _ _ => trivial :)

/-- The transfer has been tried when `passTransfer` returns. -/
theorem passTransfer_obeys (t : TokenTransfer) :
    (passTransfer t : Service Unit).Obeys Scans pid (fun _ h' => h ⊆ h' ∧ Tried t h')
      (fun _ _ => True) h := by
  refine ⟨trivial, fun _ => ?_⟩
  show Prog.Obeys _ _ _ _ (matchTransfer t >>= _) _
  refine Prog.obeys_bind.mpr ((still_obeys (matchTransfer_still t)).post (fun _ h' hs => ?_)
    fun _ _ _ => trivial)
  refine ⟨trivial, fun _ => ⟨fun ev hev => ?_, ⟨pid, ?_⟩, ⟨pid, List.mem_cons_self⟩⟩⟩
  · exact List.mem_cons_of_mem _ (hs.subset (List.mem_cons_of_mem _ hev))
  · exact List.mem_cons_of_mem _ (hs.subset List.mem_cons_self)

theorem forEach_obeys (ts : List TokenTransfer) :
    (Prog.forEach passTransfer ts : Service Unit).Obeys Scans pid
      (fun _ h' => h ⊆ h' ∧ ∀ t ∈ ts, Tried t h') (fun _ _ => True) h := by
  refine (Prog.Obeys.forEach (X := fun _ _ => True)
    (fun rest h' => h ⊆ h' ∧ ∀ t ∈ ts, t ∈ rest ∨ Tried t h') (fun t rest h' hI => ?_)
    ⟨fun _ hev => hev, fun t ht => .inl ht⟩).post
      (fun _ h' hI => ⟨hI.1, fun t ht => (hI.2 t ht).resolve_left List.not_mem_nil⟩)
      fun _ _ _ => trivial
  refine (passTransfer_obeys t).post (fun _ h'' hpassed => ?_) fun _ _ _ => trivial
  refine ⟨fun ev hev => hpassed.1 (hI.1 hev), fun t' ht' => ?_⟩
  rcases hI.2 t' ht' with hrest | htried
  · rcases List.mem_cons.mp hrest with rfl | hrest
    · exact .inr hpassed.2
    · exact .inl hrest
  · exact .inr (htried.mono hpassed.1)

theorem detectNewPaymentsWith_obeys :
    (detectNewPaymentsWith passTransfer).Obeys Scans pid (fun _ _ => True) (fun _ _ => True) h := by
  refine ⟨trivial, fun (latest : ℤ) => ⟨trivial, fun (scanned : ℤ) => ?_⟩⟩
  have hlatest : Got .getLatestBlock latest (⟨pid, .other .lastScannedBlock, scanned⟩ ::
      ⟨pid, .other .getLatestBlock, latest⟩ :: h) :=
    ⟨pid, List.mem_cons_of_mem _ List.mem_cons_self⟩
  have hscanned : Got .lastScannedBlock scanned (⟨pid, .other .lastScannedBlock, scanned⟩ ::
      ⟨pid, .other .getLatestBlock, latest⟩ :: h) := ⟨pid, List.mem_cons_self⟩
  have hadvance : ∀ {h' : Calls}, Got .getLatestBlock latest h' → Swept latest h' →
      (advanceLastScannedBlock latest).Obeys Scans pid (fun _ _ => True) (fun _ _ => True) h' :=
    fun hl hs => ⟨⟨hl, hs⟩, fun _ => trivial⟩
  by_cases hnew : latest > scanned
  · show Prog.Obeys _ _ _ _ (if latest > scanned then _ else _) _
    rw [if_pos hnew]
    refine ⟨hlatest, fun (ts : List TokenTransfer) => ?_⟩
    show Prog.Obeys _ _ _ _ (Prog.forEach passTransfer ts >>= _) _
    refine Prog.obeys_bind.mpr ((forEach_obeys ts).post (fun _ h' htried => ?_)
      fun _ _ _ => trivial)
    have hs := List.subset_of_cons_subset htried.1
    refine hadvance (hlatest.mono hs) ⟨scanned, hscanned.mono hs, fun _ => ⟨ts, ?_, htried.2⟩⟩
    exact ⟨pid, htried.1 List.mem_cons_self⟩
  · show Prog.Obeys _ _ _ _ (if latest > scanned then _ else _) _
    rw [if_neg hnew]
    exact hadvance hlatest ⟨scanned, hscanned, fun hlt => absurd hlt hnew⟩

theorem tickWith_obeys (requiredConfirmations : ℤ) :
    (tickWith passTransfer requiredConfirmations).Obeys Scans pid (fun _ _ => True)
      (fun _ _ => True) h := by
  refine ⟨trivial, fun (entered : Bool) => ?_⟩
  cases entered with
  | false => trivial
  | true =>
    show Prog.Obeys _ _ _ _ ((processPaymentsWith passTransfer requiredConfirmations).attempt >>= _) _
    refine Prog.obeys_bind.mpr (Prog.obeys_attempt.mpr ?_)
    have hleave : ∀ (x : Except Error Unit) (h' : Calls), (leaveTick >>= fun _ => .ofExcept x :
        Service Unit).Obeys Scans pid (fun _ _ => True) (fun _ _ => True) h' :=
      fun x h' => ⟨trivial, fun _ => Prog.obeys_ofExcept.mpr ⟨fun _ _ => trivial, fun _ _ => trivial⟩⟩
    refine Prog.Obeys.post (Q := fun _ _ => True) (X := fun _ _ => True) ?_
      (fun _ h' _ => hleave _ h') fun _ h' _ => hleave _ h'
    refine Prog.obeys_bind.mpr ((still_obeys
      (processing_still expireOverdueInvoices_processing)).post (fun _ _ _ => ?_)
      fun _ _ _ => trivial)
    refine Prog.obeys_bind.mpr (detectNewPaymentsWith_obeys.post (fun _ _ _ => ?_) fun _ _ _ => trivial)
    exact (still_obeys (processing_still (advanceConfirmations_processing _))).post
      (fun _ _ _ => trivial) fun _ _ _ => trivial

theorem doSimulatePaymentWith_obeys (requiredConfirmations : ℤ) (invoice : Invoice)
    (input : SimulatePaymentInput) :
    (doSimulatePaymentWith passTransfer requiredConfirmations invoice input).Obeys Scans pid
      (fun _ _ => True) (fun _ _ => True) h := by
  unfold doSimulatePaymentWith registryGet
  split_ifs
  · trivial
  · refine ⟨trivial, fun _ => ?_⟩
    show Prog.Obeys _ _ _ _ (tickWith passTransfer requiredConfirmations >>= _) _
    refine Prog.obeys_bind.mpr ((tickWith_obeys _).post (fun _ _ _ => ?_) fun _ _ _ => trivial)
    refine Prog.obeys_bind.mpr ((still_obeys (prisma_still _)).post (fun updated _ _ => ?_)
      fun _ _ _ => trivial)
    cases updated <;> trivial
  · trivial

/-- Every activity scans no block that is not produced, and moves the watermark only over what it
    has tried. -/
theorem activities_expected (C : Config) : (activities C).Obeys fun _ => Scans := by
  intro a pid
  cases a with
  | simulate input => exact ⟨trivial, fun _ => trivial⟩
  | job j =>
    cases j with
    | createInvoice organizationId apiKeyId input ctx =>
      exact (still_obeys (administrative_still
        (create_administrative .fake organizationId apiKeyId input ctx))).post
          (fun _ _ _ => trivial) fun _ _ _ => trivial
    | setWalletAddress organizationId userId input ctx =>
      exact (still_obeys (administrative_still
        (set_administrative adapter organizationId userId input ctx))).post
          (fun _ _ _ => trivial) fun _ _ _ => trivial
    | simulatePayment organizationId invoiceId input =>
      refine Prog.obeys_bind.mpr (Prog.obeys_bind.mpr ((still_obeys (prisma_still _)).post
        (fun invoice _ _ => ?_) fun _ _ _ => trivial))
      cases invoice with
      | none => trivial
      | some invoice => exact doSimulatePaymentWith_obeys _ _ _
    | simulatePaymentForCheckout invoiceId input =>
      refine Prog.obeys_bind.mpr (Prog.obeys_bind.mpr ((still_obeys (prisma_still _)).post
        (fun invoice _ _ => ?_) fun _ _ _ => trivial))
      cases invoice with
      | none => trivial
      | some invoice => exact doSimulatePaymentWith_obeys _ _ _
    | tick => exact tickWith_obeys _

end Obeys

/-! ## What the memory keeps -/

/-- The latest block. -/
def head (blockTime : BlockTime) (w : World Memory) : ℤ :=
  currentBlock blockTime w.clock w.other.adapter

/-- Nothing is forgotten, and no block below the latest one changes. -/
structure Grows (blockTime : BlockTime) (w w' : World Memory) : Prop where
  head : head blockTime w ≤ head blockTime w'
  watermark : w.other.lastScannedBlock ≤ w'.other.lastScannedBlock
  kept : ∀ n, ∀ t ∈ w.other.adapter.transfersByBlock n, t ∈ w'.other.adapter.transfersByBlock n
  closed : ∀ n < Api.head blockTime w,
    w'.other.adapter.transfersByBlock n = w.other.adapter.transfersByBlock n

section Grows

variable {blockTime : BlockTime} {w w' w'' : World Memory} {pid : ℕ}

theorem Grows.of_eq (hclock : w'.clock = w.clock) (hadapter : w'.other.adapter = w.other.adapter)
    (hmark : w.other.lastScannedBlock ≤ w'.other.lastScannedBlock) : Grows blockTime w w' where
  head := by
    unfold Api.head
    rw [hclock, hadapter]
  watermark := hmark
  kept n t ht := by rwa [hadapter]
  closed n _ := by rw [hadapter]

theorem Grows.refl (w : World Memory) : Grows blockTime w w := .of_eq rfl rfl (Int.le_refl _)

theorem Grows.trans (h : Grows blockTime w w') (h' : Grows blockTime w' w'') :
    Grows blockTime w w'' where
  head := h.head.trans h'.head
  watermark := h.watermark.trans h'.watermark
  kept n t ht := h'.kept n t (h.kept n t ht)
  closed n hn := (h'.closed n (lt_of_lt_of_le hn h.head)).trans (h.closed n hn)

/-- A payment lands in the latest block. -/
theorem Grows.record (w : World Memory) {transfer : TokenTransfer}
    (hblock : transfer.blockNumber = Api.head blockTime w) : Grows blockTime w
      { w with other := { w.other with adapter := w.other.adapter.record transfer } } where
  head := Int.le_refl _
  watermark := Int.le_refl _
  kept n t ht := by
    show t ∈ Function.update w.other.adapter.transfersByBlock _ _ n
    by_cases hn : n = transfer.blockNumber
    · rw [hn, Function.update_self]
      exact List.mem_append_left _ (hn ▸ ht)
    · rwa [Function.update_of_ne hn]
  closed n hn := by
    show Function.update w.other.adapter.transfersByBlock _ _ n = _
    rw [Function.update_of_ne]
    intro heq
    rw [heq, hblock] at hn
    exact Int.lt_irrefl _ hn

theorem enterTick_keeps {now : Time} {m m' : Memory} {k : Chance} {r : Bool}
    (h : Fake.respond blockTime pid now m .enterTick k = some (r, m')) :
    m'.adapter = m.adapter ∧ m'.lastScannedBlock = m.lastScannedBlock := by
  cases k with
  | ok =>
    simp only [Fake.respond] at h
    split at h <;> cases h <;> exact ⟨rfl, rfl⟩
  | transfer hash digits => cases h

/-- The memory after a call. -/
theorem Grows.respond {m : Memory} {call : Call} {k : Chance} {r : fakeCalls.Ret call}
    (h : Fake.respond blockTime pid w.clock w.other call k = some (r, m)) :
    Grows blockTime w { w with other := m } := by
  cases call with
  | enterTick => exact .of_eq rfl (enterTick_keeps h).1 (enterTick_keeps h).2.ge
  | simulatePayment input =>
    cases k with
    | ok => cases h
    | transfer hash digits =>
      cases h
      exact .record w rfl
  | advanceLastScannedBlock latest =>
    cases k <;> cases h
    exact .of_eq rfl rfl (le_max_left _ _)
  | _ =>
    cases k <;> cases h
    exact .of_eq rfl rfl (Int.le_refl _)

theorem respond_watermark {now : Time} {m m' : Memory} {call : Call} {k : Chance}
    {r : fakeCalls.Ret call} (h : Fake.respond blockTime pid now m call k = some (r, m'))
    (hcall : ∀ latest, call ≠ .advanceLastScannedBlock latest) :
    m'.lastScannedBlock = m.lastScannedBlock := by
  cases call with
  | advanceLastScannedBlock latest => exact absurd rfl (hcall latest)
  | enterTick => exact (enterTick_keeps h).2
  | _ =>
    cases k <;> cases h
    rfl

theorem Grows.answer {op : Op fakeCalls} {i : Input Chance} {r : (effects fakeCalls).Ret op}
    (h : CryptoPay.respond (lifetime blockTime) pid w op i = some (r, w')) :
    Grows blockTime w w' := by
  cases op with
  | prisma call =>
    rcases respond_prisma h with ⟨-, rfl⟩ | ⟨-, rfl⟩
    · exact .of_eq rfl rfl (Int.le_refl _)
    · exact .refl w'
  | now => rw [(respond_now h).2]; exact .refl w
  | generateId stem => rw [respond_generateId h]; exact .refl w
  | generateFakeAddress => rw [respond_generateFakeAddress h]; exact .refl w
  | cuid => rw [respond_cuid h]; exact .refl w
  | mark m => rw [respond_mark h]; exact .refl w
  | other call =>
    obtain ⟨k, o, hr, rfl⟩ := respond_other h
    exact .respond hr

/-- Only a tick that ends its scan moves the watermark. -/
theorem answer_watermark {op : Op fakeCalls} {i : Input Chance} {r : (effects fakeCalls).Ret op}
    (h : CryptoPay.respond (lifetime blockTime) pid w op i = some (r, w'))
    (hop : ∀ latest, op ≠ .other (.advanceLastScannedBlock latest)) :
    w'.other.lastScannedBlock = w.other.lastScannedBlock := by
  cases op with
  | prisma call => rcases respond_prisma h with ⟨-, rfl⟩ | ⟨-, rfl⟩ <;> rfl
  | now => rw [(respond_now h).2]
  | generateId stem => rw [respond_generateId h]
  | generateFakeAddress => rw [respond_generateFakeAddress h]
  | cuid => rw [respond_cuid h]
  | mark m => rw [respond_mark h]
  | other call =>
    obtain ⟨k, m, hm, rfl⟩ := respond_other h
    exact respond_watermark hm fun latest hcall => hop latest (congrArg Op.other hcall)

/-- Only the clock moves, and it is not set back. -/
theorem environment_other {act : Act Restart}
    (h : CryptoPay.environment (lifetime blockTime) w act = some w') :
    w.clock ≤ w'.clock ∧ w'.other = w.other := by
  cases act with
  | clock t =>
    simp only [CryptoPay.environment] at h
    split_ifs at h with hle
    obtain rfl := Option.some.inj h
    exact ⟨of_decide_eq_true hle, rfl⟩
  | reorderInvoices rows =>
    simp only [CryptoPay.environment] at h
    split_ifs at h
    cases h
    exact ⟨Int.le_refl _, rfl⟩
  | reorderPayments rows =>
    simp only [CryptoPay.environment] at h
    split_ifs at h
    cases h
    exact ⟨Int.le_refl _, rfl⟩
  | other e => cases h

theorem Grows.environment {act : Act Restart}
    (h : CryptoPay.environment (lifetime blockTime) w act = some w') : Grows blockTime w w' := by
  obtain ⟨hclock, hother⟩ := environment_other h
  refine ⟨?_, ?_, fun n t ht => ?_, fun n _ => ?_⟩
  · unfold Api.head
    rw [hother]
    exact currentBlock_mono hclock
  · rw [hother]
  · rwa [hother]
  · rw [hother]

end Grows

/-! ## What a reply still says -/

/-- What a reply of the past says about the memory. -/
def Tells (blockTime : BlockTime) (w : World Memory) : (call : Call) → fakeCalls.Ret call → Prop
  | .getLatestBlock, (latest : ℤ) => latest ≤ head blockTime w
  | .lastScannedBlock, (scanned : ℤ) => scanned ≤ w.other.lastScannedBlock
  | .getTokenTransfers a b, (ts : List TokenTransfer) =>
    b ≤ head blockTime w ∧ ∀ n, a ≤ n → n < b → ∀ t ∈ w.other.adapter.transfersByBlock n, t ∈ ts
  | .simulatePayment _, (t : TokenTransfer) =>
    t.blockNumber ≤ head blockTime w ∧ t ∈ w.other.adapter.transfersByBlock t.blockNumber
  | _, _ => True

section Tells

variable {blockTime : BlockTime} {w w' : World Memory} {call : Call} {r : fakeCalls.Ret call}

theorem Tells.mono (h : Tells blockTime w call r) (hw : Grows blockTime w w') :
    Tells blockTime w' call r := by
  cases call with
  | getLatestBlock => exact Int.le_trans h hw.head
  | lastScannedBlock => exact Int.le_trans h hw.watermark
  | getTokenTransfers a b =>
    refine ⟨h.1.trans hw.head, fun n ha hb t ht => h.2 n ha hb t ?_⟩
    rwa [hw.closed n (lt_of_lt_of_le hb h.1)] at ht
  | simulatePayment input => exact ⟨h.1.trans hw.head, hw.kept _ _ h.2⟩
  | _ => trivial

/-- A range that ends at a produced block is fetched as a whole. -/
theorem tells_of_respond {pid : ℕ} {m : Memory} {k : Chance}
    (h : Fake.respond blockTime pid w.clock w.other call k = some (r, m))
    (hrange : ∀ a b, call = .getTokenTransfers a b → b ≤ head blockTime w) :
    Tells blockTime { w with other := m } call r := by
  cases call with
  | getLatestBlock =>
    cases k <;> cases h
    exact Int.le_refl _
  | lastScannedBlock =>
    cases k <;> cases h
    exact Int.le_refl _
  | getTokenTransfers a b =>
    cases k <;> cases h
    refine ⟨hrange a b rfl, fun n ha hb t ht => ?_⟩
    rw [getTokenTransfers_eq]
    exact Data.mem_scan.mpr ⟨n, ha, hb.le, ht⟩
  | simulatePayment input =>
    cases k with
    | ok => cases h
    | transfer hash digits =>
      cases h
      refine ⟨Int.le_refl _, ?_⟩
      show _ ∈ Function.update w.other.adapter.transfersByBlock _ _ _
      rw [Function.update_self]
      exact List.mem_append_right _ List.mem_cons_self
  | _ => trivial

end Tells

/-! ## Runs -/

/-- What holds between any two requests. -/
structure Watched (blockTime : BlockTime) (c : History fakeCalls Memory) : Prop where
  told : ∀ call r, Got call r c.trace → Tells blockTime c.state call r
  behind : c.state.other.lastScannedBlock < head blockTime c.state
  swept : ∀ n ≤ c.state.other.lastScannedBlock, ∀ t ∈ c.state.other.adapter.transfersByBlock n,
    Tried t c.trace

section Runs

variable {C : Config} {blockTime : BlockTime} {c : History fakeCalls Memory} {w' : World Memory}
  {ev : Event (effects fakeCalls)} {s s' : System (effects fakeCalls) Error Activity (World Memory)}

theorem Watched.unused {w : World Memory} (h : Unused w) : Watched blockTime ⟨w, []⟩ := by
  obtain ⟨-, -, -, now, hother⟩ := h
  refine ⟨fun call r hgot => ?_, ?_, fun n hn t ht => ?_⟩
  · obtain ⟨pid, hev⟩ := hgot
    cases hev
  · show w.other.lastScannedBlock < currentBlock blockTime w.clock w.other.adapter
    rw [hother]
    exact lt_of_lt_of_le (by decide : (-1 : ℤ) < 0) (le_max_left _ _)
  · rw [hother] at ht
    cases ht

/-- The watermark stays, and no transfer below it is new. -/
theorem Watched.keep (h : Watched blockTime c) (hw : Grows blockTime c.state w')
    (hmark : w'.other.lastScannedBlock = c.state.other.lastScannedBlock) :
    w'.other.lastScannedBlock < head blockTime w' ∧
      ∀ n ≤ w'.other.lastScannedBlock, ∀ t ∈ w'.other.adapter.transfersByBlock n,
        Tried t c.trace := by
  rw [hmark]
  refine ⟨lt_of_lt_of_le h.behind hw.head, fun n hn t ht => h.swept n hn t ?_⟩
  rwa [hw.closed n (lt_of_le_of_lt hn h.behind)] at ht

theorem Watched.environment (h : Watched blockTime c) {act : Act Restart}
    (hact : CryptoPay.environment (lifetime blockTime) c.state act = some w') :
    Watched blockTime { c with state := w' } := by
  have hw := Grows.environment hact
  obtain ⟨hbehind, hswept⟩ := h.keep hw 
    (congrArg Memory.lastScannedBlock (environment_other hact).2)
  exact ⟨fun call r hgot => (h.told call r hgot).mono hw, hbehind, hswept⟩

/-- A tick moves the watermark over blocks that it has fetched and tried. -/
theorem Watched.advance (h : Watched blockTime c) {latest : ℤ}
    (hlatest : Got .getLatestBlock latest c.trace) (hswept : Swept latest c.trace) :
    max c.state.other.lastScannedBlock (latest - 1) < head blockTime c.state ∧
      ∀ n ≤ max c.state.other.lastScannedBlock (latest - 1),
        ∀ t ∈ c.state.other.adapter.transfersByBlock n, Tried t c.trace := by
  have hhead : latest ≤ head blockTime c.state := h.told _ _ hlatest
  refine ⟨max_lt h.behind (by omega), fun n hn t ht => ?_⟩
  by_cases hold : n ≤ c.state.other.lastScannedBlock
  · exact h.swept n hold t ht
  · obtain ⟨scanned, hscanned, hrange⟩ := hswept
    have hle : scanned ≤ c.state.other.lastScannedBlock := h.told _ _ hscanned
    have hn' : n ≤ latest - 1 := (le_max_iff.mp hn).resolve_left hold
    obtain ⟨ts, hfetched, htried⟩ := hrange (by omega)
    exact htried t ((h.told _ _ hfetched).2 n (by omega) (by omega) t ht)

theorem Watched.answer {allowed : Condition (effects fakeCalls) (World Memory)}
    (h : Watched blockTime c)
    (hans : Answered (machine (lifetime blockTime)) allowed (fun _ : Activity => Scans) c ev w') :
    Watched blockTime ⟨w', ev :: c.trace⟩ := by
  obtain ⟨i, hr⟩ := hans.reply
  obtain ⟨-, hexp, -⟩ := hans.expected
  have hw : Grows blockTime c.state w' := Grows.answer hr
  have hold : c.trace ⊆ ev :: c.trace := List.subset_cons_of_subset _ fun _ hev => hev
  have hown : own ev.pid c.trace ⊆ c.trace := fun _ hev => (mem_own.mp hev).1
  have hrow : w'.other.lastScannedBlock < head blockTime w' ∧ ∀ n ≤ w'.other.lastScannedBlock,
      ∀ t ∈ w'.other.adapter.transfersByBlock n, Tried t c.trace := by
    by_cases hop : ∃ latest, ev.op = .other (.advanceLastScannedBlock latest)
    · obtain ⟨pid, op, r⟩ := ev
      obtain ⟨latest, rfl⟩ := hop
      obtain ⟨k, m, hm, rfl⟩ := respond_other hr
      cases k <;> cases hm
      exact h.advance (hexp.1.mono hown) (hexp.2.mono hown)
    · exact h.keep hw (answer_watermark hr fun latest hl => hop ⟨latest, hl⟩)
  refine ⟨fun call r hgot => ?_, hrow.1, fun n hn t ht => (hrow.2 n hn t ht).mono hold⟩
  rcases hgot.cons with ⟨pid, rfl⟩ | hgot
  · obtain ⟨k, m, hm, rfl⟩ := respond_other hr
    refine tells_of_respond hm fun a b hcall => ?_
    subst hcall
    exact h.told _ _ (Got.mono hexp hown)
  · exact (h.told call r hgot).mono hw

theorem Lifetime.watched (hs : Lifetime C s) : Watched C.blockTime s.config :=
  hs.invariant (activities_expected C) (fun _ hw => .unused hw)
    (fun _ _ _ h hact => h.environment hact) fun _ _ _ h hans => h.answer hans

/-- One move of a process lifetime. -/
theorem Grows.step {m : Move Activity (Input Chance) (Act Restart)}
    (h : s.step (machine (lifetime C.blockTime)) (activities C) m = some s') :
    Grows C.blockTime s.config.state s'.config.state := by
  cases m with
  | start a =>
    obtain ⟨-, rfl⟩ := System.step_start h
    exact .refl _
  | perform pid i =>
    obtain ⟨a, op, k, r, w', -, hr, rfl⟩ := System.step_perform h
    exact .answer hr
  | stop pid =>
    cases h
    exact .refl _
  | env act =>
    obtain ⟨w', hact, rfl⟩ := System.step_env h
    exact .environment hact

theorem Grows.leads
    (h : Leads (machine (lifetime C.blockTime)) (activities C) anything s s') :
    Grows C.blockTime s.config.state s'.config.state :=
  h.keeps (R := fun u => Grows C.blockTime s.config.state u.config.state) (.refl _)
    fun _ _ _ hgrows _ hstep => hgrows.trans (.step hstep)

/-- A transfer at or below the watermark has been tried, whenever it is simulated; the others are
    in the range that the next tick fetches. -/
theorem nothing_missed (C : Config) (hs : Lifetime C s) :
    (∀ s', Leads (machine (lifetime C.blockTime)) (activities C) anything s s' →
      ∀ t ∈ simulated s'.config.trace, t.blockNumber ≤ s.config.state.other.lastScannedBlock →
        Tried t s.config.trace) ∧
    ∀ t ∈ simulated s.config.trace, Tried t s.config.trace ∨
      t ∈ getTokenTransfers s.config.state.other.adapter
        (s.config.state.other.lastScannedBlock + 1) (head C.blockTime s.config.state) := by
  have hwatched := Lifetime.watched hs
  constructor
  · intro s' hlater t ht hblock
    obtain ⟨input, hgot⟩ := mem_simulated.mp ht
    have hstored := ((Lifetime.watched (hlater.reachable hs)).told _ _ hgot).2
    rw [(Grows.leads hlater).closed _ (lt_of_le_of_lt hblock hwatched.behind)] at hstored
    exact hwatched.swept _ hblock t hstored
  · intro t ht
    obtain ⟨input, hgot⟩ := mem_simulated.mp ht
    obtain ⟨hpast, hstored⟩ := hwatched.told _ _ hgot
    by_cases hblock : t.blockNumber ≤ s.config.state.other.lastScannedBlock
    · exact .inl (hwatched.swept _ hblock t hstored)
    · refine .inr ?_
      rw [getTokenTransfers_eq]
      exact Data.mem_scan.mpr ⟨t.blockNumber, Int.lt_of_not_ge hblock, hpast, hstored⟩

abbrev LifetimeMove := Move Activity (Input Chance) (Act Restart)

/-- A payment of process `pid`. -/
def pay (pid : ℕ) (hash : String) : List LifetimeMove :=
  [.start (.simulate ⟨"base", "USDC", "0xab", ⟨4900000000⟩⟩),
    .perform pid (.other (.transfer hash "c0"))]

/-- A tick of process `pid` that finds `n` transfers, none of which has an invoice. -/
def scanOf (pid n : ℕ) : List LifetimeMove :=
  let found : List (Input Chance) := (List.replicate n [.ok, .ok, .ok]).flatten
  let inputs : List (Input Chance) := [.other .ok, .ok, .ok, .other .ok, .other .ok, .other .ok] ++
    found ++ [.other .ok, .ok, .other .ok]
  .start (.job .tick) :: inputs.map fun i => .perform pid i

/-- Two payments in the first block, the second one after that block was scanned. -/
def lateMoves : List LifetimeMove :=
  pay 0 "01" ++ scanOf 1 1 ++ pay 2 "02" ++ [.env (.clock 2500)] ++ scanOf 3 2

theorem nothing_missed_late : ∃ s, Lifetime sampleConfig s ∧
    (simulated s.config.trace).map (fun t => (t.txHash, t.blockNumber)) =
      [("0xfake02", 0), ("0xfake01", 0)] ∧
    ∀ t ∈ simulated s.config.trace, Tried t s.config.trace := by
  have hrun : ∃ s, Lifetime sampleConfig s ∧ (s.config.state.other.lastScannedBlock,
      (simulated s.config.trace).map fun t => (t.txHash, t.blockNumber)) =
        (1, [("0xfake02", 0), ("0xfake01", 0)]) :=
    Reachable.view sampleWorld_unused lateMoves (by decide)
  obtain ⟨s, hs, hview⟩ := hrun
  obtain ⟨hmark, htransfers⟩ := Prod.mk.inj hview
  refine ⟨s, hs, htransfers, fun t ht => (nothing_missed sampleConfig hs).1 s .refl t ht ?_⟩
  have hblock : (t.txHash, t.blockNumber) ∈ [("0xfake02", (0 : ℤ)), ("0xfake01", 0)] :=
    htransfers ▸ List.mem_map_of_mem ht
  rw [hmark]
  simp only [List.mem_cons, Prod.mk.injEq, List.not_mem_nil, or_false] at hblock
  omega

end Runs

end CryptoPay.Api
