import CryptoPay.Blockchain.Oracle
import CryptoPay.Payments.LoneRuns
import CryptoPay.Worker.Outlines

/-!
# One pass over a list of transfers

A pass of the scan worker from an arbitrary database, on whatever list of
transfers the adapter hands it, with no other process in between.

Results:
* `scanPass_states`: the pass is a sequence of calls of `tryMatchTransfer`, one for
  each transfer, in the order of the list.
* `scanPass_records`: a transfer that some pending invoice awaits, and whose
  transaction is not recorded, is recorded with its own amount; one whose transaction
  is recorded changes nothing.
* `scanPass_exact`: the only invoice that asks for an amount gets a transfer of it,
  unless an earlier one was credited to it as its fallback.
-/

namespace CryptoPay.Worker

open Async

/-- A complete pass of process `pid` without interference. -/
abbrev ScanPass (pid : ℕ) (D : String → Bool) (network : String) (w : World Unit)
    (evs : List (Event (effects adapterCalls))) (w' : World Unit) : Prop :=
  Runs (machine anyAnswer) pid (runBlockchainScan (oracle D) network) w evs (.ok ()) w'

/-- The adapter handed these transfers to the pass. -/
def Handed (ts : List TokenTransfer) (evs : List (Event (effects adapterCalls))) : Prop :=
  ∃ pid a b, (⟨pid, .other (.getTokenTransfers a b), .ok ts⟩ : Event (effects adapterCalls)) ∈ evs

/-- The worlds between the calls of `tryMatchTransfer`: in `worlds k`, the transfer
    `ts[k]` is about to be processed. -/
structure Between (pid : ℕ) (ts : List TokenTransfer) (w w' : World Unit) (worlds : ℕ → World Unit) :
    Prop where
  first : w.db.SameRows (worlds 0).db
  each : ∀ k (hk : k < ts.length), ∃ evs,
    Runs (machine anyAnswer) pid (passTransfer ts[k]) (worlds k) evs (.ok ()) (worlds (k + 1))
  last : (worlds ts.length).db.SameRows w'.db

/-- After the pass, the transfer is recorded with its amount, for an invoice that awaited it
    in `db`. -/
def RecordedFor (t : TokenTransfer) (db db' : Db) : Prop :=
  ∃ p ∈ db'.payments, PaysFor p t ∧ p.receivedAmount = some t.amount ∧
    ∃ i ∈ db.invoices, Awaits i t ∧ p.invoiceId = i.id

variable {pid : ℕ} {D : String → Bool} {network : String} {w w' : World Unit}
  {evs : List (Event (effects adapterCalls))} {ts : List TokenTransfer} {t : TokenTransfer}

/-! ## The calls of a pass -/

/-- A request that is not to the adapter. -/
def AsksNoAdapter : Op adapterCalls → Prop
  | .other _ => False
  | _ => True

/-- `tryMatchTransfer` does not ask the adapter for anything. -/
theorem matchTransfers_only (ts : List TokenTransfer) :
    (matchTransfers ts : Action adapterCalls Unit).Only AsksNoAdapter := by
  refine .forEach fun t _ => ?_
  refine .bind (.perform trivial) fun _ => .bind ?_ fun _ => .perform trivial
  exact matchTransfer_only (fun _ => trivial) trivial trivial t

theorem passTransfer_matched {B : Backend adapterCalls Unit Answer Empty}
    (h : Runs (machine B) pid (passTransfer t) w evs (.ok ()) w') : Matched t w.db w'.db := by
  obtain ⟨⟨⟩, w₁, _, _, -, hpassed, h⟩ := h.bind_ok
  obtain ⟨⟨⟩, w₂, _, _, -, hmatch, hprocessed⟩ := h.bind_ok
  exact (lone_matchTransfer hmatch).congr (lone_mark hpassed) (lone_mark hprocessed)

/-- An adapter call leaves the tables alone. -/
theorem lone_adapter {α : Type} {call : AdapterCall}
    {read : adapterCalls.Ret call → Except AdapterError α} {x : Except Error α}
    (h : Runs (machine anyAnswer) pid (callAdapter call read) w evs x w') :
    w.db.SameRows w'.db ∧ ∃ r, evs = [⟨pid, .other call, r⟩] ∧
      x = (read r).mapError AdapterError.toError := by
  obtain ⟨w₁, i, r, w₂, hd, hr, hevs, hx, hd'⟩ := h.request_inv
  obtain ⟨k, o, -, rfl⟩ := respond_other hr
  exact ⟨(drifts_rows hd).trans (drifts_rows (w := { w₁ with other := o }) hd'), r, hevs, hx⟩

theorem lone_cursor {c : BlockchainScanCursor} (h : Runs (machine anyAnswer) pid
    (prisma (.blockchainScanCursorUpsert network)) w evs (.ok c) w') : w.db.SameRows w'.db := by
  obtain ⟨now, db, hrows, -, hrows'⟩ := lone_prisma h
  exact (hrows.trans (upsertCursor_sameRows db network)).trans hrows'

theorem lone_cursorUpdate {n : ℤ} (h : Runs (machine anyAnswer) pid
    (transaction [.blockchainScanCursorUpdate network n]) w evs (.ok ()) w') :
    w.db.SameRows w'.db := by
  obtain ⟨now, db, hrows, ha, hrows'⟩ := lone_prisma h
  simp only [PrismaCall.exec] at ha hrows'
  split at ha
  · rename_i db' hdb
    rw [hdb] at hrows'
    exact (hrows.trans (cursorUpdate_sameRows hdb)).trans hrows'
  · cases ha

/-- A complete pass processes the transfers it was handed one after the other. -/
theorem scanPass_states (h : ScanPass pid D network w evs w') (hts : Handed ts evs) :
    ∃ worlds, Between pid ts w w' worlds := by
  obtain ⟨cursor, w₁, e₁, _, rfl, hcursor, h⟩ := h.bind_ok
  obtain ⟨latestBlock, w₂, e₂, _, rfl, hhead, h⟩ := h.bind_ok
  obtain ⟨q, a, b, hev⟩ := hts
  have hrows : w.db.SameRows w₂.db := (lone_cursor hcursor).trans (lone_adapter hhead).1
  have he₁ : (⟨q, .other (.getTokenTransfers a b), .ok ts⟩ : Event (effects adapterCalls)) ∉ e₁ :=
    fun hmem => Runs.only (F := AsksNoAdapter) (.request trivial) hcursor _ hmem
  have he₂ : (⟨q, .other (.getTokenTransfers a b), .ok ts⟩ : Event (effects adapterCalls)) ∉ e₂ := by
    obtain ⟨-, r, rfl, -⟩ := lone_adapter hhead
    intro hmem
    cases congrArg Event.op (List.mem_singleton.mp hmem)
  have hev := ((List.mem_append.mp hev).resolve_left he₁)
  have hev := ((List.mem_append.mp hev).resolve_left he₂)
  dsimp only at h
  split_ifs at h with hnew
  · obtain ⟨rfl, -, -⟩ := h.ret_inv
    exact absurd hev List.not_mem_nil
  obtain ⟨ts', w₃, e₃, _, rfl, htransfers, h⟩ := h.bind_ok
  obtain ⟨⟨⟩, w₄, e₄, e₅, rfl, hmatch, hupdate⟩ := h.bind_ok
  obtain ⟨hrows₃, r, rfl, hr⟩ := lone_adapter htransfers
  have hrest : (⟨q, .other (.getTokenTransfers a b), .ok ts⟩ : Event (effects adapterCalls)) ∉
      e₄ ++ e₅ := by
    intro hmem
    rcases List.mem_append.mp hmem with hmem | hmem
    · exact Runs.only (matchTransfers_only ts') hmatch _ hmem
    · exact Runs.only (F := AsksNoAdapter) (.request trivial) hupdate _ hmem
  -- so the transfers that the loop runs over are those of the event
  obtain rfl : ts = ts' := by
    rcases List.mem_cons.mp hev with heq | hmem
    · cases heq
      exact (Except.ok.inj hr).symm
    · exact absurd hmem hrest
  obtain ⟨worlds, h0, hlast, heach⟩ := Runs.forEach_ok hmatch
  refine ⟨worlds, ?_, fun k hk => ?_, ?_⟩
  · rw [h0]
    exact hrows.trans hrows₃
  · obtain ⟨evs', -, hrun⟩ := heach k hk
    exact ⟨evs', hrun⟩
  · exact (drifts_rows hlast).trans (lone_cursorUpdate hupdate)

namespace Between

variable {worlds : ℕ → World Unit} {k : ℕ} {p : Payment} {i : Invoice}

theorem matched (h : Between pid ts w w' worlds) (hk : k < ts.length) :
    Matched ts[k] (worlds k).db (worlds (k + 1)).db := by
  obtain ⟨evs, hrun⟩ := h.each k hk
  exact passTransfer_matched hrun

/-- A payment that is stored at some point is stored after the pass. -/
theorem keeps_payment (h : Between pid ts w w' worlds) (hk : k ≤ ts.length)
    (hp : p ∈ (worlds k).db.payments) : p ∈ w'.db.payments := by
  have hall : ∀ m, k ≤ m → m ≤ ts.length → p ∈ (worlds m).db.payments := by
    intro m hkm
    induction m, hkm using Nat.le_induction with
    | base => exact fun _ => hp
    | succ m _ ih => exact fun hm => (h.matched hm).payments.1 (ih (Nat.le_of_succ_le hm))
  exact (h.last.payments p).2 (hall ts.length hk (le_refl _))

/-- A payment was there before the pass, or is for a transfer that was processed. -/
theorem payment_origin (h : Between pid ts w w' worlds) (hk : k ≤ ts.length)
    (hp : p ∈ (worlds k).db.payments) :
    p ∈ w.db.payments ∨ ∃ m, ∃ hm : m < ts.length, m < k ∧ PaysFor p ts[m] := by
  induction k with
  | zero => exact .inl ((h.first.payments p).1 hp)
  | succ k ih =>
    rcases (h.matched hk).payments.2 hp with hp | hp
    · refine (ih (Nat.le_of_succ_le hk) hp).imp_right ?_
      rintro ⟨m, hm, hmk, hpm⟩
      exact ⟨m, hm, Nat.lt_succ_of_lt hmk, hpm⟩
    · exact .inr ⟨k, hk, Nat.lt_succ_self k, hp⟩

/-- An invoice that is `PENDING` at some point was so before the pass. -/
theorem pending (h : Between pid ts w w' worlds) (hk : k ≤ ts.length)
    (hi : i ∈ (worlds k).db.invoices) (hs : i.status = .pending) : i ∈ w.db.invoices := by
  induction k with
  | zero => exact (h.first.invoices i).1 hi
  | succ k ih => exact ih (Nat.le_of_succ_le hk) ((h.matched hk).pending hi hs)

/-- An invoice stays as it is until a transfer is credited to it. -/
theorem keeps_invoice (h : Between pid ts w w' worlds) (hk : k ≤ ts.length)
    (hi : i ∈ w.db.invoices) : i ∈ (worlds k).db.invoices ∨
      ∃ m, ∃ hm : m < ts.length, m < k ∧ ∃ paymentId detectedAt now,
        Credits i ts[m] paymentId detectedAt now (worlds m).db (worlds (m + 1)).db := by
  induction k with
  | zero => exact .inl ((h.first.invoices i).2 hi)
  | succ k ih =>
    rcases ih (Nat.le_of_succ_le hk) with hik | ⟨m, hm, hmk, hcredit⟩
    · refine ((h.matched hk).keeps hik).imp_right fun hcredit => ?_
      exact ⟨k, hk, Nat.lt_succ_self k, hcredit⟩
    · exact .inr ⟨m, hm, Nat.lt_succ_of_lt hmk, hcredit⟩

/-- What is credited is recorded after the pass. -/
theorem recorded (h : Between pid ts w w' worlds) (hk : k < ts.length) {paymentId : String}
    {detectedAt now : Time}
    (hc : Credits i ts[k] paymentId detectedAt now (worlds k).db (worlds (k + 1)).db) :
    ∃ p ∈ w'.db.payments, PaysFor p ts[k] ∧ p.receivedAmount = some ts[k].amount ∧
      p.invoiceId = i.id := by
  refine ⟨_, h.keeps_payment hk ((hc.payments _).2 (.inr rfl)), ⟨hc.awaits.network, rfl⟩, rfl, rfl⟩

end Between

/-! ## No transfer is lost -/

/-- A transfer that a pending invoice awaits is recorded, if no payment for its transaction is
    stored yet; one whose transaction has a payment leaves all payments and invoices as they are. -/
theorem scanPass_records (h : ScanPass pid D network w evs w') (hts : Handed ts evs) :
    (∃ worlds, Between pid ts w w' worlds) ∧ ∀ worlds, Between pid ts w w' worlds →
      ∀ k (hk : k < ts.length),
        ((∃ i ∈ (worlds k).db.invoices, Awaits i ts[k]) →
          (∀ p ∈ (worlds k).db.payments, ¬ PaysFor p ts[k]) →
            RecordedFor ts[k] (worlds k).db w'.db) ∧
        ((∃ p ∈ (worlds k).db.payments, PaysFor p ts[k]) →
          (worlds k).db.SameRows (worlds (k + 1)).db) := by
  refine ⟨scanPass_states h hts, fun worlds hb k hk => ⟨fun hawaits hnew => ?_, ?_⟩⟩
  · cases hb.matched hk with
    | unclaimed hno _ =>
      obtain ⟨i, hi, ha⟩ := hawaits
      exact absurd ha (hno i hi)
    | seen hseen _ =>
      obtain ⟨p, hp, hpt⟩ := hseen
      exact absurd hpt (hnew p hp)
    | credited hc =>
      obtain ⟨p, hp, hpt, hamount, hinvoice⟩ := hb.recorded hk hc
      exact ⟨p, hp, hpt, hamount, _, hc.stored, hc.awaits, hinvoice⟩
  · exact (hb.matched hk).sameRows

/-- The lists of transfers that the adapter handed out. -/
def handedLists (evs : List (Event (effects adapterCalls))) : List (List TokenTransfer) :=
  evs.filterMap fun
    | ⟨_, .other (.getTokenTransfers _ _), .ok ts⟩ => some ts
    | _ => none

theorem handed_of_mem (h : ts ∈ handedLists evs) : Handed ts evs := by
  obtain ⟨ev, hev, heq⟩ := List.mem_filterMap.mp h
  split at heq
  · cases heq
    exact ⟨_, _, _, hev⟩
  · cases heq

/-- A pending invoice of the organization, over so many units. -/
def pendingInvoice (id : String) (units : ℤ) (createdAt : Time) : Invoice where
  id := id
  organizationId := "org"
  externalId := none
  status := .pending
  description := none
  amount := ⟨units⟩
  currency := "USD"
  token := "USDC"
  network := "base"
  paymentAddress := "0xA"
  successUrl := none
  cancelUrl := none
  metadata := none
  expiresAt := 1800000
  paidAt := none
  createdAt := createdAt

/-- A transfer of so many units to the organization's address. -/
def transferOf (txHash : String) (units : ℤ) : TokenTransfer :=
  ⟨txHash, "base", "USDC", "0xB", "0xA", ⟨units⟩, 7⟩

/-- Two pending invoices, over 10 and 20 USDC. -/
def twoInvoices : World Unit where
  db := { Db.empty with
    invoices := ⟨[pendingInvoice "inv_1" 1000000000 0, pendingInvoice "inv_2" 2000000000 1], by decide⟩ }
  clock := 2
  other := ()

/-- The answers for a transfer that is credited as the payment `pay_⟨suffix⟩`. -/
def creditAnswers (suffix : String) : List (Input Answer) := [.ok, .ok, .ok, .id suffix, .ok, .ok, .ok]

/-- The answers for a transfer whose transaction is recorded. -/
def seenAnswers : List (Input Answer) := [.ok, .ok, .ok, .ok]

/-- The answers for a pass that is handed the transfers. -/
def passAnswers (ts : List TokenTransfer) (rest : List (Input Answer)) : List (Input Answer) :=
  [.ok, .other (.latestBlock (.ok 7)), .other (.tokenTransfers (.ok ts))] ++ rest ++ [.ok]

/-- What is known of the payments: the transaction, the invoice and the amount. -/
def paymentRows (db : Db) : List (Option String × String × Option Decimal) :=
  db.payments.rows.map fun p => (p.txHash, p.invoiceId, p.receivedAmount)

/-- What a computed run of a pass shows. -/
structure PassView where
  returned : Bool
  handed : List (List TokenTransfer)
  payments : List (Option String × String × Option Decimal)
  deriving DecidableEq

def passView (r : List (Event (effects adapterCalls)) × Except Error Unit × World Unit) : PassView :=
  ⟨r.2.1.isOk, handedLists r.1, paymentRows r.2.2.db⟩

/-- A complete pass that was computed. -/
theorem scanPass_view (w : World Unit) (ts : List TokenTransfer) (is : List (Input Answer))
    (rows : List (Option String × String × Option Decimal)) (h : ((runBlockchainScan (oracle fun _ => true) "base").execute (machine anyAnswer) 0 w is).map
      passView = some ⟨true, [ts], rows⟩) :
    ∃ evs w', ScanPass 0 (fun _ => true) "base" w evs w' ∧ Handed ts evs ∧ paymentRows w'.db = rows := by
  obtain ⟨evs, x, w', hrun, hview⟩ := Runs.view _ _ _ _ _ h
  simp only [passView, PassView.mk.injEq] at hview
  obtain ⟨hok, hhanded, hrows⟩ := hview
  cases x with
  | error e => cases hok
  | ok u => exact ⟨evs, w', hrun, handed_of_mem (hhanded ▸ List.mem_singleton_self _), hrows⟩

theorem mem_paymentRows {db : Db} {p : Payment} (hp : p ∈ db.payments) :
    (p.txHash, p.invoiceId, p.receivedAmount) ∈ paymentRows db := List.mem_map.mpr ⟨p, hp, rfl⟩

/-- Whatever was recorded before, every transfer that a pending invoice awaits is recorded. -/
def NoTransferLost : Prop :=
  ∀ pid D network w evs w' ts, ScanPass pid D network w evs w' → Handed ts evs →
    ∀ worlds, Between pid ts w w' worlds → ∀ k (hk : k < ts.length),
      (∃ i ∈ (worlds k).db.invoices, Awaits i ts[k]) → RecordedFor ts[k] (worlds k).db w'.db

/-- Two transfers of one transaction, of 10 and 20 USDC. -/
def batch : List TokenTransfer := [transferOf "0x1" 1000000000, transferOf "0x1" 2000000000]

set_option maxRecDepth 4000 in
/-- One transaction pays both invoices; its second transfer is taken for a repetition of
    the first. -/
theorem batch_lost : ¬ NoTransferLost := by
  intro h
  obtain ⟨evs, w', hrun, hts, hrows⟩ := scanPass_view twoInvoices batch
    (passAnswers batch (creditAnswers "1" ++ seenAnswers))
    [(some "0x1", "inv_1", some ⟨1000000000⟩)] (by decide)
  obtain ⟨worlds, hb⟩ := scanPass_states hrun hts
  have hpaid : ∀ p ∈ w'.db.payments,
      p.invoiceId = "inv_1" ∧ p.receivedAmount = some ⟨1000000000⟩ := by
    intro p hp
    have hmem := mem_paymentRows hp
    rw [hrows, List.mem_singleton] at hmem
    simp only [Prod.mk.injEq] at hmem
    exact hmem.2
  have hsecond : pendingInvoice "inv_2" 2000000000 1 ∈ (worlds 1).db.invoices := by
    rcases hb.keeps_invoice (k := 1) (by decide) (i := pendingInvoice "inv_2" 2000000000 1)
      (by decide : _ ∈ twoInvoices.db.invoices.rows) with hi | ⟨m, hm, -, _, _, _, hc⟩
    · exact hi
    · obtain ⟨p, hp, -, -, hinvoice⟩ := hb.recorded hm hc
      exact absurd ((hpaid p hp).1.symm.trans hinvoice) (by decide)
  obtain ⟨p, hp, -, hamount, -⟩ := h 0 _ _ _ evs w' batch hrun hts worlds hb 1 (by decide)
    ⟨_, hsecond, rfl, rfl, rfl, rfl⟩
  exact absurd ((hpaid p hp).2.symm.trans hamount) (by decide)

/-- The same, and the second amount once more in a transaction of its own. -/
def paidAgain : List TokenTransfer := batch ++ [transferOf "0x2" 2000000000]

set_option maxRecDepth 4000 in
/-- Of three transfers the first and the last are recorded; the second, which shares the
    transaction of the first, changes nothing. -/
theorem scanPass_records_paidAgain : ∃ evs w' worlds,
    ScanPass 0 (fun _ => true) "base" twoInvoices evs w' ∧
      Between 0 paidAgain twoInvoices w' worlds ∧
        RecordedFor (transferOf "0x1" 1000000000) (worlds 0).db w'.db ∧
        (worlds 1).db.SameRows (worlds 2).db ∧
        RecordedFor (transferOf "0x2" 2000000000) (worlds 2).db w'.db := by
  obtain ⟨evs, w', hrun, hts, hrows⟩ := scanPass_view twoInvoices paidAgain
    (passAnswers paidAgain (creditAnswers "1" ++ seenAnswers ++ creditAnswers "2"))
    [(some "0x2", "inv_2", some ⟨2000000000⟩), (some "0x1", "inv_1", some ⟨1000000000⟩)] (by decide)
  obtain ⟨⟨worlds, hb⟩, hall⟩ := scanPass_records hrun hts
  have hnone : ∀ p ∈ twoInvoices.db.payments, False := fun p hp => Data.Table.not_mem_empty p hp
  have hpaid : ∀ p ∈ w'.db.payments, p.txHash = some "0x1" ∧ p.invoiceId = "inv_1" ∨
      p.txHash = some "0x2" ∧ p.receivedAmount = some ⟨2000000000⟩ := by
    intro p hp
    have hmem := mem_paymentRows hp
    rw [hrows, List.mem_cons, List.mem_singleton] at hmem
    simp only [Prod.mk.injEq] at hmem
    exact hmem.symm.imp (fun h => ⟨h.1, h.2.1⟩) fun h => ⟨h.1, h.2.2⟩
  have htx : ∀ l, l < 2 → ∀ hl : l < paidAgain.length, paidAgain[l].txHash = "0x1" := by decide
  have hfirst : RecordedFor (transferOf "0x1" 1000000000) (worlds 0).db w'.db := by
    refine (hall worlds hb 0 (by decide)).1 ?_ ?_
    · exact ⟨_, (hb.first.invoices _).2 List.mem_cons_self, rfl, rfl, rfl, rfl⟩
    · exact fun p hp => absurd ((hb.first.payments p).1 hp) (hnone p)
  have hseen : ∃ p ∈ (worlds 1).db.payments, PaysFor p (transferOf "0x1" 2000000000) := by
    obtain ⟨p, hp, hpays⟩ := (hb.matched (k := 0) (by decide)).recorded
      ⟨_, (hb.first.invoices _).2 List.mem_cons_self, rfl, rfl, rfl, rfl⟩
    exact ⟨p, hp, hpays.network, hpays.txHash⟩
  have hsame := (hall worlds hb 1 (by decide)).2 hseen
  refine ⟨evs, w', worlds, hrun, hb, hfirst, hsame, (hall worlds hb 2 (by decide)).1 ?_ ?_⟩
  · -- what was credited before is recorded after the pass, and that is not this invoice
    rcases hb.keeps_invoice (k := 2) (by decide) (i := pendingInvoice "inv_2" 2000000000 1)
      (List.mem_cons_of_mem _ (List.mem_singleton_self _)) with hi | ⟨m, hm, hlt, _, _, _, hc⟩
    · exact ⟨_, hi, rfl, rfl, rfl, rfl⟩
    · obtain ⟨p, hp, hpays, -, hinvoice⟩ := hb.recorded hm hc
      rcases hpaid p hp with ⟨-, hone⟩ | ⟨htwo, -⟩
      · exact absurd (hone.symm.trans hinvoice) (by decide)
      · rw [hpays.txHash, htx m hlt hm] at htwo
        exact absurd htwo (by decide)
  · intro p hp hpays
    rcases hb.payment_origin (k := 2) (by decide) hp with hp | ⟨m, hm, hlt, hpm⟩
    · exact hnone p hp
    · exact absurd (hpays.txHash.symm.trans (hpm.txHash.trans (congrArg some (htx m hlt hm))))
        (by decide)

/-! ## Exact payments -/

/-- The invoice is the only pending one with its network, token, address and amount. -/
structure SoleClaim (i : Invoice) (db : Db) : Prop where
  stored : i ∈ db.invoices
  unique : ∀ j ∈ db.invoices, j.status = .pending → j.network = i.network → j.token = i.token →
    j.paymentAddress = i.paymentAddress → j.amount = i.amount → j = i

/-- No transaction of the list is recorded, and no two of its transfers share one. -/
structure FreshTransfers (ts : List TokenTransfer) (db : Db) : Prop where
  distinct : (ts.map fun t => t.txHash).Nodup
  unrecorded : ∀ t ∈ ts, ∀ p ∈ db.payments, ¬ PaysFor p t

/-- A transfer of the list is recorded for the invoice, and it has the invoice's amount. -/
def PaidExactly (i : Invoice) (ts : List TokenTransfer) (db' : Db) : Prop :=
  ∃ p ∈ db'.payments, p.invoiceId = i.id ∧ p.receivedAmount = some i.amount ∧
    ∃ t ∈ ts, PaysFor p t

/-- The transfer was credited to the invoice as a fallback: the invoice awaited it, no invoice
    that did asked for its amount, and none was older. -/
structure FallsBack (i : Invoice) (t : TokenTransfer) (db db' : Db) : Prop where
  stored : i ∈ db.invoices
  awaits : Awaits i t
  oldest : ∀ j ∈ db.invoices, Awaits j t → j.amount ≠ t.amount ∧ i.createdAt ≤ j.createdAt
  credited : ∃ paymentId detectedAt now, Credits i t paymentId detectedAt now db db'

/-- The only invoice that asks for an amount gets a transfer of it, unless a transfer before was
    credited to it as its fallback. -/
theorem scanPass_exact (h : ScanPass pid D network w evs w') (hts : Handed ts evs)
    (hfresh : FreshTransfers ts w.db) {i : Invoice} (hsole : SoleClaim i w.db) :
    (∃ worlds, Between pid ts w w' worlds) ∧ ∀ worlds, Between pid ts w w' worlds →
      ∀ k (hk : k < ts.length), Awaits i ts[k] → ts[k].amount = i.amount →
        PaidExactly i ts w'.db ∨
          ∃ m, ∃ hm : m < ts.length, m < k ∧
            FallsBack i ts[m] (worlds m).db (worlds (m + 1)).db := by
  refine ⟨scanPass_states h hts, fun worlds hb k hk hawaits hamount => ?_⟩
  have hpaid : ∀ m (hm : m < ts.length) {paymentId detectedAt now},
      Credits i ts[m] paymentId detectedAt now (worlds m).db (worlds (m + 1)).db →
        i.amount = ts[m].amount → PaidExactly i ts w'.db := by
    intro m hm _ _ _ hc heq
    obtain ⟨p, hp, hpt, hreceived, hinvoice⟩ := hb.recorded hm hc
    exact ⟨p, hp, hinvoice, heq ▸ hreceived, _, List.getElem_mem hm, hpt⟩
  rcases hb.keeps_invoice (Nat.le_of_lt hk) hsole.stored with
    hik | ⟨m, hm, hmk, paymentId, detectedAt, now, hc⟩
  · -- still pending when its transfer comes: the transfer is credited to it
    cases hb.matched hk with
    | unclaimed hno _ => exact absurd hawaits (hno i hik)
    | seen hseen _ =>
      obtain ⟨p, hp, hpt⟩ := hseen
      rcases hb.payment_origin (Nat.le_of_lt hk) hp with hp | ⟨m, hm, hmk, hpm⟩
      · exact absurd hpt (hfresh.unrecorded _ (List.getElem_mem hk) p hp)
      · have heq : ts[m] = ts[k] :=
          List.inj_on_of_nodup_map hfresh.distinct (List.getElem_mem hm) (List.getElem_mem hk)
            (Option.some.inj (hpm.txHash.symm.trans hpt.txHash))
        have hmk' : m = k := (List.Nodup.of_map _ hfresh.distinct).getElem_inj_iff.mp heq
        omega
    | @credited j _ _ _ hc =>
      rcases hc.choice with heq | hno
      · have hj := hb.pending (Nat.le_of_lt hk) hc.stored hc.awaits.pending
        have hji : j = i := hsole.unique j hj hc.awaits.pending
          (hc.awaits.network.trans hawaits.network.symm) (hc.awaits.token.trans hawaits.token.symm)
          (hc.awaits.address.trans hawaits.address.symm) (heq.trans hamount)
        subst hji
        exact .inl (hpaid k hk hc heq)
      · exact absurd hamount.symm (hno i hik hawaits).1
  · rcases hc.choice with heq | hold
    · exact .inl (hpaid m hm hc heq)
    · exact .inr ⟨m, hm, hmk, hc.stored, hc.awaits, hold, paymentId, detectedAt, now, hc⟩

/-- The transfer of the right amount is recorded, whatever precedes it. -/
def ExactNotPreempted : Prop :=
  ∀ pid D network w evs w' ts, ScanPass pid D network w evs w' → Handed ts evs →
    FreshTransfers ts w.db → ∀ i, SoleClaim i w.db → ∀ t ∈ ts, Awaits i t → t.amount = i.amount →
      PaidExactly i ts w'.db

/-- A pending invoice over 20 USDC. -/
def oneInvoice : World Unit where
  db := { Db.empty with invoices := ⟨[pendingInvoice "inv_2" 2000000000 1], by decide⟩ }
  clock := 2
  other := ()

theorem oneInvoice_sole : SoleClaim (pendingInvoice "inv_2" 2000000000 1) oneInvoice.db where
  stored := List.mem_singleton_self _
  unique _ hj _ _ _ _ _ := List.mem_singleton.mp hj

theorem oneInvoice_fresh {ts : List TokenTransfer} (h : (ts.map fun t => t.txHash).Nodup) :
    FreshTransfers ts oneInvoice.db :=
  ⟨h, fun _ _ p hp => absurd hp (Data.Table.not_mem_empty p)⟩

/-- The smallest amount arrives before the right one. -/
def dustFirst : List TokenTransfer := [transferOf "0x1" 1, transferOf "0x2" 2000000000]

set_option maxRecDepth 4000 in
/-- The invoice is the fallback for the first transfer, and is no longer pending when its
    own comes. -/
theorem dust_preempts : ¬ ExactNotPreempted := by
  intro h
  obtain ⟨evs, w', hrun, hts, hrows⟩ := scanPass_view oneInvoice dustFirst
    (passAnswers dustFirst (creditAnswers "1" ++ [.ok, .ok, .ok]))
    [(some "0x1", "inv_2", some ⟨1⟩)] (by decide)
  obtain ⟨p, hp, -, hamount, -⟩ := h 0 _ _ _ evs w' dustFirst hrun hts (oneInvoice_fresh (by decide)) _
    oneInvoice_sole (transferOf "0x2" 2000000000) (by decide) ⟨rfl, rfl, rfl, rfl⟩ rfl
  have hmem := mem_paymentRows hp
  rw [hrows, List.mem_singleton, hamount] at hmem
  have hwrong : some (pendingInvoice "inv_2" 2000000000 1).amount = some ⟨1⟩ :=
    congrArg (·.2.2) hmem
  exact absurd hwrong (by decide)

/-- A transfer of half the amount that the older invoice asks for, and one of the other's amount. -/
def halfFirst : List TokenTransfer := [transferOf "0x1" 500000000, transferOf "0x2" 2000000000]

set_option maxRecDepth 4000 in
/-- The first transfer falls back to the older invoice, and the second is recorded for the other. -/
theorem scanPass_exact_halfFirst : ∃ evs w', ScanPass 0 (fun _ => true) "base" twoInvoices evs w' ∧
    PaidExactly (pendingInvoice "inv_2" 2000000000 1) halfFirst w'.db := by
  obtain ⟨evs, w', hrun, hts, -⟩ := scanPass_view twoInvoices halfFirst
    (passAnswers halfFirst (creditAnswers "1" ++ creditAnswers "2"))
    [(some "0x2", "inv_2", some ⟨2000000000⟩), (some "0x1", "inv_1", some ⟨500000000⟩)] (by decide)
  have hfresh : FreshTransfers halfFirst twoInvoices.db :=
    ⟨by decide, fun _ _ p hp => absurd hp (Data.Table.not_mem_empty p)⟩
  have hsole : SoleClaim (pendingInvoice "inv_2" 2000000000 1) twoInvoices.db := by
    refine ⟨List.mem_cons_of_mem _ (List.mem_singleton_self _), fun j hj _ _ _ _ hamount => ?_⟩
    rcases List.mem_cons.mp hj with rfl | hj
    · exact absurd hamount (by decide)
    · exact List.mem_singleton.mp hj
  obtain ⟨⟨worlds, hb⟩, hall⟩ := scanPass_exact hrun hts hfresh hsole
  refine ⟨evs, w', hrun, (hall worlds hb 1 (by decide) ⟨rfl, rfl, rfl, rfl⟩ rfl).resolve_right ?_⟩
  -- the other invoice is older, so the first transfer does not fall back to this one
  rintro ⟨m, hm, hlt, hfalls⟩
  obtain rfl : m = 0 := by omega
  have holder : pendingInvoice "inv_1" 1000000000 0 ∈ (worlds 0).db.invoices :=
    (hb.first.invoices _).2 List.mem_cons_self
  have hle := (hfalls.oldest _ holder ⟨rfl, rfl, rfl, rfl⟩).2
  exact absurd hle (by decide)

end CryptoPay.Worker
