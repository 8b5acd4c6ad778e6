import CryptoPay.Api.Watermark

/-!
# Where transfers and payments come from

In fake mode a transfer exists because `simulatePayment` was called, and a payment is recorded
for a transfer that a tick has fetched.

Results:
* `workload_originates`: what every program of the API process asks for, as far as transfers and
  new payments are concerned.
* `transaction_rows`, `exec_rows`: which invoices and payments a call may add.
* `ApiReachable.sourced`: in every reachable state the transfers of the chain are genuine, the
  payments are on the registered network and name a transaction, and the invoices' amounts
  fit their column.
-/

namespace CryptoPay.Api

open Async Data Fake

/-- A payment is simulated on the registered network, and recorded for a fetched transfer. -/
def Originates (h : Calls) : Op fakeCalls → Prop
  | .other (.simulatePayment input) => input.network = "base"
  | .prisma (.transaction ws) => ∀ d, .paymentCreate d ∈ ws → ∃ (a b : ℤ) (ts : List TokenTransfer),
    Got (.getTokenTransfers a b) ts h ∧ ∃ t ∈ ts, d.network = t.network ∧ d.txHash = t.txHash
  | _ => True

theorem Processing.originates {op : Op fakeCalls} (hop : Processing op) (h : Calls) :
    Originates h op := by
  unfold Originates
  split
  · exact hop.elim
  · exact fun d hd => (hop d hd).elim
  · trivial

section Obeys

variable {pid : ℕ} {h : Calls} {α : Type} {t : TokenTransfer} {ts : List TokenTransfer}

/-- The requests of the past stay. -/
theorem processing_obeys {p : Service α} (hp : p.Only Processing) :
    p.Obeys Originates pid (fun _ h' => h <:+ h') (fun _ _ => True) h :=
  ((Prog.Obeys.only hp (fun _ h' hop _ => hop.originates h')
    (fun _ _ _ _ hs => hs.trans (List.suffix_cons _ _)) List.suffix_rfl).post
      (fun _ _ hs => hs) fun _ _ _ => trivial :)

theorem Processing.prisma (call : PrismaCall) (h : ∀ ws, call ≠ .transaction ws) :
    Processing (.prisma call) := by
  unfold Processing
  split
  · rename_i ws heq
    cases heq
    exact absurd rfl (h ws)
  · rename_i heq
    cases heq
  · rename_i heq
    cases heq
  · trivial

/-- A transfer that was fetched is matched. -/
theorem tryMatchTransfer_obeys {a b : ℤ} (hgot : Got (.getTokenTransfers a b) ts h) (ht : t ∈ ts) :
    (tryMatchTransfer t).Obeys Originates pid (fun _ h' => h ⊆ h') (fun _ _ => True) h := by
  have hread : ∀ (call : PrismaCall) (h' : Calls), (∀ ws, call ≠ .transaction ws) →
      (prisma call : Service call.Ret).Obeys Originates pid (fun _ h'' => h' <:+ h'')
        (fun _ _ => True) h' := fun call h' hcall => processing_obeys (.request (.prisma call hcall))
  refine Prog.obeys_bind.mpr ((hread (.invoiceFindMany (candidateWhere t)) h
    fun _ hc => by cases hc).post (fun (candidates : List Invoice) h₁ hs₁ => ?_)
      fun _ _ _ => trivial)
  cases hselect : selectMatchingInvoice toLowerAscii candidates t.detected t.amount with
  | none => exact hs₁.subset
  | some i =>
    have hnetwork : i.network = t.network :=
      (matchesInvoice_iff.mp (selectMatchingInvoice_mem hselect).2).1
    refine Prog.obeys_bind.mpr ((hread (.paymentFindByTxHash i.network t.txHash) h₁
      fun _ hc => by cases hc).post (fun (seen : Option Payment) h₂ hs₂ => ?_)
        fun _ _ _ => trivial)
    have hs := hs₁.trans hs₂
    cases seen with
    | some p => exact hs.subset
    | none =>
      show Prog.Obeys _ _ _ _ (generateId "pay" >>= fun paymentId => dateNow >>= fun detectedAt =>
        transaction (Commit.detect i t paymentId detectedAt).writes) h₂
      refine ⟨trivial, fun (paymentId : String) => ⟨trivial, fun (detectedAt : Time) => ⟨?_, ?_⟩⟩⟩
      · intro d hd
        have hd : d = detectedPayment paymentId detectedAt i t := by
          simpa [Commit.writes, Commit.invoiceCreate, Commit.paymentUpdate, Commit.paymentCreate,
            Commit.invoiceUpdate, Commit.webhookEventCreate] using hd
        subst hd
        refine ⟨a, b, ts, hgot.mono fun ev hev => ?_, t, ht, hnetwork, rfl⟩
        exact List.mem_cons_of_mem _ (List.mem_cons_of_mem _ (hs.subset hev))
      · intro r
        refine Prog.obeys_ofExcept.mpr ⟨fun _ _ ev hev => ?_, fun _ _ => trivial⟩
        exact List.mem_cons_of_mem _ (List.mem_cons_of_mem _ (List.mem_cons_of_mem _
          (hs.subset hev)))

theorem detectNewPayments_obeys :
    detectNewPayments.Obeys Originates pid (fun _ _ => True) (fun _ _ => True) h := by
  refine ⟨trivial, fun (latest : ℤ) => ⟨trivial, fun (scanned : ℤ) => ?_⟩⟩
  by_cases hnew : latest > scanned
  · show Prog.Obeys _ _ _ _ (if latest > scanned then _ else _) _
    rw [if_pos hnew]
    refine ⟨trivial, fun (ts : List TokenTransfer) => ?_⟩
    show Prog.Obeys _ _ _ _ (Prog.forEach tryMatchTransfer ts >>= _) _
    refine Prog.obeys_bind.mpr ((Prog.Obeys.forEach (X := fun _ _ => True)
      (fun rest h' => (∀ t ∈ rest, t ∈ ts) ∧ Got (.getTokenTransfers (scanned + 1) latest) ts h')
      (fun t rest h' hI => ?_) ⟨fun t ht => ht, pid, List.mem_cons_self⟩).post
        (fun _ h' _ => ⟨trivial, fun _ => trivial⟩) fun _ _ _ => trivial)
    refine (tryMatchTransfer_obeys hI.2 (hI.1 t List.mem_cons_self)).post
      (fun _ h'' hs => ⟨fun u hu => hI.1 u (List.mem_cons_of_mem t hu), hI.2.mono hs⟩)
      fun _ _ hx => hx
  · show Prog.Obeys _ _ _ _ (if latest > scanned then _ else _) _
    rw [if_neg hnew]
    exact ⟨trivial, fun _ => trivial⟩

theorem tick_obeys (requiredConfirmations : ℤ) :
    (tick requiredConfirmations).Obeys Originates pid (fun _ _ => True) (fun _ _ => True) h := by
  refine ⟨trivial, fun (entered : Bool) => ?_⟩
  cases entered with
  | false => trivial
  | true =>
    show Prog.Obeys _ _ _ _ ((processPayments requiredConfirmations).attempt >>= _) _
    refine Prog.obeys_bind.mpr (Prog.obeys_attempt.mpr ?_)
    have hleave : ∀ (x : Except Error Unit) (h' : Calls), (leaveTick >>= fun _ => .ofExcept x :
        Service Unit).Obeys Originates pid (fun _ _ => True) (fun _ _ => True) h' :=
      fun x h' => ⟨trivial, fun _ => Prog.obeys_ofExcept.mpr ⟨fun _ _ => trivial, fun _ _ => trivial⟩⟩
    refine Prog.Obeys.post (Q := fun _ _ => True) (X := fun _ _ => True) ?_
      (fun _ h' _ => hleave _ h') fun _ h' _ => hleave _ h'
    refine Prog.obeys_bind.mpr ((processing_obeys expireOverdueInvoices_processing).post
      (fun _ _ _ => ?_) fun _ _ _ => trivial)
    refine Prog.obeys_bind.mpr (detectNewPayments_obeys.post (fun _ _ _ => ?_) fun _ _ _ => trivial)
    exact (processing_obeys (advanceConfirmations_processing _)).post (fun _ _ _ => trivial)
      fun _ _ _ => trivial

theorem doSimulatePayment_obeys (requiredConfirmations : ℤ) (invoice : Invoice)
    (input : SimulatePaymentInput) :
    (doSimulatePayment requiredConfirmations invoice input).Obeys Originates pid
      (fun _ _ => True) (fun _ _ => True) h := by
  unfold doSimulatePayment doSimulatePaymentWith registryGet
  split_ifs with hpending hbase
  · trivial
  · refine ⟨hbase, fun _ => ?_⟩
    show Prog.Obeys _ _ _ _ (tick requiredConfirmations >>= _) _
    refine Prog.obeys_bind.mpr ((tick_obeys _).post (fun _ _ _ => ?_) fun _ _ _ => trivial)
    refine ⟨trivial, fun r => ?_⟩
    rcases r with e | updated
    · trivial
    · cases updated <;> trivial
  · trivial

theorem workload_originates (C : Config) : (workload C).Obeys fun _ => Originates := by
  intro j pid
  have hadmin : ∀ {α : Type} {p : Service α}, p.Only Administrative →
      (p >>= fun _ => (return ()) : Service Unit).Obeys Originates pid (fun _ _ => True)
        (fun _ _ => True) [] := by
    intro α p hp
    have hall : (p >>= fun _ => (return ()) : Service Unit).Only Processing :=
      (hp.imp fun _ hop => Administrative.processing hop).bind fun _ => trivial
    exact (processing_obeys hall).post (fun _ _ _ => trivial) fun _ _ _ => trivial
  cases j with
  | createInvoice organizationId apiKeyId input ctx =>
    exact hadmin (create_administrative .fake organizationId apiKeyId input ctx)
  | setWalletAddress organizationId userId input ctx =>
    exact hadmin (set_administrative adapter organizationId userId input ctx)
  | simulatePayment organizationId invoiceId input =>
    refine ⟨trivial, fun r => ?_⟩
    rcases r with e | invoice
    · trivial
    · cases invoice with
      | none => trivial
      | some invoice =>
        exact Prog.obeys_bind.mpr ((doSimulatePayment_obeys _ invoice input).post
          (fun _ _ _ => trivial) fun _ _ _ => trivial)
  | simulatePaymentForCheckout invoiceId input =>
    refine ⟨trivial, fun r => ?_⟩
    rcases r with e | invoice
    · trivial
    · cases invoice with
      | none => trivial
      | some invoice =>
        exact Prog.obeys_bind.mpr ((doSimulatePayment_obeys _ invoice input).post
          (fun _ _ _ => trivial) fun _ _ _ => trivial)
  | tick => exact tick_obeys _

end Obeys

/-! ## The rows that a call adds -/

/-- An invoice is new only with an amount that fits; a payment is new only by one of the
    writes. -/
structure Adds (ws : List Write) (db db' : Db) : Prop where
  invoices : ∀ i' ∈ db'.invoices, (∃ i ∈ db.invoices, i'.amount = i.amount) ∨
    i'.amount.fitsColumn = true
  payments : ∀ p' ∈ db'.payments,
    (∃ p ∈ db.payments, p'.network = p.network ∧ p'.txHash = p.txHash) ∨
      ∃ d, .paymentCreate d ∈ ws ∧ p'.network = d.network ∧ p'.txHash = some d.txHash

section Rows

variable {db db₁ db' : Db} {now : Time} {ws ws' : List Write} {w : Write}

theorem Adds.of_same (hi : db'.invoices = db.invoices) (hp : db'.payments = db.payments) :
    Adds ws db db' where
  invoices i hmem := .inl ⟨i, hi ▸ hmem, rfl⟩
  payments p hmem := .inl ⟨p, hp ▸ hmem, rfl, rfl⟩

theorem Adds.trans (h : Adds [w] db db₁) (h' : Adds ws db₁ db') : Adds (w :: ws) db db' where
  invoices i' hi' := by
    rcases h'.invoices i' hi' with ⟨i₁, hi₁, heq'⟩ | hfits
    · rw [heq']
      exact h.invoices i₁ hi₁
    · exact .inr hfits
  payments p' hp' := by
    rcases h'.payments p' hp' with ⟨p₁, hp₁, hn', hh'⟩ | ⟨d, hd, hrow⟩
    · rw [hn', hh']
      rcases h.payments p₁ hp₁ with hold | ⟨d, hd, hrow⟩
      · exact .inl hold
      · exact .inr ⟨d, List.mem_singleton.mp hd ▸ List.mem_cons_self, hrow⟩
    · exact .inr ⟨d, List.mem_cons_of_mem w hd, hrow⟩

theorem apply_rows (h : w.apply now db = .ok db') : Adds [w] db db' := by
  cases w with
  | invoiceCreate d =>
    have hfits : d.amount.fitsColumn = true := by
      by_contra hnot
      simp only [Bool.not_eq_true] at hnot
      rw [Write.apply, hnot] at h
      cases h
    obtain ⟨-, t, ht, rfl⟩ := invoiceCreate_ok h
    refine ⟨fun i' hi' => ?_, fun p hp => .inl ⟨p, hp, rfl, rfl⟩⟩
    rcases ((Table.insert?_eq_some ht).2 i').mp hi' with rfl | hold
    · exact .inr hfits
    · exact .inl ⟨i', hold, rfl⟩
  | invoiceUpdate id d =>
    obtain ⟨-, rfl⟩ := invoiceUpdate_ok h
    refine ⟨fun i' hi' => ?_, fun p hp => .inl ⟨p, hp, rfl, rfl⟩⟩
    have hmem : i' ∈ db.invoices.modify id (Invoice.update d) fun _ => rfl := hi'
    obtain ⟨i, hi, rfl⟩ := Table.mem_modify.mp hmem
    refine .inl ⟨i, hi, ?_⟩
    split_ifs <;> rfl
  | paymentCreate d =>
    obtain ⟨-, -, t, ht, rfl⟩ := paymentCreate_ok h
    refine ⟨fun i hi => .inl ⟨i, hi, rfl⟩, fun p' hp' => ?_⟩
    rcases ((Table.insert?_eq_some ht).2 p').mp hp' with rfl | hold
    · exact .inr ⟨d, List.mem_singleton_self _, rfl, rfl⟩
    · exact .inl ⟨p', hold, rfl, rfl⟩
  | paymentUpdate id d =>
    obtain ⟨-, rfl⟩ := paymentUpdate_ok h
    refine ⟨fun i hi => .inl ⟨i, hi, rfl⟩, fun p' hp' => ?_⟩
    have hmem : p' ∈ db.payments.modify id (Payment.update now d) fun _ => rfl := hp'
    obtain ⟨p, hp, rfl⟩ := Table.mem_modify.mp hmem
    refine .inl ⟨p, hp, ?_⟩
    split_ifs <;> exact ⟨rfl, rfl⟩
  | webhookEventCreate d => obtain ⟨t, -, rfl⟩ := webhookEventCreate_ok h; exact .of_same rfl rfl
  | blockchainScanCursorUpdate network n =>
    obtain rfl := blockchainScanCursorUpdate_ok h
    exact .of_same rfl rfl
  | merchantWalletAddressCreate row =>
    obtain ⟨t, -, rfl⟩ := merchantWalletAddressCreate_ok h
    exact .of_same rfl rfl
  | auditLogCreate row => cases h; exact .of_same rfl rfl

theorem transaction_rows (h : db.transaction now ws = .ok db') : Adds ws db db' := by
  induction ws generalizing db with
  | nil =>
    rw [transaction_nil h]
    exact .of_same rfl rfl
  | cons w ws ih =>
    obtain ⟨db₁, hw, hrest⟩ := transaction_cons h
    exact (apply_rows hw).trans (ih hrest)

/-- The writes of a call. -/
def writesOf : PrismaCall → List Write
  | .transaction ws => ws
  | .invoiceCreate d => [.invoiceCreate d]
  | _ => []

theorem exec_rows (call : PrismaCall) (now : Time) (db : Db) :
    Adds (writesOf call) db (call.exec now db).2 := by
  cases call with
  | transaction ws =>
    simp only [PrismaCall.exec]
    split
    · rename_i db' h
      exact transaction_rows h
    · exact .of_same rfl rfl
  | invoiceCreate d =>
    simp only [PrismaCall.exec]
    split
    · rename_i db' h
      exact apply_rows h
    · exact .of_same rfl rfl
  | merchantWalletAddressUpsert row =>
    have hrows : (db.upsertWallet row).2.invoices = db.invoices ∧
        (db.upsertWallet row).2.payments = db.payments := by
      unfold Db.upsertWallet
      split
      · exact ⟨rfl, rfl⟩
      · split <;> exact ⟨rfl, rfl⟩
    exact .of_same hrows.1 hrows.2
  | blockchainScanCursorUpsert network =>
    have hrows : (db.upsertCursor network).2.invoices = db.invoices ∧
        (db.upsertCursor network).2.payments = db.payments := by
      unfold Db.upsertCursor
      split
      · exact ⟨rfl, rfl⟩
      · dsimp only
        split <;> exact ⟨rfl, rfl⟩
    exact .of_same hrows.1 hrows.2
  | _ => exact .of_same rfl rfl

end Rows

/-! ## Runs -/

/-- The transfer was simulated, on the registered network. -/
structure Genuine (t : TokenTransfer) (h : Calls) : Prop where
  network : t.network = "base"
  txHash : t.txHash ≠ ""
  simulated : ∃ input, Got (.simulatePayment input) t h ∧ t.amount = input.amount

/-- What holds between any two requests. -/
structure Sourced (c : History fakeCalls Memory) : Prop where
  chain : ∀ n, ∀ t ∈ c.state.other.adapter.transfersByBlock n, Genuine t c.trace
  fetched : ∀ a b (ts : List TokenTransfer), Got (.getTokenTransfers a b) ts c.trace →
    ∀ t ∈ ts, Genuine t c.trace
  payments : ∀ p ∈ c.state.db.payments, p.network = "base" ∧
    ∃ txHash, p.txHash = some txHash ∧ txHash ≠ ""
  amounts : ∀ i ∈ c.state.db.invoices, i.amount.fitsColumn = true

section Runs

variable {C : Config} {c : History fakeCalls Memory} {w' : World Memory} {t : TokenTransfer}
  {h h' : Calls} {op : Op fakeCalls} {s : ApiSystem}

theorem Genuine.mono (ht : Genuine t h) (hs : h ⊆ h') : Genuine t h' := by
  obtain ⟨input, hgot, hamount⟩ := ht.simulated
  exact ⟨ht.network, ht.txHash, input, hgot.mono hs, hamount⟩

theorem Sourced.unused {w : World Memory} (hw : Unused w) : Sourced ⟨w, []⟩ := by
  obtain ⟨hi, hp, -, now, hother⟩ := hw
  refine ⟨fun n t ht => ?_, fun a b ts hgot => ?_, fun p hmem => absurd hmem (hp p),
    fun i hmem => absurd hmem (hi i)⟩
  · rw [hother] at ht
    cases ht
  · obtain ⟨pid, hev⟩ := hgot
    cases hev

theorem Sourced.environment (hc : Sourced c) {act : Act Restart}
    (hact : CryptoPay.environment (backend C.blockTime) c.state act = some w') :
    Sourced { c with state := w' } := by
  obtain ⟨hrows, hother⟩ := Ledger.environment_rows hact
  refine ⟨fun n t ht => ?_, hc.fetched, fun p hp => hc.payments p ((hrows.payments p).1 hp),
    fun i hi => hc.amounts i ((hrows.invoices i).1 hi)⟩
  rcases hother with hsame | ⟨e, -, hfresh⟩
  · rw [hsame] at ht
    exact hc.chain n t ht
  · -- a restart forgets the chain
    rw [← Option.some.inj hfresh] at ht
    cases ht

/-- Only `simulatePayment` changes the chain. -/
theorem respond_adapter {blockTime : BlockTime} {pid : ℕ} {now : Time} {m m' : Memory} {call : Call}
    {k : Chance} {r : fakeCalls.Ret call}
    (hr : Fake.respond blockTime pid now m call k = some (r, m'))
    (hcall : ∀ input, call ≠ .simulatePayment input) : m'.adapter = m.adapter := by
  cases call with
  | simulatePayment input => exact absurd rfl (hcall input)
  | enterTick => exact (enterTick_keeps hr).1
  | _ =>
    cases k <;> cases hr
    rfl

theorem newTransfer_txHash {blockTime : BlockTime} {now : Time} {chain : Chain}
    {input : Fake.SimulatePaymentInput} {hash digits : String} :
    (newTransfer blockTime now chain input hash digits).txHash ≠ "" := by
  intro h
  have hlength := congrArg String.length h
  simp [newTransfer, String.length_append] at hlength

/-- A recorded transfer is the new one, or was there. -/
theorem mem_record {chain : Chain} {transfer : TokenTransfer} {n : ℤ}
    (ht : t ∈ (chain.record transfer).transfersByBlock n) :
    t = transfer ∨ t ∈ chain.transfersByBlock n := by
  have hmem : t ∈ Function.update chain.transfersByBlock transfer.blockNumber
      (chain.transfersByBlock transfer.blockNumber ++ [transfer]) n := ht
  by_cases hn : n = transfer.blockNumber
  · rw [hn, Function.update_self] at hmem
    rcases List.mem_append.mp hmem with hold | hnew
    · exact .inr (hn ▸ hold)
    · exact .inl (List.mem_singleton.mp hnew)
  · rw [Function.update_of_ne hn] at hmem
    exact .inr hmem

theorem mem_writesOf {call : PrismaCall} {d : PaymentCreateInput}
    (h : .paymentCreate d ∈ writesOf call) : ∃ ws, call = .transaction ws ∧ .paymentCreate d ∈ ws := by
  cases call with
  | transaction ws => exact ⟨ws, rfl, h⟩
  | invoiceCreate d' => cases List.mem_singleton.mp h
  | _ => cases h

/-- A Prisma call keeps what is known of the rows. -/
theorem Sourced.prisma (hc : Sourced c) {call : PrismaCall} (hcall : Originates c.trace (.prisma call))
    (now : Time) : (∀ p ∈ (call.exec now c.state.db).2.payments, p.network = "base" ∧
      ∃ txHash, p.txHash = some txHash ∧ txHash ≠ "") ∧
        ∀ i ∈ (call.exec now c.state.db).2.invoices, i.amount.fitsColumn = true := by
  have hadds := exec_rows call now c.state.db
  refine ⟨fun p' hp' => ?_, fun i' hi' => ?_⟩
  · rcases hadds.payments p' hp' with ⟨p, hp, hn, hh⟩ | ⟨d, hd, hn, hh⟩
    · rw [hn, hh]
      exact hc.payments p hp
    · obtain ⟨ws, rfl, hd⟩ := mem_writesOf hd
      obtain ⟨a, b, ts, hgot, t, ht, hnetwork, hhash⟩ := hcall d hd
      have hgenuine := hc.fetched a b ts hgot t ht
      exact ⟨hn.trans (hnetwork.trans hgenuine.network), d.txHash, hh, hhash ▸ hgenuine.txHash⟩
  · rcases hadds.invoices i' hi' with ⟨i, hi, heq⟩ | hfits
    · rw [heq]
      exact hc.amounts i hi
    · exact hfits

theorem Originates.mono (ho : Originates h op) (hs : h ⊆ h') : Originates h' op := by
  unfold Originates at ho ⊢
  split
  · exact ho
  · intro d hd
    obtain ⟨a, b, ts, hgot, ht⟩ := ho d hd
    exact ⟨a, b, ts, hgot.mono hs, ht⟩
  · trivial

theorem Sourced.answer {allowed : Condition (effects fakeCalls) (World Memory)}
    {ev : Event (effects fakeCalls)} (hc : Sourced c)
    (hans : Answered (machine (backend C.blockTime)) allowed (fun _ : Job => Originates) c ev w') :
    Sourced ⟨w', ev :: c.trace⟩ := by
  obtain ⟨i, hr⟩ := hans.reply
  obtain ⟨-, hexp, -⟩ := hans.expected
  have hold : c.trace ⊆ ev :: c.trace := List.subset_cons_of_subset _ fun _ hev => hev
  have hexp : Originates c.trace ev.op := hexp.mono fun _ hev => (mem_own.mp hev).1
  obtain ⟨pid, op, r⟩ := ev
  have hfetched : (∀ a b, op ≠ .other (.getTokenTransfers a b)) → ∀ a b (ts : List TokenTransfer),
      Got (.getTokenTransfers a b) ts (⟨pid, op, r⟩ :: c.trace) →
      ∀ t ∈ ts, Genuine t (⟨pid, op, r⟩ :: c.trace) := by
    intro hop a b ts hgot t ht
    rcases hgot.cons with ⟨q, heq⟩ | hgot
    · cases heq
      exact absurd rfl (hop a b)
    · exact (hc.fetched a b ts hgot t ht).mono hold
  have hquiet : w' = c.state → (∀ a b, op ≠ .other (.getTokenTransfers a b)) →
      Sourced ⟨w', ⟨pid, op, r⟩ :: c.trace⟩ := by
    rintro rfl hop
    exact ⟨fun n t ht => (hc.chain n t ht).mono hold, hfetched hop, hc.payments, hc.amounts⟩
  cases op with
  | prisma call =>
    rcases respond_prisma hr with ⟨-, rfl⟩ | ⟨-, hw⟩
    · obtain ⟨hpayments, hamounts⟩ := hc.prisma hexp c.state.clock
      exact ⟨fun n t ht => (hc.chain n t ht).mono hold, hfetched (fun _ _ => nofun), hpayments,
        hamounts⟩
    · exact hquiet hw fun _ _ => nofun
  | now => exact hquiet (respond_now hr).2 fun _ _ => nofun
  | generateId stem => exact hquiet (respond_generateId hr) fun _ _ => nofun
  | generateFakeAddress => exact hquiet (respond_generateFakeAddress hr) fun _ _ => nofun
  | cuid => exact hquiet (respond_cuid hr) fun _ _ => nofun
  | mark m => exact hquiet (respond_mark hr) fun _ _ => nofun
  | other call =>
    obtain ⟨k, m', hm, rfl⟩ := respond_other hr
    have hchain : ∀ n, ∀ t ∈ m'.adapter.transfersByBlock n,
        Genuine t (⟨pid, .other call, r⟩ :: c.trace) := by
      intro n t ht
      by_cases hsimulate : ∃ input, call = .simulatePayment input
      · obtain ⟨input, rfl⟩ := hsimulate
        cases k with
        | ok => cases hm
        | transfer hash digits =>
          cases hm
          rcases mem_record ht with rfl | hmem
          · exact ⟨hexp, newTransfer_txHash, input, ⟨pid, List.mem_cons_self⟩, rfl⟩
          · exact (hc.chain n t hmem).mono hold
      · rw [respond_adapter hm (not_exists.mp hsimulate)] at ht
        exact (hc.chain n t ht).mono hold
    refine ⟨hchain, ?_, hc.payments, hc.amounts⟩
    by_cases hrange : ∃ a b, call = .getTokenTransfers a b
    · obtain ⟨a, b, rfl⟩ := hrange
      intro a' b' ts hgot t ht
      rcases hgot.cons with ⟨q, heq⟩ | hgot
      · cases heq
        cases k <;> cases hm
        have hscan : t ∈ Data.scan c.state.other.adapter.transfersByBlock a b := ht
        obtain ⟨n, -, -, hmem⟩ := Data.mem_scan.mp hscan
        exact (hc.chain n t hmem).mono hold
      · exact (hc.fetched a' b' ts hgot t ht).mono hold
    · exact hfetched fun a b heq => hrange ⟨a, b, by cases heq; rfl⟩

instance : Inhabited Job := ⟨.tick⟩

/-- In every reachable state, rows and transfers are what they should be. -/
theorem ApiReachable.sourced (hs : ApiReachable C s) : Sourced s.config :=
  hs.invariant (workload_originates C) (fun _ hw => .unused hw)
    (fun _ _ _ h hact => h.environment hact) fun _ _ _ h hans => h.answer hans

end Runs

end CryptoPay.Api
