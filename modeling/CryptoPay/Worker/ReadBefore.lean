import CryptoPay.Payments.Readings
import CryptoPay.Worker.CommitFootprint
import CryptoPay.Worker.Jobs

/-!
# What a pass has read before it writes

The sweep and the matcher write invoices that a query for `PENDING` ones has returned, and the
confirm loop writes payments that a query for active ones has returned, each of them once.
`ReadBefore` says so of a transaction and of what its process has requested before.

Results:
* `jobs_readFirst`: every transaction of the worker has been read for in this way.
* `finds_pending`, `finds_open`: what the row is when it is written, if nobody else has written
  it since the pass has read it.
* `detects_since`: who may have recorded a payment of the invoice since.
-/

namespace CryptoPay.Worker

open Async

variable {A : Signature}

/-! ## What is expected -/

/-- The request shows or writes the invoice `id`. -/
def TouchesInvoice (id : String) (ev : Event (effects A)) : Prop :=
  ShowsInvoice id ev ∨ UpdatesInvoice id ev ∨ RecordsPayment id ev

/-- The request shows the payment `id`, or writes its status. -/
def TouchesPayment (id : String) (ev : Event (effects A)) : Prop :=
  ShowsPayment id ev ∨ SetsPaymentStatus id ev

/-- The last request that touched a row, before it is written, was the query that looks for such
    rows. -/
structure ReadBefore (ws : List Write) (h : List (Event (effects A))) : Prop where
  invoice : ∀ id d, .invoiceUpdate id d ∈ ws → d.status = .expired ∨ d.status = .detected →
    Since (ShowsPending id) (fun _ => TouchesInvoice id) h
  payment : ∀ id d, .paymentUpdate id d ∈ ws → d.status.isSome = true →
    Since (ShowsOpen id) (fun _ => TouchesPayment id) h
  recorded : ∀ d, .paymentCreate d ∈ ws →
    Since (ShowsPending d.invoiceId) (fun _ => TouchesInvoice d.invoiceId) h

/-- A transaction is read for, as lists name a row once. -/
def ReadsFirst : List (Event (effects A)) → Op A → Prop :=
  Prog.Provided ListsOnce fun h op => ∀ ws, op = .prisma (.transaction ws) → ReadBefore ws h

/-- A request that neither lists nor writes rows. -/
def Plain : Op A → Prop
  | .prisma (.transaction _) => False
  | .prisma (.invoiceCreate _) => False
  | .prisma (.invoiceFindMany _) => False
  | .prisma (.paymentFindMany _) => False
  | _ => True

/-- A commit that the confirm loop makes for the payment `p`. -/
def OfPayment (p : PaymentWithInvoice) : Commit → Prop
  | .fail q => q = p
  | .reorg q => q = p
  | .confirm q _ => q = p
  | .refresh q _ => q = p
  | .settle q .. => q = p
  | _ => False

/-- The transaction is a commit of the kind `K`. -/
def Commits (K : Commit → Prop) (op : Op A) : Prop :=
  ∃ m, K m ∧ op = .prisma (.transaction m.writes)

variable {pid : ℕ} {id : String} {op : Op A} {r : (effects A).Ret op} {h : List (Event (effects A))}

theorem Plain.written (hop : Plain op) : written (⟨pid, op, r⟩ : Event (effects A)) = [] := by
  unfold CryptoPay.written
  split
  · rename_i heq; cases heq; exact False.elim hop
  · rename_i heq; cases heq; exact False.elim hop
  · rfl

theorem Plain.touches (hop : Plain op) :
    ¬ TouchesInvoice id ⟨pid, op, r⟩ ∧ ¬ TouchesPayment id ⟨pid, op, r⟩ := by
  unfold TouchesInvoice TouchesPayment UpdatesInvoice RecordsPayment SetsPaymentStatus
  rw [hop.written]
  constructor
  · rintro ((⟨_, _, hret, -⟩ | ⟨_, _, hret, -⟩) | ⟨d, hd⟩ | ⟨d, hd, -⟩)
    · cases hret; exact hop
    · cases hret; exact hop
    · cases hd
    · cases hd
  · rintro (⟨_, _, hret, -⟩ | ⟨d, hd, -⟩)
    · cases hret; exact hop
    · cases hd

theorem Plain.readsFirst (hop : Plain op) : ReadsFirst h op := by
  rintro - ws rfl
  exact hop.elim

/-- Which rows a transaction touches. -/
theorem touches_transaction {ws : List Write} {r : Except Error Unit} :
    (TouchesInvoice id (⟨pid, .prisma (.transaction ws), r⟩ : Event (effects A)) →
      (∃ d, .invoiceUpdate id d ∈ ws) ∨ ∃ d, .paymentCreate d ∈ ws ∧ d.invoiceId = id) ∧
    (TouchesPayment id (⟨pid, .prisma (.transaction ws), r⟩ : Event (effects A)) →
      ∃ d, .paymentUpdate id d ∈ ws) := by
  have hsub : ∀ x ∈ written (⟨pid, .prisma (.transaction ws), r⟩ : Event (effects A)), x ∈ ws := by
    intro x hx
    cases r with
    | ok u => exact hx
    | error e => cases hx
  constructor
  · rintro ((⟨_, _, hret, -⟩ | ⟨_, _, hret, -⟩) | ⟨d, hd⟩ | ⟨d, hd, hid⟩)
    · cases hret
    · cases hret
    · exact .inl ⟨d, hsub _ hd⟩
    · exact .inr ⟨d, hsub _ hd, hid⟩
  · rintro (⟨_, _, hret, -⟩ | ⟨d, hd, -⟩)
    · cases hret
    · exact ⟨d, hsub _ hd⟩

/-! ## The programs -/

theorem expireInvoice_closes (i : Invoice) :
    (expireInvoice i : Action A Unit).Closes Plain
      (Commits fun m => ∃ eventId, m = .expire i eventId) :=
  .bind (.ofExcept _) fun _ => .bind (.perform trivial) fun eventId =>
    .last ⟨.expire i eventId, ⟨eventId, rfl⟩, rfl⟩

/-- The rest of the matcher, once an invoice is selected. -/
theorem creditTransfer_closes (t : TokenTransfer) (i : Invoice) :
    (creditTransfer t i : Action A Unit).Closes Plain
      (Commits fun m => ∃ paymentId detectedAt, m = .detect i t paymentId detectedAt) := by
  refine .bind (.request trivial) fun alreadySeen => ?_
  split_ifs
  · trivial
  · exact .bind (.ofExcept _) fun _ => .bind (.ofExcept _) fun _ => .bind (.perform trivial)
      fun paymentId => .bind (.perform trivial) fun detectedAt =>
        .last ⟨.detect i t paymentId detectedAt, ⟨paymentId, detectedAt, rfl⟩, rfl⟩

theorem commit_closes {p : PaymentWithInvoice} {m : Commit} (hm : OfPayment p m) :
    (transaction m.writes : Action A Unit).Closes Plain (Commits (OfPayment p)) :=
  .last ⟨m, hm, rfl⟩

theorem failPayment_closes (p : PaymentWithInvoice) :
    (failPayment p : Action A Unit).Closes Plain (Commits (OfPayment p)) :=
  .bind (.ofExcept _) fun _ => .bind (.ofExcept _) fun _ => commit_closes (m := .fail p) rfl

theorem moveToConfirming_closes (p : PaymentWithInvoice) (n : ℤ) :
    (moveToConfirming p n : Action A Unit).Closes Plain (Commits (OfPayment p)) := by
  refine .bind (.ofExcept _) fun _ => ?_
  dsimp only
  split_ifs
  · exact .bind (.ofExcept _) fun _ => commit_closes (m := .confirm p n) rfl
  · exact commit_closes (m := .confirm p n) rfl

theorem handleMissingTransaction_closes (p : PaymentWithInvoice) :
    (handleMissingTransaction p : Action A Unit).Closes Plain (Commits (OfPayment p)) := by
  unfold handleMissingTransaction
  split_ifs
  · exact failPayment_closes p
  · exact .bind (.ofExcept _) fun _ => commit_closes (m := .reorg p) rfl
  · refine .bind (.perform trivial) fun now => ?_
    split_ifs
    · exact failPayment_closes p
    · trivial

theorem finalizePayment_closes (p : PaymentWithInvoice) (n : ℤ) :
    (finalizePayment p n : Action A Unit).Closes Plain (Commits (OfPayment p)) := by
  refine .bind (.ofExcept _) fun _ => .bind (.ofExcept _) fun _ => .bind (.perform trivial)
    fun confirmedAt => .bind ?_ fun paidAt => .bind (.perform trivial) fun eventId =>
      commit_closes (m := .settle p n confirmedAt paidAt eventId) rfl
  unfold paidAtNow
  split_ifs
  · exact .bind (.perform trivial) fun now => trivial
  · trivial

theorem advancePayment_closes (requiredConfirmations : ℤ) (p : PaymentWithInvoice) (n : ℤ) :
    (advancePayment requiredConfirmations p n : Action A Unit).Closes Plain
      (Commits (OfPayment p)) := by
  unfold advancePayment
  split_ifs
  · exact moveToConfirming_closes p n
  · exact moveToConfirming_closes p n
  · exact commit_closes (m := .refresh p n) rfl
  · trivial
  · exact finalizePayment_closes p n

theorem confirmPayment_closes {adapter : BlockchainAdapter A} (requiredConfirmations : ℤ)
    (hadapter : ∀ txHash, (adapter.getConfirmations txHash).Only Plain) (p : PaymentWithInvoice) :
    (confirmPayment adapter requiredConfirmations p).Closes Plain (Commits (OfPayment p)) := by
  unfold confirmPayment
  split
  · trivial
  · split_ifs
    · trivial
    · refine .bind (hadapter _).attempt fun r => ?_
      split
      · exact handleMissingTransaction_closes p
      · trivial
      · exact advancePayment_closes _ _ _

/-! ## What they write has been read -/

theorem expire_readsFirst {i : Invoice} (hop : Commits (fun m => ∃ eventId, m = .expire i eventId) op)
    (hread : Since (ShowsPending i.id) (fun _ => TouchesInvoice i.id) h) : ReadsFirst h op := by
  obtain ⟨m, ⟨eventId, rfl⟩, rfl⟩ := hop
  rintro - ws ⟨⟩
  refine ⟨fun id d hd _ => ?_, fun id d hd => ?_, fun d hd => ?_⟩
  · cases Commit.mem_writes_invoiceUpdate hd
    exact hread
  · cases Commit.mem_writes_paymentUpdate hd
  · cases Commit.mem_writes_paymentCreate.mp hd

theorem detect_readsFirst {i : Invoice} {t : TokenTransfer}
    (hop : Commits (fun m => ∃ paymentId detectedAt, m = .detect i t paymentId detectedAt) op)
    (hread : Since (ShowsPending i.id) (fun _ => TouchesInvoice i.id) h) : ReadsFirst h op := by
  obtain ⟨m, ⟨paymentId, detectedAt, rfl⟩, rfl⟩ := hop
  rintro - ws ⟨⟩
  refine ⟨fun id d hd _ => ?_, fun id d hd => ?_, fun d hd => ?_⟩
  · cases Commit.mem_writes_invoiceUpdate hd
    exact hread
  · cases Commit.mem_writes_paymentUpdate hd
  · cases Commit.mem_writes_paymentCreate.mp hd
    exact hread

theorem OfPayment.paymentUpdate {p : PaymentWithInvoice} {m : Commit} (hm : OfPayment p m)
    {u : String × PaymentUpdateInput} (hu : m.paymentUpdate = some u) : u.1 = p.id := by
  cases m <;> first | exact hm.elim | (cases hm; cases hu; rfl)

/-- The confirm loop neither expires nor detects an invoice. -/
theorem OfPayment.invoiceUpdate {p : PaymentWithInvoice} {m : Commit} (hm : OfPayment p m)
    {u : String × InvoiceUpdateInput} (hu : m.invoiceUpdate = some u) :
    u.2.status ≠ .expired ∧ u.2.status ≠ .detected := by
  cases m with
  | settle q k confirmedAt paidAt eventId =>
    cases hu
    show q.amountMatch.outcome.2.1 ≠ .expired ∧ q.amountMatch.outcome.2.1 ≠ .detected
    cases q.amountMatch <;> exact ⟨nofun, nofun⟩
  | fail q => cases hu; exact ⟨nofun, nofun⟩
  | confirm q n => cases hu; exact ⟨nofun, nofun⟩
  | reorg q => cases hu
  | refresh q n => cases hu
  | _ => exact hm.elim

theorem advance_readsFirst {p : PaymentWithInvoice} (hop : Commits (OfPayment p) op)
    (hread : Since (ShowsOpen p.id) (fun _ => TouchesPayment p.id) h) : ReadsFirst h op := by
  obtain ⟨m, hm, rfl⟩ := hop
  rintro - ws ⟨⟩
  refine ⟨fun id d hd hs => ?_, fun id d hd _ => ?_, fun d hd => ?_⟩
  · obtain ⟨hexpired, hdetected⟩ := hm.invoiceUpdate (Commit.mem_writes_invoiceUpdate hd)
    exact absurd hs (not_or.mpr ⟨hexpired, hdetected⟩)
  · obtain rfl : id = p.id := hm.paymentUpdate (Commit.mem_writes_paymentUpdate hd)
    exact hread
  · have hcreate := Commit.mem_writes_paymentCreate.mp hd
    cases m <;> first | exact hm.elim | cases hcreate

/-! ## Every job -/

theorem expireOverdueInvoices_readsFirst :
    (expireOverdueInvoices : Action A Unit).Obeys ReadsFirst pid (fun _ _ => True)
      (fun _ _ => True) h := by
  refine Prog.obeys_bind.mpr ⟨Plain.readsFirst trivial, fun now => ?_⟩
  refine Prog.obeys_bind.mpr (Prog.obeys_request.mpr ⟨nofun, fun r => ⟨fun overdue hr => ?_,
    fun _ _ => trivial⟩⟩)
  subst hr
  by_cases hdistinct : (overdue.map Invoice.id).Nodup
  · refine Prog.Obeys.forEach_since Invoice.id (fun i => ShowsPending i.id) TouchesInvoice
      expireInvoice_closes (fun _ _ _ hop _ => hop.readsFirst) (fun _ _ _ _ hop => hop.touches.1)
      (fun _ _ _ hop => expire_readsFirst hop) ?_ hdistinct
      fun i hi => .inl ⟨overdueWhere now, overdue, rfl, rfl, i, hi, rfl⟩
    rintro i op r id ⟨m, ⟨eventId, rfl⟩, rfl⟩ htouch
    rcases touches_transaction.1 htouch with ⟨d, hd⟩ | ⟨d, hd, -⟩
    · cases Commit.mem_writes_invoiceUpdate hd
      rfl
    · cases Commit.mem_writes_paymentCreate.mp hd
  · refine Prog.Obeys.provided_of_not fun hall => hdistinct ?_
    exact (hall _ List.mem_cons_self).invoices (overdueWhere now) overdue rfl

theorem runPaymentConfirm_readsFirst {adapter : BlockchainAdapter A} (requiredConfirmations : ℤ)
    (hadapter : ∀ txHash, (adapter.getConfirmations txHash).Only Plain) :
    (runPaymentConfirm adapter requiredConfirmations).Obeys ReadsFirst pid (fun _ _ => True)
      (fun _ _ => True) h := by
  refine Prog.obeys_bind.mpr (expireOverdueInvoices_readsFirst.post (fun _ h _ => ?_) fun _ _ h => h)
  refine Prog.obeys_bind.mpr (Prog.obeys_request.mpr ⟨nofun, fun r => ⟨fun active hr => ?_,
    fun _ _ => trivial⟩⟩)
  subst hr
  by_cases hdistinct : (active.map fun p => p.id).Nodup
  · refine Prog.Obeys.forEach_since (fun p => p.id) (fun p => ShowsOpen p.id) TouchesPayment
      (confirmPayment_closes requiredConfirmations hadapter) (fun _ _ _ hop _ => hop.readsFirst)
      (fun _ _ _ _ hop => hop.touches.2) (fun _ _ _ hop => advance_readsFirst hop) ?_ hdistinct
      fun p hp => .inl ⟨activeStatuses, active, rfl, by decide, p, hp, rfl⟩
    rintro p op r id ⟨m, hm, rfl⟩ htouch
    obtain ⟨d, hd⟩ := touches_transaction.2 htouch
    exact hm.paymentUpdate (Commit.mem_writes_paymentUpdate hd)
  · refine Prog.Obeys.provided_of_not fun hall => hdistinct ?_
    exact (hall _ List.mem_cons_self).payments activeStatuses active rfl

theorem passTransfer_readsFirst (t : TokenTransfer) :
    (passTransfer t : Action A Unit).Obeys ReadsFirst pid (fun _ _ => True) (fun _ _ => True) h := by
  refine Prog.obeys_bind.mpr ⟨nofun, fun _ => Prog.obeys_bind.mpr ?_⟩
  have hmark : ∀ h', (mark (.processed t) : Action A Unit).Obeys ReadsFirst pid
      (fun _ _ => True) (fun _ _ => True) h' := fun h' => ⟨nofun, fun _ => trivial⟩
  refine Prog.obeys_bind.mpr (Prog.obeys_request.mpr ⟨nofun, fun r => ⟨fun (candidates : List Invoice) hr => ?_,
    fun _ _ => trivial⟩⟩)
  subst hr
  split
  · exact hmark _
  · rename_i i hselected
    have hi : i ∈ candidates := (selectMatchingInvoice_mem hselected).1
    refine ((creditTransfer_closes t i).obeys (J := fun _ => True)
      (I := Since (ShowsPending i.id) fun _ => TouchesInvoice i.id)
      (fun op h hop hI => ⟨hop.readsFirst, fun r => .inr ⟨hop.touches.1, hI⟩⟩)
      (fun op h hop hI => ⟨detect_readsFirst hop hI, fun _ => trivial⟩) (fun _ _ => trivial)
      ?_).post (fun _ _ _ => hmark _) fun _ _ _ => trivial
    exact .inl ⟨candidateWhere t, candidates, rfl, rfl, i, hi, rfl⟩

/-- A program without transactions on invoices and payments. -/
theorem administrative_readsFirst {α : Type} {p : Action A α} (hp : p.Only Administrative) :
    p.Obeys ReadsFirst pid (fun _ _ => True) (fun _ _ => True) h := by
  refine Prog.Obeys.only hp (I := fun _ => True) (fun op h hop _ => ?_) (fun _ _ _ _ _ => trivial)
    trivial
  rintro - ws rfl
  have hno : ∀ w ∈ ws, w.Administrative := hop
  exact ⟨fun id d hd => (hno _ hd).elim, fun id d hd => (hno _ hd).elim, fun d hd => (hno _ hd).elim⟩

theorem runBlockchainScan_readsFirst {adapter : BlockchainAdapter A} (network : String)
    (hlatest : adapter.getLatestBlock.Only Plain)
    (htransfers : ∀ a b, (adapter.getTokenTransfers a b).Only Plain) :
    (runBlockchainScan adapter network).Obeys ReadsFirst pid (fun _ _ => True) (fun _ _ => True)
      h := by
  have hplain : ∀ {α : Type} {p : Action A α} {h : List (Event (effects A))}, p.Only Plain →
      p.Obeys ReadsFirst pid (fun _ _ => True) (fun _ _ => True) h := fun hp =>
    Prog.Obeys.only hp (I := fun _ => True) (fun _ _ hop _ => hop.readsFirst)
      (fun _ _ _ _ _ => trivial) trivial
  refine Prog.obeys_bind.mpr (Prog.obeys_request.mpr ⟨nofun, fun r => ⟨fun cursor _ => ?_,
    fun _ _ => trivial⟩⟩)
  refine Prog.obeys_bind.mpr ((hplain hlatest).post (fun latestBlock _ _ => ?_) fun _ _ h => h)
  dsimp only
  split_ifs
  · trivial
  refine Prog.obeys_bind.mpr ((hplain (htransfers _ _)).post (fun ts h _ => ?_) fun _ _ h => h)
  refine Prog.obeys_bind.mpr ((Prog.Obeys.forEach (fun _ _ => True)
    (fun t _ _ _ => passTransfer_readsFirst t) trivial).post (fun _ h _ => ?_) fun _ _ h => h)
  refine Prog.obeys_request.mpr ⟨?_, fun r => ⟨fun _ _ => trivial, fun _ _ => trivial⟩⟩
  rintro - ws ⟨⟩
  constructor <;> simp

theorem jobs_readFirst (n : Replicas) (D : Setup) :
    (workload n D.deployment).Obeys fun _ => ReadsFirst := by
  intro j pid
  cases j with
  | scan => exact runBlockchainScan_readsFirst _ (.request trivial) fun _ _ => .request trivial
  | confirm => exact runPaymentConfirm_readsFirst _ fun _ => .request trivial
  | createInvoice organizationId apiKeyId input ctx =>
    exact administrative_readsFirst ((Api.create_administrative _ _ _ _ _).bind fun _ => trivial)
  | setWalletAddress organizationId userId input ctx =>
    exact administrative_readsFirst ((Api.set_administrative _ _ _ _ _).bind fun _ => trivial)

/-! ## What is found -/

variable {n : Replicas} {D : Setup} {allowed : Condition (effects adapterCalls) (World Unit)}
  {s : EvmSystem} {p : Proc (effects adapterCalls) Error Job} {ws : List Write}
  {k : (effects adapterCalls).Ret (.prisma (.transaction ws)) →
    Prog (effects adapterCalls) Error Unit}

/-- What a process has read before the transaction that it awaits. -/
theorem awaits_readBefore (hs : EvmReachable n D allowed s) (hp : p ∈ s.procs)
    (hk : p.prog = .await (.prisma (.transaction ws)) k) :
    ReadBefore ws (own p.pid s.config.trace) :=
  (hs.tracked (jobs_readFirst n D)).expects hp hk
    (fun ev hev => reachable_listsOnce hs ev (mem_own.mp hev).1) ws rfl

/-- An expiry or a detection finds its invoice `PENDING`, if no other process has updated the
    invoice since this one has read it. -/
theorem finds_pending (hs : EvmReachable n D allowed s) (hp : p ∈ s.procs)
    (hk : p.prog = .await (.prisma (.transaction ws)) k) {d : InvoiceUpdateInput}
    (hw : .invoiceUpdate id d ∈ ws) (hd : d.status = .expired ∨ d.status = .detected)
    (h : Async.Untouched (ShowsInvoice id) (fun _ => UpdatesInvoice id) p.pid s.config.trace) :
    s.config.state.db.Pending id :=
  pending_since hs (Since.combine (fun _ _ => .inl) (fun _ _ _ hu => .inr (.inl hu))
    ((awaits_readBefore hs hp hk).invoice id d hw hd) h)

/-- A write of a status finds its payment open, if no other process has written the status since
    this one has read the payment. -/
theorem finds_open (hs : EvmReachable n D allowed s) (hp : p ∈ s.procs)
    (hk : p.prog = .await (.prisma (.transaction ws)) k) {d : PaymentUpdateInput}
    (hw : .paymentUpdate id d ∈ ws) (hd : d.status.isSome = true)
    (h : Async.Untouched (ShowsPayment id) (fun _ => SetsPaymentStatus id) p.pid s.config.trace) :
    s.config.state.db.Open id :=
  open_since hs (Since.combine (fun _ _ => .inl) (fun _ _ _ => .inr)
    ((awaits_readBefore hs hp hk).payment id d hw hd) h)

/-- Nobody has recorded a payment of an invoice since the pass that now records one has found it
    `PENDING`, if no other process has since this one has read it. -/
theorem detects_since (hs : EvmReachable n D allowed s) (hp : p ∈ s.procs)
    (hk : p.prog = .await (.prisma (.transaction ws)) k) {d : PaymentCreateInput}
    (hw : .paymentCreate d ∈ ws)
    (h : Async.Untouched (ShowsInvoice d.invoiceId) (fun _ => RecordsPayment d.invoiceId) p.pid
      s.config.trace) :
    Since (fun e => e.pid = p.pid ∧ ShowsPending d.invoiceId e)
      (fun _ => RecordsPayment d.invoiceId) s.config.trace :=
  Since.combine (fun _ _ => .inl) (fun _ _ _ hr => .inr (.inr hr))
    ((awaits_readBefore hs hp hk).recorded d hw) h

end CryptoPay.Worker
