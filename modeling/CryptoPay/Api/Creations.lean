import CryptoPay.Api.Invoices
import CryptoPay.Async.Freshness
import CryptoPay.Payments.Outline

/-!
# Concurrent creations of one invoice

Any number of calls of `InvoicesService.create` with the same organization and
the same input, as a client sends them that retries after a timeout. A call
looks the external id up, and later inserts; nothing holds the id in between.

Results:
* `creations_idempotent`: where no other call inserts a row between a call's lookup
  of its unique key and its insert, every call returns the one invoice or fails for
  a reason of its own.
* `loser_fails`: two calls look up before one of them inserts, and the other
  fails with a unique constraint error.
-/

namespace CryptoPay.Api

open Async Data

/-- What a call sends to its client. -/
def client : Signature where
  Op := Invoice
  Ret _ := Unit

/-- Clients take every reply, and the clock may be set to anything. -/
def clients : Backend client Unit Unit Empty where
  respond _ _ _ _ _ := some ((), ())
  env _ act := nomatch act
  restarts _ := false
  tick _ _ := true

/-- A request with an external id, which is sent any number of times. -/
structure Retried where
  mode : BlockchainMode
  organizationId : String
  externalId : String
  input : CreateInvoiceInput
  named : input.externalId = some externalId

/-- What may differ between two calls. -/
structure CreateCall where
  apiKeyId : String
  ctx : RequestContext
  deriving DecidableEq, Repr

instance : Inhabited CreateCall := ⟨⟨"", ⟨"", none⟩⟩⟩

namespace Retried

/-- `InvoicesController.create` (invoices.controller.ts, lines 25–38). -/
def handler (R : Retried) (call : CreateCall) : Action client Unit := do
  let invoice ← create R.mode R.organizationId call.apiKeyId R.input call.ctx
  .perform (S := effects client) (.other invoice)

/-- The calls, any number of them in flight. -/
def calls (R : Retried) : Workload (effects client) Error CreateCall where
  launch := R.handler
  compatible _ _ := true
  symm _ _ := rfl

/-- The invoice has the organization and the external id of the request. -/
def Names (R : Retried) (i : Invoice) : Prop :=
  i.organizationId = R.organizationId ∧ i.externalId = some R.externalId

/-- `@@unique([organizationId, externalId])`, for the request. -/
def Unique (R : Retried) (w : World Unit) : Prop :=
  ∀ i ∈ w.db.invoices, ∀ j ∈ w.db.invoices, R.Names i → R.Names j → i = j

abbrev Log := Async.Config (effects client) (World Unit)

abbrev Requests := List (Event (effects client))

/-- An invoice is inserted under an id that is not in use. -/
def freshIds : Condition (effects client) (World Unit) := fun c _ op =>
  ∀ d, op = .prisma (.invoiceCreate d) → ∀ i ∈ c.state.db.invoices, i.id ≠ d.id

/-- The request looked for the invoice with the external id. -/
def LooksUpInvoice (organizationId externalId : String) (ev : Event (effects client)) : Prop :=
  ev.op = .prisma (.invoiceFindByExternalId organizationId externalId)

/-- The request stored an invoice under the external id. -/
def StoresInvoice (organizationId externalId : String) (ev : Event (effects client)) : Prop :=
  ∃ d, .invoiceCreate d ∈ written ev ∧ d.organizationId = organizationId ∧
    d.externalId = some externalId

/-- The request looked for the deposit address. -/
def LooksUpWallet (organizationId network token : String) (ev : Event (effects client)) : Prop :=
  ev.op = .prisma (.merchantWalletAddressFindUnique organizationId network token)

/-- The request stored a deposit address. -/
def StoresWallet (organizationId network token : String) (ev : Event (effects client)) : Prop :=
  ∃ w, .merchantWalletAddressCreate w ∈ written ev ∧ w.key = (organizationId, network, token)

/-- A call inserts a row only if no other call has inserted one with the same unique key since this
    one has looked the key up. -/
def unraced : Condition (effects client) (World Unit) := fun c pid op =>
  (∀ d externalId, op = .prisma (.invoiceCreate d) → d.externalId = some externalId →
    Untouched (LooksUpInvoice d.organizationId externalId)
      (fun _ => StoresInvoice d.organizationId externalId) pid c.trace) ∧
  ∀ w, op = .prisma (.transaction [.merchantWalletAddressCreate w]) →
    Untouched (LooksUpWallet w.organizationId w.network w.token)
      (fun _ => StoresWallet w.organizationId w.network w.token) pid c.trace

/-- Why a call fails that would also fail alone: the database was not reached, the amount does
    not fit its column, no deposit address is set in evm mode, or an invoice with the external id
    and other parameters is stored. -/
def OwnFault (R : Retried) (db : Db) (e : Error) : Prop :=
  e = .prisma .connection ∨
    (e = .prisma .valueOutOfRange ∧ R.input.amount.value.fitsColumn = false) ∨
    (∃ message, e = .validation message ∧ R.mode = .evm ∧ ∀ r ∈ db.merchantWalletAddresses,
      r.key ≠ (R.organizationId, R.input.network, R.input.token)) ∨
    ∃ message, e = .conflict message ∧ ∃ i ∈ db.invoices, R.Names i ∧
      assertIdempotentReplay i R.input = .error e

/-- The systems that the calls lead to, with steps that meet `allowed`. -/
abbrev Reached (R : Retried) (allowed : Condition (effects client) (World Unit)) :
    System (effects client) Error CreateCall (World Unit) → Prop :=
  Reachable (machine clients) R.calls R.Unique allowed

/-- The call has sent the invoice to its client. -/
abbrev sent (pid : ℕ) (invoice : Invoice) : Event (effects client) :=
  ⟨pid, .other invoice, ()⟩

/-- Creation is idempotent, in the runs whose steps meet `allowed`. -/
structure Idempotent (R : Retried) (allowed : Condition (effects client) (World Unit)) : Prop where
  unique : ∀ s, R.Reached allowed s → R.Unique s.config.state
  /-- Every call that returns has sent its client the stored invoice. -/
  returned : ∀ s, R.Reached allowed s → ∀ p ∈ s.procs, p.prog = .ret () →
    ∃ invoice, sent p.pid invoice ∈ s.config.trace
  same : ∀ s, R.Reached allowed s → ∀ pid invoice, sent pid invoice ∈ s.config.trace →
    invoice ∈ s.config.state.db.invoices ∧ R.Names invoice
  /-- No call fails because another one has won. -/
  unfailing : ∀ s, R.Reached allowed s → ∀ p ∈ s.procs, ∀ e, p.prog = .throw e →
    R.OwnFault s.config.state.db e

/-! ## What a call does after what it has done -/

abbrev lookedUp (R : Retried) (pid : ℕ) (existing : Option Invoice) : Event (effects client) :=
  ⟨pid, .prisma (.invoiceFindByExternalId R.organizationId R.externalId), .ok existing⟩

abbrev inserted (pid : ℕ) (d : InvoiceCreateInput) (row : Invoice) : Event (effects client) :=
  ⟨pid, .prisma (.invoiceCreate d), .ok row⟩

abbrev noWallet (R : Retried) (pid : ℕ) : Event (effects client) :=
  ⟨pid, .prisma (.merchantWalletAddressFindUnique R.organizationId R.input.network R.input.token),
    .ok none⟩

abbrev refused (pid : ℕ) (call : PrismaCall) (e : Error) : Event (effects client) :=
  ⟨pid, .prisma call, .error e⟩

/-- The call has looked the external id up since it last touched it, and found nothing. -/
def Searched (R : Retried) : Requests → Prop :=
  Since (fun ev => ∃ pid, ev = R.lookedUp pid none) fun _ ev =>
    LooksUpInvoice R.organizationId R.externalId ev ∨ StoresInvoice R.organizationId R.externalId ev

/-- The same for the deposit address. -/
def SearchedWallet (R : Retried) : Requests → Prop :=
  Since (fun ev => ∃ pid, ev = R.noWallet pid) fun _ ev =>
    LooksUpWallet R.organizationId R.input.network R.input.token ev ∨
      StoresWallet R.organizationId R.input.network R.input.token ev

/-- When a call makes a request. -/
def Expected (R : Retried) (h : Requests) : Op client → Prop
  | .prisma (.invoiceFindByExternalId organizationId externalId) =>
    organizationId = R.organizationId ∧ externalId = R.externalId
  | .prisma (.merchantWalletAddressFindUnique ..) => True
  | .prisma (.invoiceCreate d) => R.Searched h ∧ ∃ id paymentAddress now,
    d = newInvoice id R.organizationId paymentAddress now R.input
  | .prisma (.transaction writes) => (∃ row, writes = [.auditLogCreate row]) ∨
    (R.mode = .fake ∧ R.SearchedWallet h ∧ ∃ id address createdAt, writes =
      [.merchantWalletAddressCreate ⟨id, R.organizationId, R.input.network, R.input.token, address,
        createdAt⟩])
  | .prisma _ => False
  | .other invoice => (∃ pid, R.lookedUp pid (some invoice) ∈ h) ∨
    ∃ pid d, inserted pid d invoice ∈ h
  | _ => True

/-- Why a call throws. -/
def Thrown (R : Retried) (e : Error) (h : Requests) : Prop :=
  (∃ pid call, refused pid call e ∈ h) ∨
    (∃ message, e = .validation message ∧ R.mode = .evm ∧ ∃ pid, R.noWallet pid ∈ h) ∨
    ∃ message, e = .conflict message ∧ ∃ pid existing, R.lookedUp pid (some existing) ∈ h ∧
      assertIdempotentReplay existing R.input = .error e

section Obeys

variable {R : Retried} {pid : ℕ} {h : Requests} {α : Type}

/-- A Prisma call that is expected, and what becomes of its reply. -/
theorem prisma_obeys {call : PrismaCall} {Q : call.Ret → Requests → Prop}
    (hexp : R.Expected h (.prisma call))
    (hok : ∀ a, Q a (⟨pid, .prisma call, .ok a⟩ :: h)) :
    (prisma call : Action client call.Ret).Obeys R.Expected pid Q R.Thrown h := by
  refine Prog.obeys_request.mpr ⟨hexp, fun r => ⟨fun a ha => ?_, fun e he => ?_⟩⟩
  · obtain rfl : r = .ok a := ha
    exact hok a
  · obtain rfl : r = .error e := he
    exact .inl ⟨pid, call, List.mem_cons_self⟩

theorem record_obeys (input : RecordAuditEventInput) {Q : Unit → Requests → Prop}
    (hQ : ∀ h', h <:+ h' → Q () h') :
    (record input : Action client Unit).Obeys R.Expected pid Q R.Thrown h :=
  prisma_obeys (.inl ⟨_, rfl⟩) fun _ => hQ _ (List.suffix_cons _ _)

/-- A request that is no Prisma call writes nothing. -/
theorem written_local {op : Op client} {r : (effects client).Ret op}
    (hop : ∀ call, op ≠ .prisma call) : written (⟨pid, op, r⟩ : Event (effects client)) = [] := by
  unfold written
  split
  · rename_i heq
    exact absurd (congrArg Event.op heq) (hop _)
  · rename_i heq
    exact absurd (congrArg Event.op heq) (hop _)
  · rfl

/-- A request about other rows. -/
theorem Searched.next {ev : Event (effects client)} (hs : R.Searched h)
    (hlookup : ∀ o e, ev.op ≠ .prisma (.invoiceFindByExternalId o e))
    (hstore : ∀ d, .invoiceCreate d ∉ written ev) : R.Searched (ev :: h) :=
  .inr ⟨fun ht => ht.elim (hlookup _ _) fun ⟨d, hd, _⟩ => hstore d hd, hs⟩

theorem Searched.local_request {op : Op client} {r : (effects client).Ret op} (hs : R.Searched h)
    (hop : ∀ call, op ≠ .prisma call) : R.Searched (⟨pid, op, r⟩ :: h) :=
  hs.next (fun _ _ => hop _) fun d hd => by rw [written_local hop] at hd; cases hd

theorem SearchedWallet.local_request {op : Op client} {r : (effects client).Ret op}
    (hs : R.SearchedWallet h) (hop : ∀ call, op ≠ .prisma call) :
    R.SearchedWallet (⟨pid, op, r⟩ :: h) := by
  refine .inr ⟨fun ht => ?_, hs⟩
  rcases ht with hlookup | ⟨w, hw, -⟩
  · exact hop _ hlookup
  · rw [written_local hop] at hw
    cases hw

theorem getDepositAddress_obeys {Q : String → Requests → Prop} (hs : R.Searched h)
    (hQ : ∀ address h', R.Searched h' → Q address h') :
    (getDepositAddress R.mode R.organizationId R.input.network R.input.token :
      Action client String).Obeys R.Expected pid Q R.Thrown h := by
  unfold getDepositAddress
  refine Prog.obeys_bind.mpr (prisma_obeys trivial fun existing => ?_)
  have hs' : R.Searched (⟨pid, .prisma (.merchantWalletAddressFindUnique R.organizationId
      R.input.network R.input.token), .ok existing⟩ :: h) :=
    hs.next (fun _ _ => nofun) fun _ hd => absurd hd List.not_mem_nil
  cases existing with
  | some wallet => exact hQ _ _ hs'
  | none =>
    cases hmode : R.mode with
    | evm => exact .inr (.inl ⟨_, rfl, hmode, pid, List.mem_cons_self⟩)
    | fake =>
      refine ⟨trivial, fun address => ⟨trivial, fun id => ⟨trivial, fun createdAt => ?_⟩⟩⟩
      show Prog.Obeys _ _ _ _ (transaction _ >>= _) _
      have hwallet : R.SearchedWallet (R.noWallet pid :: h) := .inl ⟨pid, rfl⟩
      refine Prog.obeys_bind.mpr (prisma_obeys (.inr ⟨hmode, ?_, id, address, createdAt, rfl⟩)
        fun _ => hQ _ _ ?_)
      · exact ((hwallet.local_request fun _ h => by cases h).local_request
          fun _ h => by cases h).local_request fun _ h => by cases h
      · exact (((hs'.local_request fun _ h => by cases h).local_request
          fun _ h => by cases h).local_request fun _ h => by cases h).next (fun _ _ h => by cases h)
            fun d hd => by simp [written] at hd

/-- The invoice that a call returns was found or inserted by it. -/
def Known (R : Retried) (invoice : Invoice) (h : Requests) : Prop :=
  R.Expected h (.other invoice)

theorem createFresh_obeys (call : CreateCall) (hs : R.Searched h) :
    (createFresh R.mode R.organizationId call.apiKeyId R.input call.ctx :
      Action client Invoice).Obeys R.Expected pid R.Known R.Thrown h := by
  unfold createFresh
  refine Prog.obeys_bind.mpr (Prog.obeys_ofExcept.mpr ⟨fun _ _ => ?_, fun _ he => nomatch he⟩)
  refine Prog.obeys_bind.mpr (getDepositAddress_obeys hs fun address h' hs' => ?_)
  refine ⟨trivial, fun id => ⟨trivial, fun now => ?_⟩⟩
  show Prog.Obeys _ _ _ _ (prisma _ >>= _) _
  refine Prog.obeys_bind.mpr ?_
  refine prisma_obeys ?_ fun invoice => ?_
  · refine ⟨?_, id, address, now, rfl⟩
    exact (hs'.local_request fun _ h => by cases h).local_request fun _ h => by cases h
  refine Prog.obeys_bind.mpr (record_obeys _ fun h'' hs => ?_)
  exact .inr ⟨pid, _, hs.subset List.mem_cons_self⟩

theorem create_obeys (call : CreateCall) :
    (create R.mode R.organizationId call.apiKeyId R.input call.ctx : Action client Invoice).Obeys
      R.Expected pid R.Known R.Thrown h := by
  unfold create
  rw [R.named]
  refine Prog.obeys_bind.mpr (prisma_obeys ⟨rfl, rfl⟩ fun existing => ?_)
  cases existing with
  | none => exact createFresh_obeys call (.inl ⟨pid, rfl⟩)
  | some existing =>
    refine Prog.obeys_ofExcept.mpr ⟨fun i hi => ?_, fun e he => ?_⟩
    · unfold assertIdempotentReplay at hi
      split_ifs at hi
      cases hi
      exact .inl ⟨pid, List.mem_cons_self⟩
    · refine .inr (.inr ?_)
      obtain ⟨message, rfl⟩ : ∃ message, e = .conflict message := by
        unfold assertIdempotentReplay at he
        split_ifs at he
        cases he
        exact ⟨_, rfl⟩
      exact ⟨message, rfl, pid, existing, List.mem_cons_self, he⟩

end Obeys

/-! ## What a step does -/

/-- No invoice is stored under the external id. -/
def Vacant (R : Retried) (db : Db) : Prop := ∀ i ∈ db.invoices, ¬ R.Names i

/-- No deposit address is stored. -/
def NoWallet (R : Retried) (db : Db) : Prop :=
  ∀ r ∈ db.merchantWalletAddresses, r.key ≠ (R.organizationId, R.input.network, R.input.token)

/-- What the reply to a request says of the tables after it. -/
structure Truthful (R : Retried) (ev : Event (effects client)) (db : Db) : Prop where
  found : ∀ pid i, ev = R.lookedUp pid (some i) → i ∈ db.invoices ∧ R.Names i
  nothing : ∀ pid, ev = R.lookedUp pid none → R.Vacant db
  created : ∀ pid d i, ev = inserted pid d i → i ∈ db.invoices ∧ R.Names i
  unset : ∀ pid, ev = R.noWallet pid → R.NoWallet db
  cause : ∀ pid call e, ev = refused pid call e → e = .prisma .connection ∨
    (e = .prisma .valueOutOfRange ∧ R.input.amount.value.fitsColumn = false)

/-- What ties the replies that the calls got to the tables. -/
structure Ties (R : Retried) (c : Log) : Prop where
  unique : R.Unique c.state
  found : ∀ pid i, R.lookedUp pid (some i) ∈ c.trace → i ∈ c.state.db.invoices ∧ R.Names i
  created : ∀ pid d i, inserted pid d i ∈ c.trace → i ∈ c.state.db.invoices ∧ R.Names i
  /-- In evm mode no call writes a deposit address. -/
  unset : R.mode = .evm → ∀ pid, R.noWallet pid ∈ c.trace → R.NoWallet c.state.db
  causes : ∀ pid call e, refused pid call e ∈ c.trace → e = .prisma .connection ∨
    (e = .prisma .valueOutOfRange ∧ R.input.amount.value.fitsColumn = false)
  /-- What a call did not find is not there, if nobody has stored it since. -/
  vacant : ∀ pid, Since (fun ev => ev.pid = pid ∧ ∃ q, ev = R.lookedUp q none)
    (fun _ => StoresInvoice R.organizationId R.externalId) c.trace → R.Vacant c.state.db
  noWallet : ∀ pid, Since (fun ev => ev.pid = pid ∧ ∃ q, ev = R.noWallet q)
    (fun _ => StoresWallet R.organizationId R.input.network R.input.token) c.trace →
      R.NoWallet c.state.db

section Steps

variable {R : Retried} {c : Log} {w : World Unit} {ev : Event (effects client)} {pid : ℕ}
  {now : Time} {db db' : Db} {d : InvoiceCreateInput} {e : Error}

theorem Ties.initial (hw : R.Unique w) : R.Ties ⟨w, []⟩ where
  unique := hw
  found _ _ h := absurd h List.not_mem_nil
  created _ _ _ h := absurd h List.not_mem_nil
  unset _ _ h := absurd h List.not_mem_nil
  causes _ _ _ h := absurd h List.not_mem_nil
  vacant _ h := h.elim
  noWallet _ h := h.elim

/-- One more request, with what its reply says. -/
theorem Ties.next (h : R.Ties c) (hev : R.Truthful ev w.db) (hunique : R.Unique w)
    (hkeep : ∀ i ∈ c.state.db.invoices, i ∈ w.db.invoices)
    (hwallets : R.mode = .evm → R.NoWallet c.state.db → R.NoWallet w.db)
    (hvacant : ¬ StoresInvoice R.organizationId R.externalId ev → R.Vacant c.state.db →
      R.Vacant w.db)
    (hnone : ¬ StoresWallet R.organizationId R.input.network R.input.token ev →
      R.NoWallet c.state.db → R.NoWallet w.db) : R.Ties ⟨w, ev :: c.trace⟩ where
  unique := hunique
  found pid i hmem := by
    rcases List.mem_cons.mp hmem with heq | hmem
    · exact hev.found pid i heq.symm
    · obtain ⟨hi, hnames⟩ := h.found pid i hmem
      exact ⟨hkeep i hi, hnames⟩
  created pid d i hmem := by
    rcases List.mem_cons.mp hmem with heq | hmem
    · exact hev.created pid d i heq.symm
    · obtain ⟨hi, hnames⟩ := h.created pid d i hmem
      exact ⟨hkeep i hi, hnames⟩
  unset hmode pid hmem := by
    rcases List.mem_cons.mp hmem with heq | hmem
    · exact hev.unset pid heq.symm
    · exact hwallets hmode (h.unset hmode pid hmem)
  causes pid call e hmem := by
    rcases List.mem_cons.mp hmem with heq | hmem
    · exact hev.cause pid call e heq.symm
    · exact h.causes pid call e hmem
  vacant pid hsince := by
    rcases hsince with ⟨-, q, heq⟩ | ⟨hnot, hrest⟩
    · exact hev.nothing q heq
    · exact hvacant hnot (h.vacant pid hrest)
  noWallet pid hsince := by
    rcases hsince with ⟨-, q, heq⟩ | ⟨hnot, hrest⟩
    · exact hev.unset q heq
    · exact hnone hnot (h.noWallet pid hrest)

/-- A request that leaves the database as it is. -/
theorem Ties.unchanged (h : R.Ties c) (hev : R.Truthful ev c.state.db) :
    R.Ties ⟨c.state, ev :: c.trace⟩ :=
  h.next hev h.unique (fun _ hi => hi) (fun _ hw => hw) (fun _ hv => hv) fun _ hw => hw

/-- A request that is no Prisma call. -/
theorem Ties.local_request (h : R.Ties c) {op : Op client} {r : (effects client).Ret op}
    (hop : ∀ call, op ≠ .prisma call) : R.Ties ⟨c.state, ⟨pid, op, r⟩ :: c.trace⟩ :=
  h.unchanged {
    found := fun _ _ heq => absurd (congrArg Event.op heq) (hop _)
    nothing := fun _ heq => absurd (congrArg Event.op heq) (hop _)
    created := fun _ _ _ heq => absurd (congrArg Event.op heq) (hop _)
    unset := fun _ heq => absurd (congrArg Event.op heq) (hop _)
    cause := fun _ _ _ heq => absurd (congrArg Event.op heq) (hop _) }

/-- A Prisma call that did not reach the database. -/
theorem Ties.unreached (h : R.Ties c) (pid : ℕ) (call : PrismaCall) :
    R.Ties ⟨c.state, refused pid call (.prisma .connection) :: c.trace⟩ := by
  refine h.unchanged ⟨fun _ _ heq => ?_, fun _ heq => ?_, fun _ _ _ heq => ?_, fun _ heq => ?_,
    fun _ _ _ heq => ?_⟩
  · cases heq
  · cases heq
  · cases heq
  · cases heq
  · cases heq
    exact .inl rfl

/-- The lookup of the external id. -/
theorem Ties.invoiceFindByExternalId (h : R.Ties c) :
    R.Ties ⟨c.state, R.lookedUp pid (c.state.db.invoices.rows.find? fun i =>
      i.organizationId = R.organizationId ∧ i.externalId = some R.externalId) :: c.trace⟩ := by
  refine h.unchanged ⟨fun q j heq => ?_, fun q heq => ?_, fun _ _ _ heq => ?_, fun _ heq => ?_,
    fun _ _ _ heq => ?_⟩
  · have hfind : (c.state.db.invoices.rows.find? fun i =>
        i.organizationId = R.organizationId ∧ i.externalId = some R.externalId) = some j := by
      injection heq with _ _ hret
      exact Except.ok.inj hret
    exact ⟨List.mem_of_find?_eq_some hfind, by simpa [Names] using List.find?_some hfind⟩
  · have hfind : (c.state.db.invoices.rows.find? fun i =>
        i.organizationId = R.organizationId ∧ i.externalId = some R.externalId) = none := by
      injection heq with _ _ hret
      exact Except.ok.inj hret
    intro i hi hnames
    exact List.find?_eq_none.mp hfind i hi (decide_eq_true hnames)
  · cases heq
  · cases heq
  · cases heq

/-- The lookup of a deposit address. -/
theorem Ties.merchantWalletAddressFindUnique (h : R.Ties c) (organizationId network token : String) :
    R.Ties ⟨c.state, ⟨pid, .prisma (.merchantWalletAddressFindUnique organizationId network token),
      .ok (c.state.db.merchantWalletAddresses.find? (organizationId, network, token))⟩ ::
        c.trace⟩ := by
  refine h.unchanged ⟨fun _ _ heq => ?_, fun _ heq => ?_, fun _ _ _ heq => ?_, fun q heq => ?_,
    fun _ _ _ heq => ?_⟩
  · cases heq
  · cases heq
  · cases heq
  · injection heq with _ hop hret
    cases hop
    exact Table.find?_eq_none_iff.mp (Except.ok.inj hret)
  · cases heq

/-- An insert whose keys are free fails only for its amount. -/
theorem invoiceCreate_error (h : Write.apply now db (.invoiceCreate d) = .error e)
    (hid : ∀ i ∈ db.invoices, i.id ≠ d.id)
    (hkey : ∀ i ∈ db.invoices,
      ¬ (i.organizationId = d.organizationId ∧ i.externalId = d.externalId)) :
    e = .prisma .valueOutOfRange ∧ d.amount.fitsColumn = false := by
  simp only [Write.apply] at h
  split_ifs at h with hfits htaken
  · exact ⟨(Except.error.inj h).symm, by simpa using hfits⟩
  · simp only [Db.externalIdTaken, Bool.and_eq_true, List.any_eq_true, decide_eq_true_iff] at htaken
    obtain ⟨-, i, hi, heq⟩ := htaken
    exact absurd heq (hkey i hi)
  · unfold insertRow at h
    split at h
    · cases h
    · rename_i hnone
      unfold Table.insert? at hnone
      split_ifs at hnone with hmem
      obtain ⟨i, hi, heq⟩ := List.mem_map.mp hmem
      exact absurd heq (hid i hi)

/-- An address whose key is free is stored. -/
theorem walletCreate_ok (now : Time) {r : MerchantWalletAddress}
    (hkey : ∀ x ∈ db.merchantWalletAddresses, x.key ≠ r.key) :
    ∃ db', db.transaction now [.merchantWalletAddressCreate r] = .ok db' ∧
      db'.invoices = db.invoices := by
  have hnot : r.key ∉ db.merchantWalletAddresses.rows.map MerchantWalletAddress.key := by
    intro hmem
    obtain ⟨x, hx, heq⟩ := List.mem_map.mp hmem
    exact hkey x hx heq
  have happly : ∃ t, Write.apply now db (.merchantWalletAddressCreate r) =
      .ok { db with merchantWalletAddresses := t } := by
    simp only [Write.apply, insertRow, Table.insert?, dif_neg hnot]
    exact ⟨_, rfl⟩
  obtain ⟨t, ht⟩ := happly
  exact ⟨_, transaction_singleton ht, rfl⟩

/-- An insert where nothing is stored under the external id. -/
theorem Ties.invoiceCreate (h : R.Ties c) {id address : String} {t : Time}
    (hvacant : R.Vacant c.state.db) (hid : ∀ i ∈ c.state.db.invoices, i.id ≠ id) :
    let call := PrismaCall.invoiceCreate (newInvoice id R.organizationId address t R.input)
    R.Ties ⟨{ c.state with db := (call.exec c.state.clock c.state.db).2 },
      ⟨pid, .prisma call, (call.exec c.state.clock c.state.db).1⟩ :: c.trace⟩ := by
  intro call
  have hkey : ∀ i ∈ c.state.db.invoices, ¬ (i.organizationId = R.organizationId ∧
      i.externalId = R.input.externalId) := fun i hi hn => hvacant i hi ⟨hn.1, hn.2.trans R.named⟩
  simp only [call, PrismaCall.exec]
  cases happly : Write.apply c.state.clock c.state.db
      (.invoiceCreate (newInvoice id R.organizationId address t R.input)) with
  | error e =>
    obtain ⟨rfl, hfits⟩ := invoiceCreate_error happly hid hkey
    refine h.unchanged ⟨fun _ _ heq => ?_, fun _ heq => ?_, fun _ _ _ heq => ?_, fun _ heq => ?_,
      fun _ _ _ heq => ?_⟩
    · cases heq
    · cases heq
    · cases heq
    · cases heq
    · cases heq
      exact .inr ⟨rfl, hfits⟩
  | ok db =>
    obtain ⟨-, table, hinsert, rfl⟩ := invoiceCreate_ok happly
    obtain ⟨-, hrows⟩ := Table.insert?_eq_some hinsert
    refine h.next ⟨fun _ _ heq => ?_, fun _ heq => ?_, fun _ _ _ heq => ?_, fun _ heq => ?_,
      fun _ _ _ heq => ?_⟩ (fun i hi j hj hin hjn => ?_) (fun i hi => (hrows i).mpr (.inr hi))
      (fun _ hw => hw) (fun hnot => absurd ?_ hnot) fun _ hw => hw
    · cases heq
    · cases heq
    · injection heq with _ _ hret
      obtain rfl := Except.ok.inj hret
      exact ⟨(hrows _).mpr (.inl rfl), rfl, R.named⟩
    · cases heq
    · cases heq
    · rcases (hrows i).mp hi with rfl | hi
      · rcases (hrows j).mp hj with rfl | hj
        · rfl
        · exact absurd hjn (hvacant j hj)
      · exact absurd hin (hvacant i hi)
    · exact ⟨_, List.mem_singleton_self _, rfl, R.named⟩

/-- An audit entry. -/
theorem Ties.auditLogCreate (h : R.Ties c) (row : AuditLog) :
    let call := PrismaCall.transaction [.auditLogCreate row]
    R.Ties ⟨{ c.state with db := (call.exec c.state.clock c.state.db).2 },
      ⟨pid, .prisma call, (call.exec c.state.clock c.state.db).1⟩ :: c.trace⟩ := by
  refine h.next ⟨fun _ _ heq => ?_, fun _ heq => ?_, fun _ _ _ heq => ?_, fun _ heq => ?_,
    fun _ _ _ heq => ?_⟩ h.unique (fun _ hi => hi) (fun _ hw => hw) (fun _ hv => hv) fun _ hw => hw
  all_goals cases heq

/-- The deposit address that the call generates, where none is stored. -/
theorem Ties.walletCreate (h : R.Ties c) (hmode : R.mode = .fake) {r : MerchantWalletAddress}
    (hr : r.key = (R.organizationId, R.input.network, R.input.token))
    (hinvoices : db.invoices = c.state.db.invoices) :
    R.Ties ⟨{ c.state with db := db },
      ⟨pid, .prisma (.transaction [.merchantWalletAddressCreate r]), .ok ()⟩ :: c.trace⟩ := by
  have hmem : ∀ {i}, i ∈ db.invoices → i ∈ c.state.db.invoices := fun hi => hinvoices ▸ hi
  refine h.next ⟨fun _ _ heq => ?_, fun _ heq => ?_, fun _ _ _ heq => ?_, fun _ heq => ?_,
    fun _ _ _ heq => ?_⟩ (fun i hi j hj => h.unique i (hmem hi) j (hmem hj)) (fun i hi => ?_)
    (fun he => ?_) (fun _ hv i hi => hv i (hmem hi)) fun hnot => absurd ?_ hnot
  · cases heq
  · cases heq
  · cases heq
  · cases heq
  · cases heq
  · show i ∈ db.invoices
    rw [hinvoices]
    exact hi
  · rw [hmode] at he
    cases he
  · exact ⟨r, List.mem_singleton_self _, hr⟩

/-- Every answered request keeps the ties. -/
theorem Ties.step (h : R.Ties c) (ha : freshIds c ev.pid ev.op) (hu : unraced c ev.pid ev.op)
    (hexp : R.Expected (own ev.pid c.trace) ev.op) {i : Input Unit}
    (hr : respond clients ev.pid c.state ev.op i = some (ev.ret, w)) :
    R.Ties ⟨w, ev :: c.trace⟩ := by
  obtain ⟨pid, op, r⟩ := ev
  cases op with
  | now =>
    rw [(respond_now hr).2]
    exact h.local_request fun _ heq => by cases heq
  | generateId stem =>
    rw [respond_generateId hr]
    exact h.local_request fun _ heq => by cases heq
  | generateFakeAddress =>
    rw [respond_generateFakeAddress hr]
    exact h.local_request fun _ heq => by cases heq
  | cuid =>
    rw [respond_cuid hr]
    exact h.local_request fun _ heq => by cases heq
  | mark m =>
    rw [respond_mark hr]
    exact h.local_request fun _ heq => by cases heq
  | other invoice =>
    obtain ⟨k, o, ho, rfl⟩ := respond_other hr
    exact h.local_request fun _ heq => by cases heq
  | prisma call =>
    rcases respond_prisma hr with ⟨rfl, rfl⟩ | ⟨rfl, rfl⟩
    swap
    · exact h.unreached pid call
    cases call with
    | invoiceFindByExternalId organizationId externalId =>
      obtain ⟨rfl, rfl⟩ := hexp
      exact h.invoiceFindByExternalId
    | merchantWalletAddressFindUnique organizationId network token =>
      exact h.merchantWalletAddressFindUnique organizationId network token
    | invoiceCreate d =>
      obtain ⟨hsearched, id, address, t, rfl⟩ := hexp
      refine h.invoiceCreate (h.vacant pid ?_) (ha _ rfl)
      exact Since.combine (fun _ _ => .inl) (fun _ _ _ => .inr) hsearched (hu.1 _ _ rfl R.named)
    | transaction writes =>
      rcases hexp with ⟨row, rfl⟩ | ⟨hmode, hsearched, id, address, createdAt, rfl⟩
      · exact h.auditLogCreate row
      · have hnone : R.NoWallet c.state.db := h.noWallet pid
          (Since.combine (fun _ _ => .inl) (fun _ _ _ => .inr) hsearched (hu.2 _ rfl))
        obtain ⟨db, hdb, hinvoices⟩ := walletCreate_ok c.state.clock (r := ⟨id, R.organizationId,
          R.input.network, R.input.token, address, createdAt⟩) hnone
        simp only [PrismaCall.exec, hdb]
        exact h.walletCreate hmode rfl hinvoices
    | _ => exact hexp.elim

end Steps

/-- `freshIds`, decided. -/
def freshIdsCheck (c : Log) (_ : ℕ) : Op client → Bool
  | .prisma (.invoiceCreate d) => c.state.db.invoices.rows.all fun i => i.id ≠ d.id
  | _ => true

theorem freshIds_of_check (c : Log) (pid : ℕ) (op : Op client)
    (h : freshIdsCheck c pid op = true) : freshIds c pid op := by
  rintro d rfl i hi
  exact of_decide_eq_true (List.all_eq_true.mp h i hi)

/-- An order of 49 USDC. -/
def sampleOrder : Retried where
  mode := .evm
  organizationId := "org"
  externalId := "order_1"
  input := {
    externalId := some "order_1"
    description := none
    amount := ⟨"49.00", ⟨4900000000⟩⟩
    currency := "USD"
    token := "USDC"
    network := "base"
    successUrl := none
    cancelUrl := none
    metadata := none }
  named := rfl

/-- The organization has set its deposit address. -/
def addressSet : World Unit where
  db := { Db.empty with
    merchantWalletAddresses :=
      ⟨[⟨"wa_1", "org", "base", "USDC", "0xabc", 0⟩], List.nodup_singleton _⟩ }
  clock := 0
  other := ()

end Retried

end CryptoPay.Api
