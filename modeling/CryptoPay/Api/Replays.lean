import CryptoPay.Api.Creations
import CryptoPay.Api.Schemas
import CryptoPay.Async.TwoRuns
import CryptoPay.Payments.Requests

/-!
# Replays of an invoice creation

A call of `InvoicesService.create` with the external id of a stored invoice
returns that invoice or fails with a conflict. The comment of
`assertIdempotentReplay` says that it returns it only if every other field
matches; the code compares four of the eight.

Results:
* `InvoiceStored.reached`: an invoice that was created stays stored, with its terms,
  whatever else runs.
* `replay_iff`: a replay is answered as the comment says if and only if the
  inputs agree in the other four fields or differ in one of the four.
* `replay_ignores_description`: one that differs in its description only gets
  the first invoice.
-/

namespace CryptoPay.Api

open Async Data

variable {A : Signature} {ω ι η κ : Type}

/-! ## Inputs -/

/-- The fields that `assertIdempotentReplay` compares. -/
structure SameTerms (a b : CreateInvoiceInput) : Prop where
  amount : a.amount.value = b.amount.value
  currency : a.currency = b.currency
  token : a.token = b.token
  network : a.network = b.network

/-- The same keys with the same values. -/
def SameMetadata : Option Metadata → Option Metadata → Prop
  | none, none => True
  | some m, some m' => m.Perm m'
  | _, _ => False

/-- The fields that it does not compare. -/
structure SameDetails (a b : CreateInvoiceInput) : Prop where
  description : a.description = b.description
  successUrl : a.successUrl = b.successUrl
  cancelUrl : a.cancelUrl = b.cancelUrl
  metadata : SameMetadata a.metadata b.metadata

/-- The inputs agree in every field. -/
def SameInput (a b : CreateInvoiceInput) : Prop := SameTerms a b ∧ SameDetails a b

/-! ## Stored invoices -/

/-- `@@unique([organizationId, externalId])`. -/
def UniqueNames (t : Table Invoice.id) : Prop :=
  ∀ i ∈ t, ∀ j ∈ t, i.organizationId = j.organizationId → i.externalId = j.externalId →
    i.externalId.isSome = true → i = j

/-- The invoice is stored, perhaps with another status. -/
def InvoiceStored (row : Invoice) (t : Table Invoice.id) : Prop := ∃ i ∈ t, i.terms = row.terms

theorem terms_update (d : InvoiceUpdateInput) (i : Invoice) : (i.update d).terms = i.terms := rfl

theorem stored_kept (row : Invoice) : KeptByWrites (InvoiceStored row) where
  create t t' d now hi _ ht := by
    obtain ⟨i, hmem, hterms⟩ := hi
    exact ⟨i, ((Table.insert?_eq_some ht).2 i).mpr (.inr hmem), hterms⟩
  update t id d hi := by
    obtain ⟨i, hmem, hterms⟩ := hi
    refine ⟨_, Table.mem_modify_of_mem (f := Invoice.update d) (k := id) hmem fun _ => rfl, ?_⟩
    split_ifs
    · exact (terms_update d i).trans hterms
    · exact hterms

theorem uniqueNames_kept : KeptByWrites UniqueNames where
  create t t' d now hu hfree ht := by
    have hmem := (Table.insert?_eq_some ht).2
    intro i hi j hj horg hext hsome
    rcases (hmem i).mp hi with rfl | hi
    · rcases (hmem j).mp hj with rfl | hj
      · rfl
      · exact absurd ⟨horg.symm, hext.symm⟩ (hfree hsome j hj)
    · rcases (hmem j).mp hj with rfl | hj
      · exact absurd ⟨horg, hext⟩ (hfree (by rwa [hext] at hsome) i hi)
      · exact hu i hi j hj horg hext hsome
  update t id d hu := by
    intro i hi j hj horg hext hsome
    obtain ⟨i₀, hi₀, rfl⟩ := (Table.mem_modify (f := Invoice.update d)).mp hi
    obtain ⟨j₀, hj₀, rfl⟩ := (Table.mem_modify (f := Invoice.update d)).mp hj
    have hterms : ∀ x : Invoice, (if x.id = id then x.update d else x).organizationId =
        x.organizationId ∧ (if x.id = id then x.update d else x).externalId = x.externalId := by
      intro x
      split_ifs <;> exact ⟨rfl, rfl⟩
    rw [(hterms i₀).1, (hterms j₀).1] at horg
    rw [(hterms i₀).2, (hterms j₀).2] at hext
    rw [(hterms i₀).2] at hsome
    rw [hu i₀ hi₀ j₀ hj₀ horg hext hsome]

/-- The call has inserted an invoice for the input. -/
abbrev created (pid : ℕ) (id organizationId paymentAddress : String) (now : Time)
    (input : CreateInvoiceInput) (row : Invoice) : Event (effects A) :=
  ⟨pid, .prisma (.invoiceCreate (newInvoice id organizationId paymentAddress now input)), .ok row⟩

/-- The systems that the payment programs lead to, whichever they are. -/
def Systems (B : Backend A ω ι η) (W : Workload (effects A) Error κ) :
    System (effects A) Error κ (World ω) → Prop :=
  Reachable (machine B) W (fun w => UniqueNames w.db.invoices) anything

/-- What the requests so far say of the stored invoices. -/
structure Known (c : Async.Config (effects A) (World ω)) : Prop where
  unique : UniqueNames c.state.db.invoices
  stored : ∀ pid d row, ⟨pid, .prisma (.invoiceCreate d), .ok row⟩ ∈ c.trace →
    InvoiceStored row c.state.db.invoices ∧ ∃ now, row = d.row now

section Known

variable {B : Backend A ω ι η} {w w' : World ω} {c : Async.Config (effects A) (World ω)}

/-- An invoice is stored as its data say. -/
theorem created_stored {pid : ℕ} {d : InvoiceCreateInput} {row : Invoice} {i : Input ι}
    (h : respond B pid w (.prisma (.invoiceCreate d)) i = some (.ok row, w')) :
    row ∈ w'.db.invoices ∧ row = d.row w.clock := by
  rcases respond_prisma h with ⟨hr, rfl⟩ | ⟨hr, -⟩
  · simp only [PrismaCall.exec] at hr ⊢
    split at hr
    · rename_i db' happly
      obtain ⟨-, t, ht, rfl⟩ := invoiceCreate_ok happly
      obtain rfl : row = d.row w.clock := Except.ok.inj hr
      exact ⟨((Table.insert?_eq_some ht).2 _).mpr (.inl rfl), rfl⟩
    · cases hr
  · cases hr

theorem Known.env {act : Act η} (h : Known c) (hact : environment B c.state act = some w) :
    Known { c with state := w } := by
  have hrows : ∀ i, i ∈ w.db.invoices ↔ i ∈ c.state.db.invoices := by
    intro i
    cases act with
    | clock t =>
      simp only [environment] at hact
      split_ifs at hact
      cases hact
      rfl
    | reorderInvoices rows =>
      simp only [environment] at hact
      split_ifs at hact
      cases hact
      rename_i hperm
      exact Table.mem_reorder (h := hperm)
    | reorderPayments rows =>
      simp only [environment] at hact
      split_ifs at hact
      cases hact
      rfl
    | other e =>
      obtain ⟨o, -, rfl⟩ := Option.map_eq_some_iff.mp hact
      rfl
  refine ⟨fun i hi j hj => h.unique i ((hrows i).mp hi) j ((hrows j).mp hj), ?_⟩
  intro pid d row hev
  obtain ⟨⟨i, hi, hterms⟩, hrow⟩ := h.stored pid d row hev
  exact ⟨⟨i, (hrows i).mpr hi, hterms⟩, hrow⟩

theorem Known.next {ev : Event (effects A)} {i : Input ι} (h : Known c)
    (hr : respond B ev.pid c.state ev.op i = some (ev.ret, w)) : Known ⟨w, ev :: c.trace⟩ where
  unique := uniqueNames_kept.respond h.unique hr
  stored pid d row hev := by
    rcases List.mem_cons.mp hev with rfl | hev
    · obtain ⟨hmem, hrow⟩ := created_stored hr
      exact ⟨⟨row, hmem, rfl⟩, _, hrow⟩
    · obtain ⟨hstored, hrow⟩ := h.stored pid d row hev
      exact ⟨(stored_kept row).respond hstored hr, hrow⟩

/-- An invoice that was created stays stored, whatever else runs. -/
theorem InvoiceStored.reached [Inhabited κ] {W : Workload (effects A) Error κ}
    {s : System (effects A) Error κ (World ω)} (hs : Systems B W s) : Known s.config := by
  refine Reachable.invariant (I := Known) W.obeys_any (fun w hw => ⟨hw, fun _ _ _ hev => ?_⟩)
    (fun c act w h hact => h.env hact) (fun c ev w h hans => ?_) hs
  · exact absurd hev List.not_mem_nil
  · obtain ⟨-, -, -, i, hr⟩ := hans
    exact h.next hr

end Known

/-! ## Replays -/

/-- A call of `create` in a system in which an earlier input with the same external id has
    created an invoice of the same organization; its lookup reaches the database. -/
structure Replay (B : Backend A ω ι η) (W : Workload (effects A) Error κ) where
  system : System (effects A) Error κ (World ω)
  reached : Systems B W system
  organizationId : String
  externalId : String
  first : CreateInvoiceInput
  second : CreateInvoiceInput
  firstNamed : first.externalId = some externalId
  secondNamed : second.externalId = some externalId
  row : Invoice
  created : ∃ pid id paymentAddress now,
    created pid id organizationId paymentAddress now first row ∈ system.config.trace
  mode : BlockchainMode
  apiKeyId : String
  ctx : RequestContext
  result : Except Error Invoice
  after : World ω
  run : ∃ pid is evs, (create mode organizationId apiKeyId second ctx).execute (machine B) pid
    system.config.state is = some (evs, result, after)
  answered : result ≠ .error (.prisma .connection)

/-- The replay is answered as the comment of `assertIdempotentReplay` says. -/
structure Replay.Right {B : Backend A ω ι η} {W : Workload (effects A) Error κ}
    (R : Replay B W) : Prop where
  same : SameInput R.first R.second →
    ∃ i ∈ R.system.config.state.db.invoices, i.id = R.row.id ∧ R.result = .ok i
  other : ¬ SameInput R.first R.second → ∃ message, R.result = .error (.conflict message)
  unchanged : R.after.db = R.system.config.state.db

/-- What the code compares. -/
theorem assertIdempotentReplay_iff (existing : Invoice) {a b : CreateInvoiceInput}
    (hamount : existing.amount = a.amount.value) (hcurrency : existing.currency = a.currency)
    (htoken : existing.token = a.token) (hnetwork : existing.network = a.network) :
    (SameTerms a b → assertIdempotentReplay existing b = .ok existing) ∧
      (¬ SameTerms a b → ∃ message, assertIdempotentReplay existing b =
        .error (.conflict message)) := by
  have hcheck : (existing.amount.equals b.amount.value && existing.currency = b.currency &&
      existing.token = b.token && existing.network = b.network) = true ↔ SameTerms a b := by
    simp only [Bool.and_eq_true, Decimal.equals_iff, decide_eq_true_eq]
    rw [hamount, hcurrency, htoken, hnetwork]
    constructor
    · rintro ⟨⟨⟨h₁, h₂⟩, h₃⟩, h₄⟩
      exact ⟨h₁, h₂, h₃, h₄⟩
    · exact fun h => ⟨⟨⟨h.amount, h.currency⟩, h.token⟩, h.network⟩
  unfold assertIdempotentReplay
  constructor
  · intro h
    rw [if_pos (hcheck.mpr h)]
  · intro h
    rw [if_neg fun hc => h (hcheck.mp hc)]
    exact ⟨_, rfl⟩

section Replay

variable {B : Backend A ω ι η} {W : Workload (effects A) Error κ}

/-- The lookup finds the invoice that the first input has created. -/
theorem Replay.lookup [Inhabited κ] (R : Replay B W) :
    ∃ i ∈ R.system.config.state.db.invoices, i.terms = R.row.terms ∧
      (R.system.config.state.db.invoices.rows.find? fun i =>
        i.organizationId = R.organizationId ∧ i.externalId = some R.externalId) = some i := by
  obtain ⟨pid, id, address, now, hev⟩ := R.created
  have hknown := InvoiceStored.reached R.reached
  obtain ⟨⟨i, hi, hterms⟩, now', hrow⟩ := hknown.stored _ _ _ hev
  have horg : i.organizationId = R.organizationId :=
    (congrArg Invoice.organizationId hterms).trans (hrow ▸ rfl)
  have hext : i.externalId = some R.externalId :=
    (congrArg Invoice.externalId hterms).trans (hrow ▸ R.firstNamed)
  refine ⟨i, hi, hterms, ?_⟩
  cases hfind : R.system.config.state.db.invoices.rows.find? fun i =>
      i.organizationId = R.organizationId ∧ i.externalId = some R.externalId with
  | none => exact absurd (decide_eq_true ⟨horg, hext⟩) (List.find?_eq_none.mp hfind i hi)
  | some j =>
    have hj : j.organizationId = R.organizationId ∧ j.externalId = some R.externalId := by
      simpa using List.find?_some hfind
    have hmem : j ∈ R.system.config.state.db.invoices := List.mem_of_find?_eq_some hfind
    rw [hknown.unique j hmem i hi (hj.1.trans horg.symm) (hj.2.trans hext.symm) (by rw [hj.2]; rfl)]

/-- A replay makes one request, and its result is what the code says of the stored invoice. -/
theorem Replay.runs [Inhabited κ] (R : Replay B W) :
    R.after = R.system.config.state ∧ ∃ i ∈ R.system.config.state.db.invoices,
      i.terms = R.row.terms ∧ R.result = assertIdempotentReplay i R.second := by
  obtain ⟨i, hi, hterms, hfind⟩ := R.lookup
  obtain ⟨pid, is, evs, hrun⟩ := R.run
  unfold create at hrun
  rw [R.secondNamed] at hrun
  obtain ⟨input, rest, r, w, evs', rfl, hr, hk, rfl⟩ := Prog.execute_await hrun
  rcases respond_prisma hr with ⟨rfl, rfl⟩ | ⟨rfl, rfl⟩
  · simp only [PrismaCall.exec, hfind] at hk
    replace hk : (Prog.ofExcept (assertIdempotentReplay i R.second) : Action A Invoice).execute
      (machine B) pid R.system.config.state rest = some (evs', R.result, R.after) := hk
    obtain ⟨-, hresult, hafter⟩ := Prog.execute_ofExcept hk
    exact ⟨hafter, i, hi, hterms, hresult⟩
  · replace hk : (Prog.ofExcept (.error (.prisma .connection)) : Action A Invoice).execute
      (machine B) pid R.system.config.state rest = some (evs', R.result, R.after) := hk
    exact absurd (Prog.execute_ofExcept hk).2.1 R.answered

/-- A replay is right if and only if the inputs agree in what the code does not compare, or differ
    in what it compares. -/
theorem replay_iff [Inhabited κ] (R : Replay B W) :
    R.Right ↔ (SameTerms R.first R.second → SameDetails R.first R.second) := by
  obtain ⟨hafter, i, hi, hterms, hresult⟩ := R.runs
  obtain ⟨pid, id, address, now, hev⟩ := R.created
  obtain ⟨-, now', hrow⟩ := (InvoiceStored.reached R.reached).stored _ _ _ hev
  obtain ⟨hsame, hother⟩ := assertIdempotentReplay_iff i (a := R.first) (b := R.second)
    ((congrArg Invoice.amount hterms).trans (hrow ▸ rfl))
    ((congrArg Invoice.currency hterms).trans (hrow ▸ rfl))
    ((congrArg Invoice.token hterms).trans (hrow ▸ rfl))
    ((congrArg Invoice.network hterms).trans (hrow ▸ rfl))
  constructor
  · intro hright hagree
    by_contra hdetails
    obtain ⟨message, hconflict⟩ := hright.other fun h => hdetails h.2
    rw [hresult, hsame hagree] at hconflict
    cases hconflict
  · intro hcond
    refine ⟨fun h => ⟨i, hi, (congrArg Invoice.id hterms :), hresult.trans (hsame h.1)⟩, fun h => ?_,
      congrArg World.db hafter⟩
    rw [hresult]
    exact hother fun hagree => h ⟨hagree, hcond hagree⟩

end Replay

/-! ## A replay that differs in a field that is not compared -/

open Retried (sampleOrder addressSet)

/-- The order of the sample deployment, with another description. -/
def describedOrder : CreateInvoiceInput :=
  { sampleOrder.input with description := some "Annual plan" }

/-- The bodies of both requests. -/
def orderBody (description : Option String) : CreateInvoiceBody where
  externalId := some "order_1"
  description := description
  amount := "49.00"
  currency := "USD"
  token := "USDC"
  network := "base"
  successUrl := none
  cancelUrl := none
  metadata := none

theorem firstAccepted :
    createInvoiceSchema (fun _ => true) (orderBody none) = some sampleOrder.input := by
  decide

theorem secondAccepted : createInvoiceSchema (fun _ => true) (orderBody (some "Annual plan")) =
    some describedOrder := by decide

/-- The first request is handled. -/
def firstCreation : List (Move CreateCall (Input Unit) (Act Empty)) :=
  [.start default, .perform 0 .ok, .perform 0 .ok, .perform 0 (.id "1"), .perform 0 .ok,
    .perform 0 .ok, .perform 0 .ok]

/-- The invoices that were created, and the reply to the second request. -/
def replayView (s : System (effects client) Error CreateCall (World Unit)) :
    List (ℕ × InvoiceCreateInput × Invoice) × Option (Except Error Invoice) :=
  (s.config.trace.filterMap fun
    | ⟨pid, .prisma (.invoiceCreate d), .ok row⟩ => some (pid, d, row)
    | _ => none,
  ((create .evm "org" "key" describedOrder ⟨"", none⟩).execute (machine clients) 1
    s.config.state [.ok]).map fun run => run.2.1)

/-- What the first request creates. -/
def orderRow : InvoiceCreateInput := newInvoice "inv_1" "org" "0xabc" 0 sampleOrder.input

set_option maxRecDepth 8000 in
/-- The second request differs from the first one in its description, and gets the first
    invoice. -/
theorem replay_ignores_description : ¬ ∀ (R : Replay clients sampleOrder.calls) isUrl body body',
    createInvoiceSchema isUrl body = some R.first →
    createInvoiceSchema isUrl body' = some R.second → R.Right := by
  intro h
  obtain ⟨s, hs, hview⟩ : ∃ s, Reachable (machine clients) sampleOrder.calls
      (fun w => UniqueNames w.db.invoices) anything s ∧
      replayView s = ([(0, orderRow, orderRow.row 0)], some (.ok (orderRow.row 0))) :=
    Reachable.view (fun i hi => absurd hi (Table.not_mem_empty i) : UniqueNames addressSet.db.invoices)
      firstCreation (by decide)
  obtain ⟨hrows, hreply⟩ := Prod.mk.inj hview
  obtain ⟨ev, hev, heq⟩ := List.mem_filterMap.mp
    (hrows ▸ List.mem_singleton_self (0, orderRow, orderRow.row 0))
  have hcreated : ev = created 0 "inv_1" "org" "0xabc" 0 sampleOrder.input (orderRow.row 0) := by
    split at heq
    · cases heq
      rfl
    · cases heq
  obtain ⟨⟨evs, result, after⟩, hrun, hresult⟩ := Option.map_eq_some_iff.mp hreply
  obtain rfl : result = .ok (orderRow.row 0) := hresult
  let R : Replay clients sampleOrder.calls :=
    { system := s
      reached := hs
      organizationId := "org"
      externalId := "order_1"
      first := sampleOrder.input
      second := describedOrder
      firstNamed := rfl
      secondNamed := rfl
      row := orderRow.row 0
      created := ⟨0, "inv_1", "0xabc", 0, hcreated ▸ hev⟩
      mode := .evm
      apiKeyId := "key"
      ctx := ⟨"", none⟩
      result := .ok (orderRow.row 0)
      after := after
      run := ⟨1, [.ok], evs, hrun⟩
      answered := nofun }
  have hright : R.Right := h R (fun _ => true) (orderBody none) (orderBody (some "Annual plan"))
    firstAccepted secondAccepted
  have hdiffer : ¬ SameInput sampleOrder.input describedOrder := fun hsame =>
    nomatch hsame.2.description
  obtain ⟨message, hconflict⟩ := hright.other hdiffer
  cases hconflict

end CryptoPay.Api
