import CryptoPay.Api.ModeChanges

/-!
# Deposit addresses over mode changes

Where the address comes from that a customer is asked to pay to. The stored row
does not say who wrote it: in fake mode `getDepositAddress` provisions one, and
`WalletAddressesService.set` asks the adapter of the mode it runs in.

Results:
* `custody_kept`: where no process in evm mode reads a row that one in fake mode
  has written, unless its address was supplied, every address that is read,
  stored in a new invoice or shown in evm mode was supplied.
* `provisioned_shown`: an address that was provisioned in fake mode is shown to
  a customer in evm mode.
-/

namespace CryptoPay.Api.Deployment

open Async Data

variable (D : Deployment)

/-- No deposit address and no invoice is stored. -/
def Unwritten (w : World BlockchainMode) : Prop :=
  (∀ r, r ∉ w.db.merchantWalletAddresses) ∧ ∀ i, i ∉ w.db.invoices

/-! ## Where an address comes from -/

/-- A user of the organization has stored the address through `WalletAddressesService.set`, and
    the real adapter accepts it. -/
def Supplied (tr : Trace) (organizationId network token address : String) : Prop :=
  (∃ pid mode userId ctx w row,
    received pid ⟨mode, .setWalletAddress organizationId userId ⟨network, token, address⟩ ctx⟩ ∈ tr ∧
      upserted pid w row ∈ tr ∧ w.key = (organizationId, network, token) ∧ w.address = address) ∧
    (D.base .evm).validateAddress address = true

/-- The create of `getDepositAddress`. -/
abbrev provisioned (pid : ℕ) (w : MerchantWalletAddress) : Event (effects http) :=
  ⟨pid, .prisma (.transaction [.merchantWalletAddressCreate w]), .ok ()⟩

/-- The request has stored an address under the key. -/
def Writes (ev : Event (effects http)) (key : String × String × String) : Prop :=
  ∃ pid w, w.key = key ∧ (ev = provisioned pid w ∨ ∃ row, ev = upserted pid w row)

/-- A process in fake mode was the last one to store an address under the key. -/
def FakeWrote (tr : Trace) (key : String × String × String) : Prop :=
  ∃ later ev earlier, tr = later ++ ev :: earlier ∧ Writes ev key ∧ (∀ e ∈ later, ¬ Writes e key) ∧
    ∃ call, received ev.pid call ∈ tr ∧ call.mode = .fake

/-- A process in fake mode has created the invoice. -/
def FakeCreated (tr : Trace) (i : Invoice) : Prop :=
  ∃ pid call d, received pid call ∈ tr ∧ call.mode = .fake ∧ created pid d i ∈ tr

/-- The process has got the address from the database, in the row of a wallet or of an invoice. -/
def Gets (ev : Event (effects http)) (organizationId network token address : String) : Prop :=
  (∃ pid w, ev = depositAddress pid organizationId network token w ∧ address = w.address) ∨
    ∃ pid i, organizationId = i.organizationId ∧ network = i.network ∧ token = i.token ∧
      address = i.paymentAddress ∧ ((∃ id, ev = opened pid id i) ∨
        (∃ o e, ev = replayed pid o e i) ∨ ∃ d, ev = created pid d i)

/-- The lookup finds the invoice. -/
def Finds (op : Op http) (i : Invoice) : Prop :=
  op = .prisma (.invoiceFindUnique i.id) ∨
    ∃ externalId, i.externalId = some externalId ∧
      op = .prisma (.invoiceFindByExternalId i.organizationId externalId)

/-- A process in evm mode reads a row that one in fake mode has written only if its address was
    supplied. -/
def fakeRowsSupplied : Condition (effects http) (World BlockchainMode) := fun c pid op =>
  ∀ call, received pid call ∈ c.trace → call.mode = .evm →
    (∀ w ∈ c.state.db.merchantWalletAddresses, FakeWrote c.trace w.key →
      op = .prisma (.merchantWalletAddressFindUnique w.organizationId w.network w.token) →
        D.Supplied c.trace w.organizationId w.network w.token w.address) ∧
    ∀ i ∈ c.state.db.invoices, FakeCreated c.trace i → Finds op i →
      D.Supplied c.trace i.organizationId i.network i.token i.paymentAddress

/-- The custody boundary, in the runs whose steps meet `allowed`. -/
structure Custody (allowed : Condition (effects http) (World BlockchainMode)) : Prop where
  /-- An invoice that is created in evm mode has a supplied address. -/
  created : ∀ s, D.Reached Unwritten allowed s → ∀ pid call d i,
    received pid call ∈ s.config.trace → call.mode = .evm → created pid d i ∈ s.config.trace →
      D.Supplied s.config.trace i.organizationId i.network i.token i.paymentAddress
  /-- So has every invoice that is shown in evm mode. -/
  shown : ∀ s, D.Reached Unwritten allowed s → ∀ pid call i,
    received pid call ∈ s.config.trace → call.mode = .evm → shown pid i ∈ s.config.trace →
      D.Supplied s.config.trace i.organizationId i.network i.token i.paymentAddress

/-! ## The invariant -/

/-- Every row was written in fake mode or has a supplied address; in evm mode only supplied ones
    are read. -/
structure Traced (c : ApiLog) : Prop where
  wallets : ∀ w ∈ c.state.db.merchantWalletAddresses, FakeWrote c.trace w.key ∨
    D.Supplied c.trace w.organizationId w.network w.token w.address
  invoices : ∀ i ∈ c.state.db.invoices, FakeCreated c.trace i ∨
    D.Supplied c.trace i.organizationId i.network i.token i.paymentAddress
  got : ∀ ev ∈ c.trace, ∀ call, received ev.pid call ∈ c.trace → call.mode = .evm →
    ∀ organizationId network token address, Gets ev organizationId network token address →
      D.Supplied c.trace organizationId network token address

variable {D} {c : ApiLog} {ev : Event (effects http)} {w : World BlockchainMode} {tr : Trace}
  {organizationId network token address : String} {key : String × String × String}

theorem Supplied.mono (h : D.Supplied tr organizationId network token address)
    (ev : Event (effects http)) :
    D.Supplied (ev :: tr) organizationId network token address := by
  obtain ⟨⟨pid, mode, userId, ctx, w, row, hrec, hup, hw⟩, hvalid⟩ := h
  exact ⟨⟨pid, mode, userId, ctx, w, row, List.mem_cons_of_mem _ hrec, List.mem_cons_of_mem _ hup,
    hw⟩, hvalid⟩

theorem FakeWrote.mono (h : FakeWrote tr key) (hev : ¬ Writes ev key) :
    FakeWrote (ev :: tr) key := by
  obtain ⟨later, e, earlier, rfl, hw, hlater, call, hrec, hmode⟩ := h
  refine ⟨ev :: later, e, earlier, rfl, hw, fun e' he' => ?_, call, List.mem_cons_of_mem _ hrec,
    hmode⟩
  rcases List.mem_cons.mp he' with rfl | he'
  · exact hev
  · exact hlater e' he'

theorem FakeCreated.mono {i : Invoice} (h : FakeCreated tr i) (ev : Event (effects http)) :
    FakeCreated (ev :: tr) i := by
  obtain ⟨pid, call, d, hrec, hmode, hcreated⟩ := h
  exact ⟨pid, call, d, List.mem_cons_of_mem _ hrec, hmode, List.mem_cons_of_mem _ hcreated⟩

/-- One more request, from what is new about it. -/
theorem Traced.next (h : D.Traced c)
    (hfirst : ∀ call, ev = received ev.pid call → own ev.pid c.trace = [])
    (hwallets : ∀ r ∈ w.db.merchantWalletAddresses,
      (r ∈ c.state.db.merchantWalletAddresses ∧ ¬ Writes ev r.key) ∨
        FakeWrote (ev :: c.trace) r.key ∨
        D.Supplied (ev :: c.trace) r.organizationId r.network r.token r.address)
    (hinvoices : ∀ i ∈ w.db.invoices, i ∈ c.state.db.invoices ∨ FakeCreated (ev :: c.trace) i ∨
      D.Supplied (ev :: c.trace) i.organizationId i.network i.token i.paymentAddress)
    (hgot : ∀ call, received ev.pid call ∈ c.trace → call.mode = .evm →
      ∀ organizationId network token address, Gets ev organizationId network token address →
        D.Supplied (ev :: c.trace) organizationId network token address) :
    D.Traced ⟨w, ev :: c.trace⟩ where
  wallets r hr := by
    rcases hwallets r hr with ⟨hold, hev⟩ | hnew
    · rcases h.wallets r hold with hfake | hsupplied
      · exact .inl (hfake.mono hev)
      · exact .inr (hsupplied.mono ev)
    · exact hnew
  invoices i hi := by
    rcases hinvoices i hi with hold | hnew
    · rcases h.invoices i hold with hfake | hsupplied
      · exact .inl (hfake.mono ev)
      · exact .inr (hsupplied.mono ev)
    · exact hnew
  got e he call hrec hmode o n t a hgets := by
    rcases List.mem_cons.mp hrec with heq | hrec'
    · -- the process has only just started
      have hpid : e.pid = ev.pid := by rw [← heq]
      rcases List.mem_cons.mp he with rfl | he
      · rw [← heq] at hgets
        rcases hgets with ⟨_, _, hev, -⟩ | ⟨_, _, -, -, -, -, ⟨_, hev⟩ | ⟨_, _, hev⟩ | ⟨_, hev⟩⟩ <;>
          cases hev
      · have hnil := hfirst call (hpid ▸ heq.symm)
        have hmem : e ∈ own ev.pid c.trace := mem_own.mpr ⟨he, hpid⟩
        rw [hnil] at hmem
        cases hmem
    · rcases List.mem_cons.mp he with rfl | he
      · exact hgot call hrec' hmode o n t a hgets
      · exact (h.got e he call hrec' hmode o n t a hgets).mono ev

/-- A request that neither reads nor writes an address. -/
theorem Traced.local_request (h : D.Traced c)
    (hfirst : ∀ call, ev = received ev.pid call → own ev.pid c.trace = [])
    (hwallets : w.db.merchantWalletAddresses = c.state.db.merchantWalletAddresses)
    (hinvoices : w.db.invoices = c.state.db.invoices) (hwrites : ∀ key, ¬ Writes ev key)
    (hgets : ∀ o n t a, ¬ Gets ev o n t a) : D.Traced ⟨w, ev :: c.trace⟩ :=
  h.next hfirst (fun _ hr => .inl ⟨hwallets ▸ hr, hwrites _⟩)
    (fun _ hi => .inl (hinvoices ▸ hi)) fun _ _ _ o n t a hg => absurd hg (hgets o n t a)

/-! ## What a step does -/

/-- A row of the table after an upsert is an old one with another key, or has the new address. -/
theorem mem_upsertWallet {db : Db} {w r : MerchantWalletAddress}
    (hr : r ∈ (db.upsertWallet w).2.merchantWalletAddresses) :
    (r ∈ db.merchantWalletAddresses ∧ r.key ≠ w.key) ∨ r.key = w.key ∧ r.address = w.address := by
  unfold Db.upsertWallet at hr
  split at hr
  · have hmem : r ∈ db.merchantWalletAddresses.modify w.key
        (fun x => { x with address := w.address }) (fun _ => rfl) := hr
    obtain ⟨old, hold, rfl⟩ := Table.mem_modify.mp hmem
    split_ifs with hkey
    · exact .inr ⟨hkey, rfl⟩
    · exact .inl ⟨hold, hkey⟩
  · rename_i hnone
    have hfree := Table.find?_eq_none_iff.mp hnone
    split at hr
    · rename_i t ht
      rcases ((Table.insert?_eq_some ht).2 r).mp hr with rfl | hold
      · exact .inr ⟨rfl, rfl⟩
      · exact .inl ⟨hold, hfree r hold⟩
    · exact .inl ⟨hr, hfree r hr⟩

/-- A row of the table after an insert is the new one or an old one with another key. -/
theorem mem_insertRow {now : Time} {db db' : Db} {w r : MerchantWalletAddress}
    (h : Write.apply now db (.merchantWalletAddressCreate w) = .ok db')
    (hr : r ∈ db'.merchantWalletAddresses) :
    (r ∈ db.merchantWalletAddresses ∧ r.key ≠ w.key) ∨ r = w := by
  obtain ⟨t, ht, rfl⟩ := merchantWalletAddressCreate_ok h
  obtain ⟨hfree, hmem⟩ := Table.insert?_eq_some ht
  rcases (hmem r).mp hr with rfl | hold
  · exact .inr rfl
  · exact .inl ⟨hold, hfree r hold⟩

/-- What is known of the process that makes a request: the call it serves. -/
theorem mode_of_received {call call' : Served} {pid : ℕ}
    (hhist : InOrder (D.Expected call') (own pid c.trace)) (hrec : received pid call ∈ c.trace) :
    call = call' := eq_of_received hhist (mem_own.mpr ⟨hrec, rfl⟩)

/-- A fake-mode process that writes under the key is the last one to do so. -/
theorem FakeWrote.last {call : Served} (hw : Writes ev key) (hrec : received ev.pid call ∈ tr)
    (hmode : call.mode = .fake) : FakeWrote (ev :: tr) key :=
  ⟨[], ev, tr, rfl, hw, fun _ h => absurd h List.not_mem_nil, call, List.mem_cons_of_mem _ hrec,
    hmode⟩

/-- The process of a call that has started has received it. -/
theorem Started.of_own {call : Served} {pid : ℕ} (h : Started call (own pid c.trace)) :
    received pid call ∈ c.trace := by
  obtain ⟨q, hev⟩ := h
  obtain ⟨hmem, hq⟩ := mem_own.mp hev
  exact hq ▸ hmem

/-- A Prisma call that failed. -/
theorem Traced.failed (h : D.Traced c) (pid : ℕ) (p : PrismaCall) (e : Error) :
    D.Traced ⟨c.state, ⟨pid, .prisma p, .error e⟩ :: c.trace⟩ := by
  refine h.local_request (fun _ heq => by cases heq) rfl rfl ?_ ?_
  · rintro key ⟨q, w, -, heq | ⟨row, heq⟩⟩ <;> cases heq
  · rintro o n t a (⟨q, w, heq, -⟩ | ⟨q, i, -, -, -, -, ⟨id, heq⟩ | ⟨o', e', heq⟩ | ⟨d, heq⟩⟩) <;>
      cases heq

/-- A request that is no Prisma call. -/
theorem Traced.unstored (h : D.Traced c) {pid : ℕ} {op : Op http} {r : (effects http).Ret op}
    {w : World BlockchainMode} (hdb : w.db = c.state.db) (hop : ∀ p, op ≠ .prisma p)
    (hfirst : ∀ call, op = .other (.received call) → own pid c.trace = []) :
    D.Traced ⟨w, ⟨pid, op, r⟩ :: c.trace⟩ := by
  refine h.local_request (fun call heq => hfirst call (congrArg Event.op heq))
    (by rw [hdb]) (by rw [hdb]) ?_ ?_
  · rintro key ⟨q, w, -, heq | ⟨row, heq⟩⟩ <;> exact hop _ (congrArg Event.op heq)
  · rintro o n t a (⟨q, w, heq, -⟩ | ⟨q, i, -, -, -, -, ⟨id, heq⟩ | ⟨o', e', heq⟩ | ⟨d, heq⟩⟩) <;>
      exact hop _ (congrArg Event.op heq)

/-- A lookup of an invoice that finds one that was created in evm mode, or has a supplied
    address. -/
theorem Traced.lookup (h : D.Traced c) {pid : ℕ} {p : PrismaCall} {r : Except Error p.Ret}
    (hwrites : ∀ key, ¬ Writes (⟨pid, .prisma p, r⟩ : Event (effects http)) key)
    (hgets : ∀ o n t a, Gets (⟨pid, .prisma p, r⟩ : Event (effects http)) o n t a →
      (∃ i ∈ c.state.db.invoices, Finds (.prisma p) i ∧ o = i.organizationId ∧ n = i.network ∧
        t = i.token ∧ a = i.paymentAddress) ∨
      ∃ w ∈ c.state.db.merchantWalletAddresses,
        p = .merchantWalletAddressFindUnique w.organizationId w.network w.token ∧
          o = w.organizationId ∧ n = w.network ∧ t = w.token ∧ a = w.address)
    (hallowed : D.fakeRowsSupplied c pid (.prisma p)) :
    D.Traced ⟨c.state, ⟨pid, .prisma p, r⟩ :: c.trace⟩ := by
  refine h.next (fun _ heq => by cases heq) (fun r hr => .inl ⟨hr, hwrites _⟩)
    (fun i hi => .inl hi) fun call hrec hmode o n t a hg => ?_
  obtain ⟨hwallet, hinvoice⟩ := hallowed call hrec hmode
  rcases hgets o n t a hg with ⟨i, hi, hfinds, rfl, rfl, rfl, rfl⟩ | ⟨w, hw, rfl, rfl, rfl, rfl, rfl⟩
  · rcases h.invoices i hi with hfake | hsupplied
    · exact (hinvoice i hi hfake hfinds).mono _
    · exact hsupplied.mono _
  · rcases h.wallets w hw with hfake | hsupplied
    · exact (hwallet w hw hfake rfl).mono _
    · exact hsupplied.mono _

section Step

variable {call : Served} {pid : ℕ}

/-- An address is stored by `set`: in evm mode the real adapter has accepted it. -/
theorem Traced.upsert (h : D.Traced c) {w : MerchantWalletAddress} {db : Db}
    (hdb : db = (c.state.db.upsertWallet w).2) (hrec : received pid call ∈ c.trace)
    (hasks : D.Asks call (own pid c.trace) (.merchantWalletAddressUpsert w)) :
    D.Traced ⟨{ c.state with db := db },
      upserted pid w (c.state.db.upsertWallet w).1 :: c.trace⟩ := by
  have hwrites : Writes (upserted pid w (c.state.db.upsertWallet w).1) w.key :=
    ⟨pid, w, rfl, .inr ⟨_, rfl⟩⟩
  refine h.next (fun _ heq => by cases heq) (fun r hr => ?_) (fun i hi => .inl ?_)
    fun _ _ _ o n t a hg => ?_
  · have hr : r ∈ (c.state.db.upsertWallet w).2.merchantWalletAddresses := hdb ▸ hr
    rcases mem_upsertWallet hr with ⟨hold, hkey⟩ | ⟨hkey, haddress⟩
    · refine .inl ⟨hold, ?_⟩
      rintro ⟨q, w', hw', heq | ⟨row, heq⟩⟩
      · cases heq
      · cases heq
        exact hkey hw'.symm
    · refine .inr ?_
      cases hmode : call.mode with
      | fake => exact .inl (hkey ▸ .last hwrites hrec hmode)
      | evm =>
        obtain ⟨userId, ctx, hcall, hvalid⟩ := hasks
        have hkeys : r.organizationId = w.organizationId ∧ r.network = w.network ∧
            r.token = w.token := by
          simpa [MerchantWalletAddress.key] using hkey
        obtain ⟨ho, hn, ht⟩ := hkeys
        rw [ho, hn, ht, haddress]
        refine .inr ⟨⟨pid, .evm, userId, ctx, w, _, ?_, List.mem_cons_self, rfl, rfl⟩, ?_⟩
        · rw [← hmode, ← hcall]
          exact List.mem_cons_of_mem _ hrec
        · rw [hmode] at hvalid
          exact hvalid
  · have hi : i ∈ db.invoices := hi
    rw [hdb, upsertWallet_invoices] at hi
    exact hi
  · rcases hg with ⟨q, w', heq, -⟩ | ⟨q, i, -, -, -, -, ⟨id, heq⟩ | ⟨o', e', heq⟩ | ⟨d, heq⟩⟩ <;>
      cases heq

/-- An address is provisioned in fake mode. -/
theorem Traced.provision (h : D.Traced c) {w : MerchantWalletAddress} {db : Db}
    (happly : Write.apply c.state.clock c.state.db (.merchantWalletAddressCreate w) = .ok db)
    (hrec : received pid call ∈ c.trace) (hmode : call.mode = .fake) :
    D.Traced ⟨{ c.state with db := db }, provisioned pid w :: c.trace⟩ := by
  refine h.next (fun _ heq => by cases heq) (fun r hr => ?_) (fun i hi => .inl ?_)
    fun _ _ _ o n t a hg => ?_
  · rcases mem_insertRow happly hr with ⟨hold, hkey⟩ | rfl
    · refine .inl ⟨hold, ?_⟩
      rintro ⟨q, w', hw', heq | ⟨row, heq⟩⟩
      · cases heq
        exact hkey hw'.symm
      · cases heq
    · exact .inr (.inl (.last ⟨pid, r, rfl, .inl rfl⟩ hrec hmode))
  · obtain ⟨t, -, rfl⟩ := merchantWalletAddressCreate_ok happly
    exact hi
  · rcases hg with ⟨q, w', heq, -⟩ | ⟨q, i, -, -, -, -, ⟨id, heq⟩ | ⟨o', e', heq⟩ | ⟨d, heq⟩⟩ <;>
      cases heq

/-- An invoice is created: in evm mode with an address that was read. -/
theorem Traced.create (h : D.Traced c) {d : InvoiceCreateInput} {db : Db}
    (happly : Write.apply c.state.clock c.state.db (.invoiceCreate d) = .ok db)
    (hhist : InOrder (D.Expected call) (own pid c.trace)) (hrec : received pid call ∈ c.trace)
    (hfresh : Fresh call (own pid c.trace) d) :
    D.Traced ⟨{ c.state with db := db }, created pid d (d.row c.state.clock) :: c.trace⟩ := by
  obtain ⟨-, t, ht, rfl⟩ := invoiceCreate_ok happly
  -- the address of the new invoice was read from the stored row
  have hsupplied : call.mode = .evm → D.Supplied (created pid d (d.row c.state.clock) :: c.trace)
      d.organizationId d.network d.token d.paymentAddress := by
    intro hmode
    obtain ⟨o, k, input, ctx, id, address, now, hcall, rfl, hread⟩ := hfresh
    obtain ⟨q, wallet, hev, rfl⟩ := hread hmode
    obtain ⟨hmem, rfl⟩ := mem_own.mp hev
    exact (h.got _ hmem call hrec hmode _ _ _ _ (.inl ⟨_, wallet, rfl, rfl⟩)).mono _
  refine h.next (fun _ heq => by cases heq) (fun r hr => .inl ⟨hr, ?_⟩) (fun i hi => ?_)
    fun call' hrec' hmode o n t a hg => ?_
  · rintro ⟨q, w', -, heq | ⟨row, heq⟩⟩ <;> cases heq
  · rcases ((Table.insert?_eq_some ht).2 i).mp hi with rfl | hold
    · cases hmode : call.mode with
      | fake =>
        exact .inr (.inl ⟨pid, call, d, List.mem_cons_of_mem _ hrec, hmode, List.mem_cons_self⟩)
      | evm => exact .inr (.inr (hsupplied hmode))
    · exact .inl hold
  · obtain rfl := mode_of_received hhist hrec'
    rcases hg with ⟨q, w', heq, -⟩ |
      ⟨q, i, rfl, rfl, rfl, rfl, ⟨id, heq⟩ | ⟨o', e', heq⟩ | ⟨d', heq⟩⟩
    · cases heq
    · cases heq
    · cases heq
    · injection heq with _ _ hret
      obtain rfl : d.row c.state.clock = i := Except.ok.inj hret
      exact hsupplied hmode

/-- The stored address is looked up. -/
theorem Traced.readWallet (h : D.Traced c) {o n t : String}
    (hallowed : D.fakeRowsSupplied c pid (.prisma (.merchantWalletAddressFindUnique o n t))) :
    D.Traced ⟨c.state, ⟨pid, .prisma (.merchantWalletAddressFindUnique o n t),
      .ok (c.state.db.merchantWalletAddresses.find? (o, n, t))⟩ :: c.trace⟩ := by
  refine h.lookup ?_ ?_ hallowed
  · rintro key ⟨q, w', -, heq | ⟨row, heq⟩⟩ <;> cases heq
  · rintro o' n' t' a (⟨q, w', heq, rfl⟩ | ⟨q, i, -, -, -, -, ⟨_, heq⟩ | ⟨_, _, heq⟩ | ⟨_, heq⟩⟩)
    · injection heq with _ hop hret
      cases hop
      have hfind : c.state.db.merchantWalletAddresses.find? (o, n, t) = some w' := Except.ok.inj hret
      obtain ⟨hmem, hkey⟩ := Table.find?_eq_some_iff.mp hfind
      have hkeys : w'.organizationId = o ∧ w'.network = n ∧ w'.token = t := by
        simpa [MerchantWalletAddress.key] using hkey
      obtain ⟨rfl, rfl, rfl⟩ := hkeys
      exact .inr ⟨w', hmem, rfl, rfl, rfl, rfl, rfl⟩
    all_goals cases heq

/-- The invoice of an external id is looked up. -/
theorem Traced.readReplayed (h : D.Traced c) {o e : String}
    (hallowed : D.fakeRowsSupplied c pid (.prisma (.invoiceFindByExternalId o e))) :
    D.Traced ⟨c.state, ⟨pid, .prisma (.invoiceFindByExternalId o e),
      .ok (c.state.db.invoices.rows.find? fun x =>
        x.organizationId = o ∧ x.externalId = some e)⟩ :: c.trace⟩ := by
  refine h.lookup ?_ ?_ hallowed
  · rintro key ⟨q, w', -, heq | ⟨row, heq⟩⟩ <;> cases heq
  · rintro o' n' t' a (⟨q, w', heq, rfl⟩ |
      ⟨q, i, rfl, rfl, rfl, rfl, ⟨_, heq⟩ | ⟨_, _, heq⟩ | ⟨_, heq⟩⟩)
    · cases heq
    · cases heq
    · injection heq with _ hop hret
      cases hop
      have hfind : c.state.db.invoices.rows.find? (fun x =>
          x.organizationId = o ∧ x.externalId = some e) = some i := Except.ok.inj hret
      have hkeys : i.organizationId = o ∧ i.externalId = some e := by
        simpa using List.find?_some hfind
      obtain ⟨rfl, hext⟩ := hkeys
      exact .inl ⟨i, List.mem_of_find?_eq_some hfind, .inr ⟨e, hext, rfl⟩, rfl, rfl, rfl, rfl⟩
    · cases heq

/-- An invoice is looked up by its id. -/
theorem Traced.readInvoice (h : D.Traced c) {id : String}
    (hallowed : D.fakeRowsSupplied c pid (.prisma (.invoiceFindUnique id))) :
    D.Traced ⟨c.state, ⟨pid, .prisma (.invoiceFindUnique id),
      .ok (c.state.db.invoices.find? id)⟩ :: c.trace⟩ := by
  refine h.lookup ?_ ?_ hallowed
  · rintro key ⟨q, w', -, heq | ⟨row, heq⟩⟩ <;> cases heq
  · rintro o' n' t' a (⟨q, w', heq, rfl⟩ |
      ⟨q, i, rfl, rfl, rfl, rfl, ⟨_, heq⟩ | ⟨_, _, heq⟩ | ⟨_, heq⟩⟩)
    · cases heq
    · injection heq with _ hop hret
      cases hop
      have hfind : c.state.db.invoices.find? id = some i := Except.ok.inj hret
      obtain ⟨hmem, rfl⟩ := Table.find?_eq_some_iff.mp hfind
      exact .inl ⟨i, hmem, .inl rfl, rfl, rfl, rfl, rfl⟩
    all_goals cases heq

/-- A transaction logs what was done, or provisions an address in fake mode. -/
theorem Traced.transaction (h : D.Traced c) {writes : List Write} {db : Db}
    (htrans : c.state.db.transaction c.state.clock writes = .ok db)
    (hrec : received pid call ∈ c.trace)
    (hasks : D.Asks call (own pid c.trace) (.transaction writes)) :
    D.Traced ⟨{ c.state with db := db }, ⟨pid, .prisma (.transaction writes), .ok ()⟩ :: c.trace⟩ := by
  rcases hasks with ⟨row, rfl⟩ | ⟨hmode, w', rfl⟩
  · obtain ⟨db₁, happly, hnil⟩ := transaction_cons htrans
    cases transaction_nil hnil
    cases happly
    refine h.local_request (fun _ heq => by cases heq) rfl rfl ?_ ?_
    · rintro key ⟨q, w', -, heq | ⟨row, heq⟩⟩ <;> cases heq
    · rintro o n t a
        (⟨q, w', heq, -⟩ | ⟨q, i, -, -, -, -, ⟨_, heq⟩ | ⟨_, _, heq⟩ | ⟨_, heq⟩⟩) <;> cases heq
  · obtain ⟨db₁, happly, hnil⟩ := transaction_cons htrans
    cases transaction_nil hnil
    exact h.provision happly hrec hmode

/-- Every answered request keeps the invariant. -/
theorem Traced.step (h : D.Traced c) {op : Op http} {r : (effects http).Ret op} {i : Input Unit}
    (hallowed : D.fakeRowsSupplied c pid op) (hexp : D.Expected call (own pid c.trace) op)
    (hhist : InOrder (D.Expected call) (own pid c.trace))
    (hr : respond processes pid c.state op i = some (r, w)) :
    D.Traced ⟨w, ⟨pid, op, r⟩ :: c.trace⟩ := by
  cases op with
  | now =>
    rw [(respond_now hr).2]
    exact h.unstored rfl (fun _ heq => by cases heq) fun _ heq => by cases heq
  | generateId stem =>
    rw [respond_generateId hr]
    exact h.unstored rfl (fun _ heq => by cases heq) fun _ heq => by cases heq
  | generateFakeAddress =>
    rw [respond_generateFakeAddress hr]
    exact h.unstored rfl (fun _ heq => by cases heq) fun _ heq => by cases heq
  | cuid =>
    rw [respond_cuid hr]
    exact h.unstored rfl (fun _ heq => by cases heq) fun _ heq => by cases heq
  | mark m =>
    rw [respond_mark hr]
    exact h.unstored rfl (fun _ heq => by cases heq) fun _ heq => by cases heq
  | other x =>
    obtain ⟨k, o, -, rfl⟩ := respond_other hr
    refine h.unstored rfl (fun _ heq => by cases heq) fun call' heq => ?_
    cases heq
    exact hexp.2
  | prisma p =>
    have hrec : received pid call ∈ c.trace := Started.of_own hexp.1
    rcases respond_prisma hr with ⟨rfl, rfl⟩ | ⟨rfl, rfl⟩
    swap
    · exact h.failed pid p _
    obtain ⟨-, hasks⟩ := hexp
    cases p with
    | merchantWalletAddressFindUnique o n t => exact h.readWallet hallowed
    | invoiceFindByExternalId o e => exact h.readReplayed hallowed
    | invoiceFindUnique id => exact h.readInvoice hallowed
    | merchantWalletAddressUpsert w' => exact h.upsert rfl hrec hasks
    | invoiceCreate d =>
      simp only [PrismaCall.exec]
      cases happly : Write.apply c.state.clock c.state.db (.invoiceCreate d) with
      | error e => exact h.failed pid (.invoiceCreate d) e
      | ok db => exact h.create happly hhist hrec hasks
    | transaction writes =>
      simp only [PrismaCall.exec]
      cases htrans : c.state.db.transaction c.state.clock writes with
      | error e => exact h.failed pid (.transaction writes) e
      | ok db => exact h.transaction htrans hrec hasks
    | _ => exact hasks.elim

end Step

/-- The invariant holds in every reachable system. -/
theorem traced_inv {s : System (effects http) Error Served (World BlockchainMode)}
    (hs : D.Reached Unwritten D.fakeRowsSupplied s) : D.Traced s.config := by
  refine Reachable.invariant D.requests_obey (fun w hw => ?_) (fun c act w h hw => ?_)
    (fun c ev w h hans => ?_) hs
  · exact ⟨fun r hr => absurd hr (hw.1 r), fun i hi => absurd hi (hw.2 i),
      fun ev hev => absurd hev List.not_mem_nil⟩
  · obtain ⟨hinvoices, hwallets⟩ := environment_keeps hw
    exact ⟨fun r hr => h.wallets r (hwallets ▸ hr), fun i hi => h.invoices i ((hinvoices i).mp hi),
      h.got⟩
  · obtain ⟨i, hr⟩ := hans.reply
    obtain ⟨call, hexp, hhist⟩ := hans.expected
    exact h.step hans.allowed hexp hhist hr

/-- What a process in evm mode shows was got from the database. -/
theorem gets_of_shown {s : System (effects http) Error Served (World BlockchainMode)}
    {start : World BlockchainMode → Prop} {allowed : Condition (effects http) (World BlockchainMode)}
    (hs : D.Reached start allowed s) {pid : ℕ} {i : Invoice}
    (hshown : shown pid i ∈ s.config.trace) : ∃ ev ∈ s.config.trace, ev.pid = pid ∧
      Gets ev i.organizationId i.network i.token i.paymentAddress := by
  obtain ⟨call, hhist⟩ := hs.history D.requests_obey pid
  obtain ⟨h', hsuffix, -, hshows⟩ := hhist.mem (mem_own.mpr ⟨hshown, rfl⟩)
  have hin : ∀ ev ∈ h', ev ∈ s.config.trace ∧ ev.pid = pid := fun ev hev =>
    mem_own.mp (hsuffix.subset (List.mem_cons_of_mem _ hev))
  unfold Shows at hshows
  split at hshows
  · exact hshows.elim
  · rcases hshows with ⟨q, o, e, hev, -⟩ | ⟨q, d, hev⟩
    · exact ⟨_, (hin _ hev).1, (hin _ hev).2,
        .inr ⟨q, i, rfl, rfl, rfl, rfl, .inr (.inl ⟨o, e, rfl⟩)⟩⟩
    · exact ⟨_, (hin _ hev).1, (hin _ hev).2,
        .inr ⟨q, i, rfl, rfl, rfl, rfl, .inr (.inr ⟨d, rfl⟩)⟩⟩
  · obtain ⟨q, id, hev⟩ := hshows
    exact ⟨_, (hin _ hev).1, (hin _ hev).2, .inr ⟨q, i, rfl, rfl, rfl, rfl, .inl ⟨id, rfl⟩⟩⟩

/-- Where evm-mode processes read no row that was written in fake mode with an address that was
    not supplied, every address that they store in an invoice or show was supplied. -/
theorem custody_kept (D : Deployment) : D.Custody D.fakeRowsSupplied where
  created s hs pid call d i hrec hmode hcreated :=
    (traced_inv hs).got _ hcreated call hrec hmode _ _ _ _
      (.inr ⟨pid, i, rfl, rfl, rfl, rfl, .inr (.inr ⟨d, rfl⟩)⟩)
  shown s hs pid call i hrec hmode hshown := by
    obtain ⟨ev, hev, rfl, hgets⟩ := gets_of_shown hs hshown
    exact (traced_inv hs).got ev hev call hrec hmode _ _ _ _ hgets

/-! ## A small deployment -/

theorem freshWorld_unwritten (mode : BlockchainMode) : Unwritten (freshWorld mode) :=
  ⟨Table.not_mem_empty, Table.not_mem_empty⟩

/-- The processes that have asked to store an address. -/
def storers (tr : Trace) : List ℕ :=
  tr.filterMap fun
    | ⟨pid, .prisma (.merchantWalletAddressUpsert _), _⟩ => some pid
    | _ => none

theorem mem_storers {pid : ℕ} {w row : MerchantWalletAddress} (h : upserted pid w row ∈ tr) :
    pid ∈ storers tr := by
  simp only [storers, List.mem_filterMap]
  exact ⟨_, h, rfl⟩

/-- In fake mode an address is provisioned for the first invoice; a process in evm mode creates
    the second one. -/
def provisionedRun : ApiMoves :=
  [.start ⟨.fake, sampleRequest sampleAmount⟩, .perform 0 (.other ()), .perform 0 .ok, .perform 0 (.id "fake"),
    .perform 0 (.id "w"), .perform 0 .ok, .perform 0 .ok, .perform 0 (.id "1"), .perform 0 .ok,
    .perform 0 .ok, .perform 0 .ok, .perform 0 (.other ()), .env (.other .evm),
    .start ⟨.evm, sampleRequest sampleAmount⟩, .perform 1 (.other ()), .perform 1 .ok, .perform 1 (.id "2"),
    .perform 1 .ok, .perform 1 .ok, .perform 1 .ok, .perform 1 (.other ())]

set_option maxRecDepth 8000 in
/-- A customer of the process in evm mode is shown an address that nobody has supplied. -/
theorem provisioned_shown : ¬ ∀ D : Deployment, D.Custody anything := by
  intro h
  obtain ⟨s, hs, hview⟩ := Reachable.view (M := machine processes)
    (W := sampleDeployment.requests) (freshWorld_unwritten .fake) provisionedRun
    (f := fun s => (receipts s.config.trace, (shownInvoices s.config.trace).map fun x =>
      (x.1, x.2.paymentAddress), storers s.config.trace))
    (x := ([(1, ⟨.evm, sampleRequest sampleAmount⟩), (0, ⟨.fake, sampleRequest sampleAmount⟩)],
      [(1, "0xfake"), (0, "0xfake")], [])) (by decide)
  injection hview with hreceipts hview
  injection hview with hshown hstorers
  have hmem : (1, "0xfake") ∈ (shownInvoices s.config.trace).map fun x =>
      (x.1, x.2.paymentAddress) := hshown ▸ List.mem_cons_self
  obtain ⟨⟨pid, i⟩, hi, heq⟩ := List.mem_map.mp hmem
  obtain ⟨rfl, -⟩ := Prod.mk.inj heq
  have hrec : received 1 ⟨.evm, sampleRequest sampleAmount⟩ ∈ s.config.trace :=
    mem_receipts.mp (hreceipts ▸ List.mem_cons_self)
  obtain ⟨⟨pid, -, -, -, w, row, -, hup, -⟩, -⟩ :=
    (h sampleDeployment).shown s hs 1 _ i hrec rfl (mem_shownInvoices hi)
  have hnone := mem_storers hup
  rw [hstorers] at hnone
  cases hnone

/-- After that a user sets the address in evm mode, and the second invoice is created. -/
def suppliedLater : ApiMoves :=
  provisionedRun.take 13 ++
    [.start ⟨.evm, .setWalletAddress "org" "user" ⟨"base", "USDC", ownAddress⟩ sampleContext⟩,
      .perform 1 (.other ()), .perform 1 (.id "w2"), .perform 1 .ok, .perform 1 .ok, .perform 1 .ok,
      .start ⟨.evm, sampleRequest sampleAmount⟩, .perform 2 (.other ()), .perform 2 .ok,
      .perform 2 (.id "2"), .perform 2 .ok, .perform 2 .ok, .perform 2 .ok, .perform 2 (.other ())]

/-- The process whose request stored an address under the key. -/
def writer (key : String × String × String) : Event (effects http) → Option ℕ
  | ⟨pid, .prisma (.transaction [.merchantWalletAddressCreate w]), .ok _⟩ =>
    if w.key = key then some pid else none
  | ⟨pid, .prisma (.merchantWalletAddressUpsert w), .ok _⟩ => if w.key = key then some pid else none
  | _ => none

theorem writer_eq_some {q : ℕ} : writer key ev = some q ↔ Writes ev key ∧ q = ev.pid := by
  constructor
  · intro h
    unfold writer at h
    split at h
    · split_ifs at h with hkey
      cases h
      exact ⟨⟨_, _, hkey, .inl rfl⟩, rfl⟩
    · split_ifs at h with hkey
      cases h
      exact ⟨⟨_, _, hkey, .inr ⟨_, rfl⟩⟩, rfl⟩
    · cases h
  · rintro ⟨⟨pid, w, hkey, rfl | ⟨row, rfl⟩⟩, rfl⟩
    · exact if_pos hkey
    · exact if_pos hkey

/-- A process in fake mode was not the last one to store an address that is looked up, and no
    invoice is. -/
def cautious (c : ApiLog) (_ : ℕ) : Op http → Bool
  | .prisma (.merchantWalletAddressFindUnique organizationId network token) =>
    (c.trace.findSome? (writer (organizationId, network, token))).all fun q =>
      (receipts c.trace).all fun x => x.1 ≠ q || x.2.mode ≠ .fake
  | .prisma (.invoiceFindUnique _) => false
  | .prisma (.invoiceFindByExternalId _ _) => false
  | _ => true

theorem fakeRowsSupplied_of_cautious (D : Deployment) (c : ApiLog) (pid : ℕ) (op : Op http)
    (h : cautious c pid op = true) : D.fakeRowsSupplied c pid op := by
  intro call hrec hmode
  constructor
  · rintro w hw ⟨later, ev, earlier, htrace, hwrites, hlater, call', hrec', hfake⟩ rfl
    have hlast : c.trace.findSome? (writer w.key) = some ev.pid := by
      rw [htrace, List.findSome?_append, List.findSome?_eq_none_iff.mpr, Option.none_or,
        List.findSome?_cons, writer_eq_some.mpr ⟨hwrites, rfl⟩]
      intro e he
      rw [Option.eq_none_iff_forall_not_mem]
      exact fun q hq => hlater e he (writer_eq_some.mp hq).1
    replace h : (c.trace.findSome? (writer w.key)).all (fun q =>
        (receipts c.trace).all fun x => x.1 ≠ q || x.2.mode ≠ .fake) = true := h
    rw [hlast] at h
    have hnot := List.all_eq_true.mp h _ (mem_receipts.mpr hrec')
    simp [hfake] at hnot
  · rintro i hi - (rfl | ⟨externalId, -, rfl⟩) <;> cases h

set_option maxRecDepth 8000 in
/-- A run through both modes that meets the condition: the address that was provisioned in fake
    mode is shown there, and in evm mode the one that the user has supplied since. -/
theorem custody_kept_supplied : ∃ s i j,
    sampleDeployment.Reached Unwritten sampleDeployment.fakeRowsSupplied s ∧
      received 0 ⟨.fake, sampleRequest sampleAmount⟩ ∈ s.config.trace ∧
      shown 0 i ∈ s.config.trace ∧ i.paymentAddress = "0xfake" ∧
      shown 2 j ∈ s.config.trace ∧ j.paymentAddress = ownAddress ∧
      sampleDeployment.Supplied s.config.trace j.organizationId j.network j.token
        j.paymentAddress := by
  obtain ⟨s, hs, hview⟩ := Reachable.viewWhere (M := machine processes)
    (W := sampleDeployment.requests) (fakeRowsSupplied_of_cautious sampleDeployment)
    (freshWorld_unwritten .fake) suppliedLater
    (f := fun s => ((receipts s.config.trace).filter (·.1 ≠ 1),
      (shownInvoices s.config.trace).map fun x => (x.1, x.2.paymentAddress)))
    (x := ([(2, ⟨.evm, sampleRequest sampleAmount⟩), (0, ⟨.fake, sampleRequest sampleAmount⟩)],
      [(2, ownAddress), (0, "0xfake")])) (by decide)
  injection hview with hreceipts hshown
  have hshows : ∀ pid address, (pid, address) ∈ [(2, ownAddress), (0, "0xfake")] →
      ∃ i, shown pid i ∈ s.config.trace ∧ i.paymentAddress = address := by
    intro pid address hmem
    rw [← hshown] at hmem
    obtain ⟨⟨q, i⟩, hi, heq⟩ := List.mem_map.mp hmem
    obtain ⟨rfl, haddress⟩ := Prod.mk.inj heq
    exact ⟨i, mem_shownInvoices hi, haddress⟩
  have hreceived : ∀ x ∈ [(2, (⟨.evm, sampleRequest sampleAmount⟩ : Served)),
      (0, ⟨.fake, sampleRequest sampleAmount⟩)], received x.1 x.2 ∈ s.config.trace := by
    intro x hx
    exact mem_receipts.mp (List.mem_filter.mp (hreceipts ▸ hx)).1
  obtain ⟨i, hi, hfake⟩ := hshows 0 "0xfake" (List.mem_cons_of_mem _ List.mem_cons_self)
  obtain ⟨j, hj, hown⟩ := hshows 2 ownAddress List.mem_cons_self
  exact ⟨s, i, j, hs, hreceived _ (List.mem_cons_of_mem _ List.mem_cons_self), hi, hfake, hj, hown,
    (custody_kept sampleDeployment).shown s hs 2 _ j (hreceived _ List.mem_cons_self) rfl hj⟩

end CryptoPay.Api.Deployment
