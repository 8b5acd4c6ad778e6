import CryptoPay.Async.TwoRuns
import CryptoPay.Payments.Requests
import CryptoPay.Tenancy.Requests

/-!
# Isolation of the organizations' objects

`Known` is what holds of the tables after some requests: the rows that were
found are still there, and every delivery is of an event and to an endpoint of
one organization, because the dispatch pass pairs them so.

Results:
* `respond_frame`, `respond_agree`: one request of an organization, in one
  database and in two.
* `known_inv`: `Known` holds in every reachable system.
* `objects_isolated`: a request changes only rows of the organization that its
  guard has admitted it for, and its outcome depends on the rows of that
  organization only.
-/

namespace CryptoPay.Tenancy

open Async Data

variable {A : Signature} {ω ι η κ : Type} {org : String}

/-! ## What no request takes away -/

/-- Events stay as they are; endpoints and API keys stay with their organization. -/
structure Keeps (db db' : Database) : Prop where
  events : ∀ e ∈ db.payments.webhookEvents, e ∈ db'.payments.webhookEvents
  endpoints : ∀ org id, db.HasEndpoint org id → db'.HasEndpoint org id
  apiKeys : ∀ org id, db.HasApiKey org id → db'.HasApiKey org id

theorem Keeps.refl (db : Database) : Keeps db db := ⟨fun _ h => h, fun _ _ h => h, fun _ _ h => h⟩

section Keeps

variable {now : Time} {db : Database}

theorem exec_keeps (call : ObjectCall) : Keeps db (call.exec now db).2 := by
  cases call with
  | webhookEndpointCreate d =>
    simp only [ObjectCall.exec]
    split
    · rename_i t ht
      refine ⟨fun _ h => h, ?_, fun _ _ h => h⟩
      rintro org id ⟨p, hp, hrest⟩
      exact ⟨p, ((Table.insert?_eq_some ht).2 p).mpr (.inr hp), hrest⟩
    · exact .refl db
  | webhookEndpointRevoke id revokedAt =>
    simp only [ObjectCall.exec]
    split
    · refine ⟨fun _ h => h, ?_, fun _ _ h => h⟩
      rintro org id' ⟨p, hp, hid, horg⟩
      refine ⟨_, Table.mem_modify_of_mem (f := revokeEndpoint revokedAt) (k := id) hp fun _ => rfl, ?_⟩
      split_ifs <;> exact ⟨hid, horg⟩
    · exact .refl db
  | apiKeyCreate d =>
    simp only [ObjectCall.exec]
    split
    · rename_i t ht
      refine ⟨fun _ h => h, fun _ _ h => h, ?_⟩
      rintro org id ⟨k, hk, hrest⟩
      refine ⟨k, ?_, hrest⟩
      show k ∈ t.rows
      rw [ApiKeyTable.insert?_eq_some ht]
      exact List.mem_cons_of_mem _ hk
    · exact .refl db
  | apiKeyUpdate id d =>
    simp only [ObjectCall.exec]
    split
    · refine ⟨fun _ h => h, fun _ _ h => h, ?_⟩
      rintro org id' ⟨k, hk, hid, horg⟩
      refine ⟨_, Table.mem_modify_of_mem (f := ApiKey.update d) (k := id) hk fun _ => rfl, ?_⟩
      split_ifs <;> exact ⟨hid, horg⟩
    · exact .refl db
  | _ => exact .refl db

/-- No write takes an event away. -/
theorem apply_events {w : Write} {p p' : Db} (h : w.apply now p = .ok p') :
    ∀ e ∈ p.webhookEvents, e ∈ p'.webhookEvents := by
  intro e he
  cases w with
  | invoiceCreate d => obtain ⟨-, t, -, rfl⟩ := invoiceCreate_ok h; exact he
  | invoiceUpdate id d => obtain ⟨-, rfl⟩ := invoiceUpdate_ok h; exact he
  | paymentCreate d => obtain ⟨-, -, t, -, rfl⟩ := paymentCreate_ok h; exact he
  | paymentUpdate id d => obtain ⟨-, rfl⟩ := paymentUpdate_ok h; exact he
  | webhookEventCreate d =>
    obtain ⟨t, ht, rfl⟩ := webhookEventCreate_ok h
    exact ((Table.insert?_eq_some ht).2 e).mpr (.inr he)
  | blockchainScanCursorUpdate network n => rw [blockchainScanCursorUpdate_ok h]; exact he
  | merchantWalletAddressCreate row =>
    obtain ⟨t, -, rfl⟩ := merchantWalletAddressCreate_ok h
    exact he
  | auditLogCreate row => cases h; exact he

theorem transaction_events {ws : List Write} {p p' : Db} (h : p.transaction now ws = .ok p') :
    ∀ e ∈ p.webhookEvents, e ∈ p'.webhookEvents := by
  induction ws generalizing p with
  | nil => rw [transaction_nil h]; exact fun _ he => he
  | cons w ws ih =>
    obtain ⟨p₁, hw, hrest⟩ := transaction_cons h
    exact fun e he => ih hrest e (apply_events hw e he)

theorem payments_events (call : PrismaCall) (p : Db) :
    ∀ e ∈ p.webhookEvents, e ∈ (call.exec now p).2.webhookEvents := by
  intro e he
  cases call with
  | transaction ws =>
    simp only [PrismaCall.exec]
    split
    · rename_i p' h
      exact transaction_events h e he
    · exact he
  | invoiceCreate d =>
    simp only [PrismaCall.exec]
    split
    · rename_i p' h
      exact apply_events h e he
    · exact he
  | merchantWalletAddressUpsert row =>
    exact (congrArg Db.webhookEvents (upsertWallet_only p row)).symm ▸ he
  | blockchainScanCursorUpsert network =>
    exact (congrArg Db.webhookEvents (upsertCursor_only p network)).symm ▸ he
  | _ => exact he

end Keeps

/-- A payment request changes the payment tables only, and takes no event away. -/
theorem payments_cases {B : Backend A ω ι η} {pid : ℕ} {w w' : World ω} {op : CryptoPay.Op A}
    {i : CryptoPay.Input ι} {r : (effects A).Ret op}
    (h : CryptoPay.respond B pid w op i = some (r, w')) :
    (∀ e ∈ w.db.webhookEvents, e ∈ w'.db.webhookEvents) ∧ w'.clock = w.clock := by
  refine ⟨?_, respond_clock h⟩
  cases op with
  | prisma call =>
    rcases respond_prisma h with ⟨-, rfl⟩ | ⟨-, rfl⟩
    · exact payments_events call w.db
    · exact fun _ he => he
  | now => rw [(respond_now h).2]; exact fun _ he => he
  | generateId stem => rw [respond_generateId h]; exact fun _ he => he
  | generateFakeAddress => rw [respond_generateFakeAddress h]; exact fun _ he => he
  | cuid => rw [respond_cuid h]; exact fun _ he => he
  | mark m => rw [respond_mark h]; exact fun _ he => he
  | other op =>
    obtain ⟨k, o, -, rfl⟩ := respond_other h
    exact fun _ he => he

/-- The queues write deliveries only. -/
theorem webhookCall_only (now : Time) (db : Webhooks.WebhookDb) (call : Webhooks.WebhookCall) :
    (call.exec now db).2.webhookEvents = db.webhookEvents ∧
      (call.exec now db).2.webhookEndpoints = db.webhookEndpoints := by
  cases call with
  | eventFindMany take => exact ⟨rfl, rfl⟩
  | deliveryFindMany lte take => exact ⟨rfl, rfl⟩
  | deliveryCreate d =>
    simp only [Webhooks.WebhookCall.exec]
    split_ifs
    · split <;> exact ⟨rfl, rfl⟩
    · exact ⟨rfl, rfl⟩
  | deliveryUpdate id u =>
    simp only [Webhooks.WebhookCall.exec]
    split <;> exact ⟨rfl, rfl⟩

/-- A delivery after a call was there before, with the same event and endpoint, or is new. -/
theorem webhookCall_pairs (now : Time) (db : Webhooks.WebhookDb) (call : Webhooks.WebhookCall)
    {x : Webhooks.WebhookDelivery} (hx : x ∈ (call.exec now db).2.webhookDeliveries) :
    (∃ y ∈ db.webhookDeliveries, y.pair = x.pair) ∨
      ∃ d, call = .deliveryCreate d ∧ x.pair = (d.eventId, d.endpointId) := by
  cases call with
  | eventFindMany take => exact .inl ⟨x, hx, rfl⟩
  | deliveryFindMany lte take => exact .inl ⟨x, hx, rfl⟩
  | deliveryCreate d =>
    simp only [Webhooks.WebhookCall.exec] at hx
    split_ifs at hx
    · split at hx
      · rename_i t ht
        rcases ((Webhooks.DeliveryTable.insert?_eq_some ht).2.2 x).mp hx with rfl | hx
        · exact .inr ⟨d, rfl, rfl⟩
        · exact .inl ⟨x, hx, rfl⟩
      · exact .inl ⟨x, hx, rfl⟩
    · exact .inl ⟨x, hx, rfl⟩
  | deliveryUpdate id u =>
    simp only [Webhooks.WebhookCall.exec] at hx
    split at hx
    · obtain ⟨y, hy, rfl⟩ := (Webhooks.DeliveryTable.mem_modify (f := Webhooks.WebhookDelivery.update u)
        (fun _ => rfl) fun _ => rfl).mp hx
      refine .inl ⟨y, hy, ?_⟩
      split_ifs <;> rfl
    · exact .inl ⟨x, hx, rfl⟩

/-- What a request of the queues leaves. -/
theorem webhooks_cases {w w' : Webhooks.World} {op : Webhooks.Op} {i : Webhooks.Input}
    {r : Webhooks.calls.Ret op} (h : Webhooks.respond w op i = some (r, w')) :
    w'.db.webhookEvents = w.db.webhookEvents ∧ w'.db.webhookEndpoints = w.db.webhookEndpoints ∧
      ∀ x ∈ w'.db.webhookDeliveries, (∃ y ∈ w.db.webhookDeliveries, y.pair = x.pair) ∨
        ∃ d, op = .db (.deliveryCreate d) ∧ x.pair = (d.eventId, d.endpointId) := by
  have hsame : w' = w → w'.db.webhookEvents = w.db.webhookEvents ∧
      w'.db.webhookEndpoints = w.db.webhookEndpoints ∧
      ∀ x ∈ w'.db.webhookDeliveries, (∃ y ∈ w.db.webhookDeliveries, y.pair = x.pair) ∨
        ∃ d, op = .db (.deliveryCreate d) ∧ x.pair = (d.eventId, d.endpointId) := by
    rintro rfl
    exact ⟨rfl, rfl, fun x hx => .inl ⟨x, hx, rfl⟩⟩
  by_cases hreads : op.Reads
  · exact hsame (Webhooks.respond_reads hreads h)
  · cases op with
    | db call =>
      have hexec : w' = w ∨ w'.db = (call.exec w.clock w.db).2 := by
        cases i <;> cases h <;> first | exact .inl rfl | exact .inr rfl
      rcases hexec with hw | hw
      · exact hsame hw
      · obtain ⟨he, hp⟩ := webhookCall_only w.clock w.db call
        rw [hw]
        refine ⟨he, hp, fun x hx => (webhookCall_pairs w.clock w.db call hx).imp_right ?_⟩
        exact fun ⟨d, hd, hpair⟩ => ⟨d, congrArg _ hd, hpair⟩
    | _ => exact absurd trivial hreads

section Step

variable {B : Backend A ω ι η} {pid : ℕ} {s s' : State ω} {op : Op A} {i : Input ι}
  {r : (calls A).Ret op}

/-- What a request leaves of the rows that others refer to. -/
theorem respond_keeps (h : respond B pid s op i = some (r, s')) : Keeps s.db s'.db := by
  cases op with
  | payments op =>
    cases i with
    | payments i =>
      obtain ⟨⟨r', w⟩, hw, heq⟩ := Option.map_eq_some_iff.mp h
      cases heq
      exact ⟨(payments_cases hw).1, fun _ _ h => h, fun _ _ h => h⟩
    | _ => cases h
  | webhooks op =>
    cases i with
    | webhooks i =>
      obtain ⟨⟨r', w⟩, hw, heq⟩ := Option.map_eq_some_iff.mp h
      cases heq
      obtain ⟨he, hp, -⟩ := webhooks_cases hw
      refine ⟨fun e hmem => ?_, fun org id ⟨p, hmem, hrest⟩ => ⟨p, ?_, hrest⟩, fun _ _ h => h⟩
      · show e ∈ w.db.webhookEvents
        rw [he]
        exact hmem
      · show p ∈ w.db.webhookEndpoints
        rw [hp]
        exact hmem
    | _ => cases h
  | db call =>
    cases i with
    | ok => cases h; exact exec_keeps call
    | connectionError => cases h; exact .refl _
    | lostReply => cases h; exact exec_keeps call
    | _ => cases h
  | randomBytes size =>
    cases i <;> cases h
    exact .refl _

theorem exec_deliveries (now : Time) (db : Database) (call : ObjectCall) :
    (call.exec now db).2.webhookDeliveries = db.webhookDeliveries := by
  cases call with
  | webhookEndpointCreate d => simp only [ObjectCall.exec]; split <;> rfl
  | webhookEndpointRevoke id revokedAt => simp only [ObjectCall.exec]; split <;> rfl
  | apiKeyCreate d => simp only [ObjectCall.exec]; split <;> rfl
  | apiKeyUpdate id d => simp only [ObjectCall.exec]; split <;> rfl
  | _ => rfl

/-- A delivery after a request was there before, with the same event and endpoint, or is new. -/
theorem respond_pairs (h : respond B pid s op i = some (r, s')) {x : Webhooks.WebhookDelivery}
    (hx : x ∈ s'.db.webhookDeliveries) :
    (∃ y ∈ s.db.webhookDeliveries, y.pair = x.pair) ∨
      ∃ d, op = .webhooks (.db (.deliveryCreate d)) ∧ x.pair = (d.eventId, d.endpointId) := by
  cases op with
  | payments op =>
    cases i with
    | payments i =>
      obtain ⟨⟨r', w⟩, hw, heq⟩ := Option.map_eq_some_iff.mp h
      cases heq
      exact .inl ⟨x, hx, rfl⟩
    | _ => cases h
  | webhooks op =>
    cases i with
    | webhooks i =>
      obtain ⟨⟨r', w⟩, hw, heq⟩ := Option.map_eq_some_iff.mp h
      cases heq
      refine ((webhooks_cases hw).2.2 x hx).imp_right ?_
      exact fun ⟨d, hd, hpair⟩ => ⟨d, congrArg _ hd, hpair⟩
    | _ => cases h
  | db call =>
    have hsame : s'.db.webhookDeliveries = s.db.webhookDeliveries := by
      cases i with
      | ok => cases h; exact exec_deliveries _ _ call
      | connectionError => cases h; rfl
      | lostReply => cases h; exact exec_deliveries _ _ call
      | _ => cases h
    exact .inl ⟨x, hsame ▸ hx, rfl⟩
  | randomBytes size =>
    cases i <;> cases h
    exact .inl ⟨x, hx, rfl⟩

/-- A query that resolves was executed. -/
theorem respond_db_ok {call : ObjectCall} {a : call.Ret}
    (h : respond B pid s (.db call) i = some (.ok a, s')) :
    (call.exec s.clock s.db).1 = .ok a := by
  cases i with
  | ok => exact (Prod.mk.inj (Option.some.inj h)).1
  | _ => cases h

end Step

/-! ## What is known after some requests -/

/-- The dispatch pass has read a batch. -/
abbrev batchRead (pid take : ℕ) (batch : List Webhooks.EventWithEndpoints) : Event (calls A) :=
  ⟨pid, .webhooks (.db (.eventFindMany take)), .ok batch⟩

/-- See the module text. -/
structure Known (h : Requests A) (db : Database) : Prop where
  endpoints : ∀ org id, FoundEndpoint h org id → db.HasEndpoint org id
  apiKeys : ∀ org id, FoundApiKey h org id → db.HasApiKey org id
  /-- The entries of a batch pair an event with endpoints of its organization. -/
  batches : ∀ pid take batch, batchRead pid take batch ∈ h → ∀ e ∈ batch,
    e.toWebhookEvent ∈ db.payments.webhookEvents ∧
      ∀ p ∈ e.webhookEndpoints, db.HasEndpoint e.organizationId p.id
  linked : db.Linked

theorem Known.none {db : Database} (h : db.Linked) : Known ([] : Requests A) db where
  endpoints _ _ := fun ⟨_, _, _, hmem, _⟩ => absurd hmem List.not_mem_nil
  apiKeys _ _ hf := by
    rcases hf with ⟨_, _, _, hmem, -⟩ | ⟨_, _, _, hmem, -⟩ <;> cases hmem
  batches _ _ _ hmem := absurd hmem List.not_mem_nil
  linked := h

theorem Known.mono {h h' : Requests A} {db : Database} (hk : Known h db) (hs : h' ⊆ h) :
    Known h' db where
  endpoints org id hf := hk.endpoints org id (hf.mono hs)
  apiKeys org id hf := hk.apiKeys org id (hf.mono hs)
  batches pid take batch hmem := hk.batches pid take batch (hs hmem)
  linked := hk.linked

/-- A pair that was linked stays so. -/
theorem Database.Linked.delivery {db db' : Database} (hl : db.Linked) (hk : Keeps db db')
    {x y : Webhooks.WebhookDelivery} (hy : y ∈ db.webhookDeliveries) (hpair : y.pair = x.pair) :
    ∃ e ∈ db'.payments.webhookEvents, ∃ p ∈ db'.webhookEndpoints, e.id = x.eventId ∧
      p.id = x.endpointId ∧ e.organizationId = p.organizationId := by
  obtain ⟨e, he, p, hp, heid, hpid, horg⟩ := hl y hy
  obtain ⟨p', hp', hpid', horg'⟩ := hk.endpoints p.organizationId p.id ⟨p, hp, rfl, rfl⟩
  exact ⟨e, hk.events e he, p', hp', heid.trans (congrArg Prod.fst hpair),
    hpid'.trans (hpid.trans (congrArg Prod.snd hpair)), horg.trans horg'.symm⟩

theorem Known.keeps {h : Requests A} {db db' : Database} (hk : Known h db) (hkeeps : Keeps db db')
    (hl : db'.Linked) : Known h db' where
  endpoints org id hf := hkeeps.endpoints org id (hk.endpoints org id hf)
  apiKeys org id hf := hkeeps.apiKeys org id (hk.apiKeys org id hf)
  batches pid take batch hmem e he := by
    obtain ⟨hevent, hp⟩ := hk.batches pid take batch hmem e he
    exact ⟨hkeeps.events _ hevent, fun p hmem => hkeeps.endpoints _ _ (hp p hmem)⟩
  linked := hl

/-- The pair was in a batch. -/
def Paired (h : Requests A) (eventId endpointId : String) : Prop :=
  ∃ pid take batch, batchRead pid take batch ∈ h ∧
    ∃ e ∈ batch, e.id = eventId ∧ ∃ p ∈ e.webhookEndpoints, p.id = endpointId

section Step

variable {B : Backend A ω ι η} {pid : ℕ} {s s' : State ω} {op : Op A} {i : Input ι}
  {r : (calls A).Ret op} {h : Requests A}

/-- Every new delivery has its pair from a batch. -/
def OpPaired (h : Requests A) (op : Op A) : Prop :=
  ∀ d, op = .webhooks (.db (.deliveryCreate d)) → Paired h d.eventId d.endpointId

/-- What a lookup has found is there. -/
theorem found_endpoint {id' : String} {p : Webhooks.WebhookEndpoint}
    (hr : respond B pid s (.db (.webhookEndpointFindFirst id' org)) i = some (.ok (some p), s')) :
    p.id = id' ∧ s.db.HasEndpoint org id' := by
  have hfind : s.db.webhookEndpoints.rows.find? (fun q => q.id = id' ∧ q.organizationId = org) =
      some p := Except.ok.inj (respond_db_ok hr)
  have hp : p.id = id' ∧ p.organizationId = org := by simpa using List.find?_some hfind
  exact ⟨hp.1, p, List.mem_of_find?_eq_some hfind, hp⟩

theorem found_apiKey {id' : String} {k : ApiKey}
    (hr : respond B pid s (.db (.apiKeyFindFirst id' org)) i = some (.ok (some k), s')) :
    s.db.HasApiKey org k.id := by
  have hfind : s.db.apiKeys.rows.find? (fun q => q.id = id' ∧ q.organizationId = org) = some k :=
    Except.ok.inj (respond_db_ok hr)
  have hk : k.id = id' ∧ k.organizationId = org := by simpa using List.find?_some hfind
  exact ⟨k, List.mem_of_find?_eq_some hfind, rfl, hk.2⟩

theorem found_unique {keyHash : String} {k : ApiKey}
    (hr : respond B pid s (.db (.apiKeyFindUnique keyHash)) i = some (.ok (some k), s')) :
    s.db.HasApiKey k.organizationId k.id := by
  have hfind : s.db.apiKeys.rows.find? (fun q => q.keyHash = keyHash) = some k :=
    Except.ok.inj (respond_db_ok hr)
  exact ⟨k, List.mem_of_find?_eq_some hfind, rfl, rfl⟩

/-- A batch pairs events with endpoints of their organizations. -/
theorem batch_paired {take : ℕ} {batch : List Webhooks.EventWithEndpoints}
    (hr : respond B pid s (.webhooks (.db (.eventFindMany take))) i = some (.ok batch, s')) :
    ∀ e ∈ batch, e.toWebhookEvent ∈ s.db.payments.webhookEvents ∧
      ∀ p ∈ e.webhookEndpoints, s.db.HasEndpoint e.organizationId p.id := by
  cases i with
  | webhooks i =>
    obtain ⟨⟨r', w⟩, hw, heq⟩ := Option.map_eq_some_iff.mp hr
    obtain rfl : r' = .ok batch := (Prod.mk.inj heq).1
    obtain ⟨hexec, -⟩ := Webhooks.respond_db_ok hw
    obtain rfl : s.db.webhooks.undelivered take = batch :=
      Except.ok.inj (Prod.mk.inj hexec).1
    intro e he
    obtain ⟨hevent, hendpoints⟩ := Webhooks.mem_undelivered he
    refine ⟨(Webhooks.mem_undeliveredEvents.mp hevent).1, fun p hp => ?_⟩
    rw [hendpoints] at hp
    obtain ⟨hmem, -, horg⟩ := Webhooks.mem_enabledEndpoints.mp hp
    exact ⟨p, hmem, rfl, horg⟩
  | _ => cases hr

/-- One more request. -/
theorem Known.step (hk : Known h s.db) (hpaired : OpPaired h op)
    (hr : respond B pid s op i = some (r, s')) : Known (⟨pid, op, r⟩ :: h) s'.db := by
  have hkeeps := respond_keeps hr
  have hlinked : s'.db.Linked := by
    intro x hx
    rcases respond_pairs hr hx with ⟨y, hy, hpair⟩ | ⟨d, hop, hpair⟩
    · exact hk.linked.delivery hkeeps hy hpair
    · obtain ⟨q, take, batch, hmem, e, he, heid, p, hp, hpid⟩ := hpaired d hop
      obtain ⟨hevent, hendpoints⟩ := hk.batches q take batch hmem e he
      obtain ⟨p', hp', hpid', horg'⟩ := hkeeps.endpoints _ _ (hendpoints p hp)
      exact ⟨_, hkeeps.events _ hevent, p', hp', heid.trans (congrArg Prod.fst hpair).symm,
        hpid'.trans (hpid.trans (congrArg Prod.snd hpair).symm), horg'.symm⟩
  have hk' := hk.keeps hkeeps hlinked
  refine ⟨fun org id hf => ?_, fun org id hf => ?_, fun q take batch hmem e he => ?_, hlinked⟩
  · obtain ⟨q, id', p, hmem, hid⟩ := hf
    rcases List.mem_cons.mp hmem with heq | hmem
    · cases heq
      obtain ⟨hpid, hhas⟩ := found_endpoint hr
      rcases hid with rfl | rfl
      · exact hkeeps.endpoints _ _ hhas
      · exact hkeeps.endpoints _ _ (hpid.symm ▸ hhas)
    · exact hk'.endpoints org id ⟨q, id', p, hmem, hid⟩
  · rcases hf with ⟨q, id', k, hmem, rfl⟩ | ⟨q, keyHash, k, hmem, rfl, rfl⟩
    · rcases List.mem_cons.mp hmem with heq | hmem
      · cases heq
        exact hkeeps.apiKeys _ _ (found_apiKey hr)
      · exact hk'.apiKeys _ _ (.inl ⟨q, id', k, hmem, rfl⟩)
    · rcases List.mem_cons.mp hmem with heq | hmem
      · cases heq
        exact hkeeps.apiKeys _ _ (found_unique hr)
      · exact hk'.apiKeys _ _ (.inr ⟨q, keyHash, k, hmem, rfl, rfl⟩)
  · rcases List.mem_cons.mp hmem with heq | hmem
    · cases heq
      obtain ⟨hevent, hendpoints⟩ := batch_paired hr e he
      exact ⟨hkeeps.events _ hevent, fun p hp => hkeeps.endpoints _ _ (hendpoints p hp)⟩
    · exact hk'.batches q take batch hmem e he

end Step

theorem mem_webhookPart {h : Requests A} {pid : ℕ} {op : Webhooks.Op} {r : Webhooks.calls.Ret op}
    (hmem : ⟨pid, op, r⟩ ∈ webhookPart h) : (⟨pid, .webhooks op, r⟩ : Event (calls A)) ∈ h := by
  obtain ⟨⟨q, o, r'⟩, hev, heq⟩ := List.mem_filterMap.mp hmem
  cases o <;> cases heq
  exact hev

/-- A delivery is created for a pair of a batch. -/
theorem expected_paired {C : Config A} {j : Job κ} {h : Requests A} {op : Op A}
    (hE : Expected C j h op) : OpPaired h op := by
  rintro d rfl
  cases j with
  | request caller operation =>
    rcases hE with hE | ⟨org, -, hop⟩
    · exact hE.elim
    · exact hop.elim
  | touch authorization =>
    rcases hE with hE | ⟨org, -, hop⟩
    · exact hE.elim
    · exact hop.elim
  | payments job =>
    obtain ⟨o, ho⟩ := hE
    cases ho
  | webhooks queue =>
    obtain ⟨o, ho, hE⟩ := hE
    cases ho
    obtain ⟨-, -, -, pid, take, batch, hb, hrest⟩ := hE
    exact ⟨pid, take, batch, mem_webhookPart hb, hrest⟩

theorem Paired.mono {h h' : Requests A} (hs : h ⊆ h') {eventId endpointId : String}
    (hp : Paired h eventId endpointId) : Paired h' eventId endpointId := by
  obtain ⟨pid, take, batch, hb, hrest⟩ := hp
  exact ⟨pid, take, batch, hs hb, hrest⟩

/-- What happens between requests leaves what is known. -/
theorem Known.env {B : Backend A ω ι η} {s s' : State ω} {h : Requests A} {act : Act η}
    (hk : Known h s.db) (hact : environment B s act = some s') : Known h s'.db := by
  cases act with
  | payments act =>
    obtain ⟨w, hw, rfl⟩ := Option.map_eq_some_iff.mp hact
    have hevents : w.db.webhookEvents = s.db.payments.webhookEvents := by
      cases act with
      | clock t =>
        simp only [CryptoPay.environment] at hw
        split_ifs at hw
        cases hw
        rfl
      | reorderInvoices rows =>
        simp only [CryptoPay.environment] at hw
        split_ifs at hw
        cases hw
        rfl
      | reorderPayments rows =>
        simp only [CryptoPay.environment] at hw
        split_ifs at hw
        cases hw
        rfl
      | other e =>
        obtain ⟨o, -, rfl⟩ := Option.map_eq_some_iff.mp hw
        rfl
    have hkeeps : Keeps s.db (s.setPayments w).db :=
      ⟨fun e he => show e ∈ w.db.webhookEvents from hevents ▸ he, fun _ _ h => h, fun _ _ h => h⟩
    exact hk.keeps hkeeps fun x hx => hk.linked.delivery hkeeps hx rfl
  | memberships rows =>
    cases hact
    exact hk.keeps ⟨fun _ h => h, fun _ _ h => h, fun _ _ h => h⟩ hk.linked
  | reorderEndpoints rows =>
    simp only [environment] at hact
    split_ifs at hact with hperm
    cases hact
    have hkeeps : Keeps s.db { s.db with
        webhookEndpoints := s.db.webhookEndpoints.reorder rows hperm } := by
      refine ⟨fun _ h => h, ?_, fun _ _ h => h⟩
      rintro org id ⟨p, hp, hrest⟩
      exact ⟨p, (Table.mem_reorder (h := hperm)).mpr hp, hrest⟩
    exact hk.keeps hkeeps fun x hx => hk.linked.delivery hkeeps hx rfl
  | reorderDeliveries rows =>
    simp only [environment] at hact
    split_ifs at hact with hperm
    cases hact
    have hkeeps : Keeps s.db { s.db with
        webhookDeliveries := s.db.webhookDeliveries.reorder rows hperm } :=
      ⟨fun _ h => h, fun _ _ h => h, fun _ _ h => h⟩
    exact hk.keeps hkeeps fun x hx =>
      hk.linked.delivery hkeeps (Webhooks.DeliveryTable.mem_reorder.mp hx) rfl
  | reorderApiKeys rows =>
    simp only [environment] at hact
    split_ifs at hact with hperm
    cases hact
    have hkeeps : Keeps s.db { s.db with apiKeys := s.db.apiKeys.reorder rows hperm } := by
      refine ⟨fun _ h => h, fun _ _ h => h, ?_⟩
      rintro org id ⟨k, hk, hrest⟩
      exact ⟨k, (Table.mem_reorder (h := hperm)).mpr hk, hrest⟩
    exact hk.keeps hkeeps fun x hx => hk.linked.delivery hkeeps hx rfl

/-- The systems that some run leads to, from any tables without deliveries. -/
def Reached (C : Config A) (B : Backend A ω ι η) (W : Workload (effects A) Error κ) :
    System (calls A) Thrown (Job κ) (State ω) → Prop :=
  Reachable (machine B) (workload C W) Undelivered anything

theorem own_subset (pid : ℕ) (h : Requests A) : own pid h ⊆ h := fun _ hev => (mem_own.mp hev).1

theorem known_inv {C : Config A} {B : Backend A ω ι η} {W : Workload (effects A) Error κ}
    {s : System (calls A) Thrown (Job κ) (State ω)} (hs : Reached C B W s) :
    Known s.config.trace s.config.state.db := by
  refine Reachable.invariant (I := fun c => Known c.trace c.state.db) (workload_obeys C W)
    (fun s hs => .none fun d hd => absurd hd (hs d)) (fun c act state hk hact => hk.env hact)
    (fun c ev state hk hans => ?_) hs
  obtain ⟨-, ⟨j, hE, -⟩, -, i, hr⟩ := hans
  refine hk.step (fun d hd => ?_) hr
  exact (expected_paired hE d hd).mono (own_subset ev.pid c.trace)

/-! ## One request of an organization -/

section Requests

variable {B : Backend A ω ι η} {pid : ℕ} {s s' t : State ω} {op : Op A} {i : Input ι}
  {r : (calls A).Ret op} {h : Requests A}

/-- The call of an organization, with what has been found of it. -/
theorem Known.callOf (hk : Known h s.db) {call : ObjectCall} (hop : OpOf org h (.db call)) :
    ObjectCallOf org (s.db.HasEndpoint org) (s.db.HasApiKey org) call :=
  ObjectCallOf.imp (hk.endpoints org) (hk.apiKeys org) hop

/-- A request of an organization makes no delivery. -/
theorem OpOf.paired (hop : OpOf org h op) : OpPaired h op := by
  rintro d rfl
  exact hop.elim

/-- A request of one organization leaves the rows of the others as they are. -/
theorem respond_frame (hop : OpOf org h op) (hk : Known h s.db)
    (hr : respond B pid s op i = some (r, s')) {other : String} (hne : other ≠ org) :
    s'.db.heldBy other = s.db.heldBy other := by
  cases op with
  | payments op =>
    cases i with
    | payments i =>
      obtain ⟨⟨r', w⟩, hw, heq⟩ := Option.map_eq_some_iff.mp hr
      cases heq
      cases op with
      | prisma call =>
        rcases respond_prisma hw with ⟨-, rfl⟩ | ⟨-, rfl⟩
        · exact exec_payments_frame hop hne
        · rfl
      | now => rw [(respond_now hw).2]; rfl
      | generateId stem => rw [respond_generateId hw]; rfl
      | generateFakeAddress => rw [respond_generateFakeAddress hw]; rfl
      | cuid => rw [respond_cuid hw]; rfl
      | mark m => exact hop.elim
      | other op => exact hop.elim
    | _ => cases hr
  | webhooks op =>
    cases i with
    | webhooks i =>
      obtain ⟨⟨r', w⟩, hw, heq⟩ := Option.map_eq_some_iff.mp hr
      cases heq
      cases op with
      | lookup hostname => rw [Webhooks.respond_reads (by trivial) hw]; rfl
      | _ => exact hop.elim
    | _ => cases hr
  | db call =>
    have hcall := hk.callOf hop
    cases i with
    | ok => cases hr; exact exec_frame hk.linked hcall hne
    | connectionError => cases hr; rfl
    | lostReply => cases hr; exact exec_frame hk.linked hcall hne
    | _ => cases hr
  | randomBytes size =>
    cases i <;> cases hr
    rfl

/-- What a guard asks for changes nothing. -/
theorem respond_guard (hop : GuardOp op) (hr : respond B pid s op i = some (r, s')) :
    s'.db = s.db := by
  cases op with
  | payments op =>
    cases op with
    | now =>
      cases i with
      | payments i =>
        obtain ⟨⟨r', w⟩, hw, heq⟩ := Option.map_eq_some_iff.mp hr
        cases heq
        rw [(respond_now hw).2]
        rfl
      | _ => cases hr
    | _ => exact hop.elim
  | db call =>
    cases call with
    | apiKeyFindUnique keyHash => cases i <;> cases hr <;> rfl
    | membershipFindMany userId => cases i <;> cases hr <;> rfl
    | _ => exact hop.elim
  | _ => exact hop.elim

/-- The generated ids in the request are no other organization's. -/
def OpFresh (org : String) (db : Database) : Op A → Prop
  | .payments (.prisma call) => PaymentCallFresh org db.payments call
  | .db call => ObjectCallFresh org db call
  | _ => True

/-- A request of one organization gets the same reply in both states, and leaves them alike. -/
theorem respond_agree (hop : OpOf org h op) (hs : Known h s.db) (ht : Known h t.db)
    (hclock : s.clock = t.clock) (hheld : s.db.heldBy org = t.db.heldBy org)
    (hfs : OpFresh org s.db op) (hft : OpFresh org t.db op)
    (hr : respond B pid s op i = some (r, s')) :
    ∃ t', respond B pid t op i = some (r, t') ∧ s'.clock = t'.clock ∧
      s'.db.heldBy org = t'.db.heldBy org := by
  obtain ⟨db, clock, other⟩ := s
  obtain ⟨db', clock', other'⟩ := t
  obtain rfl : clock = clock' := hclock
  cases op with
  | payments op =>
    cases i with
    | payments i =>
      cases op with
      | prisma call =>
        obtain ⟨hreply, hafter⟩ := exec_payments_agree hop hheld hfs hft
        cases i with
        | ok =>
          cases hr
          refine ⟨⟨_, clock, other'⟩, ?_, rfl, hafter⟩
          exact congrArg (fun x => some (x, _)) hreply.symm
        | connectionError => cases hr; exact ⟨_, rfl, rfl, hheld⟩
        | _ => cases hr
      | mark m => exact hop.elim
      | other op => exact hop.elim
      | _ =>
        cases i <;> cases hr
        all_goals exact ⟨_, rfl, rfl, hheld⟩
    | _ => cases hr
  | webhooks op =>
    cases op with
    | lookup hostname =>
      cases i with
      | webhooks i =>
        cases i <;> cases hr
        exact ⟨_, rfl, rfl, hheld⟩
      | _ => cases hr
    | _ => exact hop.elim
  | db call =>
    obtain ⟨hreply, hafter⟩ := exec_agree (hs.callOf hop) (ht.callOf hop) hs.linked
      ht.linked hheld hfs hft
    cases i with
    | ok =>
      cases hr
      exact ⟨⟨_, clock, other'⟩, congrArg (fun x => some (x, _)) hreply.symm, rfl, hafter⟩
    | connectionError => cases hr; exact ⟨_, rfl, rfl, hheld⟩
    | lostReply => cases hr; exact ⟨⟨_, clock, other'⟩, rfl, rfl, hafter⟩
    | _ => cases hr
  | randomBytes size =>
    cases i <;> cases hr
    exact ⟨_, rfl, rfl, hheld⟩

end Requests

/-! ## A whole operation -/

/-- The rows of every other organization are the same. -/
def SameOthers (org : String) (db db' : Database) : Prop :=
  ∀ other, other ≠ org → db'.heldBy other = db.heldBy other

/-- An id that was fresh stays so while the others' rows stay as they are. -/
theorem OpFresh.keep {db db' : Database} {op : Op A} (h : OpFresh org db op)
    (hsame : SameOthers org db db') : OpFresh org db' op := by
  have hinvoices : ∀ d, WriteFresh org db.payments (.invoiceCreate d) →
      WriteFresh org db'.payments (.invoiceCreate d) := by
    intro d hd x hx hid
    by_contra hne
    have hrows := congrArg Holdings.invoices (hsame x.organizationId hne)
    exact hne (hd x (Table.mem_of_filter_eq hrows hx (decide_eq_true rfl)) hid)
  cases op with
  | payments op =>
    cases op with
    | prisma call =>
      cases call with
      | invoiceCreate d => exact hinvoices d h
      | transaction ws =>
        intro w hw
        cases w with
        | invoiceCreate d => exact hinvoices d (h _ hw)
        | _ => trivial
      | _ => trivial
    | _ => trivial
  | db call =>
    cases call with
    | webhookEndpointCreate d =>
      intro x hx hid
      by_contra hne
      have hrows := congrArg Holdings.webhookEndpoints (hsame x.organizationId hne)
      exact hne (h x (Table.mem_of_filter_eq hrows hx (decide_eq_true rfl)) hid)
    | apiKeyCreate d =>
      intro x hx hid
      by_contra hne
      have hrows := congrArg Holdings.apiKeys (hsame x.organizationId hne)
      exact hne (h x (Table.mem_of_filter_eq hrows hx (decide_eq_true rfl)) hid)
    | _ => trivial
  | _ => trivial

section Operations

variable {C : Config A} {B : Backend A ω ι η} {pid : ℕ} {o : Operation} {s t s₁ : State ω}
  {is : List (Input ι)} {evs : List (Event (calls A))} {x : Except Thrown o.Ret}

/-- An operation leaves the rows of the other organizations as they are. -/
theorem run_frame (hs : Known ([] : Requests A) s.db)
    (hrun : (o.run C org).execute (machine B) pid s is = some (evs, x, s₁)) :
    SameOthers org s.db s₁.db := by
  refine (Prog.execute_keeps (I := fun h s' => Known h s'.db ∧ SameOthers org s.db s'.db)
    (fun h op s' i r s'' hop ⟨hk, hsame⟩ hr => ?_) (run_obeys o) hrun ⟨hs, fun _ _ => rfl⟩).2
  exact ⟨hk.step hop.paired hr, fun other hne =>
    (respond_frame hop hk hr hne).trans (hsame other hne)⟩

/-- Two states with equal clocks, in which the organization holds the same rows. -/
structure Alike (org : String) (s t : State ω) : Prop where
  clock : s.clock = t.clock
  held : s.db.heldBy org = t.db.heldBy org

/-- An operation has the same outcome in two states that are alike for its organization. -/
theorem run_agree (hs : Known ([] : Requests A) s.db) (ht : Known ([] : Requests A) t.db)
    (halike : Alike org s t)
    (hrun : (o.run C org).execute (machine B) pid s is = some (evs, x, s₁))
    (hfresh : ∀ ev ∈ evs, OpFresh org s.db ev.op ∧ OpFresh org t.db ev.op) :
    ∃ t₁, (o.run C org).execute (machine B) pid t is = some (evs, x, t₁) ∧ Alike org s₁ t₁ := by
  let R (h : Requests A) (s' t' : State ω) : Prop :=
    (Known h s'.db ∧ SameOthers org s.db s'.db) ∧ (Known h t'.db ∧ SameOthers org t.db t'.db) ∧
      Alike org s' t'
  have hstep : ∀ h op s' t' i r s'', OpOf org h op →
      (OpFresh org s.db op ∧ OpFresh org t.db op) → R h s' t' →
      (machine B).respond pid s' op i = some (r, s'') →
      ∃ t'', (machine B).respond pid t' op i = some (r, t'') ∧ R (⟨pid, op, r⟩ :: h) s'' t'' := by
    rintro h op s' t' i r s'' hop hf ⟨⟨hks, hsames⟩, ⟨hkt, hsamet⟩, hclock, hheld⟩ hr
    obtain ⟨t'', hr', hclock', hheld'⟩ := respond_agree hop hks hkt hclock hheld (hf.1.keep hsames)
      (hf.2.keep hsamet) hr
    refine ⟨t'', hr', ⟨hks.step hop.paired hr, fun other hne => ?_⟩,
      ⟨hkt.step hop.paired hr', fun other hne => ?_⟩, hclock', hheld'⟩
    · exact (respond_frame hop hks hr hne).trans (hsames other hne)
    · exact (respond_frame hop hkt hr' hne).trans (hsamet other hne)
  obtain ⟨t₁, hrun', -, -, hend⟩ := Prog.execute_agree hstep (run_obeys o) hrun hfresh
    ⟨⟨hs, fun _ _ => rfl⟩, ⟨ht, fun _ _ => rfl⟩, halike⟩
  exact ⟨t₁, hrun', hend⟩

end Operations

/-! ## Isolation -/

/-- What isolates the objects of one organization from the requests of another. -/
structure ObjectIsolation (C : Config A) (B : Backend A ω ι η) (W : Workload (effects A) Error κ) :
    Prop where
  /-- Whatever else runs, a request of a caller changes rows of an organization only after its
      guard has admitted the caller for it. -/
  confined : ∀ s, Reached C B W s → ∀ p ∈ s.procs, ∀ op k, p.prog = .await op k →
    ∀ i r state, respond B p.pid s.config.state op i = some (r, state) →
    ∀ caller, p.job.caller = some caller → ∀ org,
      state.db.heldBy org ≠ s.config.state.db.heldBy org →
        Admitted C (own p.pid s.config.trace) caller org
  /-- An operation for an organization leaves every row of every other one as it is. -/
  frame : ∀ s, Reached C B W s → ∀ (o : Operation) org pid is evs x s₁,
    (o.run C org).execute (machine B) pid s.config.state is = some (evs, x, s₁) →
      SameOthers org s.config.state.db s₁.db
  /-- Its requests and its outcome are the same on any two databases that agree on the rows of the
      organization. -/
  agree : ∀ s t, Reached C B W s → Reached C B W t → ∀ (o : Operation) org pid is evs x s₁,
    Alike org s.config.state t.config.state →
    (o.run C org).execute (machine B) pid s.config.state is = some (evs, x, s₁) →
    (∀ ev ∈ evs, OpFresh org s.config.state.db ev.op ∧ OpFresh org t.config.state.db ev.op) →
      ∃ t₁, (o.run C org).execute (machine B) pid t.config.state is = some (evs, x, t₁) ∧
        Alike org s₁ t₁

/-- A request of a caller changes rows of an organization that it has been admitted for. -/
theorem expected_confined {C : Config A} {B : Backend A ω ι η} {j : Job κ} {h : Requests A}
    {op : Op A} {pid : ℕ} {s s' : State ω} {i : Input ι} {r : (calls A).Ret op} {caller : Caller}
    (hE : Expected C j h op) (hk : Known h s.db) (hr : respond B pid s op i = some (r, s'))
    (hj : j.caller = some caller) (hheld : s'.db.heldBy org ≠ s.db.heldBy org) :
    Admitted C h caller org := by
  have hcase : GuardOp op ∨ ∃ org', Admitted C h caller org' ∧ OpOf org' h op := by
    cases j with
    | request caller' operation => cases hj; exact hE
    | touch authorization => cases hj; exact hE
    | _ => cases hj
  rcases hcase with hguard | ⟨org', hadmitted, hop⟩
  · rw [respond_guard hguard hr] at hheld
    exact absurd rfl hheld
  · by_cases horg : org = org'
    · exact horg ▸ hadmitted
    · exact absurd (respond_frame hop hk hr horg) hheld

theorem objects_isolated (C : Config A) (B : Backend A ω ι η)
    (W : Workload (effects A) Error κ) : ObjectIsolation C B W where
  confined s hs p hp op k hprog i r state hr caller hj org hheld := by
    have hobeys := ((hs.tracked (workload_obeys C W)).prog p hp).2
    rw [hprog] at hobeys
    exact expected_confined hobeys.1 ((known_inv hs).mono (own_subset _ _)) hr hj hheld
  frame s hs o org pid is evs x s₁ hrun :=
    run_frame ((known_inv hs).mono (List.nil_subset _)) hrun
  agree s t hs ht o org pid is evs x s₁ halike hrun hfresh :=
    run_agree ((known_inv hs).mono (List.nil_subset _)) ((known_inv ht).mono (List.nil_subset _))
      halike hrun hfresh

end CryptoPay.Tenancy
