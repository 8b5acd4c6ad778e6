import CryptoPay.Blockchain.Oracle
import CryptoPay.Organizations.Ownership
import CryptoPay.Organizations.Updates
import CryptoPay.Tenancy.Services

/-!
# What the services record

The methods of `InvoicesService`, `WalletAddressesService`, `WebhookEndpointsService` and
`ApiKeysService` that write, and those of `OrganizationsService`. Each awaits its writes and
then the audit row, outside any transaction.

Results:
* `create_orderly`, `set_orderly`, `operation_orderly`: each method records what it writes.
* `journal`: what a query does to the tables, apart from the audit log.
* `audited_iff`: a method and its audit row take effect together exactly if nothing
  cuts the method short between them.
* `unaudited`: an organization without its audit row.
-/

namespace CryptoPay.Tenancy

open Async Data

open Api (RequestContext RecordAuditEventInput CreateInvoiceInput SetWalletAddressInput
  BlockchainMode)

variable {A : Signature} {ω ι η : Type}

/-! ## Writes and records -/

/-- The queries of the payment tables that write. -/
def paymentWrites : PrismaCall → Bool
  | .merchantWalletAddressUpsert _ => true
  | .blockchainScanCursorUpsert _ => true
  | .invoiceCreate _ => true
  | .transaction [.auditLogCreate _] => false
  | .transaction _ => true
  | _ => false

/-- The query that records: a single `auditLog.create`. -/
def paymentRecords : PrismaCall → Bool
  | .transaction [.auditLogCreate _] => true
  | _ => false

/-- The kinds of the payment requests. -/
def paymentKinds (A : Signature) : Kinds (effects A) where
  writes
    | .prisma call => paymentWrites call
    | _ => false
  records
    | .prisma call => paymentRecords call
    | _ => false
  failed
    | .prisma call, r => !Except.isOk (show Except Error call.Ret from r)
    | _, _ => false

/-- The queries of the other tables that write. -/
def objectWrites : ObjectCall → Bool
  | .webhookEndpointCreate _ => true
  | .webhookEndpointRevoke .. => true
  | .apiKeyCreate _ => true
  | .apiKeyUpdate .. => true
  | _ => false

/-- The kinds of all requests. -/
def kinds (A : Signature) : Kinds (calls A) where
  writes
    | .payments op => (paymentKinds A).writes op
    | .webhooks (.db _) => true
    | .webhooks _ => false
    | .db call => objectWrites call
    | .randomBytes _ => false
  records
    | .payments op => (paymentKinds A).records op
    | _ => false
  failed
    | .payments op, r => (paymentKinds A).failed op r
    | .webhooks (.db call), r => !Except.isOk (show Except PrismaErrorCode call.Ret from r)
    | .webhooks _, _ => false
    | .db call, r => !Except.isOk (show Except PrismaErrorCode call.Ret from r)
    | .randomBytes _, _ => false

theorem kinds_embeds : (paymentKinds A).Embeds (kinds A) (paymentCalls A) :=
  ⟨fun _ => rfl, fun _ => rfl, fun _ _ => rfl⟩

section Orderly

theorem not_isOk_iff {ε ε' α : Type} {f : ε → ε'} (r : Except ε α) :
    (!r.isOk) = true ↔ ∃ e, r.mapError f = .error e := by
  cases r with
  | error e => exact iff_of_true rfl ⟨_, rfl⟩
  | ok a =>
    refine iff_of_false Bool.false_ne_true ?_
    rintro ⟨e, he⟩
    cases he

theorem payment_failed_iff {call : PrismaCall} (r : Except Error call.Ret) :
    (paymentKinds A).failed (.prisma call) r = true ↔ ∃ e, id r = .error e := by
  cases r with
  | error e => exact iff_of_true rfl ⟨_, rfl⟩
  | ok a =>
    refine iff_of_false Bool.false_ne_true ?_
    rintro ⟨e, he⟩
    cases he

/-- `WalletAddressesService.set`. -/
theorem set_orderly (adapter : BlockchainAdapter A) (organizationId userId : String)
    (input : SetWalletAddressInput) (ctx : RequestContext) :
    (paymentKinds A).Orderly (Api.set adapter organizationId userId input ctx) := by
  unfold Api.set
  refine .after_reads (.ofExcept _) fun adapter => ?_
  split_ifs
  · trivial
  · refine .after_reads (.perform ⟨rfl, rfl⟩) fun id => ?_
    refine .after_reads (.perform ⟨rfl, rfl⟩) fun createdAt => ?_
    exact .write rfl rfl payment_failed_iff fun wallet => .record rfl payment_failed_iff

/-- `getDepositAddress` may have written when it returns. -/
theorem getDepositAddress_orderly {α : Type} (mode : BlockchainMode)
    (organizationId network token : String) {f : String → CryptoPay.Action A α}
    (hf : ∀ address, (paymentKinds A).Orderly (f address))
    (howing : ∀ address, (paymentKinds A).Owing (f address)) :
    (paymentKinds A).Orderly (Api.getDepositAddress mode organizationId network token >>= f) := by
  unfold Api.getDepositAddress
  rw [Prog.bind_assoc]
  refine .after_reads (.request ⟨rfl, rfl⟩) fun existing => ?_
  cases existing with
  | some wallet => exact hf _
  | none =>
    cases mode with
    | evm => trivial
    | fake =>
      show (paymentKinds A).Orderly (_ >>= f)
      simp only [Prog.bind_assoc]
      refine .after_reads (.perform ⟨rfl, rfl⟩) fun address => ?_
      refine .after_reads (.perform ⟨rfl, rfl⟩) fun id => ?_
      refine .after_reads (.perform ⟨rfl, rfl⟩) fun createdAt => ?_
      exact .write rfl rfl payment_failed_iff fun _ => howing address

/-- `InvoicesService.create`, when no earlier invoice has the external id. -/
theorem createFresh_orderly (mode : BlockchainMode) (organizationId apiKeyId : String)
    (input : CreateInvoiceInput) (ctx : RequestContext) :
    (paymentKinds A).Orderly (Api.createFresh mode organizationId apiKeyId input ctx) := by
  unfold Api.createFresh
  refine .after_reads (.ofExcept _) fun _ => ?_
  refine getDepositAddress_orderly mode organizationId _ _ (fun address => ?_) fun address => ?_
  · refine .after_reads (.perform ⟨rfl, rfl⟩) fun id => ?_
    refine .after_reads (.perform ⟨rfl, rfl⟩) fun now => ?_
    exact .write rfl rfl payment_failed_iff fun invoice => .record rfl payment_failed_iff
  · refine .perform rfl (fun _ => rfl) fun id => ?_
    refine .perform rfl (fun _ => rfl) fun now => ?_
    exact .request rfl payment_failed_iff fun invoice => .record rfl payment_failed_iff

/-- `InvoicesService.create`. -/
theorem create_orderly (mode : BlockchainMode) (organizationId apiKeyId : String)
    (input : CreateInvoiceInput) (ctx : RequestContext) :
    (paymentKinds A).Orderly (Api.create mode organizationId apiKeyId input ctx) := by
  unfold Api.create
  cases input.externalId with
  | none => exact createFresh_orderly mode organizationId apiKeyId input ctx
  | some externalId =>
    refine .after_reads (.request ⟨rfl, rfl⟩) fun existing => ?_
    cases existing with
    | some invoice => exact .of_reads (.ofExcept _)
    | none => exact createFresh_orderly mode organizationId apiKeyId input ctx

/-! ## The operations -/

theorem ofPayments_orderly {α : Type} {p : CryptoPay.Action A α} (h : (paymentKinds A).Orderly p) :
    (kinds A).Orderly (ofPayments p) :=
  (h.embed kinds_embeds).rethrow

theorem ofPayments_reads {α : Type} {p : CryptoPay.Action A α}
    (h : p.Only (paymentKinds A).Reads) : (ofPayments p).Only (kinds A).Reads := by
  refine Prog.Only.rethrow ((Prog.Only.embed h).imp ?_)
  rintro op ⟨o, rfl, hreads⟩
  exact hreads

theorem failed_iff {call : ObjectCall} (r : Except PrismaErrorCode call.Ret) :
    (kinds A).failed (.db call) r = true ↔
      ∃ e, r.mapError (fun code => Thrown.app (.prisma code)) = .error e :=
  not_isOk_iff r

/-- A record is the end of a method. -/
theorem record_owing {α : Type} (input : RecordAuditEventInput) (a : α) :
    (kinds A).Owing (record input >>= fun _ => (.ret a : Action A α)) := by
  intro r
  cases r with
  | error e => exact ⟨_, rfl⟩
  | ok u => exact ⟨_, rfl⟩

theorem record_owing_unit (input : RecordAuditEventInput) :
    (kinds A).Owing (record input : Action A Unit) := by
  intro r
  cases r with
  | error e => exact ⟨_, rfl⟩
  | ok u => exact ⟨_, rfl⟩

variable (C : Config A)

theorem createEndpoint_orderly (organizationId : String) (actor : Actor) (rawUrl : String)
    (ctx : RequestContext) :
    (kinds A).Orderly (WebhookEndpoints.create C organizationId actor rawUrl ctx) := by
  unfold WebhookEndpoints.create
  refine .after_reads ?_ fun _ => ?_
  · refine Prog.Only.rethrow ((Prog.Only.embed (Webhooks.assertSafeWebhookUrl_only _ _)).imp ?_)
    rintro op ⟨o, rfl, hlooks⟩
    cases o with
    | lookup hostname => exact ⟨rfl, rfl⟩
    | db call => cases hlooks
    | now => cases hlooks
    | random => cases hlooks
    | generateId stem => cases hlooks
    | fetch id request => cases hlooks
    | mark m => cases hlooks
  · refine .after_reads (Prog.Only.bind (.perform ⟨rfl, rfl⟩) fun _ => trivial) fun secret => ?_
    refine .after_reads (ofPayments_reads (.perform ⟨rfl, rfl⟩)) fun id => ?_
    refine .after_reads (Prog.Only.bind (.perform ⟨rfl, rfl⟩) fun _ => .ofExcept _) fun secretEnc => ?_
    exact .write rfl rfl failed_iff fun endpoint => record_owing _ _

theorem revokeEndpoint_orderly (organizationId endpointId : String) (actor : Actor)
    (ctx : RequestContext) :
    (kinds A).Orderly (WebhookEndpoints.revoke organizationId endpointId actor ctx : Action A Unit) := by
  unfold WebhookEndpoints.revoke
  refine .after_reads (.request ⟨rfl, rfl⟩) fun endpoint => ?_
  cases endpoint with
  | none => trivial
  | some endpoint =>
    refine .after_reads (ofPayments_reads (.perform ⟨rfl, rfl⟩)) fun now => ?_
    exact .write rfl rfl failed_iff fun _ => record_owing_unit _

theorem createApiKey_orderly (organizationId : String) (input : CreateApiKeyInput)
    (actorId : String) (ctx : RequestContext) :
    (kinds A).Orderly (ApiKeys.create C organizationId input actorId ctx) := by
  unfold ApiKeys.create
  refine .after_reads (Prog.Only.bind (.perform ⟨rfl, rfl⟩) fun _ => trivial) fun generated => ?_
  refine .after_reads (ofPayments_reads (.perform ⟨rfl, rfl⟩)) fun id => ?_
  exact .write rfl rfl failed_iff fun apiKey => record_owing _ _

theorem revokeApiKey_orderly (organizationId apiKeyId actorId : String) (ctx : RequestContext) :
    (kinds A).Orderly (ApiKeys.revoke organizationId apiKeyId actorId ctx : Action A Unit) := by
  unfold ApiKeys.revoke
  refine .after_reads (.request ⟨rfl, rfl⟩) fun apiKey => ?_
  cases apiKey with
  | none => trivial
  | some apiKey =>
    refine .after_reads (ofPayments_reads (.perform ⟨rfl, rfl⟩)) fun now => ?_
    exact .write rfl rfl failed_iff fun _ => record_owing_unit _

/-- Each method records what it writes. -/
theorem operation_orderly (organizationId : String) (o : Operation) :
    (kinds A).Orderly (o.run C organizationId) := by
  cases o with
  | createInvoice apiKeyId input ctx => exact ofPayments_orderly (create_orderly _ _ _ _ _)
  | getInvoice invoiceId =>
    refine .after_reads (ofPayments_reads (.request ⟨rfl, rfl⟩)) fun invoice => ?_
    cases invoice <;> trivial
  | listInvoices page limit =>
    refine .after_reads (.request ⟨rfl, rfl⟩) fun data => ?_
    exact .after_reads (.request ⟨rfl, rfl⟩) fun total => trivial
  | listWalletAddresses => exact .of_reads (.request ⟨rfl, rfl⟩)
  | setWalletAddress userId input ctx => exact ofPayments_orderly (set_orderly _ _ _ _ _)
  | createEndpoint actor rawUrl ctx => exact createEndpoint_orderly C organizationId actor rawUrl ctx
  | listEndpoints => exact .of_reads (.request ⟨rfl, rfl⟩)
  | revokeEndpoint endpointId actor ctx => exact revokeEndpoint_orderly organizationId endpointId actor ctx
  | listDeliveries endpointId limit =>
    refine .after_reads (.request ⟨rfl, rfl⟩) fun endpoint => ?_
    cases endpoint with
    | none => trivial
    | some endpoint => exact .of_reads (.request ⟨rfl, rfl⟩)
  | createApiKey input actorId ctx => exact createApiKey_orderly C organizationId input actorId ctx
  | listApiKeys => exact .of_reads (.request ⟨rfl, rfl⟩)
  | revokeApiKey apiKeyId actorId ctx => exact revokeApiKey_orderly organizationId apiKeyId actorId ctx

end Orderly

/-! ## What takes effect -/

/-- The payment tables apart from the audit log. -/
def unloggedPayments (db : Db) : Db := { db with auditLogs := [] }

/-- The tables apart from the audit log. -/
def Database.unlogged (db : Database) : Database :=
  { db with payments := unloggedPayments db.payments }

section Exec

variable {now : Time} {db : Db}

/-- The only transaction that does not count as a write is the record. -/
theorem records_of_not_writes {ws : List Write} (h : paymentWrites (.transaction ws) = false) :
    ∃ row, ws = [.auditLogCreate row] := by
  cases ws with
  | nil => cases h
  | cons w ws =>
    cases ws with
    | cons w' ws => cases w <;> cases h
    | nil =>
      cases w with
      | auditLogCreate row => exact ⟨row, rfl⟩
      | invoiceCreate data => cases h
      | invoiceUpdate id data => cases h
      | paymentCreate data => cases h
      | paymentUpdate id data => cases h
      | webhookEventCreate data => cases h
      | blockchainScanCursorUpdate network block => cases h
      | merchantWalletAddressCreate row => cases h

/-- A query that does not write, or fails. -/
theorem prismaExec_unlogged {call : PrismaCall}
    (h : paymentWrites call = false ∨ (call.exec now db).1.isOk = false) :
    unloggedPayments (call.exec now db).2 = unloggedPayments db := by
  cases call with
  | invoiceFindMany filter => rfl
  | invoiceFindUnique id => rfl
  | invoiceFindFirst id organizationId => rfl
  | invoiceFindByExternalId organizationId externalId => rfl
  | paymentFindMany status => rfl
  | paymentFindByTxHash network txHash => rfl
  | merchantWalletAddressFindUnique organizationId network token => rfl
  | merchantWalletAddressUpsert row => exact h.elim (fun h => by cases h) fun h => by cases h
  | blockchainScanCursorUpsert network => exact h.elim (fun h => by cases h) fun h => by cases h
  | invoiceCreate data =>
    have hfailed := h.resolve_left (Bool.false_ne_true ·.symm)
    simp only [PrismaCall.exec] at hfailed ⊢
    split at hfailed
    · cases hfailed
    · rfl
  | transaction writes =>
    simp only [PrismaCall.exec] at h ⊢
    split at h
    · rename_i db' hdb
      obtain ⟨row, rfl⟩ := records_of_not_writes (h.resolve_right (Bool.false_ne_true ·.symm))
      obtain ⟨db₁, h₁, h₂⟩ := transaction_cons hdb
      rw [transaction_nil h₂, ← Except.ok.inj h₁]
      rfl
    · rfl

theorem objectExec_unlogged {db : Database} {call : ObjectCall}
    (h : objectWrites call = false ∨ (call.exec now db).1.isOk = false) :
    (call.exec now db).2 = db := by
  cases call with
  | invoiceFindPage organizationId skip take => rfl
  | invoiceCount organizationId => rfl
  | merchantWalletAddressFindMany organizationId => rfl
  | webhookEndpointFindMany organizationId => rfl
  | webhookEndpointFindFirst id organizationId => rfl
  | webhookDeliveryFindMany endpointId take => rfl
  | apiKeyFindMany organizationId => rfl
  | apiKeyFindFirst id organizationId => rfl
  | apiKeyFindUnique keyHash => rfl
  | membershipFindMany userId => rfl
  | webhookEndpointCreate data =>
    have hfailed := h.resolve_left (Bool.false_ne_true ·.symm)
    simp only [ObjectCall.exec] at hfailed ⊢
    split at hfailed
    · cases hfailed
    · rfl
  | webhookEndpointRevoke id revokedAt =>
    have hfailed := h.resolve_left (Bool.false_ne_true ·.symm)
    simp only [ObjectCall.exec] at hfailed ⊢
    split at hfailed
    · cases hfailed
    · rfl
  | apiKeyCreate data =>
    have hfailed := h.resolve_left (Bool.false_ne_true ·.symm)
    simp only [ObjectCall.exec] at hfailed ⊢
    split at hfailed
    · cases hfailed
    · rfl
  | apiKeyUpdate id data =>
    have hfailed := h.resolve_left (Bool.false_ne_true ·.symm)
    simp only [ObjectCall.exec] at hfailed ⊢
    split at hfailed
    · cases hfailed
    · rfl

theorem webhookExec_error {db : Webhooks.WebhookDb} {call : Webhooks.WebhookCall}
    (h : (call.exec now db).1.isOk = false) : (call.exec now db).2 = db := by
  cases call with
  | eventFindMany take => rfl
  | deliveryFindMany lte take => rfl
  | deliveryCreate data =>
    simp only [Webhooks.WebhookCall.exec] at h ⊢
    split_ifs at h ⊢
    · split at h
      · cases h
      · rfl
    · rfl
  | deliveryUpdate id data =>
    simp only [Webhooks.WebhookCall.exec] at h ⊢
    split at h
    · cases h
    · rfl

end Exec

/-- The request reaches the database, and its query succeeds. -/
def commits (s : State ω) : Op A → Input ι → Bool
  | .payments (.prisma call), .payments .ok => (call.exec s.clock s.db.payments).1.isOk
  | .webhooks (.db call), .webhooks .ok => (call.exec s.clock s.db.webhooks).1.isOk
  | .webhooks (.db call), .webhooks .lostReply => (call.exec s.clock s.db.webhooks).1.isOk
  | .db call, .ok => (call.exec s.clock s.db).1.isOk
  | .db call, .lostReply => (call.exec s.clock s.db).1.isOk
  | _, _ => false

section Respond

variable {B : Backend A ω ι η} {pid : ℕ} {s s' : State ω} {i : Input ι}

/-- A payment request that does not write, or does not take effect. -/
theorem payments_unlogged {op : CryptoPay.Op A} {i : CryptoPay.Input ι} {w : World ω}
    {r : (effects A).Ret op} (h : CryptoPay.respond B pid s.payments op i = some (r, w))
    (hop : (paymentKinds A).writes op = false ∨
      commits s (.payments op : Op A) (.payments i : Input ι) = false) :
    unloggedPayments w.db = unloggedPayments s.db.payments := by
  cases op with
  | prisma call =>
    cases i with
    | ok =>
      cases h
      exact prismaExec_unlogged hop
    | connectionError => cases h; rfl
    | id suffix => cases h
    | other i => cases h
  | now => cases i <;> cases h; rfl
  | generateId stem => cases i <;> cases h; rfl
  | generateFakeAddress => cases i <;> cases h; rfl
  | cuid => cases i <;> cases h; rfl
  | mark m => cases i <;> cases h; rfl
  | other op =>
    cases i with
    | other i =>
      obtain ⟨⟨r', other⟩, -, heq⟩ := Option.map_eq_some_iff.mp h
      cases heq
      rfl
    | ok => cases h
    | connectionError => cases h
    | id suffix => cases h

/-- The webhook requests leave the tables unless they write and take effect. -/
theorem webhooks_unlogged {op : Webhooks.Op} {i : Webhooks.Input} {w : Webhooks.World}
    {r : Webhooks.calls.Ret op} (h : Webhooks.respond ⟨s.db.webhooks, s.clock⟩ op i = some (r, w))
    (hop : (kinds A).writes (.webhooks op) = false ∨
      commits s (.webhooks op : Op A) (.webhooks i : Input ι) = false) :
    w.db = s.db.webhooks := by
  cases op with
  | db call =>
    have hcommits := hop.resolve_left (Bool.false_ne_true ·.symm)
    cases i with
    | ok =>
      cases h
      exact webhookExec_error hcommits
    | connectionError => cases h; rfl
    | lostReply =>
      cases h
      exact webhookExec_error hcommits
    | id suffix => cases h
    | random r => cases h
    | addresses reply => cases h
    | response reply => cases h
  | now => cases i <;> cases h; rfl
  | generateId stem => cases i <;> cases h; rfl
  | lookup hostname => cases i <;> cases h; rfl
  | fetch id request => cases i <;> cases h; rfl
  | mark m => cases i <;> cases h; rfl
  | random =>
    cases i with
    | random x =>
      have h' : (if 0 ≤ x ∧ x < 1 then some (x, (⟨s.db.webhooks, s.clock⟩ : Webhooks.World)) else none) =
        some (r, w) := h
      split_ifs at h'
      cases h'
      rfl
    | ok => cases h
    | connectionError => cases h
    | lostReply => cases h
    | id suffix => cases h
    | addresses reply => cases h
    | response reply => cases h

theorem respond_unlogged {op : Op A} {r : (calls A).Ret op}
    (h : respond B pid s op i = some (r, s')) (hop : (kinds A).writes op = false ∨ commits s op i = false) :
    s'.db.unlogged = s.db.unlogged := by
  cases op with
  | payments op =>
    cases i with
    | payments i =>
      obtain ⟨⟨r', w⟩, hrespond, heq⟩ := Option.map_eq_some_iff.mp h
      obtain ⟨rfl, rfl⟩ := Prod.mk.inj heq
      have hpayments := payments_unlogged hrespond hop
      show ({ s.db with payments := unloggedPayments w.db } : Database) = _
      rw [hpayments]
      rfl
    | webhooks i => cases h
    | ok => cases h
    | connectionError => cases h
    | lostReply => cases h
    | bytes bytes => cases h
  | webhooks op =>
    cases i with
    | webhooks i =>
      obtain ⟨⟨r', w⟩, hrespond, heq⟩ := Option.map_eq_some_iff.mp h
      obtain ⟨rfl, rfl⟩ := Prod.mk.inj heq
      have hdb := webhooks_unlogged hrespond hop
      show (s.db.setWebhooks w.db).unlogged = _
      rw [hdb]
      rfl
    | payments i => cases h
    | ok => cases h
    | connectionError => cases h
    | lostReply => cases h
    | bytes bytes => cases h
  | db call =>
    cases i with
    | ok =>
      cases h
      exact congrArg Database.unlogged (objectExec_unlogged hop)
    | connectionError =>
      cases h
      rfl
    | lostReply =>
      cases h
      exact congrArg Database.unlogged (objectExec_unlogged hop)
    | payments i => cases h
    | webhooks i => cases h
    | bytes bytes => cases h
  | randomBytes size =>
    cases i with
    | bytes bytes =>
      cases h
      rfl
    | payments i => cases h
    | webhooks i => cases h
    | ok => cases h
    | connectionError => cases h
    | lostReply => cases h

theorem isOk_of_not {ε α : Type} {r : Except ε α} (h : (!r.isOk) = false) : r.isOk = true := by
  simpa using h

theorem respond_commits {op : Op A} {r : (calls A).Ret op}
    (h : respond B pid s op i = some (r, s')) (hfailed : (kinds A).failed op r = false)
    (hop : (kinds A).writes op = true ∨ (kinds A).records op = true) : commits s op i = true := by
  cases op with
  | payments op =>
    cases op with
    | prisma call =>
      cases i with
      | payments i =>
        cases i with
        | ok =>
          cases h
          exact isOk_of_not hfailed
        | connectionError =>
          cases h
          cases hfailed
        | id suffix => cases h
        | other i => cases h
      | webhooks i => cases h
      | ok => cases h
      | connectionError => cases h
      | lostReply => cases h
      | bytes bytes => cases h
    | now => exact hop.elim (fun h => by cases h) fun h => by cases h
    | generateId stem => exact hop.elim (fun h => by cases h) fun h => by cases h
    | generateFakeAddress => exact hop.elim (fun h => by cases h) fun h => by cases h
    | cuid => exact hop.elim (fun h => by cases h) fun h => by cases h
    | mark m => exact hop.elim (fun h => by cases h) fun h => by cases h
    | other op => exact hop.elim (fun h => by cases h) fun h => by cases h
  | webhooks op =>
    cases op with
    | db call =>
      cases i with
      | webhooks i =>
        cases i with
        | ok =>
          cases h
          exact isOk_of_not hfailed
        | connectionError =>
          cases h
          cases hfailed
        | lostReply =>
          cases h
          cases hfailed
        | id suffix => cases h
        | random r => cases h
        | addresses reply => cases h
        | response reply => cases h
      | payments i => cases h
      | ok => cases h
      | connectionError => cases h
      | lostReply => cases h
      | bytes bytes => cases h
    | now => exact hop.elim (fun h => by cases h) fun h => by cases h
    | random => exact hop.elim (fun h => by cases h) fun h => by cases h
    | generateId stem => exact hop.elim (fun h => by cases h) fun h => by cases h
    | lookup hostname => exact hop.elim (fun h => by cases h) fun h => by cases h
    | fetch id request => exact hop.elim (fun h => by cases h) fun h => by cases h
    | mark m => exact hop.elim (fun h => by cases h) fun h => by cases h
  | db call =>
    cases i with
    | ok =>
      cases h
      exact isOk_of_not hfailed
    | connectionError =>
      cases h
      cases hfailed
    | lostReply =>
      cases h
      cases hfailed
    | payments i => cases h
    | webhooks i => cases h
    | bytes bytes => cases h
  | randomBytes size => exact hop.elim (fun h => by cases h) fun h => by cases h

end Respond

theorem kinds_apart {op : Op A} (h : (kinds A).records op = true) : (kinds A).writes op = false := by
  cases op with
  | webhooks op => cases h
  | db call => cases h
  | randomBytes size => cases h
  | payments op =>
    cases op with
    | prisma call =>
      cases call with
      | transaction ws =>
        by_contra hwrites
        rw [Bool.not_eq_false] at hwrites
        have hrecords : ∃ row, ws = [.auditLogCreate row] := by
          have h' : paymentRecords (.transaction ws) = true := h
          unfold paymentRecords at h'
          split at h'
          case h_1 row heq => exact ⟨row, PrismaCall.transaction.inj heq⟩
          case h_2 => cases h'
        obtain ⟨row, rfl⟩ := hrecords
        cases hwrites
      | invoiceFindMany filter => cases h
      | invoiceFindUnique id => cases h
      | invoiceFindFirst id organizationId => cases h
      | invoiceFindByExternalId organizationId externalId => cases h
      | paymentFindMany status => cases h
      | paymentFindByTxHash network txHash => cases h
      | merchantWalletAddressFindUnique organizationId network token => cases h
      | merchantWalletAddressUpsert row => cases h
      | blockchainScanCursorUpsert network => cases h
      | invoiceCreate data => cases h
    | now => cases h
    | generateId stem => cases h
    | generateFakeAddress => cases h
    | cuid => cases h
    | mark m => cases h
    | other op => cases h

/-- The writes and the records of the services. -/
def journal (B : Backend A ω ι η) : Journal (machine B) Database where
  toKinds := kinds A
  data s := s.db.unlogged
  commits := commits
  keeps := respond_unlogged
  answered := respond_commits
  apart := kinds_apart

/-- The reply to a payment query may be lost too. -/
def lostReply : (op : Op A) → Option ((calls A).Ret op)
  | .payments (.prisma _) => some (.error (.prisma .connection))
  | _ => none

theorem lostReply_failed {op : Op A} {r : (calls A).Ret op} (h : lostReply op = some r) :
    (kinds A).failed op r = true := by
  cases op with
  | payments op =>
    cases op with
    | prisma call => cases h; rfl
    | now => cases h
    | generateId stem => cases h
    | generateFakeAddress => cases h
    | cuid => cases h
    | mark m => cases h
    | other op => cases h
  | webhooks op => cases h
  | db call => cases h
  | randomBytes size => cases h

/-- The same when replies may be lost. -/
def lossyJournal (B : Backend A ω ι η) : Journal ((machine B).lossy lostReply) Database :=
  (journal B).lossy lostReply lostReply_failed

/-- Whatever fails, and wherever the process stops: a method's writes and its audit row take effect
    together, and an error leaves the tables as they were, if and only if from the first write
    that takes effect on no query fails, no reply is lost and the process does not stop before
    the audit row is stored (and the reply to that one is not lost, unless the writes have
    changed nothing). -/
theorem audited_iff {A : Signature} {ω ι η : Type} (C : Config A) (B : Backend A ω ι η)
    (lower : String → String) :
    (∀ (organizationId : String) (o : Operation) pid s st x s',
      Course ((machine B).lossy lostReply) (lossyJournal B).data pid (o.run C organizationId) s st
        x s' →
      ((lossyJournal B).Together st x s s' ↔
        (lossyJournal B).Unbroken ((lossyJournal B).data s) st)) ∧
    ∀ (m : Organizations.Method) pid s st x s',
      Course Organizations.adminMachine Organizations.adminJournal.data pid (m.run lower) s st
        x s' →
      (Organizations.adminJournal.Together st x s s' ↔
        Organizations.adminJournal.Unbroken (Organizations.adminJournal.data s) st) := by
  constructor
  · intro organizationId o pid s st x s' h
    exact Journal.together_iff (operation_orderly C organizationId o) h
  · intro m pid s st x s' h
    exact Journal.together_iff (Organizations.admin_orderly lower m) h

/-! ## Two calls -/

/-- Nothing is stored. -/
def nothingStored : State Unit := ⟨⟨.empty, .empty, .empty, .empty, .empty⟩, 0, ()⟩

/-- Every address is valid; the other functions are not called below. -/
def sampleConfig : Config adapterCalls where
  mode := .evm
  adapter := oracle fun _ => true
  cipher := { Webhooks.samplePlatform with
    toBase64 := fun _ => ""
    fromUtf8 := fun _ => []
    encipher := fun _ _ _ => ([], []) }
  href rawUrl := rawUrl
  toBase64Url _ := ""
  ENCRYPTION_KEY := ""
  API_KEY_PEPPER := ""

/-- A merchant sets its wallet address. -/
def setOnBase : Operation :=
  .setWalletAddress "usr_1" ⟨"base", "USDT", "0xab"⟩ Organizations.localhost

/-- `cuid()`, `Date.now()`, the upsert and the audit row. -/
def setInputs : List (Input Answer × Bool) :=
  [.payments (.id "1"), .payments .ok, .payments .ok, .payments .ok].map fun i => (i, false)

/-- Ann creates an organization. -/
def createAcme : Organizations.Method := .create "usr_1" "Acme" Organizations.localhost

theorem ok_of_isOk {ε α : Type} {x : Option (Except ε α)} (h : x.map Except.isOk = some true) :
    ∃ a, x = some (.ok a) := by
  cases x with
  | none => cases h
  | some r =>
    cases r with
    | error e => cases h
    | ok a => exact ⟨a, rfl⟩

/-- Both calls return, with one row and one audit row. -/
theorem audited_samples :
    (∃ st x s', Course ((machine anyAnswer).lossy lostReply) (lossyJournal anyAnswer).data 0
        (setOnBase.run sampleConfig "org_1") nothingStored st x s' ∧
      (lossyJournal anyAnswer).Together st x nothingStored s' ∧
      s'.db.payments.merchantWalletAddresses.rows.length = 1 ∧
      s'.db.payments.auditLogs.length = 1) ∧
    ∃ st x s', Course Organizations.adminMachine Organizations.adminJournal.data 0
        (createAcme.run toLowerAscii) Organizations.twoUsers st x s' ∧
      Organizations.adminJournal.Together st x Organizations.twoUsers s' ∧
      s'.db.organizations.rows.length = 1 ∧ s'.db.auditLogs.length = 1 := by
  have hset : ((setOnBase.run sampleConfig "org_1").supplied ((machine anyAnswer).lossy lostReply) 0
      nothingStored setInputs).map (fun z => (z.2.1.map Except.isOk,
        z.2.2.db.payments.merchantWalletAddresses.rows.length,
        z.2.2.db.payments.auditLogs.length)) = some (some true, 1, 1) := by
    decide
  have hcreate : ((createAcme.run toLowerAscii).supplied Organizations.adminMachine 0
      Organizations.twoUsers [.text "", .text "org_1", .text ""]).map (fun z =>
        (z.2.1.map Except.isOk, z.2.2.db.organizations.rows.length, z.2.2.db.auditLogs.length)) =
      some (some true, 1, 1) := by
    decide +kernel
  obtain ⟨hoperations, hmethods⟩ := audited_iff sampleConfig anyAnswer toLowerAscii
  constructor
  · obtain ⟨⟨st, x, s'⟩, hrun, hends⟩ := Option.map_eq_some_iff.mp hset
    obtain ⟨hok, hends⟩ := Prod.mk.inj hends
    obtain ⟨hwallets, hlogs⟩ := Prod.mk.inj hends
    obtain ⟨a, rfl⟩ := ok_of_isOk hok
    have hcourse := Course.of_supplied (lossyJournal anyAnswer).data hrun
    refine ⟨st, _, s', hcourse, ?_, hwallets, hlogs⟩
    exact (hoperations "org_1" setOnBase 0 _ st _ s' hcourse).mpr
      (Journal.unbroken_of_ok (operation_orderly _ _ _) hcourse rfl _)
  · obtain ⟨⟨st, x, s'⟩, hrun, hends⟩ := Option.map_eq_some_iff.mp hcreate
    obtain ⟨hok, hends⟩ := Prod.mk.inj hends
    obtain ⟨horganizations, hlogs⟩ := Prod.mk.inj hends
    obtain ⟨a, rfl⟩ := ok_of_isOk hok
    have hcourse := Course.of_supplied Organizations.adminJournal.data hrun
    refine ⟨st, _, s', hcourse, ?_, horganizations, hlogs⟩
    exact (hmethods createAcme 0 _ st _ s' hcourse).mpr
      (Journal.unbroken_of_ok (Organizations.admin_orderly _ _) hcourse rfl _)

/-- The process stops before `audit.record`: the organization exists, and no row says so. -/
theorem unaudited : ∃ st s', Course Organizations.adminMachine Organizations.adminJournal.data 0
      (createAcme.run toLowerAscii) Organizations.twoUsers st none s' ∧
    ¬ Organizations.adminJournal.Together st (none : Option (Except Error createAcme.Ret))
      Organizations.twoUsers s' ∧
    s'.db.organizations.rows.length = 1 ∧ s'.db.auditLogs.length = 0 := by
  have hrun : ((createAcme.run toLowerAscii).supplied Organizations.adminMachine 0
      Organizations.twoUsers [.text "", .text "org_1"]).map (fun z =>
        (z.2.1.isNone, z.1.map fun d => (Organizations.adminKinds.writes d.op &&
            Organizations.adminCommits d.before d.op d.input, Organizations.adminKinds.records d.op),
          z.2.2.db.organizations.rows.length, z.2.2.db.auditLogs.length)) =
      some (true, [(false, false), (true, false)], 1, 0) := by
    decide +kernel
  obtain ⟨⟨st, x, s'⟩, hrun, hends⟩ := Option.map_eq_some_iff.mp hrun
  obtain ⟨hx, hends⟩ := Prod.mk.inj hends
  obtain ⟨hst, hends⟩ := Prod.mk.inj hends
  obtain ⟨horganizations, hlogs⟩ := Prod.mk.inj hends
  obtain rfl := Option.isNone_iff_eq_none.mp hx
  refine ⟨st, s', .of_supplied _ hrun, fun htogether => ?_, horganizations, hlogs⟩
  have hwrote : (true, false) ∈ st.map fun d => (Organizations.adminKinds.writes d.op &&
      Organizations.adminCommits d.before d.op d.input, Organizations.adminKinds.records d.op) := by
    rw [hst]
    exact .tail _ (.head _)
  obtain ⟨d, hd, hflags⟩ := List.mem_map.mp hwrote
  obtain ⟨d', hd', hrecorded⟩ := htogether.1.mp
    ⟨d, hd, Bool.and_eq_true_iff.mp (Prod.mk.inj hflags).1⟩
  have hnone : ∀ b ∈ st.map fun d => (Organizations.adminKinds.writes d.op &&
      Organizations.adminCommits d.before d.op d.input, Organizations.adminKinds.records d.op),
      b.2 = false := by
    rw [hst]
    decide
  have hrecords := hnone _ (List.mem_map_of_mem hd')
  exact Bool.false_ne_true (hrecords.symm.trans hrecorded.1)

end CryptoPay.Tenancy
