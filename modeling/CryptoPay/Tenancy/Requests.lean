import CryptoPay.Tenancy.Holdings
import CryptoPay.Webhooks.Expected

/-!
# What a request asks for

After its guard has admitted a request for an organization, every call that it
makes is of that organization: it names it, or it names by id a row that was
found in it.

Results:
* `run_obeys`: every operation makes calls of its organization only.
* `workload_obeys`: the same of whole requests, with what their guards have read.
-/

namespace CryptoPay.Tenancy

open Async Data

open Api (RequestContext RecordAuditEventInput CreateInvoiceInput SetWalletAddressInput
  BlockchainMode)

open Organizations (Scope)

variable {A : Signature} {ω ι η κ : Type} {org : String}

/-! ## Expected requests -/

/-- A lookup in the organization has found this endpoint. -/
def FoundEndpoint (h : Requests A) (org id : String) : Prop :=
  ∃ pid id' p, ⟨pid, .db (.webhookEndpointFindFirst id' org), .ok (some p)⟩ ∈ h ∧
    (id = id' ∨ id = Webhooks.WebhookEndpoint.id p)

/-- A lookup in the organization, or the guard, has found this API key. -/
def FoundApiKey (h : Requests A) (org id : String) : Prop :=
  (∃ pid id' k, ⟨pid, .db (.apiKeyFindFirst id' org), .ok (some k)⟩ ∈ h ∧ id = ApiKey.id k) ∨
    ∃ pid keyHash k, ⟨pid, .db (.apiKeyFindUnique keyHash), .ok (some k)⟩ ∈ h ∧
      id = ApiKey.id k ∧ ApiKey.organizationId k = org

/-- A request of the payment services for the organization. -/
def PaymentOpOf (org : String) : CryptoPay.Op A → Prop
  | .prisma call => PaymentCallOf org call
  | .mark _ => False
  | .other _ => False
  | _ => True

/-- A request for the organization, after the requests `h`. -/
def OpOf (org : String) (h : Requests A) : Op A → Prop
  | .payments op => PaymentOpOf org op
  | .webhooks op => op.Looks
  | .db call => ObjectCallOf org (FoundEndpoint h org) (FoundApiKey h org) call
  | .randomBytes _ => True

/-- What the guards ask for. -/
def GuardOp : Op A → Prop
  | .db (.apiKeyFindUnique _) => True
  | .db (.membershipFindMany _) => True
  | .payments .now => True
  | _ => False

/-- The guard has read what admits the caller for the organization. -/
def Admitted (C : Config A) (h : Requests A) : Caller → String → Prop
  | .apiKey authorization, org => ∃ raw pid k now, bearerKey authorization = .ok raw ∧
      ⟨pid, .db (.apiKeyFindUnique (hashApiKey C raw)), .ok (some k)⟩ ∈ h ∧
      ⟨pid, .payments .now, now⟩ ∈ h ∧ ApiKey.ended k now = false ∧ ApiKey.organizationId k = org
  | .user userId headerOrgId, org => ∃ pid rows scope, userId.getD "" ≠ "" ∧
      ⟨pid, .db (.membershipFindMany (userId.getD "")), .ok rows⟩ ∈ h ∧
      Organizations.scopeOf headerOrgId rows = .ok scope ∧ Scope.organizationId scope = org

/-- The requests of the webhook queues. -/
def webhookPart (h : Requests A) : Webhooks.Requests :=
  h.filterMap fun
    | ⟨pid, .webhooks op, r⟩ => some ⟨pid, op, r⟩
    | _ => none

/-- Who has sent the request that the job handles. -/
def Job.caller : Job κ → Option Caller
  | .request caller _ => some caller
  | .touch authorization => some (.apiKey authorization)
  | _ => none

/-- What a job may ask for after what it has asked for. -/
def Expected (C : Config A) (j : Job κ) (h : Requests A) (op : Op A) : Prop :=
  match j with
  | .request caller _ => GuardOp op ∨ ∃ org, Admitted C h caller org ∧ OpOf org h op
  | .touch authorization =>
    GuardOp op ∨ ∃ org, Admitted C h (.apiKey authorization) org ∧ OpOf org h op
  | .payments _ => ∃ o, op = .payments o
  | .webhooks queue => ∃ o, op = .webhooks o ∧ Webhooks.Expected queue (webhookPart h) o

theorem FoundEndpoint.mono {h h' : Requests A} (hs : h ⊆ h') {id : String}
    (hf : FoundEndpoint h org id) : FoundEndpoint h' org id := by
  obtain ⟨pid, id', p, hmem, hid⟩ := hf
  exact ⟨pid, id', p, hs hmem, hid⟩

theorem FoundApiKey.mono {h h' : Requests A} (hs : h ⊆ h') {id : String}
    (hf : FoundApiKey h org id) : FoundApiKey h' org id := by
  rcases hf with ⟨pid, id', k, hmem, hid⟩ | ⟨pid, keyHash, k, hmem, hid⟩
  · exact .inl ⟨pid, id', k, hs hmem, hid⟩
  · exact .inr ⟨pid, keyHash, k, hs hmem, hid⟩

theorem Admitted.mono {C : Config A} {h h' : Requests A} (hs : h ⊆ h') {caller : Caller}
    (ha : Admitted C h caller org) : Admitted C h' caller org := by
  cases caller with
  | apiKey authorization =>
    obtain ⟨raw, pid, k, now, hraw, hfind, hnow, hrest⟩ := ha
    exact ⟨raw, pid, k, now, hraw, hs hfind, hs hnow, hrest⟩
  | user userId headerOrgId =>
    obtain ⟨pid, rows, scope, hne, hrows, hrest⟩ := ha
    exact ⟨pid, rows, scope, hne, hs hrows, hrest⟩

/-! ## The payment services -/

section Only

theorem record_only {input : RecordAuditEventInput} (h : input.organizationId = some org) :
    (Api.record input : CryptoPay.Action A Unit).Only (PaymentOpOf org) :=
  .request ⟨_, rfl, h⟩

theorem set_only (adapter : BlockchainAdapter A) (userId : String) (input : SetWalletAddressInput)
    (ctx : RequestContext) : (Api.set adapter org userId input ctx).Only (PaymentOpOf org) := by
  refine .bind (.ofExcept _) fun adapter => ?_
  split_ifs
  · trivial
  · refine .bind (.perform trivial) fun id => .bind (.perform trivial) fun createdAt => ?_
    exact .bind (.request rfl) fun wallet => .bind (record_only rfl) fun _ => trivial

theorem getDepositAddress_only (mode : BlockchainMode) (network token : String) :
    (Api.getDepositAddress mode org network token : CryptoPay.Action A String).Only
      (PaymentOpOf org) := by
  refine .bind (.request rfl) fun existing => ?_
  split
  · trivial
  · refine .bind (.perform trivial) fun address => .bind (.perform trivial) fun id => ?_
    refine .bind (.perform trivial) fun createdAt => .bind ?_ fun _ => trivial
    exact .request ⟨_, rfl, rfl⟩
  · trivial

theorem create_only (mode : BlockchainMode) (apiKeyId : String) (input : CreateInvoiceInput)
    (ctx : RequestContext) :
    (Api.create mode org apiKeyId input ctx : CryptoPay.Action A Invoice).Only
      (PaymentOpOf org) := by
  have hfresh : (Api.createFresh mode org apiKeyId input ctx : CryptoPay.Action A Invoice).Only
      (PaymentOpOf org) := by
    refine .bind (.ofExcept _) fun _ => .bind (getDepositAddress_only _ _ _) fun address => ?_
    refine .bind (.perform trivial) fun id => .bind (.perform trivial) fun now => ?_
    exact .bind (.request rfl) fun invoice => .bind (record_only rfl) fun _ => trivial
  unfold Api.create
  split
  · exact hfresh
  · refine .bind (.request rfl) fun existing => ?_
    split
    · exact .ofExcept _
    · exact hfresh

end Only

/-! ## The operations -/

section Obeys

variable {C : Config A} {pid : ℕ} {h : Requests A} {α : Type}

/-- A query that is expected. -/
theorem prisma_obeys {E : Requests A → Op A → Prop} {call : ObjectCall}
    {Q : call.Ret → Requests A → Prop} (hE : E h (.db call))
    (hQ : ∀ r : call.Ret, Q r (⟨pid, .db call, .ok r⟩ :: h)) :
    (prisma call : Action A call.Ret).Obeys E pid Q (fun _ _ => True) h := by
  refine Prog.obeys_request.mpr ⟨hE, fun r => ⟨fun a ha => ?_, fun _ _ => trivial⟩⟩
  cases r with
  | ok r =>
    obtain rfl : r = a := Except.ok.inj ha
    exact hQ r
  | error code => cases ha

theorem dateNow_obeys {E : Requests A → Op A → Prop} {Q : Time → Requests A → Prop}
    (hE : E h (.payments .now)) (hQ : ∀ now : Time, Q now (⟨pid, .payments .now, now⟩ :: h)) :
    (dateNow : Action A Time).Obeys E pid Q (fun _ _ => True) h := ⟨hE, hQ⟩

theorem ofPayments_obeys {p : CryptoPay.Action A α} (hp : p.Only (PaymentOpOf org)) :
    (ofPayments p).Obeys (OpOf org) pid (fun _ _ => True) (fun _ _ => True) h := by
  refine .rethrow (.only (I := fun _ => True) hp.embed ?_ (fun _ _ _ _ _ => trivial) trivial)
  rintro _ h ⟨op, rfl, hop⟩ -
  exact hop

theorem ofWebhooks_obeys {p : Webhooks.Action α} (hp : p.Only Webhooks.Op.Looks) :
    (ofWebhooks p : Action A α).Obeys (OpOf org) pid (fun _ _ => True) (fun _ _ => True) h := by
  refine .rethrow (.only (I := fun _ => True) hp.embed ?_ (fun _ _ _ _ _ => trivial) trivial)
  rintro _ h ⟨op, rfl, hop⟩ -
  exact hop

/-- The audit log is the last thing that an operation writes. -/
theorem record_obeys {input : RecordAuditEventInput} (hi : input.organizationId = some org) :
    (record input : Action A Unit).Obeys (OpOf org) pid (fun _ _ => True) (fun _ _ => True) h :=
  ofPayments_obeys (record_only hi)

theorem getById_obeys (invoiceId : String) :
    (Invoices.getById org invoiceId : Action A Invoice).Obeys (OpOf org) pid (fun _ _ => True)
      (fun _ _ => True) h := by
  have hfind : (CryptoPay.prisma (.invoiceFindFirst invoiceId org) :
      CryptoPay.Action A (Option Invoice)).Only (PaymentOpOf org) := .request rfl
  refine Prog.obeys_bind.mpr ((ofPayments_obeys hfind).post (fun r _ _ => ?_) fun _ _ _ => trivial)
  cases r <;> trivial

theorem list_obeys (page limit : ℕ) :
    (Invoices.list org page limit : Action A _).Obeys (OpOf org) pid (fun _ _ => True)
      (fun _ _ => True) h :=
  Prog.obeys_bind.mpr (prisma_obeys rfl fun _ => Prog.obeys_bind.mpr (prisma_obeys rfl fun _ =>
    trivial))

theorem createEndpoint_obeys (actor : Actor) (rawUrl : String) (ctx : RequestContext) :
    (WebhookEndpoints.create C org actor rawUrl ctx).Obeys (OpOf org) pid (fun _ _ => True)
      (fun _ _ => True) h := by
  refine Prog.obeys_bind.mpr ((ofWebhooks_obeys (Webhooks.assertSafeWebhookUrl_only _ _)).post
    (fun _ _ _ => ?_) fun _ _ _ => trivial)
  refine ⟨trivial, fun bytes => ⟨trivial, fun id => ⟨trivial, fun iv => ?_⟩⟩⟩
  refine Prog.obeys_bind.mpr (Prog.obeys_ofExcept.mpr ⟨fun secretEnc _ => ?_, fun _ _ => trivial⟩)
  refine Prog.obeys_bind.mpr (prisma_obeys rfl fun endpoint => ?_)
  exact Prog.obeys_bind.mpr ((record_obeys rfl).post (fun _ _ _ => trivial) fun _ _ _ => trivial)

theorem revokeEndpoint_obeys (endpointId : String) (actor : Actor) (ctx : RequestContext) :
    (WebhookEndpoints.revoke org endpointId actor ctx : Action A Unit).Obeys (OpOf org) pid
      (fun _ _ => True) (fun _ _ => True) h := by
  refine Prog.obeys_bind.mpr (prisma_obeys rfl fun r => ?_)
  cases r with
  | none => trivial
  | some endpoint =>
    refine Prog.obeys_bind.mpr (dateNow_obeys trivial fun now => ?_)
    refine Prog.obeys_bind.mpr (prisma_obeys ?_ fun _ => record_obeys rfl)
    exact ⟨pid, endpointId, endpoint, List.mem_cons_of_mem _ List.mem_cons_self, .inr rfl⟩

theorem listDeliveries_obeys (endpointId : String) (limit : ℕ) :
    (WebhookEndpoints.listDeliveries org endpointId limit : Action A _).Obeys (OpOf org) pid
      (fun _ _ => True) (fun _ _ => True) h := by
  refine Prog.obeys_bind.mpr (prisma_obeys rfl fun r => ?_)
  cases r with
  | none => trivial
  | some endpoint =>
    exact prisma_obeys ⟨pid, endpointId, endpoint, List.mem_cons_self, .inl rfl⟩ fun _ => trivial

theorem createApiKey_obeys (input : CreateApiKeyInput) (actorId : String) (ctx : RequestContext) :
    (ApiKeys.create C org input actorId ctx).Obeys (OpOf org) pid (fun _ _ => True)
      (fun _ _ => True) h := by
  refine ⟨trivial, fun bytes => ⟨trivial, fun (id : String) => ?_⟩⟩
  show Prog.Obeys _ _ _ _ (prisma _ >>= _) _
  refine Prog.obeys_bind.mpr (prisma_obeys rfl fun apiKey => ?_)
  exact Prog.obeys_bind.mpr ((record_obeys rfl).post (fun _ _ _ => trivial) fun _ _ _ => trivial)

theorem revokeApiKey_obeys (apiKeyId actorId : String) (ctx : RequestContext) :
    (ApiKeys.revoke org apiKeyId actorId ctx : Action A Unit).Obeys (OpOf org) pid
      (fun _ _ => True) (fun _ _ => True) h := by
  refine Prog.obeys_bind.mpr (prisma_obeys rfl fun r => ?_)
  cases r with
  | none => trivial
  | some apiKey =>
    refine Prog.obeys_bind.mpr (dateNow_obeys trivial fun now => ?_)
    refine Prog.obeys_bind.mpr (prisma_obeys ?_ fun _ => record_obeys rfl)
    exact .inl ⟨pid, apiKeyId, apiKey, List.mem_cons_of_mem _ List.mem_cons_self, rfl⟩

/-- Every operation makes calls of its organization only. -/
theorem run_obeys (o : Operation) :
    (o.run C org).Obeys (OpOf org) pid (fun _ _ => True) (fun _ _ => True) h := by
  cases o with
  | createInvoice apiKeyId input ctx => exact ofPayments_obeys (create_only _ _ _ _)
  | getInvoice invoiceId => exact getById_obeys invoiceId
  | listInvoices page limit => exact list_obeys page limit
  | listWalletAddresses => exact prisma_obeys rfl fun _ => trivial
  | setWalletAddress userId input ctx => exact ofPayments_obeys (set_only _ _ _ _)
  | createEndpoint actor rawUrl ctx => exact createEndpoint_obeys actor rawUrl ctx
  | listEndpoints => exact prisma_obeys rfl fun _ => trivial
  | revokeEndpoint endpointId actor ctx => exact revokeEndpoint_obeys endpointId actor ctx
  | listDeliveries endpointId limit => exact listDeliveries_obeys endpointId limit
  | createApiKey input actorId ctx => exact createApiKey_obeys input actorId ctx
  | listApiKeys => exact prisma_obeys rfl fun _ => trivial
  | revokeApiKey apiKeyId actorId ctx => exact revokeApiKey_obeys apiKeyId actorId ctx

/-! ## Whole requests -/

/-- The guard of the public API reads the key that it admits. -/
theorem apiKeyAuth_obeys {E : Requests A → Op A → Prop} (hE : ∀ h op, GuardOp op → E h op)
    (authorization : Option String) :
    (apiKeyAuth C authorization).Obeys E pid (fun k h => Admitted C h (.apiKey authorization)
      (ApiKey.organizationId k) ∧ FoundApiKey h (ApiKey.organizationId k) (ApiKey.id k))
      (fun _ _ => True) h := by
  refine Prog.obeys_bind.mpr (Prog.obeys_ofExcept.mpr ⟨fun raw hraw => ?_, fun _ _ => trivial⟩)
  have hraw : bearerKey authorization = .ok raw := ok_of_mapError hraw
  refine Prog.obeys_bind.mpr (prisma_obeys (hE _ _ (by trivial)) fun r => ?_)
  cases r with
  | none => trivial
  | some k =>
    refine Prog.obeys_bind.mpr (dateNow_obeys (hE _ _ (by trivial)) fun now => ?_)
    have hfind : (⟨pid, .db (.apiKeyFindUnique (hashApiKey C raw)), .ok (some k)⟩ : Event (calls A)) ∈
        ⟨pid, .payments .now, now⟩ ::
          ⟨pid, .db (.apiKeyFindUnique (hashApiKey C raw)), .ok (some k)⟩ :: h :=
      List.mem_cons_of_mem _ List.mem_cons_self
    by_cases hended : ApiKey.ended k now = true
    · rw [if_pos hended]
      trivial
    · rw [if_neg hended]
      have hlive : ApiKey.ended k now = false := Bool.eq_false_iff.mpr hended
      exact ⟨⟨raw, pid, k, now, hraw, hfind, List.mem_cons_self, hlive, rfl⟩,
        .inr ⟨pid, _, k, hfind, rfl, rfl⟩⟩

theorem organizationScope_obeys {E : Requests A → Op A → Prop} (hE : ∀ h op, GuardOp op → E h op)
    (userId headerOrgId : Option String) :
    (organizationScope userId headerOrgId : Action A Scope).Obeys E pid
      (fun scope h => Admitted C h (.user userId headerOrgId) scope.organizationId)
      (fun _ _ => True) h := by
  unfold organizationScope
  split_ifs with hempty
  · trivial
  · refine Prog.obeys_bind.mpr (prisma_obeys (hE _ _ (by trivial)) fun rows => ?_)
    refine Prog.obeys_ofExcept.mpr ⟨fun scope hscope => ?_, fun _ _ => trivial⟩
    exact ⟨pid, rows, scope, hempty, List.mem_cons_self, ok_of_mapError hscope, rfl⟩

theorem guard_obeys {E : Requests A → Op A → Prop} (hE : ∀ h op, GuardOp op → E h op)
    (caller : Caller) :
    (guard C caller).Obeys E pid (fun org h => Admitted C h caller org) (fun _ _ => True) h := by
  cases caller with
  | apiKey authorization =>
    exact Prog.obeys_bind.mpr ((apiKeyAuth_obeys hE authorization).post (fun _ _ ha => ha.1)
      fun _ _ _ => trivial)
  | user userId headerOrgId =>
    exact Prog.obeys_bind.mpr (organizationScope_obeys (C := C) hE userId headerOrgId)

/-- The queues see their own requests only. -/
theorem webhooks_obeys (queue : Webhooks.QueueName) {P : Webhooks.Platform} {key : String} :
    (ofWebhooks (Webhooks.launch P key queue) : Action A Unit).Obeys
      (Expected (κ := κ) C (.webhooks queue)) pid (fun _ _ => True) (fun _ _ => True) [] := by
  have h := Webhooks.workload_obeys P key queue pid
  refine .rethrow ((Prog.Obeys.embed (f := webhookCalls A) webhookPart ?_ ?_ h).post
    (fun _ _ _ => trivial) fun _ _ _ => trivial)
  · exact fun o r h => rfl
  · exact fun o h ho => ⟨o, rfl, ho⟩

/-- Every job asks for what is expected of it. -/
theorem workload_obeys (C : Config A) (W : Workload (effects A) Error κ) :
    (workload C W).Obeys (Expected C) := by
  intro j pid
  cases j with
  | request caller operation =>
    refine Prog.obeys_bind.mpr ((guard_obeys (fun _ _ => .inl) caller).post (fun org h ha => ?_)
      fun _ _ _ => trivial)
    refine Prog.obeys_bind.mpr (((run_obeys operation).imp fun h' op hs hop => ?_).post
      (fun _ _ _ => trivial) fun _ _ _ => trivial)
    exact .inr ⟨org, ha.mono hs.subset, hop⟩
  | touch authorization =>
    refine Prog.obeys_bind.mpr ((apiKeyAuth_obeys (fun _ _ => .inl) authorization).post
      (fun k h ⟨ha, hfound⟩ => ?_) fun _ _ _ => trivial)
    refine Prog.obeys_bind.mpr (dateNow_obeys (.inl trivial) fun now => ?_)
    have hs : h <:+ ⟨pid, .payments .now, now⟩ :: h := List.suffix_cons _ _
    refine Prog.obeys_bind.mpr (Prog.obeys_attempt.mpr (prisma_obeys ?_ fun _ => trivial))
    exact .inr ⟨_, ha.mono hs.subset, hfound.mono hs.subset⟩
  | payments job =>
    have hall : (W.launch job).Only fun _ => True := by
      induction W.launch job with
      | ret a => trivial
      | throw e => trivial
      | await op k ih => exact ⟨trivial, ih⟩
    refine .rethrow (.only (I := fun _ => True) hall.embed ?_ (fun _ _ _ _ _ => trivial) trivial)
    rintro _ h ⟨op, rfl, -⟩ -
    exact ⟨op, rfl⟩
  | webhooks queue => exact webhooks_obeys queue

end Obeys

end CryptoPay.Tenancy
