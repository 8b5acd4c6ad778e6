import CryptoPay.Tenancy.Requests

/-!
# What each operation writes

`Operation.Makes` names, for every write of the tables, the operations that may
ask for it. A method of a service writes its own kind of row and one row of the
audit log; `getDepositAddress` stores the address that it generates in fake mode.

Results:
* `run_makes`: an operation asks for nothing else.
* `workload_creates_of`: what is true of the requests that create a key or an
  endpoint need only be shown of the two methods that create them.
-/

namespace CryptoPay.Tenancy

open Async

open Api (RequestContext RecordAuditEventInput CreateInvoiceInput SetWalletAddressInput
  BlockchainMode)

variable {A : Signature} {ω ι η κ : Type} {C : Config A} {org : String}

/-- The operation may ask for this; anything but a write is free. -/
def Operation.Makes (o : Operation) : Op A → Prop
  | .db (.webhookEndpointCreate _) => ∃ actor rawUrl ctx, o = .createEndpoint actor rawUrl ctx
  | .db (.webhookEndpointRevoke ..) => ∃ id actor ctx, o = .revokeEndpoint id actor ctx
  | .db (.apiKeyCreate _) => ∃ input actorId ctx, o = .createApiKey input actorId ctx
  | .db (.apiKeyUpdate ..) => ∃ id actorId ctx, o = .revokeApiKey id actorId ctx
  | .payments (.prisma (.invoiceCreate _)) =>
    ∃ apiKeyId input ctx, o = .createInvoice apiKeyId input ctx
  | .payments (.prisma (.merchantWalletAddressUpsert _)) =>
    ∃ userId input ctx, o = .setWalletAddress userId input ctx
  | .payments (.prisma (.transaction ws)) =>
    (∃ row, ws = [.auditLogCreate row]) ∨
      (∃ row, ws = [.merchantWalletAddressCreate row]) ∧
        ∃ apiKeyId input ctx, o = .createInvoice apiKeyId input ctx
  | .payments (.prisma (.blockchainScanCursorUpsert _)) => False
  | .payments (.mark _) => False
  | .payments (.other _) => False
  | .webhooks op => op.Looks
  | _ => True

/-! ## The payment services -/

section Payments

variable {o : Operation} {α : Type}

/-- A request of the payment services that the operation may make. -/
def Operation.MakesPayment (o : Operation) (op : CryptoPay.Op A) : Prop := o.Makes (.payments op)

theorem ofPayments_makes {p : CryptoPay.Action A α} (hp : p.Only o.MakesPayment) :
    (ofPayments p).Only o.Makes := by
  refine .rethrow (Prog.Only.imp ?_ hp.embed)
  rintro _ ⟨op, rfl, hop⟩
  exact hop

theorem record_makesPayment (input : RecordAuditEventInput) :
    (Api.record input : CryptoPay.Action A Unit).Only o.MakesPayment :=
  .request (.inl ⟨_, rfl⟩)

theorem record_makes (input : RecordAuditEventInput) :
    (record input : Action A Unit).Only o.Makes := ofPayments_makes (record_makesPayment input)

theorem create_makesPayment (mode : BlockchainMode) (apiKeyId : String)
    (input : CreateInvoiceInput) (ctx : RequestContext) :
    (Api.create mode org apiKeyId input ctx : CryptoPay.Action A _).Only
      (Operation.createInvoice apiKeyId input ctx).MakesPayment := by
  have haddress : (Api.getDepositAddress mode org input.network input.token :
      CryptoPay.Action A String).Only (Operation.createInvoice apiKeyId input ctx).MakesPayment := by
    refine .bind (.request (by trivial)) fun existing => ?_
    split
    · trivial
    · refine .bind (.perform (by trivial)) fun address => .bind (.perform (by trivial)) fun id => ?_
      refine .bind (.perform (by trivial)) fun createdAt => .bind ?_ fun _ => trivial
      exact .request (.inr ⟨⟨_, rfl⟩, _, _, _, rfl⟩)
    · trivial
  have hfresh : (Api.createFresh mode org apiKeyId input ctx : CryptoPay.Action A _).Only
      (Operation.createInvoice apiKeyId input ctx).MakesPayment := by
    refine .bind (.ofExcept _) fun _ => .bind haddress fun address => ?_
    refine .bind (.perform (by trivial)) fun id => .bind (.perform (by trivial)) fun now => ?_
    refine .bind (.request ⟨_, _, _, rfl⟩) fun invoice => ?_
    exact .bind (record_makesPayment _) fun _ => trivial
  unfold Api.create
  split
  · exact hfresh
  · refine .bind (.request (by trivial)) fun existing => ?_
    split
    · exact .ofExcept _
    · exact hfresh

theorem set_makesPayment (adapter : BlockchainAdapter A) (userId : String)
    (input : SetWalletAddressInput) (ctx : RequestContext) :
    (Api.set adapter org userId input ctx).Only
      (Operation.setWalletAddress userId input ctx).MakesPayment := by
  refine .bind (.ofExcept _) fun adapter => ?_
  split_ifs
  · trivial
  · refine .bind (.perform (by trivial)) fun id => .bind (.perform (by trivial)) fun now => ?_
    refine .bind (.request ⟨_, _, _, rfl⟩) fun wallet => ?_
    exact .bind (record_makesPayment _) fun _ => trivial

end Payments

/-! ## The operations -/

section Run

variable {o : Operation} {α : Type}

theorem ofWebhooks_makes {p : Webhooks.Action α} (hp : p.Only Webhooks.Op.Looks) :
    (ofWebhooks p : Action A α).Only o.Makes := by
  refine .rethrow (Prog.Only.imp ?_ hp.embed)
  rintro _ ⟨op, rfl, hop⟩
  exact hop

theorem prisma_makes {call : ObjectCall} (h : o.Makes (A := A) (.db call)) :
    (prisma call : Action A call.Ret).Only o.Makes := .request h

theorem dateNow_makes : (dateNow : Action A Time).Only o.Makes :=
  ofPayments_makes (.perform (by trivial))

theorem createEndpoint_makes (actor : Actor) (rawUrl : String) (ctx : RequestContext) :
    (WebhookEndpoints.create C org actor rawUrl ctx).Only
      (Operation.createEndpoint actor rawUrl ctx).Makes := by
  have hbytes : ∀ size, (randomBytes size : Action A (List UInt8)).Only
      (Operation.createEndpoint actor rawUrl ctx).Makes := fun size => .perform trivial
  refine .bind (ofWebhooks_makes (Webhooks.assertSafeWebhookUrl_only _ _)) fun _ => ?_
  refine .bind (.bind (hbytes 24) fun _ => trivial) fun secret => ?_
  refine .bind (ofPayments_makes (.perform (by trivial))) fun id => ?_
  refine .bind (.bind (hbytes 12) fun iv => .ofExcept _) fun secretEnc => ?_
  exact .bind (prisma_makes ⟨_, _, _, rfl⟩) fun endpoint => .bind (record_makes _) fun _ => trivial

theorem revokeEndpoint_makes (id : String) (actor : Actor) (ctx : RequestContext) :
    (WebhookEndpoints.revoke org id actor ctx : Action A Unit).Only
      (Operation.revokeEndpoint id actor ctx).Makes := by
  refine .bind (prisma_makes trivial) fun found => ?_
  cases found with
  | none => trivial
  | some endpoint =>
    exact .bind dateNow_makes fun now => .bind (prisma_makes ⟨_, _, _, rfl⟩) fun _ => record_makes _

theorem createApiKey_makes (input : CreateApiKeyInput) (actorId : String) (ctx : RequestContext) :
    (ApiKeys.create C org input actorId ctx).Only
      (Operation.createApiKey input actorId ctx).Makes := by
  have hbytes : (randomBytes 24 : Action A (List UInt8)).Only
      (Operation.createApiKey input actorId ctx).Makes := .perform trivial
  refine .bind (.bind hbytes fun _ => trivial) fun generated => ?_
  refine .bind (ofPayments_makes (.perform (by trivial))) fun id => ?_
  exact .bind (prisma_makes ⟨_, _, _, rfl⟩) fun apiKey => .bind (record_makes _) fun _ => trivial

theorem revokeApiKey_makes (id actorId : String) (ctx : RequestContext) :
    (ApiKeys.revoke org id actorId ctx : Action A Unit).Only
      (Operation.revokeApiKey id actorId ctx).Makes := by
  refine .bind (prisma_makes trivial) fun found => ?_
  cases found with
  | none => trivial
  | some apiKey =>
    exact .bind dateNow_makes fun now => .bind (prisma_makes ⟨_, _, _, rfl⟩) fun _ => record_makes _

/-- An operation asks for its own writes only. -/
theorem run_makes (o : Operation) : (o.run C org).Only o.Makes := by
  cases o with
  | createInvoice apiKeyId input ctx => exact ofPayments_makes (create_makesPayment _ _ _ _)
  | getInvoice invoiceId =>
    refine .bind (ofPayments_makes (.request (by trivial))) fun found => ?_
    cases found <;> trivial
  | listInvoices page limit =>
    exact .bind (prisma_makes trivial) fun _ => .bind (prisma_makes trivial) fun _ => trivial
  | listWalletAddresses => exact prisma_makes trivial
  | setWalletAddress userId input ctx => exact ofPayments_makes (set_makesPayment _ _ _ _)
  | createEndpoint actor rawUrl ctx => exact createEndpoint_makes actor rawUrl ctx
  | listEndpoints => exact prisma_makes trivial
  | revokeEndpoint endpointId actor ctx => exact revokeEndpoint_makes endpointId actor ctx
  | listDeliveries endpointId limit =>
    refine .bind (prisma_makes trivial) fun found => ?_
    cases found with
    | none => trivial
    | some endpoint => exact prisma_makes trivial
  | createApiKey input actorId ctx => exact createApiKey_makes input actorId ctx
  | listApiKeys => exact prisma_makes trivial
  | revokeApiKey apiKeyId actorId ctx => exact revokeApiKey_makes apiKeyId actorId ctx

end Run

/-! ## Creations -/

/-- The request creates a key or an endpoint. -/
def Op.Creates : Op A → Prop
  | .db (.apiKeyCreate _) => True
  | .db (.webhookEndpointCreate _) => True
  | _ => False

theorem ofPayments_payments {α : Type} (p : CryptoPay.Action A α) :
    (ofPayments p).Only fun op : Op A => ∃ o, op = .payments o := by
  refine .rethrow (Prog.Only.imp ?_ (Prog.only_any p).embed)
  rintro _ ⟨o, rfl, -⟩
  exact ⟨o, rfl⟩

theorem ofWebhooks_webhooks {α : Type} (p : Webhooks.Action α) :
    (ofWebhooks p : Action A α).Only fun op : Op A => ∃ o, op = .webhooks o := by
  refine .rethrow (Prog.Only.imp ?_ (Prog.only_any p).embed)
  rintro _ ⟨o, rfl, -⟩
  exact ⟨o, rfl⟩

theorem apiKeyAuth_guards (authorization : Option String) :
    (apiKeyAuth C authorization).Only GuardOp := by
  refine .bind (.ofExcept _) fun raw => .bind (.request trivial) fun found => ?_
  cases found with
  | none => trivial
  | some k =>
    refine .bind (.rethrow (Prog.Only.imp ?_ (Prog.Only.embed (f := paymentCalls A)
      (Prog.Only.perform (F := fun op => op = CryptoPay.Op.now) rfl)))) fun now => ?_
    · rintro _ ⟨op, rfl, rfl⟩
      trivial
    · split_ifs <;> trivial

theorem GuardOp.not_creates {op : Op A} (hop : GuardOp op) : ¬ op.Creates := by
  cases op with
  | db call => cases call <;> first | exact hop.elim | exact not_false
  | _ => exact not_false

/-- Only the two methods that create a key or an endpoint make such a request. -/
theorem Operation.Makes.creates {o : Operation} {op : Op A} (hop : o.Makes op)
    (hcreates : op.Creates) : (∃ input actorId ctx, o = .createApiKey input actorId ctx) ∨
      ∃ actor rawUrl ctx, o = .createEndpoint actor rawUrl ctx := by
  cases op with
  | db call =>
    cases call with
    | apiKeyCreate d => exact .inl hop
    | webhookEndpointCreate d => exact .inr hop
    | _ => exact hcreates.elim
  | _ => exact hcreates.elim

/-- What is true of all requests that create nothing is true of every job, if it is true of the two
    methods that create something. -/
theorem workload_creates_of (W : Workload (effects A) Error κ) {E : Requests A → Op A → Prop}
    (hE : ∀ h op, ¬ op.Creates → E h op)
    (hkey : ∀ caller org h pid input actorId ctx, Admitted C h caller org →
      (ApiKeys.create C org input actorId ctx).Obeys E pid (fun _ _ => True) (fun _ _ => True) h)
    (hendpoint : ∀ caller org h pid actor rawUrl ctx, Admitted C h caller org →
      (WebhookEndpoints.create C org actor rawUrl ctx).Obeys E pid (fun _ _ => True)
        (fun _ _ => True) h) :
    (workload C W).Obeys fun _ => E := by
  have hquiet : ∀ {α : Type} {p : Action A α} {h pid}, p.Only (fun op : Op A => ¬ op.Creates) →
      p.Obeys E pid (fun _ _ => True) (fun _ _ => True) h := fun hp =>
    .only (I := fun _ => True) hp (fun op h hop _ => hE h op hop) (fun _ _ _ _ _ => trivial) trivial
  intro j pid
  cases j with
  | request caller operation =>
    have hrun : ∀ org h, Admitted C h caller org → (operation.run C org).Obeys E pid
        (fun _ _ => True) (fun _ _ => True) h := by
      intro org h ha
      by_cases hcreates : (∃ input actorId ctx, operation = .createApiKey input actorId ctx) ∨
          ∃ actor rawUrl ctx, operation = .createEndpoint actor rawUrl ctx
      · rcases hcreates with ⟨input, actorId, ctx, rfl⟩ | ⟨actor, rawUrl, ctx, rfl⟩
        · exact hkey caller org h pid input actorId ctx ha
        · exact hendpoint caller org h pid actor rawUrl ctx ha
      · have hnone : ∀ op : Op A, operation.Makes op → ¬ op.Creates := fun op hop hc =>
          hcreates (hop.creates hc)
        exact hquiet (Prog.Only.imp hnone (run_makes operation))
    refine Prog.obeys_bind.mpr ((guard_obeys (fun h op hop => hE h op hop.not_creates) caller).post
      (fun org h ha => ?_) fun _ _ _ => trivial)
    exact Prog.obeys_bind.mpr ((hrun org h ha).post (fun _ _ _ => trivial) fun _ _ _ => trivial)
  | touch authorization =>
    refine hquiet (.bind ((apiKeyAuth_guards authorization).imp fun op => GuardOp.not_creates)
      fun apiKey => .bind ((ofPayments_payments _).imp ?_) fun now =>
        .bind (.attempt (.request not_false)) fun _ => trivial)
    rintro _ ⟨o, rfl⟩
    exact not_false
  | payments job =>
    refine hquiet ((ofPayments_payments _).imp ?_)
    rintro _ ⟨o, rfl⟩
    exact not_false
  | webhooks queue =>
    refine hquiet ((ofWebhooks_webhooks _).imp ?_)
    rintro _ ⟨o, rfl⟩
    exact not_false

end CryptoPay.Tenancy
