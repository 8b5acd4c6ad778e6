import CryptoPay.Async.Components
import CryptoPay.Tenancy.WebhookSecrets
import CryptoPay.Worker.Announcements

/-!
# What the merchants are told

The deployment on a node as a whole: requests behind their guards, any number of
scan and confirm passes, and any number of passes of the two webhook queues. The
payment tables are a component of it. Whatever the rest does, a scan or a confirm
pass may rely on what it could rely on alone.

Results:
* `deployed_sound`: the ledger of `Worker.announcements` holds in the deployment.
* `posts_tell_truth`: a posted event about a settlement tells how an amount that the
  chain had transferred to the invoice's address compares with its amount.
-/

namespace CryptoPay.Tenancy

open Async Data

open Api (RequestContext RecordAuditEventInput CreateInvoiceInput SetWalletAddressInput
  BlockchainMode)

open Webhooks (FetchRequest buildWebhookPayload)

variable {A : Signature} {ω ι η κ : Type}

/-! ## The payment tables as a component -/

/-- The request as one to the payment tables, if it is one. -/
def paymentEvent : Event (calls A) → Option (Event (effects A))
  | ⟨pid, .payments op, r⟩ => some ⟨pid, op, r⟩
  | _ => none

/-- A request that is not to the payment tables. -/
def Op.Aside : Op A → Prop
  | .payments _ => False
  | _ => True

theorem paymentEvent_aside {pid : ℕ} {op : Op A} (h : op.Aside) (r : (calls A).Ret op) :
    paymentEvent ⟨pid, op, r⟩ = none := by
  cases op with
  | payments op => exact h.elim
  | _ => rfl

theorem paymentEvent_eq_some {ev : Event (calls A)} {e : Event (effects A)}
    (h : paymentEvent ev = some e) : ev = ⟨e.pid, .payments e.op, e.ret⟩ := by
  obtain ⟨pid, op, r⟩ := ev
  cases op with
  | payments op =>
    cases h
    rfl
  | _ => cases h

theorem exec_payments (now : Time) (db : Database) (call : ObjectCall) :
    (call.exec now db).2.payments = db.payments := by
  cases call with
  | webhookEndpointCreate d => simp only [ObjectCall.exec]; split <;> rfl
  | webhookEndpointRevoke id revokedAt => simp only [ObjectCall.exec]; split <;> rfl
  | apiKeyCreate d => simp only [ObjectCall.exec]; split <;> rfl
  | apiKeyUpdate id d => simp only [ObjectCall.exec]; split <;> rfl
  | _ => rfl

/-- Other requests leave the payment tables as they are. -/
theorem respond_aside {B : Backend A ω ι η} {pid : ℕ} {s s' : State ω} {op : Op A} {i : Input ι}
    {r : (calls A).Ret op} (h : respond B pid s op i = some (r, s')) (hop : op.Aside) :
    s'.payments = s.payments := by
  cases op with
  | payments op => exact hop.elim
  | webhooks op =>
    cases i with
    | webhooks i =>
      obtain ⟨⟨r', w⟩, hw, heq⟩ := Option.map_eq_some_iff.mp h
      cases heq
      have hevents : w.db.webhookEvents = s.db.payments.webhookEvents := (webhooks_cases hw).1
      show (⟨{ s.db.payments with webhookEvents := w.db.webhookEvents }, s.clock, s.other⟩ :
        World ω) = _
      rw [hevents]
      rfl
    | _ => cases h
  | db call =>
    have hexec : (⟨(call.exec s.clock s.db).2.payments, s.clock, s.other⟩ : World ω) =
        s.payments := by
      rw [exec_payments]
      rfl
    cases i with
    | ok => cases h; exact hexec
    | connectionError => cases h; rfl
    | lostReply => cases h; exact hexec
    | _ => cases h
  | randomBytes size =>
    cases i <;> cases h
    rfl

theorem environment_payments {B : Backend A ω ι η} {s s' : State ω} {act : Act η}
    (h : environment B s act = some s') : s'.payments = s.payments ∨
      ∃ a, CryptoPay.environment B s.payments a = some s'.payments ∧
        (CryptoPay.machine B).restarts a = (machine B).restarts act := by
  cases act with
  | payments act =>
    obtain ⟨w, hw, rfl⟩ := Option.map_eq_some_iff.mp h
    exact .inr ⟨act, hw, rfl⟩
  | memberships rows => cases h; exact .inl rfl
  | _ =>
    simp only [environment] at h
    split_ifs at h
    cases h
    exact .inl rfl

/-- The payment programs run on a part of the whole. -/
def paymentTables (B : Backend A ω ι η) : Component (machine B) (CryptoPay.machine B) where
  hom := paymentCalls A
  part := State.payments
  event := paymentEvent
  event_op _ _ _ := rfl
  event_pid ev e h := congrArg Event.pid (paymentEvent_eq_some h).symm
  inside {pid s o i r s'} h := by
    cases i with
    | payments i =>
      obtain ⟨⟨r', w⟩, hw, heq⟩ := Option.map_eq_some_iff.mp h
      cases heq
      exact ⟨i, hw⟩
    | _ => cases h
  aside {pid s op i r s'} h hev := by
    refine respond_aside h ?_
    cases op with
    | payments op => cases hev
    | _ => trivial
  environment h := environment_payments h

/-! ## The deployment -/

/-- Replicas of either worker. -/
def replicated : Worker.Replicas := ⟨true, true⟩

/-- The payment programs of the deployment. -/
abbrev workers (D : Worker.Setup) : Workload (effects rpcCalls) Error Worker.Job :=
  Worker.workload replicated D.onNode

/-- What the jobs may do to the payment tables: a worker what it does, a request what
    the services may do, which is no pass of a worker. -/
def Acts : Job Worker.Job → Worker.Job → Prop
  | .payments job, k => k = job
  | .webhooks _, _ => False
  | _, k => k ≠ .scan ∧ k ≠ .confirm

variable {C : Config rpcCalls} {D : Worker.Setup} {j : Job Worker.Job} {pid : ℕ} {α β : Type}

/-- The ledger of the payment tables, in the deployment. -/
abbrev deployed (C : Config rpcCalls) (D : Worker.Setup) :
    Protocol (calls rpcCalls) Thrown (Job Worker.Job) (State Evm.Chain) (Input Evm.Reply)
      (Act Evm.Fork) :=
  Component.lift (K := (Worker.announcements replicated D).protocol) (paymentTables Evm.node)
    (workload C (workers D)) Acts

theorem together : Component.Together (Worker.announcements replicated D).protocol
    (workload C (workers D)) Acts := by
  intro j j' k k' _ _ _
  cases k <;> cases k' <;> rfl

/-- The program does to the payment tables what its job may do. -/
def Fits (C : Config rpcCalls) (D : Worker.Setup) (j : Job Worker.Job) (pid : ℕ)
    (p : Action rpcCalls α) : Prop :=
  (deployed C D).Valid j pid (fun _ => True) p (fun _ _ => True) fun _ _ => True

section Fits

theorem Fits.ret (a : α) : Fits C D j pid (.ret a) := Protocol.Valid.ret fun _ _ _ => trivial

theorem Fits.throw (e : Thrown) : Fits C D j pid (.throw e : Action rpcCalls α) :=
  Protocol.Valid.throw fun _ _ _ => trivial

theorem Fits.ofExcept (x : Except Thrown α) : Fits C D j pid (.ofExcept x) :=
  Protocol.Valid.ofExcept (fun _ _ _ _ _ => trivial) fun _ _ _ _ _ => trivial

theorem Fits.bind {p : Action rpcCalls α} {f : α → Action rpcCalls β} (hp : Fits C D j pid p)
    (hf : ∀ a, Fits C D j pid (f a)) : Fits C D j pid (p >>= f) := Protocol.Valid.bind hp hf

theorem Fits.attempt {p : Action rpcCalls α} (hp : Fits C D j pid p) : Fits C D j pid p.attempt :=
  Protocol.Valid.attempt hp

/-- A program without requests to the payment tables. -/
theorem Fits.aside {p : Action rpcCalls α} (hp : p.Only Op.Aside) : Fits C D j pid p := by
  refine Component.valid_only (P := fun _ => True) (fun _ _ _ _ _ => trivial) ?_
  exact hp.imp fun op hop r => paymentEvent_aside hop r

theorem Fits.prisma (call : ObjectCall) :
    Fits C D j pid (prisma call : Action rpcCalls call.Ret) := .aside (.request trivial)

theorem Fits.randomBytes (size : ℕ) :
    Fits C D j pid (randomBytes size : Action rpcCalls (List UInt8)) := .aside (.perform trivial)

theorem Fits.ofWebhooks (p : Webhooks.Action α) :
    Fits C D j pid (ofWebhooks p : Action rpcCalls α) := by
  refine .aside (.rethrow (Prog.Only.imp ?_ (p.only_any).embed))
  rintro _ ⟨op, rfl, -⟩
  trivial

/-- A program of the payment services that may run as a job for which the request stands. -/
theorem Fits.ofPayments {k : Worker.Job} (hk : Acts j k) {p : CryptoPay.Action rpcCalls α}
    {Q : α → History rpcCalls Evm.Chain → Prop} {E : Error → History rpcCalls Evm.Chain → Prop}
    (hp : (Worker.announcements replicated D).protocol.Valid k pid (fun _ => True) p Q E) :
    Fits C D j pid (ofPayments p) :=
  (Component.valid_embed (g := Thrown.app) together hk hp).post (fun _ _ _ _ => trivial)
    fun _ _ _ _ => trivial

theorem generateWebhookSecret_fits : Fits C D j pid (generateWebhookSecret C) :=
  (Fits.randomBytes 24).bind fun _ => .ret _

theorem encrypt_fits (plaintext : String) : Fits C D j pid (encrypt C plaintext) :=
  (Fits.randomBytes 12).bind fun _ => .ofExcept _

end Fits

/-! ## Requests -/

/-- The job is a request. -/
def Asks (j : Job Worker.Job) : Prop := ∀ k, k ≠ .scan → k ≠ .confirm → Acts j k

section Requests

variable (hj : Asks j)
include hj

theorem fits_quiet {p : CryptoPay.Action rpcCalls α}
    (hp : ∀ k, (Worker.announcements replicated D).protocol.Valid k pid (fun _ => True) p
      (fun _ _ => True) fun _ _ => True) : Fits C D j pid (ofPayments p) := by
  have hk : Acts j (.setWalletAddress "" "" ⟨"", "", ""⟩ ⟨"", none⟩) := hj _ nofun nofun
  exact .ofPayments hk (hp _)

theorem dateNow_fits : Fits C D j pid (dateNow : Action rpcCalls Time) :=
  fits_quiet hj fun _ => Ledger.Fact.dateNow .trivially

theorem record_fits (input : RecordAuditEventInput) :
    Fits C D j pid (record input : Action rpcCalls Unit) :=
  fits_quiet hj fun _ => Api.record_valid .trivially input fun _ _ _ _ => trivial

/-- Of the operations, only `createInvoice` writes to the payment tables. -/
theorem run_fits (org : String) (o : Operation) : Fits C D j pid (o.run C org) := by
  cases o with
  | createInvoice apiKeyId input ctx =>
    refine fits_quiet hj fun _ => ?_
    exact (Worker.announcements_create_valid C.mode org apiKeyId input ctx).post
      (fun _ _ _ _ => trivial) fun _ _ _ _ => trivial
  | getInvoice invoiceId =>
    refine Fits.bind (fits_quiet hj fun _ => ?_) fun found => ?_
    · exact Ledger.Fact.trivially.lookup (.invoiceFindFirst invoiceId org) _ (fun _ _ => rfl)
        (fun r => quiet_of_op (fun _ => nofun) fun _ => nofun) fun _ _ _ _ => trivial
    · cases found with
      | none => exact .throw _
      | some invoice => exact .ret _
  | listInvoices page limit =>
    exact (Fits.prisma _).bind fun _ => (Fits.prisma _).bind fun _ => .ret _
  | listWalletAddresses => exact Fits.prisma _
  | setWalletAddress userId input ctx =>
    exact fits_quiet hj fun _ => Api.set_valid .trivially C.adapter org userId input ctx
      fun _ _ _ _ _ => trivial
  | createEndpoint actor rawUrl ctx =>
    refine (Fits.ofWebhooks _).bind fun _ => generateWebhookSecret_fits.bind fun secret => ?_
    refine Fits.bind (fits_quiet hj fun _ => Ledger.Fact.generateId .trivially "we") fun id => ?_
    refine (encrypt_fits secret).bind fun secretEnc => (Fits.prisma _).bind fun endpoint => ?_
    exact (record_fits hj _).bind fun _ => .ret _
  | listEndpoints => exact Fits.prisma _
  | revokeEndpoint endpointId actor ctx =>
    refine (Fits.prisma _).bind fun found => ?_
    cases found with
    | none => exact .throw _
    | some endpoint =>
      exact (dateNow_fits hj).bind fun now => (Fits.prisma _).bind fun _ => record_fits hj _
  | listDeliveries endpointId limit =>
    refine (Fits.prisma _).bind fun found => ?_
    cases found with
    | none => exact .throw _
    | some endpoint => exact Fits.prisma _
  | createApiKey input actorId ctx =>
    refine Fits.bind ((Fits.randomBytes 24).bind fun _ => .ret _) fun generated => ?_
    refine Fits.bind (fits_quiet hj fun _ => Ledger.Fact.cuid .trivially) fun id => ?_
    exact (Fits.prisma _).bind fun apiKey => (record_fits hj _).bind fun _ => .ret _
  | listApiKeys => exact Fits.prisma _
  | revokeApiKey apiKeyId actorId ctx =>
    refine (Fits.prisma _).bind fun found => ?_
    cases found with
    | none => exact .throw _
    | some apiKey =>
      exact (dateNow_fits hj).bind fun now => (Fits.prisma _).bind fun _ => record_fits hj _

theorem apiKeyAuth_fits (authorization : Option String) :
    Fits C D j pid (apiKeyAuth C authorization) := by
  refine (Fits.ofExcept _).bind fun raw => (Fits.prisma _).bind fun found => ?_
  cases found with
  | none => exact .throw _
  | some apiKey =>
    refine (dateNow_fits hj).bind fun now => ?_
    split_ifs
    · exact .throw _
    · exact .ret _

theorem guard_fits (caller : Caller) : Fits C D j pid (guard C caller) := by
  cases caller with
  | apiKey authorization => exact (apiKeyAuth_fits hj authorization).bind fun _ => .ret _
  | user userId headerOrgId =>
    refine Fits.bind ?_ fun _ => .ret _
    unfold organizationScope
    split_ifs
    · exact .throw _
    · exact (Fits.prisma _).bind fun memberships => .ofExcept _

end Requests

/-- Beside the requests and the webhook queues, the workers do what they do alone. -/
theorem deployed_sound (C : Config rpcCalls) (D : Worker.Setup) : (deployed C D).Sound := by
  refine Component.sound (Worker.announcements_sound replicated D) fun j pid =>
    ⟨fun _ => True, fun _ _ _ _ _ => trivial, fun _ _ _ => trivial, ?_⟩
  show Fits C D j pid (launch C (workers D) j)
  cases j with
  | request caller operation =>
    have hj : Asks (.request caller operation) := fun k hscan hconfirm => ⟨hscan, hconfirm⟩
    exact (guard_fits hj caller).bind fun org => (run_fits hj org operation).bind fun _ => .ret _
  | touch authorization =>
    have hj : Asks (.touch authorization) := fun k hscan hconfirm => ⟨hscan, hconfirm⟩
    refine (apiKeyAuth_fits hj authorization).bind fun apiKey => ?_
    refine (dateNow_fits hj).bind fun now => ?_
    exact (Fits.prisma _).attempt.bind fun _ => .ret _
  | payments job =>
    exact .ofPayments (j := .payments job) rfl (Worker.announcements_valid job)
  | webhooks queue => exact .ofWebhooks _

/-! ## What the chain has shown -/

abbrev DeployedSystem := System (calls rpcCalls) Thrown (Job Worker.Job) (State Evm.Chain)

/-- No invoice, payment, event, endpoint or delivery is stored yet. -/
def Unopened (s : State Evm.Chain) : Prop := Worker.Unused s.payments ∧ NoEndpoints s

/-- The systems that some run of the deployment leads to. -/
def DeployedReachable (C : Config rpcCalls) (D : Worker.Setup) : DeployedSystem → Prop :=
  Reachable (machine Evm.node) (workload C (workers D)) Unopened anything

def DeployedLeads (C : Config rpcCalls) (D : Worker.Setup) :
    DeployedSystem → DeployedSystem → Prop :=
  Leads (machine Evm.node) (workload C (workers D)) anything

/-- The system's canonical chain. -/
abbrev DeployedSystem.chain (s : DeployedSystem) : Evm.Chain := s.config.state.other

/-- The requests to the payment tables. -/
abbrev DeployedSystem.paymentTrace (s : DeployedSystem) : Evm.Trace :=
  s.config.trace.filterMap paymentEvent

variable {s : DeployedSystem} {i : Invoice} {p : Payment} {e : WebhookEvent}

/-- What the ledger says of the payment tables holds in the deployment. -/
theorem deployed_inv (hs : DeployedReachable C D s) :
    Worker.AllAnnounced D ⟨s.config.state.payments, s.paymentTrace⟩ := by
  have hreaches : (deployed C D).Reaches s :=
    Component.reaches hs (fun _ h₀ => h₀.1) fun _ _ _ => trivial
  exact ((deployed_sound C D).inv hreaches).2

/-- An answer of the node was given in an earlier system, from its chain. -/
theorem deployed_answered (hs : DeployedReachable C D s) {call : RpcCall} {r : rpcCalls.Ret call}
    {before : Evm.Trace} (h : (⟨pid, .other call, r⟩ :: before) <:+ s.paymentTrace) :
    ∃ s₁, DeployedReachable C D s₁ ∧ DeployedLeads C D s₁ s ∧ s₁.paymentTrace = before ∧
      ∃ reply, s₁.chain.answer call reply = r := by
  obtain ⟨ev, earlier, hsuffix, hev, rfl⟩ :=
    Component.suffix_view (K := (Worker.announcements replicated D).protocol)
      (C := paymentTables Evm.node) (c := s.config) h
  obtain rfl := paymentEvent_eq_some hev
  obtain ⟨s₁, hs₁, rfl, -, ⟨i, state, hr⟩, hleads⟩ := hs.answered hsuffix
  refine ⟨s₁, hs₁, hleads, rfl, ?_⟩
  cases i with
  | payments i =>
    obtain ⟨⟨r', w⟩, hw, heq⟩ := Option.map_eq_some_iff.mp hr
    cases heq
    obtain ⟨reply, o, ho, -⟩ := respond_other hw
    exact ⟨reply, congrArg Prod.fst (Option.some.inj ho)⟩
  | _ => cases hr

/-- What the chain has shown before the event was stored: the transfer was canonical when a scan
    read it, and its transaction was canonical and then deep enough when a confirm pass asked. -/
structure ShownOnChain (C : Config rpcCalls) (D : Worker.Setup) (s : DeployedSystem) (p : Payment)
    (address : String) : Prop where
  carried : ∃ s₀, DeployedReachable C D s₀ ∧ DeployedLeads C D s₀ s ∧
    ∃ (h : ℕ) (tx : Evm.Tx), p.blockNumber = some (h : ℤ) ∧
      Worker.Carries D (DeployedSystem.chain s₀) p address h tx
  deep : ∃ txHash, p.txHash = some txHash ∧ ∃ s₁ s₂, DeployedReachable C D s₁ ∧
    DeployedLeads C D s₁ s₂ ∧ DeployedLeads C D s₂ s ∧
      ∃ b tx, (DeployedSystem.chain s₁).Contains b tx ∧ tx.hash = txHash ∧
        D.requiredConfirmations ≤ max 0 ((DeployedSystem.chain s₂).head - b + 1)

theorem shownOnChain (hs : DeployedReachable C D s)
    (h : Worker.Announces D s.paymentTrace e p i) : ShownOnChain C D s p i.paymentAddress where
  carried := by
    obtain ⟨pid, contract, a, b, logs, hev, hcarries⟩ := h.credited.carries
    obtain ⟨before, hev⟩ := exists_suffix_of_mem hev
    obtain ⟨s₀, hs₀, hleads, -, reply, hr⟩ := deployed_answered hs hev
    exact ⟨s₀, hs₀, hleads, hcarries s₀.chain reply hr⟩
  deep := by
    obtain ⟨pid, txHash, n, htx, hn, receipt, head, before, earlier, hhead, hreceipt, rfl⟩ := h.deep
    obtain ⟨s₂, hs₂, hleads₂, hbefore, reply₂, hr₂⟩ := deployed_answered hs hhead
    obtain ⟨s₁, hs₁, hleads₁, -, reply₁, hr₁⟩ := deployed_answered hs₂ (hbefore ▸ hreceipt)
    exact ⟨txHash, htx, s₁, s₂, hs₁, hleads₁, hleads₂, Worker.deep_of_answers hr₁ hr₂ hn⟩

/-! ## What is posted -/

/-- What an event about a settlement says is true of the payment `p` of the invoice `i`. -/
structure TrueOf (C : Config rpcCalls) (D : Worker.Setup) (s : DeployedSystem) (e : WebhookEvent)
    (i : Invoice) (p : Payment) : Prop where
  charges : p.Charges i
  invoiceId : e.invoiceId = i.id
  organizationId : e.organizationId = i.organizationId
  /-- The type and the status tell the outcome of the comparison with the amount of the invoice. -/
  outcome : ∃ received, p.receivedAmount = some received ∧
    e.type = (evaluatePaymentAmount i.amount received).outcome.2.2 ∧
    e.data.status = toLowerAscii (evaluatePaymentAmount i.amount received).outcome.2.1.toString
  amount : e.data.amount = i.amount.toString
  tx_hash : e.data.tx_hash = p.txHash
  shown : ShownOnChain C D s p i.paymentAddress

theorem trueOf (hs : DeployedReachable C D s) (h : Worker.Announces D s.paymentTrace e p i) :
    TrueOf C D s e i p := by
  obtain ⟨t, -, -, hreceived, -⟩ := h.credited.logged
  have hmatch : p.amountMatch = evaluatePaymentAmount i.amount t.amount := by
    unfold Payment.amountMatch
    rw [hreceived, h.credited.charges.expectedAmount]
    rfl
  have hdata := h.data
  rw [hmatch] at hdata
  exact {
    charges := h.credited.charges
    invoiceId := h.invoiceId
    organizationId := h.organizationId
    outcome := ⟨t.amount, hreceived, by rw [h.type, hmatch], by rw [hdata]⟩
    amount := by rw [hdata]
    tx_hash := by rw [hdata]
    shown := shownOnChain hs h }

/-- Whatever runs beside it: what a queue posts is a stored event, and one about a settlement
    tells the truth about what the chain has shown. -/
theorem posts_tell_truth (hs : DeployedReachable C D s) {id : String} {request : FetchRequest}
    {response} (hpost : ⟨pid, .webhooks (.fetch id request), response⟩ ∈ s.config.trace) :
    ∃ e ∈ s.config.state.db.payments.webhookEvents, request.body = (buildWebhookPayload e).body ∧
      (e.type ∈ Worker.settlementTypes → ∃ i ∈ s.config.state.db.payments.invoices,
        ∃ p ∈ s.config.state.db.payments.payments, TrueOf C D s e i p) := by
  have hknown : EndpointsKnown C s.config := endpoints_known (hs.start_mono fun _ h₀ => h₀.2)
  obtain ⟨j, hin⟩ := Reachable.history (workload_posts C (workers D)) hs pid
  obtain ⟨h, hsuffix, hE⟩ := hin.mem (mem_own.mpr ⟨hpost, rfl⟩)
  have hsub : h ⊆ s.config.trace := fun ev hev =>
    own_subset pid _ (hsuffix.subset (List.mem_cons_of_mem _ hev))
  obtain ⟨e, endpoint, secret, pid', now, hread, -, -, rfl⟩ := hE id request rfl
  have hevent := (readTogether_registered hknown hsub hread).1
  refine ⟨e, hevent, rfl, fun htype => ?_⟩
  obtain ⟨i, hi, p, hp, hann⟩ := deployed_inv hs e hevent htype
  exact ⟨i, hi, p, hp, trueOf hs hann⟩

/-! ## An invoice is paid, and its merchant is told -/

/-- The event of the sample run. -/
def paidEvent : WebhookEvent where
  id := "evt_1"
  organizationId := "org"
  invoiceId := "inv_1"
  type := "payment.paid"
  data := {
    invoice_id := "inv_1"
    external_id := none
    amount := "49"
    currency := "USD"
    network := "base"
    status := "paid"
    tx_hash := some "0x1" }
  createdAt := 0

/-- The API on a node, with the signature of this event. -/
def onNode : Config rpcCalls where
  mode := .evm
  adapter := Evm.adapter Worker.sample.validateAddress Worker.sample.network
  cipher := { hookCipher with
    hmacSha256Hex := fun payload secret =>
      if payload = "0." ++ (buildWebhookPayload paidEvent).body ∧
        secret = "whsec_AAAAAAAAAAAAAAAAAAAAAAAAAAAAAAAA" then
        "2d0ce8dff5be9b1f8d0c187b9c513bcde3a1d806125b2e559e154ae4fbcd18b0"
      else "" }
  href rawUrl := rawUrl
  toBase64Url := base64Url
  ENCRYPTION_KEY := Webhooks.sampleKey
  API_KEY_PEPPER := ""

/-- Ann owns an organization with a deposit address, to which the only block transfers 49 USDC. -/
def annReceives : State Evm.Chain where
  db := { nothingStored.db with
    payments := (Worker.sampleWorldOn [Worker.paying]).db
    memberships := ⟨[⟨"mem_1", "usr_1", "org", .owner⟩], List.nodup_singleton _⟩ }
  clock := 0
  other := [Worker.paying]

theorem unopened_annReceives : Unopened annReceives :=
  ⟨Worker.sampleWorldOn_unused _, fun _ => List.not_mem_nil, fun _ => List.not_mem_nil⟩

abbrev DeployedMove := Move (Job Worker.Job) (Input Evm.Reply) (Act Evm.Fork)

/-- A move of the workers, in the deployment. -/
def ofWorkers : Worker.NodeMove → DeployedMove
  | .start job => .start (.payments job)
  | .perform pid input => .perform pid (.payments input)
  | .stop pid => .stop pid
  | .env act => .env (.payments act)

/-- The invoice is settled, Ann creates an endpoint, and the dispatch pass posts the event to it. -/
def annIsTold : List DeployedMove :=
  (Worker.untilSettled [] []).map ofWorkers ++ .perform 3 (.payments .ok) ::
  .start (.request ann (.createEndpoint ⟨"usr_1", "user"⟩ "https://m.example/h"
      Organizations.localhost)) ::
    [.ok, .webhooks (.addresses (some ["93.184.216.34"])), .bytes (List.replicate 24 0),
      .payments (.id "1"), .bytes (List.replicate 12 0), .ok, .payments .ok].map (.perform 4) ++
  .start (.webhooks .dispatch) ::
    [.webhooks .ok, .webhooks (.id "1"), .webhooks .ok, .webhooks .ok, .webhooks .ok,
      .webhooks (.addresses (some ["93.184.216.34"])), .webhooks .ok, .webhooks .ok,
      .webhooks (.response (.ok 200))].map (.perform 5)

/-- Whether the event is a post. -/
def posts : Event (calls rpcCalls) → Bool
  | ⟨_, .webhooks (.fetch ..), _⟩ => true
  | _ => false

theorem posts_iff {ev : Event (calls rpcCalls)} (h : posts ev = true) :
    ∃ pid id request r, ev = ⟨pid, .webhooks (.fetch id request), r⟩ := by
  obtain ⟨pid, op, r⟩ := ev
  cases op with
  | webhooks op =>
    cases op with
    | fetch id request => exact ⟨pid, id, request, r, rfl⟩
    | _ => cases h
  | _ => cases h

/-- What Ann is told is true. -/
theorem posts_tell_truth_sample : ∃ s, DeployedReachable onNode Worker.sample s ∧
    ∃ pid id request r, ⟨pid, .webhooks (.fetch id request), r⟩ ∈ s.config.trace ∧
      request.body = (buildWebhookPayload paidEvent).body ∧
      ∃ i ∈ s.config.state.db.payments.invoices, ∃ p ∈ s.config.state.db.payments.payments,
        TrueOf onNode Worker.sample s paidEvent i p := by
  obtain ⟨s, hs, hshown⟩ := Reachable.view (M := machine Evm.node)
    (W := workload onNode (workers Worker.sample)) unopened_annReceives annIsTold
    (f := fun s => (s.config.trace.any posts, s.config.state.db.payments.webhookEvents.rows))
    (x := (true, [paidEvent])) (by decide +kernel)
  obtain ⟨hpost, hevents⟩ := Prod.mk.inj hshown
  obtain ⟨ev, hev, hpost⟩ := List.any_eq_true.mp hpost
  obtain ⟨pid, id, request, r, rfl⟩ := posts_iff hpost
  obtain ⟨e, he, hbody, htrue⟩ := posts_tell_truth hs hev
  have hpaid : e = paidEvent := List.mem_singleton.mp (hevents ▸ he)
  subst hpaid
  exact ⟨s, hs, pid, id, request, r, hev, hbody, htrue (by decide)⟩

end CryptoPay.Tenancy
