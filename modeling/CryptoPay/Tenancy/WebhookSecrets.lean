import CryptoPay.Tenancy.ApiKeyCreation
import CryptoPay.Webhooks.Posts

/-!
# From the secret of an endpoint to the merchant's check

`WebhookEndpointsService.create` draws the secret of an endpoint, returns it
once and stores it encrypted. Both queues decrypt the column and sign with what
they get; the merchant verifies with what was returned.

Results:
* `workload_seals`: a stored secret is encrypted from bytes that its creator drew.
* `endpoints_known`: the rows that a queue reads are the rows that were created,
  and an event is read with endpoints of its own organization.
* `posts_verify`: every request that is posted goes to the URL of an endpoint that
  was created for the organization of its event, and verifies with the secret that
  was returned for that endpoint, within the tolerance.
-/

namespace CryptoPay.Tenancy

open Async Data

open Api (RequestContext)

open Webhooks (WebhookEndpoint EventWithEndpoints DueDelivery FetchRequest
  buildWebhookPayload Instant Verifies)

variable {A : Signature} {ω ι η κ : Type} {C : Config A} {B : Backend A ω ι η}
  {W : Workload (effects A) Error κ}

/-! ## Creation -/

/-- What `generateWebhookSecret` returns for some random bytes. -/
def webhookSecret (C : Config A) (bytes : List UInt8) : String := "whsec_" ++ C.toBase64Url bytes

/-- The column is the secret for these bytes, encrypted. -/
def Seals (C : Config A) (h : Requests A) (bytes : List UInt8) (secretEnc : String) : Prop :=
  ∃ pid pid' iv, ⟨pid, .randomBytes 24, bytes⟩ ∈ h ∧ ⟨pid', .randomBytes 12, iv⟩ ∈ h ∧
    encryptSecret C.cipher iv (webhookSecret C bytes) C.ENCRYPTION_KEY = .ok secretEnc

theorem Seals.mono {h h' : Requests A} (hs : h ⊆ h') {bytes : List UInt8} {secretEnc : String}
    (hseals : Seals C h bytes secretEnc) : Seals C h' bytes secretEnc := by
  obtain ⟨pid, pid', iv, hbytes, hiv, henc⟩ := hseals
  exact ⟨pid, pid', iv, hs hbytes, hs hiv, henc⟩

/-- A request that creates an endpoint stores a secret from bytes that were drawn, for an
    organization that its caller has been admitted for. -/
def CreatesSealed (C : Config A) (h : Requests A) (op : Op A) : Prop :=
  ∀ d, op = .db (.webhookEndpointCreate d) → (∃ bytes, Seals C h bytes d.secretEnc) ∧
    ∃ caller, Admitted C h caller d.organizationId

theorem createsSealed_of_not_creates {h : Requests A} {op : Op A} (hop : ¬ op.Creates) :
    CreatesSealed C h op := by
  rintro d rfl
  exact absurd trivial hop

section Creates

variable {org : String} {pid : ℕ} {h : Requests A}

/-- `WebhookEndpointsService.create` after its caller has been admitted: what it stores, and what
    it returns. -/
theorem createEndpoint_seals {caller : Caller} (ha : Admitted C h caller org) (actor : Actor)
    (rawUrl : String) (ctx : RequestContext) :
    (WebhookEndpoints.create C org actor rawUrl ctx).Obeys (CreatesSealed C) pid
      (fun (endpoint, secret) h' => ∃ d bytes, secret = webhookSecret C bytes ∧
        Seals C h' bytes d.secretEnc ∧ d.organizationId = org ∧ d.url = C.href rawUrl ∧
        ⟨pid, .db (.webhookEndpointCreate d), .ok endpoint⟩ ∈ h') (fun _ _ => True) h := by
  let K : Requests A → Prop := fun h' => Admitted C h' caller org
  have hK : ∀ op r h', K h' → K (⟨pid, op, r⟩ :: h') := fun op r h' ha =>
    ha.mono (List.subset_cons_self _ h')
  refine Prog.obeys_bind.mpr ((Prog.Obeys.only (I := K) (ofWebhooks_webhooks _) ?_
    (fun op r h' _ => hK op r h') ha).post (fun _ h₁ ha₁ => ?_) fun _ _ _ => trivial)
  · rintro _ h' ⟨o, rfl⟩ -
    exact createsSealed_of_not_creates not_false
  have hquiet : ∀ {h' : Requests A} {op : Op A}, ¬ op.Creates → CreatesSealed C h' op :=
    createsSealed_of_not_creates
  refine ⟨hquiet not_false, fun (bytes : List UInt8) => ⟨hquiet not_false, fun (id : String) =>
    ⟨hquiet not_false, fun (iv : List UInt8) => ?_⟩⟩⟩
  refine Prog.obeys_bind.mpr (Prog.obeys_ofExcept.mpr ⟨fun secretEnc hsecret => ?_,
    fun _ _ => trivial⟩)
  let h₂ : Requests A := ⟨pid, .randomBytes 12, iv⟩ :: ⟨pid, .payments (.generateId "we"), id⟩ ::
    ⟨pid, .randomBytes 24, bytes⟩ :: h₁
  have ha₂ : K h₂ := hK _ _ _ (hK _ _ _ (hK _ _ _ ha₁))
  have hseals : Seals C h₂ bytes secretEnc :=
    ⟨pid, pid, iv, List.mem_cons_of_mem _ (List.mem_cons_of_mem _ List.mem_cons_self),
      List.mem_cons_self, ok_of_mapError hsecret⟩
  refine Prog.obeys_bind.mpr (prisma_obeys (h := h₂) ?_ fun endpoint => ?_)
  · intro d heq
    cases heq
    exact ⟨⟨bytes, hseals⟩, caller, ha₂⟩
  · have hrecord : (record (objectEvent org actor "webhook_endpoint.create" "webhook_endpoint"
        (WebhookEndpoint.id endpoint) none ctx) : Action A Unit).Obeys (CreatesSealed C) pid
        (fun _ _ => True) (fun _ _ => True) (⟨pid, .db (.webhookEndpointCreate
          ⟨id, org, C.href rawUrl, secretEnc⟩), .ok endpoint⟩ :: h₂) := by
      refine Prog.Obeys.only (I := fun _ => True) (ofPayments_payments _) ?_
        (fun _ _ _ _ _ => trivial) trivial
      rintro _ h' ⟨o, rfl⟩ -
      exact hquiet not_false
    refine Prog.obeys_bind.mpr ((hrecord.grows List.suffix_rfl).post (fun _ h' hs => ?_)
      fun _ _ _ => trivial)
    refine ⟨⟨id, org, C.href rawUrl, secretEnc⟩, bytes, rfl, hseals.mono ?_, rfl, rfl,
      hs.1.subset List.mem_cons_self⟩
    exact fun ev hev => hs.1.subset (List.mem_cons_of_mem _ hev)

/-- A stored secret is encrypted from bytes that its creator drew. -/
theorem workload_seals (C : Config A) (W : Workload (effects A) Error κ) :
    (workload C W).Obeys fun _ => CreatesSealed C := by
  refine workload_creates_of W (fun h op => createsSealed_of_not_creates)
    (fun caller org h pid input actorId ctx _ => ?_) fun caller org h pid actor rawUrl ctx ha =>
      (createEndpoint_seals ha actor rawUrl ctx).post (fun _ _ _ => trivial) fun _ _ _ => trivial
  refine Prog.Obeys.only (I := fun _ => True) (createApiKey_makes input actorId ctx) ?_
    (fun _ _ _ _ _ => trivial) trivial
  rintro _ h' hop - d rfl
  obtain ⟨actor, rawUrl, ctx', ho⟩ := hop
  cases ho

end Creates

/-! ## What becomes of an endpoint -/

/-- The second row is the first one, perhaps revoked since. -/
def EndpointBecomes (p p' : WebhookEndpoint) : Prop :=
  p' = { p with enabled := p'.enabled, revokedAt := p'.revokedAt }

namespace EndpointBecomes

variable {p p' p'' : WebhookEndpoint}

theorem refl (p : WebhookEndpoint) : EndpointBecomes p p := rfl

theorem trans (h : EndpointBecomes p p') (h' : EndpointBecomes p' p'') : EndpointBecomes p p'' := by
  unfold EndpointBecomes at h h' ⊢
  rw [h', h]

theorem organizationId (h : EndpointBecomes p p') : p'.organizationId = p.organizationId :=
  (congrArg WebhookEndpoint.organizationId h :)

theorem url (h : EndpointBecomes p p') : p'.url = p.url := (congrArg WebhookEndpoint.url h :)

theorem secretEnc (h : EndpointBecomes p p') : p'.secretEnc = p.secretEnc :=
  (congrArg WebhookEndpoint.secretEnc h :)

end EndpointBecomes

/-- An endpoint that is stored after a call was stored before it, or the call creates it. -/
theorem exec_newEndpoint {now : Time} {db : Database} {call : ObjectCall} {p : WebhookEndpoint}
    (hp : p ∈ (call.exec now db).2.webhookEndpoints) :
    (∃ p₀ ∈ db.webhookEndpoints, EndpointBecomes p₀ p) ∨
      ∃ d, call = .webhookEndpointCreate d ∧ p = d.row now := by
  cases call with
  | webhookEndpointCreate d =>
    simp only [ObjectCall.exec] at hp
    split at hp
    · rename_i t ht
      rcases ((Table.insert?_eq_some ht).2 p).mp hp with rfl | hp
      · exact .inr ⟨d, rfl, rfl⟩
      · exact .inl ⟨p, hp, .refl p⟩
    · exact .inl ⟨p, hp, .refl p⟩
  | webhookEndpointRevoke id revokedAt =>
    simp only [ObjectCall.exec] at hp
    split at hp
    · have hp : p ∈ db.webhookEndpoints.modify id (revokeEndpoint revokedAt) fun _ => rfl := hp
      obtain ⟨x, hx, rfl⟩ := Table.mem_modify.mp hp
      refine .inl ⟨x, hx, ?_⟩
      split_ifs
      · exact (rfl : revokeEndpoint revokedAt x = _)
      · exact .refl x
    · exact .inl ⟨p, hp, .refl p⟩
  | apiKeyCreate d =>
    simp only [ObjectCall.exec] at hp
    split at hp <;> exact .inl ⟨p, hp, .refl p⟩
  | apiKeyUpdate id d =>
    simp only [ObjectCall.exec] at hp
    split at hp <;> exact .inl ⟨p, hp, .refl p⟩
  | _ => exact .inl ⟨p, hp, .refl p⟩

section Step

variable {pid : ℕ} {s s' : State ω} {op : Op A} {i : Input ι} {r : (calls A).Ret op}

theorem respond_newEndpoint (h : respond B pid s op i = some (r, s')) {p : WebhookEndpoint}
    (hp : p ∈ s'.db.webhookEndpoints) : (∃ p₀ ∈ s.db.webhookEndpoints, EndpointBecomes p₀ p) ∨
      ∃ d, op = .db (.webhookEndpointCreate d) ∧ p = d.row s.clock := by
  cases op with
  | payments op =>
    cases i with
    | payments i =>
      obtain ⟨⟨r', w⟩, -, heq⟩ := Option.map_eq_some_iff.mp h
      cases heq
      exact .inl ⟨p, hp, .refl p⟩
    | _ => cases h
  | webhooks op =>
    cases i with
    | webhooks i =>
      obtain ⟨⟨r', w⟩, hw, heq⟩ := Option.map_eq_some_iff.mp h
      cases heq
      have hsame : w.db.webhookEndpoints = s.db.webhookEndpoints := (webhooks_cases hw).2.1
      have hp : p ∈ w.db.webhookEndpoints := hp
      exact .inl ⟨p, hsame ▸ hp, .refl p⟩
    | _ => cases h
  | db call =>
    have hexec : p ∈ (call.exec s.clock s.db).2.webhookEndpoints →
        (∃ p₀ ∈ s.db.webhookEndpoints, EndpointBecomes p₀ p) ∨
          ∃ d, Op.db (A := A) call = .db (.webhookEndpointCreate d) ∧ p = d.row s.clock :=
      fun hp => (exec_newEndpoint hp).imp_right fun ⟨d, hd, hrow⟩ => ⟨d, congrArg _ hd, hrow⟩
    cases i with
    | ok => cases h; exact hexec hp
    | connectionError => cases h; exact .inl ⟨p, hp, .refl p⟩
    | lostReply => cases h; exact hexec hp
    | _ => cases h
  | randomBytes size =>
    cases i <;> cases h
    exact .inl ⟨p, hp, .refl p⟩

/-- The due deliveries that a retry pass has read. -/
abbrev dueRead (pid : ℕ) (lte : Time) (take : ℕ) (due : List DueDelivery) : Event (calls A) :=
  ⟨pid, .webhooks (.db (.deliveryFindMany lte take)), .ok due⟩

/-- The endpoints of a batch entry are stored, and of the organization of its event. -/
theorem batch_rows {take : ℕ} {batch : List EventWithEndpoints}
    (hr : respond B pid s (.webhooks (.db (.eventFindMany take))) i = some (.ok batch, s')) :
    ∀ e ∈ batch, e.toWebhookEvent ∈ s.db.payments.webhookEvents ∧ ∀ p ∈ e.webhookEndpoints,
      p ∈ s.db.webhookEndpoints ∧ p.organizationId = e.organizationId := by
  cases i with
  | webhooks i =>
    obtain ⟨⟨r', w⟩, hw, heq⟩ := Option.map_eq_some_iff.mp hr
    obtain rfl : r' = .ok batch := (Prod.mk.inj heq).1
    obtain ⟨hexec, -⟩ := Webhooks.respond_db_ok hw
    obtain rfl : s.db.webhooks.undelivered take = batch := Except.ok.inj (Prod.mk.inj hexec).1
    intro e he
    obtain ⟨hevent, hendpoints⟩ := Webhooks.mem_undelivered he
    refine ⟨(Webhooks.mem_undeliveredEvents.mp hevent).1, fun p hp => ?_⟩
    rw [hendpoints] at hp
    obtain ⟨hmem, -, horg⟩ := Webhooks.mem_enabledEndpoints.mp hp
    exact ⟨hmem, horg⟩
  | _ => cases hr

/-- The event and the endpoint of a due delivery are stored, and of one organization. -/
theorem due_rows (hl : s.db.Linked) {lte : Time} {take : ℕ} {due : List DueDelivery}
    (hr : respond B pid s (.webhooks (.db (.deliveryFindMany lte take))) i = some (.ok due, s')) :
    ∀ x ∈ due, x.event ∈ s.db.payments.webhookEvents ∧ x.endpoint ∈ s.db.webhookEndpoints ∧
      x.endpoint.organizationId = x.event.organizationId := by
  cases i with
  | webhooks i =>
    obtain ⟨⟨r', w⟩, hw, heq⟩ := Option.map_eq_some_iff.mp hr
    obtain rfl : r' = .ok due := (Prod.mk.inj heq).1
    obtain ⟨hexec, -⟩ := Webhooks.respond_db_ok hw
    obtain rfl : s.db.webhooks.due lte take = due := Except.ok.inj (Prod.mk.inj hexec).1
    intro x hx
    obtain ⟨hd, -, -, ⟨he, heid⟩, hp, hpid⟩ := Webhooks.mem_due hx
    obtain ⟨e, he', p, hp', heid', hpid', horg⟩ := hl _ hd
    obtain rfl : e = x.event := Table.eq_of_key he' he (heid'.trans heid.symm)
    obtain rfl : p = x.endpoint := Table.eq_of_key hp' hp (hpid'.trans hpid.symm)
    exact ⟨he, hp, horg.symm⟩
  | _ => cases hr

end Step

/-- What happens between requests leaves the endpoints as they are, but for their order. -/
theorem environment_endpoints {s s' : State ω} {act : Act η} (h : environment B s act = some s')
    (p : WebhookEndpoint) : p ∈ s'.db.webhookEndpoints ↔ p ∈ s.db.webhookEndpoints := by
  cases act with
  | payments act =>
    obtain ⟨w, -, rfl⟩ := Option.map_eq_some_iff.mp h
    exact Iff.rfl
  | memberships rows => cases h; exact Iff.rfl
  | reorderEndpoints rows =>
    simp only [environment] at h
    split_ifs at h with hperm
    cases h
    exact hperm.mem_iff
  | reorderDeliveries rows =>
    simp only [environment] at h
    split_ifs at h
    cases h
    exact Iff.rfl
  | reorderApiKeys rows =>
    simp only [environment] at h
    split_ifs at h
    cases h
    exact Iff.rfl

theorem environment_events {s s' : State ω} {act : Act η} (h : environment B s act = some s') :
    s'.db.payments.webhookEvents = s.db.payments.webhookEvents := by
  cases act with
  | payments act =>
    obtain ⟨w, hw, rfl⟩ := Option.map_eq_some_iff.mp h
    cases act with
    | other e =>
      obtain ⟨o, -, rfl⟩ := Option.map_eq_some_iff.mp hw
      rfl
    | _ =>
      simp only [CryptoPay.environment] at hw
      split_ifs at hw
      cases hw
      rfl
  | memberships rows => cases h; rfl
  | _ =>
    simp only [environment] at h
    split_ifs at h
    cases h
    rfl

/-! ## What the queues read -/

/-- An endpoint with this data was created: its secret from bytes that its creator had drawn, by
    someone who had been admitted for the organization. -/
def EndpointCreated (C : Config A) (tr : Requests A) (d : EndpointCreateInput) : Prop :=
  ∃ pid r, ⟨pid, .db (.webhookEndpointCreate d), r⟩ ∈ tr ∧
    (∃ bytes, Seals C (own pid tr) bytes d.secretEnc) ∧
    ∃ caller, Admitted C (own pid tr) caller d.organizationId

/-- The row is one that was created. -/
def Registered (C : Config A) (tr : Requests A) (p : WebhookEndpoint) : Prop :=
  ∃ d now, EndpointCreated C tr d ∧ EndpointBecomes (EndpointCreateInput.row now d) p

theorem Registered.mono {tr tr' : Requests A} (hs : tr ⊆ tr') {p : WebhookEndpoint}
    (h : Registered C tr p) : Registered C tr' p := by
  obtain ⟨d, now, ⟨pid, r, hmem, ⟨bytes, hseals⟩, caller, ha⟩, hb⟩ := h
  have hown := own_of_subset hs pid
  exact ⟨d, now, ⟨pid, r, hs hmem, ⟨bytes, hseals.mono hown⟩, caller, ha.mono hown⟩, hb⟩

/-- The endpoints, and what was read of them. -/
structure EndpointsKnown (C : Config A) (c : Async.Config (calls A) (State ω)) : Prop where
  known : Known c.trace c.state.db
  created : ∀ p ∈ c.state.db.webhookEndpoints, Registered C c.trace p
  batches : ∀ pid take batch, batchRead pid take batch ∈ c.trace → ∀ e ∈ batch,
    ∀ p ∈ EventWithEndpoints.webhookEndpoints e, Registered C c.trace p ∧
      p.organizationId = e.organizationId
  dues : ∀ pid lte take due, dueRead pid lte take due ∈ c.trace → ∀ x ∈ due,
    DueDelivery.event x ∈ c.state.db.payments.webhookEvents ∧ Registered C c.trace x.endpoint ∧
      x.endpoint.organizationId = x.event.organizationId

/-- Neither an endpoint nor a delivery is stored yet. -/
def NoEndpoints (s : State ω) : Prop := Undelivered s ∧ ∀ p, p ∉ s.db.webhookEndpoints

section Runs

variable {s s' : System (calls A) Thrown (Job κ) (State ω)}

theorem endpoints_known (hs : Reachable (machine B) (workload C W) NoEndpoints anything s) :
    EndpointsKnown C s.config := by
  refine Reachable.invariant (I := EndpointsKnown C)
    ((workload_obeys C W).and (workload_seals C W))
    (fun s h₀ => ⟨.none fun d hd => absurd hd (h₀.1 d), fun p hp => absurd hp (h₀.2 p), nofun,
      nofun⟩) (fun c act state hI hact => ?_) (fun c ev state hI hans => ?_) hs
  · refine ⟨hI.known.env hact, fun p hp => hI.created p ((environment_endpoints hact p).mp hp),
      hI.batches, fun pid lte take due hmem x hx => ?_⟩
    obtain ⟨hevent, hrest⟩ := hI.dues pid lte take due hmem x hx
    exact ⟨(environment_events hact).symm ▸ hevent, hrest⟩
  · obtain ⟨-, ⟨j, ⟨hE, hsealed⟩, -⟩, -, i, hr⟩ := hans
    have hsub : c.trace ⊆ ev :: c.trace := List.subset_cons_self ev c.trace
    have hown : own ev.pid c.trace ⊆ own ev.pid (ev :: c.trace) := own_of_subset hsub ev.pid
    have hkeeps := respond_keeps hr
    refine ⟨hI.known.step (fun d hd => (expected_paired hE d hd).mono (own_subset ev.pid c.trace))
      hr, fun p hp => ?_, fun pid take batch hmem => ?_, fun pid lte take due hmem => ?_⟩
    · rcases respond_newEndpoint hr hp with ⟨p₀, hp₀, hb⟩ | ⟨d, hop, rfl⟩
      · obtain ⟨d, now, hd, hb'⟩ := (hI.created p₀ hp₀).mono hsub
        exact ⟨d, now, hd, hb'.trans hb⟩
      · obtain ⟨⟨bytes, hseals⟩, caller, ha⟩ := hsealed d hop
        obtain ⟨pid, op, r⟩ := ev
        subst hop
        exact ⟨d, c.state.clock, ⟨pid, r, List.mem_cons_self, ⟨bytes, hseals.mono hown⟩, caller,
          ha.mono hown⟩, .refl _⟩
    · rcases List.mem_cons.mp hmem with heq | hmem
      · subst heq
        intro e he p hp
        obtain ⟨hmem, horg⟩ := (batch_rows hr e he).2 p hp
        exact ⟨(hI.created p hmem).mono hsub, horg⟩
      · intro e he p hp
        obtain ⟨hreg, horg⟩ := hI.batches pid take batch hmem e he p hp
        exact ⟨hreg.mono hsub, horg⟩
    · rcases List.mem_cons.mp hmem with heq | hmem
      · subst heq
        intro x hx
        obtain ⟨hevent, hendpoint, horg⟩ := due_rows hI.known.linked hr x hx
        exact ⟨hkeeps.events _ hevent, (hI.created _ hendpoint).mono hsub, horg⟩
      · intro x hx
        obtain ⟨hevent, hreg, horg⟩ := hI.dues pid lte take due hmem x hx
        exact ⟨hkeeps.events _ hevent, hreg.mono hsub, horg⟩

/-! ## What is posted -/

/-- Every request that is posted is built from what its pass has read. -/
def PostsBuilt (C : Config A) (h : Requests A) (op : Op A) : Prop :=
  ∀ id request, op = .webhooks (.fetch id request) →
    Webhooks.Prepared C.cipher.toPlatform C.ENCRYPTION_KEY (webhookPart h) request

theorem expected_not_fetch {j : Job κ} {h : Requests A} {op : Op A} (hE : Expected C j h op)
    (hj : ∀ queue, j ≠ .webhooks queue) (id : String) (request : FetchRequest) :
    op ≠ .webhooks (.fetch id request) := by
  rintro rfl
  cases j with
  | request caller operation =>
    rcases hE with hE | ⟨org, -, hop⟩
    · exact hE.elim
    · exact hop.elim
  | touch authorization =>
    rcases hE with hE | ⟨org, -, hop⟩
    · exact hE.elim
    · exact hop.elim
  | payments job =>
    obtain ⟨o, ho⟩ := hE
    cases ho
  | webhooks queue => exact hj queue rfl

theorem workload_posts (C : Config A) (W : Workload (effects A) Error κ) :
    (workload C W).Obeys fun _ => PostsBuilt C := by
  intro j pid
  by_cases hj : ∃ queue, j = .webhooks queue
  · obtain ⟨queue, rfl⟩ := hj
    have hposts := Webhooks.posts_prepared C.cipher.toPlatform C.ENCRYPTION_KEY queue pid
    refine .rethrow ((Prog.Obeys.embed (f := webhookCalls A) webhookPart (fun o r h => rfl) ?_
      hposts).post (fun _ _ _ => trivial) fun _ _ _ => trivial)
    intro o h ho id request heq
    cases heq
    exact ho id request rfl
  · refine (workload_obeys C W j pid).imp fun h op _ hE id request heq => ?_
    exact absurd heq (expected_not_fetch hE (fun queue hq => hj ⟨queue, hq⟩) id request)

/-- What is known of a posted request: it is for a stored event, to an endpoint that was created for
    the organization of the event, and it verifies with the secret of that endpoint. -/
structure Genuine (C : Config A) (c : Async.Config (calls A) (State ω)) (request : FetchRequest)
    (now : Time) (event : WebhookEvent) (d : EndpointCreateInput) (bytes : List UInt8) : Prop where
  stored : event ∈ c.state.db.payments.webhookEvents
  created : ∃ pid r, ⟨pid, .db (.webhookEndpointCreate d), r⟩ ∈ c.trace ∧
    Seals C (own pid c.trace) bytes d.secretEnc ∧
    ∃ caller, Admitted C (own pid c.trace) caller d.organizationId
  organization : event.organizationId = d.organizationId
  url : request.url = d.url
  body : request.body = (buildWebhookPayload event).body
  verifies : ∀ (t₀ t₁ : Instant) tolerance db, t₀.ms = now →
    Verifies C.cipher.toPlatform request.body (webhookSecret C bytes) request.headers.timestamp
      request.headers.signature tolerance ⟨db, t₁.ms⟩
      (decide (((|t₁.seconds - t₀.seconds| : ℤ) : ℚ) ≤ tolerance))

/-- What was read together is registered, and of one organization. -/
theorem readTogether_registered {c : Async.Config (calls A) (State ω)} (hc : EndpointsKnown C c)
    {h : Requests A} (hs : h ⊆ c.trace) {event : WebhookEvent} {endpoint : WebhookEndpoint}
    (hr : Webhooks.ReadTogether (webhookPart h) event endpoint) :
    event ∈ c.state.db.payments.webhookEvents ∧ Registered C c.trace endpoint ∧
      endpoint.organizationId = event.organizationId := by
  rcases hr with ⟨pid, take, batch, hmem, e, he, rfl, hp⟩ | ⟨pid, lte, take, due, hmem, x, hx, rfl,
    rfl⟩
  · have hbatch := hs (mem_webhookPart hmem)
    obtain ⟨hreg, horg⟩ := hc.batches pid take batch hbatch e he endpoint hp
    exact ⟨(hc.known.batches pid take batch hbatch e he).1, hreg, horg⟩
  · exact hc.dues pid lte take due (hs (mem_webhookPart hmem)) x hx

/-- Whatever runs and however it is interleaved: every request that a queue posts goes to the URL of
    an endpoint that was created for the organization of its event, by someone whom a guard had
    admitted for it, and the merchant's check accepts it with the secret that was returned for that
    endpoint exactly within the tolerance. -/
theorem posts_verify (hC : C.cipher.Inverts)
    (hs : Reachable (machine B) (workload C W) NoEndpoints anything s)
    (hsize : ∀ pid size bytes, ⟨pid, .randomBytes size, bytes⟩ ∈ s.config.trace →
      List.length bytes = size) {pid : ℕ} {id : String} {request : FetchRequest} {response}
    (hpost : ⟨pid, .webhooks (.fetch id request), response⟩ ∈ s.config.trace) :
    ∃ now event d bytes, ⟨pid, .webhooks .now, now⟩ ∈ s.config.trace ∧
      Genuine C s.config request now event d bytes := by
  obtain ⟨j, hin⟩ := hs.history (workload_posts C W) pid
  obtain ⟨h, hsuffix, hE⟩ := hin.mem (mem_own.mpr ⟨hpost, rfl⟩)
  have hown : h ⊆ own pid s.config.trace := fun ev hev =>
    hsuffix.subset (List.mem_cons_of_mem _ hev)
  have hsub : h ⊆ s.config.trace := fun ev hev => own_subset pid _ (hown hev)
  obtain ⟨event, endpoint, secret, pid', now, hread, hsecret, hnow, rfl⟩ := hE id request rfl
  obtain ⟨hevent, ⟨d, t, ⟨creator, r, hcreate, ⟨bytes, hseals⟩, hadmitted⟩, hb⟩, horg⟩ :=
    readTogether_registered (endpoints_known hs) hsub hread
  obtain ⟨hnow, rfl⟩ := mem_own.mp (hown (mem_webhookPart hnow))
  -- the column decrypts to what was encrypted
  have hplain : Webhooks.decryptSecret C.cipher.toPlatform d.secretEnc C.ENCRYPTION_KEY =
      .ok (webhookSecret C bytes) := by
    obtain ⟨-, q, iv, -, hiv, henc⟩ := hseals
    exact decryptSecret_encryptSecret hC (hsize q 12 iv (own_subset creator _ hiv)) henc
  rw [hb.secretEnc] at hsecret
  obtain rfl : webhookSecret C bytes = secret := Except.ok.inj (hplain.symm.trans hsecret)
  refine ⟨now, event, d, bytes, hnow, ?_⟩
  exact {
    stored := hevent
    created := ⟨creator, r, hcreate, hseals, hadmitted⟩
    organization := horg.symm.trans hb.organizationId
    url := hb.url
    body := rfl
    verifies := by
      rintro t₀ t₁ tolerance db rfl
      exact Webhooks.signedAt_verifies _ _ _ t₀ t₁ tolerance db }

end Runs

/-! ## One endpoint, from its creation to a post -/

/-- The ciphertext and the tag of the secret from 24 bytes `00`, for a vector of 12. -/
def sealedSecret : List UInt8 × List UInt8 :=
  ([176, 161, 30, 154, 174, 195, 129, 94, 83, 71, 4, 141, 189, 101, 149, 65, 46, 103, 16, 120, 94,
    90, 87, 232, 31, 39, 219, 63, 166, 176, 29, 40, 18, 146, 253, 107, 75, 125],
    [49, 113, 73, 34, 108, 167, 229, 115, 95, 78, 26, 117, 21, 52, 21, 166])

/-- The column of `sealedSecret`, in bytes and in base64. -/
def sealedBytes : List UInt8 := List.replicate 12 0 ++ sealedSecret.2 ++ sealedSecret.1

def sealedText : String :=
  "AAAAAAAAAAAAAAAAMXFJImyn5XNfThp1FTQVprChHpquw4FeU0cEjb1llUEuZxB4XlpX6B8n2z+msB0oEpL9a0t9"

/-- `Buffer.from(s, 'utf8')`. -/
def utf8Bytes (s : String) : List UInt8 := s.toByteArray.data.toList

/-- The functions of Node on the sample. Off the sample, base64 is a mark and one character for each
    byte, and a ciphertext is the plaintext with a tag of its own. -/
def hookCipher : Cipher where
  parseUrl := Webhooks.samplePlatform.parseUrl
  isIP := Webhooks.samplePlatform.isIP
  fromBase64 s :=
    if s = sealedText then sealedBytes else (s.toList.drop 1).map fun c => UInt8.ofNat c.toNat
  toBase64 bytes :=
    if bytes = sealedBytes then sealedText
    else String.ofList ('!' :: bytes.map fun b => Char.ofNat b.toNat)
  toUtf8 bytes := (String.fromUTF8? ⟨⟨bytes⟩⟩).getD ""
  fromUtf8 := utf8Bytes
  encipher key iv plaintext :=
    if key = List.replicate 32 255 ∧ iv = List.replicate 12 0 ∧
      plaintext = utf8Bytes "whsec_AAAAAAAAAAAAAAAAAAAAAAAAAAAAAAAA" then sealedSecret
    else (plaintext, List.replicate 16 0)
  decipher key iv authTag ciphertext :=
    if key = List.replicate 32 255 ∧ iv = List.replicate 12 0 ∧ authTag = sealedSecret.2 ∧
      ciphertext = sealedSecret.1 then
      .ok (utf8Bytes "whsec_AAAAAAAAAAAAAAAAAAAAAAAAAAAAAAAA")
    else if authTag = List.replicate 16 0 then .ok ciphertext
    else .error "Unsupported state or unable to authenticate data"
  hmacSha256Hex payload secret :=
    if payload = "0." ++ (buildWebhookPayload (Webhooks.sampleEvent "wh_1" "org_1" 0)).body ∧
      secret = "whsec_AAAAAAAAAAAAAAAAAAAAAAAAAAAAAAAA" then
      "8c311b60efe7f65b9a175f276cb742c791735473ee61e3e155fa3ecb0bfd0dc9"
    else ""

/-- One character for each byte is read back. -/
theorem chars_bytes (bytes : List UInt8) :
    (bytes.map fun b => Char.ofNat b.toNat).map (fun c => UInt8.ofNat c.toNat) = bytes := by
  have hbyte : ∀ b : UInt8, UInt8.ofNat (Char.ofNat b.toNat).toNat = b := by
    intro b
    have hlt : b.toNat < 256 := b.toNat_lt
    have hvalid : b.toNat.isValidChar := .inl (by omega)
    rw [Char.ofNat, dif_pos hvalid]
    exact UInt8.ofNat_toNat
  rw [List.map_map]
  exact (List.map_congr_left fun b _ => hbyte b).trans (List.map_id bytes)

theorem hookCipher_inverts : hookCipher.Inverts where
  base64 bytes := by
    by_cases hb : bytes = sealedBytes
    · have htext : hookCipher.toBase64 bytes = sealedText := if_pos hb
      have hback : ∀ s, s = sealedText → hookCipher.fromBase64 s = sealedBytes := fun s hs =>
        if_pos hs
      rw [htext, hb, hback sealedText rfl]
    · have htext : (hookCipher.toBase64 bytes).toList =
          '!' :: bytes.map fun b => Char.ofNat b.toNat := by
        rw [show hookCipher.toBase64 bytes = _ from if_neg hb, String.toList_ofList]
      -- no text of base64 starts with the mark
      have hne : hookCipher.toBase64 bytes ≠ sealedText := by
        intro h
        rw [h] at htext
        have hhead : sealedText.toList.head? = some 'A' := by decide
        rw [htext] at hhead
        cases hhead
      refine (if_neg hne).trans ?_
      rw [htext]
      exact chars_bytes bytes
  utf8 s := by
    have hvalid : (ByteArray.mk ⟨hookCipher.fromUtf8 s⟩).IsValidUTF8 := s.isValidUTF8
    show (dite _ _ _ : Option String).getD "" = s
    rw [dif_pos hvalid]
    rfl
  tag key iv plaintext := by
    show (if _ then sealedSecret else _).2.length = 16
    split_ifs
    · decide
    · exact List.length_replicate
  decipher key iv plaintext := by
    by_cases hs : key = List.replicate 32 255 ∧ iv = List.replicate 12 0 ∧
        plaintext = utf8Bytes "whsec_AAAAAAAAAAAAAAAAAAAAAAAAAAAAAAAA"
    · have henc : hookCipher.encipher key iv plaintext = sealedSecret := if_pos hs
      rw [henc, hs.2.2]
      exact if_pos ⟨hs.1, hs.2.1, rfl, rfl⟩
    · have henc : hookCipher.encipher key iv plaintext = (plaintext, List.replicate 16 0) :=
        if_neg hs
      rw [henc]
      have htag : (List.replicate 16 0 : List UInt8) ≠ sealedSecret.2 := by decide
      exact (if_neg fun h => htag h.2.2.1).trans (if_pos rfl)

def hookConfig : Config adapterCalls :=
  { sampleConfig with
    cipher := hookCipher
    toBase64Url := base64Url
    ENCRYPTION_KEY := Webhooks.sampleKey }

/-- Ann owns an organization with one event. -/
def eventStored : State Unit :=
  { annOwns with
    db := { annOwns.db with
      payments := { annOwns.db.payments with
        webhookEvents := ⟨[Webhooks.sampleEvent "wh_1" "org_1" 0], List.nodup_singleton _⟩ } } }

theorem noEndpoints_eventStored : NoEndpoints eventStored :=
  ⟨fun _ => List.not_mem_nil, fun _ => List.not_mem_nil⟩

/-- Ann creates an endpoint, and the dispatch pass posts the event to it. -/
def hookPosted : List KeyMove :=
  .start (.request ann (.createEndpoint ⟨"usr_1", "user"⟩ "https://m.example/h"
      Organizations.localhost)) ::
    replies 0 [.ok, .webhooks (.addresses (some ["93.184.216.34"])),
      .bytes (List.replicate 24 0), .payments (.id "1"), .bytes (List.replicate 12 0), .ok,
      .payments .ok] ++
  .start (.webhooks .dispatch) ::
    replies 1 [.webhooks .ok, .webhooks (.id "1"), .webhooks .ok, .webhooks .ok, .webhooks .ok,
      .webhooks (.addresses (some ["93.184.216.34"])), .webhooks .ok, .webhooks .ok,
      .webhooks (.response (.ok 200))]

/-- The request is a post. -/
def isPost : Event (calls adapterCalls) → Bool
  | ⟨_, .webhooks (.fetch ..), _⟩ => true
  | _ => false

theorem isPost_iff {ev : Event (calls adapterCalls)} (h : isPost ev = true) :
    ∃ pid id request r, ev = ⟨pid, .webhooks (.fetch id request), r⟩ := by
  obtain ⟨pid, op, r⟩ := ev
  cases op with
  | webhooks op =>
    cases op with
    | fetch id request => exact ⟨pid, id, request, r, rfl⟩
    | _ => cases h
  | _ => cases h

/-- The reply to `randomBytes` has the size that was asked for. -/
def isSized : Event (calls adapterCalls) → Bool
  | ⟨_, .randomBytes size, bytes⟩ => List.length bytes = size
  | _ => true

/-- The event is posted to Ann's endpoint, and what is posted verifies with her secret. -/
theorem posts_verify_sample : ∃ s : KeySystem,
    Reachable (machine anyAnswer) (workload hookConfig noPayments) NoEndpoints anything s ∧
    ∃ pid id request r, ⟨pid, .webhooks (.fetch id request), r⟩ ∈ s.config.trace ∧
      ∃ now event d bytes, Genuine hookConfig s.config request now event d bytes := by
  obtain ⟨s, hs, hshown⟩ := Reachable.view (M := machine anyAnswer)
    (W := workload hookConfig noPayments) noEndpoints_eventStored hookPosted
    (f := fun s => s.config.trace.any isPost && s.config.trace.all isSized) (x := true)
    (by decide +kernel)
  obtain ⟨hpost, hsized⟩ := (Bool.and_eq_true _ _).mp hshown
  obtain ⟨ev, hev, hpost⟩ := List.any_eq_true.mp hpost
  obtain ⟨pid, id, request, r, rfl⟩ := isPost_iff hpost
  have hsize : ∀ pid size bytes, ⟨pid, .randomBytes size, bytes⟩ ∈ s.config.trace →
      List.length bytes = size := fun pid size bytes hmem =>
    of_decide_eq_true (List.all_eq_true.mp hsized _ hmem)
  obtain ⟨now, event, d, bytes, -, hgenuine⟩ := posts_verify hookCipher_inverts hs hsize hev
  exact ⟨s, hs, pid, id, request, r, hev, now, event, d, bytes, hgenuine⟩

end CryptoPay.Tenancy
