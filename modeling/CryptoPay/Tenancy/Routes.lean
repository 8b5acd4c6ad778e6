import CryptoPay.Api.CsrfGuard
import CryptoPay.Organizations.Ownership
import CryptoPay.Tenancy.OperationWrites

/-!
# The routes

The controllers of `apps/api/src` over the services of `Services`:
`InvoicesController`, `ApiKeysController`, `WebhookEndpointsController`,
`DashboardWebhooksController`, `DashboardInvoicesController` and
`WalletAddressesController`, each method with the guards that Nest runs before
it, in their order. A `Method` is what the decorators of a method say; its body is
one `Operation`. Bodies and queries are those that `ZodValidationPipe` has let
through, and the presenters are left out.

`PaymentsController` and `CheckoutController` are not among the routes (their
services are in `Api`), nor are `AuthController` (`Accounts`) and
`OrganizationsController` (`Organizations`).

Results:
* `Route.Runs.access`: every route has the guards that its operation needs.
* `run_shows`: past its guards, a request has shown what its method asks for.
-/

namespace CryptoPay.Tenancy

open Async

open Api (RequestContext CreateInvoiceInput SetWalletAddressInput HeaderValue CsrfRequest)

open Organizations (Scope MembershipRole)

variable {A : Signature} {ω ι η κ : Type}

/-! ## Requests -/

/-- What the guards and the decorators read of a `FastifyRequest`. -/
structure HttpRequest where
  cookies : Option (String → Option String)
  headers : String → Option HeaderValue
  ip : String

namespace HttpRequest

/-- `request.cookies?.name`. -/
def cookie (request : HttpRequest) (name : String) : Option String :=
  request.cookies.bind fun cookies => cookies name

/-- A header that was sent once. -/
def header (request : HttpRequest) (name : String) : Option String :=
  match request.headers name with
  | some (.single value) => some value
  | _ => none

/-- What `CsrfGuard` reads; the method is that of the route. -/
def csrf (request : HttpRequest) (verb : String) : CsrfRequest :=
  ⟨verb, request.cookies, request.headers⟩

end HttpRequest

/-- `extractRequestContext` (request-context.util.ts, lines 8–14). -/
def extractRequestContext (request : HttpRequest) : RequestContext :=
  ⟨request.ip, request.header "user-agent"⟩

/-! ## Guards -/

/-- The functions that the guards of a session call. -/
structure Sessions where
  /-- `jwtVerify(token, secret)` of `jose` at a time: the claim `sub`, unless it throws. -/
  jwtVerify : (token : String) → Time → Option (Option String)
  /-- `String.prototype.toUpperCase`. -/
  upper : String → String

/-- `AccessTokenService.verify` (access-token.service.ts, lines 29–41). -/
def Sessions.verify (K : Sessions) (token : String) (now : Time) : Except Error String :=
  match K.jwtVerify token now with
  | none => .error (.unauthorized "Invalid or expired session")
  | some none => .error (.unauthorized "Invalid session token")
  | some (some sub) => .ok sub

/-- `SessionAuthGuard.canActivate` (session-auth.guard.ts, lines 11–26). -/
def sessionAuth (K : Sessions) (request : HttpRequest) : Action A String :=
  match request.cookie "cp_at" with
  | none => .throw (.app (.unauthorized "Authentication required"))
  | some token =>
    if token = "" then .throw (.app (.unauthorized "Authentication required"))
    else do
      let now ← dateNow
      match K.verify token now with
      | .ok sub => return sub
      | .error _ => .throw (.app (.unauthorized "Invalid or expired session"))

/-- `RolesGuard.canActivate` (roles.guard.ts, lines 13–25). -/
def rolesGuard (required : List MembershipRole) (role : MembershipRole) : Except Error Unit :=
  if required = [] ∨ role ∈ required then .ok ()
  else .error (.forbidden "Insufficient role for this action")

/-- `ScopesGuard.canActivate` (scopes.guard.ts, lines 17–31). -/
def scopesGuard (required granted : List String) : Except Error Unit :=
  if ∀ scope ∈ required, scope ∈ granted then .ok ()
  else .error (.forbidden "API key is missing a required scope")

/-- `CsrfGuard.canActivate`. -/
def csrfGuard (K : Sessions) (request : HttpRequest) (verb : String) : Except Error Unit :=
  (Api.canActivate K.upper (request.csrf verb)).map fun _ => ()

/-- `CurrentOrganizationId` (current-organization-id.decorator.ts, lines 6–14). -/
def currentOrganizationId (organizationId : String) : Except Error String :=
  if organizationId = "" then .error (.forbidden "No organization context for this request")
  else .ok organizationId

/-- `CurrentApiKeyId` (current-api-key-id.decorator.ts, lines 6–12). -/
def currentApiKeyId (apiKeyId : String) : Except Error String :=
  if apiKeyId = "" then .error (.forbidden "No API key context for this request")
  else .ok apiKeyId

/-- `CurrentUserId` (current-user-id.decorator.ts, lines 6–12). -/
def currentUserId (userId : String) : Except Error String :=
  if userId = "" then .error (.unauthorized "Authentication required")
  else .ok userId

/-! ## Controllers -/

/-- The guards of a method. -/
inductive Access where
  /-- `@UseGuards(ApiKeyAuthGuard, ScopesGuard)` with `@RequireScopes(...)`. -/
  | scopes (required : List String)
  /-- `@UseGuards(SessionAuthGuard, OrganizationScopeGuard)`. -/
  | session
  /-- The same with `@UseGuards(RolesGuard, CsrfGuard)` and `@Roles(...)`. -/
  | roles (required : List MembershipRole)
  deriving DecidableEq, Repr

/-- A method of a controller; `callerId` is the user or the API key. -/
structure Method where
  verb : String
  access : Access
  operation : (callerId : String) → RequestContext → Except Error Operation

namespace InvoicesController

/-- `create` (invoices.controller.ts, lines 23–38). -/
def create (body : CreateInvoiceInput) : Method where
  verb := "POST"
  access := .scopes ["invoices:write"]
  operation apiKeyId ctx := do
    let apiKeyId ← currentApiKeyId apiKeyId
    return .createInvoice apiKeyId body ctx

/-- `getById` (invoices.controller.ts, lines 40–48). -/
def getById (id : String) : Method where
  verb := "GET"
  access := .scopes ["invoices:read"]
  operation _ _ := return .getInvoice id

end InvoicesController

namespace ApiKeysController

/-- `create` (api-keys.controller.ts, lines 21–37). -/
def create (body : CreateApiKeyInput) : Method where
  verb := "POST"
  access := .roles [.owner, .admin]
  operation userId ctx := do
    let userId ← currentUserId userId
    return .createApiKey body userId ctx

/-- `list` (api-keys.controller.ts, lines 39–43). -/
def list : Method where
  verb := "GET"
  access := .session
  operation _ _ := return .listApiKeys

/-- `revoke` (api-keys.controller.ts, lines 45–56). -/
def revoke (apiKeyId : String) : Method where
  verb := "DELETE"
  access := .roles [.owner, .admin]
  operation userId ctx := do
    let userId ← currentUserId userId
    return .revokeApiKey apiKeyId userId ctx

end ApiKeysController

namespace WebhookEndpointsController

/-- `create` (webhook-endpoints.controller.ts, lines 19–34). -/
def create (url : String) : Method where
  verb := "POST"
  access := .scopes ["webhooks:write"]
  operation apiKeyId ctx := do
    let apiKeyId ← currentApiKeyId apiKeyId
    return .createEndpoint ⟨apiKeyId, "api_key"⟩ url ctx

/-- `list` (webhook-endpoints.controller.ts, lines 36–41). -/
def list : Method where
  verb := "GET"
  access := .scopes ["webhooks:read"]
  operation _ _ := return .listEndpoints

/-- `revoke` (webhook-endpoints.controller.ts, lines 43–58). -/
def revoke (id : String) : Method where
  verb := "DELETE"
  access := .scopes ["webhooks:write"]
  operation apiKeyId ctx := do
    let apiKeyId ← currentApiKeyId apiKeyId
    return .revokeEndpoint id ⟨apiKeyId, "api_key"⟩ ctx

end WebhookEndpointsController

namespace DashboardWebhooksController

/-- `create` (dashboard-webhooks.controller.ts, lines 27–43). -/
def create (url : String) : Method where
  verb := "POST"
  access := .roles [.owner, .admin]
  operation userId ctx := do
    let userId ← currentUserId userId
    return .createEndpoint ⟨userId, "user"⟩ url ctx

/-- `list` (dashboard-webhooks.controller.ts, lines 45–49). -/
def list : Method where
  verb := "GET"
  access := .session
  operation _ _ := return .listEndpoints

/-- `listDeliveries` (dashboard-webhooks.controller.ts, lines 51–58), with the default `limit` of
    the service. -/
def listDeliveries (id : String) : Method where
  verb := "GET"
  access := .session
  operation _ _ := return .listDeliveries id 50

/-- `revoke` (dashboard-webhooks.controller.ts, lines 60–76). -/
def revoke (id : String) : Method where
  verb := "DELETE"
  access := .roles [.owner, .admin]
  operation userId ctx := do
    let userId ← currentUserId userId
    return .revokeEndpoint id ⟨userId, "user"⟩ ctx

end DashboardWebhooksController

namespace DashboardInvoicesController

/-- `list` (dashboard-invoices.controller.ts, lines 31–43). -/
def list (page limit : ℕ) : Method where
  verb := "GET"
  access := .session
  operation _ _ := return .listInvoices page limit

/-- `getById` (dashboard-invoices.controller.ts, lines 45–49). -/
def getById (id : String) : Method where
  verb := "GET"
  access := .session
  operation _ _ := return .getInvoice id

end DashboardInvoicesController

namespace WalletAddressesController

/-- `list` (wallet-addresses.controller.ts, lines 27–30). -/
def list : Method where
  verb := "GET"
  access := .session
  operation _ _ := return .listWalletAddresses

/-- `set` (wallet-addresses.controller.ts, lines 32–42). -/
def set (body : SetWalletAddressInput) : Method where
  verb := "PUT"
  access := .roles [.owner, .admin]
  operation userId ctx := do
    let userId ← currentUserId userId
    return .setWalletAddress userId body ctx

end WalletAddressesController

/-- The methods of the six controllers, with what the client sends. -/
inductive Route where
  | createInvoice (body : CreateInvoiceInput)
  | getInvoice (id : String)
  | createApiKey (body : CreateApiKeyInput)
  | listApiKeys
  | revokeApiKey (id : String)
  | createEndpoint (url : String)
  | listEndpoints
  | revokeEndpoint (id : String)
  | dashboardCreateEndpoint (url : String)
  | dashboardListEndpoints
  | dashboardListDeliveries (id : String)
  | dashboardRevokeEndpoint (id : String)
  | dashboardListInvoices (page limit : ℕ)
  | dashboardGetInvoice (id : String)
  | listWalletAddresses
  | setWalletAddress (body : SetWalletAddressInput)

def Route.method : Route → Method
  | .createInvoice body => InvoicesController.create body
  | .getInvoice id => InvoicesController.getById id
  | .createApiKey body => ApiKeysController.create body
  | .listApiKeys => ApiKeysController.list
  | .revokeApiKey id => ApiKeysController.revoke id
  | .createEndpoint url => WebhookEndpointsController.create url
  | .listEndpoints => WebhookEndpointsController.list
  | .revokeEndpoint id => WebhookEndpointsController.revoke id
  | .dashboardCreateEndpoint url => DashboardWebhooksController.create url
  | .dashboardListEndpoints => DashboardWebhooksController.list
  | .dashboardListDeliveries id => DashboardWebhooksController.listDeliveries id
  | .dashboardRevokeEndpoint id => DashboardWebhooksController.revoke id
  | .dashboardListInvoices page limit => DashboardInvoicesController.list page limit
  | .dashboardGetInvoice id => DashboardInvoicesController.getById id
  | .listWalletAddresses => WalletAddressesController.list
  | .setWalletAddress body => WalletAddressesController.set body

/-! ## A request -/

section Run

variable (K : Sessions) (C : Config A) (request : HttpRequest)

/-- A check that may refuse the request. -/
def check {α : Type} (x : Except Error α) : Action A α := .ofExcept (x.mapError .app)

/-- `SessionAuthGuard`, then `OrganizationScopeGuard`: the user and the scope. -/
def sessionScope : Action A (String × Scope) := do
  let userId ← sessionAuth K request
  let scope ← organizationScope (some userId) (request.header "x-organization-id")
  return (userId, scope)

/-- What the guards leave to the handler: the caller and the organization. -/
def Method.guards (m : Method) : Action A (String × String) :=
  match m.access with
  | .scopes required => do
    let apiKey ← apiKeyAuth C (request.header "authorization")
    check (scopesGuard required apiKey.scopes)
    return (apiKey.id, apiKey.organizationId)
  | .session => do
    let (userId, scope) ← sessionScope K request
    return (userId, scope.organizationId)
  | .roles required => do
    let (userId, scope) ← sessionScope K request
    check (rolesGuard required scope.role)
    check (csrfGuard K request m.verb)
    return (userId, scope.organizationId)

/-- The guards, the parameters and the body of the method. -/
def Method.run (m : Method) : Action A Unit := do
  let (callerId, organizationId) ← m.guards K C request
  let organizationId ← check (currentOrganizationId organizationId)
  let operation ← check (m.operation callerId (extractRequestContext request))
  let _ ← operation.run C organizationId
  return ()

end Run

/-- What may run: a request to a route, and what `Services` runs beside it. -/
inductive RouteJob (κ : Type) where
  | route (request : HttpRequest) (r : Route)
  | touch (authorization : Option String)
  | payments (job : κ)
  | webhooks (queue : Webhooks.QueueName)

instance : Inhabited (RouteJob κ) := ⟨.webhooks .dispatch⟩

/-- The program of a job. -/
def RouteJob.launch (K : Sessions) (C : Config A) (W : Workload (effects A) Error κ) :
    RouteJob κ → Action A Unit
  | .route request r => r.method.run K C request
  | .touch authorization => touchLastUsed C authorization
  | .payments job => ofPayments (W.launch job)
  | .webhooks queue => ofWebhooks (Webhooks.launch C.cipher.toPlatform C.ENCRYPTION_KEY queue)

/-- Any number of them in flight. -/
def routed (K : Sessions) (C : Config A) (W : Workload (effects A) Error κ) :
    Workload (calls A) Thrown (RouteJob κ) where
  launch := RouteJob.launch K C W
  compatible _ _ := true
  symm _ _ := rfl

/-! ## Writes and guards -/

/-- The guards behind which a write may stand; `none` is any. -/
def Op.needs : Op A → Option (List Access)
  | .db (.apiKeyCreate _) => some [.roles [.owner, .admin]]
  | .db (.apiKeyUpdate ..) => some [.roles [.owner, .admin]]
  | .db (.webhookEndpointCreate _) => some [.roles [.owner, .admin], .scopes ["webhooks:write"]]
  | .db (.webhookEndpointRevoke ..) => some [.roles [.owner, .admin], .scopes ["webhooks:write"]]
  | .payments (.prisma (.merchantWalletAddressUpsert _)) => some [.roles [.owner, .admin]]
  | .payments (.prisma (.invoiceCreate _)) => some [.scopes ["invoices:write"]]
  | .payments (.prisma (.transaction [.merchantWalletAddressCreate _])) =>
    some [.scopes ["invoices:write"]]
  | _ => none

/-- The guards behind which an operation may stand. -/
def Operation.needs : Operation → Option (List Access)
  | .createApiKey .. => some [.roles [.owner, .admin]]
  | .revokeApiKey .. => some [.roles [.owner, .admin]]
  | .setWalletAddress .. => some [.roles [.owner, .admin]]
  | .createEndpoint .. => some [.roles [.owner, .admin], .scopes ["webhooks:write"]]
  | .revokeEndpoint .. => some [.roles [.owner, .admin], .scopes ["webhooks:write"]]
  | .createInvoice .. => some [.scopes ["invoices:write"]]
  | _ => none

/-- An operation needs what its writes need. -/
theorem Operation.Makes.needs {o : Operation} {op : Op A} (hop : o.Makes op)
    {accesses : List Access} (h : op.needs = some accesses) : o.needs = some accesses := by
  cases op with
  | db call =>
    cases call with
    | webhookEndpointCreate d => obtain ⟨actor, rawUrl, ctx, rfl⟩ := hop; exact h
    | webhookEndpointRevoke id t => obtain ⟨id, actor, ctx, rfl⟩ := hop; exact h
    | apiKeyCreate d => obtain ⟨input, actorId, ctx, rfl⟩ := hop; exact h
    | apiKeyUpdate id d => obtain ⟨id, actorId, ctx, rfl⟩ := hop; exact h
    | _ => cases h
  | payments op =>
    cases op with
    | prisma call =>
      cases call with
      | merchantWalletAddressUpsert row => obtain ⟨userId, input, ctx, rfl⟩ := hop; exact h
      | invoiceCreate d => obtain ⟨apiKeyId, input, ctx, rfl⟩ := hop; exact h
      | transaction ws =>
        rcases hop with ⟨row, rfl⟩ | ⟨⟨row, rfl⟩, apiKeyId, input, ctx, rfl⟩
        · cases h
        · exact h
      | _ => cases h
    | _ => cases h
  | _ => cases h

/-- The route may run the operation. -/
def Route.Runs (r : Route) (o : Operation) : Prop :=
  ∃ callerId ctx, r.method.operation callerId ctx = .ok o

/-- The operation of a method that reads its caller first. -/
theorem ok_of_caller {x : Except Error String} {f : String → Operation} {o : Operation}
    (h : (do let a ← x; return f a) = Except.ok o) : ∃ a, o = f a := by
  cases x with
  | error e => cases h
  | ok a => exact ⟨a, (Except.ok.inj h).symm⟩

/-- Every route has the guards that its operation needs. -/
theorem Route.Runs.access {r : Route} {o : Operation} (ho : r.Runs o) {accesses : List Access}
    (h : o.needs = some accesses) : r.method.access ∈ accesses := by
  obtain ⟨callerId, ctx, ho⟩ := ho
  cases r with
  | createInvoice body =>
    obtain ⟨apiKeyId, rfl⟩ := ok_of_caller ho
    cases h
    exact List.mem_cons_self
  | createApiKey body =>
    obtain ⟨userId, rfl⟩ := ok_of_caller ho
    cases h
    exact List.mem_cons_self
  | revokeApiKey id =>
    obtain ⟨userId, rfl⟩ := ok_of_caller ho
    cases h
    exact List.mem_cons_self
  | createEndpoint url =>
    obtain ⟨apiKeyId, rfl⟩ := ok_of_caller ho
    cases h
    exact List.mem_cons_of_mem _ List.mem_cons_self
  | revokeEndpoint id =>
    obtain ⟨apiKeyId, rfl⟩ := ok_of_caller ho
    cases h
    exact List.mem_cons_of_mem _ List.mem_cons_self
  | dashboardCreateEndpoint url =>
    obtain ⟨userId, rfl⟩ := ok_of_caller ho
    cases h
    exact List.mem_cons_self
  | dashboardRevokeEndpoint id =>
    obtain ⟨userId, rfl⟩ := ok_of_caller ho
    cases h
    exact List.mem_cons_self
  | setWalletAddress body =>
    obtain ⟨userId, rfl⟩ := ok_of_caller ho
    cases h
    exact List.mem_cons_self
  | _ =>
    cases ho
    cases h

/-! ## What a request has shown -/

/-- The request has a key with the scopes, for the organization. -/
def HasKey (C : Config A) (h : Requests A) (request : HttpRequest) (required : List String)
    (org : String) (k : ApiKey) : Prop :=
  ∃ raw pid now, bearerKey (request.header "authorization") = .ok raw ∧
    ⟨pid, .db (.apiKeyFindUnique (hashApiKey C raw)), .ok (some k)⟩ ∈ h ∧
    ⟨pid, .payments .now, now⟩ ∈ h ∧ ApiKey.ended k now = false ∧ k.organizationId = org ∧
    ∀ scope ∈ required, scope ∈ k.scopes

/-- The request has the session of a user. -/
def HasSession (K : Sessions) (h : Requests A) (request : HttpRequest) (userId : String) : Prop :=
  ∃ token pid now, request.cookie "cp_at" = some token ∧ ⟨pid, .payments .now, now⟩ ∈ h ∧
    K.verify token now = .ok userId

/-- The request has the session of a member of the organization, with the role. -/
def HasRole (K : Sessions) (h : Requests A) (request : HttpRequest) (org : String)
    (role : MembershipRole) : Prop :=
  ∃ userId pid, ∃ rows : List Scope, HasSession K h request userId ∧
    ⟨pid, .db (.membershipFindMany userId), .ok rows⟩ ∈ h ∧ ⟨org, role⟩ ∈ rows

/-- What the guards of a method have seen. -/
def Shown (K : Sessions) (C : Config A) (h : Requests A) (request : HttpRequest) (m : Method)
    (org : String) : Prop :=
  match m.access with
  | .scopes required => ∃ k, HasKey C h request required org k
  | .session => ∃ role, HasRole K h request org role
  | .roles required => ∃ role, HasRole K h request org role ∧ (required = [] ∨ role ∈ required) ∧
      ∃ ok, Api.canActivate K.upper (request.csrf m.verb) = .ok ok

section Mono

variable {K : Sessions} {C : Config A} {h h' : Requests A} {request : HttpRequest} {org : String}

theorem HasKey.mono (hs : h ⊆ h') {required : List String} {k : ApiKey}
    (hk : HasKey C h request required org k) : HasKey C h' request required org k := by
  obtain ⟨raw, pid, now, hraw, hfind, hnow, hrest⟩ := hk
  exact ⟨raw, pid, now, hraw, hs hfind, hs hnow, hrest⟩

theorem HasSession.mono (hs : h ⊆ h') {userId : String} (hu : HasSession K h request userId) :
    HasSession K h' request userId := by
  obtain ⟨token, pid, now, htoken, hnow, hverify⟩ := hu
  exact ⟨token, pid, now, htoken, hs hnow, hverify⟩

theorem HasRole.mono (hs : h ⊆ h') {role : MembershipRole} (hr : HasRole K h request org role) :
    HasRole K h' request org role := by
  obtain ⟨userId, pid, rows, hu, hrows, hrole⟩ := hr
  exact ⟨userId, pid, rows, hu.mono hs, hs hrows, hrole⟩

theorem Shown.mono (hs : h ⊆ h') {m : Method} (hm : Shown K C h request m org) :
    Shown K C h' request m org := by
  unfold Shown at hm ⊢
  split at hm
  · exact hm.imp fun _ hk => hk.mono hs
  · exact hm.imp fun _ hr => hr.mono hs
  · exact hm.imp fun _ hr => ⟨hr.1.mono hs, hr.2⟩

end Mono

section Walk

variable {K : Sessions} {C : Config A} {pid : ℕ} {h : Requests A} {request : HttpRequest}
  {E : Requests A → Op A → Prop}

theorem check_obeys {α : Type} {x : Except Error α} {Q : α → Requests A → Prop}
    (hQ : ∀ a, x = .ok a → Q a h) : (check x : Action A α).Obeys E pid Q (fun _ _ => True) h :=
  Prog.obeys_ofExcept.mpr ⟨fun a ha => hQ a (ok_of_mapError ha), fun _ _ => trivial⟩

theorem sessionAuth_obeys (hE : ∀ h op, GuardOp op → E h op) :
    (sessionAuth K request : Action A String).Obeys E pid
      (fun userId h' => HasSession K h' request userId) (fun _ _ => True) h := by
  unfold sessionAuth
  split
  · trivial
  · rename_i token htoken
    split_ifs
    · trivial
    · refine Prog.obeys_bind.mpr (dateNow_obeys (hE _ _ (by trivial)) fun now => ?_)
      split
      · rename_i sub hsub
        exact ⟨token, pid, now, htoken, List.mem_cons_self, hsub⟩
      · trivial

theorem sessionScope_obeys (hE : ∀ h op, GuardOp op → E h op) :
    (sessionScope K request : Action A (String × Scope)).Obeys E pid
      (fun x h' => HasRole K h' request x.2.organizationId x.2.role) (fun _ _ => True) h := by
  refine Prog.obeys_bind.mpr ((sessionAuth_obeys hE).post (fun userId h₁ hsession => ?_)
    fun _ _ _ => trivial)
  have hscope : (organizationScope (some userId) (request.header "x-organization-id") :
      Action A Scope).Obeys E pid (fun scope h' => HasRole K h' request scope.organizationId
        scope.role) (fun _ _ => True) h₁ := by
    unfold organizationScope
    split_ifs
    · trivial
    · refine Prog.obeys_bind.mpr (prisma_obeys (hE _ _ (by trivial)) fun rows => ?_)
      refine Prog.obeys_ofExcept.mpr ⟨fun scope hscope => ?_, fun _ _ => trivial⟩
      exact ⟨userId, pid, rows, hsession.mono (List.subset_cons_self _ _), List.mem_cons_self,
        Organizations.scopeOf_mem (ok_of_mapError hscope)⟩
  exact Prog.obeys_bind.mpr (hscope.post (fun _ _ hr => hr) fun _ _ _ => trivial)

/-- `ApiKeyAuthGuard` admits the key that it has read. -/
theorem apiKeyAuth_hasKey (hE : ∀ h op, GuardOp op → E h op) :
    (apiKeyAuth C (request.header "authorization")).Obeys E pid
      (fun k h' => HasKey C h' request [] (ApiKey.organizationId k) k) (fun _ _ => True) h := by
  refine Prog.obeys_bind.mpr (Prog.obeys_ofExcept.mpr ⟨fun raw hraw => ?_, fun _ _ => trivial⟩)
  refine Prog.obeys_bind.mpr (prisma_obeys (hE _ _ (by trivial)) fun r => ?_)
  cases r with
  | none => trivial
  | some k =>
    refine Prog.obeys_bind.mpr (dateNow_obeys (hE _ _ (by trivial)) fun now => ?_)
    by_cases hended : ApiKey.ended k now = true
    · rw [if_pos hended]
      trivial
    · rw [if_neg hended]
      exact ⟨raw, pid, now, ok_of_mapError hraw, List.mem_cons_of_mem _ List.mem_cons_self,
        List.mem_cons_self, Bool.eq_false_iff.mpr hended, rfl, nofun⟩

theorem scopesGuard_ok {required granted : List String} {u : Unit}
    (h : scopesGuard required granted = .ok u) : ∀ scope ∈ required, scope ∈ granted := by
  unfold scopesGuard at h
  split_ifs at h with hall
  exact hall

theorem rolesGuard_ok {required : List MembershipRole} {role : MembershipRole} {u : Unit}
    (h : rolesGuard required role = .ok u) : required = [] ∨ role ∈ required := by
  unfold rolesGuard at h
  split_ifs at h with hrole
  exact hrole

theorem csrfGuard_ok {verb : String} {u : Unit} (h : csrfGuard K request verb = .ok u) :
    ∃ ok, Api.canActivate K.upper (request.csrf verb) = .ok ok := by
  unfold csrfGuard at h
  cases hc : Api.canActivate K.upper (request.csrf verb) with
  | ok ok => exact ⟨ok, rfl⟩
  | error e =>
    rw [hc] at h
    cases h

/-- The guards let a request through that has shown what they ask for. -/
theorem guards_show (hE : ∀ h op, GuardOp op → E h op) (m : Method) :
    (m.guards K C request).Obeys E pid (fun x h' => Shown K C h' request m x.2)
      (fun _ _ => True) h := by
  unfold Method.guards Shown
  split
  · refine Prog.obeys_bind.mpr ((apiKeyAuth_hasKey hE).post (fun k h' hk => ?_) fun _ _ _ => trivial)
    obtain ⟨raw, pid, now, hraw, hfind, hnow, hlive, -, -⟩ := hk
    refine Prog.obeys_bind.mpr (check_obeys fun u hscopes => ?_)
    exact ⟨k, raw, pid, now, hraw, hfind, hnow, hlive, rfl, scopesGuard_ok hscopes⟩
  · exact Prog.obeys_bind.mpr ((sessionScope_obeys hE).post (fun x h' hr => ⟨x.2.role, hr⟩)
      fun _ _ _ => trivial)
  · refine Prog.obeys_bind.mpr ((sessionScope_obeys hE).post (fun x h' hr => ?_)
      fun _ _ _ => trivial)
    refine Prog.obeys_bind.mpr (check_obeys fun u hrole => ?_)
    refine Prog.obeys_bind.mpr (check_obeys fun u hcsrf => ?_)
    exact ⟨x.2.role, hr, rolesGuard_ok hrole, csrfGuard_ok hcsrf⟩

/-- What a job asks for. -/
def RouteExpected (K : Sessions) (C : Config A) : RouteJob κ → Requests A → Op A → Prop
  | .route request r, h, op => GuardOp op ∨ ∃ org, Shown K C h request r.method org ∧
      OpOf org h op ∧ ∀ accesses, op.needs = some accesses → r.method.access ∈ accesses
  | .touch _, _, op => GuardOp op ∨ ∃ id t, op = .db (.apiKeyUpdate id { lastUsedAt := some t })
  | .payments _, _, op => ∃ o, op = .payments o
  | .webhooks _, _, op => ∃ o, op = .webhooks o

/-- Past its guards, a request has shown what its method asks for, and makes calls of the
    organization that it has shown it for. -/
theorem run_shows (r : Route) :
    (r.method.run K C request).Obeys (RouteExpected (κ := κ) K C (.route request r)) pid
      (fun _ _ => True) (fun _ _ => True) h := by
  refine Prog.obeys_bind.mpr ((guards_show (fun _ _ => .inl) r.method).post (fun x h₁ hshown => ?_)
    fun _ _ _ => trivial)
  refine Prog.obeys_bind.mpr (check_obeys fun org horg => ?_)
  refine Prog.obeys_bind.mpr (check_obeys fun o ho => ?_)
  have hsame : org = x.2 := by
    unfold currentOrganizationId at horg
    split_ifs at horg
    exact (Except.ok.inj horg).symm
  have hruns : r.Runs o := ⟨x.1, _, ho⟩
  have hmakes : (o.run C org).Obeys (fun _ => o.Makes) pid (fun _ _ => True) (fun _ _ => True) h₁ :=
    .only (I := fun _ => True) (run_makes o) (fun _ _ hop _ => hop) (fun _ _ _ _ _ => trivial)
      trivial
  refine Prog.obeys_bind.mpr ((((run_obeys o).and hmakes).imp fun h₂ op hs hop => ?_).post
    (fun _ _ _ => trivial) fun _ _ _ => trivial)
  exact .inr ⟨org, hsame ▸ hshown.mono hs.subset, hop.1, fun accesses hneeds =>
    hruns.access (hop.2.needs hneeds)⟩

end Walk

/-- Every job asks for what is expected of it. -/
theorem routed_obeys (K : Sessions) (C : Config A) (W : Workload (effects A) Error κ) :
    (routed K C W).Obeys (RouteExpected K C) := by
  have hquiet : ∀ {α : Type} {p : Action A α} {F : Op A → Prop} {j : RouteJob κ} {pid : ℕ},
      p.Only F → (∀ h op, F op → RouteExpected K C j h op) →
      p.Obeys (RouteExpected K C j) pid (fun _ _ => True) (fun _ _ => True) [] := fun hp hE =>
    .only (I := fun _ => True) hp (fun op h hop _ => hE h op hop) (fun _ _ _ _ _ => trivial) trivial
  intro j pid
  cases j with
  | route request r => exact run_shows r
  | touch authorization =>
    refine Prog.obeys_bind.mpr ((apiKeyAuth_obeys (fun _ _ => .inl) authorization).post
      (fun k h _ => ?_) fun _ _ _ => trivial)
    refine Prog.obeys_bind.mpr (dateNow_obeys (.inl trivial) fun now => ?_)
    exact Prog.obeys_bind.mpr (Prog.obeys_attempt.mpr (prisma_obeys (.inr ⟨_, now, rfl⟩)
      fun _ => trivial))
  | payments job => exact hquiet (ofPayments_payments _) fun _ _ hop => hop
  | webhooks queue => exact hquiet (ofWebhooks_webhooks _) fun _ _ hop => hop

end CryptoPay.Tenancy
