import CryptoPay.Tenancy.Routes
import CryptoPay.Tenancy.WebhookSecrets

/-!
# On whose authority

A write of an organization's keys, endpoints, deposit addresses or invoices
stands behind the session of an owner or an admin with a CSRF token, or behind an
API key with a scope; and a key exists because an owner or an admin created it
with its scopes. So every such write leads back to an owner or an admin.

Results:
* `Stems.granted`: a key is created by a request of an owner or an admin only.
* `writes_authorized`: on whose authority a route writes, whatever runs beside it.
-/

namespace CryptoPay.Tenancy

open Async Data

open Api (CreateInvoiceInput SetWalletAddressInput HeaderValue)

open Organizations (Scope MembershipRole)

variable {A : Signature} {ω ι η κ : Type} {K : Sessions} {C : Config A} {B : Backend A ω ι η}
  {W : Workload (effects A) Error κ}

/-! ## Owners and admins -/

/-- The request has the session of an owner or an admin of the organization, and has passed the
    CSRF check. -/
def AsAdmin (K : Sessions) (h : Requests A) (request : HttpRequest) (verb org : String) : Prop :=
  ∃ role, HasRole K h request org role ∧ role ∈ [MembershipRole.owner, .admin] ∧
    ∃ ok, Api.canActivate K.upper (request.csrf verb) = .ok ok

/-- The key was created: it has the organization and the scopes that it was given then. -/
def Stems (tr : Requests A) (k : ApiKey) : Prop :=
  ∃ d pid r now, ⟨pid, .db (.apiKeyCreate d), r⟩ ∈ tr ∧ (ApiKeyCreateInput.row now d).Becomes k

/-- An owner or an admin has created the key: on the way to `s` a request to a route awaited its
    creation, with the organization and the scopes that it has, and that same request had the
    session of an owner or an admin of the organization and had passed the CSRF check. -/
def Granted (K : Sessions) (C : Config A) (B : Backend A ω ι η) (W : Workload (effects A) Error κ)
    (s : System (calls A) Thrown (RouteJob κ) (State ω)) (k : ApiKey) : Prop :=
  ∃ s₁ p request route d cont r now, Reachable (machine B) (routed K C W) NoKeys anything s₁ ∧
    Leads (machine B) (routed K C W) anything s₁ s ∧
    p ∈ s₁.procs ∧ p.job = .route request route ∧ p.prog = .await (.db (.apiKeyCreate d)) cont ∧
    (⟨p.pid, .db (.apiKeyCreate d), r⟩ :: s₁.config.trace) <:+ s.config.trace ∧
    AsAdmin K (own p.pid s₁.config.trace) request route.method.verb d.organizationId ∧
    (ApiKeyCreateInput.row now d).Becomes k

theorem AsAdmin.mono {h h' : Requests A} (hs : h ⊆ h') {request : HttpRequest} {verb org : String}
    (ha : AsAdmin K h request verb org) : AsAdmin K h' request verb org := by
  obtain ⟨role, hrole, hrest⟩ := ha
  exact ⟨role, hrole.mono hs, hrest⟩

theorem Stems.mono {tr tr' : Requests A} (hs : tr ⊆ tr') {k : ApiKey} (hk : Stems tr k) :
    Stems tr' k := by
  obtain ⟨d, pid, r, now, hmem, hb⟩ := hk
  exact ⟨d, pid, r, now, hs hmem, hb⟩

theorem Stems.becomes {tr : Requests A} {k k' : ApiKey} (hk : Stems tr k) (hb : k.Becomes k') :
    Stems tr k' := by
  obtain ⟨d, pid, r, now, hmem, hb'⟩ := hk
  exact ⟨d, pid, r, now, hmem, hb'.trans hb⟩

/-- No write stands behind a session alone, or behind other roles. -/
theorem needs_mem {op : Op A} {accesses : List Access} (h : op.needs = some accesses)
    {access : Access} (ha : access ∈ accesses) :
    access = .roles [.owner, .admin] ∨ ∃ required, access = .scopes required := by
  have hall : accesses = [.roles [.owner, .admin]] ∨ accesses = [.scopes ["invoices:write"]] ∨
      accesses = [.roles [.owner, .admin], .scopes ["webhooks:write"]] := by
    unfold Op.needs at h
    split at h
    all_goals first | cases h; simp | cases h
  rcases hall with rfl | rfl | rfl
  · exact .inl (List.mem_singleton.mp ha)
  · exact .inr ⟨_, List.mem_singleton.mp ha⟩
  · rcases List.mem_cons.mp ha with heq | ha
    · exact .inl heq
    · exact .inr ⟨_, List.mem_singleton.mp ha⟩

/-- What the guards ask for is no write. -/
theorem GuardOp.needs {op : Op A} (h : GuardOp op) : op.needs = none := by
  cases op with
  | db call => cases call <;> first | exact h.elim | rfl
  | payments op => cases op <;> first | exact h.elim | rfl
  | _ => exact h.elim

/-- What the guards of a route have seen is one of the two. -/
theorem Shown.cases {h : Requests A} {request : HttpRequest} {m : Method} {org : String}
    (hshown : Shown K C h request m org) {op : Op A} {accesses : List Access}
    (hneeds : op.needs = some accesses) (hm : m.access ∈ accesses) :
    AsAdmin K h request m.verb org ∨
      ∃ required k, .scopes required ∈ accesses ∧ HasKey C h request required org k := by
  unfold Shown at hshown
  split at hshown
  · rename_i required heq
    obtain ⟨k, hk⟩ := hshown
    exact .inr ⟨required, k, heq ▸ hm, hk⟩
  · rename_i heq
    rcases needs_mem hneeds hm with hroles | ⟨required, hscopes⟩
    · cases heq.symm.trans hroles
    · cases heq.symm.trans hscopes
  · rename_i required heq
    rcases needs_mem hneeds hm with hroles | ⟨required, hscopes⟩
    · cases heq.symm.trans hroles
      obtain ⟨role, hrole, hin, hok⟩ := hshown
      exact .inl ⟨role, hrole, hin.resolve_left (List.cons_ne_nil _ _), hok⟩
    · cases heq.symm.trans hscopes

/-- A job that creates a key is a request of an owner or an admin. -/
theorem creates_asAdmin {j : RouteJob κ} {h : Requests A} {d : ApiKeyCreateInput}
    (hE : RouteExpected K C j h (.db (.apiKeyCreate d))) :
    ∃ request route, j = .route request route ∧
      AsAdmin K h request route.method.verb d.organizationId := by
  cases j with
  | route request r =>
    rcases hE with hguard | ⟨org, hshown, hop, hneeds⟩
    · exact hguard.elim
    · obtain rfl : d.organizationId = org := hop
      have haccess : (Op.db (.apiKeyCreate d) : Op A).needs = some [.roles [.owner, .admin]] := rfl
      rcases hshown.cases haccess (hneeds _ haccess) with ha | ⟨required, k, hmem, -⟩
      · exact ⟨request, r, rfl, ha⟩
      · cases List.mem_singleton.mp hmem
  | touch authorization =>
    rcases hE with hguard | ⟨id, t, heq⟩
    · exact hguard.elim
    · cases heq
  | payments job =>
    obtain ⟨o, heq⟩ := hE
    cases heq
  | webhooks queue =>
    obtain ⟨o, heq⟩ := hE
    cases heq

/-! ## Keys -/

/-- Every key, stored or found, was created. -/
structure KeysStem (c : Async.Config (calls A) (State ω)) : Prop where
  stored : ∀ k ∈ c.state.db.apiKeys, Stems c.trace k
  found : ∀ pid keyHash k, ⟨pid, .db (.apiKeyFindUnique keyHash), .ok (some k)⟩ ∈ c.trace →
    Stems c.trace k

section Runs

variable {s : System (calls A) Thrown (RouteJob κ) (State ω)}

theorem keys_stem (hs : Reachable (machine B) (routed K C W) NoKeys anything s) :
    KeysStem s.config := by
  refine Reachable.invariant (I := KeysStem) (routed_obeys K C W)
    (fun s h₀ => ⟨fun k hk => absurd hk (h₀ k), nofun⟩) (fun c act state hI hact => ?_)
    (fun c ev state hI hans => ?_) hs
  · exact ⟨fun k hk => hI.stored k ((environment_apiKeys hact k).mp hk), hI.found⟩
  · obtain ⟨i, hr⟩ := hans.reply
    have hsub : c.trace ⊆ ev :: c.trace := List.subset_cons_self ev c.trace
    refine ⟨fun k hk => ?_, fun pid keyHash k hmem => ?_⟩
    · rcases respond_newKey hr hk with ⟨k₀, hk₀, hb⟩ | ⟨d, hop, rfl⟩
      · exact ((hI.stored k₀ hk₀).mono hsub).becomes hb
      · obtain ⟨pid, op, r⟩ := ev
        subst hop
        exact ⟨d, pid, r, c.state.clock, List.mem_cons_self, .refl _⟩
    · rcases List.mem_cons.mp hmem with heq | hmem
      · subst heq
        exact (hI.stored k (looked_up hr).1).mono hsub
      · exact (hI.found pid keyHash k hmem).mono hsub

/-- Only a request of an owner or an admin creates a key. -/
theorem Stems.granted (hs : Reachable (machine B) (routed K C W) NoKeys anything s) {k : ApiKey}
    (hk : Stems s.config.trace k) : Granted K C B W s k := by
  obtain ⟨d, pid, r, now, hmem, hb⟩ := hk
  obtain ⟨tr, htr⟩ := exists_suffix_of_mem hmem
  obtain ⟨s₁, hs₁, htrace, ⟨p, hp, hpid, cont, hcont⟩, -, hl⟩ := Reachable.answered hs htr
  obtain ⟨-, hobeys⟩ := (hs₁.tracked (routed_obeys K C W)).prog p hp
  rw [hcont] at hobeys
  obtain ⟨request, route, hjob, ha⟩ := creates_asAdmin hobeys.1
  obtain rfl : p.pid = pid := hpid
  exact ⟨s₁, p, request, route, d, cont, r, now, hs₁, hl, hp, hjob, hcont, htrace ▸ htr, ha, hb⟩

/-- On whose authority a write of the organization is made that may stand behind these guards. -/
def Authorized (K : Sessions) (C : Config A) (B : Backend A ω ι η)
    (W : Workload (effects A) Error κ) (s : System (calls A) Thrown (RouteJob κ) (State ω))
    (h : Requests A) (request : HttpRequest) (verb org : String) (accesses : List Access) : Prop :=
  AsAdmin K h request verb org ∨
    ∃ required k, .scopes required ∈ accesses ∧ HasKey C h request required org k ∧
      Granted K C B W s k

/-- Whatever runs beside it: when a route writes a key, an endpoint, a deposit address or an
    invoice, the write is of one organization, and the request has the session of an owner or an
    admin of it with a CSRF token, or it has a key of it with the scope that the write needs, and
    that key was created with its scopes by a request of an owner or an admin. -/
theorem writes_authorized (hs : Reachable (machine B) (routed K C W) NoKeys anything s)
    {p : Proc (calls A) Thrown (RouteJob κ)} (hp : p ∈ s.procs) {request : HttpRequest} {r : Route}
    (hjob : p.job = .route request r) {ev : Event (calls A)} (hev : ev ∈ s.config.trace)
    (hpid : ev.pid = p.pid) {accesses : List Access} (hneeds : ev.op.needs = some accesses) :
    ∃ org, OpOf org (own p.pid s.config.trace) ev.op ∧
      Authorized K C B W s (own p.pid s.config.trace) request r.method.verb org accesses := by
  obtain ⟨hin, -⟩ := (hs.tracked (routed_obeys K C W)).prog p hp
  obtain ⟨h, hsuf, hE⟩ := hin.mem (mem_own.mpr ⟨hev, hpid⟩)
  have hsub : h ⊆ own p.pid s.config.trace := fun x hx => hsuf.subset (List.mem_cons_of_mem _ hx)
  rw [hjob] at hE
  rcases hE with hguard | ⟨org, hshown, hop, haccess⟩
  · cases hguard.needs.symm.trans hneeds
  · refine ⟨org, hop.mono hsub, ?_⟩
    rcases hshown.cases hneeds (haccess accesses hneeds) with ha | ⟨required, k, hmem, hk⟩
    · exact .inl (ha.mono hsub)
    · obtain ⟨raw, pid, now, -, hfind, -⟩ := hk.mono hsub
      exact .inr ⟨required, k, hmem, hk.mono hsub,
        ((keys_stem hs).found pid _ k (mem_own.mp hfind).1).granted hs⟩

end Runs

/-! ## From Ann's session to an endpoint -/

/-- The session of Ann for the first 900 seconds, signed with the secret of the samples. -/
def annsToken : String :=
  "eyJhbGciOiJIUzI1NiJ9.eyJzdWIiOiJ1c3JfMSIsImlhdCI6MCwiZXhwIjo5MDB9" ++
    ".rBhNHQJZPHGkAFYRKECxzBs9ADXaVyJtzsu361c_cm8"

/-- `jwtVerify` on Ann's session. -/
def sampleSessions : Sessions where
  jwtVerify token now :=
    if token = annsToken ∧ now / 1000 < 900 then some (some "usr_1") else none
  upper := Api.toUpperCase

/-- The configuration of the samples, with the key and the secret of 24 bytes `00`. -/
def routeConfig : Config adapterCalls :=
  { keyConfig with
    cipher := { hookCipher with hmacSha256Hex := keyConfig.cipher.hmacSha256Hex }
    ENCRYPTION_KEY := Webhooks.sampleKey }

/-- The browser of Ann: her session, and her CSRF token in a cookie and in a header. -/
def annsBrowser : HttpRequest where
  cookies := some fun name =>
    if name = "cp_at" then some annsToken
    else if name = "cp_csrf" then some "00112233445566778899aabbccddeeff0011223344556677"
    else none
  headers name :=
    if name = "x-csrf-token" then
      some (.single "00112233445566778899aabbccddeeff0011223344556677")
    else none
  ip := "203.0.113.9"

/-- A server that has the key. -/
def holdersServer : HttpRequest where
  cookies := none
  headers name :=
    if name = "authorization" then
      some (.single ("Bearer " ++ rawKey routeConfig .test (List.replicate 24 0)))
    else none
  ip := "203.0.113.10"

abbrev RouteMove := Move (RouteJob Empty) (Input Answer) (Act Empty)

abbrev RouteSystem := System (calls adapterCalls) Thrown (RouteJob Empty) (State Unit)

/-- Ann creates a key, and its holder creates an endpoint with it. -/
def endpointByKey : List RouteMove :=
  .start (.route annsBrowser (.createApiKey ⟨"ci", .test, ["webhooks:write"]⟩)) ::
    [.payments .ok, .ok, .bytes (List.replicate 24 0), .payments (.id "key_1"), .ok,
      .payments .ok].map (.perform 0) ++
  .start (.route holdersServer (.createEndpoint "https://m.example/h")) ::
    [.ok, .payments .ok, .webhooks (.addresses (some ["93.184.216.34"])),
      .bytes (List.replicate 24 0), .payments (.id "1"), .bytes (List.replicate 12 0),
      .ok].map (.perform 1)

/-- The job is the request of the holder. -/
def isHolders : RouteJob Empty → Bool
  | .route _ (.createEndpoint _) => true
  | _ => false

theorem isHolders_iff {j : RouteJob Empty} (h : isHolders j = true) :
    ∃ request url, j = .route request (.createEndpoint url) := by
  cases j with
  | route request r =>
    cases r with
    | createEndpoint url => exact ⟨request, url, rfl⟩
    | _ => cases h
  | _ => cases h

/-- The holder's endpoint stands behind Ann, who created the key. -/
theorem writes_authorized_sample : ∃ s : RouteSystem,
    Reachable (machine anyAnswer) (routed sampleSessions routeConfig noPayments) NoKeys anything
      s ∧
    ∃ p ∈ s.procs, ∃ request url, p.job = .route request (.createEndpoint url) ∧
      ∃ ev ∈ s.config.trace, ev.pid = p.pid ∧
        ∃ org, Authorized sampleSessions routeConfig anyAnswer noPayments s
          (own p.pid s.config.trace) request "POST" org
          [.roles [.owner, .admin], .scopes ["webhooks:write"]] := by
  obtain ⟨s, hs, hshown⟩ := Reachable.view (M := machine anyAnswer)
    (W := routed sampleSessions routeConfig noPayments) noKeys_annOwns endpointByKey
    (f := fun s => s.procs.any fun p => isHolders p.job &&
      s.config.trace.any fun ev => ev.pid = p.pid &&
        ev.op.needs = some [.roles [.owner, .admin], .scopes ["webhooks:write"]]) (x := true)
    (by decide +kernel)
  obtain ⟨p, hp, hshown⟩ := List.any_eq_true.mp hshown
  obtain ⟨hholder, hshown⟩ := (Bool.and_eq_true _ _).mp hshown
  obtain ⟨request, url, hjob⟩ := isHolders_iff hholder
  obtain ⟨ev, hev, hshown⟩ := List.any_eq_true.mp hshown
  obtain ⟨hpid, hneeds⟩ := (Bool.and_eq_true _ _).mp hshown
  obtain ⟨org, -, ha⟩ := writes_authorized hs hp hjob hev (of_decide_eq_true hpid)
    (of_decide_eq_true hneeds)
  exact ⟨s, hs, p, hp, request, url, hjob, ev, hev, of_decide_eq_true hpid, org, ha⟩

end CryptoPay.Tenancy
