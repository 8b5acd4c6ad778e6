import CryptoPay.Data.Base64
import CryptoPay.Shared.Numbers
import CryptoPay.Tenancy.ApiKeyLifetime
import CryptoPay.Tenancy.AuditTrail
import CryptoPay.Tenancy.OperationWrites

/-!
# Where an API key comes from

`generateApiKey` (`packages/crypto/src/api-key.ts`) writes 24 random bytes in
base64url after `cp_live_` or `cp_test_`; the service stores the hash. The guard
cuts `Bearer ` off and trims what is left.

Results:
* `bearerKey_generated`: the guard reads a generated key as it was generated.
* `workload_creates`: a key is created from bytes that its creator has drawn, after a
  guard has admitted the creator for the organization.
* `admitted_key_created`: with a key, a request gets past its guard only if the key was
  created so, and then only into the organization that it was created for.
* `created_key_accepted`: until it is revoked, a created key is refused by nothing but a
  failing database.
-/

namespace CryptoPay.Tenancy

open Async Data

open Api (RequestContext CreateInvoiceInput SetWalletAddressInput)

variable {A : Signature} {ω ι η κ : Type} {C : Config A} {B : Backend A ω ι η}
  {W : Workload (effects A) Error κ}

/-! ## The text of a key -/

/-- `GeneratedApiKey.raw` for some random bytes. -/
def rawKey (C : Config A) (environment : ApiKeyEnvironment) (bytes : List UInt8) : String :=
  keyPrefix environment ++ C.toBase64Url bytes

theorem parseApiKeyEnvironment_prefix (environment : ApiKeyEnvironment) (rest : String) :
    parseApiKeyEnvironment (keyPrefix environment ++ rest) = some environment := by
  cases environment with
  | live =>
    have hlive : (keyPrefix .live).toList.isPrefixOf (keyPrefix .live ++ rest).toList = true := by
      rw [String.toList_append, List.isPrefixOf_iff_prefix]
      exact List.prefix_append _ _
    simp only [parseApiKeyEnvironment, hlive, if_true]
  | test =>
    have htest : (keyPrefix .test).toList.isPrefixOf (keyPrefix .test ++ rest).toList = true := by
      rw [String.toList_append, List.isPrefixOf_iff_prefix]
      exact List.prefix_append _ _
    have hlive : (keyPrefix .live).toList.isPrefixOf (keyPrefix .test ++ rest).toList = false := by
      rw [String.toList_append, show (keyPrefix .live).toList = "cp_live_".toList by decide,
        show (keyPrefix .test).toList = "cp_test_".toList by decide]
      rfl
    simp only [parseApiKeyEnvironment, hlive, htest, if_true, Bool.false_eq_true, if_false]

theorem whitespace_base64Url {c : Char} (h : c ∈ base64UrlAlphabet) :
    Api.isWhitespace c = false := by
  have hall : base64UrlAlphabet.all (fun x => !Api.isWhitespace x) = true := by decide
  simpa using List.all_eq_true.mp hall c h

/-- The guard reads a generated key as it was generated. -/
theorem bearerKey_generated (hurl : C.toBase64Url = base64Url) (environment : ApiKeyEnvironment)
    (bytes : List UInt8) :
    bearerKey (some ("Bearer " ++ rawKey C environment bytes)) =
      .ok (rawKey C environment bytes) := by
  have htrim : Api.trim (rawKey C environment bytes) = rawKey C environment bytes := by
    refine Number.trim_eq fun c hc => ?_
    rw [rawKey, String.toList_append, List.mem_append] at hc
    rcases hc with hc | hc
    · have hall : (keyPrefix environment).toList.all (fun x => !Api.isWhitespace x) = true := by
        cases environment <;> decide
      simpa using List.all_eq_true.mp hall c hc
    · rw [hurl, base64Url, String.toList_ofList] at hc
      exact whitespace_base64Url (mem_base64UrlChars hc)
  have hhead : ("Bearer " ++ rawKey C environment bytes).toList =
      "Bearer ".toList ++ (rawKey C environment bytes).toList := String.toList_append ..
  have hprefix : "Bearer ".toList.isPrefixOf ("Bearer " ++ rawKey C environment bytes).toList =
      true := by
    rw [hhead, List.isPrefixOf_iff_prefix]
    exact List.prefix_append _ _
  have hparse : parseApiKeyEnvironment (rawKey C environment bytes) = some environment :=
    parseApiKeyEnvironment_prefix environment _
  have hdrop : String.ofList (("Bearer " ++ rawKey C environment bytes).toList.drop 7) =
      rawKey C environment bytes := by
    rw [hhead, List.drop_left' (by decide), String.ofList_toList]
  unfold bearerKey
  simp only [Option.getD_some, hprefix, Bool.not_true, Bool.false_eq_true, if_false, hdrop, htrim,
    hparse, Option.isNone_some]

/-! ## Creation -/

/-- The data of a new key is that of one generated from bytes that were drawn. -/
def Generated (C : Config A) (h : Requests A) (d : ApiKeyCreateInput) : Prop :=
  ∃ pid bytes, ⟨pid, .randomBytes 24, bytes⟩ ∈ h ∧
    d.keyHash = hashApiKey C (rawKey C d.environment bytes) ∧
    d.keyPrefix = String.ofList ((rawKey C d.environment bytes).toList.take 12)

/-- A request that creates a key creates a generated one, for an organization that its caller has
    been admitted for. -/
def CreatesAdmitted (C : Config A) (h : Requests A) (op : Op A) : Prop :=
  ∀ d, op = .db (.apiKeyCreate d) →
    Generated C h d ∧ ∃ caller, Admitted C h caller d.organizationId

section Creates

variable {org : String} {pid : ℕ} {h : Requests A}

/-- `ApiKeysService.create`, after its caller has been admitted. -/
theorem createApiKey_creates {caller : Caller} (ha : Admitted C h caller org)
    (input : CreateApiKeyInput) (actorId : String) (ctx : RequestContext) :
    (ApiKeys.create C org input actorId ctx).Obeys (CreatesAdmitted C) pid (fun _ _ => True)
      (fun _ _ => True) h := by
  refine ⟨nofun, fun (bytes : List UInt8) => ⟨nofun, fun (id : String) => ?_⟩⟩
  show Prog.Obeys _ _ _ _ (prisma _ >>= _) _
  refine Prog.obeys_bind.mpr (prisma_obeys ?_ fun apiKey => ?_)
  · intro d heq
    cases heq
    have hs : h <:+ ⟨pid, .payments .cuid, id⟩ :: ⟨pid, .randomBytes 24, bytes⟩ :: h :=
      (List.suffix_cons _ _).trans (List.suffix_cons _ _)
    exact ⟨⟨pid, bytes, List.mem_cons_of_mem _ List.mem_cons_self, rfl, rfl⟩, caller,
      ha.mono hs.subset⟩
  · refine Prog.Obeys.only (I := fun _ => True) (.bind (ofPayments_payments _) fun _ => ?_)
      ?_ (fun _ _ _ _ _ => trivial) trivial
    · trivial
    · rintro _ h' ⟨o, rfl⟩ -
      exact nofun

/-- A key is created from bytes that its creator has drawn, after a guard has admitted the creator
    for the organization. -/
theorem workload_creates (C : Config A) (W : Workload (effects A) Error κ) :
    (workload C W).Obeys fun _ => CreatesAdmitted C := by
  refine workload_creates_of W (fun h op hop d heq => ?_)
    (fun caller org h pid input actorId ctx ha => createApiKey_creates ha input actorId ctx)
    fun caller org h pid actor rawUrl ctx _ => ?_
  · subst heq
    exact absurd trivial hop
  · refine Prog.Obeys.only (I := fun _ => True) (createEndpoint_makes actor rawUrl ctx) ?_
      (fun _ _ _ _ _ => trivial) trivial
    rintro _ h' hop - d rfl
    obtain ⟨input, actorId, ctx', ho⟩ := hop
    cases ho

end Creates

/-! ## Keys and lookups -/

/-- A key with this data was created: from bytes that its creator had drawn, by someone who had been
    admitted for the organization. -/
def Created (C : Config A) (tr : Requests A) (d : ApiKeyCreateInput) : Prop :=
  ∃ pid r, ⟨pid, .db (.apiKeyCreate d), r⟩ ∈ tr ∧ Generated C (own pid tr) d ∧
    ∃ caller, Admitted C (own pid tr) caller d.organizationId

theorem Generated.mono {tr tr' : Requests A} (hs : tr ⊆ tr') {d : ApiKeyCreateInput}
    (h : Generated C tr d) : Generated C tr' d := by
  obtain ⟨pid, bytes, hmem, hrest⟩ := h
  exact ⟨pid, bytes, hs hmem, hrest⟩

theorem Created.mono {tr tr' : Requests A} (hs : tr ⊆ tr') {d : ApiKeyCreateInput}
    (h : Created C tr d) : Created C tr' d := by
  obtain ⟨pid, r, hmem, hgenerated, caller, hadmitted⟩ := h
  exact ⟨pid, r, hs hmem, hgenerated.mono (own_of_subset hs pid), caller,
    hadmitted.mono (own_of_subset hs pid)⟩

/-- Every key was created, and every key that was found is still there. -/
structure KeysKnown (C : Config A) (c : Async.Config (calls A) (State ω)) : Prop where
  created : ∀ k ∈ c.state.db.apiKeys, ∃ d now, Created C c.trace d ∧
    (ApiKeyCreateInput.row now d).Becomes k
  found : ∀ pid keyHash k, ⟨pid, .db (.apiKeyFindUnique keyHash), .ok (some k)⟩ ∈ c.trace →
    ApiKey.keyHash k = keyHash ∧ ∃ k' ∈ c.state.db.apiKeys, ApiKey.Becomes k k'

/-- No key is stored yet. -/
def NoKeys (s : State ω) : Prop := ∀ k, k ∉ s.db.apiKeys

section Runs

variable {s s' : System (calls A) Thrown (Job κ) (State ω)}

theorem keys_known (hs : Reachable (machine B) (workload C W) NoKeys anything s) :
    KeysKnown C s.config := by
  refine Reachable.invariant (I := KeysKnown C) (workload_creates C W)
    (fun s h₀ => ⟨fun k hk => absurd hk (h₀ k), nofun⟩) (fun c act state hI hact => ?_)
    (fun c ev state hI hans => ?_) hs
  · refine ⟨fun k hk => hI.created k ((environment_apiKeys hact k).mp hk),
      fun pid keyHash k hmem => ?_⟩
    obtain ⟨hhash, k', hk', hb⟩ := hI.found pid keyHash k hmem
    exact ⟨hhash, k', (environment_apiKeys hact k').mpr hk', hb⟩
  · obtain ⟨i, hr⟩ := hans.reply
    have hsub : c.trace ⊆ ev :: c.trace := List.subset_cons_self ev c.trace
    refine ⟨fun k hk => ?_, fun pid keyHash k hmem => ?_⟩
    · rcases respond_newKey hr hk with ⟨k₀, hk₀, hb⟩ | ⟨d, hop, rfl⟩
      · obtain ⟨d, now, hd, hb'⟩ := hI.created k₀ hk₀
        exact ⟨d, now, hd.mono hsub, hb'.trans hb⟩
      · obtain ⟨j, hE, -⟩ := hans.expected
        obtain ⟨hgenerated, caller, hadmitted⟩ := hE d hop
        obtain ⟨pid, op, r⟩ := ev
        subst hop
        have hown := own_of_subset hsub pid
        exact ⟨d, c.state.clock, ⟨pid, r, List.mem_cons_self, hgenerated.mono hown, caller,
          hadmitted.mono hown⟩, .refl _⟩
    · rcases List.mem_cons.mp hmem with heq | hmem
      · subst heq
        obtain ⟨hk, hhash⟩ := looked_up hr
        obtain ⟨k', hk', hb⟩ := respond_keepsKeys hr k hk
        exact ⟨hhash, k', hk', hb⟩
      · obtain ⟨hhash, k', hk', hb⟩ := hI.found pid keyHash k hmem
        obtain ⟨k'', hk'', hb'⟩ := respond_keepsKeys hr k' hk'
        exact ⟨hhash, k'', hk'', hb.trans hb'⟩

/-- What was known of an organization's rows is known later. -/
theorem OpOf.mono {org : String} {h h' : Requests A} (hs : h ⊆ h') {op : Op A}
    (hop : OpOf org h op) : OpOf org h' op := by
  cases op with
  | db call => exact ObjectCallOf.imp (fun _ hf => hf.mono hs) (fun _ hf => hf.mono hs) hop
  | _ => exact hop

/-- From tables without keys: a request that presents a key and gets past its guard presents one
    whose hash is that of a key that was generated and stored for an organization, by someone whom a
    guard had admitted for that organization; and all that the request asks for after its guard is
    of that organization. -/
theorem admitted_key_created (hs : Reachable (machine B) (workload C W) NoKeys anything s)
    {p : Proc (calls A) Thrown (Job κ)} (hp : p ∈ s.procs) {authorization : Option String}
    (hcaller : p.job.caller = some (.apiKey authorization)) (hpast : PastGuard s p) :
    ∃ raw d, bearerKey authorization = .ok raw ∧ Created C s.config.trace d ∧
      hashApiKey C raw = d.keyHash ∧
      (∀ k pid, ⟨pid, .db (.apiKeyFindUnique (hashApiKey C raw)), .ok (some k)⟩ ∈ s.config.trace →
        ApiKey.scopes k = d.scopes ∧ ApiKey.environment k = d.environment) ∧
      ∀ ev ∈ s.config.trace, ev.pid = p.pid →
        GuardOp ev.op ∨ OpOf d.organizationId (own p.pid s.config.trace) ev.op := by
  obtain ⟨org, raw, pid, k, now, hraw, hlook, -, -, -⟩ := admitted_of_past hs hp hpast hcaller
  have hknown := keys_known hs
  obtain ⟨hhash, k', hk', hb⟩ := hknown.found _ _ _ (mem_own.mp hlook).1
  obtain ⟨d, t, hd, hbd⟩ := hknown.created k' hk'
  have hall : ∀ k₁ pid₁, ⟨pid₁, .db (.apiKeyFindUnique (hashApiKey C raw)), .ok (some k₁)⟩ ∈
      s.config.trace → ApiKey.Becomes k₁ k' := by
    intro k₁ pid₁ hmem
    obtain ⟨hhash₁, k₁', hk₁', hb₁⟩ := hknown.found _ _ _ hmem
    obtain rfl := ApiKeyTable.eq_of_hash hk₁' hk'
      ((hb₁.keyHash.trans hhash₁).trans (hhash.symm.trans hb.keyHash.symm))
    exact hb₁
  refine ⟨raw, d, hraw, hd, ?_, fun k₁ pid₁ hmem => ?_, fun ev hev hpid => ?_⟩
  · exact hhash.symm.trans (hb.keyHash.symm.trans hbd.keyHash)
  · have hb₁ := (hall k₁ pid₁ hmem).columns
    have hbd' := hbd.columns
    constructor
    · exact (congrArg ApiKey.scopes hb₁).symm.trans (congrArg ApiKey.scopes hbd')
    · exact (congrArg ApiKey.environment hb₁).symm.trans (congrArg ApiKey.environment hbd')
  · by_cases hop : GuardOp ev.op
    · exact .inl hop
    · obtain ⟨h', hsub, org', ⟨raw', pid', k₁, now', hraw', hlook', -, -, rfl⟩, hof⟩ :=
        admitted_of_event hs hp hcaller hev hpid hop
      obtain rfl : raw = raw' := Except.ok.inj (hraw.symm.trans hraw')
      have hb₁ := hall k₁ pid' (mem_own.mp (hsub hlook')).1
      have horg : k₁.organizationId = d.organizationId :=
        hb₁.organizationId.symm.trans hbd.organizationId
      exact .inr (horg ▸ hof.mono hsub)

end Runs

/-! ## Acceptance -/

/-- Why the guard may refuse a key: a query failed, the header carries none, or the lookup found
    none that may be used. -/
def Refused (C : Config A) (authorization : Option String) (e : Thrown) (h : Requests A) : Prop :=
  (∃ code, e = .app (.prisma code)) ∨ (∃ e', bearerKey authorization = .error e') ∨
    ∃ raw pid r, bearerKey authorization = .ok raw ∧
      ⟨pid, .db (.apiKeyFindUnique (hashApiKey C raw)), .ok r⟩ ∈ h ∧
      ∀ k, r = some k → ∃ now, ApiKey.ended k now = true

section Outcome

variable {pid : ℕ} {h : Requests A}

/-- A query, with both of its ends. -/
theorem prisma_ends {call : ObjectCall} {Q : call.Ret → Requests A → Prop}
    {X : Thrown → Requests A → Prop}
    (hQ : ∀ r : call.Ret, Q r (⟨pid, .db call, .ok r⟩ :: h))
    (hX : ∀ code h', X (.app (.prisma code)) h') :
    (prisma call : Action A call.Ret).Obeys (fun _ _ => True) pid Q X h := by
  refine Prog.obeys_request.mpr ⟨trivial, fun r => ⟨fun a ha => ?_, fun e he => ?_⟩⟩
  · cases r with
    | ok r =>
      obtain rfl : r = a := Except.ok.inj ha
      exact hQ r
    | error code => cases ha
  · cases r with
    | ok r => cases he
    | error code =>
      obtain rfl : Thrown.app (.prisma code) = e := Except.error.inj he
      exact hX code _

/-- The guard admits the key that it has read, or refuses it for one of the reasons. -/
theorem apiKeyAuth_ends (authorization : Option String) :
    (apiKeyAuth C authorization).Obeys (fun _ _ => True) pid
      (fun k h => Admitted C h (.apiKey authorization) (ApiKey.organizationId k))
      (fun e h => Refused C authorization e h) h := by
  refine Prog.obeys_bind.mpr (Prog.obeys_ofExcept.mpr ⟨fun raw hraw => ?_, fun e he => ?_⟩)
  · have hraw : bearerKey authorization = .ok raw := ok_of_mapError hraw
    refine Prog.obeys_bind.mpr (prisma_ends (fun r => ?_) fun code _ => .inl ⟨code, rfl⟩)
    cases r with
    | none => exact .inr (.inr ⟨raw, pid, none, hraw, List.mem_cons_self, nofun⟩)
    | some k =>
      refine ⟨trivial, fun (now : Time) => ?_⟩
      show Prog.Obeys _ _ _ _ (if ApiKey.ended k now = true then _ else _) _
      have hfind : (⟨pid, .db (.apiKeyFindUnique (hashApiKey C raw)), .ok (some k)⟩ :
          Event (calls A)) ∈ ⟨pid, .payments .now, now⟩ ::
            ⟨pid, .db (.apiKeyFindUnique (hashApiKey C raw)), .ok (some k)⟩ :: h :=
        List.mem_cons_of_mem _ List.mem_cons_self
      by_cases hended : ApiKey.ended k now = true
      · rw [if_pos hended]
        refine .inr (.inr ⟨raw, pid, some k, hraw, hfind, fun k' heq => ⟨now, ?_⟩⟩)
        obtain rfl := Option.some.inj heq
        exact hended
      · rw [if_neg hended]
        exact ⟨raw, pid, k, now, hraw, hfind, List.mem_cons_self, Bool.eq_false_iff.mpr hended, rfl⟩
  · cases hbearer : bearerKey authorization with
    | ok raw =>
      rw [hbearer] at he
      cases he
    | error e' => exact .inr (.inl ⟨e', hbearer⟩)

/-- A request with a key throws when it has been admitted, or because its guard refused it. -/
def Threw (C : Config A) (j : Job κ) (e : Thrown) (h : Requests A) : Prop :=
  ∀ authorization, j.caller = some (.apiKey authorization) →
    (∃ org, Admitted C h (.apiKey authorization) org) ∨ Refused C authorization e h

theorem launch_threw (C : Config A) (W : Workload (effects A) Error κ) (j : Job κ) (pid : ℕ) :
    ((workload C W).launch j).Obeys (fun _ _ => True) pid (fun _ _ => True)
      (fun e h => Threw C j e h) [] := by
  have hany : ∀ {α : Type} (p : Action A α) (h : Requests A), p.Obeys (fun _ _ => True) pid
      (fun _ _ => True) (fun _ _ => True) h := fun p h =>
    Prog.Obeys.only (I := fun _ => True) (Prog.only_any p) (fun _ _ _ _ => trivial)
      (fun _ _ _ _ _ => trivial) trivial
  cases j with
  | request caller operation =>
    cases caller with
    | apiKey authorization =>
      refine Prog.obeys_bind.mpr (Prog.obeys_bind.mpr ((apiKeyAuth_ends authorization).post
        (fun k h ha => ?_) fun e h hr a heq => ?_))
      · refine Prog.obeys_pure.mpr (((hany _ h).grows List.suffix_rfl).post (fun _ _ _ => trivial)
          fun e h' hs a heq => ?_)
        cases heq
        exact .inl ⟨_, ha.mono hs.1.subset⟩
      · cases heq
        exact .inr hr
    | user userId headerOrgId => exact (hany _ _).post (fun _ _ _ => trivial) fun _ _ _ => nofun
  | touch authorization =>
    refine Prog.obeys_bind.mpr ((apiKeyAuth_ends authorization).post (fun k h ha => ?_)
      fun e h hr a heq => ?_)
    · refine ((hany _ h).grows List.suffix_rfl).post (fun _ _ _ => trivial) fun e h' hs a heq => ?_
      cases heq
      exact .inl ⟨_, ha.mono hs.1.subset⟩
    · cases heq
      exact .inr hr
  | payments job => exact (hany _ _).post (fun _ _ _ => trivial) fun _ _ _ => nofun
  | webhooks queue => exact (hany _ _).post (fun _ _ _ => trivial) fun _ _ _ => nofun

end Outcome

section Runs

variable {start : State ω → Prop} {s s' : System (calls A) Thrown (Job κ) (State ω)}

/-- A key whose creation has resolved is stored. -/
def CreationsShow (c : Async.Config (calls A) (State ω)) : Prop :=
  ∀ pid d k, ⟨pid, .db (.apiKeyCreate d), .ok k⟩ ∈ c.trace →
    (∃ now, k = ApiKeyCreateInput.row now d) ∧ ∃ k' ∈ c.state.db.apiKeys, ApiKey.Becomes k k'

theorem CreationsShow.keeps {tr : Requests A} {st st' : State ω} (h : CreationsShow ⟨st, tr⟩)
    (hk : KeepsKeys st.db st'.db) : CreationsShow ⟨st', tr⟩ := by
  intro pid d k hmem
  obtain ⟨hrow, k', hk', hb⟩ := h pid d k hmem
  obtain ⟨k'', hk'', hb'⟩ := hk k' hk'
  exact ⟨hrow, k'', hk'', hb.trans hb'⟩

theorem exec_creates {now : Time} {db : Database} {d : ApiKeyCreateInput} {k : ApiKey}
    (h : (ObjectCall.exec now db (.apiKeyCreate d)).1 = .ok k) :
    k = d.row now ∧ k ∈ (ObjectCall.exec now db (.apiKeyCreate d)).2.apiKeys := by
  simp only [ObjectCall.exec] at h ⊢
  split at h
  · rename_i t ht
    obtain rfl : d.row now = k := Except.ok.inj h
    refine ⟨rfl, ?_⟩
    show _ ∈ t.rows
    rw [ApiKeyTable.insert?_eq_some ht]
    exact List.mem_cons_self
  · cases h

theorem creations_show (hs : Reachable (machine B) (workload C W) start anything s) :
    CreationsShow s.config := by
  refine Reachable.invariant (I := CreationsShow) (workload_obeys C W) (fun s _ => nofun)
    (fun c act state hI hact => hI.keeps (environment_keepsKeys hact))
    (fun c ev state hI hans => ?_) hs
  obtain ⟨i, hr⟩ := hans.reply
  intro pid d k hmem
  rcases List.mem_cons.mp hmem with heq | hmem
  · subst heq
    obtain ⟨hrow, hk⟩ := exec_creates (respond_db_ok hr)
    refine ⟨⟨_, hrow⟩, k, ?_, .refl k⟩
    show k ∈ state.db.apiKeys
    have hafter : state.db = _ := respond_db_after hr
    rw [hafter]
    exact hk
  · exact (hI.keeps (respond_keepsKeys hr)) pid d k hmem

/-- From its creation until its revocation a key is good: a request that presents it as it was
    generated, and that throws, was admitted for the organization of the key, or a query of its
    guard failed. -/
theorem created_key_accepted (hurl : C.toBase64Url = base64Url)
    (hs : Reachable (machine B) (workload C W) start anything s) {pid : ℕ} {d : ApiKeyCreateInput}
    {k : ApiKey} (hcreated : ⟨pid, .db (.apiKeyCreate d), .ok k⟩ ∈ s.config.trace)
    {bytes : List UInt8} (hbytes : d.keyHash = hashApiKey C (rawKey C d.environment bytes))
    (hl : Leads (machine B) (workload C W) anything s s')
    (hgood : ∀ k' ∈ s'.config.state.db.apiKeys, k'.id = k.id → k'.revokedAt = none)
    {q : Proc (calls A) Thrown (Job κ)} (hq : q ∈ s'.procs)
    (hnew : ∀ ev ∈ s.config.trace, ev.pid ≠ q.pid)
    (hcaller : q.job.caller =
      some (.apiKey (some ("Bearer " ++ rawKey C d.environment bytes))))
    {e : Thrown} (hthrow : q.prog = .throw e) :
    Admitted C (own q.pid s'.config.trace)
        (.apiKey (some ("Bearer " ++ rawKey C d.environment bytes))) d.organizationId ∨
      ∃ code, e = .app (.prisma code) := by
  have hbearer := bearerKey_generated hurl d.environment bytes
  obtain ⟨⟨t, rfl⟩, k₁, hk₁, hb₁⟩ := creations_show hs pid d k hcreated
  have hhash : k₁.keyHash = hashApiKey C (rawKey C d.environment bytes) :=
    hb₁.keyHash.trans hbytes
  have hfound := found_since hl hk₁
  have hafter : ∀ q' r, ⟨q', .db (.apiKeyFindUnique (hashApiKey C (rawKey C d.environment bytes))),
      .ok r⟩ ∈ own q.pid s'.config.trace → ∃ k', r = some k' ∧ k₁.Becomes k' ∧
        ∃ k'' ∈ s'.config.state.db.apiKeys, k'.Becomes k'' := by
    intro q' r hmem
    obtain ⟨hmem, hpid⟩ := mem_own.mp hmem
    rcases hfound _ hmem with hold | hlook
    · exact absurd hpid (hnew _ hold)
    · exact hlook q' r (by rw [hhash])
  have hout := (hl.reachable hs).outcome (fun j pid => launch_threw C W j pid) q hq
  rw [hthrow] at hout
  rcases hout _ hcaller with ⟨org, ha⟩ | hcode | ⟨e', herror⟩ | ⟨raw, pid', r, hraw, hmem, hended⟩
  · obtain ⟨raw, pid', k', now, hraw, hmem, hnow, hlive, horg⟩ := ha
    obtain rfl := Except.ok.inj (hbearer.symm.trans hraw)
    obtain ⟨k₂, hk₂, hb₂, -⟩ := hafter pid' (some k') hmem
    obtain rfl := Option.some.inj hk₂
    have hkey : ApiKey.organizationId k' = d.organizationId :=
      hb₂.organizationId.trans hb₁.organizationId
    exact .inl ⟨_, pid', k', now, hraw, hmem, hnow, hlive, hkey⟩
  · exact .inr hcode
  · rw [hbearer] at herror
    cases herror
  · obtain rfl := Except.ok.inj (hbearer.symm.trans hraw)
    obtain ⟨k', rfl, hb₂, k'', hk'', hb₃⟩ := hafter pid' r hmem
    obtain ⟨now, hnow⟩ := hended k' rfl
    have hnone : k''.revokedAt = none := hgood k'' hk'' (hb₃.id.trans (hb₂.id.trans hb₁.id))
    have hlive : k'.revokedAt = none := by
      by_contra hne
      have hsome := hb₃.revoked (Option.isSome_iff_ne_none.mpr hne)
      rw [hnone] at hsome
      cases hsome
    have hexpires : k'.expiresAt = none := hb₂.expiresAt.trans hb₁.expiresAt
    rw [ApiKey.ended, hlive, hexpires] at hnow
    cases hnow

end Runs

/-! ## One key, from its creation to its revocation -/

/-- The functions of Node on the key of 24 bytes `00`. -/
def keyConfig : Config adapterCalls :=
  { sampleConfig with
    cipher := { sampleConfig.cipher with
      hmacSha256Hex := fun payload secret =>
        if payload = "cp_test_AAAAAAAAAAAAAAAAAAAAAAAAAAAAAAAA" ∧
          secret = "pepper-of-the-samples-0123456789" then
          "a3f56787c12fcb7248a6fc60a3f2f145f58b580e802f1014e615c6ee2ae760d0"
        else "" }
    toBase64Url := base64Url
    API_KEY_PEPPER := "pepper-of-the-samples-0123456789" }

/-- Nothing is stored but that Ann owns an organization. -/
def annOwns : State Unit :=
  { nothingStored with
    db := { nothingStored.db with
      memberships := ⟨[⟨"mem_1", "usr_1", "org_1", .owner⟩], List.nodup_singleton _⟩ } }

/-- No payment program. -/
def noPayments : Workload (effects adapterCalls) Error Empty :=
  ⟨Empty.elim, fun _ _ => true, fun _ _ => rfl⟩

abbrev KeyMove := Move (Job Empty) (Input Answer) (Act Empty)

/-- The replies to a program. -/
def replies (pid : ℕ) (is : List (Input Answer)) : List KeyMove := is.map (.perform pid)

def ann : Caller := .user (some "usr_1") none

def holder : Caller := .apiKey (some ("Bearer " ++ rawKey keyConfig .test (List.replicate 24 0)))

/-- Ann creates a key, and its holder lists the endpoints. -/
def keyUsed : List KeyMove :=
  .start (.request ann
      (.createApiKey ⟨"ci", .test, ["webhooks:read"]⟩ "usr_1" Organizations.localhost)) ::
    replies 0 [.ok, .bytes (List.replicate 24 0), .payments (.id "key_1"), .ok,
      .payments .ok] ++
  .start (.request holder .listEndpoints) :: replies 1 [.ok, .payments .ok, .ok]

/-- The holder asks for an invoice that is not there. -/
def keyUsedAgain : List KeyMove :=
  .start (.request holder (.getInvoice "inv_1")) :: replies 2 [.ok, .payments .ok, .payments .ok]

/-- Ann revokes the key. -/
def keyRevoked : List KeyMove :=
  .start (.request ann (.revokeApiKey "key_1" "usr_1" Organizations.localhost)) ::
    replies 2 [.ok, .ok, .payments .ok, .ok, .payments .ok]

/-- The holder tries once more. -/
def keyRefused : List KeyMove :=
  .start (.request holder .listEndpoints) :: replies 3 [.ok, .payments .ok]

/-- The program has returned. -/
def hasReturned (p : Proc (calls adapterCalls) Thrown (Job Empty)) : Bool :=
  match p.prog with
  | .ret () => true
  | _ => false

theorem hasReturned_iff {p : Proc (calls adapterCalls) Thrown (Job Empty)} :
    hasReturned p = true ↔ p.prog = .ret () := by
  obtain ⟨pid, job, prog⟩ := p
  cases prog with
  | ret a => exact iff_of_true rfl rfl
  | throw e => exact iff_of_false nofun nofun
  | await op k => exact iff_of_false nofun nofun

/-- The program has thrown this. -/
def hasThrown (e : Thrown) (p : Proc (calls adapterCalls) Thrown (Job Empty)) : Bool :=
  match p.prog with
  | .throw e' => e' = e
  | _ => false

theorem hasThrown_iff {e : Thrown} {p : Proc (calls adapterCalls) Thrown (Job Empty)} :
    hasThrown e p = true ↔ p.prog = .throw e := by
  obtain ⟨pid, job, prog⟩ := p
  cases prog with
  | ret a => exact iff_of_false nofun nofun
  | throw e' =>
    show decide (e' = e) = true ↔ Prog.throw e' = Prog.throw e
    rw [decide_eq_true_iff, Prog.throw.injEq]
  | await op k => exact iff_of_false nofun nofun

/-- A key that was created, with its data. -/
def createdBy : Event (calls adapterCalls) → Option (ApiKeyCreateInput × ApiKey)
  | ⟨_, .db (.apiKeyCreate d), .ok k⟩ => some (d, k)
  | _ => none

theorem createdBy_eq_some {ev : Event (calls adapterCalls)} {d : ApiKeyCreateInput} {k : ApiKey}
    (h : createdBy ev = some (d, k)) : ∃ pid, ev = ⟨pid, .db (.apiKeyCreate d), .ok k⟩ := by
  obtain ⟨pid, op, r⟩ := ev
  cases op with
  | db call =>
    cases call with
    | apiKeyCreate d' =>
      cases r with
      | ok k' =>
        cases h
        exact ⟨pid, rfl⟩
      | error code => cases h
    | _ => cases h
  | _ => cases h

/-- The job revokes the key. -/
def revokes (id : String) : Job Empty → Bool
  | .request _ (.revokeApiKey id' _ _) => id' = id
  | _ => false

theorem revokes_iff {id : String} {j : Job Empty} (h : revokes id j = true) :
    ∃ caller actorId ctx, j = .request caller (.revokeApiKey id actorId ctx) := by
  cases j with
  | request caller operation =>
    cases operation with
    | revokeApiKey id' actorId ctx =>
      obtain rfl : id' = id := of_decide_eq_true h
      exact ⟨caller, actorId, ctx, rfl⟩
    | _ => cases h
  | _ => cases h

abbrev KeySystem := System (calls adapterCalls) Thrown (Job Empty) (State Unit)

theorem noKeys_annOwns : NoKeys annOwns := fun _ => List.not_mem_nil

/-- What Ann's revocation and the holder's last request show. -/
def shownRefused (s s' : KeySystem) : Bool :=
  s.procs.any (fun p => revokes "key_1" p.job && hasReturned p) &&
  s'.procs.any (fun q => q.pid = 3 && q.job.caller = some holder) &&
  s.config.trace.all (fun ev => ev.pid ≠ 3) &&
  s.config.state.db.apiKeys.rows.all fun k =>
    k.keyHash = hashApiKey keyConfig (rawKey keyConfig .test (List.replicate 24 0))

/-- Ann has revoked the key, and its holder is refused. -/
theorem revoked_key_refused_sample : ∃ s s' : KeySystem,
    Reachable (machine anyAnswer) (workload keyConfig noPayments) NoKeys anything s ∧
    Leads (machine anyAnswer) (workload keyConfig noPayments) anything s s' ∧
    ∃ q ∈ s'.procs, q.job.caller = some holder ∧ ¬ PastGuard s' q := by
  obtain ⟨s, s', hs, hl, hshown⟩ := Reachable.view_leads (M := machine anyAnswer)
    (W := workload keyConfig noPayments) noKeys_annOwns (keyUsed ++ keyRevoked) keyRefused
    (f := shownRefused) (x := true) (by decide)
  simp only [shownRefused, Bool.and_eq_true, List.any_eq_true, List.all_eq_true,
    decide_eq_true_eq] at hshown
  obtain ⟨⟨⟨⟨p, hp, hrevokes, hreturned⟩, q, hq, hpid, hcaller⟩, hnew⟩, hhash⟩ := hshown
  obtain ⟨caller, actorId, ctx, hjob⟩ := revokes_iff hrevokes
  obtain ⟨k, hk, -, hrefused⟩ := revoked_key_refused hs hl hp hjob (hasReturned_iff.mp hreturned)
  refine ⟨s, s', hs, hl, q, hq, hcaller, ?_⟩
  exact hrefused q hq (fun ev hev => hpid ▸ hnew ev hev) _ _ hcaller (bearerKey_generated rfl _ _)
    (hhash k hk).symm

/-- The holder's first request gets past its guard, with a key that was created. -/
theorem admitted_key_created_sample : ∃ s : KeySystem,
    Reachable (machine anyAnswer) (workload keyConfig noPayments) NoKeys anything s ∧
    ∃ p ∈ s.procs, p.job.caller = some holder ∧ PastGuard s p ∧
      ∃ d, Created keyConfig s.config.trace d := by
  obtain ⟨s, hs, hshown⟩ := Reachable.view (M := machine anyAnswer)
    (W := workload keyConfig noPayments) noKeys_annOwns keyUsed
    (f := fun s => s.procs.any fun p => hasReturned p && p.job.caller = some holder) (x := true)
    (by decide)
  obtain ⟨p, hp, hshown⟩ := List.any_eq_true.mp hshown
  obtain ⟨hreturned, hcaller⟩ := (Bool.and_eq_true _ _).mp hshown
  have hcaller := of_decide_eq_true hcaller
  have hpast : PastGuard s p := .inl (hasReturned_iff.mp hreturned)
  obtain ⟨raw, d, -, hcreated, -⟩ := admitted_key_created hs hp hcaller hpast
  exact ⟨s, hs, p, hp, hcaller, hpast, d, hcreated⟩

/-- What the creation and the holder's second request show. -/
def shownAccepted (d : ApiKeyCreateInput) (k : ApiKey) (e : Thrown) (s s' : KeySystem) : Bool :=
  s.config.trace.any (fun ev => createdBy ev = some (d, k)) &&
  s'.procs.any (fun q => q.pid = 2 && q.job.caller = some holder && hasThrown e q) &&
  s.config.trace.all (fun ev => ev.pid ≠ 2) &&
  s'.config.state.db.apiKeys.rows.all fun k => k.revokedAt = none

/-- The key that Ann creates. -/
def annsKey : ApiKeyCreateInput where
  id := "key_1"
  organizationId := "org_1"
  name := "ci"
  environment := .test
  keyPrefix := "cp_test_AAAA"
  keyHash := "a3f56787c12fcb7248a6fc60a3f2f145f58b580e802f1014e615c6ee2ae760d0"
  scopes := ["webhooks:read"]

/-- The holder asks for an invoice that does not exist, and is admitted. -/
theorem created_key_accepted_sample : ∃ s s' : KeySystem,
    Reachable (machine anyAnswer) (workload keyConfig noPayments) NoKeys anything s ∧
    Leads (machine anyAnswer) (workload keyConfig noPayments) anything s s' ∧
    ∃ q ∈ s'.procs, q.prog = .throw (.app (.notFound "Invoice not found")) ∧
      Admitted keyConfig (own q.pid s'.config.trace) holder "org_1" := by
  obtain ⟨s, s', hs, hl, hshown⟩ := Reachable.view_leads (M := machine anyAnswer)
    (W := workload keyConfig noPayments) noKeys_annOwns keyUsed keyUsedAgain
    (f := shownAccepted annsKey (annsKey.row 0) (.app (.notFound "Invoice not found"))) (x := true)
    (by decide)
  simp only [shownAccepted, Bool.and_eq_true, List.any_eq_true, List.all_eq_true,
    decide_eq_true_eq] at hshown
  obtain ⟨⟨⟨⟨ev, hev, hcreated⟩, q, hq, ⟨hpid, hcaller⟩, hthrown⟩, hnew⟩, hgood⟩ := hshown
  obtain ⟨pid, rfl⟩ := createdBy_eq_some hcreated
  have hthrow := hasThrown_iff.mp hthrown
  have hbytes : annsKey.keyHash =
      hashApiKey keyConfig (rawKey keyConfig annsKey.environment (List.replicate 24 0)) := by
    decide
  have haccepted := created_key_accepted rfl hs hev hbytes hl (fun k' hk' _ => hgood k' hk') hq
    (fun ev hev => hpid ▸ hnew ev hev) hcaller hthrow
  refine ⟨s, s', hs, hl, q, hq, hthrow, haccepted.resolve_right ?_⟩
  rintro ⟨code, heq⟩
  cases heq

end CryptoPay.Tenancy
