import CryptoPay.Tenancy.ObjectIsolation

/-!
# The life of an API key

`ApiKeysService.create` stores the hash of a key that it shows once, and
`ApiKeyAuthGuard` looks the hash of what a request presents up. No code deletes a
row or clears `revokedAt`, and a request asks the table before it asks for
anything else.

Results:
* `respond_keepsKeys`, `environment_keepsKeys`: a stored key keeps its columns, and
  a revoked key stays revoked.
* `found_since`: a stored key is found by every later lookup of its hash.
* `revoked_key_refused`: after a revocation has returned, no request that looks the
  key up gets past its guard, whatever was in flight.
-/

namespace CryptoPay.Tenancy

open Async Data

open Api (RequestContext)

variable {A : Signature} {ω ι η κ : Type} {C : Config A} {B : Backend A ω ι η}
  {W : Workload (effects A) Error κ}

/-! ## What becomes of a row -/

/-- The second row is the first one, perhaps used or revoked since. -/
structure ApiKey.Becomes (k k' : ApiKey) : Prop where
  columns : k' = { k with lastUsedAt := k'.lastUsedAt, revokedAt := k'.revokedAt }
  revoked : k.revokedAt.isSome → k'.revokedAt.isSome

namespace ApiKey.Becomes

variable {k k' k'' : ApiKey}

theorem refl (k : ApiKey) : k.Becomes k := ⟨rfl, fun hk => hk⟩

theorem trans (h : k.Becomes k') (h' : k'.Becomes k'') : k.Becomes k'' :=
  ⟨by rw [h'.columns, h.columns], fun hk => h'.revoked (h.revoked hk)⟩

theorem id (h : k.Becomes k') : k'.id = k.id := by rw [h.columns]

theorem organizationId (h : k.Becomes k') : k'.organizationId = k.organizationId := by
  rw [h.columns]

theorem keyHash (h : k.Becomes k') : k'.keyHash = k.keyHash := by rw [h.columns]

theorem expiresAt (h : k.Becomes k') : k'.expiresAt = k.expiresAt := by rw [h.columns]

/-- An update sets columns that only ever go forward. -/
theorem update (d : ApiKeyUpdateInput) (k : ApiKey) : k.Becomes (k.update d) := by
  refine ⟨rfl, fun hk => ?_⟩
  show (d.revokedAt.orElse fun _ => k.revokedAt).isSome = true
  cases d.revokedAt with
  | none => exact hk
  | some t => rfl

end ApiKey.Becomes

/-- Every key is still there. -/
def KeepsKeys (db db' : Database) : Prop := ∀ k ∈ db.apiKeys, ∃ k' ∈ db'.apiKeys, k.Becomes k'

theorem KeepsKeys.refl (db : Database) : KeepsKeys db db := fun k hk => ⟨k, hk, .refl k⟩

theorem KeepsKeys.trans {db₁ db₂ db₃ : Database} (h : KeepsKeys db₁ db₂) (h' : KeepsKeys db₂ db₃) :
    KeepsKeys db₁ db₃ := by
  intro k hk
  obtain ⟨k', hk', hb⟩ := h k hk
  obtain ⟨k'', hk'', hb'⟩ := h' k' hk'
  exact ⟨k'', hk'', hb.trans hb'⟩

namespace ApiKeyTable

/-- The hash is a key of the table. -/
theorem eq_of_hash {t : ApiKeyTable} {k k' : ApiKey} (hk : k ∈ t) (hk' : k' ∈ t)
    (h : k.keyHash = k'.keyHash) : k = k' := List.inj_on_of_nodup_map t.uniqueHash hk hk' h

/-- The rows after an update of the row with this id. -/
theorem mem_update {t : ApiKeyTable} {id : String} {d : ApiKeyUpdateInput} {k : ApiKey} :
    k ∈ t.modify id (ApiKey.update d) (fun _ => rfl) (fun _ => rfl) ↔
      ∃ x ∈ t, k = if x.id = id then ApiKey.update d x else x := by
  show k ∈ t.rows.map (fun x => if x.id = id then ApiKey.update d x else x) ↔ _
  simp only [List.mem_map, mem_def, eq_comm]

end ApiKeyTable

section Calls

variable {now : Time} {db : Database}

theorem exec_keepsKeys (call : ObjectCall) : KeepsKeys db (call.exec now db).2 := by
  cases call with
  | webhookEndpointCreate d =>
    simp only [ObjectCall.exec]
    split <;> exact .refl db
  | webhookEndpointRevoke id revokedAt =>
    simp only [ObjectCall.exec]
    split <;> exact .refl db
  | apiKeyCreate d =>
    simp only [ObjectCall.exec]
    split
    · rename_i t ht
      intro k hk
      refine ⟨k, ?_, .refl k⟩
      show k ∈ t.rows
      rw [ApiKeyTable.insert?_eq_some ht]
      exact List.mem_cons_of_mem _ hk
    · exact .refl db
  | apiKeyUpdate id d =>
    simp only [ObjectCall.exec]
    split
    · intro k hk
      refine ⟨_, ApiKeyTable.mem_update.mpr ⟨k, hk, rfl⟩, ?_⟩
      split_ifs
      · exact .update d k
      · exact .refl k
    · exact .refl db
  | _ => exact .refl db

/-- A key that is stored after a call was stored before it, or is the one that the call creates. -/
theorem exec_newKey {call : ObjectCall} {k : ApiKey} (hk : k ∈ (call.exec now db).2.apiKeys) :
    (∃ k₀ ∈ db.apiKeys, k₀.Becomes k) ∨ ∃ d, call = .apiKeyCreate d ∧ k = d.row now := by
  cases call with
  | webhookEndpointCreate d =>
    simp only [ObjectCall.exec] at hk
    split at hk <;> exact .inl ⟨k, hk, .refl k⟩
  | webhookEndpointRevoke id revokedAt =>
    simp only [ObjectCall.exec] at hk
    split at hk <;> exact .inl ⟨k, hk, .refl k⟩
  | apiKeyCreate d =>
    simp only [ObjectCall.exec] at hk
    split at hk
    · rename_i t ht
      have hrows : k ∈ t.rows := hk
      rw [ApiKeyTable.insert?_eq_some ht] at hrows
      rcases List.mem_cons.mp hrows with rfl | hk
      · exact .inr ⟨d, rfl, rfl⟩
      · exact .inl ⟨k, hk, .refl k⟩
    · exact .inl ⟨k, hk, .refl k⟩
  | apiKeyUpdate id d =>
    simp only [ObjectCall.exec] at hk
    split at hk
    · obtain ⟨x, hx, rfl⟩ := ApiKeyTable.mem_update.mp hk
      refine .inl ⟨x, hx, ?_⟩
      split_ifs
      · exact .update d x
      · exact .refl x
    · exact .inl ⟨k, hk, .refl k⟩
  | _ => exact .inl ⟨k, hk, .refl k⟩

/-- An update that resolves leaves a revoked key where it revokes one. -/
theorem exec_revokes {id : String} {t : Time}
    (h : (ObjectCall.exec now db (.apiKeyUpdate id { revokedAt := some t })).1 = .ok ()) :
    ∃ k ∈ (ObjectCall.exec now db (.apiKeyUpdate id { revokedAt := some t })).2.apiKeys,
      k.id = id ∧ k.revokedAt.isSome := by
  cases hfind : db.apiKeys.find? id with
  | none =>
    simp only [ObjectCall.exec, hfind] at h
    cases h
  | some k =>
    obtain ⟨hmem, hid⟩ := Table.find?_eq_some_iff.mp hfind
    simp only [ObjectCall.exec, hfind]
    refine ⟨_, ApiKeyTable.mem_update.mpr ⟨k, hmem, rfl⟩, ?_⟩
    rw [if_pos hid]
    exact ⟨hid, rfl⟩

end Calls

section Step

variable {pid : ℕ} {s s' : State ω} {op : Op A} {i : Input ι} {r : (calls A).Ret op}

/-- Only a query of these services touches the keys. -/
theorem respond_apiKeys (h : respond B pid s op i = some (r, s')) :
    s'.db.apiKeys = s.db.apiKeys ∨
      ∃ call, op = .db call ∧ s'.db = (call.exec s.clock s.db).2 := by
  cases op with
  | payments op =>
    cases i with
    | payments i =>
      obtain ⟨⟨r', w⟩, -, heq⟩ := Option.map_eq_some_iff.mp h
      cases heq
      exact .inl rfl
    | _ => cases h
  | webhooks op =>
    cases i with
    | webhooks i =>
      obtain ⟨⟨r', w⟩, -, heq⟩ := Option.map_eq_some_iff.mp h
      cases heq
      exact .inl rfl
    | _ => cases h
  | db call =>
    cases i with
    | ok => cases h; exact .inr ⟨call, rfl, rfl⟩
    | connectionError => cases h; exact .inl rfl
    | lostReply => cases h; exact .inr ⟨call, rfl, rfl⟩
    | _ => cases h
  | randomBytes size =>
    cases i <;> cases h
    exact .inl rfl

theorem respond_keepsKeys (h : respond B pid s op i = some (r, s')) : KeepsKeys s.db s'.db := by
  rcases respond_apiKeys h with heq | ⟨call, -, heq⟩
  · intro k hk
    exact ⟨k, heq ▸ hk, .refl k⟩
  · rw [heq]
    exact exec_keepsKeys call

/-- A key that is stored after a request was stored before it, or the request creates it. -/
theorem respond_newKey (h : respond B pid s op i = some (r, s')) {k : ApiKey}
    (hk : k ∈ s'.db.apiKeys) : (∃ k₀ ∈ s.db.apiKeys, k₀.Becomes k) ∨
      ∃ d, op = .db (.apiKeyCreate d) ∧ k = d.row s.clock := by
  rcases respond_apiKeys h with heq | ⟨call, rfl, heq⟩
  · rw [heq] at hk
    exact .inl ⟨k, hk, .refl k⟩
  · rw [heq] at hk
    exact (exec_newKey hk).imp_right fun ⟨d, hd, hrow⟩ => ⟨d, congrArg _ hd, hrow⟩

/-- A query that resolves has taken effect. -/
theorem respond_db_after {call : ObjectCall} {a : call.Ret}
    (h : respond B pid s (.db call) i = some (.ok a, s')) :
    s'.db = (call.exec s.clock s.db).2 := by
  cases i with
  | ok => exact (congrArg State.db (Prod.mk.inj (Option.some.inj h)).2).symm
  | _ => cases h

/-- A lookup finds the one key with the hash. -/
theorem find?_hash_iff {t : ApiKeyTable} {keyHash : String} {k : ApiKey} :
    t.rows.find? (fun q => q.keyHash = keyHash) = some k ↔ k ∈ t ∧ k.keyHash = keyHash := by
  constructor
  · intro h
    exact ⟨List.mem_of_find?_eq_some h, by simpa using List.find?_some h⟩
  · rintro ⟨hk, rfl⟩
    cases h : t.rows.find? (fun q => q.keyHash = k.keyHash) with
    | none => exact absurd (List.find?_eq_none.mp h k hk) (by simp)
    | some k' =>
      have hhash : k'.keyHash = k.keyHash := by simpa using List.find?_some h
      rw [ApiKeyTable.eq_of_hash (List.mem_of_find?_eq_some h) hk hhash]

/-- What a lookup finds is stored. -/
theorem looked_up {keyHash : String} {k : ApiKey}
    (h : respond B pid s (.db (.apiKeyFindUnique keyHash)) i = some (.ok (some k), s')) :
    k ∈ s.db.apiKeys ∧ k.keyHash = keyHash := by
  exact find?_hash_iff.mp (Except.ok.inj (respond_db_ok h))

end Step

/-- What happens between requests leaves the keys as they are, but for their order. -/
theorem environment_apiKeys {s s' : State ω} {act : Act η} (h : environment B s act = some s')
    (k : ApiKey) : k ∈ s'.db.apiKeys ↔ k ∈ s.db.apiKeys := by
  cases act with
  | payments act =>
    obtain ⟨w, -, rfl⟩ := Option.map_eq_some_iff.mp h
    exact Iff.rfl
  | memberships rows => cases h; exact Iff.rfl
  | reorderEndpoints rows =>
    simp only [environment] at h
    split_ifs at h
    cases h
    exact Iff.rfl
  | reorderDeliveries rows =>
    simp only [environment] at h
    split_ifs at h
    cases h
    exact Iff.rfl
  | reorderApiKeys rows =>
    simp only [environment] at h
    split_ifs at h with hperm
    cases h
    exact hperm.mem_iff

theorem environment_keepsKeys {s s' : State ω} {act : Act η} (h : environment B s act = some s') :
    KeepsKeys s.db s'.db := fun k hk => ⟨k, (environment_apiKeys h k).mpr hk, .refl k⟩

/-! ## Requests and their guards -/

/-- The request has got past its guard: it has asked for more than the guard does, or returned. -/
def PastGuard (s : System (calls A) Thrown (Job κ) (State ω))
    (p : Proc (calls A) Thrown (Job κ)) : Prop :=
  p.prog = .ret () ∨ ∃ ev ∈ s.config.trace, ev.pid = p.pid ∧ ¬ GuardOp ev.op

/-- The key with this id was found in the caller's organization, and its revocation resolved. -/
def Revokes (h : Requests A) (id : String) : Prop :=
  ∃ pid pid' org k t, ⟨pid, .db (.apiKeyFindFirst id org), .ok (some k)⟩ ∈ h ∧
    ⟨pid', .db (.apiKeyUpdate (ApiKey.id k) { revokedAt := some t }), .ok ()⟩ ∈ h

/-- What a job has done when it returns. -/
structure Returned (C : Config A) (j : Job κ) (h : Requests A) : Prop where
  admitted : ∀ caller, j.caller = some caller → ∃ org, Admitted C h caller org
  revokes : ∀ caller id actorId ctx, j = .request caller (.revokeApiKey id actorId ctx) →
    Revokes h id

theorem revoke_obeys {org : String} {pid : ℕ} {h : Requests A} (id actorId : String)
    (ctx : RequestContext) :
    (ApiKeys.revoke org id actorId ctx : Action A Unit).Obeys (OpOf org) pid
      (fun _ h' => Revokes h' id) (fun _ _ => True) h := by
  refine Prog.obeys_bind.mpr (prisma_obeys rfl fun r => ?_)
  cases r with
  | none => trivial
  | some apiKey =>
    refine Prog.obeys_bind.mpr (dateNow_obeys trivial fun now => ?_)
    refine Prog.obeys_bind.mpr (prisma_obeys ?_ fun _ => ?_)
    · exact .inl ⟨pid, id, apiKey, List.mem_cons_of_mem _ List.mem_cons_self, rfl⟩
    · refine ((record_obeys rfl).grows List.suffix_rfl).post (fun _ h' hs => ?_)
        fun _ _ _ => trivial
      refine ⟨pid, pid, org, apiKey, now, hs.1.subset ?_, hs.1.subset List.mem_cons_self⟩
      exact List.mem_cons_of_mem _ (List.mem_cons_of_mem _ List.mem_cons_self)

/-- Every job makes expected requests, and returns only past its guard. -/
theorem launch_returned (C : Config A) (W : Workload (effects A) Error κ) (j : Job κ) (pid : ℕ) :
    ((workload C W).launch j).Obeys (Expected C j) pid (fun _ h => Returned C j h)
      (fun _ _ => True) [] := by
  cases j with
  | request caller operation =>
    refine Prog.obeys_bind.mpr ((guard_obeys (fun _ _ => .inl) caller).post (fun org h ha => ?_)
      fun _ _ _ => trivial)
    have hrun : (operation.run C org).Obeys (OpOf org) pid (fun _ h' =>
        ∀ id actorId ctx, operation = .revokeApiKey id actorId ctx → Revokes h' id)
        (fun _ _ => True) h := by
      cases operation with
      | revokeApiKey id actorId ctx =>
        refine (revoke_obeys id actorId ctx).post (fun _ h' hr id' actorId' ctx' heq => ?_)
          fun _ _ _ => trivial
        cases heq
        exact hr
      | _ => exact (run_obeys _).post (fun _ _ _ _ _ _ heq => nomatch heq) fun _ _ _ => trivial
    refine Prog.obeys_bind.mpr (((hrun.grows List.suffix_rfl).imp fun h' op hs hop => ?_).post
      (fun _ h' hs => ⟨fun caller' hcaller => ?_, fun caller' id actorId ctx heq => ?_⟩)
      fun _ _ _ => trivial)
    · exact .inr ⟨org, ha.mono hs.subset, hop⟩
    · cases hcaller
      exact ⟨org, ha.mono hs.1.subset⟩
    · cases heq
      exact hs.2 id actorId ctx rfl
  | touch authorization =>
    refine Prog.obeys_bind.mpr ((apiKeyAuth_obeys (fun _ _ => .inl) authorization).post
      (fun k h ⟨ha, hfound⟩ => ?_) fun _ _ _ => trivial)
    refine Prog.obeys_bind.mpr (dateNow_obeys (.inl trivial) fun now => ?_)
    have hs : h <:+ ⟨pid, .payments .now, now⟩ :: h := List.suffix_cons _ _
    have hupdate : (prisma (.apiKeyUpdate (ApiKey.id k) { lastUsedAt := some now }) :
        Action A Unit).Obeys (Expected (κ := κ) C (.touch authorization)) pid (fun _ _ => True)
        (fun _ _ => True) (⟨pid, .payments .now, now⟩ :: h) :=
      prisma_obeys (.inr ⟨_, ha.mono hs.subset, hfound.mono hs.subset⟩) fun _ => trivial
    have hreturned : ∀ h', h <:+ h' → Returned (κ := κ) C (.touch authorization) h' := by
      refine fun h' hs' => ⟨fun caller hcaller => ?_, nofun⟩
      cases hcaller
      exact ⟨_, ha.mono hs'.subset⟩
    exact Prog.obeys_bind.mpr (Prog.obeys_attempt.mpr ((hupdate.grows hs).post
      (fun _ h' hs' => hreturned h' hs'.1) fun _ h' hs' => hreturned h' hs'.1))
  | payments job =>
    exact (workload_obeys C W (.payments job) pid).post (fun _ _ _ => ⟨nofun, nofun⟩)
      fun _ _ _ => trivial
  | webhooks queue =>
    exact (workload_obeys C W (.webhooks queue) pid).post (fun _ _ _ => ⟨nofun, nofun⟩)
      fun _ _ _ => trivial

section Runs

variable {start : State ω → Prop} {s s' : System (calls A) Thrown (Job κ) (State ω)}

/-- What a request asks for after its guard is for an organization that it was admitted for. -/
theorem admitted_of_event (hs : Reachable (machine B) (workload C W) start anything s)
    {p : Proc (calls A) Thrown (Job κ)} (hp : p ∈ s.procs) {caller : Caller}
    (hcaller : p.job.caller = some caller) {ev : Event (calls A)} (hev : ev ∈ s.config.trace)
    (hpid : ev.pid = p.pid) (hop : ¬ GuardOp ev.op) :
    ∃ h, h ⊆ own p.pid s.config.trace ∧ ∃ org, Admitted C h caller org ∧ OpOf org h ev.op := by
  obtain ⟨hin, -⟩ := (hs.tracked (workload_obeys C W)).prog p hp
  obtain ⟨h, hsuf, hE⟩ := hin.mem (mem_own.mpr ⟨hev, hpid⟩)
  refine ⟨h, ((List.suffix_cons ev h).trans hsuf).subset, ?_⟩
  revert hE hcaller
  cases p.job with
  | request c o =>
    intro hcaller hE
    cases hcaller
    exact hE.resolve_left hop
  | touch authorization =>
    intro hcaller hE
    cases hcaller
    exact hE.resolve_left hop
  | payments job => exact nofun
  | webhooks queue => exact nofun

/-- A request that has got past its guard was admitted. -/
theorem admitted_of_past (hs : Reachable (machine B) (workload C W) start anything s)
    {p : Proc (calls A) Thrown (Job κ)} (hp : p ∈ s.procs) (hpast : PastGuard s p) {caller : Caller}
    (hcaller : p.job.caller = some caller) :
    ∃ org, Admitted C (own p.pid s.config.trace) caller org := by
  rcases hpast with hret | ⟨ev, hev, hpid, hop⟩
  · have hout := hs.outcome (fun j pid => launch_returned C W j pid) p hp
    rw [hret] at hout
    exact hout.admitted caller hcaller
  · obtain ⟨h, hsub, org, ha, -⟩ := admitted_of_event hs hp hcaller hev hpid hop
    exact ⟨org, ha.mono hsub⟩

/-! ## Lookups -/

/-- Whoever has looked the key's hash up since `tr` has found what became of the key, and what
    became of that is stored. -/
def FoundSince (tr : Requests A) (k : ApiKey) (c : Async.Config (calls A) (State ω)) : Prop :=
  ∀ ev ∈ c.trace, ev ∈ tr ∨ ∀ pid r, ev = ⟨pid, .db (.apiKeyFindUnique k.keyHash), .ok r⟩ →
    ∃ k', r = some k' ∧ k.Becomes k' ∧ ∃ k'' ∈ c.state.db.apiKeys, k'.Becomes k''

theorem FoundSince.keeps {tr tr' : Requests A} {k : ApiKey} {st st' : State ω}
    (h : FoundSince tr k ⟨st, tr'⟩) (hk : KeepsKeys st.db st'.db) : FoundSince tr k ⟨st', tr'⟩ := by
  intro ev hev
  refine (h ev hev).imp_right fun hfound pid r heq => ?_
  obtain ⟨k', hr, hb, k'', hk'', hb'⟩ := hfound pid r heq
  obtain ⟨k₃, hk₃, hb₃⟩ := hk k'' hk''
  exact ⟨k', hr, hb, k₃, hk₃, hb'.trans hb₃⟩

/-- A stored key is found by every later lookup of its hash. -/
theorem found_since (hl : Leads (machine B) (workload C W) anything s s') {k : ApiKey}
    (hk : k ∈ s.config.state.db.apiKeys) :
    FoundSince s.config.trace k s'.config := by
  refine (hl.keeps (R := fun t => KeepsKeys s.config.state.db t.config.state.db ∧
    FoundSince s.config.trace k t.config) ⟨.refl _, fun ev hev => .inl hev⟩
    (fun t u m hR _ hstep => ?_)).2
  obtain ⟨hkeeps, hfound⟩ := hR
  cases m with
  | start job =>
    obtain ⟨-, rfl⟩ := System.step_start hstep
    exact ⟨hkeeps, hfound⟩
  | perform pid input =>
    obtain ⟨job, op, g, r, state, -, hr, rfl⟩ := System.step_perform hstep
    have hstays := respond_keepsKeys hr
    refine ⟨hkeeps.trans hstays, fun ev hev => ?_⟩
    rcases List.mem_cons.mp hev with rfl | hev
    · refine .inr fun q found heq => ?_
      cases heq
      obtain ⟨k₁, hk₁, hb⟩ := hkeeps k hk
      have hexec : (.ok (t.config.state.db.apiKeys.rows.find? fun x => x.keyHash = k.keyHash) :
          Except PrismaErrorCode (Option ApiKey)) = .ok found := respond_db_ok hr
      obtain rfl := Except.ok.inj hexec
      obtain ⟨k₂, hk₂, hb₂⟩ := hstays k₁ hk₁
      refine ⟨k₁, ?_, hb, k₂, hk₂, hb₂⟩
      exact (find?_hash_iff.mpr ⟨hk₁, hb.keyHash⟩)
    · exact hfound.keeps hstays ev hev
  | stop pid =>
    cases hstep
    exact ⟨hkeeps, hfound⟩
  | env act =>
    obtain ⟨state, hact, rfl⟩ := System.step_env hstep
    have hstays := environment_keepsKeys hact
    exact ⟨hkeeps.trans hstays, hfound.keeps hstays⟩

/-! ## Revocation -/

/-- A revocation that has resolved shows in the table. -/
def RevocationsShow (c : Async.Config (calls A) (State ω)) : Prop :=
  ∀ pid id t, ⟨pid, .db (.apiKeyUpdate id { revokedAt := some t }), .ok ()⟩ ∈ c.trace →
    ∃ k ∈ c.state.db.apiKeys, k.id = id ∧ k.revokedAt.isSome

theorem RevocationsShow.keeps {st st' : State ω} {tr : Requests A} (h : RevocationsShow ⟨st, tr⟩)
    (hk : KeepsKeys st.db st'.db) : RevocationsShow ⟨st', tr⟩ := by
  intro pid id t hmem
  obtain ⟨k, hkey, hid, hrev⟩ := h pid id t hmem
  obtain ⟨k', hkey', hb⟩ := hk k hkey
  exact ⟨k', hkey', hb.id.trans hid, hb.revoked hrev⟩

/-- A lookup by id finds a key with that id. -/
def LookupsMatch (tr : Requests A) : Prop :=
  ∀ pid id org k, ⟨pid, .db (.apiKeyFindFirst id org), .ok (some k)⟩ ∈ tr → ApiKey.id k = id

theorem revocations_inv (hs : Reachable (machine B) (workload C W) start anything s) :
    RevocationsShow s.config ∧ LookupsMatch s.config.trace := by
  refine Reachable.invariant (I := fun c => RevocationsShow c ∧ LookupsMatch c.trace)
    (workload_obeys C W) (fun s _ => ⟨nofun, nofun⟩) (fun c act state hI hact => ?_)
    (fun c ev state hI hans => ?_) hs
  · exact ⟨hI.1.keeps (environment_keepsKeys hact), hI.2⟩
  · obtain ⟨i, hr⟩ := hans.reply
    refine ⟨fun pid id t hmem => ?_, fun pid id org k hmem => ?_⟩
    · rcases List.mem_cons.mp hmem with heq | hmem
      · subst heq
        have hafter : state.db = _ := respond_db_after hr
        show ∃ k ∈ state.db.apiKeys, _
        rw [hafter]
        exact exec_revokes (respond_db_ok hr)
      · exact (hI.1.keeps (respond_keepsKeys hr)) pid id t hmem
    · rcases List.mem_cons.mp hmem with heq | hmem
      · subst heq
        have hfind := Except.ok.inj (respond_db_ok hr)
        have hk : k.id = id ∧ k.organizationId = org := by simpa using List.find?_some hfind
        exact hk.1
      · exact hI.2 pid id org k hmem

/-- Once a request to revoke a key has returned, the key is of no use: whatever is in flight and
    however it goes on, no request that presents it and had not asked the table for it by then gets
    past its guard. -/
theorem revoked_key_refused (hs : Reachable (machine B) (workload C W) start anything s)
    (hl : Leads (machine B) (workload C W) anything s s') {p : Proc (calls A) Thrown (Job κ)}
    (hp : p ∈ s.procs) {caller : Caller} {id actorId : String} {ctx : RequestContext}
    (hjob : p.job = .request caller (.revokeApiKey id actorId ctx)) (hret : p.prog = .ret ()) :
    ∃ k ∈ s.config.state.db.apiKeys, k.id = id ∧ ∀ q ∈ s'.procs,
      (∀ ev ∈ s.config.trace, ev.pid ≠ q.pid) → ∀ authorization raw,
        q.job.caller = some (.apiKey authorization) → bearerKey authorization = .ok raw →
        hashApiKey C raw = k.keyHash → ¬ PastGuard s' q := by
  have hout := hs.outcome (fun j pid => launch_returned C W j pid) p hp
  rw [hret] at hout
  obtain ⟨pid, pid', org, k₀, t, hfind, hupdate⟩ := hout.revokes caller id actorId ctx hjob
  obtain ⟨hshow, hmatch⟩ := revocations_inv hs
  have hid : k₀.id = id := hmatch pid id org k₀ (mem_own.mp hfind).1
  obtain ⟨k, hk, hkid, hrev⟩ := hshow pid' k₀.id t (mem_own.mp hupdate).1
  refine ⟨k, hk, hkid.trans hid, fun q hq hnew authorization raw hcaller hraw hhash hpast => ?_⟩
  obtain ⟨org', raw', pid'', k', now, hraw', hlook, -, hended, -⟩ :=
    admitted_of_past (hl.reachable hs) hq hpast hcaller
  obtain rfl : raw = raw' := Except.ok.inj (hraw.symm.trans hraw')
  obtain ⟨hmem, hpid⟩ := mem_own.mp hlook
  rcases found_since hl hk _ hmem with hold | hfound
  · exact hnew _ hold hpid
  · obtain ⟨k₁, hk₁, hb, -⟩ := hfound pid'' (some k') (by rw [hhash])
    obtain rfl := Option.some.inj hk₁
    simp only [ApiKey.ended, hb.revoked hrev, Bool.true_or, Bool.true_eq_false] at hended

end Runs

end CryptoPay.Tenancy
