import CryptoPay.Webhooks.FanOut

/-!
# Passes after the revocation of an endpoint

`WebhookEndpointsService.revoke` (`apps/api/src/webhooks/webhook-endpoints.service.ts`,
lines 78–100) clears `enabled` and sets `revokedAt`; no code sets `enabled`
again (`production`). The dispatch queue reads enabled endpoints. The retry
queue reads `FAILED` deliveries with their endpoint, whatever it is.

Results:
* `revocation_is_final`: where no retry pass reads a delivery of a revoked
  endpoint, no pass that starts after a revocation posts to the endpoint.
* `retried_after_revocation`: a delivery that failed before is posted after.
-/

namespace CryptoPay.Webhooks

open Async

/-- The machine, in which endpoints are created and revoked, and never enabled again. -/
def production : Machine calls World Input Act where
  respond _ := respond
  env w act :=
    match act with
    | .enableEndpoint _ => none
    | _ => environment w act
  restarts _ := false

/-- A retry pass reads no delivery of a revoked endpoint. -/
def noneRevokedDue : Condition calls World := fun c _ op =>
  match op with
  | .db (.deliveryFindMany lte take) =>
    ∀ x ∈ c.state.db.due lte take, x.endpoint.revokedAt = none
  | _ => True

/-- The systems of runs without another condition. -/
abbrev Deployed (P : Platform) (key : String) (allowed : Condition calls World) :
    WebhookSystem → Prop :=
  Reachable production (workload P key) Undelivered allowed

theorem production_env {w w' : World} {act : Act} (h : production.env w act = some w') :
    environment w act = some w' ∧ ∀ id, act ≠ .enableEndpoint id := by
  cases act with
  | enableEndpoint id => cases h
  | _ => exact ⟨h, fun _ => nofun⟩

/-- The endpoint is revoked. -/
def Revoked (w : World) (endpointId : String) : Prop :=
  ∃ p ∈ w.db.webhookEndpoints, p.id = endpointId ∧ p.enabled = false ∧ p.revokedAt ≠ none

/-- A revocation commits. -/
theorem revoked_of_revoke {w w' : World} {endpointId : String} {t : Time}
    (hp : ∃ p ∈ w.db.webhookEndpoints, p.id = endpointId)
    (h : production.env w (.revokeEndpoint endpointId t) = some w') : Revoked w' endpointId := by
  obtain ⟨p, hp, hid⟩ := hp
  cases h
  have hmem := Data.Table.mem_modify_of_mem (k := endpointId) hp
    (f := fun p => { p with enabled := false, revokedAt := some t }) fun _ => rfl
  rw [if_pos hid] at hmem
  exact ⟨_, hmem, hid, rfl, nofun⟩

/-- The endpoints of a table in which some row was rewritten. -/
theorem revoked_modify {w : World} {endpointId id : String} (h : Revoked w endpointId)
    (f : WebhookEndpoint → WebhookEndpoint) (hid : ∀ p, (f p).id = p.id)
    (hf : ∀ p, p.enabled = false → p.revokedAt ≠ none →
      (f p).enabled = false ∧ (f p).revokedAt ≠ none) :
    Revoked { w with db := { w.db with
      webhookEndpoints := w.db.webhookEndpoints.modify id f hid } } endpointId := by
  obtain ⟨p, hp, hpid, hoff, hrev⟩ := h
  refine ⟨_, Data.Table.mem_modify_of_mem hp hid, ?_⟩
  split_ifs
  · exact ⟨(hid p).trans hpid, hf p hoff hrev⟩
  · exact ⟨hpid, hoff, hrev⟩

/-- No act of the environment undoes a revocation. -/
theorem Revoked.env {w w' : World} {endpointId : String} {act : Act} (h : Revoked w endpointId)
    (henv : production.env w act = some w') : Revoked w' endpointId := by
  obtain ⟨henv, hnot⟩ := production_env henv
  cases act with
  | clock t =>
    cases henv
    exact h
  | storeEvent e =>
    obtain ⟨t, -, rfl⟩ := Option.map_eq_some_iff.mp henv
    exact h
  | storeEndpoint p =>
    obtain ⟨t, ht, rfl⟩ := Option.map_eq_some_iff.mp henv
    obtain ⟨q, hq, hrest⟩ := h
    exact ⟨q, ((Data.Table.insert?_eq_some ht).2 q).mpr (.inr hq), hrest⟩
  | enableEndpoint id => exact absurd rfl (hnot id)
  | revokeEndpoint id t =>
    cases henv
    exact revoked_modify h _ _ fun _ _ _ => ⟨rfl, nofun⟩
  | reorderEvents rows =>
    simp only [environment] at henv
    split_ifs at henv
    cases henv
    exact h
  | reorderEndpoints rows =>
    simp only [environment] at henv
    split_ifs at henv with hperm
    cases henv
    obtain ⟨q, hq, hrest⟩ := h
    exact ⟨q, (Data.Table.mem_reorder (h := hperm)).mpr hq, hrest⟩
  | reorderDeliveries rows =>
    simp only [environment] at henv
    split_ifs at henv
    cases henv
    exact h

/-- A pass leaves the endpoints alone. -/
theorem Step.endpoints_eq {c : Log} {ev : Event calls} {w : World} (h : Step c ev w) :
    w.db.webhookEndpoints = c.state.db.webhookEndpoints := by
  cases h with
  | created idle listed pending effect => exact effect.endpoints
  | createLost idle listed pending effect => exact effect.endpoints
  | updated began unended outcome effect => exact effect.endpoints
  | updateLost began unended outcome effect => exact effect.endpoints
  | _ => rfl

theorem Revoked.step {c : Log} {ev : Event calls} {w : World} {endpointId : String}
    (h : Revoked c.state endpointId) (hstep : Step c ev w) : Revoked w endpointId := by
  obtain ⟨p, hp, hrest⟩ := h
  exact ⟨p, by rw [hstep.endpoints_eq]; exact hp, hrest⟩

/-! ## What the later passes have read -/

/-- The passes from `n` on have read nothing of the endpoint, and their rows are stored. -/
structure Avoids (endpointId : String) (n : ℕ) (c : Log) : Prop where
  batch : ∀ pid take batch, n ≤ pid → batchRead pid take batch ∈ c.trace →
    ∀ e ∈ batch, ∀ p ∈ e.webhookEndpoints, p.id ≠ endpointId
  due : ∀ pid lte take due, n ≤ pid → dueRead pid lte take due ∈ c.trace → ∀ x ∈ due,
    x.endpoint.id ≠ endpointId ∧
      ∃ y ∈ c.state.db.webhookDeliveries, y.id = x.id ∧ y.endpointId = x.endpoint.id
  created : ∀ pid d row, n ≤ pid → created pid d row ∈ c.trace →
    ∃ y ∈ c.state.db.webhookDeliveries, y.id = row.id ∧ y.endpointId = d.endpointId

variable {endpointId : String} {n : ℕ} {c : Log} {ev : Event calls} {w : World}

/-- A stored row keeps its id and its endpoint. -/
theorem Evolves.row {w' : World} (h : Evolves w w') {id e : String}
    (hy : ∃ y ∈ w.db.webhookDeliveries, y.id = id ∧ y.endpointId = e) :
    ∃ y ∈ w'.db.webhookDeliveries, y.id = id ∧ y.endpointId = e := by
  obtain ⟨y, hy, hid, he⟩ := hy
  obtain ⟨y', hy', hid', hpair⟩ := h.deliveries y hy
  exact ⟨y', hy', hid'.trans hid, (congrArg Prod.snd hpair).trans he⟩

theorem Avoids.evolves {tr : Requests} (h : Avoids endpointId n ⟨w, tr⟩) {w' : World}
    (hw : Evolves w w') : Avoids endpointId n ⟨w', tr⟩ where
  batch := h.batch
  due pid lte take due hn hd x hx :=
    ⟨(h.due pid lte take due hn hd x hx).1, hw.row (h.due pid lte take due hn hd x hx).2⟩
  created pid d row hn hc := hw.row (h.created pid d row hn hc)

theorem Avoids.step (h : Avoids endpointId n c) (hrev : Revoked c.state endpointId)
    (ha : noneRevokedDue c ev.pid ev.op) (hstep : Step c ev w) :
    Avoids endpointId n ⟨w, ev :: c.trace⟩ := by
  have hold := h.evolves hstep.evolves
  obtain ⟨p, hp, hpid, hoff, hrevoked⟩ := hrev
  refine ⟨fun pid take batch hn hmem => ?_, fun pid lte take due hn hmem => ?_,
    fun pid d row hn hmem => ?_⟩
  · rcases List.mem_cons.mp hmem with rfl | hmem
    · -- the endpoints of a batch are enabled
      cases hstep with
      | batch fresh =>
        intro e he q hq hqid
        rw [(mem_undelivered he).2, mem_enabledEndpoints] at hq
        have hqp : q = p := c.state.db.webhookEndpoints.eq_of_key hq.1 hp (hqid.trans hpid.symm)
        rw [hqp, hoff] at hq
        cases hq.2.1
      | silent hs => exact hs.elim
    · exact hold.batch pid take batch hn hmem
  · rcases List.mem_cons.mp hmem with rfl | hmem
    · cases hstep with
      | due =>
        intro x hx
        obtain ⟨hrow, -, -, -, hendpoint, hid⟩ := mem_due hx
        refine ⟨fun hxid => ?_, x.toWebhookDelivery, hrow, rfl, hid.symm⟩
        have hxp : x.endpoint = p :=
          c.state.db.webhookEndpoints.eq_of_key hendpoint hp (hxid.trans hpid.symm)
        exact hrevoked (hxp ▸ ha x hx)
      | silent hs => exact hs.elim
    · exact hold.due pid lte take due hn hmem
  · rcases List.mem_cons.mp hmem with rfl | hmem
    · cases hstep with
      | created idle listed pending effect =>
        exact ⟨_, (effect.deliveries _).mpr (.inl rfl), rfl, rfl⟩
      | silent hs => exact hs.elim
    · exact hold.created pid d row hn hmem

/-! ## Requests -/

/-- An attempt that is under way has begun. -/
theorem marked_of_current {h : Requests} {a : Attempt} (hc : current h = some a) :
    ∃ pid, marked pid (.delivering a) ∈ h := by
  induction h with
  | nil => cases hc
  | cons ev h ih =>
    unfold current at hc
    split at hc
    · cases hc
    · rename_i pid b r h' heq
      cases hc
      cases heq
      exact ⟨pid, List.mem_cons_self⟩
    · cases hc
    · rename_i h' heq
      cases heq
      obtain ⟨pid, hmem⟩ := ih hc
      exact ⟨pid, List.mem_cons_of_mem ev hmem⟩

/-- The row of an attempt of a later pass is stored, for another endpoint. -/
theorem Avoids.attempt (h : Avoids endpointId n c) {pid : ℕ} (hn : n ≤ pid) {j : QueueName}
    (hj : InOrder (Expected j) (own pid c.trace)) {l : Requests} (hl : l <:+ own pid c.trace)
    {a : Attempt} (hc : current l = some a) :
    ∃ y ∈ c.state.db.webhookDeliveries, y.id = a.deliveryId ∧ y.endpointId ≠ endpointId := by
  obtain ⟨q, hmark⟩ := marked_of_current hc
  obtain ⟨h', hs, -, -, hjust⟩ := hj.mem (hl.subset hmark)
  have hs' : h' <:+ own pid c.trace := (List.suffix_cons _ _).trans hs
  have hown : ∀ {ev : Event calls}, ev ∈ h' → ev ∈ c.trace ∧ ev.pid = pid := fun hev =>
    mem_own.mp (hs'.subset hev)
  unfold Justified at hjust
  split at hjust
  · obtain ⟨-, q', d, row, h₁, rfl, hid, -, hep⟩ := hjust
    obtain ⟨htr, rfl⟩ := hown List.mem_cons_self
    obtain ⟨y, hy, hyid, hye⟩ := h.created _ d row hn htr
    refine ⟨y, hy, hyid.trans hid, fun heq => ?_⟩
    obtain ⟨h₂, hs₂, -, -, -, q₂, take, batch, hb, e, he, -, p, hp, hpid⟩ :=
      hj.mem (hs'.subset List.mem_cons_self)
    obtain ⟨htr₂, rfl⟩ := mem_own.mp (((List.suffix_cons _ _).trans hs₂).subset hb)
    exact h.batch _ take batch hn htr₂ e he p hp (by rw [hpid, ← hye, heq])
  · obtain ⟨q', lte, take, due, hd, x, hx, hid, -, -, -⟩ := hjust
    obtain ⟨htr, rfl⟩ := hown hd
    obtain ⟨hne, y, hy, hyid, hye⟩ := h.due _ lte take due hn htr x hx
    exact ⟨y, hy, hyid.trans hid, by rwa [hye]⟩

/-! ## Runs -/

/-- After a revocation the endpoint stays revoked, and later passes have read nothing of it. -/
theorem avoids_of_leads {P : Platform} {key : String} {s s' : WebhookSystem}
    (hs : Deployed P key noneRevokedDue s) (hrev : Revoked s.config.state endpointId)
    (hl : Leads production (workload P key) noneRevokedDue s s') :
    Deployed P key noneRevokedDue s' ∧ Revoked s'.config.state endpointId ∧
      Avoids endpointId s.next s'.config := by
  have hstart : Avoids endpointId s.next s.config := by
    have hpast := (hs.tracked (workload_obeys P key)).past
    exact ⟨fun pid _ _ hn hmem => absurd (hpast _ hmem) (Nat.not_lt.mpr hn),
      fun pid _ _ _ hn hmem => absurd (hpast _ hmem) (Nat.not_lt.mpr hn),
      fun pid _ _ hn hmem => absurd (hpast _ hmem) (Nat.not_lt.mpr hn)⟩
  refine hl.keeps (R := fun t => Deployed P key noneRevokedDue t ∧
    Revoked t.config.state endpointId ∧ Avoids endpointId s.next t.config) ⟨hs, hrev, hstart⟩ ?_
  rintro t u m ⟨ht, hrev, hav⟩ hm hstep
  refine ⟨.step m ht hm hstep, ?_⟩
  rcases ht.step_cases (workload_obeys P key) hm hstep with
    heq | ⟨act, w, henv, heq⟩ | ⟨ev, w, hans, heq⟩
  · rw [heq]
    exact ⟨hrev, hav⟩
  · rw [heq]
    exact ⟨hrev.env henv, hav.evolves (environment_untouched (production_env henv).1).evolves⟩
  · have hans' : Answered machine noneRevokedDue Expected t.config ev w :=
      ⟨hans.allowed, hans.expected, hans.history, hans.reply⟩
    have hwebhook := step_of_answered hans'
    rw [heq]
    exact ⟨hrev.step hwebhook, hav.step hrev hans.allowed hwebhook⟩

/-- Once a revocation has committed, no pass that starts afterwards sends a request for a delivery
    to the endpoint, in any run whose steps meet `allowed`. -/
def FinalRevocation (P : Platform) (key : String) (allowed : Condition calls World) : Prop :=
  ∀ (s s₁ s' : WebhookSystem) (endpointId : String) (t : Time), Deployed P key allowed s →
    (∃ p ∈ s.config.state.db.webhookEndpoints, p.id = endpointId) →
    s.step production (workload P key) (.env (.revokeEndpoint endpointId t)) = some s₁ →
    Leads production (workload P key) allowed s₁ s' →
    ∀ pid deliveryId request r, s₁.next ≤ pid →
      (⟨pid, .fetch deliveryId request, r⟩ : Event calls) ∈ s'.config.trace →
      ∀ x ∈ s'.config.state.db.webhookDeliveries, x.id = deliveryId → x.endpointId ≠ endpointId

theorem revocation_is_final (P : Platform) (key : String) : FinalRevocation P key noneRevokedDue := by
  intro s s₁ s' endpointId t hs hp hrev hl pid deliveryId request r hpid hev
  have hs₁ : Deployed P key noneRevokedDue s₁ :=
    .step _ hs (fun _ _ _ _ _ he => by cases he) hrev
  have hrevoked : Revoked s₁.config.state endpointId := by
    obtain ⟨w, henv, rfl⟩ := System.step_env hrev
    exact revoked_of_revoke hp henv
  obtain ⟨hs', -, hav⟩ := avoids_of_leads hs₁ hrevoked hl
  obtain ⟨j, hj⟩ := hs'.history (workload_obeys P key) pid
  obtain ⟨h', hsuffix, ⟨a, hc, hid⟩, -, -⟩ := hj.mem (mem_own.mpr ⟨hev, rfl⟩)
  obtain ⟨y, hy, hyid, hne⟩ :=
    hav.attempt hpid hj ((List.suffix_cons _ _).trans hsuffix) hc
  intro x hx hxid
  have hxy : x = y := DeliveryTable.eq_of_id hx hy (by rw [hxid, hyid, hid])
  rwa [hxy]

/-- The passes that have sent a request, with the rows that the requests are for. -/
def requests (s : WebhookSystem) : List (ℕ × String) :=
  s.config.trace.filterMap fun
    | ⟨pid, .fetch id _, _⟩ => some (pid, id)
    | _ => none

theorem mem_requests {s : WebhookSystem} (pid : ℕ) (id : String) (h : (pid, id) ∈ requests s) :
    ∃ request r, (⟨pid, .fetch id request, r⟩ : Event calls) ∈ s.config.trace := by
  obtain ⟨⟨q, op, r⟩, hev, hf⟩ := List.mem_filterMap.mp h
  cases op with
  | fetch id' request =>
    cases hf
    exact ⟨request, r, hev⟩
  | _ => cases hf

/-- What a run around a revocation shows. -/
structure Sighting where
  /-- The endpoints before the revocation. -/
  endpoints : List String
  /-- The process id of the next pass after it. -/
  next : ℕ
  /-- The requests at the end. -/
  requests : List (ℕ × String)
  /-- The rows at the end, with their endpoints. -/
  rows : List (String × String)
  deriving DecidableEq

/-- A revocation of `we_1` between two lists of moves. -/
def revokeBetween (ok : Log → ℕ → Op → Bool) (w : World) (before after : List WebhookMove) :
    Option Sighting :=
  ((System.initial w).runWhere ok production (workload samplePlatform sampleKey) before).bind
    fun s => (s.step production (workload samplePlatform sampleKey)
      (.env (.revokeEndpoint "we_1" 50000))).bind fun s₁ =>
        (s₁.runWhere ok production (workload samplePlatform sampleKey) after).map fun s' =>
          ⟨s.config.state.db.webhookEndpoints.rows.map fun p => p.id, s₁.next, requests s',
            s'.config.state.db.webhookDeliveries.rows.map fun d => (d.id, d.endpointId)⟩

theorem revokeBetween_view {ok : Log → ℕ → Op → Bool} {allowed : Condition calls World}
    (hok : ∀ c pid op, ok c pid op = true → allowed c pid op) {w : World} (hw : Undelivered w)
    {before after : List WebhookMove} {v : Sighting} (hid : "we_1" ∈ v.endpoints)
    (h : revokeBetween ok w before after = some v) :
    ∃ s s₁ s', Deployed samplePlatform sampleKey allowed s ∧
      (∃ p ∈ s.config.state.db.webhookEndpoints, p.id = "we_1") ∧
      s.step production (workload samplePlatform sampleKey)
        (.env (.revokeEndpoint "we_1" 50000)) = some s₁ ∧
      Leads production (workload samplePlatform sampleKey) allowed s₁ s' ∧ s₁.next = v.next ∧
      requests s' = v.requests ∧
      s'.config.state.db.webhookDeliveries.rows.map (fun d => (d.id, d.endpointId)) = v.rows := by
  obtain ⟨s, hs, h⟩ := Option.bind_eq_some_iff.mp h
  obtain ⟨s₁, hs₁, h⟩ := Option.bind_eq_some_iff.mp h
  obtain ⟨s', hs', rfl⟩ := Option.map_eq_some_iff.mp h
  exact ⟨s, s₁, s', Reachable.runWhere hok _ (.initial hw) hs, List.mem_map.mp hid, hs₁,
    Leads.runWhere hok _ .refl hs', rfl, rfl, rfl⟩

/-- A first attempt that fails, and a retry once it is due, which succeeds. -/
def retried : List WebhookMove :=
  [.env (.clock 100000), .start .retry] ++
    performs 1 [.ok, .ok, .ok, .ok, publicAddress, .ok, .ok, .response (.ok 200)]

set_option maxRecDepth 8000 in
/-- A delivery that failed before the revocation is posted by a retry pass that starts after it. -/
theorem retried_after_revocation : ¬ ∀ P key, FinalRevocation P key anything := by
  intro h
  have hview : revokeBetween (fun _ _ _ => true) sampleWorld failingRun retried =
      some ⟨["we_1"], 1, [(1, "whd_1"), (0, "whd_1")], [("whd_1", "we_1")]⟩ := by decide +kernel
  have hany : ∀ (c : Log) (pid : ℕ) (op : Op), true = true → anything c pid op :=
    fun _ _ _ _ => trivial
  obtain ⟨s, s₁, s', hs, hp, hrev, hl, hnext, hrequests, hrows⟩ :=
    revokeBetween_view hany sampleWorld_undelivered List.mem_cons_self hview
  obtain ⟨request, r, hev⟩ := mem_requests (s := s') 1 "whd_1" (by
    rw [hrequests]
    exact List.mem_cons_self)
  obtain ⟨x, hx, hxid⟩ : ∃ x ∈ s'.config.state.db.webhookDeliveries.rows,
      (x.id, x.endpointId) = ("whd_1", "we_1") := List.mem_map.mp (hrows ▸ List.mem_cons_self)
  obtain ⟨hid, hendpoint⟩ := Prod.mk.inj hxid
  exact h samplePlatform sampleKey s s₁ s' "we_1" 50000 hs hp hrev hl 1 "whd_1" request r
    (by rw [hnext]) hev x hx hid hendpoint

/-- `noneRevokedDue`, decided. -/
def noneRevokedDueCheck (c : Log) (_ : ℕ) : Op → Bool
  | .db (.deliveryFindMany lte take) =>
    (c.state.db.due lte take).all fun x => x.endpoint.revokedAt.isNone
  | _ => true

theorem noneRevokedDue_of_check (c : Log) (pid : ℕ) (op : Op)
    (h : noneRevokedDueCheck c pid op = true) : noneRevokedDue c pid op := by
  cases op with
  | db call =>
    cases call with
    | deliveryFindMany lte take =>
      exact fun x hx => Option.isNone_iff_eq_none.mp (List.all_eq_true.mp h x hx)
    | _ => trivial
  | _ => trivial

theorem sampleEndpoints_nodup : ([sampleEndpoint "we_1" "org" goodSecret,
    sampleEndpoint "we_2" "org" goodSecret].map WebhookEndpoint.id).Nodup := by
  simp [sampleEndpoint]

theorem revocableEvents_nodup : ([sampleEvent "evt_1" "org" 0].map WebhookEvent.id).Nodup :=
  List.nodup_singleton _

/-- One event and two endpoints. -/
def revocableWorld : World where
  db := {
    webhookEvents := ⟨_, revocableEvents_nodup⟩
    webhookEndpoints := ⟨_, sampleEndpoints_nodup⟩
    webhookDeliveries := .empty }
  clock := 0

theorem revocable_undelivered : Undelivered revocableWorld := DeliveryTable.not_mem_empty

set_option maxRecDepth 8000 in
/-- A dispatch pass and a retry pass after a revocation, which post to the other endpoint. -/
theorem revocation_is_final_dispatched : ∃ s s₁ s',
    Deployed samplePlatform sampleKey noneRevokedDue s ∧
    s.step production (workload samplePlatform sampleKey)
      (.env (.revokeEndpoint "we_1" 50000)) = some s₁ ∧
    Leads production (workload samplePlatform sampleKey) noneRevokedDue s₁ s' ∧
    requests s' = [(1, "whd_1"), (0, "whd_1")] ∧
    ∀ x ∈ s'.config.state.db.webhookDeliveries, x.id = "whd_1" → x.endpointId ≠ "we_1" := by
  have hview : revokeBetween noneRevokedDueCheck revocableWorld [] (failingRun ++ retried) =
      some ⟨["we_1", "we_2"], 0, [(1, "whd_1"), (0, "whd_1")], [("whd_1", "we_2")]⟩ := by
    decide +kernel
  obtain ⟨s, s₁, s', hs, hp, hrev, hl, hnext, hrequests, -⟩ := revokeBetween_view
    noneRevokedDue_of_check revocable_undelivered List.mem_cons_self hview
  obtain ⟨request, r, hev⟩ := mem_requests (s := s') 1 "whd_1" (by
    rw [hrequests]
    exact List.mem_cons_self)
  exact ⟨s, s₁, s', hs, hrev, hl, hrequests, revocation_is_final samplePlatform sampleKey s s₁ s'
    "we_1" 50000 hs hp hrev hl 1 "whd_1" request r (hnext ▸ Nat.zero_le 1) hev⟩

end CryptoPay.Webhooks
