import CryptoPay.Webhooks.Steps

/-!
# One first delivery for an event and an endpoint

A dispatch pass calls `deliverWebhook` right after it has created the row for
the pair, and only one pass can create it.

Results:
* `pairs_inv`: `Pairs` holds in every reachable system, whatever overlaps.
* `dispatch_once`: no pair is dispatched twice, no pair has two rows, and the
  endpoint of a row belongs to the organization of its event.
-/

namespace CryptoPay.Webhooks

open Async

/-- The dispatch queue is about to call `deliverWebhook` for the pair. -/
def firstFor (eventId endpointId : String) (ev : Event calls) : Bool :=
  match ev.op with
  | .mark (.delivering a) =>
    a.queue = .dispatch && a.eventId = eventId && a.endpointId = endpointId
  | _ => false

/-- How often the dispatch queue has called `deliverWebhook` for the pair. -/
def dispatchCalls (eventId endpointId : String) (tr : Requests) : ℕ :=
  tr.countP (firstFor eventId endpointId)

theorem firstFor_eq_true {eventId endpointId : String} {ev : Event calls} :
    firstFor eventId endpointId ev = true ↔ ∃ a, ev.op = .mark (.delivering a) ∧
      a.queue = .dispatch ∧ a.eventId = eventId ∧ a.endpointId = endpointId := by
  unfold firstFor
  split
  · rename_i a ha
    rw [ha]
    constructor
    · intro h
      simp only [Bool.and_eq_true, decide_eq_true_iff] at h
      exact ⟨a, rfl, h.1.1, h.1.2, h.2⟩
    · rintro ⟨a', ha', hq, he, hp⟩
      cases ha'
      simp only [Bool.and_eq_true, decide_eq_true_iff]
      exact ⟨⟨hq, he⟩, hp⟩
  · rename_i hne
    exact ⟨nofun, fun ⟨a, ha, _⟩ => absurd ha (hne a)⟩

/-- What ties the trace of the dispatch passes to the delivery rows. -/
structure Pairs (c : Log) : Prop where
  /-- A batch entry was read from the tables. -/
  listed : ∀ pid take batch, batchRead pid take batch ∈ c.trace → ∀ e ∈ batch,
    (∃ e' ∈ c.state.db.webhookEvents, e'.id = e.id ∧ e'.organizationId = e.organizationId) ∧
      ∀ p ∈ e.webhookEndpoints, ∃ p' ∈ c.state.db.webhookEndpoints,
        p'.id = p.id ∧ p'.organizationId = e.organizationId
  /-- The row of a successful create is stored. -/
  stored : ∀ pid d row, created pid d row ∈ c.trace →
    ∃ x ∈ c.state.db.webhookDeliveries, x.id = row.id ∧ x.pair = (d.eventId, d.endpointId)
  /-- One pass creates the row of a pair, once. -/
  sole : ∀ pid d row pid' d' row', created pid d row ∈ c.trace → created pid' d' row' ∈ c.trace →
    (d.eventId, d.endpointId) = (d'.eventId, d'.endpointId) → pid = pid' ∧ row.id = row'.id
  /-- A pair that is dispatched has its row. -/
  announced : ∀ pid a, marked pid (.delivering a) ∈ c.trace → a.queue = .dispatch →
    ∃ x ∈ c.state.db.webhookDeliveries, x.id = a.deliveryId ∧ x.pair = (a.eventId, a.endpointId)
  /-- A row that a pass has just created is not dispatched yet. -/
  unannounced : ∀ pid q d row h', own pid c.trace = created q d row :: h' →
    dispatchCalls d.eventId d.endpointId c.trace = 0
  once : ∀ eventId endpointId, dispatchCalls eventId endpointId c.trace ≤ 1
  /-- A row joins an event and an endpoint of one organization. -/
  orgs : ∀ x ∈ c.state.db.webhookDeliveries,
    ∃ e ∈ c.state.db.webhookEvents, e.id = x.eventId ∧ ∃ p ∈ c.state.db.webhookEndpoints,
      p.id = x.endpointId ∧ p.organizationId = e.organizationId

variable {c : Log} {ev : Event calls} {w : World}

theorem Pairs.initial (hw : Undelivered w) : Pairs ⟨w, []⟩ where
  listed _ _ _ hb := absurd hb List.not_mem_nil
  stored _ _ _ hc := absurd hc List.not_mem_nil
  sole _ _ _ _ _ _ hc := absurd hc List.not_mem_nil
  announced _ _ ha := absurd ha List.not_mem_nil
  unannounced _ _ _ _ _ hown := absurd hown.symm (List.cons_ne_nil _ _)
  once _ _ := Nat.zero_le 1
  orgs x hx := absurd hx (hw x)

/-- The part of `Pairs` that only grows with the tables. -/
theorem Pairs.evolve (h : Pairs c) (hw : Evolves c.state w) :
    (∀ pid take batch, batchRead pid take batch ∈ c.trace → ∀ e ∈ batch,
      (∃ e' ∈ w.db.webhookEvents, e'.id = e.id ∧ e'.organizationId = e.organizationId) ∧
        ∀ p ∈ e.webhookEndpoints, ∃ p' ∈ w.db.webhookEndpoints,
          p'.id = p.id ∧ p'.organizationId = e.organizationId) ∧
    (∀ pid d row, created pid d row ∈ c.trace →
      ∃ x ∈ w.db.webhookDeliveries, x.id = row.id ∧ x.pair = (d.eventId, d.endpointId)) ∧
    (∀ pid a, marked pid (.delivering a) ∈ c.trace → a.queue = .dispatch →
      ∃ x ∈ w.db.webhookDeliveries, x.id = a.deliveryId ∧ x.pair = (a.eventId, a.endpointId)) ∧
    ∀ x ∈ c.state.db.webhookDeliveries,
      ∃ e ∈ w.db.webhookEvents, e.id = x.eventId ∧ ∃ p ∈ w.db.webhookEndpoints,
        p.id = x.endpointId ∧ p.organizationId = e.organizationId := by
  have hrow : ∀ {id : String} {pair : String × String},
      (∃ x ∈ c.state.db.webhookDeliveries, x.id = id ∧ x.pair = pair) →
        ∃ x ∈ w.db.webhookDeliveries, x.id = id ∧ x.pair = pair := by
    rintro id pair ⟨x, hx, hid, hpair⟩
    obtain ⟨x', hx', hid', hpair'⟩ := hw.deliveries x hx
    exact ⟨x', hx', hid'.trans hid, hpair'.trans hpair⟩
  refine ⟨fun pid take batch hb e he => ?_, fun pid d row hc => hrow (h.stored pid d row hc),
    fun pid a ha hq => hrow (h.announced pid a ha hq), fun x hx => ?_⟩
  · obtain ⟨⟨e', he', hid, horg⟩, hps⟩ := h.listed pid take batch hb e he
    refine ⟨⟨e', hw.events e' he', hid, horg⟩, fun p hp => ?_⟩
    obtain ⟨p', hp', hpid, hporg⟩ := hps p hp
    obtain ⟨p'', hp'', hpid', hporg', -⟩ := hw.endpoints p' hp'
    exact ⟨p'', hp'', hpid'.trans hpid, hporg'.trans hporg⟩
  · obtain ⟨e, he, hid, p, hp, hpid, hporg⟩ := h.orgs x hx
    obtain ⟨p', hp', hpid', hporg', -⟩ := hw.endpoints p hp
    exact ⟨e, hw.events e he, hid, p', hp', hpid'.trans hpid, hporg'.trans hporg⟩

theorem Pairs.env (h : Pairs c) (hw : Untouched c.state w) : Pairs { c with state := w } := by
  obtain ⟨hlisted, hstored, hannounced, horgs⟩ := h.evolve hw.evolves
  exact ⟨hlisted, hstored, h.sole, hannounced, h.unannounced, h.once,
    fun x hx => horgs x ((hw.deliveries x).mp hx)⟩

/-- A dispatch call follows the create of its row. -/
theorem Justified.dispatch {h : Requests} {a : Attempt} (hj : Justified h a)
    (hq : a.queue = .dispatch) : a.attempt = 1 ∧ ∃ pid d row h', h = created pid d row :: h' ∧
      row.id = a.deliveryId ∧ d.eventId = a.eventId ∧ d.endpointId = a.endpointId := by
  unfold Justified at hj
  rw [hq] at hj
  exact hj

/-- A new dispatch call is the first one for its pair. -/
theorem Pairs.unannounced_of_justified (h : Pairs c) {pid : ℕ} {a : Attempt}
    (hj : Justified (own pid c.trace) a) (hq : a.queue = .dispatch) :
    dispatchCalls a.eventId a.endpointId c.trace = 0 := by
  obtain ⟨-, q, d, row, h', hown, -, he, hp⟩ := hj.dispatch hq
  rw [← he, ← hp]
  exact h.unannounced pid q d row h' hown

/-- A pair without a row has not been dispatched. -/
theorem Pairs.calls_eq_zero (h : Pairs c) {eventId endpointId : String}
    (hnone : ∀ x ∈ c.state.db.webhookDeliveries, x.pair ≠ (eventId, endpointId)) :
    dispatchCalls eventId endpointId c.trace = 0 := by
  rw [dispatchCalls, List.countP_eq_zero]
  intro ev hev hfirst
  obtain ⟨a, hop, hq, rfl, rfl⟩ := firstFor_eq_true.mp hfirst
  obtain ⟨pid, op, r⟩ := ev
  obtain rfl : op = .mark (.delivering a) := hop
  obtain ⟨x, hx, -, hpair⟩ := h.announced pid a hev hq
  exact hnone x hx hpair

/-- An event that is no dispatch call leaves the counters as they are. -/
theorem dispatchCalls_cons {eventId endpointId : String} (ev : Event calls) (tr : Requests)
    (h : firstFor eventId endpointId ev = false) :
    dispatchCalls eventId endpointId (ev :: tr) = dispatchCalls eventId endpointId tr := by
  rw [dispatchCalls, List.countP_cons_of_neg (by simp [h]), dispatchCalls]

/-! ## What a step does to each part -/

section Step

variable (h : Pairs c) (hstep : Step c ev w)

include h hstep

theorem Pairs.step_listed {pid take : ℕ} {batch : List EventWithEndpoints}
    (hb : batchRead pid take batch ∈ ev :: c.trace) : ∀ e ∈ batch,
      (∃ e' ∈ w.db.webhookEvents, e'.id = e.id ∧ e'.organizationId = e.organizationId) ∧
        ∀ p ∈ e.webhookEndpoints, ∃ p' ∈ w.db.webhookEndpoints,
          p'.id = p.id ∧ p'.organizationId = e.organizationId := by
  intro e he
  rcases List.mem_cons.mp hb with rfl | hb
  · cases hstep with
    | batch fresh =>
      obtain ⟨hevent, hps⟩ := mem_undelivered he
      refine ⟨⟨_, (mem_undeliveredEvents.mp hevent).1, rfl, rfl⟩, fun p hp => ?_⟩
      rw [hps, mem_enabledEndpoints] at hp
      exact ⟨p, hp.1, rfl, hp.2.2⟩
    | silent hs => exact hs.elim
  · exact (h.evolve hstep.evolves).1 pid take batch hb e he

theorem Pairs.step_once (eventId endpointId : String) :
    dispatchCalls eventId endpointId (ev :: c.trace) ≤ 1 := by
  by_cases hfirst : firstFor eventId endpointId ev = true
  · obtain ⟨a, hop, hq, rfl, rfl⟩ := firstFor_eq_true.mp hfirst
    have hzero : dispatchCalls a.eventId a.endpointId c.trace = 0 := by
      cases hstep with
      | @delivering pid a' idle justified =>
        cases hop
        exact h.unannounced_of_justified justified hq
      | @silent ev hs =>
        obtain ⟨pid, op, r⟩ := ev
        obtain rfl : op = .mark (.delivering a) := hop
        exact hs.elim
      | _ => cases hop
    rw [dispatchCalls, List.countP_cons_of_pos hfirst]
    exact Nat.succ_le_succ (Nat.le_of_eq hzero)
  · rw [dispatchCalls_cons ev _ (Bool.not_eq_true _ ▸ hfirst)]
    exact h.once eventId endpointId

theorem Pairs.step_stored {pid : ℕ} {d : DeliveryCreateInput} {row : WebhookDelivery}
    (hc : created pid d row ∈ ev :: c.trace) :
    ∃ x ∈ w.db.webhookDeliveries, x.id = row.id ∧ x.pair = (d.eventId, d.endpointId) := by
  rcases List.mem_cons.mp hc with rfl | hc
  · cases hstep with
    | created idle listed pending effect =>
      exact ⟨_, (effect.deliveries _).mpr (.inl rfl), rfl, rfl⟩
    | silent hs => exact hs.elim
  · exact (h.evolve hstep.evolves).2.1 pid d row hc

/-- A create that succeeds is the first one of its pair. -/
theorem Pairs.step_newPair {q q' : ℕ} {d d' : DeliveryCreateInput} {row row' : WebhookDelivery}
    (hev : ev = created q d row) (hold : created q' d' row' ∈ c.trace) :
    (d.eventId, d.endpointId) ≠ (d'.eventId, d'.endpointId) := by
  rintro heq
  subst hev
  obtain ⟨x, hx, -, hxp⟩ := h.stored q' d' row' hold
  cases hstep with
  | created idle listed pending effect => exact effect.newPair x hx (hxp.trans heq.symm)
  | silent hs => exact hs.elim

theorem Pairs.step_sole {pid pid' : ℕ} {d d' : DeliveryCreateInput} {row row' : WebhookDelivery}
    (hc : created pid d row ∈ ev :: c.trace) (hc' : created pid' d' row' ∈ ev :: c.trace)
    (hpair : (d.eventId, d.endpointId) = (d'.eventId, d'.endpointId)) :
    pid = pid' ∧ row.id = row'.id := by
  rcases List.mem_cons.mp hc with he | hc <;> rcases List.mem_cons.mp hc' with he' | hc'
  · cases he.trans he'.symm
    exact ⟨rfl, rfl⟩
  · exact absurd hpair (h.step_newPair hstep he.symm hc')
  · exact absurd hpair.symm (h.step_newPair hstep he'.symm hc)
  · exact h.sole pid d row pid' d' row' hc hc' hpair

theorem Pairs.step_announced {pid : ℕ} {a : Attempt}
    (ha : marked pid (.delivering a) ∈ ev :: c.trace) (hq : a.queue = .dispatch) :
    ∃ x ∈ w.db.webhookDeliveries, x.id = a.deliveryId ∧ x.pair = (a.eventId, a.endpointId) := by
  rcases List.mem_cons.mp ha with rfl | ha
  · cases hstep with
    | delivering idle justified =>
      obtain ⟨-, q, d, row, h', hown, hid, he, hp⟩ := justified.dispatch hq
      have hmem : created q d row ∈ c.trace :=
        (mem_own.mp (hown ▸ List.mem_cons_self : created q d row ∈ own pid c.trace)).1
      obtain ⟨x, hx, hxid, hxp⟩ := h.stored q d row hmem
      exact ⟨x, hx, hxid.trans hid, by rw [hxp, he, hp]⟩
    | silent hs => exact hs.elim
  · exact (h.evolve hstep.evolves).2.2.1 pid a ha hq

theorem Pairs.step_unannounced {pid q : ℕ} {d : DeliveryCreateInput} {row : WebhookDelivery}
    {h' : Requests} (hown : own pid (ev :: c.trace) = created q d row :: h') :
    dispatchCalls d.eventId d.endpointId (ev :: c.trace) = 0 := by
  by_cases hpid : ev.pid = pid
  · subst hpid
    rw [own_cons_self] at hown
    obtain ⟨rfl, -⟩ := List.cons.inj hown
    rw [dispatchCalls_cons _ _ rfl]
    cases hstep with
    | created idle listed pending effect => exact h.calls_eq_zero effect.newPair
    | silent hs => exact hs.elim
  · rw [own_cons_of_ne hpid] at hown
    have hmem : created q d row ∈ own pid c.trace := hown ▸ List.mem_cons_self
    obtain ⟨hmem, hq⟩ := mem_own.mp hmem
    have hq : q = pid := hq
    rw [dispatchCalls_cons _ _ (Bool.eq_false_iff.mpr fun hfirst => ?_)]
    · exact h.unannounced pid q d row h' hown
    · -- another pass would have created the same pair
      obtain ⟨a, hop, hdisp, he, hp⟩ := firstFor_eq_true.mp hfirst
      cases hstep with
      | @delivering pid' a' idle justified =>
        cases hop
        obtain ⟨-, q', d', row', h'', hown', -, he', hp'⟩ := justified.dispatch hdisp
        have hmem' : created q' d' row' ∈ own pid' c.trace := hown' ▸ List.mem_cons_self
        obtain ⟨hmem', hq'⟩ := mem_own.mp hmem'
        have hq' : q' = pid' := hq'
        have hsole := (h.sole _ _ _ _ _ _ hmem hmem' (by rw [he', hp', he, hp])).1
        exact hpid (hq'.symm.trans (hsole.symm.trans hq))
      | @silent ev hs =>
        obtain ⟨pid', op, r⟩ := ev
        obtain rfl : op = .mark (.delivering a) := hop
        exact hs.elim
      | _ => cases hop

theorem Pairs.step_orgs {x : WebhookDelivery} (hx : x ∈ w.db.webhookDeliveries) :
    ∃ e ∈ w.db.webhookEvents, e.id = x.eventId ∧ ∃ p ∈ w.db.webhookEndpoints,
      p.id = x.endpointId ∧ p.organizationId = e.organizationId := by
  have horgs := (h.evolve hstep.evolves).2.2.2
  rcases hstep.row_cases hx with hx | ⟨d, rfl, -, hl, -⟩ | ⟨x₀, hx₀, a, u, rfl, -⟩
  · exact horgs x hx
  · obtain ⟨q, take, batch, hb, e, he, hid, p, hp, hpid⟩ := hl
    obtain ⟨⟨e', he', hid', horg⟩, hps⟩ :=
      h.step_listed hstep (List.mem_cons_of_mem ev (mem_own.mp hb).1) e he
    obtain ⟨p', hp', hpid', hporg⟩ := hps p hp
    exact ⟨e', he', hid'.trans hid, p', hp', hpid'.trans hpid, hporg.trans horg.symm⟩
  · exact horgs x₀ hx₀

theorem Pairs.step : Pairs ⟨w, ev :: c.trace⟩ where
  listed _ _ _ hb := h.step_listed hstep hb
  stored _ _ _ hc := h.step_stored hstep hc
  sole _ _ _ _ _ _ hc hc' hpair := h.step_sole hstep hc hc' hpair
  announced _ _ ha hq := h.step_announced hstep ha hq
  unannounced _ _ _ _ _ hown := h.step_unannounced hstep hown
  once := h.step_once hstep
  orgs _ hx := h.step_orgs hstep hx

end Step

/-- `Pairs` holds in every reachable system. -/
theorem pairs_inv {P : Platform} {key : String} {allowed : Condition calls World}
    {s : WebhookSystem} (hs : WebhookReachable P key allowed s) : Pairs s.config :=
  webhook_invariant (fun _ hw => .initial hw) (fun _ _ h hw => h.env hw)
    (fun _ _ _ h _ _ hstep => h.step hstep) hs

/-- However the passes overlap and wherever they are cut off, the dispatch queue delivers at most
    once for an event and an endpoint, which have at most one row and one organization. -/
theorem dispatch_once (P : Platform) (key : String) {s : WebhookSystem}
    (hs : WebhookReachable P key anything s) :
    (∀ eventId endpointId, dispatchCalls eventId endpointId s.config.trace ≤ 1) ∧
      (∀ x ∈ s.config.state.db.webhookDeliveries, ∀ y ∈ s.config.state.db.webhookDeliveries,
        x.eventId = y.eventId → x.endpointId = y.endpointId → x = y) ∧
      ∀ x ∈ s.config.state.db.webhookDeliveries,
        ∃ e ∈ s.config.state.db.webhookEvents, e.id = x.eventId ∧
          ∃ p ∈ s.config.state.db.webhookEndpoints, p.id = x.endpointId ∧
            p.organizationId = e.organizationId := by
  have h := pairs_inv hs
  exact ⟨h.once, fun x hx y hy he hp => DeliveryTable.eq_of_pair hx hy (Prod.ext he hp), h.orgs⟩

/-- Two passes read the same batch; the first one creates the row and delivers, the create of the
    second one is refused. -/
def overlappingDispatches : List WebhookMove :=
  [.start .dispatch, .start .dispatch, .perform 0 .ok, .perform 1 .ok, .perform 0 (.id "1"),
    .perform 1 (.id "2"), .perform 0 .ok, .perform 1 .ok] ++
  performs 0 [.ok, .ok, publicAddress, .ok, .ok, .response (.ok 200), .ok, .ok, .ok, .ok] ++
  performs 1 [.ok]

/-- The first deliveries of the pair, and the stored rows. -/
def overlapView (s : WebhookSystem) : ℕ × List (String × WebhookDeliveryStatus) :=
  (dispatchCalls "evt_1" "we_1" s.config.trace,
    s.config.state.db.webhookDeliveries.rows.map fun d => (d.id, d.status))

set_option maxRecDepth 8000 in
theorem dispatch_once_overlapping : ∃ s, WebhookReachable samplePlatform sampleKey anything s ∧
    overlapView s = (1, [("whd_1", .succeeded)]) ∧
      dispatchCalls "evt_1" "we_1" s.config.trace ≤ 1 := by
  obtain ⟨s, hs, hview⟩ := webhookRun_view samplePlatform sampleKey sampleWorld_undelivered
    overlappingDispatches (f := overlapView) (x := (1, [("whd_1", .succeeded)]))
    (by decide +kernel)
  exact ⟨s, hs, hview, (dispatch_once samplePlatform sampleKey hs).1 "evt_1" "we_1"⟩

end CryptoPay.Webhooks
