import CryptoPay.Webhooks.Lone

/-!
# One delivery and the rest of its batch

`deliverWebhook` answers a URL that is refused, a reply of any status and a
request that fails with a result. `decryptSecret` stands outside its `try`, and
neither queue guards the body of its loop, so a secret that does not decrypt
ends the whole pass.

Results:
* `isolated_iff_decrypts`: in every run, `deliverWebhook` returns, and a pass
  handles its whole batch, exactly if the secret of every delivery that comes
  past the URL check decrypts.
* `stale_secret_ends_pass`: one stale secret keeps the next endpoint from being
  tried.
-/

namespace CryptoPay.Webhooks

open Async

/-- The secret of every delivery that came past the URL check decrypts. -/
def Decrypts (P : Platform) (key : String) (evs : Requests) : Prop :=
  ∀ ev ∈ evs, ∀ id secretEnc, ev.op = .mark (.accepted id secretEnc) →
    ∃ secret, decryptSecret P secretEnc key = .ok secret

/-- A delivery of the row was attempted, and its result was stored. -/
def Handled (evs : Requests) (id : String) : Prop :=
  (∃ pid a, marked pid (.delivering a) ∈ evs ∧ a.deliveryId = id) ∧ Recorded evs id

/-- The row of the pair was created and handled, unless the database holds one already. -/
def Fanned (evs : Requests) (eventId endpointId : String) : Prop :=
  ∃ pid d r, (⟨pid, .db (.deliveryCreate d), r⟩ : Event calls) ∈ evs ∧ d.eventId = eventId ∧
    d.endpointId = endpointId ∧
    match r with
    | .ok row => Handled evs row.id
    | .error code => code = .uniqueConstraint

/-- A pass has read a batch and handled all of it. -/
def BatchHandled (pid : ℕ) (evs : Requests) : QueueName → Prop
  | .dispatch => ∃ batch, batchRead pid BATCH_SIZE batch ∈ evs ∧
    ∀ e ∈ batch, ∀ p ∈ e.webhookEndpoints, Fanned evs e.id p.id
  | .retry => ∃ lte due, dueRead pid lte BATCH_SIZE due ∈ evs ∧ ∀ d ∈ due, Handled evs d.id

/-- Where `ok` holds of the requests of a run, and only there, no delivery gets in the way of
    another one. -/
structure Isolated (P : Platform) (key : String) (ok : Requests → Prop) : Prop where
  /-- `deliverWebhook` returns. -/
  returns : ∀ pid deliveryId input w evs x w', input.encryptionKey = key →
    Runs machine pid (deliverWebhook P deliveryId input) w evs x w' →
      ((∃ result, x = .ok result) ↔ ok evs)
  /-- A pass handles its batch and returns. -/
  batches : ∀ pid queue w evs x w', Runs machine pid (launch P key queue) w evs x w' →
    DbAnswers evs → ((x = .ok () ∧ BatchHandled pid evs queue) ↔ ok evs)

variable {P : Platform} {key : String} {pid : ℕ} {w w' : World} {evs : Requests}

theorem decrypts_append {l₁ l₂ : Requests} :
    Decrypts P key (l₁ ++ l₂) ↔ Decrypts P key l₁ ∧ Decrypts P key l₂ := by
  simp only [Decrypts, List.forall_mem_append]

theorem decrypts_nil : Decrypts P key [] := fun _ hev => absurd hev List.not_mem_nil

theorem decrypts_cons {ev : Event calls} : Decrypts P key (ev :: evs) ↔
    (∀ id secretEnc, ev.op = .mark (.accepted id secretEnc) →
      ∃ secret, decryptSecret P secretEnc key = .ok secret) ∧ Decrypts P key evs := by
  simp only [Decrypts, List.forall_mem_cons]

/-- Requests that accept no delivery. -/
def Op.Unaccepting : Op → Prop
  | .mark (.accepted ..) => False
  | _ => True

theorem decrypts_of_unaccepting (h : ∀ ev ∈ evs, ev.op.Unaccepting) : Decrypts P key evs := by
  intro ev hev id secretEnc hop
  have hno := h ev hev
  rw [hop] at hno
  exact hno.elim

theorem decrypts_cons_of_unaccepting {ev : Event calls} (h : ev.op.Unaccepting) :
    Decrypts P key (ev :: evs) ↔ Decrypts P key evs := by
  rw [decrypts_cons, and_iff_right]
  intro id secretEnc hop
  rw [hop] at h
  exact h.elim

/-! ## One delivery -/

/-- From the URL check on, only the secret decides whether the delivery returns. -/
theorem sendWebhook_iff {deliveryId : String} {input : DeliverWebhookInput} {start : Time}
    {x : Except Thrown WebhookDeliveryResult}
    (h : Runs machine pid (sendWebhook P deliveryId input start) w evs x w') :
    ((∃ result, x = .ok result) ↔
        ∃ secret, decryptSecret P input.secretEnc input.encryptionKey = .ok secret) ∧
      ∀ ev ∈ evs, ev.op.Unaccepting := by
  cases hsecret : decryptSecret P input.secretEnc input.encryptionKey with
  | error e =>
    unfold sendWebhook at h
    rw [hsecret] at h
    obtain ⟨rfl, rfl, -⟩ := Runs.throw_inv h
    exact ⟨iff_of_false nofun nofun, fun ev hev => absurd hev List.not_mem_nil⟩
  | ok secret =>
    unfold sendWebhook at h
    rw [hsecret] at h
    obtain ⟨w₁, i₁, now, w₂, evs₁, -, -, rfl, h₁⟩ := Runs.perform_bind_inv h
    obtain ⟨w₃, i₂, response, w₄, evs₂, -, -, rfl, h₂⟩ := Runs.perform_bind_inv h₁
    obtain ⟨w₅, i₃, now', w₆, evs₃, -, -, rfl, h₃⟩ := Runs.perform_bind_inv h₂
    obtain ⟨rfl, rfl, -⟩ := Runs.ret_inv h₃
    refine ⟨iff_of_true ⟨_, rfl⟩ ⟨secret, rfl⟩, fun ev hev => ?_⟩
    simp only [List.mem_cons, List.not_mem_nil, or_false] at hev
    rcases hev with rfl | rfl | rfl <;> trivial

theorem Op.Looks.unaccepting {op : Op} (hop : op.Looks) : op.Unaccepting := by
  cases op with
  | lookup hostname => trivial
  | _ => exact hop.elim

theorem deliverWebhook_iff {deliveryId : String} {input : DeliverWebhookInput}
    {x : Except Thrown WebhookDeliveryResult}
    (h : Runs machine pid (deliverWebhook P deliveryId input) w evs x w') :
    (∃ result, x = .ok result) ↔ Decrypts P input.encryptionKey evs := by
  obtain ⟨w₁, i₁, start, w₂, evs₁, -, -, rfl, h₁⟩ := Runs.perform_bind_inv h
  rw [decrypts_cons_of_unaccepting (by trivial)]
  rcases Runs.bind_inv h₁ with ⟨checked, w₃, evs₂, evs₃, rfl, hcheck, h₂⟩ | ⟨e, rfl, hcheck⟩
  · obtain ⟨y, hy, hcheck⟩ := hcheck.attempt_inv
    cases hy
    have hlook := hcheck.only ((assertSafeWebhookUrl_only P input.url).imp fun _ => Op.Looks.unaccepting)
    rw [decrypts_append, and_iff_right (decrypts_of_unaccepting hlook)]
    cases checked with
    | error e =>
      obtain ⟨w₄, i₂, now, w₅, evs₄, -, -, rfl, h₃⟩ := Runs.perform_bind_inv h₂
      obtain ⟨rfl, rfl, -⟩ := Runs.ret_inv h₃
      exact iff_of_true ⟨_, rfl⟩ ((decrypts_cons_of_unaccepting (by trivial)).mpr decrypts_nil)
    | ok url =>
      obtain ⟨w₄, i₂, ⟨⟩, w₅, evs₄, -, -, rfl, h₃⟩ := Runs.perform_bind_inv h₂
      obtain ⟨hiff, hno⟩ := sendWebhook_iff h₃
      rw [hiff, decrypts_cons, and_iff_left (decrypts_of_unaccepting hno)]
      constructor
      · rintro hsecret id secretEnc hop
        cases hop
        exact hsecret
      · intro hall
        exact hall deliveryId input.secretEnc rfl
  · obtain ⟨y, hy, -⟩ := hcheck.attempt_inv
    cases hy

/-! ## One row -/

theorem retryAt_inv {delayMs : Option ℤ} {x : Except Thrown (Option Time)}
    (h : Runs machine pid (retryAt delayMs) w evs x w') :
    (∃ t, x = .ok t) ∧ ∀ ev ∈ evs, ev.op.Unaccepting := by
  cases delayMs with
  | none =>
    obtain ⟨rfl, rfl, -⟩ := Runs.ret_inv h
    exact ⟨⟨none, rfl⟩, fun ev hev => absurd hev List.not_mem_nil⟩
  | some delay =>
    obtain ⟨w₁, i, now, w₂, evs', -, -, rfl, h₁⟩ := Runs.perform_bind_inv h
    obtain ⟨rfl, rfl, -⟩ := Runs.ret_inv h₁
    refine ⟨⟨_, rfl⟩, fun ev hev => ?_⟩
    rw [List.mem_singleton.mp hev]
    trivial

theorem getRetryDelayMs_inv {failedAttempt : ℤ} {x : Except Thrown (Option ℤ)}
    (h : Runs machine pid (getRetryDelayMs failedAttempt) w evs x w') :
    (∃ t, x = .ok t) ∧ ∀ ev ∈ evs, ev.op.Unaccepting := by
  unfold getRetryDelayMs at h
  cases hb : retryBase failedAttempt with
  | none =>
    rw [hb] at h
    obtain ⟨rfl, rfl, -⟩ := Runs.ret_inv h
    exact ⟨⟨none, rfl⟩, fun ev hev => absurd hev List.not_mem_nil⟩
  | some base =>
    rw [hb] at h
    obtain ⟨w₁, i, r, w₂, evs', -, -, rfl, h₁⟩ := Runs.perform_bind_inv h
    obtain ⟨rfl, rfl, -⟩ := Runs.ret_inv h₁
    refine ⟨⟨_, rfl⟩, fun ev hev => ?_⟩
    rw [List.mem_singleton.mp hev]
    trivial

/-- The result of an attempt for a stored row is stored. -/
theorem recordResult_inv (P : Platform) (key : String) {deliveryId : String} {attempt : Option ℤ} {failedAttempt : ℤ} {lastStatus}
    {result : WebhookDeliveryResult} {x : Except Thrown Unit}
    (h : Runs machine pid (recordResult deliveryId attempt failedAttempt lastStatus result)
      w evs x w') (ha : DbAnswers evs) (hstored : ∃ y ∈ w.db.webhookDeliveries, y.id = deliveryId) :
    x = .ok () ∧ Recorded evs deliveryId ∧ Decrypts P key evs := by
  have hlast : ∀ {u : DeliveryUpdateInput} {w₁ : World} {evs' : Requests}, Evolves w w₁ →
      DbAnswers evs' → Runs machine pid
        (prisma (.deliveryUpdate deliveryId u) >>= fun _ => (pure () : Action Unit)) w₁ evs' x w' →
      x = .ok () ∧ Recorded evs' deliveryId ∧ Decrypts P key evs' := by
    intro u w₁ evs' hev ha' h'
    obtain ⟨y, hy, hid⟩ := hstored
    obtain ⟨y₁, hy₁, hid₁, -⟩ := hev.deliveries y hy
    have hstored₁ := (⟨y₁, hy₁, hid₁.trans hid⟩ : ∃ y ∈ w₁.db.webhookDeliveries, y.id = deliveryId)
    rcases Runs.bind_inv h' with ⟨row, w₂, e₁, e₂, rfl, hupdate, hret⟩ | ⟨e, rfl, hupdate⟩
    · obtain ⟨rfl, rfl, -⟩ := Runs.ret_inv hret
      rw [List.append_nil] at ha' ⊢
      obtain ⟨row', rfl, -⟩ := lone_update hupdate ha' hstored₁
      exact ⟨rfl, ⟨pid, u, row', List.mem_cons_self⟩,
        (decrypts_cons_of_unaccepting (by trivial)).mpr decrypts_nil⟩
    · obtain ⟨row', -, hx⟩ := lone_update hupdate ha' hstored₁
      cases hx
  unfold recordResult at h
  split_ifs at h with hs
  · obtain ⟨w₁, i, now, w₂, evs₁, hd, hr, rfl, h₁⟩ := Runs.perform_bind_inv h
    obtain ⟨hx, ⟨q, u, row, hmem⟩, hdec⟩ := hlast
      ((drifts_untouched hd).evolves.trans (respond_evolves hr)) ha.tail h₁
    exact ⟨hx, ⟨q, u, row, List.mem_cons_of_mem _ hmem⟩,
      (decrypts_cons_of_unaccepting (by trivial)).mpr hdec⟩
  · rcases Runs.bind_inv h with ⟨delayMs, w₁, e₁, e₂, rfl, hdelay, h₁⟩ | ⟨e, rfl, hdelay⟩
    · rcases Runs.bind_inv h₁ with ⟨t, w₂, e₃, e₄, rfl, hat, h₂⟩ | ⟨e, rfl, hat⟩
      · obtain ⟨hx, ⟨q, u, row, hmem⟩, hdec⟩ :=
          hlast ((lone_evolves hdelay).trans (lone_evolves hat)) (ha.append.2.append.2) h₂
        refine ⟨hx, ⟨q, u, row, List.mem_append_right _ (List.mem_append_right _ hmem)⟩, ?_⟩
        rw [decrypts_append, decrypts_append]
        exact ⟨decrypts_of_unaccepting (getRetryDelayMs_inv hdelay).2,
          decrypts_of_unaccepting (retryAt_inv hat).2, hdec⟩
      · obtain ⟨⟨t, ht⟩, -⟩ := retryAt_inv hat
        cases ht
    · obtain ⟨⟨t, ht⟩, -⟩ := getRetryDelayMs_inv hdelay
      cases ht

/-- An attempt for a stored row, as both queues make it. -/
theorem attempt_inv {a : Attempt} {input : DeliverWebhookInput} {attempt : Option ℤ}
    {failedAttempt : ℤ} {lastStatus} {x : Except Thrown Unit}
    (h : Runs machine pid (do
      mark (.delivering a)
      let result ← deliverWebhook P a.deliveryId input
      recordResult a.deliveryId attempt failedAttempt lastStatus result) w evs x w')
    (ha : DbAnswers evs) (hstored : ∃ y ∈ w.db.webhookDeliveries, y.id = a.deliveryId) :
    (x = .ok () ↔ Decrypts P input.encryptionKey evs) ∧ (x = .ok () → Handled evs a.deliveryId) := by
  obtain ⟨w₁, i, ⟨⟩, w₂, evs₁, hd, hr, rfl, h₁⟩ := Runs.perform_bind_inv h
  have hev := (drifts_untouched hd).evolves.trans (respond_evolves hr)
  have ha₁ := ha.tail
  rw [decrypts_cons_of_unaccepting (by trivial)]
  rcases Runs.bind_inv h₁ with ⟨result, w₃, e₁, e₂, rfl, hdeliver, hrecord⟩ | ⟨e, rfl, hdeliver⟩
  · have hdec := (deliverWebhook_iff hdeliver).mp ⟨result, rfl⟩
    obtain ⟨y, hy, hid⟩ := hstored
    obtain ⟨y₁, hy₁, hid₁, -⟩ := (hev.trans (lone_evolves hdeliver)).deliveries y hy
    obtain ⟨rfl, ⟨q, u, row, hmem⟩, hdec'⟩ :=
      recordResult_inv P input.encryptionKey hrecord ha₁.append.2 ⟨y₁, hy₁, hid₁.trans hid⟩
    refine ⟨iff_of_true rfl (decrypts_append.mpr ⟨hdec, hdec'⟩), fun _ => ⟨?_, ?_⟩⟩
    · exact ⟨pid, a, List.mem_cons_self, rfl⟩
    · exact ⟨q, u, row, List.mem_cons_of_mem _ (List.mem_append_right _ hmem)⟩
  · have hiff := deliverWebhook_iff hdeliver
    exact ⟨iff_of_false nofun fun hdec => absurd (hiff.mpr hdec) nofun, nofun⟩

/-! ## The queues -/

theorem Handled.mono {evs evs' : Requests} (hs : ∀ ev ∈ evs, ev ∈ evs') {id : String}
    (h : Handled evs id) : Handled evs' id := by
  obtain ⟨⟨q, a, ha, hid⟩, q', u, row, hu⟩ := h
  exact ⟨⟨q, a, hs _ ha, hid⟩, q', u, row, hs _ hu⟩

theorem Fanned.mono {evs evs' : Requests} (hs : ∀ ev ∈ evs, ev ∈ evs') {e p : String}
    (h : Fanned evs e p) : Fanned evs' e p := by
  obtain ⟨q, d, r, hmem, he, hp, hr⟩ := h
  refine ⟨q, d, r, hs _ hmem, he, hp, ?_⟩
  cases r with
  | ok row => exact Handled.mono hs hr
  | error code => exact hr

/-- One endpoint of one event. -/
theorem deliverTo_inv {event : WebhookEvent} {endpoint : WebhookEndpoint}
    {x : Except Thrown Unit} (h : Runs machine pid (deliverTo P key event endpoint) w evs x w')
    (ha : DbAnswers evs) (he : ∃ e ∈ w.db.webhookEvents, e.id = event.id)
    (hp : ∃ p ∈ w.db.webhookEndpoints, p.id = endpoint.id) :
    (x = .ok () ↔ Decrypts P key evs) ∧ (x = .ok () → Fanned evs event.id endpoint.id) := by
  obtain ⟨w₁, i, id, w₂, evs₁, hd, hr, rfl, h₁⟩ := Runs.perform_bind_inv h
  have hev := (drifts_untouched hd).evolves.trans (respond_evolves hr)
  have ha₁ := ha.tail
  rw [decrypts_cons_of_unaccepting (by trivial)]
  rcases Runs.bind_inv h₁ with ⟨delivery, w₃, e₁, e₂, rfl, hcreate, h₂⟩ | ⟨e, rfl, hcreate⟩
  · obtain ⟨y, hy, hcreate⟩ := hcreate.attempt_inv
    cases hy
    obtain ⟨e, he, hid⟩ := he
    obtain ⟨p, hp, hpid⟩ := hp
    obtain ⟨p', hp', hpid', -⟩ := hev.endpoints p hp
    rcases lone_create hcreate ha₁.append.1 ⟨e, hev.events e he, hid⟩
      ⟨p', hp', hpid'.trans hpid⟩ with ⟨row, rfl, rfl, hstored, -, -⟩ | ⟨rfl, rfl, -⟩
    · obtain ⟨hiff, hhandled⟩ := attempt_inv h₂ ha₁.append.2 ⟨row, hstored, rfl⟩
      rw [decrypts_append, and_iff_right ((decrypts_cons_of_unaccepting (by trivial)).mpr
        decrypts_nil)]
      refine ⟨hiff, fun hx => ⟨pid, ⟨id, event.id, endpoint.id, .pending⟩, .ok row, ?_, rfl, rfl, ?_⟩⟩
      · exact List.mem_cons_of_mem _ List.mem_cons_self
      · exact (hhandled hx).mono fun ev hmem =>
          List.mem_cons_of_mem _ (List.mem_append_right _ hmem)
    · obtain ⟨rfl, rfl, -⟩ := Runs.ret_inv h₂
      refine ⟨iff_of_true rfl ((decrypts_cons_of_unaccepting (by trivial)).mpr decrypts_nil),
        fun _ => ⟨pid, ⟨id, event.id, endpoint.id, .pending⟩, .error _, ?_, rfl, rfl, rfl⟩⟩
      exact List.mem_cons_of_mem _ List.mem_cons_self
  · obtain ⟨y, hy, -⟩ := hcreate.attempt_inv
    cases hy

/-- All endpoints of one event. -/
theorem fanOut_inv {event : EventWithEndpoints} {x : Except Thrown Unit}
    (h : Runs machine pid (fanOut P key event) w evs x w') (ha : DbAnswers evs)
    (he : ∃ e ∈ w.db.webhookEvents, e.id = event.id)
    (hp : ∀ q ∈ event.webhookEndpoints, ∃ p ∈ w.db.webhookEndpoints, p.id = q.id) :
    (x = .ok () ↔ Decrypts P key evs) ∧
      (x = .ok () → ∀ q ∈ event.webhookEndpoints, Fanned evs event.id q.id) := by
  have hloop : ∀ {evs' x' w₁}, DbAnswers evs' →
      Runs machine pid (.forEach (deliverTo P key event.toWebhookEvent) event.webhookEndpoints)
        w evs' x' w₁ → (x' = .ok () ↔ Decrypts P key evs') ∧
          (x' = .ok () → ∀ q ∈ event.webhookEndpoints,
            ∃ e, e <:+: evs' ∧ Fanned e event.id q.id) := by
    intro evs' x' w₁ ha' h'
    refine h'.forEach_iff (I := Evolves w) (fun _ _ => DbAnswers.append)
      (fun _ _ => decrypts_append) decrypts_nil (fun q hq s e y s' hev ha hrun => ?_)
      (.refl w) ha'
    obtain ⟨e₀, he₀, hid⟩ := he
    obtain ⟨p, hp, hpid⟩ := hp q hq
    obtain ⟨p', hp', hpid', -⟩ := hev.endpoints p hp
    exact ⟨hev.trans (lone_evolves hrun),
      deliverTo_inv hrun ha ⟨e₀, hev.events e₀ he₀, hid⟩ ⟨p', hp', hpid'.trans hpid⟩⟩
  rcases Runs.bind_inv h with ⟨⟨⟩, w₁, e₁, e₂, rfl, hrun, hmark⟩ | ⟨e, rfl, hrun⟩
  · obtain ⟨hiff, hdone⟩ := hloop ha.append.1 hrun
    obtain ⟨w₂, i, r, w₃, -, -, rfl, rfl, -⟩ := hmark.perform_inv
    rw [decrypts_append, and_iff_left ((decrypts_cons_of_unaccepting (by trivial)).mpr decrypts_nil)]
    refine ⟨hiff, fun _ q hq => ?_⟩
    obtain ⟨e, hpart, hfanned⟩ := hdone rfl q hq
    exact hfanned.mono fun ev hmem => List.mem_append_left _ (hpart.subset hmem)
  · obtain ⟨hiff, -⟩ := hloop ha hrun
    exact ⟨hiff, nofun⟩

theorem runWebhookDispatch_iff {x : Except Thrown Unit}
    (h : Runs machine pid (runWebhookDispatch P key) w evs x w') (ha : DbAnswers evs) :
    (x = .ok () ∧ BatchHandled pid evs .dispatch) ↔ Decrypts P key evs := by
  rcases Runs.bind_inv h with ⟨batch, w₁, e₁, e₂, rfl, hread, hloop⟩ | ⟨e, rfl, hread⟩
  · obtain ⟨w₀, -, rfl, hbatch, hw⟩ := lone_batch hread ha.append.1
    cases hbatch
    obtain ⟨hiff, hdone⟩ := hloop.forEach_iff (I := Evolves w₁) (fun _ _ => DbAnswers.append)
      (fun _ _ => decrypts_append) decrypts_nil
      (R := fun event e => ∀ q ∈ event.webhookEndpoints, Fanned e event.id q.id)
      (fun event hevent s e y s' hev ha hrun => by
        obtain ⟨he, hps⟩ := mem_undelivered hevent
        have hmem := (mem_undeliveredEvents.mp he).1
        refine ⟨hev.trans (lone_evolves hrun), fanOut_inv hrun ha
          ⟨_, hev.events _ (hw.events _ hmem), rfl⟩ fun q hq => ?_⟩
        rw [hps] at hq
        obtain ⟨p, hp, hpid, -⟩ := hw.endpoints q (mem_enabledEndpoints.mp hq).1
        obtain ⟨p', hp', hpid', -⟩ := hev.endpoints p hp
        exact ⟨p', hp', hpid'.trans hpid⟩)
      (.refl w₁) ha.append.2
    rw [decrypts_append, and_iff_right ((decrypts_cons_of_unaccepting (by trivial)).mpr
      decrypts_nil), ← hiff]
    refine ⟨And.left, fun hx => ⟨hx, _, List.mem_append_left _ List.mem_cons_self, ?_⟩⟩
    intro e he p hp
    obtain ⟨e', hpart, hfanned⟩ := hdone hx e he
    exact (hfanned p hp).mono fun ev hmem => List.mem_append_right _ (hpart.subset hmem)
  · obtain ⟨w₀, -, -, hx, -⟩ := lone_batch hread ha
    cases hx

theorem runWebhookRetry_iff {x : Except Thrown Unit}
    (h : Runs machine pid (runWebhookRetry P key) w evs x w') (ha : DbAnswers evs) :
    (x = .ok () ∧ BatchHandled pid evs .retry) ↔ Decrypts P key evs := by
  obtain ⟨w₁, i, now, w₂, evs₁, -, -, rfl, h₁⟩ := Runs.perform_bind_inv h
  have ha₁ := ha.tail
  rw [decrypts_cons_of_unaccepting (by trivial)]
  rcases Runs.bind_inv h₁ with ⟨due, w₃, e₁, e₂, rfl, hread, hloop⟩ | ⟨e, rfl, hread⟩
  · obtain ⟨w₀, -, rfl, hdue, hw⟩ := lone_due hread ha₁.append.1
    cases hdue
    obtain ⟨hiff, hdone⟩ := hloop.forEach_iff (I := Evolves w₃) (fun _ _ => DbAnswers.append)
      (fun _ _ => decrypts_append) decrypts_nil (R := fun d e => Handled e d.id)
      (fun d hd s e y s' hev ha hrun => by
        obtain ⟨y, hy, hid, -⟩ := hev.deliveries _ ((hw.deliveries _).mpr (mem_due hd).1)
        exact ⟨hev.trans (lone_evolves hrun), attempt_inv hrun ha ⟨y, hy, hid⟩⟩)
      (.refl w₃) ha₁.append.2
    rw [decrypts_append, and_iff_right ((decrypts_cons_of_unaccepting (by trivial)).mpr
      decrypts_nil), ← hiff]
    refine ⟨And.left, fun hx => ⟨hx, now, w₀.db.due now BATCH_SIZE, ?_, fun d hd => ?_⟩⟩
    · exact List.mem_cons_of_mem _ (List.mem_append_left _ List.mem_cons_self)
    · obtain ⟨e', hpart, hhandled⟩ := hdone hx d hd
      exact hhandled.mono fun ev hmem =>
        List.mem_cons_of_mem _ (List.mem_append_right _ (hpart.subset hmem))
  · obtain ⟨w₀, -, -, hx, -⟩ := lone_due hread ha₁
    cases hx

/-- Deliveries do not get in each other's way exactly where the secrets of those that come past the
    URL check decrypt. -/
theorem isolated_iff_decrypts (P : Platform) (key : String) : Isolated P key (Decrypts P key) := by
  refine ⟨fun pid deliveryId input w evs x w' hkey h => ?_, fun pid queue w evs x w' h ha => ?_⟩
  · rw [deliverWebhook_iff h, hkey]
  · cases queue with
    | dispatch => exact runWebhookDispatch_iff h ha
    | retry => exact runWebhookRetry_iff h ha

/-- Two endpoints, the first of which has the given secret. -/
def endpointPair (secretEnc : String) : List WebhookEndpoint :=
  [sampleEndpoint "we_1" "org" secretEnc, sampleEndpoint "we_2" "org" goodSecret]

theorem nodup_endpointPair (secretEnc : String) :
    ((endpointPair secretEnc).map WebhookEndpoint.id).Nodup := by
  simp [endpointPair, sampleEndpoint]

/-- One event for both of them. -/
def twoEndpoints (secretEnc : String) : World where
  db := {
    webhookEvents := ⟨[sampleEvent "evt_1" "org" 0], List.nodup_singleton _⟩
    webhookEndpoints := ⟨endpointPair secretEnc, nodup_endpointPair secretEnc⟩
    webhookDeliveries := .empty }
  clock := 0

/-- The outcome of a run, the pairs with a row, and what `isolated_iff_decrypts` asks. -/
def outcomeView (y : Requests × Except Thrown Unit × World) :
    Bool × List (String × String) × Bool × Bool :=
  (y.2.1.isOk, y.2.2.db.webhookDeliveries.rows.map WebhookDelivery.pair,
    y.1.all fun
      | ⟨_, .db _, .error .connection⟩ => false
      | _ => true,
    y.1.all fun
      | ⟨_, .mark (.accepted _ secretEnc), _⟩ =>
        (decryptSecret samplePlatform secretEnc sampleKey).isOk
      | _ => true)

theorem dbAnswers_of_all {evs : Requests} (h : (evs.all fun
    | ⟨_, .db _, .error .connection⟩ => false
    | _ => true) = true) : DbAnswers evs :=
  fun _ _ hmem => absurd (List.all_eq_true.mp h _ hmem) Bool.false_ne_true

set_option maxRecDepth 8000 in
/-- The delivery to the first endpoint throws, and the second endpoint is not tried. -/
theorem stale_secret_ends_pass : ¬ ∀ P key, Isolated P key fun _ => True := by
  intro h
  obtain ⟨evs, x, w', hrun, hview⟩ := Runs.view machine 0
    (runWebhookDispatch samplePlatform sampleKey) (twoEndpoints staleSecret)
    [.ok, .id "1", .ok, .ok, .ok, publicAddress, .ok] (f := outcomeView)
    (y := (false, [("evt_1", "we_1")], true, false)) (by decide +kernel)
  obtain ⟨hx, hview⟩ := Prod.mk.inj hview
  have hok := ((h samplePlatform sampleKey).batches 0 .dispatch _ _ _ _ hrun
    (dbAnswers_of_all (congrArg (fun y => y.2.1) hview))).mpr trivial
  rw [hok.1] at hx
  cases hx

set_option maxRecDepth 8000 in
/-- The first server does not answer and the second one does; both deliveries are handled. -/
theorem isolated_two : ∃ evs x w',
    Runs machine 0 (runWebhookDispatch samplePlatform sampleKey) (twoEndpoints goodSecret)
      evs x w' ∧
      w'.db.webhookDeliveries.rows.map WebhookDelivery.pair =
        [("evt_1", "we_2"), ("evt_1", "we_1")] ∧
      x = .ok () ∧ BatchHandled 0 evs .dispatch := by
  obtain ⟨evs, x, w', hrun, hview⟩ := Runs.view machine 0
    (runWebhookDispatch samplePlatform sampleKey) (twoEndpoints goodSecret)
    [.ok, .id "1", .ok, .ok, .ok, publicAddress, .ok, .ok, .response (.error none), .ok,
      .random (1 / 2), .ok, .ok, .id "2", .ok, .ok, .ok, publicAddress, .ok, .ok,
      .response (.ok 200), .ok, .ok, .ok, .ok] (f := outcomeView)
    (y := (true, [("evt_1", "we_2"), ("evt_1", "we_1")], true, true)) (by decide +kernel)
  have hanswers := dbAnswers_of_all (congrArg (fun y => y.2.2.1) hview)
  refine ⟨evs, x, w', hrun, congrArg (fun y => y.2.1) hview, ?_⟩
  refine ((isolated_iff_decrypts samplePlatform sampleKey).batches 0 .dispatch _ _ _ _ hrun
    hanswers).mpr ?_
  rintro ⟨q, op, r⟩ hev id secretEnc rfl
  have hall := List.all_eq_true.mp (congrArg (fun y => y.2.2.2) hview) _ hev
  change (decryptSecret samplePlatform secretEnc sampleKey).isOk = true at hall
  cases hsecret : decryptSecret samplePlatform secretEnc sampleKey with
  | ok secret => exact ⟨secret, rfl⟩
  | error e =>
    rw [hsecret] at hall
    cases hall

end CryptoPay.Webhooks
