import CryptoPay.Webhooks.Pairs

/-!
# Fan-outs that are not cut off

A dispatch pass creates a `PENDING` row, delivers, and stores the result; it
looks for events without any row, and retries look for `FAILED` rows. A pass
that is cut off between its first create for an event and the end of the loop
over the endpoints leaves rows, or endpoints, that no query selects any more.

Results:
* `keptWhole_of_noneCut`: where no fan-out is cut off, every row is final or
  due for a retry, and every endpoint of a begun fan-out has its row.
* `crash_leaves_pending`: a crash after the create leaves a `PENDING` row.
-/

namespace CryptoPay.Webhooks

open Async

/-- `SUCCEEDED`, `EXHAUSTED`, or `FAILED` with a `nextRetryAt`. -/
def WebhookDelivery.Settled (x : WebhookDelivery) : Prop :=
  x.status = .succeeded ∨ x.status = .exhausted ∨
    (x.status = .failed ∧ x.nextRetryAt.isSome = true)

/-- No webhook is lost. -/
structure KeptWhole (c : Log) : Prop where
  settled : ∀ x ∈ c.state.db.webhookDeliveries, x.Settled
  /-- If a pass has created a row for an event, every endpoint that was enabled when the pass
      read the event has one. -/
  fannedOut : ∀ pid take batch, batchRead pid take batch ∈ c.trace → ∀ e ∈ batch,
    (∃ d row, created pid d row ∈ c.trace ∧ d.eventId = e.id) →
      ∀ p ∈ e.webhookEndpoints, ∃ x ∈ c.state.db.webhookDeliveries, x.pair = (e.id, p.id)

/-- In every reachable system without a pass in flight that meets `ok`, no webhook is lost. -/
structure KeepsWebhooks (P : Platform) (key : String) (allowed : Condition calls World)
    (ok : Log → Prop) : Prop where
  kept : ∀ s, WebhookReachable P key allowed s → s.procs = [] → ok s.config → KeptWhole s.config

/-- The events of which a pass has created a row, and whose fan-out it has not ended. -/
def unfinished : Requests → List String
  | [] => []
  | ⟨_, .db (.deliveryCreate d), .ok _⟩ :: h => d.eventId :: unfinished h
  | ⟨_, .mark (.fannedOut eventId), _⟩ :: h => (unfinished h).filter fun e => e ≠ eventId
  | _ :: h => unfinished h

/-- Every pass that created a row for an event went on to the end of its fan-out. -/
def NoneCut (tr : Requests) : Prop := ∀ pid, unfinished (own pid tr) = []

/-- Every create was answered by the database. -/
def CreatesAnswered (tr : Requests) : Prop :=
  ∀ pid d, (⟨pid, .db (.deliveryCreate d), .error .connection⟩ : Event calls) ∉ tr

/-- A row is created under an id that is not in use. -/
def freshIds : Condition calls World := fun c _ op =>
  ∀ d, op = .db (.deliveryCreate d) → ∀ x ∈ c.state.db.webhookDeliveries, x.id ≠ d.id

/-- What ties rows to creates and results. -/
structure FanOuts (c : Log) : Prop where
  origin : ∀ x ∈ c.state.db.webhookDeliveries,
    (∃ pid d row, created pid d row ∈ c.trace ∧ row.id = x.id) ∨ ¬ CreatesAnswered c.trace
  stored : ∀ id, Recorded c.trace id → ∃ x ∈ c.state.db.webhookDeliveries, x.id = id
  settled : ∀ x ∈ c.state.db.webhookDeliveries, Recorded c.trace x.id → x.Settled
  tried : ∀ ev ∈ c.trace, ∀ d, ev.op = .db (.deliveryCreate d) →
    (∃ x ∈ c.state.db.webhookDeliveries, x.pair = (d.eventId, d.endpointId)) ∨
      ¬ CreatesAnswered c.trace
  batches : ∀ pid take batch, batchRead pid take batch ∈ c.trace → (batch.map (·.id)).Nodup

variable {c : Log} {ev : Event calls} {w : World}

theorem FanOuts.initial (hw : Undelivered w) : FanOuts ⟨w, []⟩ where
  origin x hx := absurd hx (hw x)
  stored _ hrec := absurd hrec fun ⟨_, _, _, hmem⟩ => List.not_mem_nil hmem
  settled x hx := absurd hx (hw x)
  tried _ hev := absurd hev List.not_mem_nil
  batches _ _ _ hb := absurd hb List.not_mem_nil

theorem FanOuts.env (h : FanOuts c) (hw : Untouched c.state w) :
    FanOuts { c with state := w } where
  origin x hx := h.origin x ((hw.deliveries x).mp hx)
  stored id hrec := by
    obtain ⟨x, hx, hid⟩ := h.stored id hrec
    exact ⟨x, (hw.deliveries x).mpr hx, hid⟩
  settled x hx := h.settled x ((hw.deliveries x).mp hx)
  tried ev hev d hop := by
    refine (h.tried ev hev d hop).imp_left ?_
    rintro ⟨x, hx, hpair⟩
    exact ⟨x, (hw.deliveries x).mpr hx, hpair⟩
  batches := h.batches

theorem CreatesAnswered.tail {tr : Requests} (h : ¬ CreatesAnswered tr) :
    ¬ CreatesAnswered (ev :: tr) :=
  fun hall => h fun pid d hmem => hall pid d (List.mem_cons_of_mem ev hmem)

theorem not_createsAnswered {tr : Requests} {pid : ℕ} {d : DeliveryCreateInput}
    (h : (⟨pid, .db (.deliveryCreate d), .error .connection⟩ : Event calls) ∈ tr) :
    ¬ CreatesAnswered tr := fun hall => hall pid d h

/-- A stored result settles the row. -/
theorem Outcome.settled {h : Requests} {a : Attempt} {u : DeliveryUpdateInput}
    (hu : Outcome h a u) (x : WebhookDelivery) : (x.update u).Settled := by
  rcases hu.status with ⟨hs, -⟩ | ⟨hs, base, pid, now, r, h', -, -, hn⟩ | ⟨hs, -, -⟩
  · exact .inl hs
  · refine .inr (.inr ⟨hs, ?_⟩)
    show (u.nextRetryAt.getD x.nextRetryAt).isSome = true
    rw [hn]
    rfl
  · exact .inr (.inl hs)

theorem FanOuts.step (h : FanOuts c) (hp : Pairs c) (ha : freshIds c ev.pid ev.op)
    (hstep : Step c ev w) : FanOuts ⟨w, ev :: c.trace⟩ := by
  refine ⟨fun x hx => ?_, fun id hrec => ?_, fun x hx hrec => ?_, fun ev' hev' d hop => ?_,
    fun pid take batch hb => ?_⟩
  · -- origin
    have hold : ∀ x₀ ∈ c.state.db.webhookDeliveries, x₀.id = x.id →
        (∃ pid d row, created pid d row ∈ ev :: c.trace ∧ row.id = x.id) ∨
          ¬ CreatesAnswered (ev :: c.trace) := by
      intro x₀ hx₀ hid
      rcases h.origin x₀ hx₀ with ⟨pid, d, row, hmem, hrow⟩ | hlost
      · exact .inl ⟨pid, d, row, List.mem_cons_of_mem ev hmem, hrow.trans hid⟩
      · exact .inr (CreatesAnswered.tail hlost)
    rcases hstep.row_cases hx with hx | ⟨d, -, -, -, -, hev | hev⟩ | ⟨x₀, hx₀, a, u, rfl, -⟩
    · exact hold x hx rfl
    · exact .inl ⟨ev.pid, d, x, hev ▸ List.mem_cons_self, rfl⟩
    · exact .inr (not_createsAnswered (List.mem_cons.mpr (.inl hev.symm)))
    · exact hold x₀ hx₀ rfl
  · -- stored
    obtain ⟨x, hx, hid⟩ : ∃ x ∈ c.state.db.webhookDeliveries, x.id = id := by
      rcases hstep.recorded_cases hrec with hrec | ⟨a, u, -, -, heffect⟩
      · exact h.stored id hrec
      · exact heffect.found
    obtain ⟨x', hx', hid', -⟩ := hstep.evolves.deliveries x hx
    exact ⟨x', hx', hid'.trans hid⟩
  · -- settled
    rcases hstep.row_cases hx with hx₀ | ⟨d, rfl, -, -, hfresh, hev⟩ | ⟨x₀, hx₀, a, u, rfl, -, -, hu⟩
    · rcases hstep.recorded_cases hrec with hrec | ⟨a, u, -, hu, heffect⟩
      · exact h.settled x hx₀ hrec
      · -- the stored row is the updated one
        have hx' : x.update u ∈ w.db.webhookDeliveries :=
          (heffect.deliveries _).mpr ⟨x, hx₀, (if_pos rfl).symm⟩
        rw [DeliveryTable.eq_of_id hx hx' rfl]
        exact hu.settled x
    · -- nothing was recorded under a fresh id
      obtain ⟨y, hy, hid⟩ : ∃ y ∈ c.state.db.webhookDeliveries, y.id = d.id := by
        rcases hstep.recorded_cases hrec with hrec | ⟨a, u, -, -, heffect⟩
        · exact h.stored d.id hrec
        · exact heffect.found
      exact absurd hid (hfresh y hy)
    · exact hu.settled x₀
  · -- tried
    rcases List.mem_cons.mp hev' with rfl | hev'
    · obtain ⟨pid, op, r⟩ := ev'
      obtain rfl : op = .db (.deliveryCreate d) := hop
      cases hstep with
      | created idle listed pending effect =>
        exact .inl ⟨_, (effect.deliveries _).mpr (.inl rfl), rfl⟩
      | createLost idle listed pending effect =>
        exact .inr (not_createsAnswered List.mem_cons_self)
      | notCreated idle listed cause =>
        obtain ⟨q, take, batch, hb, e, he, hid, p, hpe, hpid⟩ := listed
        obtain ⟨⟨e', he', hid', -⟩, hps⟩ := hp.listed q take batch (mem_own.mp hb).1 e he
        obtain ⟨p', hp', hpid', -⟩ := hps p hpe
        rcases cause with rfl | hpair | ⟨x, hx, hxid⟩ | hevent | hendpoint
        · exact .inr (not_createsAnswered List.mem_cons_self)
        · exact .inl hpair
        · exact absurd hxid (ha d rfl x hx)
        · exact absurd (hid'.trans hid) (hevent e' he')
        · exact absurd (hpid'.trans hpid) (hendpoint p' hp')
      | silent hs => cases r <;> exact hs.elim
    · rcases h.tried ev' hev' d hop with ⟨x, hx, hpair⟩ | hlost
      · obtain ⟨x', hx', -, hpair'⟩ := hstep.evolves.deliveries x hx
        exact .inl ⟨x', hx', hpair'.trans hpair⟩
      · exact .inr (CreatesAnswered.tail hlost)
  · -- batches
    rcases List.mem_cons.mp hb with rfl | hb
    · cases hstep with
      | batch fresh => exact nodup_undelivered _ _
      | silent hs => exact hs.elim
    · exact h.batches pid take batch hb

theorem fanOuts_inv {P : Platform} {key : String} {s : WebhookSystem}
    (hs : WebhookReachable P key freshIds s) : Pairs s.config ∧ FanOuts s.config := by
  refine webhook_invariant (I := fun c => Pairs c ∧ FanOuts c) (fun w hw => ⟨.initial hw, .initial hw⟩)
    (fun c w h hw => ⟨h.1.env hw, h.2.env hw⟩) (fun c ev w h ha _ hstep => ?_) hs
  exact ⟨h.1.step hstep, h.2.step h.1 ha hstep⟩

/-! ## The end of a fan-out -/

/-- A row that was created belongs to an unfinished fan-out, or the fan-out ended after it. -/
theorem finished_of_created {pid : ℕ} {d : DeliveryCreateInput} {row : WebhookDelivery}
    {h h₀ : Requests} (hs : (created pid d row :: h) <:+ h₀) :
    d.eventId ∈ unfinished h₀ ∨ ∃ ev h', (ev :: h') <:+ h₀ ∧ ev.op = .mark (.fannedOut d.eventId) ∧
      (created pid d row :: h) <:+ h' := by
  induction h₀ with
  | nil => cases List.suffix_nil.mp hs
  | cons ev h₀ ih =>
    rcases List.suffix_cons_iff.mp hs with heq | hs₀
    · obtain ⟨rfl, rfl⟩ := List.cons.inj heq
      exact .inl List.mem_cons_self
    · rcases ih hs₀ with hmem | ⟨ev', h', hs', hop, hlater⟩
      · unfold unfinished
        split
        · rename_i heq
          cases heq
        · rename_i heq
          obtain ⟨-, rfl⟩ := List.cons.inj heq
          exact .inl (List.mem_cons_of_mem _ hmem)
        · rename_i q eventId r h₁ heq
          obtain ⟨rfl, rfl⟩ := List.cons.inj heq
          by_cases he : d.eventId = eventId
          · subst he
            exact .inr ⟨_, _, List.suffix_refl _, rfl, hs₀⟩
          · exact .inl (List.mem_filter.mpr ⟨hmem, by simpa using he⟩)
        · rename_i heq
          obtain ⟨-, rfl⟩ := List.cons.inj heq
          exact .inl hmem
      · exact .inr ⟨ev', h', hs'.trans (List.suffix_cons _ _), hop, hlater⟩

/-- What the end of the fan-out knew of a row that the pass created. -/
theorem fannedOut_of_created {j : QueueName} {tr : Requests} {pid : ℕ} {d : DeliveryCreateInput}
    {row : WebhookDelivery} (hist : InOrder (Expected j) (own pid tr))
    (hmem : created pid d row ∈ tr) (hcut : unfinished (own pid tr) = []) :
    Recorded tr row.id ∧ ∃ q take batch, batchRead q take batch ∈ own pid tr ∧
      ∃ e ∈ batch, e.id = d.eventId ∧ ∀ p ∈ e.webhookEndpoints, Tried tr d.eventId p.id := by
  have hown : created pid d row ∈ own pid tr := mem_own.mpr ⟨hmem, rfl⟩
  obtain ⟨h, hs⟩ := exists_suffix_of_mem hown
  rcases finished_of_created hs with hopen | ⟨ev, h', hs', hop, hlater⟩
  · rw [hcut] at hopen
    cases hopen
  · have hexpected := (hist.of_suffix hs').1
    rw [hop] at hexpected
    obtain ⟨-, -, hrec, q, take, batch, hb, e, he, hid, htried⟩ := hexpected
    have hsub : ∀ x ∈ h', x ∈ own pid tr := fun x hx =>
      hs'.subset (List.mem_cons_of_mem _ hx)
    refine ⟨?_, q, take, batch, hsub _ hb, e, he, hid, fun p hp => ?_⟩
    · obtain ⟨q', u, row', hu⟩ := hrec pid d row (hlater.subset List.mem_cons_self)
      exact ⟨q', u, row', (mem_own.mp (hsub _ hu)).1⟩
    · obtain ⟨ev', hev', hrest⟩ := htried p hp
      exact ⟨ev', (mem_own.mp (hsub _ hev')).1, hrest⟩

/-- A pass reads one batch. -/
theorem batch_unique {j : QueueName} {tr : Requests} {pid take q' take' : ℕ}
    {batch batch' : List EventWithEndpoints} (hist : InOrder (Expected j) (own pid tr))
    (hb : batchRead pid take batch ∈ own pid tr) (hb' : batchRead q' take' batch' ∈ own pid tr) :
    batch = batch' := by
  have hlast : ∀ {q n : ℕ} {b : List EventWithEndpoints}, batchRead q n b ∈ own pid tr →
      [batchRead q n b] <:+ own pid tr := by
    intro q n b hmem
    obtain ⟨h', hs, -, -, rfl⟩ := hist.mem hmem
    exact hs
  have heq : [batchRead pid take batch] = [batchRead q' take' batch'] := by
    refine List.IsSuffix.eq_of_length (List.suffix_of_suffix_length_le (hlast hb) (hlast hb') ?_) rfl
    exact Nat.le_refl _
  cases heq
  rfl

/-- Where every create is answered under a fresh id, every fan-out that is not cut off keeps its
    webhooks. -/
theorem keptWhole_of_noneCut (P : Platform) (key : String) :
    KeepsWebhooks P key freshIds fun c => NoneCut c.trace ∧ CreatesAnswered c.trace := by
  refine ⟨fun s hs _ ⟨hcut, hanswered⟩ => ?_⟩
  obtain ⟨hpairs, hfan⟩ := fanOuts_inv hs
  have hdone : ∀ {pid d row}, created pid d row ∈ s.config.trace →
      Recorded s.config.trace row.id ∧ ∃ q take batch,
        batchRead q take batch ∈ own pid s.config.trace ∧ ∃ e ∈ batch, e.id = d.eventId ∧
          ∀ p ∈ e.webhookEndpoints, Tried s.config.trace d.eventId p.id := by
    intro pid d row hmem
    obtain ⟨j, hist⟩ := Reachable.history (workload_obeys P key) hs pid
    exact fannedOut_of_created hist hmem (hcut pid)
  constructor
  · intro x hx
    rcases hfan.origin x hx with ⟨pid, d, row, hmem, hid⟩ | hlost
    · exact hfan.settled x hx (hid ▸ (hdone hmem).1)
    · exact absurd hanswered hlost
  · rintro pid take batch hb e he ⟨d, row, hmem, hde⟩ p hp
    obtain ⟨-, q, take', batch', hb', e', he', hid, htried⟩ := hdone hmem
    obtain ⟨j, hist⟩ := Reachable.history (workload_obeys P key) hs pid
    obtain rfl := batch_unique hist (mem_own.mpr ⟨hb, rfl⟩) hb'
    obtain rfl : e' = e := List.inj_on_of_nodup_map (hfan.batches _ _ _ hb) he' he
      (hid.trans hde)
    obtain ⟨ev, hev, d', hop, hd', hp'⟩ := htried p hp
    rcases hfan.tried ev hev d' hop with ⟨x, hx, hpair⟩ | hlost
    · exact ⟨x, hx, by rw [hpair, hd', hp', hde]⟩
    · exact absurd hanswered hlost

/-- A dispatch pass is cut off after its first create. -/
def cutRun : List WebhookMove :=
  .start .dispatch :: performs 0 [.ok, .id "1", .ok] ++ [.stop 0]

/-- The passes in flight, and the statuses of the stored rows. -/
def rowStatuses (s : WebhookSystem) : ℕ × List WebhookDeliveryStatus :=
  (s.procs.length, s.config.state.db.webhookDeliveries.rows.map fun d => d.status)

set_option maxRecDepth 4000 in
/-- A crash between the create and the update leaves a `PENDING` row, which no query selects. -/
theorem crash_leaves_pending : ¬ ∀ P key, KeepsWebhooks P key anything fun _ => True := by
  intro h
  obtain ⟨s, hs, hview⟩ := webhookRun_view samplePlatform sampleKey sampleWorld_undelivered cutRun
    (f := rowStatuses) (x := (0, [.pending])) (by decide)
  obtain ⟨hprocs, hrows⟩ := Prod.mk.inj hview
  have hkept := (h samplePlatform sampleKey).kept s hs (List.length_eq_zero_iff.mp hprocs) trivial
  obtain ⟨x, hx, hpending⟩ : ∃ x ∈ s.config.state.db.webhookDeliveries.rows,
      x.status = .pending := by
    have hmem : WebhookDeliveryStatus.pending ∈
        s.config.state.db.webhookDeliveries.rows.map fun d => d.status := hrows ▸ List.mem_cons_self
    exact List.mem_map.mp hmem
  rcases hkept.settled x hx with hstatus | hstatus | ⟨hstatus, -⟩ <;>
    rw [hpending] at hstatus <;> cases hstatus

/-- A dispatch pass whose only delivery fails runs to its end. -/
def failingRun : List WebhookMove :=
  .start .dispatch :: performs 0 [.ok, .id "1", .ok, .ok, .ok, publicAddress, .ok, .ok,
    .response (.ok 500), .ok, .random (1 / 2), .ok, .ok, .ok] ++ [.stop 0]

/-- `freshIds`, decided. -/
def freshIdsCheck (c : Log) (_ : ℕ) : Op → Bool
  | .db (.deliveryCreate d) => c.state.db.webhookDeliveries.rows.all fun x => x.id ≠ d.id
  | _ => true

theorem freshIds_of_check (c : Log) (pid : ℕ) (op : Op) (h : freshIdsCheck c pid op = true) :
    freshIds c pid op := by
  rintro d rfl x hx
  exact of_decide_eq_true (List.all_eq_true.mp h x hx)

/-- What `keptWhole_of_noneCut` asks of the requests of one pass. -/
def unlost (s : WebhookSystem) : Bool × List String × Bool :=
  (s.config.trace.all fun ev => ev.pid = 0, unfinished (own 0 s.config.trace),
    s.config.trace.all fun
      | ⟨_, .db (.deliveryCreate _), .error _⟩ => false
      | _ => true)

set_option maxRecDepth 8000 in
/-- A run that meets the conditions, with a row that will be retried. -/
theorem keptWhole_failing : ∃ s, WebhookReachable samplePlatform sampleKey freshIds s ∧
    rowStatuses s = (0, [.failed]) ∧ KeptWhole s.config := by
  obtain ⟨s, hs, hview⟩ := Reachable.viewWhere (M := machine) (W := workload samplePlatform sampleKey)
    freshIds_of_check sampleWorld_undelivered failingRun (f := fun s => (rowStatuses s, unlost s))
    (x := ((0, [.failed]), true, [], true)) (by decide +kernel)
  obtain ⟨hrows, hunlost⟩ := Prod.mk.inj hview
  obtain ⟨hpid, hview⟩ := Prod.mk.inj hunlost
  obtain ⟨hopen, hcreates⟩ := Prod.mk.inj hview
  have hcut : NoneCut s.config.trace := by
    intro pid
    by_cases h0 : pid = 0
    · rw [h0, hopen]
    · rw [own_eq_nil fun ev hev => ?_]
      · rfl
      · rw [of_decide_eq_true (List.all_eq_true.mp hpid ev hev)]
        exact Ne.symm h0
  have hanswered : CreatesAnswered s.config.trace := by
    intro pid d hmem
    exact absurd (List.all_eq_true.mp hcreates _ hmem) Bool.false_ne_true
  have hprocs : s.procs = [] := List.length_eq_zero_iff.mp (congrArg Prod.fst hrows)
  exact ⟨s, hs, hrows,
    (keptWhole_of_noneCut samplePlatform sampleKey).kept s hs hprocs ⟨hcut, hanswered⟩⟩

end CryptoPay.Webhooks
