import CryptoPay.Webhooks.Expected

/-!
# One step of the webhook system

`Step c ev w` is what an answered request `ev` can be in a reachable system
with the tables and requests `c`: which pass makes it, after what, and what it
does to the tables.

Results:
* `step_of_answered`: every answered request is a `Step`.
* `webhook_invariant`: what holds before any delivery exists and is kept by the
  environment and by each `Step` holds in every reachable system.
-/

namespace CryptoPay.Webhooks

open Async

/-- The clock, ids, random numbers, lookups, and reads that fail. -/
def Silent : Event calls → Prop
  | ⟨_, .now, _⟩ | ⟨_, .random, _⟩ | ⟨_, .generateId _, _⟩ | ⟨_, .lookup _, _⟩ => True
  | ⟨_, .mark (.accepted ..), _⟩ => True
  | ⟨_, .db (.eventFindMany _), .error _⟩ => True
  | ⟨_, .db (.deliveryFindMany ..), .error _⟩ => True
  | _ => False

theorem Silent.current_eq {ev : Event calls} (hev : Silent ev) (h : Requests) :
    current (ev :: h) = current h := by
  unfold Silent at hev
  split at hev <;> first | exact hev.elim | rfl

theorem Silent.posted_eq {ev : Event calls} (hev : Silent ev) (h : Requests) :
    posted (ev :: h) = posted h := by
  unfold Silent at hev
  split at hev <;> first | exact hev.elim | rfl

theorem Silent.ended_eq {ev : Event calls} (hev : Silent ev) (h : Requests) :
    ended (ev :: h) = ended h := by
  unfold Silent at hev
  split at hev <;> first | exact hev.elim | rfl

/-- See the module text. -/
inductive Step (c : Log) : Event calls → World → Prop where
  | batch {pid : ℕ} (fresh : own pid c.trace = []) :
      Step c (batchRead pid BATCH_SIZE (c.state.db.undelivered BATCH_SIZE)) c.state
  | due {pid : ℕ} {lte : Time} :
      Step c (dueRead pid lte BATCH_SIZE (c.state.db.due lte BATCH_SIZE)) c.state
  | created {pid : ℕ} {d : DeliveryCreateInput} {db : WebhookDb}
      (idle : current (own pid c.trace) = none)
      (listed : Listed (own pid c.trace) d.eventId d.endpointId) (pending : d.status = .pending)
      (effect : Created c.state.clock c.state.db d (d.row c.state.clock) db) :
      Step c (created pid d (d.row c.state.clock)) { c.state with db := db }
  /-- The row is stored, and the pass does not learn of it. -/
  | createLost {pid : ℕ} {d : DeliveryCreateInput} {db : WebhookDb}
      (idle : current (own pid c.trace) = none)
      (listed : Listed (own pid c.trace) d.eventId d.endpointId) (pending : d.status = .pending)
      (effect : Created c.state.clock c.state.db d (d.row c.state.clock) db) :
      Step c ⟨pid, .db (.deliveryCreate d), .error .connection⟩ { c.state with db := db }
  | notCreated {pid : ℕ} {d : DeliveryCreateInput} {code : PrismaErrorCode}
      (idle : current (own pid c.trace) = none)
      (listed : Listed (own pid c.trace) d.eventId d.endpointId)
      (cause : code = .connection ∨
        (∃ x ∈ c.state.db.webhookDeliveries, x.pair = (d.eventId, d.endpointId)) ∨
        (∃ x ∈ c.state.db.webhookDeliveries, x.id = d.id) ∨
        (∀ e ∈ c.state.db.webhookEvents, e.id ≠ d.eventId) ∨
        ∀ p ∈ c.state.db.webhookEndpoints, p.id ≠ d.endpointId) :
      Step c ⟨pid, .db (.deliveryCreate d), .error code⟩ c.state
  | updated {pid : ℕ} {u : DeliveryUpdateInput} {row : WebhookDelivery} {a : Attempt}
      {db : WebhookDb} (began : current (own pid c.trace) = some a)
      (unended : ended (own pid c.trace) = false) (outcome : Outcome (own pid c.trace) a u) (effect : Updated c.state.db a.deliveryId u db) :
      Step c (updated pid a.deliveryId u row) { c.state with db := db }
  /-- The result is stored, and the pass does not learn of it. -/
  | updateLost {pid : ℕ} {u : DeliveryUpdateInput} {a : Attempt} {db : WebhookDb}
      (began : current (own pid c.trace) = some a) (unended : ended (own pid c.trace) = false)
      (outcome : Outcome (own pid c.trace) a u) (effect : Updated c.state.db a.deliveryId u db) :
      Step c ⟨pid, .db (.deliveryUpdate a.deliveryId u), .error .connection⟩
        { c.state with db := db }
  | notUpdated {pid : ℕ} {u : DeliveryUpdateInput} {a : Attempt} {code : PrismaErrorCode}
      (began : current (own pid c.trace) = some a) :
      Step c ⟨pid, .db (.deliveryUpdate a.deliveryId u), .error code⟩ c.state
  | delivering {pid : ℕ} {a : Attempt} (idle : current (own pid c.trace) = none)
      (justified : Justified (own pid c.trace) a) :
      Step c (marked pid (.delivering a)) c.state
  | fannedOut {pid : ℕ} {eventId : String} (idle : current (own pid c.trace) = none)
      (done : FannedOut (own pid c.trace) eventId) : Step c (marked pid (.fannedOut eventId)) c.state
  | fetch {pid : ℕ} {a : Attempt} {request : FetchRequest} {r : Except (Option String) ℤ}
      (began : current (own pid c.trace) = some a) (unposted : posted (own pid c.trace) = false)
      (unended : ended (own pid c.trace) = false) : Step c ⟨pid, .fetch a.deliveryId request, r⟩ c.state
  | silent {ev : Event calls} (h : Silent ev) : Step c ev c.state

/-- A write that was executed, whether its reply arrived or not. -/
theorem step_of_create {c : Log} {pid : ℕ} {d : DeliveryCreateInput}
    {r : Except PrismaErrorCode WebhookDelivery} {w : World} {i : Input}
    (idle : current (own pid c.trace) = none)
    (listed : Listed (own pid c.trace) d.eventId d.endpointId) (pending : d.status = .pending)
    (h : respond c.state (.db (.deliveryCreate d)) i = some (r, w)) :
    Step c ⟨pid, .db (.deliveryCreate d), r⟩ w := by
  cases r with
  | ok row =>
    obtain ⟨hexec, hw⟩ := respond_db_ok h
    have heffect := exec_create_ok hexec
    obtain rfl := heffect.row_eq
    rw [hw]
    exact .created idle listed pending heffect
  | error code =>
    rcases respond_db_error h with ⟨hexec, hw⟩ | ⟨rfl, rfl | hw⟩
    · obtain ⟨hdb, hcause⟩ := exec_create_error hexec
      rw [hw, hdb]
      exact .notCreated idle listed (.inr hcause)
    · exact .notCreated idle listed (.inl rfl)
    · cases hexec : (WebhookCall.deliveryCreate d).exec c.state.clock c.state.db with
      | mk x db =>
        rw [hw, hexec]
        cases x with
        | ok row =>
          have heffect := exec_create_ok hexec
          obtain rfl := heffect.row_eq
          exact .createLost idle listed pending heffect
        | error code =>
          rw [show (Except.error code, db).2 = db from rfl, (exec_create_error hexec).1]
          exact .notCreated idle listed (.inl rfl)

theorem step_of_update {c : Log} {pid : ℕ} {u : DeliveryUpdateInput} {a : Attempt}
    {r : Except PrismaErrorCode WebhookDelivery} {w : World} {i : Input}
    (began : current (own pid c.trace) = some a) (unended : ended (own pid c.trace) = false)
    (outcome : Outcome (own pid c.trace) a u)
    (h : respond c.state (.db (.deliveryUpdate a.deliveryId u)) i = some (r, w)) :
    Step c ⟨pid, .db (.deliveryUpdate a.deliveryId u), r⟩ w := by
  cases r with
  | ok row =>
    obtain ⟨hexec, hw⟩ := respond_db_ok h
    rw [hw]
    exact .updated began unended outcome (exec_update_ok hexec)
  | error code =>
    rcases respond_db_error h with ⟨hexec, hw⟩ | ⟨rfl, rfl | hw⟩
    · rw [hw, (exec_update_error hexec).1]
      exact .notUpdated began
    · exact .notUpdated began
    · cases hexec : (WebhookCall.deliveryUpdate a.deliveryId u).exec c.state.clock c.state.db with
      | mk x db =>
        rw [hw, hexec]
        cases x with
        | ok row => exact .updateLost began unended outcome (exec_update_ok hexec)
        | error code =>
          rw [show (Except.error code, db).2 = db from rfl, (exec_update_error hexec).1]
          exact .notUpdated began

/-- Every answered request is a `Step`. -/
theorem step_of_answered {allowed : Condition calls World} {c : Log} {ev : Event calls} {w : World}
    (h : Answered machine allowed Expected c ev w) : Step c ev w := by
  obtain ⟨-, ⟨j, hE, -⟩, -, i, hr⟩ := h
  obtain ⟨pid, op, r⟩ := ev
  change respond c.state op i = some (r, w) at hr
  have hsilent : op.Reads → Silent ⟨pid, op, r⟩ → Step c ⟨pid, op, r⟩ w := by
    intro hop hs
    rw [respond_reads hop hr]
    exact .silent hs
  cases op with
  | db call =>
    cases call with
    | eventFindMany take =>
      cases r with
      | error code =>
        exact hsilent trivial trivial
      | ok batch =>
        obtain ⟨-, rfl, hown⟩ := hE
        obtain ⟨hexec, hw⟩ := respond_db_ok hr
        obtain ⟨hb, hdb⟩ := Prod.mk.inj hexec
        cases hb
        rw [hw, ← hdb]
        exact .batch hown
    | deliveryFindMany lte take =>
      cases r with
      | error code =>
        exact hsilent trivial trivial
      | ok due =>
        obtain ⟨-, rfl⟩ := hE
        obtain ⟨hexec, hw⟩ := respond_db_ok hr
        obtain ⟨hb, hdb⟩ := Prod.mk.inj hexec
        cases hb
        rw [hw, ← hdb]
        exact .due
    | deliveryCreate d =>
      obtain ⟨-, idle, pending, listed⟩ := hE
      exact step_of_create idle listed pending hr
    | deliveryUpdate id u =>
      obtain ⟨⟨a, began, rfl, outcome⟩, unended⟩ := hE
      exact step_of_update began unended outcome hr
  | mark m =>
    cases m with
    | delivering a =>
      obtain ⟨idle, -, justified⟩ := hE
      obtain rfl : w = c.state := respond_reads (by trivial) hr
      exact .delivering idle justified
    | fannedOut eventId =>
      obtain ⟨-, idle, done⟩ := hE
      obtain rfl : w = c.state := respond_reads (by trivial) hr
      exact .fannedOut idle done
    | accepted id secretEnc =>
      exact hsilent trivial trivial
  | fetch id request =>
    obtain ⟨⟨a, began, rfl⟩, unposted, unended⟩ := hE
    obtain rfl : w = c.state := respond_reads (by trivial) hr
    exact .fetch began unposted unended
  | now =>
    exact hsilent trivial trivial
  | random =>
    exact hsilent trivial trivial
  | generateId stem =>
    exact hsilent trivial trivial
  | lookup hostname =>
    exact hsilent trivial trivial

/-! ## What a step keeps -/

/-- What no step and no act of the environment takes away. -/
structure Evolves (w w' : World) : Prop where
  deliveries : ∀ x ∈ w.db.webhookDeliveries, ∃ x' ∈ w'.db.webhookDeliveries,
    x'.id = x.id ∧ x'.pair = x.pair
  events : ∀ e ∈ w.db.webhookEvents, e ∈ w'.db.webhookEvents
  endpoints : ∀ p ∈ w.db.webhookEndpoints, ∃ p' ∈ w'.db.webhookEndpoints, p'.id = p.id ∧
    p'.organizationId = p.organizationId ∧ p'.url = p.url ∧ p'.secretEnc = p.secretEnc

theorem Untouched.evolves {w w' : World} (h : Untouched w w') : Evolves w w' :=
  ⟨fun x hx => ⟨x, (h.deliveries x).mpr hx, rfl, rfl⟩, h.events, h.endpoints⟩

theorem Created.evolves {w : World} {now : Time} {d : DeliveryCreateInput} {row : WebhookDelivery}
    {db : WebhookDb} (h : Created now w.db d row db) : Evolves w { w with db := db } where
  deliveries x hx := ⟨x, (h.deliveries x).mpr (.inr hx), rfl, rfl⟩
  events e he := by
    show e ∈ db.webhookEvents
    rw [h.events]
    exact he
  endpoints p hp := by
    refine ⟨p, ?_, rfl, rfl, rfl, rfl⟩
    show p ∈ db.webhookEndpoints
    rw [h.endpoints]
    exact hp

theorem Updated.evolves {w : World} {id : String} {u : DeliveryUpdateInput} {db : WebhookDb}
    (h : Updated w.db id u db) : Evolves w { w with db := db } where
  deliveries x hx := by
    refine ⟨_, (h.deliveries _).mpr ⟨x, hx, rfl⟩, ?_⟩
    split_ifs <;> exact ⟨rfl, rfl⟩
  events e he := by
    show e ∈ db.webhookEvents
    rw [h.events]
    exact he
  endpoints p hp := by
    refine ⟨p, ?_, rfl, rfl, rfl, rfl⟩
    show p ∈ db.webhookEndpoints
    rw [h.endpoints]
    exact hp

theorem Step.evolves {c : Log} {ev : Event calls} {w : World} (h : Step c ev w) :
    Evolves c.state w := by
  have hrefl := (Untouched.refl c.state).evolves
  cases h with
  | created idle listed pending effect => exact effect.evolves
  | createLost idle listed pending effect => exact effect.evolves
  | updated began unended outcome effect => exact effect.evolves
  | updateLost began unended outcome effect => exact effect.evolves
  | batch => exact hrefl
  | due => exact hrefl
  | notCreated => exact hrefl
  | notUpdated => exact hrefl
  | delivering => exact hrefl
  | fannedOut => exact hrefl
  | fetch => exact hrefl
  | silent => exact hrefl

/-- A row after a step was there before, has just been created, or was just given the result of
    the attempt that the process has begun. -/
theorem Step.row_cases {c : Log} {ev : Event calls} {w : World} (h : Step c ev w)
    {x : WebhookDelivery} (hx : x ∈ w.db.webhookDeliveries) :
    x ∈ c.state.db.webhookDeliveries ∨
      (∃ d : DeliveryCreateInput, x = d.row c.state.clock ∧ d.status = .pending ∧
        Listed (own ev.pid c.trace) d.eventId d.endpointId ∧
        (∀ y ∈ c.state.db.webhookDeliveries, y.id ≠ d.id) ∧
        (ev = Webhooks.created ev.pid d x ∨ ev = ⟨ev.pid, .db (.deliveryCreate d), .error .connection⟩)) ∨
      ∃ x₀ ∈ c.state.db.webhookDeliveries, ∃ a u, x = x₀.update u ∧ x₀.id = a.deliveryId ∧
        current (own ev.pid c.trace) = some a ∧ Outcome (own ev.pid c.trace) a u := by
  cases h with
  | created idle listed pending effect =>
    rcases (effect.deliveries x).mp hx with rfl | hx
    · exact .inr (.inl ⟨_, rfl, pending, listed, effect.newId, .inl rfl⟩)
    · exact .inl hx
  | createLost idle listed pending effect =>
    rcases (effect.deliveries x).mp hx with rfl | hx
    · exact .inr (.inl ⟨_, rfl, pending, listed, effect.newId, .inr rfl⟩)
    · exact .inl hx
  | @updated pid u row a db began unended outcome effect =>
    rcases effect.cases_mem hx with ⟨hx, -⟩ | ⟨x₀, hx₀, heq, hid⟩
    · exact .inl hx
    · exact .inr (.inr ⟨x₀, hx₀, a, u, heq, hid, began, outcome⟩)
  | @updateLost pid u a db began unended outcome effect =>
    rcases effect.cases_mem hx with ⟨hx, -⟩ | ⟨x₀, hx₀, heq, hid⟩
    · exact .inl hx
    · exact .inr (.inr ⟨x₀, hx₀, a, u, heq, hid, began, outcome⟩)
  | batch => exact .inl hx
  | due => exact .inl hx
  | notCreated => exact .inl hx
  | notUpdated => exact .inl hx
  | delivering => exact .inl hx
  | fannedOut => exact .inl hx
  | fetch => exact .inl hx
  | silent => exact .inl hx

/-- A result that has been stored was stored before, or by this step. -/
theorem Step.recorded_cases {c : Log} {ev : Event calls} {w : World} (h : Step c ev w) {id : String}
    (hrec : Recorded (ev :: c.trace) id) :
    Recorded c.trace id ∨ ∃ a u, a.deliveryId = id ∧ Outcome (own ev.pid c.trace) a u ∧
      Updated c.state.db id u w.db := by
  obtain ⟨pid, u, row, hmem⟩ := hrec
  rcases List.mem_cons.mp hmem with rfl | hmem
  · cases h with
    | @updated _ _ _ a _ began unended outcome effect => exact .inr ⟨a, u, rfl, outcome, effect⟩
    | silent hs => exact hs.elim
  · exact .inl ⟨pid, u, row, hmem⟩

/-- A step of a reachable system leaves tables and requests alone, is an act of the environment,
    or a `Step`. -/
theorem webhook_step_cases {P : Platform} {key : String} {allowed : Condition calls World}
    {s s' : WebhookSystem} (hs : WebhookReachable P key allowed s) {m : WebhookMove}
    (hm : s.Meets allowed m) (hstep : s.step machine (workload P key) m = some s') :
    s'.config = s.config ∨
      (∃ w, Untouched s.config.state w ∧ s'.config = { s.config with state := w }) ∨
      ∃ ev w, allowed s.config ev.pid ev.op ∧ Step s.config ev w ∧
        s'.config = ⟨w, ev :: s.config.trace⟩ := by
  rcases Reachable.step_cases (workload_obeys P key) hs hm hstep with
    heq | ⟨act, w, henv, heq⟩ | ⟨ev, w, hans, heq⟩
  · exact .inl heq
  · exact .inr (.inl ⟨w, environment_untouched henv, heq⟩)
  · exact .inr (.inr ⟨ev, w, hans.allowed, step_of_answered hans, heq⟩)

/-- The rule for invariants of all runs. -/
theorem webhook_invariant {P : Platform} {key : String} {allowed : Condition calls World}
    {I : Log → Prop} (h₀ : ∀ w, Undelivered w → I ⟨w, []⟩)
    (henv : ∀ c w, I c → Untouched c.state w → I { c with state := w })
    (hstep : ∀ c ev w, I c → allowed c ev.pid ev.op →
      (∀ pid, ∃ j, InOrder (Expected j) (own pid c.trace)) → Step c ev w → I ⟨w, ev :: c.trace⟩)
    {s : WebhookSystem} (hs : WebhookReachable P key allowed s) : I s.config :=
  Reachable.invariant (workload_obeys P key) h₀
    (fun c _ w hI hw => henv c w hI (environment_untouched hw))
    (fun c ev w hI ha => hstep c ev w hI ha.allowed ha.history (step_of_answered ha)) hs

end CryptoPay.Webhooks
