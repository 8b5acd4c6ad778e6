import CryptoPay.Data.Backlog
import CryptoPay.Webhooks.Lone

/-!
# Dispatch passes and events without endpoints

A dispatch pass reads the 25 oldest events without deliveries. An event of an
organization without an enabled endpoint gets no delivery, so it is read again
by every later pass.

Results:
* `undeliveredEvents_pass`: a complete pass is one round of `serve` on the
  events without deliveries.
* `unstarved_iff`: a pass attempts a deliverable event exactly if one of the 25
  oldest events has an endpoint, and passes reach all deliverable events
  exactly if each has fewer than 25 events without endpoints before it.
* `buried_event`: 25 older events keep a deliverable one from being attempted.
-/

namespace CryptoPay.Webhooks

open Async Data

/-- Some enabled endpoint would get the event. -/
def WebhookDb.hasEndpoint (db : WebhookDb) (e : WebhookEvent) : Bool :=
  !(db.enabledEndpoints e.organizationId).isEmpty

/-- The event has no delivery, and an endpoint to be delivered to. -/
def WebhookDb.Deliverable (db : WebhookDb) (e : WebhookEvent) : Prop :=
  e ∈ db.undeliveredEvents ∧ db.hasEndpoint e = true

/-- The reply is not that of a failing connection, and a generated id is not in use. -/
def regular (w : World) : Op → Input → Bool
  | .db _, .connectionError => false
  | .db _, .lostReply => false
  | .generateId stem, .id suffix =>
    w.db.webhookDeliveries.rows.all fun x => x.id ≠ stem ++ "_" ++ suffix
  | _, _ => true

/-- The database answers, and ids are new. -/
def orderly : Machine calls World Input Act where
  respond _ w op i := if regular w op i = true then respond w op i else none
  env := environment
  restarts _ := false

/-- Moreover, nothing happens besides but the clock. -/
def calm : Machine calls World Input Act where
  respond := orderly.respond
  env w
    | .clock t => some { w with clock := t }
    | _ => none
  restarts _ := false

/-- Complete dispatch passes, one after the other. -/
inductive Passes (P : Platform) (key : String) : ℕ → World → World → Prop where
  | zero {w : World} : Passes P key 0 w w
  | succ {n : ℕ} {w w₁ w' : World} {pid : ℕ} {evs : Requests}
      (h : Runs calm pid (runWebhookDispatch P key) w evs (.ok ()) w₁) (hs : Passes P key n w₁ w') :
      Passes P key (n + 1) w w'

/-- An attempt was begun for a deliverable event. -/
def AttemptsOne (db : WebhookDb) (evs : Requests) : Prop :=
  ∃ pid a, marked pid (.delivering a) ∈ evs ∧ ∃ e, db.Deliverable e ∧ e.id = a.eventId

/-- Dispatch cannot be starved, where `served` and `drained` hold. -/
structure Unstarved (P : Platform) (key : String) (served drained : WebhookDb → Prop) : Prop where
  /-- A complete pass that reads the batch of a state attempts one of its deliverable events. -/
  progress : ∀ pid w evs w', Runs orderly pid (runWebhookDispatch P key) w evs (.ok ()) w' →
    batchRead pid BATCH_SIZE (w.db.undelivered BATCH_SIZE) ∈ evs →
      (((∃ e, w.db.Deliverable e) → AttemptsOne w.db evs) ↔ served w.db)
  /-- Repeated passes deliver all of them. -/
  finite : ∀ n w w', Passes P key n w w' → w.db.undeliveredEvents.length ≤ n →
    ((∀ e, w.db.Deliverable e → w'.db.delivered e.id = true) ↔ drained w.db)

/-- If an event is deliverable, one of the 25 oldest events without deliveries has an endpoint. -/
def Served (db : WebhookDb) : Prop :=
  (∃ e, db.Deliverable e) → ∃ e ∈ db.undeliveredEvents.take BATCH_SIZE, db.hasEndpoint e = true

/-- Fewer than 25 events without an endpoint stand before each deliverable event. -/
def Drained (db : WebhookDb) : Prop :=
  ∀ e, db.Deliverable e → deadBefore db.hasEndpoint e db.undeliveredEvents < BATCH_SIZE

variable {P : Platform} {key : String} {pid : ℕ} {w w' : World} {evs : Requests}

theorem regular_of_respond (pid : ℕ) {op : Op} {i : Input} {y : calls.Ret op × World}
    (h : orderly.respond pid w op i = some y) : regular w op i = true ∧ respond w op i = some y := by
  change (if regular w op i = true then respond w op i else none) = some y at h
  split_ifs at h with hreg
  exact ⟨hreg, h⟩

/-- Orderly runs are runs. -/
theorem orderly_lone {α : Type} {p : Action α} {x : Except Thrown α}
    (h : Runs orderly pid p w evs x w') : Runs machine pid p w evs x w' :=
  h.imp (N := machine) (fun _ _ _ _ hr => (regular_of_respond pid hr).2) fun _ act _ henv hact =>
    ⟨act, henv, hact⟩

theorem orderly_drifts (h : Drifts orderly w w') : Untouched w w' :=
  drifts_untouched (show Drifts machine w w' from h)

theorem orderly_answers {α : Type} {p : Action α} {x : Except Thrown α}
    (h : Runs orderly pid p w evs x w') : DbAnswers evs := by
  induction h with
  | ret => exact fun _ _ hmem => absurd hmem List.not_mem_nil
  | throw => exact fun _ _ hmem => absurd hmem List.not_mem_nil
  | @await op k w w₁ w' r evs x i hr h ih =>
    intro q call hmem
    rcases List.mem_cons.mp hmem with heq | hmem
    · obtain ⟨rfl, rfl, hret⟩ := Event.mk.inj heq
      obtain rfl := eq_of_heq hret
      obtain ⟨hreg, hr⟩ := regular_of_respond q hr
      cases i with
      | ok => exact exec_ne_connection _ _ call (Prod.mk.inj (Option.some.inj hr)).1
      | connectionError => cases hreg
      | lostReply => cases hreg
      | _ => cases hr
    · exact ih q call hmem
  | env act hact hs h ih => exact ih

/-- An orderly run is calm but for the environment. -/
theorem calm_orderly {α : Type} {p : Action α} {x : Except Thrown α}
    (h : Runs calm pid p w evs x w') : Runs orderly pid p w evs x w' := by
  refine Runs.imp (M := calm) (N := orderly) (fun _ _ _ _ hr => hr)
    (fun w₁ act w₂ henv _ => ⟨act, ?_, rfl⟩) h
  cases act with
  | clock t => exact henv
  | _ => cases henv

/-! ## What a pass touches -/

/-- A request that is not a batch read and, as a create or a first attempt, is for one of the
    events. -/
def Op.For (S : String → Prop) : Op → Prop
  | .db (.eventFindMany _) => False
  | .db (.deliveryCreate d) => S d.eventId
  | .mark (.delivering a) => S a.eventId
  | _ => True

section Footprints

variable {S : String → Prop}

theorem Op.Looks.isFor {op : Op} (hop : op.Looks) : op.For S := by
  cases op with
  | lookup hostname => trivial
  | _ => exact hop.elim

theorem deliverWebhook_for (deliveryId : String) (input : DeliverWebhookInput) :
    (deliverWebhook P deliveryId input).Only (Op.For S) := by
  refine .bind (.perform trivial) fun start => ?_
  refine .bind (.attempt ((assertSafeWebhookUrl_only P _).imp fun _ => Op.Looks.isFor))
    fun checked => ?_
  cases checked with
  | error e => exact .bind (.perform trivial) fun now => trivial
  | ok url =>
    refine .bind (.perform trivial) fun _ => .bind (.ofExcept _) fun secret => ?_
    refine .bind (.bind (.perform trivial) fun now => trivial) fun request => ?_
    exact .bind (.perform trivial) fun response => .bind (.perform trivial) fun now => trivial

theorem recordResult_for (deliveryId : String) (attempt : Option ℤ) (failedAttempt : ℤ) (lastStatus)
    (result : WebhookDeliveryResult) :
    (recordResult deliveryId attempt failedAttempt lastStatus result).Only (Op.For S) := by
  unfold recordResult
  split_ifs
  · exact .bind (.perform trivial) fun now => .bind (.request trivial) fun _ => trivial
  · refine .bind ?_ fun delayMs => .bind ?_ fun t => .bind (.request trivial) fun _ => trivial
    · unfold getRetryDelayMs
      split
      · trivial
      · exact .bind (.perform trivial) fun r => trivial
    · unfold retryAt
      split
      · trivial
      · exact .bind (.perform trivial) fun now => trivial

theorem deliverTo_for (event : WebhookEvent) (endpoint : WebhookEndpoint) (hS : S event.id) :
    (deliverTo P key event endpoint).Only (Op.For S) := by
  refine .bind (.perform trivial) fun id => .bind (.attempt (.request hS)) fun delivery => ?_
  cases delivery with
  | error e => trivial
  | ok row =>
    exact .bind (.perform hS) fun _ => .bind (deliverWebhook_for _ _) fun result =>
      recordResult_for _ _ _ _ result

theorem fanOut_for (event : EventWithEndpoints) (hS : event.webhookEndpoints ≠ [] → S event.id) :
    (fanOut P key event).Only (Op.For S) := by
  refine .bind (.forEach fun p hp => ?_) fun _ => .perform trivial
  exact deliverTo_for _ p (hS (List.ne_nil_of_mem hp))

theorem respond_rows {op : Op} {i : Input} {r : calls.Ret op} (hop : op.For S)
    (h : respond w op i = some (r, w')) {x : WebhookDelivery} (hx : x ∈ w'.db.webhookDeliveries) :
    (∃ x₀ ∈ w.db.webhookDeliveries, x₀.eventId = x.eventId) ∨ S x.eventId := by
  by_cases hreads : op.Reads
  · rw [respond_reads hreads h] at hx
    exact .inl ⟨x, hx, rfl⟩
  · cases op with
    | db call =>
      have hexec : ∀ {db : WebhookDb}, x ∈ db.webhookDeliveries →
          db = (call.exec w.clock w.db).2 →
            (∃ x₀ ∈ w.db.webhookDeliveries, x₀.eventId = x.eventId) ∨ S x.eventId := by
        rintro db hx rfl
        cases call with
        | eventFindMany take => exact absurd trivial hreads
        | deliveryFindMany lte take => exact absurd trivial hreads
        | deliveryCreate d =>
          cases hexec : (WebhookCall.deliveryCreate d).exec w.clock w.db with
          | mk y db =>
            rw [hexec] at hx
            cases y with
            | ok row =>
              rcases ((exec_create_ok hexec).deliveries x).mp hx with rfl | hx
              · exact .inr hop
              · exact .inl ⟨x, hx, rfl⟩
            | error code =>
              rw [(exec_create_error hexec).1] at hx
              exact .inl ⟨x, hx, rfl⟩
        | deliveryUpdate id u =>
          cases hexec : (WebhookCall.deliveryUpdate id u).exec w.clock w.db with
          | mk y db =>
            rw [hexec] at hx
            cases y with
            | ok row =>
              rcases (exec_update_ok hexec).cases_mem hx with ⟨hx, -⟩ | ⟨x₀, hx₀, rfl, -⟩
              · exact .inl ⟨x, hx, rfl⟩
              · exact .inl ⟨x₀, hx₀, rfl⟩
            | error code =>
              rw [(exec_update_error hexec).1] at hx
              exact .inl ⟨x, hx, rfl⟩
      cases i with
      | ok =>
        cases h
        exact hexec hx rfl
      | connectionError =>
        cases h
        exact .inl ⟨x, hx, rfl⟩
      | lostReply =>
        cases h
        exact hexec hx rfl
      | _ => cases h
    | _ => exact absurd trivial hreads

/-- New rows are for the events that the program is for. -/
theorem lone_rows {α : Type} {p : Action α} {x : Except Thrown α} (hp : p.Only (Op.For S))
    (h : Runs machine pid p w evs x w') :
    ∀ x ∈ w'.db.webhookDeliveries,
      (∃ x₀ ∈ w.db.webhookDeliveries, x₀.eventId = x.eventId) ∨ S x.eventId := by
  induction h with
  | ret => exact fun x hx => .inl ⟨x, hx, rfl⟩
  | throw => exact fun x hx => .inl ⟨x, hx, rfl⟩
  | await i hr h ih =>
    intro x hx
    rcases ih (hp.2 _) x hx with ⟨y, hy, hid⟩ | hS
    · rcases respond_rows hp.1 hr hy with ⟨z, hz, hid'⟩ | hS
      · exact .inl ⟨z, hz, hid'.trans hid⟩
      · exact .inr (hid ▸ hS)
    · exact .inr hS
  | env act hact hs h ih =>
    intro x hx
    rcases ih hp x hx with ⟨y, hy, hid⟩ | hS
    · exact .inl ⟨y, ((environment_untouched hs).deliveries y).mp hy, hid⟩
    · exact .inr hS

end Footprints

/-! ## What a complete pass does -/

/-- No row is for the event. -/
def Unrowed (w : World) (eventId : String) : Prop :=
  ∀ x ∈ w.db.webhookDeliveries, x.eventId ≠ eventId

/-- A stretch of a pass that has given rows to the events `S`, and to no others. -/
structure Fan (S : String → Prop) (w w' : World) (evs : Requests) : Prop where
  rows : ∀ x ∈ w'.db.webhookDeliveries,
    (∃ x₀ ∈ w.db.webhookDeliveries, x₀.eventId = x.eventId) ∨ S x.eventId
  kept : ∀ x ∈ w.db.webhookDeliveries, ∃ x' ∈ w'.db.webhookDeliveries, x'.eventId = x.eventId
  served : ∀ eventId, S eventId → ∃ y ∈ w'.db.webhookDeliveries, y.eventId = eventId
  /-- If one of them had no row, one of them has been attempted. -/
  attempted : (∃ eventId, S eventId ∧ Unrowed w eventId) →
    ∃ q a, marked q (.delivering a) ∈ evs ∧ S a.eventId

theorem Fan.append {S T : String → Prop} {w₁ w₂ : World} {e₁ e₂ : Requests} (h : Fan S w w₁ e₁)
    (h' : Fan T w₁ w₂ e₂) : Fan (fun id => S id ∨ T id) w w₂ (e₁ ++ e₂) := by
  refine ⟨fun x hx => ?_, fun x hx => ?_, fun id hid => ?_, ?_⟩
  · rcases h'.rows x hx with ⟨y, hy, hyid⟩ | hT
    · rcases h.rows y hy with ⟨z, hz, hzid⟩ | hS
      · exact .inl ⟨z, hz, hzid.trans hyid⟩
      · exact .inr (.inl (hyid ▸ hS))
    · exact .inr (.inr hT)
  · obtain ⟨y, hy, hyid⟩ := h.kept x hx
    obtain ⟨z, hz, hzid⟩ := h'.kept y hy
    exact ⟨z, hz, hzid.trans hyid⟩
  · rcases hid with hS | hT
    · obtain ⟨y, hy, hyid⟩ := h.served id hS
      obtain ⟨z, hz, hzid⟩ := h'.kept y hy
      exact ⟨z, hz, hzid.trans hyid⟩
    · exact h'.served id hT
  · have hfirst : (∃ id, S id ∧ Unrowed w id) → ∃ q a, marked q (.delivering a) ∈ e₁ ++ e₂ ∧
        (S a.eventId ∨ T a.eventId) := by
      intro hnew
      obtain ⟨q, a, hmem, hS⟩ := h.attempted hnew
      exact ⟨q, a, List.mem_append_left e₂ hmem, .inl hS⟩
    rintro ⟨id, hid, hnew⟩
    by_cases hS : S id
    · exact hfirst ⟨id, hS, hnew⟩
    · have hnew₁ : Unrowed w₁ id := by
        intro x hx hxid
        rcases h.rows x hx with ⟨y, hy, hyid⟩ | hS'
        · exact hnew y hy (hyid.trans hxid)
        · exact hS (hxid ▸ hS')
      obtain ⟨q, a, hmem, hT⟩ := h'.attempted ⟨id, hid.resolve_left hS, hnew₁⟩
      exact ⟨q, a, List.mem_append_right e₁ hmem, .inr hT⟩

/-- A stretch without deliveries. -/
theorem Fan.none {S : String → Prop} (hS : ∀ id, ¬ S id) (hw : Untouched w w') : Fan S w w' evs where
  rows x hx := .inl ⟨x, (hw.deliveries x).mp hx, rfl⟩
  kept x hx := ⟨x, (hw.deliveries x).mpr hx, rfl⟩
  served id hid := absurd hid (hS id)
  attempted := fun ⟨id, hid, _⟩ => absurd hid (hS id)

theorem Fan.congr {S T : String → Prop} (h : Fan S w w' evs) (hST : ∀ id, S id ↔ T id) :
    Fan T w w' evs := by
  obtain rfl : S = T := funext fun id => propext (hST id)
  exact h

theorem eventId_of_pair {x y : WebhookDelivery} (h : x.pair = y.pair) : x.eventId = y.eventId :=
  congrArg Prod.fst h

/-- One endpoint of one event. -/
theorem deliverTo_fan {event : WebhookEvent} {endpoint : WebhookEndpoint}
    (h : Runs orderly pid (deliverTo P key event endpoint) w evs (.ok ()) w')
    (he : ∃ e ∈ w.db.webhookEvents, e.id = event.id)
    (hp : ∃ p ∈ w.db.webhookEndpoints, p.id = endpoint.id) :
    Fan (fun id => id = event.id) w w' evs := by
  have hkept : ∀ x ∈ w.db.webhookDeliveries, ∃ x' ∈ w'.db.webhookDeliveries,
      x'.eventId = x.eventId := by
    intro x hx
    obtain ⟨x', hx', -, hpair⟩ := (lone_evolves (orderly_lone h)).deliveries x hx
    exact ⟨x', hx', eventId_of_pair hpair⟩
  have hrows := lone_rows (S := fun id => id = event.id) (deliverTo_for event endpoint rfl)
    (orderly_lone h)
  obtain ⟨w₁, i, id, w₂, evs₁, hd, hr, rfl, h₁⟩ := Runs.perform_bind_inv h
  obtain ⟨hreg, hr⟩ := regular_of_respond pid hr
  obtain rfl : w₂ = w₁ := respond_reads (by trivial) hr
  have hw := orderly_drifts hd
  have hfresh : ∀ y ∈ w₂.db.webhookDeliveries, y.id ≠ id := by
    intro y hy
    cases i with
    | id suffix =>
      cases hr
      exact of_decide_eq_true (List.all_eq_true.mp hreg y hy)
    | _ => cases hr
  obtain ⟨e, he, heid⟩ := he
  obtain ⟨p, hp, hpid⟩ := hp
  obtain ⟨p', hp', hpid', -⟩ := hw.endpoints p hp
  obtain ⟨delivery, w₃, e₁, e₂, rfl, hcreate, h₂⟩ := h₁.bind_ok
  obtain ⟨y, hy, hcreate⟩ := hcreate.attempt_inv
  cases hy
  have hanswers := orderly_answers hcreate
  rcases lone_create (orderly_lone hcreate) hanswers ⟨e, hw.events e he, heid⟩
    ⟨p', hp', hpid'.trans hpid⟩ with ⟨row, rfl, rfl, hstored, -, hpair⟩ | ⟨rfl, rfl, y, hy, hcause⟩
  · obtain ⟨w₄, i', ⟨⟩, w₅, e₃, -, -, rfl, h₃⟩ := Runs.perform_bind_inv h₂
    obtain ⟨x, hx, -, hxp⟩ := (lone_evolves (orderly_lone h₂)).deliveries row hstored
    refine ⟨hrows, hkept, fun id' hid' => ⟨x, hx, ?_⟩, fun _ =>
      ⟨pid, ⟨.dispatch, row.id, event.id, endpoint.id, 1⟩, ?_, rfl⟩⟩
    · rw [eventId_of_pair hxp, hid']
      exact congrArg Prod.fst hpair
    · exact List.mem_cons_of_mem _ (List.mem_append_right _ List.mem_cons_self)
  · have hpair : y.pair = (event.id, endpoint.id) :=
      hcause.resolve_right (hfresh y hy)
    have hy₀ := (hw.deliveries y).mp hy
    obtain ⟨x, hx, hxid⟩ := hkept y hy₀
    have hyid : y.eventId = event.id := congrArg Prod.fst hpair
    refine ⟨hrows, hkept, fun id' hid' => ⟨x, hx, hxid.trans (hyid.trans hid'.symm)⟩, ?_⟩
    rintro ⟨id', rfl, hnew⟩
    exact absurd hyid (hnew y hy₀)

/-- A loop whose bodies are stretches. -/
theorem Fan.forEach {β : Type} {body : β → Action Unit} {S : β → String → Prop} {xs : List β}
    (hbody : ∀ y ∈ xs, ∀ w₁ evs' w₂, Evolves w w₁ →
      Runs orderly pid (body y) w₁ evs' (.ok ()) w₂ → Fan (S y) w₁ w₂ evs')
    {w₁ : World} (hw : Evolves w w₁) (h : Runs orderly pid (.forEach body xs) w₁ evs (.ok ()) w') :
    Fan (fun id => ∃ y ∈ xs, S y id) w₁ w' evs := by
  induction xs generalizing w₁ evs with
  | nil =>
    obtain ⟨-, -, hd⟩ := Runs.ret_inv h
    refine Fan.none (fun id => ?_) ?_
    · rintro ⟨y, hy, -⟩
      cases hy
    · obtain ⟨-, -, hd⟩ := Runs.ret_inv (orderly_lone h)
      exact drifts_untouched hd
  | cons y xs ih =>
    obtain ⟨⟨⟩, w₂, e₁, e₂, rfl, hrun, hrest⟩ := Runs.bind_ok h
    have hfirst := hbody y List.mem_cons_self _ _ _ hw hrun
    have hlater := ih (fun z hz => hbody z (List.mem_cons_of_mem y hz))
      (hw.trans (lone_evolves (orderly_lone hrun))) hrest
    refine (hfirst.append hlater).congr fun id => ?_
    simp only [List.mem_cons, exists_eq_or_imp]

/-- All endpoints of one event. -/
theorem fanOut_fan {event : EventWithEndpoints}
    (h : Runs orderly pid (fanOut P key event) w evs (.ok ()) w')
    (he : ∃ e ∈ w.db.webhookEvents, e.id = event.id)
    (hp : ∀ q ∈ event.webhookEndpoints, ∃ p ∈ w.db.webhookEndpoints, p.id = q.id) :
    Fan (fun id => id = event.id ∧ event.webhookEndpoints ≠ []) w w' evs := by
  obtain ⟨⟨⟩, w₁, e₁, e₂, rfl, hloop, hmark⟩ := h.bind_ok
  have hfan : Fan (fun id => ∃ q ∈ event.webhookEndpoints, id = event.id) w w₁ e₁ := by
    refine Fan.forEach (fun q hq s e s' hev hrun => ?_) (.refl w) hloop
    obtain ⟨e₀, he₀, hid⟩ := he
    obtain ⟨p, hp, hpid⟩ := hp q hq
    obtain ⟨p', hp', hpid', -⟩ := hev.endpoints p hp
    exact deliverTo_fan hrun ⟨e₀, hev.events e₀ he₀, hid⟩ ⟨p', hp', hpid'.trans hpid⟩
  have hlast : Fan (fun _ => False) w₁ w' e₂ := by
    obtain ⟨w₂, i, r, w₃, hd, hr, -, -, hd'⟩ := (orderly_lone hmark).perform_inv
    obtain rfl : w₃ = w₂ := respond_reads (by trivial) hr
    exact Fan.none (fun _ hid => hid) ((drifts_untouched hd).trans (drifts_untouched hd'))
  refine (hfan.append hlast).congr fun id => ?_
  rw [or_false]
  constructor
  · rintro ⟨q, hq, hid⟩
    exact ⟨hid, List.ne_nil_of_mem hq⟩
  · rintro ⟨hid, hne⟩
    obtain ⟨q, hq⟩ := List.exists_mem_of_ne_nil _ hne
    exact ⟨q, hq, hid⟩

/-- One of the 25 oldest events without deliveries, with an endpoint. -/
def InBatch (db : WebhookDb) (eventId : String) : Prop :=
  ∃ e ∈ db.undeliveredEvents.take BATCH_SIZE, db.hasEndpoint e = true ∧ e.id = eventId

theorem inBatch_iff {db : WebhookDb} {eventId : String} : InBatch db eventId ↔
    ∃ e ∈ db.undelivered BATCH_SIZE, eventId = e.id ∧ e.webhookEndpoints ≠ [] := by
  simp only [InBatch, WebhookDb.undelivered, List.mem_map, exists_exists_and_eq_and,
    WebhookDb.hasEndpoint, Bool.not_eq_true', List.isEmpty_eq_false_iff, ne_eq]
  constructor
  · rintro ⟨e, he, hne, hid⟩
    exact ⟨e, he, hid.symm, hne⟩
  · rintro ⟨e, he, hid, hne⟩
    exact ⟨e, he, hne, hid.symm⟩

/-- A complete pass gives rows to the events of its batch that have endpoints. -/
theorem runWebhookDispatch_fan
    (h : Runs orderly pid (runWebhookDispatch P key) w evs (.ok ()) w') :
    ∃ w₁, Drifts orderly w w₁ ∧ Fan (InBatch w₁.db) w w' evs ∧
      (∀ q b, batchRead q BATCH_SIZE b ∈ evs → b = w₁.db.undelivered BATCH_SIZE) ∧
      ∀ q a, marked q (.delivering a) ∈ evs → InBatch w₁.db a.eventId := by
  obtain ⟨batch, w₂, e₁, e₂, rfl, hread, hloop⟩ := h.bind_ok
  obtain ⟨w₁, i, r, w₁', hd, hr, rfl, hbatch, hd'⟩ := hread.request_inv
  obtain ⟨-, hr⟩ := regular_of_respond pid hr
  obtain rfl : w₁' = w₁ := respond_reads (by trivial) hr
  cases r with
  | error code => cases hbatch
  | ok b =>
    cases hbatch
    obtain ⟨hexec, -⟩ := respond_db_ok hr
    obtain ⟨hb, -⟩ := Prod.mk.inj hexec
    cases hb
    have hw := orderly_drifts hd
    have hw' := orderly_drifts hd'
    have honly := (Runs.only (F := Op.For (InBatch w₁'.db)) (.forEach fun e he =>
      fanOut_for e fun hne => inBatch_iff.mpr ⟨e, he, rfl, hne⟩) hloop)
    refine ⟨w₁', hd, ?_, fun q b hb => ?_, fun q a ha => ?_⟩
    · have hfirst : Fan (fun _ => False) w w₂
          [batchRead pid BATCH_SIZE (w₁'.db.undelivered BATCH_SIZE)] :=
        Fan.none (fun _ hid => hid) (hw.trans hw')
      have hlater := Fan.forEach (w := w₂) (fun e he s evs' s' hev hrun => by
        obtain ⟨hevent, hps⟩ := mem_undelivered he
        have hmem := hw'.events _ (mem_undeliveredEvents.mp hevent).1
        refine fanOut_fan hrun ⟨_, hev.events _ hmem, rfl⟩ fun q hq => ?_
        rw [hps] at hq
        obtain ⟨p, hp, hpid, -⟩ := hw'.endpoints q (mem_enabledEndpoints.mp hq).1
        obtain ⟨p', hp', hpid', -⟩ := hev.endpoints p hp
        exact ⟨p', hp', hpid'.trans hpid⟩) (.refl w₂) hloop
      refine (hfirst.append hlater).congr fun id => ?_
      rw [false_or, inBatch_iff]
    · rcases List.mem_append.mp hb with hb | hb
      · cases List.mem_singleton.mp hb
        rfl
      · exact (honly _ hb).elim
    · rcases List.mem_append.mp ha with ha | ha
      · cases List.mem_singleton.mp ha
      · exact honly _ ha

/-! ## Repeated passes -/

/-- Neither a Prisma call nor any other request touches events and endpoints. -/
theorem respond_tables {op : Op} {i : Input} {r : calls.Ret op}
    (h : respond w op i = some (r, w')) : w'.db.webhookEvents = w.db.webhookEvents ∧
      w'.db.webhookEndpoints = w.db.webhookEndpoints := by
  by_cases hreads : op.Reads
  · rw [respond_reads hreads h]
    exact ⟨rfl, rfl⟩
  · have hexec : ∀ call : WebhookCall,
        (call.exec w.clock w.db).2.webhookEvents = w.db.webhookEvents ∧
          (call.exec w.clock w.db).2.webhookEndpoints = w.db.webhookEndpoints := by
      intro call
      cases call with
      | eventFindMany take => exact ⟨rfl, rfl⟩
      | deliveryFindMany lte take => exact ⟨rfl, rfl⟩
      | deliveryCreate d =>
        simp only [WebhookCall.exec]
        split_ifs
        · split <;> exact ⟨rfl, rfl⟩
        · exact ⟨rfl, rfl⟩
      | deliveryUpdate id u =>
        simp only [WebhookCall.exec]
        split <;> exact ⟨rfl, rfl⟩
    cases op with
    | db call =>
      cases i with
      | ok =>
        cases h
        exact hexec call
      | connectionError =>
        cases h
        exact ⟨rfl, rfl⟩
      | lostReply =>
        cases h
        exact hexec call
      | _ => cases h
    | _ => exact absurd trivial hreads

/-- Only the clock moves between requests. -/
theorem calm_env {act : Act} (h : calm.env w act = some w') : w'.db = w.db := by
  cases act with
  | clock t =>
    cases h
    rfl
  | _ => cases h

theorem calm_drifts (h : Drifts calm w w') : w'.db = w.db := by
  induction h with
  | refl => rfl
  | tail _ hstep ih =>
    obtain ⟨act, -, hact⟩ := hstep
    exact (calm_env hact).trans ih

theorem calm_tables {α : Type} {p : Action α} {x : Except Thrown α}
    (h : Runs calm pid p w evs x w') : w'.db.webhookEvents = w.db.webhookEvents ∧
      w'.db.webhookEndpoints = w.db.webhookEndpoints := by
  induction h with
  | ret => exact ⟨rfl, rfl⟩
  | throw => exact ⟨rfl, rfl⟩
  | await i hr h ih =>
    obtain ⟨hevents, hendpoints⟩ := respond_tables (regular_of_respond pid hr).2
    exact ⟨ih.1.trans hevents, ih.2.trans hendpoints⟩
  | env act hact hs h ih =>
    rw [← calm_env hs]
    exact ih

/-- A calm pass reads the batch of the state in which it starts. -/
theorem calm_batch (h : Runs calm pid (runWebhookDispatch P key) w evs (.ok ()) w') :
    batchRead pid BATCH_SIZE (w.db.undelivered BATCH_SIZE) ∈ evs := by
  obtain ⟨batch, w₂, e₁, e₂, rfl, hread, -⟩ := h.bind_ok
  obtain ⟨w₁, i, r, w₁', hd, hr, rfl, hbatch, -⟩ := hread.request_inv
  obtain ⟨-, hr⟩ := regular_of_respond pid hr
  cases r with
  | error code => cases hbatch
  | ok b =>
    obtain ⟨hexec, -⟩ := respond_db_ok hr
    obtain ⟨hb, -⟩ := Prod.mk.inj hexec
    cases hb
    rw [calm_drifts hd]
    exact List.mem_append_left _ List.mem_cons_self

/-- What is delivered after a calm pass. -/
theorem delivered_pass (h : Runs calm pid (runWebhookDispatch P key) w evs (.ok ()) w')
    (eventId : String) : w'.db.delivered eventId = true ↔
      w.db.delivered eventId = true ∨ InBatch w.db eventId := by
  obtain ⟨w₁, -, hfan, hread, -⟩ := runWebhookDispatch_fan (calm_orderly h)
  have hbatch := hread pid _ (calm_batch h)
  have hin : ∀ id, InBatch w₁.db id ↔ InBatch w.db id := by
    intro id
    rw [inBatch_iff, inBatch_iff, hbatch]
  rw [delivered_eq_true, delivered_eq_true]
  constructor
  · rintro ⟨x, hx, rfl⟩
    exact (hfan.rows x hx).imp_right (hin x.eventId).mp
  · rintro (⟨x, hx, rfl⟩ | hid)
    · exact hfan.kept x hx
    · exact hfan.served eventId ((hin eventId).mpr hid)

/-- A calm pass is one round of service. -/
theorem undeliveredEvents_pass (h : Runs calm pid (runWebhookDispatch P key) w evs (.ok ()) w') :
    w'.db.undeliveredEvents = serve BATCH_SIZE w.db.hasEndpoint w.db.undeliveredEvents := by
  obtain ⟨hevents, -⟩ := calm_tables h
  have hmem : ∀ e ∈ w.db.webhookEvents.rows, (!w'.db.delivered e.id) =
      ((!(w.db.hasEndpoint e && decide (e ∈ w.db.undeliveredEvents.take BATCH_SIZE))) &&
        !w.db.delivered e.id) := by
    intro e he
    have hin : InBatch w.db e.id ↔
        w.db.hasEndpoint e = true ∧ e ∈ w.db.undeliveredEvents.take BATCH_SIZE := by
      constructor
      · rintro ⟨e', he', hlive, hid⟩
        have he'' := (mem_undeliveredEvents.mp (List.mem_of_mem_take he')).1
        obtain rfl := Table.eq_of_key he'' he hid
        exact ⟨hlive, he'⟩
      · exact fun ⟨hlive, he'⟩ => ⟨e, he', hlive, rfl⟩
    rw [Bool.eq_iff_iff, Bool.not_eq_true', Bool.eq_false_iff, ne_eq, delivered_pass h, hin]
    simp only [Bool.and_eq_true, Bool.not_eq_true', Bool.and_eq_false_iff, decide_eq_false_iff_not,
      not_or, not_and_or, Bool.not_eq_true]
    exact and_comm
  rw [serve_eq_filter (List.Nodup.of_map _ (nodup_undeliveredEvents w.db))]
  unfold WebhookDb.undeliveredEvents Table.filter
  rw [hevents, filter_insertionSort, List.filter_filter]
  congr 1
  exact List.filter_congr hmem

theorem Passes.undeliveredEvents {n : ℕ} (h : Passes P key n w w') :
    w'.db.undeliveredEvents =
        (serve BATCH_SIZE w.db.hasEndpoint)^[n] w.db.undeliveredEvents ∧
      w'.db.webhookEvents = w.db.webhookEvents := by
  induction h with
  | zero => exact ⟨rfl, rfl⟩
  | @succ n w w₁ w' pid evs h hs ih =>
    obtain ⟨hevents, hendpoints⟩ := calm_tables h
    have hlive : w₁.db.hasEndpoint = w.db.hasEndpoint := by
      funext e
      simp only [WebhookDb.hasEndpoint, WebhookDb.enabledEndpoints, hendpoints]
    rw [Function.iterate_succ_apply, ← undeliveredEvents_pass h, ← hlive]
    exact ⟨ih.1, ih.2.trans hevents⟩

/-- Progress and draining, with their exact conditions. -/
theorem unstarved_iff (P : Platform) (key : String) : Unstarved P key Served Drained := by
  refine ⟨fun pid w evs w' h hb => ?_, fun n w w' h hn => ?_⟩
  · obtain ⟨w₁, -, hfan, hread, hmarks⟩ := runWebhookDispatch_fan h
    have hbatch := hread pid _ hb
    have hin : ∀ id, InBatch w₁.db id ↔ InBatch w.db id := by
      intro id
      rw [inBatch_iff, inBatch_iff, hbatch]
    constructor
    · rintro hone hdeliverable
      obtain ⟨q, a, ha, -⟩ := hone hdeliverable
      obtain ⟨e, he, hlive, -⟩ := (hin _).mp (hmarks q a ha)
      exact ⟨e, he, hlive⟩
    · intro hserved hdeliverable
      obtain ⟨e, he, hlive⟩ := hserved hdeliverable
      have hnew : Unrowed w e.id := (mem_undeliveredEvents.mp (List.mem_of_mem_take he)).2
      obtain ⟨q, a, ha, hmem⟩ := hfan.attempted ⟨e.id, (hin _).mpr ⟨e, he, hlive, rfl⟩, hnew⟩
      obtain ⟨e', he', hlive', hid⟩ := (hin _).mp hmem
      exact ⟨q, a, ha, e', ⟨List.mem_of_mem_take he', hlive'⟩, hid⟩
  · obtain ⟨hafter, hevents⟩ := h.undeliveredEvents
    refine forall_congr' fun e => forall_congr' fun he => ?_
    rw [← gone_iff n (List.Nodup.of_map _ (nodup_undeliveredEvents w.db)) he.1 he.2 hn, ← hafter,
      mem_undeliveredEvents, delivered_eq_true, hevents]
    have hstored := (mem_undeliveredEvents.mp he.1).1
    simp only [hstored, true_and, not_forall, not_not, exists_prop]

/-- A deliverable event, and `n` older events of an organization without endpoints. -/
def backlog (n : ℕ) : List WebhookEvent :=
  (List.range n).map (fun k => sampleEvent ("idle_" ++ toString k) "idle" k) ++
    [sampleEvent "evt_1" "org" 100]

/-- The backlog, and an endpoint for its last event. -/
def backlogWorld (n : ℕ) (h : ((backlog n).map WebhookEvent.id).Nodup) : World where
  db := {
    webhookEvents := ⟨backlog n, h⟩
    webhookEndpoints := ⟨[sampleEndpoint "we_1" "org" goodSecret], List.nodup_singleton _⟩
    webhookDeliveries := .empty }
  clock := 0

theorem backlogWorld_deliverable {n : ℕ} (h : ((backlog n).map WebhookEvent.id).Nodup) :
    (backlogWorld n h).db.Deliverable (sampleEvent "evt_1" "org" 100) := by
  refine ⟨mem_undeliveredEvents.mpr ⟨?_, ?_⟩, rfl⟩
  · exact List.mem_append_right _ List.mem_cons_self
  · exact fun d hd => absurd hd (DeliveryTable.not_mem_empty d)

theorem nodup_backlog25 : ((backlog 25).map WebhookEvent.id).Nodup := by decide

abbrev buriedWorld : World := backlogWorld 25 nodup_backlog25

theorem nodup_backlog1 : ((backlog 1).map WebhookEvent.id).Nodup := by decide

abbrev shallowWorld : World := backlogWorld 1 nodup_backlog1

/-- The pass has returned, and whether it has begun an attempt. -/
def attemptView (y : Requests × Except Thrown Unit × World) : Bool × Bool :=
  (y.2.1.isOk, y.1.any fun
    | ⟨_, .mark (.delivering _), _⟩ => true
    | _ => false)

theorem eq_ok_of_isOk {x : Except Thrown Unit} (h : x.isOk = true) : x = .ok () := by
  cases x with
  | ok u => rfl
  | error e => cases h

set_option maxRecDepth 8000 in
/-- The pass reads 25 events that nobody receives. -/
theorem buried_event : ¬ ∀ P key, Unstarved P key (fun _ => True) fun _ => True := by
  intro h
  obtain ⟨evs, x, w', hrun, hview⟩ := Runs.view calm 0
    (runWebhookDispatch samplePlatform sampleKey) buriedWorld (List.replicate 26 .ok)
    (f := attemptView) (y := (true, false)) (by decide)
  obtain ⟨hok, hnone⟩ := Prod.mk.inj hview
  obtain rfl := eq_ok_of_isOk hok
  have hone := ((h samplePlatform sampleKey).progress 0 _ _ _ (calm_orderly hrun)
    (calm_batch hrun)).mpr trivial ⟨_, backlogWorld_deliverable _⟩
  obtain ⟨q, a, ha, -⟩ := hone
  rw [List.any_eq_false] at hnone
  exact hnone _ ha rfl

set_option maxRecDepth 8000 in
/-- A deliverable event behind an event without endpoints is attempted. -/
theorem unstarved_shallow : ∃ evs w',
    Runs orderly 0 (runWebhookDispatch samplePlatform sampleKey) shallowWorld evs (.ok ()) w' ∧
      AttemptsOne shallowWorld.db evs := by
  obtain ⟨evs, x, w', hrun, hview⟩ := Runs.view calm 0
    (runWebhookDispatch samplePlatform sampleKey) shallowWorld
    [.ok, .ok, .id "1", .ok, .ok, .ok, publicAddress, .ok, .ok, .response (.ok 200), .ok,
      .ok, .ok, .ok] (f := attemptView) (y := (true, true)) (by decide +kernel)
  obtain ⟨hok, -⟩ := Prod.mk.inj hview
  obtain rfl := eq_ok_of_isOk hok
  have hserved : Served shallowWorld.db := by
    intro _
    exact ⟨sampleEvent "evt_1" "org" 100, by decide, by decide⟩
  exact ⟨evs, w', calm_orderly hrun,
    ((unstarved_iff samplePlatform sampleKey).progress 0 _ _ _ (calm_orderly hrun)
      (calm_batch hrun)).mpr hserved ⟨_, backlogWorld_deliverable _⟩⟩

end CryptoPay.Webhooks
