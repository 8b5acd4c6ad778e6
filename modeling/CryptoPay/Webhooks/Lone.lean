import CryptoPay.Async.Sequential
import CryptoPay.Webhooks.Steps

/-!
# Passes that run alone

The Prisma calls of a pass while no other pass takes a step.

Results:
* `lone_evolves`: a run takes no row away.
* `lone_batch`, `lone_due`, `lone_create`, `lone_update`: what each call does
  when the database answers it.
-/

namespace CryptoPay.Webhooks

open Async Data

/-- The database answered every Prisma call, if only with an error of its own. -/
def DbAnswers (evs : Requests) : Prop :=
  ∀ pid call, (⟨pid, .db call, .error .connection⟩ : Event calls) ∉ evs

theorem DbAnswers.append {l₁ l₂ : Requests} (h : DbAnswers (l₁ ++ l₂)) :
    DbAnswers l₁ ∧ DbAnswers l₂ :=
  ⟨fun pid call hmem => h pid call (List.mem_append_left _ hmem),
    fun pid call hmem => h pid call (List.mem_append_right _ hmem)⟩

theorem DbAnswers.tail {ev : Event calls} {l : Requests} (h : DbAnswers (ev :: l)) : DbAnswers l :=
  fun pid call hmem => h pid call (List.mem_cons_of_mem ev hmem)

variable {pid : ℕ} {w w' : World} {evs : Requests}

theorem Evolves.trans {w₁ w₂ w₃ : World} (h : Evolves w₁ w₂) (h' : Evolves w₂ w₃) :
    Evolves w₁ w₃ where
  deliveries x hx := by
    obtain ⟨y, hy, hid, hpair⟩ := h.deliveries x hx
    obtain ⟨z, hz, hid', hpair'⟩ := h'.deliveries y hy
    exact ⟨z, hz, hid'.trans hid, hpair'.trans hpair⟩
  events e he := h'.events e (h.events e he)
  endpoints p hp := by
    obtain ⟨q, hq, hid, horg, hurl, hsecret⟩ := h.endpoints p hp
    obtain ⟨r, hr, hid', horg', hurl', hsecret'⟩ := h'.endpoints q hq
    exact ⟨r, hr, hid'.trans hid, horg'.trans horg, hurl'.trans hurl, hsecret'.trans hsecret⟩

theorem Evolves.refl (w : World) : Evolves w w := (Untouched.refl w).evolves

theorem drifts_untouched (h : Drifts machine w w') : Untouched w w' := by
  induction h with
  | refl => exact .refl w
  | tail _ hstep ih =>
    obtain ⟨act, -, hact⟩ := hstep
    exact ih.trans (environment_untouched hact)

theorem exec_evolves (w : World) (call : WebhookCall) :
    Evolves w { w with db := (call.exec w.clock w.db).2 } := by
  cases call with
  | eventFindMany take => exact .refl w
  | deliveryFindMany lte take => exact .refl w
  | deliveryCreate d =>
    cases hexec : (WebhookCall.deliveryCreate d).exec w.clock w.db with
    | mk x db =>
      cases x with
      | ok row => exact (exec_create_ok hexec).evolves
      | error code =>
        rw [(exec_create_error hexec).1]
        exact .refl w
  | deliveryUpdate id u =>
    cases hexec : (WebhookCall.deliveryUpdate id u).exec w.clock w.db with
    | mk x db =>
      cases x with
      | ok row => exact (exec_update_ok hexec).evolves
      | error code =>
        rw [(exec_update_error hexec).1]
        exact .refl w

theorem respond_evolves {op : Op} {i : Input} {r : calls.Ret op}
    (h : respond w op i = some (r, w')) : Evolves w w' := by
  by_cases hop : op.Reads
  · rw [respond_reads hop h]
    exact .refl w
  · cases op with
    | db call =>
      cases i with
      | ok =>
        cases h
        exact exec_evolves w call
      | connectionError =>
        cases h
        exact .refl w
      | lostReply =>
        cases h
        exact exec_evolves w call
      | _ => cases h
    | _ => exact absurd trivial hop

/-- A run takes no row away. -/
theorem lone_evolves {α : Type} {p : Action α} {x : Except Thrown α}
    (h : Runs machine pid p w evs x w') : Evolves w w' := by
  induction h with
  | ret => exact .refl _
  | throw => exact .refl _
  | await i hr h ih => exact (respond_evolves hr).trans ih
  | env act hact hs h ih => exact (environment_untouched hs).evolves.trans ih

/-! ## Prisma calls -/

/-- A call that the database answers is executed. -/
theorem lone_prisma {call : WebhookCall} {x : Except Thrown call.Ret}
    (h : Runs machine pid (prisma call) w evs x w') (ha : DbAnswers evs) :
    ∃ w₁ r db, Untouched w w₁ ∧ call.exec w₁.clock w₁.db = (r, db) ∧ evs = [⟨pid, .db call, r⟩] ∧
      x = r.mapError Thrown.prisma ∧ Untouched { w₁ with db := db } w' := by
  obtain ⟨w₁, i, r, w₂, hd, hr, rfl, hx, hd'⟩ := h.request_inv
  have hexec : call.exec w₁.clock w₁.db = (r, w₂.db) ∧ w₂ = { w₁ with db := w₂.db } := by
    cases r with
    | ok a => exact respond_db_ok hr
    | error code =>
      rcases respond_db_error hr with hexec | ⟨rfl, -⟩
      · exact hexec
      · exact absurd List.mem_cons_self (ha pid call)
  refine ⟨w₁, r, w₂.db, drifts_untouched hd, hexec.1, rfl, hx, ?_⟩
  rw [← hexec.2]
  exact drifts_untouched hd'

theorem lone_batch {take : ℕ} {x : Except Thrown (List EventWithEndpoints)}
    (h : Runs machine pid (prisma (.eventFindMany take)) w evs x w') (ha : DbAnswers evs) :
    ∃ w₁, Untouched w w₁ ∧ evs = [batchRead pid take (w₁.db.undelivered take)] ∧
      x = .ok (w₁.db.undelivered take) ∧ Untouched w₁ w' := by
  obtain ⟨w₁, r, db, hw, hexec, rfl, rfl, hw'⟩ := lone_prisma h ha
  obtain ⟨rfl, rfl⟩ := Prod.mk.inj hexec
  exact ⟨w₁, hw, rfl, rfl, hw'⟩

theorem lone_due {lte : Time} {take : ℕ} {x : Except Thrown (List DueDelivery)}
    (h : Runs machine pid (prisma (.deliveryFindMany lte take)) w evs x w') (ha : DbAnswers evs) :
    ∃ w₁, Untouched w w₁ ∧ evs = [dueRead pid lte take (w₁.db.due lte take)] ∧
      x = .ok (w₁.db.due lte take) ∧ Untouched w₁ w' := by
  obtain ⟨w₁, r, db, hw, hexec, rfl, rfl, hw'⟩ := lone_prisma h ha
  obtain ⟨rfl, rfl⟩ := Prod.mk.inj hexec
  exact ⟨w₁, hw, rfl, rfl, hw'⟩

/-- A create for a stored event and endpoint adds the row, or its pair or its id is taken. -/
theorem lone_create {d : DeliveryCreateInput} {x : Except Thrown WebhookDelivery}
    (h : Runs machine pid (prisma (.deliveryCreate d)) w evs x w') (ha : DbAnswers evs)
    (he : ∃ e ∈ w.db.webhookEvents, e.id = d.eventId)
    (hp : ∃ p ∈ w.db.webhookEndpoints, p.id = d.endpointId) :
    (∃ row, evs = [created pid d row] ∧ x = .ok row ∧
        row ∈ w'.db.webhookDeliveries ∧ row.id = d.id ∧ row.pair = (d.eventId, d.endpointId)) ∨
      evs = [⟨pid, .db (.deliveryCreate d), .error .uniqueConstraint⟩] ∧
        x = .error (.prisma .uniqueConstraint) ∧ ∃ y ∈ w.db.webhookDeliveries,
          y.pair = (d.eventId, d.endpointId) ∨ y.id = d.id := by
  obtain ⟨w₁, r, db, hw, hexec, rfl, rfl, hw'⟩ := lone_prisma h ha
  cases r with
  | ok row =>
    have heffect := exec_create_ok hexec
    refine .inl ⟨row, rfl, rfl, (hw'.deliveries row).mpr ?_, ?_, ?_⟩
    · exact (heffect.deliveries row).mpr (.inl heffect.row_eq)
    · rw [heffect.row_eq]
      rfl
    · rw [heffect.row_eq]
      rfl
  | error code =>
    obtain ⟨e, he, hid⟩ := he
    obtain ⟨p, hp, hpid⟩ := hp
    obtain ⟨p', hp', hpid', -⟩ := hw.endpoints p hp
    have hfk : (w₁.db.webhookEvents.find? d.eventId).isSome = true ∧
        (w₁.db.webhookEndpoints.find? d.endpointId).isSome = true := by
      constructor
      · rw [Option.isSome_iff_ne_none, ne_eq, Table.find?_eq_none_iff]
        exact fun hnone => hnone e (hw.events e he) hid
      · rw [Option.isSome_iff_ne_none, ne_eq, Table.find?_eq_none_iff]
        exact fun hnone => hnone p' hp' (hpid'.trans hpid)
    have hunique : code = .uniqueConstraint := by
      simp only [WebhookCall.exec, hfk.1, hfk.2, Bool.and_self, if_true] at hexec
      split at hexec
      · cases hexec
      · cases hexec
        rfl
    subst hunique
    refine .inr ⟨rfl, rfl, ?_⟩
    rcases (exec_create_error hexec).2 with ⟨y, hy, hpair⟩ | ⟨y, hy, hyid⟩ | hnone | hnone
    · exact ⟨y, (hw.deliveries y).mp hy, .inl hpair⟩
    · exact ⟨y, (hw.deliveries y).mp hy, .inr hyid⟩
    · exact absurd hid (hnone e (hw.events e he))
    · exact absurd (hpid'.trans hpid) (hnone p' hp')

/-- An update of a stored row resolves. -/
theorem lone_update {id : String} {u : DeliveryUpdateInput} {x : Except Thrown WebhookDelivery}
    (h : Runs machine pid (prisma (.deliveryUpdate id u)) w evs x w') (ha : DbAnswers evs)
    (hstored : ∃ y ∈ w.db.webhookDeliveries, y.id = id) :
    ∃ row, evs = [updated pid id u row] ∧ x = .ok row := by
  obtain ⟨w₁, r, db, hw, hexec, rfl, rfl, -⟩ := lone_prisma h ha
  cases r with
  | ok row => exact ⟨row, rfl, rfl⟩
  | error code =>
    obtain ⟨y, hy, hid⟩ := hstored
    exact absurd hid ((exec_update_error hexec).2 y ((hw.deliveries y).mpr hy))

end CryptoPay.Webhooks
