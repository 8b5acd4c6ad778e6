import CryptoPay.Async.History
import CryptoPay.Webhooks.Queues

/-!
# What a pass does after what it has done

`Expected` says when a pass of each queue makes a request, in terms of the
requests it has made before. `current` is the attempt that the pass has begun
and not recorded, `posted` whether it has made the request of that attempt,
`ended` whether it has tried to store the result.

Results:
* `workload_obeys`: every pass of both queues makes expected requests only.
-/

namespace CryptoPay.Webhooks

open Async

/-- Requests with their replies, newest first. -/
abbrev Requests := List (Event calls)

abbrev batchRead (pid take : ℕ) (batch : List EventWithEndpoints) : Event calls :=
  ⟨pid, .db (.eventFindMany take), .ok batch⟩

abbrev dueRead (pid : ℕ) (lte : Time) (take : ℕ) (due : List DueDelivery) : Event calls :=
  ⟨pid, .db (.deliveryFindMany lte take), .ok due⟩

abbrev created (pid : ℕ) (d : DeliveryCreateInput) (row : WebhookDelivery) : Event calls :=
  ⟨pid, .db (.deliveryCreate d), .ok row⟩

abbrev updated (pid : ℕ) (id : String) (u : DeliveryUpdateInput) (row : WebhookDelivery) :
    Event calls :=
  ⟨pid, .db (.deliveryUpdate id u), .ok row⟩

abbrev marked (pid : ℕ) (m : Mark) : Event calls := ⟨pid, .mark m, ()⟩

/-- The attempt that has begun and is not recorded. -/
def current : Requests → Option Attempt
  | [] => none
  | ⟨_, .mark (.delivering a), _⟩ :: _ => some a
  | ⟨_, .db (.deliveryUpdate _ _), .ok _⟩ :: _ => none
  | _ :: h => current h

/-- The attempt that began last has made its request. -/
def posted : Requests → Bool
  | [] => false
  | ⟨_, .mark (.delivering _), _⟩ :: _ => false
  | ⟨_, .fetch .., _⟩ :: _ => true
  | _ :: h => posted h

/-- The attempt that began last has tried to store its result. -/
def ended : Requests → Bool
  | [] => false
  | ⟨_, .mark (.delivering _), _⟩ :: _ => false
  | ⟨_, .db (.deliveryUpdate _ _), _⟩ :: _ => true
  | _ :: h => ended h

/-- The endpoint was in the batch entry of the event. -/
def Listed (h : Requests) (eventId endpointId : String) : Prop :=
  ∃ pid take batch, batchRead pid take batch ∈ h ∧
    ∃ e ∈ batch, e.id = eventId ∧ ∃ p ∈ e.webhookEndpoints, p.id = endpointId

/-- The result of an attempt for the row has been stored. -/
def Recorded (h : Requests) (id : String) : Prop := ∃ pid u row, updated pid id u row ∈ h

/-- Every row that the pass created has its first result. -/
def AllRecorded (h : Requests) : Prop := ∀ pid d row, created pid d row ∈ h → Recorded h row.id

/-- The pass has tried to create the row for the pair. -/
def Tried (h : Requests) (eventId endpointId : String) : Prop :=
  ∃ ev ∈ h, ∃ d, ev.op = .db (.deliveryCreate d) ∧ d.eventId = eventId ∧ d.endpointId = endpointId

/-- Every endpoint of the batch entry of the event has been tried. -/
def FannedOut (h : Requests) (eventId : String) : Prop :=
  AllRecorded h ∧ ∃ pid take batch, batchRead pid take batch ∈ h ∧
    ∃ e ∈ batch, e.id = eventId ∧ ∀ p ∈ e.webhookEndpoints, Tried h eventId p.id

/-- Why an attempt begins: its row has just been created, or was read as due. -/
def Justified (h : Requests) (a : Attempt) : Prop :=
  match a.queue with
  | .dispatch => a.attempt = 1 ∧ ∃ pid d row h', h = created pid d row :: h' ∧
      row.id = a.deliveryId ∧ d.eventId = a.eventId ∧ d.endpointId = a.endpointId
  | .retry => ∃ pid lte take due, dueRead pid lte take due ∈ h ∧
      ∃ x ∈ due, x.id = a.deliveryId ∧ x.event.id = a.eventId ∧ x.endpoint.id = a.endpointId ∧
        a.attempt = x.attempt + 1

/-- What is stored as the result of an attempt. -/
structure Outcome (h : Requests) (a : Attempt) (u : DeliveryUpdateInput) : Prop where
  attempt : u.attempt = match a.queue with
    | .dispatch => none
    | .retry => some a.attempt
  status :
    (u.status = .succeeded ∧ u.nextRetryAt = none) ∨
    (u.status = .failed ∧ ∃ (base : ℤ) (pid : ℕ) (now : Time) (r : ℚ) (h' : Requests),
      retryBase a.attempt = some base ∧
      h = ⟨pid, .now, now⟩ :: ⟨pid, .random, r⟩ :: h' ∧
      u.nextRetryAt = some (some (now + jittered base r))) ∨
    (u.status = .exhausted ∧ retryBase a.attempt = none ∧ u.nextRetryAt = some none)

/-- When a pass of the queue makes a request. -/
def Expected (j : QueueName) (h : Requests) : Op → Prop
  | .db (.eventFindMany take) => j = .dispatch ∧ take = BATCH_SIZE ∧ h = []
  | .db (.deliveryFindMany _ take) => j = .retry ∧ take = BATCH_SIZE
  | .db (.deliveryCreate d) =>
    j = .dispatch ∧ current h = none ∧ d.status = .pending ∧ Listed h d.eventId d.endpointId
  | .db (.deliveryUpdate id u) =>
    (∃ a, current h = some a ∧ a.deliveryId = id ∧ Outcome h a u) ∧ ended h = false
  | .fetch id _ =>
    (∃ a, current h = some a ∧ a.deliveryId = id) ∧ posted h = false ∧ ended h = false
  | .mark (.delivering a) => current h = none ∧ a.queue = j ∧ Justified h a
  | .mark (.fannedOut eventId) => j = .dispatch ∧ current h = none ∧ FannedOut h eventId
  | _ => True

/-! ## Requests that begin and record nothing -/

/-- Neither a write nor the beginning of an attempt. -/
def Op.Quiet : Op → Prop
  | .db _ => False
  | .mark (.delivering _) => False
  | _ => True

theorem current_cons_quiet {ev : Event calls} (hev : ev.op.Quiet) (h : Requests) :
    current (ev :: h) = current h := by
  obtain ⟨pid, op, r⟩ := ev
  cases op with
  | db call => exact hev.elim
  | mark m =>
    cases m with
    | delivering a => exact hev.elim
    | _ => rfl
  | _ => rfl

theorem ended_cons_quiet {ev : Event calls} (hev : ev.op.Quiet) (h : Requests) :
    ended (ev :: h) = ended h := by
  obtain ⟨pid, op, r⟩ := ev
  cases op with
  | db call => exact hev.elim
  | mark m =>
    cases m with
    | delivering a => exact hev.elim
    | _ => rfl
  | _ => rfl

/-- The history has grown by quiet requests only. -/
def Quietly (h h' : Requests) : Prop := ∃ l, h' = l ++ h ∧ ∀ ev ∈ l, ev.op.Quiet

theorem Quietly.refl (h : Requests) : Quietly h h := ⟨[], rfl, fun _ hev => absurd hev List.not_mem_nil⟩

theorem Quietly.cons {h h' : Requests} (hq : Quietly h h') (ev : Event calls) (hev : ev.op.Quiet) :
    Quietly h (ev :: h') := by
  obtain ⟨l, rfl, hl⟩ := hq
  refine ⟨ev :: l, rfl, fun ev' hev' => ?_⟩
  rcases List.mem_cons.mp hev' with rfl | hev'
  · exact hev
  · exact hl ev' hev'

theorem Quietly.current_eq {h h' : Requests} (hq : Quietly h h') : current h' = current h := by
  obtain ⟨l, rfl, hl⟩ := hq
  induction l with
  | nil => rfl
  | cons ev l ih =>
    rw [List.cons_append, current_cons_quiet (hl ev List.mem_cons_self),
      ih fun ev' hev' => hl ev' (List.mem_cons_of_mem ev hev')]

theorem Quietly.ended_eq {h h' : Requests} (hq : Quietly h h') : ended h' = ended h := by
  obtain ⟨l, rfl, hl⟩ := hq
  induction l with
  | nil => rfl
  | cons ev l ih =>
    rw [List.cons_append, ended_cons_quiet (hl ev List.mem_cons_self),
      ih fun ev' hev' => hl ev' (List.mem_cons_of_mem ev hev')]

theorem Quietly.suffix {h h' : Requests} (hq : Quietly h h') : h <:+ h' := by
  obtain ⟨l, rfl, -⟩ := hq
  exact List.suffix_append l h

/-- A Prisma call in the longer history was made before. -/
theorem Quietly.mem_of_db {h h' : Requests} (hq : Quietly h h') {ev : Event calls}
    (hev : ev ∈ h') {call : WebhookCall} (hop : ev.op = .db call) : ev ∈ h := by
  obtain ⟨l, rfl, hl⟩ := hq
  rcases List.mem_append.mp hev with hev | hev
  · have hquiet := hl ev hev
    rw [hop] at hquiet
    exact hquiet.elim
  · exact hev

/-! ## One delivery attempt -/

section Walk

variable {P : Platform} {key : String} {j : QueueName} {pid : ℕ} {h : Requests} {a : Attempt}

/-- Neither a write, nor a mark of a queue, nor the request to the endpoint. -/
def Op.Checks : Op → Prop
  | .now | .lookup _ | .mark (.accepted ..) => True
  | _ => False

theorem Op.Checks.quiet {op : Op} (hop : op.Checks) : op.Quiet := by
  cases op with
  | mark m => cases m <;> first | exact hop.elim | trivial
  | _ => first | exact hop.elim | trivial

theorem posted_cons_checks {ev : Event calls} (hev : ev.op.Checks) (h : Requests) :
    posted (ev :: h) = posted h := by
  obtain ⟨pid, op, r⟩ := ev
  cases op with
  | mark m => cases m <;> first | exact hev.elim | rfl
  | _ => first | exact hev.elim | rfl

theorem expected_of_checks {op : Op} (hop : op.Checks) : Expected j h op := by
  cases op with
  | mark m => cases m <;> first | exact hop.elim | trivial
  | _ => first | exact hop.elim | trivial

theorem Op.Looks.checks {op : Op} (hop : op.Looks) : op.Checks := by
  cases op with
  | lookup hostname => trivial
  | _ => exact hop.elim

/-- An attempt that has begun is sent once, and stays unrecorded. -/
theorem deliverWebhook_obeys {deliveryId : String} (input : DeliverWebhookInput)
    (hc : current h = some a) (ha : a.deliveryId = deliveryId) (hp : posted h = false)
    (he : ended h = false) :
    (deliverWebhook P deliveryId input).Obeys (Expected j) pid (fun _ h' => Quietly h h')
      (fun _ _ => True) h := by
  -- up to the request: quiet, and nothing is posted
  let I : Requests → Prop := fun h' => Quietly h h' ∧ posted h' = false
  have hI : ∀ op r h', Op.Checks op → I h' → I (⟨pid, op, r⟩ :: h') := by
    intro op r h' hop hI
    exact ⟨hI.1.cons _ hop.quiet, by rw [posted_cons_checks hop, hI.2]⟩
  unfold deliverWebhook
  rw [Prog.obeys_bind]
  refine ⟨trivial, fun start => ?_⟩
  have h₁ : I (⟨pid, .now, start⟩ :: h) := hI .now start h trivial ⟨.refl h, hp⟩
  show Prog.Obeys _ _ _ _ (_ >>= _) _
  rw [Prog.obeys_bind, Prog.obeys_attempt]
  refine (Prog.Obeys.only ((assertSafeWebhookUrl_only P input.url).imp fun _ => Op.Looks.checks)
    (fun op h' hop _ => expected_of_checks hop) hI h₁).post (fun url h₂ h₂I => ?_)
    fun e h₂ h₂I => ?_
  · show Prog.Obeys _ _ _ _ (_ >>= _) _
    rw [Prog.obeys_bind]
    refine ⟨trivial, fun _ => ?_⟩
    have h₃ := hI (.mark (.accepted deliveryId input.secretEnc)) () h₂ trivial h₂I
    unfold sendWebhook
    show Prog.Obeys _ _ _ _ (_ >>= _) _
    rw [Prog.obeys_bind, Prog.obeys_ofExcept]
    refine ⟨fun secret _ => ?_, fun _ _ => trivial⟩
    refine ⟨trivial, fun now => ?_⟩
    have h₄ := hI .now now _ trivial h₃
    refine ⟨⟨⟨a, by rw [h₄.1.current_eq, hc], ha⟩, h₄.2, by rw [h₄.1.ended_eq, he]⟩,
      fun response => ?_⟩
    exact ⟨trivial, fun now' => (h₄.1.cons ⟨pid, .fetch .., response⟩ trivial).cons _ trivial⟩
  · exact ⟨trivial, fun now => h₂I.1.cons _ trivial⟩

/-- The result of an attempt that has begun is stored. -/
theorem recordResult_obeys {deliveryId : String} {attempt : Option ℤ} {lastStatus}
    (result : WebhookDeliveryResult) (hc : current h = some a) (ha : a.deliveryId = deliveryId)
    (he : ended h = false)
    (hattempt : attempt = match a.queue with | .dispatch => none | .retry => some a.attempt)
    (hlast : retryBase a.attempt = none → lastStatus = .exhausted) :
    (recordResult deliveryId attempt a.attempt lastStatus result).Obeys (Expected j) pid
      (fun _ h' => ∃ u row l, h' = updated pid deliveryId u row :: l ∧ Quietly h l)
      (fun _ _ => True) h := by
  have hstore : ∀ {h' : Requests} {u : DeliveryUpdateInput}, Quietly h h' → Outcome h' a u →
      (prisma (.deliveryUpdate deliveryId u) >>= fun _ => (pure () : Action Unit)).Obeys
        (Expected j) pid
        (fun _ h' => ∃ u row l, h' = updated pid deliveryId u row :: l ∧ Quietly h l)
        (fun _ _ => True) h' := by
    intro h' u hq hu
    rw [Prog.obeys_bind]
    refine Prog.obeys_request.mpr ⟨⟨⟨a, by rw [hq.current_eq, hc], ha, hu⟩,
      by rw [hq.ended_eq, he]⟩, fun r => ?_⟩
    refine ⟨fun row hrow => ?_, fun _ _ => trivial⟩
    cases r with
    | ok row' => exact ⟨u, row', h', rfl, hq⟩
    | error code => cases hrow
  unfold recordResult
  split_ifs with hs
  · refine ⟨trivial, fun now => ?_⟩
    exact hstore ((Quietly.refl h).cons _ trivial) ⟨hattempt, .inl ⟨rfl, rfl⟩⟩
  · rw [Prog.obeys_bind]
    unfold getRetryDelayMs
    cases hb : retryBase a.attempt with
    | none =>
      exact hstore (.refl h) ⟨hattempt, .inr (.inr ⟨hlast hb, hb, rfl⟩)⟩
    | some base =>
      refine ⟨trivial, fun r => ⟨trivial, fun now => ?_⟩⟩
      have hq := ((Quietly.refl h).cons ⟨pid, .random, r⟩ trivial).cons ⟨pid, .now, now⟩ trivial
      refine hstore hq ⟨hattempt, .inr (.inl ⟨rfl, ?_⟩)⟩
      exact ⟨base, pid, now, r, h, hb, rfl, rfl⟩

/-! ## The queues -/

theorem Listed.mono {h h' : Requests} (hs : h <:+ h') {e p : String} (hl : Listed h e p) :
    Listed h' e p := by
  obtain ⟨pid, take, batch, hb, hrest⟩ := hl
  exact ⟨pid, take, batch, hs.subset hb, hrest⟩

theorem Tried.mono {h h' : Requests} (hs : h <:+ h') {e p : String} (ht : Tried h e p) :
    Tried h' e p := by
  obtain ⟨ev, hev, hrest⟩ := ht
  exact ⟨ev, hs.subset hev, hrest⟩

theorem Recorded.mono {h h' : Requests} (hs : h <:+ h') {id : String} (hr : Recorded h id) :
    Recorded h' id := by
  obtain ⟨pid, u, row, hev⟩ := hr
  exact ⟨pid, u, row, hs.subset hev⟩

/-- Between two endpoints. -/
structure Settled (h : Requests) : Prop where
  current : current h = none
  recorded : AllRecorded h

/-- One endpoint of one event: the row is tried, and recorded if it was created. -/
theorem deliverTo_obeys (event : WebhookEvent) (endpoint : WebhookEndpoint) (hs : Settled h)
    (hl : Listed h event.id endpoint.id) :
    (deliverTo P key event endpoint).Obeys (Expected .dispatch) pid
      (fun _ h' => Settled h' ∧ Tried h' event.id endpoint.id ∧ h <:+ h') (fun _ _ => True) h := by
  unfold deliverTo
  refine ⟨trivial, fun id => ?_⟩
  let d : DeliveryCreateInput := ⟨id, event.id, endpoint.id, .pending⟩
  let h₁ : Requests := ⟨pid, .generateId "whd", id⟩ :: h
  have hsuffix : h <:+ h₁ := List.suffix_cons _ _
  refine ⟨⟨rfl, hs.current, rfl, hl.mono hsuffix⟩, fun r => ?_⟩
  cases r with
  | error code =>
    refine ⟨⟨hs.current, fun q d' row hev => ?_⟩, ⟨_, List.mem_cons_self, d, rfl, rfl, rfl⟩,
      hsuffix.trans (List.suffix_cons _ _)⟩
    rcases List.mem_cons.mp hev with heq | hev
    · cases heq
    · rcases List.mem_cons.mp hev with heq | hev
      · cases heq
      · exact (hs.recorded q d' row hev).mono (hsuffix.trans (List.suffix_cons _ _))
  | ok row =>
    let a : Attempt := ⟨.dispatch, row.id, event.id, endpoint.id, 1⟩
    let h₂ : Requests := created pid d row :: h₁
    show (deliverFirst P key event endpoint row.id).Obeys _ _ _ _ h₂
    unfold deliverFirst
    refine ⟨⟨hs.current, rfl, rfl, pid, d, row, h₁, rfl, rfl, rfl, rfl⟩, fun u => ?_⟩
    show (deliverWebhook P row.id ⟨endpoint.url, endpoint.secretEnc, event, key⟩ >>= fun result =>
      recordResult row.id none 1 .failed result).Obeys _ _ _ _ (marked pid (.delivering a) :: h₂)
    rw [Prog.obeys_bind]
    refine (deliverWebhook_obeys (h := marked pid (.delivering a) :: h₂) _ rfl rfl rfl rfl).post
      (fun result h₃ hq => ?_)
      fun _ _ _ => trivial
    have hc₃ : current h₃ = some a := hq.current_eq
    have he₃ : ended h₃ = false := hq.ended_eq
    have hbase : retryBase 1 ≠ none := by decide
    refine (recordResult_obeys (a := a) result hc₃ rfl he₃ rfl fun hb => absurd hb hbase).post
      (fun _ h₄ hrec => ?_) fun _ _ _ => trivial
    obtain ⟨u', row', l, rfl, hq'⟩ := hrec
    have h₂l : h₂ <:+ l :=
      (List.suffix_cons _ _).trans (hq.suffix.trans hq'.suffix)
    refine ⟨⟨rfl, fun q d' row₁ hev => ?_⟩, ?_, ?_⟩
    · -- a row that the pass created is this one, or was recorded before
      rcases List.mem_cons.mp hev with heq | hev
      · cases heq
      · have hev := hq'.mem_of_db hev rfl
        have hev := hq.mem_of_db hev rfl
        rcases List.mem_cons.mp hev with heq | hev
        · cases heq
        · rcases List.mem_cons.mp hev with heq | hev
          · cases heq
            exact ⟨pid, u', row', List.mem_cons_self⟩
          · rcases List.mem_cons.mp hev with heq | hev
            · cases heq
            · exact (hs.recorded q d' row₁ hev).mono
                (((List.suffix_cons _ _).trans (List.suffix_cons _ h₁)).trans
                  (h₂l.trans (List.suffix_cons _ _)))
    · refine ⟨created pid d row, List.mem_cons_of_mem _ (h₂l.subset List.mem_cons_self), d, rfl,
        rfl, rfl⟩
    · exact ((List.suffix_cons _ _).trans (List.suffix_cons _ h₁)).trans
        (h₂l.trans (List.suffix_cons _ _))

/-- One event of the batch. -/
theorem fanOut_obeys {take : ℕ} {batch : List EventWithEndpoints} {event : EventWithEndpoints}
    (hs : Settled h) (hb : batchRead pid take batch ∈ h) (he : event ∈ batch) :
    (fanOut P key event).Obeys (Expected .dispatch) pid
      (fun _ h' => Settled h' ∧ batchRead pid take batch ∈ h') (fun _ _ => True) h := by
  unfold fanOut
  rw [Prog.obeys_bind]
  -- the endpoints that do not remain have been tried
  let I : List WebhookEndpoint → Requests → Prop := fun ps h' =>
    Settled h' ∧ batchRead pid take batch ∈ h' ∧ (∀ p ∈ ps, p ∈ event.webhookEndpoints) ∧
      ∀ p ∈ event.webhookEndpoints, p ∈ ps ∨ Tried h' event.id p.id
  have hbody : ∀ p ps h', I (p :: ps) h' → (deliverTo P key event.toWebhookEvent p).Obeys
      (Expected .dispatch) pid (fun _ => I ps) (fun _ _ => True) h' := by
    rintro p ps h' ⟨hs', hb', hsub, htried⟩
    have hp := hsub p List.mem_cons_self
    refine (deliverTo_obeys event.toWebhookEvent p hs'
      ⟨pid, take, batch, hb', event, he, rfl, p, hp, rfl⟩).post (fun _ h'' hpost => ?_)
      fun _ _ h => h
    obtain ⟨hs'', hp', hsuffix⟩ := hpost
    refine ⟨hs'', hsuffix.subset hb', fun q hq => hsub q (List.mem_cons_of_mem p hq),
      fun q hq => ?_⟩
    rcases htried q hq with hq' | hq'
    · rcases List.mem_cons.mp hq' with rfl | hq'
      · exact .inr hp'
      · exact .inl hq'
    · exact .inr (hq'.mono hsuffix)
  have hI : I event.webhookEndpoints h := ⟨hs, hb, fun _ hp => hp, fun _ hp => .inl hp⟩
  refine (Prog.Obeys.forEach I hbody hI).post (fun _ h' hI' => ?_) fun _ _ h => h
  obtain ⟨hs', hb', -, htried⟩ := hI'
  have htried : ∀ p ∈ event.webhookEndpoints, Tried h' event.id p.id := fun p hp =>
    (htried p hp).resolve_left List.not_mem_nil
  refine ⟨⟨rfl, hs'.current, hs'.recorded, pid, take, batch, hb', event, he, rfl, htried⟩,
    fun u => ?_⟩
  refine ⟨⟨hs'.current, fun q d row hev => ?_⟩, List.mem_cons_of_mem _ hb'⟩
  rcases List.mem_cons.mp hev with heq | hev
  · cases heq
  · exact (hs'.recorded q d row hev).mono (List.suffix_cons _ _)

theorem runWebhookDispatch_obeys :
    (runWebhookDispatch P key).Obeys (Expected .dispatch) pid (fun _ _ => True)
      (fun _ _ => True) [] := by
  unfold runWebhookDispatch
  rw [Prog.obeys_bind]
  refine Prog.obeys_request.mpr ⟨⟨rfl, rfl, rfl⟩, fun r => ⟨fun (batch : List EventWithEndpoints) hr => ?_, fun _ _ => trivial⟩⟩
  cases r with
  | error code => cases hr
  | ok reply =>
    cases hr
    let I : List EventWithEndpoints → Requests → Prop := fun es h' =>
      Settled h' ∧ batchRead pid BATCH_SIZE batch ∈ h' ∧ ∀ e ∈ es, e ∈ batch
    have hbody : ∀ e es h', I (e :: es) h' → (fanOut P key e).Obeys (Expected .dispatch) pid
        (fun _ => I es) (fun _ _ => True) h' := by
      rintro e es h' ⟨hs, hb, hsub⟩
      refine (fanOut_obeys hs hb (hsub e List.mem_cons_self)).post (fun _ h'' hpost => ?_)
        fun _ _ h => h
      exact ⟨hpost.1, hpost.2, fun e' he' => hsub e' (List.mem_cons_of_mem e he')⟩
    have hI : I batch [batchRead pid BATCH_SIZE batch] := by
      refine ⟨⟨rfl, fun q d row hev => ?_⟩, List.mem_cons_self, fun _ he => he⟩
      cases List.mem_singleton.mp hev
    exact (Prog.Obeys.forEach I hbody hI).post (fun _ _ _ => trivial) fun _ _ h => h

/-- One due row. -/
theorem retryDelivery_obeys {lte : Time} {take : ℕ} {due : List DueDelivery} {x : DueDelivery}
    (hc : current h = none) (hd : dueRead pid lte take due ∈ h) (hx : x ∈ due) :
    (retryDelivery P key x).Obeys (Expected .retry) pid
      (fun _ h' => current h' = none ∧ dueRead pid lte take due ∈ h') (fun _ _ => True) h := by
  let a : Attempt := ⟨.retry, x.id, x.event.id, x.endpoint.id, x.attempt + 1⟩
  unfold retryDelivery
  refine ⟨⟨hc, rfl, pid, lte, take, due, hd, x, hx, rfl, rfl, rfl, rfl⟩, fun u => ?_⟩
  show (deliverWebhook P x.id ⟨x.endpoint.url, x.endpoint.secretEnc, x.event, key⟩ >>= fun result =>
    recordResult x.id (some (x.attempt + 1)) (x.attempt + 1) .exhausted result).Obeys _ _ _ _
      (marked pid (.delivering a) :: h)
  rw [Prog.obeys_bind]
  refine (deliverWebhook_obeys (h := marked pid (.delivering a) :: h) _ rfl rfl rfl rfl).post
    (fun result h₁ hq => ?_) fun _ _ _ => trivial
  have hc₁ : current h₁ = some a := hq.current_eq
  have he₁ : ended h₁ = false := hq.ended_eq
  refine (recordResult_obeys (a := a) result hc₁ rfl he₁ rfl fun _ => rfl).post
    (fun _ h₂ hrec => ?_) fun _ _ _ => trivial
  obtain ⟨u', row', l, rfl, hq'⟩ := hrec
  refine ⟨rfl, List.mem_cons_of_mem _ (hq'.suffix.subset (hq.suffix.subset ?_))⟩
  exact List.mem_cons_of_mem _ hd

theorem runWebhookRetry_obeys :
    (runWebhookRetry P key).Obeys (Expected .retry) pid (fun _ _ => True) (fun _ _ => True) [] := by
  unfold runWebhookRetry
  refine ⟨trivial, fun now => ?_⟩
  show (prisma (.deliveryFindMany now BATCH_SIZE) >>= fun due =>
    Prog.forEach (retryDelivery P key) due).Obeys _ _ _ _ [⟨pid, .now, now⟩]
  rw [Prog.obeys_bind]
  refine Prog.obeys_request.mpr ⟨⟨rfl, rfl⟩, fun r => ⟨fun (due : List DueDelivery) hr => ?_, fun _ _ => trivial⟩⟩
  cases r with
  | error code => cases hr
  | ok reply =>
    cases hr
    let I : List DueDelivery → Requests → Prop := fun xs h' =>
      current h' = none ∧ dueRead pid now BATCH_SIZE due ∈ h' ∧ ∀ x ∈ xs, x ∈ due
    have hbody : ∀ x xs h', I (x :: xs) h' → (retryDelivery P key x).Obeys (Expected .retry) pid
        (fun _ => I xs) (fun _ _ => True) h' := by
      rintro x xs h' ⟨hc, hd, hsub⟩
      refine (retryDelivery_obeys hc hd (hsub x List.mem_cons_self)).post (fun _ h'' hpost => ?_)
        fun _ _ h => h
      exact ⟨hpost.1, hpost.2, fun x' hx' => hsub x' (List.mem_cons_of_mem x hx')⟩
    have hI : I due [dueRead pid now BATCH_SIZE due, ⟨pid, .now, now⟩] :=
      ⟨rfl, List.mem_cons_self, fun _ hx => hx⟩
    exact (Prog.Obeys.forEach I hbody hI).post (fun _ _ _ => trivial) fun _ _ h => h

end Walk

instance : Inhabited QueueName := ⟨.dispatch⟩

/-- Every pass makes expected requests only. -/
theorem workload_obeys (P : Platform) (encryptionKey : String) :
    (workload P encryptionKey).Obeys Expected := by
  intro j pid
  cases j with
  | dispatch => exact runWebhookDispatch_obeys
  | retry => exact runWebhookRetry_obeys

end CryptoPay.Webhooks
