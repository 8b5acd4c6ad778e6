import CryptoPay.Webhooks.DueReads
import CryptoPay.Webhooks.FanOut

/-!
# Retry passes that overlap

A retry pass reads the due rows, and later posts and updates each by its id
from what it read. Nothing claims a row, so two passes may post for the same
row and the second update overwrites the first.

Results:
* `retrySafe_of_apart`: where no other pass stores a result for a row between
  the read and the post of a retry, and no result of an earlier post is
  outstanding, a delivered row stays delivered and is not posted again, and
  `attempt` counts the posts.
* `overlap_overwrites`: of two overlapping passes, one records a row as
  `SUCCEEDED`, and the other posts again and sets it back to `FAILED`.
-/

namespace CryptoPay.Webhooks

open Async

abbrev fetched (pid : ℕ) (id : String) (request : FetchRequest) (r : Except (Option String) ℤ) :
    Event calls :=
  ⟨pid, .fetch id request, r⟩

abbrev storing (pid : ℕ) (id : String) (u : DeliveryUpdateInput)
    (r : Except PrismaErrorCode WebhookDelivery) : Event calls :=
  ⟨pid, .db (.deliveryUpdate id u), r⟩

/-- The event is a request to the endpoint for the row. -/
def posts (id : String) (ev : Event calls) : Bool :=
  match ev.op with
  | .fetch id' _ => id' = id
  | _ => false

/-- How many requests have been made for the row. -/
def postCount (id : String) (tr : Requests) : ℕ := tr.countP (posts id)

/-- The pass has posted for the attempt, and has not stored the result. -/
def Sent (h : Requests) (a : Attempt) : Prop := current h = some a ∧ posted h = true

/-- The result of a request for the row is not stored. -/
def Outstanding (tr : Requests) (id : String) : Prop :=
  ∃ pid a, Sent (own pid tr) a ∧ a.deliveryId = id

/-- The passes keep apart on a row: a retry posts for it only if no other pass has stored a result
    for it since this one has read it, and no result is outstanding; and a result is stored after
    its request. -/
def apart : Condition calls World := fun c pid op =>
  (∀ id request, op = .fetch id request → ∀ a, current (own pid c.trace) = some a →
    a.queue = .retry → Unstored id pid c.trace ∧ ¬ Outstanding c.trace id) ∧
  ∀ id u, op = .db (.deliveryUpdate id u) → posted (own pid c.trace) = true

/-- A retry posts for a row that is as it was read and has no result outstanding; and a result is
    stored after its request. -/
def claimed : Condition calls World := fun c pid op =>
  (∀ id request, op = .fetch id request → ∀ a, current (own pid c.trace) = some a →
    a.queue = .retry → AsRead c.state.db a ∧ ¬ Outstanding c.trace id) ∧
  ∀ id u, op = .db (.deliveryUpdate id u) → posted (own pid c.trace) = true

/-- Retry passes are safe to overlap. -/
structure RetrySafe (P : Platform) (key : String) (allowed : Condition calls World) : Prop where
  /-- A delivered row stays delivered. -/
  succeeded : ∀ s, WebhookReachable P key allowed s → ∀ m s', s.Meets allowed m →
    s.step machine (workload P key) m = some s' →
      ∀ x ∈ s.config.state.db.webhookDeliveries, x.status = .succeeded →
        ∃ x' ∈ s'.config.state.db.webhookDeliveries, x'.id = x.id ∧ x'.status = .succeeded
  /-- It is not posted again. -/
  unsent : ∀ s, WebhookReachable P key allowed s → ∀ m s', s.Meets allowed m →
    s.step machine (workload P key) m = some s' →
      ∀ pid id request r, s'.config.trace = ⟨pid, .fetch id request, r⟩ :: s.config.trace →
        ∀ x ∈ s.config.state.db.webhookDeliveries, x.id = id → x.status ≠ .succeeded
  /-- The counter of a row is the number of its posts. -/
  counted : ∀ s, WebhookReachable P key allowed s →
    ∀ x ∈ s.config.state.db.webhookDeliveries, x.status ≠ .pending →
      ¬ Outstanding s.config.trace x.id → x.attempt = postCount x.id s.config.trace

theorem postCount_cons (id : String) (ev : Event calls) (tr : Requests) :
    postCount id (ev :: tr) = postCount id tr + if posts id ev then 1 else 0 :=
  List.countP_cons

/-- A row that has not been attempted. -/
def Unattempted (c : Log) (id : String) : Prop :=
  ∃ x ∈ c.state.db.webhookDeliveries,
    x.id = id ∧ x.status = .pending ∧ x.attempt = 1 ∧ postCount id c.trace = 0

/-- The stored row whose result is outstanding. -/
def Awaiting (a : Attempt) (x : WebhookDelivery) : Prop :=
  match a.queue with
  | .dispatch => x.status = .pending ∧ x.attempt = 1 ∧ a.attempt = 1
  | .retry => x.status = .failed ∧ x.attempt + 1 = a.attempt

/-- The counter of a row without an outstanding result. -/
structure Counted (tr : Requests) (x : WebhookDelivery) : Prop where
  pending : x.status = .pending → x.attempt = 1 ∧ postCount x.id tr = 0
  attempt : x.status ≠ .pending → x.attempt = postCount x.id tr

/-- A request whose result is outstanding is the last one for its row. -/
structure Underway (c : Log) (pid : ℕ) (a : Attempt) : Prop where
  positive : 0 < postCount a.deliveryId c.trace
  attempt : a.attempt = postCount a.deliveryId c.trace
  row : ended (own pid c.trace) = false →
    ∃ x ∈ c.state.db.webhookDeliveries, x.id = a.deliveryId ∧ Awaiting a x

/-- No two requests for a row overlap, and the counters agree. -/
structure Alone (c : Log) : Prop where
  rows : ∀ x ∈ c.state.db.webhookDeliveries, ¬ Outstanding c.trace x.id → Counted c.trace x
  underway : ∀ pid a, Sent (own pid c.trace) a → Underway c pid a
  sole : ∀ pid q a b, Sent (own pid c.trace) a → Sent (own q c.trace) b →
    a.deliveryId = b.deliveryId → pid = q
  known : ∀ id, 0 < postCount id c.trace → ∃ x ∈ c.state.db.webhookDeliveries, x.id = id
  /-- A first attempt that has not posted. -/
  first : ∀ pid a, current (own pid c.trace) = some a → posted (own pid c.trace) = false →
    a.queue = .dispatch → Unattempted c a.deliveryId ∧ a.attempt = 1 ∧
      ∃ d row, created pid d row ∈ c.trace ∧ row.id = a.deliveryId
  fresh : ∀ pid q d row h, own pid c.trace = created q d row :: h → Unattempted c row.id

variable {c : Log} {ev : Event calls} {w : World}

theorem Alone.initial (hw : Undelivered w) : Alone ⟨w, []⟩ where
  rows x hx := absurd hx (hw x)
  underway _ _ h := absurd h.1 nofun
  sole _ _ _ _ h := absurd h.1 nofun
  known _ h := absurd h (Nat.lt_irrefl 0)
  first _ _ h := absurd h nofun
  fresh _ _ _ _ _ hown := absurd hown.symm (List.cons_ne_nil _ _)

/-- The rows are the same, and so are the requests for them. -/
theorem Unattempted.mono {id : String} (h : Unattempted c id)
    (hkeep : ∀ x ∈ c.state.db.webhookDeliveries, x.id = id → x ∈ w.db.webhookDeliveries)
    {tr : Requests} (hposts : postCount id tr = postCount id c.trace) :
    Unattempted ⟨w, tr⟩ id := by
  obtain ⟨x, hx, hid, hs, hattempt, h0⟩ := h
  exact ⟨x, hkeep x hx hid, hid, hs, hattempt, hposts.trans h0⟩

theorem Alone.env (h : Alone c) (hw : Untouched c.state w) : Alone { c with state := w } where
  rows x hx := h.rows x ((hw.deliveries x).mp hx)
  underway pid a ha := by
    obtain ⟨hpos, hattempt, hrow⟩ := h.underway pid a ha
    refine ⟨hpos, hattempt, fun he => ?_⟩
    obtain ⟨x, hx, hid⟩ := hrow he
    exact ⟨x, (hw.deliveries x).mpr hx, hid⟩
  sole := h.sole
  known id hpos := by
    obtain ⟨x, hx, hid⟩ := h.known id hpos
    exact ⟨x, (hw.deliveries x).mpr hx, hid⟩
  first pid a ha hp hq := by
    obtain ⟨hnew, hrest⟩ := h.first pid a ha hp hq
    exact ⟨hnew.mono (fun x hx _ => (hw.deliveries x).mpr hx) rfl, hrest⟩
  fresh pid q d row h' hown :=
    (h.fresh pid q d row h' hown).mono (fun x hx _ => (hw.deliveries x).mpr hx) rfl

/-- An event that begins, posts and stores nothing. -/
structure Still (ev : Event calls) : Prop where
  current : ∀ h, current (ev :: h) = current h
  posted : ∀ h, posted (ev :: h) = posted h
  ended : ∀ h, ended (ev :: h) = ended h
  posts : ∀ id, posts id ev = false

theorem Silent.still {ev : Event calls} (h : Silent ev) : Still ev := by
  refine ⟨h.current_eq, h.posted_eq, h.ended_eq, fun id => ?_⟩
  unfold Silent at h
  split at h <;> first | exact h.elim | rfl

theorem postCount_cons_of_not {id : String} (h : posts id ev = false) (tr : Requests) :
    postCount id (ev :: tr) = postCount id tr := by
  rw [postCount_cons, h, if_neg Bool.false_ne_true, Nat.add_zero]

/-- What a pass has in hand after a still event of any pass. -/
theorem Still.own_eq (hev : Still ev) (pid : ℕ) (tr : Requests) :
    Webhooks.current (own pid (ev :: tr)) = Webhooks.current (own pid tr) ∧
      Webhooks.posted (own pid (ev :: tr)) = Webhooks.posted (own pid tr) ∧
      Webhooks.ended (own pid (ev :: tr)) = Webhooks.ended (own pid tr) := by
  by_cases hpid : ev.pid = pid
  · subst hpid
    rw [own_cons_self]
    exact ⟨hev.current _, hev.posted _, hev.ended _⟩
  · rw [own_cons_of_ne hpid]
    exact ⟨rfl, rfl, rfl⟩

/-- A row whose id is not in use has not been posted for. -/
theorem Alone.postCount_eq_zero (h : Alone c) {id : String}
    (hid : ∀ y ∈ c.state.db.webhookDeliveries, y.id ≠ id) : postCount id c.trace = 0 := by
  by_contra hne
  obtain ⟨y, hy, hyid⟩ := h.known id (Nat.pos_of_ne_zero hne)
  exact hid y hy hyid

/-- A still event, perhaps with a new row. -/
theorem Alone.still (h : Alone c) (hev : Still ev)
    (hkeep : ∀ x ∈ c.state.db.webhookDeliveries, x ∈ w.db.webhookDeliveries)
    (hrows : ∀ x ∈ w.db.webhookDeliveries, x ∈ c.state.db.webhookDeliveries ∨
      (x.status = .pending ∧ x.attempt = 1 ∧ ∀ y ∈ c.state.db.webhookDeliveries, y.id ≠ x.id))
    (hnew : ∀ q d row, ev = created q d row → row ∈ w.db.webhookDeliveries ∧
      row.status = .pending ∧ row.attempt = 1 ∧ ∀ y ∈ c.state.db.webhookDeliveries, y.id ≠ row.id) :
    Alone ⟨w, ev :: c.trace⟩ := by
  have hposts : ∀ id, postCount id (ev :: c.trace) = postCount id c.trace :=
    fun id => postCount_cons_of_not (hev.posts id) c.trace
  have hsent : ∀ {pid a}, Sent (own pid (ev :: c.trace)) a → Sent (own pid c.trace) a := by
    rintro pid a ⟨hc, hp⟩
    rw [(hev.own_eq pid _).1] at hc
    rw [(hev.own_eq pid _).2.1] at hp
    exact ⟨hc, hp⟩
  refine ⟨fun x hx hun => ?_, fun pid a ha => ?_, fun pid q a b ha hb hab => ?_, fun id hpos => ?_,
    fun pid a ha hp hq => ?_, fun pid q d row h' hown => ?_⟩
  · rcases hrows x hx with hx | ⟨hs, hattempt, hid⟩
    · have hun₀ : ¬ Outstanding c.trace x.id := by
        rintro ⟨pid, a, ⟨hc, hp⟩, hid⟩
        refine hun ⟨pid, a, ⟨?_, ?_⟩, hid⟩
        · rw [(hev.own_eq pid _).1, hc]
        · rw [(hev.own_eq pid _).2.1, hp]
      obtain ⟨h₁, h₂⟩ := h.rows x hx hun₀
      exact ⟨by rw [hposts]; exact h₁, by rw [hposts]; exact h₂⟩
    · exact ⟨fun _ => ⟨hattempt, by rw [hposts]; exact h.postCount_eq_zero hid⟩,
        fun hne => absurd hs hne⟩
  · obtain ⟨hpos, hattempt, hrow⟩ := h.underway pid a (hsent ha)
    refine ⟨by rw [hposts]; exact hpos, by rw [hposts]; exact hattempt, fun he => ?_⟩
    obtain ⟨x, hx, hid⟩ := hrow ((hev.own_eq pid _).2.2 ▸ he)
    exact ⟨x, hkeep x hx, hid⟩
  · exact h.sole pid q a b (hsent ha) (hsent hb) hab
  · rw [hposts] at hpos
    obtain ⟨x, hx, hid⟩ := h.known id hpos
    exact ⟨x, hkeep x hx, hid⟩
  · rw [(hev.own_eq pid _).1] at ha
    rw [(hev.own_eq pid _).2.1] at hp
    obtain ⟨hun, hattempt, d, row, hmem, hid⟩ := h.first pid a ha hp hq
    exact ⟨hun.mono (fun x hx _ => hkeep x hx) (hposts _), hattempt, d, row,
      List.mem_cons_of_mem ev hmem, hid⟩
  · by_cases hpid : ev.pid = pid
    · subst hpid
      rw [own_cons_self] at hown
      obtain ⟨hrow, hs, hattempt, hid⟩ := hnew q d row (List.cons.inj hown).1
      exact ⟨row, hrow, rfl, hs, hattempt, by rw [hposts]; exact h.postCount_eq_zero hid⟩
    · rw [own_cons_of_ne hpid] at hown
      exact (h.fresh pid q d row h' hown).mono (fun x hx _ => hkeep x hx) (hposts _)

/-- A created row is not the head of a history that another event has just joined. -/
theorem own_cons_ne_created (ev : Event calls) {q : ℕ} {d : DeliveryCreateInput} {row : WebhookDelivery}
    {h tr : Requests} (hop : ev.op ≠ .db (.deliveryCreate d)) :
    own ev.pid (ev :: tr) ≠ created q d row :: h := by
  intro hown
  rw [own_cons_self] at hown
  exact hop (congrArg Event.op (List.cons.inj hown).1)

/-- A pass begins an attempt; a first attempt is for a row that has not been attempted. -/
theorem Alone.begin (h : Alone c) {pid : ℕ} {a : Attempt}
    (idle : current (own pid c.trace) = none)
    (hfirst : a.queue = .dispatch → Unattempted c a.deliveryId ∧ a.attempt = 1 ∧
      ∃ d row, created pid d row ∈ c.trace ∧ row.id = a.deliveryId) :
    Alone ⟨c.state, marked pid (.delivering a) :: c.trace⟩ := by
  have hself : own pid (marked pid (.delivering a) :: c.trace) =
      marked pid (.delivering a) :: own pid c.trace := own_cons_self (marked pid _) c.trace
  have hne : ∀ {q}, q ≠ pid → own q (marked pid (.delivering a) :: c.trace) = own q c.trace :=
    fun hq => own_cons_of_ne (Ne.symm hq) _
  have hposts : ∀ id, postCount id (marked pid (.delivering a) :: c.trace) = postCount id c.trace :=
    fun id => postCount_cons_of_not rfl c.trace
  have hsent : ∀ {q b}, Sent (own q (marked pid (.delivering a) :: c.trace)) b ↔
      Sent (own q c.trace) b := by
    intro q b
    by_cases hq : q = pid
    · subst hq
      rw [hself]
      exact ⟨fun hs => absurd hs.2 nofun, fun hs => absurd (idle.symm.trans hs.1) nofun⟩
    · rw [hne hq]
  refine ⟨fun x hx hun => ?_, fun q b hb => ?_, fun q q' b b' hb hb' hbb => ?_, fun id hpos => ?_,
    fun q b hb hp hq => ?_, fun q q' d row h' hown => ?_⟩
  · have hun₀ : ¬ Outstanding c.trace x.id := fun ⟨q, b, hb, hid⟩ => hun ⟨q, b, hsent.mpr hb, hid⟩
    obtain ⟨h₁, h₂⟩ := h.rows x hx hun₀
    exact ⟨by rw [hposts]; exact h₁, by rw [hposts]; exact h₂⟩
  · have hq : q ≠ pid := by
      rintro rfl
      rw [hself] at hb
      cases hb.2
    obtain ⟨hpos, hattempt, hrow⟩ := h.underway q b (hsent.mp hb)
    exact ⟨by rw [hposts]; exact hpos, by rw [hposts]; exact hattempt, by rw [hne hq]; exact hrow⟩
  · exact h.sole q q' b b' (hsent.mp hb) (hsent.mp hb') hbb
  · rw [hposts] at hpos
    exact h.known id hpos
  · by_cases hpid : q = pid
    · subst hpid
      rw [hself] at hb
      cases hb
      obtain ⟨hun, hattempt, d, row, hmem, hid⟩ := hfirst hq
      exact ⟨hun.mono (fun x hx _ => hx) (hposts _), hattempt, d, row,
        List.mem_cons_of_mem _ hmem, hid⟩
    · rw [hne hpid] at hb hp
      obtain ⟨hun, hattempt, d, row, hmem, hid⟩ := h.first q b hb hp hq
      exact ⟨hun.mono (fun x hx _ => hx) (hposts _), hattempt, d, row,
        List.mem_cons_of_mem _ hmem, hid⟩
  · by_cases hpid : q = pid
    · subst hpid
      exact absurd hown (own_cons_ne_created (marked q (.delivering a)) nofun)
    · rw [hne hpid] at hown
      exact (h.fresh q q' d row h' hown).mono (fun x hx _ => hx) (hposts _)

/-! ## The request of an attempt -/

/-- What the request of an attempt finds. -/
structure PostReady (c : Log) (pid : ℕ) (a : Attempt) : Prop where
  began : current (own pid c.trace) = some a
  row : ∃ x ∈ c.state.db.webhookDeliveries, x.id = a.deliveryId ∧ Awaiting a x
  free : ¬ Outstanding c.trace a.deliveryId
  count : a.attempt = postCount a.deliveryId c.trace + 1
  /-- Only the pass that created the row makes the first request for it. -/
  creator : a.queue = .dispatch → ∀ q d row, created q d row ∈ c.trace → row.id = a.deliveryId →
    q = pid

section Post

variable {pid q : ℕ} {a b : Attempt} {request : FetchRequest} {r : Except (Option String) ℤ}
  {id : String}

theorem postCount_fetched_of_ne (hid : id ≠ a.deliveryId) (tr : Requests) :
    postCount id (fetched pid a.deliveryId request r :: tr) = postCount id tr := by
  rw [postCount_cons, if_neg (by simpa [posts] using Ne.symm hid), Nat.add_zero]

theorem postCount_fetched_self (tr : Requests) :
    postCount a.deliveryId (fetched pid a.deliveryId request r :: tr) =
      postCount a.deliveryId tr + 1 := by
  rw [postCount_cons, if_pos (by simp [posts])]

/-- Whose results are outstanding after the request. -/
theorem PostReady.sent_iff (hr : PostReady c pid a) :
    Sent (own q (fetched pid a.deliveryId request r :: c.trace)) b ↔
      q = pid ∧ b = a ∨ q ≠ pid ∧ Sent (own q c.trace) b := by
  by_cases hq : q = pid
  · subst hq
    rw [own_cons_self (fetched q a.deliveryId request r)]
    constructor
    · exact fun hb => .inl ⟨rfl, Option.some.inj (hb.1.symm.trans hr.began)⟩
    · rintro (⟨-, rfl⟩ | ⟨hne, -⟩)
      · exact ⟨hr.began, rfl⟩
      · exact absurd rfl hne
  · rw [own_cons_of_ne (show (fetched pid a.deliveryId request r).pid ≠ _ from Ne.symm hq)]
    simp [hq]

/-- No other row has a new result outstanding. -/
theorem PostReady.outstanding_of_ne (hr : PostReady c pid a) (hid : id ≠ a.deliveryId)
    (h : Outstanding c.trace id) :
    Outstanding (fetched pid a.deliveryId request r :: c.trace) id := by
  obtain ⟨q, b, hb, rfl⟩ := h
  refine ⟨q, b, hr.sent_iff.mpr (.inr ⟨?_, hb⟩), rfl⟩
  rintro rfl
  exact hid (congrArg Attempt.deliveryId (Option.some.inj (hb.1.symm.trans hr.began)))

/-- Only a pass that created the row could be about to make its first request. -/
theorem PostReady.not_created (hr : PostReady c pid a) (hq : q ≠ pid) (hun : Unattempted c a.deliveryId) :
    ¬ ∃ d row, created q d row ∈ c.trace ∧ row.id = a.deliveryId := by
  rintro ⟨d, row, hmem, hid⟩
  obtain ⟨y, hy, hyid, hpending, -⟩ := hun
  obtain ⟨x, hx, hxid, hawait⟩ := hr.row
  obtain rfl := DeliveryTable.eq_of_id hx hy (hxid.trans hyid.symm)
  cases hqueue : a.queue with
  | dispatch => exact hq (hr.creator hqueue q d row hmem hid)
  | retry =>
    unfold Awaiting at hawait
    rw [hqueue, hpending] at hawait
    cases hawait.1

theorem Alone.post_rows (h : Alone c) (hr : PostReady c pid a) {x : WebhookDelivery}
    (hx : x ∈ c.state.db.webhookDeliveries)
    (hun : ¬ Outstanding (fetched pid a.deliveryId request r :: c.trace) x.id) :
    Counted (fetched pid a.deliveryId request r :: c.trace) x := by
  have hid : x.id ≠ a.deliveryId := fun hid =>
    hun ⟨pid, a, hr.sent_iff.mpr (.inl ⟨rfl, rfl⟩), hid.symm⟩
  obtain ⟨h₁, h₂⟩ := h.rows x hx fun hout => hun (hr.outstanding_of_ne hid hout)
  exact ⟨by rwa [postCount_fetched_of_ne hid], by rwa [postCount_fetched_of_ne hid]⟩

theorem Alone.post_underway (h : Alone c) (hr : PostReady c pid a)
    (hb : Sent (own q (fetched pid a.deliveryId request r :: c.trace)) b) :
    Underway ⟨c.state, fetched pid a.deliveryId request r :: c.trace⟩ q b := by
  rcases hr.sent_iff.mp hb with ⟨rfl, rfl⟩ | ⟨hq, hb⟩
  · refine ⟨?_, ?_, fun _ => hr.row⟩
    · rw [postCount_fetched_self]
      exact Nat.succ_pos _
    · rw [postCount_fetched_self, hr.count]
      push_cast
      rfl
  · have hid : b.deliveryId ≠ a.deliveryId := fun hid => hr.free ⟨q, b, hb, hid⟩
    obtain ⟨hpos, hattempt, hrow⟩ := h.underway q b hb
    refine ⟨?_, ?_, ?_⟩
    · rwa [postCount_fetched_of_ne hid]
    · rwa [postCount_fetched_of_ne hid]
    · rwa [own_cons_of_ne (show (fetched pid a.deliveryId request r).pid ≠ _ from Ne.symm hq)]

theorem Alone.post_first (h : Alone c) (hr : PostReady c pid a)
    (hb : current (own q (fetched pid a.deliveryId request r :: c.trace)) = some b)
    (hp : posted (own q (fetched pid a.deliveryId request r :: c.trace)) = false)
    (hqueue : b.queue = .dispatch) :
    Unattempted ⟨c.state, fetched pid a.deliveryId request r :: c.trace⟩ b.deliveryId ∧
      b.attempt = 1 ∧ ∃ d row, created q d row ∈ fetched pid a.deliveryId request r :: c.trace ∧
        row.id = b.deliveryId := by
  have hq : q ≠ pid := by
    rintro rfl
    rw [own_cons_self (fetched q a.deliveryId request r)] at hp
    cases hp
  rw [own_cons_of_ne (show (fetched pid a.deliveryId request r).pid ≠ _ from Ne.symm hq)] at hb hp
  obtain ⟨hun, hattempt, d, row, hmem, hid⟩ := h.first q b hb hp hqueue
  have hbid : b.deliveryId ≠ a.deliveryId := fun hbid =>
    hr.not_created hq (hbid ▸ hun) ⟨d, row, hmem, hid.trans hbid⟩
  exact ⟨hun.mono (fun _ hx _ => hx) (postCount_fetched_of_ne hbid _), hattempt, d, row,
    List.mem_cons_of_mem _ hmem, hid⟩

theorem Alone.post_fresh (h : Alone c) (hr : PostReady c pid a) {q' : ℕ} {d : DeliveryCreateInput}
    {row : WebhookDelivery} {h' : Requests}
    (hown : own q (fetched pid a.deliveryId request r :: c.trace) = created q' d row :: h') :
    Unattempted ⟨c.state, fetched pid a.deliveryId request r :: c.trace⟩ row.id := by
  have hq : q ≠ pid := by
    rintro rfl
    exact own_cons_ne_created (fetched q a.deliveryId request r) nofun hown
  rw [own_cons_of_ne (show (fetched pid a.deliveryId request r).pid ≠ _ from Ne.symm hq)] at hown
  obtain ⟨hmem, rfl⟩ := mem_own.mp (hown ▸ List.mem_cons_self : created q' d row ∈ own q c.trace)
  have hun := h.fresh q' q' d row h' hown
  have hid : row.id ≠ a.deliveryId := fun hid => hr.not_created hq (hid ▸ hun) ⟨d, row, hmem, hid⟩
  exact hun.mono (fun _ hx _ => hx) (postCount_fetched_of_ne hid _)

/-- The request of an attempt, for a row that waits for it. -/
theorem Alone.post (h : Alone c) (hr : PostReady c pid a) :
    Alone ⟨c.state, fetched pid a.deliveryId request r :: c.trace⟩ where
  rows _ hx hun := h.post_rows hr hx hun
  underway _ _ hb := h.post_underway hr hb
  sole q q' b b' hb hb' hbb := by
    rcases hr.sent_iff.mp hb with ⟨rfl, rfl⟩ | ⟨-, hsent⟩ <;>
      rcases hr.sent_iff.mp hb' with ⟨rfl, rfl⟩ | ⟨-, hsent'⟩
    · rfl
    · exact absurd ⟨q', b', hsent', hbb.symm⟩ hr.free
    · exact absurd ⟨q, b, hsent, hbb⟩ hr.free
    · exact h.sole q q' b b' hsent hsent' hbb
  known id hpos := by
    by_cases hid : id = a.deliveryId
    · obtain ⟨x, hx, hxid, -⟩ := hr.row
      exact ⟨x, hx, hxid.trans hid.symm⟩
    · rw [postCount_fetched_of_ne hid] at hpos
      exact h.known id hpos
  first _ _ hb hp hqueue := h.post_first hr hb hp hqueue
  fresh _ _ _ _ _ hown := h.post_fresh hr hown

end Post

/-! ## The result of an attempt -/

/-- A pass tries to store the result of its request: it learns that it did, or the result stays
    outstanding. -/
structure Concludes (c : Log) (w : World) (pid : ℕ) (a : Attempt) (u : DeliveryUpdateInput)
    (r : Except PrismaErrorCode WebhookDelivery) : Prop where
  sent : Sent (own pid c.trace) a
  back : ∀ y ∈ w.db.webhookDeliveries, y.id ≠ a.deliveryId → y ∈ c.state.db.webhookDeliveries
  keep : ∀ x ∈ c.state.db.webhookDeliveries, x.id ≠ a.deliveryId → x ∈ w.db.webhookDeliveries
  stays : ∀ x ∈ c.state.db.webhookDeliveries, ∃ x' ∈ w.db.webhookDeliveries, x'.id = x.id
  stored : ∀ row, r = .ok row → ended (own pid c.trace) = false ∧
    Outcome (own pid c.trace) a u ∧ ∀ y ∈ w.db.webhookDeliveries, y.id = a.deliveryId →
      ∃ x ∈ c.state.db.webhookDeliveries, y = x.update u

section Store

variable {pid q : ℕ} {a b : Attempt} {u : DeliveryUpdateInput}
  {r : Except PrismaErrorCode WebhookDelivery} {id : String}

theorem postCount_storing (tr : Requests) :
    postCount id (storing pid a.deliveryId u r :: tr) = postCount id tr :=
  postCount_cons_of_not rfl tr

/-- What is outstanding was so before. -/
theorem Concludes.sent_before (hr : Concludes c w pid a u r)
    (hb : Sent (own q (storing pid a.deliveryId u r :: c.trace)) b) : Sent (own q c.trace) b := by
  by_cases hq : q = pid
  · subst hq
    rw [own_cons_self (storing q a.deliveryId u r)] at hb
    cases r with
    | ok row => cases hb.1
    | error code => exact hb
  · rwa [own_cons_of_ne (show (storing pid a.deliveryId u r).pid ≠ _ from Ne.symm hq)] at hb

/-- No result for another row is settled. -/
theorem Concludes.outstanding_of_ne (hr : Concludes c w pid a u r) (hid : id ≠ a.deliveryId)
    (h : Outstanding c.trace id) : Outstanding (storing pid a.deliveryId u r :: c.trace) id := by
  obtain ⟨q, b, hb, rfl⟩ := h
  have hq : q ≠ pid := by
    rintro rfl
    exact hid (congrArg Attempt.deliveryId (Option.some.inj (hb.1.symm.trans hr.sent.1)))
  refine ⟨q, b, ?_, rfl⟩
  rwa [own_cons_of_ne (show (storing pid a.deliveryId u r).pid ≠ _ from Ne.symm hq)]

/-- A row that has not been attempted is another one. -/
theorem Concludes.ne_of_unattempted (hr : Concludes c w pid a u r) (h : Alone c)
    (hun : Unattempted c id) : id ≠ a.deliveryId := by
  rintro rfl
  obtain ⟨x, -, -, -, -, h0⟩ := hun
  have hpos := (h.underway pid a hr.sent).positive
  omega

/-- The counter of the row that the result is stored for. -/
theorem Alone.store_row (h : Alone c) (hr : Concludes c w pid a u r) {y : WebhookDelivery}
    (hy : y ∈ w.db.webhookDeliveries) (hid : y.id = a.deliveryId) {row : WebhookDelivery}
    (hrow : r = .ok row) : Counted (storing pid a.deliveryId u r :: c.trace) y := by
  obtain ⟨unended, outcome, hupdate⟩ := hr.stored row hrow
  obtain ⟨x, hx, rfl⟩ := hupdate y hy hid
  obtain ⟨-, hattempt, hwaits⟩ := h.underway pid a hr.sent
  obtain ⟨x₁, hx₁, hid₁, hawait⟩ := hwaits unended
  obtain rfl := DeliveryTable.eq_of_id hx₁ hx (hid₁.trans hid.symm)
  have hnotPending : u.status ≠ .pending := by
    rcases outcome.status with ⟨hs, -⟩ | ⟨hs, -⟩ | ⟨hs, -⟩ <;> rw [hs] <;> decide
  refine ⟨fun hs => absurd hs hnotPending, fun _ => ?_⟩
  rw [postCount_storing, hid, ← hattempt]
  show u.attempt.getD x₁.attempt = a.attempt
  have hu := outcome.attempt
  unfold Awaiting at hawait
  cases hqueue : a.queue with
  | dispatch =>
    rw [hqueue] at hu hawait
    rw [hu, hawait.2.2]
    exact hawait.2.1
  | retry =>
    rw [hqueue] at hu
    rw [hu]
    rfl

theorem Alone.store_rows (h : Alone c) (hr : Concludes c w pid a u r) {y : WebhookDelivery}
    (hy : y ∈ w.db.webhookDeliveries)
    (hun : ¬ Outstanding (storing pid a.deliveryId u r :: c.trace) y.id) :
    Counted (storing pid a.deliveryId u r :: c.trace) y := by
  by_cases hid : y.id = a.deliveryId
  · cases r with
    | ok row => exact h.store_row hr hy hid rfl
    | error code =>
      refine absurd ⟨pid, a, ?_, hid.symm⟩ hun
      rw [own_cons_self (storing pid a.deliveryId u (.error code))]
      exact hr.sent
  · obtain ⟨h₁, h₂⟩ := h.rows y (hr.back y hy hid) fun hout => hun (hr.outstanding_of_ne hid hout)
    exact ⟨by rwa [postCount_storing], by rwa [postCount_storing]⟩

theorem Alone.store_underway (h : Alone c) (hr : Concludes c w pid a u r)
    (hb : Sent (own q (storing pid a.deliveryId u r :: c.trace)) b) :
    Underway ⟨w, storing pid a.deliveryId u r :: c.trace⟩ q b := by
  have hbefore := hr.sent_before hb
  obtain ⟨hpos, hattempt, hrow⟩ := h.underway q b hbefore
  refine ⟨by rwa [postCount_storing], by rwa [postCount_storing], fun he => ?_⟩
  by_cases hq : q = pid
  · subst hq
    rw [own_cons_self (storing q a.deliveryId u r)] at he
    cases he
  · have hid : b.deliveryId ≠ a.deliveryId := fun hid => hq (h.sole q pid b a hbefore hr.sent hid)
    rw [own_cons_of_ne (show (storing pid a.deliveryId u r).pid ≠ _ from Ne.symm hq)] at he
    obtain ⟨x, hx, hxid, hawait⟩ := hrow he
    exact ⟨x, hr.keep x hx (hxid ▸ hid), hxid, hawait⟩

theorem Alone.store_first (h : Alone c) (hr : Concludes c w pid a u r)
    (hb : current (own q (storing pid a.deliveryId u r :: c.trace)) = some b)
    (hp : posted (own q (storing pid a.deliveryId u r :: c.trace)) = false)
    (hqueue : b.queue = .dispatch) :
    Unattempted ⟨w, storing pid a.deliveryId u r :: c.trace⟩ b.deliveryId ∧ b.attempt = 1 ∧
      ∃ d row, created q d row ∈ storing pid a.deliveryId u r :: c.trace ∧
        row.id = b.deliveryId := by
  have hq : q ≠ pid := by
    rintro rfl
    rw [own_cons_self (storing q a.deliveryId u r)] at hp
    exact absurd (hr.sent.2.symm.trans hp) nofun
  rw [own_cons_of_ne (show (storing pid a.deliveryId u r).pid ≠ _ from Ne.symm hq)] at hb hp
  obtain ⟨hun, hattempt, d, row, hmem, hid⟩ := h.first q b hb hp hqueue
  exact ⟨hun.mono (fun x hx hxid => hr.keep x hx (hxid ▸ hr.ne_of_unattempted h hun))
    (postCount_storing _), hattempt, d, row, List.mem_cons_of_mem _ hmem, hid⟩

theorem Alone.store (h : Alone c) (hr : Concludes c w pid a u r) :
    Alone ⟨w, storing pid a.deliveryId u r :: c.trace⟩ where
  rows _ hy hun := h.store_rows hr hy hun
  underway _ _ hb := h.store_underway hr hb
  sole q q' b b' hb hb' hbb := h.sole q q' b b' (hr.sent_before hb) (hr.sent_before hb') hbb
  known id hpos := by
    rw [postCount_storing] at hpos
    obtain ⟨x, hx, hid⟩ := h.known id hpos
    obtain ⟨x', hx', hid'⟩ := hr.stays x hx
    exact ⟨x', hx', hid'.trans hid⟩
  first _ _ hb hp hqueue := h.store_first hr hb hp hqueue
  fresh q q' d row h' hown := by
    have hq : q ≠ pid := by
      rintro rfl
      exact own_cons_ne_created (storing q a.deliveryId u r) nofun hown
    rw [own_cons_of_ne (show (storing pid a.deliveryId u r).pid ≠ _ from Ne.symm hq)] at hown
    have hun := h.fresh q q' d row h' hown
    exact hun.mono (fun x hx hxid => hr.keep x hx (hxid ▸ hr.ne_of_unattempted h hun))
      (postCount_storing _)

end Store

/-- An update by a pass that has posted, for any reply. -/
theorem Alone.update (h : Alone c) {pid : ℕ} {a : Attempt} {u : DeliveryUpdateInput}
    {r : Except PrismaErrorCode WebhookDelivery} {db : WebhookDb}
    (began : current (own pid c.trace) = some a) (hposted : posted (own pid c.trace) = true)
    (unended : ended (own pid c.trace) = false) (outcome : Outcome (own pid c.trace) a u)
    (effect : Updated c.state.db a.deliveryId u db) :
    Alone ⟨{ c.state with db := db }, storing pid a.deliveryId u r :: c.trace⟩ := by
  refine h.store ⟨⟨began, hposted⟩, fun y hy hid => ?_, fun x hx hid => effect.kept hx hid,
    fun x hx => ?_, fun _ _ => ⟨unended, outcome, fun y hy hid => ?_⟩⟩
  · rcases effect.cases_mem hy with ⟨hy, -⟩ | ⟨x, -, rfl, hxid⟩
    · exact hy
    · exact absurd hxid hid
  · by_cases hid : x.id = a.deliveryId
    · exact ⟨x.update u, (effect.deliveries _).mpr ⟨x, hx, (if_pos hid).symm⟩, rfl⟩
    · exact ⟨x, effect.kept hx hid, rfl⟩
  · rcases effect.cases_mem hy with ⟨-, hne⟩ | ⟨x, hx, rfl, -⟩
    · exact absurd hid hne
    · exact ⟨x, hx, rfl⟩

/-- What a request finds, by the queue of its attempt. -/
theorem Alone.ready (h : Alone c) (hp : Pairs c) {pid : ℕ} {a : Attempt}
    (began : current (own pid c.trace) = some a) (unposted : posted (own pid c.trace) = false)
    (hretry : a.queue = .retry → AsRead c.state.db a ∧ ¬ Outstanding c.trace a.deliveryId) :
    PostReady c pid a := by
  cases hq : a.queue with
  | dispatch =>
    obtain ⟨⟨x, hx, hid, hs, hattempt, h0⟩, hone, d₀, row₀, hmem₀, hid₀⟩ :=
      h.first pid a began unposted hq
    refine ⟨began, ⟨x, hx, hid, ?_⟩, ?_, by omega, fun _ q d row hmem hrow => ?_⟩
    · unfold Awaiting
      rw [hq]
      exact ⟨hs, hattempt, hone⟩
    · rintro ⟨q, b, hb, hbid⟩
      have hpos := (h.underway q b hb).positive
      rw [hbid] at hpos
      omega
    · -- the row has one pair, and one pass created the row of that pair
      obtain ⟨y, hy, hyid, hpair⟩ := hp.stored q d row hmem
      obtain ⟨y₀, hy₀, hyid₀, hpair₀⟩ := hp.stored pid d₀ row₀ hmem₀
      obtain rfl := DeliveryTable.eq_of_id hy hy₀
        ((hyid.trans hrow).trans (hyid₀.trans hid₀).symm)
      exact (hp.sole q d row pid d₀ row₀ hmem hmem₀ (hpair.symm.trans hpair₀)).1
  | retry =>
    obtain ⟨⟨x, hx, hid, hs, hattempt⟩, hfree⟩ := hretry hq
    have hcount := (h.rows x hx (hid ▸ hfree)).attempt (by rw [hs]; decide)
    rw [hid] at hcount
    refine ⟨began, ⟨x, hx, hid, ?_⟩, hfree, by omega, fun hd => absurd (hd.symm.trans hq) nofun⟩
    unfold Awaiting
    rw [hq]
    exact ⟨hs, hattempt⟩

theorem Alone.step (h : Alone c) (hp : Pairs c) (ha : claimed c ev.pid ev.op)
    (hstep : Step c ev w) : Alone ⟨w, ev :: c.trace⟩ := by
  have hquiet : Still ev → (∀ d, ev.op ≠ .db (.deliveryCreate d)) →
      Alone ⟨c.state, ev :: c.trace⟩ :=
    fun hev hne => h.still hev (fun _ hx => hx) (fun _ hx => .inl hx)
      fun q d row heq => absurd (congrArg Event.op heq) (hne d)
  cases hstep with
  | batch fresh => exact hquiet ⟨fun _ => rfl, fun _ => rfl, fun _ => rfl, fun _ => rfl⟩ (by simp)
  | due => exact hquiet ⟨fun _ => rfl, fun _ => rfl, fun _ => rfl, fun _ => rfl⟩ (by simp)
  | fannedOut => exact hquiet ⟨fun _ => rfl, fun _ => rfl, fun _ => rfl, fun _ => rfl⟩ (by simp)
  | notCreated =>
    refine h.still ⟨fun _ => rfl, fun _ => rfl, fun _ => rfl, fun _ => rfl⟩ (fun _ hx => hx)
      (fun _ hx => .inl hx) fun q d row heq => ?_
    cases heq
  | @silent ev hs =>
    refine hquiet hs.still fun d hop => ?_
    obtain ⟨pid, op, r⟩ := ev
    obtain rfl : op = .db (.deliveryCreate d) := hop
    exact hs
  | @created pid d db idle listed pending effect =>
    refine h.still ⟨fun _ => rfl, fun _ => rfl, fun _ => rfl, fun _ => rfl⟩
      (fun x hx => (effect.deliveries x).mpr (.inr hx)) (fun x hx => ?_) fun q d' row heq => ?_
    · rcases (effect.deliveries x).mp hx with rfl | hx
      · exact .inr ⟨pending, rfl, effect.newId⟩
      · exact .inl hx
    · cases heq
      exact ⟨(effect.deliveries _).mpr (.inl rfl), pending, rfl, effect.newId⟩
  | @createLost pid d db idle listed pending effect =>
    refine h.still ⟨fun _ => rfl, fun _ => rfl, fun _ => rfl, fun _ => rfl⟩
      (fun x hx => (effect.deliveries x).mpr (.inr hx)) (fun x hx => ?_) fun q d' row heq => ?_
    · rcases (effect.deliveries x).mp hx with rfl | hx
      · exact .inr ⟨pending, rfl, effect.newId⟩
      · exact .inl hx
    · cases heq
  | @updated pid u row a db began unended outcome effect =>
    exact h.update began (ha.2 _ _ rfl) unended outcome effect
  | @updateLost pid u a db began unended outcome effect =>
    exact h.update began (ha.2 _ _ rfl) unended outcome effect
  | @notUpdated pid u a code began =>
    refine h.store ⟨⟨began, ha.2 _ _ rfl⟩, fun _ hy _ => hy, fun _ hx _ => hx,
      fun x hx => ⟨x, hx, rfl⟩, fun row hr => ?_⟩
    cases hr
  | @delivering pid a idle justified =>
    refine h.begin idle fun hq => ?_
    obtain ⟨hone, q, d, row, h', hown, hid, -, -⟩ := justified.dispatch hq
    obtain ⟨hmem, hpid⟩ := mem_own.mp (hown ▸ List.mem_cons_self : created q d row ∈ own pid c.trace)
    obtain rfl : q = pid := hpid
    exact ⟨hid ▸ h.fresh q q d row h' hown, hone, d, row, hmem, hid⟩
  | @fetch pid a request r began unposted unended =>
    have hr := h.ready hp began unposted (ha.1 _ _ rfl a began)
    exact h.post hr

theorem alone_inv {P : Platform} {key : String} {s : WebhookSystem}
    (hs : WebhookReachable P key claimed s) : Pairs s.config ∧ Alone s.config := by
  refine webhook_invariant (I := fun c => Pairs c ∧ Alone c) (fun w hw => ⟨.initial hw, .initial hw⟩)
    (fun c w h hw => ⟨h.1.env hw, h.2.env hw⟩) (fun c ev w h ha _ hstep => ?_) hs
  exact ⟨h.1.step hstep, h.2.step h.1 ha hstep⟩

/-- A delivered row has no result outstanding that could overwrite it. -/
theorem Awaiting.not_succeeded {a : Attempt} {x : WebhookDelivery} (h : Awaiting a x) :
    x.status ≠ .succeeded := by
  unfold Awaiting at h
  cases hq : a.queue with
  | dispatch =>
    rw [hq] at h
    rw [h.1]
    decide
  | retry =>
    rw [hq] at h
    rw [h.1]
    decide

theorem Alone.kept (h : Alone c) (ha : claimed c ev.pid ev.op) (hstep : Step c ev w)
    {x : WebhookDelivery} (hx : x ∈ c.state.db.webhookDeliveries) (hs : x.status = .succeeded) :
    x ∈ w.db.webhookDeliveries := by
  have hother : ∀ {pid a}, current (own pid c.trace) = some a → posted (own pid c.trace) = true →
      ended (own pid c.trace) = false → x.id ≠ a.deliveryId := by
    intro pid a began hposted unended hid
    obtain ⟨y, hy, hyid, hawait⟩ := (h.underway pid a ⟨began, hposted⟩).row unended
    obtain rfl := DeliveryTable.eq_of_id hy hx (hyid.trans hid.symm)
    exact hawait.not_succeeded hs
  cases hstep with
  | created idle listed pending effect => exact (effect.deliveries x).mpr (.inr hx)
  | createLost idle listed pending effect => exact (effect.deliveries x).mpr (.inr hx)
  | updated began unended outcome effect =>
    exact effect.kept hx (hother began (ha.2 _ _ rfl) unended)
  | updateLost began unended outcome effect =>
    exact effect.kept hx (hother began (ha.2 _ _ rfl) unended)
  | batch => exact hx
  | due => exact hx
  | notCreated => exact hx
  | notUpdated => exact hx
  | delivering => exact hx
  | fannedOut => exact hx
  | fetch => exact hx
  | silent => exact hx

/-- Where rows are as they were read. -/
theorem retrySafe_claimed (P : Platform) (key : String) : RetrySafe P key claimed := by
  refine ⟨fun s hs m s' hm hstep x hx hsucceeded => ?_,
    fun s hs m s' hm hstep pid id request r htrace x hx hid hsucceeded => ?_,
    fun s hs x hx hpending hfree => ?_⟩
  · obtain ⟨-, h⟩ := alone_inv hs
    rcases webhook_step_cases hs hm hstep with heq | ⟨w, hw, heq⟩ | ⟨ev, w, ha, hev, heq⟩
    · exact ⟨x, by rw [heq]; exact hx, rfl, hsucceeded⟩
    · exact ⟨x, by rw [heq]; exact (hw.deliveries x).mpr hx, rfl, hsucceeded⟩
    · exact ⟨x, by rw [heq]; exact h.kept ha hev hx hsucceeded, rfl, hsucceeded⟩
  · obtain ⟨hp, h⟩ := alone_inv hs
    rcases webhook_step_cases hs hm hstep with heq | ⟨w, hw, heq⟩ | ⟨ev, w, ha, hev, heq⟩
    · rw [heq] at htrace
      exact absurd htrace.symm (List.cons_ne_self _ _)
    · rw [heq] at htrace
      exact absurd htrace.symm (List.cons_ne_self _ _)
    · rw [heq] at htrace
      obtain ⟨rfl, -⟩ := List.cons.inj htrace
      cases hev with
      | @fetch pid a request r began unposted unended =>
        obtain ⟨y, hy, hyid, hawait⟩ := (h.ready hp began unposted (ha.1 _ _ rfl a began)).row
        obtain rfl := DeliveryTable.eq_of_id hy hx (hyid.trans hid.symm)
        exact hawait.not_succeeded hsucceeded
      | silent hs => exact hs
  · obtain ⟨-, h⟩ := alone_inv hs
    exact (h.rows x hx hfree).attempt hpending

/-- What the queries of the retries find, and nobody has changed since. -/
theorem apart_claimed {P : Platform} {key : String} {allowed : Condition calls World}
    {s : WebhookSystem} (hs : WebhookReachable P key allowed s) {p : Proc calls Thrown QueueName}
    (hp : p ∈ s.procs) {op : Op} {k : calls.Ret op → Action Unit} (hk : p.prog = .await op k)
    (h : apart s.config p.pid op) : claimed s.config p.pid op := by
  refine ⟨fun id request hop a began hretry => ?_, h.2⟩
  subst hop
  obtain ⟨hunstored, hfree⟩ := h.1 id request rfl a began hretry
  obtain ⟨⟨b, hb, hid⟩, -, unended⟩ := (hs.tracked (workload_obeys P key)).expects hp hk
  obtain rfl := Option.some.inj (hb.symm.trans began)
  subst hid
  exact ⟨finds_failed hs began unended hretry hunstored, hfree⟩

/-- Where no other pass stores a result for a row between the read and the post of a retry, no
    result is outstanding when a retry posts, and results are stored after their requests, passes
    are safe to overlap. -/
theorem retrySafe_of_apart (P : Platform) (key : String) : RetrySafe P key apart := by
  have hreach : ∀ {s}, WebhookReachable P key apart s → WebhookReachable P key claimed s :=
    fun hs => Reachable.refines (fun _ hs _ _ hp _ _ hk => apart_claimed hs hp hk) hs
  have hmeets : ∀ {s} {m : WebhookMove}, WebhookReachable P key apart s → s.Meets apart m → s.Meets claimed m :=
    fun hs => System.Meets.refines fun _ hp _ _ hk => apart_claimed hs hp hk
  obtain ⟨hsucceeded, hunsent, hcounted⟩ := retrySafe_claimed P key
  exact ⟨fun s hs m s' hm => hsucceeded s (hreach hs) m s' (hmeets hs hm),
    fun s hs m s' hm => hunsent s (hreach hs) m s' (hmeets hs hm),
    fun s hs => hcounted s (hreach hs)⟩

/-- The first attempt fails; two retry passes read the row once it is due. -/
def twoRetries : List WebhookMove :=
  failingRun ++ [.env (.clock 100000), .start .retry, .start .retry] ++
  performs 1 [.ok, .ok] ++ performs 2 [.ok, .ok]

/-- One of them delivers; the other one posts, without success. -/
def overlappingRetries : List WebhookMove :=
  twoRetries ++
  performs 1 [.ok, .ok, publicAddress, .ok, .ok, .response (.ok 200), .ok, .ok, .ok] ++
  performs 2 [.ok, .ok, publicAddress, .ok, .ok, .response (.ok 500), .ok, .random (1 / 2), .ok]

/-- The statuses of the stored rows, now and after one more reply to the second pass. -/
def beforeAndAfter (s : WebhookSystem) :
    List WebhookDeliveryStatus × Option (List WebhookDeliveryStatus) :=
  ((rowStatuses s).2,
    (s.step machine (workload samplePlatform sampleKey) (.perform 2 .ok)).map fun s' =>
      (rowStatuses s').2)

set_option maxRecDepth 8000 in
/-- The second pass sets a row that the first one has recorded as `SUCCEEDED` back to `FAILED`. -/
theorem overlap_overwrites : ¬ ∀ P key, RetrySafe P key anything := by
  intro h
  obtain ⟨s, hs, hview⟩ := webhookRun_view samplePlatform sampleKey sampleWorld_undelivered
    overlappingRetries (f := beforeAndAfter) (x := ([.succeeded], some [.failed]))
    (by decide +kernel)
  obtain ⟨hbefore, hafter⟩ := Prod.mk.inj hview
  obtain ⟨s', hstep, hrows⟩ := Option.map_eq_some_iff.mp hafter
  obtain ⟨x, hx, hdelivered⟩ : ∃ x ∈ s.config.state.db.webhookDeliveries.rows,
      x.status = .succeeded := by
    have hmem : WebhookDeliveryStatus.succeeded ∈
        s.config.state.db.webhookDeliveries.rows.map fun d => d.status := by
      rw [show (s.config.state.db.webhookDeliveries.rows.map fun d => d.status) = _ from hbefore]
      exact List.mem_cons_self
    exact List.mem_map.mp hmem
  obtain ⟨x', hx', -, hkept⟩ := (h samplePlatform sampleKey).succeeded s hs _ s'
    (fun _ _ _ _ _ _ _ => trivial) hstep x hx hdelivered
  have hmem : x'.status ∈ s'.config.state.db.webhookDeliveries.rows.map fun d => d.status :=
    List.mem_map.mpr ⟨x', hx', rfl⟩
  rw [show (s'.config.state.db.webhookDeliveries.rows.map fun d => d.status) = _ from hrows,
    hkept] at hmem
  cases List.mem_singleton.mp hmem

/-- No result for the row is outstanding, decided. -/
def nothingOutstanding (tr : Requests) (id : String) : Bool :=
  tr.all fun ev => !posted (own ev.pid tr) ||
    match current (own ev.pid tr) with
    | some a => a.deliveryId ≠ id
    | none => true

theorem not_outstanding {tr : Requests} {id : String} (h : nothingOutstanding tr id = true) :
    ¬ Outstanding tr id := by
  rintro ⟨pid, a, ⟨hc, hp⟩, hid⟩
  obtain ⟨ev, hev⟩ : ∃ ev, ev ∈ own pid tr := by
    refine List.exists_mem_of_ne_nil _ fun hnil => ?_
    rw [hnil] at hc
    cases hc
  obtain ⟨hmem, rfl⟩ := mem_own.mp hev
  have hone := List.all_eq_true.mp h ev hmem
  rw [hp, hc] at hone
  exact of_decide_eq_true hone hid

/-- `apart`, decided. -/
def apartCheck (c : Log) (pid : ℕ) : Op → Bool
  | .fetch id _ =>
    match current (own pid c.trace) with
    | some a => (a.queue != .retry) || decide (Unstored id pid c.trace) &&
      nothingOutstanding c.trace id
    | none => true
  | .db (.deliveryUpdate _ _) => posted (own pid c.trace)
  | _ => true

theorem apart_of_check (c : Log) (pid : ℕ) (op : Op) (h : apartCheck c pid op = true) :
    apart c pid op := by
  constructor
  · rintro id request rfl a ha hq
    simp only [apartCheck, ha, hq, bne_self_eq_false, Bool.false_or, Bool.and_eq_true,
      decide_eq_true_iff] at h
    exact ⟨h.1, not_outstanding h.2⟩
  · rintro id u rfl
    exact h

/-- The passes after one another: the second one has read a row that it then finds delivered. -/
def oneRetry : List WebhookMove :=
  twoRetries ++ performs 1 [.ok, .ok, publicAddress, .ok, .ok, .response (.ok 200), .ok, .ok, .ok]

/-- The counters of the rows, and the requests for the sample row. -/
def counters (s : WebhookSystem) : List (WebhookDeliveryStatus × ℤ) × ℕ × Bool :=
  (s.config.state.db.webhookDeliveries.rows.map fun d => (d.status, d.attempt),
    postCount "whd_1" s.config.trace, nothingOutstanding s.config.trace "whd_1")

set_option maxRecDepth 8000 in
/-- A run that meets the conditions, with a retry that delivers. -/
theorem retrySafe_delivered : ∃ s, WebhookReachable samplePlatform sampleKey apart s ∧
    counters s = ([(.succeeded, 2)], 2, true) ∧ RetrySafe samplePlatform sampleKey apart := by
  obtain ⟨s, hs, hview⟩ := Reachable.viewWhere (M := machine) (W := workload samplePlatform sampleKey)
    apart_of_check sampleWorld_undelivered oneRetry (f := counters)
    (x := ([(.succeeded, 2)], 2, true)) (by decide +kernel)
  exact ⟨s, hs, hview, retrySafe_of_apart samplePlatform sampleKey⟩

end CryptoPay.Webhooks
