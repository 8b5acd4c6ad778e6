import CryptoPay.Async.Freshness
import CryptoPay.Webhooks.Steps

/-!
# What a retry pass has read before it posts

A retry pass attempts the rows that its query for `FAILED` ones has returned, each of them once,
and stores the result of an attempt last.

Results:
* `workload_readsDue`: every attempt of a retry pass is for a row that it has read as due, and has
  not stored a result for since.
* `finds_failed`: the row is stored as it was read, if no other pass has stored a result for it
  since.
-/

namespace CryptoPay.Webhooks

open Async

/-- The rows that a reply lists as due. -/
def dueIn : Event calls → List DueDelivery
  | ⟨_, .db (.deliveryFindMany ..), .ok due⟩ => due
  | _ => []

/-- The row that the request stores a result for. -/
def storesFor : Event calls → Option String
  | ⟨_, .db (.deliveryUpdate id _), _⟩ => some id
  | _ => none

/-- The reply lists the row as due. -/
def ListsId (id : String) (ev : Event calls) : Prop := ∃ x ∈ dueIn ev, x.id = id

instance (id : String) : DecidablePred (ListsId id) := fun ev =>
  inferInstanceAs (Decidable (∃ x ∈ dueIn ev, x.id = id))

/-- No other pass has stored a result for the row since the pass `pid` has read it as due. -/
def Unstored (id : String) (pid : ℕ) (tr : Requests) : Prop :=
  Async.Untouched (ListsId id) (fun _ ev => storesFor ev = some id) pid tr

instance (id : String) (pid : ℕ) (tr : Requests) : Decidable (Unstored id pid tr) :=
  inferInstanceAs (Decidable (Async.Untouched _ _ pid tr))

/-- The reply lists the row of the attempt as due, as the attempt found it. -/
def ListsRow (a : Attempt) (ev : Event calls) : Prop :=
  ∃ x ∈ dueIn ev, x.id = a.deliveryId ∧ x.attempt + 1 = a.attempt

/-- The request reads the row as due, or stores a result for it. -/
def TouchesRow (id : String) (ev : Event calls) : Prop := ListsId id ev ∨ storesFor ev = some id

/-- The pass has read the row of the attempt as due, and has not touched it since. -/
def ReadsRow (a : Attempt) : Requests → Prop :=
  Since (ListsRow a) fun _ ev => TouchesRow a.deliveryId ev

/-- The reply lists a row once. -/
def RowsOnce (ev : Event calls) : Prop := ((dueIn ev).map fun x => x.id).Nodup

/-- The query comes before the attempts; and an attempt of a retry pass is read for, as lists name
    a row once. -/
def ReadsDue : Requests → Op → Prop :=
  Prog.Provided RowsOnce fun h op =>
    match op with
    | .db (.deliveryFindMany ..) => current h = none
    | .mark (.delivering a) => a.queue = .retry → ReadsRow a h
    | _ => True

/-- Neither a write, nor the beginning of an attempt for another row. -/
def Op.Attempts (x : DueDelivery) : Op → Prop
  | .db _ => False
  | .mark (.delivering a) => a.deliveryId = x.id ∧ a.attempt = x.attempt + 1
  | _ => True

/-- The result of an attempt for the row is stored. -/
def Op.Stores (x : DueDelivery) (op : Op) : Prop := ∃ u, op = .db (.deliveryUpdate x.id u)

variable {P : Platform} {key : String} {pid : ℕ} {h : Requests} {a : Attempt} {x : DueDelivery}

/-! ## The programs -/

theorem Op.Quiet.attempts {op : Op} (hop : op.Quiet) : op.Attempts x := by
  cases op with
  | mark m =>
    cases m with
    | delivering a => exact hop.elim
    | _ => trivial
  | db call => exact hop.elim
  | _ => trivial

theorem deliverWebhook_only (deliveryId : String) (input : DeliverWebhookInput) :
    (deliverWebhook P deliveryId input).Only Op.Quiet := by
  refine .bind (.perform trivial) fun start => .bind (((assertSafeWebhookUrl_only P input.url).imp
    fun _ hop => hop.checks.quiet).attempt) fun checked => ?_
  cases checked with
  | error e => exact .bind (.perform trivial) fun _ => trivial
  | ok url =>
    exact .bind (.perform trivial) fun _ => .bind (.ofExcept _) fun _ => .bind
      (.bind (.perform trivial) fun _ => trivial) fun _ => .bind (.perform trivial) fun _ =>
        .bind (.perform trivial) fun _ => trivial

theorem retryDelivery_closes (x : DueDelivery) :
    (retryDelivery P key x).Closes (Op.Attempts x) (Op.Stores x) := by
  have hstore : ∀ u, (prisma (.deliveryUpdate x.id u) >>= fun _ => (pure () : Action Unit)).Closes
      (Op.Attempts x) (Op.Stores x) :=
    fun u => .inr ⟨⟨u, rfl⟩, fun r => .bind (.ofExcept _) fun _ => trivial⟩
  refine .bind (.perform ⟨rfl, rfl⟩) fun _ => .bind ((deliverWebhook_only x.id _).imp
    fun _ => Op.Quiet.attempts) fun result => ?_
  unfold recordResult
  split_ifs
  · exact .bind (.perform trivial) fun _ => hstore _
  · refine .bind ?_ fun delayMs => .bind ?_ fun _ => hstore _
    · unfold getRetryDelayMs
      split
      · trivial
      · exact .bind (.perform trivial) fun _ => trivial
    · unfold retryAt
      split
      · trivial
      · exact .bind (.perform trivial) fun _ => trivial

theorem Op.Attempts.touches {op : Op} (hop : op.Attempts x) (r : calls.Ret op) (id : String) :
    ¬ TouchesRow id ⟨pid, op, r⟩ := by
  cases op with
  | db call => exact hop.elim
  | _ => rintro (⟨_, hx, -⟩ | hs) <;> contradiction

theorem retries_readsDue {due : List DueDelivery} {lte : Time} {take : ℕ} :
    (Prog.forEach (retryDelivery P key) due).Obeys ReadsDue pid (fun _ _ => True)
      (fun _ _ => True) (dueRead pid lte take due :: h) := by
  by_cases hdistinct : (due.map fun x => x.id).Nodup
  · refine Prog.Obeys.forEach_since (fun x => x.id) (fun x ev => x ∈ dueIn ev) TouchesRow
      retryDelivery_closes ?_ (fun x op r id hop => hop.touches r id) ?_ ?_
      hdistinct fun x hx => .inl hx
    · rintro x op h hop hread -
      cases op with
      | db call => exact hop.elim
      | mark m =>
        cases m with
        | delivering a =>
          obtain ⟨hid, hattempt⟩ : a.deliveryId = x.id ∧ a.attempt = x.attempt + 1 := hop
          exact fun _ => hread.imp (fun ev hx => ⟨x, hx, hid.symm, hattempt.symm⟩)
            fun _ _ hs => hid ▸ hs
        | _ => trivial
      | _ => trivial
    · rintro x op h ⟨u, rfl⟩ - -
      trivial
    · rintro x op r id ⟨u, rfl⟩ (⟨y, hy, -⟩ | hs)
      · cases hy
      · exact (Option.some.inj hs).symm
  · exact Prog.Obeys.provided_of_not fun hall => hdistinct (hall _ List.mem_cons_self)

theorem runWebhookRetry_readsDue :
    (runWebhookRetry P key).Obeys ReadsDue pid (fun _ _ => True) (fun _ _ => True) [] := by
  refine Prog.obeys_bind.mpr ⟨fun _ => trivial, fun now => Prog.obeys_bind.mpr ?_⟩
  refine Prog.obeys_request.mpr ⟨fun _ => rfl, fun r => ⟨fun (due : List DueDelivery) hr => ?_,
    fun _ _ => trivial⟩⟩
  cases r with
  | error code => cases hr
  | ok reply =>
    cases hr
    exact retries_readsDue

/-- The attempts of a dispatch pass are first ones. -/
theorem runWebhookDispatch_readsDue :
    (runWebhookDispatch P key).Obeys ReadsDue pid (fun _ _ => True) (fun _ _ => True) [] := by
  refine runWebhookDispatch_obeys.imp fun h op _ hE _ => ?_
  cases op with
  | db call =>
    cases call with
    | deliveryFindMany lte take =>
      obtain ⟨hj, -⟩ := hE
      cases hj
    | _ => trivial
  | mark m =>
    cases m with
    | delivering a =>
      intro hretry
      obtain ⟨-, hqueue, -⟩ := hE
      rw [hqueue] at hretry
      cases hretry
    | _ => trivial
  | _ => trivial

theorem workload_readsDue (P : Platform) (key : String) :
    (workload P key).Obeys fun _ => ReadsDue := by
  intro j pid
  cases j with
  | dispatch => exact runWebhookDispatch_readsDue
  | retry => exact runWebhookRetry_readsDue

/-! ## What is found -/

/-- Between the beginning of an attempt and its result, nothing is read or stored. -/
theorem readsRow_of_inOrder (hh : InOrder ReadsDue h)
    (honce : ∀ ev ∈ h, RowsOnce ev) (began : current h = some a)
    (unended : ended h = false) (hretry : a.queue = .retry) : ReadsRow a h := by
  induction h with
  | nil => cases began
  | cons ev h ih =>
    obtain ⟨hev, hh⟩ := hh
    have hrest := fun e he => honce e (List.mem_cons_of_mem ev he)
    have hother : ∀ {e : Event calls}, dueIn e = [] → storesFor e = none →
        ¬ TouchesRow a.deliveryId e := by
      rintro e hdue hstores (⟨x, hx, -⟩ | hs)
      · rw [hdue] at hx
        cases hx
      · rw [hstores] at hs
        cases hs
    obtain ⟨q, op, r⟩ := ev
    cases op with
    | db call =>
      cases call with
      | deliveryUpdate id u => cases unended
      | deliveryFindMany lte take =>
        have hnone : current h = none := hev hrest
        exact absurd (hnone.symm.trans began) nofun
      | _ => exact .inr ⟨hother rfl rfl, ih hh hrest began unended⟩
    | mark m =>
      cases m with
      | delivering a' =>
        cases began
        exact .inr ⟨hother rfl rfl, hev hrest hretry⟩
      | _ => exact .inr ⟨hother rfl rfl, ih hh hrest began unended⟩
    | _ => exact .inr ⟨hother rfl rfl, ih hh hrest began unended⟩

/-- The row is `FAILED`, and was so when the pass read it. -/
def AsRead (db : WebhookDb) (a : Attempt) : Prop :=
  ∃ x ∈ db.webhookDeliveries, x.id = a.deliveryId ∧ x.status = .failed ∧ x.attempt + 1 = a.attempt

section Runs

variable {allowed : Condition calls World} {s : WebhookSystem} {c : Log} {ev : Event calls}
  {w : World}

/-- A row that is listed as due is `FAILED`. -/
theorem ListsRow.asRead (hlists : ListsRow a ev) (hstep : Step c ev w) : AsRead w.db a := by
  obtain ⟨x, hx, hid, hattempt⟩ := hlists
  cases hstep with
  | due =>
    obtain ⟨hmem, hs, -⟩ := mem_due hx
    exact ⟨x.toWebhookDelivery, hmem, hid, hs, hattempt⟩
  | silent hs =>
    unfold Silent at hs
    split at hs <;> first | exact hs.elim | cases hx
  | _ => cases hx

/-- Only a result that is stored for the row changes it. -/
theorem AsRead.step (h : AsRead c.state.db a) (hstep : Step c ev w)
    (hnot : storesFor ev ≠ some a.deliveryId) : AsRead w.db a := by
  obtain ⟨x, hx, hid, hrest⟩ := h
  refine ⟨x, ?_, hid, hrest⟩
  cases hstep with
  | created idle listed pending effect => exact (effect.deliveries x).mpr (.inr hx)
  | createLost idle listed pending effect => exact (effect.deliveries x).mpr (.inr hx)
  | updated began unended outcome effect =>
    exact effect.kept hx fun heq => hnot (congrArg some (heq.symm.trans hid))
  | updateLost began unended outcome effect =>
    exact effect.kept hx fun heq => hnot (congrArg some (heq.symm.trans hid))
  | _ => exact hx

/-- A reply lists a row once. -/
theorem reachable_rowsOnce (hs : WebhookReachable P key allowed s) :
    ∀ ev ∈ s.config.trace, RowsOnce ev := by
  refine webhook_invariant (I := fun c => ∀ ev ∈ c.trace, RowsOnce ev)
    (fun _ _ _ hev => absurd hev List.not_mem_nil) (fun _ _ hI _ => hI)
    (fun c ev w hI _ _ hstep => List.forall_mem_cons.mpr ⟨?_, hI⟩) hs
  cases hstep with
  | due => exact nodup_due _ _ _
  | silent h =>
    unfold Silent at h
    split at h <;> first | exact h.elim | exact List.nodup_nil
  | _ => exact List.nodup_nil

/-- The row of a retry is stored as the pass has read it, if no other pass has stored a result for it
    since. -/
theorem finds_failed (hs : WebhookReachable P key allowed s)
    (began : current (own pid s.config.trace) = some a)
    (unended : ended (own pid s.config.trace) = false) (hretry : a.queue = .retry)
    (hunstored : Unstored a.deliveryId pid s.config.trace) : AsRead s.config.state.db a := by
  obtain ⟨-, hh⟩ := hs.history (workload_readsDue P key) pid
  have hown : ReadsRow a (own pid s.config.trace) :=
    readsRow_of_inOrder hh (fun ev hev => reachable_rowsOnce hs ev (mem_own.mp hev).1) began unended hretry
  have hsince : Since (fun ev => ev.pid = pid ∧ ListsRow a ev)
      (fun _ ev => storesFor ev = some a.deliveryId) s.config.trace :=
    Since.combine (fun _ _ => .inl) (fun _ _ _ => .inr) hown hunstored
  refine Reachable.since (I := fun _ => True) (K := fun c => AsRead c.state.db a)
    (workload_obeys P key) (fun _ _ => trivial) ?_ ?_ ?_ hs hsince
  · rintro c act w - ⟨x, hx, hrest⟩ henv
    exact ⟨x, ((environment_untouched henv).deliveries x).mpr hx, hrest⟩
  · rintro c ev w - hans ⟨-, hlists⟩
    exact hlists.asRead (step_of_answered hans)
  · rintro c ev w - hans hnot h
    exact h.step (step_of_answered hans) hnot

end Runs

end CryptoPay.Webhooks
