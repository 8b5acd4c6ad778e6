import CryptoPay.Accounts.Conduct

/-!
# Suspended accounts

`login` refuses a suspended user, `verifyEmail` and `refresh` do not look at the
status: the first writes `ACTIVE`, the second issues tokens to the user of the
refresh token. `Unspent` is the condition that neither is called with a token of
the user that can still be used.

Results:
* `suspension_blocks`: under `Unspent`, a suspended user stays suspended and is
  issued no token, whatever calls run and however they interleave.
* `suspension_lifted`: without it, `verifyEmail` activates a suspended user, who
  then logs in, and `refresh` issues tokens to one who is still suspended.
-/

namespace CryptoPay.Accounts

open Async

open Api (RequestContext)

/-- The user is stored and suspended. -/
def State.Suspended (a : String) (s : State) : Prop :=
  ∃ u ∈ s.db.users, u.id = a ∧ u.status = .suspended

/-- The request issues an access token or a refresh token to the user. -/
def Op.IssuesTo (a : String) : Op → Prop
  | .session (.sign userId) => userId = a
  | .session (.db (.create d)) => d.userId = a
  | _ => False

/-- No verification token of the user is presented before it is consumed or expired, and no refresh
    token before it is revoked or expired. -/
def Unspent (a : String) : Condition calls State := fun c _ op =>
  match op with
  | .db (.verificationFindUnique hash) => ∀ x ∈ c.state.db.verifications, x.tokenHash = hash →
      x.userId = a → x.consumedAt = none → x.expiresAt < c.state.now
  | .session (.db (.findUnique hash)) => ∀ x ∈ c.state.session.tokens, x.tokenHash = hash →
      x.userId = a → x.revokedAt = none → x.expiresAt < c.state.now
  | _ => True

/-- Past its expiry, now and whenever the clock was read in `h`. -/
def Late (h : Requests) (now expiresAt : Time) : Prop :=
  expiresAt < now ∧ ∀ t, Clocked h t → expiresAt < t

/-- What holds as long as `Unspent` does. -/
structure Blocked (a : String) (c : Config calls State) : Prop where
  suspended : c.state.Suspended a
  looked : ∀ u, Looked c.trace u → u.id = a → u.status = .suspended
  presented : ∀ p x, Presented (own p c.trace) x → x.userId = a → x.consumedAt = none →
    Late (own p c.trace) c.state.now x.expiresAt
  redeemed : ∀ p x, Redeemed (own p c.trace) x → x.userId = a → x.revokedAt = none →
    Late (own p c.trace) c.state.now x.expiresAt
  stored : ∀ row, Stored c.trace row → row.userId ≠ a
  issued : ∀ ev ∈ c.trace, ¬ ev.op.IssuesTo a

/-! ## Reading the requests of one call -/

section Reading

variable {p : ℕ} {tr h : Requests} {ev : Event calls}

theorem Looked.of_own {u : User} (hu : Looked (own p tr) u) : Looked tr u :=
  let ⟨pid, w, hmem⟩ := hu
  ⟨pid, w, (mem_own.mp hmem).1⟩

theorem Stored.of_own {row : Auth.RefreshToken} (hrow : Stored (own p tr) row) : Stored tr row :=
  let ⟨pid, d, hmem⟩ := hrow
  ⟨pid, d, (mem_own.mp hmem).1⟩

/-- A reading of the clock is the newest request or an earlier one. -/
theorem Clocked.inv {t : Time} (ht : Clocked (ev :: h) t) :
    (∃ pid, ev = ⟨pid, .session .now, t⟩) ∨ Clocked h t := by
  obtain ⟨pid, hmem⟩ := ht
  rcases List.mem_cons.mp hmem with heq | hmem
  · exact .inl ⟨pid, heq.symm⟩
  · exact .inr ⟨pid, hmem⟩

theorem Presented.inv {x : EmailVerificationToken} (hx : Presented (ev :: h) x) :
    (∃ pid hash, ev = ⟨pid, .db (.verificationFindUnique hash), .ok (some x)⟩) ∨
      Presented h x := by
  obtain ⟨pid, hash, hmem⟩ := hx
  rcases List.mem_cons.mp hmem with heq | hmem
  · exact .inl ⟨pid, hash, heq.symm⟩
  · exact .inr ⟨pid, hash, hmem⟩

theorem Redeemed.inv {x : Auth.RefreshToken} (hx : Redeemed (ev :: h) x) :
    (∃ pid hash, ev = ⟨pid, .session (.db (.findUnique hash)), .ok (some x)⟩) ∨
      Redeemed h x := by
  obtain ⟨pid, hash, hmem⟩ := hx
  rcases List.mem_cons.mp hmem with heq | hmem
  · exact .inl ⟨pid, hash, heq.symm⟩
  · exact .inr ⟨pid, hash, hmem⟩

end Reading

/-! ## What is expected of a call -/

section Expected

variable {E : Env} {j : Job} {h : Requests} {a : String}

/-- A verification token is looked up by the first request of a call. -/
theorem expected_findVerification {hash : String}
    (he : expected E j h (.db (.verificationFindUnique hash))) : h = [] := by
  cases j with
  | verifyEmail rawToken => exact he
  | _ => exact absurd he id

/-- A refresh token is looked up by the first request of a call. -/
theorem expected_findToken {hash : String}
    (he : expected E j h (.session (.db (.findUnique hash)))) : h = [] := by
  cases j with
  | refresh raw ctx => exact he
  | _ => exact absurd he id

/-- Tokens are issued to a user that a login admitted, or to the one of a refresh token. -/
theorem expected_issues {op : Op} (he : expected E j h op) (hop : op.IssuesTo a) :
    (∃ u, Admitted h u ∧ u.id = a) ∨ (∃ x, Spendable h x ∧ x.userId = a) ∨
      ∃ row, Stored h row ∧ row.userId = a := by
  cases op with
  | session op =>
    cases op with
    | sign userId =>
      obtain rfl : userId = a := hop
      cases j with
      | login input ctx => exact .inl he
      | refresh raw ctx => exact .inr (.inr he)
      | _ => exact absurd he id
    | db call =>
      cases call with
      | create d =>
        obtain rfl : d.userId = a := hop
        cases j with
        | login input ctx => exact .inl he
        | refresh raw ctx => exact .inr (.inl he)
        | _ => exact absurd he id
      | _ => exact absurd hop id
    | _ => exact absurd hop id
  | _ => exact absurd hop id

/-- The status of a user is written after a login admitted it or a token of it was accepted. -/
theorem expected_status {call : AccountCall} (he : expected E j h (.db call)) (u : User) :
    (call.onUser u).status = u.status ∨ (∃ v, Admitted h v ∧ v.id = u.id) ∨
      ∃ x, Presented h x ∧ x.userId = u.id ∧ x.consumedAt = none ∧
        ∃ now, Clocked h now ∧ now ≤ x.expiresAt := by
  cases call with
  | userUpdate target data =>
    by_cases hid : u.id = target
    · have hon : (AccountCall.userUpdate target data).onUser u = u.updated data := updatedIf_of_eq hid
      cases j with
      | login input ctx =>
        obtain ⟨v, hv, hvid, -⟩ := he
        exact .inr (.inl ⟨v, hv, hvid.trans hid.symm⟩)
      | enableTwoFactor userId =>
        obtain ⟨-, -, encrypted, rfl⟩ := he
        exact .inl (by rw [hon]; rfl)
      | confirmTwoFactor userId code =>
        obtain ⟨-, rfl, -⟩ := he
        exact .inl (by rw [hon]; rfl)
      | _ => exact absurd he id
    · exact .inl (congrArg User.status (updatedIf_of_ne hid))
  | consume tokenId at_ userId data =>
    by_cases hid : u.id = userId
    · cases j with
      | verifyEmail rawToken =>
        obtain ⟨⟨x, hx, -, hxu, hnew, hnow⟩, -⟩ := he
        exact .inr (.inr ⟨x, hx, hxu.trans hid.symm, hnew, hnow⟩)
      | _ => exact absurd he id
    · exact .inl (congrArg User.status (updatedIf_of_ne hid))
  | _ => exact .inl rfl

end Expected

/-! ## One request -/

section Late

variable {E : Env} {c : Config calls State} {ev : Event calls} {state : State} {i : Input}
  (hr : E.respond c.state ev.op i = some (ev.ret, state))

include hr

/-- What was late stays late: the clock does not turn, and it is read at the current time. -/
theorem late_cons {h : Requests} {expiresAt : Time} (hl : Late h c.state.now expiresAt) :
    Late (ev :: h) state.now expiresAt := by
  refine ⟨by rw [respond_now hr]; exact hl.1, fun t ht => ?_⟩
  rcases ht.inv with ⟨pid, rfl⟩ | ht
  · obtain ⟨⟨k, hk⟩, -⟩ := respond_session hr
    obtain rfl : t = c.state.now := (Auth.respond_now hk).1
    exact hl.1
  · exact hl.2 t ht

theorem late_own {p : ℕ} {expiresAt : Time} (hl : Late (own p c.trace) c.state.now expiresAt) :
    Late (own p (ev :: c.trace)) state.now expiresAt := by
  by_cases hp : ev.pid = p
  · subst hp
    rw [own_cons_self]
    exact late_cons hr hl
  · rw [own_cons_of_ne hp]
    rw [respond_now hr]
    exact hl

end Late

/-- The clock only advances. -/
theorem Late.forward {h : Requests} {now expiresAt : Time} (hl : Late h now expiresAt) (act : ℕ) :
    Late h (now + act) expiresAt :=
  ⟨Int.lt_of_lt_of_le hl.1 (Int.le_add_of_nonneg_right (Int.natCast_nonneg act)), hl.2⟩

section Step

variable {E : Env} {a : String} {c : Config calls State} {ev : Event calls} {state : State}

theorem Blocked.not_admitted (hc : Blocked a c) {p : ℕ} {u : User}
    (hu : Admitted (own p c.trace) u) : u.id ≠ a := fun hid =>
  hu.status (hc.looked u hu.looked.of_own hid)

theorem Blocked.not_presented (hc : Blocked a c) {p : ℕ} {x : EmailVerificationToken} {now : Time}
    (hx : Presented (own p c.trace) x) (hnew : x.consumedAt = none)
    (hnow : Clocked (own p c.trace) now) (hle : now ≤ x.expiresAt) : x.userId ≠ a := fun hxu =>
  Int.not_lt.mpr hle ((hc.presented p x hx hxu hnew).2 now hnow)

theorem Blocked.not_spendable (hc : Blocked a c) {p : ℕ} {x : Auth.RefreshToken}
    (hx : Spendable (own p c.trace) x) : x.userId ≠ a := fun hxu => by
  obtain ⟨hx, hnew, now, hnow, hle⟩ := hx
  exact Int.not_lt.mpr hle ((hc.redeemed p x hx hxu hnew).2 now hnow)

variable (hc : Blocked a c) (ha : Answered E.machine (Unspent a) (expected E) c ev state)

include hc ha

theorem not_issued : ¬ ev.op.IssuesTo a := by
  intro hop
  obtain ⟨j, he, -⟩ := ha.expected
  rcases expected_issues he hop with ⟨u, hu, hid⟩ | ⟨x, hx, hxu⟩ | ⟨row, hrow, hru⟩
  · exact hc.not_admitted hu hid
  · exact hc.not_spendable hx hxu
  · exact hc.stored row hrow.of_own hru

theorem suspended_kept : state.Suspended a := by
  obtain ⟨u, hu, hid, hstatus⟩ := hc.suspended
  obtain ⟨i, hr⟩ := ha.reply
  obtain ⟨j, he, -⟩ := ha.expected
  obtain ⟨v, hv, rfl | ⟨p, call, r, rfl, rfl⟩⟩ := users_before hr hu
  · exact ⟨v, hv, hid, hstatus⟩
  · refine ⟨_, hv, by simpa using hid, ?_⟩
    rcases expected_status he u with hkept | ⟨v, hv, hvid⟩ | ⟨x, hx, hxu, hnew, now, hnow, hle⟩
    · rw [hkept, hstatus]
    · exact absurd (hvid.trans hid) (hc.not_admitted hv)
    · exact absurd (hxu.trans hid) (hc.not_presented hx hnew hnow hle)

theorem looked_suspended (v : User) (hv : Looked (ev :: c.trace) v) (hvid : v.id = a) :
    v.status = .suspended := by
  obtain ⟨pid, w, hmem⟩ := hv
  rcases List.mem_cons.mp hmem with rfl | hmem
  · obtain ⟨u, hu, hid, hstatus⟩ := hc.suspended
    obtain ⟨i, hr⟩ := ha.reply
    obtain ⟨⟨cuid, hexec⟩, -⟩ := respond_db hr
    have hstored := (((exec_findUser hexec).2 v).mp rfl).1
    rw [UserTable.eq_of_id hstored hu (hvid.trans hid.symm)]
    exact hstatus
  · exact hc.looked v ⟨pid, w, hmem⟩ hvid

theorem presented_late (p : ℕ) (x : EmailVerificationToken)
    (hx : Presented (own p (ev :: c.trace)) x) (hxu : x.userId = a) (hnew : x.consumedAt = none) :
    Late (own p (ev :: c.trace)) state.now x.expiresAt := by
  have hold : Presented (own p c.trace) x → Late (own p (ev :: c.trace)) state.now x.expiresAt :=
    fun hx => let ⟨_, hr⟩ := ha.reply; late_own hr (hc.presented p x hx hxu hnew)
  by_cases hp : ev.pid = p
  · subst hp
    rw [own_cons_self] at hx
    rcases hx.inv with ⟨pid, hash, rfl⟩ | hx
    · -- the lookup itself: it is the first request of the call, and the condition speaks of it
      obtain ⟨i, hr⟩ := ha.reply
      obtain ⟨j, he, -⟩ := ha.expected
      obtain ⟨⟨cuid, hexec⟩, hsession⟩ := respond_db hr
      obtain ⟨hmem, hhash⟩ := exec_findVerification hexec
      have hlate : x.expiresAt < c.state.now := ha.allowed x hmem hhash hxu hnew
      rw [own_cons_self, expected_findVerification he]
      refine ⟨by rw [State.now, hsession]; exact hlate, fun t ht => ?_⟩
      rcases ht.inv with ⟨q, heq⟩ | ⟨q, ht⟩
      · cases heq
      · exact absurd ht List.not_mem_nil
    · exact hold hx
  · rw [own_cons_of_ne hp] at hx
    exact hold hx

theorem redeemed_late (p : ℕ) (x : Auth.RefreshToken) (hx : Redeemed (own p (ev :: c.trace)) x)
    (hxu : x.userId = a) (hnew : x.revokedAt = none) :
    Late (own p (ev :: c.trace)) state.now x.expiresAt := by
  have hold : Redeemed (own p c.trace) x → Late (own p (ev :: c.trace)) state.now x.expiresAt :=
    fun hx => let ⟨_, hr⟩ := ha.reply; late_own hr (hc.redeemed p x hx hxu hnew)
  by_cases hp : ev.pid = p
  · subst hp
    rw [own_cons_self] at hx
    rcases hx.inv with ⟨pid, hash, rfl⟩ | hx
    · obtain ⟨i, hr⟩ := ha.reply
      obtain ⟨j, he, -⟩ := ha.expected
      obtain ⟨⟨k, hk⟩, -⟩ := respond_session hr
      obtain ⟨hexec, hsame⟩ := Auth.respond_db hk
      obtain ⟨hmem, hhash⟩ := ((Auth.exec_findUnique hexec).2 x).mp rfl
      have hlate : x.expiresAt < c.state.now := ha.allowed x hmem hhash hxu hnew
      rw [own_cons_self, expected_findToken he]
      refine ⟨by rw [State.now, hsame]; exact hlate, fun t ht => ?_⟩
      rcases ht.inv with ⟨q, heq⟩ | ⟨q, ht⟩
      · cases heq
      · exact absurd ht List.not_mem_nil
    · exact hold hx
  · rw [own_cons_of_ne hp] at hx
    exact hold hx

theorem stored_other (row : Auth.RefreshToken) (hrow : Stored (ev :: c.trace) row) :
    row.userId ≠ a := by
  obtain ⟨pid, d, hmem⟩ := hrow
  rcases List.mem_cons.mp hmem with rfl | hmem
  · obtain ⟨i, hr⟩ := ha.reply
    obtain ⟨⟨k, hk⟩, -⟩ := respond_session hr
    rw [(Auth.exec_create_ok (Auth.respond_db hk).1).row_eq]
    exact not_issued hc ha
  · exact hc.stored row ⟨pid, d, hmem⟩

theorem Blocked.step : Blocked a ⟨state, ev :: c.trace⟩ where
  suspended := suspended_kept hc ha
  looked := looked_suspended hc ha
  presented := presented_late hc ha
  redeemed := redeemed_late hc ha
  stored := stored_other hc ha
  issued := List.forall_mem_cons.mpr ⟨not_issued hc ha, hc.issued⟩

end Step

theorem Blocked.start {a : String} {s : State} (h : s.Suspended a) : Blocked a ⟨s, []⟩ where
  suspended := h
  looked := fun _ ⟨_, _, hmem⟩ => absurd hmem List.not_mem_nil
  presented := fun _ _ ⟨_, _, hmem⟩ => absurd hmem List.not_mem_nil
  redeemed := fun _ _ ⟨_, _, hmem⟩ => absurd hmem List.not_mem_nil
  stored := fun _ ⟨_, _, hmem⟩ => absurd hmem List.not_mem_nil
  issued := fun _ hmem => absurd hmem List.not_mem_nil

theorem Blocked.env {E : Env} {a : String} {c : Config calls State} {act : ℕ} {state : State}
    (hc : Blocked a c) (h : E.machine.env c.state act = some state) :
    Blocked a { c with state := state } := by
  cases h
  exact ⟨hc.suspended, hc.looked,
    fun p x hx hxu hnew => (hc.presented p x hx hxu hnew).forward act,
    fun p x hx hxu hnew => (hc.redeemed p x hx hxu hnew).forward act, hc.stored, hc.issued⟩

/-- A suspended user stays suspended and is issued no token, as long as no token of it that can
    still be used is presented. -/
theorem suspension_blocks {E : Env} {a : String} {s : System calls Error Job State}
    (hs : Reachable E.machine E.work (State.Suspended a) (Unspent a) s) :
    s.config.state.Suspended a ∧ ∀ ev ∈ s.config.trace, ¬ ev.op.IssuesTo a := by
  have hblocked : Blocked a s.config := hs.invariant (work_obeys E) (fun _ => Blocked.start)
    (fun _ _ _ hc => hc.env) fun _ _ _ hc => hc.step
  exact ⟨hblocked.suspended, hblocked.issued⟩

/-! ## Runs -/

/-- `Unspent`, computed. -/
def unspent (a : String) (c : Config calls State) (_ : ℕ) (op : Op) : Bool :=
  match op with
  | .db (.verificationFindUnique hash) => c.state.db.verifications.rows.all fun x =>
      x.tokenHash ≠ hash || x.userId ≠ a || x.consumedAt ≠ none || x.expiresAt < c.state.now
  | .session (.db (.findUnique hash)) => c.state.session.tokens.rows.all fun x =>
      x.tokenHash ≠ hash || x.userId ≠ a || x.revokedAt ≠ none || x.expiresAt < c.state.now
  | _ => true

theorem unspent_of_check {a : String} {c : Config calls State} {pid : ℕ} {op : Op}
    (h : unspent a c pid op = true) : Unspent a c pid op := by
  cases op with
  | db call =>
    cases call with
    | verificationFindUnique hash =>
      intro x hx hhash hxu hnew
      have hall := List.all_eq_true.mp h x hx
      simpa [hhash, hxu, hnew] using hall
    | _ => trivial
  | session op =>
    cases op with
    | db call =>
      cases call with
      | findUnique hash =>
        intro x hx hhash hxu hnew
        have hall := List.all_eq_true.mp h x hx
        simpa [hhash, hxu, hnew] using hall
      | _ => trivial
    | _ => trivial
  | _ => trivial

/-- The user of the sample runs. -/
def alice : LoginInput := ⟨"alice@example.com", "password123", none⟩

/-- The context of the sample runs. -/
def localhost : RequestContext := ⟨"127.0.0.1", none⟩

/-- Answer the next requests of a process with these texts. -/
def answers (pid : ℕ) (texts : List String) : List (Move Job Input ℕ) :=
  texts.map fun s => .perform pid (.text s)

/-- A login with the right password, and the two tokens when their day is over. -/
def blockedRun : List (Move Job Input ℕ) :=
  [.start (.login alice localhost)] ++ answers 0 [""] ++
    [.env 86400001, .start (.verifyEmail "verify")] ++ answers 1 ["", ""] ++
    [.start (.refresh "refresh" localhost)] ++ answers 2 ["", "", "", ""]

/-- The outstanding verification token, then a login. -/
def activatedRun : List (Move Job Input ℕ) :=
  [.start (.verifyEmail "verify")] ++ answers 0 ["", "", "", "", ""] ++
    [.start (.login alice localhost)] ++
    answers 1 ["", "", "", "", "jwt", "second", "fam", "", "rt_2", "log"]

/-- The outstanding refresh token. -/
def refreshedRun : List (Move Job Input ℕ) :=
  [.start (.refresh "refresh" localhost)] ++
    answers 0 ["", "", "second", "", "rt_2", "", "", "jwt"]

/-- Whether every call has ended, the users with their status, and the requests that name the
    sample user in a signature. -/
def statuses (s : System calls Error Job State) : Bool × List (String × UserStatus) × Bool :=
  (s.quiet, s.config.state.db.users.rows.map fun u => (u.id, u.status),
    (s.config.trace.map Event.op).contains (.session (.sign "usr_1")))

theorem sampleState_suspended : (sampleState .suspended).Suspended "usr_1" :=
  ⟨sampleUser .suspended, List.mem_singleton_self _, rfl, rfl⟩

/-- What `statuses` says of the only user. -/
theorem suspended_iff {s : State} {a : String} {status : UserStatus}
    (h : (s.db.users.rows.map fun u => (u.id, u.status)) = [(a, status)]) :
    s.Suspended a ↔ status = .suspended := by
  obtain ⟨u, rows, hrows, hu, hnil⟩ := List.map_eq_cons_iff.mp h
  obtain rfl := List.map_eq_nil_iff.mp hnil
  obtain ⟨hid, hstatus⟩ := Prod.mk.inj hu
  constructor
  · rintro ⟨v, hv, -, hv'⟩
    rw [UserTable.mem_def, hrows] at hv
    rw [← hstatus, ← List.mem_singleton.mp hv, hv']
  · intro h
    refine ⟨u, ?_, hid, hstatus.trans h⟩
    rw [UserTable.mem_def, hrows]
    exact List.mem_singleton_self u

theorem issued_of_contains {tr : Requests} {a : String}
    (h : (tr.map Event.op).contains (.session (.sign a)) = true) :
    ∃ ev ∈ tr, ev.op.IssuesTo a := by
  obtain ⟨ev, hev, hop⟩ := List.mem_map.mp (List.contains_iff_mem.mp h)
  exact ⟨ev, hev, by rw [hop]; rfl⟩

theorem suspension_blocks_alice : ∃ s, Reachable sampleEnv.machine sampleEnv.work
    (State.Suspended "usr_1") (Unspent "usr_1") s ∧
    statuses s = (true, [("usr_1", .suspended)], false) ∧
    s.config.state.Suspended "usr_1" ∧ ∀ ev ∈ s.config.trace, ¬ ev.op.IssuesTo "usr_1" := by
  obtain ⟨s, hs, hview⟩ := Reachable.viewWhere (M := sampleEnv.machine) (W := sampleEnv.work)
    (fun c pid op => @unspent_of_check "usr_1" c pid op) sampleState_suspended blockedRun
    (f := statuses) (x := (true, [("usr_1", .suspended)], false)) (by decide)
  exact ⟨s, hs, hview, suspension_blocks hs⟩

/-- A suspended user who verifies an email is active and logs in; one who refreshes a session is
    issued tokens. -/
theorem suspension_lifted :
    (∃ s, Reachable sampleEnv.machine sampleEnv.work (State.Suspended "usr_1") anything s ∧
      ¬ s.config.state.Suspended "usr_1" ∧ ∃ ev ∈ s.config.trace, ev.op.IssuesTo "usr_1") ∧
    ∃ s, Reachable sampleEnv.machine sampleEnv.work (State.Suspended "usr_1") anything s ∧
      s.config.state.Suspended "usr_1" ∧ ∃ ev ∈ s.config.trace, ev.op.IssuesTo "usr_1" := by
  constructor
  · obtain ⟨s, hs, hview⟩ := Reachable.view (M := sampleEnv.machine) (W := sampleEnv.work)
      sampleState_suspended activatedRun (f := statuses) (x := (true, [("usr_1", .active)], true))
      (by decide)
    obtain ⟨-, hview⟩ := Prod.mk.inj hview
    obtain ⟨hstatus, hsigned⟩ := Prod.mk.inj hview
    exact ⟨s, hs, fun hsusp => absurd ((suspended_iff hstatus).mp hsusp) (by decide),
      issued_of_contains hsigned⟩
  · obtain ⟨s, hs, hview⟩ := Reachable.view (M := sampleEnv.machine) (W := sampleEnv.work)
      sampleState_suspended refreshedRun (f := statuses)
      (x := (true, [("usr_1", .suspended)], true)) (by decide)
    obtain ⟨-, hview⟩ := Prod.mk.inj hview
    obtain ⟨hstatus, hsigned⟩ := Prod.mk.inj hview
    exact ⟨s, hs, (suspended_iff hstatus).mpr rfl, issued_of_contains hsigned⟩

end CryptoPay.Accounts
