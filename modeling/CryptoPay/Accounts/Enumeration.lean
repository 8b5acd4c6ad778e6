import CryptoPay.Accounts.Registration

/-!
# What register and login tell about an account

`register` answers alike whether the email is taken or not, and `login` answers a wrong password
as it answers an unknown email. But `login` looks at the status and at the lock of an account
before it looks at the password, and says so.

Results:
* `Answered.response`: what a request is answered, by what a login meets before the password.
* `told_apart_iff`: two sequences of the same requests are answered alike if and only if their
  logins meet the same barriers.
* `account_told_apart`: a suspension, the lock after five guesses, and a password that the sequence
  itself has registered show whether there was an account.
-/

namespace CryptoPay.Accounts

open Async

open Api (RequestContext)

/-! ## Requests and responses -/

/-- A request of someone who has no session. -/
inductive Attempt where
  | register (input : RegisterInput) (ctx : RequestContext)
  | login (input : LoginInput) (ctx : RequestContext)
  deriving DecidableEq, Repr

def Attempt.job : Attempt → Job
  | .register input ctx => .register input ctx
  | .login input ctx => .login input ctx

/-- The status, and the `code` and `message` of the body; a success has a `status` for its code. -/
structure Response where
  httpStatus : ℕ
  code : String
  message : String
  deriving DecidableEq, Repr

/-- `toApiErrorResponse(toAppError(error))` (app-error.ts, lines 30–92). -/
def errorResponse : Error → Response
  | .validation message => ⟨400, "validation_error", message⟩
  | .unauthorized message => ⟨401, "unauthorized", message⟩
  | .forbidden message => ⟨403, "forbidden", message⟩
  | .notFound message => ⟨404, "not_found", message⟩
  | .conflict message => ⟨409, "conflict", message⟩
  | .rateLimited message => ⟨429, "rate_limited", message⟩
  | .internal message => ⟨500, "internal_error", message⟩
  | .invalidStateTransition message _ _ => ⟨409, "invalid_state_transition", message⟩
  | .prisma _ => ⟨500, "internal_error", "An unexpected error occurred"⟩
  | .rpc => ⟨500, "internal_error", "An unexpected error occurred"⟩

/-- What `AuthController.register` returns (auth.controller.ts, lines 41–44). -/
def registered : Response :=
  ⟨202, "ok", "If this email is not already registered, a verification email has been sent."⟩

/-- The response of `AuthController` (auth.controller.ts, lines 32–59). -/
def Attempt.response : Attempt → Except Error Unit → Response
  | _, .error e => errorResponse e
  | .register .., .ok _ => registered
  | .login .., .ok _ => ⟨200, "ok", ""⟩

/-! ## What a login meets -/

/-- What `login` checks before the password (lines 90–95). -/
inductive Barrier where
  | suspended
  | locked
  deriving DecidableEq, Repr

def User.barrier (user : User) (now : Time) : Option Barrier :=
  if user.status = .suspended then some .suspended
  else if user.lockedUntil.any fun lockedUntil => lockedUntil > now then some .locked
  else none

/-- What the request meets if it reads the clock at `now`. -/
def State.barrier (s : State) (now : Time) : Attempt → Option Barrier
  | .register .. => none
  | .login input _ => (s.db.users.findEmail? input.email).bind fun user => user.barrier now

/-- What a login without the password is told. -/
def refusal : Option Barrier → String
  | none => "Invalid email or password"
  | some .suspended => "Account is suspended"
  | some .locked => "Account temporarily locked due to repeated failed logins"

/-- The response to a request that meets this and does not submit the password. -/
def Attempt.answer : Attempt → Option Barrier → Response
  | .register .., _ => registered
  | .login .., barrier => ⟨401, "unauthorized", refusal barrier⟩

/-- The request is not a login with the password of the account. -/
def Attempt.Wrong (E : Env) (s : State) : Attempt → Prop
  | .register .. => True
  | .login input _ => ∀ user ∈ s.db.users.findEmail? input.email,
    E.argon2Verify user.passwordHash input.password = false

instance (E : Env) (s : State) : DecidablePred (Attempt.Wrong E s) := fun a =>
  match a with
  | .register .. => isTrue trivial
  | .login input _ => inferInstanceAs (Decidable (∀ user ∈ s.db.users.findEmail? input.email,
    E.argon2Verify user.passwordHash input.password = false))

/-- What the clock says when it is read. -/
def clockReading : Event calls → Option Time
  | ⟨_, .session .now, now⟩ => some now
  | _ => none

/-- A generated id or token is one that is stored already. -/
def repeats : Event calls → Bool
  | ⟨_, .db (.userCreate ..), .error .uniqueConstraint⟩ => true
  | ⟨_, .db (.verificationCreate _), .error .uniqueConstraint⟩ => true
  | _ => false

/-- A request, handled from the state `before`; its first reading of the clock is `now`. -/
structure Visit where
  attempt : Attempt
  before : State
  now : Time
  response : Response

/-- The request of a visit runs on its own, and what it generates is new. -/
structure Answered (E : Env) (v : Visit) (s' : State) : Prop where
  run : ∃ pid evs x, Runs E.machine pid (E.launch v.attempt.job) v.before evs x s' ∧
    (∀ now ∈ evs.findSome? clockReading, now = v.now) ∧ (∀ ev ∈ evs, repeats ev = false) ∧
      v.response = v.attempt.response x

/-- Requests one after another. -/
inductive Session (E : Env) : State → List Visit → Prop where
  | nil {s : State} : Session E s []
  | cons {v : Visit} {s' : State} {vs : List Visit} (answered : Answered E v s')
      (rest : Session E s' vs) : Session E v.before (v :: vs)

namespace Env

variable (E : Env)

/-- The rest of `login` once nothing bars it (lines 97–147). -/
def checkPassword (user : User) (input : LoginInput) (ctx : RequestContext) :
    Action Auth.Service.AuthTokens := do
  if ← verifyPassword user.passwordHash input.password then
    if user.emailVerifiedAt = none then
      .throw (.unauthorized "Please verify your email before logging in")
    else
      E.checkTwoFactor user input.totpCode
      E.completeLogin user ctx
  else
    registerFailedLogin user
    .throw (.unauthorized "Invalid email or password")

/-- The rest of `login` once its account is found (lines 90–147). -/
def loginTo (user : User) (input : LoginInput) (ctx : RequestContext) :
    Action Auth.Service.AuthTokens := do
  if user.status = .suspended then .throw (.unauthorized "Account is suspended")
  else if ← locked user then
    .throw (.unauthorized "Account temporarily locked due to repeated failed logins")
  else E.checkPassword user input ctx

end Env

section Answers

variable {E : Env} {pid : ℕ} {s s' : State} {evs : List (Event calls)} {x : Except Error Unit}

theorem drifts_db (h : Drifts E.machine s s') : s'.db = s.db := by
  induction h with
  | refl => rfl
  | tail _ hstep ih =>
    obtain ⟨act, -, hact⟩ := hstep
    cases hact
    exact ih

/-- An insert fails only if what it stores repeats. -/
theorem create_error {now : Time} {id : String} {db db' : Database} {code : PrismaErrorCode}
    {call : AccountCall} (hcall : (∃ email hash, call = .userCreate email hash) ∨
      ∃ d, call = .verificationCreate d) (h : call.exec now id db = (.error code, db')) :
    repeats ⟨pid, .db call, .error code⟩ = true := by
  rcases hcall with ⟨email, hash, rfl⟩ | ⟨d, rfl⟩ <;>
  · simp only [AccountCall.exec] at h
    split at h <;> cases h
    rfl

theorem register_accepted {input : RegisterInput} {ctx : RequestContext}
    (h : Runs E.machine pid (E.register input ctx) s evs x s')
    (hnew : ∀ ev ∈ evs, repeats ev = false) : x = .ok () := by
  obtain ⟨s₁, i, r, s₂, evs₁, -, hr, rfl, h₁⟩ := h.await_inv
  obtain ⟨⟨_, hexec⟩, -⟩ := respond_db hr
  cases r with
  | error code => cases hexec
  | ok existing =>
    cases existing with
    | some user => exact h₁.ret_inv.2.1
    | none =>
      obtain ⟨s₃, _, hash, s₄, evs₂, -, -, rfl, h₂⟩ := h₁.await_inv
      obtain ⟨s₅, _, r, s₆, evs₃, -, hcreate, rfl, h₃⟩ := h₂.await_inv
      obtain ⟨⟨_, hexec⟩, -⟩ := respond_db hcreate
      cases r with
      | error code =>
        have hmem := hnew _ (.tail _ (.tail _ (.head _)))
        rw [create_error (.inl ⟨_, _, rfl⟩) hexec] at hmem
        cases hmem
      | ok user =>
        obtain ⟨s₇, _, raw, s₈, evs₄, -, -, rfl, h₄⟩ := h₃.await_inv
        obtain ⟨s₉, _, now, s₁₀, evs₅, -, -, rfl, h₅⟩ := h₄.await_inv
        obtain ⟨s₁₁, _, r, s₁₂, evs₆, -, hissue, rfl, h₆⟩ := h₅.await_inv
        obtain ⟨⟨_, hexec⟩, -⟩ := respond_db hissue
        cases r with
        | error code =>
          have hmem := hnew _ (.tail _ (.tail _ (.tail _ (.tail _ (.tail _ (.head _))))))
          rw [create_error (.inr ⟨_, rfl⟩) hexec] at hmem
          cases hmem
        | ok row =>
          obtain ⟨s₁₃, _, r, s₁₄, evs₇, -, haudit, rfl, h₇⟩ := h₆.await_inv
          obtain ⟨⟨_, hexec⟩, -⟩ := respond_db haudit
          cases r with
          | error code => cases hexec
          | ok r => exact h₇.ret_inv.2.1

/-- Counting a failure does not fail. -/
theorem registerFailedLogin_returns {user : User} {y : Except Error Unit}
    (h : Runs E.machine pid (registerFailedLogin user) s evs y s') (hu : user ∈ s.db.users) :
    y = .ok () := by
  have hupdate : ∀ {data : UserUpdateInput} {s s' : State} {evs y},
      Runs E.machine pid (prisma (.userUpdate user.id data) >>= fun _ => pure () : Action Unit)
        s evs y s' → user ∈ s.db.users → y = .ok () := by
    intro data s s' evs y h hu
    obtain ⟨s₁, _, r, s₂, evs₁, hd, hr, rfl, hk⟩ := h.await_inv
    obtain ⟨⟨_, hexec⟩, -⟩ := respond_db hr
    cases r with
    | error code =>
      simp only [AccountCall.exec] at hexec
      split at hexec
      · cases hexec
      · rename_i hnone
        rw [drifts_db hd] at hnone
        rw [Data.Table.find?_eq_some_iff.mpr ⟨hu, rfl⟩] at hnone
        cases hnone
    | ok r => exact hk.ret_inv.2.1
  unfold registerFailedLogin at h
  dsimp only at h
  split_ifs at h
  · obtain ⟨s₁, _, now, s₂, evs₁, hd, hr, rfl, hk⟩ := h.await_inv
    refine hupdate hk ?_
    rw [(respond_session hr).2, drifts_db hd]
    exact hu
  · exact hupdate h hu

theorem checkPassword_refused {user : User} {input : LoginInput} {ctx : RequestContext}
    {y : Except Error Auth.Service.AuthTokens}
    (h : Runs E.machine pid (E.checkPassword user input ctx) s evs y s') (hu : user ∈ s.db.users)
    (hwrong : E.argon2Verify user.passwordHash input.password = false) :
    y = .error (.unauthorized "Invalid email or password") := by
  obtain ⟨s₁, j, valid, s₂, evs₁, hd, hr, rfl, h₁⟩ := h.await_inv
  obtain ⟨hvalid, rfl⟩ := respond_verifyPassword (i := j) hr
  rw [hwrong] at hvalid
  subst hvalid
  rcases Runs.bind_inv (p := registerFailedLogin user) h₁ with
    ⟨_, s₃, _, _, -, hcount, hthrow⟩ | ⟨e, -, hcount⟩
  · exact hthrow.throw_inv.2.1
  · cases registerFailedLogin_returns hcount (by rw [drifts_db hd]; exact hu)

/-- What a login meets decides its answer, if the password is wrong. -/
theorem loginTo_refused {user : User} {input : LoginInput} {ctx : RequestContext} {now : Time}
    {y : Except Error Auth.Service.AuthTokens}
    (h : Runs E.machine pid (E.loginTo user input ctx) s evs y s')
    (hclock : ∀ t ∈ evs.findSome? clockReading, t = now) (hu : user ∈ s.db.users)
    (hwrong : E.argon2Verify user.passwordHash input.password = false) :
    ∃ e, y = .error e ∧
      errorResponse e = (Attempt.login input ctx).answer (user.barrier now) := by
  unfold Env.loginTo at h
  unfold User.barrier
  by_cases hsuspended : user.status = .suspended
  · rw [if_pos hsuspended] at h ⊢
    exact ⟨_, h.throw_inv.2.1, rfl⟩
  rw [if_neg hsuspended] at h ⊢
  unfold locked at h
  cases hlock : user.lockedUntil with
  | none =>
    rw [hlock] at h
    exact ⟨_, checkPassword_refused h hu hwrong, rfl⟩
  | some lockedUntil =>
    rw [hlock] at h
    obtain ⟨s₁, _, (t : Time), s₂, evs₁, hd, hr, rfl, h₁⟩ := h.await_inv
    obtain rfl : t = now := hclock t rfl
    have hrest : Runs E.machine pid (if decide (lockedUntil > t) = true
        then (.throw (.unauthorized "Account temporarily locked due to repeated failed logins") :
          Action Auth.Service.AuthTokens)
        else E.checkPassword user input ctx) s₂ evs₁ y s' := h₁
    rw [Option.any_some]
    by_cases hlate : decide (lockedUntil > t) = true
    · rw [if_pos hlate] at hrest ⊢
      exact ⟨_, hrest.throw_inv.2.1, rfl⟩
    · rw [if_neg hlate] at hrest ⊢
      have hu₂ : user ∈ s₂.db.users := by
        rw [(respond_session hr).2, drifts_db hd]
        exact hu
      exact ⟨_, checkPassword_refused hrest hu₂ hwrong, rfl⟩

theorem login_refused {input : LoginInput} {ctx : RequestContext} {now : Time}
    (h : Runs E.machine pid (E.launch (.login input ctx)) s evs x s')
    (hclock : ∀ t ∈ evs.findSome? clockReading, t = now)
    (hwrong : (Attempt.login input ctx).Wrong E s) :
    (Attempt.login input ctx).response x =
      (Attempt.login input ctx).answer (s.barrier now (.login input ctx)) := by
  obtain ⟨s₁, i, r, s₂, evs₁, hd, hr, rfl, hk⟩ := h.await_inv
  obtain ⟨⟨_, hexec⟩, -⟩ := respond_db hr
  cases r with
  | error code => cases hexec
  | ok found =>
    have hdb : s₂.db = s.db := by
      rw [← drifts_db hd]
      exact (congrArg Prod.snd hexec).symm
    have hfound : s.db.users.findEmail? input.email = found := by
      rw [← drifts_db hd]
      exact Except.ok.inj (Prod.mk.inj hexec).1
    unfold State.barrier
    dsimp only
    rw [hfound]
    cases found with
    | none =>
      obtain ⟨-, rfl, -⟩ := hk.throw_inv
      rfl
    | some user =>
      obtain ⟨hu, -⟩ := UserTable.findEmail?_eq_some_iff.mp hfound
      rcases Runs.bind_inv (p := E.loginTo user input ctx) hk with
        ⟨tokens, s₃, evs₂, evs₃, rfl, hlogin, -⟩ | ⟨e, rfl, hlogin⟩
      · have hprefix : ∀ t ∈ evs₂.findSome? clockReading, t = now := by
          intro t ht
          refine hclock t ?_
          show (evs₂ ++ evs₃).findSome? clockReading = some t
          rw [List.findSome?_append, Option.mem_def.mp ht]
          rfl
        obtain ⟨e, he, -⟩ := loginTo_refused hlogin hprefix (by rw [hdb]; exact hu)
          (hwrong user hfound)
        cases he
      · obtain ⟨e', he, hanswer⟩ := loginTo_refused hlogin hclock (by rw [hdb]; exact hu)
          (hwrong user hfound)
        cases he
        exact hanswer

/-- What a request is answered. -/
theorem Answered.response {v : Visit} (h : Answered E v s')
    (hwrong : v.attempt.Wrong E v.before) :
    v.response = v.attempt.answer (v.before.barrier v.now v.attempt) := by
  obtain ⟨pid, evs, x, hrun, hclock, hnew, hresponse⟩ := h.run
  obtain ⟨attempt, before, now, response⟩ := v
  rw [hresponse]
  cases attempt with
  | register input ctx =>
    obtain rfl := register_accepted hrun hnew
    rfl
  | login input ctx => exact login_refused hrun hclock hwrong

end Answers

/-! ## Two sequences -/

/-- Each barrier has its own answer. -/
theorem refusal_injective : Function.Injective refusal := by
  intro b b' h
  rcases b with _ | _ | _ <;> rcases b' with _ | _ | _ <;>
    first | rfl | exact absurd h (by decide)

theorem answer_eq_iff {s t : State} {now now' : Time} (a : Attempt) :
    a.answer (s.barrier now a) = a.answer (t.barrier now' a) ↔ s.barrier now a = t.barrier now' a := by
  cases a with
  | register input ctx => exact iff_of_true rfl rfl
  | login input ctx =>
    refine ⟨fun h => refusal_injective (congrArg Response.message h), fun h => ?_⟩
    rw [h]

theorem Session.responses {E : Env} {s : State} {vs : List Visit} (h : Session E s vs)
    (hwrong : ∀ v ∈ vs, v.attempt.Wrong E v.before) :
    ∀ v ∈ vs, v.response = v.attempt.answer (v.before.barrier v.now v.attempt) := by
  induction h with
  | nil => exact fun v hv => absurd hv List.not_mem_nil
  | cons answered rest ih =>
    intro v hv
    rcases List.mem_cons.mp hv with rfl | hv
    · exact answered.response (hwrong _ List.mem_cons_self)
    · exact ih (fun v hv => hwrong v (List.mem_cons_of_mem _ hv)) v hv

/-- Whatever the two databases hold, the same requests without a right password are answered alike
    if and only if each login meets the same barrier in both. -/
theorem told_apart_iff {E : Env} {s t : State} {vs ws : List Visit} (hvs : Session E s vs)
    (hws : Session E t ws) (hsame : vs.map Visit.attempt = ws.map Visit.attempt)
    (hwrong : ∀ v ∈ vs ++ ws, v.attempt.Wrong E v.before) :
    vs.map Visit.response = ws.map Visit.response ↔
      (vs.map fun v => v.before.barrier v.now v.attempt) =
        ws.map fun v => v.before.barrier v.now v.attempt := by
  have hv := hvs.responses fun v hv => hwrong v (List.mem_append_left _ hv)
  have hw := hws.responses fun v hv => hwrong v (List.mem_append_right _ hv)
  clear hvs hws hwrong
  induction vs generalizing ws with
  | nil =>
    cases ws with
    | nil => exact iff_of_true rfl rfl
    | cons w ws => cases hsame
  | cons v vs ih =>
    cases ws with
    | nil => cases hsame
    | cons w ws =>
      obtain ⟨hattempt, hrest⟩ := List.cons.inj hsame
      have hhead : v.response = w.response ↔
          v.before.barrier v.now v.attempt = w.before.barrier w.now w.attempt := by
        rw [hv v List.mem_cons_self, hw w List.mem_cons_self, ← hattempt]
        exact answer_eq_iff v.attempt
      have htail := ih hrest (fun v hv' => hv v (List.mem_cons_of_mem _ hv'))
        fun w hw' => hw w (List.mem_cons_of_mem _ hw')
      rw [List.map_cons, List.map_cons, List.map_cons, List.map_cons, List.cons.injEq,
        List.cons.injEq]
      exact and_congr hhead htail

/-! ## Runs -/

/-- Handle requests in a row, each with its inputs, after the clock has advanced. -/
def replay (E : Env) (s : State) : List (Attempt × ℕ × List Input) → Option (List Visit)
  | [] => some []
  | (attempt, ms, inputs) :: rest =>
    let now := s.now + ms
    ((E.launch attempt.job).execute E.machine 0
      { s with session := { s.session with now := now } } inputs).bind fun out =>
      if out.1.all fun ev => !repeats ev && (clockReading ev).all (· = now) then
        (replay E out.2.2 rest).map fun visits =>
          ⟨attempt, s, now, attempt.response out.2.1⟩ :: visits
      else none

theorem replay_session {E : Env} {requests : List (Attempt × ℕ × List Input)} {s : State}
    {vs : List Visit} (h : replay E s requests = some vs) : Session E s vs := by
  induction requests generalizing s vs with
  | nil =>
    cases h
    exact .nil
  | cons request rest ih =>
    obtain ⟨attempt, ms, inputs⟩ := request
    obtain ⟨⟨evs, x, s'⟩, hrun, h⟩ := Option.bind_eq_some_iff.mp h
    split_ifs at h with hchecks
    obtain ⟨visits, hrest, rfl⟩ := Option.map_eq_some_iff.mp h
    have hcheck := List.all_eq_true.mp hchecks
    refine .cons (v := ⟨attempt, s, s.now + ms, attempt.response x⟩)
      ⟨⟨0, evs, x, .env ms rfl rfl (.of_execute hrun), fun t ht => ?_, fun ev hev => ?_, rfl⟩⟩
      (ih hrest)
    · obtain ⟨ev, hev, hreads⟩ := List.exists_of_findSome?_eq_some ht
      have hall := (Bool.and_eq_true_iff.mp (hcheck ev hev)).2
      rw [hreads] at hall
      exact of_decide_eq_true hall
    · have hall := (Bool.and_eq_true_iff.mp (hcheck ev hev)).1
      exact (Bool.not_eq_true' _).mp hall

/-- What was requested, what was answered, and whether no right password was submitted. -/
def seen (E : Env) (vs : List Visit) : List (Attempt × Response × Bool) :=
  vs.map fun v => (v.attempt, v.response, decide (v.attempt.Wrong E v.before))

/-- A session that was computed. -/
theorem session_of_seen {E : Env} {s : State} {requests : List (Attempt × ℕ × List Input)}
    {l : List (Attempt × Response × Bool)} (h : (replay E s requests).map (seen E) = some l) :
    ∃ vs, Session E s vs ∧ vs.map Visit.attempt = l.map Prod.fst ∧
      vs.map Visit.response = l.map (fun x => x.2.1) ∧
      ((∀ x ∈ l, x.2.2 = true) → ∀ v ∈ vs, v.attempt.Wrong E v.before) := by
  obtain ⟨vs, hreplay, rfl⟩ := Option.map_eq_some_iff.mp h
  unfold seen
  refine ⟨vs, replay_session hreplay, ?_, ?_, fun hall v hv => ?_⟩
  · rw [List.map_map]
    rfl
  · rw [List.map_map]
    rfl
  · exact of_decide_eq_true (hall _ (List.mem_map_of_mem hv))

/-- A wrong password for Alice's account, a minute after the last request. -/
def wrongPassword (inputs : List String) : Attempt × ℕ × List Input :=
  (.login ⟨"alice@example.com", "letmein1", none⟩ localhost, 60000, inputs.map .text)

/-- The response to it, if nothing bars it. -/
def refused : Attempt × Response × Bool :=
  (.login ⟨"alice@example.com", "letmein1", none⟩ localhost,
    ⟨401, "unauthorized", "Invalid email or password"⟩, true)

/-- Three wrong passwords for an active account, and for an unknown one. -/
theorem told_apart_iff_three : ∃ vs ws, Session sampleEnv (sampleState .active) vs ∧
    Session sampleEnv noAccounts ws ∧ vs.length = 3 ∧
    vs.map Visit.response = ws.map Visit.response ∧
    (vs.map fun v => v.before.barrier v.now v.attempt) =
      ws.map fun v => v.before.barrier v.now v.attempt := by
  have hknown : (replay sampleEnv (sampleState .active)
      (List.replicate 3 (wrongPassword ["", "", ""]))).map (seen sampleEnv) =
        some (List.replicate 3 refused) := by decide
  have hunknown : (replay sampleEnv noAccounts
      (List.replicate 3 (wrongPassword [""]))).map (seen sampleEnv) =
        some (List.replicate 3 refused) := by decide
  obtain ⟨vs, hvs, hattempts, hresponses, hwrong⟩ := session_of_seen hknown
  obtain ⟨ws, hws, hattempts', hresponses', hwrong'⟩ := session_of_seen hunknown
  have htrue : ∀ x ∈ List.replicate 3 refused, x.2.2 = true := by decide
  have hall : ∀ v ∈ vs ++ ws, v.attempt.Wrong sampleEnv v.before := by
    intro v hv
    rcases List.mem_append.mp hv with hv | hv
    · exact hwrong htrue v hv
    · exact hwrong' htrue v hv
  have hsame := hresponses.trans hresponses'.symm
  refine ⟨vs, ws, hvs, hws, ?_, hsame, ?_⟩
  · have hlength := congrArg List.length hattempts
    rwa [List.length_map, List.length_map, List.length_replicate] at hlength
  · exact (told_apart_iff hvs hws (hattempts.trans hattempts'.symm) hall).mp hsame

/-! ## What tells an account apart -/

/-- Some requests, none with the password of an account of the first database, are not answered
    alike. -/
def ToldApart (E : Env) (s t : State) : Prop :=
  ∃ vs ws, Session E s vs ∧ Session E t ws ∧ vs.map Visit.attempt = ws.map Visit.attempt ∧
    (∀ v ∈ vs, v.attempt.Wrong E v.before) ∧ vs.map Visit.response ≠ ws.map Visit.response

theorem toldApart_of_seen {E : Env} {s t : State}
    {requests requests' : List (Attempt × ℕ × List Input)} {l l' : List (Attempt × Response × Bool)}
    (hs : (replay E s requests).map (seen E) = some l)
    (ht : (replay E t requests').map (seen E) = some l')
    (h : l.map Prod.fst = l'.map Prod.fst ∧ (∀ x ∈ l, x.2.2 = true) ∧
      l.map (fun x => x.2.1) ≠ l'.map fun x => x.2.1) : ToldApart E s t := by
  obtain ⟨vs, hvs, hattempts, hresponses, hwrong⟩ := session_of_seen hs
  obtain ⟨ws, hws, hattempts', hresponses', -⟩ := session_of_seen ht
  obtain ⟨hsame, htrue, hne⟩ := h
  refine ⟨vs, ws, hvs, hws, ?_, hwrong htrue, ?_⟩
  · rw [hattempts, hattempts', hsame]
  · rwa [hresponses, hresponses']

/-- Alice's account, with a password that is not `password123`. -/
def strangerState : State :=
  { sampleState .active with
    db := { (sampleState .active).db with
      users := {
        rows := [{ sampleUser .active with passwordHash := "" }]
        nodup := nodup_one _
        uniqueEmail := nodup_one _ } } }

/-- A registration of Alice's email. -/
def registerAlice : Attempt := .register ⟨"alice@example.com", "password123"⟩ localhost

/-- A login with what was registered. -/
def loginAlice : Attempt := .login ⟨"alice@example.com", "password123", none⟩ localhost

/-- A suspended account is told apart by one login, an active one by the lock that six of them
    bring about, and any by a registration and a login with what was registered. -/
theorem account_told_apart :
    ToldApart sampleEnv (sampleState .suspended) noAccounts ∧
    ToldApart sampleEnv (sampleState .active) noAccounts ∧
    ToldApart sampleEnv strangerState noAccounts := by
  refine ⟨?_, ?_, ?_⟩
  · have hs : (replay sampleEnv (sampleState .suspended) [wrongPassword [""]]).map (seen sampleEnv) =
        some [(refused.1, ⟨401, "unauthorized", "Account is suspended"⟩, true)] := by decide
    have ht : (replay sampleEnv noAccounts [wrongPassword [""]]).map (seen sampleEnv) =
        some [refused] := by decide
    exact toldApart_of_seen hs ht (by decide)
  · have hs : (replay sampleEnv (sampleState .active)
        (List.replicate 4 (wrongPassword ["", "", ""]) ++
          [wrongPassword ["", "", "", ""], wrongPassword ["", ""]])).map (seen sampleEnv) =
        some (List.replicate 5 refused ++ [(refused.1, ⟨401, "unauthorized",
          "Account temporarily locked due to repeated failed logins"⟩, true)]) := by
      decide
    have ht : (replay sampleEnv noAccounts (List.replicate 6 (wrongPassword [""]))).map
        (seen sampleEnv) = some (List.replicate 6 refused) := by decide
    exact toldApart_of_seen hs ht (by decide)
  · have hs : (replay sampleEnv strangerState [(registerAlice, 0, [.text ""]),
        (loginAlice, 0, [.text "", .text "", .text ""])]).map (seen sampleEnv) =
        some [(registerAlice, registered, true),
          (loginAlice, ⟨401, "unauthorized", "Invalid email or password"⟩, true)] := by
      decide
    have ht : (replay sampleEnv noAccounts [(registerAlice, 0, [.text "", .text sampleHash,
          .text "usr_1", .text "raw", .text "", .text "ver_1", .text ""]),
        (loginAlice, 0, [.text "", .text ""])]).map (seen sampleEnv) =
        some [(registerAlice, registered, true),
          (loginAlice, ⟨401, "unauthorized", "Please verify your email before logging in"⟩,
            false)] := by
      decide
    exact toldApart_of_seen hs ht (by decide)

end CryptoPay.Accounts
