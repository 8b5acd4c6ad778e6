import CryptoPay.Accounts.AuthService
import CryptoPay.Api.Schemas
import CryptoPay.Async.Timed
import CryptoPay.Shared.Redis
import Mathlib.Data.List.Perm.Subperm

/-!
# Rate limits

`RedisRateLimitGuard` of `redis-rate-limit.guard.ts`, with `loginSchema` of
`packages/validation/src/auth.schemas.ts`. The guard counts requests under a key
that holds the URL as it was sent and, for a login, the email in lower case. A
handler is reached by many URLs, and `loginSchema` maps many spellings to one
account.

Results:
* `rate_limit_bounds`: of the requests of a client to a category (for `login`, to
  one account), at most the limit pass in one window, if all of them have the
  same URL and, for `login`, the same email in lower case.
* `rate_limit_evaded`: two invoices, or one account in two spellings, have a
  limit each.
-/

namespace CryptoPay.Api

open Async
open Accounts (LoginInput)

/-! ## Requests -/

/-- A field of a JSON body: `undefined`, a string, or something else. -/
inductive Field where
  | absent
  | text (s : String)
  | other
  deriving DecidableEq, Repr

def Field.string : Field → Option String
  | .text s => some s
  | _ => none

/-- The fields of an object body that the guard or `loginSchema` reads. -/
structure RequestBody where
  email : Field
  password : Field
  totpCode : Field
  deriving DecidableEq, Repr

/-- `FastifyRequest`: `url` is the URL as it was sent, with its query string. -/
structure FastifyRequest where
  url : String
  ip : String
  body : Option RequestBody
  deriving DecidableEq, Repr

/-- `RateLimitCategory` (rate-limit.decorator.ts, line 4). -/
inductive RateLimitCategory where
  | login
  | global
  | checkout
  deriving DecidableEq, Repr

def RateLimitCategory.toString : RateLimitCategory → String
  | .login => "login"
  | .global => "global"
  | .checkout => "checkout"

/-- The handlers behind the guard (auth.controller.ts, checkout.controller.ts). -/
inductive Handler where
  | register
  | login
  | getCheckout
  | simulatePayment
  deriving DecidableEq, Repr

/-- `@RateLimit` of the handler. -/
def Handler.metadata : Handler → Option RateLimitCategory
  | .register => some .global
  | .login => some .login
  | .getCheckout => none
  | .simulatePayment => none

/-- `@RateLimit` of the handler's class. -/
def Handler.classMetadata : Handler → Option RateLimitCategory
  | .getCheckout => some .checkout
  | .simulatePayment => some .checkout
  | _ => none

structure ExecutionContext where
  handler : Handler
  request : FastifyRequest
  deriving DecidableEq, Repr

/-- `Reflector.getAllAndOverride`: the first target's metadata that is set. -/
def getAllAndOverride (targets : List (Option RateLimitCategory)) : Option RateLimitCategory :=
  targets.findSome? id

/-- Lines 26–29. -/
def ExecutionContext.category (context : ExecutionContext) : Option RateLimitCategory :=
  getAllAndOverride [context.handler.metadata, context.handler.classMetadata]

/-! ## The guard -/

/-- The limits of the environment, and what the runtime and zod compute about a text. -/
structure RateEnv where
  loginPerMinute : ℕ
  globalPerMinute : ℕ
  checkoutPerMinute : ℕ
  /-- `String.prototype.toLowerCase`. -/
  toLowerCase : String → String
  /-- The pattern of `z.string().email()`. -/
  isEmail : String → Bool

inductive KeyBy where
  | ip
  | ipEmail
  deriving DecidableEq, Repr

structure ResolvedLimit where
  limit : ℕ
  windowSeconds : ℤ
  keyBy : KeyBy

/-- `resolveLimit` (lines 55–63). -/
def RateEnv.resolveLimit (E : RateEnv) : RateLimitCategory → ResolvedLimit
  | .login => ⟨E.loginPerMinute, 60, .ipEmail⟩
  | .checkout => ⟨E.checkoutPerMinute, 60, .ip⟩
  | .global => ⟨E.globalPerMinute, 60, .ip⟩

/-- The email of the body, if it is a string. -/
def FastifyRequest.email (request : FastifyRequest) : Option String :=
  request.body.bind fun body => body.email.string

/-- Lines 34–40. -/
def RateEnv.identity (E : RateEnv) (category : RateLimitCategory) (request : FastifyRequest) :
    String :=
  match (E.resolveLimit category).keyBy, request.email with
  | .ipEmail, some email => request.ip ++ ":" ++ E.toLowerCase email
  | _, _ => request.ip

/-- Line 42. -/
def RateEnv.redisKey (E : RateEnv) (category : RateLimitCategory) (request : FastifyRequest) :
    String :=
  "ratelimit:" ++ category.toString ++ ":" ++ request.url ++ ":" ++ E.identity category request

/-- What a request ends with that does not pass: an error of the application, or one of the
    Redis client. -/
inductive Failure where
  | thrown (e : Error)
  | redis
  deriving DecidableEq, Repr

namespace RateLimits

/-- What the handling of a request awaits: the request itself, the two commands of the guard, and
    the handler behind it. -/
inductive Op where
  | receive
  | incr (key : String)
  | expire (key : String) (seconds : ℤ)
  | handle

abbrev Op.Ret : Op → Type
  | .receive => ExecutionContext
  | .incr _ => Except Failure ℕ
  | .expire .. => Except Failure Bool
  | .handle => Unit

abbrev calls : Signature := ⟨Op, Op.Ret⟩

def incr (key : String) : Prog calls Failure ℕ :=
  .request (S := calls) (.incr key) (α := ℕ) id

def expire (key : String) (seconds : ℤ) : Prog calls Failure Bool :=
  .request (S := calls) (.expire key seconds) (α := Bool) id

end RateLimits

open RateLimits

/-- `RedisRateLimitGuard.canActivate` (lines 25–52). -/
def RateEnv.canActivate (E : RateEnv) (context : ExecutionContext) : Prog calls Failure Bool :=
  match context.category with
  | none => pure true
  | some category => do
    let redisKey := E.redisKey category context.request
    let count ← incr redisKey
    if count = 1 then
      let _ ← expire redisKey (E.resolveLimit category).windowSeconds
    if count > (E.resolveLimit category).limit then
      .throw (.thrown (.rateLimited "Too many requests, please try again later"))
    else
      pure true

/-- A request is received, checked by the guard, and handled when it passes. -/
def RateEnv.serve (E : RateEnv) : Prog calls Failure Unit := do
  let context : ExecutionContext ← .perform (S := calls) .receive
  if ← E.canActivate context then
    .perform (S := calls) .handle
  else
    .throw (.thrown (.forbidden "Forbidden resource"))

namespace RateLimits

/-- Any number of requests are served at the same time. -/
def workload (E : RateEnv) : Workload calls Failure Unit where
  launch _ := E.serve
  compatible _ _ := true
  symm _ _ := rfl

structure State where
  redis : Redis
  now : Time

/-- The request that arrives, or what becomes of a command: it is answered, it does not reach
    Redis, or its reply is lost. -/
inductive Input where
  | request (context : ExecutionContext)
  | answered
  | refused
  | lost

/-- Redis and the clients; the clock of Redis is that of the environment. -/
def machine : Machine calls State Input ℕ where
  respond _ s op input :=
    match op, input with
    | .receive, .request context => some (context, s)
    | .incr key, .answered =>
      some (.ok (s.redis.incr s.now key).1, { s with redis := (s.redis.incr s.now key).2 })
    | .incr key, .lost => some (.error .redis, { s with redis := (s.redis.incr s.now key).2 })
    | .incr _, .refused => some (.error .redis, s)
    | .expire key seconds, .answered =>
      some (.ok (s.redis.expire s.now key seconds).1,
        { s with redis := (s.redis.expire s.now key seconds).2 })
    | .expire key seconds, .lost =>
      some (.error .redis, { s with redis := (s.redis.expire s.now key seconds).2 })
    | .expire .., .refused => some (.error .redis, s)
    | .handle, .answered => some ((), s)
    | _, _ => none
  env s elapsed := some { s with now := s.now + elapsed }
  restarts _ := false

end RateLimits

/-! ## `loginSchema` -/

/-- `emailSchema` (auth.schemas.ts, line 3). -/
def RateEnv.emailSchema (E : RateEnv) (s : String) : Option String :=
  let email := E.toLowerCase (trim s)
  if E.isEmail email && length email ≤ 254 then some email else none

/-- `^\d{6}$`. -/
def isTotpCode (s : String) : Bool := s.toList.length = 6 && s.toList.all isDigit

/-- `loginSchema` (auth.schemas.ts, lines 23–30). -/
def RateEnv.loginSchema (E : RateEnv) (body : RequestBody) : Option LoginInput := do
  let email ← body.email.string.bind E.emailSchema
  let password ← body.password.string
  if length password < 1 then none
  match body.totpCode with
  | .absent => some ⟨email, password, none⟩
  | .text code => if isTotpCode code then some ⟨email, password, some code⟩ else none
  | .other => none

/-! ## What is expected of a request -/

namespace RateLimits

abbrev Requests := List (Event calls)

/-- The request that arrived. -/
def received : Event calls → Option ExecutionContext
  | ⟨_, .receive, context⟩ => some context
  | _ => none

/-- What the handling of a request may await after what it has awaited. -/
def expected (E : RateEnv) (_ : Unit) (h : Requests) : Op → Prop
  | .receive => h = []
  | .incr key => ∃ pid context category, h = [⟨pid, .receive, context⟩] ∧
      context.category = some category ∧ key = E.redisKey category context.request
  | .expire _ seconds => seconds = 60
  | .handle => ∃ context, context ∈ h.filterMap received ∧
      ∀ category, context.category = some category → ∃ pid, ∃ count : ℕ,
        ⟨pid, .incr (E.redisKey category context.request), .ok count⟩ ∈ h ∧
          count ≤ (E.resolveLimit category).limit

theorem window_eq (E : RateEnv) (category : RateLimitCategory) :
    (E.resolveLimit category).windowSeconds = 60 := by
  cases category <;> rfl

/-- What the guard lets pass has been counted, and is within the limit. -/
theorem canActivate_obeys (E : RateEnv) (pid p : ℕ) (context : ExecutionContext) :
    (E.canActivate context).Obeys (expected E ()) pid
      (fun _ h => expected E () h .handle) (fun _ _ => True) [⟨p, .receive, context⟩] := by
  unfold RateEnv.canActivate
  cases hc : context.category with
  | none => exact ⟨context, List.mem_singleton_self _, fun c h => absurd (hc.symm.trans h) nofun⟩
  | some category =>
    show (Prog.bind _ _).Obeys ..
    refine Prog.obeys_bind.mpr (Prog.obeys_request.mpr
      ⟨⟨p, context, category, rfl, hc, rfl⟩, fun r => ⟨?_, fun _ _ => trivial⟩⟩)
    rintro count rfl
    have hpass : ∀ h, (⟨pid, .incr (E.redisKey category context.request), .ok count⟩ : Event calls)
        ∈ h → context ∈ h.filterMap received →
        Prog.Obeys (expected E ()) pid (fun _ h => expected E () h .handle) (fun _ _ => True)
          (if count > (E.resolveLimit category).limit then
            .throw (.thrown (.rateLimited "Too many requests, please try again later"))
          else pure true : Prog calls Failure Bool) h := by
      intro h hmem hrec
      split_ifs with hlimit
      · trivial
      · refine ⟨context, hrec, fun c hcat => ?_⟩
        obtain rfl : category = c := Option.some.inj (hc.symm.trans hcat)
        exact ⟨pid, count, hmem, Nat.le_of_not_lt hlimit⟩
    by_cases hone : count = 1
    · rw [if_pos hone]
      refine Prog.obeys_bind.mpr (Prog.obeys_request.mpr ⟨window_eq E category, fun r =>
        ⟨fun _ _ => ?_, fun _ _ => trivial⟩⟩)
      exact hpass _ (List.mem_cons_of_mem _ List.mem_cons_self) (List.mem_singleton_self _)
    · rw [if_neg hone]
      exact hpass _ List.mem_cons_self (List.mem_singleton_self _)

theorem workload_obeys (E : RateEnv) : (workload E).Obeys (expected E) := by
  intro j pid
  refine Prog.obeys_bind.mpr ⟨rfl, fun context => ?_⟩
  refine Prog.obeys_bind.mpr ((canActivate_obeys E pid pid context).post
    (fun passed h hpass => ?_) fun _ _ _ => trivial)
  cases passed with
  | true => exact ⟨hpass, fun _ => trivial⟩
  | false => trivial

section

variable {E : RateEnv} {h : Requests} {context context' : ExecutionContext}

/-- A request arrives once. -/
theorem received_first (hh : InOrder (expected E ()) h) (hc : context ∈ h.filterMap received) :
    ∃ pid, h.getLast? = some ⟨pid, .receive, context⟩ := by
  obtain ⟨⟨pid, op, r⟩, hmem, heq⟩ := List.mem_filterMap.mp hc
  obtain ⟨h', hs, he⟩ := hh.mem hmem
  cases op with
  | receive =>
    obtain rfl : h' = [] := he
    obtain rfl : r = context := Option.some.inj heq
    obtain ⟨l, rfl⟩ := hs
    exact ⟨pid, by simp⟩
  | _ => cases heq

theorem received_unique (hh : InOrder (expected E ()) h) (hc : context ∈ h.filterMap received)
    (hc' : context' ∈ h.filterMap received) : context = context' := by
  obtain ⟨p, hp⟩ := received_first hh hc
  obtain ⟨p', hp'⟩ := received_first hh hc'
  have heq := Option.some.inj (hp.symm.trans hp')
  cases heq
  rfl

/-- A request is counted once, under its key. -/
theorem counted_first (hh : InOrder (expected E ()) h) {pid : ℕ} {key : String}
    {r : Except Failure ℕ} (hev : (⟨pid, .incr key, r⟩ : Event calls) ∈ h) :
    ∃ p context category, [⟨pid, .incr key, r⟩, ⟨p, .receive, context⟩] <:+ h ∧
      context.category = some category ∧ key = E.redisKey category context.request := by
  obtain ⟨h', hs, p, context, category, rfl, hcat, hkey⟩ := hh.mem hev
  exact ⟨p, context, category, hs, hcat, hkey⟩

theorem counted_unique (hh : InOrder (expected E ()) h) {p p' : ℕ} {key key' : String}
    {r r' : Except Failure ℕ} (hev : (⟨p, .incr key, r⟩ : Event calls) ∈ h)
    (hev' : (⟨p', .incr key', r'⟩ : Event calls) ∈ h) : key = key' ∧ r = r' := by
  obtain ⟨q, c, -, hs, -⟩ := counted_first hh hev
  obtain ⟨q', c', -, hs', -⟩ := counted_first hh hev'
  have heq := List.IsSuffix.eq_of_length_le (List.suffix_of_suffix_length_le hs hs' (by simp))
    (by simp)
  obtain ⟨hfirst, -⟩ := List.cons.inj heq
  cases hfirst
  exact ⟨rfl, rfl⟩

end

/-! ## One window of one key -/

abbrev Stamped := List (Time × Event calls)

/-- What `INCR` of the key replied. -/
def counted (key : String) : Event calls → Option ℕ
  | ⟨_, .incr k, .ok count⟩ => if k = key then some count else none
  | _ => none

/-- The counts of the key that were replied before `until_`. -/
def inside (key : String) (until_ : Time) (l : Stamped) : List ℕ :=
  l.filterMap fun e => if e.1 < until_ then counted key e.2 else none

/-- From the reply 1 on, the counts of a window grow, and Redis holds the last of them. -/
structure Windowed (key : String) (c : Async.Config calls State) (l : Stamped) : Prop where
  past : ∀ e ∈ l, e.1 ≤ c.state.now
  positive : ∀ e ∈ l, ∀ n ∈ counted key e.2, 1 ≤ n
  growing : ∀ later opening earlier, l = later ++ opening :: earlier →
    counted key opening.2 = some 1 →
      (inside key (opening.1 + 60000) (later ++ [opening])).Pairwise (· > ·) ∧
      (c.state.now < opening.1 + 60000 → ∃ n, c.state.redis.Holds key n (opening.1 + 60000) ∧
        ∀ m ∈ inside key (opening.1 + 60000) (later ++ [opening]), m ≤ n)

section

variable {E : RateEnv} {key : String} {s state : State} {ev : Event calls} {i : Input} {n : ℕ}
  {until_ : Time}

/-- What a request does to the counter of a key before the end of its window. -/
theorem respond_holds (h : machine.respond ev.pid s ev.op i = some (ev.ret, state))
    (he : ∃ h, expected E () h ev.op) (hholds : s.redis.Holds key n until_)
    (hnow : s.now < until_) (hlate : until_ ≤ s.now + 60000) :
    (∀ m ∈ counted key ev, n < m ∧ state.redis.Holds key m until_) ∧
      (counted key ev = none → state.redis.Holds key n until_) := by
  obtain ⟨pid, op, r⟩ := ev
  cases op with
  | receive =>
    cases i with
    | request context =>
      cases h
      exact ⟨nofun, fun _ => hholds⟩
    | _ => cases h
  | incr k =>
    by_cases hk : key = k
    · subst hk
      obtain ⟨hlt, hnext⟩ := hholds.incr hnow
      cases i with
      | request context => cases h
      | answered =>
        cases h
        refine ⟨fun m hm => ?_, fun hnone => ?_⟩
        · obtain rfl : (s.redis.incr s.now key).1 = m := by simpa [counted] using hm
          exact ⟨hlt, hnext⟩
        · simp [counted] at hnone
      | refused =>
        cases h
        exact ⟨nofun, fun _ => hholds⟩
      | lost =>
        cases h
        exact ⟨nofun, fun _ => hnext.le hlt.le⟩
    · have hnone : counted key ⟨pid, .incr k, r⟩ = none := by
        cases r with
        | ok count => exact if_neg fun heq => hk heq.symm
        | error e => rfl
      refine ⟨fun m hm => absurd (hnone ▸ hm) nofun, fun _ => ?_⟩
      cases i with
      | request context => cases h
      | refused =>
        cases h
        exact hholds
      | _ =>
        cases h
        exact hholds.incr_of_ne hk
  | expire k seconds =>
    obtain ⟨-, rfl⟩ : ∃ h, expected E () h (.expire k seconds) := he
    refine ⟨nofun, fun _ => ?_⟩
    cases i with
    | request context => cases h
    | refused =>
      cases h
      exact hholds
    | _ =>
      cases h
      exact hholds.expire hnow hlate
  | handle =>
    cases i with
    | answered =>
      cases h
      exact ⟨nofun, fun _ => hholds⟩
    | _ => cases h

theorem respond_now (h : machine.respond ev.pid s ev.op i = some (ev.ret, state)) :
    state.now = s.now := by
  obtain ⟨pid, op, r⟩ := ev
  cases op <;> cases i <;> cases h <;> rfl

/-- The reply of an `INCR` that was answered. -/
theorem respond_counted (h : machine.respond ev.pid s ev.op i = some (ev.ret, state))
    (hn : n ∈ counted key ev) :
    n = (s.redis.incr s.now key).1 ∧ state.redis = (s.redis.incr s.now key).2 := by
  obtain ⟨pid, op, r⟩ := ev
  cases op with
  | incr k =>
    cases i with
    | answered =>
      cases h
      obtain ⟨rfl, rfl⟩ : k = key ∧ (s.redis.incr s.now k).1 = n := by simpa [counted] using hn
      exact ⟨rfl, rfl⟩
    | _ => cases h <;> cases hn
  | _ => cases hn

theorem inside_cons_of_ge {e : Time × Event calls} {l : Stamped} (h : until_ ≤ e.1) :
    inside key until_ (e :: l) = inside key until_ l :=
  List.filterMap_cons_none (if_neg (not_lt.mpr h))

theorem inside_cons_of_lt {t : Time} {l : Stamped} (h : t < until_) :
    inside key until_ ((t, ev) :: l) = (counted key ev).toList ++ inside key until_ l := by
  unfold inside
  rw [List.filterMap_cons]
  simp only [h, if_true]
  cases counted key ev <;> rfl

theorem windowed_keeps (E : RateEnv) (key : String) :
    Keeps machine (workload E) (fun _ => True) anything State.now (expected E)
      fun c l _ => Windowed key c l where
  initial s _ := ⟨fun _ he => absurd he List.not_mem_nil, fun _ he => absurd he List.not_mem_nil,
    fun later opening earlier h => absurd h (by simp)⟩
  fewer c l F F' h _ := h
  launch c l F j pid h _ _ _ := h
  env c l F elapsed state h hstate := by
    cases hstate
    have hle : c.state.now ≤ c.state.now + (elapsed : ℤ) :=
      Int.le_add_of_nonneg_right (Int.natCast_nonneg elapsed)
    refine ⟨fun e he => Int.le_trans (h.past e he) hle, h.positive,
      fun later opening earlier hl hone => ?_⟩
    exact (h.growing later opening earlier hl hone).imp_right fun hnow hlt =>
      hnow (Int.lt_of_le_of_lt hle hlt)
  request c l F j ev state h _ hp := by
    obtain ⟨i, hr⟩ := hp.reply
    have hsame : state.now = c.state.now := respond_now hr
    refine ⟨?_, ?_, ?_⟩
    · rintro e (_ | ⟨_, he⟩)
      · exact le_of_eq hsame.symm
      · exact hsame ▸ h.past e he
    · rintro e (_ | ⟨_, he⟩) n hn
      · rw [(respond_counted hr hn).1]
        exact Redis.incr_pos
      · exact h.positive e he n hn
    · intro later opening earlier hl hone
      show _ ∧ (state.now < _ → _)
      rw [hsame]
      cases later with
      | nil =>
        -- the request opens the window
        obtain ⟨rfl, rfl⟩ := List.cons.inj hl
        obtain ⟨hcount, hredis⟩ := respond_counted hr hone
        have hin : inside key (c.state.now + 60000) ([] ++ [(c.state.now, ev)]) = [1] := by
          rw [List.nil_append, inside_cons_of_lt (Int.lt_add_of_pos_right _ (by decide)), hone]
          rfl
        rw [hin]
        refine ⟨List.pairwise_singleton _ _, fun _ => ⟨1, ?_, by simp⟩⟩
        show state.redis.Holds ..
        rw [hredis]
        exact Redis.incr_fresh hcount.symm
      | cons e later =>
        obtain ⟨rfl, hrest⟩ := List.cons.inj hl
        obtain ⟨hgrow, hholds⟩ := h.growing later opening earlier hrest hone
        rw [List.cons_append]
        by_cases hlt : c.state.now < opening.1 + 60000
        · -- the counter of the window is still there
          obtain ⟨n, hn, hmax⟩ := hholds hlt
          have hopen : opening.1 ≤ c.state.now :=
            h.past opening (hrest ▸ List.mem_append_right _ List.mem_cons_self)
          obtain ⟨hcount, hother⟩ := respond_holds hr ⟨_, hp.expected⟩ hn hlt
            (Int.add_le_add_right hopen _)
          rw [inside_cons_of_lt hlt]
          cases hc : counted key ev with
          | none => exact ⟨hgrow, fun _ => ⟨n, hother hc, hmax⟩⟩
          | some m =>
            obtain ⟨hnm, hnext⟩ := hcount m hc
            refine ⟨List.pairwise_cons.mpr ⟨fun k hk => (hmax k hk).trans_lt hnm, hgrow⟩,
              fun _ => ⟨m, hnext, ?_⟩⟩
            rintro k (_ | ⟨_, hk⟩)
            · exact Nat.le_refl m
            · exact (hmax k hk).trans hnm.le
        · rw [inside_cons_of_ge (Int.not_lt.mp hlt)]
          exact ⟨hgrow, fun h' => absurd h' hlt⟩

end

/-! ## The bound -/

/-- The requests that the limit of a category is about: those of one client and, for `login`, of
    one account. -/
def names (E : RateEnv) (category : RateLimitCategory) (ip account : String)
    (context : ExecutionContext) : Bool :=
  context.category = some category && context.request.ip = ip &&
    (category ≠ .login ||
      (context.request.body.bind E.loginSchema).any fun input => input.email = account)

/-- The request of the process is named. -/
def asks (named : ExecutionContext → Bool) (h : Requests) : Bool := (h.filterMap received).any named

def handled : Event calls → Bool
  | ⟨_, .handle, _⟩ => true
  | _ => false

/-- The `INCR` of a named request that passes. -/
def passes (named : ExecutionContext → Bool) (tr : Requests) : Event calls → Bool
  | ⟨pid, .incr _, _⟩ => asks named (own pid tr) && (own pid tr).any handled
  | _ => false

/-- The `INCR` of a named request, with the reply 1: a window begins. -/
def opens (named : ExecutionContext → Bool) (tr : Requests) : Event calls → Bool
  | ⟨pid, .incr _, .ok count⟩ => count = 1 && asks named (own pid tr)
  | _ => false

/-- In each window, at most the limit of the named requests pass. -/
def Bounded (limit : ResolvedLimit) (named : ExecutionContext → Bool) (tr : Requests)
    (l : Stamped) : Prop :=
  ∀ later opening earlier, l = later ++ opening :: earlier → opens named tr opening.2 = true →
    (later ++ [opening]).countP (fun e => passes named tr e.2 &&
      e.1 < opening.1 + limit.windowSeconds * 1000) ≤ limit.limit

/-- The named requests have one URL and, for `login`, one email in lower case. -/
def Alike (E : RateEnv) (category : RateLimitCategory) (named : ExecutionContext → Bool)
    (tr : Requests) : Prop :=
  ∀ x ∈ tr.filterMap received, ∀ y ∈ tr.filterMap received, named x = true → named y = true →
    x.request.url = y.request.url ∧ (category = .login →
      x.request.email.map E.toLowerCase = y.request.email.map E.toLowerCase)

section

variable {E : RateEnv} {category : RateLimitCategory} {named : ExecutionContext → Bool}
  {ip account : String} {x y : ExecutionContext} {tr h : Requests} {pid : ℕ}

theorem names_iff : names E category ip account x = true ↔ x.category = some category ∧
    x.request.ip = ip ∧ (category = .login →
      ∃ input, x.request.body.bind E.loginSchema = some input ∧ input.email = account) := by
  simp only [names, Bool.and_eq_true, decide_eq_true_eq, Bool.or_eq_true, Option.any_eq_true,
    and_assoc, ne_eq, imp_iff_not_or]

/-- Only the client, the URL and the email in lower case are in the key. -/
theorem redisKey_congr (hip : x.request.ip = y.request.ip) (hurl : x.request.url = y.request.url)
    (hemail : category = .login →
      x.request.email.map E.toLowerCase = y.request.email.map E.toLowerCase) :
    E.redisKey category x.request = E.redisKey category y.request := by
  have hidentity : E.identity category x.request = E.identity category y.request := by
    cases category with
    | login =>
      have hemail := hemail rfl
      unfold RateEnv.identity
      cases hx : x.request.email with
      | none =>
        cases hy : y.request.email with
        | none => exact hip
        | some b => simp [hx, hy] at hemail
      | some a =>
        cases hy : y.request.email with
        | none => simp [hx, hy] at hemail
        | some b =>
          have hlower : E.toLowerCase a = E.toLowerCase b := by simpa [hx, hy] using hemail
          simp [RateEnv.resolveLimit, hip, hlower]
    | global => exact hip
    | checkout => exact hip
  unfold RateEnv.redisKey
  rw [hidentity, hurl]

theorem asks_iff : asks named h = true ↔ ∃ x ∈ h.filterMap received, named x = true :=
  List.any_eq_true

/-- What a process has received is in the trace. -/
theorem received_own (hx : x ∈ (own pid tr).filterMap received) : x ∈ tr.filterMap received := by
  obtain ⟨ev, hev, hr⟩ := List.mem_filterMap.mp hx
  exact List.mem_filterMap.mpr ⟨ev, (mem_own.mp hev).1, hr⟩

/-- A named request is counted under the key of every named request. -/
theorem counted_key (hh : InOrder (expected E ()) (own pid tr))
    (halike : Alike E category (names E category ip account) tr) {key : String}
    {r : Except Failure ℕ} (hev : ⟨pid, .incr key, r⟩ ∈ tr)
    (hasks : asks (names E category ip account) (own pid tr) = true)
    (hy : y ∈ tr.filterMap received) (hnamed : names E category ip account y = true) :
    key = E.redisKey category y.request := by
  obtain ⟨x, hx, hxn⟩ := asks_iff.mp hasks
  obtain ⟨p, context, c, hs, hcat, rfl⟩ := counted_first hh (mem_own.mpr ⟨hev, rfl⟩)
  have hcontext : context ∈ (own pid tr).filterMap received :=
    List.mem_filterMap.mpr ⟨_, hs.subset (List.mem_cons_of_mem _ List.mem_cons_self), rfl⟩
  obtain rfl : context = x := received_unique hh hcontext hx
  obtain ⟨hxc, hxip, -⟩ := names_iff.mp hxn
  obtain ⟨-, hyip, -⟩ := names_iff.mp hnamed
  obtain rfl : c = category := Option.some.inj (hcat.symm.trans hxc)
  obtain ⟨hurl, hemail⟩ := halike context (received_own hx) y hy hxn hnamed
  exact redisKey_congr (hxip.trans hyip.symm) hurl hemail

/-- A named request that passes has a count within the limit. -/
theorem passes_counted (hh : ∀ pid, InOrder (expected E ()) (own pid tr))
    (halike : Alike E category (names E category ip account) tr) {ev : Event calls} (hev : ev ∈ tr)
    (hpass : passes (names E category ip account) tr ev = true)
    (hy : y ∈ tr.filterMap received) (hnamed : names E category ip account y = true) :
    ∃ n ∈ counted (E.redisKey category y.request) ev, n ≤ (E.resolveLimit category).limit := by
  obtain ⟨pid, op, r⟩ := ev
  cases op with
  | incr key =>
    obtain ⟨hasks, hany⟩ := Bool.and_eq_true_iff.mp hpass
    obtain ⟨⟨q, op, r'⟩, hmem, hhandled⟩ := List.any_eq_true.mp hany
    cases op with
    | handle =>
      obtain ⟨h', hs, context, hcontext, hwithin⟩ := (hh pid).mem hmem
      obtain ⟨x, hx, hxn⟩ := asks_iff.mp hasks
      have hsub : h' ⊆ own pid tr := fun e he => hs.subset (List.mem_cons_of_mem _ he)
      obtain ⟨e, he, her⟩ := List.mem_filterMap.mp hcontext
      obtain rfl : context = x :=
        received_unique (hh pid) (List.mem_filterMap.mpr ⟨e, hsub he, her⟩) hx
      obtain ⟨p, count, hcount, hle⟩ := hwithin category (names_iff.mp hxn).1
      obtain ⟨hkey, rfl⟩ := counted_unique (hh pid) (mem_own.mpr ⟨hev, rfl⟩) (hsub hcount)
      have hk := counted_key (hh pid) halike hev hasks hy hnamed
      exact ⟨count, if_pos hk, hle⟩
    | _ => cases hhandled
  | _ => cases hpass

/-- Distinct numbers from 1 to `n`. -/
theorem length_le_of_growing {n : ℕ} {ns : List ℕ} (hgrow : ns.Pairwise (· > ·))
    (hns : ∀ m ∈ ns, 1 ≤ m ∧ m ≤ n) : ns.length ≤ n := by
  have hnodup : ns.Nodup := hgrow.imp fun h => (Nat.ne_of_lt h).symm
  have hsub : ns ⊆ List.range' 1 n := fun m hm => by
    obtain ⟨hlow, hhigh⟩ := hns m hm
    exact List.mem_range'_1.mpr ⟨hlow, by omega⟩
  calc ns.length ≤ (List.range' 1 n).length := (List.subperm_of_subset hnodup hsub).length_le
    _ = n := List.length_range'

/-- The events of a window whose counts are within a limit. -/
theorem countP_le_inside {key : String} {until_ : Time} {limit : ℕ} {p : Time × Event calls → Bool}
    {l : Stamped} (hp : ∀ e ∈ l, p e = true → e.1 < until_ ∧ ∃ n ∈ counted key e.2, n ≤ limit) :
    l.countP p ≤ ((inside key until_ l).filter (· ≤ limit)).length := by
  induction l with
  | nil => exact Nat.le_refl 0
  | cons e l ih =>
    have ih := ih fun e' he' => hp e' (List.mem_cons_of_mem e he')
    by_cases hpe : p e = true
    · obtain ⟨hlt, n, hn, hle⟩ := hp e List.mem_cons_self hpe
      have hin : inside key until_ (e :: l) = n :: inside key until_ l :=
        List.filterMap_cons_some ((if_pos hlt).trans hn)
      rw [List.countP_cons_of_pos hpe, hin, List.filter_cons_of_pos (by simpa using hle)]
      exact Nat.succ_le_succ ih
    · rw [List.countP_cons_of_neg hpe]
      refine ih.trans (List.Sublist.length_le (List.Sublist.filter _ ?_))
      exact (List.sublist_cons_self e l).filterMap _

theorem opens_inv {ev : Event calls} (hopens : opens named tr ev = true) :
    ∃ key r, ev = ⟨ev.pid, .incr key, r⟩ ∧ counted key ev = some 1 ∧
      asks named (own ev.pid tr) = true := by
  obtain ⟨pid, op, r⟩ := ev
  cases op with
  | incr key =>
    cases r with
    | ok count =>
      obtain ⟨hone, hasks⟩ := Bool.and_eq_true_iff.mp hopens
      exact ⟨key, _, rfl, (if_pos rfl).trans (congrArg some (of_decide_eq_true hone)), hasks⟩
    | error e => cases hopens
  | _ => cases hopens

theorem rate_limit_bounds {s : System calls Failure Unit State} {l : Stamped}
    (h : Timed machine (workload E) (fun _ => True) anything State.now s l)
    (halike : Alike E category (names E category ip account) s.config.trace) :
    Bounded (E.resolveLimit category) (names E category ip account) s.config.trace l := by
  intro later opening earlier hl hopens
  have hh : ∀ pid, InOrder (expected E ()) (own pid s.config.trace) := fun pid =>
    (h.reachable.history (workload_obeys E) pid).choose_spec
  have htrace : ∀ e ∈ l, e.2 ∈ s.config.trace := fun e he =>
    h.trace ▸ List.mem_map_of_mem he
  have hpart : ∀ e ∈ later ++ [opening], e ∈ l := by
    intro e he
    rw [hl]
    rcases List.mem_append.mp he with he | he
    · exact List.mem_append_left _ he
    · exact List.mem_append_right _ (List.mem_singleton.mp he ▸ List.mem_cons_self)
  obtain ⟨key, r, hev, hone, hasks⟩ := opens_inv hopens
  obtain ⟨y, hy, hnamed⟩ := asks_iff.mp hasks
  have hopening : opening.2 ∈ s.config.trace :=
    htrace opening (hpart opening (List.mem_append_right _ (List.mem_singleton_self _)))
  -- all the named requests are counted under the key of the one that opens the window
  obtain rfl : key = E.redisKey category y.request :=
    counted_key (hh _) halike (hev ▸ hopening) hasks (received_own hy) hnamed
  have hinv : Windowed (E.redisKey category y.request) s.config l :=
    h.invariant (workload_obeys E) (windowed_keeps E _)
  obtain ⟨hgrow, -⟩ := hinv.growing later opening earlier hl hone
  have hwithin : ((inside (E.redisKey category y.request) (opening.1 + 60000)
      (later ++ [opening])).filter (· ≤ (E.resolveLimit category).limit)).length ≤
      (E.resolveLimit category).limit := by
    refine length_le_of_growing (hgrow.sublist List.filter_sublist) fun m hm => ?_
    obtain ⟨hm, hle⟩ := List.mem_filter.mp hm
    obtain ⟨e, he, hem⟩ := List.mem_filterMap.mp hm
    split_ifs at hem
    exact ⟨hinv.positive e (hpart e he) m hem, of_decide_eq_true hle⟩
  refine (countP_le_inside fun e he hpe => ?_).trans hwithin
  obtain ⟨hpass, hlt⟩ := Bool.and_eq_true_iff.mp hpe
  rw [window_eq] at hlt
  exact ⟨of_decide_eq_true hlt,
    passes_counted hh halike (htrace e (hpart e he)) hpass (received_own hy) hnamed⟩

end

/-! ## Runs -/

/-- The default limits; the texts below are ASCII. -/
def sampleRates : RateEnv where
  loginPerMinute := 5
  globalPerMinute := 300
  checkoutPerMinute := 100
  toLowerCase := toLowerAscii
  isEmail s := s.toList.contains '@'

/-- A login as `email` is spelled. -/
def loginAs (email : String) : ExecutionContext where
  handler := .login
  request :=
    { url := "/v1/auth/login"
      ip := "203.0.113.7"
      body := some ⟨.text email, .text "wrong", .absent⟩ }

/-- The checkout page of an invoice. -/
def openCheckout (id : String) : ExecutionContext where
  handler := .getCheckout
  request := { url := "/v1/checkout/" ++ id, ip := "203.0.113.7", body := none }

/-- A request that is served alone, as far as it gets. -/
def request (pid : ℕ) (context : ExecutionContext) (answers : ℕ) : List (Move Unit Input ℕ) :=
  [.start (), .perform pid (.request context)] ++ List.replicate answers (.perform pid .answered)

def noCounters : State := ⟨fun _ => none, 0⟩

/-- Seven logins with one email, as in security.integration.test.ts (lines 151–169). -/
def repeatedLogins : List (Move Unit Input ℕ) :=
  request 0 (loginAs "a@b.io") 3 ++
    [1, 2, 3, 4].flatMap (fun pid => request pid (loginAs "a@b.io") 2) ++
    [5, 6].flatMap fun pid => request pid (loginAs "a@b.io") 1

/-- Six logins to one account, the last one with a blank before the email. -/
def spelledLogins : List (Move Unit Input ℕ) :=
  request 0 (loginAs "a@b.io") 3 ++
    [1, 2, 3, 4].flatMap (fun pid => request pid (loginAs "a@b.io") 2) ++
    request 5 (loginAs " a@b.io") 3

/-- The pages of two invoices. -/
def twoCheckouts : List (Move Unit Input ℕ) :=
  request 0 (openCheckout "inv_1") 3 ++ request 1 (openCheckout "inv_2") 3

/-- How many named requests pass in the window that the `i`-th newest request opens. -/
def windowCount (limit : ResolvedLimit) (named : ExecutionContext → Bool) (tr : Requests)
    (l : Stamped) (i : ℕ) : Option ℕ :=
  match l.drop i with
  | [] => none
  | opening :: _ =>
    if opens named tr opening.2 then
      some ((l.take i ++ [opening]).countP fun e => passes named tr e.2 &&
        e.1 < opening.1 + limit.windowSeconds * 1000)
    else none

theorem not_bounded_of_windowCount {limit : ResolvedLimit} {named : ExecutionContext → Bool}
    {tr : Requests} {l : Stamped} {i n : ℕ} (h : windowCount limit named tr l i = some n)
    (hn : limit.limit < n) : ¬ Bounded limit named tr l := by
  unfold windowCount at h
  split at h
  · cases h
  · rename_i opening earlier hdrop
    split_ifs at h with hopens
    intro hbounded
    have hl : l = l.take i ++ opening :: earlier := by rw [← hdrop, List.take_append_drop]
    have hle := hbounded _ _ _ hl hopens
    rw [Option.some.inj h] at hle
    exact absurd hn (Nat.not_lt.mpr hle)

theorem rate_limit_bounds_repeated : ∃ s l, Timed machine (workload sampleRates) (fun _ => True)
    anything State.now s l ∧ s.config.trace.filterMap received =
      List.replicate 7 (loginAs "a@b.io") ∧
    l.countP (fun e => passes (names sampleRates .login "203.0.113.7" "a@b.io") s.config.trace
      e.2) = 5 ∧
    Bounded (sampleRates.resolveLimit .login) (names sampleRates .login "203.0.113.7" "a@b.io")
      s.config.trace l := by
  have hrun : ((System.initial noCounters).stamp machine (workload sampleRates) State.now []
      repeatedLogins).map (fun x => (x.1.config.trace.filterMap received, x.2.countP fun e =>
        passes (names sampleRates .login "203.0.113.7" "a@b.io") x.1.config.trace e.2)) =
      some (List.replicate 7 (loginAs "a@b.io"), 5) := by
    decide
  obtain ⟨⟨s, l⟩, hstamp, hview⟩ := Option.map_eq_some_iff.mp hrun
  obtain ⟨hreceived, hcount⟩ := Prod.mk.inj hview
  have hl : Timed machine (workload sampleRates) (fun _ => True) anything State.now s l :=
    (Timed.stamp repeatedLogins (.initial trivial) hstamp).1
  refine ⟨s, l, hl, hreceived, hcount, rate_limit_bounds hl fun x hx y hy _ _ => ?_⟩
  rw [hreceived] at hx hy
  rw [List.eq_of_mem_replicate hx, List.eq_of_mem_replicate hy]
  exact ⟨rfl, fun _ => rfl⟩

/-- Six logins to one account pass where the limit is five, and the pages of two invoices where
    it is one. -/
theorem rate_limit_evaded :
    (∃ s l, Timed machine (workload sampleRates) (fun _ => True) anything State.now s l ∧
      ¬ Bounded (sampleRates.resolveLimit .login)
        (names sampleRates .login "203.0.113.7" "a@b.io") s.config.trace l) ∧
    ∃ s l, Timed machine (workload { sampleRates with checkoutPerMinute := 1 }) (fun _ => True)
      anything State.now s l ∧
      ¬ Bounded (({ sampleRates with checkoutPerMinute := 1 } : RateEnv).resolveLimit .checkout)
        (names { sampleRates with checkoutPerMinute := 1 } .checkout "203.0.113.7" "")
        s.config.trace l := by
  have hlogins : ((System.initial noCounters).stamp machine (workload sampleRates) State.now []
      spelledLogins).map (fun x => windowCount (sampleRates.resolveLimit .login)
        (names sampleRates .login "203.0.113.7" "a@b.io") x.1.config.trace x.2 18) =
      some (some 6) := by
    decide
  have hcheckouts : ((System.initial noCounters).stamp machine
      (workload { sampleRates with checkoutPerMinute := 1 }) State.now [] twoCheckouts).map
      (fun x => windowCount
        (({ sampleRates with checkoutPerMinute := 1 } : RateEnv).resolveLimit .checkout)
        (names { sampleRates with checkoutPerMinute := 1 } .checkout "203.0.113.7" "")
        x.1.config.trace x.2 6) = some (some 2) := by
    decide
  obtain ⟨⟨s, l⟩, hstamp, hview⟩ := Option.map_eq_some_iff.mp hlogins
  obtain ⟨⟨t, m⟩, hstamp', hview'⟩ := Option.map_eq_some_iff.mp hcheckouts
  exact ⟨⟨s, l, (Timed.stamp spelledLogins (.initial trivial) hstamp).1,
      not_bounded_of_windowCount hview (by decide)⟩,
    t, m, (Timed.stamp twoCheckouts (.initial trivial) hstamp').1,
      not_bounded_of_windowCount hview' (by decide)⟩

end RateLimits

end CryptoPay.Api
