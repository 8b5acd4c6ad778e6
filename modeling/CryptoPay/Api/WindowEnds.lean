import CryptoPay.Api.RateLimits

/-!
# The end of a rate limit window

`RedisRateLimitGuard` creates a counter with `INCR` and gives it an expiry with `EXPIRE`, two
commands of which either may fail and between which the process may stop.

Results:
* `Expiring.serve`: a request that has created a counter awaits its `EXPIRE`.
* `Unhindered.counters`: while no such request is cut short, every counter has an expiry of at
  most a window, or a request that is about to give it one.
* `windows_end`: then a client that pauses for a window is admitted again.
* `counter_kept`: otherwise it may never be.
-/

namespace CryptoPay

namespace Redis

variable {r : Redis} {now : Time} {key k : String} {seconds : ℤ} {c : Counter}

/-- A counter that is not found has expired. -/
theorem expired_of_get (h : r.get now key = none) (hc : r key = some c) :
    ∃ t, c.expiresAt = some t ∧ t ≤ now := by
  have hdead : ¬ c.live now = true := by
    intro hlive
    have hget : r.get now key = some c := Option.filter_eq_some_iff.mpr ⟨hc, hlive⟩
    cases h.symm.trans hget
  unfold Counter.live at hdead
  cases he : c.expiresAt with
  | none =>
    rw [he] at hdead
    exact absurd rfl hdead
  | some t =>
    rw [he] at hdead
    exact ⟨t, rfl, Int.not_lt.mp fun hlt => hdead (decide_eq_true hlt)⟩

theorem get_eq_some (h : r.get now key = some c) : r key = some c :=
  (Option.filter_eq_some_iff.mp h).1

/-- What `INCR` leaves under a key: what was there, or a counter with the same expiry, or a new
    one without. -/
theorem incr_cases (hc : (r.incr now key).2 k = some c) :
    r k = some c ∨ k = key ∧ (∃ c', r key = some c' ∧ c.expiresAt = c'.expiresAt) ∨
      k = key ∧ r.get now key = none ∧ (r.incr now key).1 = 1 := by
  by_cases hk : k = key
  · subst hk
    cases hget : r.get now k with
    | some c' =>
      unfold incr at hc
      rw [hget] at hc
      have hc' := Option.some.inj ((set_self _).symm.trans hc)
      refine .inr (.inl ⟨rfl, c', get_eq_some hget, ?_⟩)
      rw [← hc']
    | none =>
      refine .inr (.inr ⟨rfl, rfl, ?_⟩)
      unfold incr
      rw [hget]
  · refine .inl ?_
    unfold incr at hc
    split at hc
    · exact (set_of_ne _ hk).symm.trans hc
    · exact (set_of_ne _ hk).symm.trans hc

/-- What `EXPIRE` leaves under a key. -/
theorem expire_cases (hc : (r.expire now key seconds).2 k = some c) :
    r k = some c ∧ (k = key → ∃ t, c.expiresAt = some t ∧ t ≤ now) ∨
      k = key ∧ c.expiresAt = some (now + seconds * 1000) := by
  cases hget : r.get now key with
  | none =>
    unfold expire at hc
    rw [hget] at hc
    refine .inl ⟨hc, ?_⟩
    rintro rfl
    exact expired_of_get hget hc
  | some c' =>
    unfold expire at hc
    rw [hget] at hc
    by_cases hk : k = key
    · subst hk
      refine .inr ⟨rfl, ?_⟩
      rw [← Option.some.inj ((set_self _).symm.trans hc)]
    · exact .inl ⟨(set_of_ne _ hk).symm.trans hc, fun h => absurd h hk⟩

theorem incr_frame (h : k ≠ key) : (r.incr now key).2 k = r k := by
  unfold incr
  split
  · exact set_of_ne _ h
  · exact set_of_ne _ h

theorem expire_frame (h : k ≠ key) : (r.expire now key seconds).2 k = r k := by
  unfold expire
  split
  · exact set_of_ne _ h
  · rfl

/-- The first `INCR` after a counter has expired. -/
theorem incr_of_get (h : r.get now key = none) : (r.incr now key).1 = 1 := by
  unfold incr
  rw [h]

end Redis

namespace Api

open Async RateLimits

namespace RateLimits

variable {α β : Type} {key : String}

/-! ## After the first `INCR` -/

/-- The program awaits an `EXPIRE` of the key. -/
def Owes (key : String) : Prog calls Failure α → Prop
  | .await (.expire k _) _ => k = key
  | _ => False

/-- A program that goes on to an `EXPIRE` when its `INCR` is the first one; every expiry is a
    minute. -/
def Expiring : Prog calls Failure α → Prop
  | .ret _ => True
  | .throw _ => True
  | .await (.incr key) k => Owes key (k (.ok 1)) ∧ ∀ r, Expiring (k r)
  | .await (.expire _ seconds) k => seconds = 60 ∧ ∀ r, Expiring (k r)
  | .await .receive k => ∀ r, Expiring (k r)
  | .await .handle k => ∀ r, Expiring (k r)

theorem Owes.bind {p : Prog calls Failure α} (h : Owes key p) (f : α → Prog calls Failure β) :
    Owes key (p >>= f) := by
  cases p with
  | ret a => exact absurd h fun h => h
  | throw e => exact h
  | await op k =>
    cases op with
    | expire key seconds => exact h
    | receive => exact h
    | incr key => exact h
    | handle => exact h

theorem Expiring.bind {p : Prog calls Failure α} {f : α → Prog calls Failure β} (hp : Expiring p)
    (hf : ∀ a, Expiring (f a)) : Expiring (p >>= f) := by
  induction p with
  | ret a => exact hf a
  | throw e => trivial
  | await op k ih =>
    cases op with
    | receive => exact fun r => ih r (hp r)
    | incr key => exact ⟨hp.1.bind f, fun r => ih r (hp.2 r)⟩
    | expire key seconds => exact ⟨hp.1, fun r => ih r (hp.2 r)⟩
    | handle => exact fun r => ih r (hp r)

theorem Expiring.next {op : Op} {k : Op.Ret op → Prog calls Failure α}
    (h : Expiring (.await op k : Prog calls Failure α)) (r : Op.Ret op) : Expiring (k r) := by
  cases op with
  | receive => exact h r
  | incr key => exact h.2 r
  | expire key seconds => exact h.2 r
  | handle => exact h r

theorem Expiring.ofExcept (x : Except Failure α) : Expiring (.ofExcept x : Prog calls Failure α) := by
  cases x <;> trivial

theorem Expiring.expire (key : String) : Expiring (RateLimits.expire key 60) :=
  ⟨rfl, fun _ => .ofExcept _⟩

/-- What is left of the guard when the counter has been read. -/
theorem Expiring.canActivate (E : RateEnv) (context : ExecutionContext) :
    Expiring (E.canActivate context) := by
  unfold RateEnv.canActivate
  cases context.category with
  | none => trivial
  | some category =>
    have hlimit : ∀ count : ℕ, Expiring (if count > (E.resolveLimit category).limit then
        .throw (.thrown (.rateLimited "Too many requests, please try again later"))
        else pure true : Prog calls Failure Bool) := by
      intro count
      split_ifs <;> trivial
    constructor
    · exact rfl
    · intro r
      refine Expiring.bind (.ofExcept _) fun count => ?_
      by_cases hone : count = 1
      · rw [if_pos hone, window_eq]
        exact (Expiring.expire _).bind fun _ => hlimit count
      · rw [if_neg hone]
        exact hlimit count

theorem Expiring.serve (E : RateEnv) : Expiring E.serve := by
  intro context
  refine (Expiring.canActivate E context).bind fun passed => ?_
  cases passed with
  | true => exact fun _ => trivial
  | false => trivial

end RateLimits

/-! ## Runs -/

namespace RateLimits

abbrev RateSystem := System calls Failure Unit State

/-- The move does not cut a request short that has created a counter: the request is not stopped
    before its `EXPIRE`, the `EXPIRE` reaches Redis, and the reply to the `INCR` that creates the
    counter is not lost. -/
def Spares (s : RateSystem) : Move Unit Input ℕ → Prop
  | .stop pid => ∀ p ∈ s.procs, p.pid = pid → ∀ key, ¬ Owes key p.prog
  | .perform pid .refused => ∀ p ∈ s.procs, p.pid = pid → ∀ key, ¬ Owes key p.prog
  | .perform pid .lost => ∀ p ∈ s.procs, p.pid = pid → ∀ key k, p.prog = .await (.incr key) k →
      s.config.state.redis.get s.config.state.now key ≠ none
  | _ => True

/-- The systems reached from an empty Redis by moves that cut no such request short. -/
inductive Unhindered (E : RateEnv) : RateSystem → Prop where
  | initial (now : Time) : Unhindered E (.initial ⟨fun _ => none, now⟩)
  | step {s s' : RateSystem} (m : Move Unit Input ℕ) (hs : Unhindered E s) (hm : Spares s m)
      (h : s.step machine (workload E) m = some s') : Unhindered E s'

/-- The counter expires within a window from now. -/
def Counter.Ends (c : Counter) (now : Time) : Prop :=
  ∃ t, c.expiresAt = some t ∧ t ≤ now + 60000

/-- What is kept. -/
structure Counters (s : RateSystem) : Prop where
  fresh : ∀ p ∈ s.procs, p.pid < s.next
  distinct : ∀ p ∈ s.procs, ∀ q ∈ s.procs, p.pid = q.pid → p = q
  expiring : ∀ p ∈ s.procs, Expiring p.prog
  ends : ∀ key c, s.config.state.redis key = some c →
    Counter.Ends c s.config.state.now ∨ ∃ p ∈ s.procs, Owes key p.prog

section Kept

variable {E : RateEnv} {s s' : RateSystem} {pid : ℕ} {input : Input} {op : Op} {r : Op.Ret op}
  {state : State} {k : Op.Ret op → Prog calls Failure Unit}

/-- A counter ends where it did, and time passes. -/
theorem Counter.Ends.later {c : Counter} {now now' : Time} (h : Counter.Ends c now)
    (hnow : now ≤ now') : Counter.Ends c now' := by
  obtain ⟨t, ht, hle⟩ := h
  exact ⟨t, ht, Int.le_trans hle (Int.add_le_add_right hnow _)⟩

/-- What a command leaves in Redis: counters that ended, and those that some request owes an
    expiry, are as before, and the request that has created one owes it. -/
theorem respond_ends (hk : Expiring (.await op k : Prog calls Failure Unit))
    (h : machine.respond pid s.config.state op input = some (r, state))
    (hp : ⟨pid, (), .await op k⟩ ∈ s.procs) (hm : Spares s (.perform pid input)) {key : String}
    {c : Counter} (hc : state.redis key = some c) :
    Counter.Ends c state.now ∨ Owes key (k r) ∨ ∃ c', s.config.state.redis key = some c' ∧
      c.expiresAt = c'.expiresAt ∧ ¬ Owes key (.await op k : Prog calls Failure Unit) := by
  cases op with
  | receive =>
    cases input with
    | request context =>
      cases h
      exact .inr (.inr ⟨c, hc, rfl, fun h => h⟩)
    | answered => cases h
    | refused => cases h
    | lost => cases h
  | handle =>
    cases input with
    | answered =>
      cases h
      exact .inr (.inr ⟨c, hc, rfl, fun h => h⟩)
    | request context => cases h
    | refused => cases h
    | lost => cases h
  | incr name =>
    cases input with
    | request context => cases h
    | refused =>
      cases h
      exact .inr (.inr ⟨c, hc, rfl, fun h => h⟩)
    | answered =>
      cases h
      rcases Redis.incr_cases hc with hold | ⟨rfl, c', hc', hexp⟩ | ⟨rfl, -, hone⟩
      · exact .inr (.inr ⟨c, hold, rfl, fun h => h⟩)
      · exact .inr (.inr ⟨c', hc', hexp, fun h => h⟩)
      · rw [hone]
        exact .inr (.inl hk.1)
    | lost =>
      cases h
      rcases Redis.incr_cases hc with hold | ⟨rfl, c', hc', hexp⟩ | ⟨rfl, hnone, -⟩
      · exact .inr (.inr ⟨c, hold, rfl, fun h => h⟩)
      · exact .inr (.inr ⟨c', hc', hexp, fun h => h⟩)
      · exact absurd hnone (hm _ hp rfl _ k rfl)
  | expire name seconds =>
    have hends : ∀ {c : Counter}, ((s.config.state.redis.expire s.config.state.now name
        seconds).2 key = some c) → Counter.Ends c s.config.state.now ∨
        ∃ c', s.config.state.redis key = some c' ∧ c.expiresAt = c'.expiresAt ∧ name ≠ key := by
      intro c hc
      rcases Redis.expire_cases hc with ⟨hold, hexpired⟩ | ⟨rfl, hexp⟩
      · by_cases hkey : key = name
        · obtain ⟨t, ht, hle⟩ := hexpired hkey
          exact .inl ⟨t, ht, Int.le_trans hle (Int.le_add_of_nonneg_right (by decide))⟩
        · exact .inr ⟨c, hold, rfl, fun h => hkey h.symm⟩
      · obtain rfl : seconds = 60 := hk.1
        exact .inl ⟨_, hexp, Int.le_refl _⟩
    cases input with
    | request context => cases h
    | refused => exact absurd rfl (hm _ hp rfl name)
    | answered =>
      cases h
      rcases hends hc with h | ⟨c', hc', hexp, hne⟩
      · exact .inl h
      · exact .inr (.inr ⟨c', hc', hexp, hne⟩)
    | lost =>
      cases h
      rcases hends hc with h | ⟨c', hc', hexp, hne⟩
      · exact .inl h
      · exact .inr (.inr ⟨c', hc', hexp, hne⟩)

theorem Counters.step (hs : Counters s) {m : Move Unit Input ℕ} (hm : Spares s m)
    (h : s.step machine (workload E) m = some s') : Counters s' := by
  cases m with
  | start job =>
    obtain ⟨-, rfl⟩ := System.step_start h
    refine ⟨fun p hp => ?_, fun p hp q hq heq => ?_, fun p hp => ?_, fun key c hc => ?_⟩
    · rcases List.mem_cons.mp hp with rfl | hp
      · exact Nat.lt_succ_self _
      · exact Nat.lt_succ_of_lt (hs.fresh p hp)
    · rcases List.mem_cons.mp hp with rfl | hp <;> rcases List.mem_cons.mp hq with rfl | hq
      · rfl
      · exact absurd heq.symm (Nat.ne_of_lt (hs.fresh q hq))
      · exact absurd heq (Nat.ne_of_lt (hs.fresh p hp))
      · exact hs.distinct p hp q hq heq
    · rcases List.mem_cons.mp hp with rfl | hp
      · exact Expiring.serve E
      · exact hs.expiring p hp
    · exact (hs.ends key c hc).imp_right fun ⟨p, hp, howes⟩ => ⟨p, List.mem_cons_of_mem _ hp, howes⟩
  | stop pid =>
    cases h
    have hmem : ∀ p ∈ s.procs.filter (fun p => p.pid ≠ pid), p ∈ s.procs := fun p hp =>
      (List.mem_filter.mp hp).1
    refine ⟨fun p hp => hs.fresh p (hmem p hp), fun p hp q hq => hs.distinct p (hmem p hp) q (hmem q hq),
      fun p hp => hs.expiring p (hmem p hp), fun key c hc => ?_⟩
    refine (hs.ends key c hc).imp_right fun ⟨p, hp, howes⟩ => ⟨p, ?_, howes⟩
    exact List.mem_filter.mpr ⟨hp, decide_eq_true fun heq => hm p hp heq key howes⟩
  | env elapsed =>
    obtain ⟨state, hstate, rfl⟩ := System.step_env h
    obtain rfl := Option.some.inj hstate
    refine ⟨hs.fresh, hs.distinct, hs.expiring, fun key c hc => ?_⟩
    exact (hs.ends key c hc).imp_left fun hends =>
      hends.later (Int.le_add_of_nonneg_right (Int.natCast_nonneg elapsed))
  | perform pid input =>
    obtain ⟨⟨⟩, op, k, r, state, hp, hr, rfl⟩ := System.step_perform h
    have hmem : ∀ p ∈ s.procs.filter (fun p => p.pid ≠ pid), p ∈ s.procs ∧ p.pid ≠ pid := by
      intro p hp
      obtain ⟨hp, hne⟩ := List.mem_filter.mp hp
      exact ⟨hp, of_decide_eq_true hne⟩
    have hk := hs.expiring _ hp
    refine ⟨fun p hp' => ?_, fun p hp' q hq heq => ?_, fun p hp' => ?_, fun key c hc => ?_⟩
    · rcases List.mem_cons.mp hp' with rfl | hp'
      · exact hs.fresh ⟨pid, (), .await op k⟩ hp
      · exact hs.fresh p (hmem p hp').1
    · rcases List.mem_cons.mp hp' with rfl | hp' <;> rcases List.mem_cons.mp hq with rfl | hq
      · rfl
      · exact absurd heq.symm (hmem q hq).2
      · exact absurd heq (hmem p hp').2
      · exact hs.distinct p (hmem p hp').1 q (hmem q hq).1 heq
    · rcases List.mem_cons.mp hp' with rfl | hp'
      · exact hk.next r
      · exact hs.expiring p (hmem p hp').1
    · rcases respond_ends hk hr hp hm hc with hends | howes | ⟨c', hc', hexp, hnot⟩
      · exact .inl hends
      · exact .inr ⟨_, List.mem_cons_self, howes⟩
      · rcases hs.ends key c' hc' with ⟨t, ht, hle⟩ | ⟨q, hq, howes⟩
        · refine .inl ⟨t, hexp.trans ht, ?_⟩
          show t ≤ state.now + 60000
          rw [respond_now (show machine.respond (⟨pid, op, r⟩ : Event calls).pid _ _ _ = _ from hr)]
          exact hle
        · -- the request that owes the expiry is another one
          have hne : q.pid ≠ pid := by
            intro heq
            obtain rfl := hs.distinct q hq _ hp heq
            exact hnot howes
          exact .inr ⟨q, List.mem_cons_of_mem _ (List.mem_filter.mpr ⟨hq, decide_eq_true hne⟩), howes⟩

theorem Unhindered.counters (hs : Unhindered E s) : Counters s := by
  induction hs with
  | initial now =>
    refine ⟨?_, ?_, ?_, fun key c hc => by cases hc⟩
    · exact fun p hp => absurd hp List.not_mem_nil
    · exact fun p hp => absurd hp List.not_mem_nil
    · exact fun p hp => absurd hp List.not_mem_nil
  | step m _ hm hstep ih => exact ih.step hm hstep

end Kept

/-! ## A client that pauses -/

/-- The command is about the key. -/
def Op.Names (key : String) : Op → Prop
  | .incr k => k = key
  | .expire k _ => k = key
  | _ => False

/-- No request in progress awaits a command on the key. -/
def Idle (key : String) (s : RateSystem) : Prop :=
  ∀ p ∈ s.procs, ∀ op k, p.prog = .await op k → ¬ op.Names key

/-- The request is the first one of a window, and passes unless Redis fails. -/
def Admits (E : RateEnv) (context : ExecutionContext) (category : RateLimitCategory) (s : State) :
    Prop :=
  (s.redis.incr s.now (E.redisKey category context.request)).1 = 1 ∧
    ∀ f : (op : Op) → Op.Ret op, f (.incr (E.redisKey category context.request)) = .ok 1 →
      (E.canActivate context).against f = .ok true ∨ ∃ e,
        f (.expire (E.redisKey category context.request) (E.resolveLimit category).windowSeconds) =
          .error e ∧ (E.canActivate context).against f = .error e

section Pause

variable {E : RateEnv} {s s' : RateSystem} {key : String} {context : ExecutionContext}
  {category : RateLimitCategory}

theorem idle_of_ended (h : ∀ p ∈ s.procs, p.prog.ended = true) : Idle key s := by
  intro p hp op k hprog
  have hended := h p hp
  rw [hprog] at hended
  cases hended

theorem Idle.not_owes (h : Idle key s) {p : Proc calls Failure Unit} (hp : p ∈ s.procs) :
    ¬ Owes key p.prog := by
  obtain ⟨pid, job, prog⟩ := p
  intro howes
  cases prog with
  | ret a => exact howes
  | throw e => exact howes
  | await op k =>
    cases op with
    | expire name seconds => exact h _ hp _ k rfl howes
    | receive => exact howes
    | incr name => exact howes
    | handle => exact howes

/-- Commands on other keys leave the counter. -/
theorem respond_frame {pid : ℕ} {w w' : State} {op : Op} {input : Input} {r : Op.Ret op}
    (h : machine.respond pid w op input = some (r, w')) (hop : ¬ op.Names key) :
    w'.redis key = w.redis key := by
  cases op with
  | receive =>
    cases input <;> cases h
    rfl
  | handle =>
    cases input <;> cases h
    rfl
  | incr name =>
    have hframe : (w.redis.incr w.now name).2 key = w.redis key :=
      Redis.incr_frame fun heq => hop heq.symm
    cases input <;> cases h
    · exact hframe
    · rfl
    · exact hframe
  | expire name seconds =>
    have hne : key ≠ name := fun heq => hop heq.symm
    cases input <;> cases h
    · exact Redis.expire_frame hne
    · rfl
    · exact Redis.expire_frame hne

/-- While a client pauses, its counter stays as it is. -/
theorem pause_keeps (h : Leads machine (workload E) (fun _ _ op => ¬ op.Names key) s s') :
    s'.config.state.redis key = s.config.state.redis key ∧ s.config.state.now ≤ s'.config.state.now := by
  refine h.keeps (R := fun t => t.config.state.redis key = s.config.state.redis key ∧
    s.config.state.now ≤ t.config.state.now) ⟨rfl, Int.le_refl _⟩ fun t u m ht hm hstep => ?_
  obtain ⟨hredis, hnow⟩ := ht
  cases m with
  | start job =>
    obtain ⟨-, rfl⟩ := System.step_start hstep
    exact ⟨hredis, hnow⟩
  | stop pid =>
    cases hstep
    exact ⟨hredis, hnow⟩
  | env elapsed =>
    obtain ⟨state, hstate, rfl⟩ := System.step_env hstep
    obtain rfl := Option.some.inj hstate
    exact ⟨hredis, Int.le_trans hnow (Int.le_add_of_nonneg_right (Int.natCast_nonneg elapsed))⟩
  | perform pid input =>
    obtain ⟨job, op, k, r, state, hp, hr, rfl⟩ := System.step_perform hstep
    refine ⟨(respond_frame hr (hm pid input job op k rfl hp)).trans hredis, ?_⟩
    show s.config.state.now ≤ state.now
    rw [respond_now (show machine.respond (⟨pid, op, r⟩ : Event calls).pid _ _ _ = _ from hr)]
    exact hnow

theorem canActivate_first (hcat : context.category = some category)
    (hlimit : 1 ≤ (E.resolveLimit category).limit) {f : (op : Op) → Op.Ret op}
    (hf : f (.incr (E.redisKey category context.request)) = .ok 1) :
    (E.canActivate context).against f = .ok true ∨ ∃ e,
      f (.expire (E.redisKey category context.request) (E.resolveLimit category).windowSeconds) =
        .error e ∧ (E.canActivate context).against f = .error e := by
  have hpasses : ¬ 1 > (E.resolveLimit category).limit := Nat.not_lt.mpr hlimit
  have hguard : (E.canActivate context).against f =
      f (.expire (E.redisKey category context.request) (E.resolveLimit category).windowSeconds) >>=
        fun _ => .ok true := by
    unfold RateEnv.canActivate
    rw [hcat]
    simp only [RateLimits.incr, RateLimits.expire, Prog.against_bind, Prog.against_request]
    rw [hf]
    show Prog.against (S := calls) f (if 1 = 1 then _ else _) = _
    rw [if_pos rfl, Prog.against_bind, Prog.against_request, if_neg hpasses]
    rfl
  rw [hguard]
  cases hexpire : f (.expire (E.redisKey category context.request)
    (E.resolveLimit category).windowSeconds) with
  | ok b => exact .inl rfl
  | error e => exact .inr ⟨e, rfl, rfl⟩

/-- Whatever the requests of the clients, and however they are interleaved: if no request is cut
    short between the `INCR` that creates a counter and the `EXPIRE` that follows, a counter on
    which no request is in progress has an expiry of at most a window, and a client that pauses for
    a window is admitted again. -/
theorem windows_end (E : RateEnv) (hE : ∀ category, 1 ≤ (E.resolveLimit category).limit)
    {s : RateSystem} (hs : Unhindered E s) (context : ExecutionContext)
    (category : RateLimitCategory) (hcat : context.category = some category)
    (hidle : Idle (E.redisKey category context.request) s) :
    (∀ c, s.config.state.redis.get s.config.state.now (E.redisKey category context.request) = some c →
      ∃ t, c.expiresAt = some t ∧
        t ≤ s.config.state.now + (E.resolveLimit category).windowSeconds * 1000) ∧
    ∀ s', Leads machine (workload E)
        (fun _ _ op => ¬ op.Names (E.redisKey category context.request)) s s' →
      s.config.state.now + (E.resolveLimit category).windowSeconds * 1000 ≤ s'.config.state.now →
      Admits E context category s'.config.state := by
  have hends : ∀ c, s.config.state.redis (E.redisKey category context.request) = some c →
      Counter.Ends c s.config.state.now := by
    intro c hc
    refine (hs.counters.ends _ c hc).resolve_right ?_
    rintro ⟨p, hp, howes⟩
    exact hidle.not_owes hp howes
  rw [window_eq]
  refine ⟨fun c hc => hends c (Redis.get_eq_some hc), fun s' hpause hlate => ?_⟩
  obtain ⟨hredis, -⟩ := pause_keeps hpause
  refine ⟨Redis.incr_of_get ?_, fun f hf => canActivate_first hcat (hE category) hf⟩
  cases hget : s'.config.state.redis.get s'.config.state.now
    (E.redisKey category context.request) with
  | none => rfl
  | some c =>
    obtain ⟨hc, hlive⟩ := Option.filter_eq_some_iff.mp hget
    obtain ⟨t, ht, hle⟩ := hends c (hredis.symm.trans hc)
    have hlt : s'.config.state.now < t := by
      unfold Counter.live at hlive
      rw [ht] at hlive
      exact of_decide_eq_true hlive
    exact absurd (Int.le_trans hle hlate) (Int.not_le.mpr hlt)

end Pause

/-! ## Two runs -/

/-- A request arrives, or a command is answered. -/
def Answers : Move Unit Input ℕ → Bool
  | .start _ => true
  | .perform _ (.request _) => true
  | .perform _ .answered => true
  | .env _ => true
  | _ => false

theorem Unhindered.run {E : RateEnv} {s s' : RateSystem} {ms : List (Move Unit Input ℕ)}
    (hs : Unhindered E s) (hms : ms.all Answers = true)
    (h : s.run machine (workload E) ms = some s') : Unhindered E s' := by
  induction ms generalizing s with
  | nil =>
    obtain rfl := Option.some.inj h
    exact hs
  | cons m ms ih =>
    obtain ⟨t, ht, h⟩ := Option.bind_eq_some_iff.mp h
    obtain ⟨hm, hms⟩ := Bool.and_eq_true_iff.mp hms
    refine ih (.step m hs ?_ ht) hms h
    cases m with
    | start job => trivial
    | env act => trivial
    | stop pid => cases hm
    | perform pid input =>
      cases input with
      | request context => trivial
      | answered => trivial
      | refused => cases hm
      | lost => cases hm

/-- A login is served; a minute later the next one is the first of a window. -/
theorem windows_end_login : ∃ s, Unhindered sampleRates s ∧
    (s.config.state.redis (sampleRates.redisKey .login (loginAs "a@b.io").request)).map
      Counter.expiresAt = some (some 60000) ∧
    Admits sampleRates (loginAs "a@b.io") .login ⟨s.config.state.redis, 60000⟩ := by
  have hrun : ((System.initial noCounters).run machine (workload sampleRates)
      (request 0 (loginAs "a@b.io") 3)).map (fun s => (s.procs.all fun p => p.prog.ended,
        (s.config.state.redis (sampleRates.redisKey .login (loginAs "a@b.io").request)).map
          Counter.expiresAt, s.config.state.now)) = some (true, some (some 60000), 0) := by
    decide
  obtain ⟨s, hs, hview⟩ := Option.map_eq_some_iff.mp hrun
  obtain ⟨hended, hview⟩ := Prod.mk.inj hview
  obtain ⟨hexpires, hnow⟩ := Prod.mk.inj hview
  have hunhindered : Unhindered sampleRates s := (Unhindered.initial 0).run (by decide) hs
  refine ⟨s, hunhindered, hexpires, ?_⟩
  have hlimits : ∀ category, 1 ≤ (sampleRates.resolveLimit category).limit := by
    intro category
    cases category <;> decide
  obtain ⟨-, hadmits⟩ := windows_end sampleRates hlimits hunhindered (loginAs "a@b.io") .login rfl
    (idle_of_ended (List.all_eq_true.mp hended))
  have hpause : Leads machine (workload sampleRates) (fun _ _ op => ¬ op.Names
      (sampleRates.redisKey .login (loginAs "a@b.io").request)) s
      { s with config := { s.config with state := ⟨s.config.state.redis, 60000⟩ } } := by
    refine .step (.env 60000) .refl (fun pid input job op k heq => by cases heq) ?_
    show some _ = some _
    rw [hnow]
    rfl
  refine hadmits _ hpause ?_
  rw [hnow]
  show (0 : ℤ) + 60 * 1000 ≤ 60000
  decide

theorem canActivate_over {E : RateEnv} {context : ExecutionContext} {category : RateLimitCategory}
    {count : ℕ} (hcat : context.category = some category)
    (hlimit : (E.resolveLimit category).limit < count) (hone : count ≠ 1)
    {f : (op : Op) → Op.Ret op}
    (hf : f (.incr (E.redisKey category context.request)) = .ok count) :
    (E.canActivate context).against f =
      .error (.thrown (.rateLimited "Too many requests, please try again later")) := by
  unfold RateEnv.canActivate
  rw [hcat]
  simp only [RateLimits.incr, RateLimits.expire, Prog.against_bind, Prog.against_request]
  rw [hf]
  show Prog.against (S := calls) f (if count = 1 then _ else _) = _
  rw [if_neg hone, if_pos hlimit]
  rfl

/-- The process stops between the `INCR` and the `EXPIRE` of a login; four more are served. -/
def cutLogin : List (Move Unit Input ℕ) :=
  request 0 (loginAs "a@b.io") 1 ++ [.stop 0] ++
    [1, 2, 3, 4].flatMap fun pid => request pid (loginAs "a@b.io") 2

/-- No request is in progress, the counter has no expiry, and however long the client pauses, its
    next login is rejected. -/
theorem counter_kept : ∃ s, Reachable machine (workload sampleRates) (fun w => w = noCounters)
      anything s ∧ (∀ p ∈ s.procs, p.prog.ended = true) ∧
    (s.config.state.redis (sampleRates.redisKey .login (loginAs "a@b.io").request)).map
      Counter.expiresAt = some none ∧
    ∀ (elapsed : ℕ) (f : (op : Op) → Op.Ret op),
      f (.incr (sampleRates.redisKey .login (loginAs "a@b.io").request)) =
        .ok (s.config.state.redis.incr (s.config.state.now + elapsed)
          (sampleRates.redisKey .login (loginAs "a@b.io").request)).1 →
      (sampleRates.canActivate (loginAs "a@b.io")).against f =
        .error (.thrown (.rateLimited "Too many requests, please try again later")) := by
  have hrun : ((System.initial noCounters).run machine (workload sampleRates) cutLogin).map
      (fun s => (s.procs.all fun p => p.prog.ended,
        (s.config.state.redis (sampleRates.redisKey .login (loginAs "a@b.io").request)).map
          fun c => (c.value, c.expiresAt))) = some (true, some (5, none)) := by
    decide
  obtain ⟨s, hs, hview⟩ := Option.map_eq_some_iff.mp hrun
  obtain ⟨hended, hcounter⟩ := Prod.mk.inj hview
  obtain ⟨c, hc, hcview⟩ := Option.map_eq_some_iff.mp hcounter
  obtain ⟨hvalue, hexpires⟩ := Prod.mk.inj hcview
  refine ⟨s, .run cutLogin (.initial rfl) hs, List.all_eq_true.mp hended, ?_, fun elapsed f hf => ?_⟩
  · rw [hc]
    exact congrArg some hexpires
  · have hget : s.config.state.redis.get (s.config.state.now + elapsed)
        (sampleRates.redisKey .login (loginAs "a@b.io").request) = some c := by
      refine Option.filter_eq_some_iff.mpr ⟨hc, ?_⟩
      unfold Counter.live
      rw [hexpires]
      rfl
    have hcount : (s.config.state.redis.incr (s.config.state.now + elapsed)
        (sampleRates.redisKey .login (loginAs "a@b.io").request)).1 = 6 := by
      unfold Redis.incr
      rw [hget]
      exact congrArg (· + 1) hvalue
    rw [hcount] at hf
    exact canActivate_over rfl (by decide) (by decide) hf

end RateLimits

end Api

end CryptoPay
