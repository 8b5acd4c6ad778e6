import CryptoPay.Accounts.Suspension
import CryptoPay.Async.Timed
import CryptoPay.Data.Windows

/-!
# Account lockout

`login` reads the failure counter and the lock of an account when it looks the
account up, and `registerFailedLogin` writes the counter it has read, plus one.
Logins that overlap read the same counter. `InTurn` is the condition that a
guess is only evaluated while counter and lock are as the login has read them
and every earlier wrong guess has been registered.

Results:
* `lockout_bounds`: under `InTurn`, between two successful logins at most five
  wrong guesses are evaluated in any half-open window of fifteen minutes,
  whatever other calls run.
* `lockout_evaded`: without it, six logins that overlap have six guesses
  evaluated at the same time.
-/

namespace CryptoPay.Accounts

open Async Data

/-! ## Guesses -/

/-- The user that a login looked up. -/
def attemptedBy : Event calls → Option User
  | ⟨_, .db (.userFindUnique (.email _)), .ok r⟩ => r
  | _ => none

/-- The account that a login looked up. -/
def Attempted (h : Requests) (a : String) (u : User) : Prop :=
  u ∈ h.filterMap attemptedBy ∧ u.id = a

/-- The request is a wrong guess in a login to the account. -/
def guess (a : String) (tr : Requests) (ev : Event calls) : Bool :=
  missed ev && ((own ev.pid tr).filterMap attemptedBy).any fun u => u.id = a

/-- The request completes a login to the account: no other update sets `lastLoginAt`. -/
def succeeds (a : String) : Event calls → Bool
  | ⟨_, .db (.userUpdate id data), .ok _⟩ => id = a && data.lastLoginAt.isSome
  | _ => false

/-- A user was updated. -/
def registers : Event calls → Bool
  | ⟨_, .db (.userUpdate ..), .ok _⟩ => true
  | _ => false

/-- The call has updated its user. -/
def Registered (h : Requests) : Prop := ∃ ev ∈ h, registers ev = true

/-- The request evaluates a password or a code. -/
def Op.Evaluates : Op → Prop
  | .verifyPassword .. => True
  | .verifyTotp .. => True
  | _ => False

/-- A login to the account evaluates a guess while counter and lock are as it has read them, and
    after every wrong guess before it has been registered. -/
def InTurn (a : String) : Condition calls State := fun c pid op =>
  op.Evaluates → ∀ u, Attempted (own pid c.trace) a u →
    (∀ v ∈ c.state.db.users, v.id = a →
      v.failedLoginAttempts = u.failedLoginAttempts ∧ v.lockedUntil = u.lockedUntil) ∧
    ∀ ev ∈ c.trace, guess a c.trace ev = true → Registered (own ev.pid c.trace)

/-- The account is stored, and its counter is not negative. -/
def State.HasAccount (a : String) (s : State) : Prop :=
  (∃ v ∈ s.db.users, v.id = a) ∧ ∀ v ∈ s.db.users, v.id = a → 0 ≤ v.failedLoginAttempts

/-- The times of the wrong guesses since the last login that succeeded, newest first. -/
def recent (a : String) (tr : Requests) (l : List (Time × Event calls)) : List Time :=
  ((l.takeWhile fun e => !succeeds a e.2).filter fun e => guess a tr e.2).map Prod.fst

/-- The counter covers the guesses, and from the fifth on the lock does. -/
def Covers (ts : List Time) (attempts : ℤ) (lock : Option Time) : Prop :=
  ts.length ≤ attempts ∧ (5 ≤ ts.length → ∃ until_, lock = some until_ ∧
    ∀ t ∈ ts.head?, t + failedLoginLockDurationMs ≤ until_)

/-- What holds of the account under `InTurn`. -/
structure Counted (a : String) (c : Config calls State) (l : List (Time × Event calls))
    (F : Job → ℕ → Prop) : Prop where
  past : ∀ e ∈ l, e.1 ≤ c.state.now
  sorted : l.Pairwise fun e e' => e'.1 ≤ e.1
  clock : ∀ t, Clocked c.trace t → t ≤ c.state.now
  account : c.state.HasAccount a
  read : ∀ u, Looked c.trace u → u.id = a → 0 ≤ u.failedLoginAttempts
  spaced : ∀ l', l' <:+ l → Spaced 5 failedLoginLockDurationMs (recent a c.trace l')
  settled : (∀ ev ∈ c.trace, guess a c.trace ev = true → Registered (own ev.pid c.trace)) →
    ∀ v ∈ c.state.db.users, v.id = a →
      Covers (recent a c.trace l) v.failedLoginAttempts v.lockedUntil
  /-- A wrong guess that is not registered yet. -/
  pending : ∀ j p, F j p → ∀ u, Attempted (own p c.trace) a u →
    (∃ ev ∈ own p c.trace, missed ev = true) → ¬ Registered (own p c.trace) →
      (recent a c.trace l).length ≤ u.failedLoginAttempts + 1
  /-- The clock that the lock is set by was read after the guesses. -/
  noted : ∀ j p, F j p → ∀ u, Attempted (own p c.trace) a u → ∀ q t ev h,
    own p c.trace = ⟨q, .session .now, t⟩ :: ev :: h → missed ev = true →
      ∀ t' ∈ recent a c.trace l, t' ≤ t

/-! ## What is expected of a call -/

section Expected

variable {E : Env} {j : Job} {h : Requests} {a : String} {u : User}

theorem Attempted.looked (hu : Attempted h a u) : Looked h u := by
  obtain ⟨⟨pid, op, r⟩, hmem, heq⟩ := List.mem_filterMap.mp hu.1
  refine looked_of_mem (List.mem_filterMap.mpr ⟨_, hmem, ?_⟩)
  cases op with
  | db call =>
    cases call with
    | userFindUnique w =>
      cases w with
      | email email => cases r <;> exact heq
      | id id => cases heq
    | _ => cases heq
  | _ => cases heq

/-- Only registrations and logins look an email up. -/
theorem Attempted.job (hh : InOrder (expected E j) h) (hu : Attempted h a u) :
    (∃ input ctx, j = .login input ctx) ∨ ∃ input ctx, j = .register input ctx := by
  obtain ⟨⟨pid, op, r⟩, hmem, heq⟩ := List.mem_filterMap.mp hu.1
  obtain ⟨h', -, he⟩ := hh.mem hmem
  cases op with
  | db call =>
    cases call with
    | userFindUnique w =>
      cases w with
      | email email =>
        cases j with
        | login input ctx => exact .inl ⟨input, ctx, rfl⟩
        | register input ctx => exact .inr ⟨input, ctx, rfl⟩
        | enableTwoFactor userId => exact absurd he.2 nofun
        | confirmTwoFactor userId code => exact absurd he.2 nofun
        | _ => exact absurd he id
      | id id => cases heq
    | _ => cases heq
  | _ => cases heq

/-- Whom a login has looked up, it has looked up by email. -/
theorem Looked.attempted {input : LoginInput} {ctx : Api.RequestContext}
    (hh : InOrder (expected E (.login input ctx)) h) (hu : Looked h u) (hid : u.id = a) :
    Attempted h a u := by
  obtain ⟨pid, w, hmem⟩ := hu
  obtain ⟨h', -, he⟩ := hh.mem hmem
  obtain ⟨-, rfl⟩ : h' = [] ∧ w = .email input.email := he
  exact ⟨List.mem_filterMap.mpr ⟨_, hmem, rfl⟩, hid⟩

/-- A guess is evaluated by a login that has admitted its user, once. -/
theorem expected_evaluates {op : Op} (he : expected E j h op) (hop : op.Evaluates)
    (hh : InOrder (expected E j) h) (hu : Attempted h a u) : Clean h ∧ Admitted h u := by
  have hsame : ∀ {v : User}, Admitted h v → Admitted h u := fun hv => by
    rw [Looked.unique hh hu.looked hv.looked]
    exact hv
  rcases hu.job hh with ⟨input, ctx, rfl⟩ | ⟨input, ctx, rfl⟩
  · cases op with
    | verifyPassword hash password =>
      obtain ⟨hclean, ⟨v, hv, -⟩, -⟩ := he
      exact ⟨hclean, hsame hv⟩
    | verifyTotp secret code =>
      obtain ⟨hclean, v, hv, -⟩ := he
      exact ⟨hclean, hsame hv⟩
    | _ => exact absurd hop id
  · cases op with
    | verifyPassword hash password => exact absurd he id
    | verifyTotp secret code => exact absurd he id
    | _ => exact absurd hop id

/-- A query that some call makes leaves counter and lock of a user alone, or is the update of a
    login that has looked that user up. -/
theorem expected_counter {call : AccountCall} (he : expected E j h (.db call)) (v : User) :
    ((call.onUser v).failedLoginAttempts = v.failedLoginAttempts ∧
      (call.onUser v).lockedUntil = v.lockedUntil) ∨
    ∃ input ctx u data, j = .login input ctx ∧ call = .userUpdate v.id data ∧ Admitted h u ∧
      u.id = v.id ∧ (Registers h u data ∨ Clean h ∧ ∃ now, data = successData now) := by
  cases call with
  | userUpdate target data =>
    by_cases hid : v.id = target
    · subst hid
      have hon : (AccountCall.userUpdate v.id data).onUser v = v.updated data := updatedIf_of_eq rfl
      cases j with
      | login input ctx =>
        obtain ⟨u, hu, huid, hdata⟩ := he
        exact .inr ⟨input, ctx, u, data, rfl, rfl, hu, huid, hdata.imp_right fun hd =>
          ⟨hd.1, hd.2.2⟩⟩
      | enableTwoFactor userId =>
        obtain ⟨-, -, encrypted, rfl⟩ := he
        exact .inl ⟨by rw [hon]; rfl, by rw [hon]; rfl⟩
      | confirmTwoFactor userId code =>
        obtain ⟨-, rfl, -⟩ := he
        exact .inl ⟨by rw [hon]; rfl, by rw [hon]; rfl⟩
      | _ => exact absurd he id
    · have hon : (AccountCall.userUpdate target data).onUser v = v := updatedIf_of_ne hid
      exact .inl ⟨by rw [hon], by rw [hon]⟩
  | consume tokenId at_ userId data =>
    cases j with
    | verifyEmail rawToken =>
      obtain ⟨-, verifiedAt, rfl⟩ := he
      by_cases hid : v.id = userId
      · have hon : (AccountCall.consume tokenId at_ userId (verifiedData verifiedAt)).onUser v =
          v.updated (verifiedData verifiedAt) := updatedIf_of_eq hid
        exact .inl ⟨by rw [hon]; rfl, by rw [hon]; rfl⟩
      · have hon : (AccountCall.consume tokenId at_ userId (verifiedData verifiedAt)).onUser v = v :=
          updatedIf_of_ne hid
        exact .inl ⟨by rw [hon], by rw [hon]⟩
    | _ => exact absurd he id
  | _ => exact .inl ⟨rfl, rfl⟩

/-- A call that has looked an email up only updates that user, as a login does. -/
theorem expected_update {id : String} {data : UserUpdateInput}
    (he : expected E j h (.db (.userUpdate id data))) (hh : InOrder (expected E j) h)
    (hu : Attempted h a u) : id = a ∧
      (Registers h u data ∨ Clean h ∧ ∃ now, data = successData now) := by
  rcases hu.job hh with ⟨input, ctx, rfl⟩ | ⟨input, ctx, rfl⟩
  · obtain ⟨v, hv, hvid, hdata⟩ := he
    obtain rfl : u = v := Looked.unique hh hu.looked hv.looked
    exact ⟨hvid.symm.trans hu.2, hdata.imp_right fun hd => ⟨hd.1, hd.2.2⟩⟩
  · exact absurd he not_false

end Expected

/-! ## What one more request changes of the readings -/

section Readings

variable {E : Env} {a : String} {c : Config calls State} {F : Job → ℕ → Prop} {j : Job}
  {ev : Event calls} {state : State} {l : List (Time × Event calls)}

/-- A call that has made a request looks up no further user. -/
theorem attempted_own (hp : Performs E.machine (InTurn a) (expected E) c F j ev state) {p : ℕ}
    (hne : own p c.trace ≠ []) :
    (own p (ev :: c.trace)).filterMap attemptedBy = (own p c.trace).filterMap attemptedBy := by
  by_cases hpid : ev.pid = p
  · subst hpid
    rw [own_cons_self]
    refine List.filterMap_cons_none ?_
    have he := hp.expected
    obtain ⟨pid, op, r⟩ := ev
    cases op with
    | db call =>
      cases call with
      | userFindUnique w => exact absurd (expected_find he) hne
      | _ => rfl
    | _ => rfl
  · rw [own_cons_of_ne hpid]

/-- What a guess is does not change. -/
theorem guess_kept (hp : Performs E.machine (InTurn a) (expected E) c F j ev state)
    {e : Event calls} (he : e ∈ c.trace) : guess a (ev :: c.trace) e = guess a c.trace e := by
  have hne : own e.pid c.trace ≠ [] := List.ne_nil_of_mem (mem_own.mpr ⟨he, rfl⟩)
  rw [guess, guess, attempted_own hp hne]

theorem recent_kept (hp : Performs E.machine (InTurn a) (expected E) c F j ev state)
    {l' : List (Time × Event calls)} (hl' : ∀ e ∈ l', e.2 ∈ c.trace) :
    recent a (ev :: c.trace) l' = recent a c.trace l' := by
  unfold recent
  congr 1
  refine List.filter_congr fun e he => guess_kept hp (hl' e ?_)
  exact (List.takeWhile_sublist _).subset he

theorem recent_cons (hp : Performs E.machine (InTurn a) (expected E) c F j ev state)
    (htrace : l.map Prod.snd = c.trace) (t : Time) :
    recent a (ev :: c.trace) ((t, ev) :: l) =
      if succeeds a ev then [] else
        if guess a (ev :: c.trace) ev then t :: recent a c.trace l else recent a c.trace l := by
  have hl : ∀ e ∈ l, e.2 ∈ c.trace := fun e he => htrace ▸ List.mem_map_of_mem he
  rw [← recent_kept hp hl]
  by_cases hs : succeeds a ev = true
  · simp [recent, hs]
  · by_cases hg : guess a (ev :: c.trace) ev = true
    · simp [recent, hs, hg]
    · simp [recent, hs, hg]

/-- The guesses are at most those before and the new one. -/
theorem recent_le (hp : Performs E.machine (InTurn a) (expected E) c F j ev state)
    (htrace : l.map Prod.snd = c.trace) (hno : guess a (ev :: c.trace) ev = false) (t : Time) :
    recent a (ev :: c.trace) ((t, ev) :: l) = [] ∨
      succeeds a ev = false ∧
        recent a (ev :: c.trace) ((t, ev) :: l) = recent a c.trace l := by
  rw [recent_cons hp htrace]
  by_cases hs : succeeds a ev = true
  · exact .inl (if_pos hs)
  · exact .inr ⟨Bool.eq_false_iff.mpr hs, by simp [hs, hno]⟩

/-- A wrong guess evaluates something. -/
theorem evaluates_of_missed (h : missed ev = true) : ev.op.Evaluates := by
  obtain ⟨pid, op, r⟩ := ev
  cases op with
  | verifyPassword hash password => trivial
  | verifyTotp secret code => trivial
  | _ => cases h

theorem recent_guess (hp : Performs E.machine (InTurn a) (expected E) c F j ev state)
    (htrace : l.map Prod.snd = c.trace) (hg : guess a (ev :: c.trace) ev = true) (t : Time) :
    recent a (ev :: c.trace) ((t, ev) :: l) = t :: recent a c.trace l := by
  have hs : succeeds a ev = false := by
    obtain ⟨hm, -⟩ := Bool.and_eq_true_iff.mp hg
    obtain ⟨p, op, r⟩ := ev
    cases op with
    | verifyPassword hash password => rfl
    | verifyTotp secret code => rfl
    | _ => cases hm
  rw [recent_cons hp htrace, hs, hg]
  rfl

/-- A guess is made by a call that has looked the account up before. -/
theorem guess_inv (hp : Performs E.machine (InTurn a) (expected E) c F j ev state)
    (hg : guess a (ev :: c.trace) ev = true) :
    missed ev = true ∧ ∃ u, Attempted (own ev.pid c.trace) a u := by
  obtain ⟨hm, hany⟩ := Bool.and_eq_true_iff.mp hg
  have hnone : attemptedBy ev = none := by
    obtain ⟨pid, op, r⟩ := ev
    cases op with
    | verifyPassword hash password => rfl
    | verifyTotp secret code => rfl
    | _ => cases hm
  rw [own_cons_self, List.filterMap_cons_none hnone] at hany
  obtain ⟨u, hu, hid⟩ := List.any_eq_true.mp hany
  exact ⟨hm, u, hu, of_decide_eq_true hid⟩

/-- A wrong answer to a login of the account is a guess. -/
theorem guess_of_missed {p : ℕ} {tr : Requests} {e : Event calls} {u : User}
    (hu : Attempted (own p tr) a u) (he : e ∈ own p tr) (hm : missed e = true) :
    guess a tr e = true := by
  obtain ⟨-, rfl⟩ := mem_own.mp he
  exact Bool.and_eq_true_iff.mpr ⟨hm, List.any_eq_true.mpr ⟨u, hu.1, decide_eq_true hu.2⟩⟩

theorem not_registered_of_clean {h : Requests} (hh : Clean h) : ¬ Registered h := by
  rintro ⟨ev, hev, hr⟩
  have hw := (hh ev hev).2
  obtain ⟨pid, op, r⟩ := ev
  cases op with
  | db call =>
    cases call with
    | userUpdate id data => cases hw
    | _ => cases hr
  | _ => cases hr

theorem not_registered_missed {e : Event calls} {h : Requests} (he : missed e = true)
    (hh : Clean h) : ¬ Registered (e :: h) := by
  rintro ⟨e', hmem, hr⟩
  rcases List.mem_cons.mp hmem with rfl | hmem
  · obtain ⟨p, op, r⟩ := e'
    cases op with
    | verifyPassword hash password => cases hr
    | verifyTotp secret code => cases hr
    | _ => cases he
  · exact not_registered_of_clean hh ⟨e', hmem, hr⟩

/-- A wrong guess is no lookup. -/
theorem attempted_missed {e : Event calls} {h : Requests} {u : User} (he : missed e = true)
    (hu : Attempted (e :: h) a u) : Attempted h a u := by
  refine ⟨?_, hu.2⟩
  rw [← List.filterMap_cons_none (show attemptedBy e = none from ?_)]
  · exact hu.1
  · obtain ⟨p, op, r⟩ := e
    cases op with
    | verifyPassword hash password => rfl
    | verifyTotp secret code => rfl
    | _ => cases he

end Readings

/-! ## One request -/

section Step

variable {E : Env} {a : String} {c : Config calls State} {F : Job → ℕ → Prop} {j : Job}
  {ev : Event calls} {state : State} {l : List (Time × Event calls)}
  (hc : Counted a c l F) (hp : Performs E.machine (InTurn a) (expected E) c F j ev state)

include hc hp

omit hc hp in
/-- The counter that a login writes is not negative. -/
theorem counter_after {u : User} {data : UserUpdateInput} {v : User} {h : Requests}
    (hlooked : 0 ≤ u.failedLoginAttempts)
    (hdata : Registers h u data ∨ Clean h ∧ ∃ now, data = successData now) :
    0 ≤ (v.updated data).failedLoginAttempts := by
  rcases hdata with (⟨-, -, -, -, -, -, rfl⟩ | ⟨-, now, -, -, -, -, -, -, rfl⟩) | ⟨-, now, rfl⟩
  · show 0 ≤ u.failedLoginAttempts + 1
    omega
  · show 0 ≤ u.failedLoginAttempts + 1
    omega
  · exact Int.le_refl 0

theorem account_step : state.HasAccount a := by
  obtain ⟨i, hr⟩ := hp.reply
  obtain ⟨⟨v, hv, hvid⟩, hcounter⟩ := hc.account
  obtain ⟨u, hu, hcase⟩ := users_before hr hv
  have huid : u.id = a := by
    rcases hcase with rfl | ⟨p, call, r, -, rfl⟩
    · exact hvid
    · rw [onUser_id, hvid]
  refine ⟨⟨u, hu, huid⟩, fun w hw hwid => ?_⟩
  rw [UserTable.eq_of_id hw hu (hwid.trans huid.symm)]
  rcases hcase with rfl | ⟨p, call, r, rfl, rfl⟩
  · exact hcounter u hv hvid
  · rcases expected_counter hp.expected v with ⟨hkept, -⟩ |
      ⟨input, ctx, w, data, -, rfl, hw, hwid, hdata⟩
    · rw [hkept]
      exact hcounter v hv hvid
    · rw [show (AccountCall.userUpdate v.id data).onUser v = v.updated data from
        updatedIf_of_eq rfl]
      exact counter_after (hc.read w hw.looked.of_own (hwid.trans hvid)) hdata

theorem read_step (u : User) (hu : Looked (ev :: c.trace) u) (hid : u.id = a) :
    0 ≤ u.failedLoginAttempts := by
  obtain ⟨p, w, hmem⟩ := hu
  rcases List.mem_cons.mp hmem with rfl | hmem
  · obtain ⟨i, hr⟩ := hp.reply
    obtain ⟨⟨cuid, hexec⟩, -⟩ := respond_db hr
    exact hc.account.2 u (((exec_findUser hexec).2 u).mp rfl).1 hid
  · exact hc.read u ⟨p, w, hmem⟩ hid

theorem clock_step (t : Time) (ht : Clocked (ev :: c.trace) t) : t ≤ state.now := by
  obtain ⟨i, hr⟩ := hp.reply
  rw [respond_now hr]
  rcases ht.inv with ⟨p, rfl⟩ | ht
  · obtain ⟨⟨k, hk⟩, -⟩ := respond_session hr
    obtain rfl : t = c.state.now := (Auth.respond_now hk).1
    exact Int.le_refl _
  · exact hc.clock t ht

/-- A wrong guess finds the guesses before it covered by what its login has read. -/
theorem guess_covered (hg : guess a (ev :: c.trace) ev = true) :
    ∃ u, Attempted (own ev.pid c.trace) a u ∧ Clean (own ev.pid c.trace) ∧
      Admitted (own ev.pid c.trace) u ∧
      (∀ e ∈ c.trace, guess a c.trace e = true → Registered (own e.pid c.trace)) ∧
      Covers (recent a c.trace l) u.failedLoginAttempts u.lockedUntil := by
  obtain ⟨hm, u, hu⟩ := guess_inv hp hg
  have heval := evaluates_of_missed hm
  obtain ⟨hsame, hall⟩ := hp.allowed heval u hu
  obtain ⟨hclean, hadmitted⟩ := expected_evaluates hp.expected heval
    (hp.inOrder _ _ hp.flying) hu
  obtain ⟨⟨v, hv, hvid⟩, -⟩ := hc.account
  obtain ⟨hattempts, hlock⟩ := hsame v hv hvid
  refine ⟨u, hu, hclean, hadmitted, hall, ?_⟩
  rw [← hattempts, ← hlock]
  exact hc.settled hall v hv hvid

theorem spaced_step (htrace : l.map Prod.snd = c.trace) (l' : List (Time × Event calls))
    (hl' : l' <:+ (c.state.now, ev) :: l) :
    Spaced 5 failedLoginLockDurationMs (recent a (ev :: c.trace) l') := by
  rcases List.suffix_cons_iff.mp hl' with rfl | hl'
  · rw [recent_cons hp htrace]
    split_ifs with hs hg
    · exact Spaced.nil
    · obtain ⟨u, -, -, hadmitted, -, -, hlock⟩ := guess_covered hc hp hg
      refine (hc.spaced l (List.suffix_refl l)).cons fun hfive t' ht' => ?_
      obtain ⟨until_, huntil, hle⟩ := hlock hfive
      obtain ⟨now, ⟨q, hmem⟩, hnow⟩ := hadmitted.unlocked until_ huntil
      have hclock := hc.clock now ⟨q, (mem_own.mp hmem).1⟩
      exact (Int.le_trans (hle t' ht') hnow).trans hclock
    · exact hc.spaced l (List.suffix_refl l)
  · rw [recent_kept hp fun e he => htrace ▸ List.mem_map_of_mem (hl'.subset he)]
    exact hc.spaced l' hl'

/-- The update of a login after a wrong guess. -/
theorem registered_step {u : User} {data : UserUpdateInput} {v : User}
    (hu : Attempted (own ev.pid c.trace) a u) (hdata : Registers (own ev.pid c.trace) u data) :
    Covers (recent a c.trace l) (v.updated data).failedLoginAttempts
      (v.updated data).lockedUntil := by
  rcases hdata with ⟨e, h, heq, he, hh, hlt, rfl⟩ | ⟨q, now, e, h, heq, he, hh, hle, rfl⟩
  · -- below the threshold there are fewer than five guesses
    have hlength := hc.pending j ev.pid hp.flying u hu ⟨e, by rw [heq]; exact List.mem_cons_self, he⟩
      (by rw [heq]; exact not_registered_missed he hh)
    refine ⟨hlength, fun hfive => ?_⟩
    unfold failedLoginLockThreshold at hlt
    omega
  · have hlength := hc.pending j ev.pid hp.flying u hu
      ⟨e, by rw [heq]; exact List.mem_cons_of_mem _ List.mem_cons_self, he⟩ (by
        rw [heq]
        rintro ⟨e', hmem, hr⟩
        rcases List.mem_cons.mp hmem with rfl | hmem
        · cases hr
        · exact not_registered_missed he hh ⟨e', hmem, hr⟩)
    refine ⟨hlength, fun _ => ⟨now + failedLoginLockDurationMs, rfl, fun t ht => ?_⟩⟩
    have hbefore := hc.noted j ev.pid hp.flying u hu q now e h heq he t (List.mem_of_mem_head? ht)
    exact Int.add_le_add_right hbefore _

theorem settled_step (htrace : l.map Prod.snd = c.trace)
    (hall : ∀ e ∈ ev :: c.trace, guess a (ev :: c.trace) e = true →
      Registered (own e.pid (ev :: c.trace))) (w : User) (hw : w ∈ state.db.users)
    (hwid : w.id = a) :
    Covers (recent a (ev :: c.trace) ((c.state.now, ev) :: l)) w.failedLoginAttempts
      w.lockedUntil := by
  obtain ⟨i, hr⟩ := hp.reply
  obtain ⟨⟨v, hv, hvid⟩, -⟩ := hc.account
  have hnonneg := (account_step hc hp).2 w hw hwid
  have hempty : Covers [] w.failedLoginAttempts w.lockedUntil :=
    ⟨hnonneg, fun h => absurd h (by decide)⟩
  by_cases hg : guess a (ev :: c.trace) ev = true
  · -- a guess is not registered when it is made
    obtain ⟨u, -, hclean, -⟩ := guess_covered hc hp hg
    obtain ⟨e, he, hreg⟩ := hall ev List.mem_cons_self hg
    rw [own_cons_self] at he
    rcases List.mem_cons.mp he with rfl | he
    · have hm := (guess_inv hp hg).1
      obtain ⟨p, op, r⟩ := e
      cases op with
      | verifyPassword hash password => cases hreg
      | verifyTotp secret code => cases hreg
      | _ => cases hm
    · exact absurd ⟨e, he, hreg⟩ (not_registered_of_clean hclean)
  · rcases recent_le hp htrace (Bool.eq_false_iff.mpr hg) c.state.now with hnil | ⟨hs, hsame⟩
    · rw [hnil]
      exact hempty
    · rw [hsame]
      obtain ⟨u, hu, hcase⟩ := users_before hr hv
      have huid : u.id = a := by
        rcases hcase with rfl | ⟨p, call, r, -, rfl⟩
        · exact hvid
        · rw [onUser_id, hvid]
      obtain rfl : w = u := UserTable.eq_of_id hw hu (hwid.trans huid.symm)
      by_cases hreg : registers ev = true ∧ ∃ u, Attempted (own ev.pid c.trace) a u
      · obtain ⟨hreg, u, hatt⟩ := hreg
        obtain ⟨p, op, r⟩ := ev
        cases op with
        | db call =>
          cases call with
          | userUpdate id data =>
            cases r with
            | error code => cases hreg
            | ok row =>
              obtain ⟨rfl, hdata⟩ := expected_update hp.expected (hp.inOrder _ _ hp.flying) hatt
              obtain ⟨⟨cuid, hexec⟩, -⟩ := respond_db hr
              have hrow := (mem_users hexec).mpr (.inr ⟨v, hv, rfl⟩)
              obtain rfl := UserTable.eq_of_id hw hrow (hwid.trans (by rw [onUser_id, hvid]))
              rw [show (AccountCall.userUpdate id data).onUser v = v.updated data from
                updatedIf_of_eq hvid]
              rcases hdata with hdata | ⟨-, now, rfl⟩
              · exact registered_step hc hp hatt hdata
              · simp [succeeds, successData] at hs
          | _ => cases hreg
        | _ => cases hreg
      · -- the request registers no guess on the account: those before were registered
        have hbefore : ∀ e ∈ c.trace, guess a c.trace e = true →
            Registered (own e.pid c.trace) := by
          intro e he hge
          obtain ⟨e', he', hr'⟩ := hall e (List.mem_cons_of_mem ev he)
            (by rw [guess_kept hp he]; exact hge)
          by_cases hpid : ev.pid = e.pid
          · rw [← hpid, own_cons_self] at he'
            rcases List.mem_cons.mp he' with rfl | he'
            · obtain ⟨-, hany⟩ := Bool.and_eq_true_iff.mp hge
              obtain ⟨u, hu, hid⟩ := List.any_eq_true.mp hany
              exact absurd ⟨hr', u, by rw [hpid]; exact hu, of_decide_eq_true hid⟩ hreg
            · rw [← hpid]
              exact ⟨e', he', hr'⟩
          · rw [own_cons_of_ne hpid] at he'
            exact ⟨e', he', hr'⟩
        have hcovers := hc.settled hbefore v hv hvid
        rcases hcase with rfl | ⟨p, call, r, rfl, rfl⟩
        · exact hcovers
        · rcases expected_counter hp.expected v with ⟨hattempts, hlock⟩ |
            ⟨input, ctx, x, data, rfl, rfl, hx, hxid, -⟩
          · rw [hattempts, hlock]
            exact hcovers
          · exact absurd ⟨rfl, x, hx.looked.attempted (hp.inOrder _ _ hp.flying)
              (hxid.trans hvid)⟩ hreg

theorem pending_step (htrace : l.map Prod.snd = c.trace) (j' : Job) (p : ℕ) (hF : F j' p) (u : User)
    (hu : Attempted (own p (ev :: c.trace)) a u)
    (hmissed : ∃ e ∈ own p (ev :: c.trace), missed e = true)
    (hnot : ¬ Registered (own p (ev :: c.trace))) :
    (recent a (ev :: c.trace) ((c.state.now, ev) :: l)).length ≤ u.failedLoginAttempts + 1 := by
  obtain ⟨e, he, hm⟩ := hmissed
  by_cases hg : guess a (ev :: c.trace) ev = true
  · obtain ⟨v, hv, -, -, hall, hcovers⟩ := guess_covered hc hp hg
    rw [recent_guess hp htrace hg, List.length_cons]
    by_cases hpid : ev.pid = p
    · -- the guess itself: its login has read a counter that covers those before
      subst hpid
      rw [own_cons_self] at hu
      have huv : u = v := Looked.unique (hp.inOrder _ _ hp.flying)
        (attempted_missed (guess_inv hp hg).1 hu).looked hv.looked
      rw [huv]
      have hlength := hcovers.1
      omega
    · rw [own_cons_of_ne hpid] at hu he hnot
      obtain ⟨-, rfl⟩ := mem_own.mp he
      exact absurd (hall e (mem_own.mp he).1 (guess_of_missed hu he hm)) hnot
  · rcases recent_le hp htrace (Bool.eq_false_iff.mpr hg) c.state.now with hnil | ⟨-, hsame⟩
    · rw [hnil]
      have hread := read_step hc hp u hu.looked.of_own hu.2
      simp only [List.length_nil, Nat.cast_zero]
      omega
    · rw [hsame]
      by_cases hpid : ev.pid = p
      · subst hpid
        have hold : e ∈ own ev.pid c.trace := by
          rw [own_cons_self] at he
          rcases List.mem_cons.mp he with rfl | he
          · exact absurd (guess_of_missed hu (by rw [own_cons_self]; exact List.mem_cons_self) hm) hg
          · exact he
        have hattempted : Attempted (own ev.pid c.trace) a u :=
          ⟨by rw [← attempted_own hp (List.ne_nil_of_mem hold)]; exact hu.1, hu.2⟩
        refine hc.pending j' ev.pid hF u hattempted ⟨e, hold, hm⟩ fun ⟨e', he', hr'⟩ => hnot ?_
        rw [own_cons_self]
        exact ⟨e', List.mem_cons_of_mem ev he', hr'⟩
      · rw [own_cons_of_ne hpid] at hu he hnot
        exact hc.pending j' p hF u hu ⟨e, he, hm⟩ hnot

theorem noted_step (htrace : l.map Prod.snd = c.trace) (j' : Job) (p : ℕ) (hF : F j' p) (u : User)
    (hu : Attempted (own p (ev :: c.trace)) a u) (q : ℕ) (t : Time) (e : Event calls) (h : Requests)
    (heq : own p (ev :: c.trace) = ⟨q, .session .now, t⟩ :: e :: h) (he : missed e = true) :
    ∀ t' ∈ recent a (ev :: c.trace) ((c.state.now, ev) :: l), t' ≤ t := by
  by_cases hg : guess a (ev :: c.trace) ev = true
  · obtain ⟨-, -, -, -, hall, -⟩ := guess_covered hc hp hg
    by_cases hpid : ev.pid = p
    · subst hpid
      rw [own_cons_self] at heq
      obtain ⟨rfl, -⟩ := List.cons.inj heq
      exact absurd (guess_inv hp hg).1 nofun
    · -- somebody guesses while the wrong guess of `p` is not registered
      rw [own_cons_of_ne hpid] at hu heq
      have horder := hp.inOrder j' p hF
      rw [heq] at hu horder
      have hu' : Attempted h a u := attempted_missed he hu
      obtain ⟨hclean, -⟩ := expected_evaluates horder.2.1 (evaluates_of_missed he) horder.2.2 hu'
      have hmem : e ∈ own p c.trace := by
        rw [heq]
        exact List.mem_cons_of_mem _ List.mem_cons_self
      obtain ⟨hmem', hpe⟩ := mem_own.mp hmem
      obtain ⟨e', he', hr'⟩ := hall e hmem' (guess_of_missed (p := p) (by rw [heq]; exact hu) hmem he)
      rw [hpe, heq] at he'
      rcases List.mem_cons.mp he' with rfl | he'
      · cases hr'
      · exact absurd ⟨e', he', hr'⟩ (not_registered_missed he hclean)
  · rcases recent_le hp htrace (Bool.eq_false_iff.mpr hg) c.state.now with hnil | ⟨-, hsame⟩
    · rw [hnil]
      exact fun _ ht' => absurd ht' List.not_mem_nil
    · rw [hsame]
      by_cases hpid : ev.pid = p
      · -- the clock is read now
        subst hpid
        rw [own_cons_self] at heq
        obtain ⟨rfl, -⟩ := List.cons.inj heq
        obtain ⟨i, hr⟩ := hp.reply
        obtain ⟨⟨k, hk⟩, -⟩ := respond_session hr
        obtain rfl : t = c.state.now := (Auth.respond_now hk).1
        intro t' ht'
        obtain ⟨e', he', rfl⟩ := List.mem_map.mp ht'
        exact hc.past e' ((List.takeWhile_sublist _).subset (List.mem_filter.mp he').1)
      · rw [own_cons_of_ne hpid] at hu heq
        exact hc.noted j' p hF u hu q t e h heq he

theorem Counted.step (htrace : l.map Prod.snd = c.trace) :
    Counted a ⟨state, ev :: c.trace⟩ ((c.state.now, ev) :: l) F where
  past := by
    obtain ⟨i, hr⟩ := hp.reply
    rw [respond_now hr]
    exact List.forall_mem_cons.mpr ⟨Int.le_refl _, hc.past⟩
  sorted := List.pairwise_cons.mpr ⟨hc.past, hc.sorted⟩
  clock := clock_step hc hp
  account := account_step hc hp
  read := read_step hc hp
  spaced := spaced_step hc hp htrace
  settled := settled_step hc hp htrace
  pending := pending_step hc hp htrace
  noted := noted_step hc hp htrace

end Step

/-! ## Runs -/

theorem counted_keeps (E : Env) (a : String) : Keeps E.machine E.work (State.HasAccount a)
    (InTurn a) State.now (expected E) (Counted a) where
  initial s hs := {
    past := fun _ he => absurd he List.not_mem_nil
    sorted := .nil
    clock := fun _ ⟨_, hmem⟩ => absurd hmem List.not_mem_nil
    account := hs
    read := fun _ ⟨_, _, hmem⟩ => absurd hmem List.not_mem_nil
    spaced := fun l' hl' => by
      rw [List.suffix_nil.mp hl']
      exact Spaced.nil
    settled := fun _ v hv hvid => ⟨hs.2 v hv hvid, fun h => absurd (show 5 ≤ 0 from h) (by decide)⟩
    pending := fun _ _ hF => hF.elim
    noted := fun _ _ hF => hF.elim }
  fewer c l F F' hc hF := { hc with
    pending := fun j p h => hc.pending j p (hF j p h)
    noted := fun j p h => hc.noted j p (hF j p h) }
  launch c l F j pid hc _ _ hnil := { hc with
    pending := by
      rintro j' p (hF | ⟨rfl, rfl⟩) u hu
      · exact hc.pending j' p hF u hu
      · rw [hnil] at hu
        exact absurd hu.1 List.not_mem_nil
    noted := by
      rintro j' p (hF | ⟨rfl, rfl⟩) u hu
      · exact hc.noted j' p hF u hu
      · rw [hnil] at hu
        exact absurd hu.1 List.not_mem_nil }
  env c l F act state hc henv := by
    cases henv
    have hle : c.state.now ≤ c.state.now + act :=
      Int.le_add_of_nonneg_right (Int.natCast_nonneg act)
    exact { hc with
      past := fun e he => (hc.past e he).trans hle
      clock := fun t ht => (hc.clock t ht).trans hle }
  request c l F j ev state hc htrace hp := hc.step hp htrace

/-- Between two logins to the account that succeed, at most five wrong guesses are evaluated in any
    window of fifteen minutes, as long as every guess is made in turn. -/
theorem lockout_bounds {E : Env} {a : String} {s : System calls Error Job State}
    {l : List (Time × Event calls)}
    (hl : Timed E.machine E.work (State.HasAccount a) (InTurn a) State.now s l)
    {seg : List (Time × Event calls)} (hseg : seg <:+: l)
    (hno : ∀ e ∈ seg, succeeds a e.2 = false) (start : Time) :
    seg.countP (fun e => guess a s.config.trace e.2 &&
      inWindow start failedLoginLockDurationMs e.1) ≤ 5 := by
  have hc := hl.invariant (work_obeys E) (counted_keeps E a)
  obtain ⟨newer, older, rfl⟩ := hseg
  have hsuffix : seg ++ older <:+ newer ++ seg ++ older := by
    rw [List.append_assoc]
    exact List.suffix_append newer _
  -- the guesses of the segment are the newest of those since the success before it
  have hrecent : recent a s.config.trace (seg ++ older) =
      (seg.filter fun e => guess a s.config.trace e.2).map Prod.fst ++
        recent a s.config.trace older := by
    unfold recent
    rw [List.takeWhile_append_of_pos fun e he => by rw [hno e he]; rfl, List.filter_append,
      List.map_append]
  have hwindow := (hc.spaced _ hsuffix).window ?_ (by decide) start
  · rw [hrecent, List.countP_append, List.countP_map, List.countP_filter] at hwindow
    refine Nat.le_trans (Nat.le_of_eq (List.countP_congr fun e _ => ?_)) (Nat.le_trans
      (Nat.le_add_right _ _) hwindow)
    simp [Bool.and_comm]
  · have hsorted := (List.Pairwise.sublist ((hsuffix.sublist)) hc.sorted)
    have hsub := (List.filter_sublist (p := fun e => guess a s.config.trace e.2)).trans
      (List.takeWhile_sublist (l := seg ++ older) fun e => !succeeds a e.2)
    exact List.pairwise_map.mpr (hsorted.sublist hsub)

/-- `Evaluates`, computed. -/
def Op.evaluates : Op → Bool
  | .verifyPassword .. => true
  | .verifyTotp .. => true
  | _ => false

/-- `InTurn`, computed. -/
def inTurn (a : String) (c : Config calls State) (pid : ℕ) (op : Op) : Bool :=
  !op.evaluates || ((own pid c.trace).filterMap attemptedBy).all fun u => u.id ≠ a ||
    ((c.state.db.users.rows.all fun v => v.id ≠ a ||
        v.failedLoginAttempts = u.failedLoginAttempts && v.lockedUntil = u.lockedUntil) &&
      c.trace.all fun ev => !guess a c.trace ev || (own ev.pid c.trace).any registers)

theorem inTurn_of_check {a : String} {c : Config calls State} {pid : ℕ} {op : Op}
    (h : inTurn a c pid op = true) : InTurn a c pid op := by
  intro hop u hu
  have hevaluates : op.evaluates = true := by
    cases op with
    | verifyPassword hash password => rfl
    | verifyTotp secret code => rfl
    | _ => exact absurd hop id
  rw [inTurn, hevaluates] at h
  have hall := List.all_eq_true.mp h u hu.1
  simp only [hu.2, ne_eq, not_true_eq_false, decide_false, Bool.false_or,
    Bool.and_eq_true, List.all_eq_true, Bool.or_eq_true, decide_eq_true_eq] at hall
  refine ⟨fun v hv hvid => ?_, fun ev hev hg => ?_⟩
  · exact (hall.1 v hv).resolve_left fun hne => hne hvid
  · have hreg := (hall.2 ev hev).resolve_left (by simp [hg])
    exact List.any_eq_true.mp hreg

/-- A login with a wrong password. -/
def wrong : Job := .login { alice with password := "password124" } localhost

/-- Five wrong guesses one after another, and one when the lock has ended. -/
def patientRun : List (Move Job Input ℕ) :=
  [.start wrong] ++ answers 0 ["", "", ""] ++ [.start wrong] ++ answers 1 ["", "", ""] ++
    [.start wrong] ++ answers 2 ["", "", ""] ++ [.start wrong] ++ answers 3 ["", "", ""] ++
    [.start wrong] ++ answers 4 ["", "", "", ""] ++ [.env 900000, .start wrong] ++
    answers 5 ["", "", "", "", ""]

/-- Six logins look the account up, then each of them evaluates its guess. -/
def overlappingRun : List (Move Job Input ℕ) :=
  List.replicate 6 (.start wrong) ++ (List.range 6).map (fun pid => .perform pid (.text "")) ++
    (List.range 6).map fun pid => .perform pid (.text "")

theorem sampleState_hasAccount : (sampleState .active).HasAccount "usr_1" := by
  refine ⟨⟨sampleUser .active, List.mem_singleton_self _, rfl⟩, fun v hv _ => ?_⟩
  rw [List.mem_singleton.mp hv]
  exact Int.le_refl 0

theorem lockout_bounds_patient : ∃ s l, Timed sampleEnv.machine sampleEnv.work
    (State.HasAccount "usr_1") (InTurn "usr_1") State.now s l ∧
    l.countP (fun e => guess "usr_1" s.config.trace e.2) = 6 ∧
    ∀ start, l.countP (fun e => guess "usr_1" s.config.trace e.2 &&
      inWindow start failedLoginLockDurationMs e.1) ≤ 5 := by
  obtain ⟨s, hs, hview⟩ := Reachable.viewWhere (M := sampleEnv.machine) (W := sampleEnv.work)
    (fun c pid op => @inTurn_of_check "usr_1" c pid op) sampleState_hasAccount patientRun
    (f := fun s => (s.config.trace.countP (guess "usr_1" s.config.trace),
      s.config.trace.any (succeeds "usr_1"))) (x := (6, false)) (by decide)
  obtain ⟨hcount, hnone⟩ := Prod.mk.inj hview
  obtain ⟨l, hl⟩ := hs.timed State.now
  refine ⟨s, l, hl, ?_, fun start => lockout_bounds hl (List.infix_refl l) (fun e he => ?_) start⟩
  · have hmap : (l.map Prod.snd).countP (guess "usr_1" s.config.trace) = 6 := by
      rw [hl.trace]
      exact hcount
    rw [List.countP_map] at hmap
    exact hmap
  · refine Bool.eq_false_iff.mpr (List.any_eq_false.mp hnone e.2 ?_)
    rw [← hl.trace]
    exact List.mem_map_of_mem he

/-- Six wrong guesses at the same time, and no login has succeeded. -/
theorem lockout_evaded : ∃ s l, Timed sampleEnv.machine sampleEnv.work
    (State.HasAccount "usr_1") anything State.now s l ∧
    (∀ e ∈ l, succeeds "usr_1" e.2 = false) ∧
    l.countP (fun e => guess "usr_1" s.config.trace e.2 &&
      inWindow 0 failedLoginLockDurationMs e.1) = 6 := by
  have hrun : ((System.initial (sampleState .active)).stamp sampleEnv.machine sampleEnv.work
      State.now [] overlappingRun).map (fun x => (x.2.any fun e => succeeds "usr_1" e.2,
        x.2.countP fun e => guess "usr_1" x.1.config.trace e.2 &&
          inWindow 0 failedLoginLockDurationMs e.1)) = some (false, 6) := by
    decide
  obtain ⟨⟨s, l⟩, hstamp, hview⟩ := Option.map_eq_some_iff.mp hrun
  obtain ⟨hnone, hcount⟩ := Prod.mk.inj hview
  obtain ⟨hl, -⟩ := Timed.stamp overlappingRun (.initial sampleState_hasAccount) hstamp
  exact ⟨s, l, hl, fun e he => Bool.eq_false_iff.mpr (List.any_eq_false.mp hnone e he), hcount⟩

end CryptoPay.Accounts
