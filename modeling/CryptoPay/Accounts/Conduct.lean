import CryptoPay.Accounts.AuthService
import CryptoPay.Async.History

/-!
# What the calls of `AuthService` do

`expected` says which requests a call may make after its own earlier ones: which
user it has looked up, which checks that user has passed, and what it writes.

Results:
* `launch_obeys`: every call makes expected requests only, and a login that
  returns has passed its checks.
* `Looked.unique`: a call looks up one user.
-/

namespace CryptoPay.Accounts

open Async

open Api (RequestContext RecordAuditEventInput)

/-- Requests with their replies, newest first. -/
abbrev Requests := List (Event calls)

/-! ## What has been requested -/

/-- The user was looked up. -/
def Looked (h : Requests) (u : User) : Prop :=
  ∃ pid w, (⟨pid, .db (.userFindUnique w), .ok (some u)⟩ : Event calls) ∈ h

/-- The user that a lookup returned. -/
def lookedBy : Event calls → Option User
  | ⟨_, .db (.userFindUnique _), .ok r⟩ => r
  | _ => none

/-- The secret and the code that were found to belong together. -/
def provedBy : Event calls → Option (String × String)
  | ⟨_, .verifyTotp secret code, r⟩ => if r = true then some (secret, code) else none
  | _ => none

/-- The clock was read. -/
def Clocked (h : Requests) (t : Time) : Prop :=
  ∃ pid, (⟨pid, .session .now, t⟩ : Event calls) ∈ h

/-- The verification token was found. -/
def Presented (h : Requests) (x : EmailVerificationToken) : Prop :=
  ∃ pid hash, (⟨pid, .db (.verificationFindUnique hash), .ok (some x)⟩ : Event calls) ∈ h

/-- The refresh token was found. -/
def Redeemed (h : Requests) (x : Auth.RefreshToken) : Prop :=
  ∃ pid hash, (⟨pid, .session (.db (.findUnique hash)), .ok (some x)⟩ : Event calls) ∈ h

/-- The refresh token was stored. -/
def Stored (h : Requests) (row : Auth.RefreshToken) : Prop :=
  ∃ pid d, (⟨pid, .session (.db (.create d)), .ok row⟩ : Event calls) ∈ h

/-- The code was found valid for the secret. -/
def Proved (h : Requests) (secret code : String) : Prop :=
  ∃ pid, (⟨pid, .verifyTotp secret code, true⟩ : Event calls) ∈ h

/-- The password was found to be the one of the hash. -/
def Matched (h : Requests) (hash password : String) : Prop :=
  ∃ pid, (⟨pid, .verifyPassword hash password, true⟩ : Event calls) ∈ h

/-- A password or a code that was found wrong. -/
def missed : Event calls → Bool
  | ⟨_, .verifyPassword .., r⟩ => !r
  | ⟨_, .verifyTotp .., r⟩ => !r
  | _ => false

/-- An update of a user. -/
def writes : Event calls → Bool
  | ⟨_, .db (.userUpdate ..), _⟩ => true
  | _ => false

/-- The user was looked up and passed the first two checks of `login`. -/
structure Admitted (h : Requests) (u : User) : Prop where
  looked : Looked h u
  status : u.status ≠ .suspended
  unlocked : ∀ t, u.lockedUntil = some t → ∃ now, Clocked h now ∧ t ≤ now

/-- No guess was wrong, and nothing was written. -/
def Clean (h : Requests) : Prop := ∀ ev ∈ h, missed ev = false ∧ writes ev = false

/-- The `data` of `registerFailedLogin` below the threshold. -/
def failedData (u : User) : UserUpdateInput :=
  { failedLoginAttempts := some (u.failedLoginAttempts + 1) }

/-- The `data` of `registerFailedLogin` from the threshold on. -/
def lockData (u : User) (now : Time) : UserUpdateInput where
  failedLoginAttempts := some (u.failedLoginAttempts + 1)
  lockedUntil := some (some (now + failedLoginLockDurationMs))
  status := some .locked

/-- The `data` of a login that succeeds. -/
def successData (now : Time) : UserUpdateInput where
  failedLoginAttempts := some 0
  lockedUntil := some none
  status := some .active
  lastLoginAt := some (some now)

/-- The `data` of an email that is verified. -/
def verifiedData (verifiedAt : Time) : UserUpdateInput :=
  { status := some .active, emailVerifiedAt := some (some verifiedAt) }

/-- What `registerFailedLogin` writes right after a wrong guess. -/
def Registers (h : Requests) (u : User) (data : UserUpdateInput) : Prop :=
  (∃ ev h', h = ev :: h' ∧ missed ev = true ∧ Clean h' ∧
    u.failedLoginAttempts + 1 < failedLoginLockThreshold ∧ data = failedData u) ∨
  ∃ pid now ev h', h = ⟨pid, .session .now, now⟩ :: ev :: h' ∧ missed ev = true ∧ Clean h' ∧
    failedLoginLockThreshold ≤ u.failedLoginAttempts + 1 ∧ data = lockData u now

/-- The user passed all checks of `login`. -/
structure Passed (E : Env) (input : LoginInput) (h : Requests) (u : User) : Prop where
  admitted : Admitted h u
  password : Matched h u.passwordHash input.password
  verified : u.emailVerifiedAt ≠ none
  code : u.twoFactorEnabled = true → ∃ secret code,
    E.decrypt (u.twoFactorSecretEnc.getD "") = .ok secret ∧ input.totpCode = some code ∧
      Proved h secret code

/-- The refresh token was found unrevoked, and unexpired when the clock was read. -/
def Spendable (h : Requests) (x : Auth.RefreshToken) : Prop :=
  Redeemed h x ∧ x.revokedAt = none ∧ ∃ now, Clocked h now ∧ now ≤ x.expiresAt

/-! ## What may be requested -/

/-- What `register` may request after the requests `h`. -/
def expectedRegister (h : Requests) : Op → Prop
  | .db (.userFindUnique _) => h = []
  | .hashPassword _ => True
  | .db (.userCreate ..) => True
  | .session .randomBytes => True
  | .session .now => True
  | .db (.verificationCreate _) => True
  | .db (.auditLogCreate _) => True
  | _ => False

/-- What `verifyEmail` may request. -/
def expectedVerifyEmail (h : Requests) : Op → Prop
  | .db (.verificationFindUnique _) => h = []
  | .session .now => True
  | .db (.consume tokenId _ userId data) =>
    (∃ x, Presented h x ∧ x.id = tokenId ∧ x.userId = userId ∧ x.consumedAt = none ∧
      ∃ now, Clocked h now ∧ now ≤ x.expiresAt) ∧
    ∃ verifiedAt, data = verifiedData verifiedAt
  | _ => False

/-- What `login` may request. -/
def expectedLogin (E : Env) (input : LoginInput) (h : Requests) : Op → Prop
  | .db (.userFindUnique w) => h = [] ∧ w = .email input.email
  | .session .now => True
  | .verifyPassword hash password =>
    Clean h ∧ (∃ u, Admitted h u ∧ hash = u.passwordHash) ∧ password = input.password
  | .verifyTotp secret code => Clean h ∧
    ∃ u, Admitted h u ∧ E.decrypt (u.twoFactorSecretEnc.getD "") = .ok secret ∧
      input.totpCode = some code
  | .db (.userUpdate id data) => ∃ u, Admitted h u ∧ u.id = id ∧
    (Registers h u data ∨ Clean h ∧ Passed E input h u ∧ ∃ now, data = successData now)
  | .session (.sign userId) => ∃ u, Admitted h u ∧ u.id = userId
  | .session .randomBytes => True
  | .session (.generateId _) => True
  | .session (.db (.create d)) => ∃ u, Admitted h u ∧ u.id = d.userId
  | .db (.auditLogCreate _) => True
  | _ => False

/-- What `refresh` may request. -/
def expectedRefresh (h : Requests) : Op → Prop
  | .session (.db (.findUnique _)) => h = []
  | .session .now => True
  | .session .randomBytes => True
  | .session (.db (.create d)) => ∃ x, Spendable h x ∧ x.userId = d.userId
  | .session (.db (.update ..)) => True
  | .session (.db (.updateMany ..)) => True
  | .session (.sign userId) => ∃ row, Stored h row ∧ row.userId = userId
  | _ => False

/-- What `logout` may request. -/
def expectedLogout : Op → Prop
  | .session .now => True
  | .session (.db (.updateMany ..)) => True
  | _ => False

/-- What `enableTwoFactor` may request. -/
def expectedEnable (userId : String) (h : Requests) : Op → Prop
  | .db (.userFindUnique w) => h = [] ∧ w = .id userId
  | .secret => True
  | .iv => True
  | .db (.userUpdate id data) => id = userId ∧ (∃ u, Looked h u) ∧
    ∃ encrypted, data = {
      twoFactorSecretEnc := some (some encrypted), twoFactorEnabled := some false }
  | _ => False

/-- What `confirmTwoFactor` may request. -/
def expectedConfirm (E : Env) (userId code : String) (h : Requests) : Op → Prop
  | .db (.userFindUnique w) => h = [] ∧ w = .id userId
  | .verifyTotp secret c => c = code ∧
    ∃ u, Looked h u ∧ E.decrypt (u.twoFactorSecretEnc.getD "") = .ok secret
  | .db (.userUpdate id data) => id = userId ∧ data = { twoFactorEnabled := some true } ∧
    ∃ u secret, Looked h u ∧ falsy u.twoFactorSecretEnc = false ∧
      E.decrypt (u.twoFactorSecretEnc.getD "") = .ok secret ∧ Proved h secret code
  | _ => False

/-- What a call may request after the requests `h`. -/
def expected (E : Env) : Job → Requests → Op → Prop
  | .register .. => expectedRegister
  | .verifyEmail _ => expectedVerifyEmail
  | .login input _ => expectedLogin E input
  | .refresh .. => expectedRefresh
  | .logout _ => fun _ => expectedLogout
  | .enableTwoFactor userId => expectedEnable userId
  | .confirmTwoFactor userId code => expectedConfirm E userId code

/-- What holds when a call returns. -/
def returned (E : Env) : Job → Requests → Prop
  | .login input _, h => ∃ u, Passed E input h u
  | _, _ => True

/-! ## More requests, more to read -/

section Cons

variable {h : Requests} {u : User} {ev : Event calls}

theorem Looked.cons (hu : Looked h u) (ev : Event calls) : Looked (ev :: h) u :=
  let ⟨pid, w, hmem⟩ := hu
  ⟨pid, w, List.mem_cons_of_mem ev hmem⟩

theorem looked_one (pid : ℕ) (w : UserWhere) (u : User) :
    Looked [⟨pid, .db (.userFindUnique w), .ok (some u)⟩] u :=
  ⟨pid, w, List.mem_singleton_self _⟩

theorem Looked.mem (hu : Looked h u) : u ∈ h.filterMap lookedBy :=
  let ⟨_, _, hmem⟩ := hu
  List.mem_filterMap.mpr ⟨_, hmem, rfl⟩

theorem looked_of_mem (hu : u ∈ h.filterMap lookedBy) : Looked h u := by
  obtain ⟨⟨pid, op, r⟩, hmem, heq⟩ := List.mem_filterMap.mp hu
  cases op with
  | db call =>
    cases call with
    | userFindUnique w =>
      cases r with
      | ok r =>
        obtain rfl : r = some u := heq
        exact ⟨pid, w, hmem⟩
      | error code => cases heq
    | _ => cases heq
  | _ => cases heq

theorem Proved.mem {secret code : String} (hp : Proved h secret code) :
    (secret, code) ∈ h.filterMap provedBy :=
  let ⟨_, hmem⟩ := hp
  List.mem_filterMap.mpr ⟨_, hmem, rfl⟩

theorem proved_of_mem {secret code : String} (hp : (secret, code) ∈ h.filterMap provedBy) :
    Proved h secret code := by
  obtain ⟨⟨pid, op, r⟩, hmem, heq⟩ := List.mem_filterMap.mp hp
  cases op with
  | verifyTotp s c =>
    cases r with
    | true =>
      cases heq
      exact ⟨pid, hmem⟩
    | false => cases heq
  | _ => cases heq

theorem Clocked.cons {t : Time} (ht : Clocked h t) (ev : Event calls) : Clocked (ev :: h) t :=
  let ⟨pid, hmem⟩ := ht
  ⟨pid, List.mem_cons_of_mem ev hmem⟩

theorem Admitted.cons (hu : Admitted h u) (ev : Event calls) : Admitted (ev :: h) u where
  looked := hu.looked.cons ev
  status := hu.status
  unlocked t ht := let ⟨now, hnow, hle⟩ := hu.unlocked t ht; ⟨now, hnow.cons ev, hle⟩

theorem Proved.cons {secret code : String} (hp : Proved h secret code) (ev : Event calls) :
    Proved (ev :: h) secret code :=
  let ⟨pid, hmem⟩ := hp
  ⟨pid, List.mem_cons_of_mem ev hmem⟩

theorem Passed.cons {E : Env} {input : LoginInput} (hu : Passed E input h u) (ev : Event calls) :
    Passed E input (ev :: h) u where
  admitted := hu.admitted.cons ev
  password := let ⟨pid, hmem⟩ := hu.password; ⟨pid, List.mem_cons_of_mem ev hmem⟩
  verified := hu.verified
  code h2 :=
    let ⟨secret, code, hdec, hcode, hproved⟩ := hu.code h2
    ⟨secret, code, hdec, hcode, hproved.cons ev⟩

theorem Clean.cons (hh : Clean h) (hm : missed ev = false) (hw : writes ev = false) :
    Clean (ev :: h) :=
  List.forall_mem_cons.mpr ⟨⟨hm, hw⟩, hh⟩

theorem Presented.cons {x : EmailVerificationToken} (hx : Presented h x) (ev : Event calls) :
    Presented (ev :: h) x :=
  let ⟨pid, hash, hmem⟩ := hx
  ⟨pid, hash, List.mem_cons_of_mem ev hmem⟩

theorem Redeemed.cons {x : Auth.RefreshToken} (hx : Redeemed h x) (ev : Event calls) :
    Redeemed (ev :: h) x :=
  let ⟨pid, hash, hmem⟩ := hx
  ⟨pid, hash, List.mem_cons_of_mem ev hmem⟩

end Cons

/-! ## Every call does what is expected of it -/

section Obeys

variable {E : Env} {pid : ℕ}

/-- What leads from one request to the next. -/
theorem session_bind {α β : Type} (p : Auth.Action α) (g : α → Auth.Action β) :
    session (p >>= g) = session p >>= fun a => session (g a) := Prog.embed_bind p g

theorem logout_obeys (raw : Option String) :
    (E.logout raw).Obeys (fun _ => expectedLogout) pid (fun _ _ => True) (fun _ _ => True) [] := by
  have hrevoke : ∀ raw, (session (E.tokens.revokeByRawToken raw)).Obeys (fun _ => expectedLogout)
      pid (fun _ _ => True) (fun _ _ => True) [] := fun raw => by
    refine ⟨trivial, fun now => ⟨trivial, fun r => ?_⟩⟩
    cases r with
    | ok n => trivial
    | error code => trivial
  cases raw with
  | none => trivial
  | some raw =>
    show Prog.Obeys _ _ _ _ (session (if raw = "" then pure () else _)) _
    split_ifs
    · trivial
    · exact hrevoke raw

theorem register_obeys (input : RegisterInput) (ctx : RequestContext) :
    (E.register input ctx).Obeys expectedRegister pid (fun _ _ => True) (fun _ _ => True) [] := by
  refine ⟨rfl, fun r => ?_⟩
  cases r with
  | error code => trivial
  | ok existing =>
    cases existing with
    | some u => trivial
    | none =>
      refine ⟨trivial, fun hash => ⟨trivial, fun r => ?_⟩⟩
      cases r with
      | error code => trivial
      | ok user =>
        refine ⟨trivial, fun raw => ⟨trivial, fun now => ⟨trivial, fun r => ?_⟩⟩⟩
        cases r with
        | error code => trivial
        | ok row =>
          refine ⟨trivial, fun r => ?_⟩
          cases r with
          | error code => trivial
          | ok x => trivial

theorem verifyEmail_obeys (rawToken : String) :
    (E.verifyEmail rawToken).Obeys expectedVerifyEmail pid (fun _ _ => True) (fun _ _ => True)
      [] := by
  refine ⟨rfl, fun r => ?_⟩
  cases r with
  | error code => trivial
  | ok record =>
    cases record with
    | none => trivial
    | some x =>
      show Prog.Obeys _ _ _ _ ((Env.verificationSpent x >>= _) >>= _) _
      rw [Env.verificationSpent]
      by_cases hx : x.consumedAt.isSome
      · rw [if_pos hx]
        trivial
      · rw [if_neg hx]
        refine ⟨trivial, fun (now : Time) => ?_⟩
        show Prog.Obeys _ _ _ _ ((if decide (x.expiresAt < now) = true then _ else _) >>= _) _
        by_cases hnow : x.expiresAt < now
        · rw [if_pos (decide_eq_true hnow)]
          trivial
        · rw [if_neg (by simpa using hnow)]
          have hclock : Clocked [⟨pid, .session .now, now⟩,
              ⟨pid, .db (.verificationFindUnique (E.verificationHash rawToken)), .ok (some x)⟩] now :=
            ⟨pid, List.mem_cons_self⟩
          have hfound : Presented [⟨pid, .session .now, now⟩,
              ⟨pid, .db (.verificationFindUnique (E.verificationHash rawToken)), .ok (some x)⟩] x :=
            ⟨pid, _, List.mem_cons_of_mem _ List.mem_cons_self⟩
          refine ⟨trivial, fun consumedAt => ⟨trivial, fun verifiedAt => ⟨⟨⟨x,
            (hfound.cons _).cons _, rfl, rfl, by simpa using hx, now, (hclock.cons _).cons _,
            Int.not_lt.mp hnow⟩, verifiedAt, rfl⟩, fun r => ?_⟩⟩⟩
          cases r with
          | error code => trivial
          | ok u => trivial

/-- `registerFailedLogin` after a wrong guess. -/
theorem registerFailedLogin_obeys {input : LoginInput} {u : User} {h : Requests} {ev : Event calls}
    (hu : Admitted h u) (hh : Clean h) (hev : missed ev = true) :
    (registerFailedLogin u).Obeys (expectedLogin E input) pid (fun _ _ => True) (fun _ _ => True)
      (ev :: h) := by
  show Prog.Obeys _ _ _ _ (if u.failedLoginAttempts + 1 ≥ failedLoginLockThreshold then _ else _) _
  split_ifs with hle
  · refine ⟨trivial, fun now => ⟨⟨u, (hu.cons ev).cons _, rfl, .inl (.inr
      ⟨pid, now, ev, h, rfl, hev, hh, hle, rfl⟩)⟩, fun r => ?_⟩⟩
    cases r with
    | error code => trivial
    | ok row => trivial
  · refine ⟨⟨u, hu.cons ev, rfl, .inl (.inl ⟨ev, h, rfl, hev, hh, Int.not_le.mp hle, rfl⟩)⟩,
      fun r => ?_⟩
    cases r with
    | error code => trivial
    | ok row => trivial

/-- A code that is given is not empty. -/
theorem eq_some_of_falsy {s : Option String} (hs : falsy s = false) : s = some (s.getD "") := by
  cases s with
  | none => exact absurd hs (by decide)
  | some x => rfl

/-- The two-factor check: if it returns, the code was valid. -/
theorem checkTwoFactor_obeys {input : LoginInput} {u : User} {h : Requests} (hu : Admitted h u)
    (hh : Clean h) (hpassword : Matched h u.passwordHash input.password)
    (hverified : u.emailVerifiedAt ≠ none) :
    (E.checkTwoFactor u input.totpCode).Obeys (expectedLogin E input) pid
      (fun _ h' => Clean h' ∧ Passed E input h' u) (fun _ _ => True) h := by
  unfold Env.checkTwoFactor
  split_ifs with h2 hcode hsecret
  · trivial
  · trivial
  · cases hdec : E.decrypt (u.twoFactorSecretEnc.getD "") with
    | error e => trivial
    | ok secret =>
      have hsome := eq_some_of_falsy (Bool.eq_false_iff.mpr hcode)
      refine ⟨⟨hh, u, hu, hdec, hsome⟩, fun r => ?_⟩
      cases r with
      | true =>
        refine ⟨hh.cons rfl rfl, hu.cons _, ?_, hverified, fun _ => ⟨secret, _, hdec, hsome, pid,
          List.mem_cons_self⟩⟩
        obtain ⟨q, hq⟩ := hpassword
        exact ⟨q, List.mem_cons_of_mem _ hq⟩
      | false =>
        show Prog.Obeys _ _ _ _ (registerFailedLogin u >>= _) _
        refine Prog.obeys_bind.mpr ((registerFailedLogin_obeys hu hh rfl).post ?_ ?_)
        · exact fun _ _ _ => trivial
        · exact fun _ _ _ => trivial
  · exact ⟨hh, hu, hpassword, hverified, fun h2' => absurd h2' h2⟩

/-- The end of a login that has passed its checks. -/
theorem completeLogin_obeys {input : LoginInput} {u : User} {ctx : RequestContext} {h : Requests}
    (hh : Clean h) (hu : Passed E input h u) :
    (E.completeLogin u ctx).Obeys (expectedLogin E input) pid
      (fun _ h' => ∃ u, Passed E input h' u) (fun _ _ => True) h := by
  refine ⟨trivial, fun now => ⟨⟨u, hu.admitted.cons _, rfl,
    .inr ⟨hh.cons rfl rfl, hu.cons _, now, rfl⟩⟩, fun r => ?_⟩⟩
  cases r with
  | error code => trivial
  | ok row =>
    refine ⟨⟨u, (hu.admitted.cons _).cons _, rfl⟩, fun jwt => ⟨trivial, fun raw => ⟨trivial,
      fun family => ⟨trivial, fun now' => ⟨⟨u, ?_, rfl⟩, fun r => ?_⟩⟩⟩⟩⟩
    · exact ((((((hu.admitted.cons _).cons _).cons _).cons _).cons _).cons _)
    · cases r with
      | error code => trivial
      | ok token =>
        refine ⟨trivial, fun r => ?_⟩
        cases r with
        | error code => trivial
        | ok x => exact ⟨u, (((((((hu.cons _).cons _).cons _).cons _).cons _).cons _).cons _).cons _⟩

/-- From the password check on. -/
theorem admitted_obeys {input : LoginInput} {u : User} {ctx : RequestContext} {h : Requests}
    (hu : Admitted h u) (hh : Clean h) :
    Prog.Obeys (expectedLogin E input) pid (fun _ h' => ∃ u, Passed E input h' u)
      (fun _ _ => True) (verifyPassword u.passwordHash input.password >>= fun valid =>
        if valid then
          if u.emailVerifiedAt = none then
            .throw (.unauthorized "Please verify your email before logging in")
          else E.checkTwoFactor u input.totpCode >>= fun _ => E.completeLogin u ctx
        else registerFailedLogin u >>= fun _ =>
          .throw (.unauthorized "Invalid email or password")) h := by
  refine ⟨⟨hh, ⟨u, hu, rfl⟩, rfl⟩, fun r => ?_⟩
  cases r with
  | false =>
    show Prog.Obeys _ _ _ _ (registerFailedLogin u >>= _) _
    refine Prog.obeys_bind.mpr ((registerFailedLogin_obeys hu hh rfl).post ?_ ?_)
    · exact fun _ _ _ => trivial
    · exact fun _ _ _ => trivial
  | true =>
    show Prog.Obeys _ _ _ _ (if u.emailVerifiedAt = none then _ else _) _
    split_ifs with hverified
    · trivial
    · refine Prog.obeys_bind.mpr ((checkTwoFactor_obeys (hu.cons _) (hh.cons rfl rfl)
        ⟨pid, List.mem_cons_self⟩ hverified).post ?_ ?_)
      · exact fun _ _ ⟨hclean, hpassed⟩ => completeLogin_obeys hclean hpassed
      · exact fun _ _ _ => trivial

theorem login_obeys (input : LoginInput) (ctx : RequestContext) :
    (E.login input ctx).Obeys (expectedLogin E input) pid (fun _ h => ∃ u, Passed E input h u)
      (fun _ _ => True) [] := by
  refine ⟨⟨rfl, rfl⟩, fun r => ?_⟩
  cases r with
  | error code => trivial
  | ok found =>
    cases found with
    | none => trivial
    | some u =>
      show Prog.Obeys _ _ _ _ (if u.status = .suspended then _ else locked u >>= _) _
      have hlooked := looked_one pid (.email input.email) u
      have hclean : Clean [⟨pid, .db (.userFindUnique (.email input.email)), .ok (some u)⟩] :=
        List.forall_mem_singleton.mpr ⟨rfl, rfl⟩
      by_cases hstatus : u.status = .suspended
      · rw [if_pos hstatus]
        trivial
      · rw [if_neg hstatus, locked]
        cases hlock : u.lockedUntil with
        | none =>
          exact admitted_obeys ⟨hlooked, hstatus, fun t ht => absurd (hlock.symm.trans ht) nofun⟩
            hclean
        | some t =>
          refine ⟨trivial, fun (now : Time) => ?_⟩
          show Prog.Obeys _ _ _ _ (if decide (t > now) = true then _ else _) _
          by_cases hnow : t > now
          · rw [if_pos (decide_eq_true hnow)]
            trivial
          · rw [if_neg (by simpa using hnow)]
            refine admitted_obeys ⟨hlooked.cons _, hstatus, fun t' ht' => ?_⟩ (hclean.cons rfl rfl)
            obtain rfl : t = t' := Option.some.inj (hlock.symm.trans ht')
            exact ⟨now, ⟨pid, List.mem_cons_self⟩, Int.not_lt.mp hnow⟩

theorem requireUser_obeys {F : Requests → Op → Prop} {userId : String}
    (hF : F [] (.db (.userFindUnique (.id userId)))) {Q : User → Requests → Prop}
    (hQ : ∀ u, Q u [⟨pid, .db (.userFindUnique (.id userId)), .ok (some u)⟩]) :
    (requireUser userId).Obeys F pid Q (fun _ _ => True) [] := by
  refine ⟨hF, fun r => ?_⟩
  cases r with
  | error code => trivial
  | ok found =>
    cases found with
    | none => trivial
    | some u => exact hQ u

theorem enableTwoFactor_obeys (userId : String) :
    (E.enableTwoFactor userId).Obeys (expectedEnable userId) pid (fun _ _ => True)
      (fun _ _ => True) [] := by
  refine Prog.obeys_bind.mpr (requireUser_obeys ⟨rfl, rfl⟩ fun u => ?_)
  refine ⟨trivial, fun secret => ⟨trivial, fun iv => ?_⟩⟩
  cases henc : encryptSecret E.cipher iv secret E.encryptionKey with
  | error e =>
    show Prog.Obeys _ _ _ _ (.ofExcept (Except.mapError _ (encryptSecret E.cipher iv secret
      E.encryptionKey)) >>= _) _
    rw [henc]
    trivial
  | ok encrypted =>
    show Prog.Obeys _ _ _ _ (.ofExcept (Except.mapError _ (encryptSecret E.cipher iv secret
      E.encryptionKey)) >>= _) _
    rw [henc]
    refine ⟨⟨rfl, ⟨u, ((looked_one pid _ u).cons _).cons _⟩, encrypted, rfl⟩, fun r => ?_⟩
    cases r with
    | error code => trivial
    | ok row => trivial

theorem confirmTwoFactor_obeys (userId code : String) :
    (E.confirmTwoFactor userId code).Obeys (expectedConfirm E userId code) pid (fun _ _ => True)
      (fun _ _ => True) [] := by
  refine Prog.obeys_bind.mpr (requireUser_obeys ⟨rfl, rfl⟩ fun u => ?_)
  split_ifs with hfalsy
  · trivial
  · cases hdec : E.decrypt (u.twoFactorSecretEnc.getD "") with
    | error e => trivial
    | ok secret =>
      refine ⟨⟨rfl, u, ⟨pid, _, List.mem_cons_self⟩, hdec⟩, fun r => ?_⟩
      cases r with
      | false => trivial
      | true =>
        refine ⟨⟨rfl, rfl, u, secret, (looked_one pid _ u).cons _, Bool.eq_false_iff.mpr hfalsy, hdec, pid,
          List.mem_cons_self⟩, fun r => ?_⟩
        cases r with
        | error code => trivial
        | ok row => trivial

/-- The successor of a refresh token. -/
theorem issue_obeys {x : Auth.RefreshToken} {ctx : Auth.RefreshContext} {h : Requests}
    (hx : Spendable h x) :
    (session (E.tokens.issue x.userId ctx (some x.familyId))).Obeys expectedRefresh pid
      (fun issued h' => Stored h' issued.record) (fun _ _ => True) h := by
  obtain ⟨hredeemed, hrevoked, now, hnow, hle⟩ := hx
  refine ⟨trivial, fun raw => ⟨trivial, fun now' => ⟨⟨x, ⟨(hredeemed.cons _).cons _, hrevoked, now,
    (hnow.cons _).cons _, hle⟩, rfl⟩, fun r => ?_⟩⟩⟩
  cases r with
  | error code => trivial
  | ok row => exact ⟨pid, _, List.mem_cons_self⟩

theorem refresh_obeys (raw : String) (ctx : RequestContext) :
    (E.refresh raw ctx).Obeys expectedRefresh pid (fun _ _ => True) (fun _ _ => True) [] := by
  unfold Env.refresh Auth.Service.refresh
  rw [session_bind]
  refine Prog.obeys_bind.mpr (Prog.Obeys.post (Q := fun issued h => Stored h issued.record)
    (X := fun _ _ => True) ?_ ?_ fun _ _ _ => trivial)
  · refine ⟨rfl, fun r => ?_⟩
    cases r with
    | error code => trivial
    | ok existing =>
      cases existing with
      | none => trivial
      | some x =>
        show Prog.Obeys _ _ _ _ (session (Auth.Service.spent x >>= _)) _
        rw [session_bind, Auth.Service.spent]
        by_cases hx : x.revokedAt.isSome
        · rw [if_pos hx]
          refine ⟨trivial, fun now => ⟨trivial, fun r => ?_⟩⟩
          cases r with
          | error code => trivial
          | ok n => trivial
        · rw [if_neg hx]
          refine ⟨trivial, fun (now : Time) => ?_⟩
          show Prog.Obeys _ _ _ _ (session (if decide (x.expiresAt < now) = true then _ else _)) _
          by_cases hnow : x.expiresAt < now
          · rw [if_pos (decide_eq_true hnow)]
            refine ⟨trivial, fun now => ⟨trivial, fun r => ?_⟩⟩
            cases r with
            | error code => trivial
            | ok n => trivial
          · rw [if_neg (by simpa using hnow), session_bind]
            refine Prog.obeys_bind.mpr ((issue_obeys ⟨⟨pid, _,
              List.mem_cons_of_mem _ List.mem_cons_self⟩, by simpa using hx, now,
              ⟨pid, List.mem_cons_self⟩, Int.not_lt.mp hnow⟩).post ?_ fun _ _ _ => trivial)
            intro issued h ⟨q, d, hstored⟩
            refine ⟨trivial, fun now' => ⟨trivial, fun r => ?_⟩⟩
            cases r with
            | error code => trivial
            | ok row =>
              exact ⟨q, d, List.mem_cons_of_mem _ (List.mem_cons_of_mem _ hstored)⟩
  · exact fun issued h hstored => ⟨⟨issued.record, hstored, rfl⟩, fun jwt => trivial⟩

theorem launch_obeys (j : Job) (pid : ℕ) :
    (E.launch j).Obeys (expected E j) pid (fun _ => returned E j) (fun _ _ => True) [] := by
  cases j with
  | register input ctx => exact register_obeys input ctx
  | verifyEmail rawToken => exact verifyEmail_obeys rawToken
  | login input ctx =>
    exact Prog.obeys_bind.mpr ((login_obeys input ctx).post (fun _ _ hq => hq) fun _ _ _ => trivial)
  | refresh raw ctx =>
    exact Prog.obeys_bind.mpr ((refresh_obeys raw ctx).post (fun _ _ _ => trivial)
      fun _ _ _ => trivial)
  | logout raw => exact logout_obeys raw
  | enableTwoFactor userId =>
    exact Prog.obeys_bind.mpr ((enableTwoFactor_obeys userId).post (fun _ _ _ => trivial)
      fun _ _ _ => trivial)
  | confirmTwoFactor userId code => exact confirmTwoFactor_obeys userId code

theorem work_obeys (E : Env) : E.work.Obeys (expected E) := fun j pid =>
  (launch_obeys j pid).post (fun _ _ _ => trivial) fun _ _ _ => trivial

theorem sequence_obeys (E : Env) : E.sequence.Obeys (expected E) := work_obeys E

end Obeys

/-! ## What a call has looked up -/

/-- A user is looked up by the first request of a call. -/
theorem expected_find {E : Env} {j : Job} {h : Requests} {w : UserWhere}
    (he : expected E j h (.db (.userFindUnique w))) : h = [] := by
  cases j with
  | register input ctx => exact he
  | login input ctx => exact he.1
  | enableTwoFactor userId => exact he.1
  | confirmTwoFactor userId code => exact he.1
  | _ => exact absurd he id

/-- A call looks up one user. -/
theorem Looked.unique {E : Env} {j : Job} {h : Requests} (hh : InOrder (expected E j) h)
    {u v : User} (hu : Looked h u) (hv : Looked h v) : u = v := by
  obtain ⟨p, w, hu⟩ := hu
  obtain ⟨q, w', hv⟩ := hv
  induction h with
  | nil => exact absurd hu List.not_mem_nil
  | cons ev h ih =>
    have hfirst : ∀ {p w u}, (⟨p, .db (.userFindUnique w), .ok (some u)⟩ : Event calls) = ev →
        h = [] := fun heq => expected_find (heq ▸ hh.1)
    rcases List.mem_cons.mp hu with heq | hu'
    · obtain rfl := hfirst heq
      have hv' := List.mem_singleton.mp hv
      rw [← heq] at hv'
      cases hv'
      rfl
    · rcases List.mem_cons.mp hv with heq | hv'
      · obtain rfl := hfirst heq
        exact absurd hu' List.not_mem_nil
      · exact ih hh.2 hu' hv'

end CryptoPay.Accounts
