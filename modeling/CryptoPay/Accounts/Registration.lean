import CryptoPay.Accounts.Suspension
import CryptoPay.Async.TwoRuns

/-!
# Registrations that are cut short

`register` creates the user, then issues a verification token and then writes the
audit row, each on its own; for an email that has a user it does nothing. A call may
end after any of its requests, and nothing issues a second token.

Results:
* `Onboarded.ownsToken_iff`: an unverified user owns an unconsumed token unless the call
  that created it was cut short between the two.
* `unusable_forever`: an account without a usable token is never verified, whatever calls
  follow.
* `Onboarded.recovers_iff`: what a later call of `register` can still do about it.
* `registration_leaves_no_dead_account`: the three together.
-/

namespace CryptoPay.Accounts

open Async

open Api (RequestContext)

/-! ## The calls -/

/-- A call of `register` or `verifyEmail`. -/
inductive SignUp where
  | register (input : RegisterInput) (ctx : RequestContext)
  | verifyEmail (rawToken : String)
  deriving DecidableEq, Repr

instance : Inhabited SignUp := ⟨.verifyEmail ""⟩

/-- The call. -/
def SignUp.job : SignUp → Job
  | .register input ctx => .register input ctx
  | .verifyEmail rawToken => .verifyEmail rawToken

/-- Registrations and verifications, any number of them in flight. -/
def Env.signUps (E : Env) : Workload calls Error SignUp where
  launch j := E.launch j.job
  compatible _ _ := true
  symm _ _ := rfl

/-- The user was created. -/
def Created (h : Requests) (u : User) : Prop :=
  ∃ pid email hash, (⟨pid, .db (.userCreate email hash), .ok u⟩ : Event calls) ∈ h

/-- The token was stored. -/
def Issued (h : Requests) (x : EmailVerificationToken) : Prop :=
  ∃ pid d, (⟨pid, .db (.verificationCreate d), .ok x⟩ : Event calls) ∈ h

/-- What `register` may request besides: the user is created once, and so is the token, which is
    for that user. -/
def expectedCreation (E : Env) (h : Requests) : Op → Prop
  | .db (.userCreate ..) => ∀ u, ¬ Created h u
  | .db (.verificationCreate d) =>
    (∀ x, ¬ Issued h x) ∧ (∃ u, Created h u ∧ u.id = d.userId) ∧
      ∃ raw, d.tokenHash = E.verificationHash raw
  | _ => True

/-- What a call may request after the requests `h`. -/
def expectedSignUp (E : Env) : SignUp → Requests → Op → Prop
  | .register .., h, op => expectedRegister h op ∧ expectedCreation E h op
  | .verifyEmail _, h, op => expectedVerifyEmail h op

section Cons

variable {h : Requests} {ev : Event calls} {u : User} {x : EmailVerificationToken}

theorem Created.inv (hu : Created (ev :: h) u) :
    (∃ pid email hash, ev = ⟨pid, .db (.userCreate email hash), .ok u⟩) ∨ Created h u := by
  obtain ⟨pid, email, hash, hmem⟩ := hu
  rcases List.mem_cons.mp hmem with heq | hmem
  · exact .inl ⟨pid, email, hash, heq.symm⟩
  · exact .inr ⟨pid, email, hash, hmem⟩

theorem Issued.inv (hx : Issued (ev :: h) x) :
    (∃ pid d, ev = ⟨pid, .db (.verificationCreate d), .ok x⟩) ∨ Issued h x := by
  obtain ⟨pid, d, hmem⟩ := hx
  rcases List.mem_cons.mp hmem with heq | hmem
  · exact .inl ⟨pid, d, heq.symm⟩
  · exact .inr ⟨pid, d, hmem⟩

end Cons

/-- Every call does what is expected of it. -/
theorem signUps_obeys (E : Env) : E.signUps.Obeys (expectedSignUp E) := by
  intro j pid
  cases j with
  | verifyEmail rawToken => exact verifyEmail_obeys rawToken
  | register input ctx =>
    refine ⟨⟨rfl, trivial⟩, fun r => ?_⟩
    cases r with
    | error code => trivial
    | ok existing =>
      cases existing with
      | some u => trivial
      | none =>
        have hnone : ∀ (hash : String) u, ¬ Created [⟨pid, .hashPassword input.password, hash⟩,
            ⟨pid, .db (.userFindUnique (.email input.email)), .ok none⟩] u := by
          rintro hash u ⟨q, email, hash', hmem⟩
          rcases List.mem_cons.mp hmem with heq | hmem
          · cases heq
          · cases List.mem_singleton.mp hmem
        refine ⟨⟨trivial, trivial⟩, fun hash => ⟨⟨trivial, hnone hash⟩, fun r => ?_⟩⟩
        cases r with
        | error code => trivial
        | ok user =>
          have hunissued : ∀ (raw : String) (now : Time) x, ¬ Issued
              [⟨pid, .session .now, now⟩, ⟨pid, .session .randomBytes, raw⟩,
                ⟨pid, .db (.userCreate input.email hash), .ok user⟩,
                ⟨pid, .hashPassword input.password, hash⟩,
                ⟨pid, .db (.userFindUnique (.email input.email)), .ok none⟩] x := by
            rintro raw now x ⟨q, d, hmem⟩
            simp at hmem
          refine ⟨⟨trivial, trivial⟩, fun raw => ⟨⟨trivial, trivial⟩, fun now => ⟨⟨trivial,
            hunissued raw now, ⟨user, ⟨pid, _, _, List.mem_cons_of_mem _ (List.mem_cons_of_mem _
              List.mem_cons_self)⟩, rfl⟩, raw, rfl⟩, fun r => ?_⟩⟩⟩
          cases r with
          | error code => trivial
          | ok row =>
            refine ⟨⟨trivial, trivial⟩, fun r => ?_⟩
            cases r with
            | error code => trivial
            | ok x => trivial

/-! ## What a request does to the tables -/

/-- A user, a token, a verification, or nothing. -/
inductive Change (s s' : State) : Event calls → Prop where
  | same {ev : Event calls} (created : ∀ u, ¬ Created [ev] u) (issued : ∀ x, ¬ Issued [ev] x)
      (users : s'.db.users = s.db.users) (verifications : s'.db.verifications = s.db.verifications) :
      Change s s' ev
  | created {pid : ℕ} {email hash : String} {u : User} (unverified : u.emailVerifiedAt = none)
      (fresh : ∀ v ∈ s.db.users, v.id ≠ u.id ∧ v.email ≠ u.email)
      (users : ∀ v, v ∈ s'.db.users ↔ v = u ∨ v ∈ s.db.users)
      (verifications : s'.db.verifications = s.db.verifications) :
      Change s s' ⟨pid, .db (.userCreate email hash), .ok u⟩
  | issued {pid : ℕ} {d : VerificationCreateInput} {id : String}
      (users : s'.db.users = s.db.users)
      (verifications : ∀ y, y ∈ s'.db.verifications ↔ y = d.row id ∨ y ∈ s.db.verifications) :
      Change s s' ⟨pid, .db (.verificationCreate d), .ok (d.row id)⟩
  | consumed {pid : ℕ} {tokenId userId : String} {at_ verifiedAt : Time}
      (owner : ∃ u ∈ s.db.users, u.id = userId)
      (users : s'.db.users = s.db.users.update userId (verifiedData verifiedAt))
      (verifications : s'.db.verifications = s.db.verifications.consume tokenId at_) :
      Change s s' ⟨pid, .db (.consume tokenId at_ userId (verifiedData verifiedAt)), .ok ()⟩

theorem VerificationTable.mem_insert {t t' : VerificationTable} {x y : EmailVerificationToken}
    (h : t.insert? x = some t') : y ∈ t' ↔ y = x ∨ y ∈ t := by
  unfold VerificationTable.insert? at h
  split_ifs at h
  rw [← Option.some.inj h]
  exact List.mem_cons

theorem VerificationTable.mem_consume {t : VerificationTable} {x : EmailVerificationToken}
    {id : String} {at_ : Time} : x ∈ t.consume id at_ ↔ ∃ y ∈ t, x = VerificationTable.consumedIf id at_ y := by
  simp only [VerificationTable.mem_def, VerificationTable.consume, List.mem_map, eq_comm]

theorem VerificationTable.consumedIf_userId (id : String) (at_ : Time) (x : EmailVerificationToken) :
    (consumedIf id at_ x).userId = x.userId := by
  unfold consumedIf
  split_ifs <;> rfl

section Change

variable {E : Env} {s s' : State} {ev : Event calls} {i : Input} {j : SignUp} {h : Requests}

/-- A query that fails leaves the tables. -/
theorem Change.of_error {pid : ℕ} {call : AccountCall} {code : PrismaErrorCode}
    (hdb : s'.db = s.db) : Change s s' ⟨pid, .db call, .error code⟩ := by
  refine .same ?_ ?_ (congrArg Database.users hdb) (congrArg Database.verifications hdb)
  · rintro u ⟨q, email, hash, hmem⟩
    cases List.mem_singleton.mp hmem
  · rintro x ⟨q, d, hmem⟩
    cases List.mem_singleton.mp hmem

/-- Any request of a call. -/
theorem change_of_respond (he : expectedSignUp E j h ev.op)
    (hr : E.respond s ev.op i = some (ev.ret, s')) : Change s s' ev := by
  obtain ⟨pid, op, r⟩ := ev
  have hother : (∀ call, op ≠ .db call) → s'.db = s.db → Change s s' ⟨pid, op, r⟩ := by
    intro hop hdb
    refine .same ?_ ?_ (congrArg Database.users hdb) (congrArg Database.verifications hdb)
    · rintro u ⟨q, email, hash, hmem⟩
      cases List.mem_singleton.mp hmem
      exact hop _ rfl
    · rintro x ⟨q, d, hmem⟩
      cases List.mem_singleton.mp hmem
      exact hop _ rfl
  cases op with
  | session op => exact hother (fun _ h => by cases h) (respond_session hr).2
  | db call =>
    obtain ⟨⟨id, hexec⟩, -⟩ := respond_db hr
    cases r with
    | error code => exact .of_error (exec_error hexec)
    | ok r =>
      have hread : (∀ email hash, call ≠ .userCreate email hash) →
          (∀ d, call ≠ .verificationCreate d) → s'.db.users = s.db.users →
          s'.db.verifications = s.db.verifications → Change s s' ⟨pid, .db call, .ok r⟩ := by
        intro hcreate hissue husers hverifications
        refine .same ?_ ?_ husers hverifications
        · rintro u ⟨q, email, hash, hmem⟩
          cases List.mem_singleton.mp hmem
          exact hcreate _ _ rfl
        · rintro x ⟨q, d, hmem⟩
          cases List.mem_singleton.mp hmem
          exact hissue _ rfl
      have hdb : s'.db = (call.exec s.now id s.db).2 := (congrArg Prod.snd hexec).symm
      cases call with
      | userFindUnique w =>
        rw [AccountCall.exec] at hdb
        exact hread (fun _ _ h => by cases h) (fun _ h => by cases h) (by rw [hdb]) (by rw [hdb])
      | verificationFindUnique hash =>
        rw [AccountCall.exec] at hdb
        exact hread (fun _ _ h => by cases h) (fun _ h => by cases h) (by rw [hdb]) (by rw [hdb])
      | auditLogCreate data =>
        rw [AccountCall.exec] at hdb
        exact hread (fun _ _ h => by cases h) (fun _ h => by cases h) (by rw [hdb]) (by rw [hdb])
      | userUpdate target data =>
        cases j with
        | register input ctx => exact absurd he.1 fun h => h
        | verifyEmail raw => exact absurd he fun h => h
      | userCreate email hash =>
        simp only [AccountCall.exec] at hexec
        split at hexec
        · rename_i users husers
          obtain ⟨hid, hemail, hmem⟩ := UserTable.insert?_eq_some husers
          obtain ⟨hr, hdb⟩ := Prod.mk.inj hexec
          obtain rfl := Except.ok.inj hr
          exact .created rfl (fun v hv => ⟨hid v hv, hemail v hv⟩) (by rw [← hdb]; exact hmem)
            (by rw [← hdb])
        · cases hexec
      | verificationCreate d =>
        simp only [AccountCall.exec] at hexec
        split at hexec
        · rename_i verifications hverifications
          obtain ⟨hr, hdb⟩ := Prod.mk.inj hexec
          obtain rfl := Except.ok.inj hr
          refine .issued (by rw [← hdb]) fun y => ?_
          rw [← hdb]
          exact VerificationTable.mem_insert hverifications
        · cases hexec
      | consume tokenId at_ userId data =>
        cases j with
        | register input ctx => exact absurd he.1 fun h => h
        | verifyEmail raw =>
          obtain ⟨-, verifiedAt, rfl⟩ := he
          simp only [AccountCall.exec] at hexec
          split at hexec
          · rename_i x u hx hu
            obtain ⟨hr, hdb⟩ := Prod.mk.inj hexec
            obtain ⟨hmem, hid⟩ := Data.Table.find?_eq_some_iff.mp hu
            exact .consumed ⟨u, hmem, hid⟩ (by rw [← hdb]) (by rw [← hdb])
          · cases hexec
  | hashPassword password => exact hother (fun _ h => by cases h) (congrArg State.db (respond_frame id hr))
  | verifyPassword hash password =>
    exact hother (fun _ h => by cases h) (congrArg State.db (respond_frame id hr))
  | secret => exact hother (fun _ h => by cases h) (congrArg State.db (respond_frame id hr))
  | iv => exact hother (fun _ h => by cases h) (congrArg State.db (respond_frame id hr))
  | verifyTotp secret code => exact hother (fun _ h => by cases h) (congrArg State.db (respond_frame id hr))

theorem created_one {u v : User} {pid : ℕ} {email hash : String}
    (hv : Created [⟨pid, .db (.userCreate email hash), .ok u⟩] v) : v = u := by
  obtain ⟨q, email', hash', hmem⟩ := hv
  cases List.mem_singleton.mp hmem
  rfl

theorem issued_one {x y : EmailVerificationToken} {pid : ℕ} {d : VerificationCreateInput}
    (hy : Issued [⟨pid, .db (.verificationCreate d), .ok x⟩] y) : y = x := by
  obtain ⟨q, d', hmem⟩ := hy
  cases List.mem_singleton.mp hmem
  rfl

namespace Change

variable (hc : Change s s' ev)

include hc

/-- A user keeps its id and its email, and stays verified. -/
theorem user_kept {u : User} (hu : u ∈ s.db.users) : ∃ u' ∈ s'.db.users, u'.id = u.id ∧
    u'.email = u.email ∧ (u.emailVerifiedAt ≠ none → u'.emailVerifiedAt ≠ none) := by
  cases hc with
  | same created issued users => exact ⟨u, by rw [users]; exact hu, rfl, rfl, fun h => h⟩
  | created unverified fresh users => exact ⟨u, (users u).mpr (.inr hu), rfl, rfl, fun h => h⟩
  | issued users => exact ⟨u, by rw [users]; exact hu, rfl, rfl, fun h => h⟩
  | @consumed pid tokenId userId at_ verifiedAt owner users =>
    refine ⟨u.updatedIf userId (verifiedData verifiedAt), ?_, updatedIf_id _ _ _,
      updatedIf_email _ _ _, fun h => ?_⟩
    · rw [users]
      exact UserTable.mem_update.mpr ⟨u, hu, rfl⟩
    · unfold User.updatedIf
      split_ifs
      · nofun
      · exact h

theorem user_before {u' : User} (hu' : u' ∈ s'.db.users) :
    (∃ u ∈ s.db.users, u.id = u'.id) ∨ Created [ev] u' := by
  cases hc with
  | same created issued users => exact .inl ⟨u', by rw [← users]; exact hu', rfl⟩
  | @created pid email hash u unverified fresh users =>
    rcases (users u').mp hu' with rfl | hu
    · exact .inr ⟨pid, email, hash, List.mem_singleton_self _⟩
    · exact .inl ⟨u', hu, rfl⟩
  | issued users => exact .inl ⟨u', by rw [← users]; exact hu', rfl⟩
  | consumed owner users =>
    rw [users] at hu'
    obtain ⟨u, hu, rfl⟩ := UserTable.mem_update.mp hu'
    exact .inl ⟨u, hu, (updatedIf_id _ _ _).symm⟩

/-- A token keeps its id, its user and its hash. -/
theorem token_kept {x : EmailVerificationToken} (hx : x ∈ s.db.verifications) :
    ∃ x' ∈ s'.db.verifications, x'.id = x.id ∧ x'.userId = x.userId := by
  cases hc with
  | same created issued users verifications =>
    exact ⟨x, by rw [verifications]; exact hx, rfl, rfl⟩
  | created unverified fresh users verifications =>
    exact ⟨x, by rw [verifications]; exact hx, rfl, rfl⟩
  | issued users verifications => exact ⟨x, (verifications x).mpr (.inr hx), rfl, rfl⟩
  | @consumed pid tokenId userId at_ verifiedAt owner users verifications =>
    refine ⟨VerificationTable.consumedIf tokenId at_ x, ?_, VerificationTable.consumedIf_id _ _ _,
      VerificationTable.consumedIf_userId _ _ _⟩
    rw [verifications]
    exact VerificationTable.mem_consume.mpr ⟨x, hx, rfl⟩

theorem token_before {x' : EmailVerificationToken} (hx' : x' ∈ s'.db.verifications) :
    (∃ x ∈ s.db.verifications, x.userId = x'.userId ∧ x.tokenHash = x'.tokenHash) ∨
      Issued [ev] x' := by
  cases hc with
  | same created issued users verifications =>
    exact .inl ⟨x', by rw [← verifications]; exact hx', rfl, rfl⟩
  | created unverified fresh users verifications =>
    exact .inl ⟨x', by rw [← verifications]; exact hx', rfl, rfl⟩
  | @issued pid d id users verifications =>
    rcases (verifications x').mp hx' with rfl | hx
    · exact .inr ⟨pid, d, List.mem_singleton_self _⟩
    · exact .inl ⟨x', hx, rfl, rfl⟩
  | consumed owner users verifications =>
    rw [verifications] at hx'
    obtain ⟨x, hx, rfl⟩ := VerificationTable.mem_consume.mp hx'
    exact .inl ⟨x, hx, (VerificationTable.consumedIf_userId _ _ _).symm,
      (VerificationTable.consumedIf_tokenHash _ _ _).symm⟩

theorem created_fresh {u : User} (hu : Created [ev] u) :
    u ∈ s'.db.users ∧ ∀ v ∈ s.db.users, v.id ≠ u.id ∧ v.email ≠ u.email := by
  cases hc with
  | same created => exact absurd hu (created u)
  | created unverified fresh users =>
    obtain rfl := created_one hu
    exact ⟨(users _).mpr (.inl rfl), fresh⟩
  | issued => obtain ⟨q, email, hash, hmem⟩ := hu; cases List.mem_singleton.mp hmem
  | consumed => obtain ⟨q, email, hash, hmem⟩ := hu; cases List.mem_singleton.mp hmem

theorem issued_stored {x : EmailVerificationToken} (hx : Issued [ev] x) :
    x ∈ s'.db.verifications ∧ x.consumedAt = none := by
  cases hc with
  | same created issued => exact absurd hx (issued x)
  | created => obtain ⟨q, d, hmem⟩ := hx; cases List.mem_singleton.mp hmem
  | issued users verifications =>
    obtain rfl := issued_one hx
    exact ⟨(verifications _).mpr (.inl rfl), rfl⟩
  | consumed => obtain ⟨q, d, hmem⟩ := hx; cases List.mem_singleton.mp hmem

end Change

/-- A call that creates a user has created none. -/
theorem created_first (he : expectedSignUp E j h ev.op) {u : User} (hu : Created [ev] u) :
    ∀ v, ¬ Created h v := by
  obtain ⟨q, email, hash, hmem⟩ := hu
  cases List.mem_singleton.mp hmem
  cases j with
  | register input ctx => exact he.2
  | verifyEmail raw => exact absurd he fun h => h

/-- A token is issued once, to the user that the call has created. -/
theorem issued_owner (he : expectedSignUp E j h ev.op) (hc : Change s s' ev)
    {x : EmailVerificationToken} (hx : Issued [ev] x) :
    (∀ y, ¬ Issued h y) ∧ (∃ u, Created h u ∧ u.id = x.userId) ∧
      ∃ raw, x.tokenHash = E.verificationHash raw := by
  obtain ⟨q, d, hmem⟩ := hx
  obtain rfl := List.mem_singleton.mp hmem
  cases j with
  | register input ctx =>
    cases hc with
    | same created issued => exact absurd ⟨q, d, List.mem_singleton_self _⟩ (issued x)
    | issued => exact he.2
  | verifyEmail raw => exact absurd he fun h => h

end Change

/-! ## What every run keeps -/

/-- The user's email is verified. -/
def State.VerifiedUser (s : State) (a : String) : Prop :=
  ∃ u ∈ s.db.users, u.id = a ∧ u.emailVerifiedAt ≠ none

/-- Users and tokens come from the calls of `register`, one of each from a call, and a token is
    consumed when its user is verified. -/
structure Onboarded (E : Env) (c : Config calls State) : Prop where
  creator : ∀ u ∈ c.state.db.users, ∃ p v, Created (own p c.trace) v ∧ v.id = u.id
  stored : ∀ v, Created c.trace v → ∃ u ∈ c.state.db.users, u.id = v.id
  once : ∀ p v w, Created (own p c.trace) v → Created (own p c.trace) w → v = w
  alone : ∀ p q v w, Created (own p c.trace) v → Created (own q c.trace) w → v.id = w.id → p = q
  issuer : ∀ x ∈ c.state.db.verifications, ∃ p row, Issued (own p c.trace) row ∧
    row.userId = x.userId ∧ ∃ raw, x.tokenHash = E.verificationHash raw
  owner : ∀ p row, Issued (own p c.trace) row →
    ∃ v, Created (own p c.trace) v ∧ v.id = row.userId
  single : ∀ x ∈ c.state.db.verifications, ∀ y ∈ c.state.db.verifications,
    x.userId = y.userId → x = y
  token : ∀ row, Issued c.trace row → ∃ x ∈ c.state.db.verifications, x.userId = row.userId ∧
    (x.consumedAt = none ∨ c.state.VerifiedUser x.userId)
  presented : ∀ y, Presented c.trace y →
    ∃ x ∈ c.state.db.verifications, x.id = y.id ∧ x.userId = y.userId

section Own

variable {p : ℕ} {ev : Event calls} {tr : Requests} {u : User} {x : EmailVerificationToken}

theorem created_own (hu : Created (own p (ev :: tr)) u) :
    (ev.pid = p ∧ Created [ev] u) ∨ Created (own p tr) u := by
  by_cases hp : ev.pid = p
  · subst hp
    rw [own_cons_self] at hu
    rcases hu.inv with ⟨pid, email, hash, rfl⟩ | hu
    · exact .inl ⟨rfl, pid, email, hash, List.mem_singleton_self _⟩
    · exact .inr hu
  · rw [own_cons_of_ne hp] at hu
    exact .inr hu

theorem issued_own (hx : Issued (own p (ev :: tr)) x) :
    (ev.pid = p ∧ Issued [ev] x) ∨ Issued (own p tr) x := by
  by_cases hp : ev.pid = p
  · subst hp
    rw [own_cons_self] at hx
    rcases hx.inv with ⟨pid, d, rfl⟩ | hx
    · exact .inl ⟨rfl, pid, d, List.mem_singleton_self _⟩
    · exact .inr hx
  · rw [own_cons_of_ne hp] at hx
    exact .inr hx

theorem created_keep (hu : Created (own p tr) u) (ev : Event calls) :
    Created (own p (ev :: tr)) u := by
  obtain ⟨pid, email, hash, hmem⟩ := hu
  obtain ⟨hmem, hpid⟩ := mem_own.mp hmem
  exact ⟨pid, email, hash, mem_own.mpr ⟨List.mem_cons_of_mem ev hmem, hpid⟩⟩

theorem issued_keep (hx : Issued (own p tr) x) (ev : Event calls) : Issued (own p (ev :: tr)) x := by
  obtain ⟨pid, d, hmem⟩ := hx
  obtain ⟨hmem, hpid⟩ := mem_own.mp hmem
  exact ⟨pid, d, mem_own.mpr ⟨List.mem_cons_of_mem ev hmem, hpid⟩⟩

theorem created_self (hu : Created [ev] u) : Created (own ev.pid (ev :: tr)) u := by
  obtain ⟨q, email, hash, hmem⟩ := hu
  obtain rfl := List.mem_singleton.mp hmem
  exact ⟨q, email, hash, by rw [own_cons_self]; exact List.mem_cons_self⟩

theorem issued_self (hx : Issued [ev] x) : Issued (own ev.pid (ev :: tr)) x := by
  obtain ⟨q, d, hmem⟩ := hx
  obtain rfl := List.mem_singleton.mp hmem
  exact ⟨q, d, by rw [own_cons_self]; exact List.mem_cons_self⟩

theorem created_of_own (hu : Created (own p tr) u) : Created tr u :=
  let ⟨pid, email, hash, hmem⟩ := hu
  ⟨pid, email, hash, (mem_own.mp hmem).1⟩

end Own

section Step

variable {E : Env} {c : Config calls State} {ev : Event calls} {state : State}

/-- What is verified stays so. -/
theorem Change.verified {s s' : State} (hch : Change s s' ev) {a : String}
    (h : s.VerifiedUser a) : s'.VerifiedUser a := by
  obtain ⟨u, hu, hid, hverified⟩ := h
  obtain ⟨u', hu', hid', -, hkeeps⟩ := hch.user_kept hu
  exact ⟨u', hu', hid'.trans hid, hkeeps hverified⟩

/-- A token that is consumed now is one of the user that is verified now. -/
theorem Onboarded.token_step (hc : Onboarded E c) (hch : Change c.state state ev) {j : SignUp}
    {p : ℕ} (he : expectedSignUp E j (own p c.trace) ev.op) {x : EmailVerificationToken}
    (hx : x ∈ c.state.db.verifications)
    (hspent : x.consumedAt = none ∨ c.state.VerifiedUser x.userId) :
    ∃ x' ∈ state.db.verifications, x'.userId = x.userId ∧
      (x'.consumedAt = none ∨ state.VerifiedUser x'.userId) := by
  have hverified := hspent.imp_right hch.verified
  cases hch with
  | same created issued users verifications =>
    exact ⟨x, by rw [verifications]; exact hx, rfl, hverified⟩
  | created unverified fresh users verifications =>
    exact ⟨x, by rw [verifications]; exact hx, rfl, hverified⟩
  | issued users verifications => exact ⟨x, (verifications x).mpr (.inr hx), rfl, hverified⟩
  | @consumed pid tokenId userId at_ verifiedAt owner users verifications =>
    refine ⟨VerificationTable.consumedIf tokenId at_ x, ?_,
      VerificationTable.consumedIf_userId _ _ _, ?_⟩
    · rw [verifications]
      exact VerificationTable.mem_consume.mpr ⟨x, hx, rfl⟩
    · rw [VerificationTable.consumedIf_userId]
      by_cases hid : x.id = tokenId
      · -- the call has found the token, and verifies the user that it names
        right
        cases j with
        | register input ctx => exact absurd he.1 fun h => h
        | verifyEmail raw =>
          obtain ⟨⟨y, ⟨q, hash, hmem⟩, hyid, hyuser, -⟩, -⟩ := he
          obtain ⟨z, hz, hzid, hzuser⟩ := hc.presented y ⟨q, hash, (mem_own.mp hmem).1⟩
          have hxz : x = z := c.state.db.verifications.eq_of_key hx hz (by rw [hzid, hyid, hid])
          obtain ⟨u, hu, huid⟩ := owner
          refine ⟨u.updated (verifiedData verifiedAt), ?_, ?_, nofun⟩
          · rw [users]
            exact UserTable.mem_update.mpr ⟨u, hu, (updatedIf_of_eq huid).symm⟩
          · show u.id = x.userId
            rw [huid, hxz, hzuser, hyuser]
      · rw [VerificationTable.consumedIf, if_neg hid]
        exact hverified

/-- A user has at most one token. -/
theorem Onboarded.single_step (hc : Onboarded E c) {j : SignUp}
    (he : expectedSignUp E j (own ev.pid c.trace) ev.op) (hch : Change c.state state ev) :
    ∀ x ∈ state.db.verifications, ∀ y ∈ state.db.verifications, x.userId = y.userId → x = y := by
  -- the call that issues a token has issued none to the user that it created
  have hfresh : ∀ x, Issued [ev] x → ∀ y ∈ c.state.db.verifications, y.userId ≠ x.userId := by
    intro x hx y hy huser
    obtain ⟨hnone, ⟨v, hv, hvid⟩, -⟩ := issued_owner he hch hx
    obtain ⟨p, row, hrow, hrowUser, -⟩ := hc.issuer y hy
    obtain ⟨w, hw, hwid⟩ := hc.owner p row hrow
    obtain rfl := hc.alone p ev.pid w v hw hv (by rw [hwid, hrowUser, huser, hvid])
    exact hnone row hrow
  intro x hx y hy huser
  cases hch with
  | same created issued users verifications =>
    rw [verifications] at hx hy
    exact hc.single x hx y hy huser
  | created unverified fresh users verifications =>
    rw [verifications] at hx hy
    exact hc.single x hx y hy huser
  | @issued pid d id users verifications =>
    have hnew : Issued [⟨pid, .db (.verificationCreate d), .ok (d.row id)⟩] (d.row id) :=
      ⟨pid, d, List.mem_singleton_self _⟩
    rcases (verifications x).mp hx with rfl | hx
    · rcases (verifications y).mp hy with rfl | hy
      · rfl
      · exact absurd huser.symm (hfresh _ hnew y hy)
    · rcases (verifications y).mp hy with rfl | hy
      · exact absurd huser (hfresh _ hnew x hx)
      · exact hc.single x hx y hy huser
  | consumed owner users verifications =>
    rw [verifications] at hx hy
    obtain ⟨x₀, hx₀, rfl⟩ := VerificationTable.mem_consume.mp hx
    obtain ⟨y₀, hy₀, rfl⟩ := VerificationTable.mem_consume.mp hy
    simp only [VerificationTable.consumedIf_userId] at huser
    rw [hc.single x₀ hx₀ y₀ hy₀ huser]

/-- One request. -/
theorem Onboarded.step (hc : Onboarded E c)
    (ha : Answered E.machine anything (expectedSignUp E) c ev state) :
    Onboarded E ⟨state, ev :: c.trace⟩ := by
  obtain ⟨-, ⟨j, he, -⟩, -, i, hr⟩ := ha
  have hch : Change c.state state ev := change_of_respond he hr
  constructor
  · intro u hu
    rcases hch.user_before hu with ⟨u₀, hu₀, hid⟩ | hnew
    · obtain ⟨p, v, hv, hvid⟩ := hc.creator u₀ hu₀
      exact ⟨p, v, created_keep hv ev, hvid.trans hid⟩
    · exact ⟨ev.pid, u, created_self hnew, rfl⟩
  · intro v hv
    rcases hv.inv with ⟨pid, email, hash, rfl⟩ | hv
    · exact ⟨v, (hch.created_fresh ⟨pid, email, hash, List.mem_singleton_self _⟩).1, rfl⟩
    · obtain ⟨u, hu, hid⟩ := hc.stored v hv
      obtain ⟨u', hu', hid', -⟩ := hch.user_kept hu
      exact ⟨u', hu', hid'.trans hid⟩
  · intro p v w hv hw
    rcases created_own hv with ⟨rfl, hnew⟩ | hold
    · rcases created_own hw with ⟨-, hnew'⟩ | hold'
      · obtain ⟨q, email, hash, hmem⟩ := hnew
        obtain rfl := List.mem_singleton.mp hmem
        exact (created_one hnew').symm
      · exact absurd hold' (created_first he hnew w)
    · rcases created_own hw with ⟨rfl, hnew'⟩ | hold'
      · exact absurd hold (created_first he hnew' v)
      · exact hc.once p v w hold hold'
  · intro p q v w hv hw hid
    rcases created_own hv with ⟨rfl, hnew⟩ | hold
    · rcases created_own hw with ⟨rfl, -⟩ | hold'
      · rfl
      · obtain ⟨u, hu, huid⟩ := hc.stored w (created_of_own hold')
        exact absurd (huid.trans hid.symm) ((hch.created_fresh hnew).2 u hu).1
    · rcases created_own hw with ⟨rfl, hnew'⟩ | hold'
      · obtain ⟨u, hu, huid⟩ := hc.stored v (created_of_own hold)
        exact absurd (huid.trans hid) ((hch.created_fresh hnew').2 u hu).1
      · exact hc.alone p q v w hold hold' hid
  · intro x hx
    rcases hch.token_before hx with ⟨x₀, hx₀, huser, hhash⟩ | hnew
    · obtain ⟨p, row, hrow, hrowUser, raw, hraw⟩ := hc.issuer x₀ hx₀
      exact ⟨p, row, issued_keep hrow ev, hrowUser.trans huser, raw, hhash.symm.trans hraw⟩
    · exact ⟨ev.pid, x, issued_self hnew, rfl, (issued_owner he hch hnew).2.2⟩
  · intro p row hrow
    rcases issued_own hrow with ⟨rfl, hnew⟩ | hrow
    · obtain ⟨-, ⟨v, hv, hid⟩, -⟩ := issued_owner he hch hnew
      exact ⟨v, created_keep hv ev, hid⟩
    · obtain ⟨v, hv, hid⟩ := hc.owner p row hrow
      exact ⟨v, created_keep hv ev, hid⟩
  · exact hc.single_step he hch
  · intro row hrow
    rcases hrow.inv with ⟨pid, d, rfl⟩ | hrow
    · obtain ⟨hmem, hnew⟩ := hch.issued_stored ⟨pid, d, List.mem_singleton_self _⟩
      exact ⟨row, hmem, rfl, .inl hnew⟩
    · obtain ⟨x, hx, huser, hspent⟩ := hc.token row hrow
      obtain ⟨x', hx', huser', hspent'⟩ := hc.token_step hch he hx hspent
      exact ⟨x', hx', huser'.trans huser, hspent'⟩
  · intro y hy
    have hold : (∃ x ∈ c.state.db.verifications, x.id = y.id ∧ x.userId = y.userId) →
        ∃ x ∈ state.db.verifications, x.id = y.id ∧ x.userId = y.userId := by
      rintro ⟨x, hx, hid, huser⟩
      obtain ⟨x', hx', hid', huser'⟩ := hch.token_kept hx
      exact ⟨x', hx', hid'.trans hid, huser'.trans huser⟩
    rcases hy.inv with ⟨pid, hash, rfl⟩ | hy
    · obtain ⟨⟨cuid, hexec⟩, -⟩ := respond_db hr
      exact hold ⟨y, (exec_findVerification hexec).1, rfl, rfl⟩
    · exact hold (hc.presented y hy)

end Step

/-- No users and no tokens. -/
def State.Unused (s : State) : Prop := (∀ u, u ∉ s.db.users) ∧ ∀ x, x ∉ s.db.verifications

/-- The systems that some history of calls leads to. -/
def SignedUp (E : Env) : System calls Error SignUp State → Prop :=
  Reachable E.machine E.signUps State.Unused anything

theorem onboarded_inv {E : Env} {s : System calls Error SignUp State} (hs : SignedUp E s) :
    Onboarded E s.config := by
  refine Reachable.invariant (signUps_obeys E) (fun s h => ?_) (fun c act state hc henv => ?_)
    (fun c ev state hc ha => hc.step ha) hs
  · have hnone : ∀ {u}, ¬ Created [] u := fun ⟨_, _, _, hmem⟩ => absurd hmem List.not_mem_nil
    have hnone' : ∀ {x}, ¬ Issued [] x := fun ⟨_, _, hmem⟩ => absurd hmem List.not_mem_nil
    exact ⟨fun u hu => absurd hu (h.1 u), fun v hv => absurd hv hnone,
      fun p v w hv => absurd hv hnone, fun p q v w hv => absurd hv hnone,
      fun x hx => absurd hx (h.2 x), fun p row hrow => absurd hrow hnone',
      fun x hx => absurd hx (h.2 x), fun row hrow => absurd hrow hnone', fun y ⟨_, _, hmem⟩ => absurd hmem List.not_mem_nil⟩
  · cases henv
    exact ⟨hc.creator, hc.stored, hc.once, hc.alone, hc.issuer, hc.owner, hc.single, hc.token,
      hc.presented⟩

/-- The call that created the user has not stored its token: it failed or crashed in between, or
    is about to. -/
def CutShort (c : Config calls State) (u : User) : Prop :=
  ∃ p v, Created (own p c.trace) v ∧ v.id = u.id ∧ ∀ x, ¬ Issued (own p c.trace) x

/-- An unconsumed token was issued for the user. -/
def State.OwnsToken (s : State) (u : User) : Prop :=
  ∃ x ∈ s.db.verifications, x.userId = u.id ∧ x.consumedAt = none

/-- An unverified user owns an unconsumed token unless its registration was cut short. -/
theorem Onboarded.ownsToken_iff {E : Env} {c : Config calls State} (hc : Onboarded E c) {u : User}
    (hu : u ∈ c.state.db.users) (hverified : u.emailVerifiedAt = none) :
    c.state.OwnsToken u ↔ ¬ CutShort c u := by
  constructor
  · rintro ⟨x, hx, huser, -⟩ ⟨q, w, hw, hwid, hcut⟩
    obtain ⟨p, row, hrow, hrowUser, -⟩ := hc.issuer x hx
    obtain ⟨v, hv, hvid⟩ := hc.owner p row hrow
    have hsame : v.id = w.id := by rw [hvid, hrowUser, huser, hwid]
    obtain rfl := hc.alone p q v w hv hw hsame
    exact hcut row hrow
  · intro hcut
    obtain ⟨p, v, hv, hvid⟩ := hc.creator u hu
    have hissued : ∃ x, Issued (own p c.trace) x := by
      by_contra hnone
      exact hcut ⟨p, v, hv, hvid, fun x hx => hnone ⟨x, hx⟩⟩
    obtain ⟨row, hrow⟩ := hissued
    obtain ⟨w, hw, hwid⟩ := hc.owner p row hrow
    obtain rfl := hc.once p v w hv hw
    obtain ⟨pid, d, hmem⟩ := hrow
    obtain ⟨x, hx, huser, hspent⟩ := hc.token row ⟨pid, d, (mem_own.mp hmem).1⟩
    refine ⟨x, hx, by rw [huser, ← hwid, hvid], hspent.resolve_right ?_⟩
    rintro ⟨u', hu', hid', hverified'⟩
    have hid : u'.id = u.id := by rw [hid', huser, ← hwid, hvid]
    rw [UserTable.eq_of_id hu' hu hid] at hverified'
    exact hverified' hverified

/-! ## Nothing issues a second token -/

/-- The account with this email is verified. -/
def State.Verified (email : String) (s : State) : Prop :=
  ∃ u ∈ s.db.users, u.email = email ∧ u.emailVerifiedAt ≠ none

/-- If there is an unverified account with this email, then it has a token that is neither consumed
    nor expired. -/
def State.Usable (email : String) (s : State) : Prop :=
  ∀ u ∈ s.db.users, u.email = email → u.emailVerifiedAt = none →
    ∃ x ∈ s.db.verifications, x.userId = u.id ∧ x.consumedAt = none ∧ s.now ≤ x.expiresAt

/-- A token that was issued for the user has expired. -/
def State.Expired (s : State) (u : User) : Prop :=
  ∃ x ∈ s.db.verifications, x.userId = u.id ∧ x.expiresAt < s.now

/-- The user `a` has this email, which is not verified, and no token that can be used. -/
structure Dead (email a : String) (c : Config calls State) : Prop where
  user : ∃ u ∈ c.state.db.users, u.id = a ∧ u.email = email ∧ u.emailVerifiedAt = none
  tokens : ∀ x ∈ c.state.db.verifications, x.userId = a → x.consumedAt = none →
    x.expiresAt < c.state.now
  created : ∀ v, Created c.trace v → v.id ≠ a
  presented : ∀ p x, Presented (own p c.trace) x → x.userId = a → x.consumedAt = none →
    Late (own p c.trace) c.state.now x.expiresAt

section Dead

variable {E : Env} {email a : String} {c : Config calls State} {ev : Event calls} {state : State}

theorem Dead.not_usable (hd : Dead email a c) : ¬ c.state.Usable email := by
  intro husable
  obtain ⟨u, hu, rfl, hemail, hverified⟩ := hd.user
  obtain ⟨x, hx, huser, hnew, hnow⟩ := husable u hu hemail hverified
  exact Int.not_lt.mpr hnow (hd.tokens x hx huser hnew)

theorem Dead.not_verified (hd : Dead email a c) : ¬ c.state.Verified email := by
  rintro ⟨u', hu', hemail', hverified'⟩
  obtain ⟨u, hu, -, hemail, hverified⟩ := hd.user
  rw [UserTable.eq_of_email hu' hu (hemail'.trans hemail.symm)] at hverified'
  exact hverified' hverified

theorem dead_of_unusable {s : State} (h : ¬ s.Usable email) : ∃ a, Dead email a ⟨s, []⟩ := by
  unfold State.Usable at h
  push Not at h
  obtain ⟨u, hu, hemail, hverified, htokens⟩ := h
  exact ⟨u.id, ⟨u, hu, rfl, hemail, hverified⟩, htokens,
    fun v ⟨_, _, _, hmem⟩ => absurd hmem List.not_mem_nil,
    fun p x ⟨_, _, hmem⟩ => absurd hmem List.not_mem_nil⟩

/-- Time does not help. -/
theorem Dead.env {act : ℕ} (hd : Dead email a c) (h : E.machine.env c.state act = some state) :
    Dead email a { c with state := state } := by
  cases h
  refine ⟨hd.user, fun x hx huser hnew => ?_, hd.created,
    fun p x hx huser hnew => (hd.presented p x hx huser hnew).forward act⟩
  exact Int.lt_of_lt_of_le (hd.tokens x hx huser hnew)
    (Int.le_add_of_nonneg_right (Int.natCast_nonneg act))

/-- Nor does any request of any call. -/
theorem Dead.step (hd : Dead email a c)
    (ha : Answered E.machine anything (expectedSignUp E) c ev state) :
    Dead email a ⟨state, ev :: c.trace⟩ := by
  obtain ⟨-, ⟨j, he, -⟩, -, i, hr⟩ := ha
  have hch : Change c.state state ev := change_of_respond he hr
  have hnow : state.now = c.state.now := respond_now hr
  -- a verification would need a token that could be used when it was found
  have hconsume : ∀ {pid tokenId at_ userId data},
      ev = ⟨pid, .db (.consume tokenId at_ userId data), .ok ()⟩ → userId ≠ a := by
    rintro pid tokenId at_ userId data rfl rfl
    cases j with
    | register input ctx => exact he.1
    | verifyEmail raw =>
      obtain ⟨⟨x, hx, -, huser, hnew, now, hclock, hle⟩, -⟩ := he
      exact Int.not_lt.mpr hle ((hd.presented pid x hx huser hnew).2 now hclock)
  have hpresented : ∀ p x, Presented (own p (ev :: c.trace)) x → x.userId = a →
      x.consumedAt = none → Late (own p (ev :: c.trace)) state.now x.expiresAt := by
    intro p x hx huser hnew
    have hold : Presented (own p c.trace) x → Late (own p (ev :: c.trace)) state.now x.expiresAt :=
      fun hx => late_own hr (hd.presented p x hx huser hnew)
    by_cases hp : ev.pid = p
    · subst hp
      rw [own_cons_self] at hx
      rcases hx.inv with ⟨pid, hash, rfl⟩ | hx
      · obtain ⟨⟨cuid, hexec⟩, -⟩ := respond_db hr
        have hlate := hd.tokens x (exec_findVerification hexec).1 huser hnew
        have hfirst : own pid c.trace = [] := by
          cases j with
          | register input ctx => exact absurd he.1 fun h => h
          | verifyEmail raw => exact he
        rw [own_cons_self, hfirst, hnow]
        refine ⟨hlate, fun t ht => ?_⟩
        rcases ht.inv with ⟨q, heq⟩ | ⟨q, ht⟩
        · cases heq
        · exact absurd ht List.not_mem_nil
      · exact hold hx
    · rw [own_cons_of_ne hp] at hx
      exact hold hx
  obtain ⟨u, hu, hid, hemail, hverified⟩ := hd.user
  refine ⟨?_, fun x hx huser hnew => ?_, fun v hv => ?_, hpresented⟩
  · cases hch with
    | same created issued users =>
      exact ⟨u, by rw [users]; exact hu, hid, hemail, hverified⟩
    | created unverified fresh users =>
      exact ⟨u, (users u).mpr (.inr hu), hid, hemail, hverified⟩
    | issued users => exact ⟨u, by rw [users]; exact hu, hid, hemail, hverified⟩
    | consumed owner users =>
      refine ⟨u, ?_, hid, hemail, hverified⟩
      rw [users]
      exact UserTable.mem_update.mpr ⟨u, hu, (updatedIf_of_ne fun heq =>
        hconsume rfl (heq.symm.trans hid)).symm⟩
  · rw [hnow]
    cases hch with
    | same created issued users verifications =>
      rw [verifications] at hx
      exact hd.tokens x hx huser hnew
    | created unverified fresh users verifications =>
      rw [verifications] at hx
      exact hd.tokens x hx huser hnew
    | @issued pid d id users verifications =>
      rcases (verifications x).mp hx with rfl | hx
      · -- it would be for a user that the same call has created
        obtain ⟨-, ⟨v, hv, hvid⟩, -⟩ := issued_owner he (.issued users verifications)
          ⟨pid, d, List.mem_singleton_self _⟩
        exact absurd (hvid.trans huser) (hd.created v (created_of_own hv))
      · exact hd.tokens x hx huser hnew
    | @consumed pid tokenId userId at_ verifiedAt owner users verifications =>
      rw [verifications] at hx
      obtain ⟨y, hy, rfl⟩ := VerificationTable.mem_consume.mp hx
      by_cases hy' : y.id = tokenId
      · rw [VerificationTable.consumedIf, if_pos hy'] at hnew
        cases hnew
      · rw [VerificationTable.consumedIf, if_neg hy'] at huser hnew ⊢
        exact hd.tokens y hy huser hnew
  · rcases hv.inv with ⟨pid, email', hash, rfl⟩ | hv
    · intro hva
      exact ((hch.created_fresh ⟨pid, _, _, List.mem_singleton_self _⟩).2 u hu).1 (hid.trans hva.symm)
    · exact hd.created v hv

/-- An email that is not usable never becomes so, and is never verified, whatever calls follow. -/
theorem unusable_forever {s : State} (h : ¬ s.Usable email) {t : System calls Error SignUp State}
    (ht : Reachable E.machine E.signUps (fun s' => s' = s) anything t) :
    ¬ t.config.state.Usable email ∧ ¬ t.config.state.Verified email := by
  obtain ⟨a, hd⟩ := dead_of_unusable h
  have hdead : Dead email a t.config := by
    refine Reachable.invariant (I := Dead email a) (signUps_obeys E) (fun s' hs' => ?_)
      (fun c act state hc henv => hc.env henv) (fun c ev state hc ha => hc.step ha) ht
    rw [hs']
    exact hd
  exact ⟨hdead.not_usable, hdead.not_verified⟩

end Dead

/-! ## Registering again -/

/-- The email is verified, or some token verifies it. -/
def Verifiable (E : Env) (email : String) (s : State) : Prop :=
  s.Verified email ∨ ∃ raw evs s', Runs E.machine 0 (E.verifyEmail raw) s evs (.ok ()) s' ∧
    s'.Verified email

/-- A call of `register` with this email that returns, while the clock stands still and no other
    call runs, makes the verification possible. -/
def Recovers (E : Env) (email : String) (s : State) : Prop :=
  ∀ pid input ctx is evs s', input.email = email →
    (E.register input ctx).execute E.machine pid s is = some (evs, .ok (), s') →
      Verifiable E email s'

section Recovery

variable {E : Env} {email : String} {s : State}

/-- A stored token is found by its hash. -/
theorem find_verification {t : VerificationTable} {x : EmailVerificationToken} (hx : x ∈ t) :
    (t.rows.find? fun y => y.tokenHash = x.tokenHash) = some x := by
  cases hfind : t.rows.find? fun y => y.tokenHash = x.tokenHash with
  | none =>
    have hne := List.find?_eq_none.mp hfind x hx
    simp at hne
  | some y =>
    have hy : y.tokenHash = x.tokenHash := by simpa using List.find?_some hfind
    rw [List.inj_on_of_nodup_map t.uniqueHash (List.mem_of_find?_eq_some hfind) hx hy]

/-- Whoever has a token that is neither consumed nor expired can verify the email of its user. -/
theorem verifyEmail_runs {x : EmailVerificationToken} {raw : String} {u : User}
    (hx : x ∈ s.db.verifications) (hraw : x.tokenHash = E.verificationHash raw)
    (hnew : x.consumedAt = none) (hnow : s.now ≤ x.expiresAt) (hu : u ∈ s.db.users)
    (hid : u.id = x.userId) : ∃ evs s', Runs E.machine 0 (E.verifyEmail raw) s evs (.ok ()) s' ∧
      s'.Verified u.email := by
  let s' : State := { s with db := { s.db with
    verifications := s.db.verifications.consume x.id s.now
    users := s.db.users.update x.userId (verifiedData s.now) } }
  have hfind : E.respond s (.db (.verificationFindUnique (E.verificationHash raw))) (.text "") =
      some (.ok (some x), s) := by
    rw [← hraw]
    show some (Except.ok _, s) = some (Except.ok (some x), s)
    rw [find_verification hx]
  have hconsume : E.respond s (.db (.consume x.id s.now x.userId (verifiedData s.now)))
      (.text "") = some (.ok (), s') := by
    have htoken : s.db.verifications.find? x.id = some x := Data.Table.find?_eq_some_iff.mpr ⟨hx, rfl⟩
    have huser : s.db.users.find? x.userId = some u := Data.Table.find?_eq_some_iff.mpr ⟨hu, hid⟩
    simp only [Env.respond, AccountCall.exec, htoken, huser]
    rfl
  have hclock : E.respond s (.session .now) (.text "") = some (s.now, s) := rfl
  refine ⟨[⟨0, .db (.verificationFindUnique (E.verificationHash raw)), .ok (some x)⟩,
    ⟨0, .session .now, s.now⟩, ⟨0, .session .now, s.now⟩, ⟨0, .session .now, s.now⟩,
    ⟨0, .db (.consume x.id s.now x.userId (verifiedData s.now)), .ok ()⟩], s',
    .await (.text "") hfind ?_, u.updated (verifiedData s.now), ?_, rfl, fun h => by cases h⟩
  · show Runs _ _ ((Env.verificationSpent x >>= _) >>= _) _ _ _ _
    rw [Env.verificationSpent, if_neg (by simp [hnew])]
    refine .await (.text "") hclock ?_
    show Runs _ _ ((if decide (x.expiresAt < s.now) = true then _ else _) >>= _) _ _ _ _
    rw [if_neg (by simpa using hnow)]
    exact .await (.text "") hclock (.await (.text "") hclock (.await (.text "") hconsume .ret))
  · show u.updated (verifiedData s.now) ∈ s.db.users.update x.userId (verifiedData s.now)
    exact UserTable.mem_update.mpr ⟨u, hu, (updatedIf_of_eq hid).symm⟩

theorem exec_userCreate {now : Time} {id mail hash : String} {db db' : Database} {u : User}
    (h : (AccountCall.userCreate mail hash).exec now id db = (.ok u, db')) :
    u ∈ db'.users ∧ u.email = mail := by
  simp only [AccountCall.exec] at h
  split at h
  · rename_i users husers
    cases h
    exact ⟨((UserTable.insert?_eq_some husers).2.2 _).mpr (.inl rfl), rfl⟩
  · cases h

theorem exec_verificationCreate {now : Time} {id : String} {d : VerificationCreateInput}
    {db db' : Database} {x : EmailVerificationToken}
    (h : (AccountCall.verificationCreate d).exec now id db = (.ok x, db')) :
    x = d.row id ∧ db'.users = db.users ∧ x ∈ db'.verifications := by
  simp only [AccountCall.exec] at h
  split at h
  · rename_i verifications hverifications
    cases h
    exact ⟨rfl, rfl, (VerificationTable.mem_insert hverifications).mpr (.inl rfl)⟩
  · cases h

theorem exec_auditLogCreate {now : Time} {id : String} {row : AuditLog} {db db' : Database} {r : Unit}
    (h : (AccountCall.auditLogCreate row).exec now id db = (.ok r, db')) :
    db'.users = db.users ∧ db'.verifications = db.verifications := by
  cases h
  exact ⟨rfl, rfl⟩

/-- A call of `register` that returns has found a user, or has created one with a token of a
    day. -/
theorem register_returns {pid : ℕ} {input : RegisterInput} {ctx : RequestContext} {is : List Input}
    {evs : List (Event calls)} {s' : State}
    (h : (E.register input ctx).execute E.machine pid s is = some (evs, .ok (), s')) :
    (∃ u ∈ s.db.users, u.email = input.email) ∧ s' = s ∨
      ∃ u ∈ s'.db.users, u.email = input.email ∧ ∃ x ∈ s'.db.verifications, x.userId = u.id ∧
        x.consumedAt = none ∧ s'.now ≤ x.expiresAt ∧ ∃ raw, x.tokenHash = E.verificationHash raw := by
  obtain ⟨i, _, r, s₁, _, -, hfind, h, -⟩ := Prog.execute_await h
  obtain ⟨⟨_, hexec⟩, hsession⟩ := respond_db hfind
  cases r with
  | error code => cases (Prog.execute_ofExcept (x := .error (Error.prisma code)) h).2.1
  | ok existing =>
    obtain ⟨hdb, hfound⟩ := exec_findUser hexec
    cases existing with
    | some u =>
      obtain ⟨-, -, rfl⟩ := Prog.execute_ofExcept (x := .ok ()) h
      refine .inl ⟨⟨u, (hfound u).mp rfl⟩, ?_⟩
      show State.mk s'.session s'.db = s
      rw [hsession, hdb]
    | none =>
      right
      obtain ⟨_, _, hash, s₂, _, -, -, h, -⟩ := Prog.execute_await h
      obtain ⟨_, _, r, s₃, _, -, hcreate, h, -⟩ := Prog.execute_await h
      obtain ⟨⟨userId, hexec⟩, -⟩ := respond_db hcreate
      cases r with
      | error code => cases (Prog.execute_ofExcept (x := .error (Error.prisma code)) h).2.1
      | ok u =>
        obtain ⟨hu, hemail⟩ := exec_userCreate hexec
        obtain ⟨_, _, raw, s₄, _, -, hraw, h, -⟩ := Prog.execute_await h
        obtain ⟨_, _, now, s₅, _, -, hclock, h, -⟩ := Prog.execute_await h
        obtain ⟨_, _, r, s₆, _, -, hissue, h, -⟩ := Prog.execute_await h
        obtain ⟨⟨tokenId, hexec⟩, -⟩ := respond_db hissue
        cases r with
        | error code => cases (Prog.execute_ofExcept (x := .error (Error.prisma code)) h).2.1
        | ok row =>
          obtain ⟨hrow, husers, hx⟩ := exec_verificationCreate hexec
          obtain ⟨_, _, r, s₇, _, -, haudit, h, -⟩ := Prog.execute_await h
          obtain ⟨⟨_, hexec⟩, -⟩ := respond_db haudit
          cases r with
          | error code => cases (Prog.execute_ofExcept (x := .error (Error.prisma code)) h).2.1
          | ok r =>
            obtain ⟨-, -, rfl⟩ := Prog.execute_ofExcept (x := .ok ()) h
            obtain ⟨husers', hverifications'⟩ := exec_auditLogCreate hexec
            have hnow : s'.now = now := by
              rw [respond_now haudit, respond_now hissue, respond_now hclock]
              obtain ⟨⟨k, hk⟩, -⟩ := respond_session hclock
              exact (Auth.respond_now hk).1.symm
            refine ⟨u, ?_, hemail, row, by rw [hverifications']; exact hx, ?_, ?_, ?_, raw, ?_⟩
            · rw [husers', husers, (respond_session hclock).2, (respond_session hraw).2]
              exact hu
            · rw [hrow]
              rfl
            · rw [hrow]
              rfl
            · rw [hrow, hnow]
              exact Int.le_add_of_nonneg_right (by decide)
            · rw [hrow]
              rfl

/-- The email is usable unless a registration with it was cut short, or its token has expired. -/
theorem Onboarded.usable_iff {c : Config calls State} (hc : Onboarded E c) :
    c.state.Usable email ↔ ∀ u ∈ c.state.db.users, u.email = email → u.emailVerifiedAt = none →
      ¬ CutShort c u ∧ ¬ c.state.Expired u := by
  constructor
  · intro husable u hu hemail hverified
    obtain ⟨x, hx, huser, hnew, hnow⟩ := husable u hu hemail hverified
    refine ⟨(hc.ownsToken_iff hu hverified).mp ⟨x, hx, huser, hnew⟩, ?_⟩
    rintro ⟨y, hy, huser', hlate⟩
    rw [hc.single y hy x hx (huser'.trans huser.symm)] at hlate
    exact Int.not_lt.mpr hnow hlate
  · intro hgood u hu hemail hverified
    obtain ⟨hcut, hexpired⟩ := hgood u hu hemail hverified
    obtain ⟨x, hx, huser, hnew⟩ := (hc.ownsToken_iff hu hverified).mpr hcut
    refine ⟨x, hx, huser, hnew, ?_⟩
    by_contra hlate
    exact hexpired ⟨x, hx, huser, Int.not_le.mp hlate⟩

/-- If a later call of `register` makes verification possible, then the email was usable. -/
theorem usable_of_recovers (h : Recovers E email s) : s.Usable email := by
  by_contra hdead
  obtain ⟨a, hd⟩ := dead_of_unusable hdead
  obtain ⟨u, hu, -, hemail, -⟩ := hd.user
  -- the account exists: `register` returns at once
  have hfound : s.db.users.findEmail? email = some u :=
    UserTable.findEmail?_eq_some_iff.mpr ⟨hu, hemail⟩
  have hreply : E.machine.respond 0 s (.db (.userFindUnique (.email email))) (.text "") =
      some (.ok (some u), s) := by
    show some (Except.ok (s.db.users.findEmail? email), s) = _
    rw [hfound]
    rfl
  have hrun : (E.register ⟨email, ""⟩ ⟨"", none⟩).execute E.machine 0 s [.text ""] =
      some ([⟨0, .db (.userFindUnique (.email email)), .ok (some u)⟩], .ok (), s) :=
    Prog.execute_reply hreply rfl
  rcases h 0 _ _ _ _ _ rfl hrun with hverified | ⟨raw, evs, s', hverify, hverified⟩
  · exact hd.not_verified hverified
  · have hstarted : Runs E.machine 0 (E.signUps.launch (.verifyEmail raw)) _ evs _ s' := hverify
    obtain ⟨sys, hsys, hstate⟩ := hstarted.reachable
    exact (unusable_forever hdead hsys).2 (by rw [hstate]; exact hverified)

/-- What a later call of `register` can do. -/
theorem Onboarded.recovers_iff {c : Config calls State} (hc : Onboarded E c) :
    Recovers E email c.state ↔ c.state.Usable email := by
  have hlive : ∀ {s : State} {u : User} {x : EmailVerificationToken}, u ∈ s.db.users →
      u.email = email → x ∈ s.db.verifications → x.userId = u.id → x.consumedAt = none →
      s.now ≤ x.expiresAt → (∃ raw, x.tokenHash = E.verificationHash raw) →
      Verifiable E email s := by
    rintro s u x hu rfl hx huser hnew hnow ⟨raw, hraw⟩
    obtain ⟨evs, s', hrun, hverified⟩ := verifyEmail_runs hx hraw hnew hnow hu huser.symm
    exact .inr ⟨raw, evs, s', hrun, hverified⟩
  refine ⟨usable_of_recovers, fun husable pid input ctx is evs s' hemail hrun => ?_⟩
  rcases register_returns hrun with ⟨⟨u, hu, hu'⟩, rfl⟩ |
      ⟨u, hu, hu', x, hx, huser, hnew, hnow, hraw⟩
  · by_cases hverified : u.emailVerifiedAt = none
    · obtain ⟨x, hx, huser, hnew, hnow⟩ := husable u hu (hu'.trans hemail) hverified
      obtain ⟨-, -, -, -, hraw⟩ := hc.issuer x hx
      exact hlive hu (hu'.trans hemail) hx huser hnew hnow hraw
    · exact .inl ⟨u, hu, hu'.trans hemail, hverified⟩
  · exact hlive hu (hu'.trans hemail) hx huser hnew hnow hraw

end Recovery

/-- In every state that some history of calls reaches, wherever the calls were cut short: an
    unverified user owns an unconsumed token if and only if the call that created it was not cut
    short before the token; a later call of `register` leads to a state where verification is
    possible if and only if no account with the email was cut short or let its token expire; and
    if one did, then the email is never verified, whatever calls follow. -/
theorem registration_leaves_no_dead_account {E : Env} {s : System calls Error SignUp State}
    (hs : SignedUp E s) :
    (∀ u ∈ s.config.state.db.users, u.emailVerifiedAt = none →
      (s.config.state.OwnsToken u ↔ ¬ CutShort s.config u)) ∧
    ∀ email, (Recovers E email s.config.state ↔
        ∀ u ∈ s.config.state.db.users, u.email = email → u.emailVerifiedAt = none →
          ¬ CutShort s.config u ∧ ¬ s.config.state.Expired u) ∧
      ((∃ u ∈ s.config.state.db.users, u.email = email ∧ u.emailVerifiedAt = none ∧
          (CutShort s.config u ∨ s.config.state.Expired u)) → ∀ t,
        Reachable E.machine E.signUps (fun s' => s' = s.config.state) anything t →
          ¬ t.config.state.Verified email ∧ ¬ Recovers E email t.config.state) := by
  have hreg : Onboarded E s.config := onboarded_inv hs
  refine ⟨fun u hu hverified => hreg.ownsToken_iff hu hverified, fun email =>
    ⟨hreg.recovers_iff.trans hreg.usable_iff, ?_⟩⟩
  rintro ⟨u, hu, hemail, hverified, hdead⟩ t ht
  have hunusable : ¬ s.config.state.Usable email := by
    intro husable
    obtain ⟨hcut, hexpired⟩ := hreg.usable_iff.mp husable u hu hemail hverified
    exact hdead.elim hcut hexpired
  obtain ⟨husable, hverified⟩ := unusable_forever hunusable ht
  exact ⟨hverified, fun hrecovers => husable (usable_of_recovers hrecovers)⟩

/-! ## Runs -/

/-- No rows at all. -/
def noAccounts : State where
  session := { (sampleState .active).session with
    tokens := ⟨⟨[], List.nodup_nil⟩, List.nodup_nil, fun _ hx => absurd hx List.not_mem_nil⟩ }
  db := ⟨⟨⟨[], List.nodup_nil⟩, List.nodup_nil⟩, ⟨⟨[], List.nodup_nil⟩, List.nodup_nil⟩, []⟩

theorem noAccounts_unused : noAccounts.Unused :=
  ⟨fun _ hu => absurd hu List.not_mem_nil, fun _ hx => absurd hx List.not_mem_nil⟩

/-- A registration that goes as far as `user.create`. -/
def cutRun : List (Move SignUp Input ℕ) :=
  [.start (.register ⟨"alice@example.com", "password123"⟩ localhost), .perform 0 (.text ""),
    .perform 0 (.text sampleHash), .perform 0 (.text "usr_1"), .stop 0]

/-- One that goes as far as its token. -/
def issuedRun : List (Move SignUp Input ℕ) :=
  [.start (.register ⟨"alice@example.com", "password123"⟩ localhost), .perform 0 (.text ""),
    .perform 0 (.text sampleHash), .perform 0 (.text "usr_1"), .perform 0 (.text "raw"),
    .perform 0 (.text ""), .perform 0 (.text "ver_1"), .stop 0]

/-- The users with when they were verified, the users of the tokens with when these were consumed,
    and the number of calls in flight. -/
def accounts (s : System calls Error SignUp State) :
    List (String × String × Option Time) × List (String × Option Time) × ℕ :=
  (s.config.state.db.users.rows.map fun u => (u.id, u.email, u.emailVerifiedAt),
    s.config.state.db.verifications.rows.map fun x => (x.userId, x.consumedAt), s.procs.length)

section Accounts

variable {s : System calls Error SignUp State} {users : List (String × String × Option Time)}
  {tokens : List (String × Option Time)} {n : ℕ}

theorem user_of_accounts (h : accounts s = (users, tokens, n)) {u : User}
    (hu : u ∈ s.config.state.db.users) : (u.id, u.email, u.emailVerifiedAt) ∈ users := by
  rw [← (Prod.mk.inj h).1]
  exact List.mem_map_of_mem hu

theorem exists_of_accounts (h : accounts s = (users, tokens, n)) {id email : String}
    {at_ : Option Time} (hmem : (id, email, at_) ∈ users) :
    ∃ u ∈ s.config.state.db.users, u.id = id ∧ u.email = email ∧ u.emailVerifiedAt = at_ := by
  rw [← (Prod.mk.inj h).1] at hmem
  obtain ⟨u, hu, heq⟩ := List.mem_map.mp hmem
  obtain ⟨hid, hrest⟩ := Prod.mk.inj heq
  obtain ⟨hemail, hverified⟩ := Prod.mk.inj hrest
  exact ⟨u, hu, hid, hemail, hverified⟩

theorem ownsToken_of_accounts (h : accounts s = (users, tokens, n)) {u : User} :
    s.config.state.OwnsToken u ↔ (u.id, none) ∈ tokens := by
  rw [← (Prod.mk.inj (Prod.mk.inj h).2).1]
  constructor
  · rintro ⟨x, hx, huser, hnew⟩
    refine List.mem_map.mpr ⟨x, hx, ?_⟩
    rw [huser, hnew]
  · intro hmem
    obtain ⟨x, hx, heq⟩ := List.mem_map.mp hmem
    obtain ⟨huser, hnew⟩ := Prod.mk.inj heq
    exact ⟨x, hx, huser, hnew⟩

end Accounts

theorem registration_of_alice : ∃ s, SignedUp sampleEnv s ∧
    accounts s = ([("usr_1", "alice@example.com", none)], [("usr_1", none)], 0) ∧
    ∀ u ∈ s.config.state.db.users, ¬ CutShort s.config u := by
  obtain ⟨s, hs, hview⟩ := Reachable.view (M := sampleEnv.machine) (W := sampleEnv.signUps)
    noAccounts_unused issuedRun (f := accounts)
    (x := ([("usr_1", "alice@example.com", none)], [("usr_1", none)], 0)) (by decide)
  refine ⟨s, hs, hview, fun u hu => ?_⟩
  obtain ⟨hid, hrest⟩ := Prod.mk.inj (List.mem_singleton.mp (user_of_accounts hview hu))
  have howns : s.config.state.OwnsToken u :=
    (ownsToken_of_accounts hview).mpr (by rw [hid]; exact List.mem_singleton_self _)
  exact ((registration_leaves_no_dead_account hs).1 u hu (Prod.mk.inj hrest).2).mp howns

/-- The call that creates Alice's account ends before it issues a token: whatever is called
    afterwards, her email is not verified, and registering again does not help. -/
theorem dead_account : ∃ s, SignedUp sampleEnv s ∧ s.procs.length = 0 ∧
    (∃ u ∈ s.config.state.db.users, u.email = "alice@example.com" ∧ u.emailVerifiedAt = none ∧
      ¬ s.config.state.OwnsToken u) ∧
    ∀ t, Reachable sampleEnv.machine sampleEnv.signUps (fun s' => s' = s.config.state) anything t →
      ¬ t.config.state.Verified "alice@example.com" ∧
        ¬ Recovers sampleEnv "alice@example.com" t.config.state := by
  obtain ⟨s, hs, hview⟩ := Reachable.view (M := sampleEnv.machine) (W := sampleEnv.signUps)
    noAccounts_unused cutRun (f := accounts)
    (x := ([("usr_1", "alice@example.com", none)], [], 0)) (by decide)
  obtain ⟨u, hu, -, hemail, hverified⟩ := exists_of_accounts hview (List.mem_singleton_self _)
  have hnone : ¬ s.config.state.OwnsToken u :=
    fun howns => absurd ((ownsToken_of_accounts hview).mp howns) List.not_mem_nil
  have hunusable : ¬ s.config.state.Usable "alice@example.com" := by
    intro husable
    obtain ⟨x, hx, huser, hnew, -⟩ := husable u hu hemail hverified
    exact hnone ⟨x, hx, huser, hnew⟩
  refine ⟨s, hs, (Prod.mk.inj (Prod.mk.inj hview).2).2, ⟨u, hu, hemail, hverified, hnone⟩,
    fun t ht => ?_⟩
  obtain ⟨husable, hdead⟩ := unusable_forever hunusable ht
  exact ⟨hdead, fun hrecovers => husable (usable_of_recovers hrecovers)⟩

end CryptoPay.Accounts
