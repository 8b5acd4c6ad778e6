import CryptoPay.Accounts.Registration

/-!
# Where a session comes from

An access token is signed, and a refresh token stored, by a login that has passed
its checks or by the rotation of a refresh token. The checks compare a password with
the hash that `register` stored, and ask for an email that only `verifyEmail` marks
as verified. So every session leads back to a password and to a verification token.

Results:
* `work_grounded`: what stands behind each request, within its call.
* `origins`: what stands behind each row, and behind each row that was found.
* `sessions_earned`: whom a session can belong to, whatever calls are in flight.
-/

namespace CryptoPay.Accounts

open Async

open Api (RequestContext)

variable {E : Env}

/-! ## Within a call -/

/-- A login has looked the user up by the email that it was given, and the user has passed its
    checks. -/
def PassedAs (E : Env) (h : Requests) (input : LoginInput) (u : User) : Prop :=
  (∃ pid, (⟨pid, .db (.userFindUnique (.email input.email)), .ok (some u)⟩ : Event calls) ∈ h) ∧
    Passed E input h u

theorem PassedAs.cons {h : Requests} {input : LoginInput} {u : User} (hu : PassedAs E h input u)
    (ev : Event calls) : PassedAs E (ev :: h) input u := by
  obtain ⟨⟨pid, hmem⟩, hpassed⟩ := hu
  exact ⟨⟨pid, List.mem_cons_of_mem ev hmem⟩, hpassed.cons ev⟩

/-- What stands behind a request after the requests `h`. -/
def Grounded (E : Env) (h : Requests) : Op → Prop
  | .db (.userCreate _ passwordHash) =>
    ∃ pid password, (⟨pid, .hashPassword password, passwordHash⟩ : Event calls) ∈ h
  | .db (.verificationCreate d) =>
    ∃ pid raw, (⟨pid, .session .randomBytes, raw⟩ : Event calls) ∈ h ∧
      d.tokenHash = E.verificationHash raw
  | .db (.verificationFindUnique hash) => ∃ raw, hash = E.verificationHash raw
  | .session (.sign userId) => (∃ input u, PassedAs E h input u ∧ u.id = userId) ∨
    ∃ row, Stored h row ∧ row.userId = userId
  | .session (.db (.create d)) => (∃ input u, PassedAs E h input u ∧ u.id = d.userId) ∨
    ∃ x, Redeemed h x ∧ x.userId = d.userId
  | _ => True

/-- Nothing has to stand behind these. -/
def Op.Plain : Op → Prop
  | .db (.userCreate ..) => False
  | .db (.verificationCreate _) => False
  | .db (.verificationFindUnique _) => False
  | .session (.sign _) => False
  | .session (.db (.create _)) => False
  | _ => True

theorem Op.Plain.grounded {op : Op} (hop : op.Plain) (h : Requests) : Grounded E h op := by
  cases op with
  | db call => cases call <;> first | exact hop.elim | trivial
  | session op =>
    cases op with
    | db call => cases call <;> first | exact hop.elim | trivial
    | _ => first | exact hop.elim | trivial
  | _ => trivial

section Walks

variable {pid : ℕ} {h : Requests} {u : User} {input : LoginInput} {ctx : RequestContext}

theorem plain_grounded {α : Type} {p : Action α} (hp : p.Only Op.Plain) :
    p.Obeys (fun h => Grounded E h) pid (fun _ _ => True) (fun _ _ => True) h :=
  .only (I := fun _ => True) hp (fun _ h hop _ => hop.grounded h) (fun _ _ _ _ _ => trivial) trivial

theorem dateNow_plain : (session Auth.dateNow).Only Op.Plain := ⟨trivial, fun _ => trivial⟩

theorem registerFailedLogin_plain (u : User) : (registerFailedLogin u).Only Op.Plain := by
  show Prog.Only _ (if u.failedLoginAttempts + 1 ≥ failedLoginLockThreshold then _ else _)
  split_ifs
  · exact .bind dateNow_plain fun now => .bind (.request trivial) fun _ => trivial
  · exact .bind (.request trivial) fun _ => trivial

theorem checkTwoFactor_plain (u : User) (totpCode : Option String) :
    (E.checkTwoFactor u totpCode).Only Op.Plain := by
  unfold Env.checkTwoFactor
  split_ifs
  · trivial
  · trivial
  · refine .bind (.ofExcept _) fun secret => .bind (.perform trivial) fun valid => ?_
    cases valid with
    | true => trivial
    | false => exact .bind (registerFailedLogin_plain u) fun _ => trivial
  · trivial

theorem register_grounded (input : RegisterInput) (ctx : RequestContext) :
    (E.register input ctx).Obeys (fun h => Grounded E h) pid (fun _ _ => True) (fun _ _ => True)
      h := by
  refine ⟨trivial, fun r => ?_⟩
  cases r with
  | error code => trivial
  | ok existing =>
    cases existing with
    | some u => trivial
    | none =>
      refine ⟨trivial, fun hash => ⟨⟨pid, input.password, List.mem_cons_self⟩, fun r => ?_⟩⟩
      cases r with
      | error code => trivial
      | ok user =>
        refine ⟨trivial, fun raw => ⟨trivial, fun now => ⟨⟨pid, raw,
          List.mem_cons_of_mem _ List.mem_cons_self, rfl⟩, fun r => ?_⟩⟩⟩
        cases r with
        | error code => trivial
        | ok row => exact plain_grounded (.request trivial)

theorem verifyEmail_grounded (rawToken : String) :
    (E.verifyEmail rawToken).Obeys (fun h => Grounded E h) pid (fun _ _ => True)
      (fun _ _ => True) h := by
  refine ⟨⟨rawToken, rfl⟩, fun r => ?_⟩
  cases r with
  | error code => trivial
  | ok record =>
    cases record with
    | none => trivial
    | some x =>
      show Prog.Obeys _ _ _ _ ((Env.verificationSpent x >>= _) >>= _) _
      refine plain_grounded (.bind (.bind ?_ fun spent => ?_) fun _ => trivial)
      · unfold Env.verificationSpent
        split_ifs
        · trivial
        · exact .bind dateNow_plain fun now => trivial
      · cases spent with
        | true => trivial
        | false =>
          exact .bind dateNow_plain fun consumedAt => .bind dateNow_plain fun verifiedAt =>
            .bind (.request trivial) fun _ => trivial

/-- The end of a login: the session is for the user who has passed. -/
theorem completeLogin_grounded (hu : PassedAs E h input u) :
    (E.completeLogin u ctx).Obeys (fun h => Grounded E h) pid (fun _ _ => True)
      (fun _ _ => True) h := by
  refine ⟨trivial, fun now => ⟨trivial, fun r => ?_⟩⟩
  cases r with
  | error code => trivial
  | ok row =>
    have hu₂ := (hu.cons ⟨pid, .session .now, now⟩).cons
      ⟨pid, .db (.userUpdate u.id (successData now)), .ok row⟩
    refine ⟨.inl ⟨input, u, hu₂, rfl⟩, fun jwt => ⟨trivial, fun raw => ⟨trivial, fun family =>
      ⟨trivial, fun now' => ⟨.inl ⟨input, u, ?_, rfl⟩, fun r => ?_⟩⟩⟩⟩⟩
    · exact (((hu₂.cons _).cons _).cons _).cons _
    · cases r with
      | error code => trivial
      | ok token =>
        show Prog.Obeys _ _ _ _ (record _ >>= _) _
        exact plain_grounded (.bind (.request trivial) fun _ => trivial)

/-- From the password check on. -/
theorem admitted_grounded (hu : Admitted h u) (hh : Clean h)
    (hfound : ∃ q, (⟨q, .db (.userFindUnique (.email input.email)), .ok (some u)⟩ : Event calls)
      ∈ h) :
    Prog.Obeys (fun h => Grounded E h) pid (fun _ _ => True) (fun _ _ => True)
      (verifyPassword u.passwordHash input.password >>= fun valid =>
        if valid then
          if u.emailVerifiedAt = none then
            .throw (.unauthorized "Please verify your email before logging in")
          else E.checkTwoFactor u input.totpCode >>= fun _ => E.completeLogin u ctx
        else registerFailedLogin u >>= fun _ =>
          .throw (.unauthorized "Invalid email or password")) h := by
  refine ⟨trivial, fun r => ?_⟩
  cases r with
  | false =>
    show Prog.Obeys _ _ _ _ (registerFailedLogin u >>= _) _
    exact plain_grounded (.bind (registerFailedLogin_plain u) fun _ => trivial)
  | true =>
    show Prog.Obeys _ _ _ _ (if u.emailVerifiedAt = none then _ else _) _
    split_ifs with hverified
    · trivial
    · let h₁ : Requests := ⟨pid, .verifyPassword u.passwordHash input.password, true⟩ :: h
      have hcheck : (E.checkTwoFactor u input.totpCode).Obeys (expectedLogin E input) pid
          (fun _ h' => Clean h' ∧ Passed E input h' u) (fun _ _ => True) h₁ :=
        checkTwoFactor_obeys (hu.cons _) (hh.cons rfl rfl) ⟨pid, List.mem_cons_self⟩ hverified
      have hplain : (E.checkTwoFactor u input.totpCode).Obeys (fun h => Grounded E h) pid
          (fun _ _ => True) (fun _ _ => True) h₁ := plain_grounded (checkTwoFactor_plain u _)
      refine Prog.obeys_bind.mpr ((((hcheck.and hplain).imp fun _ _ _ hop => hop.2).grows
        List.suffix_rfl).post (fun _ h' hpost => ?_) fun _ _ _ => trivial)
      obtain ⟨hsuffix, ⟨-, hpassed⟩, -⟩ := hpost
      obtain ⟨q, hmem⟩ := hfound
      exact completeLogin_grounded
        ⟨⟨q, hsuffix.subset (List.mem_cons_of_mem _ hmem)⟩, hpassed⟩

theorem login_grounded (input : LoginInput) (ctx : RequestContext) :
    (E.login input ctx).Obeys (fun h => Grounded E h) pid (fun _ _ => True) (fun _ _ => True)
      [] := by
  refine ⟨trivial, fun r => ?_⟩
  cases r with
  | error code => trivial
  | ok found =>
    cases found with
    | none => trivial
    | some u =>
      show Prog.Obeys _ _ _ _ (if u.status = .suspended then _ else locked u >>= _) _
      have hlooked := looked_one pid (.email input.email) u
      have hclean : Clean [⟨pid, .db (.userFindUnique (.email input.email)), .ok (some u)⟩] :=
        List.forall_mem_singleton.mpr ⟨rfl, rfl⟩
      by_cases hstatus : u.status = .suspended
      · rw [if_pos hstatus]
        trivial
      · rw [if_neg hstatus, locked]
        cases hlock : u.lockedUntil with
        | none =>
          refine admitted_grounded ⟨hlooked, hstatus, fun t ht => ?_⟩ hclean
            ⟨pid, List.mem_cons_self⟩
          exact absurd (hlock.symm.trans ht) (Option.some_ne_none t).symm
        | some t =>
          refine ⟨trivial, fun (now : Time) => ?_⟩
          show Prog.Obeys _ _ _ _ (if decide (t > now) = true then _ else _) _
          by_cases hnow : t > now
          · rw [if_pos (decide_eq_true hnow)]
            trivial
          · rw [if_neg (by simpa using hnow)]
            refine admitted_grounded ⟨hlooked.cons _, hstatus, fun t' ht' => ?_⟩
              (hclean.cons rfl rfl) ⟨pid, List.mem_cons_of_mem _ List.mem_cons_self⟩
            obtain rfl : t = t' := Option.some.inj (hlock.symm.trans ht')
            exact ⟨now, ⟨pid, List.mem_cons_self⟩, Int.not_lt.mp hnow⟩

end Walks

/-- A rotation signs and stores for the user of the token that it has found. -/
theorem expectedRefresh_grounded {h : Requests} {op : Op} (he : expectedRefresh h op) :
    Grounded E h op := by
  cases op with
  | db call => cases call <;> exact he.elim
  | session op =>
    cases op with
    | db call =>
      cases call with
      | create d =>
        obtain ⟨x, hx, hid⟩ := he
        exact .inr ⟨x, hx.1, hid⟩
      | _ => trivial
    | sign userId => exact .inr he
    | _ => trivial
  | _ => trivial

/-- What stands behind each request. -/
theorem work_grounded (E : Env) : E.work.Obeys fun _ h => Grounded E h := by
  intro j pid
  have hplain : ∀ {F : Requests → Op → Prop} {p : Action Unit},
      p.Obeys F pid (fun _ _ => True) (fun _ _ => True) [] → (∀ h op, F h op → op.Plain) →
      p.Obeys (fun h => Grounded E h) pid (fun _ _ => True) (fun _ _ => True) [] :=
    fun hp hF => hp.imp fun h op _ hop => (hF h op hop).grounded h
  cases j with
  | register input ctx => exact register_grounded input ctx
  | verifyEmail rawToken => exact verifyEmail_grounded rawToken
  | login input ctx =>
    exact Prog.obeys_bind.mpr ((login_grounded input ctx).post (fun _ _ _ => trivial)
      fun _ _ _ => trivial)
  | refresh raw ctx =>
    refine Prog.obeys_bind.mpr (((refresh_obeys raw ctx).imp fun h op _ hop =>
      expectedRefresh_grounded hop).post (fun _ _ _ => trivial) fun _ _ _ => trivial)
  | logout raw =>
    refine hplain (logout_obeys raw) fun h op hop => ?_
    cases op with
    | session op =>
      cases op with
      | db call => cases call <;> first | exact hop.elim | trivial
      | _ => first | exact hop.elim | trivial
    | _ => exact hop.elim
  | enableTwoFactor userId =>
    refine hplain (Prog.obeys_bind.mpr ((enableTwoFactor_obeys userId).post (fun _ _ _ => trivial)
      fun _ _ _ => trivial)) fun h op hop => ?_
    cases op with
    | db call => cases call <;> first | exact hop.elim | trivial
    | _ => first | exact hop.elim | trivial
  | confirmTwoFactor userId code =>
    refine hplain (confirmTwoFactor_obeys userId code) fun h op hop => ?_
    cases op with
    | db call => cases call <;> first | exact hop.elim | trivial
    | _ => first | exact hop.elim | trivial

/-! ## Over a run -/

/-- The user was created with the hash of a password. -/
def CreatedWith (tr : Requests) (u : User) : Prop :=
  ∃ pid password r, (⟨pid, .hashPassword password, u.passwordHash⟩ : Event calls) ∈ tr ∧
    (⟨pid, .db (.userCreate u.email u.passwordHash), r⟩ : Event calls) ∈ tr

/-- A verification token with this hash was drawn and stored for the user. -/
def IssuedTo (E : Env) (tr : Requests) (userId hash : String) : Prop :=
  ∃ pid raw d r, (⟨pid, .session .randomBytes, raw⟩ : Event calls) ∈ tr ∧
    (⟨pid, .db (.verificationCreate d), r⟩ : Event calls) ∈ tr ∧ d.userId = userId ∧
    d.tokenHash = hash ∧ hash = E.verificationHash raw

/-- Someone has presented a token with the hash of one that was issued to the user. -/
def Confirmed (E : Env) (tr : Requests) (userId : String) : Prop :=
  ∃ pid raw x, IssuedTo E tr userId (E.verificationHash raw) ∧
    (⟨pid, .db (.verificationFindUnique (E.verificationHash raw)), .ok (some x)⟩ : Event calls) ∈ tr

/-- A login of the user has passed. -/
def SignedIn (E : Env) (tr : Requests) (userId : String) : Prop :=
  ∃ pid input u, u.id = userId ∧ PassedAs E (own pid tr) input u

/-- What is known of a row of the users. -/
def UserKnown (E : Env) (tr : Requests) (u : User) : Prop :=
  CreatedWith tr u ∧ (u.emailVerifiedAt ≠ none → Confirmed E tr u.id)

section Cons

variable {tr : Requests} {userId hash : String} {u : User} (ev : Event calls)

theorem CreatedWith.cons (hu : CreatedWith tr u) : CreatedWith (ev :: tr) u := by
  obtain ⟨pid, password, r, hhash, hcreate⟩ := hu
  exact ⟨pid, password, r, List.mem_cons_of_mem _ hhash, List.mem_cons_of_mem _ hcreate⟩

theorem IssuedTo.cons (h : IssuedTo E tr userId hash) : IssuedTo E (ev :: tr) userId hash := by
  obtain ⟨pid, raw, d, r, hraw, hcreate, hrest⟩ := h
  exact ⟨pid, raw, d, r, List.mem_cons_of_mem _ hraw, List.mem_cons_of_mem _ hcreate, hrest⟩

theorem Confirmed.cons (h : Confirmed E tr userId) : Confirmed E (ev :: tr) userId := by
  obtain ⟨pid, raw, x, hissued, hfound⟩ := h
  exact ⟨pid, raw, x, hissued.cons ev, List.mem_cons_of_mem _ hfound⟩

theorem SignedIn.cons (h : SignedIn E tr userId) : SignedIn E (ev :: tr) userId := by
  obtain ⟨pid, input, u, hid, hu⟩ := h
  refine ⟨pid, input, u, hid, ?_⟩
  by_cases hpid : ev.pid = pid
  · subst hpid
    rw [own_cons_self]
    exact hu.cons ev
  · rw [own_cons_of_ne hpid]
    exact hu

theorem UserKnown.cons (h : UserKnown E tr u) : UserKnown E (ev :: tr) u :=
  ⟨h.1.cons ev, fun hverified => (h.2 hverified).cons ev⟩

end Cons

/-- What stands behind the rows, and behind the rows that were found. -/
structure Origins (E : Env) (c : Config calls State) : Prop where
  users : ∀ u ∈ c.state.db.users, UserKnown E c.trace u
  verifications : ∀ x ∈ c.state.db.verifications, IssuedTo E c.trace x.userId x.tokenHash
  tokens : ∀ x ∈ c.state.session.tokens, SignedIn E c.trace x.userId
  looked : ∀ pid w u, (⟨pid, .db (.userFindUnique w), .ok (some u)⟩ : Event calls) ∈ c.trace →
    UserWhere.Selects w u ∧ UserKnown E c.trace u
  presented : ∀ pid hash x,
    (⟨pid, .db (.verificationFindUnique hash), .ok (some x)⟩ : Event calls) ∈ c.trace →
      IssuedTo E c.trace (EmailVerificationToken.userId x) hash ∧
        ∃ raw, hash = E.verificationHash raw
  redeemed : ∀ pid hash x,
    (⟨pid, .session (.db (.findUnique hash)), .ok (some x)⟩ : Event calls) ∈ c.trace →
      SignedIn E c.trace (Auth.RefreshToken.userId x)
  stored : ∀ pid d row, (⟨pid, .session (.db (.create d)), .ok row⟩ : Event calls) ∈ c.trace →
    SignedIn E c.trace (Auth.RefreshToken.userId row)
  signed : ∀ pid userId jwt, (⟨pid, .session (.sign userId), jwt⟩ : Event calls) ∈ c.trace →
    SignedIn E c.trace userId
  matched : ∀ pid hash password,
    (⟨pid, .verifyPassword hash password, true⟩ : Event calls) ∈ c.trace →
      E.argon2Verify hash password = true

/-! ## The tables after a request -/

section After

variable {s s' : State} {op : Op} {i : Input} {r : calls.Ret op}

/-- A verification token was there before with the same user and hash, or is new. -/
theorem verifications_after (h : E.respond s op i = some (r, s')) {x : EmailVerificationToken}
    (hx : x ∈ s'.db.verifications) :
    (∃ y ∈ s.db.verifications, y.userId = x.userId ∧ y.tokenHash = x.tokenHash) ∨
      ∃ d, op = .db (.verificationCreate d) ∧ x.userId = d.userId ∧ x.tokenHash = d.tokenHash := by
  have hsame : s'.db.verifications = s.db.verifications →
      ∃ y ∈ s.db.verifications, y.userId = x.userId ∧ y.tokenHash = x.tokenHash :=
    fun heq => ⟨x, heq ▸ hx, rfl, rfl⟩
  by_cases hop : op.Stateful
  · cases op with
    | session op => exact .inl (hsame (congrArg Database.verifications (respond_session h).2))
    | db call =>
      obtain ⟨⟨id, hexec⟩, -⟩ := respond_db h
      cases r with
      | error code => exact .inl (hsame (congrArg Database.verifications (exec_error hexec)))
      | ok r =>
        cases call with
        | userCreate email hash =>
          simp only [AccountCall.exec] at hexec
          split at hexec
          · exact .inl (hsame (congrArg Database.verifications (Prod.mk.inj hexec).2.symm :))
          · cases hexec
        | userUpdate target data =>
          simp only [AccountCall.exec] at hexec
          split at hexec
          · exact .inl (hsame (congrArg Database.verifications (Prod.mk.inj hexec).2.symm :))
          · cases hexec
        | verificationCreate d =>
          simp only [AccountCall.exec] at hexec
          split at hexec
          · rename_i verifications hinsert
            obtain ⟨-, hdb⟩ := Prod.mk.inj hexec
            rw [← hdb] at hx
            rcases (VerificationTable.mem_insert hinsert).mp hx with rfl | hx
            · exact .inr ⟨d, rfl, rfl, rfl⟩
            · exact .inl ⟨x, hx, rfl, rfl⟩
          · cases hexec
        | consume tokenId at_ userId data =>
          simp only [AccountCall.exec] at hexec
          split at hexec
          · obtain ⟨-, hdb⟩ := Prod.mk.inj hexec
            rw [← hdb] at hx
            obtain ⟨y, hy, rfl⟩ := VerificationTable.mem_consume.mp hx
            exact .inl ⟨y, hy, (VerificationTable.consumedIf_userId ..).symm,
              (VerificationTable.consumedIf_tokenHash ..).symm⟩
          · cases hexec
        | _ => exact .inl (hsame (congrArg Database.verifications (Prod.mk.inj hexec).2.symm :))
    | _ => exact absurd hop id
  · exact .inl (hsame (congrArg (fun s => s.db.verifications) (respond_frame hop h)))

/-- A refresh token was there before with the same user, or is new. -/
theorem tokens_after (h : E.respond s op i = some (r, s')) {x : Auth.RefreshToken}
    (hx : x ∈ s'.session.tokens) : (∃ y ∈ s.session.tokens, y.userId = x.userId) ∨
      ∃ d, op = .session (.db (.create d)) ∧ x.userId = d.userId := by
  have hsame : s'.session.tokens = s.session.tokens →
      ∃ y ∈ s.session.tokens, y.userId = x.userId := fun heq => ⟨x, heq ▸ hx, rfl⟩
  by_cases hop : op.Stateful
  · cases op with
    | db call => exact .inl (hsame (congrArg Auth.State.tokens (respond_db h).2))
    | session op =>
      obtain ⟨⟨j, hj⟩, -⟩ := respond_session h
      cases op with
      | db call =>
        obtain ⟨hexec, -⟩ := Auth.respond_db hj
        cases r with
        | error code => exact .inl (hsame (Auth.exec_error call hexec))
        | ok r =>
          cases call with
          | findUnique hash => exact .inl (hsame (Auth.exec_findUnique hexec).1)
          | create d =>
            have hcreated := Auth.exec_create_ok hexec
            rcases (hcreated.mem x).mp hx with rfl | hx
            · exact .inr ⟨d, rfl, congrArg Auth.RefreshToken.userId hcreated.row_eq⟩
            · exact .inl ⟨x, hx, rfl⟩
          | update target at_ next =>
            obtain ⟨y, hy, rfl⟩ := (Auth.exec_update_ok hexec x).mp hx
            refine .inl ⟨y, hy, ?_⟩
            unfold Auth.RefreshToken.replacedIf
            split_ifs <;> rfl
          | updateMany w at_ =>
            have htokens : s'.session.tokens = s.session.tokens.updateMany w at_ :=
              (Prod.mk.inj hexec).2.symm
            rw [htokens] at hx
            obtain ⟨y, hy, rfl⟩ := Auth.mem_updateMany.mp hx
            refine .inl ⟨y, hy, ?_⟩
            unfold Auth.RefreshToken.revokedIf
            split_ifs <;> rfl
      | now => exact .inl (hsame (congrArg Auth.State.tokens (Auth.respond_now hj).2))
      | randomBytes => exact .inl (hsame (congrArg Auth.State.tokens (Auth.respond_randomBytes hj)))
      | generateId stem =>
        exact .inl (hsame (congrArg Auth.State.tokens (Auth.respond_generateId hj).2 :))
      | sign userId => exact .inl (hsame (congrArg Auth.State.tokens (Auth.respond_sign hj)))
    | _ => exact absurd hop id
  · exact .inl (hsame (congrArg (fun s => s.session.tokens) (respond_frame hop h)))

end After

/-! ## One step -/

/-- What a call may request, and what stands behind it. -/
def expectedGrounded (E : Env) (j : Job) (h : Requests) (op : Op) : Prop :=
  expected E j h op ∧ Grounded E h op

theorem own_mem {pid : ℕ} {tr : Requests} {ev : Event calls} (h : ev ∈ own pid tr) : ev ∈ tr :=
  (mem_own.mp h).1

/-- No update marks an email as verified. -/
theorem emailVerifiedAt_of_expected {j : Job} {h : Requests} {id : String} {data : UserUpdateInput}
    (he : expected E j h (.db (.userUpdate id data))) : data.emailVerifiedAt = none := by
  cases j with
  | login input ctx =>
    obtain ⟨u, -, -, hregisters | ⟨-, -, now, rfl⟩⟩ := he
    · rcases hregisters with ⟨-, -, -, -, -, -, rfl⟩ | ⟨-, -, -, -, -, -, -, -, rfl⟩ <;> rfl
    · rfl
  | enableTwoFactor userId =>
    obtain ⟨-, -, encrypted, rfl⟩ := he
    rfl
  | confirmTwoFactor userId code =>
    obtain ⟨-, rfl, -⟩ := he
    rfl
  | _ => exact he.elim

theorem UserKnown.congr {tr : Requests} {u v : User} (hv : UserKnown E tr v)
    (hemail : u.email = v.email) (hhash : u.passwordHash = v.passwordHash)
    (hverified : u.emailVerifiedAt ≠ none → Confirmed E tr u.id) : UserKnown E tr u := by
  refine ⟨?_, hverified⟩
  unfold CreatedWith
  rw [hemail, hhash]
  exact hv.1

section Step

variable {c : Config calls State} {ev : Event calls} {state : State} (hI : Origins E c)
  (ha : Async.Answered E.machine anything (expectedGrounded E) c ev state)
include hI ha

theorem users_step {u : User} (hu : u ∈ state.db.users) : UserKnown E (ev :: c.trace) u := by
  obtain ⟨i, hr⟩ := ha.reply
  obtain ⟨j, ⟨he, hgrounded⟩, -⟩ := ha.expected
  rcases users_after hr hu with hu | ⟨call, hop, ⟨id, hnew⟩ | ⟨v, hv, rfl⟩⟩
  · exact (hI.users u hu).cons ev
  · obtain ⟨pid, op, r⟩ := ev
    subst hop
    cases call with
    | userCreate email passwordHash =>
      obtain rfl := Option.some.inj hnew
      obtain ⟨q, password, hmem⟩ := hgrounded
      obtain rfl : q = pid := (mem_own.mp hmem).2
      exact ⟨⟨q, password, r, List.mem_cons_of_mem _ (own_mem hmem), List.mem_cons_self⟩,
        fun hverified => absurd rfl hverified⟩
    | _ => cases hnew
  · have hknown := (hI.users v hv).cons ev
    rw [hop] at he
    cases call with
    | userUpdate target data =>
      have hunverified := emailVerifiedAt_of_expected he
      refine hknown.congr (onUser_email _ v) ?_ ?_
      · show (v.updatedIf target data).passwordHash = v.passwordHash
        unfold User.updatedIf
        split_ifs <;> rfl
      · have hsame : (v.updatedIf target data).emailVerifiedAt = v.emailVerifiedAt := by
          unfold User.updatedIf User.updated
          rw [hunverified]
          split_ifs <;> rfl
        show (v.updatedIf target data).emailVerifiedAt ≠ none →
          Confirmed E _ (v.updatedIf target data).id
        rw [hsame, updatedIf_id]
        exact hknown.2
    | consume tokenId at_ userId data =>
      refine hknown.congr (onUser_email _ v) ?_ ?_
      · show (v.updatedIf userId data).passwordHash = v.passwordHash
        unfold User.updatedIf
        split_ifs <;> rfl
      · show (v.updatedIf userId data).emailVerifiedAt ≠ none →
          Confirmed E _ (v.updatedIf userId data).id
        rw [updatedIf_id]
        by_cases hid : v.id = userId
        · -- the token was issued to this user
          intro _
          have hpresented : ∃ x, Presented (own ev.pid c.trace) x ∧ x.userId = userId := by
            cases j with
            | verifyEmail rawToken =>
              obtain ⟨⟨x, hx, -, hxid, -⟩, -⟩ := he
              exact ⟨x, hx, hxid⟩
            | _ => exact he.elim
          obtain ⟨x, ⟨pid, hash, hmem⟩, hxid⟩ := hpresented
          obtain ⟨hissued, raw, rfl⟩ := hI.presented pid hash x (own_mem hmem)
          rw [hid, ← hxid]
          exact ⟨pid, raw, x, hissued.cons ev, List.mem_cons_of_mem _ (own_mem hmem)⟩
        · rw [updatedIf_of_ne hid]
          exact hknown.2
    | _ => exact hknown

theorem verifications_step {x : EmailVerificationToken} (hx : x ∈ state.db.verifications) :
    IssuedTo E (ev :: c.trace) x.userId x.tokenHash := by
  obtain ⟨i, hr⟩ := ha.reply
  obtain ⟨j, ⟨-, hgrounded⟩, -⟩ := ha.expected
  rcases verifications_after hr hx with ⟨y, hy, huser, hhash⟩ | ⟨d, hop, huser, hhash⟩
  · rw [← huser, ← hhash]
    exact (hI.verifications y hy).cons ev
  · obtain ⟨pid, op, r⟩ := ev
    subst hop
    obtain ⟨q, raw, hmem, hraw⟩ := hgrounded
    obtain rfl : q = pid := (mem_own.mp hmem).2
    exact ⟨q, raw, d, r, List.mem_cons_of_mem _ (own_mem hmem), List.mem_cons_self, huser.symm,
      hhash.symm, hhash.trans hraw⟩

omit hI ha in
/-- A call that signs or stores does so for a user who has logged in. -/
theorem grounded_loggedIn {userId : String} (hlogin : (∃ input u, PassedAs E (own ev.pid c.trace)
    input u ∧ u.id = userId) ∨ SignedIn E c.trace userId) : SignedIn E (ev :: c.trace) userId := by
  rcases hlogin with ⟨input, u, hu, hid⟩ | h
  · exact SignedIn.cons ev ⟨ev.pid, input, u, hid, hu⟩
  · exact h.cons ev

/-- The refresh token that is created is for a user who has logged in. -/
theorem create_loggedIn {d : Auth.TokenCreateInput} (hop : ev.op = .session (.db (.create d))) :
    SignedIn E (ev :: c.trace) d.userId := by
  obtain ⟨j, ⟨-, hgrounded⟩, -⟩ := ha.expected
  rw [hop] at hgrounded
  refine grounded_loggedIn (hgrounded.imp_right ?_)
  rintro ⟨x, ⟨pid, hash, hmem⟩, hid⟩
  exact hid ▸ hI.redeemed pid hash x (own_mem hmem)

theorem tokens_step {x : Auth.RefreshToken} (hx : x ∈ state.session.tokens) :
    SignedIn E (ev :: c.trace) x.userId := by
  obtain ⟨i, hr⟩ := ha.reply
  rcases tokens_after hr hx with ⟨y, hy, huser⟩ | ⟨d, hop, huser⟩
  · rw [← huser]
    exact (hI.tokens y hy).cons ev
  · rw [huser]
    exact create_loggedIn hI ha hop

theorem signed_step {userId : String} (hop : ev.op = .session (.sign userId)) :
    SignedIn E (ev :: c.trace) userId := by
  obtain ⟨j, ⟨-, hgrounded⟩, -⟩ := ha.expected
  rw [hop] at hgrounded
  refine grounded_loggedIn (hgrounded.imp_right ?_)
  rintro ⟨row, ⟨pid, d, hmem⟩, hid⟩
  exact hid ▸ hI.stored pid d row (own_mem hmem)

theorem Origins.step : Origins E ⟨state, ev :: c.trace⟩ := by
  refine ⟨fun u => users_step hI ha, fun x => verifications_step hI ha, fun x => tokens_step hI ha,
    fun pid w u hmem => ?_, fun pid hash x hmem => ?_, fun pid hash x hmem => ?_,
    fun pid d row hmem => ?_, fun pid userId jwt hmem => ?_, fun pid hash password hmem => ?_⟩
  · rcases List.mem_cons.mp hmem with rfl | hmem
    · obtain ⟨i, hr⟩ := ha.reply
      obtain ⟨⟨id, hexec⟩, -⟩ := respond_db hr
      obtain ⟨hu, hselects⟩ := ((exec_findUser hexec).2 u).mp rfl
      exact ⟨hselects, (hI.users u hu).cons _⟩
    · exact (hI.looked pid w u hmem).imp_right (UserKnown.cons ev)
  · rcases List.mem_cons.mp hmem with rfl | hmem
    · obtain ⟨i, hr⟩ := ha.reply
      obtain ⟨j, ⟨-, hgrounded⟩, -⟩ := ha.expected
      obtain ⟨⟨id, hexec⟩, -⟩ := respond_db hr
      obtain ⟨hx, rfl⟩ := exec_findVerification hexec
      exact ⟨(hI.verifications x hx).cons _, hgrounded⟩
    · exact (hI.presented pid hash x hmem).imp_left (IssuedTo.cons ev)
  · rcases List.mem_cons.mp hmem with rfl | hmem
    · obtain ⟨i, hr⟩ := ha.reply
      obtain ⟨⟨k, hk⟩, -⟩ := respond_session hr
      obtain ⟨hx, -⟩ := ((Auth.exec_findUnique (Auth.respond_db hk).1).2 x).mp rfl
      exact (hI.tokens x hx).cons _
    · exact (hI.redeemed pid hash x hmem).cons ev
  · rcases List.mem_cons.mp hmem with rfl | hmem
    · obtain ⟨i, hr⟩ := ha.reply
      obtain ⟨⟨k, hk⟩, -⟩ := respond_session hr
      have hcreated := Auth.exec_create_ok (Auth.respond_db hk).1
      exact tokens_step hI ha ((hcreated.mem row).mpr (.inl rfl))
    · exact (hI.stored pid d row hmem).cons ev
  · rcases List.mem_cons.mp hmem with rfl | hmem
    · exact signed_step hI ha rfl
    · exact (hI.signed pid userId jwt hmem).cons ev
  · rcases List.mem_cons.mp hmem with rfl | hmem
    · obtain ⟨i, hr⟩ := ha.reply
      exact (respond_verifyPassword (i := i) hr).1.symm
    · exact hI.matched pid hash password hmem

end Step

/-! ## Runs -/

/-- Nobody has an account yet. -/
def NoAccounts (s : State) : Prop :=
  (∀ u, u ∉ s.db.users) ∧ (∀ x, x ∉ s.db.verifications) ∧ ∀ x, x ∉ s.session.tokens

theorem origins {s : System calls Error Job State}
    (hs : Reachable E.machine E.work NoAccounts anything s) : Origins E s.config := by
  refine hs.invariant ((work_obeys E).and (work_grounded E)) (I := Origins E) (fun s h₀ => ?_)
    (fun c act state hI hact => ?_) fun c ev state hI ha => hI.step ha
  · exact {
      users := fun u hu => absurd hu (h₀.1 u)
      verifications := fun x hx => absurd hx (h₀.2.1 x)
      tokens := fun x hx => absurd hx (h₀.2.2 x)
      looked := fun _ _ _ hev => absurd hev List.not_mem_nil
      presented := fun _ _ _ hev => absurd hev List.not_mem_nil
      redeemed := fun _ _ _ hev => absurd hev List.not_mem_nil
      stored := fun _ _ _ hev => absurd hev List.not_mem_nil
      signed := fun _ _ _ hev => absurd hev List.not_mem_nil
      matched := fun _ _ _ hev => absurd hev List.not_mem_nil }
  · cases hact
    exact ⟨hI.users, hI.verifications, hI.tokens, hI.looked, hI.presented, hI.redeemed, hI.stored,
      hI.signed, hI.matched⟩

/-- Someone has logged in as the user with its email, its password and, if it had two-factor
    authentication, a valid code; the password was checked against the hash that the registration
    stored, and a token that was issued to the user has been presented. -/
structure Earned (E : Env) (tr : Requests) (userId : String) (input : LoginInput) (u : User) :
    Prop where
  user : u.id = userId
  email : u.email = input.email
  password : E.argon2Verify u.passwordHash input.password = true
  passed : ∃ pid, Passed E input (own pid tr) u
  registered : CreatedWith tr u
  confirmed : Confirmed E tr userId

theorem Origins.earned {c : Config calls State} (hI : Origins E c) {userId : String}
    (h : SignedIn E c.trace userId) : ∃ input u, Earned E c.trace userId input u := by
  obtain ⟨pid, input, u, rfl, ⟨q, hmem⟩, hpassed⟩ := h
  obtain ⟨hemail, hregistered, hverified⟩ := hI.looked q _ u (own_mem hmem)
  obtain ⟨q', hmatched⟩ := hpassed.password
  exact ⟨input, u, {
    user := rfl
    email := hemail
    password := hI.matched q' _ _ (own_mem hmatched)
    passed := ⟨pid, hpassed⟩
    registered := hregistered
    confirmed := hverified hpassed.verified }⟩

/-- Whatever calls are in flight: whoever gets an access token, or a refresh token, gets it for a
    user as whom someone has logged in before. -/
theorem sessions_earned {s : System calls Error Job State}
    (hs : Reachable E.machine E.work NoAccounts anything s) :
    (∀ pid userId jwt, (⟨pid, .session (.sign userId), jwt⟩ : Event calls) ∈ s.config.trace →
      ∃ input u, Earned E s.config.trace userId input u) ∧
    ∀ x ∈ s.config.state.session.tokens,
      ∃ input u, Earned E s.config.trace (Auth.RefreshToken.userId x) input u :=
  ⟨fun pid userId jwt hmem => (origins hs).earned ((origins hs).signed pid userId jwt hmem),
    fun x hx => (origins hs).earned ((origins hs).tokens x hx)⟩

/-! ## Alice registers, logs in and refreshes -/

/-- Thirty-two bytes `00`, `01` and `02` in base64url, each with the HMAC that its purpose gives
    it. -/
def sampleTokens : List (String × String × String) :=
  [("AAAAAAAAAAAAAAAAAAAAAAAAAAAAAAAAAAAAAAAAAAA", "email_verification",
      "3155a2c117ea559c4df6d3160a3aad10eef5c6d08ad84ebf177984654a74ec5f"),
    ("AQEBAQEBAQEBAQEBAQEBAQEBAQEBAQEBAQEBAQEBAQE", "refresh",
      "784a1435cce23d3c49958f03d9307be70b236cd442c8fafeaca2693d0b8419fe"),
    ("AgICAgICAgICAgICAgICAgICAgICAgICAgICAgICAgI", "refresh",
      "3411f82e3da74fcd58d1f85296fea8621afaa642cfd86a12d6e025ef8bb805e9")]

/-- The service with the HMACs of these tokens. -/
def sessionEnv : Env :=
  { sampleEnv with
    tokens := {
      signHmacSha256 := fun payload secret =>
        ((sampleTokens.find? fun (raw, purpose, _) => raw = payload ∧
          "refresh-secret-of-the-samples-01:" ++ purpose = secret).map fun x => x.2.2).getD ""
      secret := "refresh-secret-of-the-samples-01"
      ttlSeconds := 3600 } }

theorem noAccounts_empty : NoAccounts noAccounts :=
  ⟨fun _ => List.not_mem_nil, fun _ => List.not_mem_nil, fun _ => List.not_mem_nil⟩

/-- From the registration to the second access token. -/
def aliceRefreshes : List (Move Job Input ℕ) :=
  .start (.register ⟨"alice@example.com", "password123"⟩ localhost) ::
    answers 0 ["", sampleHash, "usr_1", "AAAAAAAAAAAAAAAAAAAAAAAAAAAAAAAAAAAAAAAAAAA", "", "ver_1",
      ""] ++
  .start (.verifyEmail "AAAAAAAAAAAAAAAAAAAAAAAAAAAAAAAAAAAAAAAAAAA") ::
    answers 1 ["", "", "", "", ""] ++
  .start (.login alice localhost) ::
    answers 2 ["", "", "", "", "access_1", "AQEBAQEBAQEBAQEBAQEBAQEBAQEBAQEBAQEBAQEBAQE",
      "fam_2", "", "rt_1", ""] ++
  .start (.refresh "AQEBAQEBAQEBAQEBAQEBAQEBAQEBAQEBAQEBAQEBAQE" localhost) ::
    answers 3 ["", "", "AgICAgICAgICAgICAgICAgICAgICAgICAgICAgICAgI", "", "rt_2", "", "",
      "access_2"]

/-- The user for whom the process has signed. -/
def signedBy (pid : ℕ) : Event calls → Option String
  | ⟨q, .session (.sign userId), _⟩ => if q = pid then some userId else none
  | _ => none

theorem signedBy_eq_some {pid : ℕ} {ev : Event calls} {userId : String}
    (h : signedBy pid ev = some userId) : ∃ jwt, ev = ⟨pid, .session (.sign userId), jwt⟩ := by
  obtain ⟨q, op, r⟩ := ev
  cases op with
  | session op =>
    cases op with
    | sign id =>
      simp only [signedBy] at h
      split_ifs at h with hq
      subst hq
      cases h
      exact ⟨r, rfl⟩
    | _ => cases h
  | _ => cases h

/-- The refreshed session is one of someone who has logged in as Alice. -/
theorem sessions_earned_sample : ∃ s : System calls Error Job State,
    Reachable sessionEnv.machine sessionEnv.work NoAccounts anything s ∧
    ∃ jwt, (⟨3, .session (.sign "usr_1"), jwt⟩ : Event calls) ∈ s.config.trace ∧
      ∃ input u, Earned sessionEnv s.config.trace "usr_1" input u := by
  obtain ⟨s, hs, hshown⟩ := Reachable.view (M := sessionEnv.machine) (W := sessionEnv.work)
    noAccounts_empty aliceRefreshes
    (f := fun s => s.config.trace.any fun ev => signedBy 3 ev = some "usr_1") (x := true)
    (by decide)
  obtain ⟨ev, hev, hsigned⟩ := List.any_eq_true.mp hshown
  obtain ⟨jwt, rfl⟩ := signedBy_eq_some (of_decide_eq_true hsigned)
  exact ⟨s, hs, jwt, hev, (sessions_earned hs).1 3 "usr_1" jwt hev⟩

end CryptoPay.Accounts
