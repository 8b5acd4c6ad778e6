import CryptoPay.Accounts.Enrolment
import CryptoPay.Async.Timed

/-!
# Two-factor authentication stays on

The calls of `AuthService` one after another. `enableTwoFactor` clears the flag
of any user, also of one who has two-factor authentication; `NotReenrolled` is
the condition that it is not called for such a user.

Results:
* `two_factor_stays_on`: under `NotReenrolled`, once a confirmation has
  succeeded, every login of that user that starts later and returns has supplied
  a code valid for the confirmed secret.
* `two_factor_dropped`: without it, an enrolment without any code makes the
  password alone sufficient again.
-/

namespace CryptoPay.Accounts

open Async

/-- No secret is stored for a user who has two-factor authentication. -/
def NotReenrolled : Condition calls State := fun c _ op =>
  ∀ id encrypted, op = .db (.userUpdate id (enrolData encrypted)) →
    ∀ u ∈ c.state.db.users, u.id = id → u.twoFactorEnabled = false

/-- `tr` ends with a confirmation of the user that has succeeded with a code of this secret. -/
def Confirms (a secret : String) (tr : Requests) : Prop :=
  ∃ p row tr₀ code, tr = ⟨p, .db (.userUpdate a confirmData), .ok row⟩ :: tr₀ ∧
    Proved (own p tr₀) secret code

/-- The flag is set over this secret. -/
def Enforces (E : Env) (secret : String) (u : User) : Prop :=
  u.twoFactorEnabled = true ∧ E.decrypt (u.twoFactorSecretEnc.getD "") = .ok secret

/-- What holds in a sequence of calls under `NotReenrolled`. -/
structure Guarded (E : Env) (c : Config calls State) (F : Job → ℕ → Prop) : Prop where
  single : ∀ j p j' p', F j p → F j' p' → j = j' ∧ p = p'
  /-- A confirmation in flight has looked up the secret that is stored. -/
  current : ∀ userId code p, F (.confirmTwoFactor userId code) p → ∀ u,
    Looked (own p c.trace) u → ∀ v ∈ c.state.db.users, v.id = userId →
      v.twoFactorSecretEnc = u.twoFactorSecretEnc
  enforced : ∀ a secret tr, Confirms a secret tr → tr <:+ c.trace →
    ∃ u ∈ c.state.db.users, u.id = a ∧ Enforces E secret u
  looked : ∀ a secret tr, Confirms a secret tr → ∀ q w u h,
    ((⟨q, .db (.userFindUnique w), .ok (some u)⟩ : Event calls) :: h) <:+ c.trace → tr <:+ h →
      u.id = a → Enforces E secret u

/-! ## What is expected of a call -/

section Expected

variable {E : Env} {j : Job} {h : Requests}

/-- Only a confirmation sets the flag alone. -/
theorem expected_confirm {a : String} (he : expected E j h (.db (.userUpdate a confirmData))) :
    ∃ code, j = .confirmTwoFactor a code := by
  cases j with
  | login input ctx =>
    obtain ⟨u, -, -, hdata⟩ := he
    rcases hdata with (⟨-, -, -, -, -, -, heq⟩ | ⟨-, now, -, -, -, -, -, -, heq⟩) | ⟨-, -, now, heq⟩
    · exact absurd (congrArg UserUpdateInput.failedLoginAttempts heq) nofun
    · exact absurd (congrArg UserUpdateInput.failedLoginAttempts heq) nofun
    · exact absurd (congrArg UserUpdateInput.failedLoginAttempts heq) nofun
  | enableTwoFactor userId =>
    obtain ⟨-, -, encrypted, heq⟩ := he
    exact absurd (congrArg UserUpdateInput.twoFactorSecretEnc heq) nofun
  | confirmTwoFactor userId code =>
    obtain ⟨rfl, -⟩ := he
    exact ⟨code, rfl⟩
  | _ => exact absurd he id

/-- A code is verified against the secret of a user that was looked up. -/
theorem Proved.looked {secret code : String} (hh : InOrder (expected E j) h)
    (hp : Proved h secret code) :
    ∃ u, Looked h u ∧ E.decrypt (u.twoFactorSecretEnc.getD "") = .ok secret := by
  obtain ⟨pid, hmem⟩ := hp
  obtain ⟨h', hsuffix, he⟩ := hh.mem hmem
  have hlater : ∀ u, Looked h' u → Looked h u := fun u ⟨q, w, hmem⟩ =>
    ⟨q, w, hsuffix.subset (List.mem_cons_of_mem _ hmem)⟩
  cases j with
  | login input ctx =>
    obtain ⟨-, u, hu, hdec, -⟩ := he
    exact ⟨u, hlater u hu.looked, hdec⟩
  | confirmTwoFactor userId c =>
    obtain ⟨-, u, hu, hdec⟩ := he
    exact ⟨u, hlater u hu, hdec⟩
  | _ => exact absurd he id

/-- A confirmation only writes the flag. -/
theorem confirm_keeps_secret {userId code : String} {call : AccountCall}
    (he : expected E (.confirmTwoFactor userId code) h (.db call)) :
    (∀ id, call.newUser id = none) ∧
      ∀ v, (call.onUser v).twoFactorSecretEnc = v.twoFactorSecretEnc := by
  refine ⟨?_, fun v => ?_⟩
  · cases call with
    | userCreate email passwordHash => exact absurd he id
    | _ => exact fun _ => rfl
  · rcases expected_twoFactor he v with ⟨-, henc⟩ | ⟨-, hj, -⟩ | ⟨-, -, -, -, rfl, -⟩
    · exact henc
    · cases hj
    · rw [show (AccountCall.userUpdate v.id confirmData).onUser v = v.updated confirmData from
        updatedIf_of_eq rfl]
      rfl

end Expected

/-! ## One request -/

section Step

variable {E : Env} {c : Config calls State} {F : Job → ℕ → Prop} {j : Job} {ev : Event calls}
  {state : State} (hc : Guarded E c F)
  (hp : Performs E.machine NotReenrolled (expected E) c F j ev state)

include hc hp

/-- The secret that a confirmation has looked up stays stored while it runs. -/
theorem current_step {userId code : String} {p : ℕ} (hF : F (.confirmTwoFactor userId code) p)
    {u : User} (hu : Looked (own p (ev :: c.trace)) u) {v : User} (hv : v ∈ state.db.users)
    (hid : v.id = userId) : v.twoFactorSecretEnc = u.twoFactorSecretEnc := by
  obtain ⟨hj, rfl⟩ := hc.single _ _ _ _ hp.flying hF
  subst hj
  obtain ⟨i, hr⟩ := hp.reply
  rw [own_cons_self] at hu
  obtain ⟨q, w, hmem⟩ := hu
  rcases List.mem_cons.mp hmem with rfl | hmem
  · -- the lookup returns the stored user
    obtain ⟨⟨cuid, hexec⟩, -⟩ := respond_db hr
    obtain ⟨hsame, hfind⟩ := exec_findUser hexec
    obtain ⟨hu, hsel⟩ := (hfind u).mp rfl
    obtain ⟨-, rfl⟩ : _ ∧ w = .id userId := hp.expected
    rw [hsame] at hv
    rw [UserTable.eq_of_id hv hu (hid.trans hsel.symm)]
  · have hold := hc.current userId code ev.pid hF u ⟨q, w, hmem⟩
    rcases users_after hr hv with hv | ⟨call, hop, hcall⟩
    · exact hold v hv hid
    · have he := hp.expected
      rw [hop] at he
      obtain ⟨hnew, hkeep⟩ := confirm_keeps_secret he
      rcases hcall with ⟨cuid, hcuid⟩ | ⟨v₀, hv₀, rfl⟩
      · exact absurd (hcuid.symm.trans (hnew cuid)) nofun
      · rw [hkeep]
        exact hold v₀ hv₀ (by simpa using hid)

omit hc in
/-- A user whose secret is enforced keeps flag and secret. -/
theorem enforces_kept {secret : String} {v : User} (hv : v ∈ c.state.db.users)
    (hen : Enforces E secret v) : ∃ u ∈ state.db.users, u.id = v.id ∧ Enforces E secret u := by
  obtain ⟨i, hr⟩ := hp.reply
  obtain ⟨u, hu, rfl | ⟨p, call, r, rfl, rfl⟩⟩ := users_before hr hv
  · exact ⟨u, hu, rfl, hen⟩
  · refine ⟨_, hu, onUser_id call v, ?_⟩
    have he := hp.expected
    rcases expected_twoFactor he v with ⟨hflag, henc⟩ | ⟨encrypted, -, rfl⟩ | ⟨-, -, -, -, rfl, -⟩
    · exact ⟨hflag.trans hen.1, by rw [henc]; exact hen.2⟩
    · have hoff := hp.allowed v.id encrypted rfl v hv rfl
      exact absurd (hen.1.symm.trans hoff) nofun
    · rw [show (AccountCall.userUpdate v.id confirmData).onUser v = v.updated confirmData from
        updatedIf_of_eq rfl]
      exact ⟨rfl, hen.2⟩

/-- A confirmation that succeeds enforces the secret that it verified. -/
theorem confirms_step {a secret : String} (hcon : Confirms a secret (ev :: c.trace)) :
    ∃ u ∈ state.db.users, u.id = a ∧ Enforces E secret u := by
  obtain ⟨p, row, tr₀, code, heq, hproved⟩ := hcon
  obtain ⟨rfl, rfl⟩ := List.cons.inj heq
  obtain ⟨i, hr⟩ := hp.reply
  obtain ⟨⟨cuid, hexec⟩, -⟩ := respond_db hr
  obtain ⟨v, hv, rfl⟩ := exec_update_found hexec
  obtain ⟨code', rfl⟩ := expected_confirm hp.expected
  obtain ⟨u, hu, hdec⟩ := hproved.looked (hp.inOrder _ _ hp.flying)
  have henc := hc.current _ _ _ hp.flying u hu v hv rfl
  refine ⟨_, (mem_users hexec).mpr (.inr ⟨v, hv, rfl⟩), onUser_id _ v, ?_⟩
  rw [show (AccountCall.userUpdate v.id confirmData).onUser v = v.updated confirmData from
    updatedIf_of_eq rfl]
  exact ⟨rfl, (congrArg (fun e : Option String => E.decrypt (e.getD "")) henc).trans hdec⟩

theorem Guarded.step : Guarded E ⟨state, ev :: c.trace⟩ F where
  single := hc.single
  current _ _ _ hF _ hu _ hv hid := current_step hc hp hF hu hv hid
  enforced a secret tr hcon htr := by
    rcases List.suffix_cons_iff.mp htr with rfl | htr
    · exact confirms_step hc hp hcon
    · obtain ⟨v, hv, rfl, hen⟩ := hc.enforced a secret tr hcon htr
      exact enforces_kept hp hv hen
  looked a secret tr hcon q w u h hsuffix htr hid := by
    rcases List.suffix_cons_iff.mp hsuffix with heq | hsuffix
    · obtain ⟨rfl, rfl⟩ := List.cons.inj heq
      obtain ⟨v, hv, hvid, hen⟩ := hc.enforced a secret tr hcon htr
      obtain ⟨i, hr⟩ := hp.reply
      obtain ⟨⟨cuid, hexec⟩, -⟩ := respond_db hr
      have hu := (((exec_findUser hexec).2 u).mp rfl).1
      rw [UserTable.eq_of_id hu hv (hid.trans hvid.symm)]
      exact hen
    · exact hc.looked a secret tr hcon q w u h hsuffix htr hid

end Step

/-! ## Sequences of calls -/

theorem guarded_keeps (E : Env) : Keeps E.machine E.sequence (fun _ => True) NotReenrolled
    State.now (expected E) (fun c _ F => Guarded E c F) where
  initial s _ := {
    single := fun _ _ _ _ hF => absurd hF id
    current := fun _ _ _ hF => absurd hF id
    enforced := by
      rintro a secret tr ⟨p, row, tr₀, code, rfl, -⟩ htr
      exact absurd (List.suffix_nil.mp htr) (List.cons_ne_nil _ _)
    looked := fun _ _ _ _ _ _ _ _ hsuffix =>
      absurd (List.suffix_nil.mp hsuffix) (List.cons_ne_nil _ _) }
  fewer c l F F' hc hF := {
    single := fun j p j' p' h h' => hc.single j p j' p' (hF j p h) (hF j' p' h')
    current := fun userId code p h => hc.current userId code p (hF _ p h)
    enforced := hc.enforced
    looked := hc.looked }
  launch c l F j pid hc hcompatible hfresh hnil := by
    have hnone : ∀ j' p', ¬ F j' p' := fun j' p' hF => Bool.false_ne_true (hcompatible j' p' hF)
    refine ⟨?_, ?_, hc.enforced, hc.looked⟩
    · rintro j₁ p₁ j₂ p₂ (h₁ | ⟨rfl, rfl⟩) (h₂ | ⟨rfl, rfl⟩)
      · exact absurd h₁ (hnone j₁ p₁)
      · exact absurd h₁ (hnone j₁ p₁)
      · exact absurd h₂ (hnone j₂ p₂)
      · exact ⟨rfl, rfl⟩
    · rintro userId code p (h | ⟨-, rfl⟩) u hu
      · exact absurd h (hnone _ p)
      · obtain ⟨q, w, hmem⟩ := hu
        rw [hnil] at hmem
        exact absurd hmem List.not_mem_nil
  env c l F act state hc henv := by
    cases henv
    exact ⟨hc.single, hc.current, hc.enforced, hc.looked⟩
  request c l F j ev state hc _ hp := hc.step hp

/-- A confirmation of the user with this secret has succeeded, and a login of that user that made its
    requests after it has returned. -/
structure LoggedIn (s : System calls Error Job State) (a secret : String) (q : ℕ)
    (input : LoginInput) : Prop where
  confirmed : ∃ tr, Confirms a secret tr ∧ tr <:+ s.config.trace ∧ own q tr = []
  returned : ∃ ctx, ⟨q, .login input ctx, .ret ()⟩ ∈ s.procs
  user : ∃ u, Looked (own q s.config.trace) u ∧ u.id = a

/-- Every login after a confirmation was given a code that is valid for the confirmed secret. -/
theorem two_factor_stays_on {E : Env} {s : System calls Error Job State}
    (hs : Reachable E.machine E.sequence (fun _ => True) NotReenrolled s) {a secret : String}
    {q : ℕ} {input : LoginInput} (h : LoggedIn s a secret q input) :
    ∃ code, input.totpCode = some code ∧ Proved (own q s.config.trace) secret code := by
  obtain ⟨⟨tr, hcon, htr, hlater⟩, ⟨ctx, hq⟩, u, hu, hid⟩ := h
  obtain ⟨l, hl⟩ := hs.timed State.now
  have hguarded := hl.invariant (sequence_obeys E) (guarded_keeps E)
  have hen : Enforces E secret u := by
    obtain ⟨p, w, hmem⟩ := hu
    obtain ⟨htrace, rfl⟩ := mem_own.mp hmem
    obtain ⟨h, hsuffix⟩ := exists_suffix_of_mem htrace
    -- the lookup came after the confirmation
    refine hguarded.looked a secret tr hcon p w u h hsuffix ?_ hid
    have hnot : ¬ (⟨p, .db (.userFindUnique w), .ok (some u)⟩ : Event calls) ∈ tr := fun hmem =>
      absurd (mem_own.mpr ⟨hmem, rfl⟩) (hlater ▸ List.not_mem_nil)
    rcases List.suffix_or_suffix_of_suffix htr hsuffix with hle | hle
    · rcases List.suffix_cons_iff.mp hle with rfl | hle
      · exact absurd List.mem_cons_self hnot
      · exact hle
    · exact absurd (hle.subset List.mem_cons_self) hnot
  obtain ⟨v, hpassed⟩ : ∃ v, Passed E input (own q s.config.trace) v :=
    hs.outcome (Q := fun j _ => Accounts.returned E j) (X := fun _ _ _ => True)
      (fun j pid => launch_obeys j pid) _ hq
  have hv : v = u := Looked.unique ((hs.tracked (sequence_obeys E)).prog _ hq).1
    hpassed.admitted.looked hu
  subst hv
  obtain ⟨secret', code, hdec, hcode, hproved⟩ := hpassed.code hen.1
  obtain rfl : secret' = secret := Except.ok.inj (hdec.symm.trans hen.2)
  exact ⟨code, hcode, hproved⟩

/-! ## Runs -/

/-- `NotReenrolled`, computed. -/
def notReenrolled (c : Config calls State) (_ : ℕ) (op : Op) : Bool :=
  match op with
  | .db (.userUpdate id data) => data.twoFactorEnabled ≠ some false ||
      c.state.db.users.rows.all fun u => u.id ≠ id || u.twoFactorEnabled = false
  | _ => true

theorem notReenrolled_of_check {c : Config calls State} {pid : ℕ} {op : Op}
    (h : notReenrolled c pid op = true) : NotReenrolled c pid op := by
  rintro id encrypted rfl u hu hid
  simp only [notReenrolled, enrolData, ne_eq, not_true_eq_false, decide_false, Bool.false_or] at h
  simpa [hid] using List.all_eq_true.mp h u hu

/-- The process and the user of a confirmation that succeeded. -/
def confirmedBy : Event calls → Option (ℕ × String)
  | ⟨p, .db (.userUpdate id data), .ok _⟩ => if data = confirmData then some (p, id) else none
  | _ => none

theorem eq_ret_of_finished {p : Action Unit} (h : p.finished = true) : p = .ret () := by
  cases p with
  | ret a => rfl
  | throw e => cases h
  | await op k => cases h

theorem confirms_of_head {p : ℕ} {a secret code : String} {tr : Requests}
    (hhead : tr.head?.bind confirmedBy = some (p, a))
    (hproved : (secret, code) ∈ (own p tr.tail).filterMap provedBy) : Confirms a secret tr := by
  cases tr with
  | nil => cases hhead
  | cons ev tr₀ =>
    obtain ⟨pid, op, r⟩ := ev
    have hhead : confirmedBy ⟨pid, op, r⟩ = some (p, a) := hhead
    cases op with
    | db call =>
      cases call with
      | userUpdate id data =>
        cases r with
        | ok row =>
          simp only [confirmedBy] at hhead
          split_ifs at hhead with hdata
          cases hhead
          exact ⟨p, row, tr₀, code, by rw [hdata], proved_of_mem hproved⟩
        | error code => cases hhead
      | _ => cases hhead
    | _ => cases hhead

/-- What is seen of a run: a confirmation and the codes of its process, the number of requests of
    another process up to then, the programs in flight, and the users that the other process has
    looked up. -/
structure Login where
  confirmation : Option (ℕ × String)
  codes : List (String × String)
  earlier : ℕ
  programs : List (ℕ × Job × Bool)
  users : List String
  deriving DecidableEq

/-- A run whose confirmation comes before the newest `k` requests, by process 1. -/
def logins (k q : ℕ) (s : System calls Error Job State) : Login where
  confirmation := (s.config.trace.drop k).head?.bind confirmedBy
  codes := (own 1 (s.config.trace.drop k).tail).filterMap provedBy
  earlier := (own q (s.config.trace.drop k)).length
  programs := s.procs.map fun p => (p.pid, p.job, p.prog.finished)
  users := ((own q s.config.trace).filterMap lookedBy).map User.id

theorem loggedIn_of_view {s : System calls Error Job State} {k q : ℕ} {a secret code : String}
    {input : LoginInput} {ctx : Api.RequestContext}
    (h : logins k q s = ⟨some (1, a), [(secret, code)], 0, [(q, .login input ctx, true)], [a]⟩) :
    LoggedIn s a secret q input := by
  obtain ⟨hhead, hproved, hlength, hprocs, husers⟩ := Login.mk.inj h
  refine ⟨⟨s.config.trace.drop k, ?_, List.drop_suffix k _, List.eq_nil_of_length_eq_zero hlength⟩,
    ⟨ctx, ?_⟩, ?_⟩
  · exact confirms_of_head hhead (by rw [hproved]; exact List.mem_singleton_self _)
  · obtain ⟨p, rest, heq, hp, -⟩ := List.map_eq_cons_iff.mp hprocs
    obtain ⟨hpid, hp⟩ := Prod.mk.inj hp
    obtain ⟨hjob, hfinished⟩ := Prod.mk.inj hp
    have hret : p = ⟨q, .login input ctx, .ret ()⟩ := by
      rw [← hpid, ← hjob, ← eq_ret_of_finished hfinished]
    rw [heq, ← hret]
    exact List.mem_cons_self
  · obtain ⟨u, rest, heq, hid, -⟩ := List.map_eq_cons_iff.mp husers
    exact ⟨u, looked_of_mem (by rw [heq]; exact List.mem_cons_self), hid⟩

/-- Answer the next requests of an enrolment. -/
def enrolAnswers (pid : ℕ) (x : Sealed) : List (Move Job Input ℕ) :=
  [.perform pid (.text ""), .perform pid (.text x.plaintext), .perform pid (.bytes x.iv),
    .perform pid (.text ""), .stop pid]

/-- An enrolment and its confirmation. -/
def enrolledRun : List (Move Job Input ℕ) :=
  [.start (.enableTwoFactor "usr_1")] ++ enrolAnswers 0 sealedA ++
    [.start (.confirmTwoFactor "usr_1" "812658")] ++ answers 1 ["", "", ""] ++ [.stop 1]

/-- Then a login with a code. -/
def codeRun : List (Move Job Input ℕ) :=
  enrolledRun ++ [.start (.login { alice with totpCode := some "812658" } localhost)] ++
    answers 2 ["", "", "", "", "", "jwt", "second", "fam", "", "rt_2", "log"]

/-- Then another enrolment, and a login without a code. -/
def codelessRun : List (Move Job Input ℕ) :=
  enrolledRun ++ [.start (.enableTwoFactor "usr_1")] ++ enrolAnswers 2 sealedB ++
    [.start (.login alice localhost)] ++
    answers 3 ["", "", "", "", "jwt", "second", "fam", "", "rt_2", "log"]

theorem two_factor_stays_on_alice : ∃ s, Reachable sampleEnv.machine sampleEnv.sequence
    (fun _ => True) NotReenrolled s ∧
    LoggedIn s "usr_1" sealedA.plaintext 2 { alice with totpCode := some "812658" } ∧
    ∃ code, some "812658" = some code ∧
      Proved (own 2 s.config.trace) sealedA.plaintext code := by
  have hrun : ((System.initial (sampleState .active)).runWhere notReenrolled sampleEnv.machine
      sampleEnv.sequence codeRun).map (logins 11 2) =
      some ⟨some (1, "usr_1"), [(sealedA.plaintext, "812658")], 0,
        [(2, .login { alice with totpCode := some "812658" } localhost, true)], ["usr_1"]⟩ := by
    decide
  obtain ⟨s, hs, hview⟩ : ∃ s, Reachable sampleEnv.machine sampleEnv.sequence (fun _ => True)
      NotReenrolled s ∧ logins 11 2 s = _ :=
    Reachable.viewWhere (fun c pid op => @notReenrolled_of_check c pid op) trivial codeRun hrun
  exact ⟨s, hs, loggedIn_of_view hview, two_factor_stays_on hs (loggedIn_of_view hview)⟩

/-- After a confirmation, an enrolment and a login without any code that returns. -/
theorem two_factor_dropped : ∃ s, Reachable sampleEnv.machine sampleEnv.sequence
    (fun _ => True) anything s ∧ ∃ a secret q input, LoggedIn s a secret q input ∧
      input.totpCode = none := by
  have hrun : ((System.initial (sampleState .active)).run sampleEnv.machine sampleEnv.sequence
      codelessRun).map (logins 14 3) = some ⟨some (1, "usr_1"), [(sealedA.plaintext, "812658")], 0,
        [(3, .login alice localhost, true)], ["usr_1"]⟩ := by
    decide
  obtain ⟨s, hs, hview⟩ : ∃ s, Reachable sampleEnv.machine sampleEnv.sequence (fun _ => True)
      anything s ∧ logins 14 3 s = _ := Reachable.view trivial codelessRun hrun
  exact ⟨s, hs, _, _, _, _, loggedIn_of_view hview, rfl⟩

end CryptoPay.Accounts
