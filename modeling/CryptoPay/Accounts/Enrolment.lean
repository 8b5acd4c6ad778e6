import CryptoPay.Accounts.Suspension

/-!
# Enrolment in two-factor authentication

`enableTwoFactor` stores a new secret and clears the flag, `confirmTwoFactor`
checks a code against the secret that it looked up and later sets the flag.
Between the two requests of a confirmation another call may store a new secret.
`Current` is the condition that this does not happen.

Results:
* `expected_twoFactor`: which calls touch the flag and the secret.
* `enabled_confirmed`: under `Current`, whatever enrolments and confirmations
  interleave, a user whose flag is set has a secret for which a confirmation got
  a valid code.
* `enabled_unconfirmed`: without it, one enrolment between the two requests of a
  confirmation leaves a secret in force that nobody has confirmed.
-/

namespace CryptoPay.Accounts

open Async

/-- The `data` of `enableTwoFactor`. -/
def enrolData (encrypted : String) : UserUpdateInput :=
  { twoFactorSecretEnc := some (some encrypted), twoFactorEnabled := some false }

/-- The `data` of `confirmTwoFactor`. -/
def confirmData : UserUpdateInput := { twoFactorEnabled := some true }

/-- A query that some call makes leaves a user's flag and secret alone, or is the update of its
    enrolment or of its confirmation. -/
theorem expected_twoFactor {E : Env} {j : Job} {h : Requests} {call : AccountCall}
    (he : expected E j h (.db call)) (v : User) :
    ((call.onUser v).twoFactorEnabled = v.twoFactorEnabled ∧
      (call.onUser v).twoFactorSecretEnc = v.twoFactorSecretEnc) ∨
    (∃ encrypted, j = .enableTwoFactor v.id ∧ call = .userUpdate v.id (enrolData encrypted)) ∨
    ∃ code u secret, j = .confirmTwoFactor v.id code ∧ call = .userUpdate v.id confirmData ∧
      Looked h u ∧ falsy u.twoFactorSecretEnc = false ∧
      E.decrypt (u.twoFactorSecretEnc.getD "") = .ok secret ∧ Proved h secret code := by
  cases call with
  | userUpdate target data =>
    by_cases hid : v.id = target
    · subst hid
      have hon : (AccountCall.userUpdate v.id data).onUser v = v.updated data := updatedIf_of_eq rfl
      cases j with
      | login input ctx =>
        obtain ⟨u, -, -, hdata⟩ := he
        rw [hon]
        rcases hdata with (⟨-, -, -, -, -, -, rfl⟩ | ⟨-, -, -, -, -, -, -, -, rfl⟩) | ⟨-, -, -, rfl⟩
        · exact .inl ⟨rfl, rfl⟩
        · exact .inl ⟨rfl, rfl⟩
        · exact .inl ⟨rfl, rfl⟩
      | enableTwoFactor userId =>
        obtain ⟨rfl, -, encrypted, rfl⟩ := he
        exact .inr (.inl ⟨encrypted, rfl, rfl⟩)
      | confirmTwoFactor userId code =>
        obtain ⟨rfl, rfl, u, secret, hu, hset, hdec, hproved⟩ := he
        exact .inr (.inr ⟨code, u, secret, rfl, rfl, hu, hset, hdec, hproved⟩)
      | _ => exact absurd he id
    · have hon : (AccountCall.userUpdate target data).onUser v = v := updatedIf_of_ne hid
      exact .inl ⟨by rw [hon], by rw [hon]⟩
  | consume tokenId at_ userId data =>
    cases j with
    | verifyEmail rawToken =>
      obtain ⟨-, verifiedAt, rfl⟩ := he
      by_cases hid : v.id = userId
      · have hon : (AccountCall.consume tokenId at_ userId (verifiedData verifiedAt)).onUser v =
          v.updated (verifiedData verifiedAt) := updatedIf_of_eq hid
        exact .inl ⟨by rw [hon]; rfl, by rw [hon]; rfl⟩
      · have hon : (AccountCall.consume tokenId at_ userId (verifiedData verifiedAt)).onUser v = v :=
          updatedIf_of_ne hid
        exact .inl ⟨by rw [hon], by rw [hon]⟩
    | _ => exact absurd he id
  | _ => exact .inl ⟨rfl, rfl⟩

/-! ## Enrolments and confirmations -/

/-- A call of `enableTwoFactor` or `confirmTwoFactor`. -/
inductive Enrolment where
  | enable (userId : String)
  | confirm (userId code : String)
  deriving DecidableEq, Repr

instance : Inhabited Enrolment := ⟨.enable ""⟩

/-- The call. -/
def Enrolment.job : Enrolment → Job
  | .enable userId => .enableTwoFactor userId
  | .confirm userId code => .confirmTwoFactor userId code

/-- Enrolments and confirmations, any number of them in flight. -/
def Env.enrolments (E : Env) : Workload calls Error Enrolment where
  launch e := E.launch e.job
  compatible _ _ := true
  symm _ _ := rfl

theorem enrolments_obeys (E : Env) : E.enrolments.Obeys fun e => expected E e.job :=
  fun e => work_obeys E e.job

/-- Nobody has two-factor authentication. -/
def State.AllOff (s : State) : Prop := ∀ u ∈ s.db.users, u.twoFactorEnabled = false

/-- A confirmation got a valid code for the secret that the user has. -/
def ConfirmedSecret (E : Env) (tr : Requests) (u : User) : Prop :=
  ∃ encrypted secret code, u.twoFactorSecretEnc = some encrypted ∧
    E.decrypt encrypted = .ok secret ∧ Proved tr secret code

/-- When a confirmation sets the flag, the secret is the one that it looked up. -/
def Current : Condition calls State := fun c pid op =>
  ∀ id, op = .db (.userUpdate id confirmData) → ∀ u, Looked (own pid c.trace) u →
    ∀ v ∈ c.state.db.users, v.id = id → v.twoFactorSecretEnc = u.twoFactorSecretEnc

theorem Proved.of_own {p : ℕ} {tr : Requests} {secret code : String}
    (h : Proved (own p tr) secret code) : Proved tr secret code :=
  let ⟨pid, hmem⟩ := h
  ⟨pid, (mem_own.mp hmem).1⟩

/-- What one request does to a user whose flag is set. -/
theorem confirmed_step {E : Env} {c : Config calls State} {ev : Event calls} {state : State}
    (hc : ∀ u ∈ c.state.db.users, u.twoFactorEnabled = true → ConfirmedSecret E c.trace u)
    (ha : Answered E.machine Current (fun e : Enrolment => expected E e.job) c ev state) :
    ∀ u ∈ state.db.users, u.twoFactorEnabled = true →
      ConfirmedSecret E (ev :: c.trace) u := by
  intro u hu hon
  have hold : ∀ v ∈ c.state.db.users, v.twoFactorEnabled = true →
      ConfirmedSecret E (ev :: c.trace) v := fun v hv hon =>
    let ⟨encrypted, secret, code, henc, hdec, hproved⟩ := hc v hv hon
    ⟨encrypted, secret, code, henc, hdec, hproved.cons ev⟩
  obtain ⟨i, hr⟩ := ha.reply
  rcases users_after hr hu with hu | ⟨call, hop, ⟨id, hnew⟩ | ⟨v, hv, rfl⟩⟩
  · exact hold u hu hon
  · -- a new user has no two-factor authentication
    cases call with
    | userCreate email passwordHash =>
      obtain rfl := Option.some.inj hnew
      exact absurd hon Bool.false_ne_true
    | _ => cases hnew
  · obtain ⟨e, he, -⟩ := ha.expected
    rw [hop] at he
    rcases expected_twoFactor he v with ⟨hflag, henc⟩ | ⟨encrypted, -, rfl⟩ |
      ⟨code, w, secret, -, rfl, hw, hset, hdec, hproved⟩
    · obtain ⟨encrypted, secret, code, hv', hrest⟩ := hold v hv (hflag ▸ hon)
      exact ⟨encrypted, secret, code, henc.trans hv', hrest⟩
    · rw [show (AccountCall.userUpdate v.id (enrolData encrypted)).onUser v =
        v.updated (enrolData encrypted) from updatedIf_of_eq rfl] at hon
      exact absurd hon Bool.false_ne_true
    · have hsame : v.twoFactorSecretEnc = w.twoFactorSecretEnc := ha.allowed _ hop w hw v hv rfl
      rw [show (AccountCall.userUpdate v.id confirmData).onUser v = v.updated confirmData from
        updatedIf_of_eq rfl]
      exact ⟨w.twoFactorSecretEnc.getD "", secret, code, hsame.trans (eq_some_of_falsy hset), hdec,
        hproved.of_own.cons ev⟩

/-- As long as no confirmation sets the flag over a secret that it did not look up, a user whose
    flag is set has a confirmed secret. -/
theorem enabled_confirmed {E : Env} {s : System calls Error Enrolment State}
    (hs : Reachable E.machine E.enrolments State.AllOff Current s) :
    ∀ u ∈ s.config.state.db.users, u.twoFactorEnabled = true →
      ConfirmedSecret E s.config.trace u := by
  refine hs.invariant (enrolments_obeys E) (I := fun c => ∀ u ∈ c.state.db.users,
    u.twoFactorEnabled = true → ConfirmedSecret E c.trace u) ?_ ?_ ?_
  · exact fun s₀ h₀ u hu hon => absurd hon (by rw [h₀ u hu]; exact Bool.false_ne_true)
  · rintro c act state hc henv
    cases henv
    exact hc
  · exact fun c ev state => confirmed_step

/-! ## Runs -/

/-- `Current`, computed. -/
def current (c : Config calls State) (pid : ℕ) (op : Op) : Bool :=
  match op with
  | .db (.userUpdate id data) => data ≠ confirmData ||
      ((own pid c.trace).filterMap lookedBy).all fun u =>
        c.state.db.users.rows.all fun v => v.id ≠ id ||
          v.twoFactorSecretEnc = u.twoFactorSecretEnc
  | _ => true

theorem current_of_check {c : Config calls State} {pid : ℕ} {op : Op}
    (h : current c pid op = true) : Current c pid op := by
  rintro id rfl u hu v hv hid
  simp only [current, ne_eq, not_true_eq_false, decide_false, Bool.false_or] at h
  have hall := List.all_eq_true.mp (List.all_eq_true.mp h u hu.mem) v hv
  simpa [hid] using hall

/-- Answer the next requests of an enrolment, which makes this secret with this vector. -/
def enrols (pid : ℕ) (x : Sealed) : List (Move Enrolment Input ℕ) :=
  [.perform pid (.text ""), .perform pid (.text x.plaintext), .perform pid (.bytes x.iv),
    .perform pid (.text "")]

/-- An enrolment, then a confirmation. -/
def confirmedRun : List (Move Enrolment Input ℕ) :=
  [.start (.enable "usr_1")] ++ enrols 0 sealedA ++ [.start (.confirm "usr_1" "812658"),
    .perform 1 (.text ""), .perform 1 (.text ""), .perform 1 (.text "")]

/-- Another enrolment between the lookup and the update of the confirmation. -/
def overtakenRun : List (Move Enrolment Input ℕ) :=
  [.start (.enable "usr_1")] ++ enrols 0 sealedA ++
    [.start (.confirm "usr_1" "812658"), .perform 1 (.text ""), .start (.enable "usr_1")] ++
    enrols 2 sealedB ++ [.perform 1 (.text ""), .perform 1 (.text "")]

/-- The flags and secrets of the users, and the codes that were found valid. -/
def factors {κ : Type} (s : System calls Error κ State) :
    List (Bool × Option String) × List (String × String) :=
  (s.config.state.db.users.rows.map fun u => (u.twoFactorEnabled, u.twoFactorSecretEnc),
    s.config.trace.filterMap provedBy)

theorem sampleState_allOff : (sampleState .active).AllOff := fun u hu => by
  rw [List.mem_singleton.mp hu]
  rfl

theorem enabled_confirmed_alice : ∃ s, Reachable sampleEnv.machine sampleEnv.enrolments
    State.AllOff Current s ∧
    factors s = ([(true, some sealedA.encoded)], [(sealedA.plaintext, "812658")]) ∧
    ∀ u ∈ s.config.state.db.users, u.twoFactorEnabled = true →
      ConfirmedSecret sampleEnv s.config.trace u := by
  obtain ⟨s, hs, hview⟩ := Reachable.viewWhere (M := sampleEnv.machine)
    (W := sampleEnv.enrolments) (fun c pid op => @current_of_check c pid op) sampleState_allOff
    confirmedRun (f := factors)
    (x := ([(true, some sealedA.encoded)], [(sealedA.plaintext, "812658")])) (by decide)
  exact ⟨s, hs, hview, enabled_confirmed hs⟩

/-- The flag is set, and the only code that was found valid is one of another secret. -/
theorem enabled_unconfirmed : ∃ s, Reachable sampleEnv.machine sampleEnv.enrolments
    State.AllOff anything s ∧ ∃ u ∈ s.config.state.db.users, u.twoFactorEnabled = true ∧
      ¬ ConfirmedSecret sampleEnv s.config.trace u := by
  obtain ⟨s, hs, hview⟩ := Reachable.view (M := sampleEnv.machine) (W := sampleEnv.enrolments)
    sampleState_allOff overtakenRun (f := factors)
    (x := ([(true, some sealedB.encoded)], [(sealedA.plaintext, "812658")])) (by decide)
  obtain ⟨husers, hproved⟩ := Prod.mk.inj hview
  obtain ⟨u, rows, hrows, hu, -⟩ := List.map_eq_cons_iff.mp husers
  obtain ⟨hon, henc⟩ := Prod.mk.inj hu
  refine ⟨s, hs, u, ?_, hon, ?_⟩
  · rw [UserTable.mem_def, hrows]
    exact List.mem_cons_self
  · rintro ⟨encrypted, secret, code, henc', hdec, hcode⟩
    obtain rfl : sealedB.encoded = encrypted := Option.some.inj (henc.symm.trans henc')
    have hsecret : (sampleEnv.decrypt sealedB.encoded).toOption = some sealedB.plaintext := by
      decide
    rw [hdec] at hsecret
    obtain rfl : secret = sealedB.plaintext := Option.some.inj hsecret
    have hmem := hcode.mem
    rw [hproved] at hmem
    have hne : sealedB.plaintext ≠ sealedA.plaintext := by decide
    exact hne (Prod.mk.inj (List.mem_singleton.mp hmem)).1

end CryptoPay.Accounts
