import CryptoPay.Accounts.UserTable
import CryptoPay.Api.Invoices
import CryptoPay.Async.Embedding
import CryptoPay.Auth.Rotations
import CryptoPay.Shared.Encryption

/-!
# `AuthService`

`apps/api/src/auth/auth.service.ts` with the services it calls (`TotpService`,
`EmailVerificationService`, `AuditService`), over the requests they await and
the machine that answers these. Requests to the refresh token table are those of
`Auth`, embedded. No method catches an error, so a query that does not reach the
database is a method that stops there. The clock advances between requests.

Results:
* `respond_db`, `respond_session`, `respond_verifyPassword`, `respond_verifyTotp`,
  `respond_frame`: what one reply can be, and what it leaves alone.
* `users_after`, `users_before`: the users before and after a request.
-/

namespace CryptoPay.Accounts

open Async

open Api (RequestContext RecordAuditEventInput)

/-- A request of the service. -/
inductive Op where
  /-- A request of `RefreshTokenService` or `AccessTokenService`; the clock and
      `randomBytes(32)` are among them. -/
  | session (op : Auth.Op)
  | db (call : AccountCall)
  /-- `hashPassword(password, params)`. -/
  | hashPassword (password : String)
  /-- `verifyPassword(hash, password)`. -/
  | verifyPassword (hash password : String)
  /-- `new Secret({ size: 20 }).base32`. -/
  | secret
  /-- `randomBytes(IV_LENGTH)`. -/
  | iv
  /-- `totp.validate({ token: code, window: 1 }) !== null`, at the current time. -/
  | verifyTotp (secret code : String)
  deriving DecidableEq, Repr

/-- The requests with their replies. -/
abbrev calls : Signature where
  Op := Op
  Ret
    | .session op => Auth.calls.Ret op
    | .db call => Except PrismaErrorCode call.Ret
    | .hashPassword _ => String
    | .verifyPassword .. => Bool
    | .secret => String
    | .iv => List UInt8
    | .verifyTotp .. => Bool

/-- An asynchronous method. -/
abbrev Action (α : Type) := Prog calls Error α

/-- `await this.prisma.…`. -/
def prisma (call : AccountCall) : Action call.Ret :=
  .request (S := calls) (.db call) (Except.mapError Error.prisma)

/-- The requests of `Auth` among those of this service. -/
def sessionCalls : Auth.calls.Hom calls := ⟨.session, fun _ r => r⟩

/-- A method of `RefreshTokenService`, or a request of its kind. -/
def session {α : Type} (p : Auth.Action α) : Action α := p.embed sessionCalls

def hashPassword (password : String) : Action String :=
  .perform (S := calls) (.hashPassword password)

def verifyPassword (hash password : String) : Action Bool :=
  .perform (S := calls) (.verifyPassword hash password)

/-- `TotpService.verify` (totp.service.ts, lines 28–38). -/
def verifyTotp (secret code : String) : Action Bool :=
  .perform (S := calls) (.verifyTotp secret code)

/-- `AuditService.record` (audit.service.ts, lines 21–37). -/
def record (input : RecordAuditEventInput) : Action Unit := prisma (.auditLogCreate input.row)

/-- An error of `node:crypto` or of `decodeKey` reaches the client as `toAppError` makes it
    (app-error.ts, lines 89–92). -/
def unexpected (_ : Webhooks.Thrown) : Error := .internal "An unexpected error occurred"

/-- What `AuthService` is constructed with, and the functions of third parties it calls. -/
structure Env where
  /-- `RefreshTokenService`; `EmailVerificationService` has the same `secret`. -/
  tokens : Auth.Service
  cipher : Cipher
  /-- `ENCRYPTION_KEY`. -/
  encryptionKey : String
  /-- `argon2.verify(hash, password)`, `false` where it throws. -/
  argon2Verify : (hash password : String) → Bool
  /-- Whether `totp.validate` accepts the code of this secret at this time. -/
  validTotp : (secret code : String) → Time → Bool
  /-- `new TOTP({ issuer, label, … }).toString()`. -/
  otpauthUrl : (label secret : String) → String

/-! ## `EmailVerificationService` -/

namespace Env

variable (E : Env)

/-- `hash` (email-verification.service.ts, lines 22–24). -/
def verificationHash (raw : String) : String :=
  Auth.hashOpaqueToken E.tokens.signHmacSha256 raw E.tokens.secret "email_verification"

/-- `issue` (lines 26–36). -/
def issueVerification (userId : String) : Action String := do
  let raw ← session Auth.randomBytes
  let now ← session Auth.dateNow
  let _ ← prisma (.verificationCreate {
    userId, tokenHash := E.verificationHash raw, expiresAt := now + 24 * 3600000 })
  pure raw

/-- `!record || record.consumedAt || record.expiresAt < new Date()` (line 42): the clock is read
    only for a token that is not consumed. -/
def verificationSpent (record : EmailVerificationToken) : Action Bool := do
  if record.consumedAt.isSome then pure true
  else
    let now ← session Auth.dateNow
    pure (record.expiresAt < now)

/-- `consume` (lines 38–58). -/
def consume (rawToken : String) : Action String := do
  let record ← prisma (.verificationFindUnique (E.verificationHash rawToken))
  match record with
  | none => .throw (.validation "Invalid or expired verification token")
  | some record =>
    if ← verificationSpent record then
      .throw (.validation "Invalid or expired verification token")
    else
      let consumedAt ← session Auth.dateNow
      let verifiedAt ← session Auth.dateNow
      prisma (.consume record.id consumedAt record.userId
        { status := some .active, emailVerifiedAt := some (some verifiedAt) })
      pure record.userId

/-! ## `AuthService` -/

end Env

/-- `RegisterInput` (auth.schemas.ts, lines 17–21). -/
structure RegisterInput where
  email : String
  password : String
  deriving DecidableEq, Repr

/-- `LoginInput` (auth.schemas.ts, lines 23–31). -/
structure LoginInput where
  email : String
  password : String
  totpCode : Option String
  deriving DecidableEq, Repr

/-- The context that `login` and `refresh` hand to `RefreshTokenService`. -/
def refreshContext (ctx : RequestContext) : Auth.RefreshContext :=
  { userAgent := ctx.userAgent, ipAddress := some ctx.ip }

/-- The audit event of a user's own action. -/
def userEvent (action userId : String) (ctx : RequestContext) : RecordAuditEventInput where
  organizationId := none
  actorId := some userId
  actorType := "user"
  action := action
  resourceType := "user"
  resourceId := some userId
  ip := some ctx.ip
  userAgent := ctx.userAgent
  metadata := none

/-- `FAILED_LOGIN_LOCK_THRESHOLD` (line 21). -/
def failedLoginLockThreshold : ℤ := 5

/-- `FAILED_LOGIN_LOCK_DURATION_MS` (line 22). -/
def failedLoginLockDurationMs : ℤ := 15 * 60 * 1000

/-- `registerFailedLogin` (lines 197–211): the clock is read only from the fifth failure on. -/
def registerFailedLogin (user : User) : Action Unit := do
  let attempts := user.failedLoginAttempts + 1
  if attempts ≥ failedLoginLockThreshold then
    let now ← session Auth.dateNow
    let _ ← prisma (.userUpdate user.id {
      failedLoginAttempts := some attempts
      lockedUntil := some (some (now + failedLoginLockDurationMs))
      status := some .locked })
    pure ()
  else
    let _ ← prisma (.userUpdate user.id { failedLoginAttempts := some attempts })
    pure ()

/-- `requireUser` (lines 189–195). -/
def requireUser (userId : String) : Action User := do
  match ← prisma (.userFindUnique (.id userId)) with
  | none => .throw (.unauthorized "User not found")
  | some user => pure user

/-- `user.lockedUntil && user.lockedUntil > new Date()` (line 93). -/
def locked (user : User) : Action Bool :=
  match user.lockedUntil with
  | none => pure false
  | some lockedUntil => do
    let now ← session Auth.dateNow
    pure (lockedUntil > now)

/-- `!s`: absent or empty. -/
def falsy (s : Option String) : Bool := s.getD "" = ""

namespace Env

variable (E : Env)

/-- `decryptSecret(user.twoFactorSecretEnc, this.env.ENCRYPTION_KEY)`. -/
def decrypt (encoded : String) : Except Error String :=
  (Webhooks.decryptSecret E.cipher.toPlatform encoded E.encryptionKey).mapError unexpected

/-- `register` (lines 54–78). -/
def register (input : RegisterInput) (ctx : RequestContext) : Action Unit := do
  match ← prisma (.userFindUnique (.email input.email)) with
  | some _ => pure ()
  | none =>
    let passwordHash ← hashPassword input.password
    let user ← prisma (.userCreate input.email passwordHash)
    let _ ← E.issueVerification user.id
    record (userEvent "user.register" user.id ctx)

/-- `verifyEmail` (lines 80–82). -/
def verifyEmail (rawToken : String) : Action Unit := do
  let _ ← E.consume rawToken
  pure ()

/-- The two-factor check of `login` (lines 107–119). -/
def checkTwoFactor (user : User) (totpCode : Option String) : Action Unit :=
  if user.twoFactorEnabled then
    if falsy totpCode then .throw (.unauthorized "Two-factor authentication code required")
    else if falsy user.twoFactorSecretEnc then
      .throw (.internal "Two-factor is enabled but no secret is configured")
    else do
      let secret ← .ofExcept (E.decrypt (user.twoFactorSecretEnc.getD ""))
      if ← verifyTotp secret (totpCode.getD "") then pure ()
      else
        registerFailedLogin user
        .throw (.unauthorized "Invalid two-factor code")
  else pure ()

/-- The end of `login` (lines 121–146), after its checks. -/
def completeLogin (user : User) (ctx : RequestContext) : Action Auth.Service.AuthTokens := do
  let now ← session Auth.dateNow
  let _ ← prisma (.userUpdate user.id {
    failedLoginAttempts := some 0
    lockedUntil := some none
    status := some .active
    lastLoginAt := some (some now) })
  let tokens ← session (E.tokens.login user.id (refreshContext ctx))
  record (userEvent "user.login" user.id ctx)
  pure tokens

/-- `login` (lines 84–147). -/
def login (input : LoginInput) (ctx : RequestContext) : Action Auth.Service.AuthTokens := do
  match ← prisma (.userFindUnique (.email input.email)) with
  | none => .throw (.unauthorized "Invalid email or password")
  | some user =>
    if user.status = .suspended then .throw (.unauthorized "Account is suspended")
    else if ← locked user then
      .throw (.unauthorized "Account temporarily locked due to repeated failed logins")
    else if ← verifyPassword user.passwordHash input.password then
      if user.emailVerifiedAt = none then
        .throw (.unauthorized "Please verify your email before logging in")
      else
        E.checkTwoFactor user input.totpCode
        E.completeLogin user ctx
    else
      registerFailedLogin user
      .throw (.unauthorized "Invalid email or password")

/-- `refresh` (lines 149–156). -/
def refresh (rawRefreshToken : String) (ctx : RequestContext) : Action Auth.Service.AuthTokens :=
  session (E.tokens.refresh rawRefreshToken (refreshContext ctx))

/-- `logout` (lines 158–162). -/
def logout (rawRefreshToken : Option String) : Action Unit :=
  session (E.tokens.logout rawRefreshToken)

/-- What `enableTwoFactor` returns. -/
structure GeneratedTotpSecret where
  secretBase32 : String
  otpauthUrl : String
  deriving DecidableEq, Repr

/-- `enableTwoFactor` (lines 164–175). -/
def enableTwoFactor (userId : String) : Action GeneratedTotpSecret := do
  let user ← requireUser userId
  let secretBase32 ← .perform (S := calls) .secret
  let iv ← .perform (S := calls) .iv
  let encrypted ← .ofExcept
    ((encryptSecret E.cipher iv secretBase32 E.encryptionKey).mapError unexpected)
  let _ ← prisma (.userUpdate userId {
    twoFactorSecretEnc := some (some encrypted), twoFactorEnabled := some false })
  pure ⟨secretBase32, E.otpauthUrl user.email secretBase32⟩

/-- `confirmTwoFactor` (lines 177–187). -/
def confirmTwoFactor (userId code : String) : Action Unit := do
  let user ← requireUser userId
  if falsy user.twoFactorSecretEnc then
    .throw (.validation "Two-factor setup was not started")
  else
    let secret ← .ofExcept (E.decrypt (user.twoFactorSecretEnc.getD ""))
    if ← verifyTotp secret code then
      let _ ← prisma (.userUpdate userId { twoFactorEnabled := some true })
      pure ()
    else .throw (.validation "Invalid two-factor code")

end Env

/-! ## The calls -/

/-- A call of `AuthController` (auth.controller.ts). -/
inductive Job where
  | register (input : RegisterInput) (ctx : RequestContext)
  | verifyEmail (rawToken : String)
  | login (input : LoginInput) (ctx : RequestContext)
  | refresh (rawRefreshToken : String) (ctx : RequestContext)
  | logout (rawRefreshToken : Option String)
  | enableTwoFactor (userId : String)
  | confirmTwoFactor (userId code : String)
  deriving DecidableEq, Repr

instance : Inhabited Job := ⟨.logout none⟩

/-- The program of a call. -/
def Env.launch (E : Env) : Job → Action Unit
  | .register input ctx => E.register input ctx
  | .verifyEmail rawToken => E.verifyEmail rawToken
  | .login input ctx => E.login input ctx >>= fun _ => pure ()
  | .refresh rawRefreshToken ctx => E.refresh rawRefreshToken ctx >>= fun _ => pure ()
  | .logout rawRefreshToken => E.logout rawRefreshToken
  | .enableTwoFactor userId => E.enableTwoFactor userId >>= fun _ => pure ()
  | .confirmTwoFactor userId code => E.confirmTwoFactor userId code

/-- The calls, any number of them in flight. -/
def Env.work (E : Env) : Workload calls Error Job where
  launch := E.launch
  compatible _ _ := true
  symm _ _ := rfl

/-- The calls, one after another. -/
def Env.sequence (E : Env) : Workload calls Error Job where
  launch := E.launch
  compatible _ _ := false
  symm _ _ := rfl

/-! ## The machine -/

/-- The tables with the state of `Auth`, which holds the clock. -/
structure State where
  session : Auth.State
  db : Database

/-- The clock. -/
abbrev State.now (s : State) : Time := s.session.now

/-- What a request leaves open: a text (an id, random characters, a hash, a signature) or
    random bytes. -/
inductive Input where
  | text (s : String)
  | bytes (bs : List UInt8)
  deriving DecidableEq, Repr

/-- The reply to a request and the state after it. A password hash is one that verifies. -/
def Env.respond (E : Env) (s : State) : (op : Op) → Input → Option (calls.Ret op × State)
  | .session op, .text i =>
    (Auth.respond s.session op i).map fun x => (x.1, { s with session := x.2 })
  | .db call, .text id =>
    some ((call.exec s.now id s.db).1, { s with db := (call.exec s.now id s.db).2 })
  | .hashPassword password, .text hash =>
    if E.argon2Verify hash password then some (hash, s) else none
  | .verifyPassword hash password, _ => some (E.argon2Verify hash password, s)
  | .secret, .text secret => some (secret, s)
  | .iv, .bytes bs => if bs.length = 12 then some (bs, s) else none
  | .verifyTotp secret code, _ => some (E.validTotp secret code s.now, s)
  | _, _ => none

/-- The clock advances by `act` milliseconds. -/
def Env.machine (E : Env) : Machine calls State Input ℕ where
  respond _ := E.respond
  env s act := some { s with session := { s.session with now := s.session.now + act } }
  restarts _ := false

section Replies

variable {E : Env} {s s' : State} {i : Input}

theorem respond_db {call : AccountCall} {r : Except PrismaErrorCode call.Ret}
    (h : E.respond s (.db call) i = some (r, s')) :
    (∃ id, call.exec s.now id s.db = (r, s'.db)) ∧ s'.session = s.session := by
  cases i with
  | text id =>
    obtain ⟨hr, rfl⟩ := Prod.mk.inj (Option.some.inj h)
    exact ⟨⟨id, Prod.ext hr rfl⟩, rfl⟩
  | bytes bs => cases h

theorem respond_session {op : Auth.Op} {r : Auth.calls.Ret op}
    (h : E.respond s (.session op) i = some (r, s')) :
    (∃ j, Auth.respond s.session op j = some (r, s'.session)) ∧ s'.db = s.db := by
  cases i with
  | text j =>
    obtain ⟨x, hx, heq⟩ := Option.map_eq_some_iff.mp h
    obtain ⟨rfl, rfl⟩ := Prod.mk.inj heq
    exact ⟨⟨j, hx⟩, rfl⟩
  | bytes bs => cases h

theorem respond_verifyPassword {hash password : String} {r : Bool}
    (h : E.respond s (.verifyPassword hash password) i = some (r, s')) :
    r = E.argon2Verify hash password ∧ s' = s := by
  cases i <;> (cases h; exact ⟨rfl, rfl⟩)

theorem respond_verifyTotp {secret code : String} {r : Bool}
    (h : E.respond s (.verifyTotp secret code) i = some (r, s')) :
    r = E.validTotp secret code s.now ∧ s' = s := by
  cases i <;> (cases h; exact ⟨rfl, rfl⟩)

/-- The request is to the tables, or to the token table and its services. -/
def Op.Stateful : Op → Prop
  | .session _ => True
  | .db _ => True
  | _ => False

/-- Any other request changes nothing. -/
theorem respond_frame {op : Op} {r : calls.Ret op} (hop : ¬ op.Stateful)
    (h : E.respond s op i = some (r, s')) : s' = s := by
  cases op with
  | session op => exact absurd trivial hop
  | db call => exact absurd trivial hop
  | verifyPassword hash password => exact (respond_verifyPassword h).2
  | verifyTotp secret code => exact (respond_verifyTotp h).2
  | hashPassword password =>
    cases i with
    | text hash =>
      simp only [Env.respond] at h
      split_ifs at h
      cases h
      rfl
    | bytes bs => cases h
  | secret => cases i <;> cases h; rfl
  | iv =>
    cases i with
    | text s => cases h
    | bytes bs =>
      simp only [Env.respond] at h
      split_ifs at h
      cases h
      rfl

/-- No request turns the clock. -/
theorem respond_now {op : Op} {r : calls.Ret op} (h : E.respond s op i = some (r, s')) :
    s'.now = s.now := by
  by_cases hop : op.Stateful
  · cases op with
    | session op =>
      obtain ⟨⟨j, hj⟩, -⟩ := respond_session h
      cases op with
      | db call => rw [State.now, (Auth.respond_db hj).2]
      | now => rw [State.now, (Auth.respond_now hj).2]
      | randomBytes => rw [State.now, Auth.respond_randomBytes hj]
      | generateId stem => rw [State.now, (Auth.respond_generateId hj).2]
      | sign userId => rw [State.now, Auth.respond_sign hj]
    | db call => rw [State.now, (respond_db h).2]
    | _ => exact absurd hop id
  · rw [respond_frame hop h]

/-- A user that is stored after a request was stored before it, or comes from a query. -/
theorem users_after {op : Op} {r : calls.Ret op} (h : E.respond s op i = some (r, s')) {u : User}
    (hu : u ∈ s'.db.users) : u ∈ s.db.users ∨ ∃ call, op = .db call ∧
      ((∃ id, call.newUser id = some u) ∨ ∃ v ∈ s.db.users, u = call.onUser v) := by
  by_cases hop : op.Stateful
  · cases op with
    | session op =>
      rw [(respond_session h).2] at hu
      exact .inl hu
    | db call =>
      obtain ⟨⟨id, hexec⟩, -⟩ := respond_db h
      cases r with
      | error code =>
        rw [exec_error hexec] at hu
        exact .inl hu
      | ok r =>
        rcases (mem_users hexec).mp hu with hnew | hold
        · exact .inr ⟨call, rfl, .inl ⟨id, hnew⟩⟩
        · exact .inr ⟨call, rfl, .inr hold⟩
    | _ => exact absurd hop id
  · rw [respond_frame hop h] at hu
    exact .inl hu

/-- A stored user stays, as a query may rewrite it. -/
theorem users_before {ev : Event calls} (h : E.respond s ev.op i = some (ev.ret, s')) {v : User}
    (hv : v ∈ s.db.users) : ∃ u ∈ s'.db.users,
      u = v ∨ ∃ p call r, ev = ⟨p, .db call, .ok r⟩ ∧ u = call.onUser v := by
  obtain ⟨p, op, r⟩ := ev
  by_cases hop : op.Stateful
  · cases op with
    | session op => exact ⟨v, by rw [(respond_session h).2]; exact hv, .inl rfl⟩
    | db call =>
      obtain ⟨⟨id, hexec⟩, -⟩ := respond_db h
      cases r with
      | error code => exact ⟨v, by rw [exec_error hexec]; exact hv, .inl rfl⟩
      | ok r =>
        exact ⟨call.onUser v, (mem_users hexec).mpr (.inr ⟨v, hv, rfl⟩),
          .inr ⟨p, call, r, rfl, rfl⟩⟩
    | _ => exact absurd hop id
  · exact ⟨v, by rw [respond_frame hop h]; exact hv, .inl rfl⟩

end Replies

/-! ## Sample values -/

/-- A secret and what `encryptSecret` makes of it under the key of 32 bytes `ff`. -/
structure Sealed where
  plaintext : String
  iv : List UInt8
  authTag : List UInt8
  ciphertext : List UInt8
  encoded : String

/-- The secret of twenty bytes `00`. -/
def sealedA : Sealed where
  plaintext := "AAAAAAAAAAAAAAAAAAAAAAAAAAAAAAAA"
  iv := [0, 0, 0, 0, 0, 0, 0, 0, 0, 0, 0, 0]
  authTag := [117, 50, 122, 164, 110, 36, 77, 124, 40, 12, 80, 238, 87, 168, 45, 108]
  ciphertext := [134, 136, 44, 190, 140, 221, 129, 94, 83, 71, 4, 141, 189, 101, 149, 65, 46, 103,
    16, 120, 94, 90, 87, 232, 31, 39, 219, 63, 166, 176, 29, 40]
  encoded := "AAAAAAAAAAAAAAAAdTJ6pG4kTXwoDFDuV6gtbIaILL6M3YFeU0cEjb1llUEuZxB4XlpX6B8n2z+msB0o"

/-- The secret of twenty bytes `ff`. -/
def sealedB : Sealed where
  plaintext := "77777777777777777777777777777777"
  iv := [1, 1, 1, 1, 1, 1, 1, 1, 1, 1, 1, 1]
  authTag := [132, 8, 41, 235, 184, 189, 216, 89, 147, 151, 8, 102, 130, 106, 36, 132]
  ciphertext := [74, 245, 67, 115, 99, 38, 246, 51, 239, 8, 222, 170, 140, 188, 49, 48, 154, 232,
    5, 32, 49, 33, 146, 251, 122, 161, 143, 177, 159, 1, 230, 79]
  encoded := "AQEBAQEBAQEBAQEBhAgp67i92FmTlwhmgmokhEr1Q3NjJvYz7wjeqoy8MTCa6AUgMSGS+3qhj7GfAeZP"

/-- `fromUtf8`, on ASCII. -/
def asciiBytes (s : String) : List UInt8 := s.toList.map fun c => UInt8.ofNat c.toNat

/-- The raw bytes that `encoded` encodes. -/
def Sealed.raw (x : Sealed) : List UInt8 := x.iv ++ x.authTag ++ x.ciphertext

/-- Node's cipher on the two sealed secrets. -/
def sampleCipher : Cipher where
  parseUrl _ := none
  isIP _ := 0
  fromBase64 s := (([sealedA, sealedB].find? fun x => x.encoded = s).map Sealed.raw).getD []
  decipher _ iv authTag ciphertext :=
    match [sealedA, sealedB].find? fun x => x.raw = iv ++ authTag ++ ciphertext with
    | some x => .ok (asciiBytes x.plaintext)
    | none => .error "Unsupported state or unable to authenticate data"
  toUtf8 bytes := String.ofList (bytes.map fun b => Char.ofNat b.toNat)
  hmacSha256Hex _ _ := ""
  toBase64 bytes := (([sealedA, sealedB].find? fun x => x.raw = bytes).map Sealed.encoded).getD ""
  fromUtf8 := asciiBytes
  encipher _ iv plaintext :=
    match [sealedA, sealedB].find? fun x => x.iv = iv ∧ asciiBytes x.plaintext = plaintext with
    | some x => (x.ciphertext, x.authTag)
    | none => ([], [])

/-- An Argon2id hash of `password123`. -/
def sampleHash : String :=
  "$argon2id$v=19$m=8,t=1,p=1$AAAAAAAAAAAAAAAAAAAAAA$kaZolsO1R8tHLDzo6EWl++y/wvVX07+iCU0sH6J/YCc"

/-- The codes of the two secrets in the first time steps. -/
def sampleCodes : List (String × String × ℤ) :=
  [(sealedA.plaintext, "328482", 0), (sealedA.plaintext, "812658", 1),
    (sealedA.plaintext, "073348", 2), (sealedB.plaintext, "103905", 0),
    (sealedB.plaintext, "463444", 1), (sealedB.plaintext, "552158", 2)]

/-- A service with these functions. -/
def sampleEnv : Env where
  tokens := Auth.demo
  cipher := sampleCipher
  encryptionKey := "ffffffffffffffffffffffffffffffffffffffffffffffffffffffffffffffff"
  argon2Verify hash password := hash = sampleHash && password = "password123"
  validTotp secret code now := sampleCodes.any fun (s, c, step) =>
    s = secret && c = code && (now / 30000 - step).natAbs ≤ 1
  otpauthUrl label secret := "otpauth://totp/CryptoPay:" ++ label ++ "?secret=" ++ secret

/-- A user whose password is `password123` and whose email is verified. -/
def sampleUser (status : UserStatus) : User where
  id := "usr_1"
  email := "alice@example.com"
  status := status
  passwordHash := sampleHash
  emailVerifiedAt := some 0
  twoFactorEnabled := false
  twoFactorSecretEnc := none
  failedLoginAttempts := 0
  lockedUntil := none
  lastLoginAt := none

theorem nodup_one {α : Type} (a : α) : [a].Nodup := List.nodup_singleton a

/-- One user, one verification token and one refresh token, each with a day to live. -/
def sampleState (status : UserStatus) : State where
  session := {
    tokens := {
      rows := [⟨"rt_1", "usr_1", "refresh", "fam_1", none, none, 86400000, none, none, 0⟩]
      nodup := nodup_one _
      uniqueHash := nodup_one _
      uniqueReplaced := fun _ hx _ hy _ _ =>
        (List.mem_singleton.mp hx).trans (List.mem_singleton.mp hy).symm }
    now := 0
    generated := ["fam_1"] }
  db := {
    users := { rows := [sampleUser status], nodup := nodup_one _, uniqueEmail := nodup_one _ }
    verifications := {
      rows := [⟨"ver_1", "usr_1", "verify", 86400000, none⟩]
      nodup := nodup_one _
      uniqueHash := nodup_one _ }
    auditLogs := [] }

/-- `decryptSecret` inverts `encryptSecret`. -/
example : (encryptSecret sampleCipher sealedA.iv sealedA.plaintext sampleEnv.encryptionKey).toOption
    = some sealedA.encoded ∧
    (sampleEnv.decrypt sealedA.encoded).toOption = some sealedA.plaintext := by
  decide

end CryptoPay.Accounts
