import CryptoPay.Auth.TokenTable

/-!
# `RefreshTokenService`

`apps/api/src/auth/tokens/refresh-token.service.ts` and the three methods of
`apps/api/src/auth/auth.service.ts` that use it, over the requests they await
and the machine that answers these on the token table. The clock advances
between requests. Random bytes are arbitrary, and so may repeat; the ids of
`generateId`, 24 random characters, are new.

Results:
* `respond_db`, `respond_reads`, `respond_generateId`: what one reply can be.
-/

namespace CryptoPay.Auth

open Async

/-- A request of the service. -/
inductive Op where
  | db (call : TokenCall)
  /-- `Date.now()` or `new Date()`. -/
  | now
  /-- `randomBytes(32).toString('base64url')`. -/
  | randomBytes
  /-- `generateId(prefix)`. -/
  | generateId (stem : String)
  /-- `AccessTokenService.sign(userId)`. -/
  | sign (userId : String)
  deriving DecidableEq, Repr

/-- The requests with their replies. -/
abbrev calls : Signature where
  Op := Op
  Ret
    | .db call => Except PrismaErrorCode call.Ret
    | .now => Time
    | .randomBytes => String
    | .generateId _ => String
    | .sign _ => String

/-- An asynchronous method. -/
abbrev Action (α : Type) := Prog calls Error α

/-- `await this.prisma.refreshToken.…`. -/
def prisma (call : TokenCall) : Action call.Ret :=
  .request (S := calls) (.db call) (Except.mapError Error.prisma)

def dateNow : Action Time := .perform (S := calls) .now

def randomBytes : Action String := .perform (S := calls) .randomBytes

def generateId (stem : String) : Action String := .perform (S := calls) (.generateId stem)

def sign (userId : String) : Action String := .perform (S := calls) (.sign userId)

/-! ## The service -/

/-- `IssuedRefreshToken` (lines 9–12). -/
structure IssuedRefreshToken where
  raw : String
  record : RefreshToken
  deriving DecidableEq, Repr

/-- `RefreshContext` (lines 14–17). -/
structure RefreshContext where
  userAgent : Option String := none
  ipAddress : Option String := none
  deriving DecidableEq, Repr

/-- The fields of `RefreshTokenService`, with `signHmacSha256(payload, secret)` of
    `@cryptopay/crypto`. -/
structure Service where
  signHmacSha256 : (payload secret : String) → String
  secret : String
  ttlSeconds : ℤ

/-- `hashOpaqueToken` (token-hash.util.ts, lines 6–8). -/
def hashOpaqueToken (signHmacSha256 : (payload secret : String) → String)
    (raw secret purpose : String) : String :=
  signHmacSha256 raw (secret ++ ":" ++ purpose)

namespace Service

variable (T : Service)

/-- `hash` (lines 39–41). -/
def hash (raw : String) : String := hashOpaqueToken T.signHmacSha256 raw T.secret "refresh"

/-- `issue` (lines 47–61). -/
def issue (userId : String) (ctx : RefreshContext) (familyId : Option String := none) :
    Action IssuedRefreshToken := do
  let raw ← randomBytes
  let familyId ← match familyId with
    | some familyId => pure familyId
    | none => generateId "fam"
  let now ← dateNow
  let record ← prisma (.create {
    userId, tokenHash := T.hash raw, familyId, expiresAt := now + T.ttlSeconds * 1000
    userAgent := ctx.userAgent, ipAddress := ctx.ipAddress })
  pure ⟨raw, record⟩

/-- `revokeFamily` (lines 86–91). -/
def revokeFamily (familyId : String) : Action Unit := do
  let now ← dateNow
  let _ ← prisma (.updateMany (.familyId familyId) now)
  pure ()

/-- `revokeByRawToken` (lines 93–98). -/
def revokeByRawToken (rawToken : String) : Action Unit := do
  let now ← dateNow
  let _ ← prisma (.updateMany (.tokenHash (T.hash rawToken)) now)
  pure ()

/-- The condition of `rotate` (line 71): the clock is read only if the token is not revoked. -/
def spent (existing : RefreshToken) : Action Bool := do
  if existing.revokedAt.isSome then pure true
  else
    let now ← dateNow
    pure (existing.expiresAt < now)

/-- `rotate` (lines 63–84). -/
def rotate (rawToken : String) (ctx : RefreshContext) : Action IssuedRefreshToken := do
  let existing ← prisma (.findUnique (T.hash rawToken))
  match existing with
  | none => .throw (.unauthorized "Invalid refresh token")
  | some existing =>
    if ← spent existing then
      revokeFamily existing.familyId
      .throw (.unauthorized "Session has been revoked, please log in again")
    else
      let next ← T.issue existing.userId ctx (some existing.familyId)
      let now ← dateNow
      let _ ← prisma (.update existing.id now next.record.id)
      pure next

/-! ## Its callers in `AuthService` -/

/-- `AuthTokens`. -/
structure AuthTokens where
  accessToken : String
  refreshToken : String
  deriving DecidableEq, Repr

/-- `login` (auth.service.ts, lines 131–145) of a user who passed its checks. -/
def login (userId : String) (ctx : RefreshContext) : Action AuthTokens := do
  let accessToken ← sign userId
  let issued ← T.issue userId ctx
  pure ⟨accessToken, issued.raw⟩

/-- `refresh` (lines 149–156). -/
def refresh (rawRefreshToken : String) (ctx : RefreshContext) : Action AuthTokens := do
  let issued ← T.rotate rawRefreshToken ctx
  let accessToken ← sign issued.record.userId
  pure ⟨accessToken, issued.raw⟩

/-- `logout` (lines 158–162): an empty string is no token. -/
def logout (rawRefreshToken : Option String) : Action Unit :=
  match rawRefreshToken with
  | some raw => if raw = "" then pure () else T.revokeByRawToken raw
  | none => pure ()

end Service

/-! ## The machine -/

/-- The token table, the clock and the ids that `generateId` has returned. -/
structure State where
  tokens : TokenTable
  now : Time
  generated : List String

/-- What a request leaves open is one string: random bytes, an id, or a signature. -/
def respond (s : State) : (op : Op) → String → Option (calls.Ret op × State)
  | .db call, id =>
    some ((call.exec s.now id s.tokens).1, { s with tokens := (call.exec s.now id s.tokens).2 })
  | .now, _ => some (s.now, s)
  | .randomBytes, bytes => some (bytes, s)
  | .generateId stem, suffix =>
    if stem ++ "_" ++ suffix ∈ s.generated then none
    else some (stem ++ "_" ++ suffix, { s with generated := (stem ++ "_" ++ suffix) :: s.generated })
  | .sign _, jwt => some (jwt, s)

/-- The clock advances by `act` milliseconds. -/
def machine : Machine calls State String ℕ where
  respond _ := respond
  env s act := some { s with now := s.now + act }
  restarts _ := false

/-- An empty table. -/
def State.Start (s : State) : Prop := s.tokens = .empty ∧ s.generated = []

section Replies

variable {s s' : State} {i : String}

theorem respond_db {call : TokenCall} {r : Except PrismaErrorCode call.Ret}
    (h : respond s (.db call) i = some (r, s')) :
    call.exec s.now i s.tokens = (r, s'.tokens) ∧ s' = { s with tokens := s'.tokens } := by
  obtain ⟨hr, rfl⟩ := Prod.mk.inj (Option.some.inj h)
  exact ⟨Prod.ext hr rfl, rfl⟩

theorem respond_generateId {stem f : String} (h : respond s (.generateId stem) i = some (f, s')) :
    f ∉ s.generated ∧ s' = { s with generated := f :: s.generated } := by
  simp only [respond] at h
  split_ifs at h with hnew
  cases h
  exact ⟨hnew, rfl⟩

theorem respond_now {t : Time} (h : respond s .now i = some (t, s')) : t = s.now ∧ s' = s := by
  cases h
  exact ⟨rfl, rfl⟩

theorem respond_randomBytes {raw : String} (h : respond s .randomBytes i = some (raw, s')) :
    s' = s := by
  cases h
  rfl

theorem respond_sign {userId jwt : String} (h : respond s (.sign userId) i = some (jwt, s')) :
    s' = s := by
  cases h
  rfl

end Replies

end CryptoPay.Auth
