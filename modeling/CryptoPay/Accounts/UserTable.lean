import CryptoPay.Database.Schema
import CryptoPay.Shared.Errors

/-!
# The account tables

`User` and `EmailVerificationToken` of `packages/database/prisma/schema.prisma`
(lines 82–107 and 131–143), without the timestamps that nothing reads, and the
queries of `apps/api/src/auth/auth.service.ts` and
`apps/api/src/auth/tokens/email-verification.service.ts` on them. The unique
columns besides the ids, `email` and `tokenHash`, are fields of the tables. Rows
are never deleted, and a verification token is only issued to a stored user, so
the foreign key is not modelled.

Results:
* `exec_error`: a query that fails changes nothing.
* `mem_users`: the users after a query are those before it, each rewritten by
  `AccountCall.onUser`, and the one it creates.
* `exec_findUser`, `exec_findVerification`: what a lookup returns.
-/

namespace CryptoPay.Accounts

open Data

/-- `UserStatus` (schema.prisma). -/
inductive UserStatus where
  | pendingVerification | active | locked | suspended
  deriving DecidableEq, Repr

/-- `model User` (schema.prisma, lines 82–107). -/
structure User where
  id : String
  email : String
  status : UserStatus
  passwordHash : String
  emailVerifiedAt : Option Time
  twoFactorEnabled : Bool
  twoFactorSecretEnc : Option String
  failedLoginAttempts : ℤ
  lockedUntil : Option Time
  lastLoginAt : Option Time
  deriving DecidableEq, Repr

/-- `model EmailVerificationToken` (schema.prisma, lines 131–143). -/
structure EmailVerificationToken where
  id : String
  userId : String
  tokenHash : String
  expiresAt : Time
  consumedAt : Option Time
  deriving DecidableEq, Repr

/-- The row that `user.create` stores; `id` is its `cuid()`. -/
def User.created (id email passwordHash : String) : User where
  id := id
  email := email
  status := .pendingVerification
  passwordHash := passwordHash
  emailVerifiedAt := none
  twoFactorEnabled := false
  twoFactorSecretEnc := none
  failedLoginAttempts := 0
  lockedUntil := none
  lastLoginAt := none

/-- The `data` of `user.update`: the columns that are given. -/
structure UserUpdateInput where
  status : Option UserStatus := none
  emailVerifiedAt : Option (Option Time) := none
  twoFactorEnabled : Option Bool := none
  twoFactorSecretEnc : Option (Option String) := none
  failedLoginAttempts : Option ℤ := none
  lockedUntil : Option (Option Time) := none
  lastLoginAt : Option (Option Time) := none
  deriving DecidableEq, Repr

/-- The row after `user.update`. -/
def User.updated (u : User) (data : UserUpdateInput) : User :=
  { u with
    status := data.status.getD u.status
    emailVerifiedAt := data.emailVerifiedAt.getD u.emailVerifiedAt
    twoFactorEnabled := data.twoFactorEnabled.getD u.twoFactorEnabled
    twoFactorSecretEnc := data.twoFactorSecretEnc.getD u.twoFactorSecretEnc
    failedLoginAttempts := data.failedLoginAttempts.getD u.failedLoginAttempts
    lockedUntil := data.lockedUntil.getD u.lockedUntil
    lastLoginAt := data.lastLoginAt.getD u.lastLoginAt }

/-- The row after the update of the row with this id. -/
def User.updatedIf (id : String) (data : UserUpdateInput) (u : User) : User :=
  if u.id = id then u.updated data else u

section Rows

variable (id : String) (data : UserUpdateInput) (u : User)

@[simp] theorem updatedIf_id : (u.updatedIf id data).id = u.id := by
  unfold User.updatedIf; split_ifs <;> rfl

@[simp] theorem updatedIf_email : (u.updatedIf id data).email = u.email := by
  unfold User.updatedIf; split_ifs <;> rfl

variable {id data u}

theorem updatedIf_of_ne (h : u.id ≠ id) : u.updatedIf id data = u := if_neg h

theorem updatedIf_of_eq (h : u.id = id) : u.updatedIf id data = u.updated data := if_pos h

end Rows

/-! ## Tables -/

/-- Users with their two unique constraints. -/
structure UserTable extends Table User.id where
  uniqueEmail : (rows.map User.email).Nodup

namespace UserTable

variable {t t' : UserTable} {u v : User}

instance : Membership User UserTable := ⟨fun t u => u ∈ t.toTable⟩

theorem mem_def : u ∈ t ↔ u ∈ t.rows := Iff.rfl

theorem eq_of_id (h : u ∈ t) (h' : v ∈ t) (hid : u.id = v.id) : u = v :=
  t.toTable.eq_of_key h h' hid

theorem eq_of_email (h : u ∈ t) (h' : v ∈ t) (he : u.email = v.email) : u = v :=
  List.inj_on_of_nodup_map t.uniqueEmail h h' he

/-- Add a row, unless its id or its email is taken. -/
def insert? (t : UserTable) (u : User) : Option UserTable :=
  if hid : u.id ∈ t.rows.map User.id then none
  else if he : u.email ∈ t.rows.map User.email then none
  else some {
    rows := u :: t.rows
    nodup := by rw [List.map_cons]; exact List.nodup_cons.mpr ⟨hid, t.nodup⟩
    uniqueEmail := by rw [List.map_cons]; exact List.nodup_cons.mpr ⟨he, t.uniqueEmail⟩ }

theorem insert?_eq_some (h : t.insert? u = some t') :
    (∀ v ∈ t, v.id ≠ u.id) ∧ (∀ v ∈ t, v.email ≠ u.email) ∧ ∀ v, v ∈ t' ↔ v = u ∨ v ∈ t := by
  unfold insert? at h
  split_ifs at h with hid he
  refine ⟨fun v hv heq => hid (heq ▸ List.mem_map_of_mem hv),
    fun v hv heq => he (heq ▸ List.mem_map_of_mem hv), fun v => ?_⟩
  rw [← Option.some.inj h]
  exact List.mem_cons

/-- Rewrite the row with this id. -/
def update (t : UserTable) (id : String) (data : UserUpdateInput) : UserTable where
  rows := t.rows.map (User.updatedIf id data)
  nodup := by
    rw [List.map_map, show User.id ∘ User.updatedIf id data = User.id from
      funext (updatedIf_id id data)]
    exact t.nodup
  uniqueEmail := by
    rw [List.map_map, show User.email ∘ User.updatedIf id data = User.email from
      funext (updatedIf_email id data)]
    exact t.uniqueEmail

theorem mem_update {id : String} {data : UserUpdateInput} :
    u ∈ t.update id data ↔ ∃ v ∈ t, u = v.updatedIf id data := by
  simp only [mem_def, update, List.mem_map, eq_comm]

/-- Look an email up. -/
def findEmail? (t : UserTable) (email : String) : Option User :=
  t.rows.find? fun u => u.email = email

theorem findEmail?_eq_some_iff {email : String} :
    t.findEmail? email = some u ↔ u ∈ t ∧ u.email = email := by
  constructor
  · intro h
    exact ⟨List.mem_of_find?_eq_some h, by simpa using List.find?_some h⟩
  · rintro ⟨hu, rfl⟩
    cases h : t.findEmail? u.email with
    | none =>
      have hne := List.find?_eq_none.mp h u hu
      simp at hne
    | some v =>
      have hv : v.email = u.email := by simpa using List.find?_some h
      rw [eq_of_email (List.mem_of_find?_eq_some h) hu hv]

end UserTable

/-- Verification tokens with their two unique constraints. -/
structure VerificationTable extends Table EmailVerificationToken.id where
  uniqueHash : (rows.map EmailVerificationToken.tokenHash).Nodup

namespace VerificationTable

variable {t t' : VerificationTable} {x y : EmailVerificationToken}

instance : Membership EmailVerificationToken VerificationTable := ⟨fun t x => x ∈ t.toTable⟩

theorem mem_def : x ∈ t ↔ x ∈ t.rows := Iff.rfl

/-- Add a row, unless its id or its hash is taken. -/
def insert? (t : VerificationTable) (x : EmailVerificationToken) : Option VerificationTable :=
  if hid : x.id ∈ t.rows.map EmailVerificationToken.id then none
  else if hh : x.tokenHash ∈ t.rows.map EmailVerificationToken.tokenHash then none
  else some {
    rows := x :: t.rows
    nodup := by rw [List.map_cons]; exact List.nodup_cons.mpr ⟨hid, t.nodup⟩
    uniqueHash := by rw [List.map_cons]; exact List.nodup_cons.mpr ⟨hh, t.uniqueHash⟩ }

/-- The row after `emailVerificationToken.update`. -/
def consumedIf (id : String) (at_ : Time) (x : EmailVerificationToken) : EmailVerificationToken :=
  if x.id = id then { x with consumedAt := some at_ } else x

theorem consumedIf_id (id : String) (at_ : Time) (x : EmailVerificationToken) :
    (consumedIf id at_ x).id = x.id := by
  unfold consumedIf; split_ifs <;> rfl

theorem consumedIf_tokenHash (id : String) (at_ : Time) (x : EmailVerificationToken) :
    (consumedIf id at_ x).tokenHash = x.tokenHash := by
  unfold consumedIf; split_ifs <;> rfl

/-- Set `consumedAt` of the row with this id. -/
def consume (t : VerificationTable) (id : String) (at_ : Time) : VerificationTable where
  rows := t.rows.map (consumedIf id at_)
  nodup := by
    rw [List.map_map, show EmailVerificationToken.id ∘ consumedIf id at_ =
      EmailVerificationToken.id from funext (consumedIf_id id at_)]
    exact t.nodup
  uniqueHash := by
    rw [List.map_map, show EmailVerificationToken.tokenHash ∘ consumedIf id at_ =
      EmailVerificationToken.tokenHash from funext (consumedIf_tokenHash id at_)]
    exact t.uniqueHash

end VerificationTable

/-- The tables of `AuthService` besides the refresh tokens. -/
structure Database where
  users : UserTable
  verifications : VerificationTable
  auditLogs : List AuditLog

/-! ## Queries -/

/-- The `where` of `user.findUnique`. -/
inductive UserWhere where
  | email (email : String)
  | id (id : String)
  deriving DecidableEq, Repr

/-- The row is the one that the `where` names. -/
def UserWhere.Selects : UserWhere → User → Prop
  | .email e, u => u.email = e
  | .id i, u => u.id = i

/-- `user.findUnique` on the table. -/
def UserTable.findUnique (t : UserTable) : UserWhere → Option User
  | .email email => t.findEmail? email
  | .id id => t.find? id

/-- The `data` of `emailVerificationToken.create`. -/
structure VerificationCreateInput where
  userId : String
  tokenHash : String
  expiresAt : Time
  deriving DecidableEq, Repr

/-- The row that `emailVerificationToken.create` stores; `id` is its `cuid()`. -/
def VerificationCreateInput.row (id : String) (d : VerificationCreateInput) :
    EmailVerificationToken :=
  ⟨id, d.userId, d.tokenHash, d.expiresAt, none⟩

/-- The awaited Prisma calls. -/
inductive AccountCall where
  | userFindUnique (where_ : UserWhere)
  | userCreate (email passwordHash : String)
  | userUpdate (id : String) (data : UserUpdateInput)
  | verificationFindUnique (tokenHash : String)
  | verificationCreate (data : VerificationCreateInput)
  /-- The `$transaction` of `consume`: `consumedAt` of the token, then `data` of its user. -/
  | consume (tokenId : String) (consumedAt : Time) (userId : String) (data : UserUpdateInput)
  | auditLogCreate (data : AuditLog)
  deriving DecidableEq, Repr

/-- What a call resolves to. -/
def AccountCall.Ret : AccountCall → Type
  | .userFindUnique _ => Option User
  | .userCreate .. => User
  | .userUpdate .. => User
  | .verificationFindUnique _ => Option EmailVerificationToken
  | .verificationCreate _ => EmailVerificationToken
  | .consume .. => Unit
  | .auditLogCreate _ => Unit

/-- The result of a call and the tables after it. A failed write leaves them as they were; `now` is
    the `createdAt` of an audit row and `id` the `cuid()` that a `create` generates. -/
def AccountCall.exec (now : Time) (id : String) (db : Database) :
    (c : AccountCall) → Except PrismaErrorCode c.Ret × Database
  | .userFindUnique w => (.ok (db.users.findUnique w), db)
  | .userCreate email passwordHash =>
    match db.users.insert? (.created id email passwordHash) with
    | some users => (.ok (.created id email passwordHash), { db with users })
    | none => (.error .uniqueConstraint, db)
  | .userUpdate target data =>
    match db.users.find? target with
    | some u => (.ok (u.updated data), { db with users := db.users.update target data })
    | none => (.error .recordNotFound, db)
  | .verificationFindUnique h => (.ok (db.verifications.rows.find? fun x => x.tokenHash = h), db)
  | .verificationCreate d =>
    match db.verifications.insert? (d.row id) with
    | some verifications => (.ok (d.row id), { db with verifications })
    | none => (.error .uniqueConstraint, db)
  | .consume tokenId consumedAt userId data =>
    match db.verifications.find? tokenId, db.users.find? userId with
    | some _, some _ => (.ok (), { db with
        verifications := db.verifications.consume tokenId consumedAt
        users := db.users.update userId data })
    | _, _ => (.error .recordNotFound, db)
  | .auditLogCreate data =>
    (.ok (), { db with auditLogs := { data with createdAt := now } :: db.auditLogs })

/-- What a call does to a user that is stored already. -/
def AccountCall.onUser : AccountCall → User → User
  | .userUpdate id data => User.updatedIf id data
  | .consume _ _ userId data => User.updatedIf userId data
  | _ => id

/-- The user that a call adds. -/
def AccountCall.newUser (id : String) : AccountCall → Option User
  | .userCreate email passwordHash => some (.created id email passwordHash)
  | _ => none

/-! ## What the queries do -/

section Exec

variable {now : Time} {id : String} {db db' : Database} {code : PrismaErrorCode} {u : User}

@[simp] theorem onUser_id (c : AccountCall) (u : User) : (c.onUser u).id = u.id := by
  cases c with
  | userUpdate target data => exact updatedIf_id target data u
  | consume tokenId at_ userId data => exact updatedIf_id userId data u
  | _ => rfl

@[simp] theorem onUser_email (c : AccountCall) (u : User) : (c.onUser u).email = u.email := by
  cases c with
  | userUpdate target data => exact updatedIf_email target data u
  | consume tokenId at_ userId data => exact updatedIf_email userId data u
  | _ => rfl

theorem exec_error {c : AccountCall} (h : c.exec now id db = (.error code, db')) : db' = db := by
  cases c with
  | userFindUnique w => cases h
  | userCreate email passwordHash =>
    simp only [AccountCall.exec] at h
    split at h <;> cases h
    rfl
  | userUpdate target data =>
    simp only [AccountCall.exec] at h
    split at h <;> cases h
    rfl
  | verificationFindUnique hash => cases h
  | verificationCreate d =>
    simp only [AccountCall.exec] at h
    split at h <;> cases h
    rfl
  | consume tokenId at_ userId data =>
    simp only [AccountCall.exec] at h
    split at h <;> cases h
    rfl
  | auditLogCreate data => cases h

/-- The users after a call that succeeded. -/
theorem mem_users {c : AccountCall} {r : c.Ret} (h : c.exec now id db = (.ok r, db')) :
    u ∈ db'.users ↔ c.newUser id = some u ∨ ∃ v ∈ db.users, u = c.onUser v := by
  have hsame : db'.users = db.users → c.newUser id = none → (∀ v, c.onUser v = v) →
      (u ∈ db'.users ↔ c.newUser id = some u ∨ ∃ v ∈ db.users, u = c.onUser v) := by
    intro husers hnew hon
    simp [husers, hnew, hon]
  cases c with
  | userFindUnique w =>
    cases h
    exact hsame rfl rfl fun _ => rfl
  | userCreate email passwordHash =>
    simp only [AccountCall.exec] at h
    split at h
    · rename_i users husers
      obtain ⟨-, -, hmem⟩ := UserTable.insert?_eq_some husers
      cases h
      rw [hmem]
      simp [AccountCall.newUser, AccountCall.onUser, eq_comm]
    · cases h
  | userUpdate target data =>
    simp only [AccountCall.exec] at h
    split at h <;> cases h
    simp [AccountCall.newUser, AccountCall.onUser, UserTable.mem_update]
  | verificationFindUnique hash =>
    cases h
    exact hsame rfl rfl fun _ => rfl
  | verificationCreate d =>
    simp only [AccountCall.exec] at h
    split at h <;> cases h
    exact hsame rfl rfl fun _ => rfl
  | consume tokenId at_ userId data =>
    simp only [AccountCall.exec] at h
    split at h <;> cases h
    simp [AccountCall.newUser, AccountCall.onUser, UserTable.mem_update]
  | auditLogCreate data =>
    cases h
    exact hsame rfl rfl fun _ => rfl

/-- A lookup returns the stored user. -/
theorem exec_findUser {w : UserWhere} {r : Option User}
    (h : (AccountCall.userFindUnique w).exec now id db = (.ok r, db')) :
    db' = db ∧ ∀ u, r = some u ↔ u ∈ db.users ∧ w.Selects u := by
  cases h
  refine ⟨rfl, fun u => ?_⟩
  cases w with
  | email email => exact UserTable.findEmail?_eq_some_iff
  | id id => exact Table.find?_eq_some_iff

/-- An update that succeeds finds its row. -/
theorem exec_update_found {target : String} {data : UserUpdateInput}
    (h : (AccountCall.userUpdate target data).exec now id db = (.ok u, db')) :
    ∃ v ∈ db.users, v.id = target := by
  simp only [AccountCall.exec] at h
  split at h
  · rename_i v hv
    obtain ⟨hmem, hid⟩ := Table.find?_eq_some_iff.mp hv
    exact ⟨v, hmem, hid⟩
  · cases h

theorem exec_findVerification {hash : String} {x : EmailVerificationToken}
    (h : (AccountCall.verificationFindUnique hash).exec now id db = (.ok (some x), db')) :
    x ∈ db.verifications ∧ x.tokenHash = hash := by
  have hfind : (db.verifications.rows.find? fun x => x.tokenHash = hash) = some x :=
    Except.ok.inj (Prod.mk.inj h).1
  exact ⟨List.mem_of_find?_eq_some hfind, by simpa using List.find?_some hfind⟩

end Exec

end CryptoPay.Accounts
