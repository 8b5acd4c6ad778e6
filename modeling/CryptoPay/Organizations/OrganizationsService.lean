import CryptoPay.Accounts.UserTable
import CryptoPay.Api.Invoices
import CryptoPay.Api.Schemas
import CryptoPay.Async.History

/-!
# `OrganizationsService`

`create` and `inviteMember` of
`apps/api/src/organizations/organizations.service.ts`, behind
`OrganizationScopeGuard` and `RolesGuard`
(`apps/api/src/common/guards/organization-scope.guard.ts`, `roles.guard.ts`) as
`organizations.controller.ts` has them, on the tables `Organization` and
`Membership` of `schema.prisma` (lines 147–184) and the users of
`Accounts.UserTable`. `SessionAuthGuard` and `CsrfGuard` only decide whether a
call is made at all. The columns that nothing reads are left out, and so is the
uniqueness of `Membership.id`, by which nothing is looked up.

Results:
* `exec_tables`: what a query does to the organizations and the memberships.
* `respond_tables`: the same of a request, whatever becomes of it.
-/

namespace CryptoPay.Organizations

open Async Data

open Api (RequestContext RecordAuditEventInput)

/-! ## Tables -/

/-- `MembershipRole` (schema.prisma, lines 31–35; `MEMBERSHIP_ROLES` of roles.ts). -/
inductive MembershipRole where
  | owner | admin | member
  deriving DecidableEq, Repr

def MembershipRole.toString : MembershipRole → String
  | .owner => "OWNER"
  | .admin => "ADMIN"
  | .member => "MEMBER"

/-- `model Organization` (schema.prisma, lines 147–167). -/
structure Organization where
  id : String
  name : String
  slug : String
  deriving DecidableEq, Repr

/-- `model Membership` (schema.prisma, lines 169–184). -/
structure MembershipRow where
  id : String
  userId : String
  organizationId : String
  role : MembershipRole
  deriving DecidableEq, Repr

/-- `@@unique([userId, organizationId])`. -/
def MembershipRow.key (m : MembershipRow) : String × String := (m.userId, m.organizationId)

/-- Organizations with their two unique constraints. -/
structure OrganizationTable extends Table Organization.id where
  uniqueSlug : (rows.map Organization.slug).Nodup

/-- Add a row, unless its id or its slug is taken. -/
def OrganizationTable.insert? (t : OrganizationTable) (o : Organization) :
    Option OrganizationTable :=
  if hid : o.id ∈ t.rows.map Organization.id then none
  else if hs : o.slug ∈ t.rows.map Organization.slug then none
  else some {
    rows := o :: t.rows
    nodup := by rw [List.map_cons]; exact List.nodup_cons.mpr ⟨hid, t.nodup⟩
    uniqueSlug := by rw [List.map_cons]; exact List.nodup_cons.mpr ⟨hs, t.uniqueSlug⟩ }

theorem OrganizationTable.insert?_eq_some {t t' : OrganizationTable} {o : Organization}
    (h : t.insert? o = some t') : (∀ x ∈ t.rows, x.id ≠ o.id) ∧ t'.rows = o :: t.rows := by
  unfold insert? at h
  split_ifs at h with hid hs
  rw [← Option.some.inj h]
  exact ⟨fun x hx heq => hid (heq ▸ List.mem_map_of_mem hx), rfl⟩

abbrev MembershipTable := Table MembershipRow.key

structure Database where
  users : Accounts.UserTable
  organizations : OrganizationTable
  memberships : MembershipTable
  auditLogs : List AuditLog

/-! ## Queries -/

/-- `select: { organizationId: true, role: true }`. -/
structure Scope where
  organizationId : String
  role : MembershipRole
  deriving DecidableEq, Repr

def MembershipRow.scope (m : MembershipRow) : Scope := ⟨m.organizationId, m.role⟩

/-- The awaited Prisma calls. -/
inductive OrganizationCall where
  | organizationFindUnique (slug : String)
  /-- With `memberships: { create: { userId, role: 'OWNER' } }`. -/
  | organizationCreate (name slug userId : String)
  | userFindUnique (email : String)
  | membershipFindMany (userId : String)
  /-- `where` the pair of ids, `create` with the role and `update` of the role. -/
  | membershipUpsert (userId organizationId : String) (role : MembershipRole)
  | auditLogCreate (data : AuditLog)
  deriving DecidableEq, Repr

/-- What a call resolves to. -/
def OrganizationCall.Ret : OrganizationCall → Type
  | .organizationFindUnique _ => Option Organization
  | .organizationCreate .. => Organization
  | .userFindUnique _ => Option Accounts.User
  | .membershipFindMany _ => List Scope
  | .membershipUpsert .. => MembershipRow
  | .auditLogCreate _ => Unit

/-- The row with its role set. -/
def MembershipRow.withRole (role : MembershipRole) (m : MembershipRow) : MembershipRow :=
  { m with role }

theorem withRole_key (role : MembershipRole) (m : MembershipRow) : (m.withRole role).key = m.key := rfl

/-- The result of a call and the tables after it. A failed write leaves them as they were; `id` is
    the `cuid()` that a `create` generates. -/
def OrganizationCall.exec (now : Time) (id : String) (db : Database) :
    (c : OrganizationCall) → Except PrismaErrorCode c.Ret × Database
  | .organizationFindUnique slug =>
    (.ok (db.organizations.rows.find? fun o => o.slug = slug), db)
  | .organizationCreate name slug userId =>
    match db.users.find? userId with
    | none => (.error .foreignKey, db)
    | some _ =>
      match db.organizations.insert? ⟨id, name, slug⟩,
        db.memberships.insert? ⟨id, userId, id, .owner⟩ with
      | some organizations, some memberships =>
        (.ok ⟨id, name, slug⟩, { db with organizations, memberships })
      | _, _ => (.error .uniqueConstraint, db)
  | .userFindUnique email => (.ok (db.users.findUnique (.email email)), db)
  | .membershipFindMany userId =>
    (.ok ((db.memberships.filter fun m => m.userId = userId).map MembershipRow.scope), db)
  | .membershipUpsert userId organizationId role =>
    match db.memberships.find? (userId, organizationId) with
    | some m => (.ok (m.withRole role), { db with
        memberships := db.memberships.modify (userId, organizationId) (.withRole role)
          (withRole_key role) })
    | none =>
      match db.users.find? userId, db.organizations.find? organizationId,
        db.memberships.insert? ⟨id, userId, organizationId, role⟩ with
      | some _, some _, some memberships =>
        (.ok ⟨id, userId, organizationId, role⟩, { db with memberships })
      | _, _, _ => (.error .foreignKey, db)
  | .auditLogCreate data =>
    (.ok (), { db with auditLogs := { data with createdAt := now } :: db.auditLogs })

/-! ## The service -/

/-- A request of the service: a Prisma call, or `randomBytes(3).toString('hex')`. -/
inductive Op where
  | db (call : OrganizationCall)
  | randomHex
  deriving DecidableEq, Repr

/-- The requests with their replies. -/
abbrev calls : Signature where
  Op := Op
  Ret
    | .db call => Except PrismaErrorCode call.Ret
    | .randomHex => String

/-- An asynchronous method. -/
abbrev Action (α : Type) := Prog calls Error α

/-- `await this.prisma.…`. -/
def prisma (call : OrganizationCall) : Action call.Ret :=
  .request (S := calls) (.db call) (Except.mapError Error.prisma)

/-- `AuditService.record` (audit.service.ts, lines 21–37). -/
def record (input : RecordAuditEventInput) : Action Unit := prisma (.auditLogCreate input.row)

/-- `/[a-z0-9]/`. -/
def isSlugChar (c : Char) : Bool := ('a' ≤ c && c ≤ 'z') || ('0' ≤ c && c ≤ '9')

/-- `.replace(/[^a-z0-9]+/g, '-')`; `inRun` says that the character before was replaced. -/
def hyphenate (inRun : Bool) : List Char → List Char
  | [] => []
  | c :: cs =>
    if isSlugChar c then c :: hyphenate false cs
    else if inRun then hyphenate true cs
    else '-' :: hyphenate true cs

/-- `.replace(/^-+|-+$/g, '')`. -/
def trimHyphens (cs : List Char) : List Char :=
  ((cs.dropWhile (· = '-')).reverse.dropWhile (· = '-')).reverse

/-- `slugify` (lines 17–25); `lower` is `String.prototype.toLowerCase`. -/
def slugify (lower : String → String) (name : String) : String :=
  let slug := trimHyphens (hyphenate false (Api.trim (lower name)).toList)
  if slug = [] then "org" else String.ofList slug

/-- The loop of `create` (lines 43–49), with the number of tries that remain. -/
def freeSlug (baseSlug : String) : ℕ → String → Action String
  | tries, slug => do
    match ← prisma (.organizationFindUnique slug) with
    | none => pure slug
    | some _ =>
      let hex ← .perform (S := calls) .randomHex
      match tries with
      | 0 =>
        .throw (.conflict "Could not generate a unique organization slug, try a different name")
      | tries + 1 => freeSlug baseSlug tries (baseSlug ++ "-" ++ hex)

/-- The audit event of a member of an organization. -/
def memberEvent (organizationId actorId action resourceType resourceId : String)
    (metadata : Option (List (String × String))) (ctx : RequestContext) :
    RecordAuditEventInput where
  organizationId := some organizationId
  actorId := some actorId
  actorType := "user"
  action := action
  resourceType := resourceType
  resourceId := some resourceId
  ip := some ctx.ip
  userAgent := ctx.userAgent
  metadata := metadata

/-- `create` (lines 34–70). -/
def create (lower : String → String) (userId name : String) (ctx : RequestContext) :
    Action Organization := do
  let baseSlug := slugify lower name
  let slug ← freeSlug baseSlug 5 baseSlug
  let organization ← prisma (.organizationCreate name slug userId)
  record (memberEvent organization.id userId "organization.create" "organization" organization.id
    none ctx)
  pure organization

/-- `InviteMemberInput`: what `inviteMemberSchema` (organization.schemas.ts, lines 18–21) returns. -/
structure InviteMemberInput where
  email : String
  role : MembershipRole
  deriving DecidableEq, Repr

/-- `role: z.enum(MEMBERSHIP_ROLES).default('MEMBER')`, with an email that is accepted. -/
def inviteMemberSchema (email : String) (role : Option MembershipRole) : InviteMemberInput :=
  ⟨email, role.getD .member⟩

/-- `inviteMember` (lines 119–148). -/
def inviteMember (organizationId : String) (input : InviteMemberInput) (actorId : String)
    (ctx : RequestContext) : Action MembershipRow := do
  match ← prisma (.userFindUnique input.email) with
  | none => .throw (.forbidden "No CryptoPay account exists for this email yet")
  | some user =>
    let membership ← prisma (.membershipUpsert user.id organizationId input.role)
    record (memberEvent organizationId actorId "membership.invite" "membership" membership.id
      (some [("invitedEmail", input.email), ("role", input.role.toString)]) ctx)
    pure membership

/-! ## The guards -/

/-- `OrganizationScopeGuard.canActivate` after its query (organization-scope.guard.ts,
    lines 29–52): the membership of the organization that is asked for, or of the only one. -/
def scopeOf (requestedOrgId : Option String) (memberships : List Scope) : Except Error Scope :=
  if memberships = [] then .error (.forbidden "You do not belong to any organization yet")
  else
    let targetOrgId :=
      if requestedOrgId.getD "" ≠ "" then requestedOrgId
      else match memberships with
        | [only] => some only.organizationId
        | _ => none
    match targetOrgId with
    | none =>
      .error (.forbidden "You belong to multiple organizations — specify X-Organization-Id")
    | some targetOrgId =>
      match memberships.find? fun m => m.organizationId = targetOrgId with
      | none => .error (.forbidden "You do not have access to this organization")
      | some membership => .ok membership

/-- `OrganizationScopeGuard.canActivate` (lines 15–53). -/
def organizationScope (userId headerOrgId : Option String) : Action (String × Scope) :=
  match userId with
  | none => .throw (.unauthorized "Authentication required")
  | some userId =>
    if userId = "" then .throw (.unauthorized "Authentication required")
    else do
      let memberships ← prisma (.membershipFindMany userId)
      let scope ← .ofExcept (scopeOf headerOrgId memberships)
      pure (userId, scope)

/-- `RolesGuard.canActivate` (roles.guard.ts, lines 13–26) with these roles required. -/
def rolesGuard (required : List MembershipRole) (scope : Scope) : Action Unit :=
  if required.contains scope.role then pure ()
  else .throw (.forbidden "Insufficient role for this action")

/-- `@Roles('OWNER', 'ADMIN')` (organizations.controller.ts, line 68). -/
def inviteRoles : List MembershipRole := [.owner, .admin]

/-! ## The calls -/

/-- A request to `OrganizationsController`: `userId` is what `SessionAuthGuard` has set. -/
inductive Job where
  | create (userId name : String) (ctx : RequestContext)
  | inviteMember (userId headerOrgId : Option String) (email : String)
      (role : Option MembershipRole) (ctx : RequestContext)

instance : Inhabited Job := ⟨.inviteMember none none "" none ⟨"", none⟩⟩

/-- The program of a request (organizations.controller.ts, lines 30–38 and 66–76). -/
def launch (lower : String → String) : Job → Action Unit
  | .create userId name ctx => do
    let _ ← create lower userId name ctx
    pure ()
  | .inviteMember userId headerOrgId email role ctx => do
    let (actorId, scope) ← organizationScope userId headerOrgId
    rolesGuard inviteRoles scope
    let _ ← inviteMember scope.organizationId (inviteMemberSchema email role) actorId ctx
    pure ()

/-- The requests, any number of them in flight. -/
def work (lower : String → String) : Workload calls Error Job where
  launch := launch lower
  compatible _ _ := true
  symm _ _ := rfl

/-! ## The machine -/

structure State where
  db : Database
  now : Time

/-- What a request leaves open: a text (an id or random characters), or that the query does not
    reach the database or loses its reply. -/
inductive Input where
  | text (s : String)
  | refused
  | lost (id : String)
  deriving DecidableEq, Repr

def respond (s : State) : (op : Op) → Input → Option (calls.Ret op × State)
  | .db call, .text id =>
    some ((call.exec s.now id s.db).1, { s with db := (call.exec s.now id s.db).2 })
  | .db _, .refused => some (.error .connection, s)
  | .db call, .lost id =>
    some (.error .connection, { s with db := (call.exec s.now id s.db).2 })
  | .randomHex, .text hex => some (hex, s)
  | _, _ => none

/-- What happens between requests: time passes, and users register. -/
inductive Act where
  | elapse (ms : ℕ)
  | addUser (u : Accounts.User)

def machine : Machine calls State Input Act where
  respond _ := respond
  env s
    | .elapse ms => some { s with now := s.now + ms }
    | .addUser u => (s.db.users.insert? u).map fun users => { s with db := { s.db with users } }
  restarts _ := false

/-! ## What the queries do -/

/-- How a query leaves the organizations and the memberships. -/
inductive Tables (db db' : Database) : OrganizationCall → Prop where
  | same {call : OrganizationCall} (ho : db'.organizations = db.organizations)
      (hm : db'.memberships = db.memberships) : Tables db db' call
  | created {name slug userId : String} (id : String) (fresh : ∀ o ∈ db.organizations.rows, o.id ≠ id)
      (ho : db'.organizations.rows = ⟨id, name, slug⟩ :: db.organizations.rows)
      (hm : ∀ m, m ∈ db'.memberships ↔ m = ⟨id, userId, id, .owner⟩ ∨ m ∈ db.memberships) :
      Tables db db' (.organizationCreate name slug userId)
  | upserted {userId organizationId : String} {role : MembershipRole}
      (ho : db'.organizations = db.organizations)
      (row : ∃ m ∈ db'.memberships, m.key = (userId, organizationId) ∧ m.role = role)
      (hm : ∀ m, m.key ≠ (userId, organizationId) → (m ∈ db'.memberships ↔ m ∈ db.memberships)) :
      Tables db db' (.membershipUpsert userId organizationId role)

section Exec

variable {now : Time} {id : String} {db : Database}

/-- What a query does to the organizations and the memberships. -/
theorem exec_tables (call : OrganizationCall) : Tables db (call.exec now id db).2 call := by
  cases call with
  | organizationFindUnique slug => exact .same rfl rfl
  | userFindUnique email => exact .same rfl rfl
  | membershipFindMany userId => exact .same rfl rfl
  | auditLogCreate data => exact .same rfl rfl
  | organizationCreate name slug userId =>
    simp only [OrganizationCall.exec]
    split
    · exact .same rfl rfl
    · split
      · rename_i organizations memberships ho hm
        obtain ⟨hfresh, hrows⟩ := OrganizationTable.insert?_eq_some ho
        exact .created id hfresh hrows (Table.insert?_eq_some hm).2
      · exact .same rfl rfl
  | membershipUpsert userId organizationId role =>
    simp only [OrganizationCall.exec]
    split
    · rename_i m hfind
      obtain ⟨hmem, hkey⟩ := Table.find?_eq_some_iff.mp hfind
      refine .upserted rfl ⟨m.withRole role, ?_, hkey, rfl⟩ fun x hx => ?_
      · show m.withRole role ∈ db.memberships.modify _ _ (withRole_key role)
        exact Table.mem_modify.mpr ⟨m, hmem, (if_pos hkey).symm⟩
      · show x ∈ db.memberships.modify _ _ (withRole_key role) ↔ _
        rw [Table.mem_modify]
        constructor
        · rintro ⟨y, hy, rfl⟩
          by_cases hk : y.key = (userId, organizationId)
          · rw [if_pos hk] at hx
            exact absurd hk hx
          · rw [if_neg hk]
            exact hy
        · exact fun hmem => ⟨x, hmem, (if_neg hx).symm⟩
    · split
      · rename_i memberships _ _ hm
        obtain ⟨-, hiff⟩ := Table.insert?_eq_some hm
        refine .upserted rfl ⟨_, (hiff _).mpr (.inl rfl), rfl, rfl⟩ fun x hx => ?_
        exact (hiff x).trans (or_iff_right fun heq => hx (heq ▸ rfl))
      · exact .same rfl rfl

/-- The same of a request, whatever becomes of it. -/
theorem respond_tables {s s' : State} {op : Op} {i : Input} {r : calls.Ret op}
    (h : respond s op i = some (r, s')) :
    (s'.db.organizations = s.db.organizations ∧ s'.db.memberships = s.db.memberships) ∨
      ∃ call, op = .db call ∧ Tables s.db s'.db call := by
  cases op with
  | db call =>
    refine .inr ⟨call, rfl, ?_⟩
    cases i with
    | text id =>
      cases h
      exact exec_tables call
    | refused =>
      cases h
      exact .same rfl rfl
    | lost id =>
      cases h
      exact exec_tables call
  | randomHex =>
    cases i <;> cases h
    exact .inl ⟨rfl, rfl⟩

end Exec

end CryptoPay.Organizations
