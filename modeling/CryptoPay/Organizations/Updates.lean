import CryptoPay.Async.Journal
import CryptoPay.Organizations.OrganizationsService

/-!
# `OrganizationsService.update`, and what the service records

`update` of `apps/api/src/organizations/organizations.service.ts` (lines 76–109), which
awaits one query more than `create` and `inviteMember`; the three methods that write, and
which of their queries write and which one records it.

Results:
* `adminJournal`: what a query does to the tables, apart from the audit log.
* `admin_orderly`: each method records what it writes.
-/

namespace CryptoPay.Organizations

open Async Data

open Api (RequestContext RecordAuditEventInput)

/-! ## The query -/

/-- The row after `organization.update`: absent fields are left as they are. -/
def Organization.updated (name slug : Option String) (o : Organization) : Organization :=
  { o with name := name.getD o.name, slug := slug.getD o.slug }

/-- `organization.update({ where: { id }, data })` on the rows, unless another one has the slug. -/
def OrganizationTable.update? (t : OrganizationTable) (id : String) (name slug : Option String) :
    Option OrganizationTable :=
  if h : ∃ o ∈ t.rows, o.id ≠ id ∧ slug = some o.slug then none
  else some {
    rows := t.rows.map fun o => if o.id = id then o.updated name slug else o
    nodup := by
      have hkey : (Organization.id ∘ fun o => if o.id = id then o.updated name slug else o) =
          Organization.id := by
        funext o
        show (if o.id = id then o.updated name slug else o).id = o.id
        split_ifs <;> rfl
      rw [List.map_map, hkey]
      exact t.nodup
    uniqueSlug := by
      rw [List.map_map]
      refine List.Nodup.map_on (fun x hx y hy heq => ?_) (List.Nodup.of_map _ t.nodup)
      have hslug : ∀ z : Organization, z.id = id →
          (if z.id = id then z.updated name slug else z).slug = slug.getD z.slug := by
        intro z hz
        rw [if_pos hz]
        rfl
      have hnone : ∀ z ∈ t.rows, z.id ≠ id → ∀ w ∈ t.rows, w.id = id → slug.getD w.slug = z.slug →
          w = z := by
        intro z hz hzid w hw _ heq
        cases hs : slug with
        | some u =>
          rw [hs] at heq
          exact absurd ⟨z, hz, hzid, hs.trans (congrArg some heq)⟩ h
        | none =>
          rw [hs] at heq
          exact List.inj_on_of_nodup_map t.uniqueSlug hw hz heq
      by_cases hxid : x.id = id <;> by_cases hyid : y.id = id
      · exact List.inj_on_of_nodup_map t.nodup hx hy (hxid.trans hyid.symm)
      · simp only [Function.comp_apply, hslug x hxid, if_neg hyid] at heq
        exact hnone y hy hyid x hx hxid heq
      · simp only [Function.comp_apply, hslug y hyid, if_neg hxid] at heq
        exact (hnone x hx hxid y hy hyid heq.symm).symm
      · simp only [Function.comp_apply, if_neg hxid, if_neg hyid] at heq
        exact List.inj_on_of_nodup_map t.uniqueSlug hx hy heq }

/-- A request of the three methods. -/
inductive AdminOp where
  | base (op : Op)
  | organizationUpdate (id : String) (name slug : Option String)

/-- The requests with their replies. -/
abbrev adminCalls : Signature where
  Op := AdminOp
  Ret
    | .base op => calls.Ret op
    | .organizationUpdate .. => Except PrismaErrorCode Organization

/-- The result of the query and the tables after it. -/
def organizationUpdate (db : Database) (id : String) (name slug : Option String) :
    Except PrismaErrorCode Organization × Database :=
  match db.organizations.find? id with
  | none => (.error .recordNotFound, db)
  | some o =>
    match db.organizations.update? id name slug with
    | none => (.error .uniqueConstraint, db)
    | some organizations => (.ok (o.updated name slug), { db with organizations })

/-- What becomes of a request. -/
def adminRespond (s : State) : (op : AdminOp) → Input → Option (adminCalls.Ret op × State)
  | .base op, i => respond s op i
  | .organizationUpdate id name slug, .text _ =>
    some ((organizationUpdate s.db id name slug).1,
      { s with db := (organizationUpdate s.db id name slug).2 })
  | .organizationUpdate .., .refused => some (.error .connection, s)
  | .organizationUpdate id name slug, .lost _ =>
    some (.error .connection, { s with db := (organizationUpdate s.db id name slug).2 })

def adminMachine : Machine adminCalls State Input Act where
  respond _ := adminRespond
  env := machine.env
  restarts := machine.restarts

/-! ## The method -/

/-- An asynchronous method. -/
abbrev AdminAction (α : Type) := Prog adminCalls Error α

/-- The requests of `create` and `inviteMember` among all. -/
def baseCalls : calls.Hom adminCalls := ⟨.base, fun _ r => r⟩

/-- `UpdateOrganizationInput`: what `updateOrganizationSchema` (organization.schemas.ts, lines
    12–15) returns. -/
structure UpdateOrganizationInput where
  name : Option String
  slug : Option String
  deriving DecidableEq, Repr

/-- Lines 82–87 of `update`: the slug is free, or the organization's own. -/
def slugFree (organizationId : String) (slug : Option String) : AdminAction Unit :=
  if slug.getD "" = "" then pure ()
  else do
    match ← (prisma (.organizationFindUnique (slug.getD ""))).embed baseCalls with
    | none => pure ()
    | some existing =>
      if Organization.id existing ≠ organizationId then
        .throw (.conflict "This slug is already taken")
      else pure ()

/-- `update` (lines 76–109). -/
def update (organizationId : String) (input : UpdateOrganizationInput) (actorId : String)
    (ctx : RequestContext) : AdminAction Organization := do
  slugFree organizationId input.slug
  let organization ← .request (S := adminCalls)
    (.organizationUpdate organizationId input.name input.slug) (Except.mapError Error.prisma)
  (record (memberEvent organizationId actorId "organization.update" "organization" organizationId
    none ctx)).embed baseCalls
  pure organization

/-- The methods of the service that write. -/
inductive Method where
  | create (userId name : String) (ctx : RequestContext)
  | update (organizationId : String) (input : UpdateOrganizationInput) (actorId : String)
      (ctx : RequestContext)
  | inviteMember (organizationId : String) (input : InviteMemberInput) (actorId : String)
      (ctx : RequestContext)

/-- What the method resolves to. -/
def Method.Ret : Method → Type
  | .create .. => Organization
  | .update .. => Organization
  | .inviteMember .. => MembershipRow

/-- The method; `lower` is `String.prototype.toLowerCase`. -/
def Method.run (lower : String → String) : (m : Method) → AdminAction m.Ret
  | .create userId name ctx => (Organizations.create lower userId name ctx).embed baseCalls
  | .update organizationId input actorId ctx =>
    Organizations.update organizationId input actorId ctx
  | .inviteMember organizationId input actorId ctx =>
    (Organizations.inviteMember organizationId input actorId ctx).embed baseCalls

/-! ## Writes and records -/

/-- The queries that write, and the one that records it. -/
def serviceKinds : Kinds calls where
  writes
    | .db (.organizationCreate ..) => true
    | .db (.membershipUpsert ..) => true
    | _ => false
  records
    | .db (.auditLogCreate _) => true
    | _ => false
  failed
    | .db _, .error _ => true
    | .db _, .ok _ => false
    | .randomHex, _ => false

/-- The same of all requests. -/
def adminKinds : Kinds adminCalls where
  writes
    | .base op => serviceKinds.writes op
    | .organizationUpdate .. => true
  records
    | .base op => serviceKinds.records op
    | .organizationUpdate .. => false
  failed
    | .base op, r => serviceKinds.failed op r
    | .organizationUpdate .., .error _ => true
    | .organizationUpdate .., .ok _ => false

theorem adminKinds_embeds : serviceKinds.Embeds adminKinds baseCalls :=
  ⟨fun _ => rfl, fun _ => rfl, fun _ _ => rfl⟩

section Orderly

theorem failed_iff {call : OrganizationCall} (r : Except PrismaErrorCode call.Ret) :
    serviceKinds.failed (.db call) r = true ↔ ∃ e, r.mapError Error.prisma = .error e := by
  cases r with
  | error code => exact iff_of_true rfl ⟨_, rfl⟩
  | ok a =>
    refine iff_of_false Bool.false_ne_true ?_
    rintro ⟨e, he⟩
    cases he

theorem freeSlug_reads (baseSlug : String) (tries : ℕ) (slug : String) :
    (freeSlug baseSlug tries slug).Only serviceKinds.Reads := by
  induction tries generalizing slug with
  | zero =>
    rw [freeSlug]
    refine Prog.Only.bind (Prog.Only.request ⟨rfl, rfl⟩) fun o => ?_
    cases o with
    | none => trivial
    | some o => exact Prog.Only.bind (.perform ⟨rfl, rfl⟩) fun _ => trivial
  | succ tries ih =>
    rw [freeSlug]
    refine Prog.Only.bind (Prog.Only.request ⟨rfl, rfl⟩) fun o => ?_
    cases o with
    | none => trivial
    | some o => exact Prog.Only.bind (.perform ⟨rfl, rfl⟩) fun hex => ih _

theorem create_orderly (lower : String → String) (userId name : String) (ctx : RequestContext) :
    serviceKinds.Orderly (create lower userId name ctx) := by
  refine .after_reads (freeSlug_reads _ _ _) fun slug => ?_
  exact .write rfl rfl failed_iff fun o => .record rfl failed_iff

theorem inviteMember_orderly (organizationId : String) (input : InviteMemberInput)
    (actorId : String) (ctx : RequestContext) :
    serviceKinds.Orderly (inviteMember organizationId input actorId ctx) := by
  refine .after_reads (.request ⟨rfl, rfl⟩) fun user => ?_
  cases user with
  | none => trivial
  | some user => exact .write rfl rfl failed_iff fun m => .record rfl failed_iff

theorem update_orderly (organizationId : String) (input : UpdateOrganizationInput)
    (actorId : String) (ctx : RequestContext) :
    adminKinds.Orderly (update organizationId input actorId ctx) := by
  refine .after_reads ?_ fun _ => ?_
  · unfold slugFree
    split_ifs
    · trivial
    · refine ⟨⟨rfl, rfl⟩, fun r => ?_⟩
      cases r with
      | error code => trivial
      | ok existing =>
        cases existing with
        | none => trivial
        | some o =>
          show Prog.Only _ (if Organization.id o ≠ organizationId then _ else _)
          split_ifs <;> trivial
  · refine .write rfl rfl (fun r => ?_) fun o r => ?_
    · cases r with
      | error code => exact iff_of_true rfl ⟨_, rfl⟩
      | ok a =>
        refine iff_of_false Bool.false_ne_true ?_
        rintro ⟨e, he⟩
        cases he
    · cases r with
      | error code => exact ⟨_, rfl⟩
      | ok u => exact ⟨_, rfl⟩

/-- Each method records what it writes. -/
theorem admin_orderly (lower : String → String) (m : Method) : adminKinds.Orderly (m.run lower) := by
  cases m with
  | create userId name ctx => exact (create_orderly lower userId name ctx).embed adminKinds_embeds
  | update organizationId input actorId ctx => exact update_orderly organizationId input actorId ctx
  | inviteMember organizationId input actorId ctx =>
    exact (inviteMember_orderly organizationId input actorId ctx).embed adminKinds_embeds

end Orderly

/-! ## What takes effect -/

/-- The tables apart from the audit log. -/
def Database.unlogged (db : Database) : Database := { db with auditLogs := [] }

section Journal

variable {now : Time} {id : String} {db : Database} {s s' : State} {i : Input}

/-- A query that does not write, or fails. -/
theorem exec_unlogged {call : OrganizationCall}
    (h : serviceKinds.writes (.db call) = false ∨ (call.exec now id db).1.isOk = false) :
    (call.exec now id db).2.unlogged = db.unlogged := by
  cases call with
  | organizationFindUnique slug => rfl
  | userFindUnique email => rfl
  | membershipFindMany userId => rfl
  | auditLogCreate data => rfl
  | organizationCreate name slug userId =>
    have hfailed := h.resolve_left (Bool.false_ne_true ·.symm)
    simp only [OrganizationCall.exec] at hfailed ⊢
    split at hfailed
    · rfl
    · split at hfailed
      · cases hfailed
      · rfl
  | membershipUpsert userId organizationId role =>
    have hfailed := h.resolve_left (Bool.false_ne_true ·.symm)
    simp only [OrganizationCall.exec] at hfailed ⊢
    split at hfailed
    · cases hfailed
    · split at hfailed
      · cases hfailed
      · rfl

theorem organizationUpdate_unlogged {name slug : Option String}
    (h : (organizationUpdate db id name slug).1.isOk = false) :
    (organizationUpdate db id name slug).2 = db := by
  unfold organizationUpdate at h ⊢
  split at h
  · rfl
  · split at h
    · rfl
    · cases h

/-- The request reaches the database, and its query succeeds. -/
def adminCommits (s : State) : AdminOp → Input → Bool
  | .base (.db call), .text id => (call.exec s.now id s.db).1.isOk
  | .base (.db call), .lost id => (call.exec s.now id s.db).1.isOk
  | .organizationUpdate id name slug, .text _ => (organizationUpdate s.db id name slug).1.isOk
  | .organizationUpdate id name slug, .lost _ => (organizationUpdate s.db id name slug).1.isOk
  | _, _ => false

theorem adminRespond_unlogged {op : AdminOp} {r : adminCalls.Ret op}
    (h : adminRespond s op i = some (r, s'))
    (hop : adminKinds.writes op = false ∨ adminCommits s op i = false) :
    s'.db.unlogged = s.db.unlogged := by
  cases op with
  | base op =>
    cases op with
    | randomHex =>
      cases i <;> cases h
      rfl
    | db call =>
      cases i with
      | text id =>
        cases h
        exact exec_unlogged hop
      | refused =>
        cases h
        rfl
      | lost id =>
        cases h
        exact exec_unlogged hop
  | organizationUpdate id name slug =>
    have hcommits := hop.resolve_left (Bool.false_ne_true ·.symm)
    cases i with
    | text hex =>
      cases h
      exact congrArg Database.unlogged (organizationUpdate_unlogged hcommits)
    | refused =>
      cases h
      rfl
    | lost hex =>
      cases h
      exact congrArg Database.unlogged (organizationUpdate_unlogged hcommits)

theorem isOk_of_not_failed {call : OrganizationCall} {r : Except PrismaErrorCode call.Ret}
    (h : serviceKinds.failed (.db call) r = false) : r.isOk = true := by
  cases r with
  | error code => cases h
  | ok a => rfl

theorem adminRespond_commits {op : AdminOp} {r : adminCalls.Ret op}
    (h : adminRespond s op i = some (r, s')) (hfailed : adminKinds.failed op r = false)
    (hop : adminKinds.writes op = true ∨ adminKinds.records op = true) :
    adminCommits s op i = true := by
  cases op with
  | base op =>
    cases op with
    | randomHex => exact hop.elim (fun h => by cases h) fun h => by cases h
    | db call =>
      cases i with
      | text id =>
        cases h
        exact isOk_of_not_failed hfailed
      | refused =>
        cases h
        cases hfailed
      | lost id =>
        cases h
        cases hfailed
  | organizationUpdate id name slug =>
    cases i with
    | text hex =>
      cases h
      show (organizationUpdate s.db id name slug).1.isOk = true
      cases hr : (organizationUpdate s.db id name slug).1 with
      | error code =>
        rw [hr] at hfailed
        cases hfailed
      | ok o => rfl
    | refused =>
      cases h
      cases hfailed
    | lost hex =>
      cases h
      cases hfailed

end Journal

/-- The writes and the records of the service. -/
def adminJournal : Journal adminMachine Database where
  toKinds := adminKinds
  data s := s.db.unlogged
  commits := adminCommits
  keeps := adminRespond_unlogged
  answered := adminRespond_commits
  apart {op} h := by
    cases op with
    | organizationUpdate => cases h
    | base op =>
      cases op with
      | randomHex => cases h
      | db call =>
        cases call with
        | auditLogCreate data => rfl
        | organizationFindUnique => cases h
        | organizationCreate => cases h
        | userFindUnique => cases h
        | membershipFindMany => cases h
        | membershipUpsert => cases h

end CryptoPay.Organizations
