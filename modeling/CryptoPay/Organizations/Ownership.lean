import CryptoPay.Organizations.OrganizationsService

/-!
# The owners of an organization

`inviteMember` sets the role of whoever is invited, a member already or not, and
`RolesGuard` lets an ADMIN invite like an OWNER.

Results:
* `ownership_changes`: the OWNERs of an organization change only when it is
  created, or by an invitation of the user concerned whose actor is an OWNER or
  an ADMIN; an organization always has a member; and it has an OWNER in every run
  in which no OWNER is invited with another role.
* `owner_demoted`: an ADMIN invites the only OWNER.
-/

namespace CryptoPay.Organizations

open Async Data

open Api (RequestContext)

/-- The user is an OWNER of the organization. -/
def Database.IsOwner (db : Database) (organizationId userId : String) : Prop :=
  ∃ m ∈ db.memberships, m.key = (userId, organizationId) ∧ m.role = .owner

/-- Every organization has an OWNER. -/
def Database.Owned (db : Database) : Prop :=
  ∀ o ∈ db.organizations.rows, ∃ userId, db.IsOwner o.id userId

def State.Owned (s : State) : Prop := s.db.Owned

/-- Every organization has a member. -/
def Database.Staffed (db : Database) : Prop :=
  ∀ o ∈ db.organizations.rows, ∃ m ∈ db.memberships, m.organizationId = o.id

abbrev Requests := List (Event calls)

/-- The guard of the call has read this membership of the actor. -/
def ActsAs (h : Requests) (actor : String) (scope : Scope) : Prop :=
  ∃ pid rows, ⟨pid, .db (.membershipFindMany actor), .ok rows⟩ ∈ h ∧ scope ∈ (rows : List Scope)

/-- What a request may make after what it has made. -/
def expected (j : Job) (h : Requests) : Op → Prop
  | .db (.organizationCreate _ _ userId) => ∃ name ctx, j = .create userId name ctx
  | .db (.membershipUpsert _ organizationId _) =>
    ∃ actor role, ActsAs h actor ⟨organizationId, role⟩ ∧ role ∈ inviteRoles
  | _ => True

/-- No OWNER is invited with another role. -/
def OwnersKept : Condition calls State := fun c _ op =>
  ∀ userId organizationId role, op = .db (.membershipUpsert userId organizationId role) →
    c.state.db.IsOwner organizationId userId → role = .owner

/-! ## The calls -/

theorem scopeOf_mem {requested : Option String} {memberships : List Scope} {scope : Scope}
    (h : scopeOf requested memberships = .ok scope) : scope ∈ memberships := by
  unfold scopeOf at h
  by_cases hnil : memberships = []
  · rw [if_pos hnil] at h
    cases h
  · rw [if_neg hnil] at h
    dsimp only at h
    split at h
    · cases h
    · split at h
      · cases h
      · rename_i hfind
        cases h
        exact List.mem_of_find?_eq_some hfind

section Obeys

variable {j : Job} {pid : ℕ} {h : Requests}

/-- A query that any call may make. -/
theorem prisma_obeys {call : OrganizationCall} {Q : call.Ret → Requests → Prop}
    (he : expected j h (.db call)) (hQ : ∀ r : call.Ret, Q r (⟨pid, .db call, .ok r⟩ :: h)) :
    (prisma call).Obeys (expected j) pid Q (fun _ _ => True) h := by
  refine Prog.obeys_request.mpr ⟨he, fun r => ⟨fun a ha => ?_, fun _ _ => trivial⟩⟩
  cases r with
  | ok r =>
    obtain rfl : r = a := Except.ok.inj ha
    exact hQ r
  | error code => cases ha

theorem freeSlug_obeys {baseSlug : String} (tries : ℕ) (slug : String) :
    (freeSlug baseSlug tries slug).Obeys (expected j) pid (fun _ _ => True) (fun _ _ => True) h := by
  induction tries generalizing slug h with
  | zero =>
    unfold freeSlug
    refine Prog.obeys_bind.mpr (prisma_obeys (by trivial) fun r => ?_)
    cases r with
    | none => trivial
    | some o => exact ⟨trivial, fun hex => trivial⟩
  | succ tries ih =>
    unfold freeSlug
    refine Prog.obeys_bind.mpr (prisma_obeys (by trivial) fun r => ?_)
    cases r with
    | none => trivial
    | some o => exact ⟨trivial, fun hex => ih _⟩

theorem create_obeys {lower : String → String} {userId name : String} {ctx : RequestContext} :
    (create lower userId name ctx).Obeys (expected (.create userId name ctx)) pid
      (fun _ _ => True) (fun _ _ => True) h := by
  refine Prog.obeys_bind.mpr ((freeSlug_obeys 5 _).post (fun slug h _ => ?_) fun _ _ _ => trivial)
  refine Prog.obeys_bind.mpr (prisma_obeys ⟨name, ctx, rfl⟩ fun o => ?_)
  exact Prog.obeys_bind.mpr (prisma_obeys (by trivial) fun _ => trivial)

/-- An invitation, once the guards have let the actor pass. -/
theorem inviteMember_obeys {actor actorId : String} {scope : Scope} {input : InviteMemberInput}
    {ctx : RequestContext} (hactor : ActsAs h actor scope) (hrole : scope.role ∈ inviteRoles) :
    (inviteMember scope.organizationId input actorId ctx).Obeys (expected j) pid
      (fun _ _ => True) (fun _ _ => True) h := by
  obtain ⟨p, rows, hmem, hscope⟩ := hactor
  refine Prog.obeys_bind.mpr (prisma_obeys (by trivial) fun r => ?_)
  cases r with
  | none => trivial
  | some user =>
    refine Prog.obeys_bind.mpr (prisma_obeys
      ⟨actor, scope.role, ⟨p, rows, List.mem_cons_of_mem _ hmem, hscope⟩, hrole⟩ fun m => ?_)
    exact Prog.obeys_bind.mpr (prisma_obeys (by trivial) fun _ => trivial)

theorem organizationScope_obeys {userId headerOrgId : Option String} :
    (organizationScope userId headerOrgId).Obeys (expected j) pid
      (fun a h => ActsAs h a.1 a.2) (fun _ _ => True) h := by
  unfold organizationScope
  cases userId with
  | none => trivial
  | some userId =>
    by_cases hempty : userId = ""
    · simp only [hempty, if_true]
      trivial
    · simp only [hempty, if_false]
      refine Prog.obeys_bind.mpr (prisma_obeys (by trivial) fun rows => ?_)
      refine Prog.obeys_bind.mpr (Prog.obeys_ofExcept.mpr ⟨fun scope hscope => ?_, fun _ _ => trivial⟩)
      exact ⟨pid, rows, List.mem_cons_self, scopeOf_mem hscope⟩

end Obeys

theorem work_obeys (lower : String → String) : (work lower).Obeys expected := by
  intro j pid
  cases j with
  | create userId name ctx =>
    exact Prog.obeys_bind.mpr (create_obeys.post (fun _ _ _ => trivial) fun _ _ _ => trivial)
  | inviteMember userId headerOrgId email role ctx =>
    refine Prog.obeys_bind.mpr (organizationScope_obeys.post (fun a h hactor => ?_)
      fun _ _ _ => trivial)
    obtain ⟨actorId, scope⟩ := a
    show Prog.Obeys _ _ _ _ (rolesGuard inviteRoles scope >>= fun _ => _) h
    refine Prog.obeys_bind.mpr ?_
    unfold rolesGuard
    by_cases hrole : inviteRoles.contains scope.role = true
    · rw [if_pos hrole]
      refine Prog.obeys_bind.mpr ((inviteMember_obeys hactor ?_).post
        (fun _ _ _ => trivial) fun _ _ _ => trivial)
      exact List.contains_iff_mem.mp hrole
    · rw [if_neg hrole]
      trivial

/-! ## What one query changes -/

section Step

variable {db db' : Database} {call : OrganizationCall} {o u : String}

theorem isOwner_congr (h : db'.memberships = db.memberships) :
    db'.IsOwner o u ↔ db.IsOwner o u := by
  unfold Database.IsOwner
  rw [h]

/-- A query that changes whether a user is an OWNER has created the organization, or is an
    invitation of that user. -/
theorem Tables.owner_changed (h : Tables db db' call) (hne : ¬ (db'.IsOwner o u ↔ db.IsOwner o u)) :
    (∃ name slug, call = .organizationCreate name slug u ∧
      ∀ x ∈ db.organizations.rows, x.id ≠ o) ∨
    ∃ role, call = .membershipUpsert u o role ∧ (db'.IsOwner o u ↔ role = .owner) := by
  cases h with
  | same ho hm => exact absurd (isOwner_congr hm) hne
  | @created name slug userId id fresh ho hm =>
    by_cases hnew : u = userId ∧ o = id
    · obtain ⟨rfl, rfl⟩ := hnew
      exact .inl ⟨name, slug, rfl, fresh⟩
    · refine absurd ⟨fun ⟨m, hmem, hkey, hrole⟩ => ?_, fun ⟨m, hmem, hrest⟩ => ?_⟩ hne
      · rcases (hm m).mp hmem with rfl | hmem
        · exact absurd (by simpa [MembershipRow.key, eq_comm] using hkey) hnew
        · exact ⟨m, hmem, hkey, hrole⟩
      · exact ⟨m, (hm m).mpr (.inr hmem), hrest⟩
  | @upserted userId organizationId role ho row hm =>
    by_cases hkey : (u, o) = (userId, organizationId)
    · obtain ⟨rfl, rfl⟩ := Prod.mk.inj hkey
      obtain ⟨x, hx, hxkey, rfl⟩ := row
      refine .inr ⟨x.role, rfl, fun ⟨m, hmem, hmkey, hrole⟩ => ?_, fun hrole =>
        ⟨x, hx, hxkey, hrole⟩⟩
      rw [← Table.eq_of_key hmem hx (hmkey.trans hxkey.symm)]
      exact hrole
    · refine absurd ⟨fun ⟨m, hmem, hmkey, hrole⟩ => ?_, fun ⟨m, hmem, hmkey, hrole⟩ => ?_⟩ hne
      · exact ⟨m, (hm m (hmkey ▸ hkey)).mp hmem, hmkey, hrole⟩
      · exact ⟨m, (hm m (hmkey ▸ hkey)).mpr hmem, hmkey, hrole⟩

/-- A member stays one. -/
theorem Tables.member_stays (h : Tables db db' call) {m : MembershipRow} (hm : m ∈ db.memberships) :
    ∃ m' ∈ db'.memberships, m'.key = m.key := by
  cases h with
  | same ho hsame => exact ⟨m, hsame ▸ hm, rfl⟩
  | created id fresh ho hiff => exact ⟨m, (hiff m).mpr (.inr hm), rfl⟩
  | @upserted userId organizationId role ho row hiff =>
    by_cases hkey : m.key = (userId, organizationId)
    · obtain ⟨x, hx, hxkey, -⟩ := row
      exact ⟨x, hx, hxkey.trans hkey.symm⟩
    · exact ⟨m, (hiff m hkey).mpr hm, rfl⟩

/-- An organization that is stored after a query was stored before it, or has its creator as an
    OWNER. -/
theorem Tables.organization_new (h : Tables db db' call) {x : Organization}
    (hx : x ∈ db'.organizations.rows) :
    x ∈ db.organizations.rows ∨ ∃ userId, db'.IsOwner x.id userId := by
  cases h with
  | same ho hm =>
    rw [ho] at hx
    exact .inl hx
  | @created name slug userId id fresh ho hm =>
    rw [ho] at hx
    rcases List.mem_cons.mp hx with rfl | hx
    · exact .inr ⟨userId, _, (hm _).mpr (.inl rfl), rfl, rfl⟩
    · exact .inl hx
  | upserted ho row hm =>
    rw [ho] at hx
    exact .inl hx

theorem Tables.staffed (h : Tables db db' call) (hdb : db.Staffed) : db'.Staffed := by
  intro x hx
  rcases h.organization_new hx with hold | ⟨userId, m, hm, hkey, -⟩
  · obtain ⟨m, hm, horg⟩ := hdb x hold
    obtain ⟨m', hm', hkey⟩ := h.member_stays hm
    exact ⟨m', hm', (congrArg Prod.snd hkey).trans horg⟩
  · exact ⟨m, hm, congrArg Prod.snd hkey⟩

/-- An OWNER who is not invited with another role stays one. -/
theorem Tables.owned (h : Tables db db' call) (hdb : db.Owned)
    (hkept : ∀ userId organizationId role, call = .membershipUpsert userId organizationId role →
      db.IsOwner organizationId userId → role = .owner) : db'.Owned := by
  intro x hx
  rcases h.organization_new hx with hold | hnew
  · obtain ⟨userId, howner⟩ := hdb x hold
    refine ⟨userId, ?_⟩
    by_cases hsame : db'.IsOwner x.id userId ↔ db.IsOwner x.id userId
    · exact hsame.mpr howner
    · rcases h.owner_changed hsame with ⟨-, -, -, hfresh⟩ | ⟨role, rfl, hiff⟩
      · exact absurd rfl (hfresh x hold)
      · exact hiff.mpr (hkept userId x.id role rfl howner)
  · exact hnew

end Step

/-! ## Runs -/

abbrev OrganizationSystem := System calls Error Job State

/-- The systems that some run leads to that begins with an OWNER for every organization. -/
abbrev OrganizationReachable (lower : String → String) (allowed : Condition calls State) :
    OrganizationSystem → Prop :=
  Reachable machine (work lower) State.Owned allowed

/-- The request has created the organization for the user. -/
def Creates (ev : Event calls) (db : Database) (o u : String) : Prop :=
  (∃ name slug, ev.op = .db (.organizationCreate name slug u)) ∧
    ∀ x ∈ db.organizations.rows, x.id ≠ o

/-- The request invites the user, for an actor whom the guard has read to be an OWNER or an ADMIN
    of the organization; the user is an OWNER after it if that is the role of the invitation. -/
def Invites (ev : Event calls) (h : Requests) (db' : Database) (o u : String) : Prop :=
  ∃ role, ev.op = .db (.membershipUpsert u o role) ∧ (db'.IsOwner o u ↔ role = .owner) ∧
    ∃ actor actorRole, ActsAs h actor ⟨o, actorRole⟩ ∧ actorRole ∈ inviteRoles

theorem owned_staffed {db : Database} (h : db.Owned) : db.Staffed := fun o ho => by
  obtain ⟨userId, m, hm, hkey, -⟩ := h o ho
  exact ⟨m, hm, congrArg Prod.snd hkey⟩

/-- An act of the environment leaves the organizations and the memberships alone. -/
theorem env_tables {s state : State} {act : Act} (h : machine.env s act = some state) :
    state.db.organizations = s.db.organizations ∧ state.db.memberships = s.db.memberships := by
  cases act with
  | elapse ms =>
    cases h
    exact ⟨rfl, rfl⟩
  | addUser u =>
    obtain ⟨users, -, rfl⟩ := Option.map_eq_some_iff.mp h
    exact ⟨rfl, rfl⟩

section Runs

variable {lower : String → String} {s s' : OrganizationSystem} {m : Move Job Input Act}
  {o u : String}

theorem owners_changed (hs : OrganizationReachable lower anything s)
    (hstep : s.step machine (work lower) m = some s')
    (hne : ¬ (s'.config.state.db.IsOwner o u ↔ s.config.state.db.IsOwner o u)) :
    ∃ ev, s'.config.trace = ev :: s.config.trace ∧
      (Creates ev s.config.state.db o u ∨
        Invites ev (own ev.pid s.config.trace) s'.config.state.db o u) := by
  rcases hs.step_cases (work_obeys lower) (fun _ _ _ _ _ _ _ => trivial) hstep with
    heq | ⟨act, state, henv, heq⟩ | ⟨ev, state, hans, heq⟩
  · rw [heq] at hne
    exact absurd Iff.rfl hne
  · rw [heq] at hne
    exact absurd (isOwner_congr (env_tables henv).2) hne
  · obtain ⟨i, hr⟩ := hans.reply
    obtain ⟨j, he, -⟩ := hans.expected
    rw [heq] at hne ⊢
    refine ⟨ev, rfl, ?_⟩
    rcases respond_tables hr with ⟨-, hsame⟩ | ⟨call, hop, htables⟩
    · exact absurd (isOwner_congr hsame) hne
    · rcases htables.owner_changed hne with ⟨name, slug, rfl, hfresh⟩ | ⟨role, rfl, hiff⟩
      · exact .inl ⟨⟨name, slug, hop⟩, hfresh⟩
      · rw [hop] at he
        obtain ⟨actor, actorRole, hactor, hrole⟩ := he
        exact .inr ⟨role, hop, hiff, actor, actorRole, hactor, hrole⟩

theorem reachable_staffed (hs : OrganizationReachable lower anything s) :
    s.config.state.db.Staffed := by
  refine hs.invariant (I := fun c : Config calls State => c.state.db.Staffed) (work_obeys lower)
    (fun _ h => owned_staffed h) ?_ ?_
  · intro c act state h henv
    obtain ⟨ho, hm⟩ := env_tables henv
    show state.db.Staffed
    unfold Database.Staffed
    rw [ho, hm]
    exact h
  · intro c ev state h hans
    obtain ⟨i, hr⟩ := hans.reply
    show state.db.Staffed
    rcases respond_tables hr with ⟨ho, hm⟩ | ⟨call, -, htables⟩
    · unfold Database.Staffed
      rw [ho, hm]
      exact h
    · exact htables.staffed h

theorem reachable_owned (hs : OrganizationReachable lower OwnersKept s) :
    s.config.state.db.Owned := by
  refine hs.invariant (I := fun c : Config calls State => c.state.db.Owned) (work_obeys lower) (fun _ h => h) ?_ ?_
  · intro c act state h henv
    obtain ⟨ho, hm⟩ := env_tables henv
    show state.db.Owned
    unfold Database.Owned Database.IsOwner
    rw [ho, hm]
    exact h
  · intro c ev state h hans
    obtain ⟨i, hr⟩ := hans.reply
    show state.db.Owned
    rcases respond_tables hr with ⟨ho, hm⟩ | ⟨call, hop, htables⟩
    · unfold Database.Owned Database.IsOwner
      rw [ho, hm]
      exact h
    · exact htables.owned h fun userId organizationId role hcall =>
        hans.allowed userId organizationId role (hop.trans (congrArg Op.db hcall))

end Runs

theorem ownership_changes (lower : String → String) :
    (∀ s s' m o u, OrganizationReachable lower anything s →
      s.step machine (work lower) m = some s' →
      ¬ (s'.config.state.db.IsOwner o u ↔ s.config.state.db.IsOwner o u) →
      ∃ ev, s'.config.trace = ev :: s.config.trace ∧
        (Creates ev s.config.state.db o u ∨
          Invites ev (own ev.pid s.config.trace) s'.config.state.db o u)) ∧
    (∀ s, OrganizationReachable lower anything s → s.config.state.db.Staffed) ∧
    ∀ s, OrganizationReachable lower OwnersKept s → s.config.state.db.Owned :=
  ⟨fun _ _ _ _ _ hs hstep hne => owners_changed hs hstep hne, fun _ hs => reachable_staffed hs,
    fun _ hs => reachable_owned hs⟩

/-! ## A run -/

def ann : Accounts.User := .created "usr_1" "ann@example.com" ""

def bob : Accounts.User := .created "usr_2" "bob@example.com" ""

theorem twoUsers_ids : ([ann, bob].map Accounts.User.id).Nodup := by decide

theorem twoUsers_emails : ([ann, bob].map Accounts.User.email).Nodup := by decide

/-- Two accounts, and no organization. -/
def twoUsers : State where
  db := {
    users := { rows := [ann, bob], nodup := twoUsers_ids, uniqueEmail := twoUsers_emails }
    organizations := { rows := [], nodup := List.nodup_nil, uniqueSlug := List.nodup_nil }
    memberships := .empty
    auditLogs := [] }
  now := 0

theorem twoUsers_owned : twoUsers.Owned := fun _ ho => absurd ho List.not_mem_nil

def localhost : RequestContext := ⟨"127.0.0.1", none⟩

/-- The queries of one request, answered in a row. -/
def answers (pid : ℕ) (ids : List String) : List (Move Job Input Act) :=
  ids.map fun id => .perform pid (.text id)

/-- Ann creates an organization and invites Bob as an ADMIN; Bob is about to invite Ann, without
    naming a role. -/
def demotion : List (Move Job Input Act) :=
  [.start (.create "usr_1" "Acme" localhost)] ++ answers 0 ["", "org_1", "log"] ++
    [.start (.inviteMember (some "usr_1") none "bob@example.com" (some .admin) localhost)] ++
    answers 1 ["", "", "mem_2", "log"] ++
    [.start (.inviteMember (some "usr_2") none "ann@example.com" none localhost)] ++
    answers 2 ["", ""]

def scopesRead : Event calls → Option (ℕ × String × List Scope)
  | ⟨pid, .db (.membershipFindMany userId), .ok rows⟩ => some (pid, userId, rows)
  | _ => none

/-- The rows of the memberships, and what the guards have read. -/
structure View where
  organizations : List Organization
  memberships : List MembershipRow
  read : List (ℕ × String × List Scope)
  deriving DecidableEq

def view (s : OrganizationSystem) : View where
  organizations := s.config.state.db.organizations.rows
  memberships := s.config.state.db.memberships.rows
  read := s.config.trace.filterMap scopesRead

theorem actsAs_of_view {s : OrganizationSystem} {pid : ℕ} {actor : String} {scope : Scope}
    (h : ActsAs (own pid s.config.trace) actor scope) :
    ∃ rows, (pid, actor, rows) ∈ (view s).read ∧ scope ∈ rows := by
  obtain ⟨p, rows, hmem, hscope⟩ := h
  obtain ⟨hmem', rfl⟩ := mem_own.mp hmem
  exact ⟨rows, List.mem_filterMap.mpr
    ⟨⟨p, .db (.membershipFindMany actor), .ok rows⟩, hmem', rfl⟩, hscope⟩

/-- An ADMIN invites the only OWNER, who is a MEMBER then: the organization has no OWNER. -/
theorem owner_demoted : ∃ s s', OrganizationReachable toLowerAscii anything s ∧
    s.step machine (work toLowerAscii) (.perform 2 (.text "")) = some s' ∧
    s.config.state.db.IsOwner "org_1" "usr_1" ∧
    (∃ o ∈ s'.config.state.db.organizations.rows, ∀ u, ¬ s'.config.state.db.IsOwner o.id u) ∧
    ∀ actor scope, ActsAs (own 2 s.config.trace) actor scope → scope = ⟨"org_1", .admin⟩ := by
  have hrun : ((System.initial twoUsers).run machine (work toLowerAscii) demotion).bind (fun s =>
      (s.step machine (work toLowerAscii) (.perform 2 (.text ""))).map fun s' => [view s, view s']) =
      some [⟨[⟨"org_1", "Acme", "acme"⟩],
          [⟨"mem_2", "usr_2", "org_1", .admin⟩, ⟨"org_1", "usr_1", "org_1", .owner⟩],
          [(2, "usr_2", [⟨"org_1", .admin⟩]), (1, "usr_1", [⟨"org_1", .owner⟩])]⟩,
        ⟨[⟨"org_1", "Acme", "acme"⟩],
          [⟨"mem_2", "usr_2", "org_1", .admin⟩, ⟨"org_1", "usr_1", "org_1", .member⟩],
          [(2, "usr_2", [⟨"org_1", .admin⟩]), (1, "usr_1", [⟨"org_1", .owner⟩])]⟩] := by
    decide +kernel
  obtain ⟨s, s', hs, hstep, hviews⟩ := Reachable.view_step twoUsers_owned demotion hrun
  obtain ⟨hbefore, hrest⟩ := List.cons.inj hviews
  obtain ⟨hafter, -⟩ := List.cons.inj hrest
  have hrows : s.config.state.db.memberships.rows = _ := congrArg View.memberships hbefore
  have hrows' : s'.config.state.db.memberships.rows = _ := congrArg View.memberships hafter
  have horgs : s'.config.state.db.organizations.rows = _ := congrArg View.organizations hafter
  refine ⟨s, s', hs, hstep, ⟨⟨"org_1", "usr_1", "org_1", .owner⟩, ?_, rfl, rfl⟩,
    ⟨⟨"org_1", "Acme", "acme"⟩, by rw [horgs]; exact List.mem_singleton_self _, ?_⟩, ?_⟩
  · rw [Table.mem_def, hrows]
    decide
  · rintro u ⟨m, hm, -, hrole⟩
    rw [Table.mem_def, hrows'] at hm
    revert m
    decide
  · intro actor scope hacts
    obtain ⟨rows, hmem, hscope⟩ := actsAs_of_view hacts
    rw [hbefore] at hmem
    obtain ⟨-, rfl⟩ : actor = "usr_2" ∧ rows = [⟨"org_1", .admin⟩] := by simpa using hmem
    exact List.mem_singleton.mp hscope

end CryptoPay.Organizations
