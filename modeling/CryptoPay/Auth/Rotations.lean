import CryptoPay.Async.History
import CryptoPay.Auth.RefreshTokenService

/-!
# Concurrent calls of the refresh token service

Any number of calls of `issue`, `rotate`, `revokeFamily` and `revokeByRawToken`
at the same time. `found`, `inserted`, `replaced`, `revoking` and `newFamilies`
read off a list of requests which rows were found, inserted and replaced in it,
which rows were to be revoked and which families were named; `expected` is what a
call may request after its own earlier requests.

Results:
* `work_obeys`: every call makes expected requests only, and a rotation that
  has inserted its successor has tried to replace its token when it ends.
-/

namespace CryptoPay.Auth

open Async

/-- A call of the service. -/
inductive Job where
  | issue (userId : String) (ctx : RefreshContext)
  | rotate (rawToken : String) (ctx : RefreshContext)
  | revokeFamily (familyId : String)
  | revokeByRawToken (rawToken : String)
  deriving DecidableEq, Repr

instance : Inhabited Job := ⟨.revokeFamily ""⟩

/-- The calls, any number of them in flight. -/
def work (T : Service) : Workload calls Error Job where
  launch
    | .issue userId ctx => T.issue userId ctx >>= fun _ => pure ()
    | .rotate rawToken ctx => T.rotate rawToken ctx >>= fun _ => pure ()
    | .revokeFamily familyId => Service.revokeFamily familyId
    | .revokeByRawToken rawToken => T.revokeByRawToken rawToken
  compatible _ _ := true
  symm _ _ := rfl

/-! ## What has been requested -/

/-- Requests with their replies, newest first. -/
abbrev Requests := List (Event calls)

/-- The row that a lookup found. -/
def foundBy : Event calls → Option RefreshToken
  | ⟨_, .db (.findUnique _), .ok r⟩ => r
  | _ => none

/-- The row that was stored. -/
def insertedBy : Event calls → Option RefreshToken
  | ⟨_, .db (.create _), .ok row⟩ => some row
  | _ => none

/-- The row that was to be replaced, and the row that replaces it. -/
def replacedBy : Event calls → Option (String × String)
  | ⟨_, .db (.update id _ next), _⟩ => some (id, next)
  | _ => none

/-- The rows that were to be revoked. -/
def revokedBy : Event calls → Option TokenWhere
  | ⟨_, .db (.updateMany w _), _⟩ => some w
  | _ => none

/-- The family id that was generated. -/
def familyBy : Event calls → Option String
  | ⟨_, .generateId _, f⟩ => some f
  | _ => none

section Readings

variable {ev : Event calls}

theorem foundBy_eq_some {x : RefreshToken} (h : foundBy ev = some x) :
    ∃ pid hash, ev = ⟨pid, .db (.findUnique hash), .ok (some x)⟩ := by
  obtain ⟨pid, op, r⟩ := ev
  cases op with
  | db call =>
    cases call with
    | findUnique hash =>
      cases r with
      | ok r =>
        obtain rfl : r = some x := h
        exact ⟨pid, hash, rfl⟩
      | error code => cases h
    | _ => cases h
  | _ => cases h

theorem insertedBy_eq_some {row : RefreshToken} (h : insertedBy ev = some row) :
    ∃ pid d, ev = ⟨pid, .db (.create d), .ok row⟩ := by
  unfold insertedBy at h
  split at h
  · rename_i pid d r
    cases h
    exact ⟨pid, d, rfl⟩
  · cases h

theorem replacedBy_eq_some {pr : String × String} (h : replacedBy ev = some pr) :
    ∃ pid at_ r, ev = ⟨pid, .db (.update pr.1 at_ pr.2), r⟩ := by
  unfold replacedBy at h
  split at h
  · rename_i pid id at_ next r
    cases h
    exact ⟨pid, at_, r, rfl⟩
  · cases h

end Readings

abbrev found (h : Requests) : List RefreshToken := h.filterMap foundBy

abbrev inserted (h : Requests) : List RefreshToken := h.filterMap insertedBy

abbrev replaced (h : Requests) : List (String × String) := h.filterMap replacedBy

abbrev revoking (h : Requests) : List TokenWhere := h.filterMap revokedBy

abbrev newFamilies (h : Requests) : List String := h.filterMap familyBy

/-- What a call may request after the requests `h`. -/
def expected (h : Requests) : Op → Prop
  | .db (.findUnique _) => h = []
  | .generateId _ => found h = [] ∧ newFamilies h = [] ∧ inserted h = []
  | .db (.create d) => inserted h = [] ∧ replaced h = [] ∧ revoking h = [] ∧
    (∀ x ∈ found h, x.familyId = d.familyId ∧ x.revokedAt = none) ∧
    (found h = [] → d.familyId ∈ newFamilies h)
  | .db (.update id _ next) => replaced h = [] ∧
    (∃ x ∈ found h, x.id = id ∧ x.revokedAt = none) ∧ ∃ row ∈ inserted h, row.id = next
  | _ => True

/-- A rotation that has stored the successor has tried to replace its token. -/
def Handed (h : Requests) : Prop := found h ≠ [] → inserted h ≠ [] → replaced h ≠ []

/-! ## Every call is expected to do what it does -/

section Obeys

variable {T : Service} {pid : ℕ}

theorem revokeFamily_obeys (familyId : String) {h : Requests} (hh : inserted h = []) :
    (Service.revokeFamily familyId).Obeys expected pid (fun _ h' => inserted h' = [])
      (fun _ h' => inserted h' = []) h := by
  refine ⟨trivial, fun now => ⟨trivial, fun r => ?_⟩⟩
  cases r with
  | ok n => exact hh
  | error code => exact hh

theorem revokeByRawToken_obeys (rawToken : String) {h : Requests} (hh : inserted h = []) :
    (T.revokeByRawToken rawToken).Obeys expected pid (fun _ h' => inserted h' = [])
      (fun _ h' => inserted h' = []) h := by
  refine ⟨trivial, fun now => ⟨trivial, fun r => ?_⟩⟩
  cases r with
  | ok n => exact hh
  | error code => exact hh

/-- What an `issue` leaves in the requests of its caller. -/
def Issued (h : Requests) (issued : IssuedRefreshToken) (h' : Requests) : Prop :=
  found h' = found h ∧ replaced h' = replaced h ∧ issued.record ∈ inserted h'

/-- In the family of the token that was found. -/
theorem issue_known_obeys (userId : String) (ctx : RefreshContext) {familyId : String}
    {h : Requests} (hi : inserted h = []) (hr : replaced h = []) (hrev : revoking h = [])
    (hf : ∀ x ∈ found h, x.familyId = familyId ∧ x.revokedAt = none) (hne : found h ≠ []) :
    (T.issue userId ctx (some familyId)).Obeys expected pid (Issued h)
      (fun _ h' => inserted h' = []) h := by
  refine ⟨trivial, fun raw => ⟨trivial, fun now =>
    ⟨⟨hi, hr, hrev, hf, fun h₀ => absurd h₀ hne⟩, ?_⟩⟩⟩
  intro r
  cases r with
  | ok row => exact ⟨rfl, rfl, List.mem_cons_self⟩
  | error code => exact hi

/-- In a family of its own. -/
theorem issue_new_obeys (userId : String) (ctx : RefreshContext) :
    (T.issue userId ctx).Obeys expected pid (fun _ h' => found h' = []) (fun _ h' => found h' = [])
      [] := by
  refine ⟨trivial, fun raw => ⟨⟨rfl, rfl, rfl⟩, fun f => ⟨trivial, fun now =>
    ⟨⟨rfl, rfl, rfl, ?_⟩, ?_⟩⟩⟩⟩
  · exact ⟨fun x hx => absurd hx List.not_mem_nil, fun _ => List.mem_cons_self⟩
  · intro r
    cases r with
    | ok row => rfl
    | error code => rfl

theorem spent_obeys (existing : RefreshToken) {h : Requests} :
    (Service.spent existing).Obeys expected pid
      (fun dead h' => (found h' = found h ∧ inserted h' = inserted h ∧ replaced h' = replaced h ∧
        revoking h' = revoking h) ∧ (dead = false → existing.revokedAt = none))
      (fun _ _ => False) h := by
  unfold Service.spent
  split_ifs with hrev
  · exact ⟨⟨rfl, rfl, rfl, rfl⟩, nofun⟩
  · exact ⟨trivial, fun now => ⟨⟨rfl, rfl, rfl, rfl⟩, fun _ => by simpa using hrev⟩⟩

theorem rotate_obeys (rawToken : String) (ctx : RefreshContext) :
    (T.rotate rawToken ctx).Obeys expected pid (fun _ => Handed) (fun _ => Handed) [] := by
  have hnone : ∀ {h : Requests}, inserted h = [] → Handed h := fun hi _ hne => absurd hi hne
  refine ⟨rfl, fun r => ?_⟩
  cases r with
  | error code => exact hnone rfl
  | ok existing =>
    cases existing with
    | none => exact hnone rfl
    | some x =>
      show Prog.Obeys _ _ _ _ (Service.spent x >>= _) _
      refine Prog.obeys_bind.mpr ((spent_obeys x).post (fun dead h hd => ?_) nofun)
      obtain ⟨⟨hfound, hins, hrep, hrev⟩, hlive⟩ := hd
      have hx : found h = [x] := hfound
      split_ifs with hdead
      · refine Prog.obeys_bind.mpr ((revokeFamily_obeys x.familyId hins).post ?_ ?_)
        · exact fun _ _ hi => hnone hi
        · exact fun _ _ hi => hnone hi
      · have hx_live : x.revokedAt = none := hlive (by simpa using hdead)
        refine Prog.obeys_bind.mpr ((issue_known_obeys x.userId ctx hins hrep hrev ?_ ?_).post ?_ ?_)
        · simp [hx, hx_live]
        · simp [hx]
        · rintro issued h' ⟨hfound', hrep', hmem⟩
          refine ⟨trivial, fun now => ⟨⟨hrep'.trans hrep, ⟨x, ?_, rfl, hx_live⟩, _, hmem, rfl⟩,
            fun r => ?_⟩⟩
          · show x ∈ found h'
            simp [hfound', hx]
          · cases r with
            | ok row => exact fun _ _ => List.cons_ne_nil _ _
            | error code => exact fun _ _ => List.cons_ne_nil _ _
        · exact fun _ _ hi => hnone hi

/-- Every call makes expected requests only, and leaves no successor beside its token. -/
theorem work_obeys (j : Job) (pid : ℕ) :
    ((work T).launch j).Obeys expected pid (fun _ => Handed) (fun _ => Handed) [] := by
  have hfound : ∀ {h : Requests}, found h = [] → Handed h := fun hf hne => absurd hf hne
  have hins : ∀ {h : Requests}, inserted h = [] → Handed h := fun hi _ hne => absurd hi hne
  cases j with
  | issue userId ctx =>
    exact Prog.obeys_bind.mpr ((issue_new_obeys userId ctx).post (fun _ _ => hfound)
      fun _ _ => hfound)
  | rotate rawToken ctx =>
    exact Prog.obeys_bind.mpr ((rotate_obeys rawToken ctx).post (fun _ _ hh => hh)
      fun _ _ hh => hh)
  | revokeFamily familyId =>
    exact (revokeFamily_obeys familyId rfl).post (fun _ _ => hins) fun _ _ => hins
  | revokeByRawToken rawToken =>
    exact (revokeByRawToken_obeys rawToken rfl).post (fun _ _ => hins) fun _ _ => hins

end Obeys

/-! ## Sample values -/

/-- A service whose hash is the token itself. -/
def demo : Service := ⟨fun payload _ => payload, "", 3600⟩

/-- The state that the sample runs start in. -/
def demoState : State := ⟨.empty, 0, []⟩

theorem demoState_start : demoState.Start := ⟨rfl, rfl⟩

end CryptoPay.Auth
