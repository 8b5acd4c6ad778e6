import CryptoPay.Async.System
import CryptoPay.Database.Schema
import CryptoPay.Shared.Errors

/-!
# The refresh token table

`RefreshToken` of `packages/database/prisma/schema.prisma` and the queries of
`apps/api/src/auth/tokens/refresh-token.service.ts`. The two `@unique` columns
besides the id, `tokenHash` and `replacedById`, are fields of the table. Rows
are never deleted, and a token is only issued to a stored user, so the foreign
key is not modelled. Every query reaches the database and its reply arrives.

Results:
* `exec_create_ok`, `exec_create_error`, `exec_update_ok`, `exec_update_error`,
  `mem_updateMany`: what the writes do.
* `exec_keeps`: no query removes a row, changes its id, its hash or its family,
  or clears its `revokedAt`.
-/

namespace CryptoPay.Auth

open Data

/-- `model RefreshToken` (schema.prisma, lines 112–129). -/
structure RefreshToken where
  id : String
  userId : String
  tokenHash : String
  familyId : String
  replacedById : Option String
  revokedAt : Option Time
  expiresAt : Time
  userAgent : Option String
  ipAddress : Option String
  createdAt : Time
  deriving DecidableEq, Repr

/-- Tokens with their three unique constraints. -/
structure TokenTable extends Table RefreshToken.id where
  uniqueHash : (rows.map RefreshToken.tokenHash).Nodup
  uniqueReplaced : ∀ x ∈ rows, ∀ y ∈ rows, x.replacedById ≠ none →
    x.replacedById = y.replacedById → x = y

namespace TokenTable

variable {t t' : TokenTable} {x y : RefreshToken}

instance : Membership RefreshToken TokenTable := ⟨fun t x => x ∈ t.toTable⟩

theorem mem_def : x ∈ t ↔ x ∈ t.rows := Iff.rfl

/-- The table without rows. -/
def empty : TokenTable := ⟨.empty, List.nodup_nil, fun _ h => absurd h List.not_mem_nil⟩

theorem not_mem_empty (x : RefreshToken) : x ∉ empty := List.not_mem_nil

theorem eq_of_id (h : x ∈ t) (h' : y ∈ t) (hid : x.id = y.id) : x = y :=
  t.toTable.eq_of_key h h' hid

theorem eq_of_hash (h : x ∈ t) (h' : y ∈ t) (hh : x.tokenHash = y.tokenHash) : x = y :=
  List.inj_on_of_nodup_map t.uniqueHash h h' hh

/-- Add a row that replaces nothing yet, unless its id or its hash is taken. -/
def insert? (t : TokenTable) (x : RefreshToken) (hx : x.replacedById = none) : Option TokenTable :=
  if hid : x.id ∈ t.rows.map RefreshToken.id then none
  else if hh : x.tokenHash ∈ t.rows.map RefreshToken.tokenHash then none
  else some {
    rows := x :: t.rows
    nodup := by rw [List.map_cons]; exact List.nodup_cons.mpr ⟨hid, t.nodup⟩
    uniqueHash := by rw [List.map_cons]; exact List.nodup_cons.mpr ⟨hh, t.uniqueHash⟩
    uniqueReplaced := by
      intro y hy z hz hne heq
      rcases List.mem_cons.mp hy with rfl | hy
      · exact absurd hx hne
      · rcases List.mem_cons.mp hz with rfl | hz
        · exact absurd (heq.trans hx) hne
        · exact t.uniqueReplaced y hy z hz hne heq }

theorem insert?_eq_some {hx : x.replacedById = none} (h : t.insert? x hx = some t') :
    (∀ y ∈ t, y.id ≠ x.id) ∧ (∀ y ∈ t, y.tokenHash ≠ x.tokenHash) ∧
      ∀ y, y ∈ t' ↔ y = x ∨ y ∈ t := by
  unfold insert? at h
  split_ifs at h with hid hh
  refine ⟨fun y hy he => hid (he ▸ List.mem_map_of_mem hy),
    fun y hy he => hh (he ▸ List.mem_map_of_mem hy), fun y => ?_⟩
  rw [← Option.some.inj h]
  exact List.mem_cons

/-- Rewrite the rows, keeping the three constraints. -/
def map (t : TokenTable) (f : RefreshToken → RefreshToken) (hid : ∀ x, (f x).id = x.id)
    (hhash : ∀ x, (f x).tokenHash = x.tokenHash)
    (hreplaced : ∀ x ∈ t.rows, ∀ y ∈ t.rows, (f x).replacedById ≠ none →
      (f x).replacedById = (f y).replacedById → x = y) : TokenTable where
  rows := t.rows.map f
  nodup := by
    rw [List.map_map, show RefreshToken.id ∘ f = RefreshToken.id from funext hid]
    exact t.nodup
  uniqueHash := by
    rw [List.map_map, show RefreshToken.tokenHash ∘ f = RefreshToken.tokenHash from funext hhash]
    exact t.uniqueHash
  uniqueReplaced := by
    intro x' hx' y' hy' hne heq
    obtain ⟨x, hx, rfl⟩ := List.mem_map.mp hx'
    obtain ⟨y, hy, rfl⟩ := List.mem_map.mp hy'
    rw [hreplaced x hx y hy hne heq]

end TokenTable

/-! ## Queries -/

/-- The `data` of `refreshToken.create`; the other columns take their defaults. -/
structure TokenCreateInput where
  userId : String
  tokenHash : String
  familyId : String
  expiresAt : Time
  userAgent : Option String
  ipAddress : Option String
  deriving DecidableEq, Repr

/-- The row that `refreshToken.create` stores; `id` is the `cuid()` of the row. -/
def TokenCreateInput.row (now : Time) (id : String) (d : TokenCreateInput) : RefreshToken where
  id := id
  userId := d.userId
  tokenHash := d.tokenHash
  familyId := d.familyId
  replacedById := none
  revokedAt := none
  expiresAt := d.expiresAt
  userAgent := d.userAgent
  ipAddress := d.ipAddress
  createdAt := now

/-- The `where` of the two `refreshToken.updateMany` calls, besides `revokedAt: null`. -/
inductive TokenWhere where
  | familyId (familyId : String)
  | tokenHash (tokenHash : String)
  deriving DecidableEq, Repr

/-- The row is one that the `where` selects. -/
def TokenWhere.selects (w : TokenWhere) (x : RefreshToken) : Bool :=
  x.revokedAt = none && match w with
    | .familyId f => x.familyId = f
    | .tokenHash h => x.tokenHash = h

/-- The awaited Prisma calls. -/
inductive TokenCall where
  | findUnique (tokenHash : String)
  | create (data : TokenCreateInput)
  | update (id : String) (revokedAt : Time) (replacedById : String)
  | updateMany (where_ : TokenWhere) (revokedAt : Time)
  deriving DecidableEq, Repr

/-- What a call resolves to. -/
def TokenCall.Ret : TokenCall → Type
  | .findUnique _ => Option RefreshToken
  | .create _ => RefreshToken
  | .update .. => RefreshToken
  | .updateMany .. => ℕ

/-- The row after `refreshToken.update`. -/
def RefreshToken.replaced (at_ : Time) (next : String) (x : RefreshToken) : RefreshToken :=
  { x with revokedAt := some at_, replacedById := some next }

/-- The row after `refreshToken.updateMany`. -/
def RefreshToken.revokedIf (w : TokenWhere) (at_ : Time) (x : RefreshToken) : RefreshToken :=
  if w.selects x then { x with revokedAt := some at_ } else x

section Rows

variable (w : TokenWhere) (at_ : Time) (x : RefreshToken)

@[simp] theorem revokedIf_id : (x.revokedIf w at_).id = x.id := by
  unfold RefreshToken.revokedIf; split_ifs <;> rfl

@[simp] theorem revokedIf_tokenHash : (x.revokedIf w at_).tokenHash = x.tokenHash := by
  unfold RefreshToken.revokedIf; split_ifs <;> rfl

@[simp] theorem revokedIf_familyId : (x.revokedIf w at_).familyId = x.familyId := by
  unfold RefreshToken.revokedIf; split_ifs <;> rfl

@[simp] theorem revokedIf_replacedById : (x.revokedIf w at_).replacedById = x.replacedById := by
  unfold RefreshToken.revokedIf; split_ifs <;> rfl

/-- What is left unrevoked was not selected. -/
theorem revokedIf_eq_none {w : TokenWhere} {at_ : Time} {x : RefreshToken} :
    (x.revokedIf w at_).revokedAt = none ↔ x.revokedAt = none ∧ w.selects x = false := by
  unfold RefreshToken.revokedIf
  split_ifs with h
  · simp [h]
  · simp [h]

end Rows

/-- The row is rewritten by `refreshToken.update`. -/
def RefreshToken.replacedIf (id : String) (at_ : Time) (next : String) (x : RefreshToken) :
    RefreshToken :=
  if x.id = id then x.replaced at_ next else x

section Rows

variable (id : String) (at_ : Time) (next : String) (x : RefreshToken)

@[simp] theorem replacedIf_id : (x.replacedIf id at_ next).id = x.id := by
  unfold RefreshToken.replacedIf; split_ifs <;> rfl

@[simp] theorem replacedIf_tokenHash : (x.replacedIf id at_ next).tokenHash = x.tokenHash := by
  unfold RefreshToken.replacedIf; split_ifs <;> rfl

@[simp] theorem replacedIf_familyId : (x.replacedIf id at_ next).familyId = x.familyId := by
  unfold RefreshToken.replacedIf; split_ifs <;> rfl

end Rows

/-- `updateMany` on the table. -/
def TokenTable.updateMany (t : TokenTable) (w : TokenWhere) (at_ : Time) : TokenTable :=
  t.map (RefreshToken.revokedIf w at_) (revokedIf_id w at_) (revokedIf_tokenHash w at_)
    fun x hx y hy hne heq => t.uniqueReplaced x hx y hy
      (by rwa [revokedIf_replacedById] at hne) (by rwa [revokedIf_replacedById,
        revokedIf_replacedById] at heq)

/-- `update` on the table, unless the row that is named is not the only one with the new
    `replacedById`. -/
def TokenTable.update? (t : TokenTable) (id : String) (at_ : Time) (next : String) :
    Option TokenTable :=
  if h : ∀ x ∈ t.rows, ∀ y ∈ t.rows, (x.replacedIf id at_ next).replacedById ≠ none →
      (x.replacedIf id at_ next).replacedById = (y.replacedIf id at_ next).replacedById → x = y then
    some (t.map (RefreshToken.replacedIf id at_ next) (replacedIf_id id at_ next)
      (replacedIf_tokenHash id at_ next) h)
  else none

/-- The result of a call at time `now`, and the table after it. A failed write leaves the table as
    it was; `id` is the `cuid()` that a `create` generates. -/
def TokenCall.exec (now : Time) (id : String) (t : TokenTable) :
    (c : TokenCall) → Except PrismaErrorCode c.Ret × TokenTable
  | .findUnique h => (.ok (t.rows.find? fun x => x.tokenHash = h), t)
  | .create d =>
    match t.insert? (d.row now id) rfl with
    | some t' => (.ok (d.row now id), t')
    | none => (.error .uniqueConstraint, t)
  | .update target at_ next =>
    match t.find? target with
    | some x =>
      match t.update? target at_ next with
      | some t' => (.ok (x.replaced at_ next), t')
      | none => (.error .uniqueConstraint, t)
    | none => (.error .recordNotFound, t)
  | .updateMany w at_ => (.ok (t.rows.filter w.selects).length, t.updateMany w at_)

/-! ## What the queries do -/

section Exec

variable {now : Time} {id : String} {t t' : TokenTable} {code : PrismaErrorCode}

theorem exec_findUnique {h : String} {r : Option RefreshToken}
    (he : (TokenCall.findUnique h).exec now id t = (.ok r, t')) :
    t' = t ∧ (∀ x, r = some x ↔ x ∈ t ∧ x.tokenHash = h) := by
  cases he
  refine ⟨rfl, fun x => ⟨fun hx => ?_, fun ⟨hx, hh⟩ => ?_⟩⟩
  · exact ⟨List.mem_of_find?_eq_some hx, by simpa using List.find?_some hx⟩
  · cases hf : t.rows.find? fun y => decide (y.tokenHash = h) with
    | none => simpa [hh] using List.find?_eq_none.mp hf x hx
    | some y =>
      have hy : y.tokenHash = h := by simpa using List.find?_some hf
      rw [TokenTable.eq_of_hash (List.mem_of_find?_eq_some hf) hx (hy.trans hh.symm)]

/-- What a create does that succeeds. -/
structure Created (now : Time) (id : String) (t : TokenTable) (d : TokenCreateInput)
    (row : RefreshToken) (t' : TokenTable) : Prop where
  row_eq : row = d.row now id
  newId : ∀ x ∈ t, x.id ≠ id
  newHash : ∀ x ∈ t, x.tokenHash ≠ d.tokenHash
  mem : ∀ x, x ∈ t' ↔ x = row ∨ x ∈ t

theorem exec_create_ok {d : TokenCreateInput} {row : RefreshToken}
    (h : (TokenCall.create d).exec now id t = (.ok row, t')) : Created now id t d row t' := by
  simp only [TokenCall.exec] at h
  split at h
  · rename_i t₁ ht
    obtain ⟨hid, hhash, hmem⟩ := TokenTable.insert?_eq_some ht
    cases h
    exact ⟨rfl, hid, hhash, hmem⟩
  · cases h

theorem exec_error (c : TokenCall) (h : c.exec now id t = (.error code, t')) : t' = t := by
  cases c with
  | findUnique h' => cases h
  | create d =>
    simp only [TokenCall.exec] at h
    split at h <;> cases h
    rfl
  | update target at_ next =>
    simp only [TokenCall.exec] at h
    split at h
    · split at h <;> cases h
      rfl
    · cases h
      rfl
  | updateMany w at_ => cases h

theorem exec_update_ok {target next : String} {at_ : Time} {x : RefreshToken}
    (h : (TokenCall.update target at_ next).exec now id t = (.ok x, t')) :
    ∀ y, y ∈ t' ↔ ∃ y₀ ∈ t, y = y₀.replacedIf target at_ next := by
  simp only [TokenCall.exec] at h
  split at h
  · split at h
    · rename_i t₁ ht
      cases h
      intro y
      simp only [TokenTable.update?] at ht
      split_ifs at ht
      cases ht
      simp only [TokenTable.mem_def, TokenTable.map, List.mem_map, eq_comm]
    · cases h
  · cases h

/-- The update is refused only if its row is missing or some row has the new `replacedById`. -/
theorem exec_update_error {target next : String} {at_ : Time}
    (h : (TokenCall.update target at_ next).exec now id t = (.error code, t')) :
    (∀ x ∈ t, x.id ≠ target) ∨ ∃ x ∈ t, x.replacedById = some next := by
  simp only [TokenCall.exec] at h
  split at h
  · split at h
    · cases h
    · rename_i hnone
      right
      by_contra hfree
      push Not at hfree
      refine Option.isSome_iff_ne_none.mp ?_ hnone
      have hdone : ∀ x ∈ t.rows, ∀ y ∈ t.rows, (x.replacedIf target at_ next).replacedById ≠ none →
          (x.replacedIf target at_ next).replacedById =
            (y.replacedIf target at_ next).replacedById → x = y := by
        intro x hx y hy
        unfold RefreshToken.replacedIf
        split_ifs with hxt hyt hyt
        · exact fun _ _ => t.eq_of_key hx hy (hxt.trans hyt.symm)
        · exact fun _ heq => absurd heq.symm (hfree y hy)
        · exact fun _ heq => absurd heq (hfree x hx)
        · exact t.uniqueReplaced x hx y hy
      rw [TokenTable.update?, dif_pos hdone]
      rfl
  · rename_i hnone
    exact .inl (Table.find?_eq_none_iff.mp hnone)

theorem mem_updateMany {w : TokenWhere} {at_ : Time} {y : RefreshToken} :
    y ∈ t.updateMany w at_ ↔ ∃ x ∈ t, y = x.revokedIf w at_ := by
  simp only [TokenTable.mem_def, TokenTable.updateMany, TokenTable.map, List.mem_map, eq_comm]

/-- What every query keeps of a row. -/
structure Keeps (x y : RefreshToken) : Prop where
  id : y.id = x.id
  tokenHash : y.tokenHash = x.tokenHash
  familyId : y.familyId = x.familyId
  expiresAt : y.expiresAt = x.expiresAt
  revoked : y.revokedAt = none → x.revokedAt = none

theorem Keeps.refl (x : RefreshToken) : Keeps x x := ⟨rfl, rfl, rfl, rfl, fun h => h⟩

theorem Keeps.trans {x y z : RefreshToken} (h : Keeps x y) (h' : Keeps y z) : Keeps x z :=
  ⟨h'.id.trans h.id, h'.tokenHash.trans h.tokenHash, h'.familyId.trans h.familyId,
    h'.expiresAt.trans h.expiresAt, fun hz => h.revoked (h'.revoked hz)⟩

theorem keeps_revokedIf (w : TokenWhere) (at_ : Time) (x : RefreshToken) :
    Keeps x (x.revokedIf w at_) :=
  ⟨revokedIf_id .., revokedIf_tokenHash .., revokedIf_familyId .., by
    unfold RefreshToken.revokedIf; split_ifs <;> rfl, fun h => (revokedIf_eq_none.mp h).1⟩

theorem keeps_replacedIf (id : String) (at_ : Time) (next : String) (x : RefreshToken) :
    Keeps x (x.replacedIf id at_ next) := by
  refine ⟨replacedIf_id .., replacedIf_tokenHash .., replacedIf_familyId .., ?_, ?_⟩
  · unfold RefreshToken.replacedIf; split_ifs <;> rfl
  · unfold RefreshToken.replacedIf
    split_ifs
    · exact nofun
    · exact fun h => h

/-- No row is removed, and what identifies it stays; a revoked row stays revoked. -/
theorem exec_keeps {c : TokenCall} {r : Except PrismaErrorCode c.Ret}
    (h : c.exec now id t = (r, t')) {x : RefreshToken} (hx : x ∈ t) : ∃ y ∈ t', Keeps x y := by
  cases r with
  | error code => exact ⟨x, by rwa [exec_error c h], .refl x⟩
  | ok a =>
    cases c with
    | findUnique h' =>
      cases h
      exact ⟨x, hx, .refl x⟩
    | create d => exact ⟨x, ((exec_create_ok h).mem x).mpr (.inr hx), .refl x⟩
    | update target at_ next =>
      exact ⟨_, (exec_update_ok h _).mpr ⟨x, hx, rfl⟩, keeps_replacedIf target at_ next x⟩
    | updateMany w at_ =>
      cases h
      exact ⟨_, mem_updateMany.mpr ⟨x, hx, rfl⟩, keeps_revokedIf w at_ x⟩

end Exec

end CryptoPay.Auth
