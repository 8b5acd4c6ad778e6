import CryptoPay.Async.Sequential
import CryptoPay.Auth.Rotations

/-!
# Reuse of a refresh token

A history of logins, refreshes and logouts, one after the other, each run to
its end while the clock advances. A refresh with a token that was rotated,
revoked or expired before revokes the family of the token for good.

Results:
* `rotate_outcome`: what one rotation does.
* `session_newest`: an unrevoked token is the newest of its family.
* `theft_is_permanent`: a refresh succeeds only with the newest token of a
  family, and after a refresh with a spent token no refresh in the family
  succeeds; neither touches another family.
-/

namespace CryptoPay.Auth

open Async

/-- A call of `AuthService`. -/
inductive Call where
  | login (userId : String) (ctx : RefreshContext)
  | refresh (rawRefreshToken : String) (ctx : RefreshContext)
  | logout (rawRefreshToken : Option String)
  deriving DecidableEq, Repr

/-- The method that a call runs; only a login and a refresh return tokens. -/
def Call.method (T : Service) : Call → Action (Option Service.AuthTokens)
  | .login userId ctx => T.login userId ctx >>= fun tokens => pure (some tokens)
  | .refresh raw ctx => T.refresh raw ctx >>= fun tokens => pure (some tokens)
  | .logout raw => T.logout raw >>= fun _ => pure none

/-- Calls that are run one after the other, with their requests, newest first. -/
inductive Session (T : Service) (s : State) : Requests → State → Prop where
  | nil : Session T s [] s
  | tick {h : Requests} {s₁ : State} (hs : Session T s h s₁) (ms : ℕ) :
      Session T s h { s₁ with now := s₁.now + ms }
  | call {h : Requests} {s₁ s₂ : State} {pid : ℕ} {evs : List (Event calls)}
      {x : Except Error (Option Service.AuthTokens)} (hs : Session T s h s₁) (c : Call)
      (hc : Runs machine pid (c.method T) s₁ evs x s₂) : Session T s (evs.reverse ++ h) s₂

/-- The token of the family that was issued last. -/
def newest (f : String) (h : Requests) : Option RefreshToken :=
  (inserted h).find? fun row => row.familyId = f

theorem inserted_append (h h' : Requests) : inserted (h ++ h') = inserted h ++ inserted h' :=
  List.filterMap_append

theorem inserted_reverse (h : Requests) : inserted h.reverse = (inserted h).reverse :=
  List.filterMap_reverse

/-! ## What one call does -/

section Calls

variable {T : Service} {pid : ℕ} {s s' : State} {evs : List (Event calls)}

theorem drifts_clock (h : Drifts machine s s') :
    s'.tokens = s.tokens ∧ s'.generated = s.generated ∧ s.now ≤ s'.now := by
  induction h with
  | refl => exact ⟨rfl, rfl, le_refl _⟩
  | @tail s₁ s₂ _ hstep ih =>
    obtain ⟨act, -, hact⟩ := hstep
    cases hact
    obtain ⟨ht, hg, hle⟩ := ih
    exact ⟨ht, hg, hle.trans (le_add_of_nonneg_right (Int.natCast_nonneg act))⟩

/-- What a call does that stores no token and generates no id. -/
structure Silent (s : State) (evs : List (Event calls)) (s' : State) : Prop where
  inserted : inserted evs = []
  generated : s'.generated = s.generated
  now : s.now ≤ s'.now

theorem Silent.append {s₁ : State} {evs' : List (Event calls)} (h : Silent s evs s₁)
    (h' : Silent s₁ evs' s') : Silent s (evs ++ evs') s' := by
  refine ⟨?_, h'.generated.trans h.generated, h.now.trans h'.now⟩
  rw [inserted_append, h.inserted, h'.inserted]
  rfl

theorem Silent.drift (hd : Drifts machine s s') : Silent s [] s' :=
  ⟨rfl, (drifts_clock hd).2.1, (drifts_clock hd).2.2⟩

theorem dateNow_ends (s : State) : dateNow.Ends machine pid s fun x evs s' =>
    Silent s evs s' ∧ s'.tokens = s.tokens ∧ ∃ t, x = .ok t ∧ s.now ≤ t := by
  refine Prog.ends_perform fun s₁ i r s₂ s' hd hr hd' => ?_
  obtain ⟨rfl, rfl⟩ := respond_now (i := i) hr
  obtain ⟨ht, hg, hle⟩ := drifts_clock hd
  obtain ⟨ht', hg', hle'⟩ := drifts_clock hd'
  exact ⟨⟨rfl, hg'.trans hg, hle.trans hle'⟩, ht'.trans ht, _, rfl, hle⟩

/-- A query runs once on the rows; its events are one. -/
theorem prisma_ends (call : TokenCall) (s : State) : (prisma call).Ends machine pid s
    fun x evs s' => ∃ (now : Time) (i : String) (r : Except PrismaErrorCode call.Ret),
      call.exec now i s.tokens = (r, s'.tokens) ∧ evs = [⟨pid, .db call, r⟩] ∧
      x = r.mapError Error.prisma ∧ s'.generated = s.generated ∧ s.now ≤ s'.now := by
  refine Prog.ends_request fun s₁ i r s₂ s' hd hr hd' => ?_
  obtain ⟨hexec, hs₂⟩ := respond_db hr
  obtain ⟨ht, hg, hle⟩ := drifts_clock hd
  obtain ⟨ht', hg', hle'⟩ := drifts_clock hd'
  rw [ht, ← ht'] at hexec
  refine ⟨_, i, r, hexec, rfl, rfl, by rw [hg', hs₂, hg], hle.trans ?_⟩
  rw [hs₂] at hle'
  exact hle'

/-- The tokens that a `where` selects are revoked. -/
theorem updateMany_ends (w : TokenWhere) (s : State) :
    (dateNow >>= fun now => prisma (.updateMany w now) >>= fun _ => (pure () : Action Unit)).Ends
      machine pid s fun x evs s' =>
        Silent s evs s' ∧ x = .ok () ∧ ∃ at_, s'.tokens = s.tokens.updateMany w at_ := by
  refine Prog.ends_bind ((dateNow_ends s).post fun x evs s₁ hnow => ?_)
  obtain ⟨hs, ht, t, rfl, -⟩ := hnow
  refine ⟨fun now hx => ?_, fun e hx => by cases hx⟩
  refine Prog.ends_bind ((prisma_ends _ s₁).post fun x evs₂ s₂ hq => ?_)
  obtain ⟨now', i, r, hexec, rfl, rfl, hg, hle⟩ := hq
  obtain ⟨rfl, htokens⟩ := Prod.mk.inj hexec
  refine ⟨fun n _ => Prog.ends_ret fun s' hd => ?_, fun e hx => by cases hx⟩
  refine ⟨hs.append (Silent.append ⟨rfl, hg, hle⟩ (.drift hd)), rfl, now, ?_⟩
  rw [(drifts_clock hd).1, ← htokens, ht]

/-- A token that is stored in a family. -/
structure Stored (s : State) (f : String) (evs : List (Event calls)) (s' : State)
    (row : RefreshToken) : Prop where
  inserted : inserted evs = [row]
  family : row.familyId = f
  unlinked : row.replacedById = none
  newId : ∀ x ∈ s.tokens, x.id ≠ row.id
  mem : ∀ x, x ∈ s'.tokens ↔ x = row ∨ x ∈ s.tokens
  now : s.now ≤ s'.now

/-- The part of `issue` after the family is known: the token is stored, or the insert fails. -/
theorem store_ends (userId raw f : String) (ctx : RefreshContext) (s : State) :
    (dateNow >>= fun now => prisma (.create {
      userId, tokenHash := T.hash raw, familyId := f, expiresAt := now + T.ttlSeconds * 1000
      userAgent := ctx.userAgent, ipAddress := ctx.ipAddress }) >>= fun record =>
        (pure ⟨raw, record⟩ : Action IssuedRefreshToken)).Ends machine pid s fun x evs s' =>
      s'.generated = s.generated ∧
        ((∃ row, x = .ok ⟨raw, row⟩ ∧ Stored s f evs s' row) ∨
          (∃ e, x = .error e) ∧ Silent s evs s' ∧ s'.tokens = s.tokens) := by
  refine Prog.ends_bind ((dateNow_ends s).post fun x evs s₁ hnow => ?_)
  obtain ⟨hs, ht, t, rfl, -⟩ := hnow
  refine ⟨fun now _ => ?_, fun e hx => by cases hx⟩
  refine Prog.ends_bind ((prisma_ends _ s₁).post fun x evs₂ s₂ hq => ?_)
  obtain ⟨now', i, r, hexec, rfl, rfl, hg, hle⟩ := hq
  cases r with
  | error code =>
    refine ⟨fun n hx => (by cases hx), fun e he => ⟨hg.trans hs.generated, .inr ⟨⟨e, rfl⟩, ?_⟩⟩⟩
    exact ⟨hs.append ⟨rfl, hg, hle⟩, (exec_error _ hexec).trans ht⟩
  | ok row =>
    refine ⟨fun record hx => Prog.ends_ret fun s' hd => ?_, fun e hx => (by cases hx)⟩
    cases hx
    obtain ⟨hrow, hid, -, hmem⟩ := exec_create_ok hexec
    obtain ⟨htd, hgd, hled⟩ := drifts_clock hd
    refine ⟨hgd.trans (hg.trans hs.generated), .inl ⟨row, rfl, ?_, ?_, ?_, ?_, ?_, ?_⟩⟩
    · rw [List.append_nil, inserted_append, hs.inserted]
      rfl
    · rw [hrow]
      rfl
    · rw [hrow]
      rfl
    · rw [← ht, hrow]
      exact hid
    · rw [htd, ← ht]
      exact hmem
    · exact hs.now.trans (hle.trans hled)

/-- A token is issued in a known family, or the insert fails. -/
theorem issue_ends (userId f : String) (ctx : RefreshContext) (s : State) :
    (T.issue userId ctx (some f)).Ends machine pid s fun x evs s' =>
      s'.generated = s.generated ∧
        ((∃ raw row, x = .ok ⟨raw, row⟩ ∧ Stored s f evs s' row) ∨
          (∃ e, x = .error e) ∧ Silent s evs s' ∧ s'.tokens = s.tokens) := by
  refine Prog.ends_bind (Prog.ends_perform fun s₁ i raw s₂ s₃ hd hr hd' => ?_)
  have hs₂ := respond_randomBytes (i := i) hr
  subst hs₂
  obtain ⟨ht, hg, hle⟩ := drifts_clock (hd.trans hd')
  refine ⟨fun raw' _ => ?_, fun e hx => by cases hx⟩
  refine (store_ends userId raw' f ctx s₃).post fun x evs s' hout => ?_
  obtain ⟨hgen, ⟨row, rfl, hrow⟩ | ⟨⟨e, rfl⟩, hsil, htok⟩⟩ := hout
  · refine ⟨hgen.trans hg, .inl ⟨raw', row, rfl, ?_⟩⟩
    refine ⟨hrow.inserted, hrow.family, hrow.unlinked, ?_, ?_, hle.trans hrow.now⟩
    · rw [← ht]
      exact hrow.newId
    · rw [← ht]
      exact hrow.mem
  · exact ⟨hgen.trans hg, .inr ⟨⟨e, rfl⟩, ⟨hsil.inserted, hsil.generated.trans hg,
      hle.trans hsil.now⟩, htok.trans ht⟩⟩

/-- A token that may not be used any more. -/
def Spent (now : Time) (t : RefreshToken) : Prop := t.revokedAt ≠ none ∨ t.expiresAt < now

/-- The check of `rotate`; a token that was spent before is found to be spent. -/
theorem spent_ends (t : RefreshToken) (s : State) :
    (Service.spent t).Ends machine pid s fun x evs s' =>
      Silent s evs s' ∧ s'.tokens = s.tokens ∧ ∃ b, x = .ok b ∧ (Spent s.now t → b = true) ∧
        (b = false → t.revokedAt = none) := by
  unfold Service.spent
  split_ifs with hrev
  · exact Prog.ends_ret fun s' hd => ⟨.drift hd, (drifts_clock hd).1, true, rfl, fun _ => rfl, nofun⟩
  · refine Prog.ends_bind ((dateNow_ends s).post fun x evs s₁ hnow => ?_)
    obtain ⟨hs, ht, now, rfl, hle⟩ := hnow
    refine ⟨fun now' hx => Prog.ends_ret fun s' hd => ?_, fun e hx => by cases hx⟩
    cases hx
    have hnone : t.revokedAt = none := by simpa using hrev
    refine ⟨hs.append (.drift hd), (drifts_clock hd).1.trans ht, _, rfl, fun hspent => ?_,
      fun _ => hnone⟩
    rcases hspent with hsome | hexp
    · exact absurd hnone hsome
    · exact decide_eq_true (lt_of_lt_of_le hexp hle)

/-- What a rotation does. -/
inductive Rotation (T : Service) (raw : String) (s : State) (evs : List (Event calls))
    (s' : State) : Except Error IssuedRefreshToken → Prop where
  /-- The token is unknown, or the successor is not stored. -/
  | failed (e : Error) (silent : Silent s evs s') (tokens : s'.tokens = s.tokens)
      (unspent : ∀ t ∈ s.tokens, t.tokenHash = T.hash raw → ¬ Spent s.now t) :
      Rotation T raw s evs s' (.error e)
  /-- The token is spent: its family is revoked. -/
  | reuse (e : Error) (silent : Silent s evs s') (t : RefreshToken) (mem : t ∈ s.tokens)
      (hash : t.tokenHash = T.hash raw)
      (revoked : ∃ at_, s'.tokens = s.tokens.updateMany (.familyId t.familyId) at_) :
      Rotation T raw s evs s' (.error e)
  /-- The token is replaced by a new one of its family. -/
  | rotated (t row : RefreshToken) (raw' : String) (mem : t ∈ s.tokens)
      (hash : t.tokenHash = T.hash raw) (live : t.revokedAt = none) (unspent : ¬ Spent s.now t)
      (inserted : inserted evs = [row]) (evs₁ : List (Event calls)) (s₁ : State)
      (stored : Stored s t.familyId evs₁ s₁ row) (at_ : Time)
      (tokens : ∀ x, x ∈ s'.tokens ↔ ∃ y ∈ s₁.tokens, x = y.replacedIf t.id at_ row.id)
      (generated : s'.generated = s.generated) (now : s.now ≤ s'.now) :
      Rotation T raw s evs s' (.ok ⟨raw', row⟩)

/-- Every replacement is a stored token. -/
def Linked (s : State) : Prop :=
  ∀ x ∈ s.tokens, ∀ i, x.replacedById = some i → ∃ y ∈ s.tokens, y.id = i

theorem rotate_ends (raw : String) (ctx : RefreshContext) {s : State} (hlink : Linked s) :
    (T.rotate raw ctx).Ends machine pid s fun x evs s' => Rotation T raw s evs s' x := by
  refine Prog.ends_bind ((prisma_ends _ s).post fun x evs s₁ hq => ?_)
  obtain ⟨_, _, r, hexec, rfl, rfl, hg, hle⟩ := hq
  cases r with
  | error code => cases (Prod.mk.inj hexec).1
  | ok existing =>
    obtain ⟨ht, hfind⟩ := exec_findUnique hexec
    have hsil : Silent s [⟨pid, .db (.findUnique (T.hash raw)), .ok existing⟩] s₁ := by
      refine ⟨?_, hg, hle⟩
      cases existing <;> rfl
    refine ⟨fun existing' hx => ?_, fun e hx => by cases hx⟩
    cases hx
    cases existing with
    | none =>
      refine Prog.ends_throw fun s' hd => .failed _ (hsil.append (.drift hd))
        ((drifts_clock hd).1.trans ht) fun t hmem hhash => ?_
      cases (hfind t).mpr ⟨hmem, hhash⟩
    | some t =>
      obtain ⟨hmem, hhash⟩ := (hfind t).mp rfl
      refine Prog.ends_bind ((spent_ends t s₁).post fun x evs₂ s₂ hspent => ?_)
      obtain ⟨hsil₂, ht₂, b, rfl, hdead, hlive⟩ := hspent
      refine ⟨fun b' hx => ?_, fun e hx => by cases hx⟩
      cases hx
      have hsil := hsil.append hsil₂
      have htokens : s₂.tokens = s.tokens := ht₂.trans ht
      cases b with
      | true =>
        -- the family is revoked, and the rotation throws
        refine Prog.ends_bind ((updateMany_ends (.familyId t.familyId) s₂).post
          fun x evs₃ s₃ hrev => ?_)
        obtain ⟨hsil₃, rfl, at_, hrev⟩ := hrev
        refine ⟨fun _ _ => Prog.ends_throw fun s' hd => ?_, fun e hx => by cases hx⟩
        have hall := hsil.append (hsil₃.append (.drift hd))
        rw [List.append_assoc] at hall
        refine .reuse _ hall t hmem hhash ⟨at_, ?_⟩
        rw [(drifts_clock hd).1, hrev, htokens]
      | false =>
        have hunspent : ¬ Spent s.now t := fun hsp => by
          have := hdead (hsp.imp id fun hexp => lt_of_lt_of_le hexp hle)
          cases this
        refine Prog.ends_bind ((issue_ends t.userId t.familyId ctx s₂).post
          fun x evs₃ s₃ hissue => ?_)
        obtain ⟨hg₃, ⟨raw', row, rfl, hrow⟩ | ⟨⟨e, rfl⟩, hsil₃, ht₃⟩⟩ := hissue
        · refine ⟨fun next hx => ?_, fun e hx => by cases hx⟩
          cases hx
          refine Prog.ends_bind ((dateNow_ends s₃).post fun x evs₄ s₄ hnow => ?_)
          obtain ⟨hsil₄, ht₄, now, rfl, -⟩ := hnow
          refine ⟨fun now' hx => ?_, fun e hx => by cases hx⟩
          cases hx
          refine Prog.ends_bind ((prisma_ends _ s₄).post fun x evs₅ s₅ hq => ?_)
          obtain ⟨_, _, r, hexec, rfl, rfl, hg₅, hle₅⟩ := hq
          have hstored : Stored s t.familyId evs₃ s₃ row := by
            refine ⟨hrow.inserted, hrow.family, hrow.unlinked, ?_, ?_, hsil.now.trans hrow.now⟩
            · rw [← htokens]
              exact hrow.newId
            · rw [← htokens]
              exact hrow.mem
          cases r with
          | error code =>
            -- its row is stored, and no row has been replaced by the new one
            exfalso
            rcases exec_update_error hexec with hmissing | ⟨y, hy, hlinked⟩
            · exact hmissing t (by rw [ht₄]; exact (hstored.mem t).mpr (.inr hmem)) rfl
            · rw [ht₄] at hy
              rcases (hstored.mem y).mp hy with rfl | hy
              · rw [hstored.unlinked] at hlinked
                cases hlinked
              · obtain ⟨z, hz, hid⟩ := hlink y hy _ hlinked
                exact hstored.newId z hz hid
          | ok updated =>
            refine ⟨fun _ _ => Prog.ends_ret fun s' hd => ?_, fun e hx => by cases hx⟩
            obtain ⟨htd, hgd, hled⟩ := drifts_clock hd
            have hmem' := exec_update_ok hexec
            rw [ht₄, ← htd] at hmem'
            refine .rotated t row raw' hmem hhash (hlive rfl) hunspent ?_ evs₃ s₃ hstored now
              hmem' ?_ ?_
            · rw [inserted_append, inserted_append, inserted_append, inserted_append,
                hsil₂.inserted, hrow.inserted, hsil₄.inserted]
              rfl
            · rw [hgd, hg₅, hsil₄.generated, hg₃, hsil.generated]
            · exact hstored.now.trans (hsil₄.now.trans (hle₅.trans hled))
        · refine ⟨fun next hx => (by cases hx), fun e' he => ?_⟩
          have hall := hsil.append hsil₃
          rw [List.append_assoc] at hall
          refine .failed _ hall (ht₃.trans htokens) fun t' hmem' hhash' => ?_
          rw [TokenTable.eq_of_hash hmem' hmem (hhash'.trans hhash.symm)]
          exact hunspent

/-- What is done after a rotation and stores nothing. -/
theorem Rotation.append {raw : String} {s₁ : State} {evs' : List (Event calls)}
    {y : Except Error IssuedRefreshToken} (h : Rotation T raw s evs s₁ y)
    (hsil : Silent s₁ evs' s') (htok : s'.tokens = s₁.tokens) :
    Rotation T raw s (evs ++ evs') s' y := by
  cases h with
  | failed e silent tokens unspent =>
    exact .failed e (silent.append hsil) (htok.trans tokens) unspent
  | reuse e silent t mem hash revoked =>
    exact .reuse e (silent.append hsil) t mem hash (by rwa [htok])
  | rotated t row raw' mem hash live unspent hins evs₁ s₂ stored at_ tokens generated now =>
    refine .rotated t row raw' mem hash live unspent ?_ evs₁ s₂ stored at_ ?_ ?_ ?_
    · rw [inserted_append, hins, hsil.inserted]
      rfl
    · rwa [htok]
    · exact hsil.generated.trans generated
    · exact now.trans hsil.now

/-- A signature. -/
theorem sign_ends (userId : String) (s : State) : (sign userId).Ends machine pid s
    fun x evs s' => Silent s evs s' ∧ s'.tokens = s.tokens ∧ ∃ jwt, x = .ok jwt := by
  refine Prog.ends_perform fun s₁ i jwt s₂ s' hd hr hd' => ?_
  have hs₂ := respond_sign (i := i) hr
  subst hs₂
  obtain ⟨ht, hg, hle⟩ := drifts_clock (hd.trans hd')
  exact ⟨⟨rfl, hg, hle⟩, ht, jwt, rfl⟩

/-- A refresh is a rotation, and a signature when it succeeds. -/
theorem refresh_ends (raw : String) (ctx : RefreshContext) {s : State} (hlink : Linked s) :
    (T.refresh raw ctx).Ends machine pid s fun x evs s' =>
      (∃ e, x = .error e ∧ Rotation T raw s evs s' (.error e)) ∨
        ∃ jwt issued, x = .ok ⟨jwt, issued.raw⟩ ∧ Rotation T raw s evs s' (.ok issued) := by
  refine Prog.ends_bind ((rotate_ends raw ctx hlink).post fun x evs s₁ hrot => ?_)
  refine ⟨fun issued hx => ?_, fun e hx => .inl ⟨e, rfl, hx ▸ hrot⟩⟩
  subst hx
  refine Prog.ends_bind ((sign_ends issued.record.userId s₁).post fun x evs₂ s₂ hsign => ?_)
  obtain ⟨hsil, htok, jwt, rfl⟩ := hsign
  refine ⟨fun jwt' _ => Prog.ends_ret fun s' hd => .inr ⟨jwt', issued, rfl, ?_⟩,
    fun e hx => by cases hx⟩
  exact hrot.append (hsil.append (.drift hd)) ((drifts_clock hd).1.trans htok)

/-- What a login does: it stores the first token of a new family, or nothing. -/
def Login (s : State) (evs : List (Event calls)) (s' : State) : Prop :=
  (∃ f row, f ∉ s.generated ∧ s'.generated = f :: s.generated ∧ Stored s f evs s' row) ∨
    (inserted evs = [] ∧ s'.tokens = s.tokens ∧ s.now ≤ s'.now ∧
      ∀ f ∈ s.generated, f ∈ s'.generated)

theorem Login.after {s₁ : State} {evs' : List (Event calls)} (h : Login s evs s₁)
    (hsil : Silent s₁ evs' s') (htok : s'.tokens = s₁.tokens) : Login s (evs ++ evs') s' := by
  rcases h with ⟨f, row, hnew, hgen, hrow⟩ | ⟨hins, htok₁, hle, hgen⟩
  · refine .inl ⟨f, row, hnew, hsil.generated.trans hgen, ?_, hrow.family, hrow.unlinked,
      hrow.newId, ?_, hrow.now.trans hsil.now⟩
    · rw [inserted_append, hrow.inserted, hsil.inserted]
      rfl
    · rw [htok]
      exact hrow.mem
  · refine .inr ⟨?_, htok.trans htok₁, hle.trans hsil.now, fun f hf => ?_⟩
    · rw [inserted_append, hins, hsil.inserted]
      rfl
    · rw [hsil.generated]
      exact hgen f hf

theorem Login.before {s₁ : State} {evs' : List (Event calls)} (hsil : Silent s evs s₁)
    (htok : s₁.tokens = s.tokens) (h : Login s₁ evs' s') : Login s (evs ++ evs') s' := by
  have hins : inserted (evs ++ evs') = inserted evs' := by
    rw [inserted_append, hsil.inserted]
    rfl
  rcases h with ⟨f, row, hnew, hgen, hrow⟩ | ⟨hins', htok₁, hle, hgen⟩
  · refine .inl ⟨f, row, by rwa [← hsil.generated], by rw [hgen, hsil.generated],
      hins.trans hrow.inserted, hrow.family, hrow.unlinked, ?_, ?_, hsil.now.trans hrow.now⟩
    · rw [← htok]
      exact hrow.newId
    · rw [← htok]
      exact hrow.mem
  · refine .inr ⟨hins.trans hins', htok₁.trans htok, hsil.now.trans hle, fun f hf => hgen f ?_⟩
    rwa [hsil.generated]

/-- A token is issued in a new family, or nothing is stored. -/
theorem issue_new_ends (userId : String) (ctx : RefreshContext) (s : State) :
    (T.issue userId ctx).Ends machine pid s fun _ evs s' => Login s evs s' := by
  refine Prog.ends_bind (Prog.ends_perform fun s₁ i raw s₂ s₃ hd hr hd' => ?_)
  have hs₂ := respond_randomBytes (i := i) hr
  subst hs₂
  obtain ⟨ht, hg, hle⟩ := drifts_clock (hd.trans hd')
  have hsil : Silent s [⟨pid, .randomBytes, raw⟩] s₃ := ⟨rfl, hg, hle⟩
  refine ⟨fun raw' _ => ?_, fun e hx => by cases hx⟩
  refine Prog.Ends.post (Q := fun _ evs s' => Login s₃ evs s') ?_
    fun _ _ _ hlogin => hlogin.before hsil ht
  refine Prog.ends_bind (Prog.ends_perform fun s₄ i f s₅ s₆ hd₄ hr₅ hd₆ => ?_)
  obtain ⟨hnew, rfl⟩ := respond_generateId hr₅
  obtain ⟨ht₄, hg₄, hle₄⟩ := drifts_clock hd₄
  obtain ⟨ht₆, hg₆, hle₆⟩ := drifts_clock hd₆
  have htokens : s₆.tokens = s₃.tokens := ht₆.trans ht₄
  refine ⟨fun f' hf => ?_, fun e hx => by cases hx⟩
  cases hf
  refine (store_ends userId raw' f ctx s₆).post fun x evs s' hout => ?_
  obtain ⟨hgen, ⟨row, -, hrow⟩ | ⟨-, hsil', htok'⟩⟩ := hout
  · refine .inl ⟨f, row, by rwa [← hg₄], by rw [hgen, hg₆, hg₄], hrow.inserted, hrow.family,
      hrow.unlinked, ?_, ?_, hle₄.trans (hle₆.trans hrow.now)⟩
    · rw [← htokens]
      exact hrow.newId
    · rw [← htokens]
      exact hrow.mem
  · refine .inr ⟨hsil'.inserted, htok'.trans htokens, hle₄.trans (hle₆.trans hsil'.now), ?_⟩
    intro g hmem
    rw [hgen, hg₆, hg₄]
    exact List.mem_cons_of_mem f hmem

theorem login_ends (userId : String) (ctx : RefreshContext) (s : State) :
    (T.login userId ctx).Ends machine pid s fun _ evs s' => Login s evs s' := by
  refine Prog.ends_bind ((sign_ends userId s).post fun x evs s₁ hsign => ?_)
  obtain ⟨hsil, htok, jwt, rfl⟩ := hsign
  refine ⟨fun jwt' _ => ?_, fun e hx => by cases hx⟩
  refine Prog.Ends.post (Q := fun _ evs s' => Login s₁ evs s') ?_
    fun _ _ _ hlogin => hlogin.before hsil htok
  refine Prog.ends_bind ((issue_new_ends userId ctx s₁).post fun x evs₂ s₂ hlogin => ?_)
  exact ⟨fun issued _ => Prog.ends_ret fun s' hd =>
    hlogin.after (.drift hd) (drifts_clock hd).1, fun _ _ => hlogin⟩

/-- A logout revokes at most the token that it is given. -/
theorem logout_ends (raw : Option String) (s : State) :
    (T.logout raw).Ends machine pid s fun _ evs s' => Silent s evs s' ∧
      (s'.tokens = s.tokens ∨ ∃ hash at_, s'.tokens = s.tokens.updateMany (.tokenHash hash) at_) := by
  have hskip : (pure () : Action Unit).Ends machine pid s fun _ evs s' => Silent s evs s' ∧
      (s'.tokens = s.tokens ∨
        ∃ hash at_, s'.tokens = s.tokens.updateMany (.tokenHash hash) at_) :=
    Prog.ends_ret fun s' hd => ⟨.drift hd, .inl (drifts_clock hd).1⟩
  unfold Service.logout
  cases raw with
  | none => exact hskip
  | some raw =>
    simp only
    split_ifs
    · exact hskip
    · exact (updateMany_ends (.tokenHash (T.hash raw)) s).post fun x evs s' hrev =>
        ⟨hrev.1, .inr ⟨T.hash raw, hrev.2.2⟩⟩

end Calls

/-! ## Histories -/

/-- What holds between two calls. -/
structure Orderly (s : State) (h : Requests) : Prop where
  linked : Linked s
  retired : ∀ x ∈ s.tokens, x.replacedById ≠ none → x.revokedAt ≠ none
  family : ∀ x ∈ s.tokens, x.familyId ∈ s.generated
  stored : ∀ row ∈ inserted h, ∃ x ∈ s.tokens, Keeps row x
  newest : ∀ x ∈ s.tokens, x.revokedAt = none → ∃ row, newest x.familyId h = some row ∧ Keeps row x

section Steps

variable {s s' : State} {h evs : Requests}

theorem Orderly.start (h₀ : s.Start) : Orderly s [] := by
  have hno : ∀ x, x ∉ s.tokens := fun x hx => TokenTable.not_mem_empty x (h₀.1 ▸ hx)
  exact ⟨fun x hx => absurd hx (hno x), fun x hx => absurd hx (hno x),
    fun x hx => absurd hx (hno x), fun _ hrow => absurd hrow List.not_mem_nil,
    fun x hx => absurd hx (hno x)⟩

theorem inserted_after (hins : inserted evs = []) : inserted (evs.reverse ++ h) = inserted h := by
  rw [inserted_append, inserted_reverse, hins]
  rfl

theorem inserted_after_row {row : RefreshToken} (hins : inserted evs = [row]) :
    inserted (evs.reverse ++ h) = row :: inserted h := by
  rw [inserted_append, inserted_reverse, hins]
  rfl

theorem newest_of_inserted {f : String} {h' : Requests} (heq : inserted h' = inserted h) :
    newest f h' = newest f h := by
  rw [newest, heq]
  rfl

/-- The rows of a table are revoked or left alone. -/
theorem Orderly.updated (ho : Orderly s h) {w : TokenWhere} {at_ : Time}
    (htok : s'.tokens = s.tokens.updateMany w at_) (hgen : s'.generated = s.generated)
    {h' : Requests} (hins : inserted h' = inserted h) : Orderly s' h' := by
  have hmem : ∀ y, y ∈ s'.tokens ↔ ∃ x ∈ s.tokens, y = x.revokedIf w at_ := fun y => by
    rw [htok]
    exact mem_updateMany
  have hkept : ∀ x ∈ s.tokens, x.revokedIf w at_ ∈ s'.tokens := fun x hx =>
    (hmem _).mpr ⟨x, hx, rfl⟩
  refine ⟨?_, ?_, ?_, ?_, ?_⟩
  · intro y hy i hi
    obtain ⟨x, hx, rfl⟩ := (hmem y).mp hy
    rw [revokedIf_replacedById] at hi
    obtain ⟨z, hz, hid⟩ := ho.linked x hx i hi
    exact ⟨_, hkept z hz, by rw [revokedIf_id, hid]⟩
  · intro y hy hne hlive
    obtain ⟨x, hx, rfl⟩ := (hmem y).mp hy
    rw [revokedIf_replacedById] at hne
    exact ho.retired x hx hne (revokedIf_eq_none.mp hlive).1
  · intro y hy
    obtain ⟨x, hx, rfl⟩ := (hmem y).mp hy
    rw [revokedIf_familyId, hgen]
    exact ho.family x hx
  · intro row hrow
    rw [hins] at hrow
    obtain ⟨x, hx, hk⟩ := ho.stored row hrow
    exact ⟨_, hkept x hx, hk.trans (keeps_revokedIf w at_ x)⟩
  · intro y hy hlive
    obtain ⟨x, hx, rfl⟩ := (hmem y).mp hy
    obtain ⟨row, hnew, hk⟩ := ho.newest x hx (revokedIf_eq_none.mp hlive).1
    exact ⟨row, by rw [revokedIf_familyId, newest_of_inserted hins, hnew],
      hk.trans (keeps_revokedIf w at_ x)⟩

/-- No row changes. -/
theorem Orderly.same (ho : Orderly s h) (htok : s'.tokens = s.tokens)
    (hgen : ∀ f ∈ s.generated, f ∈ s'.generated) {h' : Requests}
    (hins : inserted h' = inserted h) : Orderly s' h' := by
  refine ⟨?_, ?_, ?_, ?_, ?_⟩
  · unfold Linked
    rw [htok]
    exact ho.linked
  · rw [htok]
    exact ho.retired
  · rw [htok]
    exact fun x hx => hgen _ (ho.family x hx)
  · rw [hins, htok]
    exact ho.stored
  · rw [htok]
    intro x hx hlive
    obtain ⟨row, hnew, hk⟩ := ho.newest x hx hlive
    exact ⟨row, by rw [newest_of_inserted hins, hnew], hk⟩

/-- A token is stored, in a family without other unrevoked tokens after the step. -/
theorem Orderly.grown (ho : Orderly s h) {f : String} {row : RefreshToken} {h' : Requests}
    (hins : inserted h' = row :: inserted h) (hfam : row.familyId = f)
    (hgen : ∀ g ∈ s.generated, g ∈ s'.generated) (hf : f ∈ s'.generated)
    (hkept : ∀ x, x = row ∨ x ∈ s.tokens → ∃ y ∈ s'.tokens, Keeps x y)
    (hback : ∀ y ∈ s'.tokens, (y = row ∧ row.replacedById = none) ∨
      ∃ x ∈ s.tokens, Keeps x y ∧ (y.revokedAt = none → x.familyId ≠ f) ∧
        (y.replacedById = x.replacedById ∨ y.revokedAt ≠ none ∧ y.replacedById = some row.id)) :
    Orderly s' h' := by
  refine ⟨?_, ?_, ?_, ?_, ?_⟩
  · intro y hy i hi
    rcases hback y hy with ⟨rfl, hnone⟩ | ⟨x, hx, -, -, hsame | ⟨-, hnext⟩⟩
    · rw [hnone] at hi
      cases hi
    · obtain ⟨z, hz, hid⟩ := ho.linked x hx i (hsame ▸ hi)
      obtain ⟨z', hz', hk⟩ := hkept z (.inr hz)
      exact ⟨z', hz', hk.id.trans hid⟩
    · obtain ⟨z, hz, hk⟩ := hkept row (.inl rfl)
      exact ⟨z, hz, hk.id.trans (Option.some.inj (hnext.symm.trans hi))⟩
  · intro y hy hne
    rcases hback y hy with ⟨rfl, hnone⟩ | ⟨x, hx, hk, -, hsame | ⟨hrev, -⟩⟩
    · exact absurd hnone hne
    · exact fun hlive => ho.retired x hx (hsame ▸ hne) (hk.revoked hlive)
    · exact hrev
  · intro y hy
    rcases hback y hy with ⟨rfl, -⟩ | ⟨x, hx, hk, -⟩
    · rwa [hfam]
    · rw [hk.familyId]
      exact hgen _ (ho.family x hx)
  · intro r hr
    rw [hins] at hr
    rcases List.mem_cons.mp hr with rfl | hr
    · exact hkept r (.inl rfl)
    · obtain ⟨x, hx, hk⟩ := ho.stored r hr
      obtain ⟨y, hy, hk'⟩ := hkept x (.inr hx)
      exact ⟨y, hy, hk.trans hk'⟩
  · intro y hy hlive
    rw [Auth.newest, hins]
    rcases hback y hy with ⟨rfl, -⟩ | ⟨x, hx, hk, hother, -⟩
    · exact ⟨y, List.find?_cons_of_pos (decide_eq_true rfl), .refl y⟩
    · obtain ⟨r, hnew, hk'⟩ := ho.newest x hx (hk.revoked hlive)
      refine ⟨r, ?_, hk'.trans hk⟩
      have hne : row.familyId ≠ y.familyId := fun heq =>
        hother hlive (by rw [← hk.familyId, ← heq, hfam])
      rw [List.find?_cons_of_neg (by simpa using hne), hk.familyId]
      exact hnew

/-- After a rotation. -/
theorem Orderly.rotation {T : Service} {raw : String} {y : Except Error IssuedRefreshToken}
    (ho : Orderly s h) (hrot : Rotation T raw s evs s' y) : Orderly s' (evs.reverse ++ h) := by
  cases hrot with
  | failed e silent tokens unspent =>
    exact ho.same tokens (fun f hf => by rwa [silent.generated]) (inserted_after silent.inserted)
  | reuse e silent t mem hash revoked =>
    obtain ⟨at_, htok⟩ := revoked
    exact ho.updated htok silent.generated (inserted_after silent.inserted)
  | rotated t row raw' mem hash live unspent hins evs₁ s₁ stored at_ tokens generated now =>
    refine ho.grown (inserted_after_row hins) stored.family (fun f hf => by rwa [generated])
      (by rw [generated]; exact ho.family t mem) ?_ ?_
    · intro x hx
      exact ⟨_, (tokens _).mpr ⟨x, (stored.mem x).mpr hx, rfl⟩, keeps_replacedIf t.id at_ row.id x⟩
    · intro y hy
      obtain ⟨x, hx, rfl⟩ := (tokens y).mp hy
      rcases (stored.mem x).mp hx with rfl | hx
      · have hne : x.id ≠ t.id := fun heq => stored.newId t mem heq.symm
        rw [RefreshToken.replacedIf, if_neg hne]
        exact .inl ⟨rfl, stored.unlinked⟩
      · refine .inr ⟨x, hx, keeps_replacedIf t.id at_ row.id x, fun hlive hfam => ?_, ?_⟩
        · -- both tokens would be the newest of the family
          have hk := keeps_replacedIf t.id at_ row.id x
          obtain ⟨r, hr, hkr⟩ := ho.newest x hx (hk.revoked hlive)
          obtain ⟨r', hr', hkr'⟩ := ho.newest t mem live
          rw [hfam, hr'] at hr
          have hid : x.id = t.id := by rw [hkr.id, ← Option.some.inj hr, hkr'.id]
          rw [RefreshToken.replacedIf, if_pos hid] at hlive
          cases hlive
        · unfold RefreshToken.replacedIf
          split_ifs
          · exact .inr ⟨nofun, rfl⟩
          · exact .inl rfl

/-- After a login. -/
theorem Orderly.login (ho : Orderly s h) (hl : Login s evs s') :
    Orderly s' (evs.reverse ++ h) := by
  rcases hl with ⟨f, row, hnew, hgen, stored⟩ | ⟨hins, htok, -, hgen⟩
  · refine ho.grown (inserted_after_row stored.inserted) stored.family ?_ ?_ ?_ ?_
    · intro g hg
      rw [hgen]
      exact List.mem_cons_of_mem f hg
    · rw [hgen]
      exact List.mem_cons_self
    · exact fun x hx => ⟨x, (stored.mem x).mpr hx, .refl x⟩
    · intro y hy
      rcases (stored.mem y).mp hy with rfl | hy
      · exact .inl ⟨rfl, stored.unlinked⟩
      · exact .inr ⟨y, hy, .refl y, fun _ hfam => hnew (hfam ▸ ho.family y hy), .inl rfl⟩
  · exact ho.same htok hgen (inserted_after hins)

end Steps

/-- What any call does, but for the clock. -/
inductive Outcome (T : Service) (s : State) (evs : Requests) (s' : State) : Prop where
  | rotation (raw : String) (y : Except Error IssuedRefreshToken) (h : Rotation T raw s evs s' y)
  | login (h : Login s evs s')
  | silent (h : Silent s evs s') (tokens : s'.tokens = s.tokens)
  | revoked (h : Silent s evs s') (hash : String) (at_ : Time)
      (tokens : s'.tokens = s.tokens.updateMany (.tokenHash hash) at_)

theorem call_outcome {T : Service} {s s' : State} {evs : Requests} {pid : ℕ}
    {x : Except Error (Option Service.AuthTokens)} (hlink : Linked s) (c : Call)
    (hrun : Runs machine pid (c.method T) s evs x s') :
    ∃ s₁, Outcome T s evs s₁ ∧ Drifts machine s₁ s' := by
  have hpure : ∀ {α β : Type} {p : Action α} {g : α → β} {y : Except Error β},
      Runs machine pid (p >>= fun a => pure (g a)) s evs y s' →
      ∃ z s₁, Runs machine pid p s evs z s₁ ∧ Drifts machine s₁ s' := by
    intro α β p g y hrun
    rcases hrun.bind_inv with ⟨a, s₁, evs₁, evs₂, rfl, hp, hr⟩ | ⟨e, -, hp⟩
    · obtain ⟨rfl, -, hd⟩ := hr.ret_inv
      exact ⟨.ok a, s₁, by rwa [List.append_nil], hd⟩
    · exact ⟨.error e, s', hp, .refl⟩
  cases c with
  | login userId ctx =>
    obtain ⟨z, s₁, hp, hd⟩ := hpure hrun
    exact ⟨s₁, .login (login_ends userId ctx s _ _ _ hp), hd⟩
  | refresh raw ctx =>
    obtain ⟨z, s₁, hp, hd⟩ := hpure hrun
    rcases refresh_ends raw ctx hlink _ _ _ hp with ⟨e, -, hrot⟩ | ⟨jwt, issued, -, hrot⟩
    · exact ⟨s₁, .rotation raw _ hrot, hd⟩
    · exact ⟨s₁, .rotation raw _ hrot, hd⟩
  | logout raw =>
    obtain ⟨z, s₁, hp, hd⟩ := hpure hrun
    obtain ⟨hsil, htok | ⟨hash, at_, htok⟩⟩ := logout_ends raw s _ _ _ hp
    · exact ⟨s₁, .silent hsil htok, hd⟩
    · exact ⟨s₁, .revoked hsil hash at_ htok, hd⟩

theorem Orderly.outcome {T : Service} {s s' : State} {h evs : Requests} (ho : Orderly s h)
    (hout : Outcome T s evs s') : Orderly s' (evs.reverse ++ h) := by
  cases hout with
  | rotation raw y hrot => exact ho.rotation hrot
  | login hl => exact ho.login hl
  | silent hsil htok =>
    exact ho.same htok (fun f hf => by rwa [hsil.generated]) (inserted_after hsil.inserted)
  | revoked hsil hash at_ htok =>
    exact ho.updated htok hsil.generated (inserted_after hsil.inserted)

theorem Orderly.drift {s s' : State} {h : Requests} (ho : Orderly s h) (hd : Drifts machine s s') :
    Orderly s' h := by
  obtain ⟨htok, hgen, -⟩ := drifts_clock hd
  exact ho.same htok (fun f hf => by rwa [hgen]) rfl

theorem Orderly.tick {s : State} {h : Requests} (ho : Orderly s h) (ms : ℕ) :
    Orderly { s with now := s.now + ms } h :=
  ho.drift (.single ⟨ms, rfl, rfl⟩)

/-- Every history is orderly. -/
theorem session_orderly {T : Service} {s s' : State} {h h' : Requests} (ho : Orderly s h)
    (hs : Session T s h' s') : Orderly s' (h' ++ h) := by
  induction hs with
  | nil => exact ho
  | tick hs ms ih => exact ih.tick ms
  | call hs c hc ih =>
    rw [List.append_assoc]
    obtain ⟨s₁, hout, hd⟩ := call_outcome ih.linked c hc
    exact (ih.outcome hout).drift hd

/-! ## A revoked family -/

/-- The family has been named, and all its tokens are revoked. -/
structure Dead (f : String) (s : State) : Prop where
  named : f ∈ s.generated
  revoked : ∀ x ∈ s.tokens, x.familyId = f → x.revokedAt ≠ none

section Dead

variable {T : Service} {f : String} {s s' : State} {evs : Requests}

theorem Dead.updated (hd : Dead f s) {w : TokenWhere} {at_ : Time}
    (htok : s'.tokens = s.tokens.updateMany w at_) (hgen : s'.generated = s.generated) :
    Dead f s' := by
  refine ⟨by rw [hgen]; exact hd.named, fun y hy hyf => ?_⟩
  rw [htok] at hy
  obtain ⟨x, hx, rfl⟩ := mem_updateMany.mp hy
  rw [revokedIf_familyId] at hyf
  exact fun hlive => hd.revoked x hx hyf (revokedIf_eq_none.mp hlive).1

theorem Dead.same (hd : Dead f s) (htok : s'.tokens = s.tokens)
    (hgen : ∀ g ∈ s.generated, g ∈ s'.generated) : Dead f s' :=
  ⟨hgen f hd.named, by rw [htok]; exact hd.revoked⟩

/-- No call issues a token in a dead family. -/
theorem Dead.outcome (hd : Dead f s) (hout : Outcome T s evs s') : Dead f s' := by
  cases hout with
  | rotation raw y hrot =>
    cases hrot with
    | failed e silent tokens unspent =>
      exact hd.same tokens fun g hg => by rwa [silent.generated]
    | reuse e silent t mem hash revoked =>
      obtain ⟨at_, htok⟩ := revoked
      exact hd.updated htok silent.generated
    | rotated t row raw' mem hash live unspent hins evs₁ s₁ stored at_ tokens generated now =>
      refine ⟨by rw [generated]; exact hd.named, fun y hy hyf => ?_⟩
      obtain ⟨x, hx, rfl⟩ := (tokens y).mp hy
      rw [replacedIf_familyId] at hyf
      rcases (stored.mem x).mp hx with rfl | hx
      · exact absurd live (hd.revoked t mem (stored.family ▸ hyf))
      · exact fun hlive => hd.revoked x hx hyf ((keeps_replacedIf t.id at_ row.id x).revoked hlive)
  | login hl =>
    rcases hl with ⟨g, row, hnew, hgen, stored⟩ | ⟨-, htok, -, hgen⟩
    · refine ⟨by rw [hgen]; exact List.mem_cons_of_mem g hd.named, fun y hy hyf => ?_⟩
      rcases (stored.mem y).mp hy with rfl | hy
      · exact absurd hd.named (by rw [← hyf, stored.family]; exact hnew)
      · exact hd.revoked y hy hyf
    · exact hd.same htok hgen
  | silent hsil htok => exact hd.same htok fun g hg => by rwa [hsil.generated]
  | revoked hsil hash at_ htok => exact hd.updated htok hsil.generated

theorem Dead.drift (hd : Dead f s) (hdrift : Drifts machine s s') : Dead f s' := by
  obtain ⟨htok, hgen, -⟩ := drifts_clock hdrift
  exact hd.same htok fun g hg => by rwa [hgen]

/-- A dead family stays dead. -/
theorem session_dead {h h' : Requests} (ho : Orderly s h) (hd : Dead f s)
    (hs : Session T s h' s') : Dead f s' := by
  induction hs with
  | nil => exact hd
  | tick hs ms ih => exact ih.drift (.single ⟨ms, rfl, rfl⟩)
  | call hs c hc ih =>
    obtain ⟨s₁, hout, hdrift⟩ := call_outcome (session_orderly ho hs).linked c hc
    exact (ih.outcome hout).drift hdrift

/-- A rotation with a spent token of the family kills it, and leaves the others alone. -/
theorem Rotation.spent {raw : String} {y : Except Error IssuedRefreshToken} {t : RefreshToken}
    (hrot : Rotation T raw s evs s' y) (hfam : ∀ x ∈ s.tokens, x.familyId ∈ s.generated)
    (ht : t ∈ s.tokens) (hraw : t.tokenHash = T.hash raw) (hspent : Spent s.now t) :
    (∃ e, y = .error e) ∧ Dead t.familyId s' ∧
      ∀ x, x.familyId ≠ t.familyId → (x ∈ s'.tokens ↔ x ∈ s.tokens) := by
  cases hrot with
  | failed e silent tokens unspent => exact absurd hspent (unspent t ht hraw)
  | reuse e silent t' mem hash revoked =>
    obtain rfl : t' = t := TokenTable.eq_of_hash mem ht (hash.trans hraw.symm)
    obtain ⟨at_, htok⟩ := revoked
    have hmem : ∀ y, y ∈ s'.tokens ↔ ∃ x ∈ s.tokens, y = x.revokedIf (.familyId t'.familyId) at_ :=
      fun y => by rw [htok]; exact mem_updateMany
    refine ⟨⟨e, rfl⟩, ⟨by rw [silent.generated]; exact hfam t' ht, fun y hy hyf hlive => ?_⟩, ?_⟩
    · obtain ⟨x, hx, rfl⟩ := (hmem y).mp hy
      obtain ⟨hxl, hsel⟩ := revokedIf_eq_none.mp hlive
      rw [revokedIf_familyId] at hyf
      simp [TokenWhere.selects, hxl, hyf] at hsel
    · -- the rows of other families are not selected
      have hother : ∀ x : RefreshToken, x.familyId ≠ t'.familyId →
          x.revokedIf (.familyId t'.familyId) at_ = x := by
        intro x hne
        rw [RefreshToken.revokedIf, if_neg]
        simp [TokenWhere.selects, hne]
      intro x hne
      rw [hmem]
      constructor
      · rintro ⟨z, hz, rfl⟩
        rw [revokedIf_familyId] at hne
        rwa [hother z hne]
      · exact fun hx => ⟨x, hx, (hother x hne).symm⟩
  | rotated t' row raw' mem hash live unspent hins evs₁ s₁ stored at_ tokens generated now =>
    obtain rfl : t' = t := TokenTable.eq_of_hash mem ht (hash.trans hraw.symm)
    exact absurd hspent unspent

/-- A refresh with a spent token fails and kills the family of the token, and no other. -/
theorem refresh_spent {h : Requests} {pid : ℕ} {raw : String} {ctx : RefreshContext}
    {x : Except Error Service.AuthTokens} {t : RefreshToken} (ho : Orderly s h)
    (ht : t ∈ s.tokens) (hraw : T.hash raw = t.tokenHash) (hspent : Spent s.now t)
    (hcall : Runs machine pid (T.refresh raw ctx) s evs x s') :
    (∃ e, x = .error e) ∧ Dead t.familyId s' ∧
      (∀ y, y.familyId ≠ t.familyId → (y ∈ s'.tokens ↔ y ∈ s.tokens)) ∧
      Orderly s' (evs.reverse ++ h) := by
  rcases refresh_ends raw ctx ho.linked _ _ _ hcall with ⟨e, hx, hrot⟩ | ⟨jwt, issued, -, hrot⟩
  · obtain ⟨-, hdead, hother⟩ := hrot.spent ho.family ht hraw.symm hspent
    exact ⟨⟨e, hx⟩, hdead, hother, ho.rotation hrot⟩
  · obtain ⟨⟨e, he⟩, -⟩ := hrot.spent ho.family ht hraw.symm hspent
    cases he

end Dead

/-- In every history of logins, refreshes, logouts and clock advances: a refresh succeeds only
    with the newest token of a family; and once a refresh has been called with a token that was
    rotated, revoked or expired, it and every later refresh with a token of that family fail, and
    they change no token of another family. -/
theorem theft_is_permanent {T : Service} {s₀ s : State} (h₀ : s₀.Start) {h : Requests}
    (hs : Session T s₀ h s) {pid : ℕ} {raw : String} {ctx : RefreshContext} {evs : Requests}
    {x : Except Error Service.AuthTokens} {s₁ : State}
    (hcall : Runs machine pid (T.refresh raw ctx) s evs x s₁) :
    (∀ tokens, x = .ok tokens → ∃ row, T.hash raw = row.tokenHash ∧
      newest row.familyId h = some row) ∧
    ∀ t ∈ s.tokens, T.hash raw = t.tokenHash →
      (t.replacedById ≠ none ∨ t.revokedAt ≠ none ∨ t.expiresAt < s.now) →
      (∃ e, x = .error e) ∧
      (∀ y, y.familyId ≠ t.familyId → (y ∈ s₁.tokens ↔ y ∈ s.tokens)) ∧
      ∀ h' s₂, Session T s₁ h' s₂ → ∀ row ∈ inserted (h' ++ (evs.reverse ++ h)),
        row.familyId = t.familyId → ∀ pid' raw' ctx' evs' x' s₃, T.hash raw' = row.tokenHash →
          Runs machine pid' (T.refresh raw' ctx') s₂ evs' x' s₃ →
            (∃ e, x' = .error e) ∧
            ∀ y, y.familyId ≠ t.familyId → (y ∈ s₃.tokens ↔ y ∈ s₂.tokens) := by
  have ho := session_orderly (.start h₀) hs
  rw [List.append_nil] at ho
  refine ⟨fun tokens hx => ?_, fun t ht hraw hbad => ?_⟩
  · subst hx
    rcases refresh_ends raw ctx ho.linked _ _ _ hcall with ⟨e, he, -⟩ | ⟨jwt, issued, -, hrot⟩
    · cases he
    · cases hrot with
      | rotated t row raw' mem hash live unspent hins evs₁ s₁ stored at_ tokens generated now =>
        obtain ⟨row', hnew, hk⟩ := ho.newest t mem live
        exact ⟨row', by rw [← hash, hk.tokenHash], by rw [← hk.familyId]; exact hnew⟩
  · have hspent : Spent s.now t := by
      rcases hbad with hrep | hrev | hexp
      · exact .inl (ho.retired t ht hrep)
      · exact .inl hrev
      · exact .inr hexp
    obtain ⟨hx, hdead, hother, ho₁⟩ := refresh_spent ho ht hraw hspent hcall
    refine ⟨hx, hother, ?_⟩
    intro h' s₂ hs' row hrow hfam pid' raw' ctx' evs' x' s₃ hraw' hcall'
    have ho₂ := session_orderly ho₁ hs'
    obtain ⟨t', ht', hk⟩ := ho₂.stored row hrow
    have hfam' : t'.familyId = t.familyId := hk.familyId.trans hfam
    have hrev := (session_dead ho₁ hdead hs').revoked t' ht' hfam'
    obtain ⟨hx', -, hother', -⟩ :=
      refresh_spent ho₂ ht' (by rw [hraw', hk.tokenHash]) (.inl hrev) hcall'
    exact ⟨hx', by rwa [hfam'] at hother'⟩

/-! ## A history -/

/-- The calls of a history on given replies. -/
def Session.execute (T : Service) (s : State) : List (Call × List String) → Option (Requests × State)
  | [] => some ([], s)
  | (c, replies) :: cs =>
    match (c.method T).execute machine 0 s replies with
    | some (evs, _, s₁) =>
      match Session.execute T s₁ cs with
      | some (h, s₂) => some (h ++ evs.reverse, s₂)
      | none => none
    | none => none

theorem Session.trans {T : Service} {s s₁ s₂ : State} {h h' : Requests} (hs : Session T s h s₁)
    (hs' : Session T s₁ h' s₂) : Session T s (h' ++ h) s₂ := by
  induction hs' with
  | nil => exact hs
  | tick _ ms ih => exact ih.tick ms
  | call _ c hc ih =>
    rw [List.append_assoc]
    exact ih.call c hc

theorem Session.of_execute {T : Service} {cs : List (Call × List String)} {s s' : State}
    {h : Requests} (hex : Session.execute T s cs = some (h, s')) : Session T s h s' := by
  induction cs generalizing s h with
  | nil =>
    cases hex
    exact .nil
  | cons c cs ih =>
    obtain ⟨c, replies⟩ := c
    simp only [Session.execute] at hex
    split at hex
    · rename_i evs x s₁ hrun
      split at hex
      · rename_i h₂ s₂ hrest
        cases hex
        have hcall := Session.nil.call (T := T) c (.of_execute hrun)
        rw [List.append_nil] at hcall
        exact hcall.trans (ih hrest)
      · cases hex
    · cases hex

/-- A login with the token `first`, and a refresh that replaces it by `second`. -/
def rotatedHistory : List (Call × List String) :=
  [(.login "user" {}, ["jwt", "first", "a", "", "t0"]),
    (.refresh "first" {}, ["", "", "second", "", "t1", "", "", "jwt"])]

/-- The token `first` is used again, and then the token `second`. -/
def replayed : Option (List (String × String × Option String) × List (String × String)) :=
  (Session.execute demo demoState rotatedHistory).bind fun (h, s) =>
    ((demo.refresh "first" {}).execute machine 0 s ["", "", ""]).bind fun (_, _, s₁) =>
      ((demo.refresh "second" {}).execute machine 0 s₁ ["", "", ""]).map fun _ =>
        (s.tokens.rows.map fun x => (x.tokenHash, x.familyId, x.replacedById),
          (inserted h).map fun x => (x.tokenHash, x.familyId))

theorem theft_is_permanent_replayed : ∃ h s evs x s₁ evs' x' s₂, Session demo demoState h s ∧
    Runs machine 0 (demo.refresh "first" {}) s evs x s₁ ∧
    Runs machine 0 (demo.refresh "second" {}) s₁ evs' x' s₂ ∧
    (∃ e, x = .error e) ∧ ∃ e, x' = .error e := by
  have hview : replayed = some ([("second", "fam_a", none), ("first", "fam_a", some "t1")],
      [("second", "fam_a"), ("first", "fam_a")]) := by decide
  obtain ⟨⟨h, s⟩, hs, hview⟩ := Option.bind_eq_some_iff.mp hview
  obtain ⟨⟨evs, x, s₁⟩, hcall, hview⟩ := Option.bind_eq_some_iff.mp hview
  obtain ⟨⟨evs', x', s₂⟩, hcall', hview⟩ := Option.map_eq_some_iff.mp hview
  obtain ⟨hrows, hins⟩ := Prod.mk.inj hview
  obtain ⟨x₁, rows, hx₁, -, hrows⟩ := List.map_eq_cons_iff.mp hrows
  obtain ⟨t, rows', ht, htr, -⟩ := List.map_eq_cons_iff.mp hrows
  obtain ⟨row, rest, hrow, hrr, -⟩ := List.map_eq_cons_iff.mp hins
  obtain ⟨hhash, hfam, hrep⟩ : t.tokenHash = "first" ∧ t.familyId = "fam_a" ∧
      t.replacedById = some "t1" := by simpa using htr
  obtain ⟨hhash', hfam'⟩ : row.tokenHash = "second" ∧ row.familyId = "fam_a" := by simpa using hrr
  have hsession := Session.of_execute hs
  have hrun := Runs.of_execute hcall
  have hrun' := Runs.of_execute hcall'
  have hmem : t ∈ s.tokens := by
    rw [TokenTable.mem_def, hx₁, ht]
    exact List.mem_cons_of_mem x₁ List.mem_cons_self
  obtain ⟨hx, -, hlater⟩ := (theft_is_permanent demoState_start hsession hrun).2 t hmem hhash.symm
    (.inl (by rw [hrep]; exact nofun))
  have hissued : row ∈ inserted ([] ++ (evs.reverse ++ h)) := by
    rw [List.nil_append, inserted_append, hrow]
    exact List.mem_append_right _ List.mem_cons_self
  obtain ⟨hx', -⟩ := hlater [] s₁ .nil row hissued (hfam'.trans hfam.symm) 0 "second" {} evs' x' s₂
    hhash'.symm hrun'
  exact ⟨h, s, evs, x, s₁, evs', x', s₂, hsession, hrun, hrun', hx, hx'⟩

end CryptoPay.Auth
