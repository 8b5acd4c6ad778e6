import CryptoPay.Async.Freshness
import CryptoPay.Auth.Rotations

/-!
# One live refresh token in a family

`rotate` reads its token, checks it, stores the successor and only then revokes
the token. Two rotations of one token may both store a successor, and a
rotation may store one after its family has been revoked. `NotOvertaken` is the
condition on the steps of a run that excludes both: no other call writes to the
family between a rotation's lookup and its writes.

Results:
* `single_live_token`: with `NotOvertaken` at every step, a family has at most one
  unrevoked token whenever no call is in progress, and none after
  `revokeFamily`.
* `two_live_tokens`: without it, two concurrent rotations leave two.
-/

namespace CryptoPay.Auth

open Async

/-- The `where` selects tokens of the family `f`, among those that were stored. -/
def TokenWhere.Selects (f : String) (tr : Requests) : TokenWhere → Prop
  | .familyId f' => f' = f
  | .tokenHash hash => ∃ row ∈ inserted tr, row.tokenHash = hash ∧ row.familyId = f

instance (f : String) (tr : Requests) : DecidablePred (TokenWhere.Selects f tr)
  | .familyId f' => inferInstanceAs (Decidable (f' = f))
  | .tokenHash hash =>
    inferInstanceAs (Decidable (∃ row ∈ inserted tr, row.tokenHash = hash ∧ row.familyId = f))

/-- The request stores, replaces or revokes tokens of the family `f`; `tr` is what was requested
    before. -/
def WritesFamily (f : String) (tr : Requests) (ev : Event calls) : Prop :=
  (∃ row ∈ insertedBy ev, row.familyId = f) ∨
    (∃ pr ∈ replacedBy ev, ∃ row ∈ inserted tr, row.id = pr.1 ∧ row.familyId = f) ∨
    ∃ w ∈ revokedBy ev, w.Selects f tr

instance (f : String) (tr : Requests) : DecidablePred (WritesFamily f tr) := fun _ =>
  inferInstanceAs (Decidable (_ ∨ _ ∨ _))

/-- No other call has written to the family since the call `pid` has looked its token up. -/
def Unhindered (f : String) (pid : ℕ) (tr : Requests) : Prop :=
  Untouched (fun ev => (foundBy ev).isSome = true) (WritesFamily f) pid tr

instance (f : String) (pid : ℕ) (tr : Requests) : Decidable (Unhindered f pid tr) :=
  inferInstanceAs (Decidable (Untouched _ _ pid tr))

/-- A rotation writes to the family of its token only if no other call has since it has looked the
    token up. -/
def NotOvertaken : Condition calls State := fun c pid op =>
  match op with
  | .db (.create _) => ∀ t ∈ found (own pid c.trace), Unhindered t.familyId pid c.trace
  | .db (.update ..) => ∀ t ∈ found (own pid c.trace), Unhindered t.familyId pid c.trace
  | _ => True

/-- `revokeFamily` has been completed in a family that had a token. -/
def FamilyRevoked (f : String) (tr : Requests) : Prop :=
  ∃ (pid : ℕ) (at_ : Time) (r : Except PrismaErrorCode ℕ) (h : Requests),
    ((⟨pid, .db (.updateMany (.familyId f) at_), r⟩ : Event calls) :: h) <:+ tr ∧
      ∃ row ∈ inserted h, row.familyId = f

/-- The rotation `p` has stored a token in the family `f`, and not yet replaced its own. -/
def Handing (f : String) (p : ℕ) (tr : Requests) : Prop :=
  found (own p tr) ≠ [] ∧ (∃ row ∈ inserted (own p tr), row.familyId = f) ∧
    replaced (own p tr) = []

/-! ## Requests of one call -/

section Own

variable {β : Type} {g : Event calls → Option β} {p : ℕ} {ev : Event calls} {tr h : Requests}

theorem own_cons (p : ℕ) (ev : Event calls) (tr : Requests) :
    own p (ev :: tr) = if ev.pid = p then ev :: own p tr else own p tr := by
  split_ifs with hp
  · subst hp
    exact own_cons_self ev tr
  · exact own_cons_of_ne hp tr

/-- What is read off the requests of one call is read off the trace. -/
theorem mem_of_own {b : β} (hb : b ∈ (own p tr).filterMap g) : b ∈ tr.filterMap g := by
  obtain ⟨ev, hev, hg⟩ := List.mem_filterMap.mp hb
  exact List.mem_filterMap.mpr ⟨ev, (mem_own.mp hev).1, hg⟩

theorem mem_own_of_mem {b : β} (hb : b ∈ tr.filterMap g) : ∃ p, b ∈ (own p tr).filterMap g := by
  obtain ⟨ev, hev, hg⟩ := List.mem_filterMap.mp hb
  exact ⟨ev.pid, List.mem_filterMap.mpr ⟨ev, mem_own.mpr ⟨hev, rfl⟩, hg⟩⟩

/-- A request of which nothing is read. -/
theorem own_none (hg : g ev = none) : (own p (ev :: tr)).filterMap g = (own p tr).filterMap g := by
  rw [own_cons]
  split_ifs
  · exact List.filterMap_cons_none hg
  · rfl

/-- More requests, more to read. -/
theorem own_mono {b : β} (hb : b ∈ (own p tr).filterMap g) :
    b ∈ (own p (ev :: tr)).filterMap g := by
  obtain ⟨ev', hev, hg⟩ := List.mem_filterMap.mp hb
  obtain ⟨hev, hp⟩ := mem_own.mp hev
  exact List.mem_filterMap.mpr ⟨ev', mem_own.mpr ⟨List.mem_cons_of_mem ev hev, hp⟩, hg⟩

/-- What is read after one more request. -/
theorem own_cases {b : β} (hb : b ∈ (own p (ev :: tr)).filterMap g) :
    (ev.pid = p ∧ g ev = some b) ∨ b ∈ (own p tr).filterMap g := by
  obtain ⟨ev', hev, hg⟩ := List.mem_filterMap.mp hb
  obtain ⟨hev, hp⟩ := mem_own.mp hev
  rcases List.mem_cons.mp hev with rfl | hev
  · exact .inl ⟨hp, hg⟩
  · exact .inr (List.mem_filterMap.mpr ⟨ev', mem_own.mpr ⟨hev, hp⟩, hg⟩)

theorem own_nil_of_cons (h : (own p (ev :: tr)).filterMap g = []) :
    (own p tr).filterMap g = [] := by
  rw [List.eq_nil_iff_forall_not_mem] at h ⊢
  exact fun b hb => h b (own_mono hb)

/-- A call looks up one token. -/
theorem found_unique (hh : InOrder (fun h op => expected h op) h) {x y : RefreshToken}
    (hx : x ∈ found h) (hy : y ∈ found h) : x = y := by
  induction h with
  | nil => cases hx
  | cons ev h ih =>
    cases hf : foundBy ev with
    | none =>
      rw [found, List.filterMap_cons_none hf] at hx hy
      exact ih hh.2 hx hy
    | some z =>
      obtain ⟨pid, hash, rfl⟩ := foundBy_eq_some hf
      obtain rfl : h = [] := hh.1
      rw [found, List.filterMap_cons_some hf] at hx hy
      rw [List.mem_singleton.mp hx, List.mem_singleton.mp hy]

/-- A call stores one token. -/
theorem inserted_unique (hh : InOrder (fun h op => expected h op) h) {x y : RefreshToken}
    (hx : x ∈ inserted h) (hy : y ∈ inserted h) : x = y := by
  induction h with
  | nil => cases hx
  | cons ev h ih =>
    cases hi : insertedBy ev with
    | none =>
      rw [inserted, List.filterMap_cons_none hi] at hx hy
      exact ih hh.2 hx hy
    | some z =>
      obtain ⟨pid, d, rfl⟩ := insertedBy_eq_some hi
      have hnil : h.filterMap insertedBy = [] := hh.1.1
      rw [inserted, List.filterMap_cons_some hi, hnil] at hx hy
      rw [List.mem_singleton.mp hx, List.mem_singleton.mp hy]

/-- What a call replaces is what it found, by what it stored. -/
theorem replaced_known (hh : InOrder (fun h op => expected h op) h) {pr : String × String}
    (hpr : pr ∈ replaced h) : (∃ x ∈ found h, x.id = pr.1) ∧ ∃ row ∈ inserted h, row.id = pr.2 := by
  obtain ⟨ev, hev, hg⟩ := List.mem_filterMap.mp hpr
  obtain ⟨h', hs, hexp⟩ := hh.mem hev
  have hsub : h' <:+ h := (List.suffix_cons ev h').trans hs
  obtain ⟨pid, at_, r, rfl⟩ := replacedBy_eq_some hg
  obtain ⟨-, ⟨x, hx, hid, -⟩, row, hrow, hnext⟩ := hexp
  exact ⟨⟨x, (hsub.sublist.filterMap foundBy).subset hx, hid⟩,
    row, (hsub.sublist.filterMap insertedBy).subset hrow, hnext⟩

end Own

/-! ## What a request does to the rows -/

/-- The rows before and after a request. -/
structure Shift (s : State) (ev : Event calls) (s' : State) : Prop where
  kept : ∀ x ∈ s.tokens, ∃ y ∈ s'.tokens, Keeps x y
  back : ∀ y ∈ s'.tokens, insertedBy ev = some y ∨ ∃ x ∈ s.tokens, Keeps x y ∧
    (y.replacedById = x.replacedById ∨ ∃ pr, replacedBy ev = some pr ∧ y.replacedById = some pr.2)

theorem Shift.same {s s' : State} {ev : Event calls} (h : s'.tokens = s.tokens) : Shift s ev s' :=
  ⟨fun x hx => ⟨x, by rwa [h], .refl x⟩, fun y hy => .inr ⟨y, by rwa [h] at hy, .refl y, .inl rfl⟩⟩

theorem shift_of_respond {s s' : State} {ev : Event calls} {i : String}
    (h : respond s ev.op i = some (ev.ret, s')) : Shift s ev s' := by
  obtain ⟨pid, op, r⟩ := ev
  cases op with
  | db call =>
    obtain ⟨hexec, -⟩ := respond_db h
    refine ⟨fun x hx => exec_keeps hexec hx, fun y hy => ?_⟩
    cases r with
    | error code =>
      rw [exec_error call hexec] at hy
      exact .inr ⟨y, hy, .refl y, .inl rfl⟩
    | ok a =>
      cases call with
      | findUnique hash =>
        rw [(exec_findUnique hexec).1] at hy
        exact .inr ⟨y, hy, .refl y, .inl rfl⟩
      | create d =>
        rcases ((exec_create_ok hexec).mem y).mp hy with rfl | hy
        · exact .inl rfl
        · exact .inr ⟨y, hy, .refl y, .inl rfl⟩
      | update id at_ next =>
        obtain ⟨x, hx, rfl⟩ := (exec_update_ok hexec y).mp hy
        refine .inr ⟨x, hx, keeps_replacedIf id at_ next x, ?_⟩
        unfold RefreshToken.replacedIf
        split_ifs
        · exact .inr ⟨(id, next), rfl, rfl⟩
        · exact .inl rfl
      | updateMany w at_ =>
        have hexec : s'.tokens = s.tokens.updateMany w at_ := (Prod.mk.inj hexec).2.symm
        rw [hexec] at hy
        obtain ⟨x, hx, rfl⟩ := mem_updateMany.mp hy
        exact .inr ⟨x, hx, keeps_revokedIf w at_ x, .inl (revokedIf_replacedById w at_ x)⟩
  | now => exact .same (by rw [(respond_now h).2])
  | randomBytes => exact .same (by rw [respond_randomBytes h])
  | generateId stem => exact .same (by rw [(respond_generateId h).2])
  | sign userId => exact .same (by rw [respond_sign h])

/-! ## The invariant -/

/-- See the module text. -/
structure OneLive (c : Config calls State) : Prop where
  generated : ∀ f ∈ newFamilies c.trace, f ∈ c.state.generated
  once : ∀ p q f, f ∈ newFamilies (own p c.trace) → f ∈ newFamilies (own q c.trace) → p = q
  known : ∀ t ∈ found c.trace, ∃ x ∈ c.state.tokens, Keeps t x
  stored : ∀ row ∈ inserted c.trace, ∃ x ∈ c.state.tokens, Keeps row x
  author : ∀ p q, ∀ row ∈ inserted (own p c.trace), ∀ row' ∈ inserted (own q c.trace),
    row.id = row'.id → p = q
  heir : ∀ p, ∀ t ∈ found (own p c.trace), ∀ row ∈ inserted (own p c.trace),
    row.familyId = t.familyId
  family : ∀ x ∈ c.state.tokens, x.familyId ∈ c.state.generated
  fresh : ∀ p f, f ∈ newFamilies (own p c.trace) → inserted (own p c.trace) = [] →
    ∀ x ∈ c.state.tokens, x.familyId ≠ f
  link : ∀ x ∈ c.state.tokens, ∀ i, x.replacedById = some i →
    ∃ p, ∃ pr ∈ replaced (own p c.trace), pr.2 = i
  origin : ∀ x ∈ c.state.tokens, ∃ row ∈ inserted c.trace, Keeps row x
  live : ∀ f, (∃ p, Handing f p c.trace) ∨ ∀ x ∈ c.state.tokens, ∀ y ∈ c.state.tokens,
    x.familyId = f → y.familyId = f → x.revokedAt = none → y.revokedAt = none → x.id = y.id
  /-- While nobody hinders a rotation, the unrevoked tokens of its family are the one it has found
      and the one it has stored, unless another rotation was under way before. -/
  lone : ∀ p, ∀ t ∈ found (own p c.trace), t.revokedAt = none → Unhindered t.familyId p c.trace →
    (∃ q, q ≠ p ∧ Handing t.familyId q c.trace) ∨ ∀ x ∈ c.state.tokens, x.familyId = t.familyId →
      x.revokedAt = none → x.id = t.id ∨ ∃ row ∈ inserted (own p c.trace), row.id = x.id
  unrevoked : ∀ p, ∀ t ∈ found (own p c.trace), t.revokedAt = none →
    Unhindered t.familyId p c.trace → revoking (own p c.trace) = [] →
      ¬ FamilyRevoked t.familyId c.trace
  dead : ∀ f, FamilyRevoked f c.trace → ∀ x ∈ c.state.tokens, x.familyId = f → x.revokedAt ≠ none

theorem OneLive.start {s : State} (h : s.Start) : OneLive ⟨s, []⟩ := by
  have hno : ∀ x, x ∉ s.tokens := fun x hx => TokenTable.not_mem_empty x (h.1 ▸ hx)
  refine ⟨?_, ?_, ?_, ?_, ?_, ?_, ?_, ?_, ?_, ?_, ?_, ?_, ?_, ?_⟩
  · exact fun _ hf => absurd hf List.not_mem_nil
  · exact fun _ _ _ hf => absurd hf List.not_mem_nil
  · exact fun _ hf => absurd hf List.not_mem_nil
  · exact fun _ hf => absurd hf List.not_mem_nil
  · exact fun _ _ _ hf => absurd hf List.not_mem_nil
  · exact fun _ _ hf => absurd hf List.not_mem_nil
  · exact fun x hx => absurd hx (hno x)
  · exact fun _ _ hf => absurd hf List.not_mem_nil
  · exact fun x hx => absurd hx (hno x)
  · exact fun x hx => absurd hx (hno x)
  · exact fun _ => .inr fun x hx => absurd hx (hno x)
  · exact fun _ _ hf => absurd hf List.not_mem_nil
  · exact fun _ _ hf => absurd hf List.not_mem_nil
  · exact fun _ _ x hx => absurd hx (hno x)

section Step

variable {c : Config calls State} {ev : Event calls} {state : State}

/-- A successor or a first token that is being stored. -/
structure Successor (c : Config calls State) (ev : Event calls) (y : RefreshToken) : Prop where
  first : inserted (own ev.pid c.trace) = []
  unreplaced : replaced (own ev.pid c.trace) = []
  heir : ∀ t ∈ found (own ev.pid c.trace), t.familyId = y.familyId
  named : found (own ev.pid c.trace) = [] → y.familyId ∈ newFamilies (own ev.pid c.trace)
  newId : ∀ x ∈ c.state.tokens, x.id ≠ y.id
  unlinked : y.replacedById = none
  unspent : ∀ t ∈ found (own ev.pid c.trace), t.revokedAt = none
  unrevoking : revoking (own ev.pid c.trace) = []
  unhindered : ∀ t ∈ found (own ev.pid c.trace), Unhindered t.familyId ev.pid c.trace

theorem successor (ha : Answered machine NotOvertaken (fun _ : Job => expected) c ev state)
    {y : RefreshToken} (hy : insertedBy ev = some y) : Successor c ev y ∧ y ∈ state.tokens := by
  obtain ⟨pid, d, rfl⟩ := insertedBy_eq_some hy
  obtain ⟨-, ⟨hfirst, hrep, hrevoking, hheir, hnamed⟩, -⟩ := ha.expected
  obtain ⟨i, hi⟩ := ha.reply
  have hc := exec_create_ok (respond_db hi).1
  have hrow := hc.row_eq
  refine ⟨⟨hfirst, hrep, ?_, ?_, ?_, ?_, fun t ht => (hheir t ht).2, hrevoking, ha.allowed⟩,
    (hc.mem y).mpr (.inl rfl)⟩
  · intro t ht
    rw [hrow]
    exact (hheir t ht).1
  · intro hnil
    rw [hrow]
    exact hnamed hnil
  · intro x hx
    rw [hrow]
    exact hc.newId x hx
  · rw [hrow]
    rfl

/-- A replacement is not refused, and revokes the token that the rotation found unrevoked. -/
theorem replacement (h : OneLive c)
    (ha : Answered machine NotOvertaken (fun _ : Job => expected) c ev state) {pr : String × String}
    (hpr : replacedBy ev = some pr) :
    ∃ t ∈ found (own ev.pid c.trace), t.id = pr.1 ∧ t.revokedAt = none ∧
      Unhindered t.familyId ev.pid c.trace ∧ ∀ y ∈ state.tokens, y.id = pr.1 → y.revokedAt ≠ none := by
  obtain ⟨pid, at_, r, rfl⟩ := replacedBy_eq_some hpr
  obtain ⟨-, ⟨hnone, ⟨t, ht, htid, hlive⟩, row, hrow, hnext⟩, -⟩ := ha.expected
  obtain ⟨i, hi⟩ := ha.reply
  obtain ⟨hexec, -⟩ := respond_db hi
  refine ⟨t, ht, htid, hlive, ha.allowed t ht, ?_⟩
  cases r with
  | ok x =>
    intro y hy hid
    obtain ⟨y₀, -, rfl⟩ := (exec_update_ok hexec y).mp hy
    rw [replacedIf_id] at hid
    rw [RefreshToken.replacedIf, if_pos hid]
    exact nofun
  | error code =>
    exfalso
    rcases exec_update_error hexec with hmissing | ⟨x, hx, hlink⟩
    · obtain ⟨x, hx, hk⟩ := h.known t (mem_of_own ht)
      exact hmissing x hx (hk.id.trans htid)
    · -- some call has replaced by the row that this one stored: it is this one
      obtain ⟨p, pr', hpr', hnext'⟩ := h.link x hx _ hlink
      obtain ⟨j, hj⟩ := ha.history p
      obtain ⟨-, row', hrow', hid'⟩ := replaced_known hj hpr'
      have hp : p = pid := h.author p pid row' hrow' row hrow (by rw [hid', hnext', hnext])
      rw [hp, hnone] at hpr'
      exact List.not_mem_nil hpr'

variable (h : OneLive c) (ha : Answered machine NotOvertaken (fun _ : Job => expected) c ev state)

include ha in
theorem answered_shift : Shift c.state ev state := by
  obtain ⟨i, hi⟩ := ha.reply
  exact shift_of_respond hi

include ha in
/-- The ids that were generated before, and the one that is generated now. -/
theorem answered_generated : (∀ f ∈ c.state.generated, f ∈ state.generated) ∧
    ∀ f, familyBy ev = some f → f ∈ state.generated ∧ f ∉ c.state.generated ∧
      state.tokens = c.state.tokens ∧ newFamilies (own ev.pid c.trace) = [] := by
  obtain ⟨pid, op, r⟩ := ev
  obtain ⟨i, hi⟩ := ha.reply
  cases op with
  | db call =>
    have hs := (respond_db hi).2
    refine ⟨fun f hf => by rw [hs]; exact hf, fun f hf => by cases hf⟩
  | now =>
    rw [(respond_now (i := i) hi).2]
    exact ⟨fun _ hf => hf, fun f hf => by cases hf⟩
  | randomBytes =>
    rw [respond_randomBytes (i := i) hi]
    exact ⟨fun _ hf => hf, fun f hf => by cases hf⟩
  | generateId stem =>
    obtain ⟨hnew, hs⟩ := respond_generateId hi
    obtain ⟨-, ⟨-, hfirst, -⟩, -⟩ := ha.expected
    refine ⟨fun f hf => by rw [hs]; exact List.mem_cons_of_mem _ hf, fun f hf => ?_⟩
    cases hf
    exact ⟨by rw [hs]; exact List.mem_cons_self, hnew, by rw [hs], hfirst⟩
  | sign userId =>
    rw [respond_sign (i := i) hi]
    exact ⟨fun _ hf => hf, fun f hf => by cases hf⟩

include h ha in
theorem step_generated : ∀ f ∈ newFamilies (ev :: c.trace), f ∈ state.generated := by
  obtain ⟨hold, hnew⟩ := answered_generated ha
  intro f hf
  obtain ⟨p, hf⟩ := mem_own_of_mem hf
  rcases own_cases hf with ⟨-, hf⟩ | hf
  · exact (hnew f hf).1
  · exact hold f (h.generated f (mem_of_own hf))

include h ha in
theorem step_once (p q : ℕ) (f : String) (hp : f ∈ newFamilies (own p (ev :: c.trace)))
    (hq : f ∈ newFamilies (own q (ev :: c.trace))) : p = q := by
  obtain ⟨-, hnew⟩ := answered_generated ha
  rcases own_cases hp with ⟨hpe, hf⟩ | hp
  · rcases own_cases hq with ⟨hqe, -⟩ | hq
    · exact hpe.symm.trans hqe
    · exact absurd (h.generated f (mem_of_own hq)) (hnew f hf).2.1
  · rcases own_cases hq with ⟨-, hf⟩ | hq
    · exact absurd (h.generated f (mem_of_own hp)) (hnew f hf).2.1
    · exact h.once p q f hp hq

include h ha in
theorem step_known : ∀ t ∈ found (ev :: c.trace), ∃ x ∈ state.tokens, Keeps t x := by
  intro t ht
  obtain ⟨p, ht⟩ := mem_own_of_mem ht
  rcases own_cases ht with ⟨-, hf⟩ | ht
  · obtain ⟨pid, hash, rfl⟩ := foundBy_eq_some hf
    obtain ⟨i, hi⟩ := ha.reply
    obtain ⟨hsame, hiff⟩ := exec_findUnique (respond_db hi).1
    exact ⟨t, by rw [hsame]; exact ((hiff t).mp rfl).1, .refl t⟩
  · obtain ⟨x, hx, hk⟩ := h.known t (mem_of_own ht)
    obtain ⟨y, hy, hk'⟩ := (answered_shift ha).kept x hx
    exact ⟨y, hy, hk.trans hk'⟩

include h ha in
theorem step_stored : ∀ row ∈ inserted (ev :: c.trace), ∃ x ∈ state.tokens, Keeps row x := by
  intro row hrow
  obtain ⟨p, hrow⟩ := mem_own_of_mem hrow
  rcases own_cases hrow with ⟨-, hi⟩ | hrow
  · exact ⟨row, (successor ha hi).2, .refl row⟩
  · obtain ⟨x, hx, hk⟩ := h.stored row (mem_of_own hrow)
    obtain ⟨y, hy, hk'⟩ := (answered_shift ha).kept x hx
    exact ⟨y, hy, hk.trans hk'⟩

include h ha in
theorem step_author (p q : ℕ) : ∀ row ∈ inserted (own p (ev :: c.trace)),
    ∀ row' ∈ inserted (own q (ev :: c.trace)), row.id = row'.id → p = q := by
  have hnew : ∀ {y row : RefreshToken} {r : ℕ}, insertedBy ev = some y →
      row ∈ inserted (own r c.trace) → row.id ≠ y.id := by
    intro y row r hy hrow
    obtain ⟨x, hx, hk⟩ := h.stored row (mem_of_own hrow)
    exact hk.id ▸ (successor ha hy).1.newId x hx
  intro row hrow row' hrow' hid
  rcases own_cases hrow with ⟨hp, hi⟩ | hrow
  · rcases own_cases hrow' with ⟨hq, -⟩ | hrow'
    · exact hp.symm.trans hq
    · exact absurd hid.symm (hnew hi hrow')
  · rcases own_cases hrow' with ⟨-, hi⟩ | hrow'
    · exact absurd hid (hnew hi hrow)
    · exact h.author p q row hrow row' hrow' hid

include h ha in
theorem step_heir (p : ℕ) : ∀ t ∈ found (own p (ev :: c.trace)),
    ∀ row ∈ inserted (own p (ev :: c.trace)), row.familyId = t.familyId := by
  intro t ht row hrow
  rcases own_cases hrow with ⟨rfl, hi⟩ | hrow
  · rcases own_cases ht with ⟨-, hf⟩ | ht
    · obtain ⟨pid, d, rfl⟩ := insertedBy_eq_some hi
      cases hf
    · exact ((successor ha hi).1.heir t ht).symm
  · rcases own_cases ht with ⟨rfl, hf⟩ | ht
    · -- a call looks its token up before anything else
      obtain ⟨pid, hash, rfl⟩ := foundBy_eq_some hf
      obtain ⟨-, hnil, -⟩ := ha.expected
      rw [show own pid c.trace = [] from hnil] at hrow
      exact absurd hrow List.not_mem_nil
    · exact h.heir p t ht row hrow

include h ha in
theorem step_family : ∀ x ∈ state.tokens, x.familyId ∈ state.generated := by
  obtain ⟨hold, -⟩ := answered_generated ha
  intro y hy
  refine hold _ ?_
  rcases (answered_shift ha).back y hy with hi | ⟨x, hx, hk, -⟩
  · have hs := (successor ha hi).1
    cases hf : found (own ev.pid c.trace) with
    | nil => exact h.generated _ (mem_of_own (hs.named hf))
    | cons t ts =>
      have ht : t ∈ found (own ev.pid c.trace) := by rw [hf]; exact List.mem_cons_self
      obtain ⟨x, hx, hk⟩ := h.known t (mem_of_own ht)
      rw [← hs.heir t ht, ← hk.familyId]
      exact h.family x hx
  · rw [hk.familyId]
    exact h.family x hx

include h ha in
theorem step_fresh (p : ℕ) (f : String) (hf : f ∈ newFamilies (own p (ev :: c.trace)))
    (hnone : inserted (own p (ev :: c.trace)) = []) : ∀ x ∈ state.tokens, x.familyId ≠ f := by
  obtain ⟨-, hnew⟩ := answered_generated ha
  intro y hy hyf
  rcases own_cases hf with ⟨-, hfam⟩ | hf
  · obtain ⟨-, hfresh, htokens, -⟩ := hnew f hfam
    rw [htokens] at hy
    exact hfresh (hyf ▸ h.family y hy)
  · have hnone' := own_nil_of_cons hnone
    rcases (answered_shift ha).back y hy with hi | ⟨x, hx, hk, -⟩
    · have hs := (successor ha hi).1
      cases hfound : found (own ev.pid c.trace) with
      | nil =>
        -- the family of a first token is named by the call that stores it
        have hp : ev.pid = p := h.once _ _ f (hyf ▸ hs.named hfound) hf
        subst hp
        have hmem : y ∈ inserted (own ev.pid (ev :: c.trace)) := by
          rw [own_cons_self, inserted, List.filterMap_cons_some hi]
          exact List.mem_cons_self
        rw [hnone] at hmem
        exact List.not_mem_nil hmem
      | cons t ts =>
        have ht : t ∈ found (own ev.pid c.trace) := by rw [hfound]; exact List.mem_cons_self
        obtain ⟨x, hx, hk⟩ := h.known t (mem_of_own ht)
        exact h.fresh p f hf hnone' x hx (by rw [hk.familyId, hs.heir t ht, hyf])
    · exact h.fresh p f hf hnone' x hx (by rw [← hk.familyId, hyf])

include h ha in
theorem step_link : ∀ x ∈ state.tokens, ∀ i, x.replacedById = some i →
    ∃ p, ∃ pr ∈ replaced (own p (ev :: c.trace)), pr.2 = i := by
  intro y hy i hyi
  rcases (answered_shift ha).back y hy with hi | ⟨x, hx, -, heq | ⟨pr, hpr, heq⟩⟩
  · rw [(successor ha hi).1.unlinked] at hyi
    cases hyi
  · obtain ⟨p, pr, hpr, hnext⟩ := h.link x hx i (heq ▸ hyi)
    exact ⟨p, pr, own_mono hpr, hnext⟩
  · refine ⟨ev.pid, pr, ?_, Option.some.inj (heq.symm.trans hyi)⟩
    rw [own_cons_self, replaced, List.filterMap_cons_some hpr]
    exact List.mem_cons_self

include h ha in
theorem step_origin : ∀ x ∈ state.tokens, ∃ row ∈ inserted (ev :: c.trace), Keeps row x := by
  intro y hy
  rcases (answered_shift ha).back y hy with hi | ⟨x, hx, hk, -⟩
  · refine ⟨y, ?_, .refl y⟩
    rw [inserted, List.filterMap_cons_some hi]
    exact List.mem_cons_self
  · obtain ⟨row, hrow, hk'⟩ := h.origin x hx
    exact ⟨row, ((List.sublist_cons_self ev c.trace).filterMap insertedBy).subset hrow,
      hk'.trans hk⟩

include ha in
/-- A token that is unrevoked now is stored now, or was there and unrevoked. -/
theorem live_back {y : RefreshToken} (hy : y ∈ state.tokens) (hlive : y.revokedAt = none) :
    insertedBy ev = some y ∨
      ∃ x ∈ c.state.tokens, x.id = y.id ∧ x.familyId = y.familyId ∧ x.revokedAt = none := by
  rcases (answered_shift ha).back y hy with hi | ⟨x, hx, hk, -⟩
  · exact .inl hi
  · exact .inr ⟨x, hx, hk.id.symm, hk.familyId.symm, hk.revoked hlive⟩

/-- A rotation is under way until it replaces its token. -/
theorem Handing.next {f : String} {q : ℕ} (hh : Handing f q c.trace)
    (hnot : ev.pid ≠ q ∨ replacedBy ev = none) : Handing f q (ev :: c.trace) := by
  obtain ⟨hfound, ⟨row, hrow, hf⟩, hrep⟩ := hh
  obtain ⟨t, ht⟩ := List.exists_mem_of_ne_nil _ hfound
  refine ⟨List.ne_nil_of_mem (own_mono ht), ⟨row, own_mono hrow, hf⟩, ?_⟩
  rcases hnot with hne | hnone
  · rw [own_cons, if_neg hne]
    exact hrep
  · exact (own_none hnone).trans hrep

include h ha in
/-- A replacement is a write to the family of the rotation. -/
theorem Handing.writes {f : String} (hh : Handing f ev.pid c.trace) {pr : String × String}
    (hpr : replacedBy ev = some pr) : WritesFamily f c.trace ev := by
  obtain ⟨-, ⟨row, hrow, hf⟩, -⟩ := hh
  obtain ⟨t, ht, htid, -⟩ := replacement h ha hpr
  obtain ⟨x, hx, hk⟩ := h.known t (mem_of_own ht)
  obtain ⟨first, hfirst, hk'⟩ := h.origin x hx
  refine .inr (.inl ⟨pr, hpr, first, hfirst, ?_, ?_⟩)
  · rw [← hk'.id, hk.id, htid]
  · rw [← hk'.familyId, hk.familyId, ← h.heir ev.pid t ht row hrow, hf]

include ha in
/-- The lookup of a call is its first request. -/
theorem own_of_lookup {t : RefreshToken} (hf : foundBy ev = some t) :
    own ev.pid c.trace = [] ∧ state.tokens = c.state.tokens ∧ t ∈ c.state.tokens := by
  obtain ⟨pid, hash, rfl⟩ := foundBy_eq_some hf
  obtain ⟨-, hnil, -⟩ := ha.expected
  obtain ⟨i, hi⟩ := ha.reply
  obtain ⟨hsame, hiff⟩ := exec_findUnique (respond_db hi).1
  exact ⟨hnil, hsame, ((hiff t).mp rfl).1⟩

include ha in
/-- A rotation that is unhindered was so before, and this request is no write of another call. -/
theorem unhindered_before {f : String} {p : ℕ} {t : RefreshToken}
    (ht : t ∈ found (own p c.trace)) (hun : Unhindered f p (ev :: c.trace)) :
    ¬ (ev.pid ≠ p ∧ WritesFamily f c.trace ev) ∧ Unhindered f p c.trace := by
  rcases hun with ⟨rfl, hread⟩ | hrest
  · obtain ⟨t', hf⟩ := Option.isSome_iff_exists.mp hread
    rw [(own_of_lookup ha hf).1] at ht
    cases ht
  · exact hrest

include h ha in
theorem step_lone (p : ℕ) : ∀ t ∈ found (own p (ev :: c.trace)), t.revokedAt = none →
    Unhindered t.familyId p (ev :: c.trace) →
      (∃ q, q ≠ p ∧ Handing t.familyId q (ev :: c.trace)) ∨ ∀ x ∈ state.tokens,
        x.familyId = t.familyId → x.revokedAt = none →
          x.id = t.id ∨ ∃ row ∈ inserted (own p (ev :: c.trace)), row.id = x.id := by
  intro t ht hlive hun
  rcases own_cases ht with ⟨rfl, hf⟩ | ht
  · -- the token is looked up now
    obtain ⟨hnil, hsame, hmem⟩ := own_of_lookup ha hf
    rcases h.live t.familyId with ⟨q, hq⟩ | hone
    · have hne : ev.pid ≠ q := by
        rintro rfl
        obtain ⟨-, ⟨row, hrow, -⟩, -⟩ := hq
        rw [hnil] at hrow
        cases hrow
      exact .inl ⟨q, hne.symm, hq.next (.inl hne)⟩
    · exact .inr fun x hx hfam hxl => .inl (hone x (hsame ▸ hx) t hmem hfam rfl hxl hlive)
  · obtain ⟨hquiet, hun⟩ := unhindered_before ha ht hun
    rcases h.lone p t ht hlive hun with ⟨q, hne, hq⟩ | hall
    · refine .inl ⟨q, hne, hq.next ?_⟩
      by_contra! hnow
      obtain ⟨rfl, hrep⟩ := hnow
      obtain ⟨pr, hpr⟩ := Option.ne_none_iff_exists'.mp hrep
      exact hquiet ⟨hne, hq.writes h ha hpr⟩
    · refine .inr fun x hx hfam hxl => ?_
      rcases live_back ha hx hxl with hi | ⟨x₀, hx₀, hid, hfam₀, hxl₀⟩
      · by_cases hp : ev.pid = p
        · subst hp
          refine .inr ⟨x, ?_, rfl⟩
          rw [own_cons_self, inserted, List.filterMap_cons_some hi]
          exact List.mem_cons_self
        · exact absurd ⟨hp, .inl ⟨x, hi, hfam⟩⟩ hquiet
      · rcases hall x₀ hx₀ (hfam₀.trans hfam) hxl₀ with hid' | ⟨row, hrow, hid'⟩
        · exact .inl (hid.symm.trans hid')
        · exact .inr ⟨row, own_mono hrow, hid'.trans hid⟩

/-- A family is revoked by a request that revokes it, or was before. -/
theorem familyRevoked_cons {f : String} (hf : FamilyRevoked f (ev :: c.trace)) :
    revokedBy ev = some (.familyId f) ∨ FamilyRevoked f c.trace := by
  obtain ⟨pid, at_, r, h', hs, hrow⟩ := hf
  rcases List.suffix_cons_iff.mp hs with heq | hs
  · obtain ⟨rfl, -⟩ := List.cons.inj heq
    exact .inl rfl
  · exact .inr ⟨pid, at_, r, h', hs, hrow⟩

include h ha in
theorem step_unrevoked (p : ℕ) : ∀ t ∈ found (own p (ev :: c.trace)), t.revokedAt = none →
    Unhindered t.familyId p (ev :: c.trace) → revoking (own p (ev :: c.trace)) = [] →
      ¬ FamilyRevoked t.familyId (ev :: c.trace) := by
  intro t ht hlive hun hnone hrevoked
  rcases own_cases ht with ⟨rfl, hf⟩ | ht
  · obtain ⟨-, -, hmem⟩ := own_of_lookup ha hf
    rcases familyRevoked_cons hrevoked with hnow | hbefore
    · obtain ⟨pid, hash, rfl⟩ := foundBy_eq_some hf
      cases hnow
    · exact h.dead t.familyId hbefore t hmem rfl hlive
  · obtain ⟨hquiet, hun⟩ := unhindered_before ha ht hun
    rcases familyRevoked_cons hrevoked with hnow | hbefore
    · by_cases hp : ev.pid = p
      · subst hp
        rw [own_cons_self, revoking, List.filterMap_cons_some hnow] at hnone
        cases hnone
      · exact hquiet ⟨hp, .inr (.inr ⟨_, hnow, rfl⟩)⟩
    · exact h.unrevoked p t ht hlive hun (own_nil_of_cons hnone) hbefore

include h ha in
/-- A token is stored in the family. -/
theorem step_live_inserted {y : RefreshToken} (hy : insertedBy ev = some y) :
    (∃ p, Handing y.familyId p (ev :: c.trace)) ∨ ∀ x ∈ state.tokens, x.familyId = y.familyId →
      x.id = y.id := by
  obtain ⟨hs, hmem⟩ := successor ha hy
  cases hfound : found (own ev.pid c.trace) with
  | nil =>
    refine .inr fun x hx hfam => ?_
    rcases (answered_shift ha).back x hx with hi | ⟨x₀, hx₀, hk, -⟩
    · rw [Option.some.inj (hi.symm.trans hy)]
    · exact absurd (hk.familyId.symm.trans hfam) (h.fresh _ _ (hs.named hfound) hs.first x₀ hx₀)
  | cons t ts =>
    have ht : t ∈ found (own ev.pid c.trace) := by rw [hfound]; exact List.mem_cons_self
    refine .inl ⟨ev.pid, List.ne_nil_of_mem (own_mono ht), ⟨y, ?_, rfl⟩, ?_⟩
    · rw [own_cons_self, inserted, List.filterMap_cons_some hy]
      exact List.mem_cons_self
    · obtain ⟨pid, d, rfl⟩ := insertedBy_eq_some hy
      exact (own_none rfl).trans hs.unreplaced

include h ha in
/-- The rotation replaces its token: its successor is left. -/
theorem step_live_replaced {pr : String × String} (hpr : replacedBy ev = some pr) {f : String}
    (hf : ∃ t ∈ found (own ev.pid c.trace), t.familyId = f) :
    (∃ p, Handing f p (ev :: c.trace)) ∨ ∀ x ∈ state.tokens, ∀ y ∈ state.tokens,
      x.familyId = f → y.familyId = f → x.revokedAt = none → y.revokedAt = none → x.id = y.id := by
  obtain ⟨t, ht, htid, hlive, hun, hdead⟩ := replacement h ha hpr
  obtain ⟨j, hj⟩ := ha.history ev.pid
  obtain ⟨t', ht', rfl⟩ := hf
  obtain rfl := found_unique hj ht ht'
  rcases h.lone ev.pid t ht hlive hun with ⟨q, hne, hq⟩ | hall
  · exact .inl ⟨q, hq.next (.inl hne.symm)⟩
  · have hstored : ∀ x ∈ state.tokens, x.familyId = t.familyId → x.revokedAt = none →
        ∃ row ∈ inserted (own ev.pid c.trace), row.id = x.id := by
      intro x hx hfam hxl
      rcases live_back ha hx hxl with hi | ⟨x₀, hx₀, hid, hfam₀, hxl₀⟩
      · obtain ⟨pid, d, rfl⟩ := insertedBy_eq_some hi
        cases hpr
      · rcases hall x₀ hx₀ (hfam₀.trans hfam) hxl₀ with hid' | ⟨row, hrow, hid'⟩
        · exact absurd hxl (hdead x hx (by rw [← hid, hid', htid]))
        · exact ⟨row, hrow, hid'.trans hid⟩
    refine .inr fun x hx y hy hxf hyf hxl hyl => ?_
    obtain ⟨row, hrow, hxid⟩ := hstored x hx hxf hxl
    obtain ⟨row', hrow', hyid⟩ := hstored y hy hyf hyl
    rw [← hxid, ← hyid, inserted_unique hj hrow hrow']

include h ha in
theorem step_live (f : String) : (∃ p, Handing f p (ev :: c.trace)) ∨ ∀ x ∈ state.tokens,
    ∀ y ∈ state.tokens, x.familyId = f → y.familyId = f → x.revokedAt = none →
      y.revokedAt = none → x.id = y.id := by
  by_cases hins : ∃ y, insertedBy ev = some y ∧ y.familyId = f
  · obtain ⟨y, hy, rfl⟩ := hins
    exact (step_live_inserted h ha hy).imp_right fun hall x hx z hz hxf hzf _ _ =>
      (hall x hx hxf).trans (hall z hz hzf).symm
  · by_cases hrep : ∃ pr, replacedBy ev = some pr ∧ ∃ t ∈ found (own ev.pid c.trace), t.familyId = f
    · obtain ⟨pr, hpr, hf⟩ := hrep
      exact step_live_replaced h ha hpr hf
    · -- nothing is stored or replaced in the family
      rcases h.live f with ⟨q, hq⟩ | hone
      · refine .inl ⟨q, hq.next ?_⟩
        by_contra! hnow
        obtain ⟨rfl, hsome⟩ := hnow
        obtain ⟨pr, hpr⟩ := Option.ne_none_iff_exists'.mp hsome
        obtain ⟨hfound, ⟨row, hrow, hf⟩, -⟩ := hq
        obtain ⟨t, ht⟩ := List.exists_mem_of_ne_nil _ hfound
        exact hrep ⟨pr, hpr, t, ht, (h.heir ev.pid t ht row hrow).symm.trans hf⟩
      · have hbefore : ∀ x ∈ state.tokens, x.familyId = f → x.revokedAt = none →
            ∃ x₀ ∈ c.state.tokens, x₀.id = x.id ∧ x₀.familyId = f ∧ x₀.revokedAt = none := by
          intro x hx hfam hxl
          rcases live_back ha hx hxl with hi | ⟨x₀, hx₀, hid, hfam₀, hxl₀⟩
          · exact absurd ⟨x, hi, hfam⟩ hins
          · exact ⟨x₀, hx₀, hid, hfam₀.trans hfam, hxl₀⟩
        refine .inr fun x hx y hy hxf hyf hxl hyl => ?_
        obtain ⟨x₀, hx₀, hxid, hxf₀, hxl₀⟩ := hbefore x hx hxf hxl
        obtain ⟨y₀, hy₀, hyid, hyf₀, hyl₀⟩ := hbefore y hy hyf hyl
        rw [← hxid, ← hyid]
        exact hone x₀ hx₀ y₀ hy₀ hxf₀ hyf₀ hxl₀ hyl₀

include h ha in
theorem step_dead (f : String) (hf : FamilyRevoked f (ev :: c.trace)) :
    ∀ x ∈ state.tokens, x.familyId = f → x.revokedAt ≠ none := by
  intro y hy hyf hlive
  obtain ⟨pid, at_, r, h', hs, row, hrow, hrf⟩ := hf
  rcases List.suffix_cons_iff.mp hs with heq | hs
  · -- the family is revoked now
    obtain ⟨rfl, rfl⟩ := List.cons.inj heq
    obtain ⟨i, hi⟩ := ha.reply
    have htokens : state.tokens = c.state.tokens.updateMany (.familyId f) at_ :=
      (Prod.mk.inj (respond_db hi).1).2.symm
    rw [htokens] at hy
    obtain ⟨x, hx, rfl⟩ := mem_updateMany.mp hy
    obtain ⟨hxl, hsel⟩ := revokedIf_eq_none.mp hlive
    rw [revokedIf_familyId] at hyf
    simp [TokenWhere.selects, hxl, hyf] at hsel
  · have hbefore : FamilyRevoked f c.trace := ⟨pid, at_, r, h', hs, row, hrow, hrf⟩
    rcases (answered_shift ha).back y hy with hi | ⟨x, hx, hk, -⟩
    · obtain ⟨hsucc, -⟩ := successor ha hi
      cases hfound : found (own ev.pid c.trace) with
      | nil =>
        have hsub : h' <:+ c.trace := (List.suffix_cons _ _).trans hs
        obtain ⟨x, hx, hk⟩ := h.stored row ((hsub.sublist.filterMap insertedBy).subset hrow)
        exact h.fresh _ _ (hsucc.named hfound) hsucc.first x hx (by rw [hk.familyId, hrf, hyf])
      | cons t ts =>
        have ht : t ∈ found (own ev.pid c.trace) := by rw [hfound]; exact List.mem_cons_self
        refine h.unrevoked ev.pid t ht (hsucc.unspent t ht) (hsucc.unhindered t ht)
          hsucc.unrevoking ?_
        rw [hsucc.heir t ht, hyf]
        exact hbefore
    · exact h.dead f hbefore x hx (by rw [← hk.familyId, hyf]) (hk.revoked hlive)

include h ha in
theorem OneLive.step : OneLive ⟨state, ev :: c.trace⟩ where
  generated := step_generated h ha
  once := step_once h ha
  known := step_known h ha
  stored := step_stored h ha
  author := step_author h ha
  heir := step_heir h ha
  family := step_family h ha
  fresh := step_fresh h ha
  link := step_link h ha
  origin := step_origin h ha
  live := step_live h ha
  lone := step_lone h ha
  unrevoked := step_unrevoked h ha
  dead := step_dead h ha

end Step

/-- In every run whose steps meet `NotOvertaken`. -/
theorem oneLive {T : Service} {s : System calls Error Job State}
    (hs : Reachable machine (work T) State.Start NotOvertaken s) : OneLive s.config := by
  have hW : (work T).Obeys fun _ => expected := fun j pid =>
    (work_obeys j pid).post (fun _ _ _ => trivial) fun _ _ _ => trivial
  refine Reachable.invariant hW (fun _ => OneLive.start) ?_ ?_ hs
  · intro c act state h henv
    cases henv
    exact ⟨h.generated, h.once, h.known, h.stored, h.author, h.heir, h.family, h.fresh, h.link,
      h.origin, h.live, h.lone, h.unrevoked, h.dead⟩
  · exact fun c ev state h ha => h.step ha

/-- No rotation is between its two writes when every call has ended. -/
theorem not_handing_of_quiet {T : Service} {s : System calls Error Job State}
    (hs : Reachable machine (work T) State.Start NotOvertaken s) (hq : s.quiet = true)
    {f : String} {p : ℕ} : ¬ Handing f p s.config.trace := by
  rintro ⟨hfound, ⟨row, hrow, -⟩, hrep⟩
  have hW : (work T).Obeys fun _ => expected := fun j pid =>
    (work_obeys j pid).post (fun _ _ _ => trivial) fun _ _ _ => trivial
  obtain ⟨ev, hev, -⟩ := List.mem_filterMap.mp hrow
  obtain ⟨htr, rfl⟩ := mem_own.mp hev
  obtain ⟨proc, hproc, hpid, hended⟩ := System.ended_of_quiet hq ((hs.tracked hW).past ev htr)
  have hout := hs.outcome (E := fun _ => expected) (Q := fun _ _ => Handed) (X := fun _ _ => Handed)
    work_obeys proc hproc
  rw [hpid] at hout
  have hhanded : Handed (own ev.pid s.config.trace) := by
    cases hprog : proc.prog with
    | ret a => rw [hprog] at hout; exact hout
    | throw e => rw [hprog] at hout; exact hout
    | await op k => rw [hprog] at hended; cases hended
  exact hhanded hfound (List.ne_nil_of_mem hrow) hrep

/-- In every run in which no other call writes to the family between the lookup of a rotation and
    its own writes: when no call is in progress, at most one token of a family is
    unrevoked, two rotations of one token have not both left an unrevoked successor, and after
    `revokeFamily` every token of the family is revoked. -/
theorem single_live_token {T : Service} {s : System calls Error Job State}
    (hs : Reachable machine (work T) State.Start NotOvertaken s) :
    (s.quiet = true → ∀ x ∈ s.config.state.tokens, ∀ y ∈ s.config.state.tokens,
      x.familyId = y.familyId → x.revokedAt = none → y.revokedAt = none → x = y) ∧
    (s.quiet = true → ∀ p q, p ≠ q →
      ∀ t ∈ found (own p s.config.trace), ∀ t' ∈ found (own q s.config.trace), t.id = t'.id →
      ∀ a ∈ inserted (own p s.config.trace), ∀ b ∈ inserted (own q s.config.trace),
      ∀ x ∈ s.config.state.tokens, ∀ y ∈ s.config.state.tokens, x.id = a.id → y.id = b.id →
        x.revokedAt ≠ none ∨ y.revokedAt ≠ none) ∧
    ∀ f, FamilyRevoked f s.config.trace →
      ∀ x ∈ s.config.state.tokens, x.familyId = f → x.revokedAt ≠ none := by
  have h := oneLive hs
  have hone : s.quiet = true → ∀ x ∈ s.config.state.tokens, ∀ y ∈ s.config.state.tokens,
      x.familyId = y.familyId → x.revokedAt = none → y.revokedAt = none → x = y := by
    intro hq x hx y hy hfam hxl hyl
    rcases h.live x.familyId with ⟨p, hp⟩ | hlive
    · exact absurd hp (not_handing_of_quiet hs hq)
    · exact TokenTable.eq_of_id hx hy (hlive x hx y hy rfl hfam.symm hxl hyl)
  refine ⟨hone, ?_, h.dead⟩
  intro hq p q hpq t ht t' ht' htt a ha b hb x hx y hy hxa hyb
  by_contra! hlive
  obtain ⟨hxl, hyl⟩ := hlive
  -- both successors are in the family of the token, and they are different rows
  have hfamily : ∀ {r : ℕ} {u row z : RefreshToken}, u ∈ found (own r s.config.trace) →
      row ∈ inserted (own r s.config.trace) → z ∈ s.config.state.tokens → z.id = row.id →
      z.familyId = u.familyId := by
    intro r u row z hu hrow hz hid
    obtain ⟨z', hz', hk⟩ := h.stored row (mem_of_own hrow)
    have hzz : z = z' := TokenTable.eq_of_id hz hz' (hid.trans hk.id.symm)
    rw [hzz, hk.familyId]
    exact h.heir r u hu row hrow
  have htoken : t.familyId = t'.familyId := by
    obtain ⟨z, hz, hk⟩ := h.known t (mem_of_own ht)
    obtain ⟨z', hz', hk'⟩ := h.known t' (mem_of_own ht')
    have hzz : z = z' := TokenTable.eq_of_id hz hz' (by rw [hk.id, hk'.id, htt])
    rw [← hk.familyId, ← hk'.familyId, hzz]
  have hxy := hone hq x hx y hy
    (by rw [hfamily ht ha hx hxa, hfamily ht' hb hy hyb, htoken]) hxl hyl
  exact hpq (h.author p q a ha b hb (by rw [← hxa, ← hyb, hxy]))

/-! ## Runs -/

/-- `NotOvertaken`, computed. -/
def notOvertaken (c : Config calls State) (pid : ℕ) (op : Op) : Bool :=
  match op with
  | .db (.create _) => decide (∀ t ∈ found (own pid c.trace), Unhindered t.familyId pid c.trace)
  | .db (.update ..) => decide (∀ t ∈ found (own pid c.trace), Unhindered t.familyId pid c.trace)
  | _ => true

theorem notOvertaken_of_check {c : Config calls State} {pid : ℕ} {op : Op}
    (h : notOvertaken c pid op = true) : NotOvertaken c pid op := by
  cases op with
  | db call =>
    cases call with
    | create d =>
      have hall : ∀ t ∈ found (own pid c.trace), Unhindered t.familyId pid c.trace :=
        of_decide_eq_true h
      exact hall
    | update id at_ next =>
      have hall : ∀ t ∈ found (own pid c.trace), Unhindered t.familyId pid c.trace :=
        of_decide_eq_true h
      exact hall
    | _ => trivial
  | _ => trivial

/-- A login, whose token is then rotated. -/
def rotatedRun : List (Move Job String ℕ) :=
  [.start (.issue "user" {}), .perform 0 "first", .perform 0 "a", .perform 0 "", .perform 0 "t0",
    .start (.rotate "first" {}), .perform 1 "", .perform 1 "", .perform 1 "second", .perform 1 "",
    .perform 1 "t1", .perform 1 "", .perform 1 ""]

/-- A login, whose token is rotated twice at the same time: both rotations look it up before one
    of them has replaced it. -/
def twiceRotatedRun : List (Move Job String ℕ) :=
  [.start (.issue "user" {}), .perform 0 "first", .perform 0 "a", .perform 0 "", .perform 0 "t0",
    .start (.rotate "first" {}), .start (.rotate "first" {}),
    .perform 1 "", .perform 1 "", .perform 2 "", .perform 2 "",
    .perform 1 "second", .perform 1 "", .perform 1 "t1", .perform 1 "", .perform 1 "",
    .perform 2 "third", .perform 2 "", .perform 2 "t2", .perform 2 "", .perform 2 ""]

/-- No call is in progress, and the tokens with the times of their revocation. -/
def ledger (s : System calls Error Job State) : Bool × List (String × String × Option Time) :=
  (s.quiet, s.config.state.tokens.rows.map fun x => (x.id, x.familyId, x.revokedAt))

theorem single_live_token_rotated : ∃ s, Reachable machine (work demo) State.Start NotOvertaken s ∧
    ledger s = (true, [("t1", "fam_a", none), ("t0", "fam_a", some 0)]) ∧
    ∀ x ∈ s.config.state.tokens, ∀ y ∈ s.config.state.tokens, x.familyId = y.familyId →
      x.revokedAt = none → y.revokedAt = none → x = y := by
  obtain ⟨s, hs, hview⟩ := Reachable.viewWhere (M := machine) (W := work demo)
    (fun c pid op => @notOvertaken_of_check c pid op) demoState_start rotatedRun (f := ledger)
    (x := (true, [("t1", "fam_a", none), ("t0", "fam_a", some 0)])) (by decide)
  exact ⟨s, hs, hview, (single_live_token hs).1 (Prod.mk.inj hview).1⟩

theorem two_live_tokens : ∃ s, Reachable machine (work demo) State.Start anything s ∧
    s.quiet = true ∧ ∃ x ∈ s.config.state.tokens, ∃ y ∈ s.config.state.tokens,
      x.familyId = y.familyId ∧ x.revokedAt = none ∧ y.revokedAt = none ∧ x ≠ y := by
  obtain ⟨s, hs, hview⟩ := Reachable.view (M := machine) (W := work demo) demoState_start
    twiceRotatedRun (f := ledger) (x := (true, [("t2", "fam_a", none), ("t1", "fam_a", none),
      ("t0", "fam_a", some 0)])) (by decide)
  obtain ⟨hquiet, hrows⟩ := Prod.mk.inj hview
  obtain ⟨x, rows, hx, hxr, hrows⟩ := List.map_eq_cons_iff.mp hrows
  obtain ⟨y, rows', hy, hyr, -⟩ := List.map_eq_cons_iff.mp hrows
  obtain ⟨hxid, hxf, hxl⟩ : x.id = "t2" ∧ x.familyId = "fam_a" ∧ x.revokedAt = none := by
    simpa using hxr
  obtain ⟨hyid, hyf, hyl⟩ : y.id = "t1" ∧ y.familyId = "fam_a" ∧ y.revokedAt = none := by
    simpa using hyr
  refine ⟨s, hs, hquiet, x, ?_, y, ?_, hxf.trans hyf.symm, hxl, hyl, ?_⟩
  · rw [TokenTable.mem_def, hx]
    exact List.mem_cons_self
  · rw [TokenTable.mem_def, hx, hy]
    exact List.mem_cons_of_mem x List.mem_cons_self
  · intro heq
    rw [heq, hyid] at hxid
    exact absurd hxid (by decide)

end CryptoPay.Auth
