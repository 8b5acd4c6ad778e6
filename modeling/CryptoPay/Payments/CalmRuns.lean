import CryptoPay.Payments.Batches
import CryptoPay.Payments.LoneRuns
import Mathlib.Algebra.Order.BigOperators.Group.List

/-!
# Runs that nothing disturbs

A program that runs alone, while the database is reached, generated ids are new,
the clock does not go back and nothing else changes what is behind the requests of
`A`. Rows come in any order.

Results:
* `calm_read`, `calm_now`, `calm_generateId`, `calm_call`, `calm_other`: what a request
  returns, and that it leaves the tables alone.
* `calm_clock`: no run moves the clock back.
* `calm_commit`: a commit that has what it needs is made.
* `calm_total`: every request has a reply.
-/

namespace CryptoPay

open Async Data

/-- The database is reached, and a generated id is not taken. -/
def undisturbed {A : Signature} {ω ι : Type} (w : World ω) : Op A → Input ι → Bool
  | .prisma _, .connectionError => false
  | .generateId stem, .id suffix =>
    (w.db.webhookEvents.find? (stem ++ "_" ++ suffix)).isNone &&
      (w.db.payments.find? (stem ++ "_" ++ suffix)).isNone
  | _, _ => true

/-- The clock does not go back. -/
def forward {ω : Type} (w : World ω) : Act Empty → Bool
  | .clock t => w.clock ≤ t
  | _ => true

/-- The machine of undisturbed runs. -/
def calm {A : Signature} {ω ι : Type} (B : Backend A ω ι Empty) :
    Machine (effects A) (World ω) (Input ι) (Act Empty) :=
  { machine B with
    respond := fun pid w op i => if undisturbed w op i then respond B pid w op i else none
    env := fun w act => if forward w act then environment B w act else none }

/-- The same rows, and no earlier a clock. -/
structure Later {ω : Type} (w w' : World ω) : Prop where
  rows : w.db.SameRows w'.db
  cursors : w'.db.blockchainScanCursors = w.db.blockchainScanCursors
  clock : w.clock ≤ w'.clock
  other : w'.other = w.other

variable {A : Signature} {ω ι α : Type} {B : Backend A ω ι Empty} {pid : ℕ} {w w₁ w' : World ω}
  {evs : List (Event (effects A))} {m : Commit}

theorem Later.refl (w : World ω) : Later w w := ⟨.refl _, rfl, le_refl _, rfl⟩

theorem Later.trans (h : Later w w₁) (h' : Later w₁ w') : Later w w' :=
  ⟨h.rows.trans h'.rows, h'.cursors.trans h.cursors, le_trans h.clock h'.clock,
    h'.other.trans h.other⟩

/-- An undisturbed reply is a reply. -/
theorem calm_respond {op : Op A} {i : Input ι} {r : (effects A).Ret op}
    (h : (calm B).respond pid w op i = some (r, w')) :
    undisturbed w op i = true ∧ respond B pid w op i = some (r, w') := by
  replace h : (if undisturbed w op i then respond B pid w op i else none) = some (r, w') := h
  split_ifs at h with hok
  exact ⟨hok, h⟩

theorem calm_env {act : Act Empty} (h : (calm B).env w act = some w') :
    forward w act = true ∧ environment B w act = some w' := by
  replace h : (if forward w act then environment B w act else none) = some w' := h
  split_ifs at h with hok
  exact ⟨hok, h⟩

/-- An undisturbed run is a run. -/
theorem calm_runs {p : Action A α} {x : Except Error α} (h : Runs (calm B) pid p w evs x w') :
    Runs (machine B) pid p w evs x w' :=
  Runs.imp (N := machine B) (fun _ _ _ _ h => (calm_respond h).2)
    (fun _ act _ hs hact => ⟨act, (calm_env hs).2, hact⟩) h

theorem calm_drifts (h : Drifts (calm B) w w') : Later w w' := by
  induction h with
  | refl => exact .refl _
  | tail _ hstep ih =>
    obtain ⟨act, -, hact⟩ := hstep
    obtain ⟨hforward, hact⟩ := calm_env hact
    have hrows := (Ledger.environment_rows hact).1
    refine ih.trans ?_
    cases act with
    | clock t =>
      simp only [environment] at hact
      split_ifs at hact
      cases hact
      exact ⟨hrows, rfl, of_decide_eq_true hforward, rfl⟩
    | reorderInvoices rows =>
      simp only [environment] at hact
      split_ifs at hact
      cases hact
      exact ⟨hrows, rfl, le_refl _, rfl⟩
    | reorderPayments rows =>
      simp only [environment] at hact
      split_ifs at hact
      cases hact
      exact ⟨hrows, rfl, le_refl _, rfl⟩
    | other e => exact e.elim

/-! ## Single requests -/

/-- A Prisma call is executed. -/
theorem calm_respond_prisma {call : PrismaCall} {i : Input ι} {r : Except Error call.Ret}
    (h : (calm B).respond pid w (.prisma call) i = some (r, w')) :
    r = (call.exec w.clock w.db).1 ∧ w' = { w with db := (call.exec w.clock w.db).2 } := by
  obtain ⟨hok, hr⟩ := calm_respond h
  cases i with
  | ok => cases hr; exact ⟨rfl, rfl⟩
  | connectionError => cases hok
  | id s => cases hr
  | other a => cases hr

theorem calm_now {x : Except Error Time} (h : Runs (calm B) pid dateNow w evs x w') :
    ∃ t, x = .ok t ∧ w.clock ≤ t ∧ t ≤ w'.clock ∧ Later w w' := by
  obtain ⟨w₁, i, t, w₂, hd, hr, -, rfl, hd'⟩ := h.perform_inv
  obtain ⟨rfl, rfl⟩ := respond_now (calm_respond hr).2
  have hlater := calm_drifts hd
  have hlater' := calm_drifts hd'
  exact ⟨_, rfl, hlater.clock, hlater'.clock, hlater.trans hlater'⟩

theorem calm_generateId {stem : String} {x : Except Error String}
    (h : Runs (calm B) pid (generateId stem) w evs x w') :
    ∃ id, x = .ok id ∧ Later w w' ∧ (∀ e ∈ w'.db.webhookEvents, e.id ≠ id) ∧
      ∀ p ∈ w'.db.payments, p.id ≠ id := by
  obtain ⟨w₁, i, id, w₂, hd, hr, -, rfl, hd'⟩ := h.perform_inv
  obtain ⟨hnew, hr⟩ := calm_respond hr
  obtain rfl := respond_generateId hr
  have hlater' := calm_drifts hd'
  refine ⟨_, rfl, (calm_drifts hd).trans hlater', ?_⟩
  cases i with
  | id suffix =>
    cases hr
    obtain ⟨hevent, hpayment⟩ := (Bool.and_eq_true _ _).mp hnew
    refine ⟨fun e he => ?_, fun p hp => ?_⟩
    · exact Table.find?_eq_none_iff.mp (Option.isNone_iff_eq_none.mp hevent) e
        ((hlater'.rows.webhookEvents e).1 he)
    · exact Table.find?_eq_none_iff.mp (Option.isNone_iff_eq_none.mp hpayment) p
        ((hlater'.rows.payments p).1 hp)
  | ok => cases hr
  | connectionError => cases hr
  | other a => cases hr

theorem calm_mark {m : Mark} {x : Except Error Unit} (h : Runs (calm B) pid (mark m) w evs x w') :
    x = .ok () ∧ Later w w' ∧ evs = [⟨pid, .mark m, ()⟩] := by
  obtain ⟨w₁, i, r, w₂, hd, hr, rfl, rfl, hd'⟩ := h.perform_inv
  obtain rfl := respond_mark (calm_respond hr).2
  exact ⟨rfl, (calm_drifts hd).trans (calm_drifts hd'), rfl⟩

/-- A query that computes its result from the tables. -/
theorem calm_read (call : PrismaCall) (f : Db → call.Ret)
    (hf : ∀ now db, call.exec now db = (.ok (f db), db)) {x : Except Error call.Ret}
    (h : Runs (calm B) pid (prisma call) w evs x w') :
    ∃ db, w.db.SameRows db ∧ x = .ok (f db) ∧ Later w w' := by
  obtain ⟨w₁, i, r, w₂, hd, hr, -, rfl, hd'⟩ := h.request_inv
  obtain ⟨rfl, rfl⟩ := calm_respond_prisma hr
  have hlater := calm_drifts hd
  rw [hf] at hd' ⊢
  exact ⟨_, hlater.rows, rfl, hlater.trans (calm_drifts (w := w₁) hd')⟩

/-- A request of `A`. -/
theorem calm_call {op : A.Op} {read : A.Ret op → Except Error α} {x : Except Error α}
    (h : Runs (calm B) pid (.request (S := effects A) (.other op) read) w evs x w') :
    ∃ w₁ k r o, Later w w₁ ∧ B.respond pid w₁.clock w.other op k = some (r, o) ∧ x = read r ∧
      Later { w₁ with other := o } w' ∧ evs = [⟨pid, .other op, r⟩] := by
  obtain ⟨w₁, i, r, w₂, hd, hr, rfl, rfl, hd'⟩ := h.request_inv
  obtain ⟨k, o, ho, rfl⟩ := respond_other (calm_respond hr).2
  have hlater := calm_drifts hd
  rw [hlater.other] at ho
  exact ⟨w₁, k, r, o, hlater, ho, rfl, calm_drifts hd', rfl⟩

/-- A request of `A` that does not change what is behind it. -/
theorem calm_other {op : A.Op} (hB : ∀ pid t o k r o', B.respond pid t o op k = some (r, o') → o' = o)
    {read : A.Ret op → Except Error α} {x : Except Error α}
    (h : Runs (calm B) pid (.request (S := effects A) (.other op) read) w evs x w') :
    ∃ t k r, B.respond pid t w.other op k = some (r, w.other) ∧ x = read r ∧ Later w w' ∧
      evs = [⟨pid, .other op, r⟩] ∧ w.clock ≤ t ∧ t ≤ w'.clock := by
  obtain ⟨w₁, k, r, o, hlater, hr, rfl, hlater', hev⟩ := calm_call h
  obtain rfl := hB _ _ _ _ _ _ hr
  refine ⟨_, k, r, hr, rfl, hlater.trans ?_, hev, hlater.clock, hlater'.clock⟩
  rw [← hlater.other] at hlater'
  exact hlater'

/-- The clock does not go back. -/
theorem calm_clock {p : Action A α} {x : Except Error α} (h : Runs (calm B) pid p w evs x w') :
    w.clock ≤ w'.clock := by
  induction h with
  | ret => exact le_refl _
  | throw => exact le_refl _
  | await i hr h ih => exact respond_clock (calm_respond hr).2 ▸ ih
  | env act hact hs h ih => exact le_trans (calm_drifts (.single ⟨act, hact, hs⟩)).clock ih

/-- A commit that has what it needs is made. -/
theorem calm_commit (hm : m.Acceptable w.db) {x : Except Error Unit}
    (h : Runs (calm B) pid (transaction m.writes) w evs x w') :
    x = .ok () ∧ ∃ t db db', w.clock ≤ t ∧ t ≤ w'.clock ∧ w.db.SameRows db ∧ m.Effect t db db' ∧
      db'.SameRows w'.db ∧ w'.db.blockchainScanCursors = w.db.blockchainScanCursors ∧
      w'.other = w.other := by
  obtain ⟨w₁, i, r, w₂, hd, hr, -, rfl, hd'⟩ := h.request_inv
  have hlater := calm_drifts hd
  have hlater' := calm_drifts hd'
  have hm₁ := hm.congr hlater.rows
  rcases Commit.respond_accepted hm₁ (calm_respond hr).2 with ⟨rfl, he⟩ | ⟨rfl, rfl⟩
  · obtain ⟨-, rfl⟩ := calm_respond_prisma hr
    exact ⟨rfl, w₁.clock, w₁.db, _, hlater.clock, hlater'.clock, hlater.rows, he, hlater'.rows,
      hlater'.cursors.trans (he.blockchainScanCursors.trans hlater.cursors),
      hlater'.other.trans hlater.other⟩
  · obtain ⟨hr, -⟩ := calm_respond_prisma hr
    obtain ⟨db', hdb'⟩ : ∃ db', w₂.db.transaction w₂.clock m.writes = .ok db' := Commit.accepted hm₁
    simp only [PrismaCall.exec, hdb'] at hr
    cases hr

/-- As a batch of one, if it creates nothing. -/
theorem calm_batch (hm : m.Acceptable w.db) (hp : m.paymentCreate = none) {x : Except Error Unit}
    (h : Runs (calm B) pid (transaction m.writes) w evs x w') :
    x = .ok () ∧ ∃ t, w.clock ≤ t ∧ t ≤ w'.clock ∧ Batch [(m, t)] w.db w'.db := by
  obtain ⟨hx, t, db, db', hle, hle', hrows, he, hrows', -, -⟩ := calm_commit hm h
  exact ⟨hx, t, hle, hle',
    ((Batch.of_effect he hm.invoiceCreate hp).congr_left hrows).congr_right hrows'⟩

/-! ## Every request has a reply -/

/-- There is always another id: a longer one. -/
theorem exists_suffix (stem : String) (ids : List String) : ∃ suffix, stem ++ suffix ∉ ids := by
  let lengths := ids.map String.length
  refine ⟨String.ofList (List.replicate (lengths.sum + 1) 'a'), fun hmem => ?_⟩
  have hle := List.single_le_sum (l := lengths) (fun _ _ => Nat.zero_le _) _
    (List.mem_map_of_mem hmem)
  rw [String.length_append, String.length_ofList, List.length_replicate] at hle
  omega

theorem calm_total (hB : ∀ pid t o op, ∃ k y, B.respond pid t o op k = some y) (pid : ℕ)
    (w : World ω) (op : Op A) : ∃ i y, (calm B).respond pid w op i = some y := by
  cases op with
  | prisma call => exact ⟨.ok, _, rfl⟩
  | now => exact ⟨.ok, _, rfl⟩
  | generateId stem =>
    obtain ⟨suffix, hsuffix⟩ := exists_suffix (stem ++ "_")
      (w.db.webhookEvents.rows.map WebhookEvent.id ++ w.db.payments.rows.map Payment.id)
    refine ⟨.id suffix, _, if_pos ((Bool.and_eq_true _ _).mpr ⟨?_, ?_⟩)⟩
    · refine Option.isNone_iff_eq_none.mpr (Table.find?_eq_none_iff.mpr fun e he heq => hsuffix ?_)
      exact List.mem_append_left _ (heq ▸ List.mem_map_of_mem he)
    · refine Option.isNone_iff_eq_none.mpr (Table.find?_eq_none_iff.mpr fun p hp heq => hsuffix ?_)
      exact List.mem_append_right _ (heq ▸ List.mem_map_of_mem hp)
  | generateFakeAddress => exact ⟨.id "", _, rfl⟩
  | cuid => exact ⟨.id "", _, rfl⟩
  | mark m => exact ⟨.ok, _, rfl⟩
  | other op =>
    obtain ⟨k, ⟨r, o⟩, hk⟩ := hB pid w.clock w.other op
    refine ⟨.other k, (r, { w with other := o }), ?_⟩
    show (B.respond pid w.clock w.other op k).map _ = _
    rw [hk]
    rfl

end CryptoPay
