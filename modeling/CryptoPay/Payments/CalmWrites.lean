import CryptoPay.Payments.CalmRuns
import CryptoPay.Payments.Readings

/-!
# What an undisturbed run writes

`writtenIn` lists the writes that the requests of a run have made. A row that none of them names
is stored afterwards as it was.

Results:
* `runs_keep`: what each write of a run keeps, the run keeps.
* `payment_unnamed`, `invoice_unnamed`: rows that no write names stay as they are.
* `unwriting_written`, `transaction_written`: what a program without writes and a transaction write.
-/

namespace CryptoPay

open Async Data

variable {A : Signature} {ω ι α : Type} {B : Backend A ω ι Empty} {pid : ℕ} {w w' : World ω}
  {evs evs' : List (Event (effects A))}

/-- What the requests wrote. -/
def writtenIn (evs : List (Event (effects A))) : List Write := evs.flatMap written

@[simp] theorem writtenIn_append : writtenIn (evs ++ evs') = writtenIn evs ++ writtenIn evs' :=
  List.flatMap_append

/-- One of the writes updates the payment or its invoice. -/
def Names (ws : List Write) (p : Payment) : Prop :=
  (∃ d, .paymentUpdate p.id d ∈ ws) ∨ ∃ d, .invoiceUpdate p.invoiceId d ∈ ws

theorem not_names_nil {p : Payment} : ¬ Names [] p := by
  rintro (⟨d, hd⟩ | ⟨d, hd⟩) <;> cases hd

theorem names_append {ws ws' : List Write} {p : Payment} :
    Names (ws ++ ws') p ↔ Names ws p ∨ Names ws' p := by
  simp only [Names, List.mem_append, exists_or]
  tauto

/-- What a commit names. -/
theorem names_writes {m : Commit} {p : Payment} :
    Names m.writes p ↔ m.paymentUpdate.map Prod.fst = some p.id ∨
      m.invoiceUpdate.map Prod.fst = some p.invoiceId := by
  simp [Names, Commit.writes, Option.map_eq_some_iff, Prod.exists]

/-! ## What a run keeps -/

/-- What each write of a run keeps, the run keeps, if it is about invoices and payments. -/
theorem runs_keep {R : Db → Prop} {p : Action A α} {x : Except Error α}
    (hrows : ∀ db db' : Db, (∀ i, i ∈ db'.invoices ↔ i ∈ db.invoices) →
      (∀ p, p ∈ db'.payments ↔ p ∈ db.payments) → R db → R db')
    (hwrites : ∀ y ∈ writtenIn evs, ∀ now db db', R db → y.apply now db = .ok db' → R db')
    (h : Runs (calm B) pid p w evs x w') (hR : R w.db) : R w'.db := by
  induction h with
  | ret => exact hR
  | throw => exact hR
  | await i hr h ih =>
    refine ih (fun y hy => hwrites y ?_) (respond_keeps (fun db db' hi hp => hrows db db'
      (fun i => by rw [hi]) fun p => by rw [hp]) (fun y hy => hwrites y ?_ _) hR (calm_respond hr).2)
    · exact List.mem_append_right _ hy
    · exact List.mem_append_left _ hy
  | env act hact hs h ih =>
    have hsame := (Ledger.environment_rows (calm_env hs).2).1
    exact ih hwrites (hrows _ _ hsame.invoices hsame.payments hR)

/-- A payment that no write names. -/
theorem payment_unnamed {q : Payment} {p : Action A α} {x : Except Error α}
    (hnot : ∀ d, .paymentUpdate q.id d ∉ writtenIn evs) (h : Runs (calm B) pid p w evs x w')
    (hq : q ∈ w.db.payments) : q ∈ w'.db.payments := by
  refine runs_keep (R := fun db => q ∈ db.payments) (fun _ _ _ hp => (hp q).mpr)
    (fun y hy now db db' hq happly => ?_) h hq
  by_cases hspares : y.SparesPayments
  · exact hspares.apply happly ▸ hq
  cases y with
  | paymentCreate d =>
    obtain ⟨-, -, t, ht, rfl⟩ := paymentCreate_ok happly
    exact ((Table.insert?_eq_some ht).2 q).mpr (.inr hq)
  | paymentUpdate id d =>
    obtain ⟨-, rfl⟩ := paymentUpdate_ok happly
    have hne : q.id ≠ id := fun heq => hnot d (heq ▸ hy)
    have hkept := Table.mem_modify_of_mem (f := Payment.update now d) (k := id) hq fun _ => rfl
    rwa [if_neg hne] at hkept
  | _ => exact absurd trivial hspares

/-- An invoice that no write names. -/
theorem invoice_unnamed {j : Invoice} {p : Action A α} {x : Except Error α}
    (hnot : ∀ d, .invoiceUpdate j.id d ∉ writtenIn evs) (h : Runs (calm B) pid p w evs x w')
    (hj : j ∈ w.db.invoices) : j ∈ w'.db.invoices := by
  refine runs_keep (R := fun db => j ∈ db.invoices) (fun _ _ hi _ => (hi j).mpr)
    (fun y hy now db db' hj happly => ?_) h hj
  by_cases hspares : y.SparesInvoices
  · exact hspares.apply happly ▸ hj
  cases y with
  | invoiceCreate d =>
    obtain ⟨-, t, ht, rfl⟩ := invoiceCreate_ok happly
    exact ((Table.insert?_eq_some ht).2 j).mpr (.inr hj)
  | invoiceUpdate id d =>
    obtain ⟨-, rfl⟩ := invoiceUpdate_ok happly
    have hne : j.id ≠ id := fun heq => hnot d (heq ▸ hy)
    have hkept := Table.mem_modify_of_mem (f := Invoice.update d) (k := id) hj fun _ => rfl
    rwa [if_neg hne] at hkept
  | _ => exact absurd trivial hspares

/-! ## What single steps write -/

/-- The request writes nothing. -/
def Unwriting : Op A → Prop
  | .prisma (.transaction _) => False
  | .prisma (.invoiceCreate _) => False
  | _ => True

theorem written_of_unwriting {ev : Event (effects A)} (h : Unwriting ev.op) : written ev = [] := by
  unfold written
  split
  · exact h.elim
  · exact h.elim
  · rfl

/-- A program that writes nothing. -/
theorem unwriting_written {p : Action A α} {x : Except Error α} (hp : p.Only Unwriting)
    (h : Runs (calm B) pid p w evs x w') : writtenIn evs = [] :=
  List.flatMap_eq_nil_iff.mpr fun ev hev => written_of_unwriting (h.only hp ev hev)

theorem transaction_written {ws : List Write}
    (h : Runs (calm B) pid (transaction ws) w evs (.ok ()) w') : writtenIn evs = ws := by
  obtain ⟨w₁, i, r, w₂, -, -, rfl, hx, -⟩ := h.request_inv
  cases r with
  | ok u => exact List.append_nil ws
  | error e => cases hx

theorem dateNow_unwriting : (dateNow : Action A Time).Only Unwriting :=
  Prog.Only.perform (show Unwriting (A := A) .now from trivial)

theorem generateId_unwriting (stem : String) : (generateId stem : Action A String).Only Unwriting :=
  Prog.Only.perform (show Unwriting (A := A) (.generateId stem) from trivial)

end CryptoPay
