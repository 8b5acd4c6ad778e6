import CryptoPay.Worker.ConfirmOrder
import CryptoPay.Worker.Visits

/-!
# Payments of other networks

An adapter serves one network, but `runPaymentConfirm` selects payments by their
status alone, and asks its adapter about each of them.

Results:
* `own_network_iff`: a pass leaves the payments of other networks and their invoices
  as they are if and only if what it reads gives no reason to update one of them.
* `other_network_failed`: it fails a detected payment of another network.
-/

namespace CryptoPay.Worker

open Async Data

/-- A payment of another network. -/
structure Foreign (network : String) (db : Db) (p : Payment) : Prop where
  stored : p ∈ db.payments
  network : p.network ≠ network

/-- The payments of other networks, and their invoices, are still stored as they were. -/
structure OthersKept (network : String) (db db' : Db) : Prop where
  payments : ∀ p, Foreign network db p → p ∈ db'.payments
  invoices : ∀ p, Foreign network db p → ∀ i ∈ db.invoices, i.id = p.invoiceId → i ∈ db'.invoices

/-- The pass has left them alone. Each update of a row also sets its `updatedAt`, so that one which
    writes what is there already is none the less a change. -/
structure OthersUntouched (network : String) (w w' : World Unit)
    (evs : List (Event (effects adapterCalls))) : Prop where
  kept : OthersKept network w.db w'.db
  unnamed : ∀ p, Foreign network w.db p → ¬ Names (writtenIn evs) p

/-- What a pass reads, at its sweep and at its visits, is no reason to touch another network. -/
structure Harmless (network : String) (requiredConfirmations : ℤ) (answers : String → Option ℤ)
    (db : Db) (t : Time) (visits : List Visit) : Prop where
  /-- No payment of another network belongs to an overdue invoice. -/
  overdue : ∀ i ∈ db.invoices, Overdue t i → ∀ p, Foreign network db p → p.invoiceId ≠ i.id
  /-- As long as no assertion has thrown, the answers about payments of other networks are no
      reason to write anything. -/
  spared : ∀ v ∈ Visit.made answers visits, v.payment.network ≠ network →
    v.spared requiredConfirmations answers = true
  /-- No payment of another network shares its invoice with one that is failed, starts confirming
      or is settled. -/
  apart : ∀ v ∈ Visit.made answers visits, v.payment.network = network →
    v.movesInvoice requiredConfirmations answers = true →
      ∀ p, Foreign network db p → p.invoiceId ≠ v.payment.invoiceId

variable {pid : ℕ} {answers : String → Option ℤ} {requiredConfirmations : ℤ} {D : String → Bool}
  {w w' : World Unit} {evs : List (Event (effects adapterCalls))} {x : Except Error Unit}
  {network : String} {t : Time} {visits : List Visit}

/-- A visit that moves an invoice is not spared. -/
theorem not_spared_of_movesInvoice {v : Visit}
    (h : v.movesInvoice requiredConfirmations answers = true) :
    v.spared requiredConfirmations answers = false := by
  unfold Visit.movesInvoice Visit.fails Visit.confirms Visit.settles at h
  unfold Visit.spared
  by_cases hempty : v.txHash = ""
  · simp [hempty] at h
  cases hanswer : answers v.txHash with
  | none =>
    simp only [hanswer, hempty] at h ⊢
    rcases (by simpa [hempty] using h : v.payment.status = .detected ∨ v.payment.status = .reorgDetected ∧
      REORG_GRACE_MS ≤ v.time - v.payment.updatedAt) with hst | ⟨hst, helapsed⟩
    · simp [hst]
    · simpa [hst] using helapsed
  | some n =>
    simp only [hanswer, hempty] at h ⊢
    rcases (by simpa [hempty] using h : (v.payment.status = .detected ∨ v.payment.status = .reorgDetected) ∨
      requiredConfirmations ≤ n ∧ v.payment.status = .confirming) with (hst | hst) | ⟨henough, hst⟩
    · simp [hst]
    · simp [hst]
    · simp [hst, not_lt.mpr henough]

/-- The payment of a visit is stored. -/
theorem Saw.stored (h : Saw w w' evs t visits) {v : Visit} (hv : v ∈ Visit.made answers visits) :
    v.payment.toPayment ∈ w.db.payments :=
  ((h.mem v.payment).mp (List.mem_map_of_mem ((List.takeWhile_subset _) hv))).1

/-- What a pass updates touches another network if and only if something it read is a reason. -/
theorem unnamed_iff (hsaw : Saw w w' evs t visits)
    (hnamed : ∀ q, Names (writtenIn evs) q ↔
      (∃ i ∈ w.db.invoices, Overdue t i ∧ i.id = q.invoiceId) ∨
      ∃ v ∈ Visit.made answers visits, v.spared requiredConfirmations answers = false ∧
        v.Names requiredConfirmations answers q) :
    (∀ p, Foreign network w.db p → ¬ Names (writtenIn evs) p) ↔
      Harmless network requiredConfirmations answers w.db t visits := by
  constructor
  · intro hunnamed
    refine ⟨fun i hi hdue p hp hid => ?_, fun v hv hnetwork => ?_, fun v hv _ hmoves p hp hid => ?_⟩
    · exact hunnamed p hp ((hnamed p).mpr (.inl ⟨i, hi, hdue, hid.symm⟩))
    · by_contra hspared
      have hnot := Bool.eq_false_of_not_eq_true hspared
      exact hunnamed v.payment.toPayment ⟨hsaw.stored hv, hnetwork⟩
        ((hnamed _).mpr (.inr ⟨v, hv, hnot, .inl rfl⟩))
    · have hnot := not_spared_of_movesInvoice hmoves
      exact hunnamed p hp ((hnamed p).mpr (.inr ⟨v, hv, hnot, .inr ⟨hmoves, hid.symm⟩⟩))
  · intro h p hp hnames
    rcases (hnamed p).mp hnames with ⟨i, hi, hdue, hid⟩ | ⟨v, hv, hspared, hnames⟩
    · exact h.overdue i hi hdue p hp hid.symm
    by_cases hnetwork : v.payment.network = network
    · rcases hnames with hid | ⟨hmoves, hid⟩
      · have hsame : v.payment.toPayment = p := Table.eq_of_key (hsaw.stored hv) hp.stored hid
        exact hp.network (hsame ▸ hnetwork)
      · exact h.apart v hv hnetwork hmoves p hp hid.symm
    · rw [h.spared v hv hnetwork] at hspared
      cases hspared

/-- What the updates do not name is stored as it was. -/
theorem othersUntouched_iff (h : CalmPass pid D requiredConfirmations answers w evs x w') :
    OthersUntouched network w w' evs ↔ ∀ p, Foreign network w.db p → ¬ Names (writtenIn evs) p := by
  refine ⟨OthersUntouched.unnamed, fun hunnamed => ⟨⟨fun p hp => ?_, fun p hp i hi hid => ?_⟩, hunnamed⟩⟩
  · exact payment_unnamed (fun d hd => hunnamed p hp (.inl ⟨d, hd⟩)) h hp.stored
  · exact invoice_unnamed (fun d hd => hunnamed p hp (.inr ⟨d, hid ▸ hd⟩)) h hi

/-- Over any tables, an undisturbed pass leaves the payments of other networks and their invoices
    alone if and only if what it reads is harmless. -/
theorem own_network_iff (network : String)
    (h : CalmPass pid D requiredConfirmations answers w evs x w') :
    ∃ t visits, Saw w w' evs t visits ∧ (OthersUntouched network w w' evs ↔
      Harmless network requiredConfirmations answers w.db t visits) := by
  obtain ⟨t, visits, hsaw, hnamed⟩ := pass_named h
  exact ⟨t, visits, hsaw, (othersUntouched_iff h).trans (unnamed_iff hsaw hnamed)⟩

/-! ## Two networks -/

/-- A detected payment of `base`, and one of `polygon` that has been missing for a moment. -/
def twoNetworks : World Unit where
  db := { Db.empty with
    invoices := ⟨[trackedInvoice "inv_1" .detected,
      { trackedInvoice "inv_2" .confirming with network := "polygon" }], by decide⟩
    payments := ⟨[trackedPayment "pay_1" "inv_1" "0x1" .detected,
      { trackedPayment "pay_2" "inv_2" "0x2" .reorgDetected with network := "polygon" }], by decide⟩ }
  clock := 1
  other := ()

/-- The adapter of `base` knows the transaction of the first payment. -/
def baseAnswers (txHash : String) : Option ℤ := if txHash = "0x1" then some 1 else none

theorem twoNetworks_foreign {p : Payment} (h : Foreign "base" twoNetworks.db p) :
    p = { trackedPayment "pay_2" "inv_2" "0x2" .reorgDetected with network := "polygon" } := by
  rcases List.mem_cons.mp h.stored with rfl | hp
  · exact absurd rfl h.network
  · exact List.mem_singleton.mp hp

/-- A pass for `base` leaves the payment of `polygon` alone, while the clock stands still. -/
theorem twoNetworks_untouched : ∃ evs x w',
    CalmPass 0 (fun _ => true) 3 baseAnswers twoNetworks evs x w' ∧
      OthersUntouched "base" twoNetworks w' evs := by
  obtain ⟨evs, x, w', hrun, hclock⟩ := Prog.exists_runs_keeping (I := fun w => w.clock = 1)
    (fun w op (hw : w.clock = 1) => by
      obtain ⟨i, y, hr⟩ := calm_total (B := fixedAnswers baseAnswers) fixedAnswers_total 0 w op
      exact ⟨i, y, hr, (respond_clock (calm_respond hr).2).trans hw⟩)
    (runPaymentConfirm (oracle fun _ => true) 3) (s := twoNetworks) rfl
  obtain ⟨t, visits, hsaw, hiff⟩ := own_network_iff "base" hrun
  refine ⟨evs, x, w', hrun, hiff.mpr ⟨fun i hi hdue => ?_, fun v hv hnetwork => ?_,
    fun v hv hnetwork _ p hp hid => ?_⟩⟩
  · exfalso
    have hpending := hdue.1
    rcases List.mem_cons.mp hi with rfl | hi
    · cases hpending
    · obtain rfl := List.mem_singleton.mp hi
      cases hpending
  · have hp := twoNetworks_foreign ⟨hsaw.stored hv, hnetwork⟩
    have htime : v.time ≤ 1 := hclock ▸ (hsaw.times v (List.takeWhile_subset _ hv)).2
    have hhash : v.txHash = "0x2" := by rw [Visit.txHash, hp]; rfl
    have hstatus : v.payment.status = .reorgDetected := by rw [hp]; rfl
    have hupdated : v.payment.updatedAt = 0 := by rw [hp]; rfl
    have hgrace : v.time - v.payment.updatedAt < REORG_GRACE_MS := by
      rw [hupdated, Int.sub_zero]
      exact lt_of_le_of_lt htime (by decide)
    have hanswer : baseAnswers "0x2" = none := rfl
    simp [Visit.spared, hhash, hanswer, hstatus, hgrace]
  · rcases List.mem_cons.mp (hsaw.stored hv) with heq | heq
    · rw [twoNetworks_foreign hp, heq] at hid
      exact absurd hid (by decide)
    · rw [List.mem_singleton.mp heq] at hnetwork
      exact absurd hnetwork (by decide)

/-! ## One payment of another network -/

/-- A detected payment of the network `polygon`. -/
def foreignPayment : World Unit where
  db := { Db.empty with
    invoices := ⟨[{ trackedInvoice "inv_1" .detected with network := "polygon" }],
      List.nodup_singleton _⟩
    payments := ⟨[{ trackedPayment "pay_1" "inv_1" "0x1" .detected with network := "polygon" }],
      List.nodup_singleton _⟩ }
  clock := 1
  other := ()

theorem foreignPayment_pairedOff : PairedOff foreignPayment.db where
  invoice p hp _ := by
    obtain rfl := List.mem_singleton.mp hp
    exact ⟨_, List.mem_singleton_self _, rfl, .inl ⟨rfl, rfl⟩⟩
  own p hp q hq _ _ _ := by rw [List.mem_singleton.mp hp, List.mem_singleton.mp hq]

/-- A pass for `base` fails the payment, as its adapter does not know the transaction. -/
theorem other_network_failed : ¬ ∀ network D requiredConfirmations answers w,
    (∀ p, Foreign network w.db p → ∀ txHash, p.txHash = some txHash → answers txHash = none) →
    ∀ pid evs x w', CalmPass pid D requiredConfirmations answers w evs x w' →
      OthersKept network w.db w'.db := by
  intro h
  obtain ⟨evs, x, w', hrun⟩ := Prog.exists_runs (calm_total fixedAnswers_total 0)
    (runPaymentConfirm (oracle fun _ => true) 3) foreignPayment
  have hkept := h "base" _ 3 (fun _ => none) _ (fun _ _ _ _ => rfl) 0 evs x w' hrun
  have hstored := hkept.payments _ ⟨List.mem_singleton_self _, by decide⟩
  obtain ⟨r, -, hout⟩ := CalmPass.outcome (p := ⟨_, _⟩) foreignPayment_pairedOff hrun
    ⟨List.mem_singleton_self _, List.mem_singleton_self _, rfl⟩ (by decide)
  have hstatus := congrArg Payment.status (Table.eq_of_key hout.payment hstored rfl)
  cases hstatus

end CryptoPay.Worker
