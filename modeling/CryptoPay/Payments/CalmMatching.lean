import CryptoPay.Payments.CalmRuns

/-!
# Matching transfers in runs that nothing disturbs

`tryMatchTransfer` as a whole, while the database is reached and generated ids are
new: what could still make it throw is an amount that its column cannot store.

Results:
* `matchTransfer_returns`: if the amounts of the transfer and of the invoices fit, it
  returns, and leaves the cursors and the amounts of the invoices alone.
* `matchTransfers_returns`: so does the loop over the transfers of a pass, which
  passes and processes each of them.
-/

namespace CryptoPay

open Async Data

variable {A : Signature} {ω ι : Type} {B : Backend A ω ι Empty} {pid : ℕ} {w w₁ w' : World ω}
  {evs : List (Event (effects A))} {x : Except Error Unit} {t : TokenTransfer}

/-- The same cursors, the same things behind the adapter, and no new amounts. -/
structure Beside (w w' : World ω) : Prop where
  cursors : w'.db.blockchainScanCursors = w.db.blockchainScanCursors
  other : w'.other = w.other
  amounts : ∀ i' ∈ w'.db.invoices, ∃ i ∈ w.db.invoices, i'.amount = i.amount

theorem Beside.trans (h : Beside w w₁) (h' : Beside w₁ w') : Beside w w' where
  cursors := h'.cursors.trans h.cursors
  other := h'.other.trans h.other
  amounts i' hi' := by
    obtain ⟨i₁, hi₁, heq'⟩ := h'.amounts i' hi'
    obtain ⟨i, hi, heq⟩ := h.amounts i₁ hi₁
    exact ⟨i, hi, heq'.trans heq⟩

theorem Later.beside (h : Later w w') : Beside w w' where
  cursors := h.cursors
  other := h.other
  amounts i' hi' := ⟨i', (h.rows.invoices i').1 hi', rfl⟩

theorem Beside.fits (h : Beside w w') (hfits : ∀ i ∈ w.db.invoices, i.amount.fitsColumn = true) :
    ∀ i ∈ w'.db.invoices, i.amount.fitsColumn = true := by
  intro i' hi'
  obtain ⟨i, hi, heq⟩ := h.amounts i' hi'
  rw [heq]
  exact hfits i hi

/-- The commit of a detection goes through if both amounts fit. -/
theorem creditTransfer_returns {i : Invoice} (ht : t.amount.fitsColumn = true)
    (hi : i ∈ w.db.invoices) (hfits : i.amount.fitsColumn = true)
    (h : Runs (calm B) pid (creditTransfer t i) w evs x w') : x = .ok () ∧ Beside w w' := by
  obtain ⟨alreadySeen, w₁, _, _, -, hquery, h⟩ := Runs.bind_returns h fun _ _ _ hrun => by
    obtain ⟨db, -, hx, -⟩ := calm_read (.paymentFindByTxHash i.network t.txHash)
      (fun db => db.payments.rows.find? fun p => p.network = i.network ∧ p.txHash = some t.txHash)
      (fun _ _ => rfl) hrun
    exact ⟨_, hx⟩
  obtain ⟨db, hrows, hx, hlater⟩ := calm_read (.paymentFindByTxHash i.network t.txHash)
    (fun db => db.payments.rows.find? fun p => p.network = i.network ∧ p.txHash = some t.txHash)
    (fun _ _ => rfl) hquery
  obtain rfl := Except.ok.inj hx
  split_ifs at h with hseen
  · obtain ⟨-, rfl, hd⟩ := h.ret_inv
    exact ⟨rfl, (hlater.trans (calm_drifts hd)).beside⟩
  -- both status checks pass
  have h : Runs (calm B) pid (generateId "pay" >>= fun paymentId => dateNow >>= fun detectedAt =>
    transaction (Commit.detect i t paymentId detectedAt).writes) w₁ _ x w' := h
  obtain ⟨paymentId, w₂, _, _, -, hid, h⟩ := h.bind_returns fun _ _ _ hrun => by
    obtain ⟨id, hx, -⟩ := calm_generateId hrun
    exact ⟨id, hx⟩
  obtain ⟨_, ⟨⟩, hlater₂, -, hfresh⟩ := calm_generateId hid
  obtain ⟨detectedAt, w₃, _, _, -, hnow, h⟩ := h.bind_returns fun _ _ _ hrun => by
    obtain ⟨t, hx, -⟩ := calm_now hrun
    exact ⟨t, hx⟩
  obtain ⟨_, ⟨⟩, -, -, hlater₃⟩ := calm_now hnow
  have hlater' : Later w w₂ := hlater.trans hlater₂
  have hacc : (Commit.detect i t paymentId detectedAt).Acceptable w₂.db := by
    have hstored : i ∈ w₂.db.invoices := (hlater'.rows.invoices i).2 hi
    refine ⟨rfl, nofun, ?_, ?_, nofun⟩
    · rintro _ ⟨⟩
      refine ⟨hfits, ht, ⟨i, hstored, rfl⟩, fun p hp hnetwork hhash => ?_, hfresh⟩
      have hp : p ∈ db.payments := (hrows.payments p).2 ((hlater'.rows.payments p).1 hp)
      exact hseen (List.find?_isSome.mpr ⟨p, hp, by simp [hnetwork, hhash, detectedPayment]⟩)
    · rintro _ ⟨⟩
      exact ⟨i, hstored, rfl⟩
  obtain ⟨rfl, now, db₁, db', -, -, hrows₁, he, hrows', hcursors, hother⟩ :=
    calm_commit (hacc.congr hlater₃.rows) h
  have hstart : Beside w w₃ := (hlater'.trans hlater₃).beside
  refine ⟨rfl, hstart.trans ⟨hcursors, hother, fun i' hi' => ?_⟩⟩
  rcases (he.invoices i').1 ((hrows'.invoices i').1 hi') with ⟨j, hj, rfl⟩ | ⟨d, hd, -⟩
  · have hterms := congrArg Invoice.amount
      (Commit.terms_onInvoice (.detect i t paymentId detectedAt) j)
    exact ⟨j, (hrows₁.invoices j).1 hj, hterms⟩
  · cases hd

/-- `tryMatchTransfer` returns if the amounts fit. -/
theorem matchTransfer_returns (ht : t.amount.fitsColumn = true)
    (hfits : ∀ i ∈ w.db.invoices, i.amount.fitsColumn = true)
    (h : Runs (calm B) pid (matchTransfer t) w evs x w') : x = .ok () ∧ Beside w w' := by
  obtain ⟨candidates, w₁, _, _, -, hquery, h⟩ := Runs.bind_returns h fun _ _ _ hrun => by
    obtain ⟨db, -, hx, -⟩ := calm_read (.invoiceFindMany (candidateWhere t))
      (fun db => db.invoices.filter (candidateWhere t).holds) (fun _ _ => rfl) hrun
    exact ⟨_, hx⟩
  obtain ⟨db, hrows, hx, hlater⟩ := calm_read (.invoiceFindMany (candidateWhere t))
    (fun db => db.invoices.filter (candidateWhere t).holds) (fun _ _ => rfl) hquery
  obtain rfl := Except.ok.inj hx
  split at h
  · obtain ⟨-, rfl, hd⟩ := h.ret_inv
    exact ⟨rfl, (hlater.trans (calm_drifts hd)).beside⟩
  · rename_i i hselect
    have hi : i ∈ w.db.invoices :=
      (hrows.invoices i).1 (Table.mem_filter.mp (selectMatchingInvoice_mem hselect).1).1
    obtain ⟨hx, hbeside⟩ := creditTransfer_returns ht ((hlater.rows.invoices i).2 hi) (hfits i hi) h
    exact ⟨hx, hlater.beside.trans hbeside⟩

/-- The loop body, with its marks. -/
theorem passTransfer_returns (ht : t.amount.fitsColumn = true)
    (hfits : ∀ i ∈ w.db.invoices, i.amount.fitsColumn = true)
    (h : Runs (calm B) pid (passTransfer t) w evs x w') :
    x = .ok () ∧ Beside w w' ∧ (⟨pid, .mark (.passed t), ()⟩ : Event (effects A)) ∈ evs ∧
      (⟨pid, .mark (.processed t), ()⟩ : Event (effects A)) ∈ evs := by
  obtain ⟨⟨⟩, w₁, evs₁, evs', rfl, hpassed, hrest⟩ := Runs.bind_returns h fun _ _ _ hrun =>
    ⟨(), (calm_mark hrun).1⟩
  obtain ⟨-, hlater₁, rfl⟩ := calm_mark hpassed
  have hfits₁ := hlater₁.beside.fits hfits
  obtain ⟨⟨⟩, w₂, evs₂, evs₃, rfl, hmatch, hprocessed⟩ := Runs.bind_returns hrest fun _ _ _ hrun =>
    ⟨(), (matchTransfer_returns ht hfits₁ hrun).1⟩
  obtain ⟨-, hbeside⟩ := matchTransfer_returns ht hfits₁ hmatch
  obtain ⟨rfl, hlater₃, rfl⟩ := calm_mark hprocessed
  refine ⟨rfl, (hlater₁.beside.trans hbeside).trans hlater₃.beside, List.mem_cons_self, ?_⟩
  exact List.mem_append_right _ (List.mem_append_right _ (List.mem_singleton_self _))

/-- The loop over the transfers of a pass. -/
theorem matchTransfers_returns {ts : List TokenTransfer} (hts : ∀ t ∈ ts, t.amount.fitsColumn = true)
    (hfits : ∀ i ∈ w.db.invoices, i.amount.fitsColumn = true)
    (h : Runs (calm B) pid (matchTransfers ts) w evs x w') :
    x = .ok () ∧ Beside w w' ∧ ∀ t ∈ ts,
      (⟨pid, .mark (.passed t), ()⟩ : Event (effects A)) ∈ evs ∧
      (⟨pid, .mark (.processed t), ()⟩ : Event (effects A)) ∈ evs := by
  induction ts generalizing w evs with
  | nil =>
    obtain ⟨-, rfl, hd⟩ := Runs.ret_inv h
    exact ⟨rfl, (calm_drifts hd).beside, fun t ht => absurd ht List.not_mem_nil⟩
  | cons t ts ih =>
    have ht := hts t List.mem_cons_self
    obtain ⟨⟨⟩, w₁, evs₁, evs₂, rfl, hbody, hrest⟩ := Runs.bind_returns h fun _ _ _ hrun =>
      ⟨(), (passTransfer_returns ht hfits hrun).1⟩
    obtain ⟨-, hbeside, hpassed, hprocessed⟩ := passTransfer_returns ht hfits hbody
    obtain ⟨rfl, hbeside', hmarks⟩ :=
      ih (fun u hu => hts u (List.mem_cons_of_mem t hu)) (hbeside.fits hfits) hrest
    refine ⟨rfl, hbeside.trans hbeside', fun u hu => ?_⟩
    rcases List.mem_cons.mp hu with rfl | hu
    · exact ⟨List.mem_append_left _ hpassed, List.mem_append_left _ hprocessed⟩
    · exact ⟨List.mem_append_right _ (hmarks u hu).1, List.mem_append_right _ (hmarks u hu).2⟩

end CryptoPay
