import CryptoPay.Async.Freshness
import CryptoPay.Payments.Outline
import CryptoPay.Payments.Requests

/-!
# What a query has shown

The rows of a list are read by one request and written by a later one. What the filter of the
query says of a row stays true until somebody writes the row.

Results:
* `respond_keeps`: what each write of a request keeps, the request keeps.
* `pending_since`: an invoice that a query for `PENDING` invoices returned is still `PENDING`, as
  long as it is not updated.
* `open_since`: a payment that a query for open payments returned is still open, as long as its
  status is not written.
-/

namespace CryptoPay

open Async Data

variable {A : Signature} {ω ι η ε κ : Type}

/-! ## Reads and writes of one row -/

/-- The request returned these invoices. -/
def ReturnsInvoices (w : InvoiceWhere) (is : List Invoice) (ev : Event (effects A)) : Prop :=
  ev = ⟨ev.pid, .prisma (.invoiceFindMany w), .ok is⟩

/-- The request returned these payments, with their invoices. -/
def ReturnsPayments (status : List PaymentStatus) (ps : List PaymentWithInvoice)
    (ev : Event (effects A)) : Prop :=
  ev = ⟨ev.pid, .prisma (.paymentFindMany status), .ok ps⟩

/-- The request returned the invoice `id`, in a list or with a payment. -/
def ShowsInvoice (id : String) (ev : Event (effects A)) : Prop :=
  (∃ w is, ReturnsInvoices w is ev ∧ ∃ i ∈ is, i.id = id) ∨
    ∃ status ps, ReturnsPayments status ps ev ∧ ∃ p ∈ ps, p.invoice.id = id

/-- The request returned the payment `id`. -/
def ShowsPayment (id : String) (ev : Event (effects A)) : Prop :=
  ∃ status ps, ReturnsPayments status ps ev ∧ ∃ p ∈ ps, p.id = id

/-- The query asked for `PENDING` invoices, and returned the invoice `id`. -/
def ShowsPending (id : String) (ev : Event (effects A)) : Prop :=
  ∃ w is, ReturnsInvoices w is ev ∧ w.status = .pending ∧ ∃ i ∈ is, i.id = id

/-- The query asked for payments whose status is not final, and returned the payment `id`. -/
def ShowsOpen (id : String) (ev : Event (effects A)) : Prop :=
  ∃ status ps, ReturnsPayments status ps ev ∧ (∀ s ∈ status, s.isFinal = false) ∧
    ∃ p ∈ ps, p.id = id

/-- The request updated the invoice `id`. -/
def UpdatesInvoice (id : String) (ev : Event (effects A)) : Prop :=
  ∃ d, .invoiceUpdate id d ∈ written ev

/-- The request wrote a status to the payment `id`. -/
def SetsPaymentStatus (id : String) (ev : Event (effects A)) : Prop :=
  ∃ d, .paymentUpdate id d ∈ written ev ∧ d.status.isSome = true

/-- The request recorded a payment of the invoice `id`. -/
def RecordsPayment (id : String) (ev : Event (effects A)) : Prop :=
  ∃ d, .paymentCreate d ∈ written ev ∧ d.invoiceId = id

/-! ## What writes keep -/

section Keeps

variable {B : Backend A ω ι η} {pid : ℕ} {w w' : World ω} {R : Db → Prop} {now : Time} {x : Write}
  {id : String}

theorem transaction_keeps {ws : List Write} {db db' : Db}
    (hws : ∀ x ∈ ws, ∀ db db', R db → x.apply now db = .ok db' → R db') (hR : R db)
    (h : db.transaction now ws = .ok db') : R db' := by
  induction ws generalizing db with
  | nil => rw [transaction_nil h]; exact hR
  | cons x ws ih =>
    obtain ⟨db₁, hx, hrest⟩ := transaction_cons h
    exact ih (fun y hy => hws y (List.mem_cons_of_mem x hy)) (hws x List.mem_cons_self _ _ hR hx) hrest

/-- What each write of a request keeps, the request keeps, if it is about invoices and payments. -/
theorem respond_keeps {op : Op A} {i : Input ι} {r : (effects A).Ret op}
    (haside : ∀ db db' : Db, db'.invoices = db.invoices → db'.payments = db.payments → R db → R db')
    (hwrites : ∀ x ∈ written (⟨pid, op, r⟩ : Event (effects A)), ∀ db db', R db →
      x.apply w.clock db = .ok db' → R db')
    (hR : R w.db) (h : respond B pid w op i = some (r, w')) : R w'.db := by
  have hsame : w'.db.invoices = w.db.invoices → w'.db.payments = w.db.payments → R w'.db :=
    fun hi hp => haside _ _ hi hp hR
  cases op with
  | prisma call =>
    cases call with
    | transaction ws =>
      rcases respond_transaction h with ⟨db', hdb', rfl, rfl⟩ | ⟨-, rfl⟩
      · exact transaction_keeps hwrites hR hdb'
      · exact hR
    | invoiceCreate d =>
      rcases respond_invoiceCreate h with ⟨db', hdb', rfl, rfl⟩ | ⟨-, rfl⟩
      · exact transaction_keeps hwrites hR hdb'
      · exact hR
    | merchantWalletAddressUpsert row =>
      rcases respond_prisma h with ⟨-, rfl⟩ | ⟨-, rfl⟩
      · exact hsame (congrArg Db.invoices (upsertWallet_only w.db row) :)
          (congrArg Db.payments (upsertWallet_only w.db row) :)
      · exact hR
    | blockchainScanCursorUpsert network =>
      rcases respond_prisma h with ⟨-, rfl⟩ | ⟨-, rfl⟩
      · exact hsame (congrArg Db.invoices (upsertCursor_only w.db network) :)
          (congrArg Db.payments (upsertCursor_only w.db network) :)
      · exact hR
    | _ => rcases respond_prisma h with ⟨-, rfl⟩ | ⟨-, rfl⟩ <;> exact hR
  | now => rw [(respond_now h).2]; exact hR
  | generateId stem => rw [respond_generateId h]; exact hR
  | generateFakeAddress => rw [respond_generateFakeAddress h]; exact hR
  | cuid => rw [respond_cuid h]; exact hR
  | mark m => rw [respond_mark h]; exact hR
  | other op =>
    obtain ⟨k, o, -, rfl⟩ := respond_other h
    exact hR

/-- The invoice `id` is stored, and `PENDING`. -/
def Db.Pending (db : Db) (id : String) : Prop := ∃ i ∈ db.invoices, i.id = id ∧ i.status = .pending

/-- The payment `id` is stored, and its status is not final. -/
def Db.Open (db : Db) (id : String) : Prop :=
  ∃ p ∈ db.payments, p.id = id ∧ p.status.isFinal = false

/-- No payment of the invoice `id` is stored. -/
def Db.Unrecorded (db : Db) (id : String) : Prop := ∀ p ∈ db.payments, p.invoiceId ≠ id

theorem Db.Pending.apply {db db' : Db} (h : db.Pending id) (hx : ∀ d, x ≠ .invoiceUpdate id d)
    (happly : x.apply now db = .ok db') : db'.Pending id := by
  obtain ⟨i, hi, hid, hs⟩ := h
  by_cases hspares : x.SparesInvoices
  · exact ⟨i, hspares.apply happly ▸ hi, hid, hs⟩
  cases x with
  | invoiceCreate d =>
    obtain ⟨-, t, ht, rfl⟩ := invoiceCreate_ok happly
    exact ⟨i, ((Table.insert?_eq_some ht).2 i).mpr (.inr hi), hid, hs⟩
  | invoiceUpdate id' d =>
    obtain ⟨-, rfl⟩ := invoiceUpdate_ok happly
    have hne : i.id ≠ id' := fun heq => hx d (by rw [← hid, heq])
    have hkept := Table.mem_modify_of_mem (f := Invoice.update d) (k := id') hi fun _ => rfl
    rw [if_neg hne] at hkept
    exact ⟨i, hkept, hid, hs⟩
  | _ => exact absurd trivial hspares

theorem Db.Open.apply {db db' : Db} (h : db.Open id)
    (hx : ∀ d, x = .paymentUpdate id d → d.status = none) (happly : x.apply now db = .ok db') :
    db'.Open id := by
  obtain ⟨p, hp, hid, hs⟩ := h
  by_cases hspares : x.SparesPayments
  · exact ⟨p, hspares.apply happly ▸ hp, hid, hs⟩
  cases x with
  | paymentCreate d =>
    obtain ⟨-, -, t, ht, rfl⟩ := paymentCreate_ok happly
    exact ⟨p, ((Table.insert?_eq_some ht).2 p).mpr (.inr hp), hid, hs⟩
  | paymentUpdate id' d =>
    obtain ⟨-, rfl⟩ := paymentUpdate_ok happly
    refine ⟨_, Table.mem_modify_of_mem (f := Payment.update now d) (k := id') hp fun _ => rfl, ?_⟩
    split_ifs with heq
    · have hnone := hx d (by rw [← hid, heq])
      exact ⟨hid, by simpa [Payment.update, hnone] using hs⟩
    · exact ⟨hid, hs⟩
  | _ => exact absurd trivial hspares

theorem Db.Unrecorded.apply {db db' : Db} (h : db.Unrecorded id)
    (hx : ∀ d, x = .paymentCreate d → d.invoiceId ≠ id) (happly : x.apply now db = .ok db') :
    db'.Unrecorded id := by
  by_cases hspares : x.SparesPayments
  · exact fun p hp => h p (hspares.apply happly ▸ hp)
  cases x with
  | paymentCreate d =>
    obtain ⟨-, -, t, ht, rfl⟩ := paymentCreate_ok happly
    intro p hp
    rcases ((Table.insert?_eq_some ht).2 p).mp hp with rfl | hp
    · exact hx d rfl
    · exact h p hp
  | paymentUpdate id' d =>
    obtain ⟨-, rfl⟩ := paymentUpdate_ok happly
    intro p hp
    obtain ⟨p, hstored, rfl⟩ := List.mem_map.mp (Table.mem_def.mp hp)
    split_ifs
    · exact h p hstored
    · exact h p hstored
  | _ => exact absurd trivial hspares

variable {ev : Event (effects A)} {i : Input ι}

theorem Db.Pending.respond (h : w.db.Pending id) (hnot : ¬ UpdatesInvoice id ev)
    (hr : respond B ev.pid w ev.op i = some (ev.ret, w')) : w'.db.Pending id := by
  refine respond_keeps (R := fun db => db.Pending id) (fun db db' hi _ h => ?_)
    (fun x hx db db' h => h.apply fun d hxd => hnot ⟨d, hxd ▸ hx⟩) h hr
  rw [Db.Pending, hi]
  exact h

theorem Db.Open.respond (h : w.db.Open id) (hnot : ¬ SetsPaymentStatus id ev)
    (hr : respond B ev.pid w ev.op i = some (ev.ret, w')) : w'.db.Open id := by
  refine respond_keeps (R := fun db => db.Open id) (fun db db' _ hp h => ?_)
    (fun x hx db db' h => h.apply fun d hxd => ?_) h hr
  · rw [Db.Open, hp]
    exact h
  · by_contra hsome
    exact hnot ⟨d, hxd ▸ hx, Option.isSome_iff_ne_none.mpr hsome⟩

/-! ## What a filter says -/

theorem ReturnsInvoices.respond {filter : InvoiceWhere} {is : List Invoice}
    (h : ReturnsInvoices filter is ev) (hr : respond B ev.pid w ev.op i = some (ev.ret, w')) :
    is = w.db.invoices.filter filter.holds ∧ w' = w := by
  obtain ⟨pid, op, ret⟩ := ev
  cases h
  rcases respond_prisma hr with ⟨hret, rfl⟩ | ⟨hret, -⟩
  · cases hret
    exact ⟨rfl, rfl⟩
  · cases hret

theorem ReturnsPayments.respond {status : List PaymentStatus} {ps : List PaymentWithInvoice}
    (h : ReturnsPayments status ps ev) (hr : respond B ev.pid w ev.op i = some (ev.ret, w')) :
    ps = w.db.paymentsWithInvoice status ∧ w' = w := by
  obtain ⟨pid, op, ret⟩ := ev
  cases h
  rcases respond_prisma hr with ⟨hret, rfl⟩ | ⟨hret, -⟩
  · cases hret
    exact ⟨rfl, rfl⟩
  · cases hret

theorem ShowsPending.respond (h : ShowsPending id ev)
    (hr : respond B ev.pid w ev.op i = some (ev.ret, w')) : w.db.Pending id ∧ w' = w := by
  obtain ⟨filter, is, hreturns, hfilter, i, hi, hid⟩ := h
  obtain ⟨rfl, rfl⟩ := hreturns.respond hr
  obtain ⟨hi, hholds⟩ := Table.mem_filter.mp hi
  exact ⟨⟨i, hi, hid, (InvoiceWhere.holds_iff.mp hholds).1.trans hfilter⟩, rfl⟩

theorem ShowsOpen.respond (h : ShowsOpen id ev)
    (hr : respond B ev.pid w ev.op i = some (ev.ret, w')) : w.db.Open id ∧ w' = w := by
  obtain ⟨status, ps, hreturns, hfilter, p, hp, hid⟩ := h
  obtain ⟨rfl, rfl⟩ := hreturns.respond hr
  obtain ⟨hp, hs, -⟩ := mem_paymentsWithInvoice.mp hp
  exact ⟨⟨p.toPayment, hp, hid, hfilter _ hs⟩, rfl⟩

/-- The ids that a reply lists are distinct. -/
structure ListsOnce (ev : Event (effects A)) : Prop where
  invoices : ∀ w is, ReturnsInvoices w is ev → (is.map Invoice.id).Nodup
  payments : ∀ status ps, ReturnsPayments status ps ev → (ps.map fun p => p.id).Nodup

theorem respond_listsOnce (hr : respond B ev.pid w ev.op i = some (ev.ret, w')) :
    ListsOnce ev where
  invoices filter is h := by
    rw [(h.respond hr).1]
    exact w.db.invoices.nodup_filter filter.holds
  payments status ps h := by
    rw [(h.respond hr).1]
    exact w.db.nodup_paymentsWithInvoice status

end Keeps

/-! ## Runs -/

section Runs

variable {B : Backend A ω ι η} {W : Workload (effects A) ε κ} [Inhabited κ] {start : World ω → Prop}
  {allowed : Condition (effects A) (World ω)} {s : System (effects A) ε κ (World ω)} {pid : ℕ}
  {id : String}

theorem environment_pending {w w' : World ω} {act : Act η} (h : w.db.Pending id)
    (henv : environment B w act = some w') : w'.db.Pending id := by
  obtain ⟨i, hi, hrest⟩ := h
  exact ⟨i, ((Ledger.environment_rows henv).1.invoices i).2 hi, hrest⟩

theorem environment_open {w w' : World ω} {act : Act η} (h : w.db.Open id)
    (henv : environment B w act = some w') : w'.db.Open id := by
  obtain ⟨p, hp, hrest⟩ := h
  exact ⟨p, ((Ledger.environment_rows henv).1.payments p).2 hp, hrest⟩

theorem reachable_listsOnce (hs : Reachable (machine B) W start allowed s) :
    ∀ ev ∈ s.config.trace, ListsOnce ev :=
  hs.invariant (I := fun c => ∀ ev ∈ c.trace, ListsOnce ev) W.obeys_any
    (fun _ _ _ hev => absurd hev List.not_mem_nil) (fun _ _ _ hI _ => hI)
    fun _ _ _ hI hans => List.forall_mem_cons.mpr
      ⟨hans.reply.elim fun _ hr => respond_listsOnce hr, hI⟩

/-- See the module text. -/
theorem pending_since (hs : Reachable (machine B) W start allowed s)
    (h : Since (fun e => e.pid = pid ∧ ShowsPending id e) (fun _ => UpdatesInvoice id)
      s.config.trace) : s.config.state.db.Pending id :=
  Reachable.since (I := fun _ => True) (K := fun c => c.state.db.Pending id) W.obeys_any (fun _ _ => trivial)
    (fun _ _ _ _ hK henv => environment_pending hK henv)
    (fun _ _ _ _ hans hR => hans.reply.elim fun _ hr => by
      obtain ⟨hK, rfl⟩ := hR.2.respond hr
      exact hK)
    (fun _ _ _ _ hans hnot hK => hans.reply.elim fun _ hr => hK.respond hnot hr) hs h

/-- See the module text. -/
theorem open_since (hs : Reachable (machine B) W start allowed s)
    (h : Since (fun e => e.pid = pid ∧ ShowsOpen id e) (fun _ => SetsPaymentStatus id)
      s.config.trace) : s.config.state.db.Open id :=
  Reachable.since (I := fun _ => True) (K := fun c => c.state.db.Open id) W.obeys_any (fun _ _ => trivial)
    (fun _ _ _ _ hK henv => environment_open hK henv)
    (fun _ _ _ _ hans hR => hans.reply.elim fun _ hr => by
      obtain ⟨hK, rfl⟩ := hR.2.respond hr
      exact hK)
    (fun _ _ _ _ hans hnot hK => hans.reply.elim fun _ hr => hK.respond hnot hr) hs h

end Runs

end CryptoPay
