import CryptoPay.Data.Paging
import CryptoPay.Payments.Commits
import CryptoPay.Payments.Requests
import CryptoPay.Tenancy.Privileges

/-!
# The pages of the invoices

`InvoicesService.list` reads the invoices of an organization newest first, by
offset. While a dashboard turns the pages, other requests and both pipelines go on:
invoices are added and updated, none is removed, and `createdAt` never changes. So
an invoice only moves down, and turning the pages in order meets it.

Results:
* `respond_invoices`: what creations and updates keep, every request keeps.
* `pages_complete`: a walk over the pages to the first that is not full shows every
  invoice that was stored when it began.
-/

namespace CryptoPay.Tenancy

open Async Data

variable {A : Signature} {ω ι η κ : Type} {B : Backend A ω ι η}
  {W : Workload (calls A) Thrown κ}

/-! ## The invoices -/

theorem exec_invoices (now : Time) (db : Database) (call : ObjectCall) :
    (call.exec now db).2.payments.invoices = db.payments.invoices := by
  cases call with
  | webhookEndpointCreate d => simp only [ObjectCall.exec]; split <;> rfl
  | webhookEndpointRevoke id revokedAt => simp only [ObjectCall.exec]; split <;> rfl
  | apiKeyCreate d => simp only [ObjectCall.exec]; split <;> rfl
  | apiKeyUpdate id d => simp only [ObjectCall.exec]; split <;> rfl
  | _ => rfl

section Step

variable {pid : ℕ} {s s' : State ω} {P : Table Invoice.id → Prop}

/-- What creations and updates of invoices keep, every request keeps. -/
theorem respond_invoices (hP : KeptByWrites P) {op : Op A} {i : Input ι} {r : (calls A).Ret op}
    (h : respond B pid s op i = some (r, s')) (hi : P s.db.payments.invoices) :
    P s'.db.payments.invoices := by
  cases op with
  | payments op =>
    cases i with
    | payments i =>
      obtain ⟨⟨r', w⟩, hw, heq⟩ := Option.map_eq_some_iff.mp h
      cases heq
      exact hP.respond (w := s.payments) hi hw
    | _ => cases h
  | webhooks op =>
    cases i with
    | webhooks i =>
      obtain ⟨⟨r', w⟩, -, heq⟩ := Option.map_eq_some_iff.mp h
      cases heq
      exact hi
    | _ => cases h
  | db call =>
    have hexec : P (call.exec s.clock s.db).2.payments.invoices := by
      rw [exec_invoices]
      exact hi
    cases i with
    | ok => cases h; exact hexec
    | connectionError => cases h; exact hi
    | lostReply => cases h; exact hexec
    | _ => cases h
  | randomBytes size =>
    cases i <;> cases h
    exact hi

/-- Between requests the invoices change their order at most. -/
theorem environment_invoices {act : Act η} (h : environment B s act = some s') :
    s'.db.payments.invoices.rows.Perm s.db.payments.invoices.rows := by
  cases act with
  | payments act =>
    obtain ⟨w, hw, rfl⟩ := Option.map_eq_some_iff.mp h
    cases act with
    | reorderInvoices rows =>
      simp only [CryptoPay.environment] at hw
      split_ifs at hw with hperm
      cases hw
      exact hperm
    | other e =>
      obtain ⟨o, -, rfl⟩ := Option.map_eq_some_iff.mp hw
      exact .refl _
    | _ =>
      simp only [CryptoPay.environment] at hw
      split_ifs at hw
      cases hw
      exact .refl _
  | memberships rows => cases h; exact .refl _
  | _ =>
    simp only [environment] at h
    split_ifs at h
    cases h
    exact .refl _

end Step

/-! ## Where an invoice stands -/

/-- The invoices of an organization. -/
def invoicesOf (org : String) (t : Table Invoice.id) : List Invoice :=
  t.filter fun i => i.organizationId = org

/-- How many invoices of its organization are newer. -/
def newer (x : Invoice) (t : Table Invoice.id) : ℕ :=
  above Invoice.createdAt x.createdAt (invoicesOf x.organizationId t)

/-- The invoice is stored. -/
def StillStored (x : Invoice) (t : Table Invoice.id) : Prop := ∃ i ∈ t, i.terms = x.terms

/-- Another invoice of the organization has the same `createdAt`. -/
def Tied (x : Invoice) (t : Table Invoice.id) : Prop :=
  ∃ i ∈ t, i.organizationId = x.organizationId ∧ i.createdAt = x.createdAt ∧ i.id ≠ x.id

/-- Creations and updates keep what is known of some row, unless it is the status. -/
theorem exists_kept {q : Invoice → Prop} (hq : ∀ i (d : InvoiceUpdateInput), q i → q (i.update d)) :
    KeptByWrites fun t => ∃ i ∈ t, q i where
  create t t' d now hi _ ht := by
    obtain ⟨i, hmem, hrow⟩ := hi
    exact ⟨i, ((Table.insert?_eq_some ht).2 i).mpr (.inr hmem), hrow⟩
  update t id d hi := by
    obtain ⟨i, hmem, hrow⟩ := hi
    refine ⟨_, Table.mem_modify_of_mem (f := Invoice.update d) (k := id) hmem fun _ => rfl, ?_⟩
    split_ifs
    · exact hq i d hrow
    · exact hrow

theorem stillStored_kept (x : Invoice) : KeptByWrites (StillStored x) :=
  exists_kept fun _ _ h => h

theorem tied_kept (x : Invoice) : KeptByWrites (Tied x) := exists_kept fun _ _ h => h

/-- No creation and no update moves an invoice up. -/
theorem newer_kept (x : Invoice) (n : ℕ) : KeptByWrites fun t => n ≤ newer x t where
  create t t' d now hn _ ht := by
    refine le_trans hn ?_
    unfold newer invoicesOf above
    rw [Table.filter_insert? ht]
    split_ifs
    · rw [List.countP_cons]
      omega
    · exact le_refl _
  update t id d hn := by
    refine le_trans hn ?_
    unfold newer invoicesOf above
    rw [Table.filter_modify (f := Invoice.update d) (fun _ => rfl) fun _ => rfl, List.countP_map]
    refine le_of_eq (List.countP_congr fun i _ => ?_)
    show _ ↔ decide (x.createdAt < (if i.id = id then i.update d else i).createdAt) = true
    split_ifs <;> exact Iff.rfl

section Reorder

variable {x : Invoice} {t t' : Table Invoice.id} (h : t'.rows.Perm t.rows)
include h

theorem StillStored.reorder (hx : StillStored x t) : StillStored x t' := by
  obtain ⟨i, hi, hterms⟩ := hx
  exact ⟨i, h.mem_iff.mpr hi, hterms⟩

theorem Tied.reorder (hx : Tied x t) : Tied x t' := by
  obtain ⟨i, hi, hrest⟩ := hx
  exact ⟨i, h.mem_iff.mpr hi, hrest⟩

theorem newer_reorder (x : Invoice) : newer x t' = newer x t := (h.filter _).countP_eq _

end Reorder

/-! ## Turning the pages -/

/-- `list` reads the page with this number (invoices.service.ts, lines 102–107). -/
abbrev pageRead (pid : ℕ) (org : String) (number limit : ℕ) (rows : List Invoice) :
    Event (calls A) :=
  ⟨pid, .db (.invoiceFindPage org ((number - 1) * limit) limit), .ok rows⟩

/-- The pages with the numbers 1, 2, …, read in this order; the last one stands first. -/
def pagesRead (org : String) (limit : ℕ) : List (ℕ × List Invoice) → List (Event (calls A))
  | [] => []
  | (pid, rows) :: walk => pageRead pid org (walk.length + 1) limit rows :: pagesRead org limit walk

/-- One of the pages shows the invoice. -/
def Shows (walk : List (ℕ × List Invoice)) (id : String) : Prop :=
  ∃ p ∈ walk, ∃ i ∈ p.2, i.id = id

/-- A page that is read shows the invoice, or is full and does not reach it. -/
theorem page_shows {x : Invoice} {t : Table Invoice.id} (hx : StillStored x t) (htied : ¬ Tied x t)
    {skip : ℕ} (hskip : skip ≤ newer x t) (take : ℕ) :
    (∃ i ∈ page (newestFirst Invoice.createdAt (invoicesOf x.organizationId t)) skip take,
      i.id = x.id) ∨
    skip + take ≤ newer x t ∧
      (page (newestFirst Invoice.createdAt (invoicesOf x.organizationId t)) skip take).length =
        take := by
  obtain ⟨i, hi, hterms⟩ := hx
  have hid : i.id = x.id := (congrArg Invoice.id hterms :)
  have horg : i.organizationId = x.organizationId := (congrArg Invoice.organizationId hterms :)
  have hcreated : i.createdAt = x.createdAt := (congrArg Invoice.createdAt hterms :)
  have hperm := List.perm_insertionSort (fun a b : Invoice => b.createdAt ≤ a.createdAt)
    (invoicesOf x.organizationId t)
  have hcount : newer x t = above Invoice.createdAt i.createdAt
      (newestFirst Invoice.createdAt (invoicesOf x.organizationId t)) := by
    rw [hcreated]
    exact (hperm.countP_eq _).symm
  have hsorted : (newestFirst Invoice.createdAt (invoicesOf x.organizationId t)).Pairwise
      fun a b => b.createdAt ≤ a.createdAt := List.pairwise_insertionSort _ _
  have hmem : i ∈ newestFirst Invoice.createdAt (invoicesOf x.organizationId t) :=
    hperm.mem_iff.mpr (Table.mem_filter.mpr ⟨hi, decide_eq_true horg⟩)
  have hunique : ∀ y ∈ newestFirst Invoice.createdAt (invoicesOf x.organizationId t),
      y.createdAt = i.createdAt → y = i := by
    intro y hy heq
    obtain ⟨hy, hyorg⟩ := Table.mem_filter.mp (hperm.mem_iff.mp hy)
    by_contra hne
    refine htied ⟨y, hy, of_decide_eq_true hyorg, heq.trans hcreated, fun hyid => hne ?_⟩
    exact Table.eq_of_key hy hi (hyid.trans hid.symm)
  rw [hcount] at hskip ⊢
  exact (page_or_past hsorted hmem hunique hskip take).imp_left fun h => ⟨i, h, hid⟩

/-- What is known of a walk that has not shown the invoice so far. -/
structure Unshown (x : Invoice) (limit : ℕ) (old : List (Event (calls A)))
    (c : Async.Config (calls A) (State ω)) : Prop where
  stored : StillStored x c.state.db.payments.invoices
  walks : Tied x c.state.db.payments.invoices ∨ ∃ new, c.trace = new ++ old ∧
    ∀ walk, (pagesRead x.organizationId limit walk).Sublist new → ¬ Shows walk x.id →
      walk.length * limit ≤ newer x c.state.db.payments.invoices ∧
        ∀ p ∈ walk, List.length p.2 = limit

/-- The rows that a page request resolves to. -/
theorem page_rows {pid : ℕ} {s s' : State ω} {i : Input ι} {org : String} {skip take : ℕ}
    {rows : List Invoice}
    (h : respond B pid s (.db (.invoiceFindPage org skip take)) i = some (.ok rows, s')) :
    rows = page (newestFirst Invoice.createdAt (invoicesOf org s.db.payments.invoices)) skip take ∧
      s' = s := by
  cases i <;> cases h
  exact ⟨rfl, rfl⟩

/-- A request keeps it. -/
theorem Unshown.step {x : Invoice} {limit : ℕ} {old : List (Event (calls A))}
    {c : Async.Config (calls A) (State ω)} (hc : Unshown x limit old c) {ev : Event (calls A)}
    {s' : State ω} {i : Input ι} (hr : respond B ev.pid c.state ev.op i = some (ev.ret, s')) :
    Unshown x limit old ⟨s', ev :: c.trace⟩ := by
  refine ⟨respond_invoices (stillStored_kept x) hr hc.stored, ?_⟩
  rcases hc.walks with htied | ⟨new, htrace, hwalks⟩
  · exact .inl (respond_invoices (tied_kept x) hr htied)
  by_cases htied : Tied x c.state.db.payments.invoices
  · exact .inl (respond_invoices (tied_kept x) hr htied)
  refine .inr ⟨ev :: new, congrArg (ev :: ·) htrace, fun walk hsub hno => ?_⟩
  have hold : ∀ walk, (pagesRead x.organizationId limit walk).Sublist new → ¬ Shows walk x.id →
      walk.length * limit ≤ newer x s'.db.payments.invoices ∧
        ∀ p ∈ walk, List.length p.2 = limit := fun walk hsub hno =>
    (hwalks walk hsub hno).imp_left fun hle => respond_invoices (newer_kept x _) hr hle
  cases walk with
  | nil => exact ⟨by simp, nofun⟩
  | cons p walk =>
    obtain ⟨pid, rows⟩ := p
    rcases List.sublist_cons_iff.mp hsub with hsub | ⟨rest, heq, hsub⟩
    · exact hold _ hsub hno
    -- the last page of the walk is read now
    obtain ⟨rfl, rfl⟩ := List.cons.inj heq
    have hrest : ¬ Shows walk x.id := fun ⟨p, hp, hshown⟩ =>
      hno ⟨p, List.mem_cons_of_mem _ hp, hshown⟩
    obtain ⟨hle, hfull⟩ := hwalks walk hsub hrest
    obtain ⟨hrows, rfl⟩ := page_rows hr
    rw [Nat.add_sub_cancel] at hrows
    rcases page_shows hc.stored htied hle limit with ⟨j, hj, hjid⟩ | ⟨hpast, hlength⟩
    · exact absurd ⟨_, List.mem_cons_self, j, hrows ▸ hj, hjid⟩ hno
    · refine ⟨?_, List.forall_mem_cons.mpr ⟨hrows ▸ hlength, hfull⟩⟩
      rw [List.length_cons, Nat.succ_mul]
      exact hpast

/-- Whatever goes on in between: pages that are read in order, from the first to one that is not
    full, show every invoice of the organization that was stored before, unless another one has
    the same `createdAt`. -/
theorem pages_complete {s s' : System (calls A) Thrown κ (State ω)}
    (hl : Leads (machine B) W anything s s') {x : Invoice}
    (hx : x ∈ s.config.state.db.payments.invoices)
    (htied : ¬ Tied x s'.config.state.db.payments.invoices) {new : List (Event (calls A))}
    (hnew : s'.config.trace = new ++ s.config.trace) {pid limit : ℕ} {last : List Invoice}
    {walk : List (ℕ × List Invoice)}
    (hwalk : (pagesRead x.organizationId limit ((pid, last) :: walk)).Sublist new)
    (hlast : last.length < limit) : Shows ((pid, last) :: walk) x.id := by
  have hunshown : Unshown x limit s.config.trace s'.config := by
    refine hl.invariant (I := Unshown x limit s.config.trace)
      ⟨⟨x, hx, rfl⟩, .inr ⟨[], rfl, fun walk hsub _ => ?_⟩⟩ (fun c act state hc hact => ?_)
      fun c ev state i hc hr => hc.step hr
    · cases walk with
      | nil => exact ⟨by simp, nofun⟩
      | cons p walk => cases List.sublist_nil.mp hsub
    · have hperm := environment_invoices hact
      refine ⟨hc.stored.reorder hperm, hc.walks.imp (fun h => h.reorder hperm) ?_⟩
      rintro ⟨new, htrace, hwalks⟩
      refine ⟨new, htrace, fun walk hsub hno => ?_⟩
      rw [newer_reorder hperm]
      exact hwalks walk hsub hno
  obtain ⟨new', htrace, hwalks⟩ := hunshown.walks.resolve_left htied
  obtain rfl : new = new' := List.append_cancel_right (hnew.symm.trans htrace)
  by_contra hno
  obtain ⟨-, hfull⟩ := hwalks _ hwalk hno
  have hlength : last.length = limit := hfull _ List.mem_cons_self
  omega

/-! ## Ann turns the pages -/

/-- The walk that can be made of the pages in a trace. -/
def walkIn (org : String) (limit : ℕ) : List (Event (calls A)) → List (ℕ × List Invoice)
  | [] => []
  | ⟨pid, .db (.invoiceFindPage org' skip take), .ok rows⟩ :: tr =>
    if org' = org ∧ skip = (walkIn org limit tr).length * limit ∧ take = limit then
      (pid, rows) :: walkIn org limit tr
    else walkIn org limit tr
  | _ :: tr => walkIn org limit tr

theorem pagesRead_walkIn (org : String) (limit : ℕ) (tr : List (Event (calls A))) :
    (pagesRead org limit (walkIn org limit tr)).Sublist tr := by
  fun_induction walkIn org limit tr with
  | case1 => exact List.Sublist.slnil
  | case2 pid org' skip take rows tr h ih =>
    obtain ⟨rfl, hskip, htake⟩ := h
    have hread : pageRead pid org' ((walkIn org' limit tr).length + 1) limit rows =
        (⟨pid, .db (.invoiceFindPage org' skip take), .ok rows⟩ : Event (calls A)) := by
      subst hskip htake
      rfl
    exact hread ▸ ih.cons_cons _
  | case3 pid org' skip take rows tr h ih => exact ih.cons _
  | case4 ev tr hev ih => exact ih.cons _

/-- An invoice of Ann's organization. -/
def annsInvoice (id : String) (createdAt : Time) : Invoice where
  id := id
  organizationId := "org_1"
  externalId := none
  status := .pending
  description := none
  amount := ⟨4900000000⟩
  currency := "USD"
  token := "USDC"
  network := "base"
  paymentAddress := "0x00000000000000000000000000000000000000aa"
  successUrl := none
  cancelUrl := none
  metadata := none
  expiresAt := createdAt + 1800000
  paidAt := none
  createdAt := createdAt

/-- Two invoices, a deposit address and a key that may create invoices. -/
def twoStored : State Unit :=
  { annOwns with
    db := { annOwns.db with
      payments := { annOwns.db.payments with
        invoices := ⟨[annsInvoice "inv_1" (-2), annsInvoice "inv_2" (-1)], by decide⟩
        merchantWalletAddresses := ⟨[⟨"w_1", "org_1", "base", "USDC",
          "0x00000000000000000000000000000000000000aa", -3⟩], List.nodup_singleton _⟩ }
      apiKeys := ⟨⟨[({ annsKey with scopes := ["invoices:write"] } : ApiKeyCreateInput).row (-3)],
        List.nodup_singleton _⟩, List.nodup_singleton _⟩ } }

/-- Ann asks for a page with one invoice. -/
def annsPage (pid number : ℕ) : List RouteMove :=
  .start (.route annsBrowser (.dashboardListInvoices number 1)) ::
    [.payments .ok, .ok, .ok, .ok].map (.perform pid)

/-- Ann turns the pages; after the first one a third invoice is created. -/
def pagesTurned : List RouteMove :=
  annsPage 0 1 ++
  .start (.route holdersServer (.createInvoice
      ⟨none, none, ⟨"49.00", ⟨4900000000⟩⟩, "USD", "USDC", "base", none, none, none⟩)) ::
    [.ok, .payments .ok, .payments .ok, .payments (.id "3"), .payments .ok, .payments .ok,
      .payments .ok].map (.perform 1) ++
  annsPage 2 2 ++ annsPage 3 3 ++ annsPage 4 4

/-- The system starts with these rows. -/
def TwoStored (s : State Unit) : Prop := s = twoStored

/-- What the pages show of the older invoice. -/
def pagesShown (s s' : RouteSystem) : Bool :=
  s.config.trace.isEmpty &&
  s.config.state.db.payments.invoices.rows.any (fun i => i = annsInvoice "inv_1" (-2)) &&
  s'.config.state.db.payments.invoices.rows.all (fun i => i.createdAt ≠ -2 || i.id = "inv_1") &&
  match walkIn "org_1" 1 s'.config.trace with
  | (_, []) :: walk => walk.length = 3
  | _ => false

/-- The older invoice is shown, though it was on the second page and is now on the third. -/
theorem pages_complete_sample : ∃ s s' : RouteSystem,
    Leads (machine anyAnswer) (routed sampleSessions routeConfig noPayments) anything s s' ∧
    ∃ walk, (pagesRead "org_1" 1 walk).Sublist s'.config.trace ∧ walk.length = 4 ∧
      Shows walk "inv_1" := by
  obtain ⟨s, s', -, hl, hshown⟩ := Reachable.view_leads (M := machine anyAnswer)
    (W := routed sampleSessions routeConfig noPayments) (rfl : TwoStored twoStored) [] pagesTurned
    (f := pagesShown) (x := true) (by decide)
  simp only [pagesShown, Bool.and_eq_true, List.any_eq_true, List.all_eq_true,
    decide_eq_true_eq, List.isEmpty_iff, Bool.or_eq_true] at hshown
  obtain ⟨⟨⟨htrace, x, hx, rfl⟩, hunique⟩, hwalk⟩ := hshown
  have hsub := pagesRead_walkIn "org_1" 1 s'.config.trace
  have hnew : s'.config.trace = s'.config.trace ++ s.config.trace := by
    rw [htrace, List.append_nil]
  have htied : ¬ Tied (annsInvoice "inv_1" (-2)) s'.config.state.db.payments.invoices := by
    rintro ⟨i, hi, -, hcreated, hid⟩
    rcases hunique i hi with hne | heq
    · exact hne hcreated
    · exact hid heq
  split at hwalk
  · rename_i pid walk heq
    rw [heq] at hsub
    refine ⟨s, s', hl, (pid, []) :: walk, hsub, congrArg (· + 1) (of_decide_eq_true hwalk), ?_⟩
    exact pages_complete hl hx htied hnew hsub Nat.zero_lt_one
  · cases hwalk

end CryptoPay.Tenancy
