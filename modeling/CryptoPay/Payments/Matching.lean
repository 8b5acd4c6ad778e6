import CryptoPay.Database.Schema
import Mathlib.Data.List.Sort

/-!
# Matching a transfer to an invoice

`packages/payments/src/payment-matching.ts`: which pending invoice an incoming
transfer is credited to. `Array.prototype.sort` is stable, and so is the
insertion sort that stands for it. `lower` is `String.prototype.toLowerCase`.

Results:
* `matchesInvoice_iff`: network and token agree and the addresses agree up to
  letter case.
* `selectMatchingInvoice_mem`: a selected invoice is a candidate that matches.
* `selectMatchingInvoice_eq_none`, `selectMatchingInvoice_choice`: none is selected
  when none matches; else one of the exact amount, or the oldest if there is none.
* `selectMatchingInvoice_spec`: all of this as one specification, and that the
  order of the candidates does not matter when it leaves no choice.
-/

namespace CryptoPay

/-- `InvoicePaymentTarget` (payment-matching.ts, lines 3–7). -/
structure InvoicePaymentTarget where
  network : String
  token : String
  paymentAddress : String
  deriving DecidableEq, Repr

/-- `DetectedTransfer` (payment-matching.ts, lines 9–13). -/
structure DetectedTransfer where
  network : String
  token : String
  toAddress : String
  deriving DecidableEq, Repr

/-- `matchesInvoice` (payment-matching.ts, lines 24–30). -/
def matchesInvoice (lower : String → String) (target : InvoicePaymentTarget)
    (transfer : DetectedTransfer) : Bool :=
  target.network = transfer.network &&
    target.token = transfer.token &&
    lower target.paymentAddress = lower transfer.toAddress

theorem matchesInvoice_iff {lower : String → String} {target : InvoicePaymentTarget}
    {transfer : DetectedTransfer} : matchesInvoice lower target transfer = true ↔ target.network = transfer.network ∧
      target.token = transfer.token ∧
      lower target.paymentAddress = lower transfer.toAddress := by
  simp [matchesInvoice, and_assoc]

/-- `PendingInvoiceCandidate` (payment-matching.ts, lines 32–36). -/
structure PendingInvoiceCandidate extends InvoicePaymentTarget where
  id : String
  amount : Decimal
  createdAt : Time
  deriving DecidableEq, Repr

/-- `T extends PendingInvoiceCandidate`. -/
class ExtendsCandidate (T : Type) where
  candidate : T → PendingInvoiceCandidate

export ExtendsCandidate (candidate)

instance : ExtendsCandidate PendingInvoiceCandidate := ⟨id⟩

instance : ExtendsCandidate Invoice where
  candidate i :=
    { network := i.network, token := i.token, paymentAddress := i.paymentAddress, id := i.id,
      amount := i.amount, createdAt := i.createdAt }

variable {T : Type} [ExtendsCandidate T]

/-- `selectMatchingInvoice` (payment-matching.ts, lines 52–64). -/
def selectMatchingInvoice (lower : String → String) (candidates : List T)
    (transfer : DetectedTransfer) (amount : Decimal) : Option T :=
  let matching := candidates.filter fun c =>
    matchesInvoice lower (candidate c).toInvoicePaymentTarget transfer
  match matching.find? fun c => (candidate c).amount.equals amount with
  | some exact => some exact
  | none =>
    let oldestFirst := matching.insertionSort fun a b =>
      (candidate a).createdAt ≤ (candidate b).createdAt
    oldestFirst.head?

variable {lower : String → String}

/-- The selection depends on the candidates that match, and on nothing else. -/
theorem selectMatchingInvoice_congr {lower' : String → String} {xs ys : List T}
    {transfer : DetectedTransfer} (amount : Decimal)
    (h : xs.filter (fun c => matchesInvoice lower (candidate c).toInvoicePaymentTarget transfer) =
      ys.filter fun c => matchesInvoice lower' (candidate c).toInvoicePaymentTarget transfer) :
    selectMatchingInvoice lower xs transfer amount =
      selectMatchingInvoice lower' ys transfer amount := by
  simp only [selectMatchingInvoice, h]

/-- If all candidates have the address of the transfer, as the callers' filter asks, it does not
    matter how letters are lowered. -/
theorem selectMatchingInvoice_lower (lower lower' : String → String) {candidates : List T}
    {transfer : DetectedTransfer} (amount : Decimal)
    (h : ∀ c ∈ candidates, (candidate c).paymentAddress = transfer.toAddress) :
    selectMatchingInvoice lower candidates transfer amount =
      selectMatchingInvoice lower' candidates transfer amount := by
  refine selectMatchingInvoice_congr amount (List.filter_congr fun c hc => ?_)
  rw [Bool.eq_iff_iff, matchesInvoice_iff, matchesInvoice_iff]
  exact and_congr_right fun _ => and_congr_right fun _ => by simp only [h c hc]

/-- The selected invoice is one of the candidates, and it matches. -/
theorem selectMatchingInvoice_mem {candidates : List T} {transfer : DetectedTransfer}
    {amount : Decimal} {c : T} (h : selectMatchingInvoice lower candidates transfer amount = some c) :
    c ∈ candidates ∧ matchesInvoice lower (candidate c).toInvoicePaymentTarget transfer = true := by
  simp only [selectMatchingInvoice] at h
  split at h
  · rename_i exact hfind
    cases h
    exact List.mem_filter.mp (List.mem_of_find?_eq_some hfind)
  · exact List.mem_filter.mp ((List.mem_insertionSort _).mp (List.mem_of_head? h))

/-- Nothing is selected when no candidate matches. -/
theorem selectMatchingInvoice_eq_none {candidates : List T} {transfer : DetectedTransfer}
    {amount : Decimal} (h : selectMatchingInvoice lower candidates transfer amount = none) :
    ∀ c ∈ candidates, matchesInvoice lower (candidate c).toInvoicePaymentTarget transfer = false := by
  intro c hc
  by_contra hmatch
  have hmem : c ∈ candidates.filter fun c =>
      matchesInvoice lower (candidate c).toInvoicePaymentTarget transfer :=
    List.mem_filter.mpr ⟨hc, by simpa using hmatch⟩
  simp only [selectMatchingInvoice] at h
  split at h
  · cases h
  · rw [List.head?_eq_none_iff] at h
    have hsorted := (List.mem_insertionSort fun a b : T =>
      (candidate a).createdAt ≤ (candidate b).createdAt).mpr hmem
    rw [h] at hsorted
    exact List.not_mem_nil hsorted

/-- The selected invoice asks for the amount, or no matching one does and it is the
    oldest of these. -/
theorem selectMatchingInvoice_choice {candidates : List T} {transfer : DetectedTransfer}
    {amount : Decimal} {c : T} (h : selectMatchingInvoice lower candidates transfer amount = some c) :
    (candidate c).amount = amount ∨ ∀ d ∈ candidates,
      matchesInvoice lower (candidate d).toInvoicePaymentTarget transfer = true →
        (candidate d).amount ≠ amount ∧ (candidate c).createdAt ≤ (candidate d).createdAt := by
  simp only [selectMatchingInvoice] at h
  split at h
  · rename_i exact hfind
    cases h
    exact .inl (Decimal.equals_iff.mp (List.find?_some hfind :))
  · rename_i hfind
    refine .inr fun d hd hmatch => ?_
    have hmem : d ∈ candidates.filter fun c =>
        matchesInvoice lower (candidate c).toInvoicePaymentTarget transfer :=
      List.mem_filter.mpr ⟨hd, hmatch⟩
    refine ⟨fun heq => ?_, ?_⟩
    · have hnone := List.find?_eq_none.mp hfind d hmem
      exact hnone (Decimal.equals_iff.mpr heq)
    · have htrans : IsTrans T fun a b => (candidate a).createdAt ≤ (candidate b).createdAt :=
        ⟨fun a b c hab hbc => le_trans hab hbc⟩
      have htotal : Std.Total fun a b : T => (candidate a).createdAt ≤ (candidate b).createdAt :=
        ⟨fun a b => le_total _ _⟩
      have hsorted := List.pairwise_insertionSort (fun a b : T =>
        (candidate a).createdAt ≤ (candidate b).createdAt) (candidates.filter fun c =>
          matchesInvoice lower (candidate c).toInvoicePaymentTarget transfer)
      obtain ⟨rest, hrest⟩ := List.head?_eq_some_iff.mp h
      have hd' := (List.mem_insertionSort fun a b : T =>
        (candidate a).createdAt ≤ (candidate b).createdAt).mpr hmem
      rw [hrest] at hsorted hd'
      rcases List.mem_cons.mp hd' with rfl | hd'
      · exact le_refl _
      · exact (List.pairwise_cons.mp hsorted).1 d hd'

/-! ## The specification -/

/-- The candidate agrees with the transfer in network, token and address, up to letter case. -/
def Agrees (lower : String → String) (transfer : DetectedTransfer) (c : T) : Prop :=
  (candidate c).network = transfer.network ∧ (candidate c).token = transfer.token ∧
    lower (candidate c).paymentAddress = lower transfer.toAddress

/-- Which candidate is selected. -/
structure Selection (lower : String → String) (candidates : List T) (transfer : DetectedTransfer)
    (amount : Decimal) : Prop where
  none_iff : selectMatchingInvoice lower candidates transfer amount = none ↔
    ∀ c ∈ candidates, ¬ Agrees lower transfer c
  agrees : ∀ c, selectMatchingInvoice lower candidates transfer amount = some c →
    c ∈ candidates ∧ Agrees lower transfer c
  exact : ∀ c, selectMatchingInvoice lower candidates transfer amount = some c →
    (∃ d ∈ candidates, Agrees lower transfer d ∧ (candidate d).amount = amount) →
      (candidate c).amount = amount
  oldest : ∀ c, selectMatchingInvoice lower candidates transfer amount = some c →
    (∀ d ∈ candidates, Agrees lower transfer d → (candidate d).amount ≠ amount) →
      ∀ d ∈ candidates, Agrees lower transfer d → (candidate c).createdAt ≤ (candidate d).createdAt
  /-- With at most one exact candidate and distinct times, the order does not matter. -/
  unordered : (∀ c ∈ candidates, ∀ d ∈ candidates, Agrees lower transfer c → Agrees lower transfer d →
      (candidate c).amount = amount → (candidate d).amount = amount → c = d) →
    (candidates.map fun c => (candidate c).createdAt).Nodup →
    ∀ candidates', candidates'.Perm candidates →
      selectMatchingInvoice lower candidates' transfer amount =
        selectMatchingInvoice lower candidates transfer amount

section Selection

variable {lower : String → String} {candidates : List T} {transfer : DetectedTransfer}
  {amount : Decimal}

theorem agrees_iff {c : T} : Agrees lower transfer c ↔
    matchesInvoice lower (candidate c).toInvoicePaymentTarget transfer = true :=
  matchesInvoice_iff.symm

theorem selectMatchingInvoice_none_iff :
    selectMatchingInvoice lower candidates transfer amount = none ↔
      ∀ c ∈ candidates, ¬ Agrees lower transfer c := by
  constructor
  · intro h c hc hagrees
    have hno := selectMatchingInvoice_eq_none h c hc
    rw [agrees_iff.mp hagrees] at hno
    cases hno
  · intro h
    by_contra hsome
    obtain ⟨c, hc⟩ := Option.ne_none_iff_exists'.mp hsome
    obtain ⟨hmem, hmatch⟩ := selectMatchingInvoice_mem hc
    exact h c hmem (agrees_iff.mpr hmatch)

theorem selectMatchingInvoice_exact {c : T}
    (h : selectMatchingInvoice lower candidates transfer amount = some c)
    (hexact : ∃ d ∈ candidates, Agrees lower transfer d ∧ (candidate d).amount = amount) :
    (candidate c).amount = amount := by
  obtain ⟨d, hd, hagrees, hamount⟩ := hexact
  rcases selectMatchingInvoice_choice h with hc | hall
  · exact hc
  · exact absurd hamount (hall d hd (agrees_iff.mp hagrees)).1

theorem selectMatchingInvoice_oldest {c : T}
    (h : selectMatchingInvoice lower candidates transfer amount = some c)
    (hnone : ∀ d ∈ candidates, Agrees lower transfer d → (candidate d).amount ≠ amount) :
    ∀ d ∈ candidates, Agrees lower transfer d → (candidate c).createdAt ≤ (candidate d).createdAt := by
  obtain ⟨hmem, hmatch⟩ := selectMatchingInvoice_mem h
  rcases selectMatchingInvoice_choice h with hc | hall
  · exact absurd hc (hnone c hmem (agrees_iff.mpr hmatch))
  · exact fun d hd hagrees => (hall d hd (agrees_iff.mp hagrees)).2

/-- Two selections from the same candidates are of one candidate, if the conditions leave no
    choice. -/
theorem selectMatchingInvoice_unique {candidates' : List T} (hperm : candidates'.Perm candidates)
    (hone : ∀ c ∈ candidates, ∀ d ∈ candidates, Agrees lower transfer c → Agrees lower transfer d →
      (candidate c).amount = amount → (candidate d).amount = amount → c = d)
    (hdistinct : (candidates.map fun c => (candidate c).createdAt).Nodup) {c d : T}
    (hc : selectMatchingInvoice lower candidates' transfer amount = some c)
    (hd : selectMatchingInvoice lower candidates transfer amount = some d) : c = d := by
  obtain ⟨hcmem', hcmatch⟩ := selectMatchingInvoice_mem hc
  obtain ⟨hdmem, hdmatch⟩ := selectMatchingInvoice_mem hd
  have hcmem : c ∈ candidates := hperm.mem_iff.mp hcmem'
  have hca : Agrees lower transfer c := agrees_iff.mpr hcmatch
  have hda : Agrees lower transfer d := agrees_iff.mpr hdmatch
  by_cases hexact : ∃ e ∈ candidates, Agrees lower transfer e ∧ (candidate e).amount = amount
  · have hexact' : ∃ e ∈ candidates', Agrees lower transfer e ∧ (candidate e).amount = amount := by
      obtain ⟨e, he, hrest⟩ := hexact
      exact ⟨e, hperm.mem_iff.mpr he, hrest⟩
    exact hone c hcmem d hdmem hca hda (selectMatchingInvoice_exact hc hexact')
      (selectMatchingInvoice_exact hd hexact)
  · have hnone : ∀ e ∈ candidates, Agrees lower transfer e → (candidate e).amount ≠ amount :=
      fun e he hagrees hamount => hexact ⟨e, he, hagrees, hamount⟩
    have hcd := selectMatchingInvoice_oldest hc
      (fun e he => hnone e (hperm.mem_iff.mp he)) d (hperm.mem_iff.mpr hdmem) hda
    have hdc := selectMatchingInvoice_oldest hd hnone c hcmem hca
    exact List.inj_on_of_nodup_map hdistinct hcmem hdmem (le_antisymm hcd hdc)

theorem selectMatchingInvoice_spec (lower : String → String) (candidates : List T)
    (transfer : DetectedTransfer) (amount : Decimal) : Selection lower candidates transfer amount where
  none_iff := selectMatchingInvoice_none_iff
  agrees c h := (selectMatchingInvoice_mem h).imp_right agrees_iff.mpr
  exact _ := selectMatchingInvoice_exact
  oldest _ := selectMatchingInvoice_oldest
  unordered hone hdistinct candidates' hperm := by
    cases hc : selectMatchingInvoice lower candidates' transfer amount with
    | none =>
      have hnone := selectMatchingInvoice_none_iff.mp hc
      exact (selectMatchingInvoice_none_iff.mpr fun d hd =>
        hnone d (hperm.mem_iff.mpr hd)).symm
    | some c =>
      cases hd : selectMatchingInvoice lower candidates transfer amount with
      | none =>
        obtain ⟨hmem, hmatch⟩ := selectMatchingInvoice_mem hc
        have hnot := selectMatchingInvoice_none_iff.mp hd c (hperm.mem_iff.mp hmem)
        exact absurd (agrees_iff.mpr hmatch) hnot
      | some d => rw [selectMatchingInvoice_unique hperm hone hdistinct hc hd]

end Selection

end CryptoPay
