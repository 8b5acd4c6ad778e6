import CryptoPay.Api.CalmTicks
import CryptoPay.Api.FakeRuns
import CryptoPay.Api.Schemas
import CryptoPay.Api.Sources

/-!
# One transfer and all the others

A tick matches the transfers of the scanned blocks one after the other, and moves its watermark
only when all of them went through. `decimalAmountSchema` accepts digits without bound, the
column of the received amount does not.

Results:
* `ticks_unstalled`: in every run in which all simulated amounts fit their column, a tick records
  the transfers that invoices await and advances the active payments.
* `oversize_stalls`: an accepted amount after which every tick throws at the same transfer, before
  one for another invoice.
-/

namespace CryptoPay.Api

open Async Fake

/-- Every amount that was simulated so far is one that `DECIMAL(20, 8)` stores. -/
def AmountsFit (h : Calls) : Prop :=
  ∀ (input : Fake.SimulatePaymentInput) (t : TokenTransfer), Got (.simulatePayment input) t h →
    input.amount.fitsColumn = true

/-- A tick that starts now, whichever process runs it, ends if nothing disturbs it, and has then
    done what it has to do. -/
structure Unstalled (C : Config) (w : World Memory) : Prop where
  runs : ∀ pid, ∃ evs x w',
    Runs (calm (steady C.blockTime)) pid (tick C.requiredConfirmations) w evs x w'
  progress : ∀ pid evs x w',
    Runs (calm (steady C.blockTime)) pid (tick C.requiredConfirmations) w evs x w' →
      x = .ok () ∧ Progress C w w'

variable {C : Config} {s : ApiSystem}

theorem steady_total (pid : ℕ) (t : Time) (o : Memory) (call : Call) :
    ∃ k y, (steady C.blockTime).respond pid t o call k = some y := by
  cases call with
  | simulatePayment input => exact ⟨.transfer "" "", _, rfl⟩
  | enterTick =>
    refine ⟨.ok, ?_⟩
    show ∃ y, Fake.respond C.blockTime pid t o .enterTick .ok = some y
    cases hflag : o.ticking <;> simp [Fake.respond, hflag]
  | _ => exact ⟨.ok, _, rfl⟩

/-- What a tick needs holds in every run whose simulated amounts fit. -/
theorem ApiReachable.ready (hs : ApiReachable C s) (hfits : AmountsFit s.config.trace) :
    Ready s.config.state := by
  have hsourced : Sourced s.config := ApiReachable.sourced hs
  refine ⟨fun n t ht => ?_, hsourced.payments, hsourced.amounts⟩
  have hgenuine := hsourced.chain n t ht
  obtain ⟨input, hgot, hamount⟩ := hgenuine.simulated
  exact ⟨hgenuine.network, hgenuine.txHash, by rw [hamount]; exact hfits input t hgot⟩

/-- In every run whose simulated amounts all fit, no transfer keeps a tick from the others: the
    one of the simulation itself, and every later one. -/
theorem ticks_unstalled (C : Config) {s : ApiSystem} (hs : ApiReachable C s)
    (hflag : s.config.state.other.ticking = none) (hfits : AmountsFit s.config.trace) :
    Unstalled C s.config.state where
  runs pid := Prog.exists_runs (fun w op => calm_total steady_total pid w op) _ _
  progress pid evs x w' h := by
    have hI := (ticks_sound C).inv hs
    exact calm_tick (hs.ready hfits) ⟨hI.coupled, hI.log⟩ hflag h

/-- The amounts that were simulated so far. -/
def simulatedAmounts (h : Calls) : List Decimal :=
  h.filterMap fun ev =>
    match ev.op with
    | .other (.simulatePayment input) => some input.amount
    | _ => none

theorem amountsFit_of_all {h : Calls} (hall : (simulatedAmounts h).all Decimal.fitsColumn = true) :
    AmountsFit h := by
  rintro input t ⟨pid, hev⟩
  exact List.all_eq_true.mp hall _ (List.mem_filterMap.mpr ⟨_, hev, rfl⟩)

/-- An invoice over 49 USDC, at the deposit address of the organization. -/
def invoiceOf49 : Job :=
  .createInvoice "org" "key" {
    externalId := none
    description := none
    amount := ⟨"49.00", ⟨4900000000⟩⟩
    currency := "USD"
    token := "USDC"
    network := "base"
    successUrl := none
    cancelUrl := none
    metadata := none } ⟨"127.0.0.1", none⟩

/-- An invoice whose payment is simulated on its checkout page. -/
def confirmingRun : List ApiMove :=
  .start invoiceOf49 :: performs 0 [.ok, .id "1", .ok, .ok, .ok] ++
  .start (.simulatePaymentForCheckout "inv_1" ⟨none⟩) ::
    performs 1 [.ok, .other (.transfer "a" "b"), .other .ok, .ok, .ok, .other .ok, .other .ok,
      .other .ok, .ok, .ok, .id "1", .ok, .ok, .other .ok, .ok, .other .ok, .ok, .other .ok, .ok]

set_option maxRecDepth 8000 in
theorem ticks_unstalled_confirming : ∃ s, ApiReachable sampleConfig s ∧
    ApiSystem.rows s = ([.confirming], [.confirming], []) ∧
      Unstalled sampleConfig s.config.state := by
  obtain ⟨s, hs, hview⟩ : ∃ s, ApiReachable sampleConfig s ∧
      decide (ApiSystem.rows s = ([.confirming], [.confirming], []) ∧
        s.config.state.other.ticking = none ∧
        (simulatedAmounts s.config.trace).all Decimal.fitsColumn = true) = true :=
    Reachable.view sampleWorld_unused confirmingRun (by decide)
  obtain ⟨hrows, hflag, hall⟩ := of_decide_eq_true hview
  exact ⟨s, hs, hrows, ticks_unstalled sampleConfig hs hflag (amountsFit_of_all hall)⟩

/-! ## A run that stalls -/

/-- A trillion. -/
def oversize : SimulatePaymentInput := ⟨some ⟨"1000000000000", ⟨10 ^ 20⟩⟩⟩

/-- The replies to a tick that cannot record the first transfer. -/
def stalledTick : List (Input Chance) :=
  [.other .ok, .ok, .ok, .other .ok, .other .ok, .other .ok, .ok, .ok, .id "1", .ok, .ok, .other .ok]

/-- Two invoices; on the checkout page of the first a trillion is simulated, on that of the second
    the amount it asks for. -/
def stalledRun : List ApiMove :=
  .start invoiceOf49 :: performs 0 [.ok, .id "1", .ok, .ok, .ok] ++
  .start invoiceOf49 :: performs 1 [.ok, .id "2", .ok, .ok, .ok] ++
  .start (.simulatePaymentForCheckout "inv_1" oversize) ::
    performs 2 ([.ok, .other (.transfer "a" "b")] ++ stalledTick) ++
  .start (.simulatePaymentForCheckout "inv_2" ⟨none⟩) ::
    performs 3 ([.ok, .other (.transfer "c" "d")] ++ stalledTick)

/-- The next tick throws, with this invoice still waiting for this transfer. -/
structure Stalled (C : Config) (w : World Memory) (tr : TokenTransfer) (i : Invoice) : Prop where
  scanned : tr ∈ getTokenTransfers w.other.adapter (w.other.lastScannedBlock + 1)
    (currentBlock C.blockTime w.clock w.other.adapter)
  fits : tr.amount.fitsColumn = true
  stored : i ∈ w.db.invoices
  awaits : Awaits i tr
  due : w.clock ≤ i.expiresAt
  throws : ∃ evs w', Runs (calm (steady C.blockTime)) 4 (tick C.requiredConfirmations) w evs
    (.error (.prisma .valueOutOfRange)) w' ∧ ¬ Handled tr i w'.db

/-- What is left of the tick after the run: the error, and the payments that are stored. -/
def nextTick (w : World Memory) : Option (Option PrismaErrorCode × List Payment) :=
  ((tick sampleConfig.requiredConfirmations).execute (calm (steady sampleConfig.blockTime)) 4 w
    stalledTick).map fun run => (match run.2.1 with
      | .error (.prisma code) => some code
      | _ => none, run.2.2.db.payments.rows)

/-- The transfers of the next tick's range, and the invoices. -/
def waiting (w : World Memory) : List (TokenTransfer × Invoice) :=
  (getTokenTransfers w.other.adapter (w.other.lastScannedBlock + 1)
    (currentBlock sampleConfig.blockTime w.clock w.other.adapter)).product w.db.invoices.rows

theorem nextTick_throws {w : World Memory} (tr : TokenTransfer) (i : Invoice)
    (h : nextTick w = some (some .valueOutOfRange, [])) : ∃ evs w',
    Runs (calm (steady sampleConfig.blockTime)) 4 (tick sampleConfig.requiredConfirmations) w evs
      (.error (.prisma .valueOutOfRange)) w' ∧ ¬ Handled tr i w'.db := by
  obtain ⟨evs, x, w', hrun, hview⟩ := Runs.view _ _ _ _ _ h
  obtain ⟨hcode, hnone⟩ := Prod.mk.inj hview
  obtain rfl : x = .error (.prisma .valueOutOfRange) := by
    dsimp only at hcode
    split at hcode
    · exact congrArg (fun c => Except.error (Error.prisma c)) (Option.some.inj hcode)
    · cases hcode
  refine ⟨evs, w', hrun, ?_⟩
  rintro (⟨p, hp, -⟩ | ⟨p, hp, -⟩)
  · have hmem : p ∈ w'.db.payments.rows := hp
    rw [show w'.db.payments.rows = [] from hnone] at hmem
    cases hmem
  · have hmem : p ∈ w'.db.payments.rows := hp
    rw [show w'.db.payments.rows = [] from hnone] at hmem
    cases hmem

set_option maxRecDepth 8000 in
/-- A string that `simulatePaymentSchema` accepts, and a state after it in which a tick does not
    reach the transfer for another invoice. -/
theorem oversize_stalls : simulatePaymentSchema ⟨some "1000000000000"⟩ = some oversize ∧
    ∃ s, ApiReachable sampleConfig s ∧ s.config.state.other.ticking = none ∧
      ¬ Unstalled sampleConfig s.config.state ∧
      ∃ tr i, Stalled sampleConfig s.config.state tr i := by
  refine ⟨by decide, ?_⟩
  obtain ⟨s, hs, hview⟩ : ∃ s, ApiReachable sampleConfig s ∧
      (s.config.state.other.ticking, nextTick s.config.state, (waiting s.config.state).any fun x =>
        x.1.amount.fitsColumn && (x.2.status = .pending && x.2.network = x.1.network &&
          x.2.token = x.1.token && x.2.paymentAddress = x.1.toAddress) &&
          s.config.state.clock ≤ x.2.expiresAt) =
        (none, some (some .valueOutOfRange, []), true) :=
    Reachable.view sampleWorld_unused stalledRun (by decide)
  obtain ⟨hflag, hrest⟩ := Prod.mk.inj hview
  obtain ⟨htick, hany⟩ := Prod.mk.inj hrest
  obtain ⟨⟨tr, i⟩, hmem, hok⟩ := List.any_eq_true.mp hany
  simp only [Bool.and_eq_true, decide_eq_true_eq] at hok
  obtain ⟨⟨hfits, ⟨⟨hpending, hnetwork⟩, htoken⟩, haddress⟩, hdue⟩ := hok
  obtain ⟨hscanned, hstored⟩ := List.pair_mem_product.mp hmem
  obtain ⟨evs, w', hrun, hhandled⟩ := nextTick_throws tr i htick
  refine ⟨s, hs, hflag, fun hunstalled => ?_, tr, i, hscanned, hfits, hstored,
    ⟨hpending, hnetwork, htoken, haddress⟩, hdue, evs, w', hrun, hhandled⟩
  obtain ⟨hx, -⟩ := hunstalled.progress _ _ _ _ hrun
  cases hx

end CryptoPay.Api
