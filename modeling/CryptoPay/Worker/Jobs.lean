import CryptoPay.Api.Invoices
import CryptoPay.Blockchain.Oracle
import CryptoPay.Worker.BlockchainScan
import CryptoPay.Worker.PaymentConfirm

/-!
# The jobs of an evm deployment

With `BLOCKCHAIN_MODE=evm`, `apps/worker/src/main.ts` starts a worker for each
of the two queues, and the API creates invoices and sets deposit addresses. A
queue worker runs one pass at a time (`oneOfEach`); replicas of the process, or
a stalled job that is run again, overlap.
-/

namespace CryptoPay.Worker

open Async

variable {A : Signature}

/-- What may run. -/
inductive Job where
  /-- A pass of the blockchain-scan worker. -/
  | scan
  /-- A pass of the payment-confirm worker. -/
  | confirm
  | createInvoice (organizationId apiKeyId : String) (input : Api.CreateInvoiceInput)
      (ctx : Api.RequestContext)
  | setWalletAddress (organizationId userId : String) (input : Api.SetWalletAddressInput)
      (ctx : Api.RequestContext)

instance : Inhabited Job := ⟨.scan⟩

/-- What the deployment is configured with. -/
structure Deployment (A : Signature) where
  adapter : BlockchainAdapter A
  network : String
  requiredConfirmations : ℤ

/-- The program of a job. -/
def launch (D : Deployment A) : Job → Action A Unit
  | .scan => runBlockchainScan D.adapter D.network
  | .confirm => runPaymentConfirm D.adapter D.requiredConfirmations
  | .createInvoice organizationId apiKeyId input ctx => do
    let _ ← Api.create .evm organizationId apiKeyId input ctx
    return ()
  | .setWalletAddress organizationId userId input ctx => do
    let _ ← Api.set D.adapter organizationId userId input ctx
    return ()

/-- Which jobs overlap with others of their kind. -/
structure Replicas where
  scans : Bool
  confirms : Bool

/-- One scan worker and one confirm worker (main.ts, lines 86–105). -/
def oneOfEach : Replicas := ⟨false, false⟩

/-- Whether two jobs may be in flight at the same time. -/
def Replicas.compatible (n : Replicas) : Job → Job → Bool
  | .scan, .scan => n.scans
  | .confirm, .confirm => n.confirms
  | _, _ => true

/-- The jobs as a workload. -/
def workload (n : Replicas) (D : Deployment A) : Workload (effects A) Error Job where
  launch := launch D
  compatible := n.compatible
  symm j j' := by cases j <;> cases j' <;> rfl

/-- A deployment whose adapter may answer anything. -/
structure Setup where
  validateAddress : String → Bool
  network : String
  requiredConfirmations : ℤ

def Setup.deployment (D : Setup) : Deployment adapterCalls where
  adapter := oracle D.validateAddress
  network := D.network
  requiredConfirmations := D.requiredConfirmations

/-! ## Runs -/

/-- The evm deployment at some point of a run. -/
abbrev EvmSystem := System (effects adapterCalls) Error Job (World Unit)

abbrev EvmMove := Move Job (Input Answer) (Act Empty)

/-- No invoice, payment or event is stored yet. -/
def Unused {ω : Type} (w : World ω) : Prop :=
  (∀ i, i ∉ w.db.invoices) ∧ (∀ p, p ∉ w.db.payments) ∧ ∀ e, e ∉ w.db.webhookEvents

/-- What a move leads to, whatever the adapter answers. -/
def evmStep (n : Replicas) (D : Setup) (s : EvmSystem) (m : EvmMove) : Option EvmSystem :=
  s.step (machine anyAnswer) (workload n D.deployment) m

/-- What a sequence of moves leads to. -/
def evmRun (n : Replicas) (D : Setup) (s : EvmSystem) (ms : List EvmMove) : Option EvmSystem :=
  s.run (machine anyAnswer) (workload n D.deployment) ms

/-- The systems that some run leads to, all of whose steps meet `allowed`. -/
def EvmReachable (n : Replicas) (D : Setup)
    (allowed : Condition (effects adapterCalls) (World Unit)) : EvmSystem → Prop :=
  Reachable (machine anyAnswer) (workload n D.deployment) Unused allowed

def EvmLeads (n : Replicas) (D : Setup) : EvmSystem → EvmSystem → Prop :=
  Leads (machine anyAnswer) (workload n D.deployment) anything

/-- A run that was computed, as far as `f` shows it. -/
theorem evmRun_view {n : Replicas} {D : Setup} {w : World Unit} (hw : Unused w)
    (ms : List EvmMove) {β : Type} {f : EvmSystem → β} {x : β}
    (h : (evmRun n D (.initial w) ms).map f = some x) :
    ∃ s, EvmReachable n D anything s ∧ f s = x := Reachable.view hw ms h

/-- A run and one more move that were computed, as far as `f` shows them. -/
theorem evmStep_view {n : Replicas} {D : Setup} {w : World Unit} (hw : Unused w)
    (ms : List EvmMove) {m : EvmMove} {β : Type} {f : EvmSystem → EvmSystem → β} {x : β}
    (h : ((evmRun n D (.initial w) ms).bind fun s => (evmStep n D s m).map (f s)) = some x) :
    ∃ s s', EvmReachable n D anything s ∧ evmStep n D s m = some s' ∧ f s s' = x :=
  Reachable.view_step hw ms h

/-- The invoices that are stored, with their statuses. -/
def invoiceStatuses (db : Db) : List (String × InvoiceStatus) :=
  db.invoices.rows.map fun i => (i.id, i.status)

theorem mem_invoiceStatuses {db : Db} {id : String} {status : InvoiceStatus}
    (h : (id, status) ∈ invoiceStatuses db) : ∃ i ∈ db.invoices, i.id = id ∧ i.status = status := by
  obtain ⟨i, hi, heq⟩ := List.mem_map.mp h
  exact ⟨i, hi, congrArg Prod.fst heq, congrArg Prod.snd heq⟩

/-- The stored payments with their statuses. -/
def paymentStatuses (db : Db) : List (String × PaymentStatus) :=
  db.payments.rows.map fun p => (p.id, p.status)

theorem mem_paymentStatuses {db : Db} {id : String} {status : PaymentStatus}
    (h : (id, status) ∈ paymentStatuses db) :
    ∃ p ∈ db.payments, p.id = id ∧ p.status = status := by
  obtain ⟨p, hp, heq⟩ := List.mem_map.mp h
  exact ⟨p, hp, congrArg Prod.fst heq, congrArg Prod.snd heq⟩

abbrev EvmSystem.invoices (s : EvmSystem) : List (String × InvoiceStatus) :=
  invoiceStatuses s.config.state.db

/-- The errors that passes in flight have thrown. -/
def EvmSystem.thrown (s : EvmSystem) : List Error :=
  s.procs.filterMap fun p => match p.prog with
    | .throw e => some e
    | _ => none

theorem EvmSystem.mem_thrown {s : EvmSystem} {e : Error} (h : e ∈ s.thrown) :
    ∃ p ∈ s.procs, p.prog = .throw e := by
  obtain ⟨p, hp, he⟩ := List.mem_filterMap.mp h
  refine ⟨p, hp, ?_⟩
  split at he
  · rename_i e' hprog
    rw [hprog, Option.some.inj he]
  · cases he

/-! ## A small deployment -/

/-- One confirmation is enough. -/
def sample : Setup where
  validateAddress _ := true
  network := "base"
  requiredConfirmations := 1

/-- An organization has set its deposit address, and nothing else has happened. -/
def sampleWorldOn {ω : Type} (other : ω) : World ω where
  db := { Db.empty with
    merchantWalletAddresses := ⟨[⟨"w", "org", "base", "USDC", "0xA", 0⟩], List.nodup_singleton _⟩ }
  clock := 0
  other := other

abbrev sampleWorld : World Unit := sampleWorldOn ()

theorem sampleWorldOn_unused {ω : Type} (other : ω) : Unused (sampleWorldOn other) :=
  ⟨Data.Table.not_mem_empty, Data.Table.not_mem_empty, Data.Table.not_mem_empty⟩

theorem sampleWorld_unused : Unused sampleWorld := sampleWorldOn_unused ()

/-- The requests of a process, answered in a row. -/
def performs {ι η : Type} (pid : ℕ) (inputs : List (Input ι)) : List (Move Job (Input ι) (Act η)) :=
  inputs.map (.perform pid)

/-- Process `pid` creates the invoice `inv_⟨suffix⟩` over 49 USDC. -/
def sampleInvoiceAs {ι η : Type} (pid : ℕ) (suffix : String) : List (Move Job (Input ι) (Act η)) :=
  .start (.createInvoice "org" "key" {
      externalId := none
      description := none
      amount := ⟨"49.00", ⟨4900000000⟩⟩
      currency := "USD"
      token := "USDC"
      network := "base"
      successUrl := none
      cancelUrl := none
      metadata := none } ⟨"127.0.0.1", none⟩) ::
    performs pid [.ok, .id suffix, .ok, .ok, .ok] ++ [.stop pid]

def sampleInvoice {ι η : Type} (pid : ℕ) : List (Move Job (Input ι) (Act η)) :=
  sampleInvoiceAs pid "1"

/-- A transfer of 49 USDC to the organization's address. -/
def sampleTransfer : TokenTransfer := ⟨"0x1", "base", "USDC", "0xB", "0xA", ⟨4900000000⟩, 7⟩

/-- The scan pass `pid` up to the commit that detects the payment `pay_⟨suffix⟩`. -/
def sampleScanAs (pid : ℕ) (suffix : String) : List EvmMove :=
  .start .scan :: performs pid [.ok, .other (.latestBlock (.ok 7)),
    .other (.tokenTransfers (.ok [sampleTransfer])), .ok, .ok, .ok, .id suffix, .ok]

def sampleScan (pid : ℕ) : List EvmMove := sampleScanAs pid "1"

/-- A confirm pass that finds no overdue invoice and one payment. -/
def sampleConfirm (pid : ℕ) (confirmations : ℤ) : List EvmMove :=
  .start .confirm ::
    performs pid [.ok, .ok, .ok, .other (.confirmations (.ok confirmations))]

end CryptoPay.Worker
