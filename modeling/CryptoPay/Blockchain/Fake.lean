import CryptoPay.Blockchain.Adapter

/-!
# The fake blockchain

`packages/blockchain/src/fake-blockchain-adapter.ts`, and the memory of the API
process that runs on it: with `BLOCKCHAIN_MODE=fake` the adapter's two maps and
the two fields of `PaymentsService` are lost when the process restarts.

The requests of `fakeCalls` are the reads and writes of this memory. None of
them suspends in the source; each is one step here, so the model interleaves at
least where the source can.
-/

namespace CryptoPay.Fake

open Async

/-- The state of a `FakeBlockchainAdapter` (fake-blockchain-adapter.ts, lines
    35–39). -/
structure Chain where
  genesisTimestamp : Time
  transfersByTxHash : String → Option TokenTransfer
  transfersByBlock : ℤ → List TokenTransfer

/-- `BLOCKCHAIN_BLOCK_TIME_MS` is a positive integer (env.schema.ts, line 76). -/
structure BlockTime where
  ms : ℤ
  positive : 0 < ms

/-- `currentBlock` (lines 107–109). -/
def currentBlock (blockTime : BlockTime) (now : Time) (chain : Chain) : ℤ :=
  max 0 ((now - chain.genesisTimestamp) / blockTime.ms)

/-- `validateAddress` (lines 47–49): `^0x[0-9a-fA-F]{40}$`. -/
def validateAddress (address : String) : Bool :=
  match address.toList with
  | '0' :: 'x' :: digits => digits.length = 40 && digits.all fun d =>
      ('0' ≤ d && d ≤ '9') || ('a' ≤ d && d ≤ 'f') || ('A' ≤ d && d ≤ 'F')
  | _ => false

/-- `getTransaction` (lines 59–67). -/
def getTransaction (chain : Chain) (txHash : String) : Option BlockchainTransaction :=
  (chain.transfersByTxHash txHash).map fun transfer =>
    ⟨transfer.txHash, transfer.blockNumber, .success⟩

/-- `getTokenTransfers` (lines 69–75). -/
def getTokenTransfers (chain : Chain) (fromBlock toBlock : ℤ) : List TokenTransfer :=
  (List.range (toBlock - fromBlock + 1).toNat).flatMap fun k : ℕ =>
    chain.transfersByBlock (fromBlock + k)

/-- `getConfirmations` (lines 77–83). -/
def getConfirmations (blockTime : BlockTime) (now : Time) (chain : Chain) (txHash : String) :
    Except Error ℤ :=
  match chain.transfersByTxHash txHash with
  | none => .error (.notFound ("No fake transaction found for tx hash " ++ txHash))
  | some transfer => .ok (max 0 (currentBlock blockTime now chain - transfer.blockNumber))

/-- `SimulatePaymentInput` (lines 11–17), without `fromAddress`, which no caller
    gives. -/
structure SimulatePaymentInput where
  network : String
  token : String
  toAddress : String
  amount : Decimal
  deriving DecidableEq, Repr

/-- The transfer of `simulatePayment` (lines 91–99); `hash` and `digits` are
    the random parts of the transaction hash and of the sender's address. -/
def newTransfer (blockTime : BlockTime) (now : Time) (chain : Chain) (input : SimulatePaymentInput)
    (hash digits : String) : TokenTransfer where
  txHash := "0xfake" ++ hash
  network := input.network
  token := input.token
  fromAddress := "0x" ++ digits
  toAddress := input.toAddress
  amount := input.amount
  blockNumber := currentBlock blockTime now chain

/-- The adapter after `simulatePayment` (lines 100–103). -/
def Chain.record (chain : Chain) (transfer : TokenTransfer) : Chain :=
  { chain with
    transfersByTxHash := Function.update chain.transfersByTxHash transfer.txHash (some transfer)
    transfersByBlock := Function.update chain.transfersByBlock transfer.blockNumber
      (chain.transfersByBlock transfer.blockNumber ++ [transfer]) }

/-! ## The memory of the API process -/

/-- The adapter, and the fields of `PaymentsService` (payments.service.ts, lines
    57–61). `ticking` names the process that set the flag. -/
structure Memory where
  adapter : Chain
  lastScannedBlock : ℤ
  ticking : Option ℕ

/-- The memory of a process that has just started. -/
def Memory.fresh (now : Time) : Memory where
  adapter := ⟨now, fun _ => none, fun _ => []⟩
  lastScannedBlock := -1
  ticking := none

/-- What the services ask of this memory. -/
inductive Call where
  | getLatestBlock
  | getTransaction (txHash : String)
  | getTokenTransfers (fromBlock toBlock : ℤ)
  | getConfirmations (txHash : String)
  | simulatePayment (input : SimulatePaymentInput)
  /-- `if (this.ticking) return; this.ticking = true`: whether it was clear. -/
  | enterTick
  /-- `this.ticking = false`. -/
  | leaveTick
  | lastScannedBlock
  /-- `this.lastScannedBlock = Math.max(this.lastScannedBlock, latestBlock - 1)`. -/
  | advanceLastScannedBlock (latestBlock : ℤ)
  deriving DecidableEq, Repr

def fakeCalls : Signature where
  Op := Call
  Ret
    | .getLatestBlock => ℤ
    | .getTransaction _ => Option BlockchainTransaction
    | .getTokenTransfers .. => List TokenTransfer
    | .getConfirmations _ => Except Error ℤ
    | .simulatePayment _ => TokenTransfer
    | .enterTick => Bool
    | .leaveTick => Unit
    | .lastScannedBlock => ℤ
    | .advanceLastScannedBlock _ => Unit

/-- What a call leaves open. -/
inductive Chance where
  | ok
  | transfer (hash digits : String)

/-- The reply to a call of process `pid` at time `now`, and the memory after it. -/
def respond (blockTime : BlockTime) (pid : ℕ) (now : Time) (m : Memory) :
    (call : Call) → Chance → Option (fakeCalls.Ret call × Memory)
  | .getLatestBlock, .ok => some (currentBlock blockTime now m.adapter, m)
  | .getTransaction txHash, .ok => some (getTransaction m.adapter txHash, m)
  | .getTokenTransfers fromBlock toBlock, .ok =>
    some (getTokenTransfers m.adapter fromBlock toBlock, m)
  | .getConfirmations txHash, .ok => some (getConfirmations blockTime now m.adapter txHash, m)
  | .simulatePayment input, .transfer hash digits =>
    let transfer := newTransfer blockTime now m.adapter input hash digits
    some (transfer, { m with adapter := m.adapter.record transfer })
  | .enterTick, .ok =>
    match m.ticking with
    | none => some (true, { m with ticking := some pid })
    | some _ => some (false, m)
  | .leaveTick, .ok => some ((), { m with ticking := none })
  | .lastScannedBlock, .ok => some (m.lastScannedBlock, m)
  | .advanceLastScannedBlock latestBlock, .ok =>
    some ((), { m with lastScannedBlock := max m.lastScannedBlock (latestBlock - 1) })
  | _, _ => none

/-- The process restarts at time `now`: every program in flight ends, and its
    memory is lost. -/
structure Restart where
  now : Time

/-- The memory as a backend; the clock may be set to anything. -/
def backend (blockTime : BlockTime) : Backend fakeCalls Memory Chance Restart where
  respond := respond blockTime
  env _ act := some (.fresh act.now)
  restarts _ := true
  tick _ _ := true

/-- `FakeBlockchainAdapter`. -/
def adapter : BlockchainAdapter fakeCalls where
  validateAddress := validateAddress
  getLatestBlock := .perform (S := effects fakeCalls) (.other .getLatestBlock)
  getTransaction txHash := .perform (S := effects fakeCalls) (.other (.getTransaction txHash))
  getTokenTransfers fromBlock toBlock :=
    .perform (S := effects fakeCalls) (.other (.getTokenTransfers fromBlock toBlock))
  getConfirmations txHash :=
    .request (S := effects fakeCalls) (.other (.getConfirmations txHash)) id

/-! ## What a call does to the memory -/

/-- What a call of process `pid` may do to the flag: nothing, set it when it is
    clear, or clear it when `pid` set it. -/
inductive Holds (pid : ℕ) (m m' : Memory) : Prop where
  | same (h : m'.ticking = m.ticking)
  | enter (h : m.ticking = none) (h' : m'.ticking = some pid)
  | leave (h : m.ticking = some pid) (h' : m'.ticking = none)

/-- Only the process that set the flag clears it. -/
theorem Holds.other {pid q : ℕ} {m m' : Memory} (h : Holds q m m') (hq : q ≠ pid)
    (hm : m.ticking = some pid) : m'.ticking = some pid := by
  cases h with
  | same h => rw [h, hm]
  | enter h => rw [hm] at h; cases h
  | leave h =>
    rw [hm] at h
    exact absurd (Option.some.inj h).symm hq

/-- The calls that a tick makes in between leave the flag alone. -/
theorem respond_ticking {blockTime : BlockTime} {pid : ℕ} {now : Time} {m m' : Memory}
    {call : Call} {k : Chance} {r : fakeCalls.Ret call}
    (h : respond blockTime pid now m call k = some (r, m')) (henter : call ≠ .enterTick)
    (hleave : call ≠ .leaveTick) : m'.ticking = m.ticking := by
  cases call with
  | enterTick => exact absurd rfl henter
  | leaveTick => exact absurd rfl hleave
  | _ =>
    cases k <;> cases h
    rfl

end CryptoPay.Fake
