import CryptoPay.Blockchain.Adapter

/-!
# The EVM adapter

`packages/blockchain/src/evm-blockchain-adapter.ts`, over the requests that it
makes of the viem public client, and `token-registry.ts`. What viem computes
locally (`isAddress`, the EIP-55 spelling of an address) is a parameter.

Results:
* `Evm.tokenTransfer_eq_some`: a reported transfer is the log that viem decoded.
* `Viem.Lawful.eq_of_checksummed`: the EIP-55 spelling of an address is unique.
-/

namespace CryptoPay

open Async

/-! ## Tokens -/

/-- `TokenConfig` (token-registry.ts, lines 10–13). Amounts of a registered
    token have no more fractional digits than `Decimal`. -/
structure TokenConfig where
  contractAddress : String
  decimals : ℕ
  exact : decimals ≤ 8

/-- `TOKEN_REGISTRY.base.USDC`. -/
def usdc : TokenConfig where
  contractAddress := "0x036CbD53842c5426634e7929541eC2318f3dCF7e"
  decimals := 6
  exact := by decide

/-- `TOKEN_REGISTRY` (token-registry.ts, lines 17–24). -/
def TOKEN_REGISTRY : List (String × List (String × TokenConfig)) := [("base", [("USDC", usdc)])]

/-- `getTokensForNetwork` (token-registry.ts, lines 35–37). -/
def getTokensForNetwork (network : String) : List (String × TokenConfig) :=
  (TOKEN_REGISTRY.lookup network).getD []

/-- `new Prisma.Decimal(formatUnits(value, config.decimals))`. -/
def TokenConfig.amount (config : TokenConfig) (value : ℕ) : Decimal :=
  ⟨value * 10 ^ (8 - config.decimals)⟩

example : usdc.amount 49000000 = ⟨4900000000⟩ := by decide

/-! ## The public client -/

/-- What a client call rejects with: `TransactionReceiptNotFoundError`, or
    anything else. -/
inductive RpcError where
  | receiptNotFound
  | other
  deriving DecidableEq, Repr

/-- `receipt.status`. -/
inductive ReceiptStatus where
  | success | reverted
  deriving DecidableEq, Repr

/-- The fields of a receipt that the adapter reads. -/
structure TransactionReceipt where
  transactionHash : String
  blockNumber : ℤ
  status : ReceiptStatus
  deriving DecidableEq, Repr

/-- The fields of a transaction that the adapter reads. -/
structure RpcTransaction where
  hash : String
  blockNumber : Option ℤ
  deriving DecidableEq, Repr

/-- A decoded `Transfer` log. -/
structure TransferLog where
  transactionHash : Option String
  blockNumber : Option ℤ
  fromAddress : String
  toAddress : String
  value : ℕ
  deriving DecidableEq, Repr

/-- A request of the public client. `getLogs` is the one for `TRANSFER_EVENT`. -/
inductive RpcCall where
  | getBlockNumber
  | getTransactionReceipt (hash : String)
  | getTransaction (hash : String)
  | getLogs (address : String) (fromBlock toBlock : ℤ)
  deriving DecidableEq, Repr

/-- The client's requests, with what they settle to. -/
def rpcCalls : Signature where
  Op := RpcCall
  Ret
    | .getBlockNumber => Except RpcError ℤ
    | .getTransactionReceipt _ => Except RpcError TransactionReceipt
    | .getTransaction _ => Except RpcError RpcTransaction
    | .getLogs .. => Except RpcError (List TransferLog)

/-- What a client call settles to, as a value. -/
def rpc (call : RpcCall) : Action rpcCalls (rpcCalls.Ret call) :=
  .perform (S := effects rpcCalls) (.other call)

/-- `await` a client call; a rejection is thrown on. -/
def awaitRpc {α : Type} (call : RpcCall) (read : rpcCalls.Ret call → Except RpcError α) :
    Action rpcCalls α :=
  .request (S := effects rpcCalls) (.other call) fun r => (read r).mapError fun _ => .rpc

/-! ## The adapter -/

namespace Evm

/-- `getLatestBlock` (lines 51–54). -/
def getLatestBlock : Action rpcCalls ℤ := awaitRpc .getBlockNumber id

/-- `getTransaction` (lines 56–77). -/
def getTransaction (txHash : String) : Action rpcCalls (Option BlockchainTransaction) := do
  match ← (rpc (.getTransactionReceipt txHash) :
    Action rpcCalls (Except RpcError TransactionReceipt)) with
  | .ok receipt =>
    return some {
      txHash := receipt.transactionHash
      blockNumber := receipt.blockNumber
      status := if receipt.status = .success then .success else .failed }
  | .error .other => .throw .rpc
  | .error .receiptNotFound =>
    match ← (rpc (.getTransaction txHash) : Action rpcCalls (Except RpcError RpcTransaction)) with
    | .ok tx =>
      return some { txHash := tx.hash, blockNumber := tx.blockNumber.getD 0, status := .pending }
    | .error _ => return none

/-- The loop body of `getTokenTransfers` (lines 93–105): a log without a hash or
    a block number is skipped. -/
def tokenTransfer (network token : String) (config : TokenConfig) (log : TransferLog) :
    Option TokenTransfer :=
  match log.transactionHash, log.blockNumber with
  | some txHash, some blockNumber =>
    if txHash = "" then none
    else some {
      txHash := txHash
      network := network
      token := token
      fromAddress := log.fromAddress
      toAddress := log.toAddress
      amount := config.amount log.value
      blockNumber := blockNumber }
  | _, _ => none

/-- The loop of `getTokenTransfers` over the tokens (lines 84–106). -/
def transfersOf (network : String) (fromBlock toBlock : ℤ) :
    List (String × TokenConfig) → Action rpcCalls (List TokenTransfer)
  | [] => return []
  | (token, config) :: tokens => do
    let logs ← awaitRpc (.getLogs config.contractAddress fromBlock toBlock) id
    let transfers ← transfersOf network fromBlock toBlock tokens
    return logs.filterMap (tokenTransfer network token config) ++ transfers

/-- `getTokenTransfers` (lines 80–109). -/
def getTokenTransfers (network : String) (fromBlock toBlock : ℤ) :
    Action rpcCalls (List TokenTransfer) :=
  transfersOf network fromBlock toBlock (getTokensForNetwork network)

/-- `getConfirmations` (lines 111–124). -/
def getConfirmations (txHash : String) : Action rpcCalls ℤ := do
  match ← (rpc (.getTransactionReceipt txHash) :
    Action rpcCalls (Except RpcError TransactionReceipt)) with
  | .error .receiptNotFound => .throw (.notFound ("No transaction found for tx hash " ++ txHash))
  | .error .other => .throw .rpc
  | .ok receipt =>
    let latestBlock ← awaitRpc .getBlockNumber id
    return max 0 (latestBlock - receipt.blockNumber + 1)

/-- `EvmBlockchainAdapter`. -/
def adapter (isAddress : String → Bool) (network : String) : BlockchainAdapter rpcCalls where
  validateAddress := isAddress
  getLatestBlock := getLatestBlock
  getTransaction := getTransaction
  getTokenTransfers := getTokenTransfers network
  getConfirmations := getConfirmations

/-- A reported transfer is the decoded log. -/
theorem tokenTransfer_eq_some {network token : String} {config : TokenConfig} {log : TransferLog}
    {t : TokenTransfer} (h : tokenTransfer network token config log = some t) :
    log.transactionHash = some t.txHash ∧ log.blockNumber = some t.blockNumber ∧
      t.network = network ∧ t.token = token ∧ t.toAddress = log.toAddress ∧
      t.amount = config.amount log.value := by
  obtain ⟨hash, number, source, target, value⟩ := log
  cases hash with
  | none => cases h
  | some hash =>
    cases number with
    | none => cases h
    | some number =>
      simp only [tokenTransfer] at h
      split_ifs at h
      cases h
      exact ⟨rfl, rfl, rfl, rfl, rfl, rfl⟩

end Evm

/-! ## Addresses -/

/-- What viem computes about addresses. -/
structure Viem where
  isAddress : String → Bool
  checksumAddress : String → String

/-- What the code relies on: the EIP-55 spelling of an address changes the case
    of its letters and depends on nothing else of it, and `isAddress` accepts an
    address in lower case and in that spelling. `lower` is
    `String.prototype.toLowerCase`. -/
structure Viem.Lawful (V : Viem) (lower : String → String) : Prop where
  lower_checksum : ∀ a, V.isAddress a = true → lower (V.checksumAddress a) = lower a
  checksum_congr : ∀ a b, V.isAddress a = true → V.isAddress b = true → lower a = lower b →
    V.checksumAddress a = V.checksumAddress b
  isAddress_lower : ∀ a, V.isAddress a = true → V.isAddress (lower a) = true
  isAddress_checksum : ∀ a, V.isAddress a = true → V.isAddress (V.checksumAddress a) = true

/-- The string is an address in its EIP-55 spelling. -/
def Viem.Checksummed (V : Viem) (a : String) : Prop :=
  V.isAddress a = true ∧ V.checksumAddress a = a

instance (V : Viem) (a : String) : Decidable (V.Checksummed a) :=
  inferInstanceAs (Decidable (V.isAddress a = true ∧ V.checksumAddress a = a))

/-- Two addresses in the EIP-55 spelling that differ in case only are equal. -/
theorem Viem.Lawful.eq_of_checksummed {V : Viem} {lower : String → String} (hV : V.Lawful lower)
    {a b : String} (ha : V.Checksummed a) (hb : V.Checksummed b) (h : lower a = lower b) : a = b :=
  calc a = V.checksumAddress a := ha.2.symm
    _ = V.checksumAddress b := hV.checksum_congr a b ha.1 hb.1 h
    _ = b := hb.2

end CryptoPay
