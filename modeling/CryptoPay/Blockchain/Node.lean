import CryptoPay.Blockchain.Evm
import CryptoPay.Payments.Outline

/-!
# A node and its chain

The state behind the public client: the canonical chain, block 0 first. A node
answers from the chain as it is at that moment, or fails. Any suffix of the chain
may be replaced by another at any time; a transaction may come back at another
height, with another outcome, or not at all.

Results:
* `getTokenTransfers_valid`: a transfer that the EVM adapter reports was logged by
  a node that the scan asked (`Logged`).
* `getConfirmations_valid`: a count is the depth of a receipt, below a head that was
  read after it (`Depth`).
* `receipt_eq_ok`, `mem_logs`: what those answers say about the chain.
-/

namespace CryptoPay

open Async

namespace Evm

/-! ## The chain -/

/-- A `Transfer` event of a contract. -/
structure ContractLog where
  contract : String
  fromAddress : String
  toAddress : String
  value : ℕ
  deriving DecidableEq, Repr

/-- How a transaction ended; a reverted one leaves no logs. -/
inductive Outcome where
  | success (logs : List ContractLog)
  | reverted
  deriving DecidableEq, Repr

/-- A mined transaction. -/
structure Tx where
  hash : String
  outcome : Outcome
  deriving DecidableEq, Repr

/-- The status in its receipt. -/
def Tx.status (tx : Tx) : ReceiptStatus :=
  match tx.outcome with
  | .success _ => .success
  | .reverted => .reverted

def Tx.logs (tx : Tx) : List ContractLog :=
  match tx.outcome with
  | .success logs => logs
  | .reverted => []

abbrev Block := List Tx

/-- The canonical blocks, from block 0 on. -/
abbrev Chain := List Block

/-- The number of the newest block. -/
def Chain.head (chain : Chain) : ℤ := chain.length - 1

/-- The transaction is in block `h`. -/
def Chain.Contains (chain : Chain) (h : ℕ) (tx : Tx) : Prop :=
  ∃ block, chain[h]? = some block ∧ tx ∈ block

/-- `eth_getTransactionReceipt`. -/
def Chain.receipt (chain : Chain) (hash : String) : Except RpcError TransactionReceipt :=
  match chain.zipIdx.findSome? fun x => (x.1.find? (·.hash = hash)).map (x.2, ·) with
  | some (h, tx) => .ok ⟨tx.hash, h, tx.status⟩
  | none => .error .receiptNotFound

/-- `eth_getLogs` for the transfers of a contract. -/
def Chain.logs (chain : Chain) (contract : String) (fromBlock toBlock : ℤ) : List TransferLog :=
  (chain.zipIdx.filter fun x => fromBlock ≤ x.2 ∧ x.2 ≤ toBlock).flatMap fun x =>
    x.1.flatMap fun tx => (tx.logs.filter (·.contract = contract)).map fun log =>
      ⟨some tx.hash, some x.2, log.fromAddress, log.toAddress, log.value⟩

/-- A receipt is that of a canonical transaction. -/
theorem receipt_eq_ok {chain : Chain} {hash : String} {receipt : TransactionReceipt}
    (h : chain.receipt hash = .ok receipt) : ∃ (b : ℕ) (tx : Tx), receipt.blockNumber = b ∧
      chain.Contains b tx ∧ tx.hash = hash ∧ receipt.status = tx.status := by
  unfold Chain.receipt at h
  split at h
  · rename_i b tx hfind
    obtain ⟨⟨block, b'⟩, hmem, hx⟩ := List.exists_of_findSome?_eq_some hfind
    obtain ⟨tx', htx, heq⟩ := Option.map_eq_some_iff.mp hx
    obtain ⟨rfl, rfl⟩ := Prod.mk.inj heq
    have hblock : chain[b']? = some block := List.mk_mem_zipIdx_iff_getElem?.mp hmem
    cases h
    exact ⟨b', tx', rfl, ⟨block, hblock, List.mem_of_find?_eq_some htx⟩,
      by simpa using List.find?_some htx, rfl⟩
  · cases h

/-- A log is that of a canonical transaction. -/
theorem mem_logs {chain : Chain} {contract : String} {a b : ℤ} {log : TransferLog}
    (h : log ∈ chain.logs contract a b) : ∃ (k : ℕ) (tx : Tx) (l : ContractLog),
      chain.Contains k tx ∧ l ∈ tx.logs ∧ l.contract = contract ∧
      log = ⟨some tx.hash, some k, l.fromAddress, l.toAddress, l.value⟩ := by
  unfold Chain.logs at h
  obtain ⟨⟨block, k⟩, hblock, h⟩ := List.mem_flatMap.mp h
  obtain ⟨tx, htx, h⟩ := List.mem_flatMap.mp h
  obtain ⟨l, hl, rfl⟩ := List.mem_map.mp h
  obtain ⟨hl, hc⟩ := List.mem_filter.mp hl
  have hget : chain[k]? = some block :=
    List.mk_mem_zipIdx_iff_getElem?.mp (List.mem_filter.mp hblock).1
  exact ⟨k, tx, l, ⟨block, hget, htx⟩, hl, of_decide_eq_true hc, rfl⟩

/-! ## The node -/

/-- Whether the client call is answered. -/
inductive Reply where
  | answer
  /-- `getTransaction` finds the transaction in the mempool. -/
  | pending
  | fail
  deriving DecidableEq, Repr

/-- What the client call settles to. -/
def Chain.answer (chain : Chain) : (call : RpcCall) → Reply → rpcCalls.Ret call
  | .getBlockNumber, .fail => .error .other
  | .getBlockNumber, _ => .ok chain.head
  | .getTransactionReceipt _, .fail => .error .other
  | .getTransactionReceipt hash, _ => chain.receipt hash
  | .getTransaction _, .fail => .error .other
  | .getTransaction hash, .pending => .ok ⟨hash, none⟩
  | .getTransaction hash, .answer =>
    match chain.receipt hash with
    | .ok receipt => .ok ⟨receipt.transactionHash, some receipt.blockNumber⟩
    | .error _ => .error .other
  | .getLogs .., .fail => .error .other
  | .getLogs contract a b, _ => .ok (chain.logs contract a b)

/-- The blocks from number `keep` on are replaced. -/
structure Fork where
  keep : ℕ
  blocks : List Block

/-- A node of a chain that forks. -/
def node : Backend rpcCalls Chain Reply Fork where
  respond _ _ chain call reply := some (chain.answer call reply, chain)
  env chain fork := some (chain.take fork.keep ++ fork.blocks)
  restarts _ := false
  tick _ _ := true

theorem node_readOnly : node.ReadOnly := by
  intro pid t o op i r o' h
  exact (congrArg Prod.snd (Option.some.inj h)).symm

/-! ## What the adapter's calls leave in the trace -/

/-- The requests answered so far, newest first. -/
abbrev Trace := List (Event (effects rpcCalls))

/-- Some process got a log that decodes to the transfer. -/
def Logged (network : String) (t : TokenTransfer) (tr : Trace) : Prop :=
  ∃ pid token config a b logs log, (token, config) ∈ getTokensForNetwork network ∧
    (⟨pid, .other (.getLogs config.contractAddress a b), .ok logs⟩ : Event (effects rpcCalls)) ∈ tr ∧
    log ∈ logs ∧ tokenTransfer network token config log = some t

/-- Process `pid` read the receipt of the transaction, and then a head at which it
    has `n` confirmations. -/
def Depth (pid : ℕ) (txHash : String) (n : ℤ) (tr : Trace) : Prop :=
  ∃ receipt head before earlier,
    (⟨pid, .other .getBlockNumber, .ok head⟩ :: before) <:+ tr ∧
    (⟨pid, .other (.getTransactionReceipt txHash), .ok receipt⟩ :: earlier) <:+ before ∧
    n = max 0 (head - receipt.blockNumber + 1)

theorem Logged.mono {network : String} {t : TokenTransfer} {tr tr' : Trace}
    (h : Logged network t tr) (hs : tr <:+ tr') : Logged network t tr' := by
  obtain ⟨pid, token, config, a, b, logs, log, hconfig, hev, hrest⟩ := h
  exact ⟨pid, token, config, a, b, logs, log, hconfig, hs.mem hev, hrest⟩

theorem Depth.mono {pid : ℕ} {txHash : String} {n : ℤ} {tr tr' : Trace}
    (h : Depth pid txHash n tr) (hs : tr <:+ tr') : Depth pid txHash n tr' := by
  obtain ⟨receipt, head, before, earlier, hhead, hrest⟩ := h
  exact ⟨receipt, head, before, earlier, hhead.trans hs, hrest⟩

end Evm

namespace Ledger

variable {ω η κ ι : Type} {L : Ledger rpcCalls ω ι η κ} {j : κ} {pid : ℕ}
  {P : History rpcCalls ω → Prop} {E : Error → History rpcCalls ω → Prop}

/-- A client call that rejects with `.rpc`. -/
theorem Fact.awaitRpc (hP : L.Fact j pid P) (hB : L.backend.ReadOnly) (call : RpcCall) {α : Type}
    (read : rpcCalls.Ret call → Except RpcError α) {F : Evm.Trace → Prop}
    (hF : ∀ c, P c → F c.trace) (hE : ∀ c, L.Inv c → P c → E .rpc c) :
    L.protocol.Valid j pid P (awaitRpc call read)
      (fun a c => P c ∧ ∃ r before, read r = .ok a ∧
        (⟨pid, .other call, r⟩ :: before) <:+ c.trace ∧ F before) E := by
  refine (hP.other hB call hF).bind fun r => Protocol.Valid.ofExcept ?_ ?_
  · rintro a ha c - ⟨hp, before, hb, hf⟩
    exact ⟨hp, r, before, ok_of_mapError ha, hb, hf⟩
  · rintro e he c hI ⟨hp, -⟩
    obtain ⟨e', -, rfl⟩ := error_of_mapError he
    exact hE c hI hp

theorem getLatestBlock_valid (hP : L.Fact j pid P) (hB : L.backend.ReadOnly)
    (hE : ∀ c, L.Inv c → P c → E .rpc c) :
    L.protocol.Valid j pid P Evm.getLatestBlock (fun _ => P) E :=
  (hP.awaitRpc hB .getBlockNumber id (F := fun _ => True) (fun _ _ => trivial) hE).post
    (fun _ _ _ h => h.1) fun _ _ _ h => h

/-- The reported transfers were logged. -/
theorem getTokenTransfers_valid (hP : L.Fact j pid P) (hB : L.backend.ReadOnly)
    (hE : ∀ c, L.Inv c → P c → E .rpc c) (network : String) (a b : ℤ) :
    L.protocol.Valid j pid P (Evm.getTokenTransfers network a b)
      (fun ts c => P c ∧ ∀ t ∈ ts, Evm.Logged network t c.trace) E := by
  suffices h : ∀ tokens, (∀ x ∈ tokens, x ∈ getTokensForNetwork network) →
      L.protocol.Valid j pid P (Evm.transfersOf network a b tokens)
        (fun ts c => P c ∧ ∀ t ∈ ts, Evm.Logged network t c.trace) E from h _ fun _ hx => hx
  intro tokens htokens
  induction tokens with
  | nil => exact .pure fun c _ hp => ⟨hp, fun t ht => absurd ht List.not_mem_nil⟩
  | cons x tokens ih =>
    obtain ⟨token, config⟩ := x
    have hconfig := htokens _ List.mem_cons_self
    refine (hP.awaitRpc hB (.getLogs config.contractAddress a b) id (F := fun _ => True)
      (fun _ _ => trivial) hE).bind fun logs => ?_
    have hlast : Protocol.Lasting fun c : History rpcCalls ω =>
        (⟨pid, .other (.getLogs config.contractAddress a b), .ok logs⟩ : Event (effects rpcCalls)) ∈
          c.trace := fun _ _ hs h => hs.mem h
    refine Protocol.Valid.bind (((ih fun x hx => htokens x (List.mem_cons_of_mem _ hx)).frame
      L.growing hlast).pre ?_) fun ts => .pure ?_
    · rintro c - ⟨hp, r, before, hr, hb, -⟩
      have hr : r = .ok logs := hr
      exact ⟨hp, hb.mem (hr ▸ List.mem_cons_self)⟩
    · rintro c - ⟨⟨hp, hts⟩, hev⟩
      refine ⟨hp, fun t ht => ?_⟩
      rcases List.mem_append.mp ht with ht | ht
      · obtain ⟨log, hlog, hsome⟩ := List.mem_filterMap.mp ht
        exact ⟨pid, token, config, a, b, logs, log, hconfig, hev, hlog, hsome⟩
      · exact hts t ht

/-- A count is a depth. -/
theorem getConfirmations_valid (hP : L.Fact j pid P) (hB : L.backend.ReadOnly)
    (hE : ∀ c e, L.Inv c → P c → ¬ e.IsInvalidStateTransition → E e c) (txHash : String) :
    L.protocol.Valid j pid P (Evm.getConfirmations txHash)
      (fun n c => P c ∧ Evm.Depth pid txHash n c.trace) E := by
  refine (hP.other hB (.getTransactionReceipt txHash) (F := fun _ => True) fun _ _ => trivial).bind
    fun r => ?_
  cases r with
  | error e =>
    cases e with
    | receiptNotFound => exact .throw fun c hI hp => hE c _ hI hp.1 id
    | other => exact .throw fun c hI hp => hE c _ hI hp.1 id
  | ok receipt =>
    let F : Evm.Trace → Prop := fun tr => ∃ earlier,
      (⟨pid, .other (.getTransactionReceipt txHash), .ok receipt⟩ :: earlier) <:+ tr
    have hF : Protocol.Lasting fun c : History rpcCalls ω => F c.trace :=
      fun _ _ hs ⟨earlier, h⟩ => ⟨earlier, h.trans hs⟩
    have hPF : L.Fact j pid fun c => P c ∧ F c.trace := hP.and (.lasting hF)
    refine Protocol.Valid.pre (P := fun c => P c ∧ F c.trace) ?_ ?_
    · refine (hPF.awaitRpc hB .getBlockNumber id (fun _ h => h.2)
        fun c hI h => hE c _ hI h.1 id).bind fun head => .pure ?_
      rintro c - ⟨⟨hp, -⟩, r, before, hr, hb, earlier, he⟩
      exact ⟨hp, receipt, head, before, earlier, (show r = .ok head from hr) ▸ hb, he, rfl⟩
    · rintro c - ⟨hp, before, hb, -⟩
      exact ⟨hp, before, hb⟩

end Ledger

end CryptoPay
