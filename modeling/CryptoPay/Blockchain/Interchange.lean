import CryptoPay.Async.Sequential
import CryptoPay.Blockchain.Fake
import CryptoPay.Blockchain.Node

/-!
# The two adapters on the same transfers

ARCHITECTURE.md says that `FakeBlockchainAdapter` and `EvmBlockchainAdapter`
satisfy the identical contract. A `Mirror` is a chain that a node serves, and a
fake chain that holds its transfers at the same heights, with the same current
block.

Results:
* `logs_range`: the logs of a range are those of its blocks.
* `Mirror.latest`, `Mirror.transfers`: the adapters agree on the current block and
  on the transfers of every range.
* `Mirror.confirmations_transfer`: of a transfer the EVM adapter counts one
  confirmation more.
* `interchangeable_iff`: they agree on a transaction only if it is not mined.
-/

namespace CryptoPay

open Async

/-! ## Ranges of blocks -/

section Ranges

/-- Selecting by either of two conditions, of which the first holds of earlier items only. -/
theorem filter_or_append {α : Type} {p q : α → Bool} {l : List α}
    (h : l.Pairwise fun x y => q x = true → p y = false) (hpq : ∀ x ∈ l, q x = true → p x = false) :
    l.filter (fun x => p x || q x) = l.filter p ++ l.filter q := by
  induction l with
  | nil => rfl
  | cons x l ih =>
    obtain ⟨hx, hl⟩ := List.pairwise_cons.mp h
    have ih := ih hl fun y hy => hpq y (List.mem_cons_of_mem x hy)
    by_cases hq : q x = true
    · have hp : p x = false := hpq x List.mem_cons_self hq
      have hnone : l.filter p = [] := by
        rw [List.filter_eq_nil_iff]
        intro y hy
        rw [hx y hy hq]
        exact nofun
      simp [hp, hq, ih, hnone]
    · by_cases hp : p x = true
      · simp [hp, hq, ih]
      · simp [hp, hq, ih]

variable {chain : Evm.Chain} {contract : String} {a b : ℤ}

/-- The logs up to a block are those before it and those of it. -/
theorem logs_succ (h : a ≤ b) :
    chain.logs contract a b = chain.logs contract a (b - 1) ++ chain.logs contract b b := by
  unfold Evm.Chain.logs
  rw [← List.flatMap_append]
  congr 1
  have hsorted : chain.zipIdx.Pairwise fun x y => x.2 < y.2 := by
    rw [← List.pairwise_map (f := Prod.snd) (R := (· < ·)), List.zipIdx_map_snd]
    exact List.pairwise_lt_range'
  rw [← filter_or_append (hsorted.imp ?_) ?_]
  · refine List.filter_congr fun x _ => ?_
    rw [← Bool.decide_or, decide_eq_decide]
    omega
  · intro x y hlt hx
    have hx := of_decide_eq_true hx
    exact decide_eq_false (by omega)
  · intro x _ hx
    have hx := of_decide_eq_true hx
    exact decide_eq_false (by omega)

theorem logs_empty (h : b < a) : chain.logs contract a b = [] := by
  unfold Evm.Chain.logs
  rw [List.filter_eq_nil_iff.mpr]
  · rfl
  · intro x _ hx
    have hx := of_decide_eq_true hx
    omega

/-- The logs of a range are those of its blocks. -/
theorem logs_range (n : ℕ) : chain.logs contract a (a + n - 1) =
    (List.range n).flatMap fun k : ℕ => chain.logs contract (a + k) (a + k) := by
  induction n with
  | zero => exact logs_empty (by push_cast; omega)
  | succ n ih =>
    rw [List.range_succ, List.flatMap_append, ← ih, logs_succ (by push_cast; omega)]
    congr 2
    · push_cast
      omega
    · simp only [List.flatMap_cons, List.flatMap_nil, List.append_nil]
      congr 1 <;> push_cast <;> omega

end Ranges

/-! ## Both adapters -/

/-- The transfers at a height. -/
def Evm.transfersAt (network : String) (chain : Evm.Chain) (k : ℤ) : List TokenTransfer :=
  (getTokensForNetwork network).flatMap fun (token, config) =>
    (chain.logs config.contractAddress k k).filterMap (tokenTransfer network token config)

/-- A chain, and a fake chain that holds its transfers. -/
structure Mirror (network : String) where
  chain : Evm.Chain
  blockTime : Fake.BlockTime
  now : Time
  memory : Fake.Memory
  /-- A hash names one transaction. -/
  distinct : (chain.flatten.map Evm.Tx.hash).Nodup
  height : Fake.currentBlock blockTime now memory.adapter = chain.head
  blocks : ∀ k, memory.adapter.transfersByBlock k = Evm.transfersAt network chain k
  found : ∀ hash t, memory.adapter.transfersByTxHash hash = some t →
    t.txHash = hash ∧ t ∈ Evm.transfersAt network chain t.blockNumber
  stored : ∀ k, ∀ t ∈ Evm.transfersAt network chain k,
    (memory.adapter.transfersByTxHash t.txHash).isSome = true

namespace Mirror

variable {network : String} {α : Type}

/-- What a call of the EVM adapter settles to; the node answers every request from the chain. -/
def evm (M : Mirror network) (p : Action rpcCalls α) : Option (Except Error α) :=
  (p.settle (machine Evm.node) 0 (.other .answer) ⟨Db.empty, M.now, M.chain⟩).map Prod.fst

/-- What a call of the fake adapter settles to. -/
def fake (M : Mirror network) (p : Action Fake.fakeCalls α) : Option (Except Error α) :=
  (p.settle (machine (Fake.backend M.blockTime)) 0 (.other .ok)
    ⟨Db.empty, M.now, M.memory⟩).map Prod.fst

/-- The same count, or no such transaction. -/
def SameAnswer : Except Error ℤ → Except Error ℤ → Prop
  | .ok m, .ok n => m = n
  | .error (.notFound _), .error (.notFound _) => True
  | _, _ => False

/-- The adapters agree on the chain, and on the transaction. -/
structure Interchangeable (M : Mirror network) (txHash : String) : Prop where
  latest : M.evm Evm.getLatestBlock = M.fake Fake.adapter.getLatestBlock
  transfers : ∀ fromBlock toBlock, M.evm (Evm.getTokenTransfers network fromBlock toBlock) =
    M.fake (Fake.adapter.getTokenTransfers fromBlock toBlock)
  confirmations : ∃ x y, M.evm (Evm.getConfirmations txHash) = some x ∧
    M.fake (Fake.adapter.getConfirmations txHash) = some y ∧ SameAnswer x y

/-- The transaction is in the chain. -/
def Mined (M : Mirror network) (txHash : String) : Prop :=
  ∃ b tx, M.chain.Contains b tx ∧ tx.hash = txHash

variable (M : Mirror network)

theorem latest : M.evm Evm.getLatestBlock = M.fake Fake.adapter.getLatestBlock :=
  congrArg (fun n : ℤ => some (Except.ok n : Except Error ℤ)) M.height.symm

/-- Every network has at most one token. -/
theorem tokens_cases (network : String) :
    getTokensForNetwork network = [] ∨ ∃ entry, getTokensForNetwork network = [entry] := by
  unfold getTokensForNetwork TOKEN_REGISTRY
  rw [List.lookup_cons]
  split
  · exact .inr ⟨_, rfl⟩
  · exact .inl rfl

theorem evm_transfers (fromBlock toBlock : ℤ) :
    M.evm (Evm.getTokenTransfers network fromBlock toBlock) =
      some (.ok ((getTokensForNetwork network).flatMap fun (token, config) =>
        (M.chain.logs config.contractAddress fromBlock toBlock).filterMap
          (Evm.tokenTransfer network token config))) := by
  unfold Evm.getTokenTransfers
  rcases tokens_cases network with h | ⟨entry, h⟩
  · rw [h]
    rfl
  · rw [h]
    rfl

theorem transfers (fromBlock toBlock : ℤ) :
    M.evm (Evm.getTokenTransfers network fromBlock toBlock) =
      M.fake (Fake.adapter.getTokenTransfers fromBlock toBlock) := by
  rw [evm_transfers]
  refine congrArg (fun l => some (Except.ok l : Except Error (List TokenTransfer))) ?_
  show _ = Fake.getTokenTransfers M.memory.adapter fromBlock toBlock
  unfold Fake.getTokenTransfers
  simp only [M.blocks, Evm.transfersAt]
  rcases tokens_cases network with h | ⟨⟨token, config⟩, h⟩
  · simp [h]
  · simp only [h, List.flatMap_cons, List.flatMap_nil, List.append_nil]
    rw [← List.filterMap_flatMap]
    congr 1
    rcases le_or_gt fromBlock toBlock with hle | hlt
    · rw [← logs_range]
      congr 1
      omega
    · rw [logs_empty hlt, show (toBlock - fromBlock + 1).toNat = 0 by omega]
      rfl

/-! ## Confirmations -/

section Confirmations

variable {txHash : String}

/-- The count of the EVM adapter, from a receipt. -/
theorem evm_confirmations : M.evm (Evm.getConfirmations txHash) =
    some (match M.chain.receipt txHash with
      | .ok receipt => .ok (max 0 (M.chain.head - receipt.blockNumber + 1))
      | .error .receiptNotFound =>
        .error (.notFound ("No transaction found for tx hash " ++ txHash))
      | .error .other => .error .rpc) := by
  unfold evm Evm.getConfirmations
  have hreceipt : (rpc (.getTransactionReceipt txHash)).settle (machine Evm.node) 0
      (.other .answer) ⟨Db.empty, M.now, M.chain⟩ =
      some (.ok (M.chain.receipt txHash), ⟨Db.empty, M.now, M.chain⟩) := rfl
  refine (congrArg (Option.map Prod.fst) (Prog.settle_bind hreceipt)).trans ?_
  cases M.chain.receipt txHash with
  | ok receipt => rfl
  | error e => cases e <;> rfl

/-- The count of the fake adapter. -/
theorem fake_confirmations : M.fake (Fake.adapter.getConfirmations txHash) =
    some (match M.memory.adapter.transfersByTxHash txHash with
      | none => .error (.notFound ("No fake transaction found for tx hash " ++ txHash))
      | some transfer => .ok (max 0 (M.chain.head - transfer.blockNumber))) := by
  have hsettle : M.fake (Fake.adapter.getConfirmations txHash) =
      some (Fake.getConfirmations M.blockTime M.now M.memory.adapter txHash) := by
    have hprog : ∀ x : Except Error ℤ, ((Prog.ofExcept x : Action Fake.fakeCalls ℤ).settle
        (machine (Fake.backend M.blockTime)) 0 (.other .ok)
        ⟨Db.empty, M.now, M.memory⟩).map Prod.fst = some x := by
      intro x
      cases x <;> rfl
    exact hprog _
  rw [hsettle]
  unfold Fake.getConfirmations
  cases M.memory.adapter.transfersByTxHash txHash with
  | none => rfl
  | some transfer => rw [M.height]

/-- A hash is mined at one height. -/
theorem height_unique {b b' : ℕ} {tx tx' : Evm.Tx} (h : M.chain.Contains b tx)
    (h' : M.chain.Contains b' tx') (heq : tx.hash = tx'.hash) : b = b' := by
  have hdisjoint : M.chain.Pairwise fun block block' =>
      ∀ tx ∈ block, ∀ tx' ∈ block', Evm.Tx.hash tx ≠ Evm.Tx.hash tx' := by
    have hnodup := M.distinct
    rw [List.map_flatten, List.nodup_flatten, List.pairwise_map] at hnodup
    refine hnodup.2.imp fun {block block'} hdis tx htx tx' htx' heq => ?_
    exact hdis (List.mem_map_of_mem htx) (heq ▸ List.mem_map_of_mem htx')
  have hne : ∀ {b b' : ℕ} {tx tx' : Evm.Tx}, M.chain.Contains b tx → M.chain.Contains b' tx' →
      b < b' → tx.hash ≠ tx'.hash := by
    rintro b b' tx tx' ⟨block, hb, htx⟩ ⟨block', hb', htx'⟩ hlt
    obtain ⟨hlen, rfl⟩ := List.getElem?_eq_some_iff.mp hb
    obtain ⟨hlen', rfl⟩ := List.getElem?_eq_some_iff.mp hb'
    exact List.pairwise_iff_getElem.mp hdisjoint b b' hlen hlen' hlt tx htx tx' htx'
  rcases lt_trichotomy b b' with hlt | rfl | hlt
  · exact absurd heq (hne h h' hlt)
  · rfl
  · exact absurd heq.symm (hne h' h hlt)

/-- A transfer is that of a mined transaction, at its height. -/
theorem transfer_mined {t : TokenTransfer}
    (h : M.memory.adapter.transfersByTxHash txHash = some t) :
    ∃ b tx, M.chain.Contains b tx ∧ tx.hash = txHash ∧ t.blockNumber = b := by
  obtain ⟨hhash, hmem⟩ := M.found txHash t h
  obtain ⟨⟨token, config⟩, -, hmem⟩ := List.mem_flatMap.mp hmem
  obtain ⟨log, hlog, hdecoded⟩ := List.mem_filterMap.mp hmem
  obtain ⟨k, tx, l, hcontains, -, -, rfl⟩ := Evm.mem_logs hlog
  obtain ⟨htx, hblock, -⟩ := Evm.tokenTransfer_eq_some hdecoded
  exact ⟨k, tx, hcontains, (Option.some.inj htx).trans hhash, (Option.some.inj hblock).symm⟩

/-- A mined transaction has a receipt, with its height. -/
theorem receipt_mined {b : ℕ} {tx : Evm.Tx} (h : M.chain.Contains b tx) (hhash : tx.hash = txHash) :
    ∃ receipt, M.chain.receipt txHash = .ok receipt ∧ receipt.blockNumber = b := by
  cases hreceipt : M.chain.receipt txHash with
  | ok receipt =>
    obtain ⟨b', tx', hb', hcontains, hhash', -⟩ := Evm.receipt_eq_ok hreceipt
    rw [M.height_unique h hcontains (hhash.trans hhash'.symm)]
    exact ⟨receipt, rfl, hb'⟩
  | error e =>
    obtain ⟨block, hblock, htx⟩ := h
    unfold Evm.Chain.receipt at hreceipt
    split at hreceipt
    · cases hreceipt
    · rename_i hnone
      have hmem : (block, b) ∈ M.chain.zipIdx := List.mk_mem_zipIdx_iff_getElem?.mpr hblock
      have hfind := List.findSome?_eq_none_iff.mp hnone _ hmem
      rw [Option.map_eq_none_iff, List.find?_eq_none] at hfind
      exact absurd (decide_eq_true hhash) (hfind tx htx)

/-- No block is above the head. -/
theorem contains_le {b : ℕ} {tx : Evm.Tx} (h : M.chain.Contains b tx) : (b : ℤ) ≤ M.chain.head := by
  obtain ⟨block, hblock, -⟩ := h
  obtain ⟨hlen, -⟩ := List.getElem?_eq_some_iff.mp hblock
  unfold Evm.Chain.head
  omega

/-- Of a transfer the EVM adapter counts one confirmation more. -/
theorem confirmations_transfer {t : TokenTransfer}
    (h : M.memory.adapter.transfersByTxHash txHash = some t) :
    ∃ n, M.fake (Fake.adapter.getConfirmations txHash) = some (.ok n) ∧
      M.evm (Evm.getConfirmations txHash) = some (.ok (n + 1)) := by
  obtain ⟨b, tx, hcontains, hhash, hblock⟩ := M.transfer_mined h
  obtain ⟨receipt, hreceipt, hheight⟩ := M.receipt_mined hcontains hhash
  have hle := M.contains_le hcontains
  refine ⟨M.chain.head - b, ?_, ?_⟩
  · rw [fake_confirmations, h]
    dsimp only
    rw [hblock, max_eq_right (by omega)]
  · rw [evm_confirmations, hreceipt]
    dsimp only
    rw [hheight, max_eq_right (by omega)]

end Confirmations

/-- The adapters agree on a transaction if and only if it is not mined. -/
theorem interchangeable_iff (M : Mirror network) (txHash : String) :
    M.Interchangeable txHash ↔ ¬ M.Mined txHash := by
  constructor
  · rintro ⟨-, -, x, y, hx, hy, hsame⟩ ⟨b, tx, hcontains, hhash⟩
    cases hfound : M.memory.adapter.transfersByTxHash txHash with
    | some t =>
      obtain ⟨n, hfake, hevm⟩ := M.confirmations_transfer hfound
      obtain rfl := Option.some.inj (hevm.symm.trans hx)
      obtain rfl := Option.some.inj (hfake.symm.trans hy)
      have hsame : n + 1 = n := hsame
      omega
    | none =>
      -- a receipt without a transfer
      obtain ⟨receipt, hreceipt, -⟩ := M.receipt_mined hcontains hhash
      rw [evm_confirmations, hreceipt] at hx
      rw [fake_confirmations, hfound] at hy
      obtain rfl := Option.some.inj hx
      obtain rfl := Option.some.inj hy
      exact hsame
  · intro hmined
    refine ⟨M.latest, M.transfers, ?_⟩
    have hfound : M.memory.adapter.transfersByTxHash txHash = none := by
      by_contra hsome
      obtain ⟨t, ht⟩ := Option.ne_none_iff_exists'.mp hsome
      obtain ⟨b, tx, hcontains, hhash, -⟩ := M.transfer_mined ht
      exact hmined ⟨b, tx, hcontains, hhash⟩
    have hreceipt : M.chain.receipt txHash = .error .receiptNotFound := by
      cases hreceipt : M.chain.receipt txHash with
      | ok receipt =>
        obtain ⟨b, tx, -, hcontains, hhash, -⟩ := Evm.receipt_eq_ok hreceipt
        exact absurd ⟨b, tx, hcontains, hhash⟩ hmined
      | error e =>
        unfold Evm.Chain.receipt at hreceipt
        split at hreceipt
        · cases hreceipt
        · exact hreceipt.symm
    rw [evm_confirmations, fake_confirmations, hreceipt, hfound]
    exact ⟨_, _, rfl, rfl, trivial⟩

/-! ## One mined transfer -/

/-- A block with one transfer of 49 USDC. -/
def sampleChain : Evm.Chain :=
  [[⟨"0xaa", .success [⟨usdc.contractAddress, "0xfrom", "0xto", 49000000⟩]⟩]]

/-- The transfer. -/
def sampleTransfer : TokenTransfer :=
  ⟨"0xaa", "base", "USDC", "0xfrom", "0xto", ⟨4900000000⟩, 0⟩

theorem transfersAt_zero : Evm.transfersAt "base" sampleChain 0 = [sampleTransfer] := by
  decide

theorem transfersAt_other {k : ℤ} (hk : k ≠ 0) : Evm.transfersAt "base" sampleChain k = [] := by
  have hlogs : ∀ contract, sampleChain.logs contract k k = [] := by
    intro contract
    unfold Evm.Chain.logs
    rw [List.filter_eq_nil_iff.mpr]
    · rfl
    · intro x hx hrange
      obtain rfl := List.mem_singleton.mp hx
      have hrange : k ≤ 0 ∧ 0 ≤ k := of_decide_eq_true hrange
      omega
  unfold Evm.transfersAt
  simp [hlogs]

/-- The memory of a process that has recorded the transfer. -/
def sampleMemory : Fake.Memory :=
  { Fake.Memory.fresh 0 with adapter := (Fake.Memory.fresh 0).adapter.record sampleTransfer }

theorem sample_blocks (k : ℤ) :
    sampleMemory.adapter.transfersByBlock k = Evm.transfersAt "base" sampleChain k := by
  by_cases hk : k = 0
  · rw [hk, transfersAt_zero]
    rfl
  · rw [transfersAt_other hk]
    exact Function.update_of_ne hk _ _

theorem sample_found (hash : String) (t : TokenTransfer)
    (h : sampleMemory.adapter.transfersByTxHash hash = some t) :
    t.txHash = hash ∧ t ∈ Evm.transfersAt "base" sampleChain t.blockNumber := by
  by_cases hhash : hash = "0xaa"
  · obtain rfl : sampleTransfer = t := by
      rw [hhash] at h
      exact Option.some.inj h
    refine ⟨hhash.symm, ?_⟩
    show sampleTransfer ∈ Evm.transfersAt "base" sampleChain 0
    rw [transfersAt_zero]
    exact List.mem_singleton_self _
  · have hnone : sampleMemory.adapter.transfersByTxHash hash = none :=
      Function.update_of_ne hhash _ _
    rw [hnone] at h
    cases h

theorem sample_stored (k : ℤ) (t : TokenTransfer) (h : t ∈ Evm.transfersAt "base" sampleChain k) :
    (sampleMemory.adapter.transfersByTxHash t.txHash).isSome = true := by
  by_cases hk : k = 0
  · rw [hk, transfersAt_zero] at h
    rw [List.mem_singleton.mp h]
    rfl
  · rw [transfersAt_other hk] at h
    cases h

/-- The chain and the fake chain, at block 0. -/
def sampleMirror : Mirror "base" where
  chain := sampleChain
  blockTime := ⟨2000, Int.ofNat_succ_pos 1999⟩
  now := 0
  memory := sampleMemory
  distinct := List.nodup_singleton _
  height := rfl
  blocks := sample_blocks
  found := sample_found
  stored := sample_stored

/-- The EVM adapter has one confirmation of the transfer, and the fake adapter none. -/
theorem adapters_differ : ¬ ∀ (network : String) (M : Mirror network) (txHash : String),
    M.Interchangeable txHash := by
  intro h
  refine (interchangeable_iff sampleMirror "0xaa").mp (h _ _ _) ?_
  exact ⟨0, _, ⟨_, rfl, List.mem_singleton_self _⟩, rfl⟩

end Mirror

end CryptoPay
