import CryptoPay.Blockchain.Fake
import CryptoPay.Data.Ranges

/-!
# The two indexes of the fake blockchain

`FakeBlockchainAdapter` stores each simulated transfer under its hash and under its block. A
`Simulation` is the adapter with its clock and the transfers that `simulatePayment` has returned.

Results:
* `Indexed.step`: both indexes describe the transfers, as long as every hash is new.
* `getConfirmations_mono`: confirmations grow with the clock.
* `indexes_agree`: what the adapter reports after any sequence of payments and clock advances.
-/

namespace CryptoPay.Fake

open Data

variable {blockTime : BlockTime}

/-! ## Sequences of payments -/

/-- `simulatePayment` (lines 90–105), with the sender that a caller may give: the transfer, and the
    adapter after it. -/
def simulatePayment (blockTime : BlockTime) (now : Time) (chain : Chain)
    (input : SimulatePaymentInput) (fromAddress : Option String) (hash digits : String) :
    TokenTransfer × Chain :=
  let transfer := { newTransfer blockTime now chain input hash digits with
    fromAddress := fromAddress.getD ("0x" ++ digits) }
  (transfer, chain.record transfer)

/-- A payment, with the random parts of its hash and of its sender, or an advance of the clock. -/
inductive Action where
  | simulatePayment (input : SimulatePaymentInput) (fromAddress : Option String)
      (hash digits : String)
  | advance (ms : ℕ)
  deriving DecidableEq, Repr

structure Simulation where
  now : Time
  chain : Chain
  /-- What `simulatePayment` has returned, oldest first. -/
  transfers : List TokenTransfer

namespace Simulation

/-- `new FakeBlockchainAdapter()` at the time `now`. -/
def start (now : Time) : Simulation := ⟨now, (Memory.fresh now).adapter, []⟩

def step (blockTime : BlockTime) (s : Simulation) : Action → Simulation
  | .simulatePayment input fromAddress hash digits =>
    let result := Fake.simulatePayment blockTime s.now s.chain input fromAddress hash digits
    ⟨s.now, result.2, s.transfers ++ [result.1]⟩
  | .advance ms => { s with now := s.now + ms }

def run (blockTime : BlockTime) (s : Simulation) (acts : List Action) : Simulation :=
  acts.foldl (step blockTime) s

end Simulation

/-- The hash that a payment generates. -/
def Action.hash : Action → Option String
  | .simulatePayment _ _ hash _ => some ("0xfake" ++ hash)
  | .advance _ => none

/-- The hashes that are generated. -/
def hashes (acts : List Action) : List String := acts.filterMap Action.hash

section Hashes

variable {s : Simulation} {act : Action} {acts : List Action}

theorem step_hashes (blockTime : BlockTime) (s : Simulation) (act : Action) :
    (s.step blockTime act).transfers.map TokenTransfer.txHash =
      s.transfers.map TokenTransfer.txHash ++ act.hash.toList := by
  cases act with
  | simulatePayment input fromAddress hash digits =>
    show (s.transfers ++ [_]).map TokenTransfer.txHash = _
    rw [List.map_append]
    rfl
  | advance ms => exact (List.append_nil _).symm

theorem run_hashes (blockTime : BlockTime) (s : Simulation) (acts : List Action) :
    (s.run blockTime acts).transfers.map TokenTransfer.txHash =
      s.transfers.map TokenTransfer.txHash ++ hashes acts := by
  induction acts generalizing s with
  | nil => exact (List.append_nil _).symm
  | cons act acts ih =>
    have hcons : hashes (act :: acts) = act.hash.toList ++ hashes acts := by
      unfold hashes
      rw [List.filterMap_cons]
      cases act.hash <;> rfl
    show ((s.step blockTime act).run blockTime acts).transfers.map TokenTransfer.txHash = _
    rw [ih, step_hashes, hcons, List.append_assoc]

/-- The transfers of the past stay. -/
theorem step_transfers (blockTime : BlockTime) (s : Simulation) (act : Action) :
    s.transfers <+: (s.step blockTime act).transfers := by
  cases act with
  | simulatePayment input fromAddress hash digits => exact List.prefix_append _ _
  | advance ms => exact List.prefix_refl _

end Hashes

/-! ## The indexes -/

/-- No block is in the future of the clock. -/
theorem currentBlock_mono {chain : Chain} {now now' : Time} (h : now ≤ now') :
    currentBlock blockTime now chain ≤ currentBlock blockTime now' chain :=
  max_le_max_left 0 (Int.ediv_le_ediv blockTime.positive (Int.sub_le_sub_right h _))

/-- The two maps describe the transfers, which are in the order of their blocks. -/
structure Indexed (blockTime : BlockTime) (s : Simulation) : Prop where
  byHash : ∀ txHash, s.chain.transfersByTxHash txHash =
    s.transfers.find? fun t => t.txHash = txHash
  byBlock : ∀ block, s.chain.transfersByBlock block =
    s.transfers.filter fun t => t.blockNumber = block
  ordered : s.transfers.Pairwise fun t t' => t.blockNumber ≤ t'.blockNumber
  past : ∀ t ∈ s.transfers, t.blockNumber ≤ currentBlock blockTime s.now s.chain

section Indexed

variable {s : Simulation} {act : Action} {acts : List Action}

theorem Indexed.start (now : Time) : Indexed blockTime (.start now) where
  byHash _ := rfl
  byBlock _ := rfl
  ordered := .nil
  past _ ht := absurd ht List.not_mem_nil

/-- A transfer in the current block, with a new hash. -/
theorem Indexed.record (h : Indexed blockTime s) {transfer : TokenTransfer}
    (hblock : transfer.blockNumber = currentBlock blockTime s.now s.chain)
    (hnew : transfer.txHash ∉ s.transfers.map TokenTransfer.txHash) :
    Indexed blockTime ⟨s.now, s.chain.record transfer, s.transfers ++ [transfer]⟩ where
  byHash txHash := by
    show Function.update _ _ _ txHash = _
    by_cases heq : txHash = transfer.txHash
    · have hnone : s.transfers.find? (fun t => t.txHash = txHash) = none := by
        refine List.find?_eq_none.mpr fun t ht => ?_
        rw [decide_eq_true_eq, heq]
        exact fun hhash => hnew (hhash ▸ List.mem_map_of_mem ht)
      rw [heq, Function.update_self, ← heq, List.find?_append, hnone, Option.none_or, List.find?_cons_of_pos]
      exact decide_eq_true heq.symm
    · rw [Function.update_of_ne heq, h.byHash, List.find?_append, List.find?_cons_of_neg]
      · exact (Option.or_none).symm
      · exact fun hhash => heq (of_decide_eq_true hhash).symm
  byBlock block := by
    show Function.update _ _ _ block = _
    rw [List.filter_append]
    by_cases heq : block = transfer.blockNumber
    · have hself : [transfer].filter (fun t => t.blockNumber = transfer.blockNumber) = [transfer] := by
        simp
      rw [heq, Function.update_self, h.byBlock, hself]
    · rw [Function.update_of_ne heq, h.byBlock,
        List.filter_cons_of_neg fun hb => heq (of_decide_eq_true hb).symm, List.filter_nil,
        List.append_nil]
  ordered := by
    refine List.pairwise_append.mpr ⟨h.ordered, List.pairwise_singleton _ _, fun t ht t' ht' => ?_⟩
    rw [List.mem_singleton.mp ht', hblock]
    exact h.past t ht
  past := by
    intro t ht
    rcases List.mem_append.mp ht with ht | ht
    · exact h.past t ht
    · rw [List.mem_singleton.mp ht]
      exact hblock.le

theorem Indexed.step (h : Indexed blockTime s)
    (hnew : ∀ txHash ∈ act.hash, txHash ∉ s.transfers.map TokenTransfer.txHash) :
    Indexed blockTime (s.step blockTime act) := by
  cases act with
  | simulatePayment input fromAddress hash digits => exact h.record rfl (hnew _ rfl)
  | advance ms =>
    refine ⟨h.byHash, h.byBlock, h.ordered, fun t ht => (h.past t ht).trans ?_⟩
    exact currentBlock_mono (Int.le_add_of_nonneg_right (Int.natCast_nonneg ms))

/-- The hash of the first of some actions is new, and so are the others' after it. -/
theorem nodup_step (blockTime : BlockTime)
    (hnodup : (s.transfers.map TokenTransfer.txHash ++ hashes (act :: acts)).Nodup) :
    (∀ txHash ∈ act.hash, txHash ∉ s.transfers.map TokenTransfer.txHash) ∧
      ((s.step blockTime act).transfers.map TokenTransfer.txHash ++ hashes acts).Nodup := by
  have hcons : hashes (act :: acts) = act.hash.toList ++ hashes acts := by
    unfold hashes
    rw [List.filterMap_cons]
    cases act.hash <;> rfl
  rw [hcons, ← List.append_assoc, ← step_hashes blockTime] at hnodup
  refine ⟨fun txHash hhash hmem => ?_, hnodup⟩
  rw [step_hashes] at hnodup
  have hboth := List.disjoint_of_nodup_append (List.Nodup.of_append_left hnodup)
  exact hboth hmem (Option.mem_toList.mpr hhash)

theorem Indexed.run (h : Indexed blockTime s)
    (hnodup : (s.transfers.map TokenTransfer.txHash ++ hashes acts).Nodup) :
    Indexed blockTime (s.run blockTime acts) := by
  induction acts generalizing s with
  | nil => exact h
  | cons act acts ih =>
    obtain ⟨hnew, hrest⟩ := nodup_step blockTime hnodup
    exact ih (h.step hnew) hrest

end Indexed

/-! ## What the adapter reports -/

/-- `getTokenTransfers` scans the index by blocks. -/
theorem getTokenTransfers_eq (chain : Chain) (a b : ℤ) :
    getTokenTransfers chain a b = scan chain.transfersByBlock a b := rfl

/-- The adapter reports the transfers: by ranges of blocks in their order, each once, and by their
    hashes. -/
structure IndexesAgree (blockTime : BlockTime) (s : Simulation) : Prop where
  listed : ∀ a b, getTokenTransfers s.chain a b =
    s.transfers.filter fun t => a ≤ t.blockNumber ∧ t.blockNumber ≤ b
  ordered : s.transfers.Pairwise fun t t' => t.blockNumber ≤ t'.blockNumber
  once : (s.transfers.map TokenTransfer.txHash).Nodup
  adjacent : ∀ a b c, a ≤ b + 1 → b + 1 ≤ c + 1 → getTokenTransfers s.chain a c =
    getTokenTransfers s.chain a b ++ getTokenTransfers s.chain (b + 1) c
  found : ∀ txHash, (getTransaction s.chain txHash).isSome = true ↔
    ∃ t ∈ s.transfers, t.txHash = txHash
  confirmed : ∀ txHash, (∃ n, getConfirmations blockTime s.now s.chain txHash = .ok n) ↔
    ∃ t ∈ s.transfers, t.txHash = txHash

section Reports

variable {s : Simulation} {act : Action} {acts : List Action} {txHash : String}

theorem Indexed.isSome_iff (h : Indexed blockTime s) (txHash : String) :
    (s.chain.transfersByTxHash txHash).isSome = true ↔ ∃ t ∈ s.transfers, t.txHash = txHash := by
  rw [h.byHash, List.find?_isSome]
  simp only [decide_eq_true_eq]

theorem Indexed.agree (h : Indexed blockTime s)
    (honce : (s.transfers.map TokenTransfer.txHash).Nodup) : IndexesAgree blockTime s where
  listed a b := by
    rw [getTokenTransfers_eq]
    exact scan_eq_filter h.byBlock h.ordered a b
  ordered := h.ordered
  once := honce
  adjacent a b c hab hbc := by
    simp only [getTokenTransfers_eq]
    exact scan_append hab (by omega)
  found txHash := by
    rw [← h.isSome_iff, getTransaction, Option.isSome_map]
  confirmed txHash := by
    rw [← h.isSome_iff, getConfirmations]
    cases s.chain.transfersByTxHash txHash with
    | none =>
      refine iff_of_false ?_ Bool.false_ne_true
      rintro ⟨n, hn⟩
      cases hn
    | some t => exact iff_of_true ⟨_, rfl⟩ rfl

/-- A transfer is still found after other payments, and time only adds blocks. -/
theorem getConfirmations_step (h : Indexed blockTime s)
    (hnew : ∀ txHash ∈ act.hash, txHash ∉ s.transfers.map TokenTransfer.txHash) {n : ℤ}
    (hn : getConfirmations blockTime s.now s.chain txHash = .ok n) :
    ∃ m, getConfirmations blockTime (s.step blockTime act).now (s.step blockTime act).chain txHash =
      .ok m ∧ n ≤ m := by
  unfold getConfirmations at hn ⊢
  cases hfound : s.chain.transfersByTxHash txHash with
  | none =>
    rw [hfound] at hn
    cases hn
  | some t =>
    rw [hfound] at hn
    obtain rfl := Except.ok.inj hn
    have hsame : (s.step blockTime act).chain.transfersByTxHash txHash = some t := by
      obtain ⟨later, hlater⟩ := step_transfers blockTime s act
      rw [(h.step hnew).byHash, ← hlater, List.find?_append, ← h.byHash, hfound]
      rfl
    rw [hsame]
    refine ⟨_, rfl, max_le_max_left 0 (Int.sub_le_sub_right ?_ _)⟩
    cases act with
    | simulatePayment input fromAddress hash digits => exact Int.le_refl _
    | advance ms => exact currentBlock_mono (Int.le_add_of_nonneg_right (Int.natCast_nonneg ms))

theorem getConfirmations_mono (h : Indexed blockTime s)
    (hnodup : (s.transfers.map TokenTransfer.txHash ++ hashes acts).Nodup) {n : ℤ}
    (hn : getConfirmations blockTime s.now s.chain txHash = .ok n) :
    ∃ m, getConfirmations blockTime (s.run blockTime acts).now (s.run blockTime acts).chain txHash =
      .ok m ∧ n ≤ m := by
  induction acts generalizing s n with
  | nil => exact ⟨n, hn, Int.le_refl n⟩
  | cons act acts ih =>
    obtain ⟨hnew, hrest⟩ := nodup_step blockTime hnodup
    obtain ⟨m, hm, hnm⟩ := getConfirmations_step h hnew hn
    obtain ⟨m', hm', hmm'⟩ := ih (h.step hnew) hrest hm
    exact ⟨m', hm', hnm.trans hmm'⟩

/-- After any payments and clock advances, with distinct hashes. -/
theorem indexes_agree (blockTime : BlockTime) (now : Time) (acts : List Action)
    (hdistinct : (hashes acts).Nodup) :
    IndexesAgree blockTime ((Simulation.start now).run blockTime acts) ∧
    ∀ before after, acts = before ++ after → ∀ txHash n,
      getConfirmations blockTime ((Simulation.start now).run blockTime before).now
        ((Simulation.start now).run blockTime before).chain txHash = .ok n →
      ∃ m, getConfirmations blockTime ((Simulation.start now).run blockTime acts).now
        ((Simulation.start now).run blockTime acts).chain txHash = .ok m ∧ n ≤ m := by
  have hindexed : ∀ before after, acts = before ++ after →
      Indexed blockTime ((Simulation.start now).run blockTime before) ∧
      (((Simulation.start now).run blockTime before).transfers.map TokenTransfer.txHash ++
        hashes after).Nodup := by
    rintro before after rfl
    have hsplit : hashes (before ++ after) = hashes before ++ hashes after := List.filterMap_append
    rw [hsplit] at hdistinct
    refine ⟨(Indexed.start now).run (List.Nodup.of_append_left hdistinct), ?_⟩
    rw [run_hashes]
    exact hdistinct
  constructor
  · obtain ⟨hrun, honce⟩ := hindexed acts [] (List.append_nil acts).symm
    exact hrun.agree (List.Nodup.of_append_left honce)
  · rintro before after rfl txHash n hn
    obtain ⟨hbefore, hnodup⟩ := hindexed before after rfl
    have hsplit : (Simulation.start now).run blockTime (before ++ after) =
        ((Simulation.start now).run blockTime before).run blockTime after := List.foldl_append
    rw [hsplit]
    exact getConfirmations_mono hbefore hnodup hn

end Reports

/-- `blockTimeMs` when none is given (line 42). -/
def twoSeconds : BlockTime := ⟨2000, by decide⟩

/-- Two payments in one block, and one two blocks later. -/
def threePayments : List Action :=
  [.simulatePayment ⟨"base", "USDC", "0xab", ⟨4900000000⟩⟩ none "01" "c0",
    .simulatePayment ⟨"base", "USDC", "0xab", ⟨5000000000⟩⟩ (some "0xcd") "02" "",
    .advance 4500, .simulatePayment ⟨"base", "USDC", "0xab", ⟨5100000000⟩⟩ none "03" "c1", .advance 1500]

theorem indexes_agree_three :
    IndexesAgree twoSeconds ((Simulation.start 7).run twoSeconds threePayments) ∧
    ((Simulation.start 7).run twoSeconds threePayments).transfers.map TokenTransfer.blockNumber =
      [0, 0, 2] :=
  ⟨(indexes_agree twoSeconds 7 threePayments (by decide)).1, rfl⟩

end CryptoPay.Fake
