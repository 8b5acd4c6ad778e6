import CryptoPay.Worker.ScanCursor

/-!
# Which transfers a scan covers

`ScanCursor` says what the cursor stands for in terms of what the adapter was
asked. Here the adapter reports on a chain: it names no block above the head,
and returns at least the watched transfers of the blocks that it is asked for.
The chain grows by single blocks, and with `forks` any suffix of it may be
replaced by another.

Results:
* `scan_coverage`: without forks, every transfer at or below the cursor has been
  processed, however many passes overlap and wherever they end.
* `scan_coverage_backwards`: a run in which the cursor moves backwards.
-/

namespace CryptoPay.Worker

open Async

/-! ## Chains -/

/-- A block, with the transfers of watched tokens that it contains. -/
structure Block where
  hash : String
  transfers : List TokenTransfer
  deriving DecidableEq, Repr

/-- The canonical blocks, from block 0 on. -/
abbrev Chain := List Block

/-- The number of the newest block. -/
def Chain.head (chain : Chain) : ℤ := chain.length - 1

/-- The watched transfers of the blocks `a … b`. -/
def Chain.transfers (chain : Chain) (a b : ℤ) : List TokenTransfer :=
  (chain.zipIdx.filter fun x => a ≤ x.2 ∧ x.2 ≤ b).flatMap fun x => x.1.transfers

theorem Chain.mem_transfers {chain : Chain} {a b : ℤ} {h : ℕ} {block : Block} {t : TokenTransfer}
    (hblock : chain[h]? = some block) (ha : a ≤ h) (hb : h ≤ b) (ht : t ∈ block.transfers) :
    t ∈ chain.transfers a b := by
  refine List.mem_flatMap.mpr ⟨(block, h), List.mem_filter.mpr ⟨?_, ?_⟩, ht⟩
  · exact List.mk_mem_zipIdx_iff_getElem?.mpr hblock
  · simp [ha, hb]

/-- What the adapter may answer. -/
def complete (chain : Chain) : (call : AdapterCall) → adapterCalls.Ret call → Bool
  | .getLatestBlock, .ok n => n ≤ chain.head
  | .getTokenTransfers a b, .ok ts => (chain.transfers a b).all (· ∈ ts)
  | _, _ => true

/-- How the chain changes. -/
inductive ChainAct where
  | mine (block : Block)
  | replace (keep : ℕ) (blocks : List Block)

def ChainAct.apply (forks : Bool) (chain : Chain) : ChainAct → Option Chain
  | .mine block => some (chain ++ [block])
  | .replace keep blocks => if forks then some (chain.take keep ++ blocks) else none

/-- A complete adapter on a chain. -/
def onChain (forks : Bool) : Backend adapterCalls Chain Answer ChainAct :=
  answering complete (ChainAct.apply forks)

abbrev ChainSystem := System (effects adapterCalls) Error Job (World Chain)

abbrev ChainMove := Move Job (Input Answer) (Act ChainAct)

/-- No cursor is stored for the network yet. -/
def NoCursor (D : Setup) (w : World Chain) : Prop :=
  ∀ cur ∈ w.db.blockchainScanCursors, cur.network ≠ D.network

/-- The systems that some run leads to. -/
def ChainReachable (forks : Bool) (n : Replicas) (D : Setup) : ChainSystem → Prop :=
  Reachable (machine (onChain forks)) (workload n D.deployment) (NoCursor D) anything

def ChainLeads (forks : Bool) (n : Replicas) (D : Setup) : ChainSystem → ChainSystem → Prop :=
  Leads (machine (onChain forks)) (workload n D.deployment) anything

/-- The system's chain. -/
abbrev chainOf (s : ChainSystem) : Chain := s.config.state.other

variable {forks : Bool} {n : Replicas} {D : Setup} {s s' : ChainSystem}

/-! ## What an answer says about the chain -/

/-- An answer in the trace was given in an earlier system, about its chain. -/
theorem answered_complete (hs : ChainReachable forks n D s) {pid : ℕ} {call : AdapterCall}
    {r : adapterCalls.Ret call} {tr : Trace} (h : (⟨pid, .other call, r⟩ :: tr) <:+ s.config.trace) :
    ∃ s₁, ChainReachable forks n D s₁ ∧ ChainLeads forks n D s₁ s ∧ s₁.config.trace = tr ∧
      (∃ p ∈ s₁.procs, ∃ k, p.prog = .await (.other call) k) ∧
      complete (chainOf s₁) call r = true := by
  obtain ⟨s₁, hs₁, htr, ⟨p, hp, -, hk⟩, ⟨i, state, hr⟩, hleads⟩ := Reachable.answered hs h
  obtain ⟨answer, o, ho, -⟩ := respond_other hr
  obtain ⟨r', -, hr'⟩ := Option.bind_eq_some_iff.mp ho
  split_ifs at hr' with hc
  cases hr'
  exact ⟨s₁, hs₁, hleads, htr, ⟨p, hp, hk⟩, hc⟩

/-- Without forks a chain only grows. -/
theorem leads_extends (h : ChainLeads false n D s s') : chainOf s <+: chainOf s' := by
  refine h.keeps (R := fun t => chainOf s <+: chainOf t) (List.prefix_refl _) ?_
  intro t u m ht _ hstep
  cases m with
  | start job =>
    obtain ⟨-, rfl⟩ := System.step_start hstep
    exact ht
  | stop pid =>
    cases hstep
    exact ht
  | perform pid input =>
    obtain ⟨job, op, k, r, state, -, hr, rfl⟩ := System.step_perform hstep
    show chainOf s <+: state.other
    rw [respond_readOnly Ledger.answering_readOnly hr]
    exact ht
  | env act =>
    obtain ⟨state, hstate, rfl⟩ := System.step_env hstep
    show chainOf s <+: state.other
    rcases (Ledger.environment_rows hstate).2 with hsame | ⟨e, -, he⟩
    · rw [hsame]
      exact ht
    · cases e with
      | mine block =>
        have hmined : chainOf t ++ [block] = state.other := Option.some.inj he
        rw [← hmined]
        exact ht.trans (List.prefix_append _ _)
      | replace keep blocks => cases he

/-- The cursors of a reachable system stand for scanned heights. -/
theorem cursorsScanned (hs : ChainReachable forks n D s) : CursorsScanned D.network s.config :=
  (coverage_sound n D (onChain forks)).inv hs

/-! ## Without forks -/

/-- Every transfer at or below the cursor has been processed, and no block there
    is missing. -/
theorem scan_coverage (n : Replicas) (D : Setup) {s : ChainSystem}
    (hs : ChainReachable false n D s) :
    ∀ cur ∈ s.config.state.db.blockchainScanCursors, cur.network = D.network →
      ∀ h : ℕ, (h : ℤ) ≤ cur.lastScannedBlock → ∃ block, (chainOf s)[h]? = some block ∧
        ∀ t ∈ block.transfers, ∃ pid, Processed pid t s.config.trace := by
  intro cur hcur hnet h hle
  obtain ⟨pid, a, b, ts, before, ha, hb, hq, hp⟩ :=
    cursorsScanned hs cur hcur hnet h (Int.natCast_nonneg h) hle
  obtain ⟨s₁, hs₁, hleads, htr, -, hall⟩ := answered_complete hs hq.answer
  -- the head was reported before, so the block was there when it was queried
  obtain ⟨earlier, hhead⟩ := exists_suffix_of_mem hq.head
  obtain ⟨s₀, -, hleads₀, -, -, hle₀⟩ := answered_complete hs₁ (htr ▸ hhead)
  have hlen : h < (chainOf s₁).length := by
    have hb₀ : b ≤ (chainOf s₀).length - 1 := of_decide_eq_true hle₀
    have := (leads_extends hleads₀).length_le
    omega
  have hblock : (chainOf s₁)[h]? = some (chainOf s₁)[h] := List.getElem?_eq_getElem hlen
  refine ⟨(chainOf s₁)[h], (List.prefix_iff_getElem?.mp (leads_extends hleads)) h hlen, ?_⟩
  intro t ht
  have hmem : ∀ t ∈ (chainOf s₁).transfers a b, t ∈ ts := by simpa [complete] using hall
  exact ⟨pid, hp t (hmem t (Chain.mem_transfers hblock ha hb ht))⟩

/-- The marks in a trace. -/
def marks (tr : Trace) : List (ℕ × Mark) :=
  tr.filterMap fun
    | ⟨pid, .mark m, _⟩ => some (pid, m)
    | _ => none

theorem mem_marks {tr : Trace} {pid : ℕ} {m : Mark} (h : ⟨pid, .mark m, ()⟩ ∈ tr) :
    (pid, m) ∈ marks tr :=
  List.mem_filterMap.mpr ⟨_, h, rfl⟩

/-- Two blocks with a transfer each. -/
def block0 : Block := ⟨"b0", [⟨"0x1", "base", "USDC", "0xB", "0xA", ⟨4900000000⟩, 0⟩]⟩

def block1 : Block := ⟨"b1", [⟨"0x2", "base", "USDC", "0xB", "0xA", ⟨4900000000⟩, 1⟩]⟩

/-- The answers for a pass that finds the head `n` and the transfers `ts`, none of
    which is for an invoice. -/
def scanAnswers (n : ℤ) (ts : List TokenTransfer) : List (Input Answer) :=
  [.ok, .other (.latestBlock (.ok n)), .other (.tokenTransfers (.ok ts))] ++
    ts.flatMap fun _ => [.ok, .ok, .ok]

/-- Pass 0 has scanned block 0 when block 1 is mined and pass 1 scans both; then
    pass 0 moves the cursor back. -/
def backwards : List ChainMove :=
  .start .scan :: (scanAnswers 0 block0.transfers).map (.perform 0) ++
    [.env (.other (.mine block1)), .start .scan] ++
    (scanAnswers 1 (block0.transfers ++ block1.transfers)).map (.perform 1) ++
    [.perform 1 .ok, .perform 0 .ok]

set_option maxRecDepth 4000 in
/-- The cursor is back at 0, and block 0 has been processed. -/
theorem scan_coverage_backwards : ∃ s, ChainReachable false ⟨true, false⟩ sample s ∧
    s.config.state.db.blockchainScanCursors.rows = [⟨"base", 0⟩] ∧
      ∃ block, (chainOf s)[0]? = some block ∧
        ∀ t ∈ block.transfers, ∃ pid, Processed pid t s.config.trace := by
  have hstart : NoCursor sample ⟨Db.empty, 0, [block0]⟩ := fun _ h => absurd h List.not_mem_nil
  obtain ⟨s, hs, hrows⟩ : ∃ s, ChainReachable false ⟨true, false⟩ sample s ∧
      s.config.state.db.blockchainScanCursors.rows = [⟨"base", 0⟩] :=
    Reachable.view hstart backwards (by decide)
  have hcur : ⟨"base", 0⟩ ∈ s.config.state.db.blockchainScanCursors := by
    rw [Data.Table.mem_def, hrows]
    exact List.mem_singleton_self _
  exact ⟨s, hs, hrows, scan_coverage ⟨true, false⟩ sample hs _ hcur rfl 0 (le_refl _)⟩

end CryptoPay.Worker
