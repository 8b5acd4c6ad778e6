import CryptoPay.Worker.ScanCoverage

/-!
# Scan coverage when the chain forks

ARCHITECTURE.md takes blocks as final once they are produced, and lets the cursor
advance to the head on every pass. Here any suffix of the chain may be replaced
at any time, while the passes of one scan worker run one after the other, each to
its end.

Results:
* `fork_coverage`: each height at or below the cursor was covered at the moment
  when some pass asked for it, so a block that has not been replaced since is.
* `fork_missed`: a transfer that a fork moves to an already scanned height is not
  passed to `tryMatchTransfer`, not even by a complete pass.
-/

namespace CryptoPay.Worker

open Async

/-- What happens while a pass runs: one of its requests is answered, or the
    environment acts. -/
inductive PassStep where
  | answer (input : Input Answer)
  | change (act : Act ChainAct)

def PassStep.move (pid : ℕ) : PassStep → ChainMove
  | .answer input => .perform pid input
  | .change act => .env act

/-- A complete pass, whose last request is answered by `last`, or what happens
    between two passes. -/
inductive Episode where
  | change (act : Act ChainAct)
  | pass (steps : List PassStep) (last : Input Answer)

/-- The moves of an episode. -/
def Episode.moves (next : ℕ) : Episode → List ChainMove
  | .change act => [.env act]
  | .pass steps last =>
    .start .scan :: steps.map (PassStep.move next) ++ [.perform next last]

/-- What an episode leads to; a pass must have returned by its end. -/
def Episode.run (D : Setup) (s : ChainSystem) (e : Episode) : Option ChainSystem :=
  (s.run (machine (onChain true)) (workload oneOfEach D.deployment) (e.moves s.next)).bind fun t =>
    if t.procs.all (·.prog.finished) then
      t.step (machine (onChain true)) (workload oneOfEach D.deployment) (.stop s.next)
    else none

/-- Passes that do not overlap, each of which completes. -/
def runEpisodes (D : Setup) (s : ChainSystem) : List Episode → Option ChainSystem
  | [] => some s
  | e :: es => (e.run D s).bind fun t => runEpisodes D t es

variable {D : Setup} {s s' : ChainSystem}

theorem Episode.reachable (hs : ChainReachable true oneOfEach D s) {e : Episode}
    (h : e.run D s = some s') : ChainReachable true oneOfEach D s' := by
  obtain ⟨t, ht, h⟩ := Option.bind_eq_some_iff.mp h
  split_ifs at h
  exact .step _ (Reachable.run _ hs ht) (fun _ _ _ _ _ _ _ => trivial) h

theorem runEpisodes_reachable {es : List Episode} (hs : ChainReachable true oneOfEach D s)
    (h : runEpisodes D s es = some s') : ChainReachable true oneOfEach D s' := by
  induction es generalizing s with
  | nil => cases h; exact hs
  | cons e es ih =>
    obtain ⟨t, ht, h⟩ := Option.bind_eq_some_iff.mp h
    exact ih (e.reachable hs ht) h

/-- A process is about to ask for the transfers of a range with the height `h`. -/
def AsksFor (s : ChainSystem) (h : ℤ) : Prop :=
  ∃ p ∈ s.procs, ∃ a b k, a ≤ h ∧ h ≤ b ∧ p.prog = .await (.other (.getTokenTransfers a b)) k

/-- Right after a pass, every height at or below the cursor has had its moment:
    a pass asked for it, and has processed each transfer that was canonical at that
    height then. -/
theorem fork_coverage (D : Setup) {w : World Chain} (hw : NoCursor D w) {es : List Episode}
    {steps : List PassStep} {last : Input Answer} {s : ChainSystem}
    (hs : runEpisodes D (.initial w) (es ++ [.pass steps last]) = some s) :
    ∀ cur ∈ s.config.state.db.blockchainScanCursors, cur.network = D.network →
      ∀ h : ℕ, (h : ℤ) ≤ cur.lastScannedBlock →
        ∃ s₁, ChainReachable true oneOfEach D s₁ ∧ ChainLeads true oneOfEach D s₁ s ∧ AsksFor s₁ h ∧
          ∀ block, (chainOf s₁)[h]? = some block →
            ∀ t ∈ block.transfers, ∃ pid, Processed pid t s.config.trace := by
  intro cur hcur hnet h hle
  have hreach := runEpisodes_reachable (.initial hw) hs
  obtain ⟨pid, a, b, ts, before, ha, hb, hq, hp⟩ :=
    cursorsScanned hreach cur hcur hnet h (Int.natCast_nonneg h) hle
  obtain ⟨s₁, hs₁, hleads, -, ⟨p, hproc, k, hk⟩, hall⟩ := answered_complete hreach hq.answer
  refine ⟨s₁, hs₁, hleads, ⟨p, hproc, a, b, k, ha, hb, hk⟩, fun block hblock t ht => ?_⟩
  have hmem : ∀ t ∈ (chainOf s₁).transfers a b, t ∈ ts := by simpa [complete] using hall
  exact ⟨pid, hp t (hmem t (Chain.mem_transfers hblock ha hb ht))⟩

/-! ## A transfer that moves -/

/-- Right after a pass, every transfer in the canonical blocks up to the cursor has
    been passed to `tryMatchTransfer`. -/
def CoversForks (D : Setup) : Prop :=
  ∀ w, NoCursor D w → ∀ es steps last s,
    runEpisodes D (.initial w) (es ++ [.pass steps last]) = some s →
      ∀ cur ∈ s.config.state.db.blockchainScanCursors, cur.network = D.network →
        ∀ (h : ℕ) block, (chainOf s)[h]? = some block → (h : ℤ) ≤ cur.lastScannedBlock →
          ∀ t ∈ block.transfers, ∃ pid, ⟨pid, .mark (.passed t), ()⟩ ∈ s.config.trace

/-- A chain of two empty blocks. -/
def emptyChain : World Chain := ⟨Db.empty, 0, [⟨"b0", []⟩, ⟨"a1", []⟩]⟩

/-- A pass scans both blocks; then a fork replaces block 1 by one with a transfer,
    and adds block 2. -/
def forked : List Episode :=
  [.pass ((scanAnswers 1 []).map .answer) .ok, .change (.other (.replace 1 [block1, ⟨"b2", []⟩]))]

/-- What the next pass is told: the head is 2, and block 2 is empty. -/
def afterFork : Episode := .pass ((scanAnswers 2 []).map .answer) .ok

set_option maxRecDepth 4000 in
/-- The transfer that the fork has moved to block 1 is missed: the pass after the
    fork asks for block 2 only. -/
theorem fork_missed : ¬ CoversForks sample := by
  intro h
  obtain ⟨s, hs, hx⟩ : ∃ s, runEpisodes sample (.initial emptyChain) (forked ++ [afterFork]) = some s ∧
      (s.config.state.db.blockchainScanCursors.rows, chainOf s, marks s.config.trace) =
        ([⟨"base", 2⟩], [⟨"b0", []⟩, block1, ⟨"b2", []⟩], []) :=
    Option.map_eq_some_iff.mp (by decide)
  obtain ⟨hrows, hx⟩ := Prod.mk.inj hx
  obtain ⟨hchain, hmarks⟩ := Prod.mk.inj hx
  have hcur : ⟨"base", 2⟩ ∈ s.config.state.db.blockchainScanCursors := by
    rw [Data.Table.mem_def, hrows]
    exact List.mem_singleton_self _
  obtain ⟨pid, hpid⟩ := h emptyChain (fun _ h => absurd h List.not_mem_nil) forked _ _ s hs _ hcur rfl
    1 block1 (by rw [hchain]; rfl) (by decide) _ (List.mem_singleton_self _)
  have hmem := mem_marks hpid
  rw [hmarks] at hmem
  exact List.not_mem_nil hmem

set_option maxRecDepth 4000 in
/-- Without a fork the same two passes cover both blocks that they see. -/
theorem fork_coverage_extended : ∃ s,
    runEpisodes sample (.initial ⟨Db.empty, 0, [block0]⟩)
      ([.pass ((scanAnswers 0 block0.transfers).map .answer) .ok, .change (.other (.mine block1))] ++
        [.pass ((scanAnswers 1 block1.transfers).map .answer) .ok]) = some s ∧
      ∃ s₁, ChainReachable true oneOfEach sample s₁ ∧ ChainLeads true oneOfEach sample s₁ s ∧
        AsksFor s₁ 1 ∧ ∀ block, (chainOf s₁)[1]? = some block →
          ∀ t ∈ block.transfers, ∃ pid, Processed pid t s.config.trace := by
  obtain ⟨s, hs, hrows⟩ : ∃ s, runEpisodes sample (.initial ⟨Db.empty, 0, [block0]⟩)
      ([.pass ((scanAnswers 0 block0.transfers).map .answer) .ok, .change (.other (.mine block1))] ++
        [.pass ((scanAnswers 1 block1.transfers).map .answer) .ok]) = some s ∧
      s.config.state.db.blockchainScanCursors.rows = [⟨"base", 1⟩] :=
    Option.map_eq_some_iff.mp (by decide)
  have hcur : ⟨"base", 1⟩ ∈ s.config.state.db.blockchainScanCursors := by
    rw [Data.Table.mem_def, hrows]
    exact List.mem_singleton_self _
  exact ⟨s, hs, fork_coverage sample (fun _ h => absurd h List.not_mem_nil) hs _ hcur rfl 1 (le_refl _)⟩

end CryptoPay.Worker
