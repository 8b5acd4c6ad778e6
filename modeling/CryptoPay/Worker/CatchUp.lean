import CryptoPay.Blockchain.Node
import CryptoPay.Payments.CalmMatching
import CryptoPay.Worker.ScanPass

/-!
# How far behind the scan worker may be

A pass asks for all blocks above the cursor at once, one `getLogs` call for each
token. Here the node serves such a call for at most `R` blocks and rejects longer
ranges; apart from that it works. Between the passes the chain grows, and everything
but the cursors may change.

Results:
* `Scan.served`: a pass that is at most `R` blocks behind brings the cursor to the
  head and processes every transfer in between.
* `Scan.rejected`: a pass that is further behind throws and leaves the cursor.
* `scan_catches_up`: so the first pass decides; a scanner more than `R` blocks
  behind stays where it is.
-/

namespace CryptoPay.Worker

open Async Data

/-! ## The node -/

/-- A log query for at most `R` blocks, or another call. -/
def withinRange (R : ℕ) : RpcCall → Bool
  | .getLogs _ fromBlock toBlock => toBlock - fromBlock + 1 ≤ R
  | _ => true

/-- A node that answers exactly these calls. -/
def rangeLimited (R : ℕ) : Backend rpcCalls Evm.Chain Unit Empty where
  respond _ _ chain call _ :=
    some (chain.answer call (if withinRange R call then .answer else .fail), chain)
  env _ act := act.elim
  restarts act := act.elim
  tick _ _ := true

/-- The transfers of the tokens that the blocks `a … b` contain. -/
def reported (network : String) (chain : Evm.Chain) (a b : ℤ)
    (tokens : List (String × TokenConfig)) : List TokenTransfer :=
  tokens.flatMap fun x =>
    (chain.logs x.2.contractAddress a b).filterMap (Evm.tokenTransfer network x.1 x.2)

/-- A complete pass against this node. -/
abbrev Scan (R pid : ℕ) (isAddress : String → Bool) (network : String) (w : World Evm.Chain)
    (evs : List (Event (effects rpcCalls))) (x : Except Error Unit) (w' : World Evm.Chain) : Prop :=
  Runs (calm (rangeLimited R)) pid (runBlockchainScan (Evm.adapter isAddress network) network)
    w evs x w'

/-- `lastScannedBlock`; `-1` if the network has no cursor yet. -/
def lastScanned (network : String) (db : Db) : ℤ :=
  ((db.blockchainScanCursors.find? network).map BlockchainScanCursor.lastScannedBlock).getD (-1)

/-- How many blocks the cursor is behind the head. -/
def gap (network : String) (w : World Evm.Chain) : ℤ := w.other.head - lastScanned network w.db

/-- Every amount that the next pass writes fits its column. -/
structure Storable (network : String) (w : World Evm.Chain) : Prop where
  invoices : ∀ i ∈ w.db.invoices, i.amount.fitsColumn = true
  transfers : ∀ t ∈ reported network w.other (lastScanned network w.db + 1) w.other.head
    (getTokensForNetwork network), t.amount.fitsColumn = true

/-- Every transfer above the cursor has been through `tryMatchTransfer`. -/
def AllScanned (pid : ℕ) (network : String) (w : World Evm.Chain)
    (evs : List (Event (effects rpcCalls))) : Prop :=
  ∀ t ∈ reported network w.other (lastScanned network w.db + 1) w.other.head
    (getTokensForNetwork network),
      (⟨pid, .mark (.passed t), ()⟩ : Event (effects rpcCalls)) ∈ evs ∧
      (⟨pid, .mark (.processed t), ()⟩ : Event (effects rpcCalls)) ∈ evs

/-- Any number of passes, one after the other. In between, everything but the cursors may
    change, and the chain grows. -/
inductive Passes (R : ℕ) (isAddress : String → Bool) (network : String) (w : World Evm.Chain) :
    World Evm.Chain → Prop where
  | refl : Passes R isAddress network w w
  | pass {w₁ w' : World Evm.Chain} {pid : ℕ} {evs : List (Event (effects rpcCalls))}
      {x : Except Error Unit} (h : Passes R isAddress network w w₁)
      (hscan : Scan R pid isAddress network w₁ evs x w') : Passes R isAddress network w w'
  | meanwhile {w₁ w' : World Evm.Chain} (h : Passes R isAddress network w w₁)
      (hcursors : w'.db.blockchainScanCursors = w₁.db.blockchainScanCursors)
      (hchain : w₁.other <+: w'.other) : Passes R isAddress network w w'

variable {R pid : ℕ} {isAddress : String → Bool} {network : String} {w w₁ w' : World Evm.Chain}
  {evs : List (Event (effects rpcCalls))} {x : Except Error Unit} {a b : ℤ}
  {tokens : List (String × TokenConfig)}

theorem rangeLimited_readOnly : (rangeLimited R).ReadOnly := by
  intro pid t o op i r o' h
  exact (congrArg Prod.snd (Option.some.inj h)).symm

theorem rangeLimited_total (pid : ℕ) (t : Time) (o : Evm.Chain) (call : RpcCall) :
    ∃ k y, (rangeLimited R).respond pid t o call k = some y := ⟨(), _, rfl⟩

/-- A client call gets the node's answer. -/
theorem awaitRpc_returns {α : Type} {call : RpcCall} {read : rpcCalls.Ret call → Except RpcError α}
    {x : Except Error α} (h : Runs (calm (rangeLimited R)) pid (awaitRpc call read) w evs x w') :
    x = (read (w.other.answer call (if withinRange R call then .answer else .fail))).mapError
      (fun _ => .rpc) ∧ Later w w' := by
  obtain ⟨t, k, r, hr, rfl, hlater, -⟩ := calm_other (rangeLimited_readOnly · · · _) h
  obtain ⟨rfl, -⟩ := Prod.mk.inj (Option.some.inj hr)
  exact ⟨rfl, hlater⟩

theorem getLatestBlock_returns {x : Except Error ℤ}
    (h : Runs (calm (rangeLimited R)) pid Evm.getLatestBlock w evs x w') :
    x = .ok w.other.head ∧ Later w w' :=
  awaitRpc_returns h

/-- Ranges that the node serves. -/
theorem transfersOf_served (hrange : b - a + 1 ≤ R) {x : Except Error (List TokenTransfer)}
    (h : Runs (calm (rangeLimited R)) pid (Evm.transfersOf network a b tokens) w evs x w') :
    x = .ok (reported network w.other a b tokens) ∧ Later w w' := by
  induction tokens generalizing w w' evs x with
  | nil =>
    obtain ⟨-, rfl, hd⟩ := Runs.ret_inv h
    exact ⟨rfl, calm_drifts hd⟩
  | cons token tokens ih =>
    have hserved : withinRange R (.getLogs token.2.contractAddress a b) = true :=
      decide_eq_true hrange
    have hlogs : ∀ {y w₁ evs}, Runs (calm (rangeLimited R)) pid
        (awaitRpc (.getLogs token.2.contractAddress a b) id) w evs y w₁ →
        y = .ok (w.other.logs token.2.contractAddress a b) ∧ Later w w₁ := by
      intro y w₁ evs hrun
      obtain ⟨rfl, hlater⟩ := awaitRpc_returns hrun
      rw [hserved]
      exact ⟨rfl, hlater⟩
    obtain ⟨logs, w₁, _, _, -, hcall, hrest⟩ := Runs.bind_returns h fun _ _ _ hrun =>
      ⟨_, (hlogs hrun).1⟩
    obtain ⟨hx, hlater⟩ := hlogs hcall
    obtain rfl := Except.ok.inj hx
    obtain ⟨transfers, w₂, _, _, -, htokens, hreturn⟩ := hrest.bind_returns fun _ _ _ hrun =>
      ⟨_, (ih hrun).1⟩
    obtain ⟨hx, hlater'⟩ := ih htokens
    obtain rfl := Except.ok.inj hx
    obtain ⟨-, rfl, hd⟩ := hreturn.ret_inv
    rw [hlater.other]
    exact ⟨rfl, (hlater.trans hlater').trans (calm_drifts hd)⟩

/-- Longer ranges. -/
theorem transfersOf_rejected (hrange : R < b - a + 1) (htokens : tokens ≠ [])
    {x : Except Error (List TokenTransfer)}
    (h : Runs (calm (rangeLimited R)) pid (Evm.transfersOf network a b tokens) w evs x w') :
    x = .error .rpc ∧ Later w w' := by
  cases tokens with
  | nil => exact absurd rfl htokens
  | cons token tokens =>
    have hrefused : withinRange R (.getLogs token.2.contractAddress a b) = false :=
      decide_eq_false (not_le.mpr hrange)
    rcases Runs.bind_inv h with ⟨logs, w₁, _, _, -, hcall, -⟩ | ⟨e, rfl, hcall⟩
    · obtain ⟨hx, -⟩ := awaitRpc_returns hcall
      rw [hrefused] at hx
      cases hx
    · obtain ⟨hx, hlater⟩ := awaitRpc_returns hcall
      rw [hrefused] at hx
      exact ⟨congrArg Except.error (Except.error.inj hx), hlater⟩

/-! ## The cursor -/

/-- The upsert returns the cursor that is stored after it. -/
theorem upsertCursor_stored (db : Db) (network : String) :
    (db.upsertCursor network).2.blockchainScanCursors.find? network =
        some (db.upsertCursor network).1 ∧
      (db.upsertCursor network).1.lastScannedBlock = lastScanned network db := by
  unfold Db.upsertCursor lastScanned
  cases hfind : db.blockchainScanCursors.find? network with
  | some c => exact ⟨hfind, rfl⟩
  | none =>
    obtain ⟨t, ht⟩ : ∃ t, db.blockchainScanCursors.insert? ⟨network, -1⟩ = some t := by
      refine ⟨_, dif_neg fun hmem => ?_⟩
      obtain ⟨c, hc, hnetwork⟩ := List.mem_map.mp hmem
      exact Table.find?_eq_none_iff.mp hfind c hc hnetwork
    simp only [ht]
    exact ⟨Table.find?_eq_some_iff.mpr ⟨((Table.insert?_eq_some ht).2 _).2 (.inl rfl), rfl⟩, rfl⟩

theorem lastScanned_eq {db : Db} {c : BlockchainScanCursor}
    (h : db.blockchainScanCursors.find? network = some c) :
    lastScanned network db = c.lastScannedBlock := by
  unfold lastScanned
  rw [h]
  rfl

/-- A cursor that exists is moved. -/
theorem cursorUpdate_stored {db : Db} {c : BlockchainScanCursor} (now : Time) (n : ℤ)
    (hc : db.blockchainScanCursors.find? network = some c) :
    ∃ db', db.transaction now [.blockchainScanCursorUpdate network n] = .ok db' ∧
      db'.blockchainScanCursors.find? network = some { c with lastScannedBlock := n } := by
  obtain ⟨hmem, hnetwork⟩ := Table.find?_eq_some_iff.mp hc
  let move (cursor : BlockchainScanCursor) := { cursor with lastScannedBlock := n }
  have hmove : ∀ cursor, (move cursor).network = cursor.network := fun _ => rfl
  refine ⟨{ db with blockchainScanCursors := db.blockchainScanCursors.modify network move hmove },
    ?_, ?_⟩
  · simp only [Db.transaction, List.foldlM_cons, Write.apply, hc]
    rfl
  · have hmoved := Table.mem_modify_of_mem (k := network) (f := move) hmem hmove
    rw [if_pos hnetwork] at hmoved
    exact Table.find?_eq_some_iff.mpr ⟨hmoved, hnetwork⟩

section Cursor

variable {A : Signature} {ω ι : Type} {B : Backend A ω ι Empty} {w w' : World ω}
  {evs : List (Event (effects A))}

theorem cursorUpsert_returns {x : Except Error BlockchainScanCursor}
    (h : Runs (calm B) pid (prisma (.blockchainScanCursorUpsert network)) w evs x w') :
    ∃ c, x = .ok c ∧ c.lastScannedBlock = lastScanned network w.db ∧
      w'.db.blockchainScanCursors.find? network = some c ∧ w.db.SameRows w'.db ∧
      w'.other = w.other := by
  obtain ⟨w₁, i, r, w₂, hd, hr, -, rfl, hd'⟩ := h.request_inv
  obtain ⟨rfl, rfl⟩ := calm_respond_prisma hr
  have hlater := calm_drifts hd
  have hlater' := calm_drifts hd'
  obtain ⟨hstored, hlast⟩ := upsertCursor_stored w₁.db network
  refine ⟨_, rfl, hlast.trans ?_, ?_, ?_, hlater'.other.trans hlater.other⟩
  · unfold lastScanned
    rw [hlater.cursors]
  · rw [hlater'.cursors]
    exact hstored
  · exact (hlater.rows.trans (upsertCursor_sameRows w₁.db network)).trans hlater'.rows

theorem cursorUpdate_returns {c : BlockchainScanCursor} {n : ℤ}
    (hc : w.db.blockchainScanCursors.find? network = some c) {x : Except Error Unit}
    (h : Runs (calm B) pid (transaction [.blockchainScanCursorUpdate network n]) w evs x w') :
    x = .ok () ∧ lastScanned network w'.db = n ∧ w'.other = w.other := by
  obtain ⟨w₁, i, r, w₂, hd, hr, -, rfl, hd'⟩ := h.request_inv
  obtain ⟨rfl, rfl⟩ := calm_respond_prisma hr
  have hlater := calm_drifts hd
  have hlater' := calm_drifts hd'
  rw [← hlater.cursors] at hc
  obtain ⟨db', hdb', hstored⟩ := cursorUpdate_stored w₁.clock n hc
  simp only [PrismaCall.exec, hdb'] at hlater' ⊢
  refine ⟨rfl, ?_, hlater'.other.trans hlater.other⟩
  rw [← hlater'.cursors] at hstored
  exact lastScanned_eq hstored

end Cursor

/-! ## One pass -/

/-- There is nothing in an empty range. -/
theorem reported_empty {chain : Evm.Chain} (h : b < a) : reported network chain a b tokens = [] := by
  have hlogs : ∀ contract, chain.logs contract a b = [] := by
    intro contract
    refine List.eq_nil_iff_forall_not_mem.mpr fun log hlog => ?_
    obtain ⟨x, hx, -⟩ := List.mem_flatMap.mp hlog
    have hrange := (List.mem_filter.mp hx).2
    simp only [decide_eq_true_eq] at hrange
    omega
  unfold reported
  refine List.flatMap_eq_nil_iff.mpr fun token _ => ?_
  rw [hlogs]
  rfl

/-- Up to the log query: the cursor, and the head. -/
theorem Scan.start (h : Scan R pid isAddress network w evs x w') :
    ∃ c w₁ evs', evs' <:+ evs ∧ c.lastScannedBlock = lastScanned network w.db ∧
      w₁.db.blockchainScanCursors.find? network = some c ∧ w.db.SameRows w₁.db ∧
      w₁.other = w.other ∧
      Runs (calm (rangeLimited R)) pid (if w.other.head < c.lastScannedBlock + 1 then .ret () else
        scanBlocks (Evm.adapter isAddress network) network (c.lastScannedBlock + 1) w.other.head)
        w₁ evs' x w' := by
  obtain ⟨c, w₁, evs₁, evs₂, rfl, hcursor, hrest⟩ := Runs.bind_returns h fun _ _ _ hrun => by
    obtain ⟨c, hx, -⟩ := cursorUpsert_returns hrun
    exact ⟨c, hx⟩
  obtain ⟨_, hx, hlast, hstored, hrows, hother⟩ := cursorUpsert_returns hcursor
  obtain rfl := Except.ok.inj hx
  obtain ⟨head, w₂, evs₃, evs', rfl, hhead, hpass⟩ := hrest.bind_returns fun _ _ _ hrun =>
    ⟨_, (getLatestBlock_returns hrun).1⟩
  obtain ⟨hx, hlater⟩ := getLatestBlock_returns hhead
  obtain rfl := Except.ok.inj hx
  rw [← hlater.cursors] at hstored
  have hsuffix : evs' <:+ evs₁ ++ (evs₃ ++ evs') :=
    (List.suffix_append _ _).trans (List.suffix_append _ _)
  refine ⟨c, w₂, evs', hsuffix, hlast, hstored, hrows.trans hlater.rows,
    hlater.other.trans hother, ?_⟩
  rw [← hother]
  exact hpass

/-- A pass that is at most `R` blocks behind. -/
theorem Scan.served (h : Scan R pid isAddress network w evs x w') (hgap : gap network w ≤ R)
    (hs : Storable network w) :
    x = .ok () ∧ lastScanned network w'.db = max (lastScanned network w.db) w.other.head ∧
      w'.other = w.other ∧ AllScanned pid network w evs := by
  obtain ⟨c, w₁, evs', hsuffix, hlast, hstored, hrows, hother, h⟩ := h.start
  unfold AllScanned
  unfold gap at hgap
  obtain ⟨hinvoices, htransfers⟩ := hs
  rw [← hlast] at hgap htransfers ⊢
  split_ifs at h with hnew
  · obtain ⟨-, rfl, hd⟩ := h.ret_inv
    have hlater := calm_drifts hd
    rw [← hlater.cursors] at hstored
    refine ⟨rfl, ?_, hlater.other.trans hother, fun t ht => ?_⟩
    · rw [lastScanned_eq hstored]
      omega
    · rw [reported_empty hnew] at ht
      exact absurd ht List.not_mem_nil
  have hrange : w.other.head - (c.lastScannedBlock + 1) + 1 ≤ R := by omega
  obtain ⟨transfers, w₂, evs₂, evs₃, rfl, hlogs, hrest⟩ := Runs.bind_returns h fun _ _ _ hrun =>
    ⟨_, (transfersOf_served hrange hrun).1⟩
  obtain ⟨hx, hlater⟩ := transfersOf_served hrange hlogs
  obtain rfl := Except.ok.inj hx
  rw [hother] at hrest
  have hfits : ∀ i ∈ w₂.db.invoices, i.amount.fitsColumn = true := by
    intro i hi
    exact hinvoices i ((hrows.invoices i).1 ((hlater.rows.invoices i).1 hi))
  obtain ⟨⟨⟩, w₃, evs₄, evs₅, rfl, hmatch, hupdate⟩ := hrest.bind_returns fun _ _ _ hrun =>
    ⟨(), (matchTransfers_returns htransfers hfits hrun).1⟩
  obtain ⟨-, hbeside, hmarks⟩ := matchTransfers_returns htransfers hfits hmatch
  rw [← hlater.cursors, ← hbeside.cursors] at hstored
  obtain ⟨rfl, hmoved, hsame⟩ := cursorUpdate_returns hstored hupdate
  refine ⟨rfl, ?_, hsame.trans (hbeside.other.trans (hlater.other.trans hother)), fun t ht => ?_⟩
  · rw [hmoved]
    omega
  · have hmem : evs₄ ⊆ evs := fun ev hev =>
      hsuffix.mem (List.mem_append_right _ (List.mem_append_left _ hev))
    exact ⟨hmem (hmarks t ht).1, hmem (hmarks t ht).2⟩

/-- A pass that is further behind. -/
theorem Scan.rejected (h : Scan R pid isAddress network w evs x w') (hgap : R < gap network w)
    (htokens : getTokensForNetwork network ≠ []) :
    x = .error .rpc ∧ lastScanned network w'.db = lastScanned network w.db ∧
      w.db.SameRows w'.db ∧ w'.other = w.other := by
  obtain ⟨c, w₁, evs', -, hlast, hstored, hrows, hother, h⟩ := h.start
  unfold gap at hgap
  rw [← hlast] at hgap ⊢
  rw [if_neg (by omega)] at h
  have hrange : R < w.other.head - (c.lastScannedBlock + 1) + 1 := by omega
  have hlogs : ∀ {y w₂ evs}, Runs (calm (rangeLimited R)) pid (Evm.getTokenTransfers network
      (c.lastScannedBlock + 1) w.other.head) w₁ evs y w₂ → y = .error .rpc ∧ Later w₁ w₂ :=
    transfersOf_rejected hrange htokens
  rcases Runs.bind_inv h with ⟨transfers, w₂, _, _, -, hcall, -⟩ | ⟨e, rfl, hcall⟩
  · cases (hlogs hcall).1
  · obtain ⟨hx, hlater⟩ := hlogs hcall
    rw [← hlater.cursors] at hstored
    exact ⟨congrArg Except.error (Except.error.inj hx), lastScanned_eq hstored,
      hrows.trans hlater.rows, hlater.other.trans hother⟩

/-! ## Any number of passes -/

theorem head_le_of_prefix {chain chain' : Evm.Chain} (h : chain <+: chain') :
    chain.head ≤ chain'.head := by
  have hle := h.length_le
  unfold Evm.Chain.head
  omega

/-- A scanner that is more than `R` blocks behind stays where it is. -/
theorem Passes.stuck (h : Passes R isAddress network w w') (hgap : R < gap network w)
    (htokens : getTokensForNetwork network ≠ []) :
    lastScanned network w'.db = lastScanned network w.db ∧ R < gap network w' := by
  induction h with
  | refl => exact ⟨rfl, hgap⟩
  | pass _ hscan ih =>
    obtain ⟨hlast, hbehind⟩ := ih
    obtain ⟨-, hkept, -, hother⟩ := hscan.rejected hbehind htokens
    refine ⟨hkept.trans hlast, ?_⟩
    unfold gap at hbehind ⊢
    rwa [hkept, hother]
  | @meanwhile w₁ w' _ hcursors hchain ih =>
    obtain ⟨hlast, hbehind⟩ := ih
    have hkept : lastScanned network w'.db = lastScanned network w₁.db := by
      unfold lastScanned
      rw [hcursors]
    refine ⟨hkept.trans hlast, ?_⟩
    have hle := head_le_of_prefix hchain
    unfold gap at hbehind ⊢
    omega

/-- On a node that serves `getLogs` for at most `R` blocks, one pass brings a scanner that is
    at most `R` blocks behind to the head, with every transfer in between scanned. If it is
    further behind, its cursor stays where it is however many passes follow, and each of them
    throws. -/
theorem scan_catches_up (R : ℕ) (isAddress : String → Bool) (network : String)
    (w : World Evm.Chain) :
    (gap network w ≤ R → Storable network w → ∀ pid,
      (∃ evs x w', Scan R pid isAddress network w evs x w') ∧
      ∀ evs x w', Scan R pid isAddress network w evs x w' →
        x = .ok () ∧ lastScanned network w'.db = max (lastScanned network w.db) w.other.head ∧
          w'.other = w.other ∧ AllScanned pid network w evs) ∧
    (R < gap network w → getTokensForNetwork network ≠ [] → ∀ w',
      Passes R isAddress network w w' →
        lastScanned network w'.db = lastScanned network w.db ∧
        lastScanned network w'.db < w'.other.head ∧
        ∀ pid evs x w'', Scan R pid isAddress network w' evs x w'' → x = .error .rpc) := by
  refine ⟨fun hgap hs pid => ⟨?_, fun evs x w' hscan => hscan.served hgap hs⟩, ?_⟩
  · exact Prog.exists_runs (calm_total rangeLimited_total pid) _ w
  · intro hgap htokens w' h
    obtain ⟨hlast, hbehind⟩ := h.stuck hgap htokens
    refine ⟨hlast, ?_, fun pid evs x w'' hscan => (hscan.rejected hbehind htokens).1⟩
    unfold gap at hbehind
    omega

/-- A pending invoice over 49 USDC, no cursor, and this chain. -/
def firstStart (chain : Evm.Chain) : World Evm.Chain where
  db := { Db.empty with
    invoices := ⟨[pendingInvoice "inv_1" 4900000000 0], List.nodup_singleton _⟩ }
  clock := 1
  other := chain

/-- A block with the transfer of 49 USDC for it. -/
def payingBlock : Evm.Block :=
  [⟨"0x1", .success [⟨usdc.contractAddress, "0xB", "0xA", 49000000⟩]⟩]

/-- The transfer as the adapter reports it. -/
def payingTransfer : TokenTransfer := ⟨"0x1", "base", "USDC", "0xB", "0xA", ⟨4900000000⟩, 1⟩

theorem firstStart_storable : Storable "base" (firstStart [[], payingBlock]) where
  invoices i hi := by
    obtain rfl := List.mem_singleton.mp hi
    decide
  transfers := by decide

/-- With `R = 2`: a first start at the second block, and one at the third. -/
theorem scan_catches_up_firstStart :
    (∃ evs w', Scan 2 0 (fun _ => true) "base" (firstStart [[], payingBlock]) evs (.ok ()) w' ∧
      lastScanned "base" w'.db = 1 ∧
      (⟨0, .mark (.processed payingTransfer), ()⟩ : Event (effects rpcCalls)) ∈ evs) ∧
    ∀ w', Passes 2 (fun _ => true) "base" (firstStart [[], payingBlock, []]) w' →
      lastScanned "base" w'.db = -1 := by
  constructor
  · obtain ⟨⟨evs, x, w', hscan⟩, hall⟩ :=
      (scan_catches_up 2 (fun _ => true) "base" (firstStart [[], payingBlock])).1 (by decide)
        firstStart_storable 0
    obtain ⟨rfl, hlast, -, hscanned⟩ := hall evs x w' hscan
    exact ⟨evs, w', hscan, hlast, (hscanned payingTransfer (by decide)).2⟩
  · intro w' h
    exact ((scan_catches_up 2 (fun _ => true) "base" (firstStart [[], payingBlock, []])).2
      (by decide) (by decide) w' h).1

/-- A first start at the third block with `R = 2`: no number of passes brings the cursor to
    the head. -/
theorem scanner_stuck_at_first_start : ¬ ∃ w',
    Passes 2 (fun _ => true) "base" (firstStart [[], payingBlock, []]) w' ∧
      lastScanned "base" w'.db = w'.other.head := by
  rintro ⟨w', h, hhead⟩
  obtain ⟨-, hbehind⟩ := h.stuck (by decide) (by decide)
  unfold gap at hbehind
  omega

end CryptoPay.Worker
