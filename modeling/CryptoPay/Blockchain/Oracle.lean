import CryptoPay.Blockchain.Adapter
import CryptoPay.Payments.Outline

/-!
# An adapter with arbitrary answers

`oracle` is a `BlockchainAdapter` whose calls are single requests, answered by
whatever `Answer` a run supplies: any block number, any transfers, any count,
a missing transaction or an error of the client. `accepts` restricts the
answers where a result is about an adapter that keeps a promise.
-/

namespace CryptoPay

open Async

/-- What an adapter call rejects with: `NotFoundError`, or an error of the
    underlying client. -/
inductive AdapterError where
  | notFound (message : String)
  | rpc
  deriving DecidableEq, Repr

/-- The error as the services see it. -/
def AdapterError.toError : AdapterError → Error
  | .notFound message => .notFound message
  | .rpc => .rpc

/-- A call of an asynchronous method of `BlockchainAdapter`. -/
inductive AdapterCall where
  | getLatestBlock
  | getTransaction (txHash : String)
  | getTokenTransfers (fromBlock toBlock : ℤ)
  | getConfirmations (txHash : String)
  deriving DecidableEq, Repr

/-- The adapter calls, with what they settle to. -/
def adapterCalls : Signature where
  Op := AdapterCall
  Ret
    | .getLatestBlock => Except AdapterError ℤ
    | .getTransaction _ => Except AdapterError (Option BlockchainTransaction)
    | .getTokenTransfers .. => Except AdapterError (List TokenTransfer)
    | .getConfirmations _ => Except AdapterError ℤ

/-- Await an adapter call. -/
def callAdapter {α : Type} (call : AdapterCall)
    (read : adapterCalls.Ret call → Except AdapterError α) : Action adapterCalls α :=
  .request (S := effects adapterCalls) (.other call) fun r => (read r).mapError AdapterError.toError

/-- The adapter whose calls are answered from outside. -/
def oracle (validateAddress : String → Bool) : BlockchainAdapter adapterCalls where
  validateAddress := validateAddress
  getLatestBlock := callAdapter .getLatestBlock id
  getTransaction txHash := callAdapter (.getTransaction txHash) id
  getTokenTransfers fromBlock toBlock := callAdapter (.getTokenTransfers fromBlock toBlock) id
  getConfirmations txHash := callAdapter (.getConfirmations txHash) id

/-- An answer to an adapter call. -/
inductive Answer where
  | latestBlock (r : Except AdapterError ℤ)
  | transaction (r : Except AdapterError (Option BlockchainTransaction))
  | tokenTransfers (r : Except AdapterError (List TokenTransfer))
  | confirmations (r : Except AdapterError ℤ)

/-- The answer as the result of a call, if it is one of its kind. -/
def AdapterCall.settle : (call : AdapterCall) → Answer → Option (adapterCalls.Ret call)
  | .getLatestBlock, .latestBlock r => some r
  | .getTransaction _, .transaction r => some r
  | .getTokenTransfers .., .tokenTransfers r => some r
  | .getConfirmations _, .confirmations r => some r
  | _, _ => none

/-- Adapter calls are answered by inputs that `accepts` permits; the state they
    are about changes by acts of the environment only. The clock may be set to
    anything. -/
def answering {ω η : Type} (accepts : ω → (call : AdapterCall) → adapterCalls.Ret call → Bool)
    (env : ω → η → Option ω) : Backend adapterCalls ω Answer η where
  respond _ _ o call i := (call.settle i).bind fun r =>
    if accepts o call r then some (r, o) else none
  env := env
  restarts _ := false
  tick _ _ := true

/-- Any answer at all. -/
def anyAnswer : Backend adapterCalls Unit Answer Empty :=
  answering (fun _ _ _ => true) fun _ act => nomatch act

/-! ## What an adapter call is known to have answered -/

namespace Ledger

variable {ω η κ : Type} {L : Ledger adapterCalls ω Answer η κ} {j : κ} {pid : ℕ}
  {P : History adapterCalls ω → Prop} {E : Error → History adapterCalls ω → Prop}
  {accepts : ω → (call : AdapterCall) → adapterCalls.Ret call → Bool} {env : ω → η → Option ω}

/-- Process `pid` has awaited the call and got the reply `r`. -/
def Answered (pid : ℕ) (call : AdapterCall) (r : adapterCalls.Ret call)
    (c : History adapterCalls ω) : Prop :=
  (⟨pid, .other call, r⟩ : Event (effects adapterCalls)) ∈ c.trace

theorem Answered.lasting {call : AdapterCall} {r : adapterCalls.Ret call} :
    Protocol.Lasting (Answered (ω := ω) pid call r) := fun _ _ h hr => h.mem hr

theorem answering_readOnly : (answering accepts env).ReadOnly := by
  intro pid t o call i r o' h
  obtain ⟨r', -, hr'⟩ := Option.bind_eq_some_iff.mp h
  split_ifs at hr'
  exact (congrArg Prod.snd (Option.some.inj hr')).symm

/-- An adapter call keeps `P`; it returns what was answered, or throws
    `NotFoundError` or the client's error. -/
theorem Fact.callAdapter (hP : L.Fact j pid P) (hB : L.backend = answering accepts env)
    (call : AdapterCall) {α : Type} (read : adapterCalls.Ret call → Except AdapterError α)
    (hE : ∀ e c, L.Inv c → P c → ¬ e.IsInvalidStateTransition → E e c) :
    L.protocol.Valid j pid P (callAdapter call read)
      (fun a c => P c ∧ ∃ r, read r = .ok a ∧ Answered pid call r c) E := by
  refine (hP.other (hB ▸ answering_readOnly) call (F := fun _ => True) fun _ _ => trivial).bind
    fun r => Protocol.Valid.ofExcept ?_ ?_
  · rintro a ha c - ⟨hp, before, hb, -⟩
    exact ⟨hp, r, ok_of_mapError ha, hb.mem List.mem_cons_self⟩
  · rintro e he c hI ⟨hp, -⟩
    obtain ⟨e', -, rfl⟩ := error_of_mapError he
    exact hE _ c hI hp (by cases e' <;> exact id)

end Ledger

end CryptoPay
