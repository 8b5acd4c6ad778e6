import CryptoPay.Async.System
import CryptoPay.Database.Prisma
import CryptoPay.Payments.Matching

/-!
# What the services await

`effects A` is the signature of everything that the modelled services await:
Prisma calls, the clock, generated ids, and the requests of a signature `A`
for whatever else the process talks to (a blockchain client, or the state that
the API process keeps in memory). `BlockchainAdapter A` is the interface of
`packages/blockchain/src/blockchain-adapter.ts` over `A`.

`machine B` answers these requests on a `World`: the database, the clock and
the state behind `A`, as the `Backend` `B` describes it. Any Prisma call may
fail with a lost connection, the clock may be set, and the tables may be
reordered at any time, because a `findMany` without `orderBy` returns rows in
no particular order.
-/

namespace CryptoPay

open Async

/-- `TokenTransfer` (blockchain-adapter.ts, lines 11–19). -/
structure TokenTransfer where
  txHash : String
  network : String
  token : String
  fromAddress : String
  toAddress : String
  amount : Decimal
  blockNumber : ℤ
  deriving DecidableEq, Repr

/-- A transfer as the matcher sees it. -/
def TokenTransfer.detected (t : TokenTransfer) : DetectedTransfer :=
  ⟨t.network, t.token, t.toAddress⟩

/-- Points of the code that the trace records besides its requests; they have
    no effect. -/
inductive Mark where
  /-- The transfer is about to be passed to `tryMatchTransfer`. -/
  | passed (transfer : TokenTransfer)
  /-- `tryMatchTransfer` has completed normally on the transfer. -/
  | processed (transfer : TokenTransfer)
  deriving DecidableEq, Repr

/-- A request of a service. -/
inductive Op (A : Signature) where
  | prisma (call : PrismaCall)
  /-- `Date.now()` or `new Date()`. -/
  | now
  /-- `generateId(prefix)` (packages/shared/src/ids.ts). -/
  | generateId (stem : String)
  /-- `generateFakeAddress()` (fake-blockchain-adapter.ts, lines 7–9). -/
  | generateFakeAddress
  /-- The default of a column `@default(cuid())`. -/
  | cuid
  | mark (m : Mark)
  | other (op : A.Op)

/-- The requests of a service, with their replies. -/
def effects (A : Signature) : Signature where
  Op := Op A
  Ret
    | .prisma call => Except Error call.Ret
    | .now => Time
    | .generateId _ => String
    | .generateFakeAddress => String
    | .cuid => String
    | .mark _ => Unit
    | .other op => A.Ret op

/-- An asynchronous function of a service. -/
abbrev Action (A : Signature) (α : Type) := Prog (effects A) Error α

variable {A : Signature}

/-- `await prisma.…`. -/
def prisma (call : PrismaCall) : Action A call.Ret :=
  .request (S := effects A) (.prisma call) id

/-- `Date.now()`. -/
def dateNow : Action A Time := .perform (S := effects A) .now

/-- `generateId(prefix)`. -/
def generateId (stem : String) : Action A String := .perform (S := effects A) (.generateId stem)

/-- `generateFakeAddress()`. -/
def generateFakeAddress : Action A String := .perform (S := effects A) .generateFakeAddress

/-- `cuid()`. -/
def cuid : Action A String := .perform (S := effects A) .cuid

/-- Record a mark in the trace. -/
def mark (m : Mark) : Action A Unit := .perform (S := effects A) (.mark m)

/-- `prisma.$transaction([...])`, and single writes. -/
def transaction (writes : List Write) : Action A Unit := prisma (.transaction writes)

/-- `assertInvoiceTransition` inside an asynchronous function. -/
def assertInvoice (source target : InvoiceStatus) : Action A Unit :=
  .ofExcept (assertInvoiceTransition source target)

/-- `assertPaymentTransition` inside an asynchronous function. -/
def assertPayment (source target : PaymentStatus) : Action A Unit :=
  .ofExcept (assertPaymentTransition source target)

/-- What settles to a result is not touched by translating errors. -/
theorem ok_of_mapError {ε ε' α : Type} {f : ε → ε'} {x : Except ε α} {a : α}
    (h : x.mapError f = .ok a) : x = .ok a := by
  cases x with
  | ok a' => cases h; rfl
  | error e => cases h

theorem error_of_mapError {ε ε' α : Type} {f : ε → ε'} {x : Except ε α} {e : ε'}
    (h : x.mapError f = .error e) : ∃ e₀, x = .error e₀ ∧ e = f e₀ := by
  cases x with
  | ok a => cases h
  | error e₀ => cases h; exact ⟨e₀, rfl, rfl⟩

/-- `TransactionStatus` (blockchain-adapter.ts, line 3). -/
inductive TransactionStatus where
  | pending | success | failed
  deriving DecidableEq, Repr

/-- `BlockchainTransaction` (blockchain-adapter.ts, lines 5–9). -/
structure BlockchainTransaction where
  txHash : String
  blockNumber : ℤ
  status : TransactionStatus
  deriving DecidableEq, Repr

/-- `BlockchainAdapter` (blockchain-adapter.ts, lines 36–43). -/
structure BlockchainAdapter (A : Signature) where
  validateAddress : String → Bool
  getLatestBlock : Action A ℤ
  getTransaction : String → Action A (Option BlockchainTransaction)
  getTokenTransfers : (fromBlock toBlock : ℤ) → Action A (List TokenTransfer)
  getConfirmations : String → Action A ℤ

/-! ## The world that answers -/

/-- The database, the clock and the state behind `A`. -/
structure World (ω : Type) where
  db : Db
  clock : Time
  other : ω

/-- What a request leaves open. -/
inductive Input (ι : Type) where
  | ok
  /-- The Prisma call does not reach the database. -/
  | connectionError
  /-- The random part of a generated id or address. -/
  | id (suffix : String)
  | other (i : ι)

/-- What may happen between requests. -/
inductive Act (η : Type) where
  | clock (t : Time)
  | reorderInvoices (rows : List Invoice)
  | reorderPayments (rows : List Payment)
  | other (e : η)

/-- How the requests of `A` are answered, and how the clock may move. -/
structure Backend (A : Signature) (ω ι η : Type) where
  respond : ℕ → Time → ω → (op : A.Op) → ι → Option (A.Ret op × ω)
  env : ω → η → Option ω
  restarts : η → Bool
  tick : Time → Time → Bool

variable {ω ι η : Type}

/-- The requests of `A` read the state behind it and do not change it. -/
def Backend.ReadOnly (B : Backend A ω ι η) : Prop :=
  ∀ pid t o op i r o', B.respond pid t o op i = some (r, o') → o' = o

/-- The reply to a request, and the world after it. -/
def respond (B : Backend A ω ι η) (pid : ℕ) (w : World ω) :
    (op : Op A) → Input ι → Option ((effects A).Ret op × World ω)
  | .prisma call, .ok =>
    some ((call.exec w.clock w.db).1, { w with db := (call.exec w.clock w.db).2 })
  | .prisma _, .connectionError => some (.error (.prisma .connection), w)
  | .now, .ok => some (w.clock, w)
  | .generateId stem, .id suffix => some (stem ++ "_" ++ suffix, w)
  | .generateFakeAddress, .id digits => some ("0x" ++ digits, w)
  | .cuid, .id s => some (s, w)
  | .mark _, .ok => some ((), w)
  | .other op, .other i =>
    (B.respond pid w.clock w.other op i).map fun (r, other) => (r, { w with other := other })
  | _, _ => none

/-- An act of the environment. -/
def environment (B : Backend A ω ι η) (w : World ω) : Act η → Option (World ω)
  | .clock t => if B.tick w.clock t then some { w with clock := t } else none
  | .reorderInvoices rows =>
    if h : rows.Perm w.db.invoices.rows then
      some { w with db := { w.db with invoices := w.db.invoices.reorder rows h } }
    else none
  | .reorderPayments rows =>
    if h : rows.Perm w.db.payments.rows then
      some { w with db := { w.db with payments := w.db.payments.reorder rows h } }
    else none
  | .other e => (B.env w.other e).map fun other => { w with other := other }

/-- The machine that the services run on. -/
def machine (B : Backend A ω ι η) : Machine (effects A) (World ω) (Input ι) (Act η) where
  respond := respond B
  env := environment B
  restarts
    | .other e => B.restarts e
    | _ => false

/-! ## What one reply can be -/

section Replies

variable {B : Backend A ω ι η} {pid : ℕ} {w w' : World ω} {i : Input ι}

/-- A Prisma call is executed, or fails and changes nothing. -/
theorem respond_prisma {call : PrismaCall} {r : Except Error call.Ret}
    (h : respond B pid w (.prisma call) i = some (r, w')) :
    (r = (call.exec w.clock w.db).1 ∧ w' = { w with db := (call.exec w.clock w.db).2 }) ∨
      (r = .error (.prisma .connection) ∧ w' = w) := by
  cases i with
  | ok => cases h; exact .inl ⟨rfl, rfl⟩
  | connectionError => cases h; exact .inr ⟨rfl, rfl⟩
  | id s => cases h
  | other i => cases h

/-- A transaction commits all its writes, or fails and changes nothing. -/
theorem respond_transaction {writes : List Write} {r : Except Error Unit}
    (h : respond B pid w (.prisma (.transaction writes)) i = some (r, w')) :
    (∃ db, w.db.transaction w.clock writes = .ok db ∧ r = .ok () ∧ w' = { w with db := db }) ∨
      (∃ code, r = .error (.prisma code)) ∧ w' = w := by
  rcases respond_prisma h with ⟨hr, hw⟩ | ⟨hr, hw⟩
  · simp only [PrismaCall.exec] at hr hw
    cases ht : w.db.transaction w.clock writes with
    | ok db =>
      rw [ht] at hr hw
      exact .inl ⟨db, rfl, hr, hw⟩
    | error e =>
      rw [ht] at hr hw
      obtain ⟨code, rfl⟩ := transaction_error ht
      exact .inr ⟨⟨code, hr⟩, hw⟩
  · exact .inr ⟨⟨_, hr⟩, hw⟩

/-- `invoice.create` is a transaction of one write. -/
theorem respond_invoiceCreate {d : InvoiceCreateInput} {r : Except Error Invoice}
    (h : respond B pid w (.prisma (.invoiceCreate d)) i = some (r, w')) :
    (∃ db, w.db.transaction w.clock [.invoiceCreate d] = .ok db ∧ r = .ok (d.row w.clock) ∧
        w' = { w with db := db }) ∨
      (∃ code, r = .error (.prisma code)) ∧ w' = w := by
  rcases respond_prisma h with ⟨hr, hw⟩ | ⟨hr, hw⟩
  · simp only [PrismaCall.exec] at hr hw
    cases ht : Write.apply w.clock w.db (.invoiceCreate d) with
    | ok db =>
      rw [ht] at hr hw
      exact .inl ⟨db, transaction_singleton ht, hr, hw⟩
    | error e =>
      rw [ht] at hr hw
      obtain ⟨code, rfl⟩ := apply_error ht
      exact .inr ⟨⟨code, hr⟩, hw⟩
  · exact .inr ⟨⟨_, hr⟩, hw⟩

theorem respond_now {t : Time} (h : respond B pid w .now i = some (t, w')) :
    t = w.clock ∧ w' = w := by
  cases i <;> cases h
  exact ⟨rfl, rfl⟩

theorem respond_generateId {stem s : String}
    (h : respond B pid w (.generateId stem) i = some (s, w')) : w' = w := by
  cases i <;> cases h
  rfl

theorem respond_generateFakeAddress {s : String}
    (h : respond B pid w .generateFakeAddress i = some (s, w')) : w' = w := by
  cases i <;> cases h
  rfl

theorem respond_cuid {s : String} (h : respond B pid w .cuid i = some (s, w')) : w' = w := by
  cases i <;> cases h
  rfl

theorem respond_mark {m : Mark} {u : Unit} (h : respond B pid w (.mark m) i = some (u, w')) :
    w' = w := by
  cases i <;> cases h
  rfl

theorem respond_other {op : A.Op} {r : A.Ret op}
    (h : respond B pid w (.other op) i = some (r, w')) :
    ∃ k o, B.respond pid w.clock w.other op k = some (r, o) ∧ w' = { w with other := o } := by
  cases i with
  | other k =>
    have h' : (B.respond pid w.clock w.other op k).map
        (fun x => (x.1, { w with other := x.2 })) = some (r, w') := h
    obtain ⟨⟨r', o⟩, ho, heq⟩ := Option.map_eq_some_iff.mp h'
    cases heq
    exact ⟨k, o, ho, rfl⟩
  | ok => cases h
  | connectionError => cases h
  | id s => cases h

/-- If the requests of `A` only read, no request changes the state behind it. -/
theorem respond_readOnly (hB : B.ReadOnly) {op : Op A} {r : (effects A).Ret op}
    (h : respond B pid w op i = some (r, w')) : w'.other = w.other := by
  cases op with
  | prisma call => rcases respond_prisma h with ⟨-, rfl⟩ | ⟨-, rfl⟩ <;> rfl
  | now => rw [(respond_now h).2]
  | generateId stem => rw [respond_generateId h]
  | generateFakeAddress => rw [respond_generateFakeAddress h]
  | cuid => rw [respond_cuid h]
  | mark m => rw [respond_mark h]
  | other op =>
    obtain ⟨k, o, ho, rfl⟩ := respond_other h
    exact hB _ _ _ _ _ _ _ ho

/-- The environment moves the clock and the rows. -/
theorem environment_keeps {act : Act η} (h : environment B w act = some w') :
    (∀ i, i ∈ w'.db.invoices ↔ i ∈ w.db.invoices) ∧
      w'.db.merchantWalletAddresses = w.db.merchantWalletAddresses := by
  cases act with
  | clock t =>
    simp only [environment] at h
    split_ifs at h
    cases h
    exact ⟨fun _ => Iff.rfl, rfl⟩
  | reorderInvoices rows =>
    simp only [environment] at h
    split_ifs at h with hperm
    cases h
    exact ⟨fun _ => Data.Table.mem_reorder (h := hperm), rfl⟩
  | reorderPayments rows =>
    simp only [environment] at h
    split_ifs at h
    cases h
    exact ⟨fun _ => Iff.rfl, rfl⟩
  | other e =>
    obtain ⟨o, -, rfl⟩ := Option.map_eq_some_iff.mp h
    exact ⟨fun _ => Iff.rfl, rfl⟩

end Replies

end CryptoPay
