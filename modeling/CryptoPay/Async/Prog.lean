import Mathlib.Data.Nat.Notation
import Mathlib.Data.Int.Notation
import Mathlib.Tactic.Common

/-!
# Programs that await typed requests

An asynchronous function is a tree: it returns, throws, or awaits one request
to the outside world and continues with the reply. Everything between two
awaits is a pure computation, so a tree has exactly the suspension points of
the function it models, and an interleaving of several functions is an
interleaving of their requests (`Async.System`).

`Prog S ε α` is the type of such trees over a signature `S` of requests, with
thrown errors in `ε` and results in `α`. It is a monad, so a model is written
in the order of its source; `attempt` is `try … catch`, `ensuring` is
`try … finally`, and `forEach` is a `for … of` loop whose body awaits.
-/

namespace CryptoPay.Async

/-- A set of requests, each with the type of its reply. -/
structure Signature where
  Op : Type
  Ret : Op → Type

/-- A function that awaits requests of `S`. -/
inductive Prog (S : Signature) (ε α : Type) : Type where
  | ret (a : α)
  | throw (e : ε)
  | await (op : S.Op) (next : S.Ret op → Prog S ε α)

namespace Prog

variable {S : Signature} {ε α β γ : Type}

/-- Sequencing: `next` runs on the result; an error skips it. -/
def bind : Prog S ε α → (α → Prog S ε β) → Prog S ε β
  | .ret a, next => next a
  | .throw e, _ => .throw e
  | .await op k, next => .await op fun r => (k r).bind next

instance : Monad (Prog S ε) where
  pure := .ret
  bind := bind

@[simp] theorem ret_bind (a : α) (next : α → Prog S ε β) : (ret a >>= next) = next a := rfl

@[simp] theorem throw_bind (e : ε) (next : α → Prog S ε β) :
    ((throw e : Prog S ε α) >>= next) = .throw e := rfl

@[simp] theorem await_bind (op : S.Op) (k : S.Ret op → Prog S ε α) (next : α → Prog S ε β) :
    (await op k >>= next) = .await op fun r => k r >>= next := rfl

theorem bind_assoc (p : Prog S ε α) (f : α → Prog S ε β) (g : β → Prog S ε γ) :
    (p >>= f) >>= g = p >>= fun a => f a >>= g := by
  induction p with
  | ret a => rfl
  | throw e => rfl
  | await op k ih => simp only [await_bind, ih]

theorem bind_ret (p : Prog S ε α) : (p >>= fun a => .ret a) = p := by
  induction p with
  | ret a => rfl
  | throw e => rfl
  | await op k ih => exact congrArg (await op) (funext ih)

/-- A result or an error, without awaiting. -/
def ofExcept : Except ε α → Prog S ε α
  | .ok a => .ret a
  | .error e => .throw e

/-- Await one request and return its reply. -/
def perform (op : S.Op) : Prog S ε (S.Ret op) := .await op .ret

/-- Await a request whose reply is a result or an error, and throw the error. -/
def request (op : S.Op) (read : S.Ret op → Except ε α) : Prog S ε α :=
  .await op fun r => ofExcept (read r)

/-- `try p catch (e) …`: the outcome of `p` as a value. -/
def attempt : Prog S ε α → Prog S ε (Except ε α)
  | .ret a => .ret (.ok a)
  | .throw e => .ret (.error e)
  | .await op k => .await op fun r => (k r).attempt

/-- `try { p } finally { cleanup }`. -/
def ensuring (p : Prog S ε α) (cleanup : Prog S ε Unit) : Prog S ε α := do
  let outcome ← p.attempt
  cleanup
  ofExcept outcome

/-- `for (const x of xs) await body(x)`. -/
def forEach (body : β → Prog S ε Unit) : List β → Prog S ε Unit
  | [] => .ret ()
  | x :: xs => body x >>= fun _ => forEach body xs

/-- The program has returned. -/
def finished : Prog S ε α → Bool
  | .ret _ => true
  | _ => false

/-! ## Fixed replies -/

/-- The outcome of the program where every request gets the reply that `f` gives. -/
def against (f : (op : S.Op) → S.Ret op) : Prog S ε α → Except ε α
  | .ret a => .ok a
  | .throw e => .error e
  | .await op k => (k (f op)).against f

variable {f : (op : S.Op) → S.Ret op}

@[simp] theorem against_ret (a : α) : (.ret a : Prog S ε α).against f = .ok a := rfl

@[simp] theorem against_pure (a : α) : (pure a : Prog S ε α).against f = .ok a := rfl

@[simp] theorem against_ofExcept (x : Except ε α) : (ofExcept x : Prog S ε α).against f = x := by
  cases x <;> rfl

@[simp] theorem against_request (op : S.Op) (read : S.Ret op → Except ε α) :
    (request op read : Prog S ε α).against f = read (f op) := against_ofExcept _

@[simp] theorem against_bind (p : Prog S ε α) (g : α → Prog S ε β) :
    (p >>= g).against f = p.against f >>= fun a => (g a).against f := by
  induction p with
  | ret a => rfl
  | throw e => rfl
  | await op k ih => exact ih (f op)

/-! ## Footprints -/

/-- Every request that the program may await satisfies `F`. -/
def Only (F : S.Op → Prop) : Prog S ε α → Prop
  | .ret _ => True
  | .throw _ => True
  | .await op k => F op ∧ ∀ r, (k r).Only F

variable {F : S.Op → Prop}

theorem Only.imp {G : S.Op → Prop} (h : ∀ op, F op → G op) {p : Prog S ε α} (hp : p.Only F) :
    p.Only G := by
  induction p with
  | ret a => trivial
  | throw e => trivial
  | await op k ih => exact ⟨h op hp.1, fun r => ih r (hp.2 r)⟩

theorem Only.bind {p : Prog S ε α} {f : α → Prog S ε β} (hp : p.Only F) (hf : ∀ a, (f a).Only F) :
    (p >>= f).Only F := by
  induction p with
  | ret a => exact hf a
  | throw e => trivial
  | await op k ih => exact ⟨hp.1, fun r => ih r (hp.2 r)⟩

theorem Only.attempt {p : Prog S ε α} (hp : p.Only F) : p.attempt.Only F := by
  induction p with
  | ret a => trivial
  | throw e => trivial
  | await op k ih => exact ⟨hp.1, fun r => ih r (hp.2 r)⟩

theorem Only.ofExcept (x : Except ε α) : (Prog.ofExcept x : Prog S ε α).Only F := by
  cases x <;> trivial

theorem Only.perform {op : S.Op} (h : F op) : (Prog.perform op : Prog S ε _).Only F :=
  ⟨h, fun _ => trivial⟩

theorem Only.request {op : S.Op} {read : S.Ret op → Except ε α} (h : F op) :
    (Prog.request op read).Only F :=
  ⟨h, fun r => Only.ofExcept (read r)⟩

theorem Only.forEach {body : β → Prog S ε Unit} {xs : List β} (h : ∀ x ∈ xs, (body x).Only F) :
    (Prog.forEach body xs).Only F := by
  induction xs with
  | nil => trivial
  | cons x xs ih =>
    exact (h x List.mem_cons_self).bind fun _ => ih fun y hy => h y (List.mem_cons_of_mem x hy)

end Prog

end CryptoPay.Async
