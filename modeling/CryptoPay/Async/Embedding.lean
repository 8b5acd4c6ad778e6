import CryptoPay.Async.History

/-!
# Programs over other requests

A service that uses another one awaits the requests of both. `Prog.embed`
turns a program of the smaller signature into one of the larger, request by
request, and `Prog.rethrow` translates its errors. `Prog.interpret` carries each
request out by a program: a library call that is one request of its caller
consists of several.

Results:
* `embed_bind`, `interpret_bind`: both follow the structure of the program.
* `Only.embed`, `Obeys.embed`: what is known of the requests of a program holds
  of their embeddings; `Only.rethrow`, `Obeys.rethrow`: errors do not matter.
-/

namespace CryptoPay.Async

variable {S S' : Signature} {ε ε' α β : Type}

/-- The requests of `S` as requests of `S'`, and their replies back. -/
structure Signature.Hom (S S' : Signature) where
  op : S.Op → S'.Op
  ret : ∀ o, S'.Ret (op o) → S.Ret o

namespace Prog

/-- The program with its requests embedded. -/
def embed (f : S.Hom S') : Prog S ε α → Prog S' ε α
  | .ret a => .ret a
  | .throw e => .throw e
  | .await o k => .await (f.op o) fun r => (k (f.ret o r)).embed f

variable {f : S.Hom S'}

theorem embed_bind (p : Prog S ε α) (g : α → Prog S ε β) :
    (p >>= g).embed f = p.embed f >>= fun a => (g a).embed f := by
  induction p with
  | ret a => rfl
  | throw e => rfl
  | await o k ih =>
    show await (f.op o) _ = await (f.op o) _
    congr
    funext r
    exact ih _

theorem Only.embed {F : S.Op → Prop} {p : Prog S ε α} (h : p.Only F) :
    (p.embed f).Only fun op => ∃ o, op = f.op o ∧ F o := by
  induction p with
  | ret a => trivial
  | throw e => trivial
  | await o k ih => exact ⟨⟨o, rfl, h.1⟩, fun r => ih _ (h.2 _)⟩

/-- `back` reads the requests of the smaller signature off those of the larger. -/
theorem Obeys.embed {E : List (Event S) → S.Op → Prop} {E' : List (Event S') → S'.Op → Prop}
    (back : List (Event S') → List (Event S)) {pid : ℕ} {Q : α → List (Event S) → Prop}
    {X : ε → List (Event S) → Prop}
    (hback : ∀ o r h, back (⟨pid, f.op o, r⟩ :: h) = ⟨pid, o, f.ret o r⟩ :: back h)
    (hE : ∀ o h, E (back h) o → E' h (f.op o)) {p : Prog S ε α} {h : List (Event S')}
    (hp : p.Obeys E pid Q X (back h)) :
    (p.embed f).Obeys E' pid (fun a h => Q a (back h)) (fun e h => X e (back h)) h := by
  induction p generalizing h with
  | ret a => exact hp
  | throw e => exact hp
  | await o k ih =>
    refine ⟨hE o h hp.1, fun r => ih _ ?_⟩
    rw [hback]
    exact hp.2 _

/-- The program with its errors translated. -/
def rethrow (g : ε → ε') : Prog S ε α → Prog S ε' α
  | .ret a => .ret a
  | .throw e => .throw (g e)
  | .await o k => .await o fun r => (k r).rethrow g

variable {g : ε → ε'}

theorem Only.rethrow {F : S.Op → Prop} {p : Prog S ε α} (h : p.Only F) : (p.rethrow g).Only F := by
  induction p with
  | ret a => trivial
  | throw e => trivial
  | await o k ih => exact ⟨h.1, fun r => ih r (h.2 r)⟩

theorem Obeys.rethrow {E : List (Event S) → S.Op → Prop} {pid : ℕ} {Q : α → List (Event S) → Prop}
    {X : ε' → List (Event S) → Prop} {p : Prog S ε α} {h : List (Event S)}
    (hp : p.Obeys E pid Q (fun e => X (g e)) h) : (p.rethrow g).Obeys E pid Q X h := by
  induction p generalizing h with
  | ret a => exact hp
  | throw e => exact hp
  | await o k ih => exact ⟨hp.1, fun r => ih r (hp.2 r)⟩

/-- The program with each of its requests carried out by `f`. -/
def interpret (f : (o : S.Op) → Prog S' ε (S.Ret o)) : Prog S ε α → Prog S' ε α
  | .ret a => .ret a
  | .throw e => .throw e
  | .await o k => f o >>= fun r => (k r).interpret f

variable {i : (o : S.Op) → Prog S' ε (S.Ret o)}

theorem interpret_bind (p : Prog S ε α) (g : α → Prog S ε β) :
    (p >>= g).interpret i = p.interpret i >>= fun a => (g a).interpret i := by
  induction p with
  | ret a => rfl
  | throw e => rfl
  | await o k ih =>
    show (i o >>= fun r => (k r >>= g).interpret i) = _
    simp only [ih]
    exact (bind_assoc _ _ _).symm

end Prog

end CryptoPay.Async
