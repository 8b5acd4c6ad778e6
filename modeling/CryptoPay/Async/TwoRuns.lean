import CryptoPay.Async.History
import CryptoPay.Async.Sequential

/-!
# Two runs of one program

A program that makes only requests which two states answer alike cannot tell
the states apart. `R h s t` relates the two states after the requests `h`.

Results:
* `Prog.execute_keeps`: what every expected request keeps holds at the end of a
  run.
* `Prog.execute_agree`: if every expected request gets the same reply from
  related states and leaves them related, then both runs have the same outcome.
-/

namespace CryptoPay.Async

variable {S : Signature} {ε α σ ι η : Type} {M : Machine S σ ι η} {pid : ℕ}
  {E : List (Event S) → S.Op → Prop} {Q : α → List (Event S) → Prop}
  {X : ε → List (Event S) → Prop}

namespace Prog

/-- A run that ends has its first request answered. -/
theorem execute_await {op : S.Op} {k : S.Ret op → Prog S ε α} {s : σ} {is : List ι}
    {evs : List (Event S)} {x : Except ε α} {s' : σ}
    (h : (await op k).execute M pid s is = some (evs, x, s')) :
    ∃ i rest r s₁ evs', is = i :: rest ∧ M.respond pid s op i = some (r, s₁) ∧
      (k r).execute M pid s₁ rest = some (evs', x, s') ∧ evs = ⟨pid, op, r⟩ :: evs' := by
  cases is with
  | nil => cases h
  | cons i rest =>
    simp only [execute] at h
    split at h
    · rename_i r s₁ hr
      obtain ⟨⟨evs', x', s''⟩, hrun, heq⟩ := Option.map_eq_some_iff.mp h
      cases heq
      exact ⟨i, rest, r, s₁, evs', rfl, hr, hrun, rfl⟩
    · cases h

/-- A run whose first request is answered. -/
theorem execute_reply {op : S.Op} {k : S.Ret op → Prog S ε α} {s s₁ : σ} {i : ι} {is : List ι}
    {r : S.Ret op} {evs : List (Event S)} {x : Except ε α} {s' : σ}
    (hr : M.respond pid s op i = some (r, s₁))
    (hk : (k r).execute M pid s₁ is = some (evs, x, s')) :
    (await op k).execute M pid s (i :: is) = some (⟨pid, op, r⟩ :: evs, x, s') := by
  simp only [execute, hr, hk, Option.map_some]

/-- A program without requests only ends. -/
theorem execute_ofExcept {x y : Except ε α} {s s' : σ} {is : List ι} {evs : List (Event S)}
    (h : (ofExcept x : Prog S ε α).execute M pid s is = some (evs, y, s')) :
    evs = [] ∧ y = x ∧ s' = s := by
  cases x with
  | ok a => cases is <;> cases h; exact ⟨rfl, rfl, rfl⟩
  | error e => cases is <;> cases h; exact ⟨rfl, rfl, rfl⟩

/-- What every expected request keeps holds at the end. -/
theorem execute_keeps {I : List (Event S) → σ → Prop}
    (hstep : ∀ h op s i r s', E h op → I h s → M.respond pid s op i = some (r, s') →
      I (⟨pid, op, r⟩ :: h) s') {p : Prog S ε α} {h : List (Event S)} (hp : p.Obeys E pid Q X h)
    {s s' : σ} {is : List ι} {evs : List (Event S)} {x : Except ε α}
    (hrun : p.execute M pid s is = some (evs, x, s')) (hI : I h s) : I (evs.reverse ++ h) s' := by
  induction p generalizing h s is evs with
  | ret a =>
    cases is <;> cases hrun
    exact hI
  | throw e =>
    cases is <;> cases hrun
    exact hI
  | await op k ih =>
    obtain ⟨i, rest, r, s₁, evs', rfl, hr, hk, rfl⟩ := execute_await hrun
    rw [List.reverse_cons, List.append_assoc]
    exact ih r (hp.2 r) hk (hstep _ _ _ _ _ _ hp.1 hI hr)

/-- The same inputs lead from related states to the same outcome and to related states. -/
theorem execute_agree {R : List (Event S) → σ → σ → Prop} {G : S.Op → Prop}
    (hstep : ∀ h op s t i r s', E h op → G op → R h s t → M.respond pid s op i = some (r, s') →
      ∃ t', M.respond pid t op i = some (r, t') ∧ R (⟨pid, op, r⟩ :: h) s' t')
    {p : Prog S ε α} {h : List (Event S)} (hp : p.Obeys E pid Q X h) {s t s' : σ} {is : List ι}
    {evs : List (Event S)} {x : Except ε α} (hrun : p.execute M pid s is = some (evs, x, s'))
    (hG : ∀ ev ∈ evs, G ev.op) (hR : R h s t) :
    ∃ t', p.execute M pid t is = some (evs, x, t') ∧ R (evs.reverse ++ h) s' t' := by
  induction p generalizing h s t is evs with
  | ret a =>
    cases is <;> cases hrun
    exact ⟨t, rfl, hR⟩
  | throw e =>
    cases is <;> cases hrun
    exact ⟨t, rfl, hR⟩
  | await op k ih =>
    obtain ⟨i, rest, r, s₁, evs', rfl, hr, hk, rfl⟩ := execute_await hrun
    obtain ⟨t₁, ht, hR₁⟩ := hstep _ _ _ _ _ _ _ hp.1 (hG _ List.mem_cons_self) hR hr
    obtain ⟨t', hk', hR'⟩ := ih r (hp.2 r) hk (fun ev hev => hG ev (List.mem_cons_of_mem _ hev)) hR₁
    refine ⟨t', execute_reply ht hk', ?_⟩
    · rw [List.reverse_cons, List.append_assoc]
      exact hR'

end Prog

end CryptoPay.Async
