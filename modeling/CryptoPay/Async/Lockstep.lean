import CryptoPay.Async.Sequential

/-!
# Two programs in lockstep

`p.drive M pid s l` runs `p` on a list of stimuli: each one is the input of the reply
to the pending request, or an act of the environment. `Alike M pid s p q` says that `p`
and `q` await requests that the same inputs answer, with the same effect, and go on
alike, until both return the same or throw the same.

Results:
* `Alike.drive_eq`: programs that are alike are driven to the same state by the same
  stimuli, with the same outcome.
* `Alike.bind`, `Alike.forEach`: programs that are composed of alike parts.
-/

namespace CryptoPay.Async

variable {S : Signature} {ε σ ι η α β : Type}

/-- What a program in flight is driven by. -/
inductive Stimulus (ι η : Type) where
  /-- The pending request is answered. -/
  | reply (i : ι)
  /-- The environment acts. -/
  | act (e : η)

/-- The state after the stimuli, and the outcome if the program has ended. -/
def Prog.drive (M : Machine S σ ι η) (pid : ℕ) :
    Prog S ε α → σ → List (Stimulus ι η) → Option (Option (Except ε α) × σ)
  | .ret a, s, [] => some (some (.ok a), s)
  | .throw e, s, [] => some (some (.error e), s)
  | .await _ _, s, [] => some (none, s)
  | p, s, .act e :: l =>
    if M.restarts e then none else (M.env s e).bind fun s₁ => p.drive M pid s₁ l
  | .await op k, s, .reply i :: l =>
    match M.respond pid s op i with
    | some (r, s₁) => (k r).drive M pid s₁ l
    | none => none
  | .ret _, _, .reply _ :: _ => none
  | .throw _, _, .reply _ :: _ => none

/-- See the module text. -/
inductive Alike (M : Machine S σ ι η) (pid : ℕ) : σ → Prog S ε α → Prog S ε α → Prop where
  | ret {s : σ} {a : α} : Alike M pid s (.ret a) (.ret a)
  | throw {s : σ} {e : ε} : Alike M pid s (.throw e) (.throw e)
  | await {s : σ} {op op' : S.Op} {k : S.Ret op → Prog S ε α} {k' : S.Ret op' → Prog S ε α}
      (hsame : ∀ s₁ i, Drifts M s s₁ →
        (M.respond pid s₁ op i).map Prod.snd = (M.respond pid s₁ op' i).map Prod.snd)
      (h : ∀ s₁ i r r' s₂, Drifts M s s₁ → M.respond pid s₁ op i = some (r, s₂) →
        M.respond pid s₁ op' i = some (r', s₂) → Alike M pid s₂ (k r) (k' r')) :
      Alike M pid s (.await op k) (.await op' k')

variable {M : Machine S σ ι η} {pid : ℕ} {s s₁ s' : σ} {p q : Prog S ε α}

theorem Alike.refl (p : Prog S ε α) : Alike M pid s p p := by
  induction p generalizing s with
  | ret a => exact .ret
  | throw e => exact .throw
  | await op k ih =>
    refine .await (fun _ _ _ => rfl) fun s₁ i r r' s₂ _ hr hr' => ?_
    obtain ⟨rfl, -⟩ := Prod.mk.inj (Option.some.inj (hr.symm.trans hr'))
    exact ih r

theorem Alike.drift (h : Alike M pid s p q) (hd : Drifts M s s₁) : Alike M pid s₁ p q := by
  cases h with
  | ret => exact .ret
  | throw => exact .throw
  | await hsame h =>
    exact .await (fun s₂ i hd₂ => hsame s₂ i (hd.trans hd₂))
      fun s₂ i r r' s₃ hd₂ => h s₂ i r r' s₃ (hd.trans hd₂)

/-! ## Composition -/

/-- Sequencing: the second parts are alike wherever the first one ends. -/
theorem Alike.bind {f g : α → Prog S ε β} (h : Alike M pid s p q)
    (hf : ∀ evs a s', Runs M pid p s evs (.ok a) s' → Alike M pid s' (f a) (g a)) :
    Alike M pid s (p >>= f) (q >>= g) := by
  induction h with
  | ret => exact hf [] _ _ .ret
  | throw => exact .throw
  | await hsame h ih =>
    refine .await hsame fun s₁ i r r' s₂ hd hr hr' => ?_
    exact ih s₁ i r r' s₂ hd hr hr' fun evs a s' hrun => hf _ a s' (.drift hd (.await i hr hrun))

/-- Loops over one list whose bodies are alike. -/
theorem Alike.forEach {f g : β → Prog S ε Unit} {xs : List β}
    (h : ∀ x ∈ xs, ∀ s, Alike M pid s (f x) (g x)) :
    Alike M pid s (.forEach f xs) (.forEach g xs) := by
  induction xs generalizing s with
  | nil => exact .ret
  | cons x xs ih =>
    refine (h x List.mem_cons_self s).bind fun _ _ _ _ => ?_
    exact ih fun y hy => h y (List.mem_cons_of_mem x hy)

/-! ## The same stimuli -/

theorem Alike.drive_eq (h : Alike M pid s p q) (l : List (Stimulus ι η)) :
    p.drive M pid s l = q.drive M pid s l := by
  induction l generalizing s p q with
  | nil => cases h <;> rfl
  | cons m l ih =>
    cases m with
    | act e =>
      have hact : ∀ p : Prog S ε α, p.drive M pid s (.act e :: l) =
          if M.restarts e then none else (M.env s e).bind fun s₁ => p.drive M pid s₁ l := by
        intro p
        cases p <;> rfl
      rw [hact, hact]
      split_ifs with hrestarts
      · rfl
      · refine Option.bind_congr fun s₁ hs => ih (h.drift ?_)
        exact .single ⟨e, Bool.of_not_eq_true hrestarts, hs⟩
    | reply i =>
      cases h with
      | ret => rfl
      | throw => rfl
      | @await _ op op' k k' hsame h =>
        have hstate := hsame s i .refl
        simp only [Prog.drive]
        cases hr : M.respond pid s op i with
        | none =>
          rw [hr] at hstate
          rw [Option.map_eq_none_iff.mp hstate.symm]
        | some y =>
          rw [hr] at hstate
          obtain ⟨⟨r', s₂⟩, hr', hs⟩ := Option.map_eq_some_iff.mp hstate.symm
          obtain rfl : s₂ = y.2 := hs
          rw [hr']
          exact ih (h s i y.1 r' y.2 .refl hr hr')

/-! ## Lone runs -/

end CryptoPay.Async
