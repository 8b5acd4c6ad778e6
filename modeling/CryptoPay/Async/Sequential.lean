import CryptoPay.Async.System
import Mathlib.Logic.Relation

/-!
# Programs that run alone

`Runs M pid p s evs x s'`: process `pid` runs `p` from the state `s` to its end
with the outcome `x`, and no other process takes a step in between; the
environment may. `evs` are the requests that were answered, oldest first.

Results:
* `Runs.ret_inv`, `Runs.throw_inv`, `Runs.await_inv`, `Runs.bind_inv`,
  `Runs.attempt_inv`, `Runs.forEach_ok`: what a run of each form of program
  consists of.
* `Runs.forEach_keeps`, `Runs.forEach_returns`: the invariant of a loop that runs to its
  end, and of one whose bodies cannot throw.
* `Runs.forEach_iff`: when a loop whose bodies may throw runs to its end.
* `Prog.ends_bind` and its kin: what every run of a program ends with.
* `Runs.of_execute`: a run that was computed.
* `Runs.leads`, `Runs.reachable`: a lone run is a run of every system that has the
  process in flight, and of one that starts it.
-/

namespace CryptoPay.Async

variable {S : Signature} {ε κ σ ι η α β : Type}

/-- The environment acts some number of times, without a restart. -/
def Drifts (M : Machine S σ ι η) : σ → σ → Prop :=
  Relation.ReflTransGen fun s s' => ∃ act, M.restarts act = false ∧ M.env s act = some s'

/-- See the module text. -/
inductive Runs (M : Machine S σ ι η) (pid : ℕ) :
    Prog S ε α → σ → List (Event S) → Except ε α → σ → Prop where
  | ret {a : α} {s : σ} : Runs M pid (.ret a) s [] (.ok a) s
  | throw {e : ε} {s : σ} : Runs M pid (.throw e) s [] (.error e) s
  | await {op : S.Op} {k : S.Ret op → Prog S ε α} {s s₁ s' : σ} {r : S.Ret op}
      {evs : List (Event S)} {x : Except ε α} (i : ι) (hr : M.respond pid s op i = some (r, s₁))
      (h : Runs M pid (k r) s₁ evs x s') : Runs M pid (.await op k) s (⟨pid, op, r⟩ :: evs) x s'
  | env {p : Prog S ε α} {s s₁ s' : σ} {evs : List (Event S)} {x : Except ε α} (act : η)
      (hact : M.restarts act = false) (hs : M.env s act = some s₁) (h : Runs M pid p s₁ evs x s') :
      Runs M pid p s evs x s'

variable {M : Machine S σ ι η} {pid : ℕ} {s s₁ s' : σ} {evs : List (Event S)}

theorem Runs.drift {p : Prog S ε α} {x : Except ε α} (hd : Drifts M s s₁)
    (h : Runs M pid p s₁ evs x s') : Runs M pid p s evs x s' := by
  induction hd using Relation.ReflTransGen.head_induction_on with
  | refl => exact h
  | head hstep _ ih =>
    obtain ⟨act, hact, hs⟩ := hstep
    exact .env act hact hs ih

/-! ## Inversion -/

theorem Runs.ret_inv {a : α} {x : Except ε α} (h : Runs M pid (.ret a) s evs x s') :
    evs = [] ∧ x = .ok a ∧ Drifts M s s' := by
  generalize hp : (Prog.ret a : Prog S ε α) = p at h
  induction h with
  | ret =>
    cases hp
    exact ⟨rfl, rfl, .refl⟩
  | throw => cases hp
  | await i hr h ih => cases hp
  | env act hact hs h ih =>
    obtain ⟨hevs, hx, hd⟩ := ih hp
    exact ⟨hevs, hx, .head ⟨act, hact, hs⟩ hd⟩

theorem Runs.throw_inv {e : ε} {x : Except ε α} (h : Runs M pid (.throw e) s evs x s') :
    evs = [] ∧ x = .error e ∧ Drifts M s s' := by
  generalize hp : (Prog.throw e : Prog S ε α) = p at h
  induction h with
  | ret => cases hp
  | throw =>
    cases hp
    exact ⟨rfl, rfl, .refl⟩
  | await i hr h ih => cases hp
  | env act hact hs h ih =>
    obtain ⟨hevs, hx, hd⟩ := ih hp
    exact ⟨hevs, hx, .head ⟨act, hact, hs⟩ hd⟩

theorem Runs.await_inv {op : S.Op} {k : S.Ret op → Prog S ε α} {x : Except ε α}
    (h : Runs M pid (.await op k) s evs x s') :
    ∃ s₁ i r s₂ evs', Drifts M s s₁ ∧ M.respond pid s₁ op i = some (r, s₂) ∧
      evs = ⟨pid, op, r⟩ :: evs' ∧ Runs M pid (k r) s₂ evs' x s' := by
  generalize hp : Prog.await op k = p at h
  induction h with
  | ret => cases hp
  | throw => cases hp
  | await i hr h ih =>
    cases hp
    exact ⟨_, i, _, _, _, .refl, hr, rfl, h⟩
  | env act hact hs h ih =>
    obtain ⟨s₁, i, r, s₂, evs', hd, hr, hevs, hk⟩ := ih hp
    exact ⟨s₁, i, r, s₂, evs', .head ⟨act, hact, hs⟩ hd, hr, hevs, hk⟩

/-- A request, and a program that runs on its reply. -/
theorem Runs.perform_bind_inv {op : S.Op} {f : S.Ret op → Prog S ε α} {x : Except ε α}
    (h : Runs M pid (.perform op >>= f) s evs x s') :
    ∃ s₁ i r s₂ evs', Drifts M s s₁ ∧ M.respond pid s₁ op i = some (r, s₂) ∧
      evs = ⟨pid, op, r⟩ :: evs' ∧ Runs M pid (f r) s₂ evs' x s' :=
  h.await_inv

theorem Runs.perform_inv {op : S.Op} {x : Except ε (S.Ret op)}
    (h : Runs M pid (.perform op) s evs x s') :
    ∃ s₁ i r s₂, Drifts M s s₁ ∧ M.respond pid s₁ op i = some (r, s₂) ∧ evs = [⟨pid, op, r⟩] ∧
      x = .ok r ∧ Drifts M s₂ s' := by
  obtain ⟨s₁, i, r, s₂, evs', hd, hr, rfl, hk⟩ := h.await_inv
  obtain ⟨rfl, rfl, hd'⟩ := hk.ret_inv
  exact ⟨s₁, i, r, s₂, hd, hr, rfl, rfl, hd'⟩

/-- The first program runs to its end; if it returns, the second one runs. -/
theorem Runs.bind_inv {p : Prog S ε α} {f : α → Prog S ε β} {x : Except ε β}
    (h : Runs M pid (p >>= f) s evs x s') :
    (∃ a s₁ evs₁ evs₂, evs = evs₁ ++ evs₂ ∧ Runs M pid p s evs₁ (.ok a) s₁ ∧
      Runs M pid (f a) s₁ evs₂ x s') ∨ ∃ e, x = .error e ∧ Runs M pid p s evs (.error e) s' := by
  induction p generalizing s evs with
  | ret a => exact .inl ⟨a, s, [], evs, rfl, .ret, h⟩
  | throw e =>
    obtain ⟨rfl, rfl, hd⟩ := Runs.throw_inv h
    exact .inr ⟨e, rfl, .drift hd .throw⟩
  | await op k ih =>
    obtain ⟨s₁, i, r, s₂, evs', hd, hr, rfl, hk⟩ := Runs.await_inv h
    rcases ih r hk with ⟨a, s₃, evs₁, evs₂, rfl, hp, hf⟩ | ⟨e, rfl, hp⟩
    · exact .inl ⟨a, s₃, _ :: evs₁, evs₂, rfl, .drift hd (.await i hr hp), hf⟩
    · exact .inr ⟨e, rfl, .drift hd (.await i hr hp)⟩

/-- Both programs return. -/
theorem Runs.bind_ok {p : Prog S ε α} {f : α → Prog S ε β} {b : β}
    (h : Runs M pid (p >>= f) s evs (.ok b) s') :
    ∃ a s₁ evs₁ evs₂, evs = evs₁ ++ evs₂ ∧ Runs M pid p s evs₁ (.ok a) s₁ ∧
      Runs M pid (f a) s₁ evs₂ (.ok b) s' := by
  rcases h.bind_inv with h | ⟨e, he, -⟩
  · exact h
  · cases he

/-- The second program runs, as the first one returns. -/
theorem Runs.bind_returns {p : Prog S ε α} {f : α → Prog S ε β} {x : Except ε β}
    (h : Runs M pid (p >>= f) s evs x s')
    (hp : ∀ evs y s₁, Runs M pid p s evs y s₁ → ∃ a, y = .ok a) :
    ∃ a s₁ evs₁ evs₂, evs = evs₁ ++ evs₂ ∧ Runs M pid p s evs₁ (.ok a) s₁ ∧
      Runs M pid (f a) s₁ evs₂ x s' := by
  rcases h.bind_inv with h | ⟨e, -, hrun⟩
  · exact h
  · obtain ⟨a, ha⟩ := hp _ _ _ hrun
    cases ha

theorem Runs.ofExcept_inv {y : Except ε α} {x : Except ε α}
    (h : Runs M pid (.ofExcept y) s evs x s') : evs = [] ∧ x = y ∧ Drifts M s s' := by
  cases y with
  | ok a => exact h.ret_inv
  | error e => exact h.throw_inv

theorem Runs.request_inv {op : S.Op} {read : S.Ret op → Except ε α} {x : Except ε α}
    (h : Runs M pid (.request op read) s evs x s') :
    ∃ s₁ i r s₂, Drifts M s s₁ ∧ M.respond pid s₁ op i = some (r, s₂) ∧ evs = [⟨pid, op, r⟩] ∧
      x = read r ∧ Drifts M s₂ s' := by
  obtain ⟨s₁, i, r, s₂, evs', hd, hr, rfl, hk⟩ := h.await_inv
  obtain ⟨rfl, rfl, hd'⟩ := hk.ofExcept_inv
  exact ⟨s₁, i, r, s₂, hd, hr, rfl, rfl, hd'⟩

/-- What `attempt` caught is the outcome of the program. -/
theorem Runs.attempt_inv {p : Prog S ε α} {x : Except ε (Except ε α)}
    (h : Runs M pid p.attempt s evs x s') : ∃ y, x = .ok y ∧ Runs M pid p s evs y s' := by
  induction p generalizing s evs with
  | ret a =>
    obtain ⟨rfl, rfl, hd⟩ := Runs.ret_inv h
    exact ⟨_, rfl, .drift hd .ret⟩
  | throw e =>
    obtain ⟨rfl, rfl, hd⟩ := Runs.ret_inv h
    exact ⟨_, rfl, .drift hd .throw⟩
  | await op k ih =>
    obtain ⟨s₁, i, r, s₂, evs', hd, hr, rfl, hk⟩ := Runs.await_inv h
    obtain ⟨y, hy, hrun⟩ := ih r hk
    exact ⟨y, hy, .drift hd (.await i hr hrun)⟩

/-- A loop that ends normally: `states k` is the state in which the body starts on the
    element `k`. -/
theorem Runs.forEach_ok {body : β → Prog S ε Unit} {xs : List β}
    (h : Runs M pid (.forEach body xs) s evs (.ok ()) s') :
    ∃ states : ℕ → σ, states 0 = s ∧ Drifts M (states xs.length) s' ∧
      ∀ k (hk : k < xs.length), ∃ evs', evs' <:+: evs ∧
        Runs M pid (body xs[k]) (states k) evs' (.ok ()) (states (k + 1)) := by
  induction xs generalizing s evs with
  | nil =>
    obtain ⟨-, -, hd⟩ := Runs.ret_inv h
    exact ⟨fun _ => s, rfl, hd, fun k hk => absurd hk (Nat.not_lt_zero k)⟩
  | cons y xs ih =>
    obtain ⟨⟨⟩, s₁, evs₁, evs₂, rfl, hbody, hrest⟩ := Runs.bind_ok h
    obtain ⟨states, h0, hlast, hstates⟩ := ih hrest
    refine ⟨fun | 0 => s | k + 1 => states k, rfl, hlast, fun k hk => ?_⟩
    cases k with
    | zero =>
      refine ⟨evs₁, (List.prefix_append _ _).isInfix, ?_⟩
      show Runs M pid (body y) s evs₁ (.ok ()) (states 0)
      rw [h0]
      exact hbody
    | succ k =>
      obtain ⟨evs', hpart, hrun⟩ := hstates k (Nat.lt_of_succ_lt_succ hk)
      exact ⟨evs', hpart.trans (List.suffix_append _ _).isInfix, hrun⟩

/-- A loop that ends normally: `I xs` holds of the state and of the requests so far while the
    elements `xs` remain. -/
theorem Runs.forEach_keeps {body : β → Prog S ε Unit} {I : List β → σ → List (Event S) → Prop}
    (hdrift : ∀ xs s s' l, Drifts M s s' → I xs s l → I xs s' l)
    (hbody : ∀ x xs s l evs s', I (x :: xs) s l → Runs M pid (body x) s evs (.ok ()) s' →
      I xs s' (l ++ evs)) {xs : List β} {l : List (Event S)}
    (h : Runs M pid (.forEach body xs) s evs (.ok ()) s') (hI : I xs s l) : I [] s' (l ++ evs) := by
  induction xs generalizing s evs l with
  | nil =>
    obtain ⟨rfl, -, hd⟩ := Runs.ret_inv h
    rw [List.append_nil]
    exact hdrift _ _ _ _ hd hI
  | cons x xs ih =>
    obtain ⟨⟨⟩, s₁, evs₁, evs₂, rfl, hrun, hrest⟩ := Runs.bind_ok h
    rw [← List.append_assoc]
    exact ih hrest (hbody _ _ _ _ _ _ hI hrun)

/-- A loop whose bodies all return: `I xs` holds of the state while the elements `xs` remain. -/
theorem Runs.forEach_returns {body : β → Prog S ε Unit} {I : List β → σ → Prop}
    (hdrift : ∀ xs s s', Drifts M s s' → I xs s → I xs s')
    (hbody : ∀ y xs s evs x s', I (y :: xs) s → Runs M pid (body y) s evs x s' →
      x = .ok () ∧ I xs s') {xs : List β} {x : Except ε Unit}
    (h : Runs M pid (.forEach body xs) s evs x s') (hI : I xs s) : x = .ok () ∧ I [] s' := by
  induction xs generalizing s evs with
  | nil =>
    obtain ⟨-, rfl, hd⟩ := Runs.ret_inv h
    exact ⟨rfl, hdrift _ _ _ hd hI⟩
  | cons y xs ih =>
    obtain ⟨⟨⟩, s₁, evs₁, evs₂, rfl, hrun, hrest⟩ := Runs.bind_returns h fun _ _ _ hrun =>
      ⟨(), (hbody _ _ _ _ _ _ hI hrun).1⟩
    exact ih hrest (hbody _ _ _ _ _ _ hI hrun).2

/-- When a loop runs to its end: `D` tells of the requests of a body whether it returns, `A` is
    what is asked of them, and `I` holds between the bodies. -/
theorem Runs.forEach_iff {body : β → Prog S ε Unit} {I : σ → Prop} {A D : List (Event S) → Prop}
    {R : β → List (Event S) → Prop} (hA : ∀ l₁ l₂, A (l₁ ++ l₂) → A l₁ ∧ A l₂)
    (hD : ∀ l₁ l₂, D (l₁ ++ l₂) ↔ D l₁ ∧ D l₂) (hnil : D []) {xs : List β} {x : Except ε Unit}
    (hbody : ∀ y ∈ xs, ∀ s evs x s', I s → A evs → Runs M pid (body y) s evs x s' →
      I s' ∧ (x = .ok () ↔ D evs) ∧ (x = .ok () → R y evs))
    (h : Runs M pid (.forEach body xs) s evs x s') (hs : I s) (ha : A evs) :
    (x = .ok () ↔ D evs) ∧ (x = .ok () → ∀ y ∈ xs, ∃ evs', evs' <:+: evs ∧ R y evs') := by
  induction xs generalizing s evs with
  | nil =>
    obtain ⟨rfl, rfl, -⟩ := Runs.ret_inv h
    exact ⟨iff_of_true rfl hnil, fun _ y hy => absurd hy List.not_mem_nil⟩
  | cons y xs ih =>
    have hy := hbody y List.mem_cons_self
    rcases Runs.bind_inv h with ⟨⟨⟩, s₁, evs₁, evs₂, rfl, hrun, hrest⟩ | ⟨e, rfl, hrun⟩
    · obtain ⟨ha₁, ha₂⟩ := hA _ _ ha
      obtain ⟨hs₁, hiff, hdone⟩ := hy _ _ _ _ hs ha₁ hrun
      obtain ⟨hiff', hdone'⟩ := ih (fun z hz => hbody z (List.mem_cons_of_mem y hz)) hrest hs₁ ha₂
      refine ⟨?_, fun hx z hz => ?_⟩
      · rw [hD, hiff']
        exact ⟨fun hD₂ => ⟨hiff.mp rfl, hD₂⟩, And.right⟩
      · rcases List.mem_cons.mp hz with rfl | hz
        · exact ⟨evs₁, (List.prefix_append _ _).isInfix, hdone rfl⟩
        · obtain ⟨evs', hpart, hz⟩ := hdone' hx z hz
          exact ⟨evs', hpart.trans (List.suffix_append _ _).isInfix, hz⟩
    · obtain ⟨-, hiff, -⟩ := hy _ _ _ _ hs ha hrun
      exact ⟨hiff, nofun⟩

/-- Every request that was answered is one that the program may make. -/
theorem Runs.only {F : S.Op → Prop} {p : Prog S ε α} {x : Except ε α} (hp : p.Only F)
    (h : Runs M pid p s evs x s') : ∀ ev ∈ evs, F ev.op := by
  induction h with
  | ret => exact fun ev hev => absurd hev List.not_mem_nil
  | throw => exact fun ev hev => absurd hev List.not_mem_nil
  | await i hr h ih =>
    intro ev hev
    rcases List.mem_cons.mp hev with rfl | hev
    · exact hp.1
    · exact ih (hp.2 _) ev hev
  | env act hact hs h ih => exact ih hp

/-- A run of such requests does what each of them and the environment do. -/
theorem Runs.relates {F : S.Op → Prop} {R : σ → σ → Prop} (hrefl : ∀ s, R s s)
    (htrans : ∀ s t u, R s t → R t u → R s u)
    (hrespond : ∀ s op i r t, F op → M.respond pid s op i = some (r, t) → R s t)
    (henv : ∀ s act t, M.env s act = some t → M.restarts act = false → R s t)
    {p : Prog S ε α} {x : Except ε α} (hp : p.Only F) (h : Runs M pid p s evs x s') : R s s' := by
  induction h with
  | ret => exact hrefl _
  | throw => exact hrefl _
  | await i hr h ih => exact htrans _ _ _ (hrespond _ _ _ _ _ hp.1 hr) (ih (hp.2 _))
  | env act hact hs h ih => exact htrans _ _ _ (henv _ _ _ hs hact) (ih hp)

/-- A machine that does more has the same runs. -/
theorem Runs.imp {η' : Type} {N : Machine S σ ι η'} (hrespond : ∀ s op i y,
    M.respond pid s op i = some y → N.respond pid s op i = some y) (henv : ∀ s act s',
    M.env s act = some s' → M.restarts act = false →
      ∃ act', N.env s act' = some s' ∧ N.restarts act' = false)
    {p : Prog S ε α} {x : Except ε α} (h : Runs M pid p s evs x s') : Runs N pid p s evs x s' := by
  induction h with
  | ret => exact .ret
  | throw => exact .throw
  | await i hr h ih => exact .await i (hrespond _ _ _ _ hr) ih
  | env act hact hs h ih =>
    obtain ⟨act', hs', hact'⟩ := henv _ _ _ hs hact
    exact .env act' hact' hs' ih

/-- One program and then the other. -/
theorem Runs.bind {p : Prog S ε α} {f : α → Prog S ε β} {a : α} {evs' : List (Event S)} {s₂ : σ}
    {x : Except ε β} (hp : Runs M pid p s evs (.ok a) s₁) (hf : Runs M pid (f a) s₁ evs' x s₂) :
    Runs M pid (p >>= f) s (evs ++ evs') x s₂ := by
  induction p generalizing s evs with
  | ret b =>
    obtain ⟨rfl, hb, hd⟩ := hp.ret_inv
    cases hb
    exact .drift hd hf
  | throw e =>
    obtain ⟨-, he, -⟩ := hp.throw_inv
    cases he
  | await op k ih =>
    obtain ⟨t, i, r, t', evs₁, hd, hr, rfl, hk⟩ := hp.await_inv
    exact .drift hd (.await i hr (ih r hk))

theorem Runs.bind_error {p : Prog S ε α} {f : α → Prog S ε β} {e : ε}
    (hp : Runs M pid p s evs (.error e) s₁) : Runs M pid (p >>= f) s evs (.error e) s₁ := by
  induction p generalizing s evs with
  | ret b =>
    obtain ⟨-, hb, -⟩ := hp.ret_inv
    cases hb
  | throw e' =>
    obtain ⟨rfl, he, hd⟩ := hp.throw_inv
    cases he
    exact .drift hd .throw
  | await op k ih =>
    obtain ⟨t, i, r, t', evs₁, hd, hr, rfl, hk⟩ := hp.await_inv
    exact .drift hd (.await i hr (ih r hk))

/-- On a machine that can answer every request and keep `I`, every program can run to its end and
    keep `I`. -/
theorem Prog.exists_runs_keeping {I : σ → Prop}
    (hM : ∀ s op, I s → ∃ i y, M.respond pid s op i = some y ∧ I y.2) (p : Prog S ε α) {s : σ}
    (hs : I s) : ∃ evs x s', Runs M pid p s evs x s' ∧ I s' := by
  induction p generalizing s with
  | ret a => exact ⟨_, _, _, .ret, hs⟩
  | throw e => exact ⟨_, _, _, .throw, hs⟩
  | await op k ih =>
    obtain ⟨i, ⟨r, s₁⟩, hr, hs₁⟩ := hM s op hs
    obtain ⟨evs, x, s', h, hs'⟩ := ih r hs₁
    exact ⟨_, _, _, .await i hr h, hs'⟩

/-- On a machine that can answer every request, every program can run to its end. -/
theorem Prog.exists_runs (hM : ∀ s op, ∃ i y, M.respond pid s op i = some y) (p : Prog S ε α)
    (s : σ) : ∃ evs x s', Runs M pid p s evs x s' := by
  obtain ⟨evs, x, s', h, -⟩ := p.exists_runs_keeping (I := fun _ => True) (fun s op _ => by
    obtain ⟨i, y, hr⟩ := hM s op
    exact ⟨i, y, hr, trivial⟩) (s := s) trivial
  exact ⟨evs, x, s', h⟩

/-! ## What every run of a program ends with -/

/-- Every run of `p` alone from `s` ends with `Q`. -/
def Prog.Ends (M : Machine S σ ι η) (pid : ℕ) (p : Prog S ε α) (s : σ)
    (Q : Except ε α → List (Event S) → σ → Prop) : Prop :=
  ∀ evs x s', Runs M pid p s evs x s' → Q x evs s'

section Ends

variable {Q Q' : Except ε α → List (Event S) → σ → Prop}

theorem Prog.Ends.post {p : Prog S ε α} (h : p.Ends M pid s Q)
    (hQ : ∀ x evs s', Q x evs s' → Q' x evs s') : p.Ends M pid s Q' :=
  fun evs x s' hrun => hQ x evs s' (h evs x s' hrun)

theorem Prog.ends_ret {a : α} (h : ∀ s', Drifts M s s' → Q (.ok a) [] s') :
    (Prog.ret a).Ends M pid s Q := by
  intro evs x s' hrun
  obtain ⟨rfl, rfl, hd⟩ := hrun.ret_inv
  exact h s' hd

theorem Prog.ends_throw {e : ε} (h : ∀ s', Drifts M s s' → Q (.error e) [] s') :
    (Prog.throw e).Ends M pid s Q := by
  intro evs x s' hrun
  obtain ⟨rfl, rfl, hd⟩ := hrun.throw_inv
  exact h s' hd

theorem Prog.ends_perform {op : S.Op} {Q : Except ε (S.Ret op) → List (Event S) → σ → Prop}
    (h : ∀ s₁ i r s₂ s', Drifts M s s₁ → M.respond pid s₁ op i = some (r, s₂) → Drifts M s₂ s' →
      Q (.ok r) [⟨pid, op, r⟩] s') : (Prog.perform op).Ends M pid s Q := by
  intro evs x s' hrun
  obtain ⟨s₁, i, r, s₂, hd, hr, rfl, rfl, hd'⟩ := hrun.perform_inv
  exact h s₁ i r s₂ s' hd hr hd'

theorem Prog.ends_request {op : S.Op} {read : S.Ret op → Except ε α}
    (h : ∀ s₁ i r s₂ s', Drifts M s s₁ → M.respond pid s₁ op i = some (r, s₂) → Drifts M s₂ s' →
      Q (read r) [⟨pid, op, r⟩] s') : (Prog.request op read).Ends M pid s Q := by
  intro evs x s' hrun
  obtain ⟨s₁, i, r, s₂, hd, hr, rfl, rfl, hd'⟩ := hrun.request_inv
  exact h s₁ i r s₂ s' hd hr hd'

/-- Sequencing: what the first program ends with is enough for the second one. -/
theorem Prog.ends_bind {p : Prog S ε α} {f : α → Prog S ε β}
    {R : Except ε β → List (Event S) → σ → Prop}
    (h : p.Ends M pid s fun x evs s₁ => (∀ a, x = .ok a →
      (f a).Ends M pid s₁ fun y evs' s' => R y (evs ++ evs') s') ∧
      ∀ e, x = .error e → R (.error e) evs s₁) : (p >>= f).Ends M pid s R := by
  intro evs x s' hrun
  rcases hrun.bind_inv with ⟨a, s₁, evs₁, evs₂, rfl, hp, hf⟩ | ⟨e, rfl, hp⟩
  · exact (h _ _ _ hp).1 a rfl _ _ _ hf
  · exact (h _ _ _ hp).2 e rfl

end Ends

/-! ## Execution -/

/-- The run of a program on given inputs, while the environment does nothing. -/
def Prog.execute (M : Machine S σ ι η) (pid : ℕ) :
    Prog S ε α → σ → List ι → Option (List (Event S) × Except ε α × σ)
  | .ret a, s, [] => some ([], .ok a, s)
  | .throw e, s, [] => some ([], .error e, s)
  | .await op k, s, i :: is =>
    match M.respond pid s op i with
    | some (r, s₁) => ((k r).execute M pid s₁ is).map fun (evs, x, s') => (⟨pid, op, r⟩ :: evs, x, s')
    | none => none
  | _, _, _ => none

theorem Runs.of_execute {p : Prog S ε α} {is : List ι} {x : Except ε α}
    (h : p.execute M pid s is = some (evs, x, s')) : Runs M pid p s evs x s' := by
  induction p generalizing s is evs with
  | ret a =>
    cases is with
    | nil => cases h; exact .ret
    | cons i is => cases h
  | throw e =>
    cases is with
    | nil => cases h; exact .throw
    | cons i is => cases h
  | await op k ih =>
    cases is with
    | nil => cases h
    | cons i is =>
      simp only [Prog.execute] at h
      split at h
      · rename_i r s₁ hr
        obtain ⟨⟨evs', x', s''⟩, hrun, heq⟩ := Option.map_eq_some_iff.mp h
        cases heq
        exact .await i hr (ih r hrun)
      · cases h

/-- A run that was computed, as far as `f` shows it. -/
theorem Runs.view (M : Machine S σ ι η) (pid : ℕ) (p : Prog S ε α) (s : σ) (is : List ι)
    {f : List (Event S) × Except ε α × σ → β} {y : β} (h : (p.execute M pid s is).map f = some y) :
    ∃ evs x s', Runs M pid p s evs x s' ∧ f (evs, x, s') = y := by
  obtain ⟨⟨evs, x, s'⟩, hrun, hy⟩ := Option.map_eq_some_iff.mp h
  exact ⟨evs, x, s', .of_execute hrun, hy⟩

/-- What a program settles to if every request gets the same input. -/
def Prog.settle (M : Machine S σ ι η) (pid : ℕ) (i : ι) :
    Prog S ε α → σ → Option (Except ε α × σ)
  | .ret a, s => some (.ok a, s)
  | .throw e, s => some (.error e, s)
  | .await op k, s =>
    match M.respond pid s op i with
    | some (r, s₁) => (k r).settle M pid i s₁
    | none => none

theorem Prog.settle_bind {i : ι} {p : Prog S ε α} {f : α → Prog S ε β} {a : α}
    (h : p.settle M pid i s = some (.ok a, s₁)) :
    (p >>= f).settle M pid i s = (f a).settle M pid i s₁ := by
  induction p generalizing s with
  | ret b => cases h; rfl
  | throw e => cases h
  | await op k ih =>
    simp only [settle] at h
    split at h
    · rename_i r s₂ hr
      refine Eq.trans ?_ (ih r h)
      show settle M pid i (await op fun r => k r >>= f) s = _
      simp only [settle, hr]
    · cases h

/-! ## Lone runs in a system -/

theorem Leads.trans {W : Workload S ε κ} {allowed : Condition S σ} {x y z : System S ε κ σ}
    (hxy : Leads M W allowed x y) (hyz : Leads M W allowed y z) : Leads M W allowed x z := by
  induction hyz with
  | refl => exact hxy
  | step m _ hm h ih => exact .step m ih hm h

/-- The process whose program runs alone takes the system to the end of it. -/
theorem Runs.leads {W : Workload S ε κ} {p : Prog S ε Unit} {x : Except ε Unit}
    (h : Runs M pid p s evs x s') {job : κ} {sys : System S ε κ σ}
    (hproc : sys.procs = [⟨pid, job, p⟩]) (hstate : sys.config.state = s) :
    ∃ sys', Leads M W anything sys sys' ∧ sys'.procs = [⟨pid, job, .ofExcept x⟩] ∧
      sys'.config = ⟨s', evs.reverse ++ sys.config.trace⟩ := by
  have hmeets : ∀ (t : System S ε κ σ) (m : Move κ ι η), t.Meets anything m :=
    fun _ _ _ _ _ _ _ _ _ => trivial
  induction h generalizing sys with
  | ret => exact ⟨sys, .refl, hproc, by rw [← hstate]; rfl⟩
  | throw => exact ⟨sys, .refl, hproc, by rw [← hstate]; rfl⟩
  | @await op k s s₁ s' r evs x i hr h ih =>
    let next : System S ε κ σ := { sys with
      config := sys.config.after pid op r s₁, procs := [⟨pid, job, k r⟩] }
    have hstep : sys.step M W (.perform pid i) = some next := by
      simp only [System.step, hproc, List.find?_cons_of_pos, hstate, hr, decide_true]
      simp [next]
    obtain ⟨sys', hleads, hprocs, hconfig⟩ :=
      ih (show next.procs = [⟨pid, job, k r⟩] from rfl) (show next.config.state = s₁ from rfl)
    refine ⟨sys', .trans (.step _ .refl (hmeets _ _) hstep) hleads, hprocs, ?_⟩
    rw [hconfig, List.reverse_cons, List.append_assoc]
    rfl
  | @env p s s₁ s' evs x act hact hs h ih =>
    let next : System S ε κ σ := { sys with config := { sys.config with state := s₁ } }
    have hstep : sys.step M W (.env act) = some next := by
      simp [System.step, hstate, hs, hact, next]
    obtain ⟨sys', hleads, hprocs, hconfig⟩ :=
      ih (show next.procs = [⟨pid, job, p⟩] from hproc) (show next.config.state = s₁ from rfl)
    exact ⟨sys', .trans (.step _ .refl (hmeets _ _) hstep) hleads, hprocs, hconfig⟩

/-- A system that starts the program reaches the end of its lone run. -/
theorem Runs.reachable {W : Workload S ε κ} {job : κ} {x : Except ε Unit}
    (h : Runs M 0 (W.launch job) s evs x s') :
    ∃ sys, Reachable M W (fun t => t = s) anything sys ∧ sys.config.state = s' := by
  let started : System S ε κ σ := ⟨⟨s, []⟩, [⟨0, job, W.launch job⟩], 1⟩
  have hstarted : Reachable M W (fun t => t = s) anything started :=
    .step (.start job) (.initial rfl) (fun _ _ _ _ _ _ _ => trivial) rfl
  obtain ⟨sys, hleads, -, hconfig⟩ := h.leads (show started.procs = _ from rfl) rfl
  exact ⟨sys, hleads.keeps hstarted fun _ _ m ht hm hstep => .step m ht hm hstep,
    by rw [hconfig]⟩

end CryptoPay.Async
