import CryptoPay.Async.Sequential

/-!
# Rely-guarantee reasoning for interleaved programs

A `Protocol` states, for a machine and a workload, an invariant `Inv` of the
shared configuration, what a step of each job may do (`Guar`) and what holds
when a job throws (`Exc`). `Valid j pid P p Q E` says that the program `p`, run
by process `pid` for job `j` from a configuration satisfying `P`, only takes
steps allowed by `Guar`, whatever compatible jobs do between its requests, and
ends with `Q` or throws with `E`.

Results:
* `Valid.bind`, `Valid.attempt`, `Valid.ensuring`, `Valid.forEach`,
  `Valid.await`: one rule for each way to build a program.
* `Valid.only`: a program whose requests all keep an assertion keeps it.
* `Sound.inv`, `Sound.guar`, `Sound.exc`: if every job is valid, the invariant
  holds in every reachable system, every step in it is one that `Guar` allows,
  and every thrown error satisfies `Exc`.
* `Valid.runs`: a valid program that runs alone keeps the invariant and its outline.
-/

namespace CryptoPay.Async

variable {S : Signature} {ε κ σ ι η α β : Type}

/-- A machine and a workload with an invariant and a guarantee for each job. -/
structure Protocol (S : Signature) (ε κ σ ι η : Type) where
  machine : Machine S σ ι η
  work : Workload S ε κ
  start : σ → Prop
  allowed : Condition S σ
  Inv : Config S σ → Prop
  Guar : κ → ℕ → Config S σ → Config S σ → Prop
  Exc : κ → ε → Config S σ → Prop

namespace Protocol

variable (K : Protocol S ε κ σ ι η)

/-- The systems that the protocol is about. -/
abbrev Reaches (s : System S ε κ σ) : Prop := Reachable K.machine K.work K.start K.allowed s

/-- A step that process `pid` may see others take while it awaits. -/
def Interferes (j : κ) (pid : ℕ) (c c' : Config S σ) : Prop :=
  (∃ j' pid', pid' ≠ pid ∧ K.work.compatible j j' = true ∧ K.Guar j' pid' c c') ∨
    ∃ act state, K.machine.restarts act = false ∧ K.machine.env c.state act = some state ∧
      c' = { c with state := state }

/-- `P` survives every step of the others. -/
def Stable (j : κ) (pid : ℕ) (P : Config S σ → Prop) : Prop :=
  ∀ c c', K.Inv c → P c → K.Interferes j pid c c' → P c'

/-- The program keeps the guarantee of its job from `P` on; see the module
    text. -/
def Valid (j : κ) (pid : ℕ) (P : Config S σ → Prop) (p : Prog S ε α)
    (Q : α → Config S σ → Prop) (E : ε → Config S σ → Prop) : Prop :=
  match p with
  | .ret a => ∀ c, K.Inv c → P c → Q a c
  | .throw e => ∀ c, K.Inv c → P c → E e c
  | .await op k => ∀ c i r state, K.Inv c → P c → K.allowed c pid op →
      K.machine.respond pid c.state op i = some (r, state) →
      K.Guar j pid c (c.after pid op r state) ∧
        ∃ P', K.Stable j pid P' ∧ P' (c.after pid op r state) ∧ Valid j pid P' (k r) Q E

variable {K} {j : κ} {pid : ℕ} {P P' : Config S σ → Prop} {Q Q' : α → Config S σ → Prop}
  {E E' : ε → Config S σ → Prop}

/-! ## Rules -/

/-- Strengthen the precondition. -/
theorem Valid.pre {p : Prog S ε α} (h : K.Valid j pid P p Q E)
    (hP : ∀ c, K.Inv c → P' c → P c) : K.Valid j pid P' p Q E := by
  cases p with
  | ret a => exact fun c hc hp => h c hc (hP c hc hp)
  | throw e => exact fun c hc hp => h c hc (hP c hc hp)
  | await op k => exact fun c i r state hc hp => h c i r state hc (hP c hc hp)

/-- Use a part of the precondition that is not about the configuration. -/
theorem Valid.assume {p : Prog S ε α} {q : Prop} (h : q → K.Valid j pid P p Q E) :
    K.Valid j pid (fun c => P c ∧ q) p Q E := by
  cases p with
  | ret a => exact fun c hc hp => h hp.2 c hc hp.1
  | throw e => exact fun c hc hp => h hp.2 c hc hp.1
  | await op k => exact fun c i r state hc hp => h hp.2 c i r state hc hp.1

/-- Weaken the postconditions. -/
theorem Valid.post {p : Prog S ε α} (h : K.Valid j pid P p Q E)
    (hQ : ∀ a c, K.Inv c → Q a c → Q' a c) (hE : ∀ e c, K.Inv c → E e c → E' e c) :
    K.Valid j pid P p Q' E' := by
  induction p generalizing P with
  | ret a => exact fun c hc hp => hQ a c hc (h c hc hp)
  | throw e => exact fun c hc hp => hE e c hc (h c hc hp)
  | await op k ih =>
    intro c i r state hc hp ha hr
    obtain ⟨hG, P₁, hs, hP₁, hv⟩ := h c i r state hc hp ha hr
    exact ⟨hG, P₁, hs, hP₁, ih r hv⟩

theorem Valid.ret {a : α} (h : ∀ c, K.Inv c → P c → Q a c) :
    K.Valid j pid P (.ret a) Q E := h

theorem Valid.pure {a : α} (h : ∀ c, K.Inv c → P c → Q a c) :
    K.Valid j pid P (pure a) Q E := h

theorem Valid.throw {e : ε} (h : ∀ c, K.Inv c → P c → E e c) :
    K.Valid j pid P (.throw e : Prog S ε α) Q E := h

/-- One request, with a stable assertion about its reply. -/
theorem Valid.await {op : S.Op} {k : S.Ret op → Prog S ε α}
    (R : S.Ret op → Config S σ → Prop) (hs : ∀ r, K.Stable j pid (R r))
    (hstep : ∀ c i r state, K.Inv c → P c → K.allowed c pid op →
      K.machine.respond pid c.state op i = some (r, state) →
      K.Guar j pid c (c.after pid op r state) ∧ R r (c.after pid op r state))
    (hk : ∀ r, K.Valid j pid (R r) (k r) Q E) :
    K.Valid j pid P (.await op k) Q E := by
  intro c i r state hc hp ha hr
  obtain ⟨hG, hR⟩ := hstep c i r state hc hp ha hr
  exact ⟨hG, R r, hs r, hR, hk r⟩

theorem Valid.perform {op : S.Op} {Q : S.Ret op → Config S σ → Prop}
    (hs : ∀ r, K.Stable j pid (Q r))
    (hstep : ∀ c i r state, K.Inv c → P c → K.allowed c pid op →
      K.machine.respond pid c.state op i = some (r, state) →
      K.Guar j pid c (c.after pid op r state) ∧ Q r (c.after pid op r state)) :
    K.Valid j pid P (.perform op) Q E :=
  .await Q hs hstep fun _ => .ret fun _ _ h => h

theorem Valid.ofExcept {x : Except ε α} (hok : ∀ a, x = .ok a → ∀ c, K.Inv c → P c → Q a c)
    (herr : ∀ e, x = .error e → ∀ c, K.Inv c → P c → E e c) :
    K.Valid j pid P (.ofExcept x) Q E := by
  cases x with
  | ok a => exact hok a rfl
  | error e => exact herr e rfl

/-- Sequencing: `Q` holds between the two programs. -/
theorem Valid.bind {p : Prog S ε α} {f : α → Prog S ε β} {R : β → Config S σ → Prop}
    (hp : K.Valid j pid P p Q E) (hf : ∀ a, K.Valid j pid (Q a) (f a) R E) :
    K.Valid j pid P (p >>= f) R E := by
  induction p generalizing P with
  | ret a => exact (hf a).pre hp
  | throw e => exact hp
  | await op k ih =>
    intro c i r state hc hP ha hr
    obtain ⟨hG, P₁, hs, hP₁, hv⟩ := hp c i r state hc hP ha hr
    exact ⟨hG, P₁, hs, hP₁, ih r hv⟩

/-- `try … catch` turns the exceptional postcondition into an ordinary one. -/
theorem Valid.attempt {p : Prog S ε α} {R : Except ε α → Config S σ → Prop}
    (hp : K.Valid j pid P p (fun a => R (.ok a)) (fun e => R (.error e))) :
    K.Valid j pid P p.attempt R E := by
  induction p generalizing P with
  | ret a => exact hp
  | throw e => exact hp
  | await op k ih =>
    intro c i r state hc hP ha hr
    obtain ⟨hG, P₁, hs, hP₁, hv⟩ := hp c i r state hc hP ha hr
    exact ⟨hG, P₁, hs, hP₁, ih r hv⟩

/-- `try … finally`: the cleanup runs after both outcomes. -/
theorem Valid.ensuring {p : Prog S ε α} {cleanup : Prog S ε Unit}
    {R : Except ε α → Config S σ → Prop}
    (hp : K.Valid j pid P p (fun a => R (.ok a)) (fun e => R (.error e)))
    (hc : ∀ x, K.Valid j pid (R x) cleanup
      (fun _ c => (∀ a, x = .ok a → Q a c) ∧ ∀ e, x = .error e → E e c) E) :
    K.Valid j pid P (p.ensuring cleanup) Q E := by
  refine Valid.bind (Valid.attempt hp) fun x => Valid.bind (hc x) fun _ => ?_
  exact Valid.ofExcept (fun a hx c _ h => h.1 a hx) (fun e hx c _ h => h.2 e hx)

/-- A loop: `I xs` holds when the elements `xs` remain. -/
theorem Valid.forEach {body : β → Prog S ε Unit} (I : List β → Config S σ → Prop)
    (hbody : ∀ x xs, K.Valid j pid (I (x :: xs)) (body x) (fun _ => I xs) E) :
    ∀ xs, K.Valid j pid (I xs) (.forEach body xs) (fun _ => I []) E := by
  intro xs
  induction xs with
  | nil => exact .ret fun _ _ h => h
  | cons x xs ih => exact (hbody x xs).bind fun _ => ih

/-- A loop whose body keeps `P`, given what `P` says of each element. -/
theorem Valid.forEach_mem {body : β → Prog S ε Unit} {xs : List β}
    (hbody : ∀ x ∈ xs, K.Valid j pid P (body x) (fun _ => P) E) :
    K.Valid j pid P (.forEach body xs) (fun _ => P) E := by
  induction xs with
  | nil => exact .ret fun _ _ h => h
  | cons x xs ih =>
    exact (hbody x List.mem_cons_self).bind fun _ =>
      ih fun y hy => hbody y (List.mem_cons_of_mem x hy)

/-- A program that only makes requests of which each keeps `P`. -/
theorem Valid.only {F : S.Op → Prop} {p : Prog S ε α} (hp : p.Only F) (hs : K.Stable j pid P)
    (hstep : ∀ c i op r state, F op → K.Inv c → P c → K.allowed c pid op →
      K.machine.respond pid c.state op i = some (r, state) →
      K.Guar j pid c (c.after pid op r state) ∧ P (c.after pid op r state)) :
    K.Valid j pid P p (fun _ => P) (fun _ => P) := by
  induction p with
  | ret a => exact fun c _ h => h
  | throw e => exact fun c _ h => h
  | await op k ih =>
    intro c i r state hc hP ha hr
    obtain ⟨hG, hP'⟩ := hstep c i op r state hp.1 hc hP ha hr
    exact ⟨hG, P, hs, hP', ih r (hp.2 r)⟩

/-! ## Lasting assertions -/

/-- Every step keeps the requests that were answered before it. -/
def Growing (K : Protocol S ε κ σ ι η) : Prop :=
  ∀ j pid c c', K.Guar j pid c c' → c.trace <:+ c'.trace

/-- An assertion about what has been answered, which no later step falsifies. -/
def Lasting (F : Config S σ → Prop) : Prop :=
  ∀ c c', c.trace <:+ c'.trace → F c → F c'

theorem Lasting.stable (hK : K.Growing) {F : Config S σ → Prop} (hF : Lasting F) :
    K.Stable j pid F := by
  rintro c c' - hf (⟨j', pid', -, -, hG⟩ | ⟨act, state, -, -, rfl⟩)
  · exact hF c c' (hK _ _ _ _ hG) hf
  · exact hF c _ (List.suffix_refl _) hf

/-- A lasting assertion holds after every program that it holds before. -/
theorem Valid.frame (hK : K.Growing) {F : Config S σ → Prop} (hF : Lasting F) {p : Prog S ε α}
    (h : K.Valid j pid P p Q E) :
    K.Valid j pid (fun c => P c ∧ F c) p (fun a c => Q a c ∧ F c) E := by
  induction p generalizing P with
  | ret a => exact fun c hc hp => ⟨h c hc hp.1, hp.2⟩
  | throw e => exact fun c hc hp => h c hc hp.1
  | await op k ih =>
    intro c i r state hc hp ha hr
    obtain ⟨hG, P₁, hs, hP₁, hv⟩ := h c i r state hc hp.1 ha hr
    refine ⟨hG, fun c => P₁ c ∧ F c, fun c₁ c₂ hc₁ h₁ hi => ?_, ⟨hP₁, ?_⟩, ih r hv⟩
    · exact ⟨hs c₁ c₂ hc₁ h₁.1 hi, hF.stable hK c₁ c₂ hc₁ h₁.2 hi⟩
    · exact hF _ _ (List.suffix_cons _ _) hp.2

/-! ## Soundness -/

/-- What a proof about a protocol consists of. -/
structure Sound (K : Protocol S ε κ σ ι η) : Prop where
  initial : ∀ s, K.start s → K.Inv ⟨s, []⟩
  env : ∀ c act state, K.Inv c → K.machine.env c.state act = some state →
    K.Inv { c with state := state }
  step : ∀ j pid c c', K.Inv c → K.Guar j pid c c' → K.Inv c'
  job : ∀ j pid, ∃ P, K.Stable j pid P ∧
    (∀ c, K.Inv c → (∀ ev ∈ c.trace, ev.pid < pid) → P c) ∧
    K.Valid j pid P (K.work.launch j) (fun _ _ => True) (K.Exc j)

/-- Every program in flight is valid from an assertion that holds now. -/
structure Holds (K : Protocol S ε κ σ ι η) (s : System S ε κ σ) : Prop where
  inv : K.Inv s.config
  past : ∀ ev ∈ s.config.trace, ev.pid < s.next
  fresh : ∀ p ∈ s.procs, p.pid < s.next
  distinct : ∀ p ∈ s.procs, ∀ q ∈ s.procs, p.pid = q.pid → p = q
  together : ∀ p ∈ s.procs, ∀ q ∈ s.procs, p.pid ≠ q.pid → K.work.compatible p.job q.job = true
  valid : ∀ p ∈ s.procs, ∃ P, K.Stable p.job p.pid P ∧ P s.config ∧
    K.Valid p.job p.pid P p.prog (fun _ _ => True) (K.Exc p.job)

variable {s s' : System S ε κ σ}

theorem Holds.start (hK : K.Sound) (h : K.Holds s) {job : κ}
    (hstep : s.step K.machine K.work (.start job) = some s') : K.Holds s' := by
  obtain ⟨hall, rfl⟩ := System.step_start hstep
  obtain ⟨P, hs, hP, hv⟩ := hK.job job s.next
  refine ⟨h.inv, fun ev hev => Nat.lt_succ_of_lt (h.past ev hev), ?_, ?_, ?_, ?_⟩
  · rintro p (_ | ⟨_, hp⟩)
    · exact Nat.lt_succ_self _
    · exact Nat.lt_succ_of_lt (h.fresh p hp)
  · rintro p (_ | ⟨_, hp⟩) q (_ | ⟨_, hq⟩) hpq
    · rfl
    · exact absurd hpq (Nat.ne_of_gt (h.fresh q hq))
    · exact absurd hpq (Nat.ne_of_lt (h.fresh p hp))
    · exact h.distinct p hp q hq hpq
  · rintro p (_ | ⟨_, hp⟩) q (_ | ⟨_, hq⟩) hpq
    · exact absurd rfl hpq
    · rw [K.work.symm]; exact hall q hq
    · exact hall p hp
    · exact h.together p hp q hq hpq
  · rintro p (_ | ⟨_, hp⟩)
    · exact ⟨P, hs, hP _ h.inv h.past, hv⟩
    · exact h.valid p hp

/-- The step of one process, with the guarantee it keeps. -/
theorem Holds.perform_guar (h : K.Holds s) {input : ι}
    (hm : s.Meets K.allowed (.perform (κ := κ) (η := η) pid input))
    (hstep : s.step K.machine K.work (.perform pid input) = some s') :
    ∃ job, (∃ p ∈ s.procs, p.pid = pid ∧ p.job = job) ∧ K.Guar job pid s.config s'.config := by
  obtain ⟨job, op, k, r, state, hp, hr, rfl⟩ := System.step_perform hstep
  obtain ⟨P, _, hP, hv⟩ := h.valid _ hp
  exact ⟨job, ⟨_, hp, rfl, rfl⟩, (hv _ _ _ _ h.inv hP (hm _ _ _ _ _ rfl hp) hr).1⟩

theorem Holds.perform (hK : K.Sound) (h : K.Holds s) {input : ι}
    (hm : s.Meets K.allowed (.perform (κ := κ) (η := η) pid input))
    (hstep : s.step K.machine K.work (.perform pid input) = some s') : K.Holds s' := by
  obtain ⟨job, op, k, r, state, hp, hr, rfl⟩ := System.step_perform hstep
  obtain ⟨P, _, hP, hv⟩ := h.valid _ hp
  obtain ⟨hG, P', hs', hP', hv'⟩ := hv _ _ _ _ h.inv hP (hm _ _ _ _ _ rfl hp) hr
  have hmem : ∀ q, q ∈ s.procs.filter (fun p => p.pid ≠ pid) ↔ q ∈ s.procs ∧ q.pid ≠ pid := by
    intro q; simp
  have hpid : pid < s.next := h.fresh _ hp
  refine ⟨hK.step _ _ _ _ h.inv hG, ?_, ?_, ?_, ?_, ?_⟩
  · rintro ev (_ | ⟨_, hev⟩)
    · exact hpid
    · exact h.past ev hev
  · rintro q (_ | ⟨_, hq⟩)
    · exact hpid
    · exact h.fresh q ((hmem q).1 hq).1
  · rintro p (_ | ⟨_, hp'⟩) q (_ | ⟨_, hq⟩) hpq
    · rfl
    · exact absurd hpq.symm ((hmem q).1 hq).2
    · exact absurd hpq ((hmem p).1 hp').2
    · exact h.distinct p ((hmem p).1 hp').1 q ((hmem q).1 hq).1 hpq
  · rintro p (_ | ⟨_, hp'⟩) q (_ | ⟨_, hq⟩) hpq
    · exact absurd rfl hpq
    · exact h.together _ hp q ((hmem q).1 hq).1 (Ne.symm ((hmem q).1 hq).2)
    · have := h.together p ((hmem p).1 hp').1 _ hp ((hmem p).1 hp').2
      exact this
    · exact h.together p ((hmem p).1 hp').1 q ((hmem q).1 hq).1 hpq
  · rintro q (_ | ⟨_, hq⟩)
    · exact ⟨P', hs', hP', hv'⟩
    · -- another process keeps its assertion: the step interfered with it
      obtain ⟨hq, hne⟩ := (hmem q).1 hq
      obtain ⟨R, hsR, hR, hvR⟩ := h.valid q hq
      refine ⟨R, hsR, hsR _ _ h.inv hR (.inl ⟨job, pid, Ne.symm hne, ?_, hG⟩), hvR⟩
      exact h.together q hq _ hp hne

theorem Holds.stop (h : K.Holds s)
    (hstep : s.step K.machine K.work (.stop pid) = some s') : K.Holds s' := by
  cases hstep
  have hmem : ∀ q ∈ s.procs.filter (fun p => p.pid ≠ pid), q ∈ s.procs := fun q hq =>
    (List.mem_filter.mp hq).1
  exact ⟨h.inv, h.past, fun p hp => h.fresh p (hmem p hp),
    fun p hp q hq => h.distinct p (hmem p hp) q (hmem q hq),
    fun p hp q hq => h.together p (hmem p hp) q (hmem q hq), fun p hp => h.valid p (hmem p hp)⟩

theorem Holds.env (hK : K.Sound) (h : K.Holds s) {act : η}
    (hstep : s.step K.machine K.work (.env act) = some s') : K.Holds s' := by
  obtain ⟨state, hst, rfl⟩ := System.step_env hstep
  have hinv := hK.env _ _ _ h.inv hst
  cases hr : K.machine.restarts act with
  | true => exact ⟨hinv, h.past, by simp, by simp, by simp, by simp⟩
  | false =>
    simp only [Bool.false_eq_true, if_false]
    refine ⟨hinv, h.past, h.fresh, h.distinct, h.together, fun p hp => ?_⟩
    obtain ⟨P, hs, hP, hv⟩ := h.valid p hp
    exact ⟨P, hs, hs _ _ h.inv hP (.inr ⟨act, state, hr, hst, rfl⟩), hv⟩

theorem Sound.holds (hK : K.Sound) (h : K.Reaches s) : K.Holds s := by
  induction h with
  | initial h => exact ⟨hK.initial _ h, by simp [System.initial], by simp [System.initial],
      by simp [System.initial], by simp [System.initial], by simp [System.initial]⟩
  | step m _ hm hstep ih =>
    cases m with
    | start job => exact ih.start hK hstep
    | perform pid input => exact ih.perform hK hm hstep
    | stop pid => exact ih.stop hstep
    | env act => exact ih.env hK hstep

/-- The invariant holds in every reachable system. -/
theorem Sound.inv (hK : K.Sound) (h : K.Reaches s) : K.Inv s.config := (hK.holds h).inv

/-- Every request answered in a reachable system is a step its job guarantees. -/
theorem Sound.guar (hK : K.Sound) (h : K.Reaches s) {input : ι}
    (hm : s.Meets K.allowed (.perform (κ := κ) (η := η) pid input))
    (hstep : s.step K.machine K.work (.perform pid input) = some s') :
    ∃ job, (∃ p ∈ s.procs, p.pid = pid ∧ p.job = job) ∧ K.Guar job pid s.config s'.config :=
  (hK.holds h).perform_guar hm hstep

/-- Every error thrown in a reachable system satisfies `Exc`. -/
theorem Sound.exc (hK : K.Sound) (h : K.Reaches s) {p : Proc S ε κ} (hp : p ∈ s.procs) {e : ε}
    (he : p.prog = .throw e) : K.Exc p.job e s.config := by
  obtain ⟨P, _, hP, hv⟩ := (hK.holds h).valid p hp
  rw [he] at hv
  exact hv _ (hK.holds h).inv hP

/-! ## Programs that run alone -/

/-- What a valid program that runs alone ends with. -/
theorem Valid.runs (hK : K.Sound) (hall : ∀ c pid op, K.allowed c pid op) {p : Prog S ε α}
    (hv : K.Valid j pid P p Q E) (hs : K.Stable j pid P) {c : Config S σ} (hI : K.Inv c) (hP : P c)
    {evs : List (Event S)} {x : Except ε α} {s' : σ} (h : Runs K.machine pid p c.state evs x s') :
    K.Inv ⟨s', evs.reverse ++ c.trace⟩ ∧ (∀ a, x = .ok a → Q a ⟨s', evs.reverse ++ c.trace⟩) ∧
      ∀ e, x = .error e → E e ⟨s', evs.reverse ++ c.trace⟩ := by
  obtain ⟨s, tr⟩ := c
  dsimp only at h ⊢
  induction h generalizing P tr with
  | ret => exact ⟨hI, fun a ha => Except.ok.inj ha ▸ hv _ hI hP, nofun⟩
  | throw => exact ⟨hI, nofun, fun e he => Except.error.inj he ▸ hv _ hI hP⟩
  | @await op k s s₁ s' r evs x i hr h ih =>
    obtain ⟨hG, P', hs', hP', hv'⟩ := hv _ _ _ _ hI hP (hall _ _ _) hr
    rw [List.reverse_cons, List.append_assoc]
    exact ih hv' hs' _ (hK.step _ _ _ _ hI hG) hP'
  | env act hact hst h ih =>
    exact ih hv hs _ (hK.env _ _ _ hI hst) (hs _ _ hI hP (.inr ⟨act, _, hact, hst, rfl⟩))

end Protocol

end CryptoPay.Async
