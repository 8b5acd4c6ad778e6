import CryptoPay.Async.System

/-!
# What a program does after what it has done

`Obeys E pid Q X p h`: after the requests `h` of process `pid` (newest first),
the program `p` only makes requests that `E` expects after those made so far,
whatever the replies are, and ends with `Q` or throws with `X`. Nothing is said
about the shared state, so nothing has to be stable.

Results:
* `obeys_bind`, `obeys_attempt`, `obeys_request`,
  `Obeys.forEach`, `Obeys.only`: one rule for each way to build a program.
* `Reachable.history`: if the program of every job obeys `E`, the requests of
  each process in a reachable system are expected after one another.
* `Reachable.outcome`: what holds when a program has ended.
* `Reachable.invariant`: an invariant of all runs is one that every expected
  request keeps.
-/

namespace CryptoPay.Async

variable {S : Signature} {ε κ σ ι η α β : Type}

/-- The requests of one process. -/
def own (pid : ℕ) (tr : List (Event S)) : List (Event S) := tr.filter fun ev => ev.pid = pid

@[simp] theorem own_nil (pid : ℕ) : own pid ([] : List (Event S)) = [] := rfl

@[simp] theorem own_cons_self (ev : Event S) (tr : List (Event S)) :
    own ev.pid (ev :: tr) = ev :: own ev.pid tr := by
  simp [own]

theorem own_cons_of_ne {pid : ℕ} {ev : Event S} (h : ev.pid ≠ pid) (tr : List (Event S)) :
    own pid (ev :: tr) = own pid tr := by
  simp [own, h]

theorem mem_own {pid : ℕ} {ev : Event S} {tr : List (Event S)} :
    ev ∈ own pid tr ↔ ev ∈ tr ∧ ev.pid = pid := by
  simp [own]

theorem own_of_subset {tr tr' : List (Event S)} (hs : tr ⊆ tr') (pid : ℕ) :
    own pid tr ⊆ own pid tr' := fun _ hev =>
  mem_own.mpr ⟨hs (mem_own.mp hev).1, (mem_own.mp hev).2⟩

/-- A suffix of what one process has requested is what it had requested at an earlier moment. -/
theorem own_suffix {pid : ℕ} {ev : Event S} {h tr : List (Event S)}
    (hs : (ev :: h) <:+ own pid tr) : ∃ tr', (ev :: tr') <:+ tr ∧ own pid tr' = h := by
  induction tr with
  | nil => cases List.suffix_nil.mp hs
  | cons e tr ih =>
    by_cases he : e.pid = pid
    · subst he
      rw [own_cons_self] at hs
      rcases List.suffix_cons_iff.mp hs with heq | hs
      · cases heq
        exact ⟨tr, List.suffix_rfl, rfl⟩
      · obtain ⟨tr', htr', hown⟩ := ih hs
        exact ⟨tr', htr'.trans (List.suffix_cons _ _), hown⟩
    · rw [own_cons_of_ne he] at hs
      obtain ⟨tr', htr', hown⟩ := ih hs
      exact ⟨tr', htr'.trans (List.suffix_cons _ _), hown⟩

/-- Each request is one that `E` expects after those before it. -/
def InOrder (E : List (Event S) → S.Op → Prop) : List (Event S) → Prop
  | [] => True
  | ev :: h => E h ev.op ∧ InOrder E h

theorem InOrder.of_suffix {E : List (Event S) → S.Op → Prop} {h h' : List (Event S)}
    (hh : InOrder E h) (hs : h' <:+ h) : InOrder E h' := by
  induction h with
  | nil =>
    cases List.suffix_nil.mp hs
    trivial
  | cons ev h ih =>
    rcases List.suffix_cons_iff.mp hs with rfl | hs
    · exact hh
    · exact ih hh.2 hs

/-- A request of the history was expected after those before it. -/
theorem InOrder.mem {E : List (Event S) → S.Op → Prop} {h : List (Event S)} (hh : InOrder E h)
    {ev : Event S} (hev : ev ∈ h) : ∃ h', (ev :: h') <:+ h ∧ E h' ev.op := by
  obtain ⟨h', hs⟩ := exists_suffix_of_mem hev
  exact ⟨h', hs, (hh.of_suffix hs).1⟩

/-- See the module text. -/
def Prog.Obeys (E : List (Event S) → S.Op → Prop) (pid : ℕ) (Q : α → List (Event S) → Prop)
    (X : ε → List (Event S) → Prop) : Prog S ε α → List (Event S) → Prop
  | .ret a, h => Q a h
  | .throw e, h => X e h
  | .await op k, h => E h op ∧ ∀ r, (k r).Obeys E pid Q X (⟨pid, op, r⟩ :: h)

namespace Prog

variable {E : List (Event S) → S.Op → Prop} {pid : ℕ} {Q Q' : α → List (Event S) → Prop}
  {X X' : ε → List (Event S) → Prop} {h : List (Event S)}

/-! ## Rules -/

/-- Weaken the postconditions. -/
theorem Obeys.post {p : Prog S ε α} (hp : p.Obeys E pid Q X h) (hQ : ∀ a h, Q a h → Q' a h)
    (hX : ∀ e h, X e h → X' e h) : p.Obeys E pid Q' X' h := by
  induction p generalizing h with
  | ret a => exact hQ a h hp
  | throw e => exact hX e h hp
  | await op k ih => exact ⟨hp.1, fun r => ih r (hp.2 r)⟩

/-- Expect more. -/
theorem Obeys.imp {E' : List (Event S) → S.Op → Prop} {p : Prog S ε α}
    (hp : p.Obeys E pid Q X h) (hE : ∀ h' op, h <:+ h' → E h' op → E' h' op) :
    p.Obeys E' pid Q X h := by
  induction p generalizing h with
  | ret a => exact hp
  | throw e => exact hp
  | await op k ih =>
    exact ⟨hE h op List.suffix_rfl hp.1, fun r =>
      ih r (hp.2 r) fun h' o hs => hE h' o ((List.suffix_cons _ _).trans hs)⟩

/-- The requests made so far stay the last ones of all that follow. -/
theorem Obeys.grows {h₀ : List (Event S)} {p : Prog S ε α} (hp : p.Obeys E pid Q X h)
    (h₀s : h₀ <:+ h) :
    p.Obeys E pid (fun a h' => h₀ <:+ h' ∧ Q a h') (fun e h' => h₀ <:+ h' ∧ X e h') h := by
  induction p generalizing h with
  | ret a => exact ⟨h₀s, hp⟩
  | throw e => exact ⟨h₀s, hp⟩
  | await op k ih =>
    exact ⟨hp.1, fun r => ih r (hp.2 r) (h₀s.trans (List.suffix_cons _ _))⟩

/-- What is expected for two reasons. -/
theorem Obeys.and {E' : List (Event S) → S.Op → Prop} {p : Prog S ε α} (hp : p.Obeys E pid Q X h)
    (hp' : p.Obeys E' pid Q' X' h) :
    p.Obeys (fun h op => E h op ∧ E' h op) pid (fun a h => Q a h ∧ Q' a h)
      (fun e h => X e h ∧ X' e h) h := by
  induction p generalizing h with
  | ret a => exact ⟨hp, hp'⟩
  | throw e => exact ⟨hp, hp'⟩
  | await op k ih => exact ⟨⟨hp.1, hp'.1⟩, fun r => ih r (hp.2 r) (hp'.2 r)⟩

@[simp] theorem obeys_ret {a : α} : (.ret a : Prog S ε α).Obeys E pid Q X h ↔ Q a h := Iff.rfl

@[simp] theorem obeys_pure {a : α} : (pure a : Prog S ε α).Obeys E pid Q X h ↔ Q a h := Iff.rfl

@[simp] theorem obeys_throw {e : ε} : (.throw e : Prog S ε α).Obeys E pid Q X h ↔ X e h := Iff.rfl

/-- Sequencing: the second program starts where the first one ends. -/
theorem obeys_bind {p : Prog S ε α} {f : α → Prog S ε β} {R : β → List (Event S) → Prop} :
    (p >>= f).Obeys E pid R X h ↔
      p.Obeys E pid (fun a h => (f a).Obeys E pid R X h) X h := by
  induction p generalizing h with
  | ret a => rfl
  | throw e => rfl
  | await op k ih => exact and_congr_right fun _ => forall_congr' fun r => ih r

/-- `try … catch` turns the exceptional postcondition into an ordinary one. -/
theorem obeys_attempt {p : Prog S ε α} {R : Except ε α → List (Event S) → Prop} :
    p.attempt.Obeys E pid R X h ↔
      p.Obeys E pid (fun a => R (.ok a)) (fun e => R (.error e)) h := by
  induction p generalizing h with
  | ret a => rfl
  | throw e => rfl
  | await op k ih => exact and_congr_right fun _ => forall_congr' fun r => ih r

theorem obeys_ofExcept {x : Except ε α} :
    (.ofExcept x : Prog S ε α).Obeys E pid Q X h ↔
      (∀ a, x = .ok a → Q a h) ∧ ∀ e, x = .error e → X e h := by
  cases x with
  | ok a => exact ⟨fun hq => ⟨fun b hb => Except.ok.inj hb ▸ hq, nofun⟩, fun hq => hq.1 a rfl⟩
  | error e => exact ⟨fun hx => ⟨nofun, fun b hb => Except.error.inj hb ▸ hx⟩, fun hx => hx.2 e rfl⟩

theorem obeys_request {op : S.Op} {read : S.Ret op → Except ε α} :
    (.request op read : Prog S ε α).Obeys E pid Q X h ↔
      E h op ∧ ∀ r, (∀ a, read r = .ok a → Q a (⟨pid, op, r⟩ :: h)) ∧
        ∀ e, read r = .error e → X e (⟨pid, op, r⟩ :: h) :=
  and_congr_right fun _ => forall_congr' fun _ => obeys_ofExcept

/-- A loop: `I xs` holds when the elements `xs` remain. -/
theorem Obeys.forEach {body : β → Prog S ε Unit} (I : List β → List (Event S) → Prop)
    (hbody : ∀ x xs h, I (x :: xs) h → (body x).Obeys E pid (fun _ => I xs) X h) :
    ∀ {xs : List β} {h : List (Event S)}, I xs h →
      (Prog.forEach body xs).Obeys E pid (fun _ => I []) X h := by
  intro xs
  induction xs with
  | nil => exact fun hI => hI
  | cons x xs ih =>
    intro h hI
    exact obeys_bind.mpr ((hbody x xs h hI).post (fun _ _ hI' => ih hI') fun _ _ hx => hx)

/-- A loop whose body needs only what stays true as requests are made. -/
theorem Obeys.forEach_mono {body : β → Prog S ε Unit} {K : List (Event S) → Prop}
    (hK : ∀ h h', h <:+ h' → K h → K h') {xs : List β}
    (hbody : ∀ x ∈ xs, ∀ h, K h → (body x).Obeys E pid (fun _ _ => True) X h)
    {h : List (Event S)} (hh : K h) : (Prog.forEach body xs).Obeys E pid (fun _ => K) X h := by
  have hloop : (Prog.forEach body xs).Obeys E pid (fun _ h' => (∀ y ∈ [], y ∈ xs) ∧ K h') X h := by
    refine Obeys.forEach (fun ys h' => (∀ y ∈ ys, y ∈ xs) ∧ K h') (fun x ys h' hI => ?_)
      ⟨fun _ hy => hy, hh⟩
    refine ((hbody x (hI.1 x List.mem_cons_self) h' hI.2).grows List.suffix_rfl).post
      (fun _ h'' hs => ⟨fun y hy => hI.1 y (List.mem_cons_of_mem x hy), hK h' h'' hs.1 hI.2⟩)
      fun _ _ hx => hx.2
  exact hloop.post (fun _ _ hI => hI.2) fun _ _ hx => hx

/-- Every program makes some requests. -/
theorem only_any (p : Prog S ε α) : p.Only fun _ => True := by
  induction p with
  | ret a => trivial
  | throw e => trivial
  | await op k ih => exact ⟨trivial, ih⟩

/-- A program whose requests are all expected while `I` holds, and keep it. -/
theorem Obeys.only {F : S.Op → Prop} {p : Prog S ε α} (hp : p.Only F)
    {I : List (Event S) → Prop} (hE : ∀ op h, F op → I h → E h op)
    (hstep : ∀ op r h, F op → I h → I (⟨pid, op, r⟩ :: h)) (hI : I h) :
    p.Obeys E pid (fun _ => I) (fun _ => I) h := by
  induction p generalizing h with
  | ret a => exact hI
  | throw e => exact hI
  | await op k ih =>
    exact ⟨hE op h hp.1 hI, fun r => ih r (hp.2 r) (hstep op r h hp.1 hI)⟩

end Prog

/-! ## Runs -/

/-- More start states allow more runs. -/
theorem Reachable.start_mono {M : Machine S σ ι η} {W : Workload S ε κ} {start start' : σ → Prop}
    {allowed : Condition S σ} {s : System S ε κ σ} (hs : Reachable M W start allowed s)
    (h : ∀ s, start s → start' s) : Reachable M W start' allowed s := by
  induction hs with
  | initial h₀ => exact .initial (h _ h₀)
  | step m _ hm hstep ih => exact .step m ih hm hstep

/-- Two runs that were computed one after the other, as far as `f` shows them. -/
theorem Reachable.view_leads {M : Machine S σ ι η} {W : Workload S ε κ} {start : σ → Prop} {s₀ : σ}
    (h₀ : start s₀) (ms ms' : List (Move κ ι η)) {β : Type}
    {f : System S ε κ σ → System S ε κ σ → β} {x : β}
    (h : (((System.initial s₀).run M W ms).bind fun s => (s.run M W ms').map (f s)) = some x) :
    ∃ s s', Reachable M W start anything s ∧ Leads M W anything s s' ∧ f s s' = x := by
  obtain ⟨s, hs, h⟩ := Option.bind_eq_some_iff.mp h
  obtain ⟨s', hs', hx⟩ := Option.map_eq_some_iff.mp h
  have hleads : ∀ (ms : List (Move κ ι η)) {t u : System S ε κ σ}, Leads M W anything s t →
      t.run M W ms = some u → Leads M W anything s u := by
    intro ms
    induction ms with
    | nil => intro t u ht h; cases h; exact ht
    | cons m ms ih =>
      intro t u ht h
      obtain ⟨v, hv, h'⟩ := Option.bind_eq_some_iff.mp h
      exact ih (.step m ht (fun _ _ _ _ _ _ _ => trivial) hv) h'
  exact ⟨s, s', Reachable.run ms (.initial h₀) hs, hleads ms' .refl hs', hx⟩

variable {M : Machine S σ ι η} {W : Workload S ε κ} {start : σ → Prop}
  {allowed : Condition S σ} {E : κ → List (Event S) → S.Op → Prop}

/-- The program of every job makes the requests that are expected of the job. -/
def Workload.Obeys (W : Workload S ε κ) (E : κ → List (Event S) → S.Op → Prop) : Prop :=
  ∀ j pid, (W.launch j).Obeys (E j) pid (fun _ _ => True) (fun _ _ => True) []

theorem Workload.Obeys.and {E' : κ → List (Event S) → S.Op → Prop} (hW : W.Obeys E)
    (hW' : W.Obeys E') : W.Obeys fun j h op => E j h op ∧ E' j h op := fun j pid =>
  ((hW j pid).and (hW' j pid)).post (fun _ _ _ => trivial) fun _ _ _ => trivial

/-- Every program makes some requests. -/
theorem Workload.obeys_any (W : Workload S ε κ) : W.Obeys fun _ _ _ => True := by
  have hany : ∀ (p : Prog S ε Unit) pid h,
      p.Obeys (fun _ _ => True) pid (fun _ _ => True) (fun _ _ => True) h := by
    intro p pid
    induction p with
    | ret a => exact fun _ => trivial
    | throw e => exact fun _ => trivial
    | await op k ih => exact fun h => ⟨trivial, fun r => ih r _⟩
  exact fun j pid => hany (W.launch j) pid []

/-- Every program in flight makes expected requests after those it has made. -/
structure Tracked (E : κ → List (Event S) → S.Op → Prop) (s : System S ε κ σ) : Prop where
  past : ∀ ev ∈ s.config.trace, ev.pid < s.next
  fresh : ∀ p ∈ s.procs, p.pid < s.next
  history : ∀ pid, ∃ j, InOrder (E j) (own pid s.config.trace)
  prog : ∀ p ∈ s.procs, InOrder (E p.job) (own p.pid s.config.trace) ∧
    p.prog.Obeys (E p.job) p.pid (fun _ _ => True) (fun _ _ => True) (own p.pid s.config.trace)

theorem own_eq_nil {pid : ℕ} {tr : List (Event S)} (h : ∀ ev ∈ tr, ev.pid ≠ pid) :
    own pid tr = [] := by
  simpa [own] using h

theorem Tracked.step (hW : W.Obeys E) [Inhabited κ] {s s' : System S ε κ σ} (h : Tracked E s)
    {m : Move κ ι η} (hstep : s.step M W m = some s') : Tracked E s' := by
  cases m with
  | start job =>
    obtain ⟨-, rfl⟩ := System.step_start hstep
    have hnil : own s.next s.config.trace = [] :=
      own_eq_nil fun ev hev => Nat.ne_of_lt (h.past ev hev)
    refine ⟨fun ev hev => Nat.lt_succ_of_lt (h.past ev hev), ?_, h.history, ?_⟩
    · rintro p (_ | ⟨_, hp⟩)
      · exact Nat.lt_succ_self _
      · exact Nat.lt_succ_of_lt (h.fresh p hp)
    · rintro p (_ | ⟨_, hp⟩)
      · show InOrder (E job) (own s.next s.config.trace) ∧ _
        rw [hnil]
        exact ⟨trivial, hW job s.next⟩
      · exact h.prog p hp
  | perform pid input =>
    obtain ⟨job, op, k, r, state, hp, -, rfl⟩ := System.step_perform hstep
    obtain ⟨hhist, hop, hk⟩ := h.prog _ hp
    have hpid : pid < s.next := h.fresh _ hp
    have hself : own pid (s.config.after pid op r state).trace =
        ⟨pid, op, r⟩ :: own pid s.config.trace := own_cons_self ⟨pid, op, r⟩ _
    refine ⟨?_, ?_, fun q => ?_, ?_⟩
    · rintro ev (_ | ⟨_, hev⟩)
      · exact hpid
      · exact h.past ev hev
    · rintro q (_ | ⟨_, hq⟩)
      · exact hpid
      · exact h.fresh q (List.mem_filter.mp hq).1
    · by_cases hq : pid = q
      · subst hq
        exact ⟨job, by rw [hself]; exact ⟨hop, hhist⟩⟩
      · obtain ⟨j, hj⟩ := h.history q
        exact ⟨j, by rw [Config.after, own_cons_of_ne hq]; exact hj⟩
    · rintro q (_ | ⟨_, hq⟩)
      · show InOrder (E job) (own pid (s.config.after pid op r state).trace) ∧ _
        rw [hself]
        exact ⟨⟨hop, hhist⟩, hk r⟩
      · obtain ⟨hq, hne⟩ := List.mem_filter.mp hq
        have hne : pid ≠ q.pid := fun he => of_decide_eq_true hne he.symm
        rw [Config.after, own_cons_of_ne hne]
        exact h.prog q hq
  | stop pid =>
    cases hstep
    have hmem : ∀ q ∈ s.procs.filter (fun p => p.pid ≠ pid), q ∈ s.procs := fun q hq =>
      (List.mem_filter.mp hq).1
    exact ⟨h.past, fun p hp => h.fresh p (hmem p hp), h.history, fun p hp => h.prog p (hmem p hp)⟩
  | env act =>
    obtain ⟨state, -, rfl⟩ := System.step_env hstep
    have hmem : ∀ q ∈ (if M.restarts act = true then [] else s.procs), q ∈ s.procs := by
      intro q hq
      split_ifs at hq
      · cases hq
      · exact hq
    exact ⟨h.past, fun p hp => h.fresh p (hmem p hp), h.history, fun p hp => h.prog p (hmem p hp)⟩

theorem Reachable.tracked (hW : W.Obeys E) [Inhabited κ] {s : System S ε κ σ}
    (hs : Reachable M W start allowed s) : Tracked E s := by
  induction hs with
  | initial h => exact ⟨by simp [System.initial], by simp [System.initial],
      fun _ => ⟨default, trivial⟩, by simp [System.initial]⟩
  | step m _ _ hstep ih => exact ih.step hW hstep

/-- The requests of each process are expected of some job after one another. -/
theorem Reachable.history (hW : W.Obeys E) [Inhabited κ] {s : System S ε κ σ}
    (hs : Reachable M W start allowed s) (pid : ℕ) :
    ∃ j, InOrder (E j) (own pid s.config.trace) := (hs.tracked hW).history pid

/-- If every job obeys `E` and ends with `Q` or `X`, then every program in flight obeys `E` after
    its own requests and ends with `Q` or `X`. -/
theorem Reachable.outcome {Q : κ → Unit → List (Event S) → Prop}
    {X : κ → ε → List (Event S) → Prop}
    (hW : ∀ j pid, (W.launch j).Obeys (E j) pid (Q j) (X j) []) [Inhabited κ]
    {s : System S ε κ σ} (hs : Reachable M W start allowed s) :
    ∀ p ∈ s.procs, p.prog.Obeys (E p.job) p.pid (Q p.job) (X p.job) (own p.pid s.config.trace) := by
  have hE : W.Obeys E := fun j pid => (hW j pid).post (fun _ _ _ => trivial) fun _ _ _ => trivial
  induction hs with
  | initial h => simp [System.initial]
  | @step s s' m hs hm hstep ih =>
    cases m with
    | start job =>
      have ht := hs.tracked hE
      obtain ⟨-, rfl⟩ := System.step_start hstep
      have hnil : own s.next s.config.trace = [] :=
        own_eq_nil fun ev hev => Nat.ne_of_lt (ht.past ev hev)
      rintro p (_ | ⟨_, hp⟩)
      · show (W.launch job).Obeys (E job) s.next (Q job) (X job) (own s.next s.config.trace)
        rw [hnil]
        exact hW job s.next
      · exact ih p hp
    | perform pid input =>
      obtain ⟨job, op, k, r, state, hp, -, rfl⟩ := System.step_perform hstep
      rintro q (_ | ⟨_, hq⟩)
      · show (k r).Obeys (E job) pid (Q job) (X job) (own pid (s.config.after pid op r state).trace)
        rw [Config.after, own_cons_self ⟨pid, op, r⟩]
        exact (ih _ hp).2 r
      · obtain ⟨hq, hne⟩ := List.mem_filter.mp hq
        have hne : pid ≠ q.pid := fun he => of_decide_eq_true hne he.symm
        rw [Config.after, own_cons_of_ne hne]
        exact ih q hq
    | stop pid =>
      cases hstep
      exact fun p hp => ih p (List.mem_filter.mp hp).1
    | env act =>
      obtain ⟨state, -, rfl⟩ := System.step_env hstep
      intro q hq
      simp only at hq
      split_ifs at hq
      · cases hq
      · exact ih q hq

/-- A request that is answered, with what is known of it. -/
structure Answered (M : Machine S σ ι η) (allowed : Condition S σ)
    (E : κ → List (Event S) → S.Op → Prop) (c : Config S σ) (ev : Event S) (state : σ) : Prop where
  allowed : allowed c ev.pid ev.op
  expected : ∃ j, E j (own ev.pid c.trace) ev.op ∧ InOrder (E j) (own ev.pid c.trace)
  history : ∀ pid, ∃ j, InOrder (E j) (own pid c.trace)
  reply : ∃ i, M.respond ev.pid c.state ev.op i = some (ev.ret, state)

/-- A step of a reachable system starts or stops a program, is an act of the environment, or
    answers a request. -/
theorem Reachable.step_cases (hW : W.Obeys E) [Inhabited κ] {s s' : System S ε κ σ}
    (hs : Reachable M W start allowed s) {m : Move κ ι η} (hm : s.Meets allowed m)
    (hstep : s.step M W m = some s') :
    s'.config = s.config ∨
      (∃ act state, M.env s.config.state act = some state ∧
        s'.config = { s.config with state := state }) ∨
      ∃ ev state, Answered M allowed E s.config ev state ∧
        s'.config = ⟨state, ev :: s.config.trace⟩ := by
  cases m with
  | start job =>
    obtain ⟨-, rfl⟩ := System.step_start hstep
    exact .inl rfl
  | perform pid input =>
    obtain ⟨job, op, k, r, state, hp, hr, rfl⟩ := System.step_perform hstep
    have ht := hs.tracked hW
    obtain ⟨hhist, hop, -⟩ := ht.prog _ hp
    exact .inr (.inr ⟨⟨pid, op, r⟩, state,
      ⟨hm pid input job op k rfl hp, ⟨job, hop, hhist⟩, ht.history, input, hr⟩, rfl⟩)
  | stop pid =>
    cases hstep
    exact .inl rfl
  | env act =>
    obtain ⟨state, hstate, rfl⟩ := System.step_env hstep
    exact .inr (.inl ⟨act, state, hstate, rfl⟩)

/-- What holds initially and is kept by every act and by every answered request holds in every
    reachable system. -/
theorem Reachable.invariant (hW : W.Obeys E) [Inhabited κ] {I : Config S σ → Prop}
    (h₀ : ∀ s, start s → I ⟨s, []⟩)
    (henv : ∀ c act state, I c → M.env c.state act = some state → I { c with state := state })
    (hstep : ∀ c ev state, I c → Answered M allowed E c ev state → I ⟨state, ev :: c.trace⟩)
    {s : System S ε κ σ} (hs : Reachable M W start allowed s) : I s.config := by
  induction hs with
  | initial h => exact h₀ _ h
  | @step s s' m hs hm hmove ih =>
    rcases hs.step_cases hW hm hmove with heq | ⟨act, state, henv', heq⟩ | ⟨ev, state, hans, heq⟩
    · rw [heq]
      exact ih
    · rw [heq]
      exact henv _ _ _ ih henv'
    · rw [heq]
      exact hstep _ _ _ ih hans

/-- What every act and every answer keeps holds after a run, whatever its programs ask for. -/
theorem Leads.invariant {s t : System S ε κ σ} (h : Leads M W allowed s t) {I : Config S σ → Prop}
    (hs : I s.config)
    (henv : ∀ c act state, I c → M.env c.state act = some state → I { c with state := state })
    (hstep : ∀ c ev state i, I c → M.respond ev.pid c.state ev.op i = some (ev.ret, state) →
      I ⟨state, ev :: c.trace⟩) : I t.config := by
  refine h.keeps (R := fun u => I u.config) hs fun u u' m hu _ hmove => ?_
  cases m with
  | start job =>
    obtain ⟨-, rfl⟩ := System.step_start hmove
    exact hu
  | perform pid input =>
    obtain ⟨job, op, k, r, state, -, hr, rfl⟩ := System.step_perform hmove
    exact hstep _ ⟨pid, op, r⟩ state input hu hr
  | stop pid =>
    cases hmove
    exact hu
  | env act =>
    obtain ⟨state, hstate, rfl⟩ := System.step_env hmove
    exact henv _ act state hu hstate

end CryptoPay.Async
