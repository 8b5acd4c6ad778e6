import CryptoPay.Async.Prog

/-!
# Interleavings of programs over a shared state

A `Machine` answers the requests of a signature on a shared state `σ`; what a
request leaves open (a generated id, the answer of a remote service, a lost
connection) is fixed by an input `ι`. A `Workload` says which program a job
runs and which jobs may run at the same time. A `System` is the shared state,
the requests answered so far and the programs in flight; a `Move` starts a
job, answers the request one program awaits, ends a program at any point (when
it has finished or because it crashed), or lets the environment act.

`Reachable` collects the systems that some sequence of moves leads to. Its
parameter `allowed` restricts the requests that may be answered in a state:
`fun _ _ _ => True` gives every interleaving, anything else the runs all of
whose steps meet that condition.
-/

namespace CryptoPay.Async

/-- How requests are answered on a shared state. `respond pid s op i` is the
    reply to process `pid` and the state after it, or `none` when the input
    `i` does not resolve the request `op`. -/
structure Machine (S : Signature) (σ ι η : Type) where
  respond : ℕ → σ → (op : S.Op) → ι → Option (S.Ret op × σ)
  env : σ → η → Option σ
  /-- Whether an act of the environment ends every program in flight. -/
  restarts : η → Bool

/-- The jobs of a system and their programs. -/
structure Workload (S : Signature) (ε κ : Type) where
  launch : κ → Prog S ε Unit
  /-- Whether two jobs may be in flight at the same time. -/
  compatible : κ → κ → Bool
  symm : ∀ j j', compatible j j' = compatible j' j

/-- A request that has been answered. -/
structure Event (S : Signature) where
  pid : ℕ
  op : S.Op
  ret : S.Ret op

/-- The shared state with the answered requests, newest first. -/
structure Config (S : Signature) (σ : Type) where
  state : σ
  trace : List (Event S)

/-- The configuration after process `pid` got the reply `r` to `op`. -/
def Config.after {S : Signature} {σ : Type} (c : Config S σ) (pid : ℕ) (op : S.Op)
    (r : S.Ret op) (state : σ) : Config S σ :=
  ⟨state, ⟨pid, op, r⟩ :: c.trace⟩

/-- A program in flight. -/
structure Proc (S : Signature) (ε κ : Type) where
  pid : ℕ
  job : κ
  prog : Prog S ε Unit

/-- A shared configuration with the programs in flight; `next` is the process
    id of the next job. -/
structure System (S : Signature) (ε κ σ : Type) where
  config : Config S σ
  procs : List (Proc S ε κ)
  next : ℕ

/-- One step of a system. -/
inductive Move (κ ι η : Type) where
  | start (job : κ)
  | perform (pid : ℕ) (input : ι)
  | stop (pid : ℕ)
  | env (act : η)

variable {S : Signature} {ε κ σ ι η : Type}

/-- No program in flight, no request answered. -/
def System.initial (s : σ) : System S ε κ σ := ⟨⟨s, []⟩, [], 0⟩

/-- The system after a move, or `none` when the move is not enabled. -/
def System.step (M : Machine S σ ι η) (W : Workload S ε κ) (s : System S ε κ σ) :
    Move κ ι η → Option (System S ε κ σ)
  | .start job =>
    if s.procs.all (fun p => W.compatible p.job job) then
      some { s with procs := ⟨s.next, job, W.launch job⟩ :: s.procs, next := s.next + 1 }
    else none
  | .perform pid input =>
    match s.procs.find? (fun p => p.pid = pid) with
    | some ⟨_, job, .await op k⟩ =>
      match M.respond pid s.config.state op input with
      | some (r, state) =>
        some { s with
          config := s.config.after pid op r state
          procs := ⟨pid, job, k r⟩ :: s.procs.filter (fun p => p.pid ≠ pid) }
      | none => none
    | _ => none
  | .stop pid => some { s with procs := s.procs.filter (fun p => p.pid ≠ pid) }
  | .env act =>
    match M.env s.config.state act with
    | some state =>
      some { s with
        config := { s.config with state := state }
        procs := if M.restarts act then [] else s.procs }
    | none => none

/-- The program has returned or thrown. -/
def Prog.ended {α : Type} : Prog S ε α → Bool
  | .await .. => false
  | _ => true

/-- Every program that was started has ended. -/
def System.quiet (s : System S ε κ σ) : Bool :=
  (List.range s.next).all fun pid => s.procs.any fun p => p.pid = pid && p.prog.ended

theorem System.ended_of_quiet {s : System S ε κ σ} (h : s.quiet = true) {pid : ℕ}
    (hpid : pid < s.next) : ∃ p ∈ s.procs, p.pid = pid ∧ p.prog.ended = true := by
  have hany := List.all_eq_true.mp h pid (List.mem_range.mpr hpid)
  simpa using hany

/-- A sequence of moves. -/
def System.run (M : Machine S σ ι η) (W : Workload S ε κ) (s : System S ε κ σ) :
    List (Move κ ι η) → Option (System S ε κ σ)
  | [] => some s
  | m :: ms => (s.step M W m).bind fun s' => s'.run M W ms

/-- A condition on the request that a process awaits in a configuration. -/
abbrev Condition (S : Signature) (σ : Type) := Config S σ → ℕ → S.Op → Prop

/-- A move meets the condition: a request is answered only where it holds. -/
def System.Meets (allowed : Condition S σ) (s : System S ε κ σ) (m : Move κ ι η) : Prop :=
  ∀ pid input job op k, m = .perform pid input → ⟨pid, job, .await op k⟩ ∈ s.procs →
    allowed s.config pid op

/-- The systems reached from an initial state by moves that meet `allowed`. -/
inductive Reachable (M : Machine S σ ι η) (W : Workload S ε κ) (start : σ → Prop)
    (allowed : Condition S σ) : System S ε κ σ → Prop where
  | initial {s : σ} (h : start s) : Reachable M W start allowed (.initial s)
  | step {s s' : System S ε κ σ} (m : Move κ ι η) (hs : Reachable M W start allowed s)
      (hm : s.Meets allowed m) (h : s.step M W m = some s') : Reachable M W start allowed s'

/-- The condition that allows every step. -/
abbrev anything : Condition S σ := fun _ _ _ => True

theorem System.Meets.mono {allowed allowed' : Condition S σ} {s : System S ε κ σ}
    {m : Move κ ι η} (hm : s.Meets allowed m)
    (h : ∀ c pid op, allowed c pid op → allowed' c pid op) : s.Meets allowed' m :=
  fun pid input job op k he hp => h _ _ _ (hm pid input job op k he hp)

/-- A weaker condition allows more runs. -/
theorem Reachable.mono {M : Machine S σ ι η} {W : Workload S ε κ} {start : σ → Prop}
    {allowed allowed' : Condition S σ} {s : System S ε κ σ} (hs : Reachable M W start allowed s)
    (h : ∀ c pid op, allowed c pid op → allowed' c pid op) :
    Reachable M W start allowed' s := by
  induction hs with
  | initial h₀ => exact .initial h₀
  | step m _ hm hstep ih => exact .step m ih (hm.mono h) hstep

theorem Reachable.run {M : Machine S σ ι η} {W : Workload S ε κ} {start : σ → Prop} :
    ∀ (ms : List (Move κ ι η)) {s s' : System S ε κ σ}, Reachable M W start anything s →
      s.run M W ms = some s' → Reachable M W start anything s' := by
  intro ms
  induction ms with
  | nil => intro s s' hs h; cases h; exact hs
  | cons m ms ih =>
    intro s s' hs h
    obtain ⟨t, ht, h'⟩ := Option.bind_eq_some_iff.mp h
    exact ih (.step m hs (fun _ _ _ _ _ _ _ => trivial) ht) h'

/-- A run that was computed, as far as `f` shows it. -/
theorem Reachable.view {M : Machine S σ ι η} {W : Workload S ε κ} {start : σ → Prop} {s₀ : σ}
    (h₀ : start s₀) (ms : List (Move κ ι η)) {β : Type} {f : System S ε κ σ → β} {x : β}
    (h : ((System.initial s₀).run M W ms).map f = some x) :
    ∃ s, Reachable M W start anything s ∧ f s = x := by
  obtain ⟨s, hs, hx⟩ := Option.map_eq_some_iff.mp h
  exact ⟨s, Reachable.run ms (.initial h₀) hs, hx⟩

/-- A run and one more move that were computed, as far as `f` shows them. -/
theorem Reachable.view_step {M : Machine S σ ι η} {W : Workload S ε κ} {start : σ → Prop} {s₀ : σ}
    (h₀ : start s₀) (ms : List (Move κ ι η)) {m : Move κ ι η} {β : Type}
    {f : System S ε κ σ → System S ε κ σ → β} {x : β}
    (h : (((System.initial s₀).run M W ms).bind fun s => (s.step M W m).map (f s)) = some x) :
    ∃ s s', Reachable M W start anything s ∧ s.step M W m = some s' ∧ f s s' = x := by
  obtain ⟨s, hs, h⟩ := Option.bind_eq_some_iff.mp h
  obtain ⟨s', hs', hx⟩ := Option.map_eq_some_iff.mp h
  exact ⟨s, s', Reachable.run ms (.initial h₀) hs, hs', hx⟩

/-- The request that a move answers passes the check. -/
def System.checks (ok : Config S σ → ℕ → S.Op → Bool) (s : System S ε κ σ) :
    Move κ ι η → Bool
  | .perform pid _ => s.procs.all fun p => match p.prog with
    | .await op _ => p.pid ≠ pid || ok s.config pid op
    | _ => true
  | _ => true

/-- A sequence of moves whose requests all pass the check. -/
def System.runWhere (ok : Config S σ → ℕ → S.Op → Bool) (M : Machine S σ ι η)
    (W : Workload S ε κ) (s : System S ε κ σ) : List (Move κ ι η) → Option (System S ε κ σ)
  | [] => some s
  | m :: ms =>
    if s.checks ok m then (s.step M W m).bind fun s' => s'.runWhere ok M W ms else none

theorem Reachable.runWhere {M : Machine S σ ι η} {W : Workload S ε κ} {start : σ → Prop}
    {allowed : Condition S σ} {ok : Config S σ → ℕ → S.Op → Bool}
    (hok : ∀ c pid op, ok c pid op = true → allowed c pid op) :
    ∀ (ms : List (Move κ ι η)) {s s' : System S ε κ σ}, Reachable M W start allowed s →
      s.runWhere ok M W ms = some s' → Reachable M W start allowed s' := by
  intro ms
  induction ms with
  | nil => intro s s' hs h; cases h; exact hs
  | cons m ms ih =>
    intro s s' hs h
    simp only [System.runWhere] at h
    split_ifs at h with hm
    obtain ⟨t, ht, h'⟩ := Option.bind_eq_some_iff.mp h
    refine ih (.step m hs (fun pid input job op k he hp => ?_) ht) h'
    subst he
    have hp := List.all_eq_true.mp hm _ hp
    exact hok _ _ _ (by simpa using hp)

/-- A run that was computed with its checks, as far as `f` shows it. -/
theorem Reachable.viewWhere {M : Machine S σ ι η} {W : Workload S ε κ} {start : σ → Prop}
    {allowed : Condition S σ} {ok : Config S σ → ℕ → S.Op → Bool}
    (hok : ∀ c pid op, ok c pid op = true → allowed c pid op) {s₀ : σ} (h₀ : start s₀)
    (ms : List (Move κ ι η)) {β : Type} {f : System S ε κ σ → β} {x : β}
    (h : ((System.initial s₀).runWhere ok M W ms).map f = some x) :
    ∃ s, Reachable M W start allowed s ∧ f s = x := by
  obtain ⟨s, hs, hx⟩ := Option.map_eq_some_iff.mp h
  exact ⟨s, Reachable.runWhere hok ms (.initial h₀) hs, hx⟩

/-- A run leads from one system to another, all of its moves meeting `allowed`. -/
inductive Leads (M : Machine S σ ι η) (W : Workload S ε κ) (allowed : Condition S σ)
    (s : System S ε κ σ) : System S ε κ σ → Prop where
  | refl : Leads M W allowed s s
  | step {t u : System S ε κ σ} (m : Move κ ι η) (hs : Leads M W allowed s t)
      (hm : t.Meets allowed m) (h : t.step M W m = some u) : Leads M W allowed s u

/-- A property that every move keeps is kept by a run. -/
theorem Leads.keeps {M : Machine S σ ι η} {W : Workload S ε κ} {allowed : Condition S σ}
    {s t : System S ε κ σ} (h : Leads M W allowed s t) {R : System S ε κ σ → Prop} (hs : R s)
    (hstep : ∀ t u (m : Move κ ι η), R t → t.Meets allowed m → t.step M W m = some u → R u) :
    R t := by
  induction h with
  | refl => exact hs
  | step m _ hm hu ih => exact hstep _ _ m ih hm hu

/-- A run from a reachable system stays among them. -/
theorem Leads.reachable {M : Machine S σ ι η} {W : Workload S ε κ} {start : σ → Prop}
    {allowed : Condition S σ} {s t : System S ε κ σ} (h : Leads M W allowed s t)
    (hs : Reachable M W start allowed s) : Reachable M W start allowed t := by
  induction h with
  | refl => exact hs
  | step m _ hm hu ih => exact .step m ih hm hu

/-- A run that was computed with its checks leads to its end. -/
theorem Leads.runWhere {M : Machine S σ ι η} {W : Workload S ε κ} {allowed : Condition S σ}
    {ok : Config S σ → ℕ → S.Op → Bool} (hok : ∀ c pid op, ok c pid op = true → allowed c pid op)
    {s : System S ε κ σ} :
    ∀ (ms : List (Move κ ι η)) {t u : System S ε κ σ}, Leads M W allowed s t →
      t.runWhere ok M W ms = some u → Leads M W allowed s u := by
  intro ms
  induction ms with
  | nil => intro t u ht h; cases h; exact ht
  | cons m ms ih =>
    intro t u ht h
    simp only [System.runWhere] at h
    split_ifs at h with hm
    obtain ⟨v, hv, h'⟩ := Option.bind_eq_some_iff.mp h
    refine ih (.step m ht (fun pid input job op k he hp => ?_) hv) h'
    subst he
    have hp := List.all_eq_true.mp hm _ hp
    exact hok _ _ _ (by simpa using hp)

/-! ## What one move does -/

/-- A program in flight after a request was answered: the one that awaited it,
    continued, or another one, untouched. -/
theorem System.step_perform {M : Machine S σ ι η} {W : Workload S ε κ}
    {s s' : System S ε κ σ} {pid : ℕ} {input : ι}
    (h : s.step M W (.perform pid input) = some s') :
    ∃ job op k r state, ⟨pid, job, .await op k⟩ ∈ s.procs ∧
      M.respond pid s.config.state op input = some (r, state) ∧
      s' = { s with
        config := s.config.after pid op r state
        procs := ⟨pid, job, k r⟩ :: s.procs.filter (fun p => p.pid ≠ pid) } := by
  simp only [System.step] at h
  split at h
  · rename_i q job op k hfind
    split at h
    · rename_i r state hr
      have hq : q = pid := by simpa using List.find?_some hfind
      subst hq
      exact ⟨job, op, k, r, state, List.mem_of_find?_eq_some hfind, hr, (Option.some.inj h).symm⟩
    · cases h
  · cases h

theorem System.step_start {M : Machine S σ ι η} {W : Workload S ε κ}
    {s s' : System S ε κ σ} {job : κ} (h : s.step M W (.start job) = some s') :
    (∀ p ∈ s.procs, W.compatible p.job job = true) ∧
      s' = { s with procs := ⟨s.next, job, W.launch job⟩ :: s.procs, next := s.next + 1 } := by
  simp only [System.step] at h
  split at h
  · rename_i hall
    exact ⟨by simpa using hall, (Option.some.inj h).symm⟩
  · cases h

theorem System.step_env {M : Machine S σ ι η} {W : Workload S ε κ}
    {s s' : System S ε κ σ} {act : η} (h : s.step M W (.env act) = some s') :
    ∃ state, M.env s.config.state act = some state ∧
      s' = { s with
        config := { s.config with state := state }
        procs := if M.restarts act then [] else s.procs } := by
  simp only [System.step] at h
  split at h
  · rename_i state hst
    exact ⟨state, hst, (Option.some.inj h).symm⟩
  · cases h

/-- Whatever a move does, it answers at most one request. -/
theorem System.step_trace {M : Machine S σ ι η} {W : Workload S ε κ} {s s' : System S ε κ σ}
    {m : Move κ ι η} (h : s.step M W m = some s') :
    s'.config.trace = s.config.trace ∨
      ∃ input ev, m = .perform ev.pid input ∧ s'.config.trace = ev :: s.config.trace ∧
        M.respond ev.pid s.config.state ev.op input = some (ev.ret, s'.config.state) ∧
        ∃ p ∈ s.procs, p.pid = ev.pid ∧ ∃ k, p.prog = .await ev.op k := by
  cases m with
  | start job =>
    obtain ⟨-, rfl⟩ := System.step_start h
    exact .inl rfl
  | perform pid input =>
    obtain ⟨job, op, k, r, state, hp, hr, rfl⟩ := System.step_perform h
    exact .inr ⟨input, ⟨pid, op, r⟩, rfl, rfl, hr, _, hp, rfl, k, rfl⟩
  | stop pid =>
    cases h
    exact .inl rfl
  | env act =>
    obtain ⟨state, -, rfl⟩ := System.step_env h
    exact .inl rfl

/-! ## Machines that answer more -/

/-- Whatever `M` answers, and whatever its environment does, `M'` allows. -/
structure Machine.Within (M M' : Machine S σ ι η) : Prop where
  respond : ∀ pid s op i r, M.respond pid s op i = some r → M'.respond pid s op i = some r
  env : ∀ s act s', M.env s act = some s' → M'.env s act = some s'
  restarts : M'.restarts = M.restarts

theorem System.step_within {M M' : Machine S σ ι η} (hM : M.Within M') {W : Workload S ε κ}
    {s s' : System S ε κ σ} {m : Move κ ι η} (h : s.step M W m = some s') :
    s.step M' W m = some s' := by
  cases m with
  | start job => exact h
  | perform pid input =>
    simp only [System.step] at h ⊢
    split at h
    · rename_i q job op k hfind
      split at h
      · rename_i r state hr
        rw [hM.respond _ _ _ _ _ hr]
        exact h
      · cases h
    · cases h
  | stop pid => exact h
  | env act =>
    simp only [System.step] at h ⊢
    split at h
    · rename_i state hstate
      rw [hM.env _ _ _ hstate, hM.restarts]
      exact h
    · cases h

theorem Reachable.within {M M' : Machine S σ ι η} (hM : M.Within M') {W : Workload S ε κ}
    {start : σ → Prop} {allowed : Condition S σ} {s : System S ε κ σ}
    (hs : Reachable M W start allowed s) : Reachable M' W start allowed s := by
  induction hs with
  | initial h => exact .initial h
  | step m _ hm h ih => exact .step m ih hm (System.step_within hM h)

theorem exists_suffix_of_mem {α : Type} {x : α} {xs : List α} (h : x ∈ xs) :
    ∃ ys, (x :: ys) <:+ xs := by
  obtain ⟨l₁, l₂, rfl⟩ := List.append_of_mem h
  exact ⟨l₂, List.suffix_append l₁ _⟩

/-- A request in the trace of a reachable system was answered on the way to it:
    in a reachable system `s₁` with a process that awaited it. -/
theorem Reachable.answered {M : Machine S σ ι η} {W : Workload S ε κ} {start : σ → Prop}
    {allowed : Condition S σ} {s : System S ε κ σ} (hs : Reachable M W start allowed s)
    {ev : Event S} {tr : List (Event S)} (h : (ev :: tr) <:+ s.config.trace) :
    ∃ s₁, Reachable M W start allowed s₁ ∧ s₁.config.trace = tr ∧
      (∃ p ∈ s₁.procs, p.pid = ev.pid ∧ ∃ k, p.prog = .await ev.op k) ∧
      (∃ i state, M.respond ev.pid s₁.config.state ev.op i = some (ev.ret, state)) ∧
      Leads M W allowed s₁ s := by
  induction hs with
  | initial h₀ => cases List.suffix_nil.mp h
  | @step t u m ht hm hu ih =>
    rcases System.step_trace hu with htr | ⟨input, ev', rfl, htr, hr, hp⟩
    · rw [htr] at h
      obtain ⟨s₁, hs₁, htr₁, hp, hr, hleads⟩ := ih h
      exact ⟨s₁, hs₁, htr₁, hp, hr, hleads.step m hm hu⟩
    · rw [htr] at h
      rcases List.suffix_cons_iff.mp h with heq | h
      · obtain ⟨rfl, rfl⟩ := List.cons.inj heq
        exact ⟨t, ht, rfl, hp, ⟨input, _, hr⟩, .step _ .refl hm hu⟩
      · obtain ⟨s₁, hs₁, htr₁, hp, hr, hleads⟩ := ih h
        exact ⟨s₁, hs₁, htr₁, hp, hr, hleads.step _ hm hu⟩

end CryptoPay.Async
