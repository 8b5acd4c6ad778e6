import CryptoPay.Async.History

/-!
# Runs with the time of every request

The trace of a configuration says in which order requests were answered, not
when. `Timed` follows a run and stamps each request with what `clock` shows of
the state that answers it; it is a run with a history variable, and every
reachable system has one.

Results:
* `Timed.reachable`, `Timed.trace`, `Reachable.timed`: stamping neither adds nor
  removes a run or a request.
* `Timed.invariant`: an invariant of the configuration, of the stamped requests
  and of the jobs in flight.
-/

namespace CryptoPay.Async

variable {S : Signature} {ε κ σ ι η τ : Type}

/-- The job runs as process `pid`. -/
def System.flying (s : System S ε κ σ) (j : κ) (pid : ℕ) : Prop :=
  ∃ p ∈ s.procs, p.job = j ∧ p.pid = pid

/-- A run that leads to a system, with its requests and their times, newest first. -/
inductive Timed (M : Machine S σ ι η) (W : Workload S ε κ) (start : σ → Prop)
    (allowed : Condition S σ) (clock : σ → τ) :
    System S ε κ σ → List (τ × Event S) → Prop where
  | initial {s : σ} (h : start s) : Timed M W start allowed clock (.initial s) []
  | silent {s s' : System S ε κ σ} {l : List (τ × Event S)} (m : Move κ ι η)
      (hs : Timed M W start allowed clock s l) (hm : s.Meets allowed m)
      (h : s.step M W m = some s') (htr : s'.config.trace = s.config.trace) :
      Timed M W start allowed clock s' l
  | request {s s' : System S ε κ σ} {l : List (τ × Event S)} {ev : Event S} (m : Move κ ι η)
      (hs : Timed M W start allowed clock s l) (hm : s.Meets allowed m)
      (h : s.step M W m = some s') (htr : s'.config.trace = ev :: s.config.trace) :
      Timed M W start allowed clock s' ((clock s.config.state, ev) :: l)

variable {M : Machine S σ ι η} {W : Workload S ε κ} {start : σ → Prop} {allowed : Condition S σ}
  {clock : σ → τ} {s s' : System S ε κ σ} {l : List (τ × Event S)}
  {E : κ → List (Event S) → S.Op → Prop}

theorem Timed.reachable (h : Timed M W start allowed clock s l) :
    Reachable M W start allowed s := by
  induction h with
  | initial h => exact .initial h
  | silent m _ hm h _ ih => exact .step m ih hm h
  | request m _ hm h _ ih => exact .step m ih hm h

/-- Without the times, what is stamped is the trace. -/
theorem Timed.trace (h : Timed M W start allowed clock s l) :
    l.map Prod.snd = s.config.trace := by
  induction h with
  | initial h => rfl
  | silent m _ _ _ htr ih => rw [htr, ih]
  | request m _ _ _ htr ih => rw [htr, ← ih]; rfl

/-- Every run can be stamped. -/
theorem Reachable.timed (clock : σ → τ) (h : Reachable M W start allowed s) :
    ∃ l, Timed M W start allowed clock s l := by
  induction h with
  | initial h => exact ⟨[], .initial h⟩
  | step m _ hm hstep ih =>
    obtain ⟨l, hl⟩ := ih
    rcases System.step_trace hstep with htr | ⟨-, ev, -, htr, -⟩
    · exact ⟨l, .silent m hl hm hstep htr⟩
    · exact ⟨_, .request m hl hm hstep htr⟩

/-- What a sequence of moves adds to a run. -/
def System.stamp (M : Machine S σ ι η) (W : Workload S ε κ) (clock : σ → τ)
    (s : System S ε κ σ) (l : List (τ × Event S)) :
    List (Move κ ι η) → Option (System S ε κ σ × List (τ × Event S))
  | [] => some (s, l)
  | m :: ms => (s.step M W m).bind fun s' =>
    let answered := match m with
      | .perform .. => s'.config.trace.head?.toList
      | _ => []
    s'.stamp M W clock (answered.map (fun ev => (clock s.config.state, ev)) ++ l) ms

theorem Timed.stamp (ms : List (Move κ ι η)) {s s' : System S ε κ σ} {l l' : List (τ × Event S)}
    (hs : Timed M W start anything clock s l)
    (h : s.stamp M W clock l ms = some (s', l')) :
    Timed M W start anything clock s' l' ∧ Leads M W anything s s' := by
  induction ms generalizing s l with
  | nil => cases h; exact ⟨hs, .refl⟩
  | cons m ms ih =>
    obtain ⟨t, ht, h'⟩ := Option.bind_eq_some_iff.mp h
    have hmeets : s.Meets anything m := fun _ _ _ _ _ _ _ => trivial
    have hfirst : ∀ u, Leads M W anything t u → Leads M W anything s u := fun u hu => by
      induction hu with
      | refl => exact .step m .refl hmeets ht
      | step m' _ hm' h ih' => exact .step m' ih' hm' h
    suffices ht' : Timed M W start anything clock t _ from
      (ih ht' h').imp_right (hfirst _)
    cases m with
    | start job =>
      obtain ⟨-, rfl⟩ := System.step_start ht
      exact .silent _ hs hmeets ht rfl
    | perform pid input =>
      obtain ⟨job, op, k, r, state, -, -, rfl⟩ := System.step_perform ht
      exact .request _ hs hmeets ht rfl
    | stop pid =>
      cases ht
      exact .silent _ hs hmeets rfl rfl
    | env act =>
      obtain ⟨state, -, rfl⟩ := System.step_env ht
      exact .silent _ hs hmeets ht rfl

/-! ## Invariants -/

/-- A request of a job in flight, with what is known of it. -/
structure Performs (M : Machine S σ ι η) (allowed : Condition S σ)
    (E : κ → List (Event S) → S.Op → Prop) (c : Config S σ) (F : κ → ℕ → Prop) (j : κ)
    (ev : Event S) (state : σ) : Prop where
  flying : F j ev.pid
  allowed : allowed c ev.pid ev.op
  expected : E j (own ev.pid c.trace) ev.op
  inOrder : ∀ j' pid, F j' pid → InOrder (E j') (own pid c.trace)
  reply : ∃ i, M.respond ev.pid c.state ev.op i = some (ev.ret, state)

/-- What a proof of an invariant `K` consists of: `K c l F` is about the configuration, the
    stamped requests and the jobs in flight. -/
structure Keeps (M : Machine S σ ι η) (W : Workload S ε κ) (start : σ → Prop)
    (allowed : Condition S σ) (clock : σ → τ) (E : κ → List (Event S) → S.Op → Prop)
    (K : Config S σ → List (τ × Event S) → (κ → ℕ → Prop) → Prop) : Prop where
  initial : ∀ s, start s → K ⟨s, []⟩ [] fun _ _ => False
  fewer : ∀ c l F F', K c l F → (∀ j pid, F' j pid → F j pid) → K c l F'
  launch : ∀ c l F j pid, K c l F → (∀ j' pid', F j' pid' → W.compatible j' j = true) →
    (∀ j', ¬ F j' pid) → own pid c.trace = [] → K c l fun j' pid' => F j' pid' ∨ j' = j ∧ pid' = pid
  env : ∀ c l F act state, K c l F → M.env c.state act = some state →
    K { c with state := state } l F
  request : ∀ c l F j ev state, K c l F → l.map Prod.snd = c.trace →
    Performs M allowed E c F j ev state →
    K ⟨state, ev :: c.trace⟩ ((clock c.state, ev) :: l) F

/-- A move that answers a request of a reachable system. -/
theorem Reachable.performs (hW : W.Obeys E) [Inhabited κ] (hs : Reachable M W start allowed s)
    {m : Move κ ι η} (hm : s.Meets allowed m) (hstep : s.step M W m = some s') {ev : Event S}
    (htr : s'.config.trace = ev :: s.config.trace) :
    (∀ j pid, s'.flying j pid → s.flying j pid) ∧
      ∃ j, Performs M allowed E s.config s.flying j ev s'.config.state := by
  have htracked := hs.tracked hW
  cases m with
  | start job =>
    obtain ⟨-, rfl⟩ := System.step_start hstep
    exact absurd htr.symm (List.cons_ne_self _ _)
  | stop pid =>
    cases hstep
    exact absurd htr.symm (List.cons_ne_self _ _)
  | env act =>
    obtain ⟨state, -, rfl⟩ := System.step_env hstep
    exact absurd htr.symm (List.cons_ne_self _ _)
  | perform pid input =>
    obtain ⟨job, op, k, r, state, hp, hr, rfl⟩ := System.step_perform hstep
    obtain rfl : (⟨pid, op, r⟩ : Event S) = ev := (List.cons.inj htr).1
    refine ⟨?_, job, ⟨_, hp, rfl, rfl⟩, hm pid input job op k rfl hp, (htracked.prog _ hp).2.1,
      fun j' pid' ⟨p, hp', hj, hpid⟩ => hj ▸ hpid ▸ (htracked.prog p hp').1, input, hr⟩
    rintro j' pid' ⟨p, hp', rfl, rfl⟩
    rcases List.mem_cons.mp hp' with rfl | hp'
    · exact ⟨_, hp, rfl, rfl⟩
    · exact ⟨p, (List.mem_filter.mp hp').1, rfl, rfl⟩

/-- A move that answers nothing starts or stops a program, or is an act of the environment. -/
theorem Keeps.silent {K : Config S σ → List (τ × Event S) → (κ → ℕ → Prop) → Prop}
    (hK : Keeps M W start allowed clock E K) (ht : Tracked E s) (h : K s.config l s.flying)
    {m : Move κ ι η} (hstep : s.step M W m = some s') (htr : s'.config.trace = s.config.trace) :
    K s'.config l s'.flying := by
  cases m with
  | start job =>
    obtain ⟨hall, rfl⟩ := System.step_start hstep
    have hnil : own s.next s.config.trace = [] :=
      own_eq_nil fun ev hev => Nat.ne_of_lt (ht.past ev hev)
    refine hK.fewer _ _ _ _ (hK.launch _ _ _ job s.next h ?_ ?_ hnil) ?_
    · rintro j' pid' ⟨p, hp, rfl, rfl⟩
      exact hall p hp
    · rintro j' ⟨p, hp, -, hpid⟩
      exact absurd hpid (Nat.ne_of_lt (ht.fresh p hp))
    · rintro j' pid' ⟨p, hp, rfl, rfl⟩
      rcases List.mem_cons.mp hp with rfl | hp
      · exact .inr ⟨rfl, rfl⟩
      · exact .inl ⟨p, hp, rfl, rfl⟩
  | perform pid input =>
    obtain ⟨job, op, k, r, state, -, -, rfl⟩ := System.step_perform hstep
    exact absurd htr (List.cons_ne_self _ _)
  | stop pid =>
    cases hstep
    refine hK.fewer _ _ _ _ h ?_
    rintro j' pid' ⟨p, hp, rfl, rfl⟩
    exact ⟨p, (List.mem_filter.mp hp).1, rfl, rfl⟩
  | env act =>
    obtain ⟨state, hstate, rfl⟩ := System.step_env hstep
    refine hK.fewer _ _ _ _ (hK.env _ _ _ act state h hstate) ?_
    rintro j' pid' ⟨p, hp, rfl, rfl⟩
    dsimp only at hp
    split_ifs at hp
    · exact absurd hp List.not_mem_nil
    · exact ⟨p, hp, rfl, rfl⟩

/-- An invariant that every move keeps holds in every run. -/
theorem Timed.invariant (hW : W.Obeys E) [Inhabited κ]
    {K : Config S σ → List (τ × Event S) → (κ → ℕ → Prop) → Prop}
    (hK : Keeps M W start allowed clock E K) (h : Timed M W start allowed clock s l) :
    K s.config l s.flying := by
  induction h with
  | initial hw =>
    refine hK.fewer _ _ _ _ (hK.initial _ hw) ?_
    rintro j pid ⟨p, hp, -⟩
    exact absurd hp List.not_mem_nil
  | silent m hs _ hstep htr ih => exact hK.silent (hs.reachable.tracked hW) ih hstep htr
  | @request s s' l ev m hs hm hstep htr ih =>
    obtain ⟨hfewer, j, hperforms⟩ := hs.reachable.performs hW hm hstep htr
    have hconfig : s'.config = ⟨s'.config.state, ev :: s.config.trace⟩ := by rw [← htr]
    rw [hconfig]
    exact hK.fewer _ _ _ _ (hK.request _ _ _ j _ _ ih hs.trace hperforms) hfewer

end CryptoPay.Async
