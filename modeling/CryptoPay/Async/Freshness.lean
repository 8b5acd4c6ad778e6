import CryptoPay.Async.History

/-!
# Rows that are read, and then written

A process reads a row, and later writes it; another one may write it in between. `Since R W tr`
says that there was an event of `R` and none of `W` after it.

Results:
* `Since.combine`: what a process has last done to a row itself, and that no other process has
  written it since this one read it, say what the last access to the row was.
* `Obeys.forEach_since`: a loop over rows that were read, each of which is written once at most.
* `Reachable.since`: what an event `R` establishes and only an event `W` can end holds as long as
  no `W` follows.
* `Reachable.refines`: a condition that follows from another one along the runs.
-/

namespace CryptoPay.Async

variable {S : Signature} {ε κ σ ι η : Type}

/-- There was an event of `R`, and none of `W` after it; `W` may look at what came before. -/
def Since (R : Event S → Prop) (W : List (Event S) → Event S → Prop) : List (Event S) → Prop
  | [] => False
  | ev :: tr => R ev ∨ ¬ W tr ev ∧ Since R W tr

/-- Computed, if the two kinds of events are. -/
def Since.decide (R : Event S → Prop) (W : List (Event S) → Event S → Prop) [DecidablePred R]
    [∀ tr, DecidablePred (W tr)] : (tr : List (Event S)) → Decidable (Since R W tr)
  | [] => .isFalse id
  | ev :: tr =>
    have := Since.decide R W tr
    inferInstanceAs (Decidable (R ev ∨ ¬ W tr ev ∧ Since R W tr))

instance (R : Event S → Prop) (W : List (Event S) → Event S → Prop) [DecidablePred R]
    [∀ tr, DecidablePred (W tr)] : DecidablePred (Since R W) := Since.decide R W

section Since

variable {R R' : Event S → Prop} {W W' : List (Event S) → Event S → Prop} {ev : Event S}
  {tr : List (Event S)} {pid : ℕ}

@[simp] theorem since_cons : Since R W (ev :: tr) ↔ R ev ∨ ¬ W tr ev ∧ Since R W tr := Iff.rfl

theorem Since.imp (h : Since R W tr) (hR : ∀ e, R e → R' e) (hW : ∀ t e, W' t e → W t e) :
    Since R' W' tr := by
  induction tr with
  | nil => exact h
  | cons e tr ih =>
    rcases h with h | ⟨hnot, hrest⟩
    · exact .inl (hR e h)
    · exact .inr ⟨fun hw => hnot (hW tr e hw), ih hrest⟩

/-- No process but `pid` has written the row since `pid` last read it. -/
def Untouched (reads : Event S → Prop) (writes : List (Event S) → Event S → Prop) (pid : ℕ)
    (tr : List (Event S)) : Prop :=
  Since (fun e => e.pid = pid ∧ reads e) (fun t e => e.pid ≠ pid ∧ writes t e) tr

instance (reads : Event S → Prop) (writes : List (Event S) → Event S → Prop) [DecidablePred reads]
    [∀ tr, DecidablePred (writes tr)] (pid : ℕ) : DecidablePred (Untouched reads writes pid) :=
  fun tr => inferInstanceAs (Decidable (Since _ _ tr))

/-- If the last access of a process to a row was `R`, and no other process has written the row since
    the process read it, then nobody has written it since `R`. -/
theorem Since.combine {reads : Event S → Prop} {writes : List (Event S) → Event S → Prop}
    {touches : Event S → Prop} (hreads : ∀ e, e.pid = pid → reads e → touches e)
    (hwrites : ∀ t e, e.pid = pid → writes t e → touches e)
    (hown : Since R (fun _ => touches) (own pid tr)) (h : Untouched reads writes pid tr) :
    Since (fun e => e.pid = pid ∧ R e) writes tr := by
  induction tr with
  | nil => exact h.elim
  | cons e tr ih =>
    by_cases he : e.pid = pid
    · have hself : own pid (e :: tr) = e :: own pid tr := he ▸ own_cons_self e tr
      rw [hself] at hown
      rcases hown with hR | ⟨hnot, hown⟩
      · exact .inl ⟨he, hR⟩
      · rcases h with ⟨-, hread⟩ | ⟨-, hrest⟩
        · exact absurd (hreads e he hread) hnot
        · exact .inr ⟨fun hw => hnot (hwrites tr e he hw), ih hown hrest⟩
    · rw [own_cons_of_ne he] at hown
      rcases h with ⟨hpid, -⟩ | ⟨hnot, hrest⟩
      · exact absurd hpid he
      · exact .inr ⟨fun hw => hnot ⟨he, hw⟩, ih hown hrest⟩

end Since

/-! ## Programs -/

namespace Prog

variable {α β : Type} {F G : S.Op → Prop} {E : List (Event S) → S.Op → Prop} {pid : ℕ}
  {h : List (Event S)}

/-- The requests are of the kind `F`, but for at most one of the kind `G`, which is the last. -/
def Closes (F G : S.Op → Prop) : Prog S ε α → Prop
  | .ret _ => True
  | .throw _ => True
  | .await op k => F op ∧ (∀ r, (k r).Closes F G) ∨ G op ∧ ∀ r, (k r).Only fun _ => False

theorem Closes.bind {p : Prog S ε α} {f : α → Prog S ε β} (hp : p.Only F)
    (hf : ∀ a, (f a).Closes F G) : (p >>= f).Closes F G := by
  induction p with
  | ret a => exact hf a
  | throw e => trivial
  | await op k ih => exact .inl ⟨hp.1, fun r => ih r (hp.2 r)⟩

theorem Closes.last {op : S.Op} {read : S.Ret op → Except ε α} (hop : G op) :
    (Prog.request op read).Closes F G := .inr ⟨hop, fun r => .ofExcept (read r)⟩

/-- What is expected as long as every event so far has been one of `P`. -/
def Provided (P : Event S → Prop) (E : List (Event S) → S.Op → Prop) :
    List (Event S) → S.Op → Prop :=
  fun h op => (∀ ev ∈ h, P ev) → E h op

/-- Nothing is expected after another event. -/
theorem Obeys.provided_of_not {P : Event S → Prop} {p : Prog S ε α} (hnot : ¬ ∀ ev ∈ h, P ev) :
    p.Obeys (Provided P E) pid (fun _ _ => True) (fun _ _ => True) h := by
  let I : List (Event S) → Prop := fun h => ¬ ∀ ev ∈ h, P ev
  refine (Obeys.only (only_any p) (I := I) (fun op h _ hI hall => absurd hall hI)
    (fun op r h _ hI hall => hI fun ev hev => hall ev (List.mem_cons_of_mem _ hev)) hnot).post
    (fun _ _ _ => trivial) fun _ _ _ => trivial

/-- `I` holds until the last request, and `J` after it. -/
theorem Closes.obeys {I J : List (Event S) → Prop} {p : Prog S ε α} (hp : p.Closes F G)
    (hF : ∀ op h, F op → I h → E h op ∧ ∀ r, I (⟨pid, op, r⟩ :: h))
    (hG : ∀ op h, G op → I h → E h op ∧ ∀ r, J (⟨pid, op, r⟩ :: h)) (hIJ : ∀ h, I h → J h)
    (hI : I h) : p.Obeys E pid (fun _ => J) (fun _ => J) h := by
  induction p generalizing h with
  | ret a => exact hIJ h hI
  | throw e => exact hIJ h hI
  | await op k ih =>
    rcases hp with ⟨hop, hk⟩ | ⟨hop, hk⟩
    · obtain ⟨hE, hstep⟩ := hF op h hop hI
      exact ⟨hE, fun r => ih r (hk r) (hstep r)⟩
    · obtain ⟨hE, hJ⟩ := hG op h hop hI
      exact ⟨hE, fun r => Obeys.only (hk r) (fun _ _ h => h.elim) (fun _ _ _ h => h.elim) (hJ r)⟩

/-- A loop over rows with different keys that were read: as each iteration touches its own row only,
    and ends when it has, no row is touched before it is written. -/
theorem Obeys.forEach_since {K : Type} {body : β → Prog S ε Unit} (key : β → K)
    (R : β → Event S → Prop) (T : K → Event S → Prop) {F G : β → S.Op → Prop} {xs : List β}
    (hbody : ∀ x, (body x).Closes (F x) (G x))
    (hF : ∀ x op h, F x op → Since (R x) (fun _ => T (key x)) h → E h op)
    (hFT : ∀ x op r k, F x op → ¬ T k ⟨pid, op, r⟩)
    (hG : ∀ x op h, G x op → Since (R x) (fun _ => T (key x)) h → E h op)
    (hGT : ∀ x op r k, G x op → T k ⟨pid, op, r⟩ → k = key x) (hdistinct : (xs.map key).Nodup)
    (hread : ∀ x ∈ xs, Since (R x) (fun _ => T (key x)) h) :
    (Prog.forEach body xs).Obeys E pid (fun _ _ => True) (fun _ _ => True) h := by
  let I : List β → List (Event S) → Prop := fun ys h =>
    (ys.map key).Nodup ∧ ∀ y ∈ ys, Since (R y) (fun _ => T (key y)) h
  have hloop : (Prog.forEach body xs).Obeys E pid (fun _ => I []) (fun _ _ => True) h := by
    refine Obeys.forEach I (fun x ys h hI => ?_) ⟨hdistinct, hread⟩
    obtain ⟨hnew, hnodup⟩ := List.nodup_cons.mp hI.1
    refine ((hbody x).obeys (I := I (x :: ys)) (J := I ys) ?_ ?_ ?_ hI).post (fun _ _ hI => hI)
      fun _ _ _ => trivial
    · exact fun op h hop hI => ⟨hF x op h hop (hI.2 x List.mem_cons_self), fun r =>
        ⟨hI.1, fun y hy => .inr ⟨hFT x op r _ hop, hI.2 y hy⟩⟩⟩
    · intro op h hop hI
      refine ⟨hG x op h hop (hI.2 x List.mem_cons_self), fun r => ⟨hnodup, fun y hy => ?_⟩⟩
      exact .inr ⟨fun hT => hnew (hGT x op r _ hop hT ▸ List.mem_map_of_mem hy),
        hI.2 y (List.mem_cons_of_mem x hy)⟩
    · exact fun h hI => ⟨hnodup, fun y hy => hI.2 y (List.mem_cons_of_mem x hy)⟩
  exact hloop.post (fun _ _ _ => trivial) fun _ _ _ => trivial

end Prog

/-! ## Runs -/

section Runs

variable {M : Machine S σ ι η} {W : Workload S ε κ} {start : σ → Prop}
  {allowed allowed' : Condition S σ} {E : κ → List (Event S) → S.Op → Prop} {s : System S ε κ σ}

/-- What an event `R` establishes and no other event than `Z` can end. `I` holds throughout. -/
theorem Reachable.since (hW : W.Obeys E) [Inhabited κ] {I K : Config S σ → Prop}
    {R : Event S → Prop} {Z : List (Event S) → Event S → Prop}
    (hI : ∀ s, Reachable M W start allowed s → I s.config)
    (henv : ∀ c act state, I c → K c → M.env c.state act = some state → K { c with state := state })
    (hread : ∀ c ev state, I c → Answered M allowed E c ev state → R ev → K ⟨state, ev :: c.trace⟩)
    (hkeep : ∀ c ev state, I c → Answered M allowed E c ev state → ¬ Z c.trace ev → K c →
      K ⟨state, ev :: c.trace⟩)
    (hs : Reachable M W start allowed s) (h : Since R Z s.config.trace) : K s.config := by
  induction hs with
  | initial _ => exact h.elim
  | @step s s' m hs hm hmove ih =>
    rcases hs.step_cases hW hm hmove with heq | ⟨act, state, hact, heq⟩ | ⟨ev, state, hans, heq⟩
    · rw [heq] at h ⊢
      exact ih h
    · rw [heq] at h ⊢
      exact henv _ act state (hI s hs) (ih h) hact
    · rw [heq] at h ⊢
      rcases h with hR | ⟨hnot, hrest⟩
      · exact hread _ ev state (hI s hs) hans hR
      · exact hkeep _ ev state (hI s hs) hans hnot (ih hrest)

/-- If `allowed` follows from `allowed'` wherever runs that meet both lead, the runs that meet
    `allowed'` meet `allowed`. -/
theorem Reachable.refines
    (h : ∀ s, Reachable M W start allowed s → Reachable M W start allowed' s → ∀ p ∈ s.procs,
      ∀ op k, p.prog = .await op k → allowed' s.config p.pid op → allowed s.config p.pid op)
    (hs : Reachable M W start allowed' s) : Reachable M W start allowed s := by
  induction hs with
  | initial h₀ => exact .initial h₀
  | @step s s' m hs hm hstep ih =>
    refine .step m ih (fun pid input job op k heq hp => ?_) hstep
    exact h s ih hs _ hp op k rfl (hm pid input job op k heq hp)

/-- Such a move meets `allowed`, too. -/
theorem System.Meets.refines
    (h : ∀ p ∈ s.procs, ∀ op k, p.prog = .await op k → allowed' s.config p.pid op →
      allowed s.config p.pid op)
    {m : Move κ ι η} (hm : s.Meets allowed' m) : s.Meets allowed m :=
  fun pid input job op k heq hp => h _ hp op k rfl (hm pid input job op k heq hp)

/-- What is expected of the request that a program awaits. -/
theorem Tracked.expects (h : Tracked E s) {p : Proc S ε κ} (hp : p ∈ s.procs) {op : S.Op}
    {k : S.Ret op → Prog S ε Unit} (hk : p.prog = .await op k) :
    E p.job (own p.pid s.config.trace) op := by
  have hobeys := (h.prog p hp).2
  rw [hk] at hobeys
  exact hobeys.1

end Runs

end CryptoPay.Async
