import CryptoPay.Async.Embedding
import CryptoPay.Async.RelyGuarantee

/-!
# A protocol as a component

A `Component` says that a machine is what a larger one does to a part of its
state: a request of the part is answered as the smaller machine answers it, and
every other request, and every act of the environment that is not one of the
part, leaves the part as it is. `Component.lift` is a protocol of the smaller
machine read off the larger one. Its jobs are those of the larger machine; each
may act as several of the smaller, and need not act at all.

Results:
* `Component.valid_embed`, `Component.valid_only`: a program that is valid for the
  component stays valid when it is embedded, and one that makes no request of the
  component is valid.
* `Component.sound`: the lifted protocol is sound if the protocol is and every job
  of the larger machine is valid.
* `Component.suffix_view`: what the component has seen, the larger machine has seen.
-/

namespace CryptoPay.Async

variable {S S' : Signature} {ε ε' κ κ' σ σ' ι ι' η η' α : Type}

/-- `M` is what `M'` does to a part of its state. -/
structure Component (M' : Machine S' σ' ι' η') (M : Machine S σ ι η) where
  hom : S.Hom S'
  part : σ' → σ
  /-- The request as one of the part, if it is one. -/
  event : Event S' → Option (Event S)
  event_op : ∀ pid o r, event ⟨pid, hom.op o, r⟩ = some ⟨pid, o, hom.ret o r⟩
  event_pid : ∀ ev e, event ev = some e → e.pid = ev.pid
  inside : ∀ {pid s o i r s'}, M'.respond pid s (hom.op o) i = some (r, s') →
    ∃ k, M.respond pid (part s) o k = some (hom.ret o r, part s')
  aside : ∀ {pid s op i r s'}, M'.respond pid s op i = some (r, s') →
    event ⟨pid, op, r⟩ = none → part s' = part s
  environment : ∀ {s act s'}, M'.env s act = some s' → part s' = part s ∨
    ∃ a, M.env (part s) a = some (part s') ∧ M.restarts a = M'.restarts act

namespace Component

variable {M' : Machine S' σ' ι' η'} {K : Protocol S ε κ σ ι η} (C : Component M' K.machine)

/-- The configuration as the component sees it. -/
def view (c : Config S' σ') : Config S σ := ⟨C.part c.state, c.trace.filterMap C.event⟩

/-- The protocol, for the jobs of the larger machine: `acts j k` says that `j` may act as `k`. -/
def lift (W : Workload S' ε' κ') (acts : κ' → κ → Prop) : Protocol S' ε' κ' σ' ι' η' where
  machine := M'
  work := W
  start s := K.start (C.part s)
  allowed c pid op := ∀ o, op = C.hom.op o → K.allowed (C.view c) pid o
  Inv c := K.Inv (C.view c)
  Guar j pid c c' := C.view c' = C.view c ∨ ∃ k, acts j k ∧ K.Guar k pid (C.view c) (C.view c')
  Exc _ _ _ := True

/-- Jobs that overlap act as jobs that may overlap. -/
def Together (K : Protocol S ε κ σ ι η) (W : Workload S' ε' κ') (acts : κ' → κ → Prop) : Prop :=
  ∀ j j' k k', W.compatible j j' = true → acts j k → acts j' k' → K.work.compatible k k' = true

variable {C} {W : Workload S' ε' κ'} {acts : κ' → κ → Prop} {j : κ'} {k : κ} {pid : ℕ}
  {c : Config S' σ'} {P : Config S σ → Prop} {Q : α → Config S σ → Prop}

theorem view_after {o : S.Op} {r : S'.Ret (C.hom.op o)} {s : σ'} :
    C.view (c.after pid (C.hom.op o) r s) = (C.view c).after pid o (C.hom.ret o r) (C.part s) := by
  show (⟨_, (_ :: c.trace).filterMap C.event⟩ : Config S σ) = ⟨_, _ :: c.trace.filterMap C.event⟩
  rw [List.filterMap_cons_some (C.event_op pid o r)]
  rfl

theorem view_aside {op : S'.Op} {i : ι'} {r : S'.Ret op} {s : σ'}
    (h : M'.respond pid c.state op i = some (r, s)) (hev : C.event ⟨pid, op, r⟩ = none) :
    C.view (c.after pid op r s) = C.view c := by
  show (⟨C.part s, (_ :: c.trace).filterMap C.event⟩ : Config S σ) = ⟨C.part c.state, _⟩
  rw [List.filterMap_cons_none hev, C.aside h hev]

/-- An act of the environment is one of the component's, or none. -/
theorem view_environment {act : η'} {s : σ'} (h : M'.env c.state act = some s) :
    C.view { c with state := s } = C.view c ∨ ∃ a state,
      K.machine.env (C.view c).state a = some state ∧ K.machine.restarts a = M'.restarts act ∧
      C.view { c with state := s } = { C.view c with state := state } := by
  rcases C.environment h with hpart | ⟨a, ha, hr⟩
  · left
    show (⟨C.part s, _⟩ : Config S σ) = ⟨C.part c.state, _⟩
    rw [hpart]
  · exact .inr ⟨a, _, ha, hr, rfl⟩

/-- What the others of the component do not disturb, nothing in the larger machine disturbs. -/
theorem stable_lift (ht : Together K W acts) (hj : acts j k) (hP : K.Stable k pid P) :
    (C.lift W acts).Stable j pid fun c => P (C.view c) := by
  rintro c c' hI hp (⟨j', pid', hne, hcompat, hG⟩ | ⟨act, s, hr, hs, rfl⟩)
  · rcases hG with hview | ⟨k', hk', hG⟩
    · rw [hview]
      exact hp
    · exact hP _ _ hI hp (.inl ⟨k', pid', hne, ht j j' k k' hcompat hj hk', hG⟩)
  · rcases view_environment (C := C) hs with hview | ⟨a, state, ha, hra, hview⟩
    · rw [hview]
      exact hp
    · rw [hview]
      exact hP _ _ hI hp (.inr ⟨a, state, hra.trans hr, ha, rfl⟩)

/-- A program of the component, embedded into a job that may act as its job. -/
theorem valid_embed (ht : Together K W acts) (hj : acts j k) {g : ε → ε'} {p : Prog S ε α}
    {E : ε → Config S σ → Prop} (hp : K.Valid k pid P p Q E) :
    (C.lift W acts).Valid j pid (fun c => P (C.view c)) ((p.embed C.hom).rethrow g)
      (fun a c => Q a (C.view c)) fun _ _ => True := by
  induction p generalizing P with
  | ret a => exact fun c hI hc => hp _ hI hc
  | throw e => exact fun _ _ _ => trivial
  | await o f ih =>
    intro c i r s hI hc ha hr
    obtain ⟨i', hr'⟩ := C.inside hr
    obtain ⟨hG, P', hs, hP', hv⟩ := hp _ _ _ _ hI hc (ha o rfl) hr'
    have hview : C.view (c.after pid (C.hom.op o) r s) =
        (C.view c).after pid o (C.hom.ret o r) (C.part s) := view_after
    refine ⟨.inr ⟨k, hj, ?_⟩, fun c => P' (C.view c), stable_lift ht hj hs, ?_, ih _ hv⟩
    · rw [hview]
      exact hG
    · show P' (C.view _)
      rw [hview]
      exact hP'

/-- A program without a request of the component. -/
theorem valid_only {p : Prog S' ε' α} (hP : (C.lift W acts).Stable j pid fun c => P (C.view c))
    (hp : p.Only fun op => ∀ r, C.event ⟨pid, op, r⟩ = none) :
    (C.lift W acts).Valid j pid (fun c => P (C.view c)) p (fun _ c => P (C.view c))
      fun _ c => P (C.view c) := by
  refine .only hp hP fun c i op r s hop _ hc _ hr => ?_
  have hview : C.view (c.after pid op r s) = C.view c := view_aside hr (hop r)
  refine ⟨.inl hview, ?_⟩
  rw [hview]
  exact hc

/-- The events that the component sees are older than its process, as all are. -/
theorem past_view (h : ∀ ev ∈ c.trace, ev.pid < pid) : ∀ e ∈ (C.view c).trace, e.pid < pid := by
  intro e he
  obtain ⟨ev, hev, heq⟩ := List.mem_filterMap.mp he
  rw [C.event_pid ev e heq]
  exact h ev hev

/-- A request that the component has seen, with those before it. -/
theorem suffix_view {e : Event S} {before : List (Event S)}
    (h : (e :: before) <:+ (C.view c).trace) : ∃ ev earlier, (ev :: earlier) <:+ c.trace ∧
      C.event ev = some e ∧ earlier.filterMap C.event = before := by
  have hsplit : ∀ tr : List (Event S'), (e :: before) <:+ tr.filterMap C.event →
      ∃ ev earlier, (ev :: earlier) <:+ tr ∧ C.event ev = some e ∧
        earlier.filterMap C.event = before := by
    intro tr
    induction tr with
    | nil => exact fun h => absurd (List.suffix_nil.mp h) (List.cons_ne_nil e before)
    | cons ev tr ih =>
      intro h
      have hlater : (e :: before) <:+ tr.filterMap C.event → ∃ ev' earlier,
          (ev' :: earlier) <:+ ev :: tr ∧ C.event ev' = some e ∧
            earlier.filterMap C.event = before := by
        intro h
        obtain ⟨ev', earlier, hsuffix, hrest⟩ := ih h
        exact ⟨ev', earlier, hsuffix.trans (List.suffix_cons ev tr), hrest⟩
      cases hev : C.event ev with
      | none =>
        rw [List.filterMap_cons_none hev] at h
        exact hlater h
      | some e' =>
        rw [List.filterMap_cons_some hev] at h
        rcases List.suffix_cons_iff.mp h with heq | h
        · obtain ⟨rfl, rfl⟩ := List.cons.inj heq
          exact ⟨ev, tr, List.suffix_refl _, hev, rfl⟩
        · exact hlater h
  exact hsplit c.trace h

/-- What is left to show is that the jobs are valid. -/
theorem sound (hK : K.Sound)
    (hjob : ∀ j pid, ∃ P : Config S σ → Prop,
      (C.lift W acts).Stable j pid (fun c => P (C.view c)) ∧
      (∀ c, K.Inv c → (∀ ev ∈ c.trace, ev.pid < pid) → P c) ∧
      (C.lift W acts).Valid j pid (fun c => P (C.view c)) (W.launch j) (fun _ _ => True)
        fun _ _ => True) : (C.lift W acts).Sound where
  initial s hs := hK.initial _ hs
  env c act s hI hs := by
    show K.Inv (C.view { c with state := s })
    rcases view_environment (C := C) hs with hview | ⟨a, state, ha, -, hview⟩
    · rw [hview]
      exact hI
    · rw [hview]
      exact hK.env _ a _ hI ha
  step j pid c c' hI hG := by
    show K.Inv (C.view c')
    rcases hG with hview | ⟨k, -, hG⟩
    · rw [hview]
      exact hI
    · exact hK.step k pid _ _ hI hG
  job j pid := by
    obtain ⟨P, hs, hstart, hv⟩ := hjob j pid
    exact ⟨_, hs, fun c hI hpast => hstart _ hI (past_view hpast), hv⟩

/-- The runs that a condition on the larger start state leads to. -/
theorem reaches {start : σ' → Prop} {s : System S' ε' κ' σ'} (hs : Reachable M' W start anything s)
    (hstart : ∀ s, start s → K.start (C.part s)) (hall : ∀ c pid op, K.allowed c pid op) :
    (C.lift W acts).Reaches s := by
  induction hs with
  | initial h₀ => exact .initial (hstart _ h₀)
  | step m _ _ hstep ih => exact .step m ih (fun _ _ _ _ _ _ _ _ _ => hall _ _ _) hstep

end Component

end CryptoPay.Async
