import CryptoPay.Worker.MoneySafety
import CryptoPay.Worker.ReorgGrace

/-!
# What becomes of a payment whose transaction is missing

A payment that was confirming fails only after two passes have missed its
transaction `REORG_GRACE_MS` apart, and comes back as soon as a pass is told that
the transaction is there, unless the database is not reached.

Results:
* `Watch.failed`: what the passes have seen before a payment fails.
* `Watch.changed`: which answer a payment changes after.
* `Watch.resumes`: what a pass does about a transaction that is back.
-/

namespace CryptoPay.Worker

open Async Data

variable {scans : Bool} {D : Setup} {c : History adapterCalls Unit} {l : Stamped}
  {F : Job → ℕ → Prop} {j : Job} {ev : Event (effects adapterCalls)} {w : World Unit}

/-! ## Failing -/

/-- Pass `pid` has missed the transaction and read the time `now` since then. Another pass missed
    it at `now - REORG_GRACE_MS` or before, and what was requested since is `quiet`. -/
def MissedTwice (quiet : Stamped → Prop) (pid : ℕ) (txHash : String) (l : Stamped) : Prop :=
  ∃ since t message between s pid₀ message₀ older, ∃ now : Time,
    l = since ++ (t, missing pid txHash message) ::
      (between ++ (s, missing pid₀ txHash message₀) :: older) ∧
    (now, (⟨pid, .now, now⟩ : Event (effects adapterCalls))) ∈ since ∧ pid₀ ≠ pid ∧
    s ≤ now - REORG_GRACE_MS ∧ quiet (since ++ (t, missing pid txHash message) :: between)

/-- No answer says that the transaction is there. -/
def Unseen (txHash : String) (l : Stamped) : Prop := ∀ t pid n, (t, present pid txHash n) ∉ l

/-- Reading the clock and generating ids change nothing about what the pass goes through. -/
theorem snapshot_of_pauses {since h : Requests} (hp : ∀ e ∈ since, pauses e.op = true) :
    snapshot (since ++ h) = snapshot h := by
  induction since with
  | nil => rfl
  | cons e since ih =>
    have he := hp e List.mem_cons_self
    refine (snapshot_cons fun status hs => ?_).trans
      (ih fun e' he' => hp e' (List.mem_cons_of_mem e he'))
    rw [hs] at he
    cases he

/-- Where two elements of a list stand, if the second is not among those before the first. -/
theorem split_before {α : Type} {a b : α} {l₁ l₂ l₃ l₄ : List α}
    (h : l₁ ++ a :: l₂ = l₃ ++ b :: l₄) (hb : b ∉ l₁) :
    (l₁ = l₃ ∧ a = b ∧ l₂ = l₄) ∨ ∃ l, l₃ = l₁ ++ a :: l ∧ l₂ = l ++ b :: l₄ := by
  rcases List.append_eq_append_iff.mp h with ⟨l, rfl, heq⟩ | ⟨l, rfl, heq⟩
  · cases l with
    | nil =>
      obtain ⟨rfl, rfl⟩ := List.cons.inj heq
      exact .inl ⟨(List.append_nil _).symm, rfl, rfl⟩
    | cons a' l =>
      obtain ⟨rfl, rfl⟩ := List.cons.inj heq
      exact .inr ⟨l, rfl, rfl⟩
  · cases l with
    | nil =>
      obtain ⟨rfl, rfl⟩ := List.cons.inj heq
      exact .inl ⟨List.append_nil _, rfl, rfl⟩
    | cons b' l =>
      obtain ⟨rfl, -⟩ := List.cons.inj heq
      exact absurd (List.mem_append_right _ List.mem_cons_self) hb

section Request

variable (hK : Watch D c l F) (h : Requested D c F j ev w)

include hK h in
/-- The pass that answers is about to act on has missed the transaction for the first time. -/
theorem Watch.missedTwice (hj : j = .confirm) {q : PaymentWithInvoice} {x message : String}
    {now : Time} {before : Requests}
    (hcurrent : Current (own ev.pid c.trace) q x (.error (.notFound message)))
    (hstatus : q.status = .reorgDetected) (hread : own ev.pid c.trace = ⟨ev.pid, .now, now⟩ :: before)
    (helapsed : now - q.updatedAt ≥ REORG_GRACE_MS) : MissedTwice (Unrecorded x) ev.pid x l := by
  subst hj
  have hi := hK.informed _ h.flying
  have hq := hi.stored q hcurrent.read x hcurrent.txHash (.inr ⟨_, hcurrent.answer⟩)
  obtain ⟨newer, s, pid₀, message₀, older, hl, hs, ⟨e, he, hpid, hacted⟩, hunrecorded⟩ :=
    hK.since _ hq hstatus x hcurrent.txHash
  obtain ⟨since, pid, h₂, hown, hpauses⟩ := answer_eq_some hcurrent.answer
  obtain rfl : pid = ev.pid := (mem_own.mp (hown ▸ List.mem_append_right _ List.mem_cons_self :
    _ ∈ own ev.pid c.trace)).2
  -- the clock was read after the answer
  obtain ⟨since', rfl⟩ : ∃ since', since = ⟨ev.pid, .now, now⟩ :: since' := by
    cases since with
    | nil => cases hread.symm.trans hown
    | cons e' since' => exact ⟨since', by rw [(List.cons.inj (hread.symm.trans hown)).1]⟩
  have hdistinct : Distinct h₂ := by
    have hd := hi.distinct
    unfold Distinct at hd ⊢
    rwa [hown, snapshot_of_pauses hpauses, snapshot_of_readBy rfl] at hd
  have horder := h.inOrder _ _ h.flying
  rw [hown] at horder
  have hfirst := ((horder.of_suffix (List.suffix_append _ _)).1.ask x rfl).2 hdistinct
  rw [← hK.trace] at hown
  obtain ⟨l₁, t, l₂, hl₁, hsince, hbefore⟩ := exists_stamp hown
  have quiet : ∀ e ∈ l₁, e.2.pid = ev.pid → pauses e.2.op = true := fun e he hpid =>
    hpauses _ (hsince ▸ mem_own.mpr ⟨List.mem_map_of_mem he, hpid⟩)
  -- since then the pass has asked about nothing, and no other pass is in flight
  have hnone : (s, missing pid₀ x message₀) ∉ l₁ := fun hmem => by
    exact Bool.false_ne_true (quiet _ hmem (hK.asks l₁ t _ l₂ hl₁ h.flying _ hmem x rfl))
  rcases split_before (hl₁.symm.trans hl) hnone with ⟨hnewer, hsame, -⟩ | ⟨between, rfl, rfl⟩
  · have hpid₀ : ev.pid = pid₀ := congrArg (fun e => e.2.pid) hsame
    have hquiet := quiet e (hnewer ▸ he) (hpid.trans hpid₀.symm)
    exact absurd (hacted.symm.trans hquiet) Bool.false_ne_true
  refine ⟨l₁, t, message, between, s, pid₀, message₀, older, now, hl₁, ?_, ?_, ?_, hunrecorded⟩
  · have hmem : (⟨ev.pid, .now, now⟩ : Event (effects adapterCalls)) ∈ own ev.pid
        (l₁.map Prod.snd) := hsince ▸ List.mem_cons_self
    obtain ⟨⟨t', e'⟩, he', rfl⟩ := List.mem_map.mp (mem_own.mp hmem).1
    obtain rfl : now = t' := hK.read _ (hl₁ ▸ List.mem_append_left _ he') ev.pid now rfl
    exact he'
  · intro hpid₀
    have hmem : missing pid₀ x message₀ ∈ own ev.pid ((between ++ (s, missing pid₀ x message₀) ::
        older).map Prod.snd) :=
      mem_own.mpr ⟨List.mem_map_of_mem (List.mem_append_right _ List.mem_cons_self), hpid₀⟩
    exact hfirst (mem_asked.mpr ⟨_, _, hbefore ▸ hmem⟩)
  · have hle : s ≤ q.updatedAt := hs
    exact hle.trans (le_sub_comm.mp helapsed)

include hK h in
/-- What a request makes of a stored payment that does not stay as it is. -/
theorem Watch.advances {p p' : Payment} (hp : p ∈ c.state.db.payments) (hp' : p' ∈ w.db.payments)
    (hid : p'.id = p.id) (hne : p' ≠ p) : ∃ q x r m, q.toPayment = p ∧ j = .confirm ∧
      Current (own ev.pid c.trace) q x r ∧
      Advance D.requiredConfirmations (own ev.pid c.trace) q r m ∧
      p' = m.onPayment c.state.clock q.toPayment := by
  cases payment_step h with
  | same rows => exact absurd (Table.eq_of_key (rows ▸ hp') hp hid) hne
  | detect i t paymentId detectedAt job op network handed effect =>
    refine absurd ?_ hne
    rw [effect.payment_eq hp hp' hid]
    exact Commit.onPayment_of_create rfl p
  | advance q x r m job op current commit effect =>
    subst job
    have heq := effect.payment_eq hp hp' hid
    have hq := (hK.informed _ h.flying).stored q current.read x current.txHash
      (.inr ⟨r, current.answer⟩)
    have hpq : p.id = q.id := by
      by_contra hpq
      refine hne (heq.trans (Commit.onPayment_of_ne fun u hu => ?_))
      exact (advance_update commit).2 u hu ▸ hpq
    obtain rfl : q.toPayment = p := Table.eq_of_key hq hp hpq.symm
    exact ⟨q, x, r, m, rfl, rfl, current, commit, heq⟩

include hK h in
theorem Watch.failed {p p' : Payment} (hp : p ∈ c.state.db.payments) (hp' : p' ∈ w.db.payments)
    (hid : p'.id = p.id) (hdetected : p.status ≠ .detected) (hstands : p.status ≠ .failed)
    (hfailed : p'.status = .failed) : ∃ x, p.txHash = some x ∧ MissedTwice (Unrecorded x) ev.pid x l := by
  have hne : p' ≠ p := fun heq => hstands (heq ▸ hfailed)
  obtain ⟨q, x, r, m, rfl, hj, hcurrent, hadvance, rfl⟩ := hK.advances h hp hp' hid hne
  cases hadvance with
  | fail status => exact absurd status hdetected
  | giveUp _ confirming read elapsed =>
    obtain ⟨pid, before, hread⟩ := read
    obtain rfl : pid = ev.pid := (mem_own.mp (hread ▸ List.mem_cons_self :
      _ ∈ own ev.pid c.trace)).2
    have hactive := (hK.informed _ (hj ▸ h.flying)).active q hcurrent.read
    have hreorg : q.status = .reorgDetected := by
      simpa [activeStatuses, show q.status ≠ .detected from hdetected, confirming] using hactive
    exact ⟨x, hcurrent.txHash, hK.missedTwice h hj hcurrent hreorg hread elapsed⟩
  | confirm status => rw [Commit.onPayment_of_eq rfl rfl] at hfailed; cases hfailed
  | refresh detected reorg => rw [Commit.onPayment_of_eq rfl rfl] at hfailed; exact absurd hfailed hstands
  | settle detected reorg enough =>
    rw [Commit.onPayment_of_eq rfl rfl] at hfailed
    cases hm : q.amountMatch <;> rw [hm] at hfailed <;> cases hfailed
  | reorg status => rw [Commit.onPayment_of_eq rfl rfl] at hfailed; cases hfailed

include hK h in
/-- A payment changes only after an answer about its transaction that is a count or
    `NotFoundError`. -/
theorem Watch.changed {p : Payment} (hp : p ∈ c.state.db.payments) (hgone : p ∉ w.db.payments) :
    ∃ x r, p.txHash = some x ∧ answer (own ev.pid c.trace) = some (x, r) ∧ r ≠ .error .rpc := by
  cases payment_step h with
  | same rows => exact absurd (rows ▸ hp) hgone
  | detect i t paymentId detectedAt job op network handed effect =>
    have hkept := effect.keeps_payment hp
    rw [Commit.onPayment_of_create rfl p] at hkept
    exact absurd hkept hgone
  | advance q x r m job op current commit effect =>
    have hkept := effect.keeps_payment hp
    have hne : m.onPayment c.state.clock p ≠ p := fun heq => hgone (heq ▸ hkept)
    obtain ⟨q', x', r', m', rfl, -, hcurrent, hadvance, -⟩ :=
      hK.advances h hp hkept (terms_paymentId (Commit.terms_onPayment _ _ _)) hne
    refine ⟨x', r', hcurrent.txHash, hcurrent.answer, ?_⟩
    rintro rfl
    cases hadvance

include h in
theorem Watch.row_kept {p : Payment} (hp : p ∈ c.state.db.payments) :
    ∃ p' ∈ w.db.payments, p'.id = p.id := by
  cases payment_step h with
  | same rows => exact ⟨p, rows ▸ hp, rfl⟩
  | detect i t paymentId detectedAt job op network handed effect =>
    exact ⟨_, effect.keeps_payment hp, terms_paymentId (Commit.terms_onPayment _ _ _)⟩
  | advance q x r m job op current commit effect =>
    exact ⟨_, effect.keeps_payment hp, terms_paymentId (Commit.terms_onPayment _ _ _)⟩

include hK h in
/-- A payment that has been confirming is never `DETECTED` again. -/
theorem Watch.never_detected {p : Payment} (hp : p ∈ c.state.db.payments)
    (hstatus : p.status ≠ .detected) :
    ∃ p' ∈ w.db.payments, p'.id = p.id ∧ p'.status ≠ .detected := by
  obtain ⟨p', hp', hid⟩ := Watch.row_kept h hp
  refine ⟨p', hp', hid, ?_⟩
  by_cases hne : p' = p
  · exact hne ▸ hstatus
  obtain ⟨q, x, r, m, rfl, -, -, hadvance, rfl⟩ := hK.advances h hp hp' hid hne
  rcases advance_status hadvance rfl c.state.clock with hs | hs
  · exact hs
  · exact hs ▸ hstatus

end Request

/-! ## Runs -/

abbrev GraceLeads (scans : Bool) (D : Setup) : EvmSystem → EvmSystem → Prop :=
  Leads (machine (networkAnswers D.network)) (grace scans D) anything

variable {s s' : EvmSystem} {m : EvmMove} {pid : ℕ} {x : String} {n : ℤ} {before : Requests}

theorem GraceRun.requested (hs : GraceRun scans D s l) (hstep : graceStep scans D s m = some s')
    (htr : s'.config.trace = ev :: s.config.trace) :
    ∃ j, Requested D s.config s.flying j ev s'.config.state :=
  (hs.reachable.performs (jobs_obey _ D) (fun _ _ _ _ _ _ _ => trivial) hstep htr).2

/-- A move leaves the payments as they are, or answers a request. -/
theorem graceStep_payments (hstep : graceStep scans D s m = some s') :
    (∀ p, p ∈ s'.config.state.db.payments ↔ p ∈ s.config.state.db.payments) ∨
      ∃ ev, s'.config.trace = ev :: s.config.trace := by
  cases m with
  | start job =>
    obtain ⟨-, rfl⟩ := System.step_start hstep
    exact .inl fun _ => .rfl
  | perform pid input =>
    obtain ⟨job, op, k, r, state, -, -, rfl⟩ := System.step_perform hstep
    exact .inr ⟨_, rfl⟩
  | stop pid =>
    cases hstep
    exact .inl fun _ => .rfl
  | env act =>
    obtain ⟨state, hstate, rfl⟩ := System.step_env hstep
    exact .inl (Ledger.environment_rows hstate).1.payments

theorem GraceRun.step (hs : GraceRun scans D s l) (hstep : graceStep scans D s m = some s') :
    ∃ l', GraceRun scans D s' l' := by
  rcases System.step_trace hstep with htr | ⟨-, ev, -, htr, -⟩
  · exact ⟨l, .silent m hs (fun _ _ _ _ _ _ _ => trivial) hstep htr⟩
  · exact ⟨_, .request m hs (fun _ _ _ _ _ _ _ => trivial) hstep htr⟩

/-- A payment that is not `DETECTED` is not later on. -/
theorem GraceRun.never_detected (hs : GraceRun scans D s l) {p : Payment}
    (hp : p ∈ s.config.state.db.payments) (hstatus : p.status ≠ .detected)
    (hleads : GraceLeads scans D s s') :
    ∃ p' ∈ s'.config.state.db.payments, p'.id = p.id ∧ p'.status ≠ .detected := by
  refine (hleads.keeps (R := fun t => (∃ l, GraceRun scans D t l) ∧
    ∃ p' ∈ t.config.state.db.payments, p'.id = p.id ∧ p'.status ≠ .detected)
    ⟨⟨l, hs⟩, p, hp, rfl, hstatus⟩ ?_).2
  rintro t u m ⟨⟨l, ht⟩, p', hp', hid, hne⟩ - hstep
  refine ⟨ht.step hstep, ?_⟩
  rcases graceStep_payments hstep with hsame | ⟨ev, htr⟩
  · exact ⟨p', (hsame p').2 hp', hid, hne⟩
  · obtain ⟨j, hrequested⟩ := ht.requested hstep htr
    obtain ⟨p'', hp'', hid', hne'⟩ := ht.watch.never_detected hrequested hp' hne
    exact ⟨p'', hp'', hid'.trans hid, hne'⟩

/-! ## A transaction that is back -/

theorem networkAnswers_within (network : String) :
    (machine (networkAnswers network)).Within (machine anyAnswer) where
  respond pid w op i r h := by
    cases op with
    | other call =>
      cases i with
      | other i =>
        obtain ⟨⟨a, o⟩, ho, rfl⟩ := Option.map_eq_some_iff.mp h
        obtain ⟨a', ha', hif⟩ := Option.bind_eq_some_iff.mp ho
        split_ifs at hif
        cases hif
        exact Option.map_eq_some_iff.mpr ⟨_, Option.bind_eq_some_iff.mpr ⟨_, ha', rfl⟩, rfl⟩
      | _ => cases h
    | _ => cases i <;> exact h
  env w act w' h := by
    cases act with
    | clock t =>
      simp only [machine, environment] at h
      split_ifs at h
      exact h
    | _ => exact h
  restarts := rfl

/-- A run with one worker of each kind is one of those of the pipeline. -/
theorem GraceRun.pipeline (hs : Reachable (machine (networkAnswers D.network)) (grace false D) Unused
    anything s) : Inv False s.config :=
  (pipeline_sound False D).inv ((hs.within (networkAnswers_within _)).mono fun _ _ _ _ => False.elim)

theorem mem_snapshot {h : Requests} {q : PaymentWithInvoice} (hq : q ∈ snapshot h) :
    ∃ pid status, ∃ ps : List PaymentWithInvoice, (⟨pid, .prisma (.paymentFindMany status), .ok ps⟩ :
      Event (effects adapterCalls)) ∈ h ∧ q ∈ ps := by
  unfold snapshot at hq
  cases hread : h.findSome? readBy with
  | none => rw [hread] at hq; exact absurd hq List.not_mem_nil
  | some ps =>
    rw [hread] at hq
    obtain ⟨ev, hev, hps⟩ := List.exists_of_findSome?_eq_some hread
    unfold readBy at hps
    split at hps
    · cases hps
      exact ⟨_, _, ps, hev, hq⟩
    · cases hps

/-- A payment that a pass has read as `REORG_DETECTED` has been read with a `CONFIRMING` invoice. -/
theorem GraceRun.snapshot_invoice (hs : GraceRun false D s l) {q : PaymentWithInvoice}
    (hq : q ∈ snapshot (own pid s.config.trace)) (hstatus : q.status = .reorgDetected) :
    q.invoice.status = .confirming := by
  obtain ⟨pid', status, ps, hev, hmem⟩ := mem_snapshot hq
  obtain ⟨tr, hsuffix⟩ := exists_suffix_of_mem (mem_own.mp hev).1
  obtain ⟨s₁, hs₁, -, -, ⟨i, state, hr⟩, -⟩ := hs.reachable.answered hsuffix
  have hcoupled := (GraceRun.pipeline hs₁).coupled
  rcases respond_prisma hr with ⟨hps, -⟩ | ⟨hps, -⟩
  · obtain rfl : ps = s₁.config.state.db.paymentsWithInvoice status := Except.ok.inj hps
    obtain ⟨hp, -, hi, hid⟩ := mem_paymentsWithInvoice.mp hmem
    have hR := hcoupled.paid _ hp _ hi hid.symm
    rw [show q.toPayment.status = .reorgDetected from hstatus] at hR
    exact hR
  · cases hps

/-- A pass that has been told so goes on to make the payment `CONFIRMING`. -/
theorem GraceRun.awaits (hs : GraceRun false D s l) {p : Payment}
    (hp : p ∈ s.config.state.db.payments) (hstatus : p.status = .reorgDetected)
    (hx : p.txHash = some x) (hown : own pid s.config.trace = present pid x n :: before)
    {pr : Proc (effects adapterCalls) Error Job} (hpr : pr ∈ s.procs) (hpid : pr.pid = pid) :
    ∃ q k, q.toPayment = p ∧
      pr.prog = .await (.prisma (.transaction (Commit.confirm q n).writes)) k := by
  subst hpid
  obtain ⟨pid, job, prog⟩ := pr
  obtain ⟨horder, hobeys⟩ := (hs.reachable.tracked (jobs_obey _ D)).prog _ hpr
  have houtcome := hs.reachable.outcome (jobs_end D) _ hpr
  obtain ⟨rfl, hdistinct, q, rfl, hcurrent⟩ := hs.watch.told ⟨_, hpr, rfl, rfl⟩ horder hp hx hown
  cases prog with
  | ret a => exact absurd hstatus (houtcome.settled hdistinct q x n hcurrent)
  | throw e =>
    exact absurd (hs.snapshot_invoice hcurrent.read hstatus)
      (houtcome hdistinct q x n hcurrent hstatus)
  | await op k =>
    obtain rfl : op = .prisma (.transaction (Commit.confirm q n).writes) :=
      hobeys.1.resume hdistinct q x n hcurrent hstatus
    exact ⟨q, k, rfl, rfl⟩

/-! ## What may become of a missing transaction -/

/-- What may become of a payment whose transaction is missing. -/
structure ReorgGrace (scans : Bool) (D : Setup) : Prop where
  /-- A payment that has been `CONFIRMING` fails after two passes have missed its transaction,
      with no answer in between that it is there acted on. -/
  failed : ∀ s₁ l₁, GraceRun scans D s₁ l₁ → ∀ p₁ ∈ s₁.config.state.db.payments,
    p₁.status = .confirming → ∀ s l, GraceRun scans D s l → GraceLeads scans D s₁ s →
      ∀ m s', graceStep scans D s m = some s' → ∀ p ∈ s.config.state.db.payments, p.id = p₁.id →
        p.status ≠ .failed → ∀ p' ∈ s'.config.state.db.payments, p'.id = p.id →
          p'.status = .failed → ∃ ev x, s'.config.trace = ev :: s.config.trace ∧
            p.txHash = some x ∧ MissedTwice (Unrecorded x) ev.pid x l
  /-- A pass changes a payment only after an answer about its transaction that is a count or
      `NotFoundError`. -/
  changed : ∀ s l, GraceRun scans D s l → ∀ m s', graceStep scans D s m = some s' →
    ∀ p ∈ s.config.state.db.payments, p ∉ s'.config.state.db.payments →
      ∃ ev x r, s'.config.trace = ev :: s.config.trace ∧ p.txHash = some x ∧
        answer (own ev.pid s.config.trace) = some (x, r) ∧ r ≠ .error .rpc
  /-- A pass does nothing after any other error. -/
  ended : ∀ s l, GraceRun scans D s l → ∀ m s', graceStep scans D s m = some s' → ∀ ev x before,
    s'.config.trace = ev :: s.config.trace →
      own ev.pid s.config.trace ≠ ⟨ev.pid, .other (.getConfirmations x), .error .rpc⟩ :: before
  /-- A pass that is told that a missing transaction is back goes on to make the payment
      `CONFIRMING`, if scan passes do not overlap. -/
  awaits : scans = false → ∀ s l, GraceRun scans D s l → ∀ p ∈ s.config.state.db.payments,
    p.status = .reorgDetected → ∀ x, p.txHash = some x → ∀ pid n before,
      own pid s.config.trace = present pid x n :: before → ∀ pr ∈ s.procs, pr.pid = pid →
        ∃ q k, q.toPayment = p ∧
          pr.prog = .await (.prisma (.transaction (Commit.confirm q n).writes)) k
  /-- That request makes it `CONFIRMING` as of now, or does not reach the database. -/
  returns : ∀ s l, GraceRun scans D s l → ∀ p ∈ s.config.state.db.payments,
    p.status = .reorgDetected → ∀ x, p.txHash = some x → ∀ ev n before,
      own ev.pid s.config.trace = present ev.pid x n :: before →
        ∀ m s', graceStep scans D s m = some s' → s'.config.trace = ev :: s.config.trace →
          { p with status := .confirming, confirmations := n, updatedAt := s.config.state.clock } ∈
              s'.config.state.db.payments ∨
            (∃ ws, ev = ⟨ev.pid, .prisma (.transaction ws), .error (.prisma .connection)⟩) ∧
              s'.config.state = s.config.state

/-- The grace window of a payment whose transaction is missing. -/
theorem reorg_grace (scans : Bool) (D : Setup) : ReorgGrace scans D where
  failed s₁ l₁ h₁ p₁ hp₁ hconfirming s l hs hleads m s' hstep p hp hid hstands p' hp' hid' hfailed := by
    have hdetected : p.status ≠ .detected := by
      obtain ⟨p₂, hp₂, hid₂, hne⟩ := h₁.never_detected hp₁ (by rw [hconfirming]; nofun) hleads
      exact Table.eq_of_key hp₂ hp (hid₂.trans hid.symm) ▸ hne
    rcases graceStep_payments hstep with hsame | ⟨ev, htr⟩
    · rw [Table.eq_of_key ((hsame p').1 hp') hp hid'] at hfailed
      exact absurd hfailed hstands
    · obtain ⟨j, hrequested⟩ := hs.requested hstep htr
      obtain ⟨x, hx, hmissed⟩ := hs.watch.failed hrequested hp hp' hid' hdetected hstands hfailed
      exact ⟨ev, x, htr, hx, hmissed⟩
  changed s l hs m s' hstep p hp hgone := by
    rcases graceStep_payments hstep with hsame | ⟨ev, htr⟩
    · exact absurd ((hsame p).2 hp) hgone
    · obtain ⟨j, hrequested⟩ := hs.requested hstep htr
      obtain ⟨x, r, hx, hanswer, hr⟩ := hs.watch.changed hrequested hp hgone
      exact ⟨ev, x, r, htr, hx, hanswer, hr⟩
  ended s l hs m s' hstep ev x before htr hown := by
    obtain ⟨j, hrequested⟩ := hs.requested hstep htr
    have hexpected := hrequested.expected
    have horder := hrequested.inOrder _ _ hrequested.flying
    rw [hown] at hexpected horder
    obtain rfl := confirm_of_ask horder.1
    exact hexpected.live trivial
  awaits hscans s l hs p hp hstatus x hx pid n before hown pr hpr hpid := by
    subst hscans
    exact hs.awaits hp hstatus hx hown hpr hpid
  returns s l hs p hp hstatus x hx ev n before hown m s' hstep htr := by
    obtain ⟨j, hrequested⟩ := hs.requested hstep htr
    obtain ⟨q, rfl, ⟨-, heffect⟩ | ⟨hev, hsame⟩⟩ := hs.watch.resumes hrequested hp hstatus hx hown
    · have hkept := heffect.keeps_payment hp
      rw [Commit.onPayment_of_eq rfl rfl] at hkept
      exact .inl hkept
    · exact .inr ⟨⟨_, hev⟩, hsame⟩

/-! ### An answer that is lost -/

/-- What was answered about the transaction, newest first. -/
def sightings (txHash : String) (l : Stamped) : List Bool :=
  l.filterMap fun e => (answeredBy e.2).bind fun a =>
    if a.1 = txHash then some (match a.2 with | .ok _ => true | .error _ => false) else none

/-- A payment that is confirming. -/
def confirmingMoves : List EvmMove :=
  sampleInvoice 0 ++ sampleScan 1 ++ performs 1 [.ok, .ok, .ok] ++ [.stop 1] ++ sampleConfirm 2 0 ++
    performs 2 [.ok] ++ [.stop 2]

/-- Its transaction is missing, is back, but the database is not reached, and is missing again. -/
def lostMoves : List EvmMove :=
  .start .confirm :: performs 3 [.ok, .ok, .ok, .other (.confirmations (.error (.notFound "gone"))),
    .ok] ++ [.stop 3, .env (.clock 1)] ++ sampleConfirm 4 1 ++ performs 4 [.connectionError] ++
  [.stop 4, .env (.clock 600000)] ++ .start .confirm :: performs 5 [.ok, .ok, .ok,
    .other (.confirmations (.error (.notFound "gone"))), .ok]

theorem sightings_append (x : String) (l l' : Stamped) :
    sightings x (l ++ l') = sightings x l ++ sightings x l' := List.filterMap_append

theorem sightings_missing (pid : ℕ) (x message : String) (t : Time) (l : Stamped) :
    sightings x ((t, missing pid x message) :: l) = false :: sightings x l := by
  simp [sightings, answeredBy]

theorem Unseen.sightings {x : String} (h : Unseen x l) : true ∉ sightings x l := by
  intro htrue
  obtain ⟨⟨t, ev⟩, hmem, hev⟩ := List.mem_filterMap.mp htrue
  obtain ⟨⟨y, r⟩, ha, hif⟩ := Option.bind_eq_some_iff.mp hev
  obtain ⟨pid, rfl⟩ := answeredBy_eq_some.mp ha
  split_ifs at hif with hy
  cases r with
  | ok n => exact h t pid n (hy ▸ hmem)
  | error e => cases hif

/-- If the transaction was seen in between, it was not missing throughout. -/
theorem not_missedTwice_of_seen {x : String} {rest : List Bool}
    (h : sightings x l = false :: true :: rest) : ¬ MissedTwice (Unseen x) pid x l := by
  rintro ⟨since, t, message, between, s, pid₀, message₀, older, now, rfl, -, -, -, hunseen⟩
  rw [sightings_append, sightings_missing, sightings_append, sightings_missing] at h
  have hquiet := hunseen.sightings
  rw [sightings_append, sightings_missing] at hquiet
  cases hs : sightings x since with
  | nil =>
    cases hb : sightings x between with
    | nil => simp [hs, hb] at h
    | cons b bs => simp_all
  | cons b bs =>
    cases bs with
    | nil => simp [hs] at h
    | cons b' bs => simp_all

/-- An answer that the transaction is there does not restart the window if the database is not
    reached. -/
theorem window_not_restarted : ¬ ∀ s₁ l₁, GraceRun false sample s₁ l₁ →
    ∀ p₁ ∈ s₁.config.state.db.payments, p₁.status = .confirming →
      ∀ s l, GraceRun false sample s l → GraceLeads false sample s₁ s →
        ∀ m s', graceStep false sample s m = some s' → ∀ p ∈ s.config.state.db.payments,
          p.id = p₁.id → p.status ≠ .failed → ∀ p' ∈ s'.config.state.db.payments, p'.id = p.id →
            p'.status = .failed → ∃ ev x, s'.config.trace = ev :: s.config.trace ∧
              p.txHash = some x ∧ MissedTwice (Unseen x) ev.pid x l := by
  have hrun : (((System.initial sampleWorld).stamp (machine (networkAnswers sample.network))
      (grace false sample) World.clock [] confirmingMoves).bind fun r => (r.1.stamp
        (machine (networkAnswers sample.network)) (grace false sample) World.clock r.2
          lostMoves).bind fun r' => (graceStep false sample r'.1 (.perform 5 .ok)).map fun s' =>
            ([r.1, r'.1, s'].map fun t => paymentStatuses t.config.state.db,
              sightings "0x1" r'.2, r'.1.config.state.db.payments.rows.map fun p => p.txHash)) =
      some ([[("pay_1", .confirming)], [("pay_1", .reorgDetected)], [("pay_1", .failed)]],
        [false, true, false, true], [some "0x1"]) := by
    decide
  obtain ⟨⟨s₁, l₁⟩, h₁, hrun⟩ := Option.bind_eq_some_iff.mp hrun
  obtain ⟨⟨s, l⟩, h, hrun⟩ := Option.bind_eq_some_iff.mp hrun
  obtain ⟨s', hstep, hview⟩ := Option.map_eq_some_iff.mp hrun
  simp only [Prod.mk.injEq, List.map_cons, List.map_nil, List.cons.injEq] at hview
  obtain ⟨⟨hp₁, hp, hp', -⟩, hseen, htx⟩ := hview
  obtain ⟨hs₁, -⟩ := Timed.stamp _ (.initial sampleWorld_unused) h₁
  obtain ⟨hs, hleads⟩ := Timed.stamp _ hs₁ h
  obtain ⟨p₁, hp₁, hid₁, hst₁⟩ := mem_paymentStatuses (hp₁ ▸ List.mem_cons_self)
  obtain ⟨p, hp, hid, hst⟩ := mem_paymentStatuses (hp ▸ List.mem_cons_self)
  obtain ⟨p', hp', hid', hst'⟩ := mem_paymentStatuses (hp' ▸ List.mem_cons_self)
  intro hclaim
  obtain ⟨ev, x, -, hx, hmissed⟩ := hclaim s₁ l₁ hs₁ p₁ hp₁ hst₁ s l hs hleads _ s' hstep p hp
    (hid.trans hid₁.symm) (by rw [hst]; nofun) p' hp' (hid'.trans hid.symm) hst'
  have hmem : p.txHash ∈ [some "0x1"] := htx ▸ List.mem_map_of_mem (f := fun p => p.txHash) hp
  obtain rfl : x = "0x1" := Option.some.inj (hx.symm.trans (List.mem_singleton.mp hmem))
  exact not_missedTwice_of_seen hseen hmissed

end CryptoPay.Worker
