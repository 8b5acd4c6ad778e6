import CryptoPay.Worker.Passes

/-!
# The grace window of a missing transaction

When a confirming payment's transaction disappears, the payment is marked
`REORG_DETECTED`, and it fails once a later pass still misses the transaction
`REORG_GRACE_MS` after the row was last updated. The window is not stored: it is
read off `updatedAt`, so it rests on what each pass has seen and on nothing else
touching the row.

Results:
* `payment_step`: what a request may do to the stored payments.
-/

namespace CryptoPay.Worker

open Async Data

/-! ## Runs -/

/-- Every transfer that the adapter hands out is one of its network
    (evm-blockchain-adapter.ts sets `network: this.network`). -/
def ownTransfers (network : String) : (call : AdapterCall) → adapterCalls.Ret call → Bool
  | .getTokenTransfers .., .ok ts => ts.all fun t => t.network = network
  | _, _ => true

/-- An adapter for one network, which answers anything else, and a clock that never goes back. -/
def networkAnswers (network : String) : Backend adapterCalls Unit Answer Empty :=
  { answering (fun _ => ownTransfers network) fun _ act => nomatch act with
    tick := fun t t' => decide (t ≤ t') }

/-- One confirm pass at a time; scan passes overlap if `scans` says so. -/
abbrev grace (scans : Bool) (D : Setup) : Workload (effects adapterCalls) Error Job :=
  workload ⟨scans, false⟩ D.deployment

/-- Requests with the time at which they were answered, newest first. -/
abbrev Stamped := List (Time × Event (effects adapterCalls))

/-- A run of scan and confirm passes, with the times of its requests. -/
abbrev GraceRun (scans : Bool) (D : Setup) : EvmSystem → Stamped → Prop :=
  Timed (machine (networkAnswers D.network)) (grace scans D) Unused anything World.clock

def graceStep (scans : Bool) (D : Setup) (s : EvmSystem) (m : EvmMove) : Option EvmSystem :=
  s.step (machine (networkAnswers D.network)) (grace scans D) m

/-- Process `pid` is told that the transaction is there. -/
abbrev present (pid : ℕ) (txHash : String) (confirmations : ℤ) : Event (effects adapterCalls) :=
  ⟨pid, .other (.getConfirmations txHash), .ok confirmations⟩

/-- Process `pid` is told that the transaction is missing. -/
abbrev missing (pid : ℕ) (txHash message : String) : Event (effects adapterCalls) :=
  ⟨pid, .other (.getConfirmations txHash), .error (.notFound message)⟩

/-- After these requests of others and of its own, process `pid` has not gone on: it made no
    request, or one that did not reach the database. -/
def CutOff (pid : ℕ) (tr : Requests) : Prop :=
  own pid tr = [] ∨
    ∃ ws, own pid tr = [⟨pid, .prisma (.transaction ws), .error (.prisma .connection)⟩]

/-- No answer that the transaction is there was acted on: each pass that got one was cut off. -/
def Unrecorded (txHash : String) (l : Stamped) : Prop :=
  ∀ newer t pid n older, l = newer ++ (t, present pid txHash n) :: older →
    CutOff pid (newer.map Prod.snd)

/-! ## What a request does to the payments -/

variable {scans : Bool} {D : Setup} {c : History adapterCalls Unit} {l : Stamped}
  {F : Job → ℕ → Prop} {j : Job} {ev : Event (effects adapterCalls)} {w : World Unit}

/-- A request of a job in flight. -/
abbrev Requested (D : Setup) (c : History adapterCalls Unit) (F : Job → ℕ → Prop) (j : Job)
    (ev : Event (effects adapterCalls)) (w : World Unit) : Prop :=
  Performs (machine (networkAnswers D.network)) anything (Expected D.requiredConfirmations) c F j
    ev w

/-- What a request may do to the stored payments. -/
inductive PaymentStep (D : Setup) (c : History adapterCalls Unit) (j : Job)
    (ev : Event (effects adapterCalls)) (w : World Unit) : Prop where
  | same (rows : w.db.payments = c.state.db.payments)
  | detect (i : Invoice) (t : TokenTransfer) (paymentId : String) (detectedAt : Time)
      (job : j = .scan) (op : ev.op = .prisma (.transaction
        (Commit.detect i t paymentId detectedAt).writes))
      (network : i.network = t.network) (handed : HandedOut t (own ev.pid c.trace))
      (effect : (Commit.detect i t paymentId detectedAt).Effect c.state.clock c.state.db w.db)
  | advance (q : PaymentWithInvoice) (x : String) (r : Except AdapterError ℤ) (m : Commit)
      (job : j = .confirm) (op : ev.op = .prisma (.transaction m.writes))
      (current : Current (own ev.pid c.trace) q x r)
      (commit : Advance D.requiredConfirmations (own ev.pid c.trace) q r m)
      (effect : m.Effect c.state.clock c.state.db w.db)

/-- A transaction commits or leaves everything as it is. -/
theorem commit_or_same {m : Commit} {pid : ℕ} {r : Except Error Unit} {i : Input Answer}
    (h : (machine (networkAnswers D.network)).respond pid c.state (.prisma (.transaction m.writes)) i =
      some (r, w)) :
    (r = .ok () ∧ m.Effect c.state.clock c.state.db w.db) ∨
      (∃ e, r = .error e) ∧ w.db.payments = c.state.db.payments := by
  rcases respond_transaction h with ⟨db, hdb, rfl, rfl⟩ | ⟨⟨code, rfl⟩, rfl⟩
  · exact .inl ⟨rfl, Commit.effect hdb⟩
  · exact .inr ⟨⟨_, rfl⟩, rfl⟩

theorem payment_step (h : Requested D c F j ev w) : PaymentStep D c j ev w := by
  obtain ⟨pid, op, r⟩ := ev
  obtain ⟨i, hr⟩ := h.reply
  have hexpected := h.expected
  by_cases hws : ∀ ws, op = .prisma (.transaction ws) → ∀ x ∈ ws, x.SparesPayments
  · exact .same (respond_spares hws hr)
  push Not at hws
  obtain ⟨ws, rfl, x, hx, hbad⟩ := hws
  cases j with
  | scan =>
    rcases hexpected with hspares | ⟨inv, t, paymentId, detectedAt, rfl, hnet, hhanded⟩
    · exact absurd (hspares x hx) hbad
    · rcases commit_or_same hr with ⟨-, heffect⟩ | ⟨-, hsame⟩
      · exact .detect inv t paymentId detectedAt rfl rfl hnet hhanded heffect
      · exact .same hsame
  | confirm =>
    rcases hexpected.commit ws rfl with hspares | ⟨q, y, a, m, hcurrent, hadvance, rfl⟩
    · exact absurd (hspares x hx) hbad
    · rcases commit_or_same hr with ⟨-, heffect⟩ | ⟨-, hsame⟩
      · exact .advance q y a m rfl rfl hcurrent hadvance heffect
      · exact .same hsame
  | createInvoice organizationId apiKeyId input ctx =>
    exact absurd (hexpected x hx).sparesPayments hbad
  | setWalletAddress organizationId userId input ctx =>
    exact absurd (hexpected x hx).sparesPayments hbad

/-- Only a confirm pass asks the adapter about a transaction. -/
theorem confirm_of_ask {x : String} {h : Requests}
    (he : Expected D.requiredConfirmations j h (.other (.getConfirmations x))) : j = .confirm := by
  cases j with
  | confirm => rfl
  | _ => exact he.elim

/-- A commit that advances a payment changes no other one. -/
theorem advance_update {h : Requests} {q : PaymentWithInvoice} {r : Except AdapterError ℤ}
    {m : Commit} (hm : Advance D.requiredConfirmations h q r m) :
    m.paymentCreate = none ∧ ∀ u, m.paymentUpdate = some u → u.1 = q.id := by
  cases hm <;> exact ⟨rfl, fun u hu => by cases hu; rfl⟩

/-- Where a payment stands after a commit that advances it. -/
theorem advance_status {h : Requests} {q : PaymentWithInvoice} {r : Except AdapterError ℤ}
    {m : Commit} (hm : Advance D.requiredConfirmations h q r m) {p : Payment}
    (hp : p = q.toPayment) (now : Time) :
    (m.onPayment now p).status ≠ .detected ∨ (m.onPayment now p).status = p.status := by
  subst hp
  cases hm with
  | confirm status => rw [Commit.onPayment_of_eq rfl rfl]; exact .inl nofun
  | refresh detected reorg => rw [Commit.onPayment_of_eq rfl rfl]; exact .inr rfl
  | settle detected reorg enough =>
    rw [Commit.onPayment_of_eq rfl rfl]
    refine .inl ?_
    show q.amountMatch.outcome.1 ≠ .detected
    cases q.amountMatch <;> exact nofun
  | fail status => rw [Commit.onPayment_of_eq rfl rfl]; exact .inl nofun
  | reorg status => rw [Commit.onPayment_of_eq rfl rfl]; exact .inl nofun
  | giveUp detected confirming read elapsed => rw [Commit.onPayment_of_eq rfl rfl]; exact .inl nofun

/-! ## The invariant -/

/-- The transaction has been missing since a time up to `updatedAt`, and whenever it was seen
    since then, the pass was cut off. -/
def MissingSince (txHash : String) (updatedAt : Time) (l : Stamped) : Prop :=
  ∃ newer s pid message older, l = newer ++ (s, missing pid txHash message) :: older ∧
    s ≤ updatedAt ∧ (∃ e ∈ newer, e.2.pid = pid ∧ pauses e.2.op = false) ∧
      Unrecorded txHash newer

/-- A confirm pass in flight knows the payments that it has not gone through yet. -/
structure Informed (db : Db) (h : Requests) : Prop where
  distinct : Distinct h
  active : ∀ q ∈ snapshot h, q.status ∈ activeStatuses
  stored : ∀ q ∈ snapshot h, ∀ x, q.txHash = some x →
    (x ∉ asked h ∨ ∃ r, answer h = some (x, r)) → q.toPayment ∈ db.payments

/-- What holds between any two requests. -/
structure Watch (D : Setup) (c : History adapterCalls Unit) (l : Stamped)
    (F : Job → ℕ → Prop) : Prop where
  trace : l.map Prod.snd = c.trace
  network : ∀ p ∈ c.state.db.payments, p.network = D.network ∧ ∃ x, p.txHash = some x
  single : ∀ p ∈ c.state.db.payments, ∀ q ∈ c.state.db.payments, p.txHash = q.txHash → p = q
  invoice : ∀ p ∈ c.state.db.payments, InvoiceExists p.invoiceId c.state.db
  handed : ∀ ev ∈ c.trace, ∀ pid a b ts,
    ev = ⟨pid, .other (.getTokenTransfers a b), .ok ts⟩ → ∀ t ∈ ts, t.network = D.network
  clock : ∀ e ∈ l, e.1 ≤ c.state.clock
  read : ∀ e ∈ l, ∀ pid t, e.2 = ⟨pid, .now, t⟩ → t = e.1
  job : ∀ j j' pid, F j pid → F j' pid → j = j'
  lone : ∀ pid pid', F .confirm pid → F .confirm pid' → pid = pid'
  asks : ∀ newer t ev older, l = newer ++ (t, ev) :: older → F .confirm ev.pid →
    ∀ e ∈ newer, ∀ x, e.2.op = .other (.getConfirmations x) → e.2.pid = ev.pid
  informed : ∀ pid, F .confirm pid → Informed c.state.db (own pid c.trace)
  since : ∀ p ∈ c.state.db.payments, p.status = .reorgDetected → ∀ x, p.txHash = some x →
    MissingSince x p.updatedAt l

/-! ## Lists of requests -/

/-- Where a request of process `pid` stands among the stamped ones. -/
theorem exists_stamp {pid : ℕ} {l : Stamped} {since before : Requests}
    {e : Event (effects adapterCalls)} (h : own pid (l.map Prod.snd) = since ++ e :: before) :
    ∃ l₁ t l₂, l = l₁ ++ (t, e) :: l₂ ∧ own pid (l₁.map Prod.snd) = since ∧
      own pid (l₂.map Prod.snd) = before := by
  unfold own at h
  obtain ⟨a, b, hab, ha, hb⟩ := List.filter_eq_append_iff.mp h
  obtain ⟨b₁, b₂, rfl, hb₁, -, hb₂⟩ := List.filter_eq_cons_iff.mp hb
  obtain ⟨l₁, l₂, rfl, rfl, hl₂⟩ := List.map_eq_append_iff.mp hab
  obtain ⟨l₃, l₄, rfl, rfl, hl₄⟩ := List.map_eq_append_iff.mp hl₂
  obtain ⟨⟨t, e'⟩, l₅, rfl, rfl, rfl⟩ := List.map_eq_cons_iff.mp hl₄
  refine ⟨l₁ ++ l₃, t, l₅, by rw [List.append_assoc], ?_, hb₂⟩
  unfold own
  rw [List.map_append, List.filter_append, ha]
  have hnil : (l₃.map Prod.snd).filter (fun ev => decide (ev.pid = pid)) = [] :=
    List.filter_eq_nil_iff.mpr hb₁
  rw [hnil, List.append_nil]

theorem Unrecorded.cons {x : String} (h : Unrecorded x l) {t : Time}
    (hev : ∀ newer t' pid n older, l = newer ++ (t', present pid x n) :: older → ev.pid = pid →
      CutOff pid (ev :: newer.map Prod.snd)) : Unrecorded x ((t, ev) :: l) := by
  intro newer t' pid n older heq
  cases newer with
  | nil => exact .inl rfl
  | cons e newer =>
    obtain ⟨he, htail⟩ := List.cons.inj heq
    subst he
    by_cases hpid : ev.pid = pid
    · exact hev newer t' pid n older htail hpid
    · have hcut := h newer t' pid n older htail
      unfold CutOff at hcut ⊢
      rw [List.map_cons, own_cons_of_ne hpid]
      exact hcut

/-! ## What a request keeps -/

section Request

variable (hK : Watch D c l F) (h : Requested D c F j ev w)

include hK in
theorem Watch.handedOut {t : TokenTransfer} {pid : ℕ} (ht : HandedOut t (own pid c.trace)) :
    t.network = D.network := by
  obtain ⟨q, a, b, ts, hev, hmem⟩ := ht
  exact hK.handed _ (mem_own.mp hev).1 q a b ts rfl t hmem

include hK h in
theorem Watch.network_request : ∀ p ∈ w.db.payments,
    p.network = D.network ∧ ∃ x, p.txHash = some x := by
  intro p' hp'
  have old : ∀ p ∈ c.state.db.payments, p'.terms = p.terms →
      p'.network = D.network ∧ ∃ x, p'.txHash = some x := by
    intro p hp hterms
    rw [show p'.network = p.network from (congrArg Payment.network hterms :),
      show p'.txHash = p.txHash from (congrArg Payment.txHash hterms :)]
    exact hK.network p hp
  cases payment_step h with
  | same rows => exact old p' (rows ▸ hp') rfl
  | detect i t paymentId detectedAt job op network handed effect =>
    rcases (effect.payments p').1 hp' with ⟨p, hp, hpp⟩ | ⟨d, hd, rfl⟩
    · exact old p hp (hpp ▸ Commit.terms_onPayment _ _ p)
    · cases hd
      exact ⟨network.trans (hK.handedOut handed), t.txHash, rfl⟩
  | advance q x r m job op current commit effect =>
    rcases (effect.payments p').1 hp' with ⟨p, hp, rfl⟩ | ⟨d, hd, rfl⟩
    · exact old p hp (Commit.terms_onPayment _ _ p)
    · cases commit <;> cases hd

/-- Two rows that a commit left or changed and that have one transaction are one row. -/
theorem Watch.single_of_terms (hK : Watch D c l F) {p p' q q' : Payment}
    (hp : p ∈ c.state.db.payments) (hq : q ∈ c.state.db.payments) (hp' : p' ∈ w.db.payments)
    (hq' : q' ∈ w.db.payments) (hpp : p'.terms = p.terms) (hqq : q'.terms = q.terms)
    (htx : p'.txHash = q'.txHash) : p' = q' := by
  have hpq : p = q := by
    refine hK.single p hp q hq ?_
    rw [← show p'.txHash = p.txHash from (congrArg Payment.txHash hpp :), htx]
    exact (congrArg Payment.txHash hqq :)
  subst hpq
  exact Table.eq_of_key hp' hq' ((terms_paymentId hpp).trans (terms_paymentId hqq).symm)

include hK h in
theorem Watch.single_request : ∀ p ∈ w.db.payments, ∀ q ∈ w.db.payments,
    p.txHash = q.txHash → p = q := by
  intro p' hp' q' hq' htx
  cases payment_step h with
  | same rows => exact hK.single p' (rows ▸ hp') q' (rows ▸ hq') htx
  | detect i t paymentId detectedAt job op network handed effect =>
    -- the recorded transaction is new
    have fresh : ∀ p ∈ c.state.db.payments, ∀ d,
        (Commit.detect i t paymentId detectedAt).paymentCreate = some d →
          p.txHash ≠ some d.txHash := by
      intro p hp d hd
      refine effect.freshTxHash d hd p hp ?_
      cases hd
      exact (hK.network p hp).1.trans (network.trans (hK.handedOut handed)).symm
    rcases (effect.payments p').1 hp' with ⟨p, hp, hpp⟩ | ⟨d, hd, hpd⟩ <;>
      rcases (effect.payments q').1 hq' with ⟨q, hq, hqq⟩ | ⟨d', hd', hqd⟩
    · exact hK.single_of_terms hp hq hp' hq' (hpp ▸ Commit.terms_onPayment _ _ p)
        (hqq ▸ Commit.terms_onPayment _ _ q) htx
    · refine absurd ?_ (fresh p hp d' hd')
      rw [← show p'.txHash = p.txHash from (congrArg Payment.txHash hpp :), htx, hqd]
      rfl
    · refine absurd ?_ (fresh q hq d hd)
      rw [← show q'.txHash = q.txHash from (congrArg Payment.txHash hqq :), ← htx, hpd]
      rfl
    · rw [hpd, hqd, Option.some.inj (hd.symm.trans hd')]
  | advance q₀ x r m job op current commit effect =>
    have old : ∀ p' ∈ w.db.payments, ∃ p ∈ c.state.db.payments, p'.terms = p.terms := by
      intro p' hp'
      rcases (effect.payments p').1 hp' with ⟨p, hp, rfl⟩ | ⟨d, hd, rfl⟩
      · exact ⟨p, hp, Commit.terms_onPayment _ _ p⟩
      · cases commit <;> cases hd
    obtain ⟨p, hp, hpp⟩ := old p' hp'
    obtain ⟨q, hq, hqq⟩ := old q' hq'
    exact hK.single_of_terms hp hq hp' hq' hpp hqq htx

include hK h in
theorem Watch.invoice_request : ∀ p ∈ w.db.payments, InvoiceExists p.invoiceId w.db := by
  intro p' hp'
  obtain ⟨i, hr⟩ := h.reply
  have old : ∀ p ∈ c.state.db.payments, p'.terms = p.terms → InvoiceExists p'.invoiceId w.db := by
    intro p hp hterms
    rw [terms_invoiceId hterms]
    exact respond_keepsInvoice (hK.invoice p hp) hr
  cases payment_step h with
  | same rows => exact old p' (rows ▸ hp') rfl
  | detect inv t paymentId detectedAt job op network handed effect =>
    rcases (effect.payments p').1 hp' with ⟨p, hp, hpp⟩ | ⟨d, hd, rfl⟩
    · exact old p hp (hpp ▸ Commit.terms_onPayment _ _ p)
    · cases hd
      exact respond_keepsInvoice (effect.invoiceExists _ rfl) hr
  | advance q x r m job op current commit effect =>
    rcases (effect.payments p').1 hp' with ⟨p, hp, rfl⟩ | ⟨d, hd, rfl⟩
    · exact old p hp (Commit.terms_onPayment _ _ p)
    · cases commit <;> cases hd

include hK h in
theorem Watch.handed_request : ∀ e ∈ ev :: c.trace, ∀ pid a b ts,
    e = ⟨pid, .other (.getTokenTransfers a b), .ok ts⟩ → ∀ t ∈ ts, t.network = D.network := by
  intro e he pid a b ts heq t ht
  rcases List.mem_cons.mp he with rfl | he
  · subst heq
    obtain ⟨i, hr⟩ := h.reply
    obtain ⟨k, o, ho, -⟩ := respond_other hr
    obtain ⟨r, -, haccepts⟩ := Option.bind_eq_some_iff.mp ho
    split_ifs at haccepts with hown
    cases haccepts
    simpa using List.all_eq_true.mp hown t ht
  · exact hK.handed e he pid a b ts heq t ht

include hK h in
theorem Watch.asks_request : ∀ newer t e older,
    (c.state.clock, ev) :: l = newer ++ (t, e) :: older → F .confirm e.pid →
    ∀ e' ∈ newer, ∀ x, e'.2.op = .other (.getConfirmations x) → e'.2.pid = e.pid := by
  intro newer t e older heq hF e' he' x hx
  cases newer with
  | nil => exact absurd he' List.not_mem_nil
  | cons first newer =>
    obtain ⟨hfirst, hrest⟩ := List.cons.inj heq
    subst hfirst
    rcases List.mem_cons.mp he' with rfl | he'
    · have hexpected := h.expected
      rw [show ev.op = .other (.getConfirmations x) from hx] at hexpected
      have hj := confirm_of_ask hexpected
      exact hK.lone _ _ (hj ▸ h.flying) hF
    · exact hK.asks newer t e older hrest hF e' he' x hx

/-! ### What the passes know -/

theorem Informed.nil (db : Db) : Informed db [] where
  distinct := List.nodup_nil
  active _ hq := absurd hq List.not_mem_nil
  stored _ hq := absurd hq List.not_mem_nil

/-- A request that neither reads payments nor asks about one. -/
theorem Informed.cons {db db' : Db} {h : Requests} (hi : Informed db h)
    (hread : readBy ev = none) (hask : ∀ x, ev.op ≠ .other (.getConfirmations x))
    (hkeep : ∀ q ∈ snapshot h, ∀ x, q.txHash = some x → q.toPayment ∈ db.payments →
      x ∉ asked h ∨ pauses ev.op = true → q.toPayment ∈ db'.payments) :
    Informed db' (ev :: h) := by
  have hsnap : snapshot (ev :: h) = snapshot h := snapshot_of_readBy hread
  have hasked : asked (ev :: h) = asked h := asked_cons_of_ne hask
  refine ⟨?_, fun q hq => hi.active q (hsnap ▸ hq), fun q hq x hx hstand => ?_⟩
  · unfold Distinct
    rw [hsnap]
    exact hi.distinct
  · rw [hsnap] at hq
    rw [hasked] at hstand
    rcases hstand with hx' | ⟨r, hr⟩
    · exact hkeep q hq x hx (hi.stored q hq x hx (.inl hx')) (.inl hx')
    · simp only [answer, answeredBy_eq_none hask] at hr
      split_ifs at hr with hp
      exact hkeep q hq x hx (hi.stored q hq x hx (.inr ⟨r, hr⟩)) (.inr hp)

include hK h in
theorem Watch.informed_other {pid : ℕ} (hpid : ev.pid ≠ pid) (hF : F .confirm pid) :
    Informed w.db (own pid (ev :: c.trace)) := by
  have hi := hK.informed pid hF
  rw [own_cons_of_ne hpid]
  refine ⟨hi.distinct, hi.active, fun q hq x hx hstand => ?_⟩
  have hstored := hi.stored q hq x hx hstand
  cases payment_step h with
  | same rows => exact rows ▸ hstored
  | detect i t paymentId detectedAt job op network handed effect =>
    exact effect.keeps_payment hstored
  | advance q₀ y r m job op current commit effect =>
    exact absurd (hK.lone _ _ (job ▸ h.flying) hF) hpid

/-- The rows of a snapshot are what was stored. -/
theorem Watch.snapshot_distinct (hK : Watch D c l F) (status : List PaymentStatus) :
    ((c.state.db.paymentsWithInvoice status).map fun p => p.txHash).Nodup := by
  have hids := c.state.db.nodup_paymentsWithInvoice status
  refine List.Nodup.map_on (fun p hp q hq htx => ?_) (List.Nodup.of_map _ hids)
  obtain ⟨hp', -⟩ := mem_paymentsWithInvoice.mp hp
  obtain ⟨hq', -⟩ := mem_paymentsWithInvoice.mp hq
  have heq : p.toPayment = q.toPayment := hK.single _ hp' _ hq' htx
  exact List.inj_on_of_nodup_map hids hp hq (congrArg Payment.id heq)

include hK h in
theorem Watch.informed_own (hF : F .confirm ev.pid) :
    Informed w.db (own ev.pid (ev :: c.trace)) := by
  have hi := hK.informed _ hF
  have hj : j = .confirm := hK.job _ _ _ h.flying hF
  subst hj
  obtain ⟨pid, op, r⟩ := ev
  obtain ⟨i, hr⟩ := h.reply
  rw [own_cons_self ⟨pid, op, r⟩]
  by_cases hread : ∃ status, op = .prisma (.paymentFindMany status)
  · obtain ⟨status, rfl⟩ := hread
    obtain rfl := h.expected.read status rfl
    rcases respond_prisma hr with ⟨rfl, rfl⟩ | ⟨rfl, rfl⟩
    · refine ⟨hK.snapshot_distinct _, fun q hq => ?_, fun q hq x hx _ => ?_⟩
      · exact (mem_paymentsWithInvoice.mp hq).2.1
      · exact (mem_paymentsWithInvoice.mp hq).1
    · exact hi.cons rfl (fun _ => nofun) fun q _ x _ hstored _ => hstored
  by_cases hask : ∃ y, op = .other (.getConfirmations y)
  · obtain ⟨y, rfl⟩ := hask
    have hrows : w.db.payments = c.state.db.payments :=
      respond_spares (fun ws hws => nomatch (hws : (Op.other _ : Op adapterCalls) = .prisma _)) hr
    have hnew : y ∉ asked (own pid c.trace) := (h.expected.ask y rfl).2 hi.distinct
    refine ⟨hi.distinct, hi.active, fun q hq x hx hstand => hrows ▸ ?_⟩
    refine hi.stored q hq x hx (.inl ?_)
    rcases hstand with hx' | ⟨a, ha⟩
    · exact fun hmem => hx' (List.mem_cons_of_mem y hmem)
    · obtain ⟨rfl, -⟩ := Prod.mk.inj (Option.some.inj ha)
      exact hnew
  · refine hi.cons (readBy_eq_none fun status hs => hread ⟨status, hs⟩) (fun y hy => hask ⟨y, hy⟩)
      fun q hq x hx hstored hstand => ?_
    cases payment_step h with
    | same rows => exact rows ▸ hstored
    | detect i t paymentId detectedAt job op network handed effect => cases job
    | advance q₀ y a m job hop current commit effect =>
      -- the payment that is advanced is another one: it was asked about
      have hx' : x ∉ asked (own pid c.trace) := hstand.resolve_right fun hp => by
        obtain rfl : op = .prisma (.transaction m.writes) := hop
        cases hp
      have hq₀ := hi.stored q₀ current.read y current.txHash (.inr ⟨a, current.answer⟩)
      have hne : q.id ≠ q₀.id := by
        intro hid
        have heq : q.toPayment = q₀.toPayment := Table.eq_of_key hstored hq₀ hid
        have htx : q.txHash = q₀.txHash := congrArg Payment.txHash heq
        rw [hx, current.txHash] at htx
        exact hx' (Option.some.inj htx ▸ asked_of_answer current.answer)
      have hkept := effect.keeps_payment hstored
      rwa [Commit.onPayment_of_ne fun u hu => (advance_update commit).2 u hu ▸ hne] at hkept

/-! ### What the times say -/

include hK h in
theorem Watch.clock_request : ∀ e ∈ (c.state.clock, ev) :: l, e.1 ≤ w.clock := by
  intro e he
  obtain ⟨i, hr⟩ := h.reply
  rw [show w.clock = c.state.clock from respond_clock hr]
  rcases List.mem_cons.mp he with rfl | he
  · exact le_rfl
  · exact hK.clock e he

include hK h in
theorem Watch.read_request : ∀ e ∈ (c.state.clock, ev) :: l, ∀ pid t, e.2 = ⟨pid, .now, t⟩ →
    t = e.1 := by
  intro e he pid t heq
  rcases List.mem_cons.mp he with rfl | he
  · obtain rfl : ev = ⟨pid, .now, t⟩ := heq
    obtain ⟨i, hr⟩ := h.reply
    exact (respond_now hr).1
  · exact hK.read e he pid t heq

/-! ### Since when the transactions are missing -/

/-- A pass that has just been told that the transaction of a stored payment is there. -/
theorem Watch.told (hK : Watch D c l F) {pid : ℕ} (hF : F j pid)
    (horder : InOrder (Expected D.requiredConfirmations j) (own pid c.trace)) {p : Payment}
    {x : String} (hp : p ∈ c.state.db.payments) (hx : p.txHash = some x) {n : ℤ}
    {before : Requests} (hown : own pid c.trace = present pid x n :: before) :
    j = .confirm ∧ Distinct (own pid c.trace) ∧
      ∃ q : PaymentWithInvoice, q.toPayment = p ∧ Current (own pid c.trace) q x (.ok n) := by
  have hmem : present pid x n ∈ own pid c.trace := hown ▸ List.mem_cons_self
  obtain ⟨before', -, hask⟩ := horder.mem hmem
  obtain rfl := confirm_of_ask hask
  have hi := hK.informed _ hF
  rw [hown] at horder hi ⊢
  obtain ⟨q, hq, hqx⟩ := (horder.1.ask x rfl).1
  have hstored := hi.stored q hq x hqx (.inr ⟨_, rfl⟩)
  exact ⟨rfl, hi.distinct, q, hK.single _ hstored _ hp (hqx.trans hx.symm), hq, hqx, rfl⟩

include hK h in
/-- If the payment is `REORG_DETECTED`, the pass requests to make it `CONFIRMING`, which only an
    unreachable database refuses. -/
theorem Watch.resumes {p : Payment} {x : String} (hp : p ∈ c.state.db.payments)
    (hstatus : p.status = .reorgDetected) (hx : p.txHash = some x) {n : ℤ} {before : Requests}
    (hown : own ev.pid c.trace = present ev.pid x n :: before) :
    ∃ q : PaymentWithInvoice, q.toPayment = p ∧
      (ev = ⟨ev.pid, .prisma (.transaction (Commit.confirm q n).writes), .ok ()⟩ ∧
          (Commit.confirm q n).Effect c.state.clock c.state.db w.db ∨
        ev = ⟨ev.pid, .prisma (.transaction (Commit.confirm q n).writes),
          .error (.prisma .connection)⟩ ∧ w = c.state) := by
  obtain ⟨rfl, hdistinct, q, hqp, hcurrent⟩ :=
    hK.told h.flying (h.inOrder _ _ h.flying) hp hx hown
  refine ⟨q, hqp, ?_⟩
  have hop := h.expected.resume hdistinct q x n hcurrent (hqp ▸ hstatus)
  have hstored : q.toPayment ∈ c.state.db.payments := hqp ▸ hp
  obtain ⟨pid, op, r⟩ := ev
  obtain rfl : op = .prisma (.transaction (Commit.confirm q n).writes) := hop
  obtain ⟨i, hr⟩ := h.reply
  have hacceptable : (Commit.confirm q n).Acceptable c.state.db :=
    ⟨rfl, fun u hu => ⟨_, hstored, by cases hu; rfl⟩, nofun,
      fun u hu => by cases hu; exact hK.invoice _ hstored, nofun⟩
  rcases Commit.respond_accepted hacceptable hr with ⟨rfl, heffect⟩ | ⟨rfl, rfl⟩
  · exact .inl ⟨rfl, heffect⟩
  · exact .inr ⟨rfl, rfl⟩

/-- A payment that a pass has made `CONFIRMING`. -/
theorem confirmed_status {q : PaymentWithInvoice} {n : ℤ} {now : Time} {db db' : Db}
    (he : (Commit.confirm q n).Effect now db db') (hq : q.toPayment ∈ db.payments) {p : Payment}
    (hp : p ∈ db'.payments) (hid : p.id = q.id) :
    p = q.toPayment.update now { status := some .confirming, confirmations := some n } := by
  have heq := Table.eq_of_key hp (he.keeps_payment hq)
    (hid.trans (terms_paymentId (Commit.terms_onPayment _ _ _)).symm)
  rwa [Commit.onPayment_of_eq rfl rfl] at heq

include hK h in
/-- While a payment waits in `REORG_DETECTED`, its transaction stays missing. -/
theorem Watch.since_kept {p : Payment} {x : String}
    (hp : p ∈ c.state.db.payments) (hstatus : p.status = .reorgDetected) (hx : p.txHash = some x)
    (hstays : p ∈ w.db.payments) : MissingSince x p.updatedAt ((c.state.clock, ev) :: l) := by
  obtain ⟨newer, s, pid₀, message, older, rfl, hle, ⟨e, he, hacted⟩, hunrecorded⟩ :=
    hK.since p hp hstatus x hx
  refine ⟨_ :: newer, s, pid₀, message, older, rfl, hle, ⟨e, List.mem_cons_of_mem _ he, hacted⟩,
    hunrecorded.cons ?_⟩
  rintro newer₁ t' pid n older₁ rfl rfl
  have htrace : own ev.pid c.trace = own ev.pid (newer₁.map Prod.snd) ++
      present ev.pid x n :: own ev.pid ((older₁ ++ (s, missing pid₀ x message) :: older).map
        Prod.snd) := by
    rw [← hK.trace]
    simp [own]
  rcases hunrecorded newer₁ t' ev.pid n older₁ rfl with hnil | ⟨ws, hws⟩
  · rw [hnil, List.nil_append] at htrace
    obtain ⟨q, hqp, ⟨-, heffect⟩ | ⟨hev, -⟩⟩ := hK.resumes h hp hstatus hx htrace
    · have heq := confirmed_status heffect (hqp ▸ hp) hstays (congrArg Payment.id hqp.symm)
      rw [heq] at hstatus
      cases hstatus
    · refine .inr ⟨(Commit.confirm q n).writes, ?_⟩
      rw [own_cons_self ev, hnil, ← hev]
  · -- a pass makes no request after one that failed
    rw [hws] at htrace
    have hask : present ev.pid x n ∈ own ev.pid c.trace :=
      htrace ▸ List.mem_append_right _ List.mem_cons_self
    obtain ⟨before', -, hask⟩ := (h.inOrder _ _ h.flying).mem hask
    obtain rfl := confirm_of_ask hask
    have hexpected := h.expected
    rw [htrace] at hexpected
    exact absurd trivial hexpected.live

include hK h in
theorem Watch.since_request : ∀ p ∈ w.db.payments, p.status = .reorgDetected →
    ∀ x, p.txHash = some x → MissingSince x p.updatedAt ((c.state.clock, ev) :: l) := by
  intro p' hp' hstatus x hx
  have kept : ∀ p ∈ c.state.db.payments, p' = p →
      MissingSince x p'.updatedAt ((c.state.clock, ev) :: l) := by
    rintro p hp rfl
    exact hK.since_kept h hp hstatus hx hp'
  cases payment_step h with
  | same rows => exact kept p' (rows ▸ hp') rfl
  | detect i t paymentId detectedAt job op network handed effect =>
    rcases (effect.payments p').1 hp' with ⟨p, hp, hpp⟩ | ⟨d, hd, rfl⟩
    · exact kept p hp (hpp.trans (Commit.onPayment_of_create rfl p))
    · cases hd
      cases hstatus
  | advance q y r m job op current commit effect =>
    subst job
    rcases (effect.payments p').1 hp' with ⟨p, hp, hpp⟩ | ⟨d, hd, rfl⟩
    swap
    · cases commit <;> cases hd
    by_cases hid : p.id = q.id
    swap
    · refine kept p hp (hpp.trans (Commit.onPayment_of_ne fun u hu => ?_))
      exact (advance_update commit).2 u hu ▸ hid
    have hq := (hK.informed _ h.flying).stored q current.read y current.txHash
      (.inr ⟨r, current.answer⟩)
    obtain rfl : p = q.toPayment := Table.eq_of_key hp hq hid
    subst hpp
    have hxy : x = y := Option.some.inj (hx.symm.trans
      ((congrArg Payment.txHash (Commit.terms_onPayment m _ q.toPayment) :).trans current.txHash))
    subst hxy
    cases commit with
    | confirm status => rw [Commit.onPayment_of_eq rfl rfl] at hstatus; cases hstatus
    | refresh detected reorg =>
      rw [Commit.onPayment_of_eq rfl rfl] at hstatus
      exact absurd hstatus reorg
    | settle detected reorg enough =>
      rw [Commit.onPayment_of_eq rfl rfl] at hstatus
      cases hm : q.amountMatch <;> rw [hm] at hstatus <;> cases hstatus
    | fail status => rw [Commit.onPayment_of_eq rfl rfl] at hstatus; cases hstatus
    | giveUp detected confirming read elapsed =>
      rw [Commit.onPayment_of_eq rfl rfl] at hstatus
      cases hstatus
    | reorg status =>
      -- this pass has just missed the transaction, and nobody else has asked since
      obtain ⟨since, pid, before, hown, hpauses⟩ := answer_eq_some current.answer
      obtain rfl : pid = ev.pid := (mem_own.mp (hown ▸ List.mem_append_right _ List.mem_cons_self :
        _ ∈ own ev.pid c.trace)).2
      rw [← hK.trace] at hown
      obtain ⟨l₁, t, l₂, rfl, hsince, -⟩ := exists_stamp hown
      refine ⟨_ :: l₁, t, ev.pid, _, l₂, rfl, ?_, ⟨_, List.mem_cons_self, rfl, ?_⟩, ?_⟩
      · rw [Commit.onPayment_of_eq rfl rfl]
        exact hK.clock _ (List.mem_append_right _ List.mem_cons_self)
      · rw [op]
        rfl
      · intro newer t' pid n older heq
        have hmem : (t', present pid x n) ∈ (c.state.clock, ev) :: l₁ :=
          heq ▸ List.mem_append_right _ List.mem_cons_self
        rcases List.mem_cons.mp hmem with heq | hmem
        · obtain rfl : present pid x n = ev := (congrArg Prod.snd heq :)
          cases op
        · obtain rfl : pid = ev.pid := hK.asks l₁ t _ l₂ rfl h.flying _ hmem x rfl
          have hpresent : present ev.pid x n ∈ since :=
            hsince ▸ mem_own.mpr ⟨List.mem_map_of_mem hmem, rfl⟩
          exact absurd (hpauses _ hpresent) Bool.false_ne_true

include hK h in
theorem Watch.request : Watch D ⟨w, ev :: c.trace⟩ ((c.state.clock, ev) :: l) F where
  trace := congrArg (ev :: ·) hK.trace
  network := hK.network_request h
  single := hK.single_request h
  invoice := hK.invoice_request h
  handed := hK.handed_request h
  clock := hK.clock_request h
  read := hK.read_request h
  job := hK.job
  lone := hK.lone
  asks := hK.asks_request h
  informed pid hF := by
    by_cases hpid : ev.pid = pid
    · subst hpid
      exact hK.informed_own h hF
    · exact hK.informed_other h hpid hF
  since := hK.since_request h

end Request

/-! ## What holds in every run -/

theorem Watch.launch (hK : Watch D c l F) {pid : ℕ}
    (hcompatible : ∀ j' pid', F j' pid' → (grace scans D).compatible j' j = true)
    (hfresh : ∀ j', ¬ F j' pid) (hown : own pid c.trace = []) :
    Watch D c l fun j' pid' => F j' pid' ∨ j' = j ∧ pid' = pid := by
  have hnever : ∀ ev ∈ c.trace, ev.pid ≠ pid := fun ev hev hpid =>
    List.not_mem_nil (hown ▸ mem_own.mpr ⟨hev, hpid⟩)
  refine { hK with job := ?_, lone := ?_, asks := ?_, informed := ?_ }
  · rintro j₁ j₂ pid' (h₁ | ⟨rfl, rfl⟩) (h₂ | ⟨rfl, h₂⟩)
    · exact hK.job _ _ _ h₁ h₂
    · exact absurd h₁ (h₂ ▸ hfresh j₁)
    · exact absurd h₂ (hfresh j₂)
    · rfl
  · -- a second confirm pass is not started
    rintro pid₁ pid₂ (h₁ | ⟨hj, rfl⟩) (h₂ | ⟨hj, rfl⟩)
    · exact hK.lone _ _ h₁ h₂
    · subst hj
      exact absurd (hcompatible _ _ h₁) Bool.false_ne_true
    · subst hj
      exact absurd (hcompatible _ _ h₂) Bool.false_ne_true
    · rfl
  · rintro newer t ev older hl (hF | ⟨-, hpid⟩)
    · exact hK.asks newer t ev older hl hF
    · have hev : ev ∈ c.trace := hK.trace ▸ hl ▸
        List.mem_map_of_mem (List.mem_append_right _ List.mem_cons_self)
      exact absurd hpid (hnever ev hev)
  · rintro pid' (hF | ⟨-, rfl⟩)
    · exact hK.informed pid' hF
    · exact hown ▸ Informed.nil _

theorem Watch.env (hK : Watch D c l F) {act : Act Empty}
    (h : environment (networkAnswers D.network) c.state act = some w) :
    Watch D { c with state := w } l F := by
  obtain ⟨hrows, -⟩ := Ledger.environment_rows h
  have hclock : c.state.clock ≤ w.clock := by
    rcases environment_clock h with heq | htick
    · exact heq.ge
    · exact of_decide_eq_true htick
  have hp : ∀ p, p ∈ w.db.payments ↔ p ∈ c.state.db.payments := fun p => (hrows.payments p)
  refine { hK with
    network := fun p hp' => hK.network p ((hp p).1 hp')
    single := fun p hp' q hq => hK.single p ((hp p).1 hp') q ((hp q).1 hq)
    invoice := ?_
    clock := fun e he => (hK.clock e he).trans hclock
    informed := ?_
    since := fun p hp' => hK.since p ((hp p).1 hp') }
  · intro p hp'
    obtain ⟨i, hi, hid⟩ := hK.invoice p ((hp p).1 hp')
    exact ⟨i, (hrows.invoices i).2 hi, hid⟩
  · intro pid hF
    have hi := hK.informed pid hF
    exact ⟨hi.distinct, hi.active, fun q hq x hx hstand => (hp _).2 (hi.stored q hq x hx hstand)⟩

theorem watch_keeps (scans : Bool) (D : Setup) :
    Keeps (machine (networkAnswers D.network)) (grace scans D) Unused anything World.clock
      (Expected D.requiredConfirmations) (Watch D) where
  initial s hs := by
    have hnone : ∀ p, p ∉ s.db.payments := hs.2.1
    exact
      { trace := rfl
        network := fun p hp => absurd hp (hnone p)
        single := fun p hp => absurd hp (hnone p)
        invoice := fun p hp => absurd hp (hnone p)
        handed := fun _ hev => absurd hev List.not_mem_nil
        clock := fun _ he => absurd he List.not_mem_nil
        read := fun _ he => absurd he List.not_mem_nil
        job := fun _ _ _ hF => hF.elim
        lone := fun _ _ hF => hF.elim
        asks := fun _ _ _ _ _ hF => hF.elim
        informed := fun _ hF => hF.elim
        since := fun p hp => absurd hp (hnone p) }
  fewer c l F F' hK hsub :=
    { hK with
      job := fun _ _ _ h h' => hK.job _ _ _ (hsub _ _ h) (hsub _ _ h')
      lone := fun _ _ h h' => hK.lone _ _ (hsub _ _ h) (hsub _ _ h')
      asks := fun _ _ _ _ heq h => hK.asks _ _ _ _ heq (hsub _ _ h)
      informed := fun _ h => hK.informed _ (hsub _ _ h) }
  launch c l F j pid hK := hK.launch
  env c l F act state hK := hK.env
  request c l F j ev state hK _ h := hK.request h

theorem GraceRun.watch {s : EvmSystem} (h : GraceRun scans D s l) :
    Watch D s.config l s.flying := h.invariant (jobs_obey _ D) (watch_keeps scans D)

end CryptoPay.Worker
