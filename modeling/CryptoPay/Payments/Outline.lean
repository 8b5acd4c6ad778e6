import CryptoPay.Async.RelyGuarantee
import CryptoPay.Payments.Coupling

/-!
# Proof outlines for payment processing

A `Ledger` is a rely-guarantee protocol in which a step either leaves the
payment tables alone (`Passed`) or is one of the eight commits (`Committed`),
and `Can` says what a job must know about the stored rows when it commits. A
`Fact` is an assertion that a process keeps while it reads and while the other
jobs run.

Results:
* `Fact.dateNow`, `Fact.generateId`, `Fact.mark`, `Fact.read`, `Fact.commit`,
  `Fact.silentWrites`: one rule for each request of the services.
* `Lawful.sound`: the proof obligations of a ledger.
* `matchTransfer_valid`, `expireOverdue_valid`, `failAttempt_valid`,
  `settlePayment_valid`: the control flow of the shared functions, checked once
  for every ledger. What a particular ledger adds is what the rows that were
  read are known to be (`Seen`, `Due`) and why a commit is safe.
-/

namespace CryptoPay

open Async Data

variable {A : Signature} {ω ι η κ : Type}

/-- The world with the requests answered so far. -/
abbrev History (A : Signature) (ω : Type) := Config (effects A) (World ω)

/-- The event is the commit `m`. -/
def Records (ev : Event (effects A)) (m : Commit) : Prop :=
  (∃ d row, m = .create d ∧ ev = ⟨ev.pid, .prisma (.invoiceCreate d), .ok row⟩) ∨
    ev = ⟨ev.pid, .prisma (.transaction m.writes), .ok ()⟩

/-- What a request wrote: nothing, unless it was a write that succeeded. -/
def written : Event (effects A) → List Write
  | ⟨_, .prisma (.transaction ws), .ok _⟩ => ws
  | ⟨_, .prisma (.invoiceCreate d), .ok _⟩ => [.invoiceCreate d]
  | _ => []

/-- A write beside the tables of payment processing. -/
def Write.Aside : Write → Prop
  | .blockchainScanCursorUpdate .. => True
  | .merchantWalletAddressCreate _ => True
  | .auditLogCreate _ => True
  | _ => False

/-- The event wrote to no table of payment processing. -/
def Quiet (ev : Event (effects A)) : Prop := ∀ w ∈ written ev, w.Aside

theorem Records.written_eq {ev : Event (effects A)} {m : Commit} (h : Records ev m) :
    written ev = m.writes := by
  rcases h with ⟨d, row, rfl, h⟩ | h <;> rw [h] <;> rfl

/-- Every commit writes to some table of payment processing. -/
theorem Quiet.not_records {ev : Event (effects A)} (h : Quiet ev) (m : Commit) :
    ¬ Records ev m := by
  intro hrec
  unfold Quiet at h
  rw [hrec.written_eq] at h
  cases m with
  | create d => exact h (.invoiceCreate d) List.mem_cons_self
  | expire i eventId => exact h _ List.mem_cons_self
  | _ => exact h _ List.mem_cons_self

/-- An event that moves a payment to `CONFIRMING` is no other commit. -/
theorem Records.eq_confirm {ev : Event (effects A)} {m : Commit} {p : PaymentWithInvoice} {n : ℤ}
    (h : Records ev m) (hc : Records ev (.confirm p n)) : ∃ q k, m = .confirm q k := by
  rcases hc with ⟨d, row, hd, -⟩ | hc
  · cases hd
  rcases h with ⟨d, row, rfl, h⟩ | h
  · rw [h] at hc
    cases hc
  · have hw : m.writes = (Commit.confirm p n).writes := by
      have hop := congrArg Event.op (h.symm.trans hc)
      exact PrismaCall.transaction.inj (Op.prisma.inj hop)
    cases m with
    | confirm q k => exact ⟨q, k, rfl⟩
    | _ =>
      simp [Commit.writes, Commit.invoiceCreate, Commit.paymentUpdate, Commit.paymentCreate,
        Commit.invoiceUpdate, Commit.webhookEventCreate] at hw

/-- A commit is no mark. -/
theorem Records.op_ne_mark {ev : Event (effects A)} {m : Commit} (h : Records ev m) (k : Mark) :
    ev.op ≠ .mark k := by
  rcases h with ⟨d, row, -, h⟩ | h <;> rw [h] <;> exact nofun

theorem quiet_of_op {ev : Event (effects A)} (ht : ∀ ws, ev.op ≠ .prisma (.transaction ws))
    (hc : ∀ d, ev.op ≠ .prisma (.invoiceCreate d)) : Quiet ev := by
  intro w hw
  unfold written at hw
  split at hw
  · exact absurd rfl (ht _)
  · exact absurd rfl (hc _)
  · cases hw

theorem quiet_error (pid : ℕ) (ws : List Write) (e : Error) :
    Quiet (A := A) ⟨pid, .prisma (.transaction ws), .error e⟩ :=
  fun _ hw => absurd hw List.not_mem_nil

theorem quiet_writes {pid : ℕ} {ws : List Write} {r : Except Error Unit}
    (h : ∀ w ∈ ws, w.Aside) : Quiet (A := A) ⟨pid, .prisma (.transaction ws), r⟩ := by
  cases r with
  | ok u => exact h
  | error e => exact quiet_error pid ws e

/-- A request that leaves the payment tables alone. -/
structure Passed (ev : Event (effects A)) (c c' : History A ω) : Prop where
  quiet : Quiet ev
  trace : c'.trace = ev :: c.trace
  rows : c.state.db.SameRows c'.state.db

/-- A request that commits `m`. -/
structure Committed (ev : Event (effects A)) (m : Commit) (c c' : History A ω) : Prop where
  records : Records ev m
  trace : c'.trace = ev :: c.trace
  effect : m.Effect c.state.clock c.state.db c'.state.db
  other : c'.state.other = c.state.other

/-- A protocol about the payment tables; see the module text. `Side` is what a
    request of a process may do to the state beside the database. -/
structure Ledger (A : Signature) (ω ι η κ : Type) where
  backend : Backend A ω ι η
  work : Workload (effects A) Error κ
  start : World ω → Prop
  allowed : Condition (effects A) (World ω)
  Inv : History A ω → Prop
  Can : κ → ℕ → History A ω → Commit → Prop
  Side : ℕ → ω → ω → Prop
  Exc : κ → Error → Prop

namespace Ledger

variable (L : Ledger A ω ι η κ)

/-- What one request of a job does. -/
inductive Step (j : κ) (pid : ℕ) (c c' : History A ω) : Prop where
  | quiet (ev : Event (effects A)) (hpid : ev.pid = pid) (h : Passed ev c c')
      (hside : c'.state.other = c.state.other ∨ L.Side pid c.state.other c'.state.other)
  | commit (ev : Event (effects A)) (m : Commit) (hpid : ev.pid = pid) (h : Committed ev m c c')
      (hcan : L.Can j pid c m)

/-- The ledger as a protocol. -/
def protocol : Protocol (effects A) Error κ (World ω) (Input ι) (Act η) where
  machine := machine L.backend
  work := L.work
  start := L.start
  allowed := L.allowed
  Inv := L.Inv
  Guar := L.Step
  Exc j e _ := L.Exc j e

/-- What the environment may do to the state beside the database while a
    process awaits. -/
def Drift (o o' : ω) : Prop :=
  o' = o ∨ ∃ e, L.backend.restarts e = false ∧ L.backend.env o e = some o'

/-- The event is no mark of process `pid`. -/
def Unmarked (pid : ℕ) (ev : Event (effects A)) : Prop := ev.pid = pid → ∀ m, ev.op ≠ .mark m

/-- An assertion that survives the reads of process `pid`, though not its marks, and
    all that the others do. -/
structure Fact (j : κ) (pid : ℕ) (P : History A ω → Prop) : Prop where
  quiet : ∀ c c' ev, L.Inv c → P c → Passed ev c c' → Unmarked pid ev →
    (c'.state.other = c.state.other ∨
      ev.pid ≠ pid ∧ L.Side ev.pid c.state.other c'.state.other) → P c'
  env : ∀ c c', L.Inv c → P c → c'.trace = c.trace → c.state.db.SameRows c'.state.db →
    L.Drift c.state.other c'.state.other → P c'
  commit : ∀ c c' ev m j', L.Inv c → P c → Committed ev m c c' → ev.pid ≠ pid →
    L.work.compatible j j' = true → L.Can j' ev.pid c m → P c'

/-- What the proof about a ledger consists of, beside its jobs. -/
structure Lawful : Prop where
  initial : ∀ w, L.start w → L.Inv ⟨w, []⟩
  quiet : ∀ c c' ev, L.Inv c → Passed ev c c' →
    (c'.state.other = c.state.other ∨ L.Side ev.pid c.state.other c'.state.other) → L.Inv c'
  env : ∀ c c', L.Inv c → c'.trace = c.trace → c.state.db.SameRows c'.state.db →
    (c'.state.other = c.state.other ∨
      ∃ e, L.backend.env c.state.other e = some c'.state.other) → L.Inv c'
  commit : ∀ c c' ev m j, L.Inv c → Committed ev m c c' → L.Can j ev.pid c m → L.Inv c'

variable {L} {j : κ} {pid : ℕ} {P Q : History A ω → Prop}

/-! ## The environment -/

/-- What an act of the environment leaves alone. -/
theorem environment_rows {B : Backend A ω ι η} {w w' : World ω} {act : Act η}
    (h : environment B w act = some w') : w.db.SameRows w'.db ∧
      (w'.other = w.other ∨
        ∃ e, act = .other e ∧ B.env w.other e = some w'.other) := by
  cases act with
  | clock t =>
    simp only [environment] at h
    split_ifs at h
    cases h
    exact ⟨.refl _, .inl rfl⟩
  | reorderInvoices rows =>
    simp only [environment] at h
    split_ifs at h with hp
    cases h
    exact ⟨⟨fun _ => Table.mem_reorder (h := hp), fun _ => .rfl, fun _ => .rfl⟩, .inl rfl⟩
  | reorderPayments rows =>
    simp only [environment] at h
    split_ifs at h with hp
    cases h
    exact ⟨⟨fun _ => .rfl, fun _ => Table.mem_reorder (h := hp), fun _ => .rfl⟩, .inl rfl⟩
  | other e =>
    simp only [environment, Option.map_eq_some_iff] at h
    obtain ⟨o, ho, rfl⟩ := h
    exact ⟨.refl _, .inr ⟨e, rfl, ho⟩⟩

theorem Fact.stable (hP : L.Fact j pid P) : L.protocol.Stable j pid P := by
  rintro c c' hI hp (⟨j', pid', hne, hcompat, hstep⟩ | ⟨act, w, hr, hw, rfl⟩)
  · cases hstep with
    | quiet ev hpid h hside =>
      subst hpid
      exact hP.quiet c c' ev hI hp h (fun hpid => absurd hpid hne)
        (hside.imp_right fun hs => ⟨hne, hs⟩)
    | commit ev m hpid h hcan =>
      subst hpid
      exact hP.commit c c' ev m j' hI hp h hne hcompat hcan
  · obtain ⟨hrows, ho⟩ := environment_rows hw
    refine hP.env c _ hI hp rfl hrows (ho.imp_right ?_)
    rintro ⟨e, rfl, he⟩
    exact ⟨e, hr, he⟩

/-- The obligations of a ledger, with those of its jobs. -/
theorem Lawful.sound (h : L.Lawful)
    (hjob : ∀ j pid, ∃ P, L.Fact j pid P ∧
      (∀ c, L.Inv c → (∀ ev ∈ c.trace, ev.pid < pid) → P c) ∧
      L.protocol.Valid j pid P (L.work.launch j) (fun _ _ => True) (fun e _ => L.Exc j e)) :
    L.protocol.Sound where
  initial := h.initial
  env c act w hI hw := by
    obtain ⟨hrows, ho⟩ := environment_rows hw
    exact h.env c _ hI rfl hrows (ho.imp_right fun ⟨e, _, he⟩ => ⟨e, he⟩)
  step j pid c c' hI hstep := by
    cases hstep with
    | quiet ev hpid hp hside => subst hpid; exact h.quiet c c' ev hI hp hside
    | commit ev m hpid hc hcan => subst hpid; exact h.commit c c' ev m j hI hc hcan
  job j pid := by
    obtain ⟨P, hP, hstart, hv⟩ := hjob j pid
    exact ⟨P, hP.stable, hstart, hv⟩

/-- A move of a sound ledger changes the payment tables by a commit that its
    job is permitted, or not at all. -/
theorem step_commit (hK : L.protocol.Sound) {s s' : System (effects A) Error κ (World ω)}
    (h : L.protocol.Reaches s) {m : Move κ (Input ι) (Act η)} (hm : s.Meets L.allowed m)
    (hstep : s.step (machine L.backend) L.work m = some s') :
    s.config.state.db.SameRows s'.config.state.db ∨
      ∃ pid input j ev cm, m = .perform pid input ∧ ev.pid = pid ∧
        (∃ p ∈ s.procs, p.pid = pid ∧ p.job = j) ∧ Committed ev cm s.config s'.config ∧
        L.Can j pid s.config cm := by
  cases m with
  | start job =>
    obtain ⟨-, rfl⟩ := System.step_start hstep
    exact .inl (.refl _)
  | stop pid =>
    cases hstep
    exact .inl (.refl _)
  | env act =>
    obtain ⟨w, hw, rfl⟩ := System.step_env hstep
    exact .inl (environment_rows hw).1
  | perform pid input =>
    obtain ⟨j, hj, hG⟩ := hK.guar h hm hstep
    cases hG with
    | quiet ev _ hp _ => exact .inl hp.rows
    | commit ev cm hpid hc hcan => exact .inr ⟨pid, input, j, ev, cm, rfl, hpid, hj, hc, hcan⟩

/-- No run of a sound ledger removes an invoice or a payment, or changes its terms. -/
theorem leads_keeps (hK : L.protocol.Sound) {s s' : System (effects A) Error κ (World ω)}
    (h : L.protocol.Reaches s) (hl : Leads (machine L.backend) L.work L.allowed s s') :
    L.protocol.Reaches s' ∧
      (∀ i, HasInvoice i s.config.state.db → HasInvoice i s'.config.state.db) ∧
      ∀ p, HasPayment p s.config.state.db → HasPayment p s'.config.state.db := by
  refine hl.keeps (R := fun t => L.protocol.Reaches t ∧
    (∀ i, HasInvoice i s.config.state.db → HasInvoice i t.config.state.db) ∧
    ∀ p, HasPayment p s.config.state.db → HasPayment p t.config.state.db)
    ⟨h, fun _ hi => hi, fun _ hp => hp⟩ ?_
  rintro t u m ⟨ht, hinv, hpay⟩ hm hstep
  rcases step_commit hK ht hm hstep with hrows | ⟨_, _, _, _, _, _, _, _, hc, _⟩
  · exact ⟨.step m ht hm hstep, fun i hi => (hinv i hi).congr hrows,
      fun p hp => (hpay p hp).congr hrows⟩
  · exact ⟨.step m ht hm hstep, fun i hi => (hinv i hi).commit hc.effect,
      fun p hp => (hpay p hp).commit hc.effect⟩

theorem growing (L : Ledger A ω ι η κ) : L.protocol.Growing := by
  intro j pid c c' h
  cases h with
  | quiet ev _ h _ => rw [h.trace]; exact List.suffix_cons _ _
  | commit ev m _ h _ => rw [h.trace]; exact List.suffix_cons _ _

/-! ## Facts -/

/-- What has been answered stays answered. -/
theorem Fact.lasting {F : History A ω → Prop} (hF : Protocol.Lasting F) : L.Fact j pid F where
  quiet c c' ev _ h hp _ _ := hF c c' (by rw [hp.trace]; exact List.suffix_cons _ _) h
  env c c' _ h ht _ _ := hF c c' (ht ▸ List.suffix_refl _) h
  commit c c' ev m j' _ h hc _ _ _ := hF c c' (by rw [hc.trace]; exact List.suffix_cons _ _) h

/-- A fact about the rows of the payment tables. -/
theorem Fact.rows {R : Db → Prop} (hr : ∀ db db', Db.SameRows db db' → R db → R db')
    (hc : ∀ (c c' : History A ω) ev m j', L.Inv c → R c.state.db → Committed ev m c c' →
      ev.pid ≠ pid → L.work.compatible j j' = true → L.Can j' ev.pid c m → R c'.state.db) :
    L.Fact j pid fun c => R c.state.db where
  quiet _ _ _ _ h hp _ _ := hr _ _ hp.rows h
  env _ _ _ h _ hrows _ := hr _ _ hrows h
  commit := hc

theorem Fact.trivially : L.Fact j pid fun _ => True :=
  ⟨fun _ _ _ _ _ _ _ _ => trivial, fun _ _ _ _ _ _ _ => trivial,
    fun _ _ _ _ _ _ _ _ _ _ _ => trivial⟩

theorem Fact.and (hP : L.Fact j pid P) (hQ : L.Fact j pid Q) :
    L.Fact j pid fun c => P c ∧ Q c where
  quiet c c' ev hI h hp hu ho :=
    ⟨hP.quiet c c' ev hI h.1 hp hu ho, hQ.quiet c c' ev hI h.2 hp hu ho⟩
  env c c' hI h ht hr ho := ⟨hP.env c c' hI h.1 ht hr ho, hQ.env c c' hI h.2 ht hr ho⟩
  commit c c' ev m j' hI h hc hne hcompat hcan :=
    ⟨hP.commit c c' ev m j' hI h.1 hc hne hcompat hcan,
      hQ.commit c c' ev m j' hI h.2 hc hne hcompat hcan⟩

theorem Fact.forall {α : Sort*} {P : α → History A ω → Prop} (hP : ∀ a, L.Fact j pid (P a)) :
    L.Fact j pid fun c => ∀ a, P a c where
  quiet c c' ev hI h hp hu ho a := (hP a).quiet c c' ev hI (h a) hp hu ho
  env c c' hI h ht hr ho a := (hP a).env c c' hI (h a) ht hr ho
  commit c c' ev m j' hI h hc hne hcompat hcan a :=
    (hP a).commit c c' ev m j' hI (h a) hc hne hcompat hcan

theorem Fact.congr (hP : L.Fact j pid P) (h : ∀ c, P c ↔ Q c) : L.Fact j pid Q := by
  have hPQ : P = Q := funext fun c => propext (h c)
  exact hPQ ▸ hP

theorem Fact.hasInvoice (i : Invoice) : L.Fact j pid fun c => HasInvoice i c.state.db :=
  Fact.rows (fun _ _ hr h => h.congr hr) fun _ _ _ _ _ _ h hc _ _ _ => h.commit hc.effect

theorem Fact.hasPayment (p : Payment) : L.Fact j pid fun c => HasPayment p c.state.db :=
  Fact.rows (fun _ _ hr h => h.congr hr) fun _ _ _ _ _ _ h hc _ _ _ => h.commit hc.effect

/-- A fact about `c` under a condition that does not depend on it. -/
theorem Fact.imp {p : Prop} (hP : L.Fact j pid P) : L.Fact j pid fun c => p → P c :=
  Fact.forall fun _ => hP

theorem Fact.const {p : Prop} : L.Fact j pid fun _ => p :=
  ⟨fun _ _ _ _ h _ _ _ => h, fun _ _ _ h _ _ _ => h, fun _ _ _ _ _ _ h _ _ _ _ => h⟩

/-! ## Requests -/

/-- A request of the process itself that changes nothing. -/
theorem Fact.silent (hP : L.Fact j pid P) {c : History A ω} {op : Op A} {r : (effects A).Ret op}
    {w : World ω} (hI : L.Inv c) (hp : P c) (hq : Quiet ⟨pid, op, r⟩)
    (hrows : c.state.db.SameRows w.db) (ho : w.other = c.state.other) (hop : ∀ m, op ≠ .mark m) :
    L.Step j pid c (c.after pid op r w) ∧ P (c.after pid op r w) :=
  have h : Passed ⟨pid, op, r⟩ c (c.after pid op r w) := ⟨hq, rfl, hrows⟩
  ⟨.quiet _ rfl h (.inl ho), hP.quiet c _ _ hI hp h (fun _ => hop) (.inl ho)⟩

/-- A failed Prisma call leads from `P` to `E`. -/
def Escapes (L : Ledger A ω ι η κ) (P : History A ω → Prop) (E : Error → History A ω → Prop) :
    Prop := ∀ code c, L.Inv c → P c → E (.prisma code) c

variable {E : Error → History A ω → Prop}

theorem Fact.dateNow (hP : L.Fact j pid P) :
    L.protocol.Valid j pid P CryptoPay.dateNow (fun _ => P) E := by
  refine Protocol.Valid.perform (fun _ => hP.stable) fun c i r w hI hp _ hr => ?_
  obtain ⟨-, rfl⟩ := respond_now hr
  exact hP.silent hI hp (quiet_of_op (fun _ => nofun) fun _ => nofun) (.refl _) rfl fun _ => nofun

theorem Fact.generateId (hP : L.Fact j pid P) (stem : String) :
    L.protocol.Valid j pid P (CryptoPay.generateId stem) (fun _ => P) E := by
  refine Protocol.Valid.perform (fun _ => hP.stable) fun c i r w hI hp _ hr => ?_
  rw [respond_generateId hr]
  exact hP.silent hI hp (quiet_of_op (fun _ => nofun) fun _ => nofun) (.refl _) rfl fun _ => nofun

theorem Fact.generateFakeAddress (hP : L.Fact j pid P) :
    L.protocol.Valid j pid P CryptoPay.generateFakeAddress (fun _ => P) E := by
  refine Protocol.Valid.perform (fun _ => hP.stable) fun c i r w hI hp _ hr => ?_
  rw [respond_generateFakeAddress hr]
  exact hP.silent hI hp (quiet_of_op (fun _ => nofun) fun _ => nofun) (.refl _) rfl fun _ => nofun

theorem Fact.cuid (hP : L.Fact j pid P) :
    L.protocol.Valid j pid P CryptoPay.cuid (fun _ => P) E := by
  refine Protocol.Valid.perform (fun _ => hP.stable) fun c i r w hI hp _ hr => ?_
  rw [respond_cuid hr]
  exact hP.silent hI hp (quiet_of_op (fun _ => nofun) fun _ => nofun) (.refl _) rfl fun _ => nofun

/-- A mark may be what a fact is about. -/
theorem Fact.mark (hQ : L.Fact j pid Q) (m : Mark)
    (h : ∀ c, P c → Q (c.after pid (.mark m) () c.state)) :
    L.protocol.Valid j pid P (CryptoPay.mark m) (fun _ => Q) E := by
  refine Protocol.Valid.perform (fun _ => hQ.stable) fun c i r w hI hp _ hr => ?_
  rw [respond_mark hr]
  have hq : Quiet (⟨pid, .mark m, r⟩ : Event (effects A)) :=
    quiet_of_op (fun _ => nofun) fun _ => nofun
  exact ⟨.quiet _ rfl ⟨hq, rfl, .refl _⟩ (.inl rfl), h c hp⟩

/-- A request of `A` that only reads. Its answer enters the trace after everything
    that is known of the trace before. -/
theorem Fact.other (hP : L.Fact j pid P) (hB : L.backend.ReadOnly) (op : A.Op)
    {F : List (Event (effects A)) → Prop} (hF : ∀ c, P c → F c.trace) :
    L.protocol.Valid j pid P (.perform (S := effects A) (.other op))
      (fun r c => P c ∧ ∃ before, (⟨pid, .other op, r⟩ :: before) <:+ c.trace ∧ F before) E := by
  have hlast : ∀ r, Protocol.Lasting fun c : History A ω =>
      ∃ before, (⟨pid, .other op, r⟩ :: before) <:+ c.trace ∧ F before :=
    fun r c c' hs ⟨before, hb, hf⟩ => ⟨before, hb.trans hs, hf⟩
  refine Protocol.Valid.perform (fun r => (hP.and (.lasting (hlast r))).stable)
    fun c i r w hI hp _ hr => ?_
  obtain ⟨k, o, ho, rfl⟩ := respond_other hr
  rw [hB _ _ _ _ _ _ _ ho]
  have hq : Quiet (⟨pid, .other op, r⟩ : Event (effects A)) :=
    quiet_of_op (fun _ => nofun) fun _ => nofun
  have hs := hP.silent (w := { c.state with other := c.state.other }) hI hp hq (.refl _) rfl
    fun _ => nofun
  exact ⟨hs.1, hs.2, c.trace, List.suffix_refl _, hF c hp⟩

/-- A request of `A` that changes the state behind it. -/
theorem Fact.act {op : A.Op} {Q : A.Ret op → History A ω → Prop} (hQ : ∀ r, L.Fact j pid (Q r))
    (h : ∀ c k r o, L.Inv c → P c →
      L.backend.respond pid c.state.clock c.state.other op k = some (r, o) →
      (o = c.state.other ∨ L.Side pid c.state.other o) ∧
        Q r (c.after pid (.other op) r { c.state with other := o })) :
    L.protocol.Valid j pid P (.perform (S := effects A) (.other op)) Q E := by
  refine Protocol.Valid.perform (fun r => (hQ r).stable) fun c i r w hI hp _ hr => ?_
  obtain ⟨k, o, ho, rfl⟩ := respond_other hr
  obtain ⟨hside, hq⟩ := h c k r o hI hp ho
  have hquiet : Quiet (⟨pid, .other op, r⟩ : Event (effects A)) :=
    quiet_of_op (fun _ => nofun) fun _ => nofun
  exact ⟨.quiet _ rfl ⟨hquiet, rfl, .refl _⟩ hside, hq⟩

/-- A Prisma call that changes no row, with a fact `R` about its result. -/
theorem Fact.call (hP : L.Fact j pid P) (call : PrismaCall)
    (hrows : ∀ now db, Db.SameRows db (call.exec now db).2)
    (hquiet : ∀ r, Quiet (A := A) ⟨pid, .prisma call, r⟩) {R : call.Ret → History A ω → Prop}
    (hR : ∀ x, L.Fact j pid (R x))
    (hread : ∀ c now x, L.Inv c → P c → (call.exec now c.state.db).1 = .ok x → R x c)
    (hfail : ∀ c now e, L.Inv c → P c → (call.exec now c.state.db).1 = .error e →
      ∃ code, e = .prisma code)
    (hE : L.Escapes P E) :
    L.protocol.Valid j pid P (prisma call) (fun x c => P c ∧ R x c) E := by
  let S : Except Error call.Ret → History A ω → Prop := fun r c =>
    P c ∧ (∀ x, r = .ok x → R x c) ∧ ∀ e, r = .error e → ∃ code, e = .prisma code
  have hS : ∀ r, L.Fact j pid (S r) := fun r =>
    hP.and ((Fact.forall fun x => (hR x).imp).and Fact.const)
  refine Protocol.Valid.await S (fun r => (hS r).stable) (fun c i r w hI hp _ hr => ?_)
    fun r => Protocol.Valid.ofExcept ?_ ?_
  · rcases respond_prisma hr with ⟨rfl, rfl⟩ | ⟨rfl, rfl⟩
    · have hs : S (call.exec c.state.clock c.state.db).1 c :=
        ⟨hp, fun x hx => hread c _ x hI hp hx, fun e he => hfail c _ e hI hp he⟩
      exact (hS _).silent hI hs (hquiet _) (hrows _ _) rfl fun _ => nofun
    · have hs : S (.error (.prisma .connection)) c :=
        ⟨hp, nofun, fun e he => ⟨_, (Except.error.inj he).symm⟩⟩
      exact (hS _).silent hI hs (hquiet _) (.refl _) rfl fun _ => nofun
  · rintro x rfl c - ⟨hp, hx, -⟩
    exact ⟨hp, hx x rfl⟩
  · rintro e rfl c hI ⟨hp, -, he⟩
    obtain ⟨code, rfl⟩ := he e rfl
    exact hE code c hI hp

/-- A query that computes its result from the tables. -/
theorem Fact.read (hP : L.Fact j pid P) (call : PrismaCall) (f : Db → call.Ret)
    (hf : ∀ now db, call.exec now db = (.ok (f db), db))
    (hquiet : ∀ r, Quiet (A := A) ⟨pid, .prisma call, r⟩) {R : call.Ret → History A ω → Prop}
    (hR : ∀ x, L.Fact j pid (R x)) (hread : ∀ c, L.Inv c → P c → R (f c.state.db) c)
    (hE : L.Escapes P E) :
    L.protocol.Valid j pid P (prisma call) (fun x c => P c ∧ R x c) E := by
  refine hP.call call (fun now db => by rw [hf]; exact .refl _) hquiet hR ?_ ?_ hE
  · intro c now x hI hp hx
    rw [hf] at hx
    cases hx
    exact hread c hI hp
  · intro c now e _ _ he
    rw [hf] at he
    cases he

/-- A query whose result is not relied on. -/
theorem Fact.lookup (hP : L.Fact j pid P) (call : PrismaCall) (f : Db → call.Ret)
    (hf : ∀ now db, call.exec now db = (.ok (f db), db))
    (hquiet : ∀ r, Quiet (A := A) ⟨pid, .prisma call, r⟩) (hE : L.Escapes P E) :
    L.protocol.Valid j pid P (prisma call) (fun _ => P) E :=
  (hP.read call f hf hquiet (fun _ => Fact.trivially) (fun _ _ _ => trivial) hE).post
    (fun _ _ _ h => h.1) fun _ _ _ h => h

/-- `invoice.findMany`: `Seen` is known of a returned row. -/
theorem Fact.invoiceFindMany (hP : L.Fact j pid P) (w : InvoiceWhere)
    {Seen : Invoice → History A ω → Prop} (hSeen : ∀ i, L.Fact j pid (Seen i))
    (hread : ∀ c i, L.Inv c → P c → i ∈ c.state.db.invoices → w.holds i = true → Seen i c)
    (hE : L.Escapes P E) :
    L.protocol.Valid j pid P (prisma (.invoiceFindMany w) : Action A (List Invoice))
      (fun (is : List Invoice) c => P c ∧ (is.map Invoice.id).Nodup ∧ ∀ i ∈ is, Seen i c) E := by
  refine hP.read (.invoiceFindMany w) (fun db => db.invoices.filter w.holds) (fun _ _ => rfl)
    (fun r => quiet_of_op (fun _ => nofun) fun _ => nofun)
    (R := fun (is : List Invoice) c => (is.map Invoice.id).Nodup ∧ ∀ i ∈ is, Seen i c)
    (fun is => Fact.const.and (Fact.forall fun i => (hSeen i).imp)) (fun c hI hp => ?_) hE
  refine ⟨c.state.db.invoices.nodup_filter _, fun i hi => ?_⟩
  obtain ⟨hi, hw⟩ := Table.mem_filter.mp hi
  exact hread c i hI hp hi hw

/-- `payment.findMany`: `F` is known of a returned payment. -/
theorem Fact.paymentFindMany (hP : L.Fact j pid P) (status : List PaymentStatus)
    {F : PaymentWithInvoice → History A ω → Prop} (hF : ∀ p, L.Fact j pid (F p))
    (hread : ∀ c (p : PaymentWithInvoice), L.Inv c → P c → p.toPayment ∈ c.state.db.payments →
      p.status ∈ status → p.invoice ∈ c.state.db.invoices → p.invoice.id = p.invoiceId → F p c)
    (hE : L.Escapes P E) :
    L.protocol.Valid j pid P
      (prisma (.paymentFindMany status) : Action A (List PaymentWithInvoice))
      (fun (ps : List PaymentWithInvoice) c =>
        P c ∧ (ps.map fun p => p.id).Nodup ∧ ∀ p ∈ ps, F p c) E := by
  refine hP.read (.paymentFindMany status) (fun db => db.paymentsWithInvoice status)
    (fun _ _ => rfl) (fun r => quiet_of_op (fun _ => nofun) fun _ => nofun)
    (R := fun (ps : List PaymentWithInvoice) c =>
      (ps.map fun p => p.id).Nodup ∧ ∀ p ∈ ps, F p c)
    (fun ps => Fact.const.and (Fact.forall fun p => (hF p).imp)) (fun c hI hp => ?_) hE
  refine ⟨c.state.db.nodup_paymentsWithInvoice status, fun p hp' => ?_⟩
  obtain ⟨h, hs, hi, hid⟩ := mem_paymentsWithInvoice.mp hp'
  exact hread c p hI hp h hs hi hid

/-- A transaction that is one of the commits. -/
theorem Fact.transaction (hP : L.Fact j pid P) (hQ : L.Fact j pid Q) (m : Commit)
    (hcommit : ∀ c c' ev, L.Inv c → P c → ev.pid = pid →
      L.allowed c pid (.prisma (.transaction m.writes)) → Committed ev m c c' →
      L.Can j pid c m ∧ Q c')
    (hE : L.Escapes P E) :
    L.protocol.Valid j pid P (CryptoPay.transaction m.writes) (fun _ => Q) E := by
  let S : Except Error Unit → History A ω → Prop := fun r c =>
    (r = .ok () → Q c) ∧ ∀ e, r = .error e → P c ∧ ∃ code, e = .prisma code
  have hS : ∀ r, L.Fact j pid (S r) := fun r =>
    hQ.imp.and (Fact.forall fun e => (hP.and Fact.const).imp)
  refine Protocol.Valid.await S (fun r => (hS r).stable) (fun c i r w hI hp ha hr => ?_)
    fun r => Protocol.Valid.ofExcept ?_ ?_
  · rcases respond_transaction hr with ⟨db, hdb, rfl, rfl⟩ | ⟨⟨code, rfl⟩, rfl⟩
    · have h : Committed ⟨pid, .prisma (.transaction m.writes), .ok ()⟩ m c
          (c.after pid (.prisma (.transaction m.writes)) (.ok ()) { c.state with db := db }) :=
        ⟨.inr rfl, rfl, Commit.effect hdb, rfl⟩
      obtain ⟨hcan, hq⟩ := hcommit c _ _ hI hp rfl ha h
      exact ⟨.commit _ m rfl h hcan, fun _ => hq, fun e he => nomatch he⟩
    · have hs := hP.silent (w := c.state) hI hp
        (quiet_error pid m.writes (.prisma code)) (.refl _) rfl fun _ => nofun
      exact ⟨hs.1, nofun, fun e he => ⟨hs.2, _, (Except.error.inj he).symm⟩⟩
  · rintro ⟨⟩ rfl c - ⟨hq, -⟩
    exact hq rfl
  · rintro e rfl c hI ⟨-, he⟩
    obtain ⟨hp, code, rfl⟩ := he e rfl
    exact hE code c hI hp

/-- `invoice.create`. -/
theorem Fact.invoiceCreate (hP : L.Fact j pid P) (hQ : L.Fact j pid Q) (d : InvoiceCreateInput)
    (hcommit : ∀ c c' ev, L.Inv c → P c → ev.pid = pid →
      L.allowed c pid (.prisma (.invoiceCreate d)) → Committed ev (.create d) c c' →
      L.Can j pid c (.create d) ∧ Q c')
    (hE : L.Escapes P E) :
    L.protocol.Valid j pid P (prisma (.invoiceCreate d)) (fun _ => Q) E := by
  let S : Except Error Invoice → History A ω → Prop := fun r c =>
    (∀ i, r = .ok i → Q c) ∧ ∀ e, r = .error e → P c ∧ ∃ code, e = .prisma code
  have hS : ∀ r, L.Fact j pid (S r) := fun r =>
    (Fact.forall fun i => hQ.imp).and (Fact.forall fun e => (hP.and Fact.const).imp)
  refine Protocol.Valid.await S (fun r => (hS r).stable) (fun c i r w hI hp ha hr => ?_)
    fun r => Protocol.Valid.ofExcept ?_ ?_
  · rcases respond_invoiceCreate hr with ⟨db, hdb, rfl, rfl⟩ | ⟨⟨code, rfl⟩, rfl⟩
    · have h : Committed ⟨pid, .prisma (.invoiceCreate d), .ok (d.row c.state.clock)⟩ (.create d) c
          (c.after pid (.prisma (.invoiceCreate d)) (.ok (d.row c.state.clock))
            { c.state with db := db }) :=
        ⟨.inl ⟨d, _, rfl, rfl⟩, rfl, Commit.effect hdb, rfl⟩
      obtain ⟨hcan, hq⟩ := hcommit c _ _ hI hp rfl ha h
      refine ⟨.commit _ (.create d) rfl h hcan, ⟨fun _ _ => hq, fun _ he => ?_⟩⟩
      cases he
    · have hq : Quiet (A := A) ⟨pid, .prisma (.invoiceCreate d), .error (.prisma code)⟩ :=
        fun _ hw => absurd hw List.not_mem_nil
      have hs := hP.silent (w := c.state) hI hp hq (.refl _) rfl fun _ => nofun
      refine ⟨hs.1, ⟨fun _ hi => ?_, fun e he => ⟨hs.2, _, (Except.error.inj he).symm⟩⟩⟩
      cases hi
  · rintro i rfl c - ⟨hq, -⟩
    exact hq i rfl
  · rintro e rfl c hI ⟨-, he⟩
    obtain ⟨hp, code, rfl⟩ := he e rfl
    exact hE code c hI hp

/-- A transaction on other tables. -/
theorem Fact.silentWrites (hP : L.Fact j pid P) {ws : List Write}
    (hws : ∀ w ∈ ws, w.Aside)
    (hrows : ∀ now db db', Db.transaction now db ws = .ok db' → Db.SameRows db db')
    (hE : L.Escapes P E) :
    L.protocol.Valid j pid P (CryptoPay.transaction ws) (fun _ => P) E := by
  refine (hP.call (.transaction ws) (R := fun _ _ => True) (fun now db => ?_) (fun r => quiet_writes hws)
    (fun _ => Fact.trivially) (fun _ _ _ _ _ _ => trivial) ?_ hE).post (fun _ _ _ h => h.1)
    fun _ _ _ h => h
  · simp only [PrismaCall.exec]
    split
    · rename_i db' h; exact hrows now db db' h
    · exact .refl _
  · intro c now e _ _ he
    simp only [PrismaCall.exec] at he
    split at he
    · cases he
    · rename_i e' h; cases he; exact transaction_error h

end Ledger

end CryptoPay
