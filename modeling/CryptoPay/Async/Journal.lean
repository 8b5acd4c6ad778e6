import CryptoPay.Async.Embedding
import CryptoPay.Async.Sequential

/-!
# Programs that record what they write

A program writes to some tables, and then records in a log that it did. Each request
takes effect on its own, so the program can end between the two: a request fails, the
reply to one is lost, or the process stops while it waits for one.

`Course M pid p s st x s'`: process `pid` takes `p` from the state `s` to `s'`, where `x` is
the outcome, or `none` if the process stops before `p` ends; `st` are the requests that
were made. The environment may act in between, as long as it leaves the tables alone.

Results:
* `Journal.together_iff`: the writes and the record commit together, and a program that
  throws leaves the tables as they were, exactly if nothing cuts it short between its
  first write and the reply to its record.
* `Journal.unbroken_of_ok`: a program that returns is not cut short.
* `Orderly.after_reads`, `Orderly.embed`, `Orderly.rethrow`: programs that record what they
  write.
* `Journal.lossy`: the same for a machine that may lose the reply to a request.
-/

namespace CryptoPay.Async

variable {S S' : Signature} {ε ε' σ ι η α β D : Type}

/-- Which requests write, which ones record it, and which replies are errors. -/
structure Kinds (S : Signature) where
  writes : S.Op → Bool
  records : S.Op → Bool
  failed : (op : S.Op) → S.Ret op → Bool

namespace Kinds

variable (K : Kinds S)

/-- A program that has written: it only throws when a request fails, and otherwise ends with the
    record. -/
def Owing : Prog S ε α → Prop
  | .ret _ => False
  | .throw _ => False
  | .await op k => ∀ r,
    if K.failed op r = true then ∃ e, k r = .throw e
    else if K.records op = true then ∃ a, k r = .ret a
    else Owing (k r)

/-- A program that records what it writes. -/
def Orderly : Prog S ε α → Prop
  | .ret _ => True
  | .throw _ => True
  | .await op k => K.records op = false ∧ ∀ r,
    if K.writes op = true then
      if K.failed op r = true then ∃ e, k r = .throw e else K.Owing (k r)
    else Orderly (k r)

/-- The request neither writes nor records. -/
def Reads (op : S.Op) : Prop := K.records op = false ∧ K.writes op = false

variable {K}

/-- A program that only reads, and one that records what it writes. -/
theorem Orderly.after_reads {p : Prog S ε α} {f : α → Prog S ε β} (hp : p.Only K.Reads)
    (hf : ∀ a, K.Orderly (f a)) : K.Orderly (p >>= f) := by
  induction p with
  | ret a => exact hf a
  | throw e => trivial
  | await op k ih =>
    obtain ⟨⟨hrecords, hwrites⟩, hk⟩ := hp
    refine ⟨hrecords, fun r => ?_⟩
    rw [if_neg (by rw [hwrites]; decide)]
    exact ih r (hk r)

theorem Orderly.of_reads {p : Prog S ε α} (hp : p.Only K.Reads) : K.Orderly p := by
  induction p with
  | ret a => trivial
  | throw e => trivial
  | await op k ih =>
    obtain ⟨⟨hrecords, hwrites⟩, hk⟩ := hp
    refine ⟨hrecords, fun r => ?_⟩
    rw [if_neg (by rw [hwrites]; decide)]
    exact ih r (hk r)

section Requests

variable {op : S.Op} {read : S.Ret op → Except ε β} {f : β → Prog S ε α}

theorem not_failed_of_ok (hread : ∀ r, K.failed op r = true ↔ ∃ e, read r = .error e)
    {r : S.Ret op} {b : β} (hr : read r = .ok b) : ¬ K.failed op r = true := by
  intro hfailed
  obtain ⟨e, he⟩ := (hread r).mp hfailed
  cases hr.symm.trans he

/-- A write after which the program owes a record. -/
theorem Orderly.write (hrecords : K.records op = false) (hwrites : K.writes op = true)
    (hread : ∀ r, K.failed op r = true ↔ ∃ e, read r = .error e) (hf : ∀ b, K.Owing (f b)) :
    K.Orderly (.request op read >>= f) := by
  refine ⟨hrecords, fun r => ?_⟩
  rw [if_pos hwrites]
  show if _ then ∃ e, (Prog.ofExcept (read r) >>= f) = _ else K.Owing (Prog.ofExcept (read r) >>= f)
  cases hr : read r with
  | error e =>
    rw [if_pos ((hread r).mpr ⟨e, hr⟩)]
    exact ⟨e, rfl⟩
  | ok b =>
    rw [if_neg (not_failed_of_ok hread hr)]
    exact hf b

/-- One more request before the record. -/
theorem Owing.request (hrecords : K.records op = false)
    (hread : ∀ r, K.failed op r = true ↔ ∃ e, read r = .error e) (hf : ∀ b, K.Owing (f b)) :
    K.Owing (.request op read >>= f) := by
  intro r
  show if _ then ∃ e, (Prog.ofExcept (read r) >>= f) = _ else if _ then _ else
    K.Owing (Prog.ofExcept (read r) >>= f)
  cases hr : read r with
  | error e =>
    rw [if_pos ((hread r).mpr ⟨e, hr⟩)]
    exact ⟨e, rfl⟩
  | ok b =>
    rw [if_neg (not_failed_of_ok hread hr), if_neg (by rw [hrecords]; decide)]
    exact hf b

/-- A request that cannot fail. -/
theorem Owing.perform {g : S.Ret op → Prog S ε α} (hrecords : K.records op = false)
    (hfailed : ∀ r, K.failed op r = false) (hg : ∀ r, K.Owing (g r)) :
    K.Owing (.perform op >>= g) := by
  intro r
  rw [if_neg (by rw [hfailed]; decide), if_neg (by rw [hrecords]; decide)]
  exact hg r

/-- The record, after which the program returns. -/
theorem Owing.record {a : β → α} (hrecords : K.records op = true)
    (hread : ∀ r, K.failed op r = true ↔ ∃ e, read r = .error e) :
    K.Owing (.request op read >>= fun b => .ret (a b)) := by
  intro r
  show if _ then ∃ e, (Prog.ofExcept (read r) >>= _) = _ else if _ then
    ∃ a', (Prog.ofExcept (read r) >>= _) = _ else _
  cases hr : read r with
  | error e =>
    rw [if_pos ((hread r).mpr ⟨e, hr⟩)]
    exact ⟨e, rfl⟩
  | ok b =>
    rw [if_neg (not_failed_of_ok hread hr), if_pos hrecords]
    exact ⟨a b, rfl⟩

end Requests

section Embedding

variable {K' : Kinds S'} {f : S.Hom S'}

/-- The embedded requests are of the same kinds. -/
structure Embeds (K : Kinds S) (K' : Kinds S') (f : S.Hom S') : Prop where
  writes : ∀ o, K'.writes (f.op o) = K.writes o
  records : ∀ o, K'.records (f.op o) = K.records o
  failed : ∀ o r, K'.failed (f.op o) r = K.failed o (f.ret o r)

theorem Owing.embed (hf : K.Embeds K' f) {p : Prog S ε α} (hp : K.Owing p) :
    K'.Owing (p.embed f) := by
  induction p with
  | ret a => exact hp
  | throw e => exact hp
  | await o k ih =>
    intro r
    have hr := hp (f.ret o r)
    rw [hf.failed, hf.records]
    split_ifs at hr ⊢ with hfailed hrecords
    · obtain ⟨e, he⟩ := hr
      exact ⟨e, congrArg (Prog.embed f) he⟩
    · obtain ⟨a, ha⟩ := hr
      exact ⟨a, congrArg (Prog.embed f) ha⟩
    · exact ih _ hr

theorem Orderly.embed (hf : K.Embeds K' f) {p : Prog S ε α} (hp : K.Orderly p) :
    K'.Orderly (p.embed f) := by
  induction p with
  | ret a => trivial
  | throw e => trivial
  | await o k ih =>
    refine ⟨(hf.records o).trans hp.1, fun r => ?_⟩
    have hr := hp.2 (f.ret o r)
    rw [hf.writes, hf.failed]
    split_ifs at hr ⊢ with hwrites hfailed
    · obtain ⟨e, he⟩ := hr
      exact ⟨e, congrArg (Prog.embed f) he⟩
    · exact hr.embed hf
    · exact ih _ hr

theorem Owing.rethrow {g : ε → ε'} {p : Prog S ε α} (hp : K.Owing p) : K.Owing (p.rethrow g) := by
  induction p with
  | ret a => exact hp
  | throw e => exact hp
  | await o k ih =>
    intro r
    have hr := hp r
    split_ifs at hr ⊢ with hfailed hrecords
    · obtain ⟨e, he⟩ := hr
      exact ⟨g e, congrArg (Prog.rethrow g) he⟩
    · obtain ⟨a, ha⟩ := hr
      exact ⟨a, congrArg (Prog.rethrow g) ha⟩
    · exact ih r hr

theorem Orderly.rethrow {g : ε → ε'} {p : Prog S ε α} (hp : K.Orderly p) :
    K.Orderly (p.rethrow g) := by
  induction p with
  | ret a => trivial
  | throw e => trivial
  | await o k ih =>
    refine ⟨hp.1, fun r => ?_⟩
    have hr := hp.2 r
    split_ifs at hr ⊢ with hwrites hfailed
    · obtain ⟨e, he⟩ := hr
      exact ⟨g e, congrArg (Prog.rethrow g) he⟩
    · exact hr.rethrow
    · exact ih r hr

end Embedding

end Kinds

/-- The tables that the requests write to, and which requests take effect. -/
structure Journal (M : Machine S σ ι η) (D : Type) extends Kinds S where
  data : σ → D
  commits : σ → S.Op → ι → Bool
  keeps : ∀ {pid s op i r s'}, M.respond pid s op i = some (r, s') →
    writes op = false ∨ commits s op i = false → data s' = data s
  answered : ∀ {pid s op i r s'}, M.respond pid s op i = some (r, s') → failed op r = false →
    writes op = true ∨ records op = true → commits s op i = true
  apart : ∀ {op}, records op = true → writes op = false

/-- A request that was made: the state before it, its input and its reply. -/
structure Done (S : Signature) (σ ι : Type) where
  before : σ
  op : S.Op
  input : ι
  reply : S.Ret op

variable {M : Machine S σ ι η}

/-- See the module text. -/
inductive Course (M : Machine S σ ι η) (data : σ → D) (pid : ℕ) :
    Prog S ε α → σ → List (Done S σ ι) → Option (Except ε α) → σ → Prop where
  | ret {a : α} {s : σ} : Course M data pid (.ret a) s [] (some (.ok a)) s
  | throw {e : ε} {s : σ} : Course M data pid (.throw e) s [] (some (.error e)) s
  | stop {op : S.Op} {k : S.Ret op → Prog S ε α} {s : σ} :
      Course M data pid (.await op k) s [] none s
  | await {op : S.Op} {k : S.Ret op → Prog S ε α} {s s₁ s' : σ} {r : S.Ret op}
      {st : List (Done S σ ι)} {x : Option (Except ε α)} (i : ι)
      (hr : M.respond pid s op i = some (r, s₁)) (h : Course M data pid (k r) s₁ st x s') :
      Course M data pid (.await op k) s (⟨s, op, i, r⟩ :: st) x s'
  | env {p : Prog S ε α} {s s₁ s' : σ} {st : List (Done S σ ι)} {x : Option (Except ε α)} (act : η)
      (hs : M.env s act = some s₁) (hdata : data s₁ = data s) (h : Course M data pid p s₁ st x s') :
      Course M data pid p s st x s'

/-- The course of `p` when its requests get the inputs of the list, and the process then stops. -/
def Prog.supplied (M : Machine S σ ι η) (pid : ℕ) :
    Prog S ε α → σ → List ι → Option (List (Done S σ ι) × Option (Except ε α) × σ)
  | .ret a, s, [] => some ([], some (.ok a), s)
  | .throw e, s, [] => some ([], some (.error e), s)
  | .await _ _, s, [] => some ([], none, s)
  | .await op k, s, i :: is =>
    (M.respond pid s op i).bind fun y => ((k y.1).supplied M pid y.2 is).map fun z =>
      (⟨s, op, i, y.1⟩ :: z.1, z.2)
  | .ret _, _, _ :: _ => none
  | .throw _, _, _ :: _ => none

theorem Course.of_supplied (data : σ → D) {pid : ℕ} {p : Prog S ε α} {s s' : σ} {is : List ι}
    {st : List (Done S σ ι)} {x : Option (Except ε α)}
    (h : p.supplied M pid s is = some (st, x, s')) : Course M data pid p s st x s' := by
  induction is generalizing p s st with
  | nil =>
    cases p with
    | ret a =>
      cases h
      exact .ret
    | throw e =>
      cases h
      exact .throw
    | await op k =>
      cases h
      exact .stop
  | cons i is ih =>
    cases p with
    | ret a => cases h
    | throw e => cases h
    | await op k =>
      obtain ⟨⟨r, s₁⟩, hr, hrest⟩ := Option.bind_eq_some_iff.mp h
      obtain ⟨⟨st₁, x₁, s₁'⟩, hz, heq⟩ := Option.map_eq_some_iff.mp hrest
      cases heq
      exact .await i hr (ih hz)

section Ended

variable {data : σ → D} {pid : ℕ} {s s' : σ} {st : List (Done S σ ι)} {x : Option (Except ε α)}

theorem Course.ret_inv {a : α} (h : Course M data pid (.ret a) s st x s') :
    st = [] ∧ x = some (.ok a) ∧ data s' = data s := by
  generalize hp : (Prog.ret a : Prog S ε α) = p at h
  induction h with
  | ret =>
    cases hp
    exact ⟨rfl, rfl, rfl⟩
  | throw => cases hp
  | stop => cases hp
  | await i hr h ih => cases hp
  | env act hs hdata h ih =>
    obtain ⟨hst, hx, hdata'⟩ := ih hp
    exact ⟨hst, hx, hdata'.trans hdata⟩

theorem Course.throw_inv {e : ε} (h : Course M data pid (.throw e) s st x s') :
    st = [] ∧ x = some (.error e) ∧ data s' = data s := by
  generalize hp : (Prog.throw e : Prog S ε α) = p at h
  induction h with
  | ret => cases hp
  | throw =>
    cases hp
    exact ⟨rfl, rfl, rfl⟩
  | stop => cases hp
  | await i hr h ih => cases hp
  | env act hs hdata h ih =>
    obtain ⟨hst, hx, hdata'⟩ := ih hp
    exact ⟨hst, hx, hdata'.trans hdata⟩

end Ended

namespace Journal

variable (J : Journal M D)

/-- The request was a write that took effect. -/
def Wrote (d : Done S σ ι) : Prop := J.writes d.op = true ∧ J.commits d.before d.op d.input = true

/-- The request was the record, and took effect. -/
def Recorded (d : Done S σ ι) : Prop :=
  J.records d.op = true ∧ J.commits d.before d.op d.input = true

/-- A write took effect if and only if the record did, and a program that throws leaves the tables
    as they were. -/
def Together (st : List (Done S σ ι)) (x : Option (Except ε α)) (s s' : σ) : Prop :=
  ((∃ d ∈ st, J.Wrote d) ↔ ∃ d ∈ st, J.Recorded d) ∧
    ∀ e, x = some (.error e) → J.data s' = J.data s

/-- Every request is answered up to the record, which takes effect. Its reply arrives, or the
    tables are still those of `base`. -/
def Settles (base : D) : List (Done S σ ι) → Prop
  | [] => False
  | d :: st =>
    if J.records d.op = true then J.commits d.before d.op d.input = true ∧
      (J.failed d.op d.reply = true → J.data d.before = base)
    else J.failed d.op d.reply = false ∧ Settles base st

/-- From the first write that takes effect on, nothing cuts the program short. -/
def Unbroken (base : D) : List (Done S σ ι) → Prop
  | [] => True
  | d :: st =>
    if J.writes d.op = true ∧ J.commits d.before d.op d.input = true then
      J.failed d.op d.reply = false ∧ J.Settles base st
    else Unbroken base st

end Journal

section Together

variable {J : Journal M D} {pid : ℕ} {s s' : σ} {st : List (Done S σ ι)}
  {x : Option (Except ε α)} {p : Prog S ε α}

theorem Journal.exists_cons {P : Done S σ ι → Prop} {d : Done S σ ι} (hd : ¬ P d) :
    (∃ d' ∈ d :: st, P d') ↔ ∃ d' ∈ st, P d' := by
  simp [hd]

/-- Once the program has written. -/
theorem Journal.settles_iff (hp : J.Owing p) (h : Course M J.data pid p s st x s') (base : D) :
    ((∃ d ∈ st, J.Recorded d) ∧ ∀ e, x = some (.error e) → J.data s' = base) ↔
      J.Settles base st := by
  induction h with
  | ret => exact absurd hp fun h => h
  | throw => exact absurd hp fun h => h
  | stop =>
    refine iff_of_false ?_ fun h => h
    rintro ⟨⟨d, hd, -⟩, -⟩
    exact absurd hd List.not_mem_nil
  | @env p s s₁ s' st x act hs hdata h ih => exact ih hp
  | @await op k s s₁ s' r st x i hr h ih =>
    have hr' := hp r
    by_cases hrecords : J.records op = true
    · have hkeeps : J.data s₁ = J.data s := J.keeps hr (.inl (J.apart hrecords))
      have hrest : st = [] ∧ (J.failed op r = false → ∃ a, x = some (.ok a)) ∧
          (J.failed op r = true → ∃ e, x = some (.error e)) ∧ J.data s' = J.data s := by
        by_cases hfailed : J.failed op r = true
        · rw [if_pos hfailed] at hr'
          obtain ⟨e, he⟩ := hr'
          rw [he] at h
          obtain ⟨hst, hx, hdata⟩ := h.throw_inv
          exact ⟨hst, fun hn => absurd (hn.symm.trans hfailed) Bool.false_ne_true, fun _ => ⟨e, hx⟩,
            hdata.trans hkeeps⟩
        · rw [if_neg hfailed, if_pos hrecords] at hr'
          obtain ⟨a, ha⟩ := hr'
          rw [ha] at h
          obtain ⟨hst, hx, hdata⟩ := h.ret_inv
          exact ⟨hst, fun _ => ⟨a, hx⟩, fun hn => absurd hn hfailed, hdata.trans hkeeps⟩
      obtain ⟨rfl, hok, herror, hdata⟩ := hrest
      show _ ↔ if J.records op = true then _ else _
      rw [if_pos hrecords]
      constructor
      · rintro ⟨⟨d, hd, hrecorded⟩, hthrown⟩
        obtain rfl := List.mem_singleton.mp hd
        refine ⟨hrecorded.2, fun hfailed => ?_⟩
        obtain ⟨e, he⟩ := herror hfailed
        exact hdata.symm.trans (hthrown e he)
      · rintro ⟨hcommits, hidle⟩
        refine ⟨⟨_, List.mem_singleton_self _, hrecords, hcommits⟩, fun e he => ?_⟩
        cases hfailed : J.failed op r with
        | true => exact hdata.trans (hidle hfailed)
        | false =>
          obtain ⟨a, ha⟩ := hok hfailed
          rw [ha] at he
          cases he
    · have hnot : ¬ J.Recorded ⟨s, op, i, r⟩ := fun hd => hrecords hd.1
      rw [Journal.exists_cons hnot]
      show _ ↔ if J.records op = true then _ else _
      rw [if_neg hrecords]
      by_cases hfailed : J.failed op r = true
      · -- the program throws before its record
        rw [if_pos hfailed] at hr'
        obtain ⟨e, he⟩ := hr'
        rw [he] at h
        obtain ⟨rfl, -, -⟩ := h.throw_inv
        refine iff_of_false ?_ fun hn => Bool.false_ne_true (hn.1.symm.trans hfailed)
        rintro ⟨⟨d, hd, -⟩, -⟩
        exact absurd hd List.not_mem_nil
      · rw [if_neg hfailed, if_neg hrecords] at hr'
        rw [ih hr']
        exact (and_iff_right (Bool.of_not_eq_true hfailed)).symm

/-- The writes and the record go together exactly if nothing cuts the program short. -/
theorem Journal.together_iff (hp : J.Orderly p) (h : Course M J.data pid p s st x s') :
    J.Together st x s s' ↔ J.Unbroken (J.data s) st := by
  induction h with
  | ret => exact iff_of_true ⟨by simp, nofun⟩ trivial
  | throw => exact iff_of_true ⟨by simp, fun _ _ => rfl⟩ trivial
  | stop => exact iff_of_true ⟨by simp, nofun⟩ trivial
  | @env p s s₁ s' st x act hs hdata h ih =>
    unfold Journal.Together
    rw [← hdata]
    exact ih hp
  | @await op k s s₁ s' r st x i hr h ih =>
    obtain ⟨hrecords, hp⟩ := hp
    have hr' := hp r
    have hnot : ¬ J.Recorded ⟨s, op, i, r⟩ := fun hd => absurd hd.1 (by rw [hrecords]; decide)
    unfold Journal.Together
    rw [Journal.exists_cons hnot]
    by_cases hwrites : J.writes op = true
    · rw [if_pos hwrites] at hr'
      by_cases hcommits : J.commits s op i = true
      · show _ ↔ if J.writes op = true ∧ J.commits s op i = true then _ else _
        rw [if_pos ⟨hwrites, hcommits⟩]
        have hwrote : ∃ d ∈ (⟨s, op, i, r⟩ : Done S σ ι) :: st, J.Wrote d :=
          ⟨_, List.mem_cons_self, hwrites, hcommits⟩
        by_cases hfailed : J.failed op r = true
        · rw [if_pos hfailed] at hr'
          obtain ⟨e, he⟩ := hr'
          rw [he] at h
          obtain ⟨rfl, -, -⟩ := h.throw_inv
          refine iff_of_false ?_ fun hn => Bool.false_ne_true (hn.1.symm.trans hfailed)
          rintro ⟨hboth, -⟩
          obtain ⟨d, hd, -⟩ := hboth.mp hwrote
          exact absurd hd List.not_mem_nil
        · rw [if_neg hfailed] at hr'
          show _ ↔ J.failed op r = false ∧ J.Settles (J.data s) st
          rw [← Journal.settles_iff hr' h, and_iff_right (Bool.of_not_eq_true hfailed)]
          exact and_congr_left fun _ => iff_true_left hwrote
      · -- a write that does not take effect has failed
        have hfailed : J.failed op r = true := by
          by_contra hne
          exact hcommits (J.answered hr (Bool.of_not_eq_true hne) (.inl hwrites))
        rw [if_pos hfailed] at hr'
        obtain ⟨e, he⟩ := hr'
        rw [he] at h
        obtain ⟨rfl, -, hdata⟩ := h.throw_inv
        have hkeeps : J.data s₁ = J.data s := J.keeps hr (.inr (Bool.of_not_eq_true hcommits))
        show _ ↔ if J.writes op = true ∧ J.commits s op i = true then _ else _
        rw [if_neg fun hn => hcommits hn.2,
          Journal.exists_cons (P := J.Wrote) fun hd => hcommits hd.2]
        exact iff_of_true ⟨by simp, fun _ _ => hdata.trans hkeeps⟩ trivial
    · rw [if_neg hwrites] at hr'
      have hkeeps : J.data s₁ = J.data s := J.keeps hr (.inl (Bool.of_not_eq_true hwrites))
      show _ ↔ if J.writes op = true ∧ J.commits s op i = true then _ else _
      rw [if_neg fun hn => hwrites hn.1, Journal.exists_cons (P := J.Wrote) fun hd => hwrites hd.1,
        ← hkeeps]
      exact ih hr'

/-- A program that has written and returns. -/
theorem Journal.settles_of_ok (hp : J.Owing p) (h : Course M J.data pid p s st x s') {a : α}
    (hx : x = some (.ok a)) (base : D) : J.Settles base st := by
  induction h with
  | ret => exact absurd hp fun h => h
  | throw => exact absurd hp fun h => h
  | stop => cases hx
  | env act hs hdata h ih => exact ih hp hx
  | @await op k s s₁ s' r st x i hr h ih =>
    have hr' := hp r
    have hfailed : ¬ J.failed op r = true := by
      intro hfailed
      rw [if_pos hfailed] at hr'
      obtain ⟨e, he⟩ := hr'
      rw [he] at h
      obtain ⟨-, hthrown, -⟩ := h.throw_inv
      cases hx.symm.trans hthrown
    rw [if_neg hfailed] at hr'
    show if J.records op = true then _ else _
    by_cases hrecords : J.records op = true
    · rw [if_pos hrecords]
      exact ⟨J.answered hr (Bool.of_not_eq_true hfailed) (.inr hrecords), fun h => absurd h hfailed⟩
    · rw [if_neg hrecords] at hr' ⊢
      exact ⟨Bool.of_not_eq_true hfailed, ih hr' hx⟩

/-- A program that returns has recorded what it has written. -/
theorem Journal.unbroken_of_ok (hp : J.Orderly p) (h : Course M J.data pid p s st x s') {a : α}
    (hx : x = some (.ok a)) (base : D) : J.Unbroken base st := by
  induction h with
  | ret => trivial
  | throw => trivial
  | stop => trivial
  | env act hs hdata h ih => exact ih hp hx
  | @await op k s s₁ s' r st x i hr h ih =>
    have hr' := hp.2 r
    show if J.writes op = true ∧ J.commits s op i = true then _ else _
    by_cases hwrites : J.writes op = true
    · have hfailed : ¬ J.failed op r = true := by
        intro hfailed
        rw [if_pos hwrites, if_pos hfailed] at hr'
        obtain ⟨e, he⟩ := hr'
        rw [he] at h
        obtain ⟨-, hthrown, -⟩ := h.throw_inv
        cases hx.symm.trans hthrown
      rw [if_pos hwrites, if_neg hfailed] at hr'
      have hcommits := J.answered hr (Bool.of_not_eq_true hfailed) (.inl hwrites)
      rw [if_pos ⟨hwrites, hcommits⟩]
      exact ⟨Bool.of_not_eq_true hfailed, Journal.settles_of_ok hr' h hx base⟩
    · rw [if_neg hwrites] at hr'
      rw [if_neg fun hn => hwrites hn.1]
      exact ih hr' hx

end Together

/-! ## Lost replies -/

/-- The machine, when the reply to a request may be lost on its way: the request takes effect, and
    the program sees the error that `lost` gives for it. -/
def Machine.lossy (M : Machine S σ ι η) (lost : (op : S.Op) → Option (S.Ret op)) :
    Machine S σ (ι × Bool) η where
  respond pid s op i :=
    if i.2 then (M.respond pid s op i.1).bind fun y => (lost op).map fun r => (r, y.2)
    else M.respond pid s op i.1
  env := M.env
  restarts := M.restarts

/-- An answer of the lossy machine is one of the machine, or stands for one that was lost. -/
theorem Machine.respond_lossy {lost : (op : S.Op) → Option (S.Ret op)} {pid : ℕ} {s s' : σ}
    {op : S.Op} {i : ι × Bool} {r : S.Ret op} (h : (M.lossy lost).respond pid s op i = some (r, s')) :
    ∃ r', M.respond pid s op i.1 = some (r', s') ∧ (r = r' ∨ lost op = some r) := by
  have h' : (if i.2 then (M.respond pid s op i.1).bind fun y => (lost op).map fun r => (r, y.2)
      else M.respond pid s op i.1) = some (r, s') := h
  split_ifs at h'
  · obtain ⟨⟨r', s₁⟩, hrespond, hmap⟩ := Option.bind_eq_some_iff.mp h'
    obtain ⟨r₁, hlost, heq⟩ := Option.map_eq_some_iff.mp hmap
    obtain ⟨rfl, rfl⟩ := Prod.mk.inj heq
    exact ⟨r', hrespond, .inr hlost⟩
  · exact ⟨r, h', .inl rfl⟩

/-- The requests are of the same kinds when replies are lost. -/
def Journal.lossy (J : Journal M D) (lost : (op : S.Op) → Option (S.Ret op))
    (hlost : ∀ {op r}, lost op = some r → J.failed op r = true) : Journal (M.lossy lost) D where
  toKinds := J.toKinds
  data := J.data
  commits s op i := J.commits s op i.1
  keeps h hop := by
    obtain ⟨r', hrespond, -⟩ := Machine.respond_lossy h
    exact J.keeps hrespond hop
  answered h hfailed hop := by
    obtain ⟨r', hrespond, rfl | hr⟩ := Machine.respond_lossy h
    · exact J.answered hrespond hfailed hop
    · exact absurd (hfailed.symm.trans (hlost hr)) Bool.false_ne_true
  apart := J.apart

end CryptoPay.Async
