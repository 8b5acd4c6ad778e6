import CryptoPay.Database.Schema

/-!
# Counters that expire

What `INCR` and `EXPIRE` do in Redis: a counter is created by the first `INCR`
of its key, has no expiry until `EXPIRE` gives it one, and is gone at its
expiry. `INCR` keeps the expiry of the counter that it finds.

Results:
* `Redis.incr_fresh`: the reply 1 means that the counter is new.
* `Redis.Holds.incr`, `Redis.Holds.expire`: a counter that does not expire before some
  time keeps growing until then.
-/

namespace CryptoPay

/-- A stored counter; `INCR` never stores 0. -/
structure Counter where
  value : ℕ
  expiresAt : Option Time
  pos : 0 < value

/-- The counter exists at the time `now`. -/
def Counter.live (c : Counter) (now : Time) : Bool := c.expiresAt.all (now < ·)

/-- The counters by their keys. -/
abbrev Redis := String → Option Counter

namespace Redis

variable {r : Redis} {now until_ : Time} {key k : String} {m n : ℕ} {seconds : ℤ}

def set (r : Redis) (key : String) (c : Counter) : Redis := fun k => if k = key then some c else r k

/-- The counter of the key that exists at the time `now`. -/
def get (r : Redis) (now : Time) (key : String) : Option Counter := (r key).filter (·.live now)

/-- `INCR key`. -/
def incr (r : Redis) (now : Time) (key : String) : ℕ × Redis :=
  match r.get now key with
  | some c => (c.value + 1, r.set key ⟨c.value + 1, c.expiresAt, Nat.succ_pos _⟩)
  | none => (1, r.set key ⟨1, none, Nat.one_pos⟩)

/-- `EXPIRE key seconds`: whether the key exists. -/
def expire (r : Redis) (now : Time) (key : String) (seconds : ℤ) : Bool × Redis :=
  match r.get now key with
  | some c => (true, r.set key { c with expiresAt := some (now + seconds * 1000) })
  | none => (false, r)

@[simp] theorem set_self (c : Counter) : r.set key c key = some c := if_pos rfl

theorem set_of_ne (c : Counter) (h : k ≠ key) : r.set key c k = r k := if_neg h

theorem incr_pos : 1 ≤ (r.incr now key).1 := by
  unfold incr
  split
  · exact Nat.succ_pos _
  · exact Nat.le_refl 1

/-- The counter of the key is `n` or more and does not expire before `until_`. -/
def Holds (r : Redis) (key : String) (n : ℕ) (until_ : Time) : Prop :=
  ∃ c, r key = some c ∧ n ≤ c.value ∧ ∀ t ∈ c.expiresAt, until_ ≤ t

theorem Holds.le (h : r.Holds key n until_) (hm : m ≤ n) : r.Holds key m until_ := by
  obtain ⟨c, hc, hn, hexp⟩ := h
  exact ⟨c, hc, Nat.le_trans hm hn, hexp⟩

/-- Until then, the counter is found. -/
theorem Holds.get (h : r.Holds key n until_) (hnow : now < until_) :
    ∃ c, r.get now key = some c ∧ n ≤ c.value ∧ ∀ t ∈ c.expiresAt, until_ ≤ t := by
  obtain ⟨c, hc, hn, hexp⟩ := h
  refine ⟨c, Option.filter_eq_some_iff.mpr ⟨hc, ?_⟩, hn, hexp⟩
  show c.expiresAt.all (now < ·) = true
  cases he : c.expiresAt with
  | none => rfl
  | some t =>
    have ht : until_ ≤ t := hexp t he
    exact decide_eq_true (Int.lt_of_lt_of_le hnow ht)

/-- The reply 1 means that the counter is new. -/
theorem incr_fresh (h : (r.incr now key).1 = 1) : (r.incr now key).2.Holds key 1 until_ := by
  unfold incr at h ⊢
  split at h
  · rename_i c hc
    have hpos := c.pos
    have hone : c.value + 1 = 1 := h
    omega
  · exact ⟨_, set_self _, Nat.le_refl 1, nofun⟩

/-- `INCR` counts on. -/
theorem Holds.incr (h : r.Holds key n until_) (hnow : now < until_) :
    n < (r.incr now key).1 ∧ (r.incr now key).2.Holds key (r.incr now key).1 until_ := by
  obtain ⟨c, hget, hn, hexp⟩ := h.get hnow
  unfold Redis.incr
  rw [hget]
  exact ⟨Nat.lt_succ_of_le hn, _, set_self _, Nat.le_refl _, hexp⟩

theorem Holds.incr_of_ne (h : r.Holds key n until_) (hk : key ≠ k) :
    (r.incr now k).2.Holds key n until_ := by
  obtain ⟨c, hc, hrest⟩ := h
  unfold Redis.incr
  split
  · exact ⟨c, (set_of_ne _ hk).trans hc, hrest⟩
  · exact ⟨c, (set_of_ne _ hk).trans hc, hrest⟩

/-- `EXPIRE` of any key, with a time that is late enough. -/
theorem Holds.expire (h : r.Holds key n until_) (hnow : now < until_)
    (hlate : until_ ≤ now + seconds * 1000) : (r.expire now k seconds).2.Holds key n until_ := by
  unfold Redis.expire
  split
  · rename_i c hc
    by_cases hk : key = k
    · subst hk
      obtain ⟨c', hget, hn, -⟩ := h.get hnow
      obtain rfl : c' = c := Option.some.inj (hget.symm.trans hc)
      refine ⟨_, set_self _, hn, fun t ht => ?_⟩
      rw [← Option.some.inj ht]
      exact hlate
    · obtain ⟨c', hc', hrest⟩ := h
      exact ⟨c', (set_of_ne _ hk).trans hc', hrest⟩
  · exact h

end Redis

end CryptoPay
