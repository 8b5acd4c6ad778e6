import Mathlib.Data.Int.Init
import Mathlib.Data.List.Basic

/-!
# Reading an index range by range

An index gives, for each number, a list of entries. A scan reads the lists of a range of numbers
one after the other.

Results:
* `mem_scan`: what a scan reads.
* `scan_append`: adjacent ranges.
* `scan_eq_filter`: an index that splits a list by a key which does not decrease along it.
-/

namespace CryptoPay.Data

variable {α : Type} {index : ℤ → List α} {key : α → ℤ} {xs : List α} {p q r : α → Bool} {a b c : ℤ}

/-- The entries of the numbers from `a` to `b`. -/
def scan (index : ℤ → List α) (a b : ℤ) : List α :=
  (List.range (b - a + 1).toNat).flatMap fun k : ℕ => index (a + k)

theorem scan_of_lt (h : b < a) : scan index a b = [] := by
  unfold scan
  rw [Int.toNat_of_nonpos (by omega)]
  rfl

theorem scan_self (a : ℤ) : scan index a a = index a := by
  unfold scan
  rw [show (a - a + 1).toNat = 1 by omega, List.range_one, List.flatMap_singleton]
  exact congrArg index (Int.add_zero a)

theorem mem_scan {x : α} : x ∈ scan index a b ↔ ∃ n, a ≤ n ∧ n ≤ b ∧ x ∈ index n := by
  unfold scan
  simp only [List.mem_flatMap, List.mem_range]
  constructor
  · rintro ⟨k, hk, hx⟩
    exact ⟨a + k, by omega, by omega, hx⟩
  · rintro ⟨n, ha, hb, hx⟩
    refine ⟨(n - a).toNat, by omega, ?_⟩
    rwa [show a + ((n - a).toNat : ℤ) = n by omega]

/-- Two ranges that follow each other. -/
theorem scan_append (hab : a ≤ b + 1) (hbc : b ≤ c) :
    scan index a c = scan index a b ++ scan index (b + 1) c := by
  unfold scan
  rw [show (c - a + 1).toNat = (b - a + 1).toNat + (c - (b + 1) + 1).toNat by omega, List.range_add,
    List.flatMap_append, List.flatMap_map]
  congr 2
  funext k
  refine congrArg index ?_
  push_cast
  omega

/-- Entries that satisfy `p` come before those that satisfy `q`. -/
theorem filter_append_filter (hxs : xs.Pairwise fun x y => q x = true → p y = false)
    (hpq : ∀ x, p x = true → q x = false) (hr : ∀ x, r x = (p x || q x)) :
    xs.filter p ++ xs.filter q = xs.filter r := by
  induction xs with
  | nil => rfl
  | cons x xs ih =>
    obtain ⟨hx, hxs⟩ := List.pairwise_cons.mp hxs
    have ih := ih hxs
    by_cases hp : p x = true
    · rw [List.filter_cons_of_pos hp, List.filter_cons_of_neg (by rw [hpq x hp]; decide),
        List.filter_cons_of_pos (by rw [hr, hp, Bool.true_or]), List.cons_append, ih]
    · by_cases hq : q x = true
      · -- nothing satisfies `p` from here on
        have hnone : xs.filter p = [] := by
          refine List.filter_eq_nil_iff.mpr fun y hy => ?_
          rw [hx y hy hq]
          decide
        rw [hnone, List.nil_append] at ih
        rw [List.filter_cons_of_neg hp, hnone, List.nil_append, List.filter_cons_of_pos hq,
          List.filter_cons_of_pos (by rw [hr, hq, Bool.or_true]), ih]
      · have hrx : ¬ r x = true := by
          rw [hr, Bool.of_not_eq_true hp, Bool.of_not_eq_true hq]
          decide
        rw [List.filter_cons_of_neg hp, List.filter_cons_of_neg hq, List.filter_cons_of_neg hrx, ih]

/-- A range of a list in the order of its keys. -/
theorem scan_eq_filter (hindex : ∀ n, index n = xs.filter fun x => key x = n)
    (hxs : xs.Pairwise fun x y => key x ≤ key y) (a b : ℤ) :
    scan index a b = xs.filter fun x => a ≤ key x ∧ key x ≤ b := by
  by_cases hab : b < a
  · rw [scan_of_lt hab, eq_comm, List.filter_eq_nil_iff]
    intro x hx h
    obtain ⟨hlow, hhigh⟩ := of_decide_eq_true h
    omega
  · replace hab := Int.not_lt.mp hab
    induction b, hab using Int.leInduction with
    | base =>
      rw [scan_self, hindex]
      refine List.filter_congr fun x hx => decide_eq_decide.mpr ?_
      omega
    | succ b hab ih =>
      have hdisjoint : ∀ x, decide (a ≤ key x ∧ key x ≤ b) = true →
          decide (key x = b + 1) = false := by
        intro x hx
        obtain ⟨hlow, hhigh⟩ := of_decide_eq_true hx
        exact decide_eq_false (by omega)
      rw [scan_append (by omega : a ≤ b + 1) (by omega : b ≤ b + 1), scan_self, ih, hindex]
      refine filter_append_filter (hxs.imp fun {x y} hle heq => ?_) hdisjoint fun x => ?_
      · have hx := of_decide_eq_true heq
        exact decide_eq_false (by omega)
      · rw [← Bool.decide_or]
        exact decide_eq_decide.mpr (by omega)

end CryptoPay.Data
