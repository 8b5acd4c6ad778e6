import Mathlib.Data.List.Infix
import Mathlib.Data.Int.Notation
import Mathlib.Tactic.Common

/-!
# Events in a window of time

Times are listed newest first. `Spaced n d ts` says that once there are `n` of
them, each next one comes at least `d` later than the one before.

Results:
* `Spaced.window`: no half-open window of length `d` has more than `n` of them.
-/

namespace CryptoPay.Data

/-- From the `n`-th time on, each next one is at least `d` later. -/
def Spaced (n : ℕ) (d : ℤ) (ts : List ℤ) : Prop :=
  ∀ t t' rest, (t :: t' :: rest) <:+ ts → n ≤ (t' :: rest).length → t' + d ≤ t

/-- The times in the window that begins at `start`. -/
def inWindow (start d t : ℤ) : Bool := start ≤ t && t < start + d

variable {n : ℕ} {d : ℤ} {ts us : List ℤ}

theorem Spaced.nil : Spaced n d [] := fun _ _ _ h =>
  absurd (List.suffix_nil.mp h) (List.cons_ne_nil _ _)

theorem Spaced.of_suffix (h : Spaced n d ts) (hs : us <:+ ts) : Spaced n d us :=
  fun t t' rest hsuffix hn => h t t' rest (hsuffix.trans hs) hn

/-- One more time. -/
theorem Spaced.cons {t : ℤ} (h : Spaced n d ts)
    (ht : n ≤ ts.length → ∀ t' ∈ ts.head?, t' + d ≤ t) : Spaced n d (t :: ts) := by
  intro u u' rest hsuffix hn
  rcases List.suffix_cons_iff.mp hsuffix with heq | hsuffix
  · obtain ⟨rfl, rfl⟩ := List.cons.inj heq
    exact ht hn u' rfl
  · exact h u u' rest hsuffix hn

theorem Spaced.window (h : Spaced n d ts) (hsorted : ts.Pairwise (· ≥ ·)) (hn : 0 < n)
    (start : ℤ) : ts.countP (inWindow start d) ≤ n := by
  induction ts with
  | nil => exact Nat.zero_le n
  | cons t ts ih =>
    have hrest := ih (h.of_suffix (List.suffix_cons t ts)) hsorted.of_cons
    rw [List.countP_cons]
    split_ifs with ht
    · -- the newest is in the window: either there are few, or the next one is before it
      obtain ⟨hge, hlt⟩ : start ≤ t ∧ t < start + d := by simpa [inWindow] using ht
      cases ts with
      | nil => exact hn
      | cons t' rest =>
        by_cases hlen : n ≤ (t' :: rest).length
        · have hgap := h t t' rest (List.suffix_refl _) hlen
          have hnone : (t' :: rest).countP (inWindow start d) = 0 := by
            rw [List.countP_eq_zero]
            intro u hu
            have hle : u ≤ t' := by
              rcases List.mem_cons.mp hu with rfl | hu
              · exact Int.le_refl u
              · exact (List.pairwise_cons.mp hsorted.of_cons).1 u hu
            simp only [inWindow, Bool.and_eq_true, decide_eq_true_eq, not_and]
            omega
          omega
        · have hcount := List.countP_le_length (p := inWindow start d) (l := t' :: rest)
          omega
    · exact hrest

end CryptoPay.Data
