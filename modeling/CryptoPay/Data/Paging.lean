import Mathlib.Data.List.Basic
import Mathlib.Order.Lattice
import Mathlib.Tactic.Common

/-!
# Pages of a sorted list

A list is sorted by a key, the greatest first, and read by offset and size. The
rows above a row are those with a greater key; when rows are only added, a row
moves down.

Results:
* `page_or_past`: a row that is not above the offset is on the page, or the page is
  full and the row lies behind it.
-/

namespace CryptoPay.Data

variable {ρ τ : Type}

/-- `take` rows after the first `skip`. -/
def page (rows : List ρ) (skip take : ℕ) : List ρ := (rows.drop skip).take take

section Above

variable [LinearOrder τ] (key : ρ → τ)

/-- How many rows lie above the rows with key `k`. -/
def above (k : τ) (rows : List ρ) : ℕ := rows.countP fun r => k < key r

variable {key} {rows : List ρ} {x : ρ}

/-- The only row with its key stands right behind the rows above it. -/
theorem exists_above (hsorted : rows.Pairwise fun a b => key b ≤ key a) (hx : x ∈ rows)
    (hunique : ∀ y ∈ rows, key y = key x → y = x) :
    ∃ l r, rows = l ++ x :: r ∧ above key (key x) rows = l.length := by
  obtain ⟨l, r, rfl, hl⟩ := List.eq_append_cons_of_mem hx
  refine ⟨l, r, rfl, ?_⟩
  have hsplit := List.pairwise_append.mp hsorted
  have hbefore : ∀ y ∈ l, decide (key x < key y) = true := by
    intro y hy
    have hle : key x ≤ key y := hsplit.2.2 y hy x List.mem_cons_self
    have hne : key x ≠ key y := by
      intro heq
      rw [hunique y (List.mem_append_left _ hy) heq.symm] at hy
      exact hl hy
    exact decide_eq_true (lt_of_le_of_ne hle hne)
  have hafter : ∀ y ∈ x :: r, ¬ decide (key x < key y) = true := by
    intro y hy
    have hle : key y ≤ key x := by
      rcases List.mem_cons.mp hy with rfl | hy
      · exact le_refl _
      · exact (List.pairwise_cons.mp hsplit.2.1).1 y hy
    simp only [decide_eq_true_eq]
    exact not_lt.mpr hle
  unfold above
  rw [List.countP_append, List.countP_eq_length.mpr hbefore, List.countP_eq_zero.mpr hafter]
  omega

/-- A row that is not above the offset is on the page, or lies behind a full page. -/
theorem page_or_past (hsorted : rows.Pairwise fun a b => key b ≤ key a) (hx : x ∈ rows)
    (hunique : ∀ y ∈ rows, key y = key x → y = x) {skip : ℕ}
    (hskip : skip ≤ above key (key x) rows) (take : ℕ) :
    x ∈ page rows skip take ∨
      skip + take ≤ above key (key x) rows ∧ (page rows skip take).length = take := by
  obtain ⟨l, r, rfl, hpos⟩ := exists_above hsorted hx hunique
  rw [hpos] at hskip ⊢
  unfold page
  rw [List.drop_append_of_le_length hskip]
  by_cases hpast : skip + take ≤ l.length
  · right
    refine ⟨hpast, ?_⟩
    rw [List.length_take, List.length_append, List.length_drop]
    omega
  · left
    rw [List.take_append]
    refine List.mem_append_right _ ?_
    obtain ⟨n, hn⟩ : ∃ n, take - (l.drop skip).length = n + 1 := by
      refine ⟨take - (l.drop skip).length - 1, ?_⟩
      rw [List.length_drop]
      omega
    rw [hn, List.take_succ_cons]
    exact List.mem_cons_self

end Above

end CryptoPay.Data
