import Mathlib.Data.List.Sort
import Mathlib.Data.List.Nodup
import Mathlib.Logic.Function.Iterate

/-!
# A backlog that is served in batches

Each round looks at the first `n` entries of a list. Those that are live are
served and leave the list; the others stay where they are.

Results:
* `gone_iff`: a live entry leaves the backlog exactly if fewer than `n` entries
  that are not live stand before it.
* `filter_insertionSort`: a stable sort keeps the order of what a filter keeps.
-/

namespace CryptoPay.Data

variable {α : Type} {n : ℕ} {live : α → Bool} {l a b : List α} {e : α}

/-- One round. -/
def serve (n : ℕ) (live : α → Bool) (l : List α) : List α :=
  (l.take n).filter (fun x => !live x) ++ l.drop n

/-- How many entries before `e` are never served. -/
def deadBefore [DecidableEq α] (live : α → Bool) (e : α) (l : List α) : ℕ :=
  (l.takeWhile fun x => x ≠ e).countP fun x => !live x

theorem serve_sublist (l : List α) : (serve n live l).Sublist l := by
  have h := (List.filter_sublist (p := fun x => !live x) (l := l.take n)).append_right (l.drop n)
  rwa [List.take_append_drop] at h

/-- A round does not look past the first `n` entries. -/
theorem serve_append (h : n ≤ a.length) : serve n live (a ++ b) = serve n live a ++ b := by
  unfold serve
  rw [List.take_append_of_le_length h, List.drop_append_of_le_length h, List.append_assoc]

/-- The entries that are not live stay. -/
theorem countP_serve (l : List α) :
    (serve n live l).countP (fun x => !live x) = l.countP fun x => !live x := by
  have h : l.countP (fun x => !live x) =
      (l.take n).countP (fun x => !live x) + (l.drop n).countP fun x => !live x := by
    rw [← List.countP_append, List.take_append_drop]
  rw [serve, List.countP_append, h, List.countP_filter]
  simp

theorem length_serve_lt (h : ∃ x ∈ l.take n, live x = true) :
    (serve n live l).length < l.length := by
  obtain ⟨x, hx, hlive⟩ := h
  have hfilter : ((l.take n).filter fun x => !live x).length < (l.take n).length := by
    refine List.length_filter_lt_length_iff_exists.mpr ⟨x, hx, ?_⟩
    simp [hlive]
  have hl : l.length = (l.take n).length + (l.drop n).length := by
    rw [← List.length_append, List.take_append_drop]
  rw [serve, List.length_append]
  omega

/-- Among `n` entries of which fewer than `n` are not live, one is live. -/
theorem exists_live (hlen : n ≤ a.length) (h : (a.countP fun x => !live x) < n) :
    ∃ x ∈ a.take n, live x = true := by
  by_contra hnone
  have hall : (a.take n).countP (fun x => !live x) = (a.take n).length := by
    refine List.countP_eq_length.mpr fun x hx => ?_
    rw [Bool.not_eq_true']
    exact Bool.eq_false_iff.mpr fun hlive => hnone ⟨x, hx, hlive⟩
  have hle : (a.take n).countP (fun x => !live x) ≤ a.countP fun x => !live x :=
    (List.take_sublist n a).countP_le
  rw [hall, List.length_take, Nat.min_eq_left hlen] at hle
  omega

/-- An entry within the first `n` is served. -/
theorem not_mem_serve (hnodup : (a ++ e :: b).Nodup) (hlive : live e = true)
    (hlen : a.length < n) : e ∉ serve n live (a ++ e :: b) := by
  obtain ⟨k, rfl⟩ := Nat.exists_eq_add_of_lt hlen
  have hsplit : (a ++ e :: b).drop (a.length + k + 1) = b.drop k := by
    rw [Nat.add_assoc, List.drop_append, List.drop_eq_nil_of_le (by omega)]
    simp
  intro hmem
  rcases List.mem_append.mp hmem with hmem | hmem
  · have hdead := (List.mem_filter.mp hmem).2
    rw [hlive] at hdead
    cases hdead
  · rw [hsplit] at hmem
    have hb : e ∉ b := (List.nodup_cons.mp (List.nodup_append.mp hnodup).2.1).1
    exact hb (List.mem_of_mem_drop hmem)

theorem iterate_serve_sublist (k : ℕ) (l : List α) : ((serve n live)^[k] l).Sublist l := by
  induction k generalizing l with
  | zero => exact .refl l
  | succ k ih => exact (ih (serve n live l)).trans (serve_sublist l)

/-- A live entry with fewer than `n` dead ones before it is served in time. -/
theorem not_mem_iterate (k : ℕ) (hnodup : (a ++ e :: b).Nodup) (hlive : live e = true)
    (hdead : (a.countP fun x => !live x) < n) (hk : a.length < k) :
    e ∉ (serve n live)^[k] (a ++ e :: b) := by
  induction k generalizing a with
  | zero => omega
  | succ k ih =>
    rw [Function.iterate_succ_apply]
    by_cases hlen : a.length < n
    · exact fun hmem => not_mem_serve hnodup hlive hlen ((iterate_serve_sublist k _).subset hmem)
    · have hlen : n ≤ a.length := Nat.le_of_not_lt hlen
      have hshort := length_serve_lt (exists_live hlen hdead)
      rw [serve_append hlen]
      refine ih ?_ (by rw [countP_serve]; exact hdead) (by omega)
      rw [← serve_append hlen]
      exact (serve_sublist _).nodup hnodup

/-- An entry with `n` dead ones before it is never looked at. -/
theorem mem_iterate (k : ℕ) (hdead : n ≤ a.countP fun x => !live x) :
    e ∈ (serve n live)^[k] (a ++ e :: b) := by
  induction k generalizing a with
  | zero => exact List.mem_append_right a List.mem_cons_self
  | succ k ih =>
    rw [Function.iterate_succ_apply, serve_append (hdead.trans List.countP_le_length)]
    exact ih (by rw [countP_serve]; exact hdead)

/-- Within as many rounds as there are entries, a live entry leaves exactly if fewer than `n` dead
    ones stand before it. -/
theorem gone_iff [DecidableEq α] (k : ℕ) (hnodup : l.Nodup) (he : e ∈ l) (hlive : live e = true)
    (hk : l.length ≤ k) : e ∉ (serve n live)^[k] l ↔ deadBefore live e l < n := by
  obtain ⟨a, b, rfl, hea⟩ := List.eq_append_cons_of_mem he
  have hbefore : deadBefore live e (a ++ e :: b) = a.countP fun x => !live x := by
    rw [deadBefore, List.takeWhile_append_of_pos fun x hx => ?_]
    · simp
    · exact decide_eq_true fun hxe => hea (hxe ▸ hx)
  rw [hbefore]
  constructor
  · intro hgone
    by_contra hge
    exact hgone (mem_iterate k (Nat.le_of_not_lt hge))
  · intro hdead
    refine not_mem_iterate k hnodup hlive hdead ?_
    rw [List.length_append, List.length_cons] at hk
    omega

/-- A round as a filter, where no entry occurs twice. -/
theorem serve_eq_filter [DecidableEq α] (hnodup : l.Nodup) :
    serve n live l = l.filter fun x => !(live x && decide (x ∈ l.take n)) := by
  have hsplit : l.filter (fun x => !(live x && decide (x ∈ l.take n))) =
      (l.take n).filter (fun x => !(live x && decide (x ∈ l.take n))) ++
        (l.drop n).filter fun x => !(live x && decide (x ∈ l.take n)) := by
    rw [← List.filter_append, List.take_append_drop]
  rw [hsplit, serve]
  congr 1
  · refine List.filter_congr fun x hx => ?_
    rw [decide_eq_true hx, Bool.and_true]
  · refine (List.filter_eq_self.mpr fun x hx => ?_).symm
    have hx' : x ∉ l.take n := fun hmem => by
      rw [← List.take_append_drop n l] at hnodup
      exact (List.nodup_append.mp hnodup).2.2 x hmem x hx rfl
    rw [decide_eq_false hx', Bool.and_false]
    rfl

/-! ## Stable sorting -/

section Sorting

variable {r : α → α → Prop} [DecidableRel r] [IsTrans α r]

theorem filter_orderedInsert (p : α → Bool) (x : α) (hl : l.Pairwise r) :
    (l.orderedInsert r x).filter p =
      if p x then (l.filter p).orderedInsert r x else l.filter p := by
  induction l with
  | nil => simp [List.filter_cons]
  | cons y l ih =>
    obtain ⟨hy, hl⟩ := List.pairwise_cons.mp hl
    by_cases hxy : r x y
    · rw [List.orderedInsert_cons_of_le r l hxy, List.filter_cons]
      split_ifs with hx
      · -- `x` comes before all that is kept
        cases hfilter : (y :: l).filter p with
        | nil => rfl
        | cons z zs =>
          have hz : z ∈ y :: l := (List.mem_filter.mp (hfilter ▸ List.mem_cons_self)).1
          have hxz : r x z := by
            rcases List.mem_cons.mp hz with rfl | hz
            · exact hxy
            · exact IsTrans.trans x y z hxy (hy z hz)
          rw [List.orderedInsert_cons_of_le r zs hxz]
      · rfl
    · rw [List.orderedInsert_of_not_le r l hxy, List.filter_cons, ih hl, List.filter_cons]
      split_ifs with hpy hpx
      · rw [List.orderedInsert_of_not_le r _ hxy]
      · rfl
      · rfl
      · rfl

/-- Sorting and filtering commute. -/
theorem filter_insertionSort [Std.Total r] (p : α → Bool) (l : List α) :
    (l.insertionSort r).filter p = (l.filter p).insertionSort r := by
  induction l with
  | nil => rfl
  | cons x l ih =>
    rw [List.insertionSort_cons, filter_orderedInsert p x (List.pairwise_insertionSort r l), ih,
      List.filter_cons]
    split_ifs <;> rfl

end Sorting

end CryptoPay.Data
