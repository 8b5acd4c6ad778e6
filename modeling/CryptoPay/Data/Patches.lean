import CryptoPay.Data.Table
import Mathlib.Data.List.Pairwise

/-!
# Changes of single rows

A `Patch` changes the row with one key, or no row at all, and keeps every key.
Patches are `Apart` if they do not change the same row.

Results:
* `Patch.Apart.comm`: patches that are apart commute.
* `after_perm`: so a list of them does the same in every order.
* `after_of_ne`, `after_of_only`: a row depends only on the patch that is about it.
-/

namespace CryptoPay.Data

variable {κ ρ : Type} {key : ρ → κ}

/-- A change of at most one row. -/
structure Patch {κ ρ : Type} (key : ρ → κ) where
  target : Option κ
  apply : ρ → ρ
  key_apply : ∀ r, key (apply r) = key r
  apply_of_ne : ∀ r, target ≠ some (key r) → apply r = r

/-- The patches change different rows. -/
def Patch.Apart (a b : Patch key) : Prop := ∀ k, a.target = some k → b.target ≠ some k

/-- Patches that are pairwise apart. -/
def AllApart (l : List (Patch key)) : Prop := l.Pairwise Patch.Apart

/-- A row after the patches, oldest first. -/
def after (l : List (Patch key)) (r : ρ) : ρ := l.foldl (fun r a => a.apply r) r

variable {a b : Patch key} {l l' : List (Patch key)} {r : ρ}

theorem Patch.Apart.symm (h : a.Apart b) : b.Apart a := fun k hb ha => h k ha hb

/-- Patches that are apart commute. -/
theorem Patch.Apart.comm (h : a.Apart b) (r : ρ) : b.apply (a.apply r) = a.apply (b.apply r) := by
  by_cases ha : a.target = some (key r)
  · have hb : b.target ≠ some (key r) := h _ ha
    rw [b.apply_of_ne r hb, b.apply_of_ne]
    rw [a.key_apply]
    exact hb
  · rw [a.apply_of_ne r ha, a.apply_of_ne]
    rw [b.key_apply]
    exact ha

instance : Std.Symm (@Patch.Apart κ ρ key) := ⟨fun _ _ h => h.symm⟩

/-- The order of patches that are apart does not matter. -/
theorem after_perm (h : AllApart l) (hperm : l.Perm l') (r : ρ) : after l r = after l' r := by
  refine hperm.foldl_eq' (fun a ha b hb r => ?_) r
  by_cases heq : a = b
  · rw [heq]
  · exact (List.Pairwise.forall h ha hb heq).comm r

theorem after_append (l l' : List (Patch key)) (r : ρ) : after (l ++ l') r = after l' (after l r) :=
  List.foldl_append

theorem key_after (l : List (Patch key)) (r : ρ) : key (after l r) = key r := by
  induction l generalizing r with
  | nil => rfl
  | cons a l ih =>
    show key (after l (a.apply r)) = key r
    rw [ih, a.key_apply]

/-- A row that no patch is about stays as it is. -/
theorem after_of_ne (h : ∀ a ∈ l, a.target ≠ some (key r)) : after l r = r := by
  induction l with
  | nil => rfl
  | cons a l ih =>
    show after l (a.apply r) = r
    rw [a.apply_of_ne r (h a List.mem_cons_self)]
    exact ih fun b hb => h b (List.mem_cons_of_mem a hb)

/-- The one patch that may be about a row decides it, if it is there. -/
theorem after_of_only (o : Option (Patch key)) (h : ∀ b ∈ l ++ l', b.target ≠ some (key r)) :
    after (l ++ o.toList ++ l') r = o.elim r fun a => a.apply r := by
  rw [after_append, after_append, after_of_ne fun b hb => h b (List.mem_append_left l' hb)]
  cases o with
  | none => exact after_of_ne fun b hb => h b (List.mem_append_right l hb)
  | some a =>
    show after l' (a.apply r) = a.apply r
    refine after_of_ne fun b hb => ?_
    rw [a.key_apply]
    exact h b (List.mem_append_right l hb)

end CryptoPay.Data
