import Mathlib.Data.List.Nodup
import Mathlib.Data.List.Perm.Basic
import Mathlib.Tactic.Common

/-!
# Tables with a primary key

A `Table key` is a list of rows in which no two rows have the same key; the
constraint is a field, so no operation can return a table that breaks it.
`insert?` refuses a key that is taken, `modify` rewrites the row with a given
key and keeps its key, `filter` is a query. The order of the rows has no
meaning: `reorder` replaces it by any other.

Each operation has one membership lemma (`mem_insert?`, `mem_modify`), and
`find?_eq_some_iff` reads a lookup as membership.
-/

namespace CryptoPay.Data

/-- Rows of type `ρ` with unique keys. -/
structure Table {κ ρ : Type} (key : ρ → κ) where
  rows : List ρ
  nodup : (rows.map key).Nodup

namespace Table

variable {κ ρ : Type} {key : ρ → κ}

instance : Membership ρ (Table key) := ⟨fun t r => r ∈ t.rows⟩

theorem mem_def {t : Table key} {r : ρ} : r ∈ t ↔ r ∈ t.rows := Iff.rfl

/-- A row is determined by its key. -/
theorem eq_of_key {t : Table key} {r r' : ρ} (h : r ∈ t) (h' : r' ∈ t) (hk : key r = key r') :
    r = r' :=
  List.inj_on_of_nodup_map t.nodup h h' hk

/-- The table without rows. -/
def empty : Table key := ⟨[], List.nodup_nil⟩

@[simp] theorem not_mem_empty (r : ρ) : r ∉ (empty : Table key) := List.not_mem_nil

/-- The rows that a query returns. -/
def filter (t : Table key) (p : ρ → Bool) : List ρ := t.rows.filter p

@[simp] theorem mem_filter {t : Table key} {p : ρ → Bool} {r : ρ} :
    r ∈ t.filter p ↔ r ∈ t ∧ p r = true := List.mem_filter

theorem nodup_filter (t : Table key) (p : ρ → Bool) : ((t.filter p).map key).Nodup :=
  (List.filter_sublist.map key).nodup t.nodup

/-- The same rows in another order. -/
def reorder (t : Table key) (rows : List ρ) (h : rows.Perm t.rows) : Table key :=
  ⟨rows, (h.map key).nodup_iff.mpr t.nodup⟩

@[simp] theorem mem_reorder {t : Table key} {rows : List ρ} {h : rows.Perm t.rows} {r : ρ} :
    r ∈ t.reorder rows h ↔ r ∈ t := h.mem_iff

/-- Rewrite the row with key `k`. -/
def modify [DecidableEq κ] (t : Table key) (k : κ) (f : ρ → ρ) (hf : ∀ r, key (f r) = key r) :
    Table key where
  rows := t.rows.map fun r => if key r = k then f r else r
  nodup := by
    have hkey : key ∘ (fun r => if key r = k then f r else r) = key := by
      funext r
      simp only [Function.comp_apply]
      split_ifs
      · exact hf r
      · rfl
    rw [List.map_map, hkey]
    exact t.nodup

theorem mem_modify [DecidableEq κ] {t : Table key} {k : κ} {f : ρ → ρ}
    {hf : ∀ r, key (f r) = key r} {r : ρ} :
    r ∈ t.modify k f hf ↔ ∃ r₀ ∈ t, r = if key r₀ = k then f r₀ else r₀ := by
  simp only [mem_def, modify, List.mem_map, eq_comm]

theorem mem_modify_of_mem [DecidableEq κ] {t : Table key} {k : κ} {f : ρ → ρ} {r : ρ} (hr : r ∈ t)
    (hf : ∀ r, key (f r) = key r) : (if key r = k then f r else r) ∈ t.modify k f hf := by
  rw [mem_modify]
  exact ⟨r, hr, rfl⟩

/-- Add a row whose key is not taken. -/
def insert? [DecidableEq κ] (t : Table key) (r : ρ) : Option (Table key) :=
  if h : key r ∈ t.rows.map key then none
  else some ⟨r :: t.rows, by rw [List.map_cons]; exact List.nodup_cons.mpr ⟨h, t.nodup⟩⟩

theorem insert?_eq_some [DecidableEq κ] {t t' : Table key} {r : ρ} (h : t.insert? r = some t') :
    (∀ x ∈ t, key x ≠ key r) ∧ ∀ x, x ∈ t' ↔ x = r ∨ x ∈ t := by
  unfold insert? at h
  split_ifs at h with hk
  refine ⟨fun x hx hxk => hk (hxk ▸ List.mem_map_of_mem hx), fun x => ?_⟩
  rw [← Option.some.inj h]
  exact List.mem_cons

/-- Look a key up. -/
def find? [DecidableEq κ] (t : Table key) (k : κ) : Option ρ := t.rows.find? fun r => key r = k

theorem find?_eq_some_iff [DecidableEq κ] {t : Table key} {k : κ} {r : ρ} :
    t.find? k = some r ↔ r ∈ t ∧ key r = k := by
  unfold find?
  constructor
  · intro h
    exact ⟨List.mem_of_find?_eq_some h, by simpa using List.find?_some h⟩
  · rintro ⟨hr, rfl⟩
    cases h : t.rows.find? fun x => key x = key r with
    | none =>
      have := List.find?_eq_none.mp h r hr
      simp at this
    | some x =>
      have hx : key x = key r := by simpa using List.find?_some h
      rw [eq_of_key (List.mem_of_find?_eq_some h) hr hx]

theorem find?_eq_none_iff [DecidableEq κ] {t : Table key} {k : κ} :
    t.find? k = none ↔ ∀ r ∈ t, key r ≠ k := by
  simp [find?, mem_def]

theorem find?_isSome_iff [DecidableEq κ] {t : Table key} {k : κ} :
    (t.find? k).isSome = true ↔ ∃ r ∈ t, key r = k := by
  simp [find?, mem_def]

end Table

end CryptoPay.Data
