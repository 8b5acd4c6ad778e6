import CryptoPay.Data.Table

/-!
# Parts of a table

`t.filter own` is the part of a table that belongs to someone. A lookup for a
row of that part, an insertion into it and an update in it depend on that part
only and change no other part, unless a key is shared with rows outside it.

Results:
* `find?_filter_of_imp`, `any_filter_of_imp`, `filter_filter_of_imp`: reads of
  the part.
* `filter_insert?`, `insert?_cases`: insertions.
* `filter_modify`, `filter_modify_of_not`: updates.
-/

namespace CryptoPay.Data

variable {κ ρ : Type}

/-- A search for a row of the part finds it there. -/
theorem find?_filter_of_imp {p own : ρ → Bool} (h : ∀ r, p r = true → own r = true) (l : List ρ) :
    l.find? p = (l.filter own).find? p := by
  rw [List.find?_filter]
  congr 1
  funext r
  by_cases hp : p r = true
  · simp [hp, h r hp]
  · simp [hp]

/-- Whether some row of the part satisfies a condition. -/
theorem any_filter_of_imp {p own : ρ → Bool} (h : ∀ r, p r = true → own r = true) (l : List ρ) :
    l.any p = (l.filter own).any p := by
  rw [List.any_filter]
  congr 1
  funext r
  by_cases hp : p r = true
  · simp [hp, h r hp]
  · simp [hp]

/-- A query for rows of the part returns rows of it. -/
theorem filter_filter_of_imp {p own : ρ → Bool} (h : ∀ r, p r = true → own r = true)
    (l : List ρ) : l.filter p = (l.filter own).filter p := by
  rw [List.filter_filter]
  congr 1
  funext r
  by_cases hp : p r = true
  · simp [hp, h r hp]
  · simp [hp]

namespace Table

variable [DecidableEq κ] {key : ρ → κ} {t u t' : Table key} {r : ρ} {own : ρ → Bool}

theorem rows_insert? (h : t.insert? r = some t') : t'.rows = r :: t.rows := by
  unfold insert? at h
  split_ifs at h
  rw [← Option.some.inj h]

omit [DecidableEq κ] in
/-- Two tables with the same part have the same rows in it. -/
theorem mem_of_filter_eq (h : u.filter own = t.filter own) (hr : r ∈ u) (hown : own r = true) :
    r ∈ t := by
  have hmem : r ∈ u.filter own := mem_filter.mpr ⟨hr, hown⟩
  rw [h] at hmem
  exact (mem_filter.mp hmem).1

/-- An insertion adds the row to the parts that it belongs to. -/
theorem filter_insert? (h : t.insert? r = some t') :
    t'.filter own = if own r then r :: t.filter own else t.filter own := by
  unfold filter
  rw [rows_insert? h, List.filter_cons]

theorem insert?_isSome : (t.insert? r).isSome = true ↔ ∀ x ∈ t, key x ≠ key r := by
  have hmem : key r ∈ t.rows.map key ↔ ∃ x ∈ t, key x = key r := List.mem_map
  unfold insert?
  by_cases hk : key r ∈ t.rows.map key
  · rw [dif_pos hk]
    obtain ⟨x, hx, hkey⟩ := hmem.mp hk
    exact ⟨nofun, fun h => absurd hkey (h x hx)⟩
  · rw [dif_neg hk]
    exact ⟨fun _ x hx hkey => hk (hmem.mpr ⟨x, hx, hkey⟩), fun _ => rfl⟩

/-- Two tables with the same part take a row into it both or neither, if only rows of the part
    have its key. -/
theorem insert?_cases (heq : t.filter own = u.filter own)
    (ht : ∀ x ∈ t, key x = key r → own x = true) (hu : ∀ x ∈ u, key x = key r → own x = true) :
    (∃ t' u', t.insert? r = some t' ∧ u.insert? r = some u') ∨
      (t.insert? r = none ∧ u.insert? r = none) := by
  have hto : ∀ {v w : Table key}, v.filter own = w.filter own →
      (∀ x ∈ w, key x = key r → own x = true) → (v.insert? r).isSome = true →
      (w.insert? r).isSome = true := by
    intro v w hvw hw hv
    refine insert?_isSome.mpr fun x hx hk => ?_
    have hxv : x ∈ v.filter own := hvw ▸ mem_filter.mpr ⟨hx, hw x hx hk⟩
    exact insert?_isSome.mp hv x (mem_filter.mp hxv).1 hk
  cases h : t.insert? r with
  | some t' =>
    obtain ⟨u', hu'⟩ := Option.isSome_iff_exists.mp (hto heq hu (by rw [h]; rfl))
    exact .inl ⟨t', u', rfl, hu'⟩
  | none =>
    refine .inr ⟨rfl, Option.not_isSome_iff_eq_none.mp fun hsome => ?_⟩
    have := hto heq.symm ht hsome
    rw [h] at this
    exact Bool.noConfusion this

/-- An update that keeps the owners of rows acts on each part by itself. -/
theorem filter_modify {k : κ} {f : ρ → ρ} (hf : ∀ r, key (f r) = key r)
    (hown : ∀ r, own (f r) = own r) :
    (t.modify k f hf).filter own = (t.filter own).map fun r => if key r = k then f r else r := by
  show (t.rows.map _).filter own = _
  rw [List.filter_map]
  congr 1
  refine List.filter_congr fun r _ => ?_
  show own (if key r = k then f r else r) = own r
  split_ifs
  · exact hown r
  · rfl

/-- A part without a row of the key is left as it is. -/
theorem filter_modify_of_not {k : κ} {f : ρ → ρ} (hf : ∀ r, key (f r) = key r)
    (hown : ∀ r, own (f r) = own r) (h : ∀ x ∈ t, key x = k → own x = false) :
    (t.modify k f hf).filter own = t.filter own := by
  rw [filter_modify hf hown]
  refine (List.map_congr_left fun r hr => ?_).trans (List.map_id _)
  obtain ⟨hr, ho⟩ := mem_filter.mp hr
  have hne : key r ≠ k := by
    intro hk
    rw [h r hr hk] at ho
    exact Bool.noConfusion ho
  exact if_neg hne

/-- A lookup of a key that only rows of the part have depends on that part. -/
theorem find?_agree {k : κ} (heq : t.filter own = u.filter own)
    (h : ∀ r, key r = k → own r = true) : t.find? k = u.find? k := by
  unfold find?
  have himp : ∀ r, decide (key r = k) = true → own r = true := fun r hr => h r (of_decide_eq_true hr)
  rw [find?_filter_of_imp himp t.rows, find?_filter_of_imp himp u.rows]
  exact congrArg _ heq

end Table

end CryptoPay.Data
