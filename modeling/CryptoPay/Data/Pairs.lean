import Mathlib.Data.List.Basic

/-!
# Decoding in pairs

A text is decoded two characters at a time, and decoding stops at the first pair that is
incomplete or has a character without a value; what follows is ignored.

Results:
* `pairs_eq_iff`: two texts have the same values exactly if they consist of whole pairs with the
  same values and of rests that do not start with a pair.
-/

namespace CryptoPay.Data

variable {α β : Type} (digit : α → Option β)

/-- The values up to the first pair that has none. -/
def pairs : List α → List (β × β)
  | h :: l :: rest =>
    match digit h, digit l with
    | some a, some b => (a, b) :: pairs rest
    | _, _ => []
  | _ => []

/-- The text starts with a pair that has values. -/
def StartsPair (cs : List α) : Prop :=
  ∃ h l rest, cs = h :: l :: rest ∧ (digit h).isSome = true ∧ (digit l).isSome = true

/-- The text consists of pairs that have values. -/
inductive WholePairs : List α → Prop where
  | nil : WholePairs []
  | cons {h l : α} {rest : List α} (hh : (digit h).isSome = true) (hl : (digit l).isSome = true)
      (hrest : WholePairs rest) : WholePairs (h :: l :: rest)

section Pairs

variable {digit} {cs ds xs ys : List α}

theorem pairs_cons {h l : α} {a b : β} (ha : digit h = some a) (hb : digit l = some b)
    (rest : List α) : pairs digit (h :: l :: rest) = (a, b) :: pairs digit rest := by
  rw [pairs, ha, hb]

theorem pairs_of_not_startsPair (hcs : ¬ StartsPair digit cs) : pairs digit cs = [] := by
  unfold pairs
  split
  · rename_i h l rest
    split
    · rename_i a b ha hb
      exact absurd ⟨h, l, rest, rfl, by rw [ha]; rfl, by rw [hb]; rfl⟩ hcs
    · rfl
  · rfl

theorem WholePairs.pairs_append (hcs : WholePairs digit cs) (xs : List α) :
    pairs digit (cs ++ xs) = pairs digit cs ++ pairs digit xs := by
  induction hcs with
  | nil => rfl
  | @cons h l rest hh hl hrest ih =>
    obtain ⟨a, ha⟩ := Option.isSome_iff_exists.mp hh
    obtain ⟨b, hb⟩ := Option.isSome_iff_exists.mp hl
    rw [pairs_cons ha hb]
    show pairs digit (h :: l :: (rest ++ xs)) = _
    rw [pairs_cons ha hb, ih]
    rfl

/-- Every text is made of whole pairs and a rest. -/
theorem exists_wholePairs (cs : List α) :
    ∃ ps xs, cs = ps ++ xs ∧ WholePairs digit ps ∧ ¬ StartsPair digit xs := by
  by_cases hstarts : StartsPair digit cs
  · obtain ⟨h, l, rest, rfl, hh, hl⟩ := hstarts
    obtain ⟨ps, xs, rfl, hps, hxs⟩ := exists_wholePairs rest
    exact ⟨h :: l :: ps, xs, rfl, .cons hh hl hps, hxs⟩
  · exact ⟨[], cs, rfl, .nil, hstarts⟩
termination_by cs.length

/-- Whole pairs are determined by their values. -/
theorem WholePairs.map_eq (hcs : WholePairs digit cs) (hds : WholePairs digit ds)
    (h : pairs digit cs = pairs digit ds) : cs.map digit = ds.map digit := by
  induction hcs generalizing ds with
  | nil =>
    cases hds with
    | nil => rfl
    | cons hh hl hrest =>
      obtain ⟨a, ha⟩ := Option.isSome_iff_exists.mp hh
      obtain ⟨b, hb⟩ := Option.isSome_iff_exists.mp hl
      rw [pairs_cons ha hb] at h
      cases h
  | cons hh hl hrest ih =>
    obtain ⟨a, ha⟩ := Option.isSome_iff_exists.mp hh
    obtain ⟨b, hb⟩ := Option.isSome_iff_exists.mp hl
    rw [pairs_cons ha hb] at h
    cases hds with
    | nil => cases h
    | cons hh' hl' hrest' =>
      obtain ⟨a', ha'⟩ := Option.isSome_iff_exists.mp hh'
      obtain ⟨b', hb'⟩ := Option.isSome_iff_exists.mp hl'
      rw [pairs_cons ha' hb'] at h
      obtain ⟨hhead, htail⟩ := List.cons.inj h
      obtain ⟨rfl, rfl⟩ := Prod.mk.inj hhead
      simp only [List.map_cons, ha, hb, ha', hb', ih hrest' htail]

/-- Whole pairs that agree in their values decode alike. -/
theorem WholePairs.pairs_eq (hcs : WholePairs digit cs) (h : cs.map digit = ds.map digit) :
    WholePairs digit ds ∧ pairs digit cs = pairs digit ds := by
  induction hcs generalizing ds with
  | nil =>
    obtain rfl := List.map_eq_nil_iff.mp h.symm
    exact ⟨.nil, rfl⟩
  | @cons c₁ c₂ rest hh hl hrest ih =>
    obtain ⟨d₁, ds₁, rfl, h₁, htail⟩ := List.map_eq_cons_iff.mp h.symm
    obtain ⟨d₂, ds₂, rfl, h₂, hrest'⟩ := List.map_eq_cons_iff.mp htail
    obtain ⟨hwhole, hpairs⟩ := ih hrest'.symm
    obtain ⟨a, ha⟩ := Option.isSome_iff_exists.mp hh
    obtain ⟨b, hb⟩ := Option.isSome_iff_exists.mp hl
    refine ⟨.cons (by rw [h₁]; exact hh) (by rw [h₂]; exact hl) hwhole, ?_⟩
    rw [pairs_cons ha hb, pairs_cons (h₁.trans ha) (h₂.trans hb), hpairs]

/-- Two texts that decode alike: what follows the whole pairs does not matter. -/
theorem pairs_eq_iff : pairs digit cs = pairs digit ds ↔
    ∃ ps qs xs ys, cs = ps ++ xs ∧ ds = qs ++ ys ∧ WholePairs digit ps ∧
      ps.map digit = qs.map digit ∧ ¬ StartsPair digit xs ∧ ¬ StartsPair digit ys := by
  constructor
  · intro h
    have hsplit : ∀ es : List α, ∃ ps xs, es = ps ++ xs ∧ WholePairs digit ps ∧
        ¬ StartsPair digit xs := exists_wholePairs
    obtain ⟨ps, xs, rfl, hps, hxs⟩ := hsplit cs
    obtain ⟨qs, ys, rfl, hqs, hys⟩ := hsplit ds
    rw [hps.pairs_append, hqs.pairs_append, pairs_of_not_startsPair hxs,
      pairs_of_not_startsPair hys, List.append_nil, List.append_nil] at h
    exact ⟨ps, qs, xs, ys, rfl, rfl, hps, hps.map_eq hqs h, hxs, hys⟩
  · rintro ⟨ps, qs, xs, ys, rfl, rfl, hps, hmap, hxs, hys⟩
    obtain ⟨hqs, hpairs⟩ := hps.pairs_eq hmap
    rw [hps.pairs_append, hqs.pairs_append, hpairs, pairs_of_not_startsPair hxs,
      pairs_of_not_startsPair hys]

/-- Texts that decode alike agree in their spelling `norm` exactly if their pairs and the ignored
    rests do. -/
theorem pairs_norm_iff {γ : Type} {norm : α → γ} :
    (pairs digit cs = pairs digit ds → cs.map norm = ds.map norm) ↔
      ¬ ∃ ps qs xs ys, cs = ps ++ xs ∧ ds = qs ++ ys ∧ WholePairs digit ps ∧
        ps.map digit = qs.map digit ∧ ¬ StartsPair digit xs ∧ ¬ StartsPair digit ys ∧
        (¬ ps.map norm = qs.map norm ∨ ¬ xs.map norm = ys.map norm) := by
  constructor
  · rintro h ⟨ps, qs, xs, ys, rfl, rfl, hps, hdigits, hxs, hys, hne⟩
    have hmap := h (pairs_eq_iff.mpr ⟨ps, qs, xs, ys, rfl, rfl, hps, hdigits, hxs, hys⟩)
    have hlength : ps.length = qs.length := by
      have := congrArg List.length hdigits
      rwa [List.length_map, List.length_map] at this
    rw [List.map_append, List.map_append] at hmap
    obtain ⟨hpairs, hrests⟩ := List.append_inj hmap (by rw [List.length_map, List.length_map, hlength])
    exact hne.elim (· hpairs) (· hrests)
  · intro h hpairs
    obtain ⟨ps, qs, xs, ys, rfl, rfl, hps, hdigits, hxs, hys⟩ := pairs_eq_iff.mp hpairs
    by_contra hne
    refine h ⟨ps, qs, xs, ys, rfl, rfl, hps, hdigits, hxs, hys, ?_⟩
    by_contra hsame
    push Not at hsame
    rw [List.map_append, List.map_append, hsame.1, hsame.2] at hne
    exact hne rfl

end Pairs

end CryptoPay.Data
