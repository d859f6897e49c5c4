import Mathlib.Tactic.Common
import ReviewMentor.Files.Tree

/-!
# What stands where

What stands at a place after something was put into a tree, and after a part of a tree was taken
away.
-/

namespace ReviewMentor.FileTree

variable {t u : FileTree} {place other : Place} {e : Entry}

@[simp] theorem lookup?_nil (t : FileTree) : t.lookup? [] = some .directory := rfl

theorem lookup?_of_ne_nil (h : place ≠ []) : t.lookup? place = t.entries.lookup place :=
  if_neg h

theorem ne_nil_of_lookup?_ne_directory (h : t.lookup? place ≠ some .directory) : place ≠ [] := by
  rintro rfl
  exact h rfl

/-! ### Lists of entries -/

section Pairs

variable {κ α : Type} [BEq κ] [LawfulBEq κ] {key : κ} {a : α} {pairs others : List (κ × α)}

/-- Where every key stands once, what is found under a key is what stands beside it. -/
theorem lookup_eq_some_iff_mem (h : (pairs.map Prod.fst).Nodup) :
    pairs.lookup key = some a ↔ (key, a) ∈ pairs := by
  rw [List.lookup_eq_some_iff]
  constructor
  · rintro ⟨before, after, rfl, -⟩
    exact List.mem_append_right _ List.mem_cons_self
  · intro hmem
    obtain ⟨before, after, rfl⟩ := List.append_of_mem hmem
    refine ⟨before, after, rfl, fun x hx => ?_⟩
    rw [List.map_append, List.map_cons, List.nodup_append] at h
    simpa using (h.2.2 x.1 (List.mem_map_of_mem hx) key List.mem_cons_self).symm

/-- The order of pairs is of no account for what is found. -/
theorem lookup_perm (hperm : others.Perm pairs) (h : (pairs.map Prod.fst).Nodup) (key : κ) :
    others.lookup key = pairs.lookup key := by
  have hothers : (others.map Prod.fst).Nodup := (hperm.map Prod.fst).nodup_iff.mpr h
  refine Option.ext fun a => ?_
  rw [lookup_eq_some_iff_mem hothers, lookup_eq_some_iff_mem h, hperm.mem_iff]

end Pairs

theorem lookup_eq_none_of_not_any {entries : List (Place × Entry)}
    (h : ¬ entries.any (·.1 = place)) : entries.lookup place = none := by
  induction entries with
  | nil => rfl
  | cons x rest ih =>
    simp only [List.any_cons, Bool.or_eq_true, decide_eq_true_eq, not_or] at h
    have hne : (place == x.1) = false := by simpa using Ne.symm h.1
    rw [List.lookup_cons, hne]
    exact ih h.2

theorem lookup_replaced {entries : List (Place × Entry)} (h : entries.any (·.1 = place)) :
    (entries.map fun x => if x.1 = place then (place, e) else x).lookup other =
      if other = place then some e else entries.lookup other := by
  induction entries with
  | nil => simp at h
  | cons x rest ih =>
    obtain ⟨p, old⟩ := x
    by_cases hp : p = place
    · subst hp
      by_cases ho : other = p
      · simp [ho]
      · have hrest : (rest.map fun x => if x.1 = p then (p, e) else x).lookup other =
            rest.lookup other := by
          by_cases hany : rest.any (·.1 = p)
          · rw [ih hany, if_neg ho]
          · congr 1
            conv_rhs => rw [← List.map_id rest]
            refine List.map_congr_left fun x hx => ?_
            have : x.1 ≠ p := by
              rintro rfl
              exact hany (List.any_eq_true.mpr ⟨x, hx, by simp⟩)
            simp [this]
        have hbeq : (other == p) = false := by simpa using ho
        simp [List.lookup_cons, hbeq, ho, hrest]
    · have hany : rest.any (·.1 = place) := by simpa [hp] using h
      by_cases ho : other = p
      · subst ho
        simp [hp]
      · have hbeq : (other == p) = false := by simpa using ho
        simp [List.lookup_cons, hp, hbeq, ih hany]

theorem lookup_append_single {entries : List (Place × Entry)} (h : ¬ entries.any (·.1 = place)) :
    (entries ++ [(place, e)]).lookup other =
      if other = place then some e else entries.lookup other := by
  rw [List.lookup_append]
  by_cases ho : other = place
  · subst ho
    simp [lookup_eq_none_of_not_any h]
  · have hbeq : (other == place) = false := by simpa using ho
    simp [List.lookup_cons, hbeq, ho]

theorem lookup_filter {entries : List (Place × Entry)} (keep : Place → Bool) :
    (entries.filter fun x => keep x.1).lookup other =
      if keep other then entries.lookup other else none := by
  induction entries with
  | nil => simp
  | cons x rest ih =>
    obtain ⟨p, old⟩ := x
    by_cases hk : keep p
    · by_cases ho : other = p
      · subst ho
        simp [hk]
      · have hbeq : (other == p) = false := by simpa using ho
        simp only [List.filter_cons, hk, if_true, List.lookup_cons, hbeq, ih]
    · by_cases ho : other = p
      · subst ho
        simp [hk, ih]
      · have hbeq : (other == p) = false := by simpa using ho
        simp only [List.filter_cons, hk, List.lookup_cons, hbeq]
        exact ih

/-! ### Trees -/

/-- Putting something at a place leaves all other places as they are. -/
theorem lookup?_set (h : place ≠ []) :
    (t.set place e).lookup? other = if other = place then some e else t.lookup? other := by
  by_cases ho : other = []
  · subst ho
    rw [if_neg (Ne.symm h)]
    rfl
  · rw [lookup?_of_ne_nil ho, lookup?_of_ne_nil ho]
    unfold set
    split_ifs with hany hp hp
    · rw [lookup_replaced hany, if_pos hp]
    · rw [lookup_replaced hany, if_neg hp]
    · rw [lookup_append_single hany, if_pos hp]
    · rw [lookup_append_single hany, if_neg hp]

theorem lookup?_set_self (h : place ≠ []) : (t.set place e).lookup? place = some e := by
  rw [lookup?_set h, if_pos rfl]

theorem lookup?_set_of_ne (h : place ≠ []) (ho : other ≠ place) :
    (t.set place e).lookup? other = t.lookup? other := by
  rw [lookup?_set h, if_neg ho]

/-- Taking a place away leaves what does not stand below it. -/
theorem lookup?_drop_beside (h : ¬ place <+: other) :
    (t.drop place).lookup? other = t.lookup? other := by
  by_cases ho : other = []
  · subst ho
    rfl
  · rw [lookup?_of_ne_nil ho, lookup?_of_ne_nil ho]
    unfold drop
    rw [lookup_filter fun p => !place.isPrefixOf p]
    simp [h]

/-- Nothing is left at a place that was taken away, nor below it. -/
theorem lookup?_drop_below (h : place <+: other) (ho : other ≠ []) :
    (t.drop place).lookup? other = none := by
  rw [lookup?_of_ne_nil ho]
  unfold drop
  rw [lookup_filter fun p => !place.isPrefixOf p, List.isPrefixOf_iff_prefix.mpr h]
  rfl

end ReviewMentor.FileTree
