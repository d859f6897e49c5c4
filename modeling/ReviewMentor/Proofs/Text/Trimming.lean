import Mathlib.Data.List.TakeWhile
import ReviewMentor.Text.Blank

/-!
# Runs and trimming

What precedes the first element that breaks off a run is the run. What is trimmed are blanks, so
blanks around a text make no difference to what is left of it.
-/

namespace ReviewMentor.Text

/-! ### Runs -/

section Runs

variable {α : Type} {p : α → Bool} {run rest : List α}

theorem dropWhile_run (hrun : ∀ a ∈ run, p a = true) (hrest : ∀ a ∈ rest.head?, p a = false) :
    (run ++ rest).dropWhile p = rest := by
  rw [List.dropWhile_append_of_pos hrun]
  cases rest with
  | nil => rfl
  | cons a more => exact List.dropWhile_cons_of_neg (by simp [hrest a rfl])

theorem takeWhile_run (hrun : ∀ a ∈ run, p a = true) (hrest : ∀ a ∈ rest.head?, p a = false) :
    (run ++ rest).takeWhile p = run := by
  rw [List.takeWhile_append_of_pos hrun]
  cases rest with
  | nil => exact List.append_nil _
  | cons a more => rw [List.takeWhile_cons_of_neg (by simp [hrest a rfl]), List.append_nil]

/-- What is left of a list after a run breaks off the run. -/
theorem head?_dropWhile (p : α → Bool) (l : List α) :
    ∀ a ∈ (l.dropWhile p).head?, p a = false := by
  intro a ha
  have hstop := List.head?_dropWhile_not p l
  rwa [Option.mem_def.mp ha] at hstop

end Runs

/-! ### Trimming -/

variable {before cs after : List Char}

theorem trimEndChars_append (h : ∀ c ∈ after, isBlank c = true) :
    trimEndChars (cs ++ after) = trimEndChars cs := by
  rw [trimEndChars, List.reverse_append, List.dropWhile_append_of_pos, trimEndChars]
  exact fun c hc => h c (List.mem_reverse.mp hc)

/-- Blanks around a text are trimmed away. -/
theorem trimChars_around (hbefore : ∀ c ∈ before, isBlank c = true)
    (hafter : ∀ c ∈ after, isBlank c = true) :
    trimChars (before ++ cs ++ after) = trimChars cs := by
  rw [trimChars, List.append_assoc, List.dropWhile_append_of_pos hbefore, List.dropWhile_append]
  split
  · next hnone =>
    have hall : after.dropWhile isBlank = [] := List.dropWhile_eq_nil_iff.mpr hafter
    rw [hall, trimChars, List.isEmpty_iff.mp hnone]
  · rw [trimEndChars_append hafter, trimChars]

/-- What is left of a text neither begins nor ends with a blank. -/
theorem ends_trimChars (cs : List Char) : (∀ c ∈ (trimChars cs).head?, isBlank c = false) ∧
    ∀ c ∈ (trimChars cs).getLast?, isBlank c = false := by
  have hprefix : trimChars cs <+: cs.dropWhile isBlank := by
    rw [trimChars, trimEndChars, ← List.reverse_suffix, List.reverse_reverse]
    exact List.dropWhile_suffix _
  refine ⟨fun c hc => ?_, fun c hc => ?_⟩
  · obtain ⟨more, hmore⟩ := hprefix
    refine head?_dropWhile isBlank cs c ?_
    rw [← hmore, List.head?_append, Option.mem_def.mp hc]
    rfl
  · rw [trimChars, trimEndChars, List.getLast?_reverse] at hc
    exact head?_dropWhile isBlank _ c hc

theorem trimChars_eq_self (hfirst : ∀ c ∈ cs.head?, isBlank c = false)
    (hlast : ∀ c ∈ cs.getLast?, isBlank c = false) : trimChars cs = cs := by
  have hleft : cs.dropWhile isBlank = cs :=
    @dropWhile_run _ isBlank [] cs (List.forall_mem_nil _) hfirst
  have hright : cs.reverse.dropWhile isBlank = cs.reverse :=
    @dropWhile_run _ isBlank [] cs.reverse (List.forall_mem_nil _)
      (by rwa [List.head?_reverse])
  rw [trimChars, hleft, trimEndChars, hright, List.reverse_reverse]

theorem trim_around (cs : List Char) (hbefore : ∀ c ∈ before, isBlank c = true)
    (hafter : ∀ c ∈ after, isBlank c = true) :
    trim (String.ofList (before ++ cs ++ after)) = trim (String.ofList cs) := by
  simp only [trim, String.toList_ofList, trimChars_around hbefore hafter]

end ReviewMentor.Text
