import Mathlib.Data.List.Basic
import Mathlib.Data.List.Induction
import ReviewMentor.Fix
import ReviewMentor.Proofs.Text.Cutting

/-!
# Lines where they stand

A text is the parts between its line breaks, joined by line breaks. So a line can be told by what
stands around it: it holds no line break, what precedes it is nothing or ends with one, and what
follows it is nothing or begins with one.
-/

namespace ReviewMentor.Text

/-- Lines with a line break after each of them. -/
def ended (lines : List (List Char)) : List Char := lines.flatMap (· ++ ['\n'])

/-- Lines with a line break before each of them. -/
def begun (lines : List (List Char)) : List Char := lines.flatMap ('\n' :: ·)

@[simp] theorem ended_nil : ended [] = [] := rfl

@[simp] theorem ended_cons (line : List Char) (lines : List (List Char)) :
    ended (line :: lines) = line ++ '\n' :: ended lines := by
  simp [ended]

@[simp] theorem ended_append (lines more : List (List Char)) :
    ended (lines ++ more) = ended lines ++ ended more := by
  simp [ended]

@[simp] theorem begun_nil : begun [] = [] := rfl

@[simp] theorem begun_cons (line : List Char) (lines : List (List Char)) :
    begun (line :: lines) = '\n' :: (line ++ begun lines) := by
  simp [begun]

@[simp] theorem begun_append (lines more : List (List Char)) :
    begun (lines ++ more) = begun lines ++ begun more := by
  simp [begun]

variable {lines above below : List (List Char)} {line text before after : List Char}

/-! ### Joining -/

theorem joinLines_cons (line : List Char) (lines : List (List Char)) :
    joinLines (line :: lines) = line ++ begun lines := by
  induction lines generalizing line with
  | nil => simp [joinLines]
  | cons next rest ih => rw [joinLines, ih, begun_cons]; exact List.cons_ne_nil next rest

theorem joinLines_around (above : List (List Char)) (line : List Char) (below : List (List Char)) :
    joinLines (above ++ line :: below) = ended above ++ line ++ begun below := by
  induction above with
  | nil => simp [joinLines_cons]
  | cons first rest ih =>
    have hne : rest ++ line :: below ≠ [] := by simp
    rw [List.cons_append, joinLines, ih]
    · simp
    · exact hne

theorem joinLines_between (above below : List (List Char)) (h : lines ≠ []) :
    joinLines (above ++ lines ++ below) = ended above ++ joinLines lines ++ begun below := by
  obtain ⟨first, rest, rfl⟩ := List.exists_cons_of_ne_nil h
  rw [List.append_assoc, List.cons_append, joinLines_around, joinLines_cons]
  simp

theorem mem_joinLines {c : Char} (h : c ∈ joinLines lines) :
    c = '\n' ∨ ∃ line ∈ lines, c ∈ line := by
  cases lines with
  | nil => exact absurd h List.not_mem_nil
  | cons line rest =>
    rw [joinLines_cons, List.mem_append, begun, List.mem_flatMap] at h
    rcases h with h | ⟨next, hnext, h⟩
    · exact .inr ⟨line, List.mem_cons_self, h⟩
    · exact (List.mem_cons.mp h).imp_right fun h => ⟨next, List.mem_cons_of_mem _ hnext, h⟩

theorem begun_eq (h : lines ≠ []) : begun lines = '\n' :: joinLines lines := by
  obtain ⟨first, rest, rfl⟩ := List.exists_cons_of_ne_nil h
  simp [joinLines_cons]

theorem ended_eq (h : lines ≠ []) : ended lines = joinLines lines ++ ['\n'] := by
  induction lines using List.reverseRecOn with
  | nil => exact absurd rfl h
  | append_singleton init last => simp [joinLines_around]

theorem joinLines_cutAt (text : List Char) : joinLines (cutAt '\n' text) = text := by
  induction text with
  | nil => rfl
  | cons c rest ih =>
    obtain ⟨part, parts, hp⟩ := List.exists_cons_of_ne_nil (cutAt_ne_nil '\n' rest)
    rw [hp, joinLines_cons] at ih
    by_cases hc : c = '\n'
    · rw [cutAt, if_pos hc, hp, joinLines_cons, begun_cons, ih, hc, List.nil_append]
    · rw [cutAt, if_neg hc, hp, joinLines_cons, List.cons_append, ih]

theorem cutAt_joinLines (hne : lines ≠ []) (h : ∀ line ∈ lines, '\n' ∉ line) :
    cutAt '\n' (joinLines lines) = lines := by
  induction lines with
  | nil => exact absurd rfl hne
  | cons line rest ih =>
    have hline : '\n' ∉ line := h line List.mem_cons_self
    by_cases hrest : rest = []
    · rw [hrest, joinLines, cutAt_of_not_mem hline]
    · rw [joinLines_cons, begun_eq hrest, cutAt_append_mark, cutAt_of_not_mem hline,
        ih hrest fun l hl => h l (List.mem_cons_of_mem _ hl), List.singleton_append]

/-- Texts with the same lines are the same. -/
theorem eq_of_cutAt_eq {other : List Char} (h : cutAt '\n' text = cutAt '\n' other) :
    text = other := by
  rw [← joinLines_cutAt text, h, joinLines_cutAt]

theorem not_mem_of_line (text : List Char) (h : line ∈ cutAt '\n' text) : '\n' ∉ line :=
  not_mem_of_mem_cutAt h

theorem length_cutAt (text : List Char) : (cutAt '\n' text).length = text.count '\n' + 1 := by
  induction text with
  | nil => rfl
  | cons c rest ih =>
    obtain ⟨part, parts, hp⟩ := List.exists_cons_of_ne_nil (cutAt_ne_nil '\n' rest)
    rw [hp, List.length_cons] at ih
    by_cases hc : c = '\n'
    · simp [cutAt, hc, hp, ih]
    · simp [cutAt, hc, hp, ih]

/-! ### Lines in a text -/

/-- A line of a text, with what stands before it and after it. -/
structure LineIn (text before line after : List Char) : Prop where
  eq : text = before ++ line ++ after
  single : '\n' ∉ line
  starts : before = [] ∨ before.getLast? = some '\n'
  stops : after = [] ∨ after.head? = some '\n'

theorem exists_ended (h : before = [] ∨ before.getLast? = some '\n') :
    ∃ above, before = ended above ∧
      ∀ rest, cutAt '\n' (before ++ rest) = above ++ cutAt '\n' rest := by
  rcases h with rfl | h
  · exact ⟨[], rfl, fun _ => rfl⟩
  · obtain ⟨init, rfl⟩ := List.getLast?_eq_some_iff.mp h
    refine ⟨cutAt '\n' init, ?_, fun rest => ?_⟩
    · rw [ended_eq (cutAt_ne_nil _ _), joinLines_cutAt]
    · rw [List.append_assoc, List.singleton_append, cutAt_append_mark]

theorem exists_begun (h : after = [] ∨ after.head? = some '\n') (hline : '\n' ∉ line) :
    ∃ below, after = begun below ∧ cutAt '\n' (line ++ after) = line :: below := by
  rcases h with rfl | h
  · exact ⟨[], rfl, by rw [List.append_nil, cutAt_of_not_mem hline]⟩
  · obtain ⟨rest, rfl⟩ := List.head?_eq_some_iff.mp h
    refine ⟨cutAt '\n' rest, ?_, ?_⟩
    · rw [begun_eq (cutAt_ne_nil _ _), joinLines_cutAt]
    · rw [cutAt_append_mark, cutAt_of_not_mem hline, List.singleton_append]

theorem starts_ended (above : List (List Char)) :
    ended above = [] ∨ (ended above).getLast? = some '\n' := by
  by_cases h : above = []
  · exact .inl (h ▸ rfl)
  · exact .inr (by rw [ended_eq h, List.getLast?_concat])

theorem stops_begun (below : List (List Char)) :
    begun below = [] ∨ (begun below).head? = some '\n' := by
  by_cases h : below = []
  · exact .inl (h ▸ rfl)
  · exact .inr (by rw [begun_eq h, List.head?_cons])

/-- A line stands in a text where one of the parts between the line breaks is. -/
theorem lineIn_iff : LineIn text before line after ↔ ∃ above below,
    cutAt '\n' text = above ++ line :: below ∧ before = ended above ∧ after = begun below := by
  constructor
  · intro h
    obtain ⟨above, hbefore, hcut⟩ := exists_ended h.starts
    obtain ⟨below, hafter, hcut'⟩ := exists_begun h.stops h.single
    exact ⟨above, below, by rw [h.eq, List.append_assoc, hcut, hcut'], hbefore, hafter⟩
  · rintro ⟨above, below, hcut, rfl, rfl⟩
    refine ⟨?_, not_mem_of_line text ?_, starts_ended above, stops_begun below⟩
    · rw [← joinLines_cutAt text, hcut, joinLines_around]
    · rw [hcut]
      exact List.mem_append_right _ List.mem_cons_self

/-- Before a line there are as many line breaks as lines. -/
theorem count_ended (h : cutAt '\n' text = above ++ below) :
    (ended above).count '\n' = above.length := by
  have hsingle : ∀ line ∈ above, '\n' ∉ line := fun line hline =>
    not_mem_of_line text (h ▸ List.mem_append_left _ hline)
  clear h
  induction above with
  | nil => rfl
  | cons line rest ih =>
    have hline := hsingle line List.mem_cons_self
    rw [ended_cons, List.count_append, List.count_eq_zero_of_not_mem hline, List.count_cons_self,
      ih fun l hl => hsingle l (List.mem_cons_of_mem _ hl), List.length_cons, Nat.zero_add]

/-- A line of a text is told by how many line breaks precede it. -/
theorem LineIn.unique {before' line' after' : List Char} (h : LineIn text before line after)
    (h' : LineIn text before' line' after') (hcount : before.count '\n' = before'.count '\n') :
    before = before' ∧ line = line' ∧ after = after' := by
  obtain ⟨above, below, hcut, rfl, rfl⟩ := lineIn_iff.mp h
  obtain ⟨above', below', hcut', rfl, rfl⟩ := lineIn_iff.mp h'
  rw [count_ended hcut, count_ended hcut'] at hcount
  obtain ⟨rfl, hrest⟩ := List.append_inj (hcut.symm.trans hcut') hcount
  obtain ⟨rfl, rfl⟩ := List.cons.inj hrest
  exact ⟨rfl, rfl, rfl⟩

end ReviewMentor.Text
