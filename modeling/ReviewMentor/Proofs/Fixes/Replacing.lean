import ReviewMentor.Proofs.Text.Lines

/-!
# Replacing a line

A line of a text is one of the parts between the line breaks, but what follows a line break at the
end of the text is none. When a line is replaced, everything before it and after it stays, so that
the parts of the text are the old ones with one of them changed.
-/

namespace ReviewMentor.Text

variable {content new old text : List Char} {above below lines : List (List Char)} {line : Nat}

/-! ### The lines of a text -/

/-- How many lines a text has: a line break ends a line, and what follows the last one is a line
unless it is empty. -/
def lineCount (text : List Char) : Nat :=
  text.count '\n' + if text = [] ∨ text.getLast? = some '\n' then 0 else 1

theorem endsWith_iff {c : Char} : endsWith text c = true ↔ text.getLast? = some c := by
  simp [endsWith]

/-- The part after the last line break is empty just if there is no such part. -/
theorem getLast_part_eq_nil (hcut : cutAt '\n' text = lines ++ [old]) :
    old = [] ↔ text = [] ∨ text.getLast? = some '\n' := by
  have htext : text = ended lines ++ old := by
    rw [← joinLines_cutAt text, hcut, joinLines_around, begun_nil, List.append_nil]
  have hold : '\n' ∉ old := not_mem_of_line text (by simp [hcut])
  constructor
  · rintro rfl
    rw [htext, List.append_nil]
    exact starts_ended lines
  · rintro (h | h)
    · rw [htext] at h
      exact (List.append_eq_nil_iff.mp h).2
    · by_contra hne
      rw [htext, List.getLast?_append_of_ne_nil _ hne] at h
      exact hold (List.mem_of_getLast? h)

theorem rawLines_finished (hcut : cutAt '\n' text = lines ++ [[]]) (hne : text ≠ []) :
    endsWith text '\n' = true ∧ rawLines text = lines := by
  have hend : endsWith text '\n' = true :=
    endsWith_iff.mpr (((getLast_part_eq_nil hcut).mp rfl).resolve_left hne)
  exact ⟨hend, by simp [rawLines, hend, hcut]⟩

theorem rawLines_unfinished (hcut : cutAt '\n' text = lines ++ [old]) (hne : old ≠ []) :
    endsWith text '\n' = false ∧ rawLines text = lines ++ [old] := by
  have hend : endsWith text '\n' = false := by
    rw [← Bool.not_eq_true, endsWith_iff]
    exact fun h => hne ((getLast_part_eq_nil hcut).mpr (.inr h))
  exact ⟨hend, by simp [rawLines, hend, hcut]⟩

theorem exists_last_part (text : List Char) : ∃ lines last, cutAt '\n' text = lines ++ [last] :=
  ⟨_, _, (List.dropLast_concat_getLast (cutAt_ne_nil '\n' text)).symm⟩

theorem length_rawLines (hne : text ≠ []) : (rawLines text).length = lineCount text := by
  obtain ⟨lines, last, hcut⟩ := exists_last_part text
  have hlength : lines.length = text.count '\n' := by
    have := length_cutAt text
    rw [hcut, List.length_append, List.length_singleton] at this
    omega
  by_cases hlast : last = []
  · have hend := (getLast_part_eq_nil hcut).mp hlast
    rw [lineCount, if_pos hend, (rawLines_finished (hlast ▸ hcut) hne).2, hlength, Nat.add_zero]
  · have hend := fun h => hlast ((getLast_part_eq_nil hcut).mpr h)
    rw [lineCount, if_neg hend, (rawLines_unfinished hcut hlast).2, List.length_append, hlength,
      List.length_singleton]

/-- A line has a number from one up to the number of lines. -/
theorem exists_line (hpos : 1 ≤ line) (hle : line ≤ lineCount text) : ∃ above old below,
    cutAt '\n' text = above ++ old :: below ∧ above.length + 1 = line ∧
      (old ≠ [] ∨ below ≠ []) := by
  have hlength := length_cutAt text
  have hcount : lineCount text ≤ text.count '\n' + 1 := by
    unfold lineCount
    split <;> omega
  have hlt : line - 1 < (cutAt '\n' text).length := by omega
  have hsplit := List.take_append_drop (line - 1) (cutAt '\n' text)
  rw [List.drop_eq_getElem_cons hlt] at hsplit
  refine ⟨_, _, _, hsplit.symm, ?_, ?_⟩
  · rw [List.length_take]
    omega
  · by_contra hnone
    rw [not_or, not_not, not_not] at hnone
    obtain ⟨hold, hbelow⟩ := hnone
    rw [hbelow] at hsplit
    have hend := (getLast_part_eq_nil hsplit.symm).mp hold
    rw [lineCount, if_pos hend] at hle
    have := List.drop_eq_nil_iff.mp hbelow
    omega

/-! ### What takes the place of a line -/

/-- What comes in the place of a line: the new text without one line break at its end. If the line
ended with a carriage return, so does what comes in its place. -/
def TakesPlace (old new fresh : List Char) : Prop :=
  ∃ body, (new = body ++ ['\n'] ∨ new = body ∧ new.getLast? ≠ some '\n') ∧
    (fresh = body ++ ['\r'] ∧ old.getLast? = some '\r' ∧ body.getLast? ≠ some '\r' ∨
      fresh = body ∧ (old.getLast? = some '\r' → body.getLast? = some '\r'))

/-- A text without one line break at its end. -/
def dropBreak (new : List Char) : List Char := if endsWith new '\n' then new.dropLast else new

theorem newLine_eq (old new : List Char) : newLine old new =
    if endsWith old '\r' && !endsWith (dropBreak new) '\r' then dropBreak new ++ ['\r']
    else dropBreak new := rfl

theorem dropBreak_cases (new : List Char) :
    new = dropBreak new ++ ['\n'] ∨ new = dropBreak new ∧ new.getLast? ≠ some '\n' := by
  unfold dropBreak
  split
  · next h =>
    obtain ⟨init, rfl⟩ := List.getLast?_eq_some_iff.mp (endsWith_iff.mp h)
    exact .inl (by rw [List.dropLast_concat])
  · next h => exact .inr ⟨rfl, fun hlast => h (endsWith_iff.mpr hlast)⟩

theorem takesPlace_newLine (old new : List Char) : TakesPlace old new (newLine old new) := by
  refine ⟨dropBreak new, dropBreak_cases new, ?_⟩
  rw [newLine_eq]
  split
  · next h =>
    rw [Bool.and_eq_true, Bool.not_eq_true', ← Bool.not_eq_true, endsWith_iff, endsWith_iff] at h
    exact .inl ⟨rfl, h⟩
  · next h =>
    rw [Bool.and_eq_true, Bool.not_eq_true', ← Bool.not_eq_true, endsWith_iff, endsWith_iff,
      not_and, not_not] at h
    exact .inr ⟨rfl, h⟩

/-- What took the place of a line stays when the same text comes in its place again. -/
theorem newLine_newLine (old new : List Char) :
    newLine (newLine old new) new = newLine old new := by
  rw [newLine_eq old, newLine_eq]
  by_cases hnew : endsWith (dropBreak new) '\r' = true
  · simp [hnew]
  · rw [Bool.not_eq_true] at hnew
    by_cases hold : endsWith old '\r' = true
    · have hlast : endsWith (dropBreak new ++ ['\r']) '\r' = true := endsWith_iff.mpr (by simp)
      simp [hnew, hold, hlast]
    · simp [hnew, hold]

/-- A new text of one line brings no line break with it. -/
theorem newLine_single (hnew : '\n' ∉ new.dropLast) : '\n' ∉ newLine old new := by
  have hbody : '\n' ∉ dropBreak new := by
    unfold dropBreak
    split
    · exact hnew
    · next h =>
      intro hmem
      have hne := List.ne_nil_of_mem hmem
      rw [← List.dropLast_concat_getLast hne, List.mem_append, List.mem_singleton] at hmem
      refine h (endsWith_iff.mpr ?_)
      rw [List.getLast?_eq_some_getLast hne, hmem.resolve_left hnew]
  rw [newLine_eq]
  split
  · simp [hbody]
  · exact hbody

/-! ### Replacing -/

theorem replace_of_rawLines {more : List (List Char)} (hne : content ≠ [])
    (hraw : rawLines content = above ++ old :: more) :
    replaceLineChars content (above.length + 1) new =
      ended above ++ newLine old new ++ begun more ++
        (if endsWith content '\n' then ['\n'] else []) := by
  have hset : (above ++ old :: more).set above.length (newLine old new) =
      above ++ newLine old new :: more := by simp
  simp [replaceLineChars, hne, hraw, joinLines_around]

/-- **Replacing a line** leaves what stands before it and after it. -/
theorem replace_line (hcut : cutAt '\n' content = above ++ old :: below)
    (hline : old ≠ [] ∨ below ≠ []) :
    replaceLineChars content (above.length + 1) new =
      ended above ++ newLine old new ++ begun below := by
  have hne : content ≠ [] := by
    rintro rfl
    rcases above with _ | ⟨first, rest⟩
    · obtain ⟨rfl, rfl⟩ := List.cons.inj hcut
      simp at hline
    · exact absurd (congrArg List.length hcut) (by simp [cutAt])
  rcases List.eq_nil_or_concat below with rfl | ⟨more, last, rfl⟩
  · obtain ⟨hend, hraw⟩ := rawLines_unfinished hcut (hline.resolve_right (by simp))
    rw [replace_of_rawLines hne hraw, hend]
    simp
  · have hparts : cutAt '\n' content = (above ++ old :: more) ++ [last] := by simp [hcut]
    by_cases hlast : last = []
    · subst hlast
      obtain ⟨hend, hraw⟩ := rawLines_finished hparts hne
      rw [replace_of_rawLines hne hraw, hend]
      simp
    · obtain ⟨hend, hraw⟩ := rawLines_unfinished hparts hlast
      rw [List.append_assoc, List.cons_append] at hraw
      rw [replace_of_rawLines hne hraw, hend]
      simp

/-- There is nothing to replace where there is no line. -/
theorem replace_beyond (h : line = 0 ∨ lineCount content < line) :
    replaceLineChars content line new = content := by
  unfold replaceLineChars
  by_cases hnone : content = [] ∨ line = 0
  · simp [hnone]
  · rw [not_or] at hnone
    have hbeyond : (rawLines content)[line - 1]? = none := by
      rw [List.getElem?_eq_none_iff, length_rawLines hnone.1]
      omega
    simp [hnone, hbeyond]

/-! ### Parts -/

/-- The parts of a text of which one is replaced. Where the text ends with a line break, the part
after it is no line. -/
def replacePart (line : Nat) (new : List Char) (parts : List (List Char)) : List (List Char) :=
  parts.mapIdx fun i old =>
    if i + 1 = line ∧ (i + 1 < parts.length ∨ old ≠ []) then newLine old new else old

theorem replacePart_around (hline : old ≠ [] ∨ below ≠ []) :
    replacePart (above.length + 1) new (above ++ old :: below) =
      above ++ newLine old new :: below := by
  have hthere : above.length + 1 < (above ++ old :: below).length ∨ old ≠ [] := by
    rcases hline with h | h
    · exact .inr h
    · have := List.length_pos_of_ne_nil h
      exact .inl (by simp; omega)
  refine List.ext_getElem? fun i => ?_
  rw [replacePart, List.getElem?_mapIdx]
  rcases Nat.lt_trichotomy i above.length with h | rfl | h
  · rw [List.getElem?_append_left h, List.getElem?_append_left h]
    rcases above[i]? with _ | part
    · rfl
    · simp [Nat.ne_of_lt h]
  · rw [List.getElem?_append_right (Nat.le_refl _), List.getElem?_append_right (Nat.le_refl _),
      Nat.sub_self, List.getElem?_cons_zero, List.getElem?_cons_zero, Option.map_some,
      if_pos ⟨rfl, hthere⟩]
  · have hne : i ≠ above.length := Nat.ne_of_gt h
    obtain ⟨k, rfl⟩ := Nat.exists_eq_add_of_lt h
    rw [List.getElem?_append_right (by omega), List.getElem?_append_right (by omega),
      show above.length + k + 1 - above.length = k + 1 by omega, List.getElem?_cons_succ,
      List.getElem?_cons_succ]
    rcases below[k]? with _ | part
    · rfl
    · simp
      omega

theorem replacePart_beyond (h : line = 0 ∨ lineCount content < line) :
    replacePart line new (cutAt '\n' content) = cutAt '\n' content := by
  have hlength := length_cutAt content
  refine List.ext_getElem? fun i => ?_
  rw [replacePart, List.getElem?_mapIdx]
  rcases hpart : (cutAt '\n' content)[i]? with _ | part
  · rfl
  rw [Option.map_some, if_neg]
  rintro ⟨rfl, hthere⟩
  have hlt : i < (cutAt '\n' content).length := (List.getElem?_eq_some_iff.mp hpart).1
  obtain ⟨lines, last, hcut⟩ := exists_last_part content
  have hlast := getLast_part_eq_nil hcut
  unfold lineCount at h
  split at h
  · next hend =>
    rcases hthere with hthere | hthere
    · omega
    · have hi : i = lines.length := by
        rw [hcut, List.length_append, List.length_singleton] at hlength hlt
        omega
      rw [hcut, hi, List.getElem?_concat_length, Option.some.injEq] at hpart
      exact hthere (hpart ▸ hlast.mpr hend)
  · omega

/-- **The parts of a text** after one of its lines was replaced by one line. -/
theorem cutAt_replace (hnew : '\n' ∉ new.dropLast) :
    cutAt '\n' (replaceLineChars content line new) =
      replacePart line new (cutAt '\n' content) := by
  by_cases hthere : 1 ≤ line ∧ line ≤ lineCount content
  · obtain ⟨above, old, below, hcut, rfl, hline⟩ := exists_line hthere.1 hthere.2
    have hsingle : ∀ part ∈ above ++ newLine old new :: below, '\n' ∉ part := by
      intro part hpart
      rcases List.mem_append.mp hpart with h | h
      · exact not_mem_of_line content (by simp [hcut, h])
      · rcases List.mem_cons.mp h with rfl | h
        · exact newLine_single hnew
        · exact not_mem_of_line content (by simp [hcut, h])
    rw [replace_line hcut hline, ← joinLines_around, cutAt_joinLines (by simp) hsingle, hcut,
      replacePart_around hline]
  · have hbeyond : line = 0 ∨ lineCount content < line := by omega
    rw [replace_beyond hbeyond, replacePart_beyond hbeyond]

/-- A new text of one line neither brings line breaks nor takes any away. -/
theorem count_replace (hnew : '\n' ∉ new.dropLast) :
    (replaceLineChars content line new).count '\n' = content.count '\n' := by
  have hlength := length_cutAt (replaceLineChars content line new)
  rw [cutAt_replace hnew, replacePart, List.length_mapIdx, length_cutAt] at hlength
  exact (Nat.succ.inj hlength).symm

/-- A line break at the end of a text stays there. -/
theorem getLast?_replace (hnew : '\n' ∉ new.dropLast) (hend : content.getLast? = some '\n') :
    (replaceLineChars content line new).getLast? = some '\n' := by
  obtain ⟨lines, last, hcut⟩ := exists_last_part content
  obtain rfl := (getLast_part_eq_nil hcut).mpr (.inr hend)
  have hcut' : cutAt '\n' (replaceLineChars content line new) =
      replacePart line new (cutAt '\n' content) := cutAt_replace hnew
  rw [hcut, replacePart, List.mapIdx_append, List.mapIdx_singleton, if_neg (by simp)] at hcut'
  refine ((getLast_part_eq_nil hcut').mp rfl).resolve_left fun hnone => ?_
  have hcount : (replaceLineChars content line new).count '\n' = content.count '\n' :=
    count_replace hnew
  rw [hnone, List.count_nil] at hcount
  exact List.count_eq_zero.mp hcount.symm (List.mem_of_getLast? hend)

end ReviewMentor.Text
