import ReviewMentor.Proofs.Teaching.Borders

/-!
# Clean text is clean

After a phrase has been replaced by the mark it stands nowhere, and no replacement brings back
another one: the mark ends and begins with brackets, which no phrase reads. The cut and what is put
behind it change nothing of that. So a text that was sanitized once is never changed again.
-/

namespace ReviewMentor.Phrase

variable {phrase other : List Step} {part cs : List Char} {c : Char}

/-- A text in which a forbidden phrase stands. -/
def IsTainted (cs : List Char) : Prop :=
  ∃ phrase ∈ forbidden, StandsIn phrase cs

/-! ### The forbidden phrases -/

section Forbidden

theorem isClear_of_mem (h : phrase ∈ forbidden) : isClear phrase = true := by
  have hall : forbidden.all isClear = true := by decide
  exact List.all_eq_true.mp hall phrase h

theorem isSolid_of_mem (h : phrase ∈ forbidden) : isSolid phrase = true := by
  have hall : forbidden.all isSolid = true := by decide
  exact List.all_eq_true.mp hall phrase h

theorem occurs_iff_of_mem (h : phrase ∈ forbidden) : occurs phrase cs = true ↔ StandsIn phrase cs :=
  occurs_iff_standsIn (isClear_of_mem h) (isSolid_of_mem h)

theorem ne_nil_of_reads (h : phrase ∈ forbidden) (hpart : Reads phrase part) : part ≠ [] := by
  obtain ⟨c, behind, rfl, -⟩ := exists_of_isSolid (isSolid_of_mem h) hpart
  simp

/-- Characters that no forbidden phrase reads: the brackets of the mark, the points of the cut, and
others that stand in fixed texts. -/
def unread : List Char := "[].-w0123456789".toList

theorem isForeign_of_mem (h : phrase ∈ forbidden) (hc : c ∈ unread) :
    isForeign phrase c = true := by
  have hall : (forbidden.all fun phrase => unread.all (isForeign phrase)) = true := by decide
  exact List.all_eq_true.mp (List.all_eq_true.mp hall phrase h) c hc

theorem not_standsIn_of_occurs (h : phrase ∈ forbidden)
    (hno : (forbidden.all fun phrase => !occurs phrase cs) = true) : ¬ StandsIn phrase cs := by
  rw [← occurs_iff_of_mem h]
  simpa using List.all_eq_true.mp hno phrase h

end Forbidden

/-! ### Redaction -/

section Redaction

/-- What holds no bracket and begins a redacted text begins the text itself. -/
theorem prefix_of_prefix_redactFrom (hopen : '[' ∉ part)
    (h : part <+: redactFrom phrase 0 cs) : part <+: cs := by
  induction cs generalizing part with
  | nil => simpa [redactFrom] using h
  | cons c cs ih =>
    cases part with
    | nil => exact List.nil_prefix
    | cons first part =>
      rw [redactFrom] at h
      split at h
      · obtain ⟨rfl, -⟩ := List.cons_prefix_cons.mp h
        exact absurd List.mem_cons_self hopen
      · obtain ⟨rfl, hrest⟩ := List.cons_prefix_cons.mp h
        have hopen' : '[' ∉ part := fun hmem => hopen (List.mem_cons_of_mem _ hmem)
        exact List.cons_prefix_cons.mpr ⟨rfl, ih hopen' hrest⟩

/-- The mark keeps what precedes it and what follows it apart. -/
theorem standsIn_mark_append (h : other ∈ forbidden) :
    StandsIn other (mark ++ cs) ↔ StandsIn other cs := by
  have hmark : mark = "[REDACTED".toList ++ [']'] := by decide
  have hno : ¬ StandsIn other mark := not_standsIn_of_occurs h (by decide)
  have hstart : StartsAfter other mark :=
    hmark ▸ startsAfter_of_isForeign (isForeign_of_mem h (by decide)) _
  rw [hstart.standsIn_append, or_iff_right hno]

/-- What stands in a redacted text stood where the phrase that was looked for did not. -/
theorem standsIn_redactFrom (hother : other ∈ forbidden) {skip : Nat}
    (h : StandsIn other (redactFrom phrase skip cs)) :
    ∃ here part, here <:+ cs ∧ after? phrase here = none ∧ Reads other part ∧ part <+: here := by
  induction cs generalizing skip with
  | nil =>
    obtain ⟨part, hpart, hin⟩ := h
    exact absurd (by simpa [redactFrom] using hin) (ne_nil_of_reads hother hpart)
  | cons c cs ih =>
    have later : ∀ {skip}, StandsIn other (redactFrom phrase skip cs) →
        ∃ here part, here <:+ c :: cs ∧ after? phrase here = none ∧ Reads other part ∧
          part <+: here := fun h =>
      let ⟨here, part, hin, hfound⟩ := ih h
      ⟨here, part, hin.trans (List.suffix_cons c cs), hfound⟩
    cases skip with
    | succ skip => exact later h
    | zero =>
      rw [redactFrom] at h
      split at h
      case h_1 left _ => exact later ((standsIn_mark_append hother).mp h)
      case h_2 hnone =>
        obtain ⟨part, hpart, hin⟩ := h
        rcases List.infix_cons_iff.mp hin with hhere | hin
        · have hopen : '[' ∉ part :=
            not_mem_of_isForeign (isForeign_of_mem hother (by decide)) hpart
          have hhere' : part <+: redactFrom phrase 0 (c :: cs) := by
            rw [redactFrom, hnone]
            exact hhere
          exact ⟨c :: cs, part, List.suffix_refl _, hnone, hpart,
            prefix_of_prefix_redactFrom hopen hhere'⟩
        · exact later ⟨part, hpart, hin⟩

/-- Redaction brings no phrase into a text. -/
theorem standsIn_of_redact (hother : other ∈ forbidden) (h : StandsIn other (redact cs phrase)) :
    StandsIn other cs := by
  obtain ⟨here, part, hhere, -, hpart, hin⟩ := standsIn_redactFrom hother h
  exact ⟨part, hpart, hin.isInfix.trans hhere.isInfix⟩

/-- A redacted phrase stands nowhere. -/
theorem not_standsIn_redact (h : phrase ∈ forbidden) : ¬ StandsIn phrase (redact cs phrase) := by
  intro hstands
  obtain ⟨here, part, -, hnone, hpart, rest, rfl⟩ := standsIn_redactFrom h hstands
  obtain ⟨left, hleft⟩ := after?_of_reads (isClear_of_mem h) hpart rest
  simp [hnone] at hleft

theorem standsIn_of_foldl (hother : other ∈ forbidden) {phrases : List (List Step)}
    (h : StandsIn other (phrases.foldl redact cs)) : StandsIn other cs := by
  induction phrases generalizing cs with
  | nil => exact h
  | cons phrase phrases ih => exact standsIn_of_redact hother (ih h)

theorem not_standsIn_foldl (h : phrase ∈ forbidden) {phrases : List (List Step)}
    (hmem : phrase ∈ phrases) : ¬ StandsIn phrase (phrases.foldl redact cs) := by
  induction phrases generalizing cs with
  | nil => simp at hmem
  | cons first phrases ih =>
    rcases List.mem_cons.mp hmem with rfl | hmem
    · exact fun hstands => not_standsIn_redact h (standsIn_of_foldl h hstands)
    · exact ih hmem

/-- No forbidden phrase stands in what sanitizing gives. -/
theorem not_standsIn_sanitizeChars (h : phrase ∈ forbidden) (cs : List Char) :
    ¬ StandsIn phrase (sanitizeChars cs) := by
  have hclean : ¬ StandsIn phrase (forbidden.foldl redact cs) := not_standsIn_foldl h h
  rw [sanitizeChars]
  split
  · have hmark : cutMark = '.' :: ".. [truncated]".toList := by decide
    have hcut : StopsAt phrase cutMark :=
      hmark ▸ stopsAt_of_isForeign (isForeign_of_mem h (by decide)) _
    rw [hcut.standsIn_append]
    rintro (hfront | hmark)
    · exact hclean (hfront.mono (List.take_prefix _ _).isInfix)
    · exact not_standsIn_of_occurs h (by decide) hmark
  · exact hclean

/-- **Clean text is clean.** -/
theorem not_isTainted_sanitizeChars (cs : List Char) : ¬ IsTainted (sanitizeChars cs) :=
  fun ⟨_, hphrase, hstands⟩ => not_standsIn_sanitizeChars hphrase cs hstands

end Redaction

/-! ### Sanitizing again -/

section Stability

/-- A phrase that does not occur leaves a text as it is. -/
theorem redact_of_not_occurs (h : occurs phrase cs = false) : redact cs phrase = cs := by
  unfold redact
  induction cs with
  | nil => rfl
  | cons c cs ih =>
    obtain ⟨hhere, hlater⟩ := Bool.or_eq_false_iff.mp h
    have hnone : after? phrase (c :: cs) = none := by simpa using hhere
    rw [redactFrom, hnone, ih hlater]

theorem foldl_redact_of_clean (h : ¬ IsTainted cs) {phrases : List (List Step)}
    (hmem : phrases ⊆ forbidden) : phrases.foldl redact cs = cs := by
  induction phrases with
  | nil => rfl
  | cons first phrases ih =>
    obtain ⟨hfirst, hrest⟩ := List.cons_subset.mp hmem
    have hno : occurs first cs = false := by
      rw [← Bool.not_eq_true, occurs_iff_of_mem hfirst]
      exact fun hstands => h ⟨first, hfirst, hstands⟩
    rw [List.foldl_cons, redact_of_not_occurs hno, ih hrest]

/-- A clean text is only cut. -/
theorem sanitizeChars_of_clean (h : ¬ IsTainted cs) :
    sanitizeChars cs = if lengthLimit < cs.length then cs.take lengthLimit ++ cutMark else cs := by
  rw [sanitizeChars, foldl_redact_of_clean h (List.Subset.refl _)]

/-- What sanitizing gives: a clean text that is short, or as many characters as are kept and the
mark of the cut. -/
theorem sanitizeChars_cases (cs : List Char) :
    (sanitizeChars cs).length ≤ lengthLimit ∨
      ∃ kept, kept.length = lengthLimit ∧ sanitizeChars cs = kept ++ cutMark := by
  rw [sanitizeChars]
  split
  · next hlong => exact .inr ⟨_, List.length_take_of_le hlong.le, rfl⟩
  · next hshort => exact .inl (Nat.not_lt.mp hshort)

/-- **The texts that sanitizing leaves as they are** are the clean ones that are short, or that were
cut before. -/
theorem sanitizeChars_eq_self_iff :
    sanitizeChars cs = cs ↔ ¬ IsTainted cs ∧ (cs.length ≤ lengthLimit ∨
      ∃ kept, kept.length = lengthLimit ∧ cs = kept ++ cutMark) := by
  constructor
  · intro hsame
    have hclean := not_isTainted_sanitizeChars cs
    have hform := sanitizeChars_cases cs
    rw [hsame] at hclean hform
    exact ⟨hclean, hform⟩
  · rintro ⟨hclean, hshort | ⟨kept, hkept, rfl⟩⟩
    · rw [sanitizeChars_of_clean hclean, if_neg (Nat.not_lt.mpr hshort)]
    · -- The cut takes away the mark that it puts back.
      have hlong : lengthLimit < (kept ++ cutMark).length := by
        have hmark : 0 < cutMark.length := by decide
        simp only [List.length_append]
        omega
      rw [sanitizeChars_of_clean hclean, if_pos hlong, List.take_left' hkept]

theorem sanitizeChars_sanitizeChars (cs : List Char) :
    sanitizeChars (sanitizeChars cs) = sanitizeChars cs :=
  sanitizeChars_eq_self_iff.mpr ⟨not_isTainted_sanitizeChars cs, sanitizeChars_cases cs⟩

theorem length_sanitizeChars_le (cs : List Char) :
    (sanitizeChars cs).length ≤ lengthLimit + cutMark.length := by
  rcases sanitizeChars_cases cs with hshort | ⟨kept, hkept, heq⟩
  · exact Nat.le_add_right_of_le hshort
  · rw [heq, List.length_append, hkept]

/-- **Sanitized text is clean and short, and stays as it is.** A clean text of at most 500
characters is sanitized from the start. -/
theorem sanitize_is_stable (s : String) :
    ¬ IsTainted (sanitize s).toList ∧ (sanitize s).length ≤ 515 ∧
      sanitize (sanitize s) = sanitize s ∧
      (s.length ≤ 500 → ¬ IsTainted s.toList → sanitize s = s) := by
  have htext : (sanitize s).toList = sanitizeChars s.toList := String.toList_ofList
  refine ⟨?_, ?_, ?_, fun hshort hclean => ?_⟩
  · rw [htext]
    exact not_isTainted_sanitizeChars s.toList
  · rw [← String.length_toList, htext]
    exact length_sanitizeChars_le s.toList
  · rw [sanitize, htext, sanitizeChars_sanitizeChars, ← sanitize]
  · rw [← String.length_toList] at hshort
    rw [sanitize, sanitizeChars_eq_self_iff.mpr ⟨hclean, .inl hshort⟩, String.ofList_toList]

/-- An instruction in a message is marked, and a message without one is kept. -/
theorem sanitize_is_stable_instruction :
    sanitize "Forget previous" = "[REDACTED]" ∧
    sanitize (sanitize "Forget previous") = sanitize "Forget previous" ∧
    "forget it".length ≤ 500 ∧ ¬ IsTainted "forget it".toList ∧
    sanitize "forget it" = "forget it" := by
  have hclean : ¬ IsTainted "forget it".toList := fun ⟨phrase, hphrase, hstands⟩ =>
    not_standsIn_of_occurs hphrase (by decide) hstands
  exact ⟨by decide, (sanitize_is_stable _).2.2.1, by decide, hclean,
    (sanitize_is_stable "forget it").2.2.2 (by decide) hclean⟩

end Stability

end ReviewMentor.Phrase
