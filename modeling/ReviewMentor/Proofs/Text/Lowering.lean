import Mathlib.Data.List.Infix
import ReviewMentor.Proofs.Text.Cutting
import ReviewMentor.Text.Case

/-!
# Lower case on both sides of a slash

Which form a capital sigma takes depends on the letters around it, so a part of a text is not always
lowered as the text is. Nothing is seen through a slash: what stands before it and what stands after
it are lowered each by itself.
-/

namespace ReviewMentor.Text

variable {part cs more before front : List Char} {s t : String} {c : Char}

/-! ### Searching -/

theorem occursIn_iff : occursIn part cs = true ↔ part <:+: cs := by
  induction cs with
  | nil => simp [occursIn]
  | cons c cs ih => simp [occursIn, ih, List.infix_cons_iff]

theorem contains_iff : contains s t = true ↔ t.toList <:+: s.toList := occursIn_iff

/-! ### Lowering -/

theorem not_caseIgnorable_slash : inRanges CaseTable.caseIgnorable ('/').toNat = false := by
  decide +kernel

theorem not_cased_slash : inRanges CaseTable.cased ('/').toNat = false := by
  decide +kernel

theorem nextIsCased_cons_of_ignorable (h : inRanges CaseTable.caseIgnorable c.toNat = true) :
    nextIsCased (c :: cs) = nextIsCased cs := by
  unfold nextIsCased
  rw [List.dropWhile_cons, if_pos h]

theorem nextIsCased_cons_of_not_ignorable
    (h : inRanges CaseTable.caseIgnorable c.toNat = false) :
    nextIsCased (c :: cs) = inRanges CaseTable.cased c.toNat := by
  unfold nextIsCased
  rw [List.dropWhile_cons, if_neg (by simp only [h, Bool.false_eq_true, not_false_iff])]

/-- No letter is seen behind a slash. -/
theorem nextIsCased_append_slash : nextIsCased (cs ++ '/' :: more) = nextIsCased cs := by
  induction cs with
  | nil =>
    rw [List.nil_append, nextIsCased_cons_of_not_ignorable not_caseIgnorable_slash,
      not_cased_slash]
    rfl
  | cons c cs ih =>
    rw [List.cons_append]
    by_cases hc : inRanges CaseTable.caseIgnorable c.toNat = true
    · rw [nextIsCased_cons_of_ignorable hc, nextIsCased_cons_of_ignorable hc, ih]
    · rw [Bool.not_eq_true] at hc
      rw [nextIsCased_cons_of_not_ignorable hc, nextIsCased_cons_of_not_ignorable hc]

/-- What stands before a slash does not count for what follows it. -/
theorem lowerFrom_slash_before : lowerFrom (front ++ '/' :: before) cs = lowerFrom front cs := by
  induction cs generalizing front with
  | nil => rfl
  | cons c cs ih =>
    rw [lowerFrom, lowerFrom, nextIsCased_append_slash, ← List.cons_append, ih]

theorem lowerFrom_append_slash :
    lowerFrom before (cs ++ '/' :: more) = lowerFrom before cs ++ '/' :: lowerFrom [] more := by
  induction cs generalizing before with
  | nil =>
    have hmore : lowerFrom ([] ++ '/' :: before) more = lowerFrom [] more :=
      lowerFrom_slash_before
    have hslash : lowerFrom before ('/' :: more) = '/' :: lowerFrom ('/' :: before) more := rfl
    rw [List.nil_append, hslash, ← List.nil_append ('/' :: before), hmore]
    rfl
  | cons c cs ih =>
    rw [List.cons_append, lowerFrom, lowerFrom, nextIsCased_append_slash, ih, List.append_assoc]

/-- Both sides of a slash are lowered each by itself. -/
theorem lower_append_slash (s t : String) :
    lower (s ++ "/" ++ t) = lower s ++ "/" ++ lower t := by
  rw [← String.toList_inj]
  simp [lower, lowerFrom_append_slash]

end ReviewMentor.Text
