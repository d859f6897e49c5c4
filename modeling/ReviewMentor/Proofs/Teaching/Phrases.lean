import Mathlib.Data.List.Forall2
import Mathlib.Data.List.Infix
import Mathlib.Data.List.TakeWhile
import ReviewMentor.Teaching.Sanitize
import ReviewMentor.Proofs.Text.Trimming

/-!
# What phrases stand for

A phrase stands for a set of texts, and it stands in a text that holds one of them. The search from
the left finds a phrase exactly where it stands. What stands across the border of two texts is told
by what remains of a phrase once its front has been read.
-/

namespace ReviewMentor.Phrase

/-- A text spells a word: letter by letter, in either case. -/
def Spells (letters part : List Char) : Prop :=
  List.Forall₂ (fun letter c => isLetter letter c = true) letters part

/-- A text of blanks only. -/
def IsGap (part : List Char) : Prop :=
  ∀ c ∈ part, Text.isBlank c = true

/-- The texts that a step stands for. -/
def Step.Reads : Step → List Char → Prop
  | .word letters, part => Spells letters part
  | .blanks needed, part => IsGap part ∧ (needed = true → part ≠ [])
  | .maybe letters, part =>
    part = [] ∨ ∃ word gap, part = word ++ gap ∧ Spells letters word ∧ IsGap gap ∧ gap ≠ []
  | .plural letter, part => part = [] ∨ Spells [letter] part

/-- The texts that a phrase stands for. -/
def Reads : List Step → List Char → Prop
  | [], part => part = []
  | step :: steps, part => ∃ first rest, part = first ++ rest ∧ step.Reads first ∧ Reads steps rest

/-- A phrase stands in a text: a piece of the text is one of those that it stands for. -/
def StandsIn (phrase : List Step) (cs : List Char) : Prop :=
  ∃ part, Reads phrase part ∧ part <:+: cs

variable {phrase steps : List Step} {step : Step} {letters part rest before after cs : List Char}

/-! ### Reading a phrase -/

section Reading

@[simp] theorem reads_nil : Reads [] part ↔ part = [] :=
  Iff.rfl

@[simp] theorem reads_single : Reads [step] part ↔ step.Reads part := by
  simp [Reads]

theorem reads_append {first second : List Step} :
    Reads (first ++ second) part ↔
      ∃ front back, part = front ++ back ∧ Reads first front ∧ Reads second back := by
  induction first generalizing part with
  | nil => simp
  | cons step steps ih =>
    simp only [List.cons_append, Reads, ih]
    constructor
    · rintro ⟨head, tail, rfl, hstep, front, back, rfl, hfront, hback⟩
      exact ⟨head ++ front, back, by simp, ⟨head, front, rfl, hstep, hfront⟩, hback⟩
    · rintro ⟨front, back, rfl, ⟨head, tail, rfl, hstep, htail⟩, hback⟩
      exact ⟨head, tail ++ back, by simp, hstep, tail, back, rfl, htail, hback⟩

theorem isGap_append {first second : List Char} :
    IsGap (first ++ second) ↔ IsGap first ∧ IsGap second := by
  simp [IsGap, or_imp, forall_and]

theorem StandsIn.mono (h : StandsIn phrase before) (hcs : before <:+: cs) : StandsIn phrase cs :=
  let ⟨part, hpart, hin⟩ := h
  ⟨part, hpart, hin.trans hcs⟩

end Reading

/-! ### The search reads what a phrase stands for -/

section Soundness

theorem spells_of_afterWord? (h : afterWord? letters cs = some rest) :
    ∃ word, cs = word ++ rest ∧ Spells letters word := by
  induction letters generalizing cs with
  | nil =>
    obtain rfl : cs = rest := by simpa [afterWord?] using h
    exact ⟨[], rfl, .nil⟩
  | cons letter letters ih =>
    cases cs with
    | nil => simp [afterWord?] at h
    | cons c cs =>
      by_cases hc : isLetter letter c = true
      · rw [afterWord?, if_pos hc] at h
        obtain ⟨word, rfl, hword⟩ := ih h
        exact ⟨c :: word, rfl, .cons hc hword⟩
      · simp [afterWord?, hc] at h

theorem isGap_takeWhile (cs : List Char) : IsGap (cs.takeWhile Text.isBlank) :=
  fun _ hc => List.mem_takeWhile_imp hc

theorem gap_of_afterBlanks? {needed : Bool} (h : afterBlanks? needed cs = some rest) :
    ∃ gap, cs = gap ++ rest ∧ IsGap gap ∧ (needed = true → gap ≠ []) := by
  cases cs with
  | nil =>
    cases needed
    · obtain rfl : rest = [] := by simpa [afterBlanks?, eq_comm] using h
      exact ⟨[], rfl, by simp [IsGap], by simp⟩
    · simp [afterBlanks?] at h
  | cons c cs =>
    by_cases hc : (needed && !Text.isBlank c) = true
    · simp [afterBlanks?, hc] at h
    · rw [afterBlanks?, if_neg hc] at h
      obtain rfl : (c :: cs).dropWhile Text.isBlank = rest := by simpa using h
      refine ⟨(c :: cs).takeWhile Text.isBlank, by simp, isGap_takeWhile _, fun hneeded => ?_⟩
      have hblank : Text.isBlank c = true := by simpa [hneeded] using hc
      simp [hblank]

theorem Step.reads_of_after? (h : step.after? cs = some rest) :
    ∃ part, cs = part ++ rest ∧ step.Reads part := by
  cases step with
  | word letters => exact spells_of_afterWord? h
  | blanks needed =>
    obtain ⟨gap, hcs, hgap, hneeded⟩ := gap_of_afterBlanks? h
    exact ⟨gap, hcs, hgap, hneeded⟩
  | maybe letters =>
    simp only [Step.after?] at h
    split at h
    case h_1 left hleft =>
      obtain rfl : left = rest := by simpa using h
      obtain ⟨behind, hword, hgap⟩ := Option.bind_eq_some_iff.mp hleft
      obtain ⟨word, rfl, hspells⟩ := spells_of_afterWord? hword
      obtain ⟨gap, rfl, hblanks, hne⟩ := gap_of_afterBlanks? hgap
      exact ⟨word ++ gap, by simp, .inr ⟨word, gap, rfl, hspells, hblanks, hne rfl⟩⟩
    case h_2 =>
      obtain rfl : cs = rest := by simpa using h
      exact ⟨[], rfl, .inl rfl⟩
  | plural letter =>
    cases cs with
    | nil =>
      obtain rfl : rest = [] := by simpa [Step.after?, eq_comm] using h
      exact ⟨[], rfl, .inl rfl⟩
    | cons c cs =>
      by_cases hc : isLetter letter c = true
      · obtain rfl : cs = rest := by simpa [Step.after?, hc] using h
        exact ⟨[c], rfl, .inr (.cons hc .nil)⟩
      · obtain rfl : c :: cs = rest := by simpa [Step.after?, hc] using h
        exact ⟨[], rfl, .inl rfl⟩

theorem reads_of_after? (h : after? steps cs = some rest) :
    ∃ part, cs = part ++ rest ∧ Reads steps part := by
  induction steps generalizing cs with
  | nil =>
    obtain rfl : cs = rest := by simpa [after?] using h
    exact ⟨[], rfl, rfl⟩
  | cons step steps ih =>
    obtain ⟨behind, hstep, hsteps⟩ := Option.bind_eq_some_iff.mp h
    obtain ⟨first, rfl, hfirst⟩ := Step.reads_of_after? hstep
    obtain ⟨second, rfl, hsecond⟩ := ih hsteps
    exact ⟨first ++ second, by simp, first, second, rfl, hfirst, hsecond⟩

theorem standsIn_of_occurs (h : occurs phrase cs = true) : StandsIn phrase cs := by
  induction cs with
  | nil => simp [occurs] at h
  | cons c cs ih =>
    rcases Bool.or_eq_true _ _ ▸ h with hhere | hlater
    · obtain ⟨rest, hrest⟩ := Option.isSome_iff_exists.mp hhere
      obtain ⟨part, hpart, hreads⟩ := reads_of_after? hrest
      exact ⟨part, hreads, hpart ▸ (List.prefix_append part rest).isInfix⟩
    · exact (ih hlater).mono (List.suffix_cons c cs).isInfix

end Soundness

/-! ### The search finds what a phrase stands for -/

/-- Whether what a phrase stands for begins with a letter that is no blank. -/
def isSolid : List Step → Bool
  | .word (letter :: _) :: _ => !Text.isBlank letter
  | .maybe (letter :: _) :: steps => !Text.isBlank letter && isSolid steps
  | _ => false

/-- Whether no text begins with both of two words. -/
def areApart : List Char → List Char → Bool
  | letter :: _, other :: _ => letter != other && letter != 'ſ' && other != 'ſ'
  | _, _ => false

/-- Whether the text itself tells where each step of a phrase ends. -/
def isClear : List Step → Bool
  | [] => true
  | .word _ :: steps => isClear steps
  | .blanks _ :: steps => (steps.isEmpty || isSolid steps) && isClear steps
  | .maybe letters :: .word other :: steps =>
    areApart letters other && isSolid (.word other :: steps) && isClear (.word other :: steps)
  | .maybe _ :: _ => false
  | .plural _ :: steps => steps.isEmpty

section Completeness

/-- A blank has no other case. -/
theorem toLower_of_isBlank {c : Char} (h : Text.isBlank c = true) : c.toLower = c := by
  unfold Char.toLower
  split
  case isFalse => rfl
  case isTrue hcapital =>
    have hval : c.toNat = c.val.toNat := rfl
    simp only [Text.isBlank, Bool.or_eq_true, Bool.and_eq_true, decide_eq_true_eq,
      beq_iff_eq] at h
    simp only [ge_iff_le, UInt32.le_iff_toNat_le] at hcapital
    simp only [Char.reduceVal, UInt32.reduceToNat] at hcapital
    omega

theorem not_isBlank_of_isLetter {letter c : Char} (h : isLetter letter c = true)
    (hletter : Text.isBlank letter = false) : Text.isBlank c = false := by
  rcases Bool.or_eq_true _ _ ▸ h with hc | hc
  · rw [Bool.eq_false_iff]
    intro hblank
    rw [toLower_of_isBlank hblank, decide_eq_true_eq] at hc
    simp [← hc, hblank] at hletter
  · obtain ⟨-, rfl⟩ : letter = 's' ∧ c = 'ſ' := by simpa using hc
    decide

theorem exists_of_isSolid (h : isSolid steps = true) (hpart : Reads steps part) :
    ∃ c behind, part = c :: behind ∧ Text.isBlank c = false := by
  induction steps generalizing part with
  | nil => simp [isSolid] at h
  | cons step steps ih =>
    obtain ⟨first, second, rfl, hfirst, hsecond⟩ := hpart
    match step, h, hfirst with
    | .word (letter :: letters), h, hfirst =>
      obtain ⟨c, word, hc, hword, rfl⟩ := List.forall₂_cons_left_iff.mp hfirst
      exact ⟨c, word ++ second, rfl, not_isBlank_of_isLetter hc (by simpa [isSolid] using h)⟩
    | .maybe (letter :: letters), h, hfirst =>
      simp only [isSolid, Bool.and_eq_true, Bool.not_eq_true'] at h
      rcases hfirst with rfl | ⟨word, gap, rfl, hword, -, -⟩
      · exact ih h.2 hsecond
      · obtain ⟨c, word, hc, hword, rfl⟩ := List.forall₂_cons_left_iff.mp hword
        exact ⟨c, word ++ gap ++ second, rfl, not_isBlank_of_isLetter hc h.1⟩

theorem afterWord?_of_spells (h : Spells letters part) (rest : List Char) :
    afterWord? letters (part ++ rest) = some rest := by
  induction h with
  | nil => rfl
  | cons hc _ ih => simpa [afterWord?, hc] using ih

/-- A letter of one word is no letter that the other begins with. -/
theorem not_isLetter_of_ne {letter other c : Char} (hne : letter ≠ other) (hletter : letter ≠ 'ſ')
    (hother : other ≠ 'ſ') (hc : isLetter other c = true) : isLetter letter c = false := by
  have hlong : 'ſ'.toLower = 'ſ' := by decide
  simp only [isLetter, Bool.or_eq_true, Bool.and_eq_true, decide_eq_true_eq] at hc
  simp only [isLetter, Bool.or_eq_false_iff, Bool.and_eq_false_iff, decide_eq_false_iff_not]
  rcases hc with rfl | ⟨rfl, rfl⟩
  · exact ⟨hne.symm, .inr (by rintro rfl; exact hother hlong)⟩
  · exact ⟨by rw [hlong]; exact hletter.symm, .inl hne⟩

/-- What is spelt like another word has nothing of a word. -/
theorem afterWord?_of_areApart {other : List Char} (hapart : areApart letters other = true)
    (h : Spells other part) (rest : List Char) : afterWord? letters (part ++ rest) = none := by
  match letters, other, hapart with
  | letter :: letters, first :: other, hapart =>
    obtain ⟨c, word, hc, -, rfl⟩ := List.forall₂_cons_left_iff.mp h
    simp only [areApart, Bool.and_eq_true, bne_iff_ne] at hapart
    have hno : isLetter letter c = false :=
      not_isLetter_of_ne hapart.1.1 hapart.1.2 hapart.2 hc
    simp [afterWord?, hno]

theorem dropWhile_gap {gap : List Char} {c : Char} (h : IsGap gap) (hc : Text.isBlank c = false)
    (rest : List Char) : (gap ++ c :: rest).dropWhile Text.isBlank = c :: rest :=
  Text.dropWhile_run h (by simpa using hc)

/-- Blanks before a letter end at that letter. -/
theorem afterBlanks?_of_isGap {gap : List Char} {needed : Bool} {c : Char} (h : IsGap gap)
    (hneeded : needed = true → gap ≠ []) (hc : Text.isBlank c = false) (rest : List Char) :
    afterBlanks? needed (gap ++ c :: rest) = some (c :: rest) := by
  have hdrop := dropWhile_gap h hc rest
  cases gap with
  | nil =>
    cases needed
    · simpa [afterBlanks?] using hdrop
    · exact absurd rfl (hneeded rfl)
  | cons blank gap =>
    have hblank : Text.isBlank blank = true := h blank List.mem_cons_self
    simpa [afterBlanks?, hblank] using hdrop

/-- Blanks at the end of a phrase are found, however many there are. -/
theorem afterBlanks?_ne_none {gap : List Char} {needed : Bool} (h : IsGap gap)
    (hneeded : needed = true → gap ≠ []) (rest : List Char) :
    ∃ left, afterBlanks? needed (gap ++ rest) = some left := by
  cases gap with
  | nil =>
    cases needed
    · cases rest <;> simp [afterBlanks?]
    · exact absurd rfl (hneeded rfl)
  | cons blank gap =>
    have hblank : Text.isBlank blank = true := h blank List.mem_cons_self
    simp [afterBlanks?, hblank]

/-- What a clear phrase stands for is found, whatever follows it. -/
theorem after?_of_reads (hclear : isClear steps = true) (h : Reads steps part)
    (rest : List Char) : ∃ left, after? steps (part ++ rest) = some left := by
  induction steps using isClear.induct generalizing part with
  | case1 => exact ⟨part ++ rest, rfl⟩
  | case2 letters steps ih =>
    obtain ⟨first, second, rfl, hfirst, hsecond⟩ := h
    obtain ⟨left, hleft⟩ := ih hclear hsecond
    refine ⟨left, ?_⟩
    rw [List.append_assoc, after?, Step.after?, afterWord?_of_spells hfirst]
    exact hleft
  | case3 needed steps ih =>
    obtain ⟨gap, second, rfl, ⟨hgap, hneeded⟩, hsecond⟩ := h
    simp only [isClear, Bool.and_eq_true, Bool.or_eq_true, List.isEmpty_iff] at hclear
    rcases hclear.1 with rfl | hsolid
    · obtain rfl : second = [] := hsecond
      obtain ⟨left, hleft⟩ := afterBlanks?_ne_none hgap hneeded rest
      exact ⟨left, by simp [after?, Step.after?, hleft]⟩
    · obtain ⟨c, behind, rfl, hc⟩ := exists_of_isSolid hsolid hsecond
      obtain ⟨left, hleft⟩ := ih hclear.2 hsecond
      refine ⟨left, ?_⟩
      rw [List.append_assoc, List.cons_append, after?, Step.after?,
        afterBlanks?_of_isGap hgap hneeded hc]
      exact hleft
  | case4 letters other steps ih =>
    obtain ⟨first, second, rfl, hfirst, hsecond⟩ := h
    simp only [isClear, Bool.and_eq_true] at hclear
    obtain ⟨left, hleft⟩ := ih hclear.2 hsecond
    refine ⟨left, ?_⟩
    rcases hfirst with rfl | ⟨word, gap, rfl, hword, hgap, hne⟩
    · obtain ⟨front, back, rfl, hfront, -⟩ := hsecond
      have hnone := afterWord?_of_areApart hclear.1.1 hfront (back ++ rest)
      rw [← List.append_assoc] at hnone
      rw [List.nil_append, after?, Step.after?, hnone]
      exact hleft
    · obtain ⟨c, behind, rfl, hc⟩ := exists_of_isSolid hclear.1.2 hsecond
      have hsome : (afterWord? letters (word ++ (gap ++ c :: (behind ++ rest)))).bind
          (afterBlanks? true) = some (c :: (behind ++ rest)) := by
        rw [afterWord?_of_spells hword, Option.bind_some,
          afterBlanks?_of_isGap hgap (fun _ => hne) hc]
      simp only [List.append_assoc, List.cons_append]
      rw [after?, Step.after?, hsome]
      exact hleft
  | case5 letters steps hno => simp [isClear] at hclear
  | case6 letter steps =>
    obtain ⟨first, second, rfl, hfirst, hsecond⟩ := h
    obtain rfl : steps = [] := by simpa [isClear] using hclear
    cases hcs : first ++ second ++ rest with
    | nil => exact ⟨[], rfl⟩
    | cons c cs => exact ⟨_, rfl⟩

theorem occurs_of_suffix {suffix : List Char} (h : occurs phrase suffix = true)
    (hcs : suffix <:+ cs) : occurs phrase cs = true := by
  obtain ⟨front, rfl⟩ := hcs
  induction front with
  | nil => exact h
  | cons c front ih => simp [occurs, ih]

/-- **The search finds a phrase exactly where it stands.** -/
theorem occurs_iff_standsIn (hclear : isClear phrase = true) (hsolid : isSolid phrase = true) :
    occurs phrase cs = true ↔ StandsIn phrase cs := by
  refine ⟨standsIn_of_occurs, fun ⟨part, hpart, front, back, hcs⟩ => ?_⟩
  obtain ⟨c, behind, rfl, -⟩ := exists_of_isSolid hsolid hpart
  obtain ⟨left, hleft⟩ := after?_of_reads hclear hpart back
  have hhere : occurs phrase (c :: behind ++ back) = true := by
    rw [List.cons_append] at hleft ⊢
    simp [occurs, hleft]
  exact occurs_of_suffix hhere ⟨front, by rw [← hcs, List.append_assoc]⟩

end Completeness

end ReviewMentor.Phrase
