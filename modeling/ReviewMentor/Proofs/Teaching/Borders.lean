import ReviewMentor.Proofs.Teaching.Phrases

/-!
# Phrases across borders

Two texts that are joined may hold a phrase that neither holds alone: its front ends the first, its
back begins the second. A text on which no phrase goes on, and a text after which no phrase that
began in it goes on, keep the phrases of both sides apart. Both can be checked on a few fixed
characters, whatever stands beyond them.
-/

namespace ReviewMentor.Phrase

variable {phrase steps : List Step} {step : Step} {part rest before after cs : List Char} {c : Char}

/-- Phrases that have begun before a text end before it. -/
def StopsAt (phrase : List Step) (after : List Char) : Prop :=
  ∀ before part, Reads phrase (before ++ part) → part <+: after → Reads phrase before

/-- Phrases that go on behind a text begin behind it. -/
def StartsAfter (phrase : List Step) (before : List Char) : Prop :=
  ∀ part after, Reads phrase (part ++ after) → part <:+ before → Reads phrase after

section Joining

/-- A piece of two joined texts is a piece of one, or has its front in the first. -/
theorem infix_append_cases (h : part <:+: before ++ after) :
    part <:+: before ∨ part <:+: after ∨
      ∃ front back, part = front ++ back ∧ front <:+ before ∧ back <+: after := by
  obtain ⟨left, right, h⟩ := h
  rw [List.append_assoc] at h
  rcases List.append_eq_append_iff.mp h with ⟨gap, rfl, hpart⟩ | ⟨gap, rfl, hafter⟩
  · rcases List.append_eq_append_iff.mp hpart with ⟨tail, rfl, -⟩ | ⟨back, rfl, rfl⟩
    · exact .inl ⟨left, tail, by simp⟩
    · exact .inr (.inr ⟨gap, back, rfl, List.suffix_append _ _, List.prefix_append _ _⟩)
  · exact .inr (.inl ⟨gap, right, by simp [hafter]⟩)

theorem standsIn_append_left (after : List Char) (h : StandsIn phrase before) :
    StandsIn phrase (before ++ after) :=
  h.mono (List.prefix_append before after).isInfix

theorem standsIn_append_right (before : List Char) (h : StandsIn phrase after) :
    StandsIn phrase (before ++ after) :=
  h.mono (List.suffix_append before after).isInfix

/-- A phrase in two joined texts stands in one of them, if phrases stop at the second. -/
theorem StopsAt.standsIn_append (h : StopsAt phrase after) :
    StandsIn phrase (before ++ after) ↔ StandsIn phrase before ∨ StandsIn phrase after := by
  constructor
  · rintro ⟨part, hpart, hin⟩
    rcases infix_append_cases hin with hin | hin | ⟨front, back, rfl, hfront, hback⟩
    · exact .inl ⟨part, hpart, hin⟩
    · exact .inr ⟨part, hpart, hin⟩
    · exact .inl ⟨front, h front back hpart hback, hfront.isInfix⟩
  · rintro (hleft | hright)
    · exact standsIn_append_left after hleft
    · exact standsIn_append_right before hright

/-- A phrase in two joined texts stands in one of them, if phrases start after the first. -/
theorem StartsAfter.standsIn_append (h : StartsAfter phrase before) :
    StandsIn phrase (before ++ after) ↔ StandsIn phrase before ∨ StandsIn phrase after := by
  constructor
  · rintro ⟨part, hpart, hin⟩
    rcases infix_append_cases hin with hin | hin | ⟨front, back, rfl, hfront, hback⟩
    · exact .inl ⟨part, hpart, hin⟩
    · exact .inr ⟨part, hpart, hin⟩
    · exact .inr ⟨back, h front back hpart hfront, hback.isInfix⟩
  · rintro (hleft | hright)
    · exact standsIn_append_left after hleft
    · exact standsIn_append_right before hright

end Joining

/-! ### Characters that no phrase holds -/

/-- The letters of a step. -/
def Step.letters : Step → List Char
  | .word letters => letters
  | .blanks _ => []
  | .maybe letters => letters
  | .plural letter => [letter]

/-- Whether a character is neither a blank nor a letter of a phrase. -/
def isForeign (phrase : List Step) (c : Char) : Bool :=
  !Text.isBlank c && phrase.all fun step => step.letters.all fun letter => !isLetter letter c

section Foreign

theorem exists_letter_of_mem {letters : List Char} (h : Spells letters part) (hc : c ∈ part) :
    ∃ letter ∈ letters, isLetter letter c = true := by
  induction h with
  | nil => simp at hc
  | cons hfirst _ ih =>
    rcases List.mem_cons.mp hc with rfl | hc
    · exact ⟨_, List.mem_cons_self, hfirst⟩
    · obtain ⟨letter, hletter, his⟩ := ih hc
      exact ⟨letter, List.mem_cons_of_mem _ hletter, his⟩

theorem Step.blank_or_letter (h : step.Reads part) (hc : c ∈ part) :
    Text.isBlank c = true ∨ ∃ letter ∈ step.letters, isLetter letter c = true := by
  cases step with
  | word letters => exact .inr (exists_letter_of_mem h hc)
  | blanks needed => exact .inl (h.1 c hc)
  | maybe letters =>
    rcases h with rfl | ⟨word, gap, rfl, hword, hgap, -⟩
    · simp at hc
    · rcases List.mem_append.mp hc with hc | hc
      · exact .inr (exists_letter_of_mem hword hc)
      · exact .inl (hgap c hc)
  | plural letter =>
    rcases h with rfl | h
    · simp at hc
    · exact .inr (exists_letter_of_mem h hc)

/-- No text that a phrase stands for holds a foreign character. -/
theorem not_mem_of_isForeign (hc : isForeign phrase c = true) (h : Reads phrase part) :
    c ∉ part := by
  induction phrase generalizing part with
  | nil => simp [reads_nil.mp h]
  | cons step steps ih =>
    obtain ⟨first, second, rfl, hfirst, hsecond⟩ := h
    simp only [isForeign, Bool.and_eq_true, List.all_cons, Bool.not_eq_true'] at hc
    have hrest : c ∉ second := ih (by simp [isForeign, hc.1, hc.2.2]) hsecond
    intro hmem
    rcases List.mem_append.mp hmem with hmem | hmem
    · rcases Step.blank_or_letter hfirst hmem with hblank | ⟨letter, hletter, his⟩
      · simp [hblank] at hc
      · have := List.all_eq_true.mp hc.2.1 letter hletter
        simp [his] at this
    · exact hrest hmem

theorem stopsAt_of_isForeign (hc : isForeign phrase c = true) (rest : List Char) :
    StopsAt phrase (c :: rest) := by
  intro before part h hpart
  cases part with
  | nil => simpa using h
  | cons first part =>
    obtain ⟨rfl, -⟩ := List.cons_prefix_cons.mp hpart
    exact absurd (by simp) (not_mem_of_isForeign hc h)

theorem startsAfter_of_isForeign (hc : isForeign phrase c = true) (before : List Char) :
    StartsAfter phrase (before ++ [c]) := by
  intro part after h hpart
  rcases List.suffix_concat_iff.mp hpart with rfl | ⟨front, rfl, -⟩
  · simpa using h
  · exact absurd (by simp) (not_mem_of_isForeign hc h)

theorem not_standsIn_of_forall (h : ∀ c ∈ cs, isForeign phrase c = true)
    (hphrase : ∀ part, Reads phrase part → part ≠ []) : ¬ StandsIn phrase cs := by
  rintro ⟨part, hpart, hin⟩
  obtain ⟨c, hc⟩ := List.exists_mem_of_ne_nil part (hphrase part hpart)
  exact not_mem_of_isForeign (h c (hin.subset hc)) hpart hc

end Foreign

/-! ### What remains of a phrase -/

/-- What may remain of a step once a part has been read. -/
def Step.remainders : Step → List (List Step)
  | .word letters => letters.tails.map fun tail => [.word tail]
  | .blanks needed => [[.blanks needed], [.blanks false]]
  | .maybe letters =>
    [.maybe letters] :: [.blanks true] :: [.blanks false] ::
      letters.tails.map fun tail => [.word tail, .blanks true]
  | .plural letter => [[.plural letter], []]

/-- What may remain of a phrase once a part has been read. -/
def remainders : List Step → List (List Step)
  | [] => [[]]
  | step :: steps => step.remainders.map (· ++ steps) ++ remainders steps

/-- Whether what remains of a phrase, wherever it is cut, finds nothing in a text or needs nothing
of it. -/
def isStop (phrase : List Step) (label : List Char) : Bool :=
  (remainders phrase).all fun rest =>
    isClear rest && ((after? rest label).isNone || (after? rest []).isSome)

section Remainders

theorem Spells.split {letters : List Char} (h : Spells letters (before ++ part)) :
    ∃ front tail, letters = front ++ tail ∧ Spells front before ∧ Spells tail part :=
  ⟨letters.take before.length, letters.drop before.length, by simp,
    List.forall₂_take_append letters before part h, List.forall₂_drop_append letters before part h⟩

theorem Spells.append {front tail : List Char} (h : Spells front before) (h' : Spells tail part) :
    Spells (front ++ tail) (before ++ part) :=
  List.rel_append h h'

/-- A word that is cut leaves the rest of its letters. -/
theorem exists_remainder_word {letters : List Char} (h : Spells letters (before ++ part)) :
    ∃ tail ∈ letters.tails, Spells tail part ∧
      ∀ more, Spells tail more → Spells letters (before ++ more) := by
  obtain ⟨front, tail, rfl, hfront, htail⟩ := h.split
  exact ⟨tail, by simp, htail, fun more hmore => hfront.append hmore⟩

/-- A word and blanks that are cut leave letters and blanks, or blanks alone. -/
theorem exists_remainder_maybe {letters : List Char}
    (h : Step.Reads (.maybe letters) (before ++ part)) (hne : before ++ part ≠ []) :
    ∃ rest ∈ (Step.maybe letters).remainders, Reads rest part ∧
      ∀ more, Reads rest more → Step.Reads (.maybe letters) (before ++ more) := by
  obtain ⟨word, gap, heq, hword, hgap, hgapne⟩ := h.resolve_left hne
  rcases List.append_eq_append_iff.mp heq with ⟨tail, rfl, rfl⟩ | ⟨front, rfl, rfl⟩
  · -- The cut is in the word, or right behind it.
    obtain ⟨left, hleft, htail, hmore⟩ := exists_remainder_word hword
    refine ⟨[.word left, .blanks true], ?_, ?_, ?_⟩
    · simpa [Step.remainders] using hleft
    · exact ⟨tail, gap, rfl, htail, reads_single.mpr ⟨hgap, fun _ => hgapne⟩⟩
    · rintro more ⟨word', gap', rfl, hword', hgap'⟩
      obtain ⟨hblanks, hneeded⟩ := reads_single.mp hgap'
      exact .inr ⟨before ++ word', gap', by simp, hmore word' hword', hblanks, hneeded rfl⟩
  · -- The cut is in the blanks, or right before them.
    obtain ⟨hfront, hpart⟩ := isGap_append.mp hgap
    refine ⟨[.blanks front.isEmpty], ?_, reads_single.mpr ⟨hpart, fun hempty => ?_⟩,
      fun more hmore => ?_⟩
    · cases front.isEmpty <;> simp [Step.remainders]
    · simpa [List.isEmpty_iff.mp hempty] using hgapne
    · obtain ⟨hblanks, hneeded⟩ := reads_single.mp hmore
      refine .inr ⟨word, front ++ more, by simp, hword, isGap_append.mpr ⟨hfront, hblanks⟩, ?_⟩
      cases front with
      | nil => exact hneeded rfl
      | cons blank front => simp

theorem Step.exists_remainder (h : step.Reads (before ++ part)) :
    ∃ rest ∈ step.remainders, Phrase.Reads rest part ∧
      ∀ more, Phrase.Reads rest more → step.Reads (before ++ more) := by
  by_cases hbefore : before = []
  · subst hbefore
    exact ⟨[step], by cases step <;> simp [Step.remainders], reads_single.mpr h,
      fun more hmore => reads_single.mp hmore⟩
  · have hne : before ++ part ≠ [] := by simp [hbefore]
    cases step with
    | word letters =>
      obtain ⟨tail, htail, hpart, hmore⟩ := exists_remainder_word h
      exact ⟨[.word tail], List.mem_map.mpr ⟨tail, htail, rfl⟩, reads_single.mpr hpart,
        fun more hreads => hmore more (reads_single.mp hreads)⟩
    | blanks needed =>
      obtain ⟨hfront, hpart⟩ := isGap_append.mp h.1
      refine ⟨[.blanks false], by simp [Step.remainders], reads_single.mpr ⟨hpart, by simp⟩,
        fun more hmore => ?_⟩
      exact ⟨isGap_append.mpr ⟨hfront, (reads_single.mp hmore).1⟩, fun _ => by simp [hbefore]⟩
    | maybe letters => exact exists_remainder_maybe h hne
    | plural letter =>
      obtain ⟨c, tail, -, htail, heq⟩ := List.forall₂_cons_left_iff.mp (h.resolve_left hne)
      obtain rfl : tail = [] := List.forall₂_nil_left_iff.mp htail
      obtain ⟨first, before, rfl⟩ := List.exists_cons_of_ne_nil hbefore
      obtain ⟨rfl, hnil⟩ := List.cons.inj heq
      obtain ⟨rfl, rfl⟩ := List.append_eq_nil_iff.mp hnil
      refine ⟨[], by simp [Step.remainders], rfl, fun more hmore => ?_⟩
      rw [reads_nil.mp hmore]
      exact h

/-- What a part of a phrase leaves to be read is one of its remainders. -/
theorem exists_remainder (h : Reads phrase (before ++ part)) :
    ∃ rest ∈ remainders phrase, Reads rest part ∧
      ∀ more, Reads rest more → Reads phrase (before ++ more) := by
  induction phrase generalizing before with
  | nil =>
    obtain ⟨rfl, rfl⟩ := List.append_eq_nil_iff.mp h
    exact ⟨[], by simp [remainders], rfl, fun more hmore => hmore⟩
  | cons step steps ih =>
    obtain ⟨first, second, heq, hfirst, hsecond⟩ := h
    rcases List.append_eq_append_iff.mp heq with ⟨tail, rfl, rfl⟩ | ⟨front, rfl, rfl⟩
    · -- The cut is in what the first step reads.
      obtain ⟨rest, hrest, htail, hmore⟩ := Step.exists_remainder hfirst
      refine ⟨rest ++ steps, by simpa [remainders] using .inl hrest,
        reads_append.mpr ⟨tail, second, rfl, htail, hsecond⟩, fun more h => ?_⟩
      obtain ⟨head, back, rfl, hhead, hback⟩ := reads_append.mp h
      exact ⟨before ++ head, back, by simp, hmore head hhead, hback⟩
    · -- The cut is behind it.
      obtain ⟨rest, hrest, hpart, hmore⟩ := ih hsecond
      refine ⟨rest, by simp [remainders, hrest], hpart, fun more h => ?_⟩
      exact ⟨first, front ++ more, by simp, hfirst, hmore more h⟩

/-- A prefix that does not reach a character is one of what stands before it. -/
theorem prefix_of_not_mem (h : part <+: before ++ c :: after) (hc : c ∉ part) :
    part <+: before := by
  rcases List.prefix_or_prefix_of_prefix h (List.prefix_append before (c :: after)) with h' | h'
  · exact h'
  · obtain ⟨tail, rfl⟩ := h'
    cases tail with
    | nil => simp
    | cons d tail =>
      obtain ⟨rfl, -⟩ := List.cons_prefix_cons.mp ((List.prefix_append_right_inj before).mp h)
      exact absurd (by simp) hc

/-- **A few fixed characters that end with a foreign one stop a phrase, whatever follows.** -/
theorem stopsAt_of_isStop (h : isStop phrase before = true) (hc : isForeign phrase c = true)
    (rest : List Char) : StopsAt phrase (before ++ c :: rest) := by
  intro begun part hreads hpart
  have hnot : c ∉ part := fun hmem =>
    not_mem_of_isForeign hc hreads (List.mem_append_right begun hmem)
  obtain ⟨more, rfl⟩ := prefix_of_not_mem hpart hnot
  obtain ⟨left, hleft, hread, hends⟩ := exists_remainder hreads
  have hchecked := List.all_eq_true.mp h left hleft
  rw [Bool.and_eq_true, Bool.or_eq_true] at hchecked
  obtain ⟨found, hfound⟩ := after?_of_reads hchecked.1 hread more
  have hempty : (after? left []).isSome := hchecked.2.resolve_left (by simp [hfound])
  obtain ⟨none, hnone⟩ := Option.isSome_iff_exists.mp hempty
  obtain ⟨nothing, hnothing, hnil⟩ := reads_of_after? hnone
  obtain ⟨rfl, rfl⟩ := List.append_eq_nil_iff.mp hnothing.symm
  simpa using hends [] hnil

end Remainders

/-! ### Labels that begin no phrase -/

/-- Whether a text goes on like a word, as far as both reach. -/
def agrees : List Char → List Char → Bool
  | letter :: letters, c :: cs => isLetter letter c && agrees letters cs
  | _, _ => true

/-- Whether the text may begin with the first word of a phrase. -/
def mayBegin : List Step → List Char → Bool
  | .word letters :: _, cs => agrees letters cs
  | _, _ => true

/-- Whether no phrase that goes on behind a label begins in it. -/
def isLabel (phrase : List Step) (label : List Char) : Bool :=
  label.tails.all fun tail => tail.isEmpty || !mayBegin phrase tail

section Labels

theorem agrees_of_spells {letters word : List Char} (h : Spells letters word)
    (heq : before ++ after = word ++ rest) : agrees letters before = true := by
  induction h generalizing before with
  | nil => simp [agrees]
  | cons hc _ ih =>
    cases before with
    | nil => rfl
    | cons first before =>
      obtain ⟨rfl, hrest⟩ := List.cons.inj heq
      simp [agrees, hc, ih hrest]

theorem mayBegin_of_reads (h : Reads phrase (before ++ after)) : mayBegin phrase before = true := by
  match phrase, h with
  | .word letters :: steps, ⟨word, rest, heq, hword, _⟩ => exact agrees_of_spells hword heq
  | [], _ | .blanks _ :: _, _ | .maybe _ :: _, _ | .plural _ :: _, _ => rfl

theorem startsAfter_of_isLabel (h : isLabel phrase before = true) : StartsAfter phrase before := by
  intro part after hreads hpart
  have hchecked := List.all_eq_true.mp h part ((List.mem_tails part before).mpr hpart)
  rw [mayBegin_of_reads hreads, Bool.not_true, Bool.or_false, List.isEmpty_iff] at hchecked
  simpa [hchecked] using hreads

end Labels

end ReviewMentor.Phrase
