import Mathlib.Data.List.Count
import Mathlib.Data.List.Induction
import Mathlib.Data.List.TakeWhile
import ReviewMentor.Learner.Profile
import ReviewMentor.Proofs.Sorted
import ReviewMentor.Proofs.Text.Trimming

/-!
# The history of a profile

A fresh profile that went through some edits says exactly what these edits were: how often each rule
was met, which rules were met too often, what was earned, and what was said. As long as there are
not too many edits, no counter goes round.
-/

namespace ReviewMentor

/-! ### First words -/

namespace Text

/-- A word with nothing but blanks before it and no character that belongs to it after it. -/
def StartsWithWord (s word : String) : Prop :=
  ∃ before after, s.toList = before ++ word.toList ++ after ∧ (∀ c ∈ before, isBlank c = true) ∧
    word ≠ "" ∧ (∀ c ∈ word.toList, isBlank c = false) ∧ ∀ c ∈ after.head?, isBlank c = true

theorem firstWord?_eq_some {s word : String} :
    firstWord? s = some word ↔ StartsWithWord s word := by
  constructor
  · intro h
    unfold firstWord? at h
    generalize hrest : s.toList.dropWhile isBlank = rest at h
    split at h
    · exact absurd h (by simp)
    next hword =>
    obtain rfl := Option.some.inj h
    refine ⟨s.toList.takeWhile isBlank, rest.dropWhile fun c => !isBlank c, ?_,
      fun c hc => List.mem_takeWhile_imp hc, ?_, fun c hc => ?_, fun c hc => ?_⟩
    · rw [String.toList_ofList, List.append_assoc, List.takeWhile_append_dropWhile, ← hrest,
        List.takeWhile_append_dropWhile]
    · intro hempty
      exact hword (String.ofList_eq_empty_iff.mp hempty)
    · rw [String.toList_ofList] at hc
      simpa using List.mem_takeWhile_imp hc
    · simpa using head?_dropWhile (fun c => !isBlank c) rest c hc
  · rintro ⟨before, after, hs, hbefore, hne, hword, hafter⟩
    have hskip : s.toList.dropWhile isBlank = word.toList ++ after := by
      rw [hs, List.append_assoc, List.dropWhile_append_of_pos hbefore]
      rcases hlist : word.toList with _ | ⟨c, rest⟩
      · exact absurd (String.toList_eq_nil_iff.mp hlist) hne
      · have hc : isBlank c = false := hword c (by simp [hlist])
        simp [hc]
    have htake : (word.toList ++ after).takeWhile (fun c => !isBlank c) = word.toList :=
      takeWhile_run (by simpa using hword) (by simpa using hafter)
    unfold firstWord?
    rw [hskip, htake]
    split
    · next hempty => exact absurd (String.toList_eq_nil_iff.mp hempty) hne
    · rw [String.ofList_toList]

end Text

/-! ### What a history says -/

/-- How often a history meets a rule. -/
def sightings (code : String) (edits : List ProfileEdit) : Nat := edits.count (.recordIssue code)

namespace ProfileEdit

/-- What a learner at a level earns for saying whether an explanation helped. -/
def thanks (helpful : Bool) (level : Level) : Int :=
  match helpful, level with
  | true, .beginner => 5
  | true, .intermediate => 3
  | false, .intermediate => -2
  | _, _ => 0

/-- What an edit adds to the points of a learner at a level. -/
def worth (level : Level) : ProfileEdit → Int
  | .quiz score _ => score * 10
  | .adjust helpful => thanks helpful level
  | .feedback entry => thanks entry.helpful level
  | _ => 0

/-- Where a learner at a level stands after saying whether an explanation helped. -/
def heard (helpful : Bool) (level : Level) : Level :=
  if helpful = false ∧ level = .advanced then .intermediate else level

/-- Where an edit takes a learner who is at a level. -/
def levelAfter (level : Level) : ProfileEdit → Level
  | .quiz _ next => next
  | .setLevel next => next
  | .adjust helpful => heard helpful level
  | .feedback entry => heard entry.helpful level
  | _ => level

/-- What is said by an edit. -/
def said? : ProfileEdit → Option Feedback
  | .feedback entry => some entry
  | _ => none

/-- Edits that only say whether an explanation helped. -/
def IsFeedback : ProfileEdit → Prop
  | .adjust _ => True
  | .feedback _ => True
  | _ => False

/-- The score of a quiz has 32 bits. -/
def Scored : ProfileEdit → Prop
  | .quiz score _ => score < 2 ^ 32
  | _ => True

end ProfileEdit

/-- The sum of what a history is worth, each edit at the level the learner has at that moment. -/
def earned (level : Level) : List ProfileEdit → Int
  | [] => 0
  | e :: rest => e.worth level + earned (e.levelAfter level) rest

namespace Profile

/-- The profile after some edits. -/
def edited (p : Profile) (edits : List ProfileEdit) : Profile := edits.foldl edit p

/-- The profile says what a history says. -/
structure Tells (p : Profile) (edits : List ProfileEdit) : Prop where
  level : p.level = edits.foldl ProfileEdit.levelAfter Level.default
  concepts : ∀ concept, concept ∈ p.concepts ↔ .addConcept concept ∈ edits
  /-- Each rule stands in the map once, in order. -/
  ordered : Ordered.Sorted (Ordered.keys p.seen)
  seen : ∀ code, p.seen.lookup code =
    if sightings code edits = 0 then none else some (sightings code edits)
  weakAreas : ∀ word, word ∈ p.weakAreas ↔
    ∃ code, 3 < sightings code edits ∧ Text.StartsWithWord code word
  achievements : ∀ name, name ∈ p.achievements ↔
    (name = "quick_learner" ∧ ∃ score level, 80 < score ∧ .quiz score level ∈ edits) ∨
    (name = "code_master" ∧ ∃ score, .quiz score .advanced ∈ edits)
  quizDone : p.quizDone = true ↔ ∃ score level, .quiz score level ∈ edits
  feedback : p.feedback = edits.filterMap ProfileEdit.said?
  points : p.points = earned Level.default edits

/-- After an edit neither a counter nor the points have gone round. -/
structure HasRoomFor (p : Profile) (e : ProfileEdit) : Prop where
  count : ∀ code, e = .recordIssue code → (p.seen.lookup code).getD 0 + 1 < 2 ^ 32
  least : -2 ^ 63 ≤ p.points + e.worth p.level
  most : p.points + e.worth p.level < 2 ^ 63

/-- What feedback leaves as it is: the level does not rise, and nobody who left the first level
falls back to it; nothing that was learnt, met or achieved is taken away. -/
structure OnlyHeard (p q : Profile) : Prop where
  notRaised : q.level.rank ≤ p.level.rank
  notBelow : min p.level.rank Level.intermediate.rank ≤ q.level.rank
  concepts : q.concepts = p.concepts
  weakAreas : q.weakAreas = p.weakAreas
  seen : q.seen = p.seen
  achievements : q.achievements = p.achievements
  quizDone : q.quizDone = p.quizDone
  feedback : p.feedback <+: q.feedback

end Profile

/-! ### One edit -/

namespace Profile

variable {p : Profile} {e : ProfileEdit} {edits : List ProfileEdit} {helpful : Bool}

theorem bmod_points {n : Int} (hleast : -2 ^ 63 ≤ n) (hmost : n < 2 ^ 63) :
    n.bmod (2 ^ 64) = n :=
  Int.bmod_eq_of_le (by omega) (by omega)

theorem adjust_eq (hleast : -2 ^ 63 ≤ p.points + ProfileEdit.thanks helpful p.level)
    (hmost : p.points + ProfileEdit.thanks helpful p.level < 2 ^ 63) :
    p.adjust helpful = { p with
      level := ProfileEdit.heard helpful p.level
      points := p.points + ProfileEdit.thanks helpful p.level } := by
  have hround := bmod_points hleast hmost
  obtain ⟨user, level, concepts, weakAreas, seen, points, achievements, quizDone, feedback⟩ := p
  cases helpful <;> cases level <;>
    simp_all [adjust, addPoints, ProfileEdit.thanks, ProfileEdit.heard]

theorem HasRoomFor.edit_adjust (h : p.HasRoomFor (.adjust helpful)) :
    p.edit (.adjust helpful) = { p with
      level := ProfileEdit.heard helpful p.level
      points := p.points + ProfileEdit.thanks helpful p.level } :=
  adjust_eq h.least h.most

theorem HasRoomFor.edit_feedback {entry : Feedback} (h : p.HasRoomFor (.feedback entry)) :
    p.edit (.feedback entry) = { p with
      level := ProfileEdit.heard entry.helpful p.level
      points := p.points + ProfileEdit.thanks entry.helpful p.level
      feedback := p.feedback ++ [entry] } :=
  adjust_eq h.least h.most

theorem HasRoomFor.edit_recordIssue {code : String} (h : p.HasRoomFor (.recordIssue code)) :
    p.edit (.recordIssue code) = { p with
      seen := Ordered.put code ((p.seen.lookup code).getD 0 + 1) p.seen
      weakAreas :=
        match if 3 < (p.seen.lookup code).getD 0 + 1 then Text.firstWord? code else none with
        | some base => Ordered.insert base p.weakAreas
        | none => p.weakAreas } := by
  rw [edit, recordIssue, bumped, Nat.mod_eq_of_lt (h.count code rfl)]
  rfl

variable (hroom : p.HasRoomFor e)
include hroom

theorem edit_level : (p.edit e).level = e.levelAfter p.level := by
  cases e with
  | adjust helpful => rw [hroom.edit_adjust, ProfileEdit.levelAfter]
  | feedback entry => rw [hroom.edit_feedback, ProfileEdit.levelAfter]
  | _ => rfl

theorem edit_points : (p.edit e).points = p.points + e.worth p.level := by
  cases e with
  | quiz score level => exact bmod_points hroom.least hroom.most
  | adjust helpful => rw [hroom.edit_adjust, ProfileEdit.worth]
  | feedback entry => rw [hroom.edit_feedback, ProfileEdit.worth]
  | _ => exact (Int.add_zero _).symm

theorem mem_concepts_edit {concept : String} :
    concept ∈ (p.edit e).concepts ↔ concept ∈ p.concepts ∨ e = .addConcept concept := by
  cases e with
  | addConcept other =>
    rw [edit, Ordered.mem_insert, ProfileEdit.addConcept.injEq, eq_comm, or_comm]
  | adjust helpful => simp [hroom.edit_adjust]
  | feedback entry => simp [hroom.edit_feedback]
  | _ => simp [edit, recordIssue, takeQuiz, addPoints]

theorem sorted_seen_edit (h : Ordered.Sorted (Ordered.keys p.seen)) :
    Ordered.Sorted (Ordered.keys (p.edit e).seen) := by
  cases e with
  | recordIssue code => exact h.put _ _
  | adjust helpful => simpa [hroom.edit_adjust] using h
  | feedback entry => simpa [hroom.edit_feedback] using h
  | _ => exact h

theorem lookup_seen_edit {code : String} :
    (p.edit e).seen.lookup code = if e = .recordIssue code then
      some ((p.seen.lookup code).getD 0 + 1) else p.seen.lookup code := by
  cases e with
  | recordIssue met =>
    rw [hroom.edit_recordIssue]
    rcases eq_or_ne met code with rfl | hne
    · simp [Ordered.lookup_put_self]
    · simp [hne, Ordered.lookup_put_of_ne hne.symm]
  | adjust helpful => simp [hroom.edit_adjust]
  | feedback entry => simp [hroom.edit_feedback]
  | _ => simp [edit, takeQuiz, addPoints]

theorem mem_weakAreas_edit {word : String} :
    word ∈ (p.edit e).weakAreas ↔ word ∈ p.weakAreas ∨ ∃ code, e = .recordIssue code ∧
      3 < (p.seen.lookup code).getD 0 + 1 ∧ Text.StartsWithWord code word := by
  cases e with
  | recordIssue met =>
    simp only [ProfileEdit.recordIssue.injEq, exists_eq_left', ← Text.firstWord?_eq_some]
    rw [hroom.edit_recordIssue]
    by_cases hoften : 3 < (p.seen.lookup met).getD 0 + 1
    · rcases hfirst : Text.firstWord? met with _ | base
      · simp [hoften]
      · simp [hoften, Ordered.mem_insert, or_comm, eq_comm]
    · simp [hoften]
  | adjust helpful => simp [hroom.edit_adjust]
  | feedback entry => simp [hroom.edit_feedback]
  | _ => simp [edit, takeQuiz, addPoints]

theorem mem_achievements_edit {name : String} : name ∈ (p.edit e).achievements ↔
    name ∈ p.achievements ∨
    (name = "quick_learner" ∧ ∃ score level, 80 < score ∧ e = .quiz score level) ∨
    (name = "code_master" ∧ ∃ score, e = .quiz score .advanced) := by
  cases e with
  | quiz score level =>
    have hquick : (∃ points next, 80 < points ∧
        ProfileEdit.quiz score level = .quiz points next) ↔ quickScore < score := by
      simp [quickScore]
    have hmaster : (∃ points, ProfileEdit.quiz score level = .quiz points .advanced) ↔
        level = .advanced := by simp
    rw [hquick, hmaster, edit, takeQuiz, addPoints]
    by_cases hscore : quickScore < score <;> by_cases hlevel : level = .advanced <;>
      simp [hscore, hlevel, Ordered.mem_insert] <;> tauto
  | adjust helpful => simp [hroom.edit_adjust]
  | feedback entry => simp [hroom.edit_feedback]
  | _ => simp [edit, recordIssue]

theorem quizDone_edit : (p.edit e).quizDone = true ↔
    p.quizDone = true ∨ ∃ score level, e = .quiz score level := by
  cases e with
  | adjust helpful => simp [hroom.edit_adjust]
  | feedback entry => simp [hroom.edit_feedback]
  | _ => simp [edit, recordIssue, takeQuiz]

theorem feedback_edit : (p.edit e).feedback = p.feedback ++ e.said?.toList := by
  cases e with
  | adjust helpful => simp [hroom.edit_adjust, ProfileEdit.said?]
  | feedback entry => simp [hroom.edit_feedback, ProfileEdit.said?]
  | _ => simp [edit, recordIssue, takeQuiz, addPoints, ProfileEdit.said?]

omit hroom in
theorem tells_fresh (user : String) : (fresh user).Tells [] where
  level := rfl
  concepts := by simp [fresh]
  ordered := .nil
  seen := by simp [fresh, sightings]
  weakAreas := by simp [fresh, sightings]
  achievements := by simp [fresh]
  quizDone := by simp [fresh]
  feedback := rfl
  points := rfl

end Profile

/-! ### All edits -/

theorem sightings_append {code : String} {edits : List ProfileEdit} {e : ProfileEdit} :
    sightings code (edits ++ [e]) =
      sightings code edits + if e = .recordIssue code then 1 else 0 := by
  simp [sightings, List.count_singleton]

theorem earned_append {level : Level} {edits : List ProfileEdit} {e : ProfileEdit} :
    earned level (edits ++ [e]) =
      earned level edits + e.worth (edits.foldl ProfileEdit.levelAfter level) := by
  induction edits generalizing level with
  | nil => simp [earned]
  | cons first rest ih => simp [earned, ih, Int.add_assoc]

namespace ProfileEdit

theorem worth_bounds {e : ProfileEdit} (h : e.Scored) (level : Level) :
    -2 ≤ e.worth level ∧ e.worth level ≤ 10 * 2 ^ 32 := by
  have hthanks : ∀ helpful, -2 ≤ thanks helpful level ∧ thanks helpful level ≤ 10 * 2 ^ 32 := by
    intro helpful
    cases helpful <;> cases level <;> decide
  cases e with
  | quiz score next =>
    have hscore : score < 2 ^ 32 := h
    simp only [worth]
    omega
  | adjust helpful => exact hthanks helpful
  | feedback entry => exact hthanks entry.helpful
  | _ => simp [worth]

end ProfileEdit

theorem earned_bounds {edits : List ProfileEdit} (h : ∀ e ∈ edits, e.Scored) (level : Level) :
    -2 * edits.length ≤ earned level edits ∧ earned level edits ≤ 10 * 2 ^ 32 * edits.length := by
  induction edits generalizing level with
  | nil => simp [earned]
  | cons e rest ih =>
    obtain ⟨hfirst, hrest⟩ := List.forall_mem_cons.mp h
    have hworth := ProfileEdit.worth_bounds hfirst level
    have hearned := ih hrest (e.levelAfter level)
    simp only [earned, List.length_cons]
    omega

namespace Profile

variable {p : Profile} {e : ProfileEdit} {edits : List ProfileEdit}

theorem Tells.sightings_eq (h : p.Tells edits) (code : String) :
    (p.seen.lookup code).getD 0 = sightings code edits := by
  rw [h.seen]
  split_ifs with hnone
  · exact hnone.symm
  · rfl

/-- A short history leaves room for one edit more. -/
theorem Tells.hasRoomFor (h : p.Tells edits) (hlength : (edits ++ [e]).length ≤ 2 ^ 27)
    (hscored : ∀ e' ∈ edits ++ [e], e'.Scored) : p.HasRoomFor e := by
  have hsum : p.points + e.worth p.level = earned Level.default (edits ++ [e]) := by
    rw [earned_append, h.points, h.level]
  have hbounds := earned_bounds hscored Level.default
  refine ⟨fun code _ => ?_, ?_, ?_⟩
  · have hcount : sightings code edits ≤ edits.length := List.count_le_length
    rw [List.length_append] at hlength
    rw [h.sightings_eq]
    omega
  · omega
  · omega

/-- One edit more is told as well. -/
theorem Tells.edit (h : p.Tells edits) (hroom : p.HasRoomFor e) :
    (p.edit e).Tells (edits ++ [e]) where
  level := by rw [edit_level hroom, h.level, List.foldl_append]; rfl
  concepts concept := by
    rw [mem_concepts_edit hroom, h.concepts, List.mem_append, List.mem_singleton, eq_comm]
  ordered := sorted_seen_edit hroom h.ordered
  seen code := by
    rw [lookup_seen_edit hroom, sightings_append, h.sightings_eq, h.seen]
    split_ifs <;> simp_all
  weakAreas word := by
    simp only [mem_weakAreas_edit hroom, h.weakAreas, h.sightings_eq, sightings_append]
    constructor
    · rintro (⟨code, hoften, hword⟩ | ⟨code, rfl, hoften, hword⟩)
      · exact ⟨code, by omega, hword⟩
      · exact ⟨code, by simpa using hoften, hword⟩
    · rintro ⟨code, hoften, hword⟩
      split_ifs at hoften with hmet
      · exact .inr ⟨code, hmet, hoften, hword⟩
      · exact .inl ⟨code, hoften, hword⟩
  achievements name := by
    simp only [mem_achievements_edit hroom, h.achievements, List.mem_append, List.mem_singleton]
    constructor
    · rintro ((⟨rfl, score, level, hscore, hmem⟩ | ⟨rfl, score, hmem⟩) |
        ⟨rfl, score, level, hscore, hlast⟩ | ⟨rfl, score, hlast⟩)
      · exact .inl ⟨rfl, score, level, hscore, .inl hmem⟩
      · exact .inr ⟨rfl, score, .inl hmem⟩
      · exact .inl ⟨rfl, score, level, hscore, .inr hlast.symm⟩
      · exact .inr ⟨rfl, score, .inr hlast.symm⟩
    · rintro (⟨rfl, score, level, hscore, hmem | hlast⟩ | ⟨rfl, score, hmem | hlast⟩)
      · exact .inl (.inl ⟨rfl, score, level, hscore, hmem⟩)
      · exact .inr (.inl ⟨rfl, score, level, hscore, hlast.symm⟩)
      · exact .inl (.inr ⟨rfl, score, hmem⟩)
      · exact .inr (.inr ⟨rfl, score, hlast.symm⟩)
  quizDone := by
    simp only [quizDone_edit hroom, h.quizDone, List.mem_append, List.mem_singleton, exists_or,
      eq_comm]
  feedback := by
    rw [feedback_edit hroom, h.feedback, List.filterMap_append]
    cases hsaid : e.said? <;> simp [hsaid]
  points := by rw [edit_points hroom, h.points, h.level, earned_append]

theorem edited_append (p : Profile) (before after : List ProfileEdit) :
    p.edited (before ++ after) = (p.edited before).edited after := List.foldl_append

theorem tells_edited (user : String) (hlength : edits.length ≤ 2 ^ 27)
    (hscored : ∀ e ∈ edits, e.Scored) : ((fresh user).edited edits).Tells edits := by
  induction edits using List.reverseRecOn with
  | nil => exact tells_fresh user
  | append_singleton before e ih =>
    have htells := ih (by simp at hlength; omega) fun e' he => hscored e' (by simp [he])
    rw [edited_append]
    exact htells.edit (htells.hasRoomFor hlength hscored)

theorem onlyHeard_adjust (p : Profile) (helpful : Bool) : p.OnlyHeard (p.adjust helpful) := by
  obtain ⟨user, level, concepts, weakAreas, seen, points, achievements, quizDone, feedback⟩ := p
  cases helpful <;> cases level <;> constructor <;> simp [adjust, addPoints, Level.rank]

theorem onlyHeard_edit (p : Profile) (h : e.IsFeedback) : p.OnlyHeard (p.edit e) := by
  cases e with
  | adjust helpful => exact onlyHeard_adjust p helpful
  | feedback entry =>
    have hadjust := onlyHeard_adjust { p with feedback := p.feedback ++ [entry] } entry.helpful
    exact { hadjust with feedback := (List.prefix_append ..).trans hadjust.feedback }
  | _ => exact h.elim

theorem OnlyHeard.trans {p q r : Profile} (h : p.OnlyHeard q) (h' : q.OnlyHeard r) :
    p.OnlyHeard r where
  notRaised := h'.notRaised.trans h.notRaised
  notBelow := by
    have := h.notBelow
    have := h'.notBelow
    omega
  concepts := h'.concepts.trans h.concepts
  weakAreas := h'.weakAreas.trans h.weakAreas
  seen := h'.seen.trans h.seen
  achievements := h'.achievements.trans h.achievements
  quizDone := h'.quizDone.trans h.quizDone
  feedback := h.feedback.trans h'.feedback

theorem onlyHeard_edited (p : Profile) (h : ∀ e ∈ edits, e.IsFeedback) :
    p.OnlyHeard (p.edited edits) := by
  induction edits generalizing p with
  | nil => exact ⟨le_rfl, min_le_left .., rfl, rfl, rfl, rfl, rfl, List.prefix_refl _⟩
  | cons e rest ih =>
    obtain ⟨hfirst, hrest⟩ := List.forall_mem_cons.mp h
    exact (onlyHeard_edit p hfirst).trans (ih _ hrest)

/-- **A profile is its history.** A fresh profile that went through fewer than 2²⁷ edits says what
these edits were. On the way no counter and no points went round, and stretches of mere feedback
took nothing away and raised nobody. -/
theorem tells_its_history (user : String) (edits : List ProfileEdit)
    (hlength : edits.length < 2 ^ 27) (hscored : ∀ e ∈ edits, e.Scored) :
    ((fresh user).edited edits).Tells edits ∧
    (∀ before e after, edits = before ++ e :: after → ((fresh user).edited before).HasRoomFor e) ∧
    ∀ before said after, edits = before ++ said ++ after → (∀ e ∈ said, e.IsFeedback) →
      ((fresh user).edited before).OnlyHeard ((fresh user).edited (before ++ said)) := by
  refine ⟨tells_edited user hlength.le hscored, ?_, ?_⟩
  · rintro before e after rfl
    have hbefore : (before ++ [e]).length ≤ 2 ^ 27 := by
      simp only [List.length_append, List.length_cons, List.length_nil] at hlength ⊢
      omega
    have htells : ((fresh user).edited before).Tells before :=
      tells_edited user (by simp at hbefore; omega) fun e' he => hscored e' (by simp [he])
    exact htells.hasRoomFor hbefore fun e' he => hscored e' (by
      rcases List.mem_append.mp he with he | he <;> simp_all)
  · rintro before said after rfl hsaid
    rw [edited_append]
    exact onlyHeard_edited _ hsaid

/-- Four times the same finding, a good quiz, and an explanation that did not help. -/
def busyWeek : List ProfileEdit :=
  [.recordIssue "E501 line too long", .recordIssue "E501 line too long", .addConcept "OOP",
    .recordIssue " ", .quiz 81 .advanced, .recordIssue "E501 line too long", .adjust false,
    .feedback ⟨"E501", true, .intermediate, ⟨1700000000, 0⟩⟩, .recordIssue "E501 line too long",
    .setLevel .beginner, .adjust true]

theorem tells_its_history_busyWeek :
    busyWeek.length < 2 ^ 27 ∧ (∀ e ∈ busyWeek, e.Scored) ∧
    ((fresh "ana").edited busyWeek).Tells busyWeek ∧ earned Level.default busyWeek = 818 ∧
    ((fresh "ana").edited busyWeek).points = 818 ∧
    ((fresh "ana").edited busyWeek).weakAreas = ["E501"] := by
  have hlength : busyWeek.length < 2 ^ 27 := by decide
  have hscored : ∀ e ∈ busyWeek, e.Scored := by simp [busyWeek, ProfileEdit.Scored]
  have htells := (tells_its_history "ana" busyWeek hlength hscored).1
  have hearned : earned Level.default busyWeek = 818 := by decide
  exact ⟨hlength, hscored, htells, hearned, htells.points.trans hearned, by decide +kernel⟩

end Profile

end ReviewMentor
