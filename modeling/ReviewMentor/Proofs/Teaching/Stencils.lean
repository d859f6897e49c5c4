import Mathlib.Data.List.Infix
import Mathlib.Data.List.Lemmas
import ReviewMentor.Proofs.Teaching.Borders
import ReviewMentor.Teaching.Template

/-!
# Templates as stencils

A template text is a stencil: literal pieces with holes between them, each hole spelt as the name of
a place in braces. There is just one way to take a text apart that leaves no such spelling in a
piece, because a spelling has its only opening brace at its front. An issue is put into the holes of
that stencil, whatever the issue says.
-/

namespace ReviewMentor

open TemplatePart Phrase

/-- How a place is spelt: its name between braces. -/
def Placeholder.spelling (p : Placeholder) : List Char :=
  opening :: (p.name.toList ++ [closing])

/-- A text taken apart: what stands before the first hole, and each hole with what stands between it
and the next one. -/
structure Stencil where
  front : List Char
  holes : List (Placeholder × List Char)

namespace Stencil

/-- The text that is taken apart. -/
def spelling (s : Stencil) : List Char :=
  s.front ++ s.holes.flatMap fun h => h.1.spelling ++ h.2

/-- The pieces around the holes. -/
def pieces (s : Stencil) : List (List Char) :=
  s.front :: s.holes.map Prod.snd

/-- The text with what an issue says in the holes. -/
def filled (s : Stencil) (i : Issue) : List Char :=
  s.front ++ s.holes.flatMap fun h => (h.1.value i).toList ++ h.2

/-- The parts of a stencil. -/
def parts (s : Stencil) : List TemplatePart :=
  s.front.map .char ++ s.holes.flatMap fun h => .place h.1 :: h.2.map .char

/-- The stencil with the given parts. -/
def ofParts : List TemplatePart → Stencil
  | [] => ⟨[], []⟩
  | .char c :: rest => ⟨c :: (ofParts rest).front, (ofParts rest).holes⟩
  | .place p :: rest => ⟨[], (p, (ofParts rest).front) :: (ofParts rest).holes⟩

/-- A text in which no place is spelt. -/
def IsLiteral (cs : List Char) : Prop :=
  ∀ p : Placeholder, ¬ p.spelling <:+: cs

/-- A stencil takes a text apart: together its pieces and holes are the text, and no place is spelt
in a piece. -/
structure Cuts (s : Stencil) (text : String) : Prop where
  spelt : s.spelling = text.toList
  literal : ∀ piece ∈ s.pieces, IsLiteral piece

end Stencil

open Stencil

variable {cs piece rest name : List Char} {p : Placeholder} {i : Issue}

/-! ### Reading places -/

section Places

theorem Placeholder.named?_eq_some : Placeholder.named? cs = some p ↔ cs = p.name.toList := by
  constructor
  · intro h
    simpa [eq_comm] using List.find?_some h
  · rintro rfl
    cases p <;> decide

theorem Placeholder.name_of_mem {c : Char} (h : c ∈ p.name.toList) :
    isNameChar c = true ∧ c ≠ opening ∧ c ≠ closing := by
  have hall : p.name.toList.all (fun c => isNameChar c && c ≠ opening && c ≠ closing) = true := by
    cases p <;> decide
  simpa [and_assoc] using List.all_eq_true.mp hall c h

theorem not_mem_opening (p : Placeholder) : opening ∉ p.name.toList ++ [closing] := by
  rw [List.mem_append, List.mem_singleton, not_or]
  exact ⟨fun h => (Placeholder.name_of_mem h).2.1 rfl, by decide⟩

/-- A place is read exactly where its name and a closing brace stand. -/
theorem TemplatePart.place?_eq_some :
    place? cs = some p ↔ p.name.toList ++ [closing] <+: cs := by
  constructor
  · intro h
    unfold place? at h
    split at h
    case h_2 => exact absurd h (by simp)
    case h_1 c rest hrest =>
      split_ifs at h with hc
      rw [← Placeholder.named?_eq_some.mp h, ← hc]
      refine ⟨rest, ?_⟩
      rw [List.append_assoc, List.singleton_append, ← hrest, List.takeWhile_append_dropWhile]
  · rintro ⟨rest, rfl⟩
    have hrun : ∀ c ∈ p.name.toList, isNameChar c = true := fun c hc =>
      (Placeholder.name_of_mem hc).1
    have hend : ∀ c ∈ ([closing] ++ rest).head?, isNameChar c = false := by
      rintro c ⟨rfl⟩
      decide
    rw [List.append_assoc, place?, Text.dropWhile_run hrun hend, Text.takeWhile_run hrun hend]
    exact (if_pos rfl).trans (Placeholder.named?_eq_some.mpr rfl)

/-- No name goes on behind an opening brace. -/
theorem TemplatePart.place?_append : place? (cs ++ opening :: rest) = place? cs := by
  refine Option.ext fun p => ?_
  rw [place?_eq_some, place?_eq_some]
  exact ⟨fun h => prefix_of_not_mem h (not_mem_opening p),
    fun h => h.trans (List.prefix_append _ _)⟩

end Places

/-! ### Reading texts -/

section Texts

theorem TemplatePart.partsFrom_drop (n : Nat) (cs : List Char) :
    partsFrom n cs = partsFrom 0 (cs.drop n) := by
  induction cs generalizing n with
  | nil => cases n <;> rfl
  | cons c cs ih =>
    cases n with
    | zero => rfl
    | succ n => exact ih n

theorem TemplatePart.partsFrom_spelling (p : Placeholder) (rest : List Char) :
    partsFrom 0 (p.spelling ++ rest) = .place p :: partsFrom 0 rest := by
  have hplace : place? (p.name.toList ++ [closing] ++ rest) = some p :=
    place?_eq_some.mpr (List.prefix_append _ _)
  have hlength : p.name.length + 1 = (p.name.toList ++ [closing]).length := by
    simp [String.length_toList]
  rw [Placeholder.spelling, List.cons_append, partsFrom, if_pos rfl, hplace]
  dsimp only
  rw [partsFrom_drop, hlength, List.drop_left]

theorem TemplatePart.partsFrom_cons_of_none {c : Char} (h : c = opening → place? cs = none) :
    partsFrom 0 (c :: cs) = .char c :: partsFrom 0 cs := by
  rw [partsFrom]
  split_ifs with hc
  · rw [h hc]
  · rfl

/-- In a literal piece nothing is read as a place, if a place or nothing follows it. -/
theorem Stencil.IsLiteral.partsFrom (h : IsLiteral piece) (hrest : ∀ c ∈ rest.head?, c = opening) :
    partsFrom 0 (piece ++ rest) = piece.map .char ++ TemplatePart.partsFrom 0 rest := by
  induction piece with
  | nil => rfl
  | cons c piece ih =>
    have hnone : c = opening → place? (piece ++ rest) = none := by
      rintro rfl
      have hshort : place? (piece ++ rest) = place? piece := by
        cases rest with
        | nil => rw [List.append_nil]
        | cons first rest =>
          obtain rfl := hrest first rfl
          exact place?_append
      refine hshort.trans (Option.eq_none_iff_forall_ne_some.mpr fun p hp => h p ?_)
      exact (List.cons_prefix_cons.mpr ⟨rfl, place?_eq_some.mp hp⟩).isInfix
    have hbehind : IsLiteral piece := fun p hp =>
      h p (hp.trans (List.suffix_cons c piece).isInfix)
    rw [List.cons_append, partsFrom_cons_of_none hnone, ih hbehind]
    rfl

/-- Without opening braces nothing is read as a place, whatever follows. -/
theorem TemplatePart.partsFrom_of_not_mem (h : opening ∉ cs) (rest : List Char) :
    partsFrom 0 (cs ++ rest) = cs.map .char ++ partsFrom 0 rest := by
  induction cs with
  | nil => rfl
  | cons c cs ih =>
    obtain ⟨hc, hcs⟩ := List.ne_and_not_mem_of_not_mem_cons h
    rw [List.cons_append, partsFrom_cons_of_none fun heq => absurd heq.symm hc, ih hcs]
    rfl

/-- Reading starts afresh at an opening brace. -/
theorem TemplatePart.partsFrom_append {n : Nat} (h : n ≤ cs.length) :
    partsFrom n (cs ++ opening :: rest) = partsFrom n cs ++ partsFrom 0 (opening :: rest) := by
  induction cs generalizing n with
  | nil =>
    obtain rfl : n = 0 := Nat.le_zero.mp h
    rfl
  | cons c cs ih =>
    cases n with
    | succ n => exact ih (Nat.le_of_succ_le_succ h)
    | zero =>
      rw [List.cons_append, partsFrom, partsFrom, place?_append]
      split
      · next p hp =>
        have hplace : place? cs = some p := by
          split_ifs at hp
          exact hp
        have hlength := (place?_eq_some.mp hplace).length_le
        rw [List.cons_append, ih (by simpa [String.length_toList] using hlength)]
      · rw [List.cons_append, ih (Nat.zero_le _)]

/-- A name in braces that is no name of a place is read as it is written. -/
theorem TemplatePart.partsFrom_unknown (hopen : opening ∉ name) (hclose : closing ∉ name)
    (hname : ∀ p : Placeholder, p.name.toList ≠ name) (rest : List Char) :
    partsFrom 0 (opening :: (name ++ closing :: rest)) =
      (opening :: (name ++ [closing])).map .char ++ partsFrom 0 rest := by
  have hnone : place? (name ++ closing :: rest) = none := by
    refine Option.eq_none_iff_forall_ne_some.mpr fun p hp => hname p ?_
    obtain ⟨more, hmore⟩ := place?_eq_some.mp hp
    rw [List.append_assoc, List.singleton_append] at hmore
    have hfree : closing ∉ p.name.toList := fun h => (Placeholder.name_of_mem h).2.2 rfl
    have hfront : p.name.toList <+: name := prefix_of_not_mem ⟨_, hmore⟩ hfree
    have hback : name <+: p.name.toList := prefix_of_not_mem ⟨_, hmore.symm⟩ hclose
    exact hfront.eq_of_length_le hback.length_le
  have hplain : opening ∉ name ++ [closing] := by
    rw [List.mem_append, List.mem_singleton, not_or]
    exact ⟨hopen, by decide⟩
  have hread := partsFrom_of_not_mem hplain rest
  rw [List.append_assoc, List.singleton_append] at hread
  rw [partsFrom_cons_of_none fun _ => hnone, hread]
  rfl

end Texts

/-! ### Stencils -/

namespace Stencil

variable {s : Stencil} {text : String}

theorem ofParts_append (piece : List Char) (ps : List TemplatePart) :
    ofParts (piece.map .char ++ ps) = ⟨piece ++ (ofParts ps).front, (ofParts ps).holes⟩ := by
  induction piece with
  | nil => rfl
  | cons c piece ih => rw [List.map_cons, List.cons_append, ofParts, ih, List.cons_append]

/-- A stencil is known by its parts. -/
theorem ofParts_parts (s : Stencil) : ofParts s.parts = s := by
  obtain ⟨front, holes⟩ := s
  rw [parts, ofParts_append]
  induction holes with
  | nil => simp [ofParts]
  | cons h holes ih =>
    obtain ⟨p, piece⟩ := h
    obtain ⟨-, hholes⟩ := Stencil.mk.inj ih
    have hfront : (ofParts (holes.flatMap fun h => .place h.1 :: h.2.map .char)).front = [] := by
      cases holes <;> rfl
    rw [List.flatMap_cons, List.cons_append, ofParts, ofParts_append, hfront, hholes]
    simp

/-- What an issue makes of the parts of a stencil is the stencil filled in. -/
theorem flatMap_fill_parts (s : Stencil) (i : Issue) : s.parts.flatMap (fill i) = s.filled i := by
  have hpiece : ∀ piece : List Char, (piece.map TemplatePart.char).flatMap (fill i) = piece :=
    fun piece => by simp [List.flatMap_map, fill]
  rw [parts, filled, List.flatMap_append, hpiece, List.flatMap_assoc]
  refine congrArg _ (List.flatMap_congr fun h _ => ?_)
  rw [List.flatMap_cons, hpiece]
  rfl

/-- A stencil without places in its pieces is read from its spelling. -/
theorem partsFrom_spelling (h : ∀ piece ∈ s.pieces, IsLiteral piece) :
    partsFrom 0 s.spelling = s.parts := by
  obtain ⟨front, holes⟩ := s
  unfold spelling parts
  induction holes generalizing front with
  | nil =>
    have hfront : IsLiteral front := h front List.mem_cons_self
    have hread : TemplatePart.partsFrom 0 (front ++ []) =
        front.map .char ++ TemplatePart.partsFrom 0 [] := hfront.partsFrom (by simp)
    simpa [TemplatePart.partsFrom] using hread
  | cons hole holes ih =>
    obtain ⟨p, piece⟩ := hole
    have hfront : IsLiteral front := h front List.mem_cons_self
    have hnext := ih piece fun other hmem => h other (List.mem_cons_of_mem front hmem)
    rw [List.flatMap_cons, List.append_assoc, hfront.partsFrom, partsFrom_spelling, hnext]
    · simp
    · rintro c ⟨rfl⟩
      rfl

theorem Cuts.parts_eq (h : s.Cuts text) : TemplatePart.parts text = s.parts := by
  rw [TemplatePart.parts, ← h.spelt, partsFrom_spelling h.literal]

theorem isLiteral_nil : IsLiteral [] := fun p hp => by simp [Placeholder.spelling] at hp

/-- A text is literal, or has a first place. -/
theorem literal_or_hole (cs : List Char) : IsLiteral cs ∨
    ∃ piece p rest, cs = piece ++ (Placeholder.spelling p ++ rest) ∧ IsLiteral piece := by
  induction cs with
  | nil => exact .inl isLiteral_nil
  | cons c cs ih =>
    by_cases hhere : ∃ p : Placeholder, p.spelling <+: c :: cs
    · obtain ⟨p, rest, hrest⟩ := hhere
      exact .inr ⟨[], p, rest, hrest.symm, isLiteral_nil⟩
    · -- No place begins at this character, so one that stands in a piece stands behind it.
      have hcons : ∀ piece, piece <+: cs → IsLiteral piece → IsLiteral (c :: piece) := by
        intro piece hpiece hliteral p hp
        rcases List.infix_cons_iff.mp hp with hfront | hbehind
        · exact hhere ⟨p, hfront.trans (List.cons_prefix_cons.mpr ⟨rfl, hpiece⟩)⟩
        · exact hliteral p hbehind
      rcases ih with hliteral | ⟨piece, p, rest, rfl, hliteral⟩
      · exact .inl (hcons cs (List.prefix_refl cs) hliteral)
      · exact .inr ⟨c :: piece, p, rest, rfl, hcons piece (List.prefix_append _ _) hliteral⟩

theorem exists_literal (cs : List Char) :
    ∃ s : Stencil, s.spelling = cs ∧ ∀ piece ∈ s.pieces, IsLiteral piece := by
  induction hlength : cs.length using Nat.strong_induction_on generalizing cs with
  | _ n ih =>
    rcases literal_or_hole cs with hliteral | ⟨piece, p, rest, rfl, hliteral⟩
    · exact ⟨⟨cs, []⟩, by simp [spelling], by simpa [pieces] using hliteral⟩
    · have hshorter : rest.length < n := by
        rw [← hlength, Placeholder.spelling]
        simp only [List.length_append, List.length_cons]
        omega
      obtain ⟨s, rfl, hpieces⟩ := ih rest.length hshorter rest rfl
      refine ⟨⟨piece, (p, s.front) :: s.holes⟩, by simp [spelling], ?_⟩
      exact List.forall_mem_cons.mpr ⟨hliteral, hpieces⟩

/-- Every text is taken apart by just one stencil. -/
theorem existsUnique_cuts (text : String) : ∃! s : Stencil, s.Cuts text := by
  obtain ⟨s, hspelt, hliteral⟩ := exists_literal text.toList
  refine ⟨s, ⟨hspelt, hliteral⟩, fun other hother => ?_⟩
  have hparts : other.parts = s.parts :=
    hother.parts_eq.symm.trans (Cuts.parts_eq ⟨hspelt, hliteral⟩)
  rw [← ofParts_parts other, hparts, ofParts_parts]

end Stencil

/-! ### Filled texts -/

section Filled

variable {s : Stencil} {text : String}

theorem fillText_of_cuts (h : s.Cuts text) (i : Issue) :
    fillText text i = String.ofList (s.filled i) := by
  rw [fillText, h.parts_eq, flatMap_fill_parts]

/-- A name in braces that no place has is left as it is written. -/
theorem fillText_unknown (before name after : String) (i : Issue) (hopen : opening ∉ name.toList)
    (hclose : closing ∉ name.toList) (hname : ∀ p : Placeholder, p.name ≠ name) :
    fillText (before ++ "\x7b" ++ name ++ "\x7d" ++ after) i =
      fillText before i ++ "\x7b" ++ name ++ "\x7d" ++ fillText after i := by
  have hnames : ∀ p : Placeholder, p.name.toList ≠ name.toList := fun p heq =>
    hname p (String.toList_inj.mp heq)
  have htext : (before ++ "\x7b" ++ name ++ "\x7d" ++ after).toList =
      before.toList ++ opening :: (name.toList ++ closing :: after.toList) := by
    simp [opening, closing]
  have hpiece : ∀ piece : List Char, (piece.map TemplatePart.char).flatMap (fill i) = piece :=
    fun piece => by simp [List.flatMap_map, fill]
  rw [← String.toList_inj, fillText, TemplatePart.parts, htext, partsFrom_append (Nat.zero_le _),
    partsFrom_unknown hopen hclose hnames, List.flatMap_append, List.flatMap_append, hpiece]
  simp [fillText, TemplatePart.parts, opening, closing]

end Filled

/-- **A template is filled in one pass.** Every text is taken apart in just one way into literal
pieces and places, whatever the issue; filling it in puts what the issue says, word for word, where
the places are. So a name in braces that no place has stays as it is, and so do braces in what the
issue says. -/
theorem template_is_filled_once (text : String) :
    (∃! s : Stencil, s.Cuts text) ∧
    (∀ s : Stencil, s.Cuts text → ∀ i, fillText text i = String.ofList (s.filled i)) ∧
    ∀ before name after i, text = before ++ "\x7b" ++ name ++ "\x7d" ++ after →
      opening ∉ name.toList → closing ∉ name.toList → (∀ p : Placeholder, p.name ≠ name) →
      fillText text i = fillText before i ++ "\x7b" ++ name ++ "\x7d" ++ fillText after i := by
  refine ⟨existsUnique_cuts text, fun s hcuts i => fillText_of_cuts hcuts i, ?_⟩
  rintro before name after i rfl hopen hclose hname
  exact fillText_unknown before name after i hopen hclose hname

/-- A text with a broken brace, a place in two pairs of braces and a name that no place has. -/
def bracedText : String := "\x7bco\x7bline\x7d \x7b\x7bcode\x7d\x7d \x7brule\x7d"

/-- How that text is taken apart. -/
def bracedStencil : Stencil :=
  ⟨"\x7bco".toList, [(.line, " \x7b".toList), (.code, "\x7d \x7brule\x7d".toList)]⟩

/-- A finding whose code looks like a place. -/
def bracedIssue : Issue where
  category := .error
  file := "app.py"
  line := 7
  message := "unused import"
  code := "\x7bline\x7d"
  analyzer := .ruff
  severity := none
  confidence := none
  url := none
  complexity := none

theorem cuts_bracedStencil : bracedStencil.Cuts bracedText := by
  have hall : ∀ piece ∈ bracedStencil.pieces, ∀ p ∈ Placeholder.all,
      ¬ p.spelling <:+: piece := by decide
  exact ⟨by decide, fun piece hpiece p => hall piece hpiece p (by cases p <;> decide)⟩

/-- Only the two places are filled, and what is put in is not looked at again. -/
theorem template_is_filled_once_braces :
    bracedStencil.Cuts bracedText ∧
    fillText bracedText bracedIssue = "\x7bco7 \x7b\x7bline\x7d\x7d \x7brule\x7d" ∧
    (∀ p : Placeholder, p.name ≠ "rule") ∧
    fillText bracedText bracedIssue =
      fillText "\x7bco\x7bline\x7d \x7b\x7bcode\x7d\x7d " bracedIssue ++ "\x7b" ++ "rule" ++
        "\x7d" ++ fillText "" bracedIssue := by
  obtain ⟨-, hfilled, hunknown⟩ := template_is_filled_once bracedText
  have hrule : ∀ p : Placeholder, p.name ≠ "rule" := fun p => by cases p <;> decide
  refine ⟨cuts_bracedStencil, ?_, hrule, hunknown _ "rule" "" _ rfl (by decide) (by decide) hrule⟩
  rw [hfilled _ cuts_bracedStencil]
  decide

end ReviewMentor
