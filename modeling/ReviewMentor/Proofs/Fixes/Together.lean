import ReviewMentor.Proofs.Fixes.OneLine

/-!
# Fixes of different lines

Fixes of different lines do not get in each other's way: each of them changes one part of the text,
and none changes how many parts there are. So they may be made in any order, and the line numbers
that were right before the first one are right for all of them.
-/

namespace ReviewMentor

open FileTree

namespace Text

variable {content text old : List Char} {parts lines : List (List Char)}

/-! ### All at once -/

/-- The lines of a text: what follows a line break at its end is none. -/
def linesOf (content : List Char) : List (List Char) :=
  if content = [] ∨ content.getLast? = some '\n' then (cutAt '\n' content).dropLast
  else cutAt '\n' content

/-- What becomes of a line with a number, counted from zero, if some lines get new texts. -/
def renewed (texts : Nat → Option (List Char)) (i : Nat) (old : List Char) : List Char :=
  match texts (i + 1) with
  | some new => newLine old new
  | none => old

/-- A text with a new text for some of its lines, counted from one. -/
def renewLines (content : List Char) (texts : Nat → Option (List Char)) : List Char :=
  joinLines ((linesOf content).mapIdx (renewed texts)) ++
    if content.getLast? = some '\n' then ['\n'] else []

/-- The new text of a line among fixes. -/
def textFor (fixes : List (Nat × String)) (line : Nat) : Option (List Char) :=
  (fixes.lookup line).map String.toList

/-- A text with all lines replaced at once that fixes are for. -/
def replaceLines (content : String) (fixes : List (Nat × String)) : String :=
  String.ofList (renewLines content.toList (textFor fixes))

/-! ### Parts -/

/-- The parts of a text of which some are replaced. -/
def renewParts (texts : Nat → Option (List Char)) (parts : List (List Char)) :
    List (List Char) :=
  parts.mapIdx fun i old =>
    if i + 1 < parts.length ∨ old ≠ [] then renewed texts i old else old

theorem renewed_single {texts : Nat → Option (List Char)}
    (htexts : ∀ line new, texts line = some new → '\n' ∉ new.dropLast) (i : Nat)
    (hold : '\n' ∉ old) : '\n' ∉ renewed texts i old := by
  unfold renewed
  split
  · next new hnew => exact newLine_single (htexts _ _ hnew)
  · exact hold

theorem renewParts_single {texts : Nat → Option (List Char)}
    (htexts : ∀ line new, texts line = some new → '\n' ∉ new.dropLast)
    (hparts : ∀ part ∈ parts, '\n' ∉ part) : ∀ part ∈ renewParts texts parts, '\n' ∉ part := by
  intro part hpart
  obtain ⟨i, hi, rfl⟩ := List.mem_mapIdx.mp hpart
  have hold := hparts _ (List.getElem_mem hi)
  split
  · exact renewed_single htexts i hold
  · exact hold

/-- The empty part after the last line is not renewed, and all lines are. -/
theorem renewParts_finished (texts : Nat → Option (List Char)) (lines : List (List Char)) :
    renewParts texts (lines ++ [[]]) = lines.mapIdx (renewed texts) ++ [[]] := by
  rw [renewParts, List.mapIdx_append, List.mapIdx_singleton, if_neg (by simp)]
  congr 1
  refine List.ext_getElem (by simp) fun i hi _ => ?_
  rw [List.length_mapIdx] at hi
  rw [List.getElem_mapIdx, List.getElem_mapIdx, if_pos]
  exact .inl (by simp; omega)

theorem renewParts_unfinished (texts : Nat → Option (List Char)) {last : List Char}
    (hlast : last ≠ []) :
    renewParts texts (lines ++ [last]) = (lines ++ [last]).mapIdx (renewed texts) := by
  refine List.ext_getElem (by simp [renewParts]) fun i _ hi => ?_
  rw [List.length_mapIdx] at hi
  simp only [renewParts, List.getElem_mapIdx]
  by_cases hlines : i < lines.length
  · rw [if_pos (.inl (by simp; omega))]
  · have hi' : i = lines.length := by
      rw [List.length_append, List.length_singleton] at hi
      omega
    subst hi'
    rw [List.getElem_concat_length rfl, if_pos (.inr hlast)]

/-- The parts of a text with a new text for some of its lines. -/
theorem cutAt_renewLines {texts : Nat → Option (List Char)}
    (htexts : ∀ line new, texts line = some new → '\n' ∉ new.dropLast) :
    cutAt '\n' (renewLines content texts) = renewParts texts (cutAt '\n' content) := by
  obtain ⟨lines, last, hcut⟩ := exists_last_part content
  have hsingle : ∀ part ∈ renewParts texts (lines ++ [last]), '\n' ∉ part :=
    renewParts_single htexts fun part hpart =>
      not_mem_of_line content (hcut ▸ hpart)
  have hlast := getLast_part_eq_nil hcut
  suffices h : renewLines content texts = joinLines (renewParts texts (lines ++ [last])) by
    rw [h, hcut, cutAt_joinLines (by simp [renewParts]) hsingle]
  unfold renewLines linesOf
  by_cases hnone : last = []
  · rw [if_pos (hlast.mp hnone), hcut, hnone, List.dropLast_concat, renewParts_finished,
      joinLines_around, begun_nil, List.append_nil, List.append_nil]
    rcases hlast.mp hnone with rfl | hend
    · obtain rfl : lines = [] := by simpa [cutAt, hnone] using hcut
      rfl
    · have hne : lines.mapIdx (renewed texts) ≠ [] := by
        rintro h
        rw [List.mapIdx_eq_nil_iff] at h
        rw [h, hnone] at hcut
        rw [← joinLines_cutAt content, hcut] at hend
        exact absurd hend (by simp [joinLines])
      rw [if_pos hend, ended_eq hne]
  · have hend := fun h => hnone (hlast.mpr h)
    rw [if_neg hend, if_neg fun h => hend (.inr h), hcut, renewParts_unfinished texts hnone,
      List.append_nil]

/-! ### One after another -/

/-- A line that gets no new text later may get it first. -/
theorem renewParts_replacePart {texts : Nat → Option (List Char)} {line : Nat} {new : List Char}
    (hnone : texts line = none) : renewParts texts (replacePart line new parts) =
      renewParts (fun l => if l = line then some new else texts l) parts := by
  refine List.ext_getElem (by simp [renewParts, replacePart]) fun i hi _ => ?_
  simp only [renewParts, replacePart, List.getElem_mapIdx, List.length_mapIdx]
  by_cases hline : i + 1 = line
  · subst hline
    simp [renewed, hnone]
  · simp [renewed, hline]

/-- A line that has its new text keeps it when it gets it again. -/
theorem replacePart_renewParts {texts : Nat → Option (List Char)} {line : Nat} {new : List Char}
    (hsome : texts line = some new) :
    replacePart line new (renewParts texts parts) = renewParts texts parts := by
  refine List.ext_getElem (by simp [renewParts, replacePart]) fun i _ hi => ?_
  have hparts : i < parts.length := by simpa [renewParts] using hi
  simp only [renewParts, replacePart, List.getElem_mapIdx, List.length_mapIdx]
  by_cases hline : i + 1 = line
  · subst hline
    by_cases hthere : i + 1 < parts.length ∨ parts[i] ≠ []
    · simp [renewed, hsome, hthere, newLine_newLine]
    · rw [if_neg hthere, if_neg fun h => hthere h.2]
  · simp [hline]

variable {fixes : List (Nat × String)}

theorem textFor_cons (f : Nat × String) (fixes : List (Nat × String)) : textFor (f :: fixes) =
    fun line => if line = f.1 then some f.2.toList else textFor fixes line := by
  funext line
  unfold textFor
  by_cases h : line = f.1
  · subst h
    rw [List.lookup_cons_self, if_pos rfl, Option.map_some]
  · have hbeq : (line == f.1) = false := beq_eq_false_iff_ne.mpr h
    rw [List.lookup_cons, hbeq, if_neg h]

theorem textFor_single (hsingle : ∀ f ∈ fixes, '\n' ∉ f.2.toList.dropLast) (line : Nat)
    (new : List Char) (h : textFor fixes line = some new) : '\n' ∉ new.dropLast := by
  obtain ⟨text, hlookup, rfl⟩ := Option.map_eq_some_iff.mp h
  obtain ⟨before, after, rfl, -⟩ := List.lookup_eq_some_iff.mp hlookup
  exact hsingle (line, text) (List.mem_append_right _ List.mem_cons_self)

theorem cutAt_replaceLine {content new : String} {line : Nat} (hnew : '\n' ∉ new.toList.dropLast) :
    cutAt '\n' (replaceLine content line new).toList =
      replacePart line new.toList (cutAt '\n' content.toList) := by
  rw [replaceLine, String.toList_ofList, cutAt_replace hnew]

theorem cutAt_replaceLines {content : String}
    (hsingle : ∀ f ∈ fixes, '\n' ∉ f.2.toList.dropLast) :
    cutAt '\n' (replaceLines content fixes).toList =
      renewParts (textFor fixes) (cutAt '\n' content.toList) := by
  rw [replaceLines, String.toList_ofList, cutAt_renewLines (textFor_single hsingle)]

/-- A text after some fixes, one after another. -/
def fixAll (content : String) (fixes : List (Nat × String)) : String :=
  fixes.foldl (fun text f => replaceLine text f.1 f.2) content

/-- The parts of a text after fixes of different lines. -/
theorem cutAt_fixAll {content : String} (hdistinct : (fixes.map Prod.fst).Nodup)
    (hsingle : ∀ f ∈ fixes, '\n' ∉ f.2.toList.dropLast) :
    cutAt '\n' (fixAll content fixes).toList =
      renewParts (textFor fixes) (cutAt '\n' content.toList) := by
  induction fixes generalizing content with
  | nil =>
    refine List.ext_getElem (by simp [fixAll, renewParts]) fun i _ _ => ?_
    simp [fixAll, renewParts, renewed, textFor]
  | cons f rest ih =>
    obtain ⟨hfirst, hrest⟩ := List.nodup_cons.mp hdistinct
    have hnone : textFor rest f.1 = none := by
      rw [textFor, Option.map_eq_none_iff, List.lookup_eq_none_iff]
      intro p hp
      simpa using fun heq : f.1 = p.1 => hfirst (heq ▸ List.mem_map_of_mem hp)
    have hih : cutAt '\n' (fixAll (replaceLine content f.1 f.2) rest).toList =
        renewParts (textFor rest) (cutAt '\n' (replaceLine content f.1 f.2).toList) :=
      ih hrest fun g hg => hsingle g (List.mem_cons_of_mem _ hg)
    rw [cutAt_replaceLine (hsingle f List.mem_cons_self), renewParts_replacePart hnone] at hih
    rw [fixAll, List.foldl_cons, textFor_cons]
    exact hih

/-- **Fixes in any order** come to the same as all at once. -/
theorem fixAll_perm {content : String} {order : List (Nat × String)}
    (hdistinct : (fixes.map Prod.fst).Nodup) (hsingle : ∀ f ∈ fixes, '\n' ∉ f.2.toList.dropLast)
    (hperm : order.Perm fixes) : fixAll content order = replaceLines content fixes := by
  have horder : (order.map Prod.fst).Nodup := (hperm.map Prod.fst).nodup_iff.mpr hdistinct
  have htexts : textFor order = textFor fixes := by
    funext line
    rw [textFor, lookup_perm hperm hdistinct, textFor]
  apply String.toList_inj.mp
  apply eq_of_cutAt_eq
  rw [cutAt_fixAll horder fun f hf => hsingle f (hperm.mem_iff.mp hf), cutAt_replaceLines hsingle,
    htexts]

/-- A fix that was made changes nothing when it is made again. -/
theorem replaceLine_replaceLines {content : String} (hdistinct : (fixes.map Prod.fst).Nodup)
    (hsingle : ∀ f ∈ fixes, '\n' ∉ f.2.toList.dropLast) {f : Nat × String} (hf : f ∈ fixes) :
    replaceLine (replaceLines content fixes) f.1 f.2 = replaceLines content fixes := by
  have hsome : textFor fixes f.1 = some f.2.toList :=
    Option.map_eq_some_iff.mpr ⟨f.2, (lookup_eq_some_iff_mem hdistinct).mpr hf, rfl⟩
  apply String.toList_inj.mp
  apply eq_of_cutAt_eq
  rw [cutAt_replaceLine (hsingle f hf), cutAt_replaceLines hsingle, replacePart_renewParts hsome]

end Text

/-! ### Files -/

/-- Fixes of a file, one after another. -/
def FileTree.fixLines (t : FileTree) (start : Place) (p : Path) (fixes : List (Nat × String)) :
    Except FixError FileTree :=
  fixes.foldlM (fun t f => (t.fixLine start p f.1 f.2).map Prod.fst) t

/-- Fixes of a file that holds a text are made, and the file holds then the text after them. -/
theorem FileTree.fixLines_of_readText {t : FileTree} {start : Place} {p : Path} {text : String}
    (hread : t.readText start p = .ok text) (fixes : List (Nat × String)) :
    ∃ u, t.fixLines start p fixes = .ok u ∧
      u.readText start p = .ok (Text.fixAll text fixes) := by
  induction fixes generalizing t text with
  | nil => exact ⟨t, rfl, hread⟩
  | cons f rest ih =>
    obtain ⟨u, hfix, hafter⟩ := fixLine_of_readText hread f.1 f.2
    obtain ⟨v, hrest, hlast⟩ := ih hafter
    refine ⟨v, ?_, hlast⟩
    rw [fixLines, List.foldlM_cons, hfix]
    exact hrest

/-- **Fixes of different lines are independent.** Made in any order, they come to the text in which
all lines that they are for are replaced at once, and there each of them changes nothing any more.
So does a file that holds the text, fix after fix. -/
theorem fixes_are_independent (content : String) (fixes : List (Nat × String))
    (hdistinct : (fixes.map Prod.fst).Nodup)
    (hsingle : ∀ f ∈ fixes, '\n' ∉ f.2.toList.dropLast) :
    (∀ order : List (Nat × String), order.Perm fixes →
      order.foldl (fun text f => Text.replaceLine text f.1 f.2) content =
        Text.replaceLines content fixes) ∧
    (∀ f ∈ fixes, Text.replaceLine (Text.replaceLines content fixes) f.1 f.2 =
      Text.replaceLines content fixes) ∧
    ∀ (t : FileTree) (start : Place) (p : Path), t.readText start p = .ok content →
      ∀ order : List (Nat × String), order.Perm fixes → ∃ u, t.fixLines start p order = .ok u ∧
        u.readText start p = .ok (Text.replaceLines content fixes) := by
  refine ⟨fun order hperm => Text.fixAll_perm hdistinct hsingle hperm,
    fun f hf => Text.replaceLine_replaceLines hdistinct hsingle hf,
    fun t start p hread order hperm => ?_⟩
  rw [← Text.fixAll_perm hdistinct hsingle hperm]
  exact fixLines_of_readText hread order

/-- The first line of a text of two gets a line break of its own, the last one is emptied, and there
is no seventh. -/
def threeFixes : List (Nat × String) := [(2, ""), (7, "x"), (1, "z\n")]

/-- Emptying the last line first takes it from the lines that follow, and makes no difference. -/
theorem fixes_are_independent_emptied :
    (threeFixes.map Prod.fst).Nodup ∧ (∀ f ∈ threeFixes, '\n' ∉ f.2.toList.dropLast) ∧
    threeFixes.foldl (fun text f => Text.replaceLine text f.1 f.2) "a\r\nb" = "z\r\n" ∧
    threeFixes.reverse.foldl (fun text f => Text.replaceLine text f.1 f.2) "a\r\nb" = "z\r\n" ∧
    Text.replaceLine "z\r\n" 2 "" = "z\r\n" := by
  have hdistinct : (threeFixes.map Prod.fst).Nodup := by decide
  have hsingle : ∀ f ∈ threeFixes, '\n' ∉ f.2.toList.dropLast := by decide
  have hall : Text.replaceLines "a\r\nb" threeFixes = "z\r\n" := by decide +kernel
  obtain ⟨horder, hagain, -⟩ := fixes_are_independent "a\r\nb" threeFixes hdistinct hsingle
  rw [hall] at horder hagain
  exact ⟨hdistinct, hsingle, horder _ (List.Perm.refl _), horder _ (List.reverse_perm _),
    hagain (2, "") (by decide)⟩

end ReviewMentor
