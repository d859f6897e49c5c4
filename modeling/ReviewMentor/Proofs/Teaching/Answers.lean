import ReviewMentor.Proofs.Teaching.Headings

/-!
# Reading answers

The sections of an answer are read back whatever their order, and from any text at all each section
is read as what stands between the first header line with its name under which something is said and
the next header line.
-/

namespace ReviewMentor.Sections

open Text (cutAt joinLines begun ended LineIn)

/-! ### Where a section stands in a text -/

/-- A section of a text: a header line with its name, and what stands between that line and the next
header line or the end of the text. -/
structure SectionAt (text : List Char) (name : String) (before line between after : List Char) :
    Prop where
  header : LineIn text before line (between ++ after)
  named : ∃ h : Header, h.line = line ∧ h.name = name
  headerless : ∀ part ∈ cutAt '\n' between, ∀ h : Header, h.line ≠ part
  next : after = [] ∨ between.getLast? = some '\n' ∧
    ∃ (h : Header) (rest : List Char), LineIn after [] h.line rest

/-- What a text tells in its sections with a name: what the first of them says that says anything,
and nothing if there is none. -/
inductive Tells (text : List Char) (name : String) : String → Prop where
  | first {before line between after : List Char}
      (there : SectionAt text name before line between after)
      (speaks : Text.trim (String.ofList between) ≠ "")
      (earlier : ∀ {before' line' between' after'},
        SectionAt text name before' line' between' after' → before'.length < before.length →
          Text.trim (String.ofList between') = "") :
      Tells text name (Text.trim (String.ofList between))
  | silent
      (nothing : ∀ {before line between after}, SectionAt text name before line between after →
        Text.trim (String.ofList between) = "") :
      Tells text name ""

section Places

variable {text before line between after : List Char} {name : String}
  {above below rest : List (List Char)}

theorem intercalate_eq_joinLines (lines : List (List Char)) :
    ['\n'].intercalate lines = joinLines lines := by
  induction lines with
  | nil => rfl
  | cons line rest ih =>
    cases rest with
    | nil => simp [joinLines]
    | cons next more => rw [List.intercalate_cons_cons, ih]; simp [joinLines]

theorem cutAt_begun (h : ∀ line ∈ below, '\n' ∉ line) : cutAt '\n' (begun below) = [] :: below := by
  have hjoin := Text.cutAt_joinLines (List.cons_ne_nil [] below)
    (List.forall_mem_cons.mpr ⟨List.not_mem_nil, h⟩)
  rwa [Text.joinLines_cons, List.nil_append] at hjoin

theorem begun_concat (below : List (List Char)) : begun below ++ ['\n'] = '\n' :: ended below := by
  induction below with
  | nil => rfl
  | cons line rest ih =>
    rw [Text.begun_cons, Text.ended_cons, ← ih]
    simp

/-- What stands below a header line is trimmed to what its section says. -/
theorem trim_begun {tail : List Char} (htail : tail = [] ∨ tail = ['\n']) :
    Text.trim (String.ofList (begun below ++ tail)) = body below := by
  have hblank : ∀ c ∈ tail, Text.isBlank c = true := by
    rcases htail with rfl | rfl <;> exact List.all_eq_true.mp rfl
  rw [body, intercalate_eq_joinLines]
  by_cases hbelow : below = []
  · have h := Text.trim_around [] hblank (List.forall_mem_nil _)
    simpa [hbelow, joinLines] using h
  · have hbreak : ∀ c ∈ ['\n'], Text.isBlank c = true := List.all_eq_true.mp rfl
    simpa [Text.begun_eq hbelow] using Text.trim_around (joinLines below) hbreak hblank

/-- What separates a section from the next one. -/
def border (rest : List (List Char)) : List Char := if rest = [] then [] else ['\n']

theorem border_cases (rest : List (List Char)) : border rest = [] ∨ border rest = ['\n'] := by
  unfold border
  split
  · exact .inl rfl
  · exact .inr rfl

theorem begun_append_border (below rest : List (List Char)) :
    begun below ++ border rest ++ joinLines rest = begun (below ++ rest) := by
  unfold border
  split
  · next h => simp [h, joinLines]
  · next h => simp [Text.begun_eq h]

theorem headerName?_nil : headerName? [] = none := rfl

/-- The parts of what stands between two header lines. -/
theorem mem_cutAt_between (h : ∀ line ∈ below, '\n' ∉ line) {part : List Char}
    (hpart : part ∈ cutAt '\n' (begun below ++ border rest)) : part = [] ∨ part ∈ below := by
  rcases border_cases rest with hborder | hborder
  · rw [hborder, List.append_nil, cutAt_begun h] at hpart
    exact List.mem_cons.mp hpart
  · rw [hborder, Text.cutAt_append_mark, cutAt_begun h, Text.cutAt_of_not_mem List.not_mem_nil]
      at hpart
    simpa [or_comm] using hpart

/-- A section stands in a text where it stands among the lines of the text. -/
theorem sectionAt_iff : SectionAt text name before line between after ↔
    ∃ above below rest, Stands (cutAt '\n' text) above name.toList line below rest ∧
      before = ended above ∧ between = begun below ++ border rest ∧ after = joinLines rest := by
  constructor
  · intro h
    obtain ⟨above, lines, hcut, hbefore, hlines⟩ := Text.lineIn_iff.mp h.header
    have hsingle : ∀ l ∈ lines, '\n' ∉ l := fun l hl =>
      Text.not_mem_of_line text
        (hcut ▸ List.mem_append_right _ (List.mem_cons_of_mem _ hl))
    have hparts := cutAt_begun hsingle
    have hnone : ∀ part ∈ cutAt '\n' between, headerName? part = none := fun part hpart =>
      headerName?_eq_none.mpr (h.headerless part hpart)
    rcases h.next with rfl | ⟨hlast, head, tail, hnext⟩
    · rw [List.append_nil] at hlines
      rw [hlines, hparts] at hnone
      exact ⟨above, lines, [], ⟨by rw [hcut, List.append_nil], isHeader_iff.mp h.named,
        fun l hl => hnone l (List.mem_cons_of_mem _ hl), by simp [Opens]⟩, hbefore,
        by simp [border, hlines], rfl⟩
    · obtain ⟨inside, hinside, hcuts⟩ := Text.exists_ended (.inr hlast)
      obtain ⟨none, below', hafter, hnil, -⟩ := Text.lineIn_iff.mp hnext
      obtain rfl : none = [] := by
        by_contra hne
        simp [Text.ended_eq hne] at hnil
      rw [← hlines, hcuts] at hparts
      rcases inside with _ | ⟨first, below⟩
      · simp [hinside] at hlast
      obtain ⟨rfl, rfl⟩ := List.cons.inj hparts
      refine ⟨above, below, cutAt '\n' after, ⟨hcut, isHeader_iff.mp h.named, fun l hl => ?_, ?_⟩,
        hbefore, ?_, (Text.joinLines_cutAt after).symm⟩
      · refine hnone l ?_
        rw [← List.append_nil between, hcuts]
        exact List.mem_append_left _ (List.mem_cons_of_mem _ hl)
      · rw [hafter]
        exact opens_cons (headerName?_line head)
      · rw [hinside, border, if_neg (Text.cutAt_ne_nil _ _), begun_concat]
        rfl
  · rintro ⟨above, below, rest, hstands, rfl, rfl, rfl⟩
    have hsingle : ∀ l ∈ below ++ rest, '\n' ∉ l := fun l hl =>
      Text.not_mem_of_line text
        (hstands.eq ▸ List.mem_append_right _ (List.mem_cons_of_mem _ hl))
    refine ⟨Text.lineIn_iff.mpr ⟨above, below ++ rest, hstands.eq, rfl, begun_append_border _ _⟩,
      isHeader_iff.mpr hstands.named, fun part hpart => headerName?_eq_none.mp ?_, ?_⟩
    · rcases mem_cutAt_between (fun l hl => hsingle l (List.mem_append_left _ hl)) hpart with
        rfl | hmem
      · exact headerName?_nil
      · exact hstands.headerless part hmem
    · rcases rest with _ | ⟨next, more⟩
      · exact .inl rfl
      · obtain ⟨cs, hnext⟩ := Option.ne_none_iff_exists'.mp (hstands.opens next rfl)
        obtain ⟨head, rfl, -⟩ := exists_header hnext
        have hcut := Text.cutAt_joinLines (List.cons_ne_nil head.line more)
          fun l hl => hsingle l (List.mem_append_right _ hl)
        exact .inr ⟨by simp [border], head, begun more,
          Text.lineIn_iff.mpr ⟨[], more, hcut, rfl, rfl⟩⟩

/-! ### What a text tells -/

/-- The sections of an explanation under the names they are asked for with. -/
def fields (s : Sections) : List (String × String) :=
  [("why", s.why), ("fix", s.fix), ("example", s.sample), ("protip", s.tip)]

/-- The names of the sections that are asked for. -/
def titles : List String := ["why", "fix", "example", "protip"]

theorem mem_fields_parse {answer : String} {f : String × String}
    (h : f ∈ (parse answer).fields) : f.1 ∈ titles ∧ f.2 = find f.1 (named answer) := by
  simp only [fields, parse, List.mem_cons, List.not_mem_nil, or_false] at h
  rcases h with rfl | rfl | rfl | rfl <;> simp [titles]

theorem trim_between (h : between = begun below ++ border rest) :
    Text.trim (String.ofList between) = body below :=
  h ▸ trim_begun (border_cases rest)

/-- What is above a header line is shorter when there are fewer lines. -/
theorem Stands.length_lt {lines above' below' rest' : List (List Char)}
    {cs cs' header header' : List Char} (h : Stands lines above cs header below rest)
    (h' : Stands lines above' cs' header' below' rest')
    (hlt : (ended above').length < (ended above).length) : above'.length < above.length := by
  by_contra hge
  obtain ⟨more, rfl⟩ : above <+: above' := List.prefix_of_prefix_length_le
    (h.eq ▸ List.prefix_append _ _) (h'.eq ▸ List.prefix_append _ _) (not_lt.mp hge)
  rw [Text.ended_append, List.length_append] at hlt
  omega

/-- **What is found is what the text tells.** -/
theorem tells_find (answer name : String) :
    Tells answer.toList name (find name (named answer)) := by
  unfold find
  cases hfind : (named answer).find? fun s => s.1 = name && s.2 ≠ "" with
  | none =>
    refine .silent fun h => ?_
    obtain ⟨above, below, rest, hstands, -, hbetween, -⟩ := sectionAt_iff.mp h
    have hmem : (name, body below) ∈ named answer := by
      rw [named, hstands.split_eq, List.map_append, List.map_cons, String.ofList_toList]
      exact List.mem_append_right _ List.mem_cons_self
    rw [trim_between hbetween]
    simpa using List.find?_eq_none.mp hfind _ hmem
  | some found =>
    obtain ⟨hfound, before, after, hnamed, hearlier⟩ := List.find?_eq_some_iff_append.mp hfind
    rw [Bool.and_eq_true, decide_eq_true_eq, decide_eq_true_eq] at hfound
    obtain ⟨first, later, hsplit, rfl, htail⟩ := List.map_eq_append_iff.mp hnamed
    obtain ⟨⟨cs, below⟩, later, rfl, rfl, rfl⟩ := List.map_eq_cons_iff.mp htail
    obtain ⟨above, line, rest, hstands, habove⟩ := exists_stands hsplit
    obtain ⟨rfl, hspeaks⟩ := hfound
    have hthere : SectionAt answer.toList (String.ofList cs) (ended above) line
        (begun below ++ border rest) (joinLines rest) :=
      sectionAt_iff.mpr ⟨above, below, rest, by rwa [String.toList_ofList], rfl, rfl, rfl⟩
    have hbody := trim_between (rfl : begun below ++ border rest = begun below ++ border rest)
    show Tells answer.toList (String.ofList cs) (body below)
    rw [← hbody] at hspeaks ⊢
    refine .first hthere hspeaks fun h hlt => ?_
    obtain ⟨above', below', rest', hstands', rfl, hbetween', -⟩ := sectionAt_iff.mp h
    rw [String.toList_ofList] at hstands'
    obtain ⟨rest'', hwithin⟩ := hstands.within hstands' (hstands.length_lt hstands' hlt)
    have hmem : (cs, below') ∈ first := by
      rw [← habove, hwithin.split_eq]
      exact List.mem_append_right _ List.mem_cons_self
    rw [trim_between hbetween']
    simpa using hearlier _ (List.mem_map_of_mem hmem)

end Places

/-! ### Answers that are written -/

/-- A section that is written: a header line, and a body between blank lines. -/
structure Part where
  header : Header
  above : List (List Char)
  body : String
  below : List (List Char)
  single : '\n' ∉ header.after
  blank : ∀ line ∈ above ++ below, ∀ c ∈ line, Text.isBlank c = true ∧ c ≠ '\n'
  headerless : ∀ line ∈ cutAt '\n' body.toList, ∀ h : Header, h.line ≠ line

namespace Part

def name (p : Part) : String := p.header.name

/-- The lines below the header line. -/
def content (p : Part) : List (List Char) :=
  p.above ++ (if p.body = "" then [] else cutAt '\n' p.body.toList) ++ p.below

def lines (p : Part) : List (List Char) := p.header.line :: p.content

end Part

/-! ### Reading them back -/

theorem Header.not_mem_line {h : Header} (hafter : '\n' ∉ h.after) : '\n' ∉ h.line := by
  have hindent : '\n' ∉ h.indent := fun hmem => absurd (h.indented _ hmem) (by decide)
  have hgap : '\n' ∉ h.gap := fun hmem => absurd (h.gapped _ hmem) (by decide)
  have hletters : '\n' ∉ h.letters := fun hmem => absurd (h.plain _ hmem) (by decide)
  simp [Header.line, hindent, hgap, hletters, hafter]

/-- Blanks are no header line. -/
theorem headerName?_blank {line : List Char} (h : ∀ c ∈ line, Text.isBlank c = true) :
    headerName? line = none := by
  refine headerName?_eq_none.mpr ?_
  rintro head rfl
  exact absurd (h '#' (by simp [Header.line])) (by decide)

namespace Part

variable (p : Part)

/-- A line below a header line is a blank one or belongs to the body. -/
theorem mem_content {line : List Char} (h : line ∈ p.content) :
    line ∈ p.above ++ p.below ∨ line ∈ cutAt '\n' p.body.toList := by
  rw [content, List.mem_append, List.mem_append] at h
  rcases h with (h | h) | h
  · exact .inl (List.mem_append_left _ h)
  · split at h
    · exact absurd h List.not_mem_nil
    · exact .inr h
  · exact .inl (List.mem_append_right _ h)

theorem content_headerless : ∀ line ∈ p.content, headerName? line = none := by
  intro line hline
  rcases p.mem_content hline with h | h
  · exact headerName?_blank fun c hc => (p.blank line h c hc).1
  · exact headerName?_eq_none.mpr (p.headerless line h)

theorem lines_single : ∀ line ∈ p.lines, '\n' ∉ line := by
  intro line hline
  rcases List.mem_cons.mp hline with rfl | hline
  · exact Header.not_mem_line p.single
  · rcases p.mem_content hline with h | h
    · exact fun hmem => (p.blank line h _ hmem).2 rfl
    · exact Text.not_mem_of_mem_cutAt h

/-- What is said below a header line is the body without blanks around it. -/
theorem body_content : Sections.body p.content = Text.trim p.body := by
  have hblank : ∀ line ∈ p.above ++ p.below, ∀ c ∈ line, Text.isBlank c = true :=
    fun line hline c hc => (p.blank line hline c hc).1
  have hbreak : Text.isBlank '\n' = true := by decide
  rw [Sections.body, intercalate_eq_joinLines, content]
  split
  · next hnone =>
    have hall : ∀ c ∈ joinLines (p.above ++ p.below), Text.isBlank c = true := by
      intro c hc
      rcases Text.mem_joinLines hc with rfl | ⟨line, hline, hc⟩
      · exact hbreak
      · exact hblank line hline c hc
    rw [List.append_nil, hnone]
    simpa using Text.trim_around [] hall (List.forall_mem_nil _)
  · rw [Text.joinLines_between _ _ (Text.cutAt_ne_nil _ _), Text.joinLines_cutAt,
      Text.trim_around, String.ofList_toList]
    · intro c hc
      obtain ⟨line, hline, hc⟩ := List.mem_flatMap.mp hc
      rcases List.mem_append.mp hc with hc | hc
      · exact hblank line (List.mem_append_left _ hline) c hc
      · exact List.mem_singleton.mp hc ▸ hbreak
    · intro c hc
      obtain ⟨line, hline, hc⟩ := List.mem_flatMap.mp hc
      rcases List.mem_cons.mp hc with rfl | hc
      · exact hbreak
      · exact hblank line (List.mem_append_right _ hline) c hc

end Part

/-- An answer: some lines, and then sections. -/
def answer (intro : List (List Char)) (parts : List Part) : String :=
  String.ofList (joinLines (intro ++ parts.flatMap Part.lines))

variable {intro : List (List Char)} {parts : List Part}

theorem opens_parts (parts : List Part) : Opens (parts.flatMap Part.lines) := by
  cases parts with
  | nil => simp [Opens]
  | cons p rest => exact opens_cons (headerName?_line p.header)

/-- Sections that are written one after another are cut apart again. -/
theorem split_parts (parts : List Part) : split (parts.flatMap Part.lines) =
    ([], parts.map fun p => (p.header.letters.map Char.toLower, p.content)) := by
  induction parts with
  | nil => rfl
  | cons p rest ih =>
    rw [List.flatMap_cons, split_append (opens_parts rest), ih, Part.lines,
      split_cons_of_some (headerName?_line p.header), split_headerless p.content_headerless]
    rfl

/-- The sections of an answer are the ones that are written. -/
theorem named_answer (hintro : ∀ line ∈ intro, '\n' ∉ line ∧ ∀ h : Header, h.line ≠ line) :
    named (answer intro parts) = parts.map fun p => (p.name, Text.trim p.body) := by
  have hsplit : (split (cutAt '\n' (answer intro parts).toList)).2 =
      (split (parts.flatMap Part.lines)).2 := by
    rw [answer, String.toList_ofList]
    by_cases hnone : intro ++ parts.flatMap Part.lines = []
    · rw [hnone, (List.append_eq_nil_iff.mp hnone).2]
      rfl
    · rw [Text.cutAt_joinLines hnone, split_append (opens_parts parts),
        split_headerless fun line hline => headerName?_eq_none.mpr (hintro line hline).2]
      · rfl
      · intro line hline
        rcases List.mem_append.mp hline with h | h
        · exact (hintro line h).1
        · obtain ⟨p, -, h⟩ := List.mem_flatMap.mp h
          exact p.lines_single line h
  rw [named, hsplit, split_parts, List.map_map]
  exact List.map_congr_left fun p _ => congrArg (Prod.mk p.name) p.body_content

/-- A body that is written is found under its name. -/
theorem find_parts {p : Part} {name : String} (hname : name ∈ titles)
    (hdistinct : parts.Pairwise fun p q => p.name ∈ titles → p.name ≠ q.name)
    (hp : p ∈ parts) (hpname : p.name = name) (hbody : Text.trim p.body ≠ "") :
    find name (parts.map fun p => (p.name, Text.trim p.body)) = Text.trim p.body := by
  obtain ⟨before, after, rfl⟩ := List.append_of_mem hp
  have hbefore : ∀ q ∈ before, q.name ≠ name := by
    rintro q hq rfl
    exact (List.pairwise_append.mp hdistinct).2.2 q hq p List.mem_cons_self hname hpname.symm
  have hfind : ((before ++ p :: after).map fun p => (p.name, Text.trim p.body)).find?
      (fun s => s.1 = name && s.2 ≠ "") = some (p.name, Text.trim p.body) := by
    rw [List.map_append, List.map_cons, List.find?_append, List.find?_eq_none.mpr, Option.none_or,
      List.find?_cons_of_pos]
    · simp [hpname, hbody]
    · intro s hs
      obtain ⟨q, hq, rfl⟩ := List.mem_map.mp hs
      simp [hbefore q hq]
  rw [find, hfind]
  rfl

theorem find_parts_of_ne {name : String} (h : ∀ p ∈ parts, p.name ≠ name) :
    find name (parts.map fun p => (p.name, Text.trim p.body)) = "" := by
  rw [find, List.find?_eq_none.mpr]
  · rfl
  · intro s hs
    obtain ⟨p, hp, rfl⟩ := List.mem_map.mp hs
    simp [h p hp]

/-- **Answers are read back.** Whatever the order of its sections, and whatever precedes them or
stands between them under other names, an answer is read as the texts that are written in it, and
what it does not hold is read as empty. Any text at all is read as what its sections tell. -/
theorem answers_are_read_back (intro : List (List Char)) (parts : List Part)
    (hintro : ∀ line ∈ intro, '\n' ∉ line ∧ ∀ h : Header, h.line ≠ line)
    (hdistinct : parts.Pairwise fun p q => p.name ∈ titles → p.name ≠ q.name)
    (hbody : ∀ p ∈ parts, p.name ∈ titles → p.body ≠ "" ∧ Text.trim p.body = p.body) :
    (∀ f ∈ (parse (answer intro parts)).fields,
      (∀ p ∈ parts, p.name = f.1 → f.2 = p.body) ∧ ((∀ p ∈ parts, p.name ≠ f.1) → f.2 = "")) ∧
    ∀ text : String, ∀ f ∈ (parse text).fields, Tells text.toList f.1 f.2 := by
  constructor
  · intro f hf
    obtain ⟨htitle, hfind⟩ := mem_fields_parse hf
    rw [named_answer hintro] at hfind
    refine ⟨fun p hp hname => ?_, fun hnone => hfind.trans (find_parts_of_ne hnone)⟩
    obtain ⟨hspeaks, htrim⟩ := hbody p hp (by rwa [hname])
    rw [hfind, find_parts htitle hdistinct hp hname (by rwa [htrim]), htrim]
  · intro text f hf
    rw [(mem_fields_parse hf).2]
    exact tells_find text f.1

/-- An indented header line with text after the name. -/
def tipHeader : Header where
  indent := ['\t']
  gap := []
  letters := "PROTIP".toList
  after := ": more\r".toList
  indented := List.all_eq_true.mp rfl
  gapped := List.all_eq_true.mp rfl
  named := by decide
  plain := List.all_eq_true.mp rfl
  stops := by rintro _ ⟨⟩; rfl

def notesHeader : Header where
  indent := []
  gap := [' ']
  letters := "Notes".toList
  after := []
  indented := List.all_eq_true.mp rfl
  gapped := List.all_eq_true.mp rfl
  named := by decide
  plain := List.all_eq_true.mp rfl
  stops := by simp

theorem headerless_of_headerName? {lines : List (List Char)}
    (h : ∀ line ∈ lines, headerName? line = none) : ∀ line ∈ lines, ∀ h : Header, h.line ≠ line :=
  fun line hline => headerName?_eq_none.mp (h line hline)

/-- A tip of two lines of which the second one is nearly a header line. -/
def tipPart : Part where
  header := tipHeader
  above := []
  body := "Run it.\n#### Twice"
  below := [" ".toList]
  single := by decide
  blank := by simp [Text.isBlank]
  headerless := headerless_of_headerName? (by decide)

def notesPart : Part where
  header := notesHeader
  above := []
  body := ""
  below := []
  single := by decide
  blank := List.forall_mem_nil _
  headerless := headerless_of_headerName? (by decide)

/-- A tip after notes is read back, and of two sections the first one that says anything counts. -/
theorem answers_are_read_back_tip :
    answer ["Well".toList] [notesPart, tipPart] =
      "Well\n### Notes\n\t###PROTIP: more\r\nRun it.\n#### Twice\n " ∧
    (parse (answer ["Well".toList] [notesPart, tipPart])).tip = "Run it.\n#### Twice" ∧
    (parse (answer ["Well".toList] [notesPart, tipPart])).why = "" ∧
    Tells "### Why\n \n### why\nLast".toList "why" "Last" := by
  obtain ⟨hwritten, htold⟩ := answers_are_read_back ["Well".toList] [notesPart, tipPart]
    (by simpa using headerName?_eq_none.mp (by decide)) (by decide +kernel)
    (by decide +kernel)
  have hlast : (parse "### Why\n \n### why\nLast").why = "Last" := by decide +kernel
  refine ⟨by decide +kernel, ?_, ?_, ?_⟩
  · exact (hwritten ("protip", _) (by simp [fields])).1 tipPart (by simp) (by decide)
  · exact (hwritten ("why", _) (by simp [fields])).2 (by decide)
  · rw [← hlast]
    exact htold _ ("why", _) (by simp [fields])

end ReviewMentor.Sections
