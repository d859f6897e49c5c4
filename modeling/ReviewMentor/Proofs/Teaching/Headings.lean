import Mathlib.Data.List.TakeWhile
import ReviewMentor.Teaching.Sections
import ReviewMentor.Proofs.Text.Lines
import ReviewMentor.Proofs.Text.Trimming

/-!
# Header lines and sections

What a header line looks like, and where a section stands: below a header line, over lines none of
which is one, up to the next header line or the end. Lines are cut into just the sections that stand
among them, in their order.
-/

namespace ReviewMentor.Sections

/-! ### Header lines -/

/-- A header line: three marks, and a name of plain letters that ends where they do. -/
structure Header where
  indent : List Char
  gap : List Char
  letters : List Char
  after : List Char
  indented : ∀ c ∈ indent, isGap c = true
  gapped : ∀ c ∈ gap, isGap c = true
  named : letters ≠ []
  plain : ∀ c ∈ letters, isPlainLetter c = true
  stops : ∀ c ∈ after.head?, isPlainLetter c = false

namespace Header

def line (h : Header) : List Char :=
  h.indent ++ '#' :: '#' :: '#' :: (h.gap ++ (h.letters ++ h.after))

/-- The name in lower case. -/
def name (h : Header) : String := String.ofList (h.letters.map Char.toLower)

end Header

/-- A blank does not begin a name. -/
theorem isGap_of_isPlainLetter {c : Char} (h : isPlainLetter c = true) : isGap c = false := by
  by_contra hgap
  rw [Bool.not_eq_false, isGap, Bool.or_eq_true, decide_eq_true_eq, decide_eq_true_eq] at hgap
  rcases hgap with rfl | rfl <;> exact absurd h (by decide)

variable {cs line : List Char}

theorem headerName?_line (h : Header) : headerName? h.line = some (h.letters.map Char.toLower) := by
  obtain ⟨first, rest, hletters⟩ := List.exists_cons_of_ne_nil h.named
  have hfirst : isGap first = false :=
    isGap_of_isPlainLetter (h.plain first (hletters ▸ List.mem_cons_self))
  have hname : ((h.gap ++ (h.letters ++ h.after)).dropWhile isGap).takeWhile isPlainLetter =
      h.letters := by
    rw [Text.dropWhile_run h.gapped (by simp [hletters, hfirst]),
      Text.takeWhile_run h.plain h.stops]
  rw [headerName?, Header.line, Text.dropWhile_run h.indented (by simp [isGap])]
  simp only [hname]
  simp only [hletters]

theorem exists_header (h : headerName? line = some cs) :
    ∃ head : Header, head.line = line ∧ head.letters.map Char.toLower = cs := by
  unfold headerName? at h
  split at h
  · next rest hrest =>
    split at h
    · exact absurd h (by simp)
    · next letters hletters =>
      refine ⟨⟨line.takeWhile isGap, rest.takeWhile isGap,
        (rest.dropWhile isGap).takeWhile isPlainLetter,
        (rest.dropWhile isGap).dropWhile isPlainLetter, fun c hc => List.mem_takeWhile_imp hc,
        fun c hc => List.mem_takeWhile_imp hc, hletters, fun c hc => List.mem_takeWhile_imp hc,
        Text.head?_dropWhile _ _⟩, ?_, Option.some.inj h⟩
      rw [Header.line, List.takeWhile_append_dropWhile, List.takeWhile_append_dropWhile, ← hrest,
        List.takeWhile_append_dropWhile]
  · exact absurd h (by simp)

/-- A line is a header line with a name just if that name is read from it. -/
theorem isHeader_iff {name : String} :
    (∃ h : Header, h.line = line ∧ h.name = name) ↔ headerName? line = some name.toList := by
  constructor
  · rintro ⟨h, rfl, rfl⟩
    rw [headerName?_line, Header.name, String.toList_ofList]
  · intro h
    obtain ⟨head, hline, hname⟩ := exists_header h
    exact ⟨head, hline, by rw [Header.name, hname, String.ofList_toList]⟩

theorem headerName?_eq_none : headerName? line = none ↔ ∀ h : Header, h.line ≠ line := by
  constructor
  · rintro hnone h rfl
    exact absurd ((headerName?_line h).symm.trans hnone) (by simp)
  · intro h
    by_contra hne
    obtain ⟨cs, hcs⟩ := Option.ne_none_iff_exists'.mp hne
    obtain ⟨head, hline, -⟩ := exists_header hcs
    exact h head hline

/-! ### Sections among lines -/

/-- Lines that are none or begin with a header line. -/
def Opens (lines : List (List Char)) : Prop := ∀ line ∈ lines.head?, headerName? line ≠ none

/-- Where a section stands among lines. -/
structure Stands (lines above : List (List Char)) (name header : List Char)
    (below rest : List (List Char)) : Prop where
  eq : lines = above ++ header :: (below ++ rest)
  named : headerName? header = some name
  headerless : ∀ line ∈ below, headerName? line = none
  opens : Opens rest

variable {lines above below rest more : List (List Char)} {name header : List Char}

theorem split_cons_of_some (h : headerName? header = some name) :
    split (header :: lines) = ([], (name, (split lines).1) :: (split lines).2) := by
  rw [split, h]

theorem split_cons_of_none (h : headerName? line = none) :
    split (line :: lines) = (line :: (split lines).1, (split lines).2) := by
  rw [split, h]

theorem split_opens (h : Opens lines) : (split lines).1 = [] := by
  cases lines with
  | nil => rfl
  | cons first more =>
    obtain ⟨name, hname⟩ := Option.ne_none_iff_exists'.mp (h first rfl)
    rw [split_cons_of_some hname]

/-- The sections before a header line are cut on their own. -/
theorem split_append (h : Opens more) :
    split (lines ++ more) = ((split lines).1, (split lines).2 ++ (split more).2) := by
  induction lines with
  | nil => exact Prod.ext (split_opens h) rfl
  | cons line rest ih =>
    rw [List.cons_append]
    cases hname : headerName? line with
    | none => rw [split_cons_of_none hname, split_cons_of_none hname, ih]
    | some name => rw [split_cons_of_some hname, split_cons_of_some hname, ih, List.cons_append]

theorem split_headerless (h : ∀ line ∈ lines, headerName? line = none) :
    split lines = (lines, []) := by
  induction lines with
  | nil => rfl
  | cons line rest ih =>
    rw [split_cons_of_none (h line List.mem_cons_self),
      ih fun l hl => h l (List.mem_cons_of_mem _ hl)]

theorem opens_cons (h : headerName? header = some name) : Opens (header :: lines) := by
  rintro line ⟨⟩
  rw [h]
  exact Option.some_ne_none _

/-- A section that stands among lines is cut out of them, after those above it. -/
theorem Stands.split_eq (h : Stands lines above name header below rest) :
    (split lines).2 = (split above).2 ++ (name, below) :: (split rest).2 := by
  rw [h.eq, split_append (opens_cons h.named), split_cons_of_some h.named, split_append h.opens,
    split_headerless h.headerless]
  rfl

theorem exists_opens (lines : List (List Char)) :
    ∃ more, lines = (split lines).1 ++ more ∧ Opens more ∧
      ∀ line ∈ (split lines).1, headerName? line = none := by
  induction lines with
  | nil => exact ⟨[], rfl, by simp [Opens], by simp [split]⟩
  | cons line rest ih =>
    cases hname : headerName? line with
    | none =>
      obtain ⟨more, hrest, hopens, hnone⟩ := ih
      rw [split_cons_of_none hname]
      exact ⟨more, congrArg (line :: ·) hrest, hopens, List.forall_mem_cons.mpr ⟨hname, hnone⟩⟩
    | some name =>
      rw [split_cons_of_some hname]
      exact ⟨line :: rest, rfl, opens_cons hname, fun _ hnil => absurd hnil List.not_mem_nil⟩

/-- A section that is cut out of lines stands among them. -/
theorem exists_stands {first later : List (List Char × List (List Char))}
    (h : (split lines).2 = first ++ (name, below) :: later) :
    ∃ above header rest, Stands lines above name header below rest ∧ (split above).2 = first := by
  induction lines generalizing first with
  | nil => exact absurd h (by simp [split])
  | cons line rest ih =>
    cases hname : headerName? line with
    | none =>
      rw [split_cons_of_none hname] at h
      obtain ⟨above, header, tail, hstands, hfirst⟩ := ih h
      exact ⟨line :: above, header, tail,
        ⟨congrArg (line :: ·) hstands.eq, hstands.named, hstands.headerless, hstands.opens⟩,
        by rw [split_cons_of_none hname, hfirst]⟩
    | some other =>
      rw [split_cons_of_some hname] at h
      rcases first with _ | ⟨next, first⟩
      · obtain ⟨heq, -⟩ := List.cons.inj h
        obtain ⟨rfl, rfl⟩ := Prod.mk.inj heq
        obtain ⟨more, hrest, hopens, hnone⟩ := exists_opens rest
        exact ⟨[], line, more, ⟨congrArg (line :: ·) hrest, hname, hnone, hopens⟩, rfl⟩
      · obtain ⟨rfl, hlater⟩ := List.cons.inj h
        obtain ⟨above, header, tail, hstands, hfirst⟩ := ih hlater
        refine ⟨line :: above, header, tail,
          ⟨congrArg (line :: ·) hstands.eq, hstands.named, hstands.headerless, hstands.opens⟩, ?_⟩
        rw [split_cons_of_some hname, hfirst, hstands.eq, split_append (opens_cons hstands.named)]

/-- Of two sections, the one that begins first ends before the other begins. -/
theorem Stands.within {above' below' rest' : List (List Char)} {name' header' : List Char}
    (h : Stands lines above name header below rest)
    (h' : Stands lines above' name' header' below' rest') (hlt : above'.length < above.length) :
    ∃ rest'', Stands above above' name' header' below' rest'' := by
  have hpre : above' <+: above :=
    List.prefix_of_prefix_length_le (h'.eq ▸ List.prefix_append _ _)
      (h.eq ▸ List.prefix_append _ _) hlt.le
  obtain ⟨between, rfl⟩ := hpre
  have heq := h.eq.symm.trans h'.eq
  rw [List.append_assoc, List.append_cancel_left_eq] at heq
  rcases between with _ | ⟨first, between⟩
  · simp at hlt
  rw [List.cons_append] at heq
  obtain ⟨rfl, htail⟩ := List.cons.inj heq
  have hheader : header ∉ below' := fun hmem => by
    simpa [h.named] using h'.headerless header hmem
  rcases List.append_eq_append_iff.mp htail with ⟨inside, hbelow, hrest⟩ | ⟨tail, rfl, hrest⟩
  · -- the lines below the first header would reach to the second one
    rcases inside with _ | ⟨line, inside⟩
    · refine ⟨[], ?_, h'.named, h'.headerless, by simp [Opens]⟩
      rw [hbelow]
      simp
    · obtain ⟨rfl, -⟩ := List.cons.inj hrest
      exact absurd (hbelow ▸ List.mem_append_right _ List.mem_cons_self) hheader
  · refine ⟨tail, rfl, h'.named, h'.headerless, fun line hline => h'.opens line ?_⟩
    rw [hrest, List.head?_append, hline, Option.some_or]
    rfl

end ReviewMentor.Sections
