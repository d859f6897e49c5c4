import ReviewMentor.Cli.Commands
import ReviewMentor.Proofs.Analysis.Composition

/-!
# Listings of issues

The text of a review lists the issues of each report by file and line, each of them once. A report
that failed is the exception: only its error is shown, while the total counts its issues too. So the
text adds up exactly if no report that is shown by its error has issues.
-/

namespace ReviewMentor

open Effect

/-! ### Sorted by file and line -/

namespace Issue

/-- The issue stands in an earlier file than the other one, or in the same file and not below it. -/
def Precedes (a b : Issue) : Prop := a.file < b.file ∨ a.file = b.file ∧ a.line ≤ b.line

/-- Whether an issue is at a place. -/
def isAt (file : String) (line : Nat) (i : Issue) : Bool := i.file = file && i.line = line

theorem precedes_iff {a b : Issue} : a.precedes b = true ↔ a.Precedes b := by
  simp [precedes, Precedes]

theorem isAt_iff {file : String} {line : Nat} {i : Issue} :
    i.isAt file line = true ↔ i.file = file ∧ i.line = line := by
  simp [isAt]

theorem isAt_self (i : Issue) : i.isAt i.file i.line = true := isAt_iff.mpr ⟨rfl, rfl⟩

theorem precedes_trans (a b c : Issue) (hab : a.precedes b = true) (hbc : b.precedes c = true) :
    a.precedes c = true := by
  rw [precedes_iff] at hab hbc ⊢
  rcases hab with hab | ⟨hab, hline⟩ <;> rcases hbc with hbc | ⟨hbc, hline'⟩
  · exact .inl (String.lt_trans hab hbc)
  · exact .inl (hbc ▸ hab)
  · exact .inl (hab ▸ hbc)
  · exact .inr ⟨hab.trans hbc, Nat.le_trans hline hline'⟩

theorem precedes_total (a b : Issue) : (a.precedes b || b.precedes a) = true := by
  rw [Bool.or_eq_true, precedes_iff, precedes_iff]
  by_cases hab : a.file < b.file
  · exact .inl (.inl hab)
  by_cases hba : b.file < a.file
  · exact .inr (.inl hba)
  have hfile : a.file = b.file :=
    String.le_antisymm (String.not_lt.mp hba) (String.not_lt.mp hab)
  rcases Nat.le_total a.line b.line with hline | hline
  · exact .inl (.inr ⟨hfile, hline⟩)
  · exact .inr (.inr ⟨hfile.symm, hline⟩)

/-- Issues that precede each other are at one place. -/
theorem Precedes.isAt {a b : Issue} (hab : a.Precedes b) (hba : b.Precedes a) :
    b.isAt a.file a.line = true := by
  rcases hab with hlt | ⟨hfile, hline⟩ <;> rcases hba with hlt' | ⟨hfile', hline'⟩
  · exact absurd hlt' (String.lt_asymm hlt)
  · exact absurd hlt (hfile' ▸ String.lt_irrefl _)
  · exact absurd hlt' (hfile ▸ String.lt_irrefl _)
  · exact isAt_iff.mpr ⟨hfile.symm, Nat.le_antisymm hline' hline⟩

end Issue

/-- A listing of issues: each of them once, in the order of files and then of lines, and those at
one place in their old order. -/
structure Listed (issues listed : List Issue) : Prop where
  perm : listed.Perm issues
  ordered : listed.Pairwise Issue.Precedes
  stable : ∀ file line, listed.filter (Issue.isAt file line) = issues.filter (Issue.isAt file line)

/-- Sorted issues are a listing of them. -/
theorem listed_mergeSort (issues : List Issue) :
    Listed issues (issues.mergeSort Issue.precedes) := by
  have hperm := List.mergeSort_perm issues Issue.precedes
  have hsorted : (issues.mergeSort Issue.precedes).Pairwise fun a b => a.precedes b = true :=
    List.pairwise_mergeSort Issue.precedes_trans Issue.precedes_total issues
  refine ⟨hperm, hsorted.imp fun h => Issue.precedes_iff.mp h, fun file line => ?_⟩
  -- issues at one place precede each other, so that sorting keeps them as they are
  have hplace : (issues.filter (Issue.isAt file line)).Pairwise
      fun a b => a.precedes b = true := by
    refine List.pairwise_of_forall_mem_list fun a ha b hb => Issue.precedes_iff.mpr (.inr ?_)
    obtain ⟨hfile, hline⟩ := Issue.isAt_iff.mp (List.of_mem_filter ha)
    obtain ⟨hfile', hline'⟩ := Issue.isAt_iff.mp (List.of_mem_filter hb)
    exact ⟨hfile.trans hfile'.symm, Nat.le_of_eq (hline.trans hline'.symm)⟩
  have hkept : (issues.filter (Issue.isAt file line)).Sublist (issues.mergeSort Issue.precedes) :=
    List.sublist_mergeSort Issue.precedes_trans Issue.precedes_total hplace List.filter_sublist
  have hsublist := hkept.filter (Issue.isAt file line)
  rw [List.filter_filter] at hsublist
  simp only [Bool.and_self] at hsublist
  exact (hsublist.eq_of_length (hperm.filter _).length_eq.symm).symm

theorem mem_of_places {xs ys : List Issue}
    (h : ∀ file line, xs.filter (Issue.isAt file line) = ys.filter (Issue.isAt file line))
    {i : Issue} (hi : i ∈ xs) : i ∈ ys := by
  have hat := List.mem_filter.mpr ⟨hi, i.isAt_self⟩
  rw [h] at hat
  exact List.mem_of_mem_filter hat

/-- Lists in order with the same issues in the same order at each place are the same. -/
theorem eq_of_places {xs ys : List Issue} (hxs : xs.Pairwise Issue.Precedes)
    (hys : ys.Pairwise Issue.Precedes)
    (h : ∀ file line, xs.filter (Issue.isAt file line) = ys.filter (Issue.isAt file line)) :
    xs = ys := by
  induction xs generalizing ys with
  | nil =>
    exact (List.eq_nil_iff_forall_not_mem.mpr fun i hi =>
      List.not_mem_nil (mem_of_places (fun file line => (h file line).symm) hi)).symm
  | cons x xs ih =>
    cases ys with
    | nil => exact absurd (mem_of_places h List.mem_cons_self) List.not_mem_nil
    | cons y ys =>
      obtain ⟨hx, hmore⟩ := List.pairwise_cons.mp hxs
      obtain ⟨hy, hmore'⟩ := List.pairwise_cons.mp hys
      -- the first issues precede each other, so that they are the first ones at one place
      have hat : y.isAt x.file x.line = true := by
        rcases List.mem_cons.mp (mem_of_places h List.mem_cons_self) with rfl | hxy
        · exact Issue.isAt_self _
        rcases List.mem_cons.mp (mem_of_places (fun file line => (h file line).symm)
          List.mem_cons_self) with rfl | hyx
        · exact Issue.isAt_self _
        exact (hx y hyx).isAt (hy x hxy)
      have hfirst := h x.file x.line
      rw [List.filter_cons_of_pos x.isAt_self, List.filter_cons_of_pos hat] at hfirst
      obtain rfl := (List.cons.inj hfirst).1
      refine congrArg _ (ih hmore hmore' fun file line => ?_)
      have hboth := h file line
      rw [List.filter_cons, List.filter_cons] at hboth
      split at hboth
      · exact (List.cons.inj hboth).2
      · exact hboth

/-- There is only one listing of given issues. -/
theorem Listed.unique {issues listed other : List Issue} (h : Listed issues listed)
    (h' : Listed issues other) : listed = other :=
  eq_of_places h.ordered h'.ordered fun file line =>
    (h.stable file line).trans (h'.stable file line).symm

/-! ### Paragraphs -/

/-- The number of characters that show some issues. -/
def widthOf (issues : List Issue) : Nat := (String.join (issues.map Issue.display)).length

theorem widthOf_perm {issues listed : List Issue} (h : listed.Perm issues) :
    widthOf listed = widthOf issues := by
  unfold widthOf
  rw [String.length_join, String.length_join]
  exact ((h.map _).map _).sum_nat

theorem widthOf_pos {issues : List Issue} (h : issues ≠ []) : 0 < widthOf issues := by
  obtain ⟨i, more, rfl⟩ := List.exists_cons_of_ne_nil h
  have hbreak : ("\n" : String).length = 1 := rfl
  rw [widthOf, List.map_cons, String.join_cons, String.length_append, Issue.display,
    String.length_append, hbreak]
  omega

namespace Report

/-- The report failed with an error and has issues all the same. -/
def Hides (r : Report) : Prop := r.success = false ∧ r.error ≠ none ∧ r.issues ≠ []

/-- The error that is shown in place of the issues. -/
def shownError? (r : Report) : Option String := r.error.filter fun _ => !r.success

/-- The issues that are shown. -/
def shown (r : Report) : List Issue :=
  match r.shownError? with
  | some _ => []
  | none => r.issues

/-- The first line of the paragraph of a report. -/
def heading (title : String) (r : Report) : String :=
  match r.shownError? with
  | some e => "⚠ " ++ title ++ ": " ++ e ++ "\n"
  | none =>
    if r.issues.isEmpty then "✓ " ++ title ++ ": no issues\n"
    else "● " ++ title ++ ": " ++ toString r.issues.length ++ " issues\n"

/-- A paragraph with the first line of a report, a line for each of some issues, and an empty
line. -/
def paragraph (title : String) (r : Report) (listed : List Issue) : String :=
  r.heading title ++ String.join (listed.map Issue.display) ++ "\n"

variable {r : Report}

theorem shown_eq (r : Report) :
    r.shown = if r.success = false ∧ r.error ≠ none then [] else r.issues := by
  rcases r with ⟨_ | _, issues, _ | e⟩ <;> rfl

/-- A report is shown by one line, by lines for its sorted issues, and by an empty line. -/
theorem display_eq (title : String) (r : Report) :
    r.display title = r.paragraph title (r.shown.mergeSort Issue.precedes) := by
  have hbreaks : "\n\n" = "\n" ++ "\n" := rfl
  have hone : ": no issues\n\n" = ": no issues\n" ++ "\n" := rfl
  have hnone : String.join (([] : List Issue).map Issue.display) = "" := rfl
  unfold paragraph heading shown
  change (match r.shownError? with | some e => _ | none => _) = _
  rcases r.shownError? with _ | e
  · by_cases hnil : r.issues = []
    · simp only [hnil, List.isEmpty_nil, if_true, List.mergeSort_nil, hnone, hone,
        String.append_empty, String.append_assoc]
    · have hsome : ¬ r.issues.isEmpty = true := fun h => hnil (List.isEmpty_iff.mp h)
      simp only [if_neg hsome, String.append_assoc]
  · simp only [List.mergeSort_nil, hnone, hbreaks, String.append_empty, String.append_assoc]

theorem widthOf_shown_le (r : Report) : widthOf r.shown ≤ widthOf r.issues := by
  rw [shown_eq]
  split
  · exact Nat.zero_le _
  · exact Nat.le_refl _

theorem shown_of_not_hides (h : ¬ r.Hides) : r.shown = r.issues := by
  rw [shown_eq]
  split
  · next hfailed =>
    by_contra hne
    exact h ⟨hfailed.1, hfailed.2, fun hnil => hne hnil.symm⟩
  · rfl

theorem Hides.widthOf_shown_lt (h : r.Hides) : widthOf r.shown < widthOf r.issues := by
  rw [shown_eq, if_pos ⟨h.1, h.2.1⟩]
  exact widthOf_pos h.2.2

theorem length_paragraph (title : String) (r : Report) (listed : List Issue) :
    (r.paragraph title listed).length = (r.paragraph title []).length + widthOf listed := by
  have hnil : (String.join (([] : List Issue).map Issue.display)).length = 0 := rfl
  unfold paragraph widthOf
  simp only [String.length_append, hnil]
  omega

/-- The report of a run hides issues exactly if the program came to its end with an exit code that
does not mean a completed run, and printed issues all the same. -/
theorem hides_report_iff {a : Analyzer} {o : Outcome} {codes : List Int} {root : Root} :
    ((ToolRun.ofOutcome a o codes).report root).Hides ↔
      ∃ code, o.code? = some code ∧ code ∉ codes ∧ a.normalize o.stdout root ≠ [] := by
  have hnone (run : ToolRun) (h : run.stdout = "") : ¬ (run.report root).Hides := fun hhides =>
    hhides.2.2 (by rw [ToolRun.report, h, ToolRun.normalize_empty])
  cases o with
  | completed stdout stderr code =>
    by_cases hcode : code ∈ codes <;>
      simp [Hides, ToolRun.report, ToolRun.ofOutcome, Outcome.code?, Outcome.error?, Outcome.stdout,
        hcode]
  | failed message | timedOut tool seconds | cancelled tool =>
    refine iff_of_false (hnone _ rfl) ?_
    rintro ⟨code, hcode, -⟩
    exact Option.some_ne_none code hcode.symm

end Report

/-! ### What the command prints -/

namespace Program

/-- Nothing has been printed in between. -/
def SamePrinted (c c' : Console) : Prop := c'.printed = c.printed

instance : Std.Refl SamePrinted := ⟨fun _ => rfl⟩

instance : IsTrans Console SamePrinted := ⟨fun _ _ _ h h' => h'.trans h⟩

variable {ε α : Type} {p : Program} {s : Settings} {path root : Path} {level : Level} {c : Console}

theorem keeps_inWorld {account : ε → CommandError} {w : Work ε α} :
    Keeps SamePrinted (CommandWork.inWorld account w) := fun _ => rfl

theorem keeps_analyzeDirectory : Keeps SamePrinted (p.analyzeDirectory s root level) :=
  keeps_inWorld.bind fun _ => .pure _

theorem after_return (result : Except CommandError α) (c : Console) :
    after (ExceptT.mk (pure result) : CommandWork α) c = c := rfl

theorem keeps_analyzeArchive : Keeps SamePrinted (p.analyzeArchive s path level) := by
  refine keeps_inWorld.bind fun data c => ?_
  rw [after_get_bind, after_set_bind]
  dsimp only
  split
  · rfl
  · next session _ =>
    rw [after_get_bind, after_set_bind, after_return]
    exact keeps_analyzeDirectory ⟨_, c.printed⟩

/-- Work that prints nothing, and then a text about what came out of it. -/
theorem printed_bind {w : CommandWork Review} (hw : Keeps SamePrinted w)
    (text : Review → Console → String)
    (h : outcome (w >>= fun review => get >>= fun c' => CommandWork.print (text review c')) c =
      .ok ()) :
    ∃ review c', (after (w >>= fun review => get >>= fun c' => CommandWork.print (text review c'))
      c).printed = c.printed ++ text review c' := by
  obtain ⟨review, -, -, hafter⟩ := bind_ok_after h
  refine ⟨review, after w c, ?_⟩
  rw [hafter, ← hw c]
  rfl

/-- **As text, the command prints one review.** -/
theorem printed_analyze (h : outcome (p.analyze s path level .text) c = .ok ()) :
    ∃ (review : Review) (millis : Nat), (after (p.analyze s path level .text) c).printed =
      c.printed ++ review.display path.text millis := by
  let text (review : Review) (c' : Console) : String :=
    review.display path.text (c'.world.clock - c.world.clock)
  unfold analyze at h ⊢
  rw [outcome_get_bind] at h
  rw [after_get_bind]
  obtain ⟨t, -, h, hafter⟩ := bind_ok_after h
  have hfiles : after CommandWork.files c = c := rfl
  rw [hafter, hfiles]
  rw [hfiles] at h
  dsimp only at h ⊢
  split at h
  · next harchive =>
    rw [if_pos harchive]
    obtain ⟨review, c', hprinted⟩ := printed_bind keeps_analyzeArchive text h
    exact ⟨review, c'.world.clock - c.world.clock, hprinted⟩
  · next hdirectory =>
    rw [if_neg hdirectory]
    obtain ⟨root, -, h, hafter⟩ := bind_ok_after h
    rw [hafter]
    obtain ⟨review, c', hprinted⟩ := printed_bind keeps_analyzeDirectory text h
    exact ⟨review, c'.world.clock - c.world.clock, hprinted⟩

end Program

/-! ### Reviews -/

namespace Review

/-- The text of a review in which the paragraphs list some issues, and some number is the total. -/
def textWith (r : Review) (path : String) (millis : Nat) (security main complexity : List Issue)
    (total : Nat) : String :=
  "\n🦩 pink-review " ++ path ++ "  (" ++ r.kind.name ++ " project, " ++ r.level.name ++
    " level)\n\n" ++ r.security.paragraph "Security (bandit)" security ++
    r.main.paragraph ("Linting (" ++ r.linter.name ++ ")") main ++
    r.complexity.paragraph ("Complexity (" ++ r.complexityTool.name ++ ")") complexity ++
    "Total: " ++ toString total ++ " issues in " ++ displaySeconds millis ++ "s\n"

/-- The text of a review lists all issues of each report, and the total is the number of lines with
issues. -/
def AddsUp (r : Review) (path : String) (millis : Nat) : Prop :=
  ∃ security main complexity, Listed r.security.issues security ∧ Listed r.main.issues main ∧
    Listed r.complexity.issues complexity ∧
    r.display path millis = r.textWith path millis security main complexity
      (security.length + main.length + complexity.length)

variable {r : Review} {path : String} {millis : Nat}

theorem length_textWith (r : Review) (path : String) (millis : Nat)
    (security main complexity : List Issue) (total : Nat) :
    (r.textWith path millis security main complexity total).length =
      (r.textWith path millis [] [] [] total).length +
        (widthOf security + widthOf main + widthOf complexity) := by
  unfold textWith
  simp only [String.length_append, Report.length_paragraph _ _ security,
    Report.length_paragraph _ _ main, Report.length_paragraph _ _ complexity]
  omega

/-- The text of a review lists the issues that the reports show, and the total counts all. -/
theorem display_eq (r : Review) (path : String) (millis : Nat) :
    r.display path millis = r.textWith path millis
      (r.security.shown.mergeSort Issue.precedes) (r.main.shown.mergeSort Issue.precedes)
      (r.complexity.shown.mergeSort Issue.precedes) r.total := by
  unfold display textWith
  rw [Report.display_eq, Report.display_eq, Report.display_eq]

/-- If the text adds up, no report hides issues: their lines would be missing. -/
theorem AddsUp.not_hides (h : r.AddsUp path millis) :
    ∀ report ∈ [r.security, r.main, r.complexity], ¬ report.Hides := by
  obtain ⟨security, main, complexity, hsecurity, hmain, hcomplexity, htext⟩ := h
  have htotal : security.length + main.length + complexity.length = r.total := by
    rw [hsecurity.perm.length_eq, hmain.perm.length_eq, hcomplexity.perm.length_eq]
    rfl
  have hwidth : widthOf r.security.shown + widthOf r.main.shown + widthOf r.complexity.shown =
      widthOf r.security.issues + widthOf r.main.issues + widthOf r.complexity.issues := by
    have hlength := congrArg String.length ((r.display_eq path millis).symm.trans htext)
    rw [htotal, length_textWith, length_textWith r path millis security main] at hlength
    simp only [widthOf_perm (List.mergeSort_perm _ _), widthOf_perm hsecurity.perm,
      widthOf_perm hmain.perm, widthOf_perm hcomplexity.perm] at hlength
    exact Nat.add_left_cancel hlength
  -- no report shows more than it has, so that none shows less
  have hle := r.security.widthOf_shown_le
  have hle' := r.main.widthOf_shown_le
  have hle'' := r.complexity.widthOf_shown_le
  intro report hreport hhides
  have hlt := hhides.widthOf_shown_lt
  simp only [List.mem_cons, List.not_mem_nil, or_false] at hreport
  rcases hreport with rfl | rfl | rfl <;> omega

/-- **The text of a review lists the issues of each report by file and line, unless the report
failed with an error.** The total counts all issues, so that the text adds up exactly if no report
that failed with an error has issues. -/
theorem text_adds_up_iff (r : Review) (path : String) (millis : Nat) :
    (∃ security main complexity, Listed r.security.shown security ∧ Listed r.main.shown main ∧
      Listed r.complexity.shown complexity ∧
      r.display path millis = r.textWith path millis security main complexity r.total) ∧
    (r.AddsUp path millis ↔ ∀ report ∈ [r.security, r.main, r.complexity], ¬ report.Hides) := by
  refine ⟨⟨_, _, _, listed_mergeSort _, listed_mergeSort _, listed_mergeSort _,
    r.display_eq path millis⟩, AddsUp.not_hides, fun h => ?_⟩
  refine ⟨_, _, _, listed_mergeSort _, listed_mergeSort _, listed_mergeSort _, ?_⟩
  simp only [List.mem_cons, List.not_mem_nil, or_false, forall_eq_or_imp, forall_eq] at h
  obtain ⟨hsecurity, hmain, hcomplexity⟩ := h
  rw [display_eq, Report.shown_of_not_hides hsecurity, Report.shown_of_not_hides hmain,
    Report.shown_of_not_hides hcomplexity, List.length_mergeSort, List.length_mergeSort,
    List.length_mergeSort, total]

end Review

/-- Pylint tells of an issue that is fatal, and its exit code says so; the others find nothing. -/
def fatalPylint (_ : FileTree) (call : Call) : Except FileError Ending :=
  if call.argv.head? = some "pylint" then
    .ok ⟨("[\x7b\"path\": \"a.py\", \"line\": 3, \"message\": \"parse error\", " ++
      "\"message-id\": \"F0001\", \"type\": \"fatal\"\x7d]").toUTF8, .empty, some 1, 0⟩
  else .ok ⟨.empty, .empty, some 0, 0⟩

/-- The program with such a pylint. -/
def fatalProgram : Program :=
  ⟨(pipelineOf fatalPylint).machine, fun _ => .error .requestFailed, 1, fun _ => false⟩

/-- What it finds in one source. -/
def fatalReview : Review where
  kind := .unknown
  linter := .pylint
  complexityTool := .radon
  level := .advanced
  security := .ok []
  main :=
    ⟨false, [⟨.error, "a.py", 3, "parse error", "F0001", .pylint, none, none, none, none⟩],
      some "pylint exited with code 1"⟩
  complexity := .ok []

/-- The fatal issue is counted and not listed. -/
theorem fatal_issue_is_not_listed :
    (after (fatalProgram.analyze .standard ⟨"/p"⟩ .advanced .text) ⟨oneSource, ""⟩).printed =
      fatalReview.display "/p" 0 ∧
    fatalReview.display "/p" 0 = "\n🦩 pink-review /p  (unknown project, advanced level)\n\n" ++
      "✓ Security (bandit): no issues\n\n" ++
      "⚠ Linting (pylint): pylint exited with code 1\n\n" ++
      "✓ Complexity (radon): no issues\n\n" ++
      "Total: 1 issues in 0.0s\n" ∧
    ¬ fatalReview.AddsUp "/p" 0 := by
  refine ⟨by decide +kernel, by decide +kernel, fun h => ?_⟩
  exact h.not_hides fatalReview.main (by simp) ⟨rfl, by decide, by decide⟩

end ReviewMentor
