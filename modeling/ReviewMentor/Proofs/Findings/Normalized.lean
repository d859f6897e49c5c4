import Mathlib.Data.List.Forall2
import ReviewMentor.Proofs.Findings.Fields
import ReviewMentor.Proofs.Json.Parsed

/-!
# What becomes of findings

An analyzer's output becomes one issue for each record that has all its fields, in the order of the
document, and nothing else. Whether a record is kept, and what its issue says, depends on that
record only.
-/

namespace ReviewMentor

open Effect

/-! ### Records -/

section Records

variable {a : Analyzer} {root : Root} {f : Finding} {i : Issue}

namespace Analyzer

/-- The issue that is made of a finding, if one is. -/
def issue? (a : Analyzer) (root : Root) (f : Finding) : Option Issue :=
  match a with
  | ruff => (Ruff.issue root f.record).toOption
  | pylint => (Pylint.issue root f.record).toOption
  | bandit => (Bandit.issue root f.record).toOption
  | radon => (Radon.issue? (root.relative f.file) f.record).toOption.join

/-- **A finding becomes an issue just if it is accepted**, and then the issue that it tells. -/
theorem issue?_eq_some :
    a.issue? root f = some i ↔ a.accepts f.record = true ∧ a.Tells root f i := by
  cases a with
  | ruff => rw [← Ruff.issue_eq_ok, issue?, toOption_eq_some]
  | pylint => rw [← Pylint.issue_eq_ok, issue?, toOption_eq_some]
  | bandit => rw [← Bandit.issue_eq_ok, issue?, toOption_eq_some]
  | radon => rw [← Radon.issue?_eq_ok, issue?, Option.join_eq_some_iff, toOption_eq_some]

/-- A record that is accepted tells an issue. -/
theorem exists_tells (root : Root) (h : a.accepts f.record = true) : ∃ i, a.Tells root f i := by
  cases a with
  | ruff =>
    obtain ⟨file, hfile⟩ := text_of_accepts ["filename"] h (by decide)
    obtain ⟨line, hline, -⟩ := whole_of_accepts ["location", "row"] 0 h (by decide)
    obtain ⟨code, hcode⟩ := text_of_accepts ["code"] h (by decide)
    obtain ⟨message, hmessage⟩ := text_of_accepts ["message"] h (by decide)
    exact ⟨_, .ruff hfile hline hcode hmessage⟩
  | pylint =>
    obtain ⟨kind, hkind⟩ := text_of_accepts ["type"] h (by decide)
    obtain ⟨file, hfile⟩ := text_of_accepts ["path"] h (by decide)
    obtain ⟨line, hline, -⟩ := whole_of_accepts ["line"] 0 h (by decide)
    obtain ⟨message, hmessage⟩ := text_of_accepts ["message"] h (by decide)
    obtain ⟨code, hcode⟩ := text_of_accepts ["message-id"] h (by decide)
    exact ⟨_, .pylint hkind hfile hline hmessage hcode⟩
  | bandit =>
    obtain ⟨file, hfile⟩ := text_of_accepts ["filename"] h (by decide)
    obtain ⟨line, hline, -⟩ := whole_of_accepts ["line_number"] 0 h (by decide)
    obtain ⟨message, hmessage⟩ := text_of_accepts ["issue_text"] h (by decide)
    obtain ⟨code, hcode⟩ := text_of_accepts ["test_id"] h (by decide)
    obtain ⟨severity, hseverity⟩ := text_of_accepts ["issue_severity"] h (by decide)
    obtain ⟨confidence, hconfidence⟩ := text_of_accepts ["issue_confidence"] h (by decide)
    exact ⟨_, .bandit hfile hline hmessage hcode hseverity hconfidence⟩
  | radon =>
    obtain ⟨complexity, hcomplexity, -⟩ := whole_of_accepts ["complexity"] 2 h (by decide)
    exact ⟨_, .radon hcomplexity⟩

end Analyzer

end Records

/-! ### Documents -/

section Documents

variable {a : Analyzer} {root : Root} {document : Json} {findings : List Finding}

/-- What is no object has no complexity, so a block has to be one. -/
theorem Radon.issue?_of_not_isObject (file : String) {block : Json} (h : block.isObject = false) :
    (Radon.issue? file block).toOption = none := by
  cases block with
  | object members => exact absurd h (by simp [Json.isObject])
  | _ => rfl

theorem Radon.fileIssues_array (root : Root) (file : String) (blocks : List Json) :
    Radon.fileIssues root file (.array blocks) =
      (blocks.map (Finding.mk file)).filterMap (Analyzer.radon.issue? root) := by
  rw [Radon.fileIssues, List.filterMap_filter, List.filterMap_map]
  refine List.filterMap_congr fun block _ => ?_
  split
  · rfl
  · next hobject =>
    have hnone := issue?_of_not_isObject (root.relative file) (Bool.eq_false_iff.mpr hobject)
    rw [Function.comp_apply, Analyzer.issue?, hnone]
    rfl

/-- The issues of records are those of the findings that they are. -/
theorem wellFormed_eq {read : Json → Except RecordError Issue} (records : List Json)
    (hread : ∀ f, a.issue? root f = (read f.record).toOption) :
    wellFormed read records = (Finding.listed records).filterMap (a.issue? root) := by
  rw [wellFormed, Finding.listed, List.filterMap_map]
  exact List.filterMap_congr fun record _ => (hread ⟨"", record⟩).symm

theorem Radon.flatMap_fileIssues (root : Root) (files : List (String × Json)) :
    (files.flatMap fun f => Radon.fileIssues root f.1 f.2) =
      (Finding.filed files).filterMap (Analyzer.radon.issue? root) := by
  rw [Finding.filed, List.filterMap_flatMap]
  refine List.flatMap_congr fun f _ => ?_
  obtain ⟨file, value⟩ := f
  cases value with
  | array blocks => exact fileIssues_array root file blocks
  | _ => rfl

/-- The issues of a document are those of its findings. -/
theorem Analyzer.issuesOf_eq (h : a.Prints document findings) :
    a.issuesOf root document = findings.filterMap (a.issue? root) := by
  cases h with
  | ruff records => exact wellFormed_eq records fun _ => rfl
  | pylint records => exact wellFormed_eq records fun _ => rfl
  | bandit results =>
    rw [Json.at?_single] at results
    rw [issuesOf, Bandit.records?, results]
    exact wellFormed_eq _ fun _ => rfl
  | radon files => exact Radon.flatMap_fileIssues root files
  | encoded inner =>
    rw [issuesOf, Radon.files?, inner]
    exact Radon.flatMap_fileIssues root _

theorem Analyzer.issuesOf_eq_nil (h : ∀ findings, ¬ a.Prints document findings) :
    a.issuesOf root document = [] := by
  cases a with
  | ruff =>
    cases document with
    | array records => exact absurd (.ruff records) (h _)
    | _ => rfl
  | pylint =>
    cases document with
    | array records => exact absurd (.pylint records) (h _)
    | _ => rfl
  | bandit =>
    cases document with
    | object members =>
      rw [issuesOf, Bandit.records?]
      rcases hresults : (Json.object members).member? "results" with _ | value
      · rfl
      cases value with
      | array records => exact absurd (.bandit (by rwa [Json.at?_single])) (h _)
      | _ => rfl
    | _ => rfl
  | radon =>
    cases document with
    | object files => exact absurd (.radon files) (h _)
    | string text =>
      rw [issuesOf, Radon.files?]
      rcases hinner : Json.parse? text with _ | value
      · rfl
      cases value with
      | object files => exact absurd (.encoded hinner) (h _)
      | _ => rfl
    | _ => rfl

/-! ### Outputs -/

theorem Json.start?_blank {c : Char} (h : Text.isBlank c = true) :
    start? c = none ∨ start? c = some (none, .between) := by
  unfold start?
  split
  case h_1 | h_2 | h_3 | h_4 => exact .inr rfl
  case h_17 =>
    have hdigit : c.isDigit = false := by
      by_contra hne
      have hrange : 48 ≤ c.toNat ∧ c.toNat ≤ 57 := by
        simpa [Char.isDigit, UInt32.le_iff_toNat_le] using hne
      simp only [Text.isBlank, Bool.or_eq_true, Bool.and_eq_true, decide_eq_true_eq,
        beq_iff_eq] at h
      omega
    rw [hdigit]
    exact .inl rfl
  all_goals exact absurd h (by decide)

/-- Blanks are no JSON value. -/
theorem Json.tokensFrom_blank {cs : List Char} (h : ∀ c ∈ cs, Text.isBlank c = true) :
    tokensFrom .between (cs.map some) = [] ∨ tokensFrom .between (cs.map some) = [.bad] := by
  induction cs with
  | nil => exact .inl rfl
  | cons c rest ih =>
    rw [List.map_cons, tokensFrom_between]
    rcases start?_blank (h c List.mem_cons_self) with hstart | hstart
    · rw [hstart]
      exact .inr rfl
    · rw [hstart]
      exact ih fun d hd => h d (List.mem_cons_of_mem _ hd)

theorem Json.parse?_of_isAllBlank {text : String} (h : Text.isAllBlank text = true) :
    parse? text = none := by
  have hscan : Draft.read? text = none := by
    unfold Draft.read? Draft.scan tokens
    rcases tokensFrom_blank (List.all_eq_true.mp h) with htokens | htokens
    · rw [htokens]
      rfl
    · rw [htokens]
      rfl
  rw [parse?, hscan]
  rfl

end Documents

section Outputs

variable {a : Analyzer} {root : Root} {output : String} {findings : List Finding}

/-- What is printed becomes the issues of the findings in it. -/
theorem Analyzer.normalize_of_printed (h : a.Printed output findings) :
    a.normalize output root = findings.filterMap (a.issue? root) := by
  obtain ⟨document, hparse, hprints⟩ := h
  have hblank : Text.isAllBlank output = false := by
    by_contra hne
    rw [Bool.not_eq_false] at hne
    rw [Json.parse?_of_isAllBlank hne] at hparse
    exact absurd hparse (by simp)
  rw [normalize, hblank, hparse]
  exact issuesOf_eq hprints

theorem Analyzer.normalize_of_not_printed (h : ∀ findings, ¬ a.Printed output findings) :
    a.normalize output root = [] := by
  unfold normalize
  split
  · rfl
  · split
    · next document hparse =>
      exact issuesOf_eq_nil fun findings hprints => h findings ⟨document, hparse, hprints⟩
    · rfl

/-- What is written is printed, with the members of all records in the order of their names. -/
theorem Analyzer.Printed.of_written {document : Json} (hplain : document.isPlain = true)
    (hdepth : document.depth ≤ Json.depthLimit) (h : document.IsText output)
    (hprints : a.Prints document.ordered findings) : a.Printed output findings :=
  ⟨_, Json.parse?_written hplain hdepth h, hprints⟩

/-- What is made of some elements of a list is made of them one by one. -/
theorem forall₂_filterMap {α β : Type} {g : α → Option β} {p : α → Bool} {R : α → β → Prop}
    (hsome : ∀ x y, g x = some y ↔ p x = true ∧ R x y) (hmade : ∀ x, p x = true → ∃ y, R x y)
    (xs : List α) : List.Forall₂ R (xs.filter p) (xs.filterMap g) := by
  induction xs with
  | nil => exact .nil
  | cons x rest ih =>
    cases hx : p x with
    | true =>
      obtain ⟨y, hy⟩ := hmade x hx
      rw [List.filter_cons_of_pos hx, List.filterMap_cons_some ((hsome x y).mpr ⟨hx, hy⟩)]
      exact .cons hy ih
    | false =>
      have hnone : g x = none := Option.eq_none_iff_forall_ne_some.mpr fun y hy =>
        absurd (hx.symm.trans ((hsome x y).mp hy).1) (by decide)
      rw [List.filter_cons_of_neg (by simp [hx]), List.filterMap_cons_none hnone]
      exact ih

end Outputs

/-- **Every well-formed record becomes one issue**, and nothing else does. An output that is no
document of the analyzer has none. The issues of a document are, in its order, those that its
well-formed records tell, whatever the other records are; so the issues of a document that holds the
records of two others are the issues of the one and then those of the other. -/
theorem normalize_keeps_well_formed (a : Analyzer) (output : String) (root : Root) :
    ((∀ findings, ¬ a.Printed output findings) → a.normalize output root = []) ∧
    (∀ findings, a.Printed output findings →
      List.Forall₂ (a.Tells root) (findings.filter fun f => a.accepts f.record)
        (a.normalize output root)) ∧
    ∀ first second before after, a.Printed output (before ++ after) → a.Printed first before →
      a.Printed second after →
        a.normalize output root = a.normalize first root ++ a.normalize second root := by
  refine ⟨Analyzer.normalize_of_not_printed, fun findings hprinted => ?_, ?_⟩
  · rw [Analyzer.normalize_of_printed hprinted]
    exact forall₂_filterMap (fun f i => Analyzer.issue?_eq_some)
      (fun f => Analyzer.exists_tells root) findings
  · intro first second before after hboth hfirst hsecond
    rw [Analyzer.normalize_of_printed hboth, Analyzer.normalize_of_printed hfirst,
      Analyzer.normalize_of_printed hsecond, List.filterMap_append]

/-- A file whose only block is trivial. -/
def trivialFile : String × Json := ("a.py", .array [.object [("complexity", .nat 1)]])

/-- A block without a rank, in the order of its names and as it is printed. -/
def hardBlock : Json := .object [("complexity", .nat 11), ("name", .string "f")]

def hardFile : String × Json :=
  ("b.py", .array [.object [("name", .string "f"), ("complexity", .nat 11)]])

/-- Of two blocks in one document the one that is not trivial becomes an issue, as it does when each
block has a document of its own, one of them as a text in a text. An array is no document of
radon. -/
theorem normalize_keeps_well_formed_blocks :
    Analyzer.radon.normalize "[]" ⟨⟨"/p"⟩, none⟩ = [] ∧
    List.Forall₂ (Analyzer.radon.Tells ⟨⟨"/p"⟩, none⟩) [⟨"b.py", hardBlock⟩]
      (Analyzer.radon.normalize (Json.object [hardFile, trivialFile]).compact ⟨⟨"/p"⟩, none⟩) ∧
    Analyzer.radon.normalize (Json.object [hardFile, trivialFile]).compact ⟨⟨"/p"⟩, none⟩ =
      Analyzer.radon.normalize (Json.object [trivialFile]).compact ⟨⟨"/p"⟩, none⟩ ++
        Analyzer.radon.normalize (Json.string (Json.object [hardFile]).compact).compact
          ⟨⟨"/p"⟩, none⟩ := by
  have htrivial : Analyzer.radon.Printed (Json.object [trivialFile]).compact
      (Finding.filed [trivialFile]) :=
    .of_written (by decide) (by decide) (.inl rfl) (.radon _)
  have hinner : Json.parse? (Json.object [hardFile]).compact =
      some (.object [("b.py", .array [hardBlock])]) :=
    Json.parse?_written (by decide) (by decide) (.inl rfl)
  have hhard : Analyzer.radon.Printed (Json.string (Json.object [hardFile]).compact).compact
      [⟨"b.py", hardBlock⟩] :=
    .of_written rfl (by decide) (.inl rfl) (.encoded hinner)
  have hboth : Analyzer.radon.Printed (Json.object [hardFile, trivialFile]).compact
      (Finding.filed [trivialFile] ++ [⟨"b.py", hardBlock⟩]) :=
    .of_written (by decide) (by decide) (.inl rfl) (.radon _)
  obtain ⟨-, htold, hjoined⟩ := normalize_keeps_well_formed .radon
    (Json.object [hardFile, trivialFile]).compact ⟨⟨"/p"⟩, none⟩
  refine ⟨?_, htold _ hboth, hjoined _ _ _ _ hboth htrivial hhard⟩
  refine (normalize_keeps_well_formed .radon "[]" ⟨⟨"/p"⟩, none⟩).1 ?_
  rintro findings ⟨document, hparse, hprints⟩
  have harray : Json.parse? "[]" = some (Json.array []).ordered :=
    Json.parse?_written (by decide) (by decide) (.inl (by decide +kernel))
  obtain rfl := Option.some.inj (harray.symm.trans hparse)
  nomatch hprints

end ReviewMentor
