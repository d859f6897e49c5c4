import ReviewMentor.Analysis.Invoker
import ReviewMentor.Proofs.Files.Found
import ReviewMentor.Proofs.Findings.Fields
import ReviewMentor.Proofs.Findings.Relative

/-!
# One key for every file

A file of a project has one name relative to the root, however it is spelled: relative to the root,
below the root as the root is spelled, or below the root without links. So the key under which the
issues of a file are replaced is the file that every analyzer puts into its issues.
-/

namespace ReviewMentor

open FileTree Effect

/-! ### What analyzers report on -/

/-- An analyzer printed a record about a file, spelled in some way, that yields an issue. -/
def Analyzer.Reports (a : Analyzer) (output : String) (root : Root) (raw : String) (i : Issue) :
    Prop :=
  ∃ document, Json.parse? output = some document ∧
    match a with
    | .ruff => ∃ record ∈ (Ruff.records? document).getD [],
        record.textField "filename" = .ok raw ∧ Ruff.issue root record = .ok i
    | .pylint => ∃ record ∈ (Pylint.records? document).getD [],
        record.textField "path" = .ok raw ∧ Pylint.issue root record = .ok i
    | .bandit => ∃ record ∈ (Bandit.records? document).getD [],
        record.textField "filename" = .ok raw ∧ Bandit.issue root record = .ok i
    | .radon => ∃ f ∈ (Radon.files? document).getD [],
        f.1 = raw ∧ i ∈ Radon.fileIssues root f.1 f.2

section Reports

variable {root : Root} {i : Issue} {record : Json} {raw output : String} {a : Analyzer}

theorem file_of_ruff (h : Ruff.issue root record = .ok i) :
    ∃ raw, record.textField "filename" = .ok raw ∧ i.file = root.relative raw := by
  obtain ⟨-, htells⟩ := Ruff.issue_eq_ok (f := ⟨"", record⟩).mp h
  cases htells with
  | ruff hfile => exact ⟨_, Json.textField_eq_ok.mpr (Json.at?_single _ _ ▸ hfile), rfl⟩

theorem file_of_pylint (h : Pylint.issue root record = .ok i) :
    ∃ raw, record.textField "path" = .ok raw ∧ i.file = root.relative raw := by
  obtain ⟨-, htells⟩ := Pylint.issue_eq_ok (f := ⟨"", record⟩).mp h
  cases htells with
  | pylint _ hfile => exact ⟨_, Json.textField_eq_ok.mpr (Json.at?_single _ _ ▸ hfile), rfl⟩

theorem file_of_bandit (h : Bandit.issue root record = .ok i) :
    ∃ raw, record.textField "filename" = .ok raw ∧ i.file = root.relative raw := by
  obtain ⟨-, htells⟩ := Bandit.issue_eq_ok (f := ⟨"", record⟩).mp h
  cases htells with
  | bandit hfile => exact ⟨_, Json.textField_eq_ok.mpr (Json.at?_single _ _ ▸ hfile), rfl⟩

theorem mem_wellFormed {read : Json → Except RecordError Issue} {records : List Json} :
    i ∈ wellFormed read records ↔ ∃ record ∈ records, read record = .ok i := by
  unfold wellFormed
  rw [List.mem_filterMap]
  exact exists_congr fun record => and_congr_right fun _ => toOption_eq_some

/-- An issue carries the file that its record tells, relative to the root. -/
theorem file_of_reports (h : a.Reports output root raw i) : i.file = root.relative raw := by
  obtain ⟨document, -, h⟩ := h
  cases a with
  | ruff =>
    obtain ⟨record, -, hraw, hi⟩ := h
    obtain ⟨raw', hraw', hfile⟩ := file_of_ruff hi
    rw [hraw] at hraw'
    rw [hfile, Except.ok.inj hraw']
  | pylint =>
    obtain ⟨record, -, hraw, hi⟩ := h
    obtain ⟨raw', hraw', hfile⟩ := file_of_pylint hi
    rw [hraw] at hraw'
    rw [hfile, Except.ok.inj hraw']
  | bandit =>
    obtain ⟨record, -, hraw, hi⟩ := h
    obtain ⟨raw', hraw', hfile⟩ := file_of_bandit hi
    rw [hraw] at hraw'
    rw [hfile, Except.ok.inj hraw']
  | radon =>
    obtain ⟨f, -, rfl, hi⟩ := h
    obtain ⟨block, -, hblock⟩ := List.mem_filterMap.mp hi
    have hread := toOption_eq_some.mp (Option.join_eq_some_iff.mp hblock)
    obtain ⟨-, htells⟩ := Radon.issue?_eq_ok (f := ⟨f.1, block⟩).mp hread
    cases htells
    rfl

/-- Every issue stems from a record about a file. -/
theorem reports_of_mem_normalize (h : i ∈ a.normalize output root) :
    ∃ raw, a.Reports output root raw i := by
  unfold Analyzer.normalize at h
  split_ifs at h
  · exact absurd h (by simp)
  rcases hdocument : Json.parse? output with _ | document
  · simp [hdocument] at h
  simp only [hdocument] at h
  cases a with
  | ruff =>
    obtain ⟨record, hrecord, hi⟩ := mem_wellFormed.mp h
    obtain ⟨raw, hraw, -⟩ := file_of_ruff hi
    exact ⟨raw, document, hdocument, record, hrecord, hraw, hi⟩
  | pylint =>
    obtain ⟨record, hrecord, hi⟩ := mem_wellFormed.mp h
    obtain ⟨raw, hraw, -⟩ := file_of_pylint hi
    exact ⟨raw, document, hdocument, record, hrecord, hraw, hi⟩
  | bandit =>
    obtain ⟨record, hrecord, hi⟩ := mem_wellFormed.mp h
    obtain ⟨raw, hraw, -⟩ := file_of_bandit hi
    exact ⟨raw, document, hdocument, record, hrecord, hraw, hi⟩
  | radon =>
    obtain ⟨f, hf, hi⟩ := List.mem_flatMap.mp h
    exact ⟨f.1, document, hdocument, f, hf, rfl, hi⟩

end Reports

/-! ### Spellings -/

/-- The ways in which a file of a project may be spelled: by its names, with dots and slashes that
say nothing, relative to the root or below one of the two forms of the root. -/
inductive Root.Spells (root : Root) (names : List String) (raw : String) : Prop
  | relative : (Path.mk raw).isAbsolute = false → (Path.mk raw).parts.filter (· ≠ ".") = names →
      Root.Spells root names raw
  | below : (Path.mk raw).components = root.path.components ++ names.map .name →
      Root.Spells root names raw
  | canonical {c : Path} : root.canonical? = some c →
      (Path.mk raw).components = c.components ++ names.map .name → Root.Spells root names raw

/-- A path that a project can lie at: it is absolute, something is found there, and it is no link
inside the directory that it points to. -/
structure IsProjectRoot (m : Machine) (files : FileTree) (path : Path) : Prop where
  absolute : path.isAbsolute = true
  found : ∃ place, files.find m.cwd true path = .ok place ∧
    ∀ inner, path.components = (Path.ofNames place).components ++ inner.map .name → inner = []

section Keys

variable {m : Machine} {files : FileTree} {path : Path} {names : List String} {raw : String}

theorem canonical?_rootOf {place : Place} (h : files.find m.cwd true path = .ok place) :
    (Invoker.rootOf m files path).canonical? = some (Path.ofNames place) := by
  simp [Invoker.rootOf, canonical, h, Except.map, Except.toOption]

/-- Of the two forms of a root neither is a proper start of a path that goes on from the other with
names, so that it makes no difference which one is taken away. -/
theorem components_eq_of_prefix (hroot : IsProjectRoot m files path) {place : Place}
    (hfind : files.find m.cwd true path = .ok place) {rest : List Component}
    (h : (Path.ofNames place).components ++ names.map .name = path.components ++ rest) :
    path.components = (Path.ofNames place).components := by
  obtain ⟨place', hfind', hinner⟩ := hroot.found
  obtain rfl : place = place' := Except.ok.inj (hfind.symm.trans hfind')
  have hcanonical := Path.components_ofNames (reached_of_find hroot.absolute hfind).names
  rcases List.append_eq_append_iff.mp h with ⟨inner, hlong, hnames⟩ | ⟨more, hshort, -⟩
  · -- the root goes on from its canonical form, as a link inside would
    obtain ⟨inner', rest', rfl, hinner', -⟩ := List.map_eq_append_iff.mp hnames
    obtain rfl := hinner inner' (by rw [hlong, hinner'])
    simp [hlong, ← hinner']
  · -- the canonical form goes on from the root, but names lead nowhere else
    rw [hcanonical, Path.components_of_isAbsolute hroot.absolute, List.cons_append,
      List.cons.injEq] at hshort
    obtain ⟨first, last, hplace, hfirst, hlast⟩ := List.map_eq_append_iff.mp hshort.2
    have hnames : path.components = .root :: first.map .name := by
      rw [Path.components_of_isAbsolute hroot.absolute, hfirst]
    have : first = place :=
      eq_of_prefix_of_find hroot.absolute hnames hfind ⟨last, hplace.symm⟩
    rw [hnames, hcanonical, this]

theorem components_of_names (hnames : ∀ n ∈ names, Path.IsName n) :
    names.filterMap Path.component? = names.map .name := by
  rw [← List.filterMap_eq_map]
  exact List.filterMap_congr fun n hn => Path.component?_of_isName (hnames n hn)

/-- Relative spellings of a file say its names whatever the root is. -/
theorem relative_of_parts (root : Root) (hne : names ≠ []) (hnames : ∀ n ∈ names, Path.IsName n)
    (habs : (Path.mk raw).isAbsolute = false)
    (hparts : (Path.mk raw).parts.filter (· ≠ ".") = names) :
    root.relative raw = Text.join "/" names := by
  have hsteps : (Path.mk raw).steps = names.map .name := by
    rw [← components_of_names hnames, ← hparts, List.filterMap_filter, Path.steps]
    refine List.filterMap_congr fun part _ => ?_
    by_cases hhere : part = "."
    · simp [hhere, Path.component?]
    · simp [hhere]
  rw [← Path.slashed_names, root.relative_of_relative habs, hsteps, if_neg (by simpa using hne)]

/-- **One spelling comes out**, the names joined by slashes. -/
theorem relative_of_spells (hroot : IsProjectRoot m files path) (hne : names ≠ [])
    (hnames : ∀ n ∈ names, Path.IsName n) (h : (Invoker.rootOf m files path).Spells names raw) :
    (Invoker.rootOf m files path).relative raw = Text.join "/" names := by
  obtain ⟨place, hfind, -⟩ := hroot.found
  have hcanonical := canonical?_rootOf hfind
  cases h with
  | relative habs hparts => exact relative_of_parts _ hne hnames habs hparts
  | below hraw =>
    have habs : (Path.mk raw).isAbsolute = true := by
      rw [← Path.root_mem_components, hraw]
      exact List.mem_append_left _ (Path.root_mem_components.mpr hroot.absolute)
    rw [← Path.slashed_names]
    exact Root.relative_of_below habs hraw
  | canonical hc hraw =>
    obtain rfl := Option.some.inj (hcanonical.symm.trans hc)
    have habs : (Path.mk raw).isAbsolute = true := by
      rw [← Path.root_mem_components, hraw,
        Path.components_ofNames (reached_of_find hroot.absolute hfind).names]
      exact List.mem_cons_self
    rw [← Path.slashed_names]
    by_cases hpath : path.components <+: (Path.mk raw).components
    · obtain ⟨rest, hrest⟩ := hpath
      have hsame := components_eq_of_prefix hroot hfind (hraw.symm.trans hrest.symm)
      refine Root.relative_of_below habs ?_
      rw [hraw, ← hsame]
      rfl
    · exact Root.relative_of_canonical habs hpath hc hraw

theorem canonical_ne_nil {c : Path} (h : (Invoker.rootOf m files path).canonical? = some c) :
    c.components ≠ [] := by
  rcases hfind : files.find m.cwd true path with e | place
  · simp [Invoker.rootOf, canonical, hfind, Except.map, Except.toOption] at h
  · rw [canonical?_rootOf hfind, Option.some.injEq] at h
    have habs : c.isAbsolute = true := by
      rw [← h, Path.isAbsolute_iff_head]
      simp [Path.ofNames]
    simp [Path.components_of_isAbsolute habs]

/-- **One key per file.** Every spelling of a file of a project, told relative to the root, is its
names joined by slashes. So an issue of any analyzer carries the same file however the analyzer
spelled it, and the same as a request that spells the file relative to the root, whatever files
there were when the request was read.

Any path told relative to any root stays as it is when it is told so again, is absolute only if it
was absolute and below neither form of the root, and leads from the root to where it led before. No
directory lies at the empty path; only there something absolute could come out that is not what went
in. -/
theorem one_key_per_file (m : Machine) (files : FileTree) (path : Path) :
    let root := Invoker.rootOf m files path
    (IsProjectRoot m files path → ∀ names, names ≠ [] → (∀ n ∈ names, Path.IsName n) →
      (∀ raw, root.Spells names raw → root.relative raw = Text.join "/" names) ∧
      ∀ a output i, i ∈ Analyzer.normalize a output root →
        ∃ raw, a.Reports output root raw i ∧ (root.Spells names raw →
          (∀ key, root.Spells names key → root.relative key = i.file) ∧
          ∀ earlier key, (Path.mk key).isAbsolute = false →
            (Path.mk key).parts.filter (· ≠ ".") = names →
            (Invoker.rootOf m earlier path).relative key = i.file)) ∧
    ∀ raw,
      root.relative (root.relative raw) = root.relative raw ∧
      (path.text ≠ "" → (Path.mk (root.relative raw)).isAbsolute = true →
        (Path.mk raw).isAbsolute = true ∧ ¬ root.Holds raw ∧ root.relative raw = raw) ∧
      ((path.join ⟨root.relative raw⟩).route = (path.join ⟨raw⟩).route ∨
        ∃ c rest, root.canonical? = some c ∧ (Path.mk raw).components = c.components ++ rest ∧
          (path.join ⟨root.relative raw⟩).route = path.route ++ rest) := by
  intro root
  refine ⟨fun hroot names hne hnames => ⟨fun raw h => relative_of_spells hroot hne hnames h, ?_⟩,
    fun raw => ?_⟩
  · intro a output i hi
    obtain ⟨raw, hreports⟩ := reports_of_mem_normalize hi
    refine ⟨raw, hreports, fun hraw => ?_⟩
    have hfile : i.file = Text.join "/" names := by
      rw [file_of_reports hreports]
      exact relative_of_spells hroot hne hnames hraw
    refine ⟨fun key hkey => ?_, fun earlier key habs hparts => ?_⟩
    · rw [hfile]
      exact relative_of_spells hroot hne hnames hkey
    · rw [hfile]
      exact relative_of_parts _ hne hnames habs hparts
  · have htold : root.Told raw := Root.told (fun c hc => canonical_ne_nil hc) raw
    exact ⟨Root.relative_relative htold, Root.of_isAbsolute_relative htold,
      Root.route_join_relative htold⟩

/-- A machine on which nothing can be started. -/
def quietMachine : Machine := ⟨[], ⟨"/tmp"⟩, [], [], fun _ _ => .error .notFound⟩

/-- A project that a link leads to. -/
def linkedProject : FileTree :=
  ⟨[(["d"], .directory), (["d", "p"], .directory), (["l"], .link "d/./p")]⟩

/-- The file of a project is spelled below a link, below the directory that the link points to, and
with dots and slashes. -/
theorem one_key_per_file_linked :
    IsProjectRoot quietMachine linkedProject ⟨"//l/"⟩ ∧
    (∀ raw ∈ ["././pkg//a.py", "/l/./pkg/a.py", "/d/p/pkg/a.py/"],
      (Invoker.rootOf quietMachine linkedProject ⟨"//l/"⟩).relative raw = "pkg/a.py") ∧
    ¬ (Path.mk ((Invoker.rootOf quietMachine linkedProject
      ⟨"//l/"⟩).relative "/l")).isAbsolute := by
  have hfind : linkedProject.find [] true ⟨"//l/"⟩ = .ok ["d", "p"] := by decide +kernel
  have hroot : IsProjectRoot quietMachine linkedProject ⟨"//l/"⟩ := by
    refine ⟨by decide, ["d", "p"], hfind, fun inner h => ?_⟩
    have hpath : (Path.mk "//l/").components = [.root, .name "l"] := by decide
    have hplace : (Path.ofNames ["d", "p"]).components = [.root, .name "d", .name "p"] := by decide
    rw [hpath, hplace] at h
    simp at h
  obtain ⟨hkeys, hall⟩ := one_key_per_file quietMachine linkedProject ⟨"//l/"⟩
  have hnames : ∀ n ∈ ["pkg", "a.py"], Path.IsName n := by
    intro n hn
    rcases List.mem_pair.mp hn with rfl | rfl <;> constructor <;> decide
  obtain ⟨hspelled, -⟩ := hkeys hroot ["pkg", "a.py"] (by simp) hnames
  refine ⟨hroot, fun raw hraw => ?_, fun habs => ?_⟩
  · refine hspelled raw ?_
    rcases List.mem_cons.mp hraw with rfl | hraw
    · exact .relative (by decide) (by decide)
    rcases List.mem_pair.mp hraw with rfl | rfl
    · exact .below (by decide)
    · exact .canonical (canonical?_rootOf hfind) (by decide)
  · obtain ⟨-, hholds, -⟩ := (hall "/l").2.1 (by decide) habs
    exact hholds (.inl (by decide))

/-- Told relative to the empty path, something absolute comes out that is not what went in. -/
theorem empty_root_adds_slash :
    let root := Invoker.rootOf quietMachine linkedProject ⟨""⟩
    root.relative "/x" = "//x" ∧
    ¬ ∀ raw, (Path.mk (root.relative raw)).isAbsolute = true →
      (Path.mk raw).isAbsolute = true ∧ ¬ root.Holds raw ∧ root.relative raw = raw := by
  intro root
  have hrelative : root.relative "/x" = "//x" := by decide
  have habs : (Path.mk "//x").isAbsolute = true := by decide
  refine ⟨hrelative, fun hall => ?_⟩
  obtain ⟨-, -, hsame⟩ := hall "/x" (hrelative ▸ habs)
  rw [hrelative] at hsame
  exact absurd hsame (by decide)

end Keys

end ReviewMentor
