import ReviewMentor.Proofs.Service.Origins
import ReviewMentor.Proofs.Service.Overlap

/-!
# What reviews say

Two things are expected of a review: a report names an error exactly if it failed, and a review for
beginners has no findings that only the advanced are shown. What analyses make is like that, and
new looks leave it so, except in one case each. A look that failed puts its error into a report that
succeeded before; and what is found for one level is put into the review for another one.
-/

namespace ReviewMentor

open FileTree Effect SessionStore

variable {p : Pipeline} {root : Path} {level : Level} {a : Analyzer} {millis : Nat} {r : Report}
  {w : World} {review known : Review}

/-! ### Reports that name their errors -/

/-- A report names an error exactly if it failed. -/
def Report.Consistent (r : Report) : Prop := r.success = true ↔ r.error = none

/-- All reports of a review name an error exactly if they failed. -/
structure Review.Consistent (review : Review) : Prop where
  security : review.security.Consistent
  main : review.main.Consistent
  complexity : review.complexity.Consistent

namespace Report

theorem Consistent.ok (issues : List Issue) : (Report.ok issues).Consistent := by
  simp [Consistent, Report.ok]

theorem Consistent.failed (error : String) : (Report.failed error).Consistent := by
  simp [Consistent, Report.failed]

theorem Consistent.filterFor (h : r.Consistent) (level : Level) :
    (r.filterFor level).Consistent := by
  unfold Report.filterFor
  split
  · exact h
  · exact h

theorem Consistent.recorded (h : r.Consistent) (level : Level) (a : Analyzer) :
    (a.recorded level r).Consistent := by
  unfold Analyzer.recorded
  split
  · exact h
  · exact h.filterFor level

end Report

theorem Review.consistent_blank (level : Level) : (blank level).Consistent :=
  ⟨.ok [], .ok [], .ok []⟩

theorem Pipeline.OwnEnd.consistent (h : p.OwnEnd root level a r) : r.Consistent := by
  obtain ⟨t, known, rfl⟩ := h
  have htells := p.invoker.tells_trial p.machine a root known t
  exact Report.Consistent.recorded htells.success level a

theorem Pipeline.Accounted.consistent (h : p.Accounted root level millis a r) : r.Consistent := by
  rcases h with h | rfl
  · exact h.consistent
  · exact .failed _

/-- Whenever an analysis is taken, its reports name their errors. -/
theorem Review.Expired.consistent (h : review.Expired p root level millis) :
    review.Consistent := by
  have hcancelled {b : Analyzer} {q : Report}
      (hq : p.Accounted root level millis b q ∨ q = .cancelled b) : q.Consistent := by
    rcases hq with hq | rfl
    · exact hq.consistent
    · exact .failed _
  exact ⟨hcancelled h.security, hcancelled h.main, hcancelled h.complexity⟩

/-- Whatever an analyzer is run on, its report names its error. -/
theorem Invoker.consistent_analyze (v : Invoker) (m : Machine) (a : Analyzer) (root target : Path)
    (c : Bool) (w : World) : (StateT.run (v.analyze m a root target c) w).1.Consistent := by
  have hrun : ∀ known, ((StateT.run (v.run m a root target c) w).1.report known).Consistent := by
    intro known
    unfold Invoker.run
    rw [Work.run_get_bind]
    split
    · exact (@ToolRun.tells_left _ (v.settings.successCodes a) a).success
    · rw [Disk.run_eq]
      dsimp only
      rw [Work.run_set_bind]
      split
      · exact (@ToolRun.tells_failed _ (v.settings.successCodes a) a _).success
      · rw [StateT.run_bind]
        exact (ToolRun.tells_ofOutcome a _).success
  unfold Invoker.analyze
  rw [StateT.run_bind]
  exact hrun _

theorem Pipeline.consistent_reanalyze (p : Pipeline) (root file : Path) (level : Level)
    (w : World) : (StateT.run (p.reanalyze root file level) w).1.Consistent := by
  unfold Pipeline.reanalyze
  rw [StateT.run_bind]
  exact (p.invoker.consistent_analyze p.machine .ruff root (root.join file) false w).filterFor level

/-! ### Reviews for beginners -/

/-- A report without findings that only the advanced are shown. -/
def Report.Gentle (r : Report) : Prop := ∀ i ∈ r.issues, i.isAdvancedOnly = false

/-- A review for beginners has no findings that only the advanced are shown. -/
def Review.Spares (review : Review) : Prop := review.level = .beginner → review.main.Gentle

theorem Report.Gentle.filterFor (r : Report) : (r.filterFor .beginner).Gentle := by
  intro i hi
  rw [Report.filterFor, if_pos rfl] at hi
  simpa using (List.mem_filter.mp hi).2

theorem Report.Gentle.failed (error : String) : (Report.failed error).Gentle :=
  fun _ hi => absurd hi List.not_mem_nil

theorem Pipeline.gentle_reanalyze (p : Pipeline) (root file : Path) (w : World) :
    (StateT.run (p.reanalyze root file .beginner) w).1.Gentle := by
  unfold Pipeline.reanalyze
  rw [StateT.run_bind]
  exact .filterFor _

/-! ### What analyses make -/

namespace Watch

variable {x : Watch} (h : Reaches p root level millis (.start w) x) (hr : x.answer = some review)

include h hr

theorem expired_of_answer : review.Expired p root level millis ∧
    review.linter = review.kind.mainLinter ∧ review.level = level := by
  obtain ⟨z, hz, ⟨hup, hdone, rfl⟩ | ⟨-, rfl⟩⟩ := h.answer_cases hr
  · exact ⟨hz.expired_of_done hup hdone millis, rfl, rfl⟩
  · exact ⟨hz.expired millis, rfl, rfl⟩

/-- Whenever an analysis is taken, beginners are spared. -/
theorem spares_of_answer : review.Spares := by
  obtain ⟨hexpired, hlinter, hlevel⟩ := expired_of_answer h hr
  intro hbeginner
  rw [hlevel] at hbeginner
  rcases hexpired.main with (⟨t, known, hmain⟩ | hmain) | hmain <;> rw [hmain]
  · have hmainLinter : ¬ (review.linter = .bandit ∨ review.linter = .radon) := by
      rw [hlinter]
      cases review.kind <;> decide
    rw [Analyzer.recorded, if_neg hmainLinter, hbeginner]
    exact .filterFor _
  · exact .failed _
  · exact .failed _

end Watch

namespace Service

variable {s : Service} {x : Scene} {c : CodeChange} {file : String} {report : Report}

/-- A review that an analysis may leave, in whatever order its worker and its limit come. -/
def Leaves (s : Service) (review : Review) : Prop :=
  ∃ root level w x, Watch.Reaches s.pipeline root level (s.settings.analysisSeconds * 1000)
    (.start w) x ∧ x.answer = some review

theorem Analyzed.leaves (h : s.Analyzed review) : s.Leaves review := by
  obtain ⟨root, level, w, h⟩ := h
  obtain ⟨x, hx⟩ := Watch.exists_of_analyzeWithin h
  exact ⟨root, level, w, x, hx⟩

theorem Leaves.consistent (h : s.Leaves review) : review.Consistent := by
  obtain ⟨root, level, w, x, hreach, hanswer⟩ := h
  exact (Watch.expired_of_answer hreach hanswer).1.consistent

theorem Leaves.spares (h : s.Leaves review) : review.Spares := by
  obtain ⟨root, level, w, x, hreach, hanswer⟩ := h
  exact Watch.spares_of_answer hreach hanswer

end Service

/-! ### Looks at files -/

/-- All reviews that sessions have satisfy `P`. -/
def SessionStore.AllReviews (P : Review → Prop) (store : SessionStore) : Prop :=
  ∀ session ∈ store.live, ∀ review, session.result = some review → P review

theorem SessionStore.AllReviews.of_result {P : Review → Prop} {store : SessionStore} {id : String}
    (h : store.AllReviews P) (hknown : store.result id = .ok (some known)) : P known := by
  obtain ⟨session, hsession, hresult⟩ := result_eq_ok.mp hknown
  exact h session (mem_of_find? hsession).1 known hresult

theorem SessionStore.AllReviews.setResult {P : Review → Prop} {store : SessionStore} {id : String}
    (h : store.AllReviews P) (hreview : P review) : (store.setResult id review).AllReviews P := by
  intro session hsession other hother
  obtain ⟨old, hold, rfl⟩ := List.mem_map.mp hsession
  split_ifs at hother
  · exact Option.some.inj hother ▸ hreview
  · exact h old hold other hother

theorem ReviewsFrom.allReviews {P Q : Review → Prop} {x y : Scene}
    (h : ReviewsFrom Scene.sessions Q x y) (hx : x.sessions.AllReviews P)
    (hQ : ∀ review, Q review → P review) : y.sessions.AllReviews P := by
  intro session hsession review hreview
  rcases h session hsession review hreview with ⟨old, hold, -, hresult⟩ | hnew
  · exact hx old hold review hresult
  · exact hQ review hnew

namespace CodeChange

variable {s : Service} {x : Scene} {c : CodeChange} {file file' : String} {report report' : Report}

theorem Looks.consistent (h : c.Looks s x file level report) : report.Consistent := by
  obtain ⟨root, path, -, rfl⟩ := h
  exact s.pipeline.consistent_reanalyze _ _ _ _

theorem Looks.gentle (h : c.Looks s x file .beginner report) : report.Gentle := by
  obtain ⟨root, path, -, rfl⟩ := h
  exact s.pipeline.gentle_reanalyze _ _ _

/-- There is one look only. -/
theorem Looks.unique (h : c.Looks s x file level report) (h' : c.Looks s x file' level report') :
    report' = report := by
  obtain ⟨root, path, hwrites, rfl⟩ := h
  obtain ⟨root', path', hwrites', rfl⟩ := h'
  obtain rfl := Except.ok.inj (hwrites.directory.symm.trans hwrites'.directory)
  obtain rfl := Except.ok.inj (hwrites.resolve.symm.trans hwrites'.resolve)
  rw [hwrites.file, hwrites'.file]

end CodeChange

theorem Report.Consistent.error_ne_none (h : r.Consistent) (hfailed : r.success = false) :
    r.error ≠ none := fun hnone => absurd (h.mpr hnone) (by simp [hfailed])

/-- What is found in a file is put into a consistent report. -/
theorem Review.Consistent.replaceFileIssues (h : review.Consistent) (file : String)
    (issues : List Issue) : (review.replaceFileIssues file issues).Consistent :=
  ⟨h.security, h.main, h.complexity⟩

/-! ### Successes that name an error -/

namespace Service

variable {s : Service} {x : Scene} {q : Http.Request} {now : Timestamp}
  {requests : List (Timestamp × Http.Request)} {c : CodeChange} {known? : Option Review}

/-- A change whose look fails, although what is known succeeded. -/
def KeepsSuccess (s : Service) (x : Scene) (q : Http.Request) : Prop :=
  ∃ c known file report, s.edit? q = some (.change c) ∧ Text.isAllBlank c.code = false ∧
    x.sessions.result c.session = .ok (some known) ∧ known.main.success = true ∧
    c.Looks s x file (c.levelFor (some known)) report ∧ report.success = false

/-- A request leaves the reviews of sessions consistent. -/
theorem consistent_answer (h : x.sessions.AllReviews Review.Consistent) :
    (s.answer now q x).1.sessions.AllReviews Review.Consistent := by
  rcases s.reviews_answer now q x with hfrom | ⟨c, known, file, report, -, hknown, -, -, hsessions⟩
  · exact hfrom.allReviews h fun _ hnew => hnew.leaves.consistent
  · rw [hsessions]
    exact h.setResult ((h.of_result hknown).replaceFileIssues _ _)

theorem consistent_answerAll (h : x.sessions.AllReviews Review.Consistent) :
    (s.answerAll x requests).sessions.AllReviews Review.Consistent := by
  induction requests generalizing x with
  | nil => exact h
  | cons q rest ih => exact ih (consistent_answer h)

/-- What a change shows is consistent, unless an error is put into a success. -/
theorem Reviewed.consistent_iff (h : s.Reviewed x c known? review)
    (hedit : s.edit? q = some (.change c)) (hx : x.sessions.AllReviews Review.Consistent) :
    review.security.Consistent ∧ review.complexity.Consistent ∧
      (review.main.Consistent ↔ ¬ s.KeepsSuccess x q) := by
  obtain ⟨hknown, ⟨hblank, rfl⟩ | ⟨hblank, file, report, hlooks, rfl⟩⟩ := h
  · have hnot : ¬ s.KeepsSuccess x q := by
      rintro ⟨c', known, file, report, hedit', hblank', -⟩
      obtain rfl := Edit.change.inj (Option.some.inj (hedit.symm.trans hedit'))
      rw [hblank] at hblank'
      exact absurd hblank' (by simp)
    have hempty := Review.consistent_blank (c.levelFor known?)
    exact ⟨hempty.security, hempty.complexity, iff_of_true hempty.main hnot⟩
  -- The request is one that keeps a success exactly if this look fails and a success is known.
  have hkeeps : s.KeepsSuccess x q ↔
      report.success = false ∧ ∃ known, known? = some known ∧ known.main.success = true := by
    constructor
    · rintro ⟨c', known, file', report', hedit', -, hknown', hsuccess, hlooks', hfailed⟩
      obtain rfl := Edit.change.inj (Option.some.inj (hedit.symm.trans hedit'))
      obtain rfl := Except.ok.inj (hknown.symm.trans hknown')
      obtain rfl := hlooks.unique hlooks'
      exact ⟨hfailed, known, rfl, hsuccess⟩
    · rintro ⟨hfailed, known, rfl, hsuccess⟩
      exact ⟨c, known, file, report, hedit, hblank, hknown, hsuccess, hlooks, hfailed⟩
  rw [hkeeps]
  rcases known? with _ | known
  · have hempty := Review.consistent_blank (c.levelFor none)
    exact ⟨hempty.security, hempty.complexity, iff_of_true hlooks.consistent (by simp)⟩
  have hconsistent := hx.of_result hknown
  rcases hreport : report.success with _ | _
  · have herror := hlooks.consistent.error_ne_none hreport
    rw [Review.noting_failed hreport]
    refine ⟨hconsistent.security, hconsistent.complexity, ?_⟩
    simp [Report.Consistent, herror]
  · have hreplaced := hconsistent.replaceFileIssues file report.issues
    rw [Review.noting_ok hreport]
    exact ⟨hreplaced.security, hreplaced.complexity, iff_of_true hreplaced.main (by simp)⟩

/-- **A report names an error exactly if it failed, unless an error was put into a success.** This
holds of all reviews that analyses make, in whatever order worker and limit come, that sessions
have, and that answers show. The one exception is the main report after a look that failed, where
the report that was known succeeded: it is shown as a success that names an error. -/
theorem consistent_unless_kept (s : Service) (first : Scene)
    (hfirst : first.sessions.AllReviews Review.Consistent)
    (before : List (Timestamp × Http.Request)) :
    let x := s.answerAll first before
    (∀ review, s.Leaves review → review.Consistent) ∧
    x.sessions.AllReviews Review.Consistent ∧
    ∀ now q, q.method = "POST" →
      (q.path = ProjectRequest.upload.path ∨ q.path = ProjectRequest.change.path) →
      (s.answer now q x).2.status = 200 →
      ∃ review, Shows (s.answer now q x).2.body review ∧
        review.security.Consistent ∧ review.complexity.Consistent ∧
        (review.main.Consistent ↔ ¬ s.KeepsSuccess x q) := by
  intro x
  have hx : x.sessions.AllReviews Review.Consistent := consistent_answerAll hfirst
  refine ⟨fun review => Leaves.consistent, hx, fun now q hmethod hpath hgranted => ?_⟩
  obtain ⟨review, hshows, ⟨hanalyzed, hupload⟩ | ⟨c, known?, hedit, hreviewed⟩⟩ :=
    s.review_answer now q x hmethod hpath hgranted
  · have hconsistent := hanalyzed.leaves.consistent
    refine ⟨review, hshows, hconsistent.security, hconsistent.complexity,
      iff_of_true hconsistent.main ?_⟩
    rintro ⟨c, -, -, -, hedit, -⟩
    exact absurd (hupload.symm.trans (edit?_eq_change.mp hedit).2.1) (by decide)
  · exact ⟨review, hshows, hreviewed.consistent_iff hedit hx⟩

/-- Looking at a new text of a file, for the advanced. -/
def lookingAdvanced : Http.Request :=
  ⟨"POST", "/api/v1/analysis/analyze-code", "", [("content-type", "application/json")],
    ("\x7b\"session_id\": \"one\", \"file_path\": \"a.py\", \"code\": \"bad\", " ++
      "\"experience_level\": \"advanced\"\x7d").toUTF8⟩

/-- The change for which it asks. -/
def newText : CodeChange := ⟨"bad", "a.py", "one", some .advanced⟩

theorem edit?_lookingAdvanced : quietService.edit? lookingAdvanced = some (.change newText) :=
  Service.edit?_of_readChange rfl rfl (by decide +kernel)

theorem consistent_lintedScene : lintedScene.sessions.AllReviews Review.Consistent := by
  intro session hsession review hreview
  obtain rfl := List.mem_singleton.mp hsession
  exact Option.some.inj hreview ▸ Review.consistent_blank _

/-- Without ruff the look fails, and what is known is a success. -/
theorem keepsSuccess_lintedScene : quietService.KeepsSuccess lintedScene lookingAdvanced := by
  have hwritten : (outcome (newText.write quietService) lintedScene).toOption.join =
      some (⟨"/s/p"⟩, "a.py", .advanced) := by decide +kernel
  have hreport : (StateT.run (quietService.pipeline.reanalyze ⟨"/s/p"⟩ ⟨"a.py"⟩ .advanced)
      (newText.writing quietService ⟨"/s/p/a.py"⟩ lintedScene).world).1.success = false := by
    decide +kernel
  rcases newText.write_cases quietService lintedScene with
    ⟨root, file, level, path, houtcome, hwrites⟩ | ⟨hrefused, -⟩
  · rw [houtcome] at hwritten
    obtain ⟨rfl, rfl, rfl⟩ : root = ⟨"/s/p"⟩ ∧ file = "a.py" ∧ level = .advanced := by
      simpa [Except.toOption] using hwritten
    obtain rfl : path = ⟨"/s/p/a.py"⟩ := by
      have hpath : (lintedScene.sessions.resolve newText.session newText.file).toOption =
          some ⟨"/s/p/a.py"⟩ := by decide +kernel
      rw [hwrites.resolve] at hpath
      simpa [Except.toOption] using hpath
    generalize hlook : StateT.run (quietService.pipeline.reanalyze ⟨"/s/p"⟩ ⟨"a.py"⟩ .advanced)
      (newText.writing quietService ⟨"/s/p/a.py"⟩ lintedScene).world = look at hreport
    have hlooks : newText.Looks quietService lintedScene "a.py" .advanced look.1 :=
      ⟨_, _, hwrites, by rw [hlook]⟩
    exact ⟨newText, .blank .intermediate, "a.py", look.1, edit?_lookingAdvanced, by decide +kernel,
      rfl, rfl, hlooks, hreport⟩
  · rcases houtcome : outcome (newText.write quietService) lintedScene with e | v?
    · rw [houtcome] at hwritten
      exact absurd hwritten (by simp [Except.toOption])
    · rw [houtcome] at hwritten hrefused
      exact absurd (congrArg Except.ok hwritten) (hrefused _)

theorem consistent_unless_kept_lintedScene :
    lintedScene.sessions.AllReviews Review.Consistent ∧
    (linting.answer ⟨1, 0⟩ lookingAdvanced
      (linting.answerAll lintedScene [(⟨0, 0⟩, lookingAdvanced)])).2.status = 200 ∧
    (linting.answerAll lintedScene [(⟨0, 0⟩, lookingAdvanced)]).sessions.AllReviews
      Review.Consistent ∧
    ∃ review, Shows (linting.answer ⟨1, 0⟩ lookingAdvanced
        (linting.answerAll lintedScene [(⟨0, 0⟩, lookingAdvanced)])).2.body review ∧
      review.security.Consistent ∧ (review.main.Consistent ↔ ¬ linting.KeepsSuccess
        (linting.answerAll lintedScene [(⟨0, 0⟩, lookingAdvanced)]) lookingAdvanced) := by
  obtain ⟨-, hheld, hshown⟩ := consistent_unless_kept linting lintedScene consistent_lintedScene
    [(⟨0, 0⟩, lookingAdvanced)]
  have hgranted : (linting.answer ⟨1, 0⟩ lookingAdvanced
      (linting.answerAll lintedScene [(⟨0, 0⟩, lookingAdvanced)])).2.status = 200 := by
    decide +kernel
  obtain ⟨review, hshows, hsecurity, -, hmain⟩ :=
    hshown ⟨1, 0⟩ lookingAdvanced rfl (.inr rfl) hgranted
  exact ⟨consistent_lintedScene, hgranted, hheld, review, hshows, hsecurity, hmain⟩

/-- A look that fails is shown as a success that names an error. -/
theorem failed_look_shown_as_success :
    lintedScene.sessions.AllReviews Review.Consistent ∧
    (quietService.answer ⟨0, 0⟩ lookingAdvanced lintedScene).2.status = 200 ∧
    ∃ review, Shows (quietService.answer ⟨0, 0⟩ lookingAdvanced lintedScene).2.body review ∧
      ¬ review.main.Consistent := by
  have hgranted : (quietService.answer ⟨0, 0⟩ lookingAdvanced lintedScene).2.status = 200 := by
    decide +kernel
  obtain ⟨review, hshows, ⟨-, hupload⟩ | ⟨c, known?, hedit, hreviewed⟩⟩ :=
    quietService.review_answer ⟨0, 0⟩ lookingAdvanced lintedScene rfl (.inr rfl) hgranted
  · exact absurd hupload (by decide)
  · obtain ⟨-, -, hiff⟩ := hreviewed.consistent_iff hedit consistent_lintedScene
    exact ⟨consistent_lintedScene, hgranted, review, hshows,
      fun h => hiff.mp h keepsSuccess_lintedScene⟩

/-! ### Findings that beginners see -/

/-- An issue that was brought into the review of a beginner: ruff reported it when a request looked
at a file of the session, and asked for another level. -/
def Brought (s : Service) (first : Scene) (requests : List (Timestamp × Http.Request)) (id : String)
    (i : Issue) : Prop :=
  ∃ before now q after c known file level report, requests = before ++ (now, q) :: after ∧
    s.edit? q = some (.change c) ∧ c.session = id ∧ c.level = some level ∧ level ≠ .beginner ∧
    (s.answerAll first before).sessions.result id = .ok (some known) ∧ known.level = .beginner ∧
    c.Looks s (s.answerAll first before) file level report ∧ report.success = true ∧
    i ∈ report.issues

theorem Brought.append {first : Scene} {id : String} {i : Issue}
    (h : s.Brought first requests id i) (more : List (Timestamp × Http.Request)) :
    s.Brought first (requests ++ more) id i := by
  obtain ⟨before, now, q, after, c, known, file, level, report, rfl, h⟩ := h
  exact ⟨before, now, q, after ++ more, c, known, file, level, report, by simp, h⟩

theorem answerAll_append (s : Service) (x : Scene)
    (requests more : List (Timestamp × Http.Request)) :
    s.answerAll x (requests ++ more) = s.answerAll (s.answerAll x requests) more :=
  List.foldl_append

/-- The findings for the advanced in a review for beginners were brought into it. -/
def BroughtInto (s : Service) (first : Scene) (requests : List (Timestamp × Http.Request))
    (id : String) (review : Review) : Prop :=
  review.level = .beginner → ∀ i ∈ review.main.issues, i.isAdvancedOnly = true →
    s.Brought first requests id i

theorem BroughtInto.of_spares {first : Scene} {id : String} (h : review.Spares) :
    s.BroughtInto first requests id review := fun hlevel i hi hadvanced =>
  absurd (h hlevel i hi) (by simp [hadvanced])

/-- What ruff finds for the level of the review is spared, and what it finds for another level is
brought in. -/
theorem brought_of_look {first : Scene} {known : Review} {file : String} {report : Report}
    {i : Issue} (hedit : s.edit? q = some (.change c))
    (hknown : (s.answerAll first requests).sessions.result c.session = .ok (some known))
    (hbeginner : known.level = .beginner)
    (hlooks : c.Looks s (s.answerAll first requests) file (c.levelFor (some known)) report)
    (hsuccess : report.success = true) (hi : i ∈ report.issues)
    (hadvanced : i.isAdvancedOnly = true) :
    s.Brought first (requests ++ [(now, q)]) c.session i := by
  have hgentle : c.levelFor (some known) = .beginner → False := fun hlevel => by
    rw [hlevel] at hlooks
    exact absurd (hlooks.gentle i hi) (by simp [hadvanced])
  rcases hlevel : c.level with _ | level
  · exact (hgentle (by simp [CodeChange.levelFor, hlevel, hbeginner])).elim
  · have hfor : c.levelFor (some known) = level := by simp [CodeChange.levelFor, hlevel]
    rw [hfor] at hlooks hgentle
    exact ⟨requests, now, q, [], c, known, file, level, report, rfl, hedit, rfl, hlevel, hgentle,
      hknown, hbeginner, hlooks, hsuccess, hi⟩

/-- What was brought into the reviews of sessions. -/
def AllBrought (s : Service) (first : Scene) (requests : List (Timestamp × Http.Request)) : Prop :=
  ∀ session ∈ (s.answerAll first requests).sessions.live, ∀ review,
    session.result = some review → s.BroughtInto first requests session.id review

section Brought

variable {first : Scene} {known : Review} {file : String} {report : Report}

theorem AllBrought.of_result {id : String} (h : s.AllBrought first requests)
    (hknown : (s.answerAll first requests).sessions.result id = .ok (some known)) :
    s.BroughtInto first requests id known := by
  obtain ⟨session, hsession, hresult⟩ := result_eq_ok.mp hknown
  obtain ⟨hmem, rfl⟩ := mem_of_find? hsession
  exact h session hmem known hresult

/-- A review into which what ruff found in a file is put. -/
theorem AllBrought.replaced (h : s.AllBrought first requests)
    (hedit : s.edit? q = some (.change c))
    (hknown : (s.answerAll first requests).sessions.result c.session = .ok (some known))
    (hlooks : c.Looks s (s.answerAll first requests) file (c.levelFor (some known)) report)
    (hsuccess : report.success = true) : s.BroughtInto first (requests ++ [(now, q)]) c.session
      (known.replaceFileIssues file report.issues) := by
  intro hlevel i hi hadvanced
  rcases List.mem_append.mp hi with hold | hnew
  · exact (h.of_result hknown hlevel i (List.mem_filter.mp hold).1 hadvanced).append _
  · exact brought_of_look hedit hknown hlevel hlooks hsuccess hnew hadvanced

theorem allBrought (hfirst : first.sessions.AllReviews Review.Spares)
    (requests : List (Timestamp × Http.Request)) : s.AllBrought first requests := by
  induction requests using List.reverseRecOn with
  | nil =>
    exact fun session hsession review hreview => .of_spares (hfirst session hsession review hreview)
  | append_singleton requests q ih =>
    obtain ⟨now, q⟩ := q
    intro session hsession review hreview
    rw [answerAll_append] at hsession
    rcases s.reviews_answer now q (s.answerAll first requests) with hfrom |
      ⟨c, known, file, report, hedit, hknown, hlooks, hsuccess, hsessions⟩
    · rcases hfrom session hsession review hreview with ⟨old, hold, hid, hresult⟩ | hnew
      · rw [← hid]
        exact fun hlevel i hi hadvanced =>
          (ih old hold review hresult hlevel i hi hadvanced).append _
      · exact .of_spares hnew.leaves.spares
    · change session ∈ (s.answer now q (s.answerAll first requests)).1.sessions.live at hsession
      rw [hsessions] at hsession
      obtain ⟨old, hold, rfl⟩ := List.mem_map.mp hsession
      split_ifs at hreview ⊢ with hid
      · obtain rfl := Option.some.inj hreview
        rw [hid]
        exact ih.replaced hedit hknown hlooks hsuccess
      · exact fun hlevel i hi hadvanced =>
          (ih old hold review hreview hlevel i hi hadvanced).append _

/-- What a change shows to beginners is spared, or was brought in. -/
theorem AllBrought.reviewed (h : s.AllBrought first requests)
    (hedit : s.edit? q = some (.change c))
    (hreviewed : s.Reviewed (s.answerAll first requests) c known? review) :
    s.BroughtInto first (requests ++ [(now, q)]) c.session review := by
  obtain ⟨hknown, ⟨-, rfl⟩ | ⟨-, file, report, hlooks, rfl⟩⟩ := hreviewed
  · exact fun _ i hi => absurd hi List.not_mem_nil
  rcases known? with _ | known
  · refine .of_spares fun hlevel => ?_
    have hbeginner : c.levelFor none = .beginner := hlevel
    rw [hbeginner] at hlooks
    exact hlooks.gentle
  rcases hreport : report.success with _ | _
  · rw [Review.noting_failed hreport]
    exact fun hlevel i hi hadvanced => (h.of_result hknown hlevel i hi hadvanced).append _
  · rw [Review.noting_ok hreport]
    exact h.replaced hedit hknown hlooks hreport

end Brought

/-- **Beginners see findings for the advanced only where these were asked for.** What analyses leave
for beginners has none, in whatever order worker and limit come. And whatever requests come: if a
review for beginners that a session has, or that an answer shows, has a finding that only the
advanced are shown, then ruff reported it for a request that looked at a file of that session and
asked for another level. -/
theorem beginners_are_spared (s : Service) (first : Scene)
    (hfirst : first.sessions.AllReviews Review.Spares)
    (before : List (Timestamp × Http.Request)) :
    let x := s.answerAll first before
    (∀ review, s.Leaves review → review.Spares) ∧
    (∀ session ∈ x.sessions.live, ∀ review, session.result = some review →
      s.BroughtInto first before session.id review) ∧
    ∀ now q, q.method = "POST" →
      (q.path = ProjectRequest.upload.path ∨ q.path = ProjectRequest.change.path) →
      (s.answer now q x).2.status = 200 →
      ∃ review, Shows (s.answer now q x).2.body review ∧
        (review.Spares ∨ ∃ c, s.edit? q = some (.change c) ∧
          s.BroughtInto first (before ++ [(now, q)]) c.session review) := by
  intro x
  have hbrought : s.AllBrought first before := allBrought hfirst before
  refine ⟨fun review => Leaves.spares, hbrought, fun now q hmethod hpath hgranted => ?_⟩
  obtain ⟨review, hshows, ⟨hanalyzed, -⟩ | ⟨c, known?, hedit, hreviewed⟩⟩ :=
    s.review_answer now q x hmethod hpath hgranted
  · exact ⟨review, hshows, .inl hanalyzed.leaves.spares⟩
  · exact ⟨review, hshows, .inr ⟨c, hedit, hbrought.reviewed hedit hreviewed⟩⟩

/-- Ruff, which finds an unused import in every text. -/
def importing : Service :=
  { quietService with pipeline :=
    ⟨⟨.standard, ⟨"/c"⟩, 1⟩, ⟨[], ⟨"/tmp"⟩, [], [⟨"/bin"⟩], fun _ _ => .ok
      ⟨("[\x7b\"filename\": \"a.py\", \"location\": \x7b\"row\": 1\x7d, \"code\": \"F401\", " ++
        "\"message\": \"unused\"\x7d]").toUTF8, .empty, some 1, 0⟩⟩⟩ }

/-- A session with an empty project and a review for beginners. -/
def noviceScene : Scene :=
  ⟨lintedScene.world, { lintedScene.sessions with
    live := [⟨"one", ⟨"/s/p"⟩, none, some (.blank .beginner)⟩] }⟩

theorem spares_noviceScene : noviceScene.sessions.AllReviews Review.Spares := by
  intro session hsession review hreview
  obtain rfl := List.mem_singleton.mp hsession
  exact Option.some.inj hreview ▸ fun _ _ hi => absurd hi List.not_mem_nil

/-- What ruff finds in every text. -/
def unusedImport : Issue := ⟨.error, "a.py", 1, "unused", "F401", .ruff, none, none, none, none⟩

theorem live_importing :
    (importing.answerAll noviceScene [(⟨0, 0⟩, lookingAdvanced)]).sessions.live =
      [⟨"one", ⟨"/s/p"⟩, none,
        some { Review.blank .beginner with main := .ok [unusedImport] }⟩] := by
  decide +kernel

theorem beginners_are_spared_importing :
    noviceScene.sessions.AllReviews Review.Spares ∧
    importing.Brought noviceScene [(⟨0, 0⟩, lookingAdvanced)] "one" unusedImport := by
  obtain ⟨-, hheld, -⟩ := beginners_are_spared importing noviceScene spares_noviceScene
    [(⟨0, 0⟩, lookingAdvanced)]
  rw [live_importing] at hheld
  exact ⟨spares_noviceScene,
    hheld _ (List.mem_singleton_self _) _ rfl rfl _ (List.mem_singleton_self _) (by decide)⟩

/-- A look for the advanced puts an unused import into a review for beginners. -/
theorem beginner_is_shown_unused_import :
    noviceScene.sessions.AllReviews Review.Spares ∧
    ∃ session ∈ (importing.answerAll noviceScene [(⟨0, 0⟩, lookingAdvanced)]).sessions.live,
      ∃ review, session.result = some review ∧ ¬ review.Spares := by
  rw [live_importing]
  refine ⟨spares_noviceScene, _, List.mem_singleton_self _, _, rfl, fun h => ?_⟩
  exact absurd (h rfl unusedImport (List.mem_singleton_self _)) (by decide)

end Service

end ReviewMentor
