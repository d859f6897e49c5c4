import ReviewMentor.Proofs.Analysis.GivingUp

/-!
# Analyses that run out of time

While a worker analyzes a project, someone waits for it, and when the limit has passed first, tells
it that the analysis is given up and then takes what has been recorded. The worker goes on in
between. So what is taken may already tell of a run that was cancelled, where it should say that
there was no more time.
-/

namespace ReviewMentor

open FileTree Effect

/-- A worker with someone who waits for it, and the review that was returned. -/
structure Watch where
  worker : Worker
  answer : Option Review

namespace Watch

variable (p : Pipeline) (root : Path) (level : Level) (millis : Nat)

/-- What may happen to a worker and to whoever waits for it. That the limit has passed is what makes
the worker be told that the analysis is given up. -/
inductive Moves : Watch → Watch → Prop where
  | worker {x : Watch} {y : Worker} (h : Worker.Moves p root level x.worker y) :
      Moves x { x with worker := y }
  /-- The worker is done within the limit. -/
  | join {x : Watch} (hnone : x.answer = none) (hup : x.worker.givenUp = false)
      (hdone : x.worker.analysis.phase = .done) :
      Moves x { x with answer := x.worker.analysis.recorded.finish level Pipeline.notRun }
  /-- What has been recorded is taken. -/
  | snapshot {x : Watch} (hnone : x.answer = none) (hup : x.worker.givenUp = true) :
      Moves x
        { x with answer := x.worker.analysis.recorded.finish level (Pipeline.outOfTime millis) }

/-- What may come of a watch. -/
def Reaches : Watch → Watch → Prop := Relation.ReflTransGen (Moves p root level millis)

/-- A watch that has not begun. -/
def start (w : World) : Watch := ⟨.start w, none⟩

variable {p root level millis} {x y : Watch} {w : World} {r : Review} {a : Analyzer}

theorem Reaches.worker (h : Reaches p root level millis x y) :
    Worker.Reaches p root level x.worker y.worker := by
  induction h with
  | refl => exact .refl
  | tail _ hmove ih =>
    cases hmove with
    | worker hwork => exact ih.tail hwork
    | join => exact ih
    | snapshot => exact ih

theorem reaches_worker (millis : Nat) {x : Watch} {z : Worker}
    (h : Worker.Reaches p root level x.worker z) :
    Reaches p root level millis x { x with worker := z } := by
  induction h with
  | refl => exact .refl
  | tail _ hmove ih => exact ih.tail (.worker hmove)

/-- A review is returned either when the worker is done, or after it was told to give up. -/
theorem Reaches.answer_cases (h : Reaches p root level millis (start w) x)
    (hr : x.answer = some r) :
    ∃ z, Worker.Reaches p root level (.start w) z ∧
      ((z.givenUp = false ∧ z.analysis.phase = .done ∧
          r = z.analysis.recorded.finish level Pipeline.notRun) ∨
        (z.givenUp = true ∧
          r = z.analysis.recorded.finish level (Pipeline.outOfTime millis))) := by
  induction h with
  | refl => exact absurd hr (by simp [start])
  | tail hreach hmove ih =>
    cases hmove with
    | worker hwork => exact ih hr
    | join hnone hup hdone =>
      exact ⟨_, Reaches.worker hreach, .inl ⟨hup, hdone, (Option.some.inj hr).symm⟩⟩
    | snapshot hnone hup => exact ⟨_, Reaches.worker hreach, .inr ⟨hup, (Option.some.inj hr).symm⟩⟩

end Watch

/-! ### Telling reports apart -/

variable {p : Pipeline} {root : Path} {level : Level} {a : Analyzer} {millis : Nat} {r : Report}

theorem append_ne_of_not_prefix {s u : String} (h : ¬ s.toList <+: u.toList) (t : String) :
    s ++ t ≠ u := by
  rintro rfl
  exact h (by simp)

theorem startFailure_ne (a : Analyzer) (e : FileError) :
    startFailure a.name e ≠ a.name ++ " analysis was cancelled" := by
  unfold startFailure
  split
  · cases a <;> decide
  · rw [String.append_assoc, String.append_assoc]
    exact append_ne_of_not_prefix (by cases a <;> decide) _

/-- What is said about a run that was cancelled is said about no other run. -/
theorem error_ofOutcome_ne {o : Outcome} {codes : List Int}
    (ho : ∀ e, o.error? = some e → e ≠ a.name ++ " analysis was cancelled") :
    (ToolRun.ofOutcome a o codes).error ≠ some (a.name ++ " analysis was cancelled") := by
  have hexit (code : Int) (stderr : String) :
      ToolRun.exitError a code stderr ≠ a.name ++ " analysis was cancelled" := by
    unfold ToolRun.exitError
    dsimp only
    split
    · rw [String.append_assoc, String.append_assoc]
      exact append_ne_of_not_prefix (by cases a <;> decide) _
    · exact append_ne_of_not_prefix (by cases a <;> decide) _
  unfold ToolRun.ofOutcome
  dsimp only
  split
  · next e he => exact fun h => ho e he (Option.some.inj h)
  · split_ifs
    · simp
    · exact fun h => hexit _ _ (Option.some.inj h)
  · simp

theorem error_trial_ne (p : Pipeline) (root : Path) (a : Analyzer) (t : FileTree) :
    (p.invoker.trial p.machine a root t).error ≠ some (a.name ++ " analysis was cancelled") := by
  unfold Invoker.trial
  split_ifs
  · simp [ToolRun.left]
  split
  · next e _ =>
    have hne : "Failed to write " ++ a.name ++ " config: " ++ e.message ≠
        a.name ++ " analysis was cancelled" := by
      rw [String.append_assoc, String.append_assoc]
      exact append_ne_of_not_prefix (by cases a <;> decide) _
    exact fun h => hne (Option.some.inj h)
  · next argv _ =>
    refine error_ofOutcome_ne fun e he => ?_
    rcases hempty : argv.isEmpty with _ | _
    · rcases hlaunch : p.machine.launch argv (some root) (p.invoker.filesAfter p.machine a root t)
        with failure | ⟨call, ending⟩
      · rw [Machine.trial_error hempty hlaunch] at he
        obtain rfl := Option.some.inj he
        exact startFailure_ne a failure
      · rw [Machine.trial_ok hempty hlaunch, Machine.outcomeOf] at he
        split_ifs at he
        · obtain rfl := Option.some.inj he
          rw [String.append_assoc]
          exact append_ne_of_not_prefix (by cases a <;> decide) _
        · exact absurd he (by simp [Outcome.error?])
    · rw [Machine.trial_empty hempty] at he
      obtain rfl := Option.some.inj he
      cases a <;> decide

theorem error_recorded (level : Level) (a : Analyzer) (r : Report) :
    (a.recorded level r).error = r.error := by
  unfold Analyzer.recorded Report.filterFor
  split_ifs <;> rfl

/-- No run that came to its own end is told of as if it was cancelled. -/
theorem Pipeline.OwnEnd.ne_cancelled (h : p.OwnEnd root level a r) : r ≠ .cancelled a := by
  obtain ⟨t, known, rfl⟩ := h
  intro heq
  have herror := congrArg Report.error heq
  rw [error_recorded] at herror
  exact error_trial_ne p root a t herror

theorem outOfTime_ne (millis : Nat) (a : Analyzer) :
    Report.failed (Pipeline.outOfTime millis) ≠ .cancelled a := by
  have hne : Pipeline.outOfTime millis ≠ a.name ++ " analysis was cancelled" := by
    unfold Pipeline.outOfTime
    rw [String.append_assoc]
    refine append_ne_of_not_prefix ?_ _
    cases a <;> decide
  exact fun heq => hne (Option.some.inj (congrArg Report.error heq))

/-! ### What is returned -/

/-- A result that tells of a run that came to its own end, or says that there was no more time. -/
def Pipeline.Accounted (p : Pipeline) (root : Path) (level : Level) (millis : Nat) (a : Analyzer)
    (r : Report) : Prop :=
  p.OwnEnd root level a r ∨ r = .failed (Pipeline.outOfTime millis)

theorem Pipeline.Accounted.ne_cancelled (h : p.Accounted root level millis a r) :
    r ≠ .cancelled a := by
  rcases h with h | rfl
  · exact h.ne_cancelled
  · exact outOfTime_ne millis a

theorem Pipeline.Told.accounted {givenUp : Bool} (h : p.Told root level givenUp a r) :
    p.Accounted root level millis a r ∨ r = .cancelled a :=
  h.imp .inl And.right

/-- What is returned once the time is up: only the last recorded result may tell of a run that was
cancelled. -/
structure Review.Expired (p : Pipeline) (root : Path) (level : Level) (millis : Nat) (r : Review) :
    Prop where
  security : p.Accounted root level millis .bandit r.security ∨ r.security = .cancelled .bandit
  main : p.Accounted root level millis r.linter r.main ∨ r.main = .cancelled r.linter
  complexity : p.Accounted root level millis .radon r.complexity ∨
    r.complexity = .cancelled .radon
  afterSecurity : r.security = .cancelled .bandit →
    r.main = .failed (Pipeline.outOfTime millis) ∧
      r.complexity = .failed (Pipeline.outOfTime millis)
  afterMain : r.main = .cancelled r.linter → r.complexity = .failed (Pipeline.outOfTime millis)

variable {z : Worker} {w : World}

theorem Worker.Reaches.expired (h : Worker.Reaches p root level (.start w) z) (millis : Nat) :
    (z.analysis.recorded.finish level (Pipeline.outOfTime millis)).Expired p root level millis := by
  have hlate (a : Analyzer) :
      p.Accounted root level millis a (.failed (Pipeline.outOfTime millis)) := .inr rfl
  rcases h.sound.accounts.recorded_cases fun _ _ => .inl with hr | ⟨scan, hscan, hr⟩ |
    ⟨kind, scan, hscan, hr⟩ | ⟨kind, scan, lint, hscan, hlint, hr⟩ |
    ⟨kind, scan, lint, measure, hscan, hlint, hmeasure, hr⟩ <;> rw [hr]
  · exact ⟨.inl (hlate _), .inl (hlate _), .inl (hlate _),
      fun h => absurd h (hlate _).ne_cancelled, fun h => absurd h (hlate _).ne_cancelled⟩
  · exact ⟨hscan.accounted, .inl (hlate _), .inl (hlate _), fun _ => ⟨rfl, rfl⟩, fun _ => rfl⟩
  · exact ⟨.inl (.inl hscan), .inl (hlate _), .inl (hlate _), fun _ => ⟨rfl, rfl⟩, fun _ => rfl⟩
  · exact ⟨.inl (.inl hscan), hlint.accounted, .inl (hlate _),
      fun h => absurd h hscan.ne_cancelled, fun _ => rfl⟩
  · exact ⟨.inl (.inl hscan), .inl (.inl hlint), hmeasure.accounted,
      fun h => absurd h hscan.ne_cancelled, fun h => absurd h hlint.ne_cancelled⟩

theorem Worker.Reaches.expired_of_done (h : Worker.Reaches p root level (.start w) z)
    (hup : z.givenUp = false) (hdone : z.analysis.phase = .done) (millis : Nat) :
    (z.analysis.recorded.finish level Pipeline.notRun).Expired p root level millis := by
  obtain rfl := h.eq_finished hup hdone
  exact h.expired millis

/-- Before the worker is told to give up, nothing recorded tells of a run that was cancelled. -/
theorem Worker.Reaches.not_cancelled (h : Worker.Reaches p root level (.start w) z)
    (hup : z.givenUp = false) :
    z.analysis.recorded.security ≠ some (.cancelled .bandit) ∧
    (∀ kind ∈ z.analysis.recorded.kind,
      z.analysis.recorded.main ≠ some (.cancelled kind.mainLinter)) ∧
    z.analysis.recorded.complexity ≠ some (.cancelled .radon) := by
  have haccounts := h.sound.accounts
  rw [hup] at haccounts
  have hown (a : Analyzer) (r : Report) (hr : p.Told root level false a r) : r ≠ .cancelled a :=
    hr.ownEnd.ne_cancelled
  rcases haccounts.recorded_cases fun _ _ => .inl with hr | ⟨scan, hscan, hr⟩ |
    ⟨kind, scan, hscan, hr⟩ | ⟨kind, scan, lint, hscan, hlint, hr⟩ |
    ⟨kind, scan, lint, measure, hscan, hlint, hmeasure, hr⟩ <;> rw [hr]
  · simp [PartialReview.empty]
  · simp [hown _ _ hscan]
  · simp [hscan.ne_cancelled]
  · simp [hscan.ne_cancelled, hown _ _ hlint]
  · simp [hscan.ne_cancelled, hlint.ne_cancelled, hown _ _ hmeasure]

/-! ### The limit of an analysis -/

/-- An analysis with a limit is one of the watches, in which the worker is left alone until it is
told to give up. -/
theorem Watch.exists_of_analyzeWithin {r : Review}
    (h : outcome (p.analyzeWithin root level millis) w = .ok r) :
    ∃ x, Watch.Reaches p root level millis (.start w) x ∧ x.answer = some r := by
  rcases hroot : p.checkRoot w.files root with e | ⟨⟩
  · have hcheck : outcome (ExceptT.mk (do pure (p.checkRoot (← get).files root)) :
        Work RootError Unit) w = .error e := hroot
    unfold Pipeline.analyzeWithin at h
    rw [outcome_bind_error hcheck] at h
    exact absurd h (by simp)
  let late : StateM World Bool := do pure (w.clock + millis ≤ (← get).clock)
  rcases hrun : StateT.run (Analysis.advance (p.step root level false) late Analysis.stepCount
    .initial) w with ⟨a, w'⟩
  -- The worker is left alone as far as the analysis gets.
  obtain ⟨n, hn⟩ := Worker.exists_iterate_advance p root level late
    (fun _ => rfl) Analysis.stepCount (x := .start w) rfl rfl
  have hleft : (Worker.next p root level)^[n] (.start w) = ⟨a, .idle, w', false⟩ := by
    rw [hn, Worker.start, hrun]
  have hreach := Watch.reaches_worker millis (x := .start w)
    (Worker.reaches_iterate p root level n (.start w))
  rw [hleft] at hreach
  have hreview : a.recorded.finish level
      (if a.phase = .done then Pipeline.notRun else Pipeline.outOfTime millis) = r := by
    unfold Pipeline.analyzeWithin at h
    rw [outcome_bind_ok (Pipeline.outcome_checkRoot hroot)] at h
    have hbind : outcome ((Work.ofState (Analysis.advance (p.step root level false) late
        Analysis.stepCount .initial) : Work RootError Analysis) >>= fun a =>
          pure (a.recorded.finish level
            (if a.phase = .done then Pipeline.notRun else Pipeline.outOfTime millis))) w =
        .ok r := h
    rw [outcome_bind_ok (a := a) (by rw [Work.outcome_ofState, hrun])] at hbind
    exact Except.ok.inj hbind
  by_cases hdone : a.phase = .done
  · refine ⟨_, hreach.tail (.join rfl rfl hdone), ?_⟩
    rw [← hreview, if_pos hdone]
  · refine ⟨_, (hreach.tail (.worker (.giveUp _))).tail (.snapshot rfl rfl), ?_⟩
    rw [← hreview, if_neg hdone]

/-! ### Putting it together -/

/-- **When the time is up, every result tells of a run that came to its own end or says that there
was no more time, unless the last recorded one tells of a run that was cancelled.** That happens
when the worker records the report of the run between being told to give up and what it recorded
being taken: before that, no such report is recorded. -/
theorem accounted_iff_not_cancelled (p : Pipeline) (root : Path) (level : Level) (millis : Nat)
    (w : World) :
    (∀ x r, Watch.Reaches p root level millis (.start w) x → x.answer = some r →
      r.Expired p root level millis ∧
      ((p.Accounted root level millis .bandit r.security ∧
          p.Accounted root level millis r.linter r.main ∧
          p.Accounted root level millis .radon r.complexity) ↔
        r.security ≠ .cancelled .bandit ∧ r.main ≠ .cancelled r.linter ∧
          r.complexity ≠ .cancelled .radon)) ∧
    (∀ z, Worker.Reaches p root level (.start w) z → z.givenUp = false →
      z.analysis.recorded.security ≠ some (.cancelled .bandit) ∧
      (∀ kind ∈ z.analysis.recorded.kind,
        z.analysis.recorded.main ≠ some (.cancelled kind.mainLinter)) ∧
      z.analysis.recorded.complexity ≠ some (.cancelled .radon)) ∧
    ∀ r, outcome (p.analyzeWithin root level millis) w = .ok r →
      ∃ x, Watch.Reaches p root level millis (.start w) x ∧ x.answer = some r := by
  refine ⟨fun x r hx hr => ?_, fun z hz hup => hz.not_cancelled hup,
    fun r hr => Watch.exists_of_analyzeWithin hr⟩
  have hexpired : r.Expired p root level millis := by
    obtain ⟨z, hz, ⟨hup, hdone, rfl⟩ | ⟨hup, rfl⟩⟩ := hx.answer_cases hr
    · exact hz.expired_of_done hup hdone millis
    · exact hz.expired millis
  refine ⟨hexpired, fun h => ⟨h.1.ne_cancelled, h.2.1.ne_cancelled, h.2.2.ne_cancelled⟩,
    fun h => ⟨?_, ?_, ?_⟩⟩
  · exact hexpired.security.resolve_right h.1
  · exact hexpired.main.resolve_right h.2.1
  · exact hexpired.complexity.resolve_right h.2.2

/-- The limit passes while bandit runs, and what is recorded is taken when the worker has recorded
that bandit was cancelled. -/
theorem reaches_cancelled (millis : Nat) :
    Watch.Reaches (pipelineOf mixedFortunes) ⟨"/p"⟩ .advanced millis (.start oneSource)
      ⟨stopped, some (stopped.analysis.recorded.finish .advanced (Pipeline.outOfTime millis))⟩ := by
  have hworker := Watch.reaches_worker millis (x := .start oneSource)
    (reaches_scanning.trans reaches_stopped)
  have hup : stopped.givenUp = true := by decide +kernel
  exact hworker.tail (.snapshot rfl hup)

theorem security_stopped (reason : String) :
    (stopped.analysis.recorded.finish .advanced reason).security = .cancelled .bandit := by
  have hrecorded : stopped.analysis.recorded.security = some (.cancelled .bandit) := by
    decide +kernel
  simp [PartialReview.finish, hrecorded]

/-- A run that was cancelled is told of although the time was up; and a limit of less than a second
is given as none. -/
theorem cancelled_run_is_returned :
    let p := pipelineOf mixedFortunes
    (∃ x r, Watch.Reaches p ⟨"/p"⟩ .advanced 2000 (.start oneSource) x ∧ x.answer = some r ∧
      r.security = .failed "bandit analysis was cancelled" ∧
      ¬ p.OwnEnd ⟨"/p"⟩ .advanced .bandit r.security ∧
      r.security ≠ .failed "analysis timed out after 2s") ∧
    (outcome (p.analyzeWithin ⟨"/p"⟩ .advanced 400) oneSource).toOption.map Review.complexity =
      some (.failed "analysis timed out after 0s") := by
  intro p
  have hsecurity := security_stopped (Pipeline.outOfTime 2000)
  refine ⟨⟨_, _, reaches_cancelled 2000, rfl, hsecurity, fun hown => ?_, ?_⟩, by decide +kernel⟩
  · exact hown.ne_cancelled hsecurity
  · rw [hsecurity]
    decide

theorem accounted_iff_not_cancelled_stopped :
    let p := pipelineOf mixedFortunes
    ∃ x r, Watch.Reaches p ⟨"/p"⟩ .advanced 2000 (.start oneSource) x ∧ x.answer = some r ∧
      r.Expired p ⟨"/p"⟩ .advanced 2000 ∧
      ¬ (p.Accounted ⟨"/p"⟩ .advanced 2000 .bandit r.security ∧
        p.Accounted ⟨"/p"⟩ .advanced 2000 r.linter r.main ∧
        p.Accounted ⟨"/p"⟩ .advanced 2000 .radon r.complexity) := by
  intro p
  obtain ⟨hanswers, -, -⟩ := accounted_iff_not_cancelled p ⟨"/p"⟩ .advanced 2000 oneSource
  obtain ⟨hexpired, hiff⟩ := hanswers _ _ (reaches_cancelled 2000) rfl
  exact ⟨_, _, reaches_cancelled 2000, rfl, hexpired,
    fun h => (hiff.mp h).1 (security_stopped (Pipeline.outOfTime 2000))⟩

end ReviewMentor
