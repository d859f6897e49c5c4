import ReviewMentor.Proofs.Analysis.Worker

/-!
# Giving up an analysis

Whenever an analysis is given up, what it has recorded is a beginning of what it would have
recorded, and no further analyzer is started. A report is recorded either of a run that came to its
own end or, as the last one, of a run that was cancelled.
-/

namespace ReviewMentor

open FileTree Effect

variable {p : Pipeline} {root : Path} {level : Level} {a : Analyzer} {w : World}

/-! ### Reports of single runs -/

/-- What is recorded of the report of an analyzer: of what a linter found, beginners are spared a
part. -/
def Analyzer.recorded (level : Level) (a : Analyzer) (r : Report) : Report :=
  if a = .bandit ∨ a = .radon then r else r.filterFor level

/-- The report of a run that was cancelled. -/
def Report.cancelled (a : Analyzer) : Report := .failed (a.name ++ " analysis was cancelled")

/-- A recorded report of a run that came to its own end: the analyzer was left out, could not be
started, exited, or took longer than it may. -/
def Pipeline.OwnEnd (p : Pipeline) (root : Path) (level : Level) (a : Analyzer) (r : Report) :
    Prop :=
  ∃ t known, r = a.recorded level ((p.invoker.trial p.machine a root t).report known)

/-- A recorded report of a run that came to its own end, or was cancelled because the analysis is
given up. -/
def Pipeline.Told (p : Pipeline) (root : Path) (level : Level) (givenUp : Bool) (a : Analyzer)
    (r : Report) : Prop :=
  p.OwnEnd root level a r ∨ (givenUp = true ∧ r = .cancelled a)

theorem Pipeline.Told.mono {givenUp : Bool} {r : Report} (h : p.Told root level givenUp a r) :
    p.Told root level true a r :=
  h.imp_right fun h => ⟨rfl, h.2⟩

theorem Pipeline.Told.ownEnd {r : Report} (h : p.Told root level false a r) :
    p.OwnEnd root level a r :=
  h.elim id fun h => absurd h.1 Bool.false_ne_true

theorem ToolRun.report_cancelled (a : Analyzer) (codes : List Int) (known : Root) :
    a.recorded level ((ToolRun.ofOutcome a (.cancelled a.name) codes).report known) =
      .cancelled a := by
  have hempty : a.normalize "" known = [] := rfl
  unfold Analyzer.recorded Report.filterFor
  simp only [ToolRun.report, ToolRun.ofOutcome, Outcome.stdout, Outcome.error?, Outcome.code?,
    Option.any_none, hempty, List.filter_nil, ite_self, Report.cancelled, Report.failed]

/-! ### What has been recorded -/

namespace Analysis

/-- The reports that are recorded or about to be recorded. The last of them satisfies `Q`, and those
before it satisfy `P`. -/
def Accounts (P Q : Analyzer → Report → Prop) (s : Analysis) : Prop :=
  match s.phase with
  | .scan => s.recorded = .empty
  | .recordScan scan => s.recorded = .empty ∧ Q .bandit scan
  | .afterScan => ∃ scan, Q .bandit scan ∧ s.recorded = ⟨none, some scan, none, none⟩
  | .classify => ∃ scan, P .bandit scan ∧ s.recorded = ⟨none, some scan, none, none⟩
  | .lint kind => ∃ scan, P .bandit scan ∧ s.recorded = ⟨some kind, some scan, none, none⟩
  | .recordLint lint => ∃ kind scan, P .bandit scan ∧ Q kind.mainLinter lint ∧
      s.recorded = ⟨some kind, some scan, none, none⟩
  | .afterLint => ∃ kind scan lint, P .bandit scan ∧ Q kind.mainLinter lint ∧
      s.recorded = ⟨some kind, some scan, some lint, none⟩
  | .measure => ∃ kind scan lint, P .bandit scan ∧ P kind.mainLinter lint ∧
      s.recorded = ⟨some kind, some scan, some lint, none⟩
  | .recordMeasure measure => ∃ kind scan lint, P .bandit scan ∧ P kind.mainLinter lint ∧
      Q .radon measure ∧ s.recorded = ⟨some kind, some scan, some lint, none⟩
  | .done => (∃ scan, Q .bandit scan ∧ s.recorded = ⟨none, some scan, none, none⟩) ∨
      (∃ kind scan lint, P .bandit scan ∧ Q kind.mainLinter lint ∧
        s.recorded = ⟨some kind, some scan, some lint, none⟩) ∨
      ∃ kind scan lint measure, P .bandit scan ∧ P kind.mainLinter lint ∧ Q .radon measure ∧
        s.recorded = ⟨some kind, some scan, some lint, some measure⟩

variable {P Q R : Analyzer → Report → Prop} {s : Analysis} {r : Report}

theorem Accounts.mono (h : s.Accounts P Q) (hQ : ∀ a r, Q a r → R a r) : s.Accounts P R := by
  unfold Accounts at *
  cases hs : s.phase <;> rw [hs] at h <;> dsimp only at h ⊢
  case scan | classify | lint | measure => exact h
  case recordScan => exact ⟨h.1, hQ _ _ h.2⟩
  case afterScan =>
    obtain ⟨scan, hscan, h⟩ := h
    exact ⟨scan, hQ _ _ hscan, h⟩
  case recordLint =>
    obtain ⟨kind, scan, hscan, hlint, h⟩ := h
    exact ⟨kind, scan, hscan, hQ _ _ hlint, h⟩
  case afterLint =>
    obtain ⟨kind, scan, lint, hscan, hlint, h⟩ := h
    exact ⟨kind, scan, lint, hscan, hQ _ _ hlint, h⟩
  case recordMeasure =>
    obtain ⟨kind, scan, lint, hscan, hlint, hmeasure, h⟩ := h
    exact ⟨kind, scan, lint, hscan, hlint, hQ _ _ hmeasure, h⟩
  case done =>
    rcases h with ⟨scan, hscan, h⟩ | ⟨kind, scan, lint, hscan, hlint, h⟩ |
      ⟨kind, scan, lint, measure, hscan, hlint, hmeasure, h⟩
    · exact .inl ⟨scan, hQ _ _ hscan, h⟩
    · exact .inr (.inl ⟨kind, scan, lint, hscan, hQ _ _ hlint, h⟩)
    · exact .inr (.inr ⟨kind, scan, lint, measure, hscan, hlint, hQ _ _ hmeasure, h⟩)

/-- The analysis goes on with the report of its analyzer. -/
theorem Accounts.report (h : s.Accounts P Q) (ha : s.phase.analyzer? = some a)
    (hr : Q a (a.recorded level r)) (c : Bool) :
    (Analysis.step (M := Id) (fun _ => r) .unknown level c s).Accounts P Q := by
  obtain ⟨phase, recorded, stages⟩ := s
  cases phase <;> simp only [Phase.analyzer?, Option.some.injEq, reduceCtorEq] at ha <;> subst ha
  case scan => exact ⟨h, hr⟩
  case lint kind =>
    obtain ⟨scan, hscan, hrecorded⟩ := h
    have hlinter : ¬ (kind.mainLinter = .bandit ∨ kind.mainLinter = .radon) := by
      cases kind <;> decide
    rw [Analyzer.recorded, if_neg hlinter] at hr
    exact ⟨kind, scan, hscan, hr, hrecorded⟩
  case measure =>
    obtain ⟨kind, scan, lint, hscan, hlint, hrecorded⟩ := h
    exact ⟨kind, scan, lint, hscan, hlint, hr, hrecorded⟩

/-- The analysis takes a step without an analyzer. It only goes on to another one if it is not given
up. -/
theorem Accounts.step (h : s.Accounts P Q) (ha : s.phase.analyzer? = none) {c : Bool}
    (hQ : c = false → ∀ a r, Q a r → P a r) :
    (StateT.run (p.step root level c s) w).1.Accounts P Q := by
  obtain ⟨phase, recorded, stages⟩ := s
  cases phase <;> simp only [Phase.analyzer?, reduceCtorEq] at ha
  case recordScan scan =>
    obtain ⟨hrecorded, hscan⟩ := h
    obtain rfl : recorded = .empty := hrecorded
    exact ⟨scan, hscan, rfl⟩
  case afterScan =>
    obtain ⟨scan, hscan, hrecorded⟩ := h
    cases c with
    | true => exact .inl ⟨scan, hscan, hrecorded⟩
    | false => exact ⟨scan, hQ rfl _ _ hscan, hrecorded⟩
  case classify =>
    obtain ⟨scan, hscan, hrecorded⟩ := h
    obtain rfl : recorded = _ := hrecorded
    exact ⟨scan, hscan, rfl⟩
  case recordLint lint =>
    obtain ⟨kind, scan, hscan, hlint, hrecorded⟩ := h
    obtain rfl : recorded = _ := hrecorded
    exact ⟨kind, scan, lint, hscan, hlint, rfl⟩
  case afterLint =>
    obtain ⟨kind, scan, lint, hscan, hlint, hrecorded⟩ := h
    cases c with
    | true => exact .inr (.inl ⟨kind, scan, lint, hscan, hlint, hrecorded⟩)
    | false => exact ⟨kind, scan, lint, hscan, hQ rfl _ _ hlint, hrecorded⟩
  case recordMeasure measure =>
    obtain ⟨kind, scan, lint, hscan, hlint, hmeasure, hrecorded⟩ := h
    obtain rfl : recorded = _ := hrecorded
    exact .inr (.inr ⟨kind, scan, lint, measure, hscan, hlint, hmeasure, rfl⟩)
  case done => exact h

end Analysis

/-- What is recorded is recorded in the order of the stages. -/
structure PartialReview.InOrder (r : PartialReview) : Prop where
  complexity : r.complexity.isSome → r.main.isSome
  main : r.main.isSome → r.kind.isSome ∧ r.security.isSome
  kind : r.kind.isSome → r.security.isSome

/-- What has been recorded at any time. -/
theorem Analysis.Accounts.recorded_cases {P Q : Analyzer → Report → Prop} {s : Analysis}
    (h : s.Accounts P Q) (hPQ : ∀ a r, P a r → Q a r) :
    s.recorded = .empty ∨
    (∃ scan, Q .bandit scan ∧ s.recorded = ⟨none, some scan, none, none⟩) ∨
    (∃ kind scan, P .bandit scan ∧ s.recorded = ⟨some kind, some scan, none, none⟩) ∨
    (∃ kind scan lint, P .bandit scan ∧ Q kind.mainLinter lint ∧
      s.recorded = ⟨some kind, some scan, some lint, none⟩) ∨
    ∃ kind scan lint measure, P .bandit scan ∧ P kind.mainLinter lint ∧ Q .radon measure ∧
      s.recorded = ⟨some kind, some scan, some lint, some measure⟩ := by
  obtain ⟨phase, recorded, stages⟩ := s
  cases phase <;> dsimp only [Accounts] at h <;> grind

/-! ### Steps of a worker -/

/-- How far a run of an analyzer has come says where it began and what was started. -/
def Turn.Begun (p : Pipeline) (root : Path) (a : Analyzer) (t : FileTree) : Turn → Prop
  | .idle => True
  | .prepared argv => ∃ u, Prepares u argv
  | .cleared argv => argv.isEmpty = false ∧ ∃ u, Prepares u argv
  | .running ending => ∃ argv call, argv.isEmpty = false ∧ (∃ u, Prepares u argv) ∧
      p.machine.launch argv (some root) t = .ok (call, ending)
where
  /-- The command was prepared when the files were others. -/
  Prepares (u : FileTree) (argv : List String) : Prop :=
    Invoker.leavesOut p.machine a root u = false ∧
    outcome (p.invoker.command p.machine.cwd a root) u = .ok argv ∧
    t = p.invoker.filesAfter p.machine a root u

theorem Turn.Begun.Prepares.trial {t u : FileTree} {argv : List String}
    (h : Turn.Begun.Prepares p root a t u argv) :
    p.invoker.trial p.machine a root u = .ofOutcome a
      (p.machine.trial argv a.name (p.invoker.settings.timeout a) (some root) t)
      (p.invoker.settings.successCodes a) := by
  obtain ⟨hout, hcommand, rfl⟩ := h
  rw [Invoker.trial, hout, if_neg Bool.false_ne_true, hcommand]

namespace Worker

variable {x y : Worker} {r : ToolRun} {o : Outcome}

/-- What is known about a worker at all times. -/
structure Sound (p : Pipeline) (root : Path) (level : Level) (x : Worker) : Prop where
  idle : x.analysis.phase.analyzer? = none → x.turn = .idle
  begun : ∀ a, x.analysis.phase.analyzer? = some a → x.turn.Begun p root a x.world.files
  accounts : x.analysis.Accounts (p.OwnEnd root level) (p.Told root level x.givenUp)

theorem sound_start (p : Pipeline) (root : Path) (level : Level) (w : World) :
    (start w).Sound p root level :=
  ⟨fun _ => rfl, fun _ _ => trivial, rfl⟩

theorem sound_report (h : x.analysis.Accounts (p.OwnEnd root level) (p.Told root level x.givenUp))
    (ha : x.analysis.phase.analyzer? = some a)
    (hr : ∀ known, p.Told root level x.givenUp a (a.recorded level (r.report known))) :
    (x.report p root level r).Sound p root level :=
  ⟨fun _ => rfl, fun _ _ => trivial, h.report ha (hr _) x.givenUp⟩

theorem sound_turn (h : x.Sound p root level) (ha : x.analysis.phase.analyzer? = some a) {t : Turn}
    {w : World} (hbegun : t.Begun p root a w.files) :
    ({ x with turn := t, world := w } : Worker).Sound p root level where
  idle hnone := absurd (ha.symm.trans hnone) (by simp)
  begun b hb := by
    obtain rfl : a = b := Option.some.inj (ha.symm.trans hb)
    exact hbegun
  accounts := h.accounts

/-- The trial of an analyzer is a run that came to its own end. -/
theorem sound_trial (h : x.analysis.Accounts (p.OwnEnd root level) (p.Told root level x.givenUp))
    (ha : x.analysis.phase.analyzer? = some a) {t : FileTree}
    (ht : p.invoker.trial p.machine a root t = r) : (x.report p root level r).Sound p root level :=
  sound_report h ha fun known => .inl ⟨t, known, by rw [ht]⟩

theorem sound_cancelled
    (h : x.analysis.Accounts (p.OwnEnd root level) (p.Told root level x.givenUp))
    (ha : x.analysis.phase.analyzer? = some a) (hup : x.givenUp = true) :
    (x.conclude p root level a (.cancelled a.name)).Sound p root level :=
  sound_report h ha fun known => .inr ⟨hup, ToolRun.report_cancelled a _ known⟩

theorem Sound.prepare (h : x.Sound p root level) (ha : x.analysis.phase.analyzer? = some a) :
    (x.prepare p root level a).Sound p root level := by
  unfold Worker.prepare
  rw [Disk.run_eq, Invoker.after_command]
  split_ifs with hout
  · refine sound_trial h.accounts ha (t := x.world.files) ?_
    rw [Invoker.trial, if_pos hout]
  · rw [Bool.not_eq_true] at hout
    rcases hcommand : outcome (p.invoker.command p.machine.cwd a root) x.world.files with e | argv
    · refine sound_trial h.accounts ha (t := x.world.files) ?_
      rw [Invoker.trial, hout, if_neg Bool.false_ne_true, hcommand]
    · refine sound_turn h ha ⟨_, hout, hcommand, ?_⟩
      rw [Invoker.filesAfter, hout, if_neg Bool.false_ne_true]

theorem Sound.run (h : x.Sound p root level) (ha : x.analysis.phase.analyzer? = some a) :
    (x.run p root level a).Sound p root level := by
  have hbegun := h.begun a ha
  unfold Worker.run
  split
  · exact h.prepare ha
  · next argv hturn =>
    rw [hturn] at hbegun
    obtain ⟨u, hu⟩ := hbegun
    split_ifs with hempty hup
    · refine sound_trial h.accounts ha (t := u) ?_
      rw [hu.trial, Machine.trial_empty hempty]
    · exact sound_cancelled h.accounts ha hup
    · exact sound_turn h ha ⟨by simpa using hempty, u, hu⟩
  · next argv hturn =>
    rw [hturn] at hbegun
    obtain ⟨hempty, u, hu⟩ := hbegun
    split
    · next e hlaunch =>
      refine sound_trial h.accounts ha (t := u) ?_
      rw [hu.trial, Machine.trial_error hempty hlaunch]
    · next call ending hlaunch =>
      exact sound_turn h ha ⟨argv, call, hempty, ⟨u, hu⟩, hlaunch⟩
  · next ending hturn =>
    rw [hturn] at hbegun
    obtain ⟨argv, call, hempty, ⟨u, hu⟩, hlaunch⟩ := hbegun
    refine sound_trial (x := x.wait _) h.accounts ha (t := u) ?_
    rw [hu.trial, Machine.trial_ok hempty hlaunch]

theorem Sound.next (h : x.Sound p root level) : (x.next p root level).Sound p root level := by
  unfold Worker.next
  split
  · next a ha => exact h.run ha
  · next ha =>
    have hidle : (x.step p root level).turn = .idle := h.idle ha
    refine ⟨fun _ => hidle, fun _ _ => by rw [hidle]; trivial,
      h.accounts.step ha fun hup a r hr => ?_⟩
    rw [hup] at hr
    exact hr.ownEnd

theorem Sound.moves (h : x.Sound p root level) (hmove : Moves p root level x y) :
    y.Sound p root level := by
  cases hmove with
  | work => exact h.next
  | giveUp => exact ⟨h.idle, h.begun, h.accounts.mono fun _ _ hr => hr.mono⟩
  | stop millis ha hturn hup => exact sound_cancelled (x := x.wait millis) h.accounts ha hup

theorem Reaches.sound (h : Reaches p root level (start w) x) : x.Sound p root level := by
  induction h with
  | refl => exact sound_start p root level w
  | tail _ hmove ih => exact ih.moves hmove

theorem Sound.inOrder (h : x.Sound p root level) : x.analysis.recorded.InOrder := by
  rcases h.accounts.recorded_cases fun _ _ => .inl with hr | ⟨_, -, hr⟩ | ⟨_, _, -, hr⟩ |
    ⟨_, _, _, -, -, hr⟩ | ⟨_, _, _, _, -, -, -, hr⟩ <;>
    rw [hr] <;> constructor <;> simp [PartialReview.empty]

/-! ### What is started -/

/-- A worker that was told that the analysis is given up, and has no command that it is about to
start. -/
def Stopping (x : Worker) : Prop := x.givenUp = true ∧ ∀ argv, x.turn ≠ .cleared argv

/-- Preparing a command changes no more of the world than files. -/
theorem prepare_spec (p : Pipeline) (root : Path) (level : Level) (a : Analyzer) (x : Worker) :
    (∃ t, (x.prepare p root level a).world = { x.world with files := t }) ∧
      ∀ argv, (x.prepare p root level a).turn ≠ .cleared argv := by
  unfold Worker.prepare
  rw [Disk.run_eq]
  split_ifs
  · exact ⟨⟨x.world.files, rfl⟩, fun _ => Turn.noConfusion⟩
  · dsimp only
    split <;> exact ⟨⟨_, rfl⟩, fun _ => Turn.noConfusion⟩

theorem world_step (ha : x.analysis.phase.analyzer? = none) :
    (x.step p root level).world = x.world := by
  obtain ⟨⟨phase, recorded, stages⟩, turn, world, givenUp⟩ := x
  cases phase <;> simp only [Phase.analyzer?, reduceCtorEq] at ha <;> rfl

theorem Stopping.next (p : Pipeline) (root : Path) (level : Level) (h : x.Stopping) :
    (∀ argv, (x.next p root level).turn ≠ .cleared argv) ∧
      (x.next p root level).world.calls = x.world.calls := by
  unfold Worker.next
  split
  · next a ha =>
    unfold Worker.run
    split
    · obtain ⟨⟨t, ht⟩, hturn⟩ := prepare_spec p root level a x
      exact ⟨hturn, by rw [ht]⟩
    · split_ifs with hempty hup
      · exact ⟨fun _ => Turn.noConfusion, rfl⟩
      · exact ⟨fun _ => Turn.noConfusion, rfl⟩
      · exact absurd h.1 hup
    · next argv hturn => exact absurd hturn (h.2 argv)
    · exact ⟨fun _ => Turn.noConfusion, rfl⟩
  · next ha => exact ⟨h.2, by rw [world_step ha]⟩

theorem Stopping.moves (h : x.Stopping) (hmove : Moves p root level x y) :
    y.Stopping ∧ y.world.calls = x.world.calls := by
  cases hmove with
  | work =>
    obtain ⟨hturn, hcalls⟩ := h.next p root level
    exact ⟨⟨by rw [givenUp_next, h.1], hturn⟩, hcalls⟩
  | giveUp => exact ⟨⟨rfl, h.2⟩, rfl⟩
  | stop millis ha hturn hup => exact ⟨⟨hup, fun _ => Turn.noConfusion⟩, rfl⟩

/-- It starts nothing any more. -/
theorem Stopping.calls_eq (h : x.Stopping) (hreach : Reaches p root level x y) :
    y.world.calls = x.world.calls := by
  have hboth : y.Stopping ∧ y.world.calls = x.world.calls := by
    induction hreach with
    | refl => exact ⟨h, rfl⟩
    | tail _ hmove ih =>
      obtain ⟨hstopping, hcalls⟩ := ih.1.moves hmove
      exact ⟨hstopping, hcalls.trans ih.2⟩
  exact hboth.2

/-! ### Time -/

theorem clock_le_next (x : Worker) : x.world.clock ≤ (x.next p root level).world.clock := by
  unfold Worker.next
  split
  · next a ha =>
    unfold Worker.run
    split
    · obtain ⟨⟨t, ht⟩, -⟩ := prepare_spec p root level a x
      rw [ht]
    · split_ifs <;> exact Nat.le_refl _
    · split <;> exact Nat.le_refl _
    · exact Nat.le_add_right ..
  · next ha => rw [world_step ha]

theorem clock_le_iterate (p : Pipeline) (root : Path) (level : Level) (n : Nat) (x : Worker) :
    x.world.clock ≤ ((next p root level)^[n] x).world.clock := by
  induction n generalizing x with
  | zero => exact Nat.le_refl _
  | succ n ih => exact (clock_le_next x).trans (ih _)

end Worker

namespace Pipeline

/-- An analysis has come to an end before its deadline. -/
theorem run_advance_late (p : Pipeline) (root : Path) (level : Level) {deadline : Nat}
    (steps : Nat) (s : Analysis) (w : World)
    (hend : (StateT.run (Analysis.advance (p.step root level false) (pure false) steps s)
      w).2.clock < deadline) :
    StateT.run (Analysis.advance (p.step root level false)
        (do pure (deadline ≤ (← get).clock) : StateM World Bool) steps s) w =
      StateT.run (Analysis.advance (p.step root level false) (pure false) steps s) w := by
  induction steps generalizing s w with
  | zero => rfl
  | succ steps ih =>
    have hclock : w.clock < deadline := by
      obtain ⟨n, hn⟩ := Worker.exists_iterate_advance p root level (pure false) (fun _ => rfl)
        (steps + 1) (x := ⟨s, .idle, w, false⟩) rfl rfl
      refine Nat.lt_of_le_of_lt ?_ hend
      have hle := Worker.clock_le_iterate p root level n ⟨s, .idle, w, false⟩
      rwa [hn] at hle
    rw [Worker.run_advance_succ rfl] at hend ⊢
    rw [Worker.run_advance_succ rfl]
    have hlook : (StateT.run (do pure (deadline ≤ (← get).clock) : StateM World Bool) w).1 =
        false := decide_eq_false (Nat.not_le.mpr hclock)
    rw [hlook]
    show (if _ then _ else _) = if false || _ then _ else _
    split_ifs with hdone
    · rfl
    · refine ih _ _ ?_
      have hnot : ¬ ((StateT.run (pure false : StateM World Bool) w).1 || s.phase = .done) = true :=
        hdone
      rwa [if_neg hnot] at hend

/-- An analysis that comes to its end before its deadline is the same with and without one. -/
theorem analyzeWithin_eq (millis : Nat)
    (hend : p.checkRoot w.files root = .ok () →
      (p.course root w).measured.clock < w.clock + millis) :
    outcome (p.analyzeWithin root level millis) w =
        (outcome (p.analyze root level) w).map Prod.fst ∧
      after (p.analyzeWithin root level millis) w = after (p.analyze root level) w := by
  rcases hroot : p.checkRoot w.files root with e | ⟨⟩
  · have hcheck : outcome (ExceptT.mk (do pure (p.checkRoot (← get).files root)) :
        Work RootError Unit) w = .error e := hroot
    unfold analyzeWithin analyze
    rw [outcome_bind_error hcheck, outcome_bind_error hcheck, after_bind_error hcheck,
      after_bind_error hcheck]
    exact ⟨rfl, rfl⟩
  · obtain ⟨hanalyze, hafter⟩ := analyze_eq hroot level
    have hdone := p.run_advance root level w
    have hlate := run_advance_late p root level Analysis.stepCount .initial w
      (by rw [hdone]; exact hend hroot)
    rw [hdone] at hlate
    have hrun : outcome (Work.ofState (Analysis.advance (p.step root level false)
        (do pure (w.clock + millis ≤ (← get).clock)) Analysis.stepCount .initial) :
          Work RootError Analysis) w = .ok (p.finished root w level) := by
      rw [Work.outcome_ofState, hlate]
    have hleft : after (Work.ofState (Analysis.advance (p.step root level false)
        (do pure (w.clock + millis ≤ (← get).clock)) Analysis.stepCount .initial) :
          Work RootError Analysis) w = (p.course root w).measured := by
      rw [Work.after_ofState, hlate]
    have hcheck := outcome_checkRoot hroot
    rw [hanalyze, hafter]
    unfold analyzeWithin
    rw [outcome_bind_ok hcheck, after_bind_ok hcheck]
    show outcome (_ >>= _) w = _ ∧ after (_ >>= _) w = _
    rw [outcome_get_bind, after_get_bind, outcome_bind_ok hrun, after_bind_ok hrun, hleft]
    exact ⟨rfl, rfl⟩

end Pipeline

/-! ### Putting it together -/

/-- A review has what was recorded, and nothing else but failures for one reason. -/
structure PartialReview.FilledBy (r : PartialReview) (level : Level) (reason : String)
    (f : Review) : Prop where
  security : (∀ s, r.security = some s → f.security = s) ∧
    (r.security = none → f.security = ⟨false, [], some reason⟩)
  main : (∀ s, r.main = some s → f.main = s) ∧ (r.main = none → f.main = ⟨false, [], some reason⟩)
  complexity : (∀ s, r.complexity = some s → f.complexity = s) ∧
    (r.complexity = none → f.complexity = ⟨false, [], some reason⟩)
  kind : (∀ k, r.kind = some k → f.kind = k) ∧ (r.kind = none → f.kind = .unknown)
  linter : f.linter = f.kind.mainLinter
  level : f.level = level

theorem PartialReview.filledBy_finish (r : PartialReview) (level : Level) (reason : String) :
    r.FilledBy level reason (r.finish level reason) := by
  constructor <;> first | rfl | (constructor <;> intros <;> simp_all [finish, Report.failed])

open Worker in
/-- **An analysis that is given up has recorded a beginning of its results.** This holds whenever it
is given up; once it is, no analyzer is started that was not about to start. What is missing failed,
and what was recorded stays. An analysis that is never given up, or comes to its end before its
deadline, is the same as one without a deadline. -/
theorem given_up_analysis_is_a_beginning (p : Pipeline) (root : Path) (level : Level) (w : World) :
    (∀ x, Reaches p root level (start w) x → x.analysis.recorded.InOrder) ∧
    (∀ x y, Reaches p root level (start w) x → x.Stopping → Reaches p root level x y →
      y.world.calls = x.world.calls) ∧
    (∀ (r : PartialReview) (reason : String), r.FilledBy level reason (r.finish level reason)) ∧
    (∀ x, Reaches p root level (start w) x → x.givenUp = false → x.analysis.phase = .done →
      p.checkRoot w.files root = .ok () →
      outcome (p.analyze root level) w =
          .ok (x.analysis.recorded.finish level Pipeline.notRun, x.analysis.stages) ∧
        after (p.analyze root level) w = x.world) ∧
    ∀ millis, (p.checkRoot w.files root = .ok () →
        (p.course root w).measured.clock < w.clock + millis) →
      outcome (p.analyzeWithin root level millis) w =
          (outcome (p.analyze root level) w).map Prod.fst ∧
        after (p.analyzeWithin root level millis) w = after (p.analyze root level) w := by
  refine ⟨fun x hx => hx.sound.inOrder, fun x y _ hstop hxy => hstop.calls_eq hxy,
    fun r reason => r.filledBy_finish level reason, fun x hx hup hdone hroot => ?_,
    fun millis hend => Pipeline.analyzeWithin_eq millis hend⟩
  obtain rfl := hx.eq_finished hup hdone
  exact Pipeline.analyze_eq hroot level

theorem Worker.reaches_iterate (p : Pipeline) (root : Path) (level : Level) (n : Nat) (x : Worker) :
    Reaches p root level x ((next p root level)^[n] x) := by
  induction n generalizing x with
  | zero => exact .refl
  | succ n ih => exact .head (.work x) (ih _)

/-- Whether a command is running. -/
def Turn.isRunning : Turn → Bool
  | .running _ => true
  | _ => false

/-- Bandit has just been started when the analysis is given up. -/
def scanning : Worker :=
  { (Worker.next (pipelineOf mixedFortunes) ⟨"/p"⟩ .advanced)^[3] (.start oneSource) with
    givenUp := true }

/-- Bandit is stopped after a second, and nothing else is run. -/
def stopped : Worker :=
  (Worker.next (pipelineOf mixedFortunes) ⟨"/p"⟩ .advanced)^[2]
    ((scanning.wait 1000).conclude (pipelineOf mixedFortunes) ⟨"/p"⟩ .advanced .bandit
      (.cancelled "bandit"))

theorem reaches_scanning :
    Worker.Reaches (pipelineOf mixedFortunes) ⟨"/p"⟩ .advanced (.start oneSource) scanning :=
  (Worker.reaches_iterate _ _ _ 3 _).tail (.giveUp _)

theorem running_scanning : ∃ ending, scanning.turn = .running ending := by
  have hrunning : scanning.turn.isRunning = true := by decide +kernel
  rcases hturn : scanning.turn with _ | _ | _ | ending <;> rw [hturn] at hrunning
  case running => exact ⟨ending, rfl⟩
  all_goals exact absurd hrunning Bool.false_ne_true

theorem reaches_stopped :
    Worker.Reaches (pipelineOf mixedFortunes) ⟨"/p"⟩ .advanced scanning stopped := by
  have hphase : scanning.analysis.phase.analyzer? = some .bandit := by decide +kernel
  obtain ⟨ending, hturn⟩ := running_scanning
  exact .head (.stop 1000 hphase hturn rfl) (Worker.reaches_iterate _ _ _ 2 _)

theorem given_up_analysis_is_a_beginning_stopped :
    let p := pipelineOf mixedFortunes
    Worker.Reaches p ⟨"/p"⟩ .advanced (.start oneSource) scanning ∧ scanning.Stopping ∧
    Worker.Reaches p ⟨"/p"⟩ .advanced scanning stopped ∧
    stopped.analysis.phase = .done ∧ stopped.analysis.recorded.InOrder ∧
    stopped.analysis.recorded.security = some (.cancelled .bandit) ∧
    stopped.analysis.recorded.main = none ∧
    stopped.world.calls = scanning.world.calls ∧ scanning.world.calls.length = 1 ∧
    outcome (p.analyzeWithin ⟨"/p"⟩ .advanced (10 ^ 10)) oneSource =
      (outcome (p.analyze ⟨"/p"⟩ .advanced) oneSource).map Prod.fst := by
  intro p
  obtain ⟨horder, hcalls, -, -, hwithin⟩ :=
    given_up_analysis_is_a_beginning p ⟨"/p"⟩ .advanced oneSource
  have hstopping : scanning.Stopping := by
    obtain ⟨ending, hturn⟩ := running_scanning
    exact ⟨rfl, fun argv hcleared => Turn.noConfusion (hturn.symm.trans hcleared)⟩
  have hrecorded : stopped.analysis.phase = .done ∧
      stopped.analysis.recorded.security = some (.cancelled .bandit) ∧
      stopped.analysis.recorded.main = none ∧ scanning.world.calls.length = 1 := by
    decide +kernel
  have hearly : (p.course ⟨"/p"⟩ oneSource).measured.clock < oneSource.clock + 10 ^ 10 := by
    decide +kernel
  obtain ⟨hdone, hsecurity, hmain, hlength⟩ := hrecorded
  exact ⟨reaches_scanning, hstopping, reaches_stopped, hdone,
    horder _ (reaches_scanning.trans reaches_stopped), hsecurity, hmain,
    hcalls _ _ reaches_scanning hstopping reaches_stopped, hlength,
    (hwithin _ fun _ => hearly).1⟩

end ReviewMentor
