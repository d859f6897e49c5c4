import Mathlib.Data.List.Induction
import ReviewMentor.Proofs.Sessions.Store

/-!
# New looks at files

A review keeps the issues of a project in one list; a new look at a file takes the issues of that
file out and puts what it found at the end. Seen file by file the list is a map, and a look that
succeeded puts a value into it. So after any sequence of looks every file has the issues of its last
successful look, or those that it had before.
-/

namespace ReviewMentor

open Effect

/-- A new look at a file of a session, with what it found. -/
structure Look where
  session : String
  file : String
  level : Level
  report : Report

namespace Look

/-- Records a look. -/
def run (l : Look) (p : Workplace) : Workplace :=
  ((Service.record l.session l.file l.level l.report).run p).1

/-- Records looks one after another. -/
def runAll (looks : List Look) (p : Workplace) : Workplace :=
  looks.foldl (fun p l => l.run p) p

/-- Whether a look changes the review of a session. -/
def changes (id : String) (l : Look) : Bool := l.session = id && l.report.success

/-- Every look that changes the review of a session found issues of its own file only. -/
def Own (id : String) (looks : List Look) : Prop :=
  ∀ l ∈ looks, l.changes id = true → ∀ i ∈ l.report.issues, i.file = l.file

/-- The last look at a file that changed the review of a session. -/
def last? (id file : String) (looks : List Look) : Option Look :=
  (looks.filter fun l => l.changes id && l.file = file).getLast?

end Look

/-- The issues of a file in the main report. -/
def Review.issuesOf (file : String) (r : Review) : List Issue :=
  r.main.issues.filter fun i => i.file = file

/-- Two reviews say the same, but for the issues of the main report. -/
structure Review.SameSurroundings (r r' : Review) : Prop where
  kind : r'.kind = r.kind
  linter : r'.linter = r.linter
  complexityTool : r'.complexityTool = r.complexityTool
  level : r'.level = r.level
  security : r'.security = r.security
  complexity : r'.complexity = r.complexity
  success : r'.main.success = r.main.success
  error : r'.main.error = r.main.error

/-- The issues that a file has after some looks. -/
def Review.issuesAfter (id : String) (looks : List Look) (r : Review) (file : String) :
    List Issue :=
  match Look.last? id file looks with
  | some l => l.report.issues
  | none => r.issuesOf file

namespace Look

variable {id file other : String} {l a b : Look} {looks before more : List Look} {p : Workplace}
  {r : Review}

/-! ### One look -/

/-- What a look makes of the review of a session. -/
def apply (id : String) (r : Review) (l : Look) : Review :=
  if l.changes id then r.replaceFileIssues l.file l.report.issues else r

theorem run_eq (l : Look) (p : Workplace) :
    l.run p =
      match l.report.success, p.sessions.result l.session with
      | true, .ok (some r) =>
        { p with sessions :=
          p.sessions.setResult l.session (r.replaceFileIssues l.file l.report.issues) }
      | _, _ => p :=
  Service.after_record ..

theorem run_of_failed (h : l.report.success = false) (p : Workplace) : l.run p = p := by
  rw [run_eq, h]

theorem files_run (l : Look) (p : Workplace) : (l.run p).files = p.files := by
  rw [run_eq]
  split <;> rfl

theorem result_run (h : p.sessions.result id = .ok (some r)) :
    (l.run p).sessions.result id = .ok (some (l.apply id r)) := by
  rw [run_eq]
  by_cases hid : l.session = id
  · subst hid
    rw [h]
    rcases hs : l.report.success with _ | _
    · simp [apply, changes, hs, h]
    · obtain ⟨x, hx, -⟩ := SessionStore.result_eq_ok.mp h
      simp [apply, changes, hs, SessionStore.result_setResult hx]
  · have happly : l.apply id r = r := by simp [apply, changes, hid]
    rw [happly]
    split
    · rw [SessionStore.result_eq_ok] at h ⊢
      obtain ⟨x, hx, hr⟩ := h
      exact ⟨x, by rw [SessionStore.find?_setResult_of_ne (Ne.symm hid), hx], hr⟩
    · exact h

theorem find?_run (h : l.changes other = false) :
    (l.run p).sessions.find? other = p.sessions.find? other := by
  rw [run_eq]
  split
  · next hs _ =>
    have hne : other ≠ l.session := by
      rintro rfl
      simp [changes, hs] at h
    exact SessionStore.find?_setResult_of_ne hne
  · rfl

/-! ### Many looks -/

theorem runAll_concat (looks : List Look) (l : Look) (p : Workplace) :
    runAll (looks ++ [l]) p = l.run (runAll looks p) := by
  simp [runAll, List.foldl_append]

theorem files_runAll (looks : List Look) (p : Workplace) : (runAll looks p).files = p.files := by
  induction looks using List.reverseRecOn with
  | nil => rfl
  | append_singleton looks l ih => rw [runAll_concat, files_run, ih]

theorem result_runAll (h : p.sessions.result id = .ok (some r)) (looks : List Look) :
    (runAll looks p).sessions.result id = .ok (some (looks.foldl (apply id) r)) := by
  induction looks using List.reverseRecOn with
  | nil => exact h
  | append_singleton looks l ih =>
    rw [runAll_concat, List.foldl_append]
    exact result_run ih

theorem find?_runAll (h : ∀ l ∈ looks, l.changes other = false) :
    (runAll looks p).sessions.find? other = p.sessions.find? other := by
  induction looks using List.reverseRecOn with
  | nil => rfl
  | append_singleton looks l ih =>
    rw [runAll_concat, find?_run (h l (by simp)), ih fun l hl => h l (by simp [hl])]

/-! ### File by file -/

theorem last?_concat (id file : String) (looks : List Look) (l : Look) :
    last? id file (looks ++ [l]) =
      if l.changes id && l.file = file then some l else last? id file looks := by
  unfold last?
  rw [List.filter_append]
  split_ifs with h
  · simp [h]
  · simp [h]

/-- A look puts its issues in the place of those of its file and leaves those of other files. -/
theorem issuesOf_apply (hown : l.changes id = true → ∀ i ∈ l.report.issues, i.file = l.file) :
    (l.apply id r).issuesOf file =
      if l.changes id && l.file = file then l.report.issues else r.issuesOf file := by
  unfold apply
  rcases hc : l.changes id with _ | _
  · simp
  have hown := hown hc
  unfold Review.issuesOf Review.replaceFileIssues
  by_cases hf : l.file = file
  · subst hf
    have hold : (r.main.issues.filter fun i => i.file != l.file).filter
        (fun i => i.file = l.file) = [] := by
      simp [List.filter_eq_nil_iff]
    have hnew : l.report.issues.filter (fun i => i.file = l.file) = l.report.issues :=
      List.filter_eq_self.mpr fun i hi => by simpa using hown i hi
    simp [List.filter_append, hold, hnew]
  · have hold : (r.main.issues.filter fun i => i.file != l.file).filter
        (fun i => i.file = file) = r.main.issues.filter fun i => i.file = file := by
      rw [List.filter_filter]
      refine List.filter_congr fun i _ => ?_
      by_cases hi : i.file = file
      · simp [hi, Ne.symm hf]
      · simp [hi]
    have hnew : l.report.issues.filter (fun i => i.file = file) = [] := by
      rw [List.filter_eq_nil_iff]
      intro i hi
      simp [hown i hi, hf]
    simp [List.filter_append, hold, hnew, hf]

/-- **Simulation of the list by a map.** After any looks each file has the issues of its last
successful look. -/
theorem issuesOf_foldl (hown : Own id looks) (r : Review) (file : String) :
    (looks.foldl (apply id) r).issuesOf file = r.issuesAfter id looks file := by
  induction looks using List.reverseRecOn with
  | nil => rfl
  | append_singleton looks l ih =>
    have hlooks : Own id looks := fun l hl => hown l (by simp [hl])
    rw [List.foldl_append]
    show (Look.apply id _ l).issuesOf file = _
    rw [issuesOf_apply (hown l (by simp)), ih hlooks]
    unfold Review.issuesAfter
    rw [last?_concat]
    split_ifs <;> rfl

/-- The issues of files that no look has changed keep their order, also between these files. -/
theorem filter_foldl {kept : String → Bool} (hown : Own id looks)
    (hkept : ∀ l ∈ looks, l.changes id = true → kept l.file = false) (r : Review) :
    (looks.foldl (apply id) r).main.issues.filter (fun i => kept i.file) =
      r.main.issues.filter fun i => kept i.file := by
  induction looks using List.reverseRecOn with
  | nil => rfl
  | append_singleton looks l ih =>
    rw [List.foldl_append, ← ih (fun l hl => hown l (by simp [hl]))
      fun l hl => hkept l (by simp [hl])]
    show (Look.apply id _ l).main.issues.filter _ = _
    unfold apply
    split_ifs with hc
    · have hl : kept l.file = false := hkept l (by simp) hc
      have hnew : l.report.issues.filter (fun i => kept i.file) = [] := by
        rw [List.filter_eq_nil_iff]
        intro i hi
        simp [hown l (by simp) hc i hi, hl]
      unfold Review.replaceFileIssues
      rw [List.filter_append, hnew, List.append_nil, List.filter_filter]
      refine List.filter_congr fun i _ => ?_
      by_cases hi : i.file = l.file
      · simp [hi, hl]
      · simp [hi]
    · rfl

theorem sameSurroundings_foldl (looks : List Look) (r : Review) :
    r.SameSurroundings (looks.foldl (apply id) r) := by
  induction looks using List.reverseRecOn with
  | nil => exact ⟨rfl, rfl, rfl, rfl, rfl, rfl, rfl, rfl⟩
  | append_singleton looks l ih =>
    rw [List.foldl_append]
    show r.SameSurroundings (Look.apply id _ l)
    generalize looks.foldl (apply id) r = s at ih ⊢
    unfold apply
    split_ifs
    · exact ⟨ih.kind, ih.linter, ih.complexityTool, ih.level, ih.security, ih.complexity,
        ih.success, ih.error⟩
    · exact ih

/-! ### Reordering and repeating -/

/-- Which of two looks at different files comes first makes no difference to the last look at any
file. -/
theorem last?_swap (h : a.file ≠ b.file) :
    last? id file (before ++ b :: a :: more) = last? id file (before ++ a :: b :: more) := by
  have hpair : [b, a].filter (fun l => l.changes id && l.file = file) =
      [a, b].filter fun l => l.changes id && l.file = file := by
    by_cases ha : a.file = file
    · have hb : b.file ≠ file := fun hb => h (ha.trans hb.symm)
      simp [List.filter_cons, hb]
    · simp [List.filter_cons, ha]
  have happend : ∀ x y : Look, before ++ x :: y :: more = before ++ ([x, y] ++ more) := by simp
  unfold last?
  rw [happend, happend, List.filter_append, List.filter_append, List.filter_append,
    List.filter_append, hpair]

/-- A look that is repeated at once counts once. -/
theorem last?_repeat :
    last? id file (before ++ a :: a :: more) = last? id file (before ++ a :: more) := by
  unfold last?
  by_cases ha : (a.changes id && a.file = file) = true
  · simp [List.filter_append, ha, List.getLast?_cons]
  · simp [List.filter_append, ha]

end Look

open Look

/-- **A new look at a file loses nothing.** After any looks every file of a session with a review
has the issues of its last successful look, in their order, or else those it had before; so each
issue occurs as often as there. Files without a successful look keep the order of all their issues,
and what surrounds the issues stays. Looks change no file and no session but their own, and none if
they fail. Looks at different files may be exchanged and a look may be repeated without a change for
any file. -/
theorem looks_lose_nothing (p : Workplace) (id : String) (r : Review) (looks : List Look)
    (hknown : p.sessions.result id = .ok (some r)) (hown : Look.Own id looks) :
    (∃ r', (runAll looks p).sessions.result id = .ok (some r') ∧
      (∀ file, r'.issuesOf file = r.issuesAfter id looks file) ∧
      (∀ i, r'.main.issues.count i = (r.issuesAfter id looks i.file).count i) ∧
      (∀ kept : String → Bool, (∀ l ∈ looks, l.changes id = true → kept l.file = false) →
        r'.main.issues.filter (fun i => kept i.file) =
          r.main.issues.filter fun i => kept i.file) ∧
      r.SameSurroundings r' ∧
      (∀ before a b more, looks = before ++ a :: b :: more → a.file ≠ b.file →
        ∃ s, (runAll (before ++ b :: a :: more) p).sessions.result id = .ok (some s) ∧
          ∀ file, s.issuesOf file = r'.issuesOf file) ∧
      ∀ before a more, looks = before ++ a :: more →
        ∃ s, (runAll (before ++ a :: a :: more) p).sessions.result id = .ok (some s) ∧
          ∀ file, s.issuesOf file = r'.issuesOf file) ∧
    (runAll looks p).files = p.files ∧
    (∀ other, (∀ l ∈ looks, l.changes other = false) →
      (runAll looks p).sessions.find? other = p.sessions.find? other) ∧
    ∀ l : Look, l.report.success = false → ∀ q, l.run q = q := by
  refine ⟨⟨_, result_runAll hknown looks, issuesOf_foldl hown r, fun i => ?_,
    fun kept hkept => filter_foldl hown hkept r, sameSurroundings_foldl looks r, ?_, ?_⟩,
    files_runAll looks p, fun other h => find?_runAll h, fun l h q => run_of_failed h q⟩
  · rw [← issuesOf_foldl hown, Review.issuesOf, List.count_filter (by simp)]
  · rintro before a b more rfl hne
    refine ⟨_, result_runAll hknown _, fun file => ?_⟩
    have hswapped : Own id (before ++ b :: a :: more) := by
      intro l hl
      refine hown l ?_
      simp only [List.mem_append, List.mem_cons] at hl ⊢
      tauto
    rw [issuesOf_foldl hown, issuesOf_foldl hswapped, Review.issuesAfter, last?_swap hne]
    rfl
  · rintro before a more rfl
    refine ⟨_, result_runAll hknown _, fun file => ?_⟩
    have hrepeated : Own id (before ++ a :: a :: more) := by
      intro l hl
      refine hown l ?_
      simp only [List.mem_append, List.mem_cons] at hl ⊢
      tauto
    rw [issuesOf_foldl hown, issuesOf_foldl hrepeated, Review.issuesAfter, last?_repeat]
    rfl

/-- An issue in a file that ruff tells with a code. -/
def issueIn (file code : String) : Issue :=
  ⟨.warning, file, 1, "found", code, .ruff, none, none, none, none⟩

/-- A review with issues in two files, in turn. -/
def twoFiles : Review :=
  { Review.blank .beginner with
    main := .ok [issueIn "a.py" "W1", issueIn "b.py" "W2", issueIn "a.py" "W3"] }

/-- Two sessions, one of which has a review. -/
def twoSessions : Workplace :=
  ⟨⟨⟨"/s"⟩, "p-", [], 2, [⟨"one", ⟨"/s/p-one"⟩, none, some twoFiles⟩,
    ⟨"two", ⟨"/s/p-two"⟩, none, none⟩]⟩, .empty⟩

/-- A look that succeeds, one that fails, and one in the session without a review. -/
def threeLooks : List Look :=
  [⟨"one", "b.py", .beginner, .ok [issueIn "b.py" "W4", issueIn "b.py" "W5"]⟩,
    ⟨"one", "a.py", .beginner, .failed "ruff failed"⟩,
    ⟨"two", "a.py", .beginner, .ok [issueIn "a.py" "W6"]⟩]

theorem looks_lose_nothing_twoFiles :
    twoSessions.sessions.result "one" = .ok (some twoFiles) ∧ Look.Own "one" threeLooks ∧
    ∃ r', (runAll threeLooks twoSessions).sessions.result "one" = .ok (some r') ∧
      r'.issuesOf "a.py" = [issueIn "a.py" "W1", issueIn "a.py" "W3"] ∧
      r'.issuesOf "b.py" = [issueIn "b.py" "W4", issueIn "b.py" "W5"] ∧
      twoFiles.SameSurroundings r' := by
  have hknown : twoSessions.sessions.result "one" = .ok (some twoFiles) := rfl
  have hown : Look.Own "one" threeLooks := by
    unfold Look.Own
    decide
  obtain ⟨⟨r', hr', hfiles, -, -, hsame, -⟩, -⟩ :=
    looks_lose_nothing twoSessions "one" twoFiles threeLooks hknown hown
  refine ⟨hknown, hown, r', hr', ?_, ?_, hsame⟩
  · rw [hfiles]
    decide
  · rw [hfiles]
    decide

end ReviewMentor
