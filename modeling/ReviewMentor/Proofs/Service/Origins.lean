import ReviewMentor.Proofs.Analysis.Expiry
import ReviewMentor.Proofs.Service.Desk
import ReviewMentor.Proofs.Service.Projects

/-!
# Where reviews come from

A review that a session has, or that an answer shows, was made by the analysis of an uploaded
project, or from the review before it by a new look at one of the files. No other request changes
the reviews of sessions.
-/

namespace ReviewMentor

open FileTree Effect SessionStore

variable {s : Service} {r : Http.Request} {now : Timestamp} {x : Scene} {P : Review → Prop}

/-! ### Reviews of sessions -/

/-- The reviews that sessions have are those that they had before, and some that satisfy `P`. -/
def ReviewsFrom {σ : Type} (store : σ → SessionStore) (P : Review → Prop) (x y : σ) : Prop :=
  ∀ session ∈ (store y).live, ∀ review, session.result = some review →
    (∃ old ∈ (store x).live, old.id = session.id ∧ old.result = some review) ∨ P review

namespace ReviewsFrom

variable {σ : Type} {store : σ → SessionStore} {x y : σ}

theorem of_subset (h : (store y).live ⊆ (store x).live) : ReviewsFrom store P x y :=
  fun session hsession _ hreview => .inl ⟨session, h hsession, rfl, hreview⟩

theorem of_eq (h : (store y).live = (store x).live) : ReviewsFrom store P x y :=
  of_subset (h ▸ List.Subset.refl _)

instance : Std.Refl (ReviewsFrom store P) := ⟨fun _ => of_eq rfl⟩

instance : IsTrans σ (ReviewsFrom store P) where
  trans x y z h h' := by
    intro session hsession review hreview
    rcases h' session hsession review hreview with ⟨old, hold, hid, hresult⟩ | hP
    · rw [← hid]
      exact h old hold review hresult
    · exact .inr hP

end ReviewsFrom

namespace SessionWork

variable {user : Option String} {id : String} {data : ByteArray} {p : Workplace}

/-- The reviews of the sessions of two workplaces. -/
abbrev Reviews (P : Review → Prop) : Workplace → Workplace → Prop :=
  ReviewsFrom Workplace.sessions P

theorem reviews_create : Keeps (Reviews P) (create user) := by
  intro p
  rcases hmake : p.files.makeDirectories p.sessions.start
    (p.sessions.directoryPath (idOf p.sessions.serial)) with ⟨u, e | ⟨⟩⟩
  · rw [(create_error hmake).2]
    exact .of_eq rfl
  · rw [(create_ok hmake).2]
    intro session hsession review hreview
    rcases List.mem_append.mp hsession with hold | hnew
    · exact .inl ⟨session, hold, rfl, hreview⟩
    · rw [List.mem_singleton.mp hnew] at hreview
      exact absurd hreview (by simp [upcoming])

theorem reviews_cleanup : Keeps (Reviews P) (cleanup id) := by
  intro p
  unfold cleanup
  rw [after_bind]
  split
  · rw [after_modify_bind]
    exact .of_subset (List.filter_subset_self _)
  · exact .of_eq rfl

theorem reviews_createFromArchive : Keeps (Reviews P) (createFromArchive data user) := by
  intro p
  have hcreate := (reviews_create : Keeps (Reviews P) (create user)) p
  rcases hbegun : outcome (create user) p with e | session
  · rw [(createFromArchive_refused data hbegun).2]
    exact hcreate
  rcases hextract : outcome (Zip.extract (after (create user) p).sessions.start session.directory
    data) (after (create user) p).files with e | count
  · rw [(createFromArchive_error hbegun hextract).2]
    exact trans_of (Reviews P) hcreate (reviews_cleanup (unpacked (after (create user) p) _ data))
  · rw [(createFromArchive_ok hbegun hextract).2]
    exact hcreate

theorem reviews_attach {review : Review} (h : P review) : Keeps (Reviews P) (attach id review) := by
  intro p
  unfold attach
  rw [after_bind]
  split
  · intro session hsession review' hreview
    obtain ⟨old, hold, rfl⟩ := List.mem_map.mp hsession
    split_ifs at hreview ⊢ with hid
    · exact .inr (Option.some.inj hreview ▸ h)
    · exact .inl ⟨old, hold, rfl, hreview⟩
  · exact .of_eq rfl

end SessionWork

/-! ### What is done for a request -/

namespace Handling

variable {α ε : Type}

/-- The reviews of the sessions of two scenes. -/
abbrev Reviews (P : Review → Prop) : Scene → Scene → Prop := ReviewsFrom Scene.sessions P

theorem reviews_given (result : Except Refusal α) :
    Keeps (Reviews P) (ExceptT.mk (pure result) : Handling α) := fun _ => .of_eq rfl

theorem reviews_ask (f : SessionStore → Except SessionError α) : Keeps (Reviews P) (ask f) :=
  fun _ => .of_eq rfl

theorem reviews_files : Keeps (Reviews P) files := fun _ => .of_eq rfl

theorem reviews_onFiles (account : ε → Refusal) (w : Disk ε α) :
    Keeps (Reviews P) (onFiles account w) := fun _ => .of_eq rfl

theorem reviews_onSessions {w : SessionWork α} (h : Keeps (SessionWork.Reviews P) w) :
    Keeps (Reviews P) (onSessions w) := fun x => h x.workplace

end Handling

namespace Service

open Handling

variable {response : Http.Response}

/-- A review that the analysis of an uploaded project makes. -/
def Analyzed (s : Service) (review : Review) : Prop :=
  ∃ root level w, outcome (s.pipeline.analyzeWithin root level
    (s.settings.analysisSeconds * 1000)) w = .ok review

theorem reviews_uploadLevel (asked : Option Level) (user : Option String) :
    Keeps (Reviews P) (s.uploadLevel asked user) := by
  rcases asked with _ | level
  · rcases user with _ | user
    · exact .pure _
    · exact .bind (reviews_onFiles _ _) fun _ => .pure _
  · exact .pure _

theorem reviews_takeIn (data : ByteArray) (user : Option String) (level : Level) :
    Keeps (Reviews s.Analyzed) (s.takeIn data user level) := by
  refine .bind (reviews_onSessions SessionWork.reviews_createFromArchive) fun session x => ?_
  rw [after_bind, outcome_reviewing]
  have hsame : Reviews s.Analyzed x (after (s.reviewing session.directory level) x) := .of_eq rfl
  refine trans_of _ hsame ?_
  rcases hreview : outcome (s.pipeline.analyzeWithin session.directory level
    (s.settings.analysisSeconds * 1000)) x.world with e | review
  · exact reviews_onSessions SessionWork.reviews_cleanup _
  · exact Keeps.bind (reviews_onSessions (SessionWork.reviews_attach ⟨_, _, _, hreview⟩))
      (fun _ => .pure _) _

theorem reviews_analyzeUpload (s : Service) (r : Http.Request) :
    Keeps (Reviews s.Analyzed) (s.analyzeUpload r) := by
  unfold analyzeUpload
  refine .bind (reviews_given _) fun asked => .bind (reviews_given _) fun data => ?_
  dsimp only
  split
  · exact .bind (.throw _) fun _ => .bind (reviews_uploadLevel _ _) fun _ => reviews_takeIn _ _ _
  · exact .bind (reviews_uploadLevel _ _) fun _ => reviews_takeIn _ _ _

/-- An upload that is granted shows the review of the analysis. -/
theorem takeIn_granted {data : ByteArray} {user : Option String} {level : Level}
    (h : outcome (s.takeIn data user level) x = .ok response) :
    ∃ session review, s.Analyzed review ∧ response = welcome session review := by
  obtain ⟨session, -, h⟩ := bind_ok h
  generalize after _ x = y at h
  obtain ⟨result, hresult, h⟩ := bind_ok h
  rw [outcome_reviewing] at hresult
  split at h
  · exact absurd h (by simp [outcome_get_bind, outcome_set_bind])
  · next review =>
    obtain ⟨-, -, h⟩ := bind_ok h
    exact ⟨session, review, ⟨_, _, _, Except.ok.inj hresult⟩, (Except.ok.inj h).symm⟩

theorem analyzeUpload_granted (h : outcome (s.analyzeUpload r) x = .ok response) :
    ∃ session review, s.Analyzed review ∧ response = welcome session review := by
  unfold analyzeUpload at h
  obtain ⟨asked, -, h⟩ := bind_ok h
  obtain ⟨data, -, h⟩ := bind_ok h
  dsimp only at h
  split at h
  · obtain ⟨_, h, -⟩ := bind_ok h
    exact absurd h (by simp)
  · obtain ⟨level, -, h⟩ := bind_ok h
    exact takeIn_granted h

end Service

/-! ### New looks at files -/

/-- What is shown after a new look at a file: what is known with what was found, or with the error
of a look that failed. Where nothing is known, it is the report alone. -/
def Review.noting (known? : Option Review) (file : String) (level : Level) (report : Report) :
    Review :=
  match known? with
  | none => { Review.blank level with main := report }
  | some known =>
    if report.success then known.replaceFileIssues file report.issues
    else { known with main := { known.main with error := report.error } }

theorem Review.noting_ok {known : Review} {file : String} {level : Level} {report : Report}
    (h : report.success = true) :
    noting (some known) file level report = known.replaceFileIssues file report.issues := if_pos h

theorem Review.noting_failed {known : Review} {file : String} {level : Level} {report : Report}
    (h : report.success = false) : noting (some known) file level report =
      { known with main := { known.main with error := report.error } } :=
  if_neg (by simp [h])

theorem Service.outcome_record_eq {p : Workplace} {id : String} {known? : Option Review}
    (h : p.sessions.result id = .ok known?) (file : String) (level : Level) (report : Report) :
    outcome (Service.record id file level report) p =
      .ok (Review.noting known? file level report) := by
  obtain ⟨session, hsession, rfl⟩ := result_eq_ok.mp h
  unfold Service.record
  rcases hs : report.success with _ | _
  · rw [if_neg Bool.false_ne_true, outcome_bind_ok (by rw [SessionWork.outcome_ask, h])]
    rcases session.result with _ | known
    · rfl
    · rw [Review.noting_failed hs]
      rfl
  · have hupdate : outcome (SessionWork.update id (Review.replaceFileIssues file report.issues)) p =
        .ok (session.result.map (Review.replaceFileIssues file report.issues)) := by
      unfold SessionWork.update
      rw [outcome_bind_ok (SessionWork.outcome_find hsession), SessionWork.after_ask]
      rcases session.result with _ | known
      · rfl
      · dsimp only
        rw [outcome_bind_ok (SessionWork.after_attach _ hsession).2]
        rfl
    rw [if_pos rfl, outcome_bind_ok hupdate]
    rcases session.result with _ | known
    · rfl
    · rw [Review.noting_ok hs]
      rfl

namespace CodeChange

open Handling

variable {c : CodeChange} {response : Http.Response} {known? : Option Review} {file : String}
  {level : Level} {report : Report}

/-- The code is written, and then ruff reports on the file. -/
def Looks (s : Service) (c : CodeChange) (x : Scene) (file : String) (level : Level)
    (report : Report) : Prop :=
  ∃ root path, c.Writes s x root file level path ∧
    (StateT.run (s.pipeline.reanalyze root ⟨file⟩ level) (c.writing s path x).world).1 = report

/-- What is shown when a change is granted. -/
theorem analyzeCode_granted (hread : s.readJson read r = .ok c)
    (hdone : outcome (s.analyzeCode r) x = .ok response) :
    ∃ known?, x.sessions.result c.session = .ok known? ∧
      ((Text.isAllBlank c.code = true ∧
          response = .ofJson (Review.blank (c.levelFor known?)).view) ∨
        Text.isAllBlank c.code = false ∧ ∃ file report,
          c.Looks s x file (c.levelFor known?) report ∧
          response = .ofJson (Review.noting known? file (c.levelFor known?) report).view) := by
  unfold Service.analyzeCode at hdone
  obtain ⟨c', hc, hdone, -⟩ := look_ok rfl hdone
  obtain rfl : c = c' := Except.ok.inj (hread.symm.trans hc)
  obtain ⟨known?, hknown, hdone, -⟩ := look_ok rfl hdone
  replace hknown : x.sessions.result c.session = .ok known? := ok_of_mapError hknown
  refine ⟨known?, hknown, ?_⟩
  dsimp only at hdone
  split at hdone
  · next hblank => exact .inl ⟨hblank, (Except.ok.inj hdone).symm⟩
  next hblank =>
  rw [Bool.not_eq_true] at hblank
  obtain ⟨root, hroot, hdone, -⟩ := look_ok rfl hdone
  replace hroot : x.sessions.directory c.session = .ok root := ok_of_mapError hroot
  obtain ⟨path, hpath, hdone, -⟩ := look_ok rfl hdone
  replace hpath : x.sessions.resolve c.session c.file = .ok path := ok_of_mapError hpath
  obtain ⟨files, hfiles, hdone, -⟩ := look_ok rfl hdone
  obtain rfl := Except.ok.inj hfiles
  obtain ⟨⟨⟩, hwrite, hdone⟩ := bind_ok hdone
  have hafter : after (c.write s) x = c.writing s path x := by
    unfold CodeChange.write
    rw [after_ask_bind, hknown]
    dsimp only
    rw [hblank, if_neg Bool.false_ne_true, after_ask_bind, hroot]
    dsimp only
    rw [after_ask_bind, hpath]
    dsimp only
    rw [after_bind_ok outcome_files]
    exact after_bind_ok hwrite
  have hwrites : c.Writes s x root _ (c.levelFor known?) path :=
    ⟨⟨known?, hknown, rfl⟩, hroot, hpath, rfl, ok_of_mapError hwrite, hafter⟩
  have hwriting : after (onFiles (fun _ => .broken) (s.writeCode path c.code)) x =
      c.writing s path x := rfl
  rw [hwriting] at hdone
  obtain ⟨report, hreport, hdone⟩ := bind_ok hdone
  rw [outcome_inWorld] at hreport
  obtain ⟨review, hreview, hdone⟩ := bind_ok hdone
  rw [outcome_onSessions, Service.outcome_record_eq hknown] at hreview
  obtain rfl := Except.ok.inj hreview
  exact .inr ⟨hblank, _, report, ⟨root, path, hwrites, Except.ok.inj hreport⟩,
    (Except.ok.inj hdone).symm⟩

/-- A change leaves the reviews as they are, or puts what ruff found in the place of what was known
of a file. -/
theorem sessions_analyzeCode (s : Service) (r : Http.Request) (x : Scene) :
    (after (s.analyzeCode r) x).sessions = x.sessions ∨
    ∃ c known file report, s.readJson read r = .ok c ∧
      x.sessions.result c.session = .ok (some known) ∧
      c.Looks s x file (c.levelFor (some known)) report ∧ report.success = true ∧
      (after (s.analyzeCode r) x).sessions =
        x.sessions.setResult c.session (known.replaceFileIssues file report.issues) := by
  rcases hread : s.readJson read r with e | c
  · refine .inl ?_
    unfold Service.analyzeCode
    rw [after_bind_error (e := e) (by rw [hread]; rfl)]
    rfl
  rw [after_analyzeCode hread]
  rcases c.write_cases s x with ⟨root, file, level, path, houtcome, hwrites⟩ | ⟨hrefused, hscene⟩
  · obtain ⟨known?, hknown, rfl⟩ := hwrites.level
    rw [houtcome, hwrites.after]
    dsimp only
    rw [record, after_onSessions, Service.after_record]
    generalize hreport : (StateT.run (s.pipeline.reanalyze root ⟨file⟩ (c.levelFor known?))
      (c.writing s path x).world).1 = report
    have hsame : (after (inWorld (s.pipeline.reanalyze root ⟨file⟩ (c.levelFor known?)))
      (c.writing s path x)).workplace.sessions.result c.session = .ok known? := hknown
    rw [hsame]
    rcases hs : report.success with _ | _
    · exact .inl rfl
    rcases known? with _ | known
    · exact .inl rfl
    · exact .inr ⟨c, known, file, report, rfl, hknown, ⟨root, path, hwrites, hreport⟩, hs, rfl⟩
  · refine .inl ?_
    have hleft : (after (c.write s) x).sessions = x.sessions := by
      rcases hscene with hsame | ⟨path, e, -, -, hwriting⟩
      · rw [hsame]
      · rw [hwriting, writing]
    split
    · next h => exact absurd h (hrefused _)
    · exact hleft

end CodeChange

/-! ### Requests -/

theorem ProjectRequest.path_of_matches? {k : ProjectRequest} {route : Route} {path : String}
    {holes : List String} (hparts : route.parts = k.parts.map .fixed)
    (h : route.matches? path = some holes) : path = k.path := by
  rw [Route.path_of_fixed hparts h]
  cases k <;> decide +kernel

namespace Service

open Handling

variable {c : CodeChange}

/-- No other request touches the reviews of sessions. -/
theorem reviews_handle {route : Route} (hroute : route ∈ s.routes now)
    (hupload : route.parts ≠ ProjectRequest.upload.parts.map .fixed)
    (hchange : route.parts ≠ ProjectRequest.change.parts.map .fixed) (holes : List String) :
    Keeps (Reviews P) (route.handle holes r) := by
  rw [routes_eq] at hroute
  simp only [List.mem_cons, List.not_mem_nil, or_false] at hroute
  rcases hroute with rfl | rfl | rfl | rfl | rfl | rfl | rfl | rfl | rfl | rfl | rfl | rfl | rfl |
    rfl
  · exact .pure _
  · exact absurd rfl hupload
  · exact absurd rfl hchange
  · exact .bind (reviews_given _) fun _ => .bind (reviews_ask _) fun _ =>
      .bind (reviews_onFiles _ _) fun _ => .pure _
  · refine .bind (reviews_given _) fun _ => .bind (reviews_ask _) fun _ =>
      .bind reviews_files fun _ => ?_
    dsimp only
    split
    · exact .bind (.throw _) fun _ => .pure _
    · exact .pure _
  · exact .bind (reviews_given _) fun _ => .pure _
  · exact .bind (reviews_onFiles _ _) fun _ => .pure _
  · refine .bind (reviews_given _) fun _ => .bind (reviews_given _) fun _ =>
      .bind (reviews_ask _) fun _ => .bind reviews_files fun _ => ?_
    dsimp only
    split
    · refine .bind (.throw _) fun _ => ?_
      split
      · exact .pure _
      · exact .throw _
    · split
      · exact .pure _
      · exact .throw _
  · exact .bind (reviews_given _) fun _ => .bind (reviews_onFiles _ _) fun _ => .pure _
  · exact .bind (reviews_given _) fun _ => .bind (reviews_given _) fun _ => .pure _
  · exact .bind (reviews_given _) fun _ => .bind (reviews_onFiles _ _) fun _ => .pure _
  · exact .bind (reviews_given _) fun _ => .bind (reviews_onFiles _ _) fun _ => .pure _
  · exact .bind (reviews_given _) fun _ => .bind (reviews_given _) fun _ =>
      .bind (reviews_onFiles _ _) fun _ => .pure _
  · exact .bind (reviews_given _) fun _ => .bind (reviews_given _) fun _ =>
      .bind (reviews_onFiles _ _) fun _ => .pure _

/-- A request for a change that is made in another way than it is offered does nothing. -/
theorem answer_change_cases (s : Service) (now : Timestamp) (x : Scene)
    (hpath : r.path = ProjectRequest.change.path) :
    (r.method = "POST" ∧ (s.answer now r x).1 = after (s.analyzeCode r) x) ∨
      (s.answer now r x).1 = x := by
  by_cases hmethod : r.method = "POST"
  · exact .inl ⟨hmethod, (s.answer_of_method now hpath hmethod x).1⟩
  · refine .inr ?_
    have hoffers : Route.offers ⟨ProjectRequest.change.method,
        ProjectRequest.change.parts.map .fixed, fun _ => ProjectRequest.change.handle s⟩
        r.method = false := by
      have hne : "POST" ≠ r.method := Ne.symm hmethod
      simp [Route.offers, ProjectRequest.method, hne]
    unfold answer
    split
    · rfl
    · rw [route_of_path s now hpath, hoffers]
      rfl

/-- **What a request does to the reviews of sessions.** It leaves them as they are, but for those
that analyses of uploaded projects make; or it is a change, and what ruff found in a file takes the
place of what was known about it. -/
theorem reviews_answer (s : Service) (now : Timestamp) (r : Http.Request) (x : Scene) :
    Reviews s.Analyzed x (s.answer now r x).1 ∨
    ∃ c known file report, s.edit? r = some (.change c) ∧
      x.sessions.result c.session = .ok (some known) ∧
      c.Looks s x file (c.levelFor (some known)) report ∧ report.success = true ∧
      (s.answer now r x).1.sessions =
        x.sessions.setResult c.session (known.replaceFileIssues file report.issues) := by
  by_cases hupload : r.path = ProjectRequest.upload.path
  · refine .inl ?_
    rcases s.answer_cases now hupload with ⟨respond, hanswer⟩ | ⟨response, hanswer⟩ <;>
      rw [hanswer x]
    · exact s.reviews_analyzeUpload r x
    · exact .of_eq rfl
  by_cases hchange : r.path = ProjectRequest.change.path
  · rcases s.answer_change_cases now x hchange with ⟨hmethod, hafter⟩ | hsame
    · rw [hafter]
      rcases CodeChange.sessions_analyzeCode s r x with hsame |
        ⟨c, known, file, report, hread, hknown, hlooks, hsuccess, hsessions⟩
      · exact .inl (.of_eq (by rw [hsame]))
      · exact .inr ⟨c, known, file, report, edit?_eq_change.mpr ⟨hmethod, hchange, hread⟩, hknown,
          hlooks, hsuccess, hsessions⟩
    · exact .inl (.of_eq (by rw [hsame]))
  · rcases s.route_cases now r x with ⟨route, hroute, holes, hmatch, hafter, -⟩ | hsame
    · rw [hafter]
      exact .inl (reviews_handle hroute
        (fun h => hupload (ProjectRequest.path_of_matches? h hmatch))
        (fun h => hchange (ProjectRequest.path_of_matches? h hmatch)) holes x)
    · exact .inl (.of_eq (by rw [hsame]))

/-- A body that shows a review: of a new session, or after a new look. -/
def Shows (body : Http.Body) (review : Review) : Prop :=
  body = (Http.Response.ofJson review.view).body ∨
    ∃ session, body = (welcome session review).body

/-- What a change that is granted shows, for what was known before. -/
def Reviewed (s : Service) (x : Scene) (c : CodeChange) (known? : Option Review)
    (review : Review) : Prop :=
  x.sessions.result c.session = .ok known? ∧
    ((Text.isAllBlank c.code = true ∧ review = .blank (c.levelFor known?)) ∨
      Text.isAllBlank c.code = false ∧ ∃ file report, c.Looks s x file (c.levelFor known?) report ∧
        review = .noting known? file (c.levelFor known?) report)

/-- **What an answer shows.** An upload that is granted shows the review of its analysis, and a
change shows what was known of the session with what came of the new look. -/
theorem review_answer (s : Service) (now : Timestamp) (r : Http.Request) (x : Scene)
    (hmethod : r.method = "POST")
    (hpath : r.path = ProjectRequest.upload.path ∨ r.path = ProjectRequest.change.path)
    (hgranted : (s.answer now r x).2.status = 200) :
    ∃ review, Shows (s.answer now r x).2.body review ∧
      ((s.Analyzed review ∧ r.path = ProjectRequest.upload.path) ∨
        ∃ c known?, s.edit? r = some (.change c) ∧ s.Reviewed x c known? review) := by
  rcases hpath with hpath | hpath
  · obtain ⟨response, hdone, -, hbody⟩ :=
      s.answer_granted (k := .upload) hpath hmethod hgranted
    obtain ⟨session, review, hreview, rfl⟩ := analyzeUpload_granted hdone
    exact ⟨review, .inr ⟨session, hbody⟩, .inl ⟨hreview, hpath⟩⟩
  · obtain ⟨response, hdone, -, hbody⟩ :=
      s.answer_granted (k := .change) hpath hmethod hgranted
    obtain ⟨c, hread, -⟩ := bind_ok hdone
    replace hread : s.readJson CodeChange.read r = .ok c := hread
    have hedit := edit?_eq_change.mpr ⟨hmethod, hpath, hread⟩
    obtain ⟨known?, hknown, ⟨hblank, rfl⟩ | ⟨hblank, file, report, hlooks, rfl⟩⟩ :=
      CodeChange.analyzeCode_granted hread hdone
    · exact ⟨_, .inl hbody, .inr ⟨c, known?, hedit, hknown, .inl ⟨hblank, rfl⟩⟩⟩
    · exact ⟨_, .inl hbody, .inr ⟨c, known?, hedit, hknown,
        .inr ⟨hblank, file, report, hlooks, rfl⟩⟩⟩

end Service

end ReviewMentor
