import ReviewMentor.Proofs.Files.Found
import ReviewMentor.Proofs.Learner.Storing
import ReviewMentor.Proofs.Service.Uploads
import ReviewMentor.Proofs.Sessions.Vacancy

/-!
# What refused requests leave

A request that is refused has done no harm: sessions and their reviews, stored profiles and the
files of projects are as they were. If it was the fault of the client, nothing was added either.
Every handler comes to its first lasting change after all that the client can get wrong, and what
can go wrong after it is undone, or has only made directories.
-/

namespace ReviewMentor

open FileTree Effect SessionStore

variable {α β ε : Type} {s : Service} {home : Place} {x y : Scene} {r : Http.Request}
  {now : Timestamp} {t u : FileTree}

/-! ### Harm -/

theorem FileTree.WayMade.extends {start : Place} {p : Path} (h : WayMade start p t u) :
    Extends t u := by
  intro place hplace
  rcases h.kept place with hkeep | ⟨-, hnone, -⟩
  · exact hkeep
  · exact absurd hnone hplace

theorem FileTree.Extends.readBytes {start : Place} {p : Path} {content : ByteArray}
    (h : Extends t u) (hread : t.readBytes start p = .ok content) :
    u.readBytes start p = .ok content := by
  unfold FileTree.readBytes at hread ⊢
  obtain ⟨place, hfind, hentry⟩ := ok_of_bind hread
  have hsome : t.lookup? place ≠ none := by
    intro hnone
    simp [hnone] at hentry
  rw [h.find hfind]
  simp only [bind, Except.bind, h place hsome]
  exact hentry

/-- Sessions with their reviews, stored profiles, and the files in the directories of sessions are
the same in another scene. -/
structure Unharmed (s : Service) (x y : Scene) : Prop where
  sessions : y.sessions.live = x.sessions.live
  profiles : ∀ user content, isUser user = true →
    x.world.files.readBytes s.here (s.teacher.profiles.fileOf user) = .ok content →
    y.world.files.readBytes s.here (s.teacher.profiles.fileOf user) = .ok content
  projects : ∀ session ∈ x.sessions.live, ∀ d,
    x.world.files.find s.here true session.directory = .ok d → ∀ place content mode, d <+: place →
      x.world.files.lookup? place = some (.file content mode) →
      y.world.files.lookup? place = some (.file content mode)

/-- The same stands everywhere in two scenes. -/
def Untouched (x y : Scene) : Prop :=
  ∀ place, y.world.files.lookup? place = x.world.files.lookup? place

theorem Untouched.refl (x : Scene) : Untouched x x := fun _ => rfl

theorem Unharmed.of_extends (hlive : y.sessions.live = x.sessions.live)
    (h : Extends x.world.files y.world.files) : Unharmed s x y := by
  refine ⟨hlive, fun user content _ hread => h.readBytes hread, ?_⟩
  intro session _ d _ place content mode _ hfile
  rw [h place (by simp [hfile]), hfile]

theorem Unharmed.refl (s : Service) (x : Scene) : Unharmed s x x :=
  .of_extends rfl fun _ _ => rfl

/-- A scene in which requests can be handled: the next session can begin, and profiles are written
in no directory of a session. -/
structure Ready (s : Service) (x : Scene) (home : Place) : Prop where
  vacant : Vacant x.workplace home
  start : x.sessions.start = s.here
  apart : ∀ user, isUser user = true → ∀ place,
    Leads x.world.files nowhere (origin s.here (s.teacher.profiles.stagingOf user))
      (s.teacher.profiles.stagingOf user).parts place →
    ∀ session ∈ x.sessions.live, ∀ d,
      x.world.files.find s.here true session.directory = .ok d → ¬ d <+: place

/-! ### Work that does no harm -/

/-- Work that is not refused. -/
def Succeeds (x : Scene) (w : Handling α) : Prop := ∃ a, outcome w x = .ok a

theorem Succeeds.bind {w : Handling α} {f : α → Handling β} (hw : Succeeds x w)
    (hf : ∀ a, Succeeds (after w x) (f a)) : Succeeds x (w >>= f) := by
  obtain ⟨a, ha⟩ := hw
  obtain ⟨b, hb⟩ := hf a
  exact ⟨b, (outcome_bind_ok ha).trans hb⟩

/-- Work that is refused does no harm, and has changed nothing unless something went wrong
inside. -/
def Spares (s : Service) (x : Scene) (w : Handling α) : Prop :=
  ∀ refusal, outcome w x = .error refusal →
    Unharmed s x (after w x) ∧ (refusal ≠ .broken → Untouched x (after w x))

namespace Spares

variable {w : Handling α} {f : α → Handling β}

theorem look (h : after w x = x) : Spares s x w := by
  intro refusal _
  rw [h]
  exact ⟨.refl s x, fun _ => .refl x⟩

theorem pure (a : α) : Spares s x (Pure.pure a : Handling α) := look rfl

theorem throw_bind (refusal : Refusal) :
    Spares s x ((MonadExcept.throw refusal : Handling α) >>= f) := look rfl

theorem of_ok {a : α} (h : outcome w x = .ok a) : Spares s x w := by
  intro refusal hrefused
  rw [h] at hrefused
  exact absurd hrefused (by simp)

/-- A look at the scene can only be followed by harm. -/
theorem look_bind (hw : after w x = x) (hf : ∀ a, outcome w x = .ok a → Spares s x (f a)) :
    Spares s x (w >>= f) := by
  rcases ha : outcome w x with refusal | a
  · exact look (by rw [after_bind_error ha, hw])
  · intro refusal hrefused
    rw [outcome_bind_ok ha, hw] at hrefused
    rw [after_bind_ok ha, hw]
    exact hf a ha refusal hrefused

/-- The last step that may fail decides. -/
theorem last_bind (hw : Spares s x w)
    (hf : ∀ a, Succeeds (after w x) (f a)) : Spares s x (w >>= f) := by
  rcases ha : outcome w x with refusal | a
  · intro refusal' hrefused
    rw [outcome_bind_error ha] at hrefused
    rw [after_bind_error ha]
    exact hw refusal' (ha.trans (congrArg _ (Except.error.inj hrefused)))
  · obtain ⟨b, hb⟩ := hf a
    exact of_ok ((outcome_bind_ok ha).trans hb)

theorem onFiles {account : ε → Refusal} {w : Disk ε α}
    (h : ∀ e, outcome w x.world.files = .error e →
      Unharmed s x (x.withFiles (after w x.world.files)) ∧
        (account e ≠ .broken → Untouched x (x.withFiles (after w x.world.files)))) :
    Spares s x (Handling.onFiles account w) := by
  intro refusal hrefused
  change (outcome w x.world.files).mapError account = .error refusal at hrefused
  rcases hw : outcome w x.world.files with e | a
  · rw [hw] at hrefused
    obtain rfl := Except.error.inj hrefused
    exact h e hw
  · rw [hw] at hrefused
    exact absurd hrefused (by simp [Except.mapError])

end Spares

/-- What is not refused is granted. -/
def Grants (w : Handling Http.Response) : Prop :=
  ∀ x response, outcome w x = .ok response → response.status = 200

namespace Grants

theorem pure {response : Http.Response} (h : response.status = 200) :
    Grants (Pure.pure response) := by
  intro x response' hok
  exact Except.ok.inj hok ▸ h

theorem throw (refusal : Refusal) : Grants (MonadExcept.throw refusal) := by
  intro x response hok
  exact absurd hok (by simp)

theorem throw_bind {f : α → Handling Http.Response} (refusal : Refusal) :
    Grants ((MonadExcept.throw refusal : Handling α) >>= f) := by
  intro x response hok
  exact absurd hok (by simp)

theorem bind {w : Handling α} {f : α → Handling Http.Response} (hf : ∀ a, Grants (f a)) :
    Grants (w >>= f) := by
  intro x response hok
  obtain ⟨a, -, hresponse⟩ := bind_ok hok
  exact hf a _ response hresponse

end Grants

/-! ### Profiles -/

theorem lookup?_of_below {d place : Place} {session : Session} {v : FileTree} {user text : String}
    {content : ByteArray} {mode : Nat} (h : Ready s x home) (huser : isUser user = true)
    (hway : WayMade s.here s.teacher.profiles.directory x.world.files v)
    (hwrite : v.writeText s.here (s.teacher.profiles.stagingOf user) text = .ok u)
    (hsession : session ∈ x.sessions.live)
    (hfind : x.world.files.find s.here true session.directory = .ok d) (hbelow : d <+: place)
    (hfile : x.world.files.lookup? place = some (.file content mode)) :
    u.lookup? place = some (.file content mode) := by
  obtain ⟨written, _, hlead, -, -, hkeep⟩ := writeBytes_ok hwrite
  have hplace : place ≠ written := by
    rintro rfl
    exact h.apart user huser _ (hway.sameLinks.symm.leads hlead) session hsession d hfind hbelow
  rw [hkeep place hplace, hway.extends place (by simp [hfile]), hfile]

/-- A change of a profile that fails does no harm. -/
theorem Ready.unharmed_edit {user : String} {edit : ProfileEdit} {e : ProfileError}
    (h : Ready s x home)
    (hfailed : outcome (s.teacher.profiles.edit s.here user edit) x.world.files = .error e) :
    Unharmed s x (x.withFiles (after (s.teacher.profiles.edit s.here user edit) x.world.files)) ∧
      (Refusal.ofProfile e ≠ .broken →
        Untouched x (x.withFiles (after (s.teacher.profiles.edit s.here user edit)
          x.world.files))) := by
  rcases ProfileStore.update_error (fun p => p.user_edit edit) hfailed with
    ⟨-, hsame⟩ | ⟨⟨p, hget⟩, ⟨cause, rfl⟩, hleft⟩
  · change after (s.teacher.profiles.edit s.here user edit) x.world.files = _ at hsame
    rw [hsame]
    exact ⟨.refl s x, fun _ => .refl x⟩
  · refine ⟨⟨rfl, fun other content hother hread => ?_, ?_⟩, fun hne => absurd rfl hne⟩
    · have hextends : Extends x.world.files
          (after (s.teacher.profiles.edit s.here user edit) x.world.files) := fun place _ =>
        ProfileStore.lookup?_of_unstored hother hread hget hleft place
      exact hextends.readBytes hread
    · intro session hsession d hfind place content mode hbelow hfile
      rcases hleft with hway | ⟨v, text, cause, huser, hway, hwrite, -⟩
      · exact (hway.extends place (by simp [hfile])).trans hfile
      · exact lookup?_of_below h huser hway hwrite hsession hfind hbelow hfile

theorem Ready.spares_edit (h : Ready s x home) (user : String) (edit : ProfileEdit) :
    Spares s x (Handling.onFiles .ofProfile (s.teacher.profiles.edit s.here user edit)) :=
  .onFiles fun _ hfailed => h.unharmed_edit hfailed

/-! ### Files -/

/-- A text that cannot be written has left directories on the way to its file at most. -/
theorem Service.extends_writeCode {path : Path} {code : String} {e : FileError}
    (hfailed : outcome (s.writeCode path code) t = .error e) :
    Extends t (after (s.writeCode path code) t) := by
  have hwrite : ∀ v e, outcome (Disk.change fun t => t.writeText s.here path code) v = .error e →
      after (Disk.change fun t => t.writeText s.here path code) v = v := by
    intro v e hv
    rcases hw : v.writeText s.here path code with e' | w
    · exact (Disk.change_error hw).1
    · rw [(Disk.change_ok hw).2] at hv
      exact absurd hv (by simp)
  unfold Service.writeCode at hfailed ⊢
  split at hfailed
  · next parent _ =>
    have hroom : Extends t (after (Disk.of fun t => t.makeDirectories s.here parent) t) :=
      (wayMade_makeDirectories t s.here parent).extends
    rcases hmade : outcome (Disk.of fun t => t.makeDirectories s.here parent) t with e' | ⟨⟩
    · rwa [after_bind_error hmade]
    · rw [outcome_bind_ok hmade] at hfailed
      rw [after_bind_ok hmade, hwrite _ _ hfailed]
      exact hroom
  · have hsame := hwrite t e hfailed
    show Extends t (after (Disk.change fun t => t.writeText s.here path code) t)
    rw [hsame]
    exact fun _ _ => rfl

theorem Service.after_fixing {q : Path} {order : FixOrder} {e : FixError}
    (hfailed : outcome (s.fixing q order) t = .error e) : after (s.fixing q order) t = t := by
  unfold Service.fixing at hfailed ⊢
  rw [Disk.outcome_of] at hfailed
  rw [Disk.after_of]
  split at hfailed
  · exact absurd hfailed (by simp)
  · rfl

/-- A new look is recorded where the session is known. -/
theorem Service.outcome_record {p : Workplace} {id : String} {session : Session}
    (h : p.sessions.find? id = some session) (file : String) (level : Level) (report : Report) :
    ∃ review, outcome (Service.record id file level report) p = .ok review := by
  have hupdate : ∀ change, ∃ shown?, outcome (SessionWork.update id change) p = .ok shown? := by
    intro change
    unfold SessionWork.update
    rw [outcome_bind_ok (SessionWork.outcome_find h), SessionWork.after_ask]
    rcases session.result with _ | known
    · exact ⟨none, rfl⟩
    · dsimp only
      rw [outcome_bind_ok (SessionWork.after_attach _ h).2]
      exact ⟨_, rfl⟩
  unfold Service.record
  split
  · obtain ⟨shown?, hshown⟩ := hupdate (Review.replaceFileIssues file report.issues)
    exact ⟨_, by rw [outcome_bind_ok hshown]; rfl⟩
  · have hresult : outcome (SessionWork.ask (·.result id)) p = .ok session.result := by
      rw [SessionWork.outcome_ask, SessionStore.result, SessionStore.find, h]
      rfl
    exact ⟨_, by rw [outcome_bind_ok hresult]; rfl⟩

theorem Handling.sessions_inWorld (w : StateM World α) :
    (after (inWorld w) x).sessions = x.sessions := rfl

theorem Handling.sessions_onFiles (account : ε → Refusal) (w : Disk ε α) :
    (after (onFiles account w) x).sessions = x.sessions := rfl

theorem Service.succeeds_record {id file : String} {level : Level} {report : Report}
    {session : Session} (hsame : y.sessions = x.sessions)
    (h : x.sessions.find? id = some session) :
    Succeeds y (Handling.onSessions (Service.record id file level report)) := by
  obtain ⟨review, hreview⟩ := Service.outcome_record (p := y.workplace)
    ((congrArg (·.find? id) hsame).trans h) file level report
  refine ⟨review, ?_⟩
  rw [Handling.outcome_onSessions, hreview]
  rfl

/-! ### Handlers -/

namespace Ready

theorem spares_takeIn (h : Ready s x home) (data : ByteArray) (user : Option String)
    (level : Level) : Spares s x (s.takeIn data user level) := by
  rcases h.vacant.createFromArchive_cases data user with
    ⟨hbegun, hknown, place, hfind, hdir⟩ | ⟨⟨e, hrefused⟩, hsessions, hsame⟩
  · have hroot : s.pipeline.checkRoot
        (after (SessionWork.createFromArchive data user) x.workplace).files
        (x.sessions.upcoming user).directory = .ok () := by
      have hfind' : (after (SessionWork.createFromArchive data user) x.workplace).files.find
          s.pipeline.machine.cwd true (x.sessions.upcoming user).directory = .ok place := by
        rw [show s.pipeline.machine.cwd = x.sessions.start from h.start.symm]
        exact hfind
      rw [Pipeline.checkRoot, hfind']
      exact if_pos (by rw [hasDirectory, hdir])
    obtain ⟨review, -, houtcome, -⟩ := Service.takeIn_ok level hbegun rfl hknown hroot
    exact .of_ok houtcome
  · obtain ⟨houtcome, hafter⟩ := Service.takeIn_refused (s := s) level hrefused
    intro refusal _
    have huntouched : Untouched x (after (s.takeIn data user level) x) := by
      show ∀ place, (after (s.takeIn data user level) x).workplace.files.lookup? place = _
      rw [hafter]
      exact hsame
    have hlive : (after (s.takeIn data user level) x).sessions.live = x.sessions.live := by
      show (after (s.takeIn data user level) x).workplace.sessions.live = _
      rw [hafter, hsessions]
      rfl
    exact ⟨.of_extends hlive fun place _ => huntouched place, fun _ => huntouched⟩

theorem spares_analyzeUpload (h : Ready s x home) (r : Http.Request) :
    Spares s x (s.analyzeUpload r) := by
  unfold Service.analyzeUpload
  refine .look_bind rfl fun asked _ => .look_bind rfl fun data _ => ?_
  dsimp only
  split
  · exact .throw_bind _
  · have hlook : after (s.uploadLevel asked (r.shownHeader? Service.userHeader)) x = x :=
      (Service.uploadLevel_eq asked _ fun _ => rfl).2.2
    exact .look_bind hlook fun level _ => h.spares_takeIn data _ level

theorem spares_analyzeCode (r : Http.Request) : Spares s x (s.analyzeCode r) := by
  unfold Service.analyzeCode
  refine .look_bind rfl fun change _ => .look_bind rfl fun known? _ => ?_
  dsimp only
  split
  · exact .pure _
  refine .look_bind rfl fun root _ => .look_bind rfl fun path hpath =>
    .look_bind rfl fun files _ => ?_
  refine .last_bind (.onFiles fun e hfailed => ?_) fun _ => ?_
  · exact ⟨.of_extends rfl (s.extends_writeCode hfailed), fun hne => absurd rfl hne⟩
  -- The session was known when the path was resolved, so that the new look can be recorded.
  · refine .bind ⟨_, rfl⟩ fun report => .bind ?_ fun review => ⟨_, rfl⟩
    obtain ⟨session, hknown⟩ : ∃ session, x.sessions.find? change.session = some session := by
      rcases hresolve : x.sessions.resolve change.session change.file with e | q
      · change (x.sessions.resolve change.session change.file).mapError _ = _ at hpath
        simp [hresolve, Except.mapError] at hpath
      · obtain ⟨session, hsession, -⟩ := resolve_eq_ok.mp hresolve
        exact ⟨session, hsession⟩
    refine Service.succeeds_record ?_ hknown
    rw [Handling.sessions_inWorld, Handling.sessions_onFiles]

theorem spares_applyFix (r : Http.Request) : Spares s x (s.applyFix r) := by
  unfold Service.applyFix
  refine .look_bind rfl fun order _ => .look_bind rfl fun path _ => ?_
  refine .last_bind (.onFiles (w := s.fixing path order) fun e hfailed => ?_) fun _ => ⟨_, rfl⟩
  rw [Service.after_fixing hfailed]
  exact ⟨.refl s x, fun _ => .refl x⟩

theorem spares_exportProject (r : Http.Request) : Spares s x (s.exportProject r) := by
  unfold Service.exportProject
  refine .look_bind rfl fun session _ => .look_bind rfl fun directory _ =>
    .look_bind rfl fun files _ => ?_
  dsimp only
  split
  · exact .throw_bind _
  · exact .pure _

theorem spares_suggestFix (r : Http.Request) : Spares s x (s.suggestFix r) :=
  .look_bind rfl fun _ _ => .pure _

theorem spares_showFile (r : Http.Request) : Spares s x (s.showFile r) := by
  unfold Service.showFile
  refine .look_bind rfl fun file _ => .look_bind rfl fun session _ => .look_bind rfl fun path _ =>
    .look_bind rfl fun files _ => ?_
  dsimp only
  split
  · exact .throw_bind _
  · split <;> exact .look rfl

theorem spares_explain (h : Ready s x home) (r : Http.Request) : Spares s x (s.explain r) := by
  unfold Service.explain
  refine .look_bind rfl fun q _ => .last_bind (.onFiles fun e hfailed => ?_) fun _ => ⟨_, rfl⟩
  unfold Teacher.explain at hfailed ⊢
  rcases hedit : outcome (s.teacher.profiles.edit s.here q.user (.recordIssue q.issue.code))
    x.world.files with e' | p
  · rw [outcome_bind_error hedit] at hfailed
    obtain rfl := Except.error.inj hfailed
    rw [after_bind_error hedit]
    exact h.unharmed_edit hedit
  · rw [outcome_bind_ok hedit] at hfailed
    exact absurd hfailed (by simp)

theorem spares_showTemplate (code : String) (r : Http.Request) :
    Spares s x (Service.showTemplate code r) :=
  .look_bind rfl fun _ _ => .look_bind rfl fun _ _ => .pure _

theorem spares_logFeedback (h : Ready s x home) (now : Timestamp) (r : Http.Request) :
    Spares s x (s.logFeedback now r) :=
  .look_bind rfl fun _ _ => .last_bind (h.spares_edit _ _) fun _ => ⟨_, rfl⟩

theorem spares_showProfile (user : String) : Spares s x (s.showProfile user) :=
  .look_bind rfl fun _ _ => .look_bind rfl fun _ _ => .pure _

theorem spares_changeProfile (h : Ready s x home) (user : String) (read : Json.Decode ProfileEdit)
    (r : Http.Request) : Spares s x (s.changeProfile user read r) :=
  .look_bind rfl fun _ _ => .look_bind rfl fun _ _ =>
    .last_bind (h.spares_edit _ _) fun _ => ⟨_, rfl⟩

end Ready

namespace Grants

theorem takeIn (s : Service) (data : ByteArray) (user : Option String) (level : Level) :
    Grants (s.takeIn data user level) := by
  refine .bind fun session => .bind fun result => ?_
  split
  · exact .bind fun _ => .bind fun _ => .throw _
  · exact .bind fun _ => .pure rfl

theorem analyzeUpload (s : Service) (r : Http.Request) : Grants (s.analyzeUpload r) := by
  unfold Service.analyzeUpload
  refine .bind fun _ => .bind fun _ => ?_
  dsimp only
  split
  · exact .throw_bind _
  · exact .bind fun _ => takeIn s _ _ _

theorem analyzeCode (s : Service) (r : Http.Request) : Grants (s.analyzeCode r) := by
  unfold Service.analyzeCode
  refine .bind fun _ => .bind fun _ => ?_
  dsimp only
  split
  · exact .pure rfl
  · exact .bind fun _ => .bind fun _ => .bind fun _ => .bind fun _ => .bind fun _ => .bind fun _ =>
      .pure rfl

theorem exportProject (s : Service) (r : Http.Request) : Grants (s.exportProject r) := by
  unfold Service.exportProject
  refine .bind fun _ => .bind fun _ => .bind fun _ => ?_
  dsimp only
  split
  · exact .bind fun _ => .pure rfl
  · exact .pure rfl

theorem showFile (s : Service) (r : Http.Request) : Grants (s.showFile r) := by
  unfold Service.showFile
  refine .bind fun _ => .bind fun _ => .bind fun _ => .bind fun _ => ?_
  dsimp only
  split
  · exact .throw_bind _
  · split
    · exact .pure rfl
    · exact .throw _

end Grants

/-! ### Requests -/

/-- The path on which the service tells how the analyzers are configured, which writes the files
that it tells about. -/
def configPath : String := "/api/v1/analysis/debug-config"

/-- Whatever is asked on another path is refused without harm or granted. -/
theorem Ready.spares_route (h : Ready s x home) (now : Timestamp) (r : Http.Request)
    {route : Route} (hroute : route ∈ s.routes now)
    (hparts : route.parts ≠ Route.parse configPath) (holes : List String) :
    Spares s x (route.handle holes r) ∧ Grants (route.handle holes r) := by
  rw [Service.routes_eq] at hroute
  simp only [List.mem_cons, List.not_mem_nil, or_false] at hroute
  rcases hroute with rfl | rfl | rfl | rfl | rfl | rfl | rfl | rfl | rfl | rfl | rfl | rfl | rfl |
    rfl
  · exact ⟨.pure _, .pure rfl⟩
  · exact ⟨h.spares_analyzeUpload r, .analyzeUpload s r⟩
  · exact ⟨spares_analyzeCode r, .analyzeCode s r⟩
  · exact ⟨spares_applyFix r, .bind fun _ => .bind fun _ => .bind fun _ => .pure rfl⟩
  · exact ⟨spares_exportProject r, .exportProject s r⟩
  · exact ⟨spares_suggestFix r, .bind fun _ => .pure rfl⟩
  · have hconfig : Route.parse configPath =
        [.fixed "api", .fixed "v1", .fixed "analysis", .fixed "debug-config"] := by decide +kernel
    exact absurd hconfig.symm hparts
  · exact ⟨spares_showFile r, .showFile s r⟩
  · exact ⟨h.spares_explain r, .bind fun _ => .bind fun _ => .pure rfl⟩
  · exact ⟨spares_showTemplate _ r, .bind fun _ => .bind fun _ => .pure rfl⟩
  · exact ⟨h.spares_logFeedback now r, .bind fun _ => .bind fun _ => .pure rfl⟩
  · exact ⟨spares_showProfile _, .bind fun _ => .bind fun _ => .pure rfl⟩
  · exact ⟨h.spares_changeProfile _ _ r, .bind fun _ => .bind fun _ => .bind fun _ => .pure rfl⟩
  · exact ⟨h.spares_changeProfile _ _ r, .bind fun _ => .bind fun _ => .bind fun _ => .pure rfl⟩

/-- Fixed parts make up one path. -/
theorem eq_of_holes? {parts given : List String} {holes : List String}
    (h : Route.holes? (parts.map .fixed) given = some holes) : given = parts := by
  induction parts generalizing given with
  | nil => cases given <;> simp_all [Route.holes?]
  | cons part rest ih =>
    rcases given with _ | ⟨g, given⟩
    · simp [Route.holes?] at h
    · simp only [List.map_cons, Route.holes?] at h
      split at h
      · next hsame => rw [hsame, ih h]
      · simp at h

theorem Route.path_of_fixed {route : Route} {parts holes : List String} {path : String}
    (hparts : route.parts = parts.map .fixed) (h : route.matches? path = some holes) :
    path = Text.join "/" ("" :: parts) := by
  unfold matches? at h
  split at h
  · next given hcut =>
    rw [hparts] at h
    rw [← Text.join_cut path, hcut, eq_of_holes? h]
  · exact absurd h (by simp)

theorem path_of_matches? {route : Route} {path : String} {holes : List String}
    (hparts : route.parts = Route.parse configPath) (h : route.matches? path = some holes) :
    path = configPath := by
  have hfixed : Route.parse configPath =
      ["api", "v1", "analysis", "debug-config"].map RoutePart.fixed := by decide +kernel
  rw [Route.path_of_fixed (hparts.trans hfixed) h]
  decide +kernel

/-- What is done for a request, and the status of the answer: a route handles it, or nothing is
done. -/
theorem Service.route_cases (s : Service) (now : Timestamp) (r : Http.Request) (x : Scene) :
    (∃ route ∈ s.routes now, ∃ holes, route.matches? r.path = some holes ∧
      (s.answer now r x).1 = after (route.handle holes r) x ∧
      (s.answer now r x).2.status = match outcome (route.handle holes r) x with
        | .ok response => response.status
        | .error refusal => refusal.response.status) ∨
    (s.answer now r x).1 = x := by
  unfold Service.answer
  split
  · exact .inr rfl
  unfold Service.route
  dsimp only
  split
  · next route holes hfind =>
    have hmem := List.mem_of_find?_eq_some hfind
    obtain ⟨route', hroute, hmatch⟩ := List.mem_filterMap.mp hmem
    obtain ⟨holes', hholes, heq⟩ := Option.map_eq_some_iff.mp hmatch
    obtain ⟨rfl, rfl⟩ := Prod.mk.inj heq
    refine .inl ⟨route', hroute, holes', hholes, rfl, ?_⟩
    show (shown r (outcome (route'.handle holes' r) x)).status = _
    unfold shown
    rcases outcome (route'.handle holes' r) x with refusal | response <;> dsimp only <;> split <;>
      rfl
  · exact .inr rfl

/-- **Requests that are refused change nothing.** Whatever state the service is in and whatever is
asked of it: where the answer is a refusal, all sessions and their reviews, all stored profiles and
all files of projects are as they were before; and where the refusal is for what the client did, no
file and no directory was added anywhere. The root of the sessions must be there, with nothing yet
under the name of the next session, and profiles must not be written into projects. -/
theorem refused_requests_change_nothing (s : Service) (x : Scene) (home : Place)
    (hready : Ready s x home) (now : Timestamp) (r : Http.Request) (hpath : r.path ≠ configPath)
    (hrefused : 400 ≤ (s.answer now r x).2.status) :
    Unharmed s x (s.answer now r x).1 ∧
    ((s.answer now r x).2.status < 500 → Untouched x (s.answer now r x).1) := by
  rcases s.route_cases now r x with ⟨route, hroute, holes, hmatch, hafter, hstatus⟩ | hsame
  · have hparts : route.parts ≠ Route.parse configPath := fun hparts =>
      hpath (path_of_matches? hparts hmatch)
    obtain ⟨hspares, hgrants⟩ := hready.spares_route now r hroute hparts holes
    rcases houtcome : outcome (route.handle holes r) x with refusal | response
    · obtain ⟨hunharmed, huntouched⟩ := hspares refusal houtcome
      rw [hafter]
      refine ⟨hunharmed, fun hclient => huntouched ?_⟩
      rintro rfl
      rw [hstatus, houtcome] at hclient
      exact absurd hclient (by decide)
    · rw [hstatus, houtcome] at hrefused
      have hok : response.status = 200 := hgrants x response houtcome
      simp [hok] at hrefused
  · rw [hsame]
    exact ⟨.refl s x, fun _ => .refl x⟩

theorem ready_twoProjects : Ready quietService twoProjects ["s"] := by
  have hentry : ∀ place e, place ≠ [] → twoProjects.world.files.lookup? place = some e →
      (place, e) ∈ twoProjects.world.files.entries := by
    intro place e hne he
    rw [lookup?_of_ne_nil hne] at he
    obtain ⟨before, rest, hentries, -⟩ := List.lookup_eq_some_iff.mp he
    simp [hentries]
  refine ⟨⟨by decide +kernel, rfl, by decide, fun place hplace => ?_, by decide +kernel⟩, rfl,
    fun user huser place hlead session hsession d hfind hbelow => ?_⟩
  · have hbeside : ∀ e ∈ twoProjects.world.files.entries, ¬ ["s", "p-" ++ idOf 2] <+: e.1 := by
      decide +kernel
    have hne : place ≠ [] := by
      rintro rfl
      simp at hplace
    by_contra hsome
    obtain ⟨e, he⟩ := Option.ne_none_iff_exists'.mp hsome
    exact hbeside _ (hentry place e hne he) hplace
  · -- Profiles are written below a directory that no link leads away from.
    let staging := quietService.teacher.profiles.stagingName user
    have hname : Path.IsName staging := ProfileStore.isName_stagingName _ huser
    have hparts : (quietService.teacher.profiles.stagingOf user).parts = ["u", staging] := by
      rw [ProfileStore.stagingOf_eq, Path.parts_child hname]
      rfl
    have hnames : ["u", staging].filterMap Path.component? = ["u", staging].map .name := by
      rw [List.filterMap_cons, List.filterMap_cons, Path.component?_of_isName hname]
      rfl
    have hplace : Leads twoProjects.world.files nowhere [] ["u", staging]
        ([] ++ ["u", staging]) := by
      refine leads_of_names hnames fun more hmore hne target hlink => ?_
      have hmem := hentry _ _ (by simpa using hne) hlink
      simp [twoProjects] at hmem
      simp [hmem.1] at hmore
    have habs : (quietService.teacher.profiles.stagingOf user).isAbsolute = true :=
      (Path.isAbsolute_child hname).trans rfl
    rw [origin, if_pos habs, hparts] at hlead
    obtain rfl := hlead.unique hplace
    have hhoused : ∀ session ∈ twoProjects.sessions.live,
        twoProjects.world.files.find [] true session.directory = .ok ["s", "p-" ++ session.id] := by
      decide +kernel
    obtain rfl := Except.ok.inj ((hhoused session hsession).symm.trans hfind)
    simp at hbelow

/-- Neither an archive that is damaged nor a text that is none can do harm. -/
theorem refused_requests_change_nothing_damaged :
    Ready quietService twoProjects ["s"] ∧
    (uploading damagedArchive).path ≠ configPath ∧
    (quietService.answer ⟨0, 0⟩ (uploading damagedArchive) twoProjects).2.status = 500 ∧
    Unharmed quietService twoProjects
      (quietService.answer ⟨0, 0⟩ (uploading damagedArchive) twoProjects).1 ∧
    (uploading [80, 75, 5]).path ≠ configPath ∧
    (quietService.answer ⟨0, 0⟩ (uploading [80, 75, 5]) twoProjects).2.status = 400 ∧
    Untouched twoProjects (quietService.answer ⟨0, 0⟩ (uploading [80, 75, 5]) twoProjects).1 := by
  have hbroken : (quietService.answer ⟨0, 0⟩ (uploading damagedArchive) twoProjects).2.status =
      500 := by decide +kernel
  have hbad : (quietService.answer ⟨0, 0⟩ (uploading [80, 75, 5]) twoProjects).2.status = 400 := by
    decide +kernel
  have hpath : ∀ archive, (uploading archive).path ≠ configPath := fun _ h =>
    absurd h (by show "/api/v1/analysis/analyze-zip" ≠ configPath; decide)
  obtain ⟨hunharmed, -⟩ := refused_requests_change_nothing quietService twoProjects ["s"]
    ready_twoProjects ⟨0, 0⟩ (uploading damagedArchive) (hpath _) (by simp [hbroken])
  obtain ⟨-, huntouched⟩ := refused_requests_change_nothing quietService twoProjects ["s"]
    ready_twoProjects ⟨0, 0⟩ (uploading [80, 75, 5]) (hpath _) (by simp [hbad])
  exact ⟨ready_twoProjects, hpath _, hbroken, hunharmed, hpath _, hbad, huntouched (by simp [hbad])⟩

end ReviewMentor
