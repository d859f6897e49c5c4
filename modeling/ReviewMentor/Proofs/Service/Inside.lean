import ReviewMentor.Proofs.Service.Handlers

/-!
# Requests stay inside their session

Whatever requests come, in whatever order: each one works in the directory of the session that it
names, and none brings a link into the directory of a session.
-/

namespace ReviewMentor

open FileTree Effect SessionStore

/-- The requests about the project of a session: uploading it, looking at a file of it again, fixing
a line of a file, reading a file, and getting all files back. -/
inductive ProjectRequest where
  | upload
  | change
  | fix
  | read
  | collect
deriving DecidableEq

namespace ProjectRequest

def method : ProjectRequest → String
  | read => "GET"
  | _ => "POST"

def path : ProjectRequest → String
  | upload => "/api/v1/analysis/analyze-zip"
  | change => "/api/v1/analysis/analyze-code"
  | fix => "/api/v1/analysis/apply-fix"
  | read => "/api/v1/files"
  | collect => "/api/v1/analysis/export-project"

/-- The path between its slashes. -/
def parts : ProjectRequest → List String
  | upload => ["api", "v1", "analysis", "analyze-zip"]
  | change => ["api", "v1", "analysis", "analyze-code"]
  | fix => ["api", "v1", "analysis", "apply-fix"]
  | read => ["api", "v1", "files"]
  | collect => ["api", "v1", "analysis", "export-project"]

def handle (s : Service) : ProjectRequest → Http.Request → Handling Http.Response
  | upload => s.analyzeUpload
  | change => s.analyzeCode
  | fix => s.applyFix
  | read => s.showFile
  | collect => s.exportProject

/-- Whether analyzers are run for a request. -/
def analyzes : ProjectRequest → Bool
  | upload | change => true
  | _ => false

/-- The session that a request names; an upload is for the next one. -/
def session? (s : Service) (store : SessionStore) (r : Http.Request) :
    ProjectRequest → Option String
  | upload => some (idOf store.serial)
  | change => (s.readJson CodeChange.read r).toOption.map CodeChange.session
  | fix => (s.readJson FixOrder.read r).toOption.map FixOrder.session
  | read => (Service.valueAsked r "session_id").toOption
  | collect => (s.readJson readSessionName r).toOption

/-- A request names a session that is there for it. -/
def Names (k : ProjectRequest) (s : Service) (store : SessionStore) (r : Http.Request)
    (id : String) : Prop :=
  k.session? s store r = some id ∧ (k = upload ∨ (store.find? id).isSome)

end ProjectRequest

variable {looks : Prop} {home d : Place} {target : Path} {n : Nat} {x x' : Scene}
  {s : Service} {r : Http.Request} {now : Timestamp} {k : ProjectRequest} {id : String}

/-! ### Routes -/

namespace Service

/-- The routes, with their paths taken apart. -/
theorem routes_eq (s : Service) (now : Timestamp) : s.routes now =
    [⟨"GET", [.fixed "health"], fun _ _ => health⟩,
      ⟨"POST", [.fixed "api", .fixed "v1", .fixed "analysis", .fixed "analyze-zip"],
        fun _ => s.analyzeUpload⟩,
      ⟨"POST", [.fixed "api", .fixed "v1", .fixed "analysis", .fixed "analyze-code"],
        fun _ => s.analyzeCode⟩,
      ⟨"POST", [.fixed "api", .fixed "v1", .fixed "analysis", .fixed "apply-fix"],
        fun _ => s.applyFix⟩,
      ⟨"POST", [.fixed "api", .fixed "v1", .fixed "analysis", .fixed "export-project"],
        fun _ => s.exportProject⟩,
      ⟨"POST", [.fixed "api", .fixed "v1", .fixed "analysis", .fixed "generate-fix"],
        fun _ => s.suggestFix⟩,
      ⟨"GET", [.fixed "api", .fixed "v1", .fixed "analysis", .fixed "debug-config"],
        fun _ _ => s.showConfigs⟩,
      ⟨"GET", [.fixed "api", .fixed "v1", .fixed "files"], fun _ => s.showFile⟩,
      ⟨"POST", [.fixed "api", .fixed "v1", .fixed "explanations", .fixed "explain"],
        fun _ => s.explain⟩,
      ⟨"GET", [.fixed "api", .fixed "v1", .fixed "explanations", .fixed "template", .hole],
        fun holes => showTemplate (holes.headD "")⟩,
      ⟨"POST", [.fixed "api", .fixed "v1", .fixed "feedback", .fixed "explanation"],
        fun _ => s.logFeedback now⟩,
      ⟨"GET", [.fixed "api", .fixed "v1", .fixed "profile", .hole],
        fun holes _ => s.showProfile (holes.headD "")⟩,
      ⟨"POST", [.fixed "api", .fixed "v1", .fixed "profile", .hole, .fixed "experience-level"],
        fun holes => s.changeProfile (holes.headD "") readChosenLevel⟩,
      ⟨"POST", [.fixed "api", .fixed "v1", .fixed "profile", .hole, .fixed "quiz"],
        fun holes => s.changeProfile (holes.headD "") readQuiz⟩] := by
  rfl

theorem found_of_path (s : Service) (now : Timestamp) (k : ProjectRequest) :
    ((s.routes now).filterMap fun route =>
      (route.matches? k.path).map fun holes => (route, holes)) =
      [(⟨k.method, k.parts.map .fixed, fun _ => k.handle s⟩, [])] := by
  have hcut : Text.cut '/' k.path = "" :: k.parts := by cases k <;> decide +kernel
  rw [routes_eq]
  simp only [Route.matches?, hcut]
  cases k <;> simp [ProjectRequest.parts, Route.holes?, ProjectRequest.method,
    ProjectRequest.handle]

/-- The response to what came of handling a request. -/
def shown (r : Http.Request) (result : Except Refusal Http.Response) : Http.Response :=
  let response := match result with
    | .ok response => response
    | .error refusal => refusal.response
  if r.method = "HEAD" then response.withoutBody else response

theorem route_of_path (s : Service) (now : Timestamp) (hk : r.path = k.path) (x : Scene) :
    s.route now r x =
      if Route.offers ⟨k.method, k.parts.map .fixed, fun _ => k.handle s⟩ r.method then
        (after (k.handle s r) x, shown r (outcome (k.handle s r) x))
      else (x, .bare 405) := by
  unfold route
  simp only [hk, found_of_path, List.find?_cons, List.find?_nil]
  rcases Route.offers ⟨k.method, k.parts.map .fixed, fun _ => k.handle s⟩ r.method with _ | _
  · rfl
  · rfl

/-- A request with the method of its route is answered by its handler. -/
theorem answer_of_method (s : Service) (now : Timestamp) (hk : r.path = k.path)
    (hmethod : r.method = k.method) (x : Scene) :
    (s.answer now r x).1 = after (k.handle s r) x ∧
    (s.answer now r x).2 = { shown r (outcome (k.handle s r) x) with
      headers := s.originHeaders r ++ (shown r (outcome (k.handle s r) x)).headers } := by
  have hoptions : r.method ≠ "OPTIONS" := by
    rw [hmethod]
    cases k <;> decide
  unfold answer
  rw [if_neg hoptions, route_of_path s now hk, if_pos (by simp [Route.offers, hmethod])]
  exact ⟨rfl, rfl⟩

/-- A request is answered by its handler, or turned away without a look at the scene. -/
theorem answer_cases (s : Service) (now : Timestamp) (hk : r.path = k.path) :
    (∃ respond : Except Refusal Http.Response → Http.Response, ∀ x,
      s.answer now r x = (after (k.handle s r) x, respond (outcome (k.handle s r) x))) ∨
    ∃ response, ∀ x, s.answer now r x = (x, response) := by
  unfold answer
  split
  · exact .inr ⟨_, fun _ => rfl⟩
  simp only [route_of_path s now hk]
  split
  · exact .inl ⟨fun result => { shown r result with
      headers := s.originHeaders r ++ (shown r result).headers }, fun _ => rfl⟩
  · exact .inr ⟨{ Http.Response.bare 405 with headers := s.originHeaders r ++ [] }, fun _ => rfl⟩

end Service

/-! ### One request -/

namespace ProjectRequest

theorem agree_handle (k : ProjectRequest) (h : ScenesBeside looks s.pipeline home n target d x x')
    (hname : ∀ id, k.session? s x.sessions r = some id → id = idOf n)
    (hlooks : k.analyzes = true → looks → s.pipeline.machine.LooksIn d)
    (hprofile : k = upload → ∀ user, s.teacher.profiles.get s.here user x'.world.files =
      s.teacher.profiles.get s.here user x.world.files) :
    Agree (ScenesBeside looks s.pipeline home n target d) (SceneMoves s.pipeline target d) x x'
      (ExceptT.run (k.handle s r)) (ExceptT.run (k.handle s r)) := by
  cases k with
  | upload =>
    exact Service.agree_analyzeUpload (hlooks rfl) h (idOf_injective (hname _ rfl)) (hprofile rfl)
  | change =>
    refine Service.agree_analyzeCode (hlooks rfl) h fun change hchange => hname _ ?_
    simp [session?, hchange, Except.toOption]
  | fix =>
    refine Service.agree_applyFix h fun order horder => hname _ ?_
    simp [session?, horder, Except.toOption]
  | read =>
    refine Service.agree_showFile h fun id hid => hname _ ?_
    simp [session?, hid, Except.toOption]
  | collect =>
    refine Service.agree_exportProject h fun id hid => hname _ ?_
    simp [session?, hid, Except.toOption]

theorem find_none_of_resolve {store : SessionStore} {file : String} {q : Path}
    (h : store.find? id = none) : store.resolve id file ≠ .ok q := by
  intro hq
  obtain ⟨y, hy, -⟩ := resolve_eq_ok.mp hq
  simp [h] at hy

/-- A request that names no session that is there is refused, and nothing is done for it. -/
theorem agree_unknown (k : ProjectRequest) (hnone : ∀ id, ¬ k.Names s x.sessions r id)
    (hsessions : x'.sessions = x.sessions) :
    Agree (fun y y' : Scene => y'.sessions = y.sessions) Eq x x'
      (ExceptT.run (k.handle s r)) (ExceptT.run (k.handle s r)) := by
  have hfind : ∀ id, k.session? s x.sessions r = some id → x.sessions.find? id = none := by
    intro id hid
    by_contra hlive
    exact hnone id ⟨hid, .inr (Option.isSome_iff_ne_none.mpr hlive)⟩
  cases k with
  | upload => exact absurd ⟨rfl, .inl rfl⟩ (hnone _)
  | change =>
    refine Handling.agree_given hsessions fun change hchange => ?_
    refine Handling.agree_ask hsessions hsessions fun known? hknown => ?_
    obtain ⟨y, hy, -⟩ := result_eq_ok.mp hknown
    simp [hfind change.session (by simp [session?, hchange, Except.toOption])] at hy
  | fix =>
    refine Handling.agree_given hsessions fun order horder => ?_
    refine Handling.agree_ask hsessions hsessions fun path hpath => ?_
    have hmissing := hfind order.session (by simp [session?, horder, Except.toOption])
    exact absurd hpath (find_none_of_resolve hmissing)
  | read =>
    refine Handling.agree_given hsessions fun file _ => ?_
    refine Handling.agree_given hsessions fun id hid => ?_
    refine Handling.agree_ask hsessions hsessions fun path hpath => ?_
    have hmissing := hfind id (by simp [session?, hid, Except.toOption])
    exact absurd hpath (find_none_of_resolve hmissing)
  | collect =>
    refine Handling.agree_given hsessions fun id hid => ?_
    refine Handling.agree_ask hsessions hsessions fun directory hdirectory => ?_
    have hmissing := hfind id (by simp [session?, hid, Except.toOption])
    simp [SessionStore.directory, SessionStore.find, hmissing, Except.map] at hdirectory

end ProjectRequest

/-- The sessions of a scene and their files. -/
def Scene.workplace (x : Scene) : Workplace := ⟨x.sessions, x.world.files⟩

/-- A scene with other files. -/
def Scene.withFiles (x : Scene) (u : FileTree) : Scene :=
  { x with world := { x.world with files := u } }

namespace Service

/-- A session that is named works in its own directory. -/
theorem scoped_of_names (htidy : Tidy s.pipeline home x.workplace)
    (hid : k.Names s x.sessions r id) :
    ∃ n, id = idOf n ∧ Scoped s.pipeline home n (x.sessions.directoryPath id)
      (home ++ [x.sessions.leaf id]) x.workplace := by
  obtain ⟨hsession, rfl | hlive⟩ := hid
  · obtain rfl : idOf x.sessions.serial = id := Option.some.inj hsession
    exact ⟨_, rfl, .next htidy⟩
  · obtain ⟨y, hy⟩ := Option.isSome_iff_exists.mp hlive
    exact Scoped.of_find htidy hy

/-- Answering a request beside the same request with other files outside the directory of the
session. -/
theorem answer_beside {u : FileTree} (now : Timestamp) (hk : r.path = k.path)
    (hid : k.session? s x.sessions r = some (idOf n))
    (hscope : Scoped s.pipeline home n target d x.workplace) (hview : SameView d x.world.files u)
    (hsame : u = x.world.files ∨ looks)
    (hlooks : k.analyzes = true → looks → s.pipeline.machine.LooksIn d)
    (hprofile : k = .upload → ∀ user, s.teacher.profiles.get s.here user u =
      s.teacher.profiles.get s.here user x.world.files) :
    ScenesBeside looks s.pipeline home n target d (s.answer now r x).1
        (s.answer now r (x.withFiles u)).1 ∧
      (s.answer now r (x.withFiles u)).2 = (s.answer now r x).2 ∧
      SceneMoves s.pipeline target d x (s.answer now r x).1 := by
  have hbeside : ScenesBeside looks s.pipeline home n target d x (x.withFiles u) :=
    ⟨⟨⟨hscope, ⟨hview, hsame⟩, rfl⟩, rfl, rfl⟩, rfl⟩
  rcases s.answer_cases now hk with ⟨respond, hanswer⟩ | ⟨response, hanswer⟩
  · have hname : ∀ id, k.session? s x.sessions r = some id → id = idOf n := fun id hid' =>
      Option.some.inj (hid'.symm.trans hid)
    obtain ⟨hvalue, halike, hmoves⟩ := k.agree_handle hbeside hname hlooks hprofile
    rw [hanswer, hanswer]
    exact ⟨halike, congrArg respond hvalue, hmoves⟩
  · rw [hanswer, hanswer]
    exact ⟨hbeside, rfl, refl_of _ x⟩

/-- Answering a request keeps the directory of the session where it is. -/
theorem answer_scoped (now : Timestamp) (hk : r.path = k.path)
    (hid : k.session? s x.sessions r = some (idOf n))
    (hscope : Scoped s.pipeline home n target d x.workplace) :
    Scoped s.pipeline home n target d (s.answer now r x).1.workplace ∧
      SceneMoves s.pipeline target d x (s.answer now r x).1 := by
  obtain ⟨hbeside, -, hmoves⟩ := answer_beside now hk hid hscope (.refl d x.world.files) (.inl rfl)
    (fun _ => False.elim) fun _ _ => rfl
  exact ⟨hbeside.scope, hmoves⟩

/-- What is done where no session is named. -/
theorem answer_unknown (now : Timestamp) (hk : r.path = k.path)
    (hnone : ∀ id, ¬ k.Names s x.sessions r id) (u : FileTree) :
    s.answer now r (x.withFiles u) = (x.withFiles u, (s.answer now r x).2) := by
  rcases s.answer_cases now hk with ⟨respond, hanswer⟩ | ⟨response, hanswer⟩
  · have hbeside : Agree (fun y y' : Scene => y'.sessions = y.sessions) Eq (x.withFiles u) x
        (ExceptT.run (k.handle s r)) (ExceptT.run (k.handle s r)) := k.agree_unknown hnone rfl
    have hsame : after (k.handle s r) (x.withFiles u) = x.withFiles u := hbeside.moves.symm
    have hvalue : outcome (k.handle s r) x = outcome (k.handle s r) (x.withFiles u) := hbeside.value
    rw [hanswer, hanswer, hsame, hvalue]
  · rw [hanswer, hanswer]

/-- **A request brings no link into the directory of a session.** -/
theorem tidy_answer (now : Timestamp) (hk : r.path = k.path)
    (htidy : Tidy s.pipeline home x.workplace) :
    Tidy s.pipeline home (s.answer now r x).1.workplace := by
  by_cases hnamed : ∃ id, k.Names s x.sessions r id
  · obtain ⟨id, hid⟩ := hnamed
    obtain ⟨n, rfl, hscope⟩ := scoped_of_names htidy hid
    exact (answer_scoped now hk hid.1 hscope).1.tidy
  · have hsame := answer_unknown now hk (fun id hid => hnamed ⟨id, hid⟩) x.world.files
    change s.answer now r x = (x, _) at hsame
    rwa [hsame]

end Service

/-! ### All requests -/

/-- What a request does for a session.

* `moves`: files are changed in its directory, directories are made on the way to it, and files that
  configure analyzers are written; commands are started there, on paths within it.
* `outside`: so what stands elsewhere stays as it is, but for such directories and such files.
* `found`: paths within the directory are found there, before and after.
* `reads`: what files elsewhere hold plays no part in the answer nor in what is left in the
  directory. Analyzers must not look elsewhere for that, and an upload also depends on the profile
  of who sends it. -/
structure StaysInside (s : Service) (home : Place) (k : ProjectRequest) (now : Timestamp)
    (r : Http.Request) (x : Scene) (id : String) : Prop where
  moves : SceneMoves s.pipeline (x.sessions.directoryPath id) (home ++ [x.sessions.leaf id]) x
    (s.answer now r x).1
  outside : ∀ place, ¬ home ++ [x.sessions.leaf id] <+: place →
    (s.answer now r x).1.world.files.lookup? place = x.world.files.lookup? place ∨
      ∃ v, Changes s.pipeline (x.sessions.directoryPath id) (home ++ [x.sessions.leaf id])
          x.world.files v ∧
        ((OnWay s.pipeline (x.sessions.directoryPath id) v place ∧
          x.world.files.lookup? place = none ∧
          (s.answer now r x).1.world.files.lookup? place = some .directory) ∨
        s.pipeline.invoker.ConfigPlace s.here v place)
  found : ∀ q, Within (x.sessions.directoryPath id) q → ∀ t,
    t = x.world.files ∨ t = (s.answer now r x).1.world.files → ∀ place,
      t.find s.here true q = .ok place → home ++ [x.sessions.leaf id] <+: place
  reads : ∀ u, SameView (home ++ [x.sessions.leaf id]) x.world.files u →
    (k.analyzes = true → s.pipeline.machine.LooksIn (home ++ [x.sessions.leaf id])) →
    (k = .upload → ∀ user, s.teacher.profiles.get s.here user u =
      s.teacher.profiles.get s.here user x.world.files) →
    (s.answer now r (x.withFiles u)).2 = (s.answer now r x).2 ∧
      SameView (home ++ [x.sessions.leaf id]) (s.answer now r x).1.world.files
        (s.answer now r (x.withFiles u)).1.world.files

theorem staysInside (now : Timestamp) (hk : r.path = k.path)
    (htidy : Tidy s.pipeline home x.workplace)
    (hid : k.Names s x.sessions r id) : StaysInside s home k now r x id := by
  obtain ⟨n, rfl, hscope⟩ := Service.scoped_of_names htidy hid
  obtain ⟨hscope', hmoves⟩ := Service.answer_scoped now hk hid.1 hscope
  refine ⟨hmoves, fun place hp => hmoves.files.outside hp, ?_, ?_⟩
  · rintro q hq t (rfl | rfl) place hfind
    · exact hscope.below_of_find hq hfind
    · exact hscope'.below_of_find hq hfind
  · intro u hu hlooks hprofile
    obtain ⟨hbeside, hvalue, -⟩ := Service.answer_beside now hk hid.1 hscope hu (.inr trivial)
      (fun hanalyzes _ => hlooks hanalyzes) hprofile
    exact ⟨hvalue, hbeside.view⟩

/-- The scene after some requests. -/
def Service.answerAll (s : Service) (x : Scene) (requests : List (Timestamp × Http.Request)) :
    Scene :=
  requests.foldl (fun x q => (s.answer q.1 q.2 x).1) x

theorem Service.tidy_answerAll {requests : List (Timestamp × Http.Request)}
    (hrequests : ∀ q ∈ requests, ∃ k : ProjectRequest, q.2.path = k.path)
    (htidy : Tidy s.pipeline home x.workplace) :
    Tidy s.pipeline home (s.answerAll x requests).workplace := by
  induction requests generalizing x with
  | nil => exact htidy
  | cons q rest ih =>
    obtain ⟨k, hk⟩ := hrequests q List.mem_cons_self
    exact ih (fun q' hq' => hrequests q' (List.mem_cons_of_mem _ hq')) (s.tidy_answer q.1 hk htidy)

/-- A service that has just started has tidy sessions, if no link lies where they will be. -/
theorem Service.tidy_start {settings : Settings} {machine : Machine} {send : Transport}
    {writer : Nat}
    {store : SessionStore} {t u : FileTree}
    (h : (Service.start settings machine send writer).run t = (u, .ok (s, store)))
    (hway : Leads u s.pipeline.invoker.Generated (origin machine.cwd store.base)
      store.homeSteps home)
    (hfree : ∀ n, LinkFree u (home ++ [store.leaf (idOf n)])) :
    Tidy s.pipeline home ⟨store, u⟩ := by
  rw [Disk.run_eq] at h
  obtain ⟨-, hvalue⟩ := Prod.mk.inj h
  obtain ⟨-, -, hstart⟩ := bind_ok hvalue
  obtain ⟨rfl, rfl⟩ := Prod.mk.inj (Except.ok.inj hstart)
  exact ⟨rfl, by simp [SessionStore.empty], by simp [SessionStore.empty], hway, fun n _ => hfree n⟩

/-- **Requests stay inside their own session.** Start with sessions in whose directories no link
lies and let any requests about projects come. Still no link lies there, and the next request only
works in the directory of the session that it names, or does nothing if it names none. A path is
resolved exactly if its session is there and it is not empty, relative, and without two dots; it
goes on from the directory of the session with its names, so that neither resolved paths nor
directories of different sessions ever lead on from each other. -/
theorem requests_stay_inside (s : Service) (home : Place) (first : Scene)
    (hfirst : Tidy s.pipeline home first.workplace) (before : List (Timestamp × Http.Request))
    (hbefore : ∀ q ∈ before, ∃ k : ProjectRequest, q.2.path = k.path) :
    let x := s.answerAll first before
    Tidy s.pipeline home x.workplace ∧
    (∀ now r (k : ProjectRequest), r.path = k.path →
      (∀ id, k.Names s x.sessions r id → StaysInside s home k now r x id) ∧
      ((∀ id, ¬ k.Names s x.sessions r id) → ∀ u,
        s.answer now r (x.withFiles u) = (x.withFiles u, (s.answer now r x).2))) ∧
    (∀ id file, (∃ p, x.sessions.resolve id file = .ok p) ↔
      (∃ y, x.sessions.find? id = some y) ∧ file ≠ "" ∧ (Path.mk file).isAbsolute = false ∧
        .up ∉ (Path.mk file).components) ∧
    (∀ id file p, x.sessions.resolve id file = .ok p → ∃ y, x.sessions.find? id = some y ∧
      Within y.directory p ∧ p.components =
        y.directory.components ++ (Path.mk file).components.filter Component.isNamed) ∧
    (∀ id id' file file' p p', x.sessions.resolve id file = .ok p →
      x.sessions.resolve id' file' = .ok p' → id ≠ id' → ¬ p.components <+: p'.components) ∧
    ∀ id id', id ≠ id' → ¬ home ++ [x.sessions.leaf id] <+: home ++ [x.sessions.leaf id'] := by
  intro x
  have htidy : Tidy s.pipeline home x.workplace := s.tidy_answerAll hbefore hfirst
  refine ⟨htidy, fun now r k hk => ⟨fun id hid => staysInside now hk htidy hid,
    fun hnone u => s.answer_unknown now hk hnone u⟩, fun id file => ?_, fun id file p hp => ?_,
    fun id id' file file' p p' hp hp' hne => ?_, fun id id' hne hpre => ?_⟩
  · constructor
    · rintro ⟨p, hp⟩
      obtain ⟨y, hy, hempty, habs, hup, -⟩ := resolve_eq_ok.mp hp
      exact ⟨⟨y, hy⟩, hempty, habs, hup⟩
    · rintro ⟨⟨y, hy⟩, hempty, habs, hup⟩
      exact ⟨_, resolve_eq_ok.mpr ⟨y, hy, hempty, habs, hup, rfl⟩⟩
  · obtain ⟨n, y, rfl, hy, hdir, habs, hup, rfl⟩ := htidy.of_resolve hp
    exact ⟨y, hy, within_join habs (up_not_mem_steps hup), components_of_resolve hdir habs hup⟩
  · obtain ⟨m, y, rfl, -, hdir, habs, -, rfl⟩ := htidy.of_resolve hp
    obtain ⟨n, y', rfl, -, hdir', habs', -, rfl⟩ := htidy.of_resolve hp'
    rw [hdir, hdir']
    exact not_prefix_of_resolve (fun hmn => hne (congrArg idOf hmn)) habs habs'
  · have hleaf : x.sessions.leaf id = x.sessions.leaf id' := by
      simpa using (List.prefix_append_right_inj _).mp hpre
    exact hne ((String.append_right_inj _).mp hleaf)

/-- A service that starts no commands. -/
def quietService : Service :=
  ⟨.standard, ⟨⟨.standard, ⟨"/c"⟩, 1⟩, ⟨[], ⟨"/tmp"⟩, [], [], fun _ _ => .error .notFound⟩⟩,
    ⟨⟨⟨"/u"⟩, 1⟩, none⟩, fun _ => .ok ""⟩

/-- Two sessions, whose directories are reached by a link. -/
def twoProjects : Scene :=
  ⟨⟨⟨[(["s"], .directory), (["l"], .link "s"), (["s", "p-" ++ idOf 0], .directory),
      (["s", "p-" ++ idOf 0, "a.py"], .file "x = 1\n".toUTF8 defaultMode),
      (["s", "p-" ++ idOf 1], .directory)]⟩, [], 0⟩,
    ⟨⟨"/l"⟩, "p-", [], 2,
      [⟨idOf 0, ⟨"/l/p-" ++ idOf 0⟩, none, none⟩, ⟨idOf 1, ⟨"/l/p-" ++ idOf 1⟩, none, none⟩]⟩⟩

/-- Fixing the file of the first session. -/
def fixFirst : Timestamp × Http.Request :=
  ⟨⟨0, 0⟩, "POST", "/api/v1/analysis/apply-fix", "", [("content-type", "application/json")],
    ("\x7b\"session_id\": \"" ++ idOf 0 ++ "\", \"file_path\": \"./a.py\", \"fix\": \"x = 3\", " ++
      "\"issue\": \x7b\"line\": 1\x7d\x7d").toUTF8⟩

/-- Reading the file of the first session. -/
def readFirst : Http.Request :=
  ⟨"GET", "/api/v1/files", "session_id=" ++ idOf 0 ++ "&path=a.py", [], .empty⟩

theorem tidy_twoProjects : Tidy quietService.pipeline ["s"] twoProjects.workplace := by
  have hlink : ∀ place s, twoProjects.world.files.lookup? place = some (.link s) →
      place = ["l"] := by
    intro place s hs
    unfold lookup? at hs
    split_ifs at hs
    · simp at hs
    · obtain ⟨before, rest, hentries, -⟩ := List.lookup_eq_some_iff.mp hs
      have hmem : (place, Entry.link s) ∈ twoProjects.world.files.entries := by simp [hentries]
      simp [twoProjects] at hmem
      exact hmem.1
  refine ⟨rfl, by decide, by decide, ?_, fun n _ place hp s hs => ?_⟩
  · refine .link (by decide) (by decide) ?_ rfl (.name (by decide) (by decide) ?_ ?_ (.done _))
    · unfold Invoker.Generated; decide +kernel
    · unfold Invoker.Generated; decide +kernel
    · intro s hs
      exact absurd (hlink _ s hs) (by decide)
  · rw [hlink place s hs] at hp
    simp at hp

/-- The fix is made in the directory of the session, and then the file is read there. -/
theorem requests_stay_inside_fixed :
    Tidy quietService.pipeline ["s"] twoProjects.workplace ∧
    (∀ q ∈ [fixFirst], ∃ k : ProjectRequest, q.2.path = k.path) ∧
    ((quietService.answerAll twoProjects [fixFirst]).world.files.readText []
      ⟨"/s/p-" ++ idOf 0 ++ "/a.py"⟩).toOption = some "x = 3\n" ∧
    Tidy quietService.pipeline ["s"] (quietService.answerAll twoProjects [fixFirst]).workplace ∧
    StaysInside quietService ["s"] .read ⟨1, 0⟩ readFirst
      (quietService.answerAll twoProjects [fixFirst]) (idOf 0) := by
  have hbefore : ∀ q ∈ [fixFirst], ∃ k : ProjectRequest, q.2.path = k.path := by
    intro q hq
    exact ⟨.fix, List.mem_singleton.mp hq ▸ rfl⟩
  obtain ⟨htidy, hinside, -⟩ :=
    requests_stay_inside quietService ["s"] twoProjects tidy_twoProjects [fixFirst] hbefore
  have hlive : ((quietService.answerAll twoProjects [fixFirst]).sessions.find? (idOf 0)).isSome ∧
      ((quietService.answerAll twoProjects [fixFirst]).world.files.readText []
        ⟨"/s/p-" ++ idOf 0 ++ "/a.py"⟩).toOption = some "x = 3\n" := by decide +kernel
  have hnames : ProjectRequest.read.Names quietService
      (quietService.answerAll twoProjects [fixFirst]).sessions readFirst (idOf 0) :=
    ⟨by decide +kernel, .inr hlive.1⟩
  exact ⟨tidy_twoProjects, hbefore, hlive.2, htidy,
    (hinside ⟨1, 0⟩ readFirst .read rfl).1 (idOf 0) hnames⟩

end ReviewMentor
