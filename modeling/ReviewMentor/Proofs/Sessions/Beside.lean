import ReviewMentor.Proofs.Sessions.Tidy

/-!
# Work for one session

Work for one session is run beside the same work in a workplace that looks the same from the
directory of the session. It comes to the same, so that what files elsewhere hold plays no part in
it, and its changes are those that are made for the session.
-/

namespace ReviewMentor

open FileTree Effect SessionStore

variable {looks : Prop} {l : Pipeline} {home d : Place} {target : Path} {n : Nat} {p p' : Workplace}
  {t u : FileTree}

/-! ### What a session sees -/

/-- Programs that are started in a directory see no more of a tree than can be seen from there. -/
def Machine.LooksIn (m : Machine) (d : Place) : Prop :=
  ∀ t u call, call.directory = d → SameView d t u → m.execute u call = m.execute t call

/-- Two trees that look the same from a directory, and are the same unless `looks` says that this is
enough for the programs that are started there. -/
structure Alike (looks : Prop) (d : Place) (t u : FileTree) : Prop where
  view : SameView d t u
  same : u = t ∨ looks

namespace Alike

variable {looks : Prop}

/-- Work that looks the same to both trees leaves them alike. -/
theorem step {ε α : Type} {w : Disk ε α} (h : Alike looks d t u)
    (hview : SameView d (after w t) (after w u)) : Alike looks d (after w t) (after w u) :=
  ⟨hview, h.same.imp_left fun e => by rw [e]⟩

theorem execute {m : Machine} {call : Call} (h : Alike looks d t u) (hlooks : looks → m.LooksIn d)
    (hcall : call.directory = d) : m.execute u call = m.execute t call := by
  rcases h.same with rfl | hl
  · rfl
  · exact hlooks hl t u call hcall h.view

end Alike

/-- Two workplaces with the same sessions, between which work for one of them cannot tell. -/
structure Beside (looks : Prop) (l : Pipeline) (home : Place) (n : Nat) (target : Path) (d : Place)
    (p p' : Workplace) : Prop where
  scope : Scoped l home n target d p
  files : Alike looks d p.files p'.files
  sessions : p'.sessions = p.sessions

/-- What changes in a workplace, seen at its files. -/
def Moves (l : Pipeline) (target : Path) (d : Place) (p q : Workplace) : Prop :=
  Changes l target d p.files q.files

instance : Std.Refl (Moves l target d) := ⟨fun p => refl_of (Changes l target d) p.files⟩

instance : IsTrans Workplace (Moves l target d) :=
  ⟨fun _ _ _ h h' => trans_of (Changes l target d) h h'⟩

namespace SessionWork

variable {ε α : Type}

/-- Work on files as work on the sessions beside them. -/
theorem agree_onFiles {w : Disk ε α} {account : ε → SessionError}
    (h : Beside looks l home n target d p p')
    (hchange : Changes l target d p.files (after w p.files))
    (hseen : outcome w p'.files = outcome w p.files ∧
      SameView d (after w p.files) (after w p'.files)) :
    Agree (Beside looks l home n target d) (Moves l target d) p p'
      (ExceptT.run (SessionWork.onFiles account w))
      (ExceptT.run (SessionWork.onFiles account w)) := by
  refine .of_outcome ?_ ⟨h.scope.changed hchange, h.files.step hseen.2, h.sessions⟩ hchange
  show (outcome w p'.files).mapError account = (outcome w p.files).mapError account
  rw [hseen.1]

theorem agree_ask {f : SessionStore → Except SessionError α}
    (h : Beside looks l home n target d p p') :
    Agree (Beside looks l home n target d) (Moves l target d) p p'
      (ExceptT.run (SessionWork.ask f)) (ExceptT.run (SessionWork.ask f)) := by
  refine .of_outcome ?_ h (refl_of _ p)
  rw [outcome_ask, outcome_ask, h.sessions]

/-- Work on the store that leaves the sessions tidy. -/
theorem agree_modify {f : SessionStore → SessionStore} (h : Beside looks l home n target d p p')
    (hscope : Scoped l home n target d ⟨f p.sessions, p.files⟩) :
    Agree (Beside looks l home n target d) (Moves l target d) p p'
      (ExceptT.run (modify fun p => { p with sessions := f p.sessions } : SessionWork PUnit))
      (ExceptT.run (modify fun p => { p with sessions := f p.sessions } : SessionWork PUnit)) :=
  .modifyE ⟨hscope, h.files, congrArg f h.sessions⟩ (refl_of (Changes l target d) p.files)

variable {user : Option String}

theorem outcome_create {x : Session} (h : outcome (create user) p = .ok x) :
    x.id = idOf p.sessions.serial ∧ x.directory = p.sessions.directoryPath x.id := by
  unfold create at h
  obtain ⟨q, hq, h⟩ := bind_ok h
  obtain rfl : p = q := Except.ok.inj hq
  obtain ⟨_, -, h⟩ := bind_ok h
  obtain ⟨_, -, h⟩ := bind_ok h
  obtain ⟨_, -, h⟩ := bind_ok h
  obtain rfl := Except.ok.inj h
  exact ⟨rfl, rfl⟩

/-- Making the directory of a session. -/
theorem agree_makeDirectory (h : Beside looks l home n target d p p') :
    Agree (Beside looks l home n target d) (Moves l target d) p p'
      (ExceptT.run (SessionWork.onFiles .storage
        (Disk.of fun t => t.makeDirectories l.machine.cwd target)))
      (ExceptT.run (SessionWork.onFiles .storage
        (Disk.of fun t => t.makeDirectories l.machine.cwd target))) := by
  refine agree_onFiles h (.inside ?_) (Disk.respects_makeDirectories _ _ _ _ h.files.view)
  exact (wayMade_makeDirectories p.files _ target).touched h.scope.lies (.refl target)

theorem agree_create (h : Beside looks l home n target d p p') (hn : p.sessions.serial = n) :
    Agree (Beside looks l home n target d) (Moves l target d) p p'
      (ExceptT.run (create user)) (ExceptT.run (create user)) := by
  unfold create
  refine .getE_bind ?_
  rw [h.sessions]
  dsimp only
  have hpath : p.sessions.root.child (p.sessions.namePrefix ++ idOf p.sessions.serial) =
      target := by
    rw [hn]
    exact h.scope.path
  rw [hpath, h.scope.tidy.start, hn]
  refine Agree.bindE (agree_modify (f := fun s => { s with serial := n + 1 }) h
    (h.scope.begun hn)) ?_
  rintro - q q' - rfl hq
  refine Agree.bindE (agree_makeDirectory hq) ?_
  rintro - r r' - rfl hr
  refine Agree.bindE (agree_modify (f := fun s => { s with live := s.live ++ [_] }) hr
    (hr.scope.joined (Nat.lt_succ_self n) rfl rfl)) ?_
  exact fun _ _ _ _ _ hr => .pureE _ hr

/-- Removing a directory if it is there. -/
def removal (start : Place) (p : Path) (t : FileTree) : Except FileError FileTree :=
  match t.removeDirectory start p with
  | .error .notFound => .ok t
  | other => other

theorem removal_ok {start : Place} {q : Path} (h : removal start q t = .ok u) :
    u = t ∨ t.removeDirectory start q = .ok u := by
  unfold removal at h
  split at h
  · exact .inl (Except.ok.inj h).symm
  · exact .inr h

theorem removal_seenFrom {start : Place} {q : Path} :
    (removal start q (t.seenFrom d)).map (seenFrom d) = (removal start q t).map (seenFrom d) := by
  unfold removal
  rw [removeDirectory_seenFrom]
  rcases t.removeDirectory start q with e | u
  · cases e <;> simp [Except.map, seenFrom_seenFrom]
  · simp [Except.map, seenFrom_seenFrom]

/-- Taking the directory of a session away. -/
theorem agree_removeDirectory (h : Beside looks l home n target d p p') :
    Agree (Beside looks l home n target d) (Moves l target d) p p'
      (ExceptT.run (removeDirectory target)) (ExceptT.run (removeDirectory target)) := by
  unfold removeDirectory
  refine .getE_bind ?_
  rw [h.sessions, h.scope.tidy.start]
  refine agree_onFiles (w := Disk.change (removal l.machine.cwd target)) h ?_
    (Disk.respects_change (fun _ => removal_seenFrom) _ _ h.files.view)
  rcases hremoved : removal l.machine.cwd target p.files with e | u
  · rw [(Disk.change_error hremoved).1]
    exact refl_of _ _
  · rw [(Disk.change_ok hremoved).1]
    rcases removal_ok hremoved with rfl | hremoved
    · exact refl_of _ _
    · obtain ⟨place, hfind, hne, rfl⟩ := removeDirectory_ok hremoved
      obtain rfl := h.scope.eq_of_find hfind
      exact .inside (touched_drop h.scope.linkFree hne)

theorem agree_cleanup (h : Beside looks l home n target d p p') :
    Agree (Beside looks l home n target d) (Moves l target d) p p'
      (ExceptT.run (cleanup (idOf n))) (ExceptT.run (cleanup (idOf n))) := by
  unfold cleanup
  refine Agree.bindE (agree_ask h) ?_
  rintro x q q' hx rfl hq
  have hdir : x.directory = target := h.scope.directory_of_find (find_eq_ok.mp hx)
  refine Agree.bindE (agree_modify (f := fun s => s.erase (idOf n)) hq (hq.scope.erased _)) ?_
  rintro - r r' - - hr
  rw [hdir]
  exact agree_removeDirectory hr

/-- Unpacking an archive into the directory of a session. -/
theorem agree_extract (data : ByteArray) (h : Beside looks l home n target d p p') :
    outcome (Zip.extract l.machine.cwd target data) p'.files =
        outcome (Zip.extract l.machine.cwd target data) p.files ∧
      Beside looks l home n target d
        { p with files := after (Zip.extract l.machine.cwd target data) p.files }
        { p' with files := after (Zip.extract l.machine.cwd target data) p'.files } ∧
      Changes l target d p.files (after (Zip.extract l.machine.cwd target data) p.files) := by
  obtain ⟨houtcome, hview⟩ :=
    Zip.respects_extract l.machine.cwd target data p.files p'.files h.files.view
  have hchange : Changes l target d p.files
      (after (Zip.extract l.machine.cwd target data) p.files) :=
    .inside (Zip.keeps_extract _ target d data p.files h.scope.lies)
  exact ⟨houtcome, ⟨h.scope.changed hchange, h.files.step hview, h.sessions⟩, hchange⟩

theorem agree_createFromArchive (data : ByteArray) (h : Beside looks l home n target d p p')
    (hn : p.sessions.serial = n) :
    Agree (Beside looks l home n target d) (Moves l target d) p p'
      (ExceptT.run (createFromArchive data user)) (ExceptT.run (createFromArchive data user)) := by
  unfold createFromArchive
  refine Agree.bindE (agree_create h hn) ?_
  rintro x q q' hx - hq
  obtain ⟨hid, hdir⟩ := outcome_create hx
  rw [hn] at hid
  rw [hid, h.scope.path] at hdir
  refine .getE_bind (.getE_bind ?_)
  rw [hq.sessions, hq.scope.tidy.start, hdir, hid]
  obtain ⟨houtcome, halike, hmoves⟩ := agree_extract data hq
  rw [hq.sessions] at halike
  simp only [Disk.run_eq, houtcome]
  refine Agree.bindE (.setE halike hmoves) ?_
  rintro - r r' - - hr
  split
  · exact .pureE x hr
  · next e _ =>
    refine .getE_bind (Agree.bindE (.setE (agree_cleanup hr).alike (agree_cleanup hr).moves) ?_)
    exact fun _ _ _ _ _ hq => .throwE _ hq

theorem outcome_createFromArchive {data : ByteArray} {x : Session}
    (h : outcome (createFromArchive data user) p = .ok x) :
    x.id = idOf p.sessions.serial ∧ x.directory = p.sessions.directoryPath x.id := by
  unfold createFromArchive at h
  obtain ⟨y, hy, h⟩ := bind_ok h
  obtain ⟨q, _, h⟩ := bind_ok h
  obtain ⟨q', _, h⟩ := bind_ok h
  simp only [Disk.run_eq] at h
  obtain ⟨_, _, h⟩ := bind_ok h
  rcases hextract : outcome (Zip.extract q.sessions.start y.directory data) q'.files with e | count
  · simp only [hextract] at h
    obtain ⟨_, _, h⟩ := bind_ok h
    obtain ⟨_, _, h⟩ := bind_ok h
    exact absurd h (by simp)
  · simp only [hextract] at h
    obtain rfl := Except.ok.inj h
    exact outcome_create hy

/-! ### Reviews -/

theorem agree_attach (id : String) (r : Review) (h : Beside looks l home n target d p p') :
    Agree (Beside looks l home n target d) (Moves l target d) p p'
      (ExceptT.run (attach id r)) (ExceptT.run (attach id r)) := by
  unfold attach
  refine Agree.bindE (agree_ask h) ?_
  rintro - q q' - - hq
  exact agree_modify (f := fun s => s.setResult id r) hq (hq.scope.setResult id r)

theorem agree_update (id : String) (change : Review → Review)
    (h : Beside looks l home n target d p p') :
    Agree (Beside looks l home n target d) (Moves l target d) p p'
      (ExceptT.run (update id change)) (ExceptT.run (update id change)) := by
  unfold update
  refine Agree.bindE (agree_ask h) ?_
  rintro x q q' - - hq
  split
  · exact .pureE _ hq
  · exact Agree.bindE (agree_attach id _ hq) fun _ _ _ _ _ hr => .pureE _ hr

end SessionWork

/-- Recording a new look at a file of any session. -/
theorem Service.agree_record (session file : String) (level : Level) (report : Report)
    (h : Beside looks l home n target d p p') :
    Agree (Beside looks l home n target d) (Moves l target d) p p'
      (ExceptT.run (Service.record session file level report))
      (ExceptT.run (Service.record session file level report)) := by
  unfold Service.record
  split
  · exact Agree.bindE (SessionWork.agree_update session _ h) fun _ _ _ _ _ hq => .pureE _ hq
  · refine Agree.bindE (SessionWork.agree_ask h) ?_
    intro _ _ _ _ _ hq
    exact .pureE _ hq

end ReviewMentor
