import ReviewMentor.Proofs.Sessions.Housing

/-!
# The registry and the disk

What is done with a store keeps its sessions housed, whatever comes of it.
-/

namespace ReviewMentor

open FileTree Effect SessionStore

namespace SessionStore

/-- The session that begins next. -/
def upcoming (s : SessionStore) (user : Option String) : Session :=
  ⟨idOf s.serial, s.directoryPath (idOf s.serial), user, none⟩

/-- The store whose next session has another name. -/
def advanced (s : SessionStore) : SessionStore := { s with serial := s.serial + 1 }

/-- The store with one more session. -/
def joined (s : SessionStore) (x : Session) : SessionStore := { s with live := s.live ++ [x] }

end SessionStore

namespace SessionWork

variable {user : Option String} {id : String} {p : Workplace} {u : FileTree} {x : Session}
  {data : ByteArray}

/-! ### One piece of work -/

theorem outcome_onFiles {ε α : Type} (account : ε → SessionError) (w : Disk ε α) :
    outcome (onFiles account w) p = (outcome w p.files).mapError account := rfl

theorem after_onFiles {ε α : Type} (account : ε → SessionError) (w : Disk ε α) :
    after (onFiles account w) p = { p with files := after w p.files } := rfl

/-- Making the directory of the next session. -/
def makeRoom (s : SessionStore) : SessionWork Unit :=
  onFiles .storage (Disk.of fun t =>
    t.makeDirectories s.start (s.root.child (s.namePrefix ++ idOf s.serial)))

theorem outcome_makeRoom (s : SessionStore) : outcome (makeRoom s) p =
    (p.files.makeDirectories s.start (s.directoryPath (idOf s.serial))).2.mapError .storage := by
  rw [makeRoom, outcome_onFiles, Disk.outcome_of, directoryPath]

theorem after_makeRoom (s : SessionStore) : after (makeRoom s) p =
    { p with files :=
      (p.files.makeDirectories s.start (s.directoryPath (idOf s.serial))).1 } := by
  rw [makeRoom, after_onFiles, Disk.after_of, directoryPath]

theorem create_ok (h : p.files.makeDirectories p.sessions.start
      (p.sessions.directoryPath (idOf p.sessions.serial)) = (u, .ok ())) :
    outcome (create user) p = .ok (p.sessions.upcoming user) ∧
      after (create user) p = ⟨p.sessions.advanced.joined (p.sessions.upcoming user), u⟩ := by
  have hroom : outcome (makeRoom p.sessions) ⟨p.sessions.advanced, p.files⟩ = .ok () := by
    rw [outcome_makeRoom, h]
    rfl
  have hleft : after (makeRoom p.sessions) ⟨p.sessions.advanced, p.files⟩ =
      ⟨p.sessions.advanced, u⟩ := by
    rw [after_makeRoom, h]
  unfold makeRoom at hroom hleft
  unfold advanced at hroom hleft
  unfold create
  rw [outcome_get_bind, after_get_bind]
  dsimp only
  rw [outcome_modify_bind, after_modify_bind, outcome_bind_ok hroom, after_bind_ok hroom, hleft,
    outcome_modify_bind, after_modify_bind, outcome_pure, after_pure]
  exact ⟨rfl, rfl⟩

theorem create_error {e : FileError} (h : p.files.makeDirectories p.sessions.start
      (p.sessions.directoryPath (idOf p.sessions.serial)) = (u, .error e)) :
    outcome (create user) p = .error (.storage e) ∧
      after (create user) p = ⟨p.sessions.advanced, u⟩ := by
  have hroom : outcome (makeRoom p.sessions) ⟨p.sessions.advanced, p.files⟩ =
      .error (.storage e) := by
    rw [outcome_makeRoom, h]
    rfl
  have hleft : after (makeRoom p.sessions) ⟨p.sessions.advanced, p.files⟩ =
      ⟨p.sessions.advanced, u⟩ := by
    rw [after_makeRoom, h]
  unfold makeRoom at hroom hleft
  unfold advanced at hroom hleft
  unfold create
  rw [outcome_get_bind, after_get_bind]
  dsimp only
  rw [outcome_modify_bind, after_modify_bind, outcome_bind_error hroom, after_bind_error hroom,
    hleft]
  exact ⟨rfl, rfl⟩

theorem outcome_find_unknown (h : p.sessions.find? id = none) :
    outcome (ask (·.find id)) p = .error (.notFound id) := by
  rw [outcome_ask, SessionStore.find, h]

theorem outcome_find (h : p.sessions.find? id = some x) :
    outcome (ask (·.find id)) p = .ok x := by
  rw [outcome_ask, SessionStore.find, h]

theorem cleanup_unknown (h : p.sessions.find? id = none) :
    outcome (cleanup id) p = .error (.notFound id) ∧ after (cleanup id) p = p := by
  have hfind := outcome_find_unknown h
  unfold cleanup
  rw [outcome_bind_error hfind, after_bind_error hfind]
  exact ⟨rfl, rfl⟩

theorem removeDirectory_ok (h : removal p.sessions.start x.directory p.files = .ok u) :
    outcome (removeDirectory x.directory) p = .ok () ∧
      after (removeDirectory x.directory) p = { p with files := u } := by
  obtain ⟨hafter, houtcome⟩ := Disk.change_ok h
  have hwork : removeDirectory x.directory = (get >>= fun q : Workplace =>
      onFiles .storage (Disk.change (removal q.sessions.start x.directory))) := rfl
  rw [hwork, outcome_get_bind, after_get_bind, outcome_onFiles, after_onFiles, houtcome, hafter]
  exact ⟨rfl, rfl⟩

theorem cleanup_ok (hx : p.sessions.find? id = some x)
    (h : removal p.sessions.start x.directory p.files = .ok u) :
    outcome (cleanup id) p = .ok () ∧ after (cleanup id) p = ⟨p.sessions.erase id, u⟩ := by
  have hfind := outcome_find hx
  obtain ⟨houtcome, hafter⟩ :=
    removeDirectory_ok (p := ⟨p.sessions.erase id, p.files⟩) (x := x) h
  unfold cleanup
  rw [outcome_bind_ok hfind, after_bind_ok hfind]
  exact ⟨houtcome, hafter⟩

/-- What is left of unpacking an archive in the directory of a session. -/
def unpacked (p : Workplace) (x : Session) (data : ByteArray) : Workplace :=
  { p with files := after (Zip.extract p.sessions.start x.directory data) p.files }

theorem createFromArchive_refused {e : SessionError} (data : ByteArray)
    (h : outcome (create user) p = .error e) :
    outcome (createFromArchive data user) p = .error e ∧
      after (createFromArchive data user) p = after (create user) p := by
  unfold createFromArchive
  rw [outcome_bind_error h, after_bind_error h]
  exact ⟨rfl, rfl⟩

theorem createFromArchive_ok {count : Nat} (h : outcome (create user) p = .ok x)
    (hextract : outcome (Zip.extract (after (create user) p).sessions.start x.directory data)
      (after (create user) p).files = .ok count) :
    outcome (createFromArchive data user) p = .ok x ∧
      after (createFromArchive data user) p = unpacked (after (create user) p) x data := by
  unfold createFromArchive
  rw [outcome_bind_ok h, after_bind_ok h]
  generalize after (create user) p = q at hextract ⊢
  rw [outcome_get_bind, after_get_bind]
  dsimp only
  rw [outcome_get_bind, after_get_bind, Disk.run_eq, hextract]
  dsimp only
  rw [outcome_set_bind, after_set_bind]
  exact ⟨rfl, rfl⟩

/-- An archive that cannot be unpacked takes its session with it. -/
theorem createFromArchive_error {e : ArchiveError} (h : outcome (create user) p = .ok x)
    (hextract : outcome (Zip.extract (after (create user) p).sessions.start x.directory data)
      (after (create user) p).files = .error e) :
    outcome (createFromArchive data user) p = .error (.archive e) ∧
      after (createFromArchive data user) p =
        after (cleanup x.id) (unpacked (after (create user) p) x data) := by
  unfold createFromArchive
  rw [outcome_bind_ok h, after_bind_ok h]
  generalize after (create user) p = q at hextract ⊢
  rw [outcome_get_bind, after_get_bind]
  dsimp only
  rw [outcome_get_bind, after_get_bind, Disk.run_eq, hextract]
  dsimp only
  rw [outcome_set_bind, after_set_bind, outcome_get_bind, after_get_bind, outcome_set_bind,
    after_set_bind]
  exact ⟨rfl, rfl⟩

end SessionWork

/-! ### Sessions stay housed -/

/-- A store at a site, whose live sessions are housed and have numbers that were given away. -/
structure Registered (g : Site) (p : Workplace) : Prop where
  root : p.sessions.root = g.root
  namePrefix : p.sessions.namePrefix = g.namePrefix
  start : p.sessions.start = g.start
  used : ∀ x ∈ p.sessions.live, ∃ n < p.sessions.serial, x.id = idOf n
  housed : Housed g p.sessions.live p.files

namespace Registered

open SessionWork

variable {g : Site} {p : Workplace} {user : Option String} {id : String} {x y : Session}
  {data : ByteArray} {n : Nat}

theorem opening (g : Site) : Registered g g.opening :=
  ⟨rfl, rfl, rfl, fun _ hx => absurd hx List.not_mem_nil, .empty g⟩

theorem directoryPath_eq (h : Registered g p) (id : String) :
    p.sessions.directoryPath id = g.pathOf id := by
  rw [directoryPath, h.root, h.namePrefix]
  rfl

theorem id_ne_idOf (h : Registered g p) (hn : p.sessions.serial ≤ n) :
    ∀ y ∈ p.sessions.live, y.id ≠ idOf n := by
  intro y hy heq
  obtain ⟨k, hk, hid⟩ := h.used y hy
  have hkn : k = n := idOf_injective (hid.symm.trans heq)
  omega

theorem find?_eq_some (h : Registered g p) (hx : x ∈ p.sessions.live) :
    p.sessions.find? x.id = some x := by
  rcases hfind : p.sessions.find? x.id with _ | y
  · have hnone := List.find?_eq_none.mp hfind x hx
    simp at hnone
  · obtain ⟨hy, hid⟩ := mem_of_find? hfind
    rw [h.housed.eq_of_id hy hx hid]

/-! #### Beginning -/

theorem advance (h : Registered g p) : Registered g ⟨p.sessions.advanced, p.files⟩ := by
  refine ⟨h.root, h.namePrefix, h.start, fun x hx => ?_, h.housed⟩
  obtain ⟨n, hn, hid⟩ := h.used x hx
  exact ⟨n, Nat.lt_succ_of_lt hn, hid⟩

/-- A session whose directory can be made begins with an empty one. -/
theorem create_of_fits (h : Registered g p)
    (hfits : Fits g.root (g.namePrefix ++ idOf p.sessions.serial)) (user : Option String) :
    outcome (create user) p = .ok (p.sessions.upcoming user) ∧
      after (create user) p = ⟨p.sessions.advanced.joined (p.sessions.upcoming user),
        p.files.set (g.placeOf (idOf p.sessions.serial)) .directory⟩ ∧
      Registered g (after (create user) p) := by
  have hname := g.isName p.sessions.serial
  have hfresh := h.id_ne_idOf (Nat.le_refl p.sessions.serial)
  have hpath := h.directoryPath_eq (idOf p.sessions.serial)
  have hnone : p.files.lookup? (g.placeOf (idOf p.sessions.serial)) = none :=
    h.housed.lookup?_unused hfresh (List.prefix_refl _)
  have hmade := makeDirectories_child h.housed.find_root h.housed.lookup?_home hname hfits hnone
  rw [← Site.pathOf, ← hpath, ← h.start] at hmade
  obtain ⟨houtcome, hafter⟩ := create_ok hmade
  refine ⟨houtcome, hafter, ?_⟩
  rw [hafter]
  refine ⟨h.root, h.namePrefix, h.start, fun y hy => ?_, ?_⟩
  · rcases List.mem_append.mp hy with hy | hy
    · exact h.advance.used y hy
    · exact ⟨p.sessions.serial, Nat.lt_succ_self _, List.mem_singleton.mp hy ▸ rfl⟩
  · exact h.housed.join rfl hfresh hpath hfits

/-- A session begins with an empty directory, or does not begin. -/
theorem create_cases (h : Registered g p) (user : Option String) :
    (outcome (create user) p = .ok (p.sessions.upcoming user) ∧
      after (create user) p = ⟨p.sessions.advanced.joined (p.sessions.upcoming user),
        p.files.set (g.placeOf (idOf p.sessions.serial)) .directory⟩ ∧
      Registered g (after (create user) p)) ∨
    (∃ e, outcome (create user) p = .error (.storage e)) ∧
      after (create user) p = ⟨p.sessions.advanced, p.files⟩ := by
  by_cases hfits : Fits g.root (g.namePrefix ++ idOf p.sessions.serial)
  · exact .inl (h.create_of_fits hfits user)
  · have hname := g.isName p.sessions.serial
    obtain ⟨e, hmade⟩ :=
      makeDirectories_child_error h.housed.find_root h.housed.lookup?_home hname hfits
    rw [← Site.pathOf, ← h.directoryPath_eq, ← h.start] at hmade
    obtain ⟨houtcome, hafter⟩ := create_error hmade
    exact .inr ⟨⟨e, houtcome⟩, hafter⟩

/-! #### Ending -/

theorem erase_joined (h : Registered g p) (user : Option String) :
    (p.sessions.advanced.joined (p.sessions.upcoming user)).erase (idOf p.sessions.serial) =
      p.sessions.advanced := by
  have hfresh := h.id_ne_idOf (Nat.le_refl p.sessions.serial)
  simpa [erase, joined, advanced, upcoming, List.filter_append] using hfresh

/-- A session that is removed leaves its directory empty of everything. -/
theorem cleanup_known (h : Registered g p) (hx : x ∈ p.sessions.live) :
    outcome (cleanup x.id) p = .ok () ∧
      after (cleanup x.id) p = ⟨p.sessions.erase x.id, p.files.drop (g.placeOf x.id)⟩ ∧
      Registered g (after (cleanup x.id) p) := by
  obtain ⟨houtcome, hafter⟩ := cleanup_ok (h.find?_eq_some hx) (h.start ▸ h.housed.removal_eq hx)
  refine ⟨houtcome, hafter, ?_⟩
  rw [hafter]
  exact ⟨h.root, h.namePrefix, h.start, fun y hy => h.used y (List.mem_filter.mp hy).1,
    h.housed.drop hx⟩

/-! #### Unpacking -/

/-- Unpacking an archive in an empty directory of a session changes nothing elsewhere. -/
theorem unpack (h : Registered g p) (hx : x ∈ p.sessions.live)
    (hempty : LinkFree p.files (g.placeOf x.id)) (data : ByteArray) :
    Registered g (unpacked p x data) ∧ ∀ place, ¬ g.placeOf x.id <+: place →
      (unpacked p x data).files.lookup? place = p.files.lookup? place := by
  have hfind : p.files.find p.sessions.start true x.directory = .ok (g.placeOf x.id) :=
    h.start ▸ h.housed.find hx true
  have htouched : Touched p.sessions.start x.directory (g.placeOf x.id) p.files
      (unpacked p x data).files :=
    Zip.keeps_extract _ _ _ data p.files ⟨leads_of_find hfind, hempty⟩
  have hkeep : ∀ place, ¬ g.placeOf x.id <+: place →
      (unpacked p x data).files.lookup? place = p.files.lookup? place := fun place hp =>
    htouched.lookup?_of_find hfind hp
  have hdir : (unpacked p x data).files.lookup? (g.placeOf x.id) = some .directory :=
    Zip.directoriesStay_extract _ _ data p.files _ (h.housed.directories x hx)
  exact ⟨⟨h.root, h.namePrefix, h.start, h.used, h.housed.inside hx hdir hkeep⟩, hkeep⟩

/-- A session begins with the files of an archive, or nothing is left of it. -/
theorem createFromArchive_cases (h : Registered g p) (data : ByteArray) (user : Option String) :
    Registered g (after (createFromArchive data user) p) ∧
    ((outcome (createFromArchive data user) p = .ok (p.sessions.upcoming user) ∧
      (after (createFromArchive data user) p).sessions =
        p.sessions.advanced.joined (p.sessions.upcoming user) ∧
      ∀ place, ¬ g.placeOf (idOf p.sessions.serial) <+: place →
        (after (createFromArchive data user) p).files.lookup? place = p.files.lookup? place) ∨
    (∃ e, outcome (createFromArchive data user) p = .error e) ∧
      (after (createFromArchive data user) p).sessions = p.sessions.advanced ∧
      ∀ place, (after (createFromArchive data user) p).files.lookup? place =
        p.files.lookup? place) := by
  have hfresh := h.id_ne_idOf (Nat.le_refl p.sessions.serial)
  rcases h.create_cases user with ⟨hcreate, hbegun, hnew⟩ | ⟨⟨e, hcreate⟩, hbegun⟩
  · have hx : p.sessions.upcoming user ∈ (after (create user) p).sessions.live := by
      rw [hbegun]
      exact List.mem_append_right _ (List.mem_singleton_self _)
    have hset : ∀ place, ¬ g.placeOf (idOf p.sessions.serial) <+: place →
        (after (create user) p).files.lookup? place = p.files.lookup? place := by
      intro place hp
      rw [hbegun]
      refine lookup?_set_of_ne Site.placeOf_ne_nil ?_
      rintro rfl
      exact hp (List.prefix_refl _)
    have hempty : LinkFree (after (create user) p).files (g.placeOf (idOf p.sessions.serial)) := by
      rw [hbegun]
      exact h.housed.linkFree_unused hfresh
    obtain ⟨hunpacked, hkeep⟩ := hnew.unpack hx hempty data
    have hsame := fun place hp => (hkeep place hp).trans (hset place hp)
    rcases hextract : outcome (Zip.extract (after (create user) p).sessions.start
        (p.sessions.upcoming user).directory data) (after (create user) p).files with e | count
    · -- the half-built session is removed again
      obtain ⟨houtcome, hafter⟩ := createFromArchive_error hcreate hextract
      obtain ⟨-, hremoved, hleft⟩ := hunpacked.cleanup_known (x := p.sessions.upcoming user) hx
      refine ⟨hafter ▸ hleft, .inr ⟨⟨_, houtcome⟩, ?_, ?_⟩⟩ <;> rw [hafter, hremoved]
      · show (after (create user) p).sessions.erase (idOf p.sessions.serial) = _
        rw [hbegun]
        exact h.erase_joined user
      · exact h.housed.lookup?_drop_unused hfresh hsame
    · obtain ⟨houtcome, hafter⟩ := createFromArchive_ok hcreate hextract
      rw [hafter]
      refine ⟨hunpacked, .inl ⟨houtcome, ?_, hsame⟩⟩
      show (after (create user) p).sessions = _
      rw [hbegun]
  · obtain ⟨houtcome, hafter⟩ := createFromArchive_refused data hcreate
    rw [hafter, hbegun]
    exact ⟨h.advance, .inr ⟨⟨_, houtcome⟩, rfl, fun _ => rfl⟩⟩

/-- Where a session can begin, an upload fails just as its archive cannot be unpacked. -/
theorem outcome_createFromArchive (h : Registered g p)
    (hfits : Fits g.root (g.namePrefix ++ idOf p.sessions.serial)) (data : ByteArray)
    (user : Option String) : outcome (createFromArchive data user) p =
      match outcome (Zip.extract g.start (g.pathOf (idOf p.sessions.serial)) data)
          (p.files.set (g.placeOf (idOf p.sessions.serial)) .directory) with
      | .ok _ => .ok (p.sessions.upcoming user)
      | .error e => .error (.archive e) := by
  obtain ⟨hcreate, hbegun, -⟩ := h.create_of_fits hfits user
  have hextract : outcome (Zip.extract (after (create user) p).sessions.start
      (p.sessions.upcoming user).directory data) (after (create user) p).files =
      outcome (Zip.extract g.start (g.pathOf (idOf p.sessions.serial)) data)
        (p.files.set (g.placeOf (idOf p.sessions.serial)) .directory) := by
    have hdirectory : (p.sessions.upcoming user).directory = g.pathOf (idOf p.sessions.serial) :=
      h.directoryPath_eq _
    have hstart : (after (create user) p).sessions.start = g.start := by
      rw [hbegun]
      exact h.start
    rw [hdirectory, hstart, hbegun]
  rw [← hextract]
  split
  · next hunpacked => exact (createFromArchive_ok hcreate hunpacked).1
  · next hunpacked => exact (createFromArchive_error hcreate hunpacked).1

end Registered

end ReviewMentor
