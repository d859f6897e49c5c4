import ReviewMentor.Proofs.Sessions.Registry

/-!
# Room for the next session

All that the beginning of a session needs is that its root is there and that nothing bears its name
yet. The other sessions may be in any state: their directories may be gone, or lie elsewhere. Then a
session either begins in a directory of its own, or everything is as it was.
-/

namespace ReviewMentor

open FileTree Effect SessionStore SessionWork

/-- The root of the sessions is a directory, and nothing bears the name of the next session. -/
structure Vacant (p : Workplace) (home : Place) : Prop where
  found : p.files.find p.sessions.start true p.sessions.root = .ok home
  isDirectory : p.files.lookup? home = some .directory
  noSlash : '/' ∉ p.sessions.namePrefix.toList
  unused : ∀ place, home ++ [p.sessions.namePrefix ++ idOf p.sessions.serial] <+: place →
    p.files.lookup? place = none
  unnamed : ∀ x ∈ p.sessions.live, x.id ≠ idOf p.sessions.serial

namespace Vacant

variable {p : Workplace} {home place : Place} {user : Option String} {data : ByteArray}
  {u : FileTree}

/-- The place of the directory of the next session. -/
def room (p : Workplace) (home : Place) : Place :=
  home ++ [p.sessions.namePrefix ++ idOf p.sessions.serial]

theorem room_ne_nil : room p home ≠ [] := by simp [room]

theorem isName (h : Vacant p home) :
    Path.IsName (p.sessions.namePrefix ++ idOf p.sessions.serial) := by
  have hleaf := p.sessions.isName_leaf p.sessions.serial
  have hcut : Text.cut '/' p.sessions.namePrefix = [p.sessions.namePrefix] :=
    Text.cut_of_not_mem h.noSlash
  simpa [leaf, hcut] using hleaf

/-- A session begins with an empty directory, or does not begin. -/
theorem create_cases (h : Vacant p home) (user : Option String) :
    (Fits p.sessions.root (p.sessions.namePrefix ++ idOf p.sessions.serial) ∧
      outcome (create user) p = .ok (p.sessions.upcoming user) ∧
      after (create user) p = ⟨p.sessions.advanced.joined (p.sessions.upcoming user),
        p.files.set (room p home) .directory⟩) ∨
    (∃ e, outcome (create user) p = .error (.storage e)) ∧
      after (create user) p = ⟨p.sessions.advanced, p.files⟩ := by
  by_cases hfits : Fits p.sessions.root (p.sessions.namePrefix ++ idOf p.sessions.serial)
  · have hmade := makeDirectories_child h.found h.isDirectory h.isName hfits
      (h.unused _ (List.prefix_refl _))
    obtain ⟨houtcome, hafter⟩ := create_ok hmade
    exact .inl ⟨hfits, houtcome, hafter⟩
  · obtain ⟨e, hmade⟩ := makeDirectories_child_error h.found h.isDirectory h.isName hfits
    obtain ⟨houtcome, hafter⟩ := create_error hmade
    exact .inr ⟨⟨e, houtcome⟩, hafter⟩

section Begun

/-! ### In the new directory -/

variable (h : Vacant p home)
  (hfits : Fits p.sessions.root (p.sessions.namePrefix ++ idOf p.sessions.serial))
  (hkeep : ∀ place, ¬ room p home <+: place → u.lookup? place = p.files.lookup? place)
  (hdir : u.lookup? (room p home) = some .directory)

include h

theorem home_beside : ¬ room p home <+: home := fun hbelow => by
  have hnone := h.unused home hbelow
  simp [h.isDirectory] at hnone

include hkeep

theorem extends_of_keep : Extends p.files u := fun place hplace =>
  hkeep place fun hbelow => hplace (h.unused place hbelow)

theorem lookup?_home : u.lookup? home = some .directory := by
  rw [hkeep home h.home_beside, h.isDirectory]

/-- Taking away what came to stand in the new directory leaves the tree as it was. -/
theorem lookup?_drop (place : Place) :
    (u.drop (room p home)).lookup? place = p.files.lookup? place := by
  by_cases hbelow : room p home <+: place
  · have hne : place ≠ [] := by
      rintro rfl
      exact room_ne_nil (List.prefix_nil.mp hbelow)
    rw [lookup?_drop_below hbelow hne, h.unused place hbelow]
  · rw [lookup?_drop_beside hbelow, hkeep place hbelow]

include hfits hdir

theorem find_room (user : Option String) (last : Bool) :
    u.find p.sessions.start last (p.sessions.upcoming user).directory = .ok (room p home) :=
  find_child ((h.extends_of_keep hkeep).find h.found) (h.lookup?_home hkeep) h.isName hfits hdir

theorem removal_room (user : Option String) :
    removal p.sessions.start (p.sessions.upcoming user).directory u =
      .ok (u.drop (room p home)) := by
  have hremove := removeDirectory_child ((h.extends_of_keep hkeep).find h.found)
    (h.lookup?_home hkeep) h.isName hfits hdir
  show removal p.sessions.start
    (p.sessions.root.child (p.sessions.namePrefix ++ idOf p.sessions.serial)) u = _
  rw [removal, hremove]
  rfl

end Begun

theorem find?_joined (h : Vacant p home) (user : Option String) :
    (p.sessions.advanced.joined (p.sessions.upcoming user)).find? (idOf p.sessions.serial) =
      some (p.sessions.upcoming user) := by
  have hnone : p.sessions.live.find? (·.id = idOf p.sessions.serial) = none :=
    List.find?_eq_none.mpr fun x hx => by simpa using h.unnamed x hx
  simp [SessionStore.find?, joined, advanced, upcoming, hnone]

theorem erase_joined (h : Vacant p home) (user : Option String) :
    (p.sessions.advanced.joined (p.sessions.upcoming user)).erase (idOf p.sessions.serial) =
      p.sessions.advanced := by
  simpa [erase, joined, advanced, upcoming, List.filter_append] using h.unnamed

/-! ### The new directory -/

theorem lookup?_made_beside (hplace : ¬ room p home <+: place) :
    (p.files.set (room p home) .directory).lookup? place = p.files.lookup? place := by
  refine lookup?_set_of_ne room_ne_nil ?_
  rintro rfl
  exact hplace (List.prefix_refl _)

section Empty

variable (h : Vacant p home)

include h

theorem lookup?_made_below (hplace : room p home <+: place) (hne : place ≠ room p home) :
    (p.files.set (room p home) .directory).lookup? place = none := by
  rw [lookup?_set_of_ne room_ne_nil hne, h.unused place hplace]

/-- The new directory is empty, so that no link leads out of it. -/
theorem linkFree_made : LinkFree (p.files.set (room p home) .directory) (room p home) := by
  intro place hplace target hlink
  by_cases heq : place = room p home
  · rw [heq, lookup?_set_self room_ne_nil] at hlink
    simp at hlink
  · rw [h.lookup?_made_below hplace heq] at hlink
    simp at hlink

variable (hfits : Fits p.sessions.root (p.sessions.namePrefix ++ idOf p.sessions.serial))

include hfits

theorem find_made (user : Option String) :
    (p.files.set (room p home) .directory).find p.sessions.start true
      (p.sessions.upcoming user).directory = .ok (room p home) :=
  h.find_room hfits (fun _ hp => lookup?_made_beside hp) (lookup?_set_self room_ne_nil) user true

theorem lies_made (user : Option String) : LiesAt (p.files.set (room p home) .directory)
    p.sessions.start (p.sessions.upcoming user).directory (room p home) :=
  ⟨leads_of_find (h.find_made hfits user), h.linkFree_made⟩

end Empty

/-- The files when an archive has been unpacked in the new directory, whatever came of it. -/
def filled (p : Workplace) (home : Place) (user : Option String) (data : ByteArray) : FileTree :=
  after (Zip.extract p.sessions.start (p.sessions.upcoming user).directory data)
    (p.files.set (room p home) .directory)

theorem isDirectory_filled (p : Workplace) (home : Place) (user : Option String)
    (data : ByteArray) : (filled p home user data).lookup? (room p home) = some .directory :=
  Zip.directoriesStay_extract _ _ data _ _ (lookup?_set_self room_ne_nil)

section Filled

variable (h : Vacant p home)
  (hfits : Fits p.sessions.root (p.sessions.namePrefix ++ idOf p.sessions.serial))

include h hfits

theorem lookup?_filled (user : Option String) (data : ByteArray)
    (hplace : ¬ room p home <+: place) :
    (filled p home user data).lookup? place = p.files.lookup? place := by
  have htouched := Zip.keeps_extract p.sessions.start (p.sessions.upcoming user).directory
    (room p home) data _ (h.lies_made hfits user)
  exact (htouched.lookup?_of_find (h.find_made hfits user) hplace).trans
    (lookup?_made_beside hplace)

end Filled

/-- What comes of beginning a session with an archive. -/
theorem createFromArchive_eq (h : Vacant p home) (data : ByteArray) (user : Option String) :
    (Fits p.sessions.root (p.sessions.namePrefix ++ idOf p.sessions.serial) ∧
      (∃ count, outcome (Zip.extract p.sessions.start (p.sessions.upcoming user).directory data)
        (p.files.set (room p home) .directory) = .ok count) ∧
      outcome (createFromArchive data user) p = .ok (p.sessions.upcoming user) ∧
      after (createFromArchive data user) p =
        ⟨p.sessions.advanced.joined (p.sessions.upcoming user), filled p home user data⟩) ∨
    (∃ e, outcome (createFromArchive data user) p = .error e) ∧
      (after (createFromArchive data user) p).sessions = p.sessions.advanced ∧
      ∀ place, (after (createFromArchive data user) p).files.lookup? place =
        p.files.lookup? place := by
  rcases h.create_cases user with ⟨hfits, hcreate, hbegun⟩ | ⟨⟨e, hcreate⟩, hbegun⟩
  · have hunpacked : unpacked (after (create user) p) (p.sessions.upcoming user) data =
        ⟨p.sessions.advanced.joined (p.sessions.upcoming user), filled p home user data⟩ := by
      rw [hbegun]
      rfl
    rcases hextract : outcome (Zip.extract (after (create user) p).sessions.start
        (p.sessions.upcoming user).directory data) (after (create user) p).files with e | count
    · obtain ⟨houtcome, hafter⟩ := createFromArchive_error hcreate hextract
      have hcleaned := cleanup_ok
        (p := ⟨p.sessions.advanced.joined (p.sessions.upcoming user), filled p home user data⟩)
        (h.find?_joined user) (h.removal_room hfits
          (fun _ hplace => h.lookup?_filled hfits user data hplace)
          (isDirectory_filled p home user data) user)
      rw [hunpacked] at hafter
      refine .inr ⟨⟨_, houtcome⟩, ?_, ?_⟩ <;> rw [hafter]
      · show (after (cleanup (idOf p.sessions.serial)) _).sessions = _
        rw [hcleaned.2]
        exact h.erase_joined user
      · show ∀ place, (after (cleanup (idOf p.sessions.serial)) _).files.lookup? place = _
        rw [hcleaned.2]
        exact h.lookup?_drop fun _ hplace => h.lookup?_filled hfits user data hplace
    · obtain ⟨houtcome, hafter⟩ := createFromArchive_ok hcreate hextract
      rw [hbegun] at hextract
      exact .inl ⟨hfits, ⟨count, hextract⟩, houtcome, hafter.trans hunpacked⟩
  · obtain ⟨houtcome, hafter⟩ := createFromArchive_refused data hcreate
    rw [hafter, hbegun]
    exact .inr ⟨⟨_, houtcome⟩, rfl, fun _ => rfl⟩

/-- **A session begins with the files of an archive, or nothing is left of it.** -/
theorem createFromArchive_cases (h : Vacant p home) (data : ByteArray) (user : Option String) :
    (outcome (createFromArchive data user) p = .ok (p.sessions.upcoming user) ∧
      (after (createFromArchive data user) p).sessions.find? (idOf p.sessions.serial) =
        some (p.sessions.upcoming user) ∧
      ∃ place, (after (createFromArchive data user) p).files.find p.sessions.start true
          (p.sessions.upcoming user).directory = .ok place ∧
        (after (createFromArchive data user) p).files.lookup? place = some .directory) ∨
    (∃ e, outcome (createFromArchive data user) p = .error e) ∧
      (after (createFromArchive data user) p).sessions = p.sessions.advanced ∧
      ∀ place, (after (createFromArchive data user) p).files.lookup? place =
        p.files.lookup? place := by
  rcases h.createFromArchive_eq data user with ⟨hfits, -, houtcome, hafter⟩ | hrefused
  · rw [hafter]
    have hdir := isDirectory_filled p home user data
    exact .inl ⟨houtcome, h.find?_joined user, room p home,
      h.find_room hfits (fun _ hplace => h.lookup?_filled hfits user data hplace) hdir user true,
      hdir⟩
  · exact .inr hrefused

end Vacant

end ReviewMentor
