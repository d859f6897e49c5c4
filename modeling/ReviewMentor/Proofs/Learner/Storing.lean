import ReviewMentor.Learner.Store
import ReviewMentor.Proofs.Files.Siblings
import ReviewMentor.Proofs.Files.Views

/-!
# Storing profiles

A profile is written beside its file and then moved over it. The name of a learner that is accepted
makes names of files, and where the longer one of the two can be written the other one fits as well.
So moving a written profile only fails where a directory bears the name of the file, and an update
that fails leaves every stored profile as it is.
-/

namespace ReviewMentor

open FileTree Effect

/-! ### Names of files -/

namespace ProfileStore

/-- The name of the file of a learner. -/
def fileName (user : String) : String := user ++ ".json"

/-- The name of the file in which the profile of a learner is written. -/
def stagingName (s : ProfileStore) (user : String) : String :=
  user ++ "." ++ toString s.writer ++ ".tmp"

variable {s : ProfileStore} {user other : String} {c : Char}

theorem fileOf_eq (s : ProfileStore) (user : String) :
    s.fileOf user = s.directory.child (fileName user) := rfl

theorem stagingOf_eq (s : ProfileStore) (user : String) :
    s.stagingOf user = s.directory.child (s.stagingName user) := rfl

theorem isUserChar_of_mem (h : isUser user = true) (hc : c ∈ user.toList) :
    isUserChar c = true := by
  simp only [isUser, Bool.and_eq_true, List.all_eq_true] at h
  exact h.2 c hc

theorem not_mem_of_isUser (h : isUser user = true) (hc : isUserChar c = false) :
    c ∉ user.toList := fun hmem => by
  simp [isUserChar_of_mem h hmem] at hc

theorem isName_append {name suffix : String} (hname : '/' ∉ name.toList)
    (hsuffix : '/' ∉ suffix.toList) (hlong : 2 < suffix.toList.length) :
    Path.IsName (name ++ suffix) := by
  have hlength : 2 < (name ++ suffix).toList.length := by
    rw [String.toList_append, List.length_append]
    omega
  refine ⟨?_, ?_, ?_, ?_⟩
  · intro h
    simp [h] at hlength
  · intro h
    simp [h] at hlength
  · intro h
    simp [h] at hlength
  · rw [String.toList_append, List.mem_append]
    exact fun h => h.elim hname hsuffix

theorem isName_fileName (h : isUser user = true) : Path.IsName (fileName user) :=
  isName_append (not_mem_of_isUser h (by decide)) (by decide) (by decide)

theorem not_mem_toString_of_not_isDigit (n : Nat) (hc : c.isDigit = false) :
    c ∉ (toString n).toList := by
  rw [Nat.toString_eq_ofList_toDigits, String.toList_ofList]
  intro hmem
  simp [Nat.isDigit_of_mem_toDigits (by decide) (by decide) hmem] at hc

theorem isName_stagingName (s : ProfileStore) (h : isUser user = true) :
    Path.IsName (s.stagingName user) := by
  refine isName_append ?_ (by decide) (by decide)
  simp only [String.toList_append, List.mem_append, not_or]
  exact ⟨⟨not_mem_of_isUser h (by decide), by decide⟩,
    not_mem_toString_of_not_isDigit _ (by decide)⟩

/-- The file of a learner bears no name under which profiles are written. -/
theorem fileName_ne_stagingName (s : ProfileStore) (user other : String) :
    fileName user ≠ s.stagingName other := by
  intro h
  have hlast := congrArg (fun name => name.toList.getLast?) h
  rw [fileName, stagingName] at hlast
  simp only [String.toList_append] at hlast
  rw [List.getLast?_append_of_ne_nil _ (by decide), List.getLast?_append_of_ne_nil _ (by decide)]
    at hlast
  exact absurd hlast (by decide)

theorem fileName_injective (h : fileName user = fileName other) : user = other :=
  (String.append_left_inj _).mp h

/-! ### Lengths -/

theorem size_fileName_le (s : ProfileStore) (user : String) :
    (fileName user).utf8ByteSize ≤ (s.stagingName user).utf8ByteSize := by
  have hjson : ".json".utf8ByteSize = 5 := by decide
  have htmp : ".tmp".utf8ByteSize = 4 := by decide
  have hdot : ".".utf8ByteSize = 1 := by decide
  simp only [fileName, stagingName, String.utf8ByteSize_append]
  omega

/-- The name of a file fits where the longer name fits under which the file is written. -/
theorem fits_fileName (h : isUser user = true) (hfits : Fits s.directory (s.stagingName user)) :
    Fits s.directory (fileName user) := by
  have hsize := s.size_fileName_le user
  have hshort := hfits.pathShort
  have hnul := hfits.noNul
  rw [text_child (s.isName_stagingName h)] at hshort hnul
  refine ⟨?_, ?_, hsize.trans hfits.nameShort⟩ <;> rw [text_child (isName_fileName h)]
  · rw [String.toList_append, List.any_append, Bool.or_eq_false_iff] at hnul ⊢
    refine ⟨hnul.1, ?_⟩
    rw [fileName, String.toList_append, List.any_append, Bool.or_eq_false_iff, List.any_eq_false]
    refine ⟨fun c hc hzero => ?_, by decide⟩
    obtain rfl : c = Char.ofNat 0 := by simpa using hzero
    exact not_mem_of_isUser h (by decide) hc
  · rw [String.utf8ByteSize_append] at hshort ⊢
    omega

/-! ### Reading -/

variable {start : Place} {t u : FileTree} {p : Profile} {e : ProfileError} {place : Place}
  {content : ByteArray}

theorem checkUser_ok : checkUser user = .ok () ↔ isUser user = true := by
  unfold checkUser
  split <;> simp_all

theorem isUser_of_get (h : s.get start user t = .ok p) : isUser user = true := by
  obtain ⟨⟨⟩, hcheck, -⟩ := ok_of_bind h
  exact checkUser_ok.mp hcheck

/-- What a store returns is the profile of the learner that was asked for. -/
theorem user_of_get (h : s.get start user t = .ok p) : p.user = user := by
  obtain ⟨-, -, hread⟩ := ok_of_bind h
  split at hread
  · exact (Except.ok.inj hread) ▸ rfl
  · exact absurd hread (by simp)
  · split at hread
    · exact (Except.ok.inj hread) ▸ rfl
    · exact absurd hread (by simp)

/-- A directory that bears the name of a file is no profile. -/
theorem get_ne_ok_of_directory (hfind : t.find start true (s.fileOf user) = .ok place)
    (hdir : t.lookup? place = some .directory) : s.get start user t ≠ .ok p := by
  intro h
  obtain ⟨-, -, hread⟩ := ok_of_bind h
  have hbytes : t.readText start (s.fileOf user) = .error (some .isDirectory) := by
    simp [readText, readBytes, hfind, hdir, bind, Except.bind]
  simp [hbytes] at hread

/-! ### Writing -/

/-- Where a profile was written, moving it only fails because a directory bears the name of its
file. -/
theorem rename_error {text : String} {cause : FileError} (huser : isUser user = true)
    (hwrite : t.writeText start (s.stagingOf user) text = .ok u)
    (hrename : u.rename start (s.stagingOf user) (s.fileOf user) = .error cause) :
    ∃ place, t.find start true (s.fileOf user) = .ok place ∧
      t.lookup? place = some .directory := by
  have hstaging := s.isName_stagingName huser
  have hfile := isName_fileName huser
  have hwrite' : t.writeBytes start (s.stagingOf user) text.toUTF8 = .ok u := hwrite
  have hways := waysStay_writeBytes hwrite'
  obtain ⟨spot, hspot, -⟩ := ok_of_bind hwrite'
  obtain ⟨mid, -, hfits, hholds⟩ := holds_of_locate hstaging hspot
  have hfits' := fits_fileName huser hfits
  obtain ⟨e, hentry, hnodir⟩ :=
    (hholds t (.refl t)).exists_of_writeBytes hstaging hfits hwrite'
  have hdir : u.lookup? (mid ++ [fileName user]) = some .directory := by
    by_contra hfree
    have hmoved :=
      (hholds u hways).rename_ok hstaging hfits hfile hfits' hentry hnodir hfree
    rw [stagingOf_eq, fileOf_eq, hmoved] at hrename
    exact absurd hrename (by simp)
  -- The write left a file where it wrote, so the directory was there before.
  obtain ⟨written, mode, -, -, hwritten, hkeep⟩ := writeBytes_ok hwrite'
  have hbeside : mid ++ [fileName user] ≠ written := by
    rintro rfl
    simp [hwritten] at hdir
  rw [hkeep _ hbeside] at hdir
  refine ⟨mid ++ [fileName user], ?_, hdir⟩
  rw [find, fileOf_eq, (hholds t (.refl t)).locate_taken hfile hfits' true hdir (by simp)]

/-! ### The steps of storing -/

/-- A failure on the disk. -/
def failed (e : FileError) : ProfileError := .storage (some e)

/-- Making the directory of the profiles. -/
def makeRoom (s : ProfileStore) (start : Place) : Disk ProfileError Unit :=
  Disk.of fun t => let (t, r) := t.makeDirectories start s.directory; (t, r.mapError failed)

/-- Writing a profile beside its file. -/
def writeBeside (s : ProfileStore) (start : Place) (p : Profile) : Disk ProfileError Unit :=
  Disk.change fun t => (t.writeText start (s.stagingOf p.user) p.toJson.pretty).mapError failed

/-- Moving the profile that was written over the file of its learner. -/
def moveOver (s : ProfileStore) (start : Place) (user : String) : Disk ProfileError Unit :=
  Disk.change fun t => (t.rename start (s.stagingOf user) (s.fileOf user)).mapError failed

theorem save_eq (s : ProfileStore) (start : Place) (p : Profile) : s.save start p =
    (do
      Disk.ask fun _ => checkUser p.user
      s.makeRoom start
      s.writeBeside start p
      s.moveOver start p.user) := rfl

theorem wayMade_makeRoom (s : ProfileStore) (start : Place) (t : FileTree) :
    WayMade start s.directory t (after (s.makeRoom start) t) :=
  wayMade_makeDirectories t start s.directory

theorem failsOnly_makeRoom (s : ProfileStore) (start : Place) :
    FailsOnly (fun e => ∃ cause, e = failed cause) (s.makeRoom start) := by
  intro t e h
  change (t.makeDirectories start s.directory).2.mapError failed = .error e at h
  rcases hmade : (t.makeDirectories start s.directory).2 with cause | _
  · rw [hmade] at h
    exact ⟨cause, (Except.error.inj h).symm⟩
  · simp [hmade, Except.mapError] at h

/-- A step that changes the tree or fails on the disk. -/
theorem change_cases (f : FileTree → Except FileError FileTree) (t : FileTree) :
    (∃ u, f t = .ok u ∧ after (Disk.change fun t => (f t).mapError failed) t = u ∧
      outcome (Disk.change fun t => (f t).mapError failed) t = .ok ()) ∨
    ∃ cause, f t = .error cause ∧ after (Disk.change fun t => (f t).mapError failed) t = t ∧
      outcome (Disk.change fun t => (f t).mapError failed) t = .error (failed cause) := by
  rcases hf : f t with cause | u
  · refine .inr ⟨cause, rfl, Disk.change_error ?_⟩
    rw [hf]
    rfl
  · refine .inl ⟨u, rfl, Disk.change_ok ?_⟩
    rw [hf]
    rfl

/-- Storing that fails made directories at most, or wrote the profile beside its file as well. -/
theorem save_error (huser : isUser p.user = true) (h : outcome (s.save start p) t = .error e) :
    (∃ cause, e = failed cause) ∧
    (WayMade start s.directory t (after (s.save start p) t) ∨
      ∃ v cause, WayMade start s.directory t v ∧
        v.writeText start (s.stagingOf p.user) p.toJson.pretty =
          .ok (after (s.save start p) t) ∧
        (after (s.save start p) t).rename start (s.stagingOf p.user) (s.fileOf p.user) =
          .error cause) := by
  have hcheck : outcome (Disk.ask fun _ => checkUser p.user) t = .ok () :=
    checkUser_ok.mpr huser
  have hsame : after (Disk.ask fun _ => checkUser p.user) t = t := rfl
  have hway := s.wayMade_makeRoom start t
  rw [save_eq] at h ⊢
  rw [outcome_bind_ok hcheck, hsame] at h
  rw [after_bind_ok hcheck, hsame]
  rcases hroom : outcome (s.makeRoom start) t with e' | ⟨⟩
  · rw [outcome_bind_error hroom] at h
    rw [after_bind_error hroom]
    obtain rfl := Except.error.inj h
    exact ⟨s.failsOnly_makeRoom start t _ hroom, .inl hway⟩
  rw [outcome_bind_ok hroom] at h
  rw [after_bind_ok hroom]
  generalize after (s.makeRoom start) t = v at h hway ⊢
  rcases change_cases (fun t => t.writeText start (s.stagingOf p.user) p.toJson.pretty) v with
    ⟨w, hwrite, hafter, hwritten⟩ | ⟨cause, -, hafter, hwritten⟩
  · rw [outcome_bind_ok (w := s.writeBeside start p) hwritten] at h
    rw [after_bind_ok (w := s.writeBeside start p) hwritten]
    change outcome (s.moveOver start p.user) (after (s.writeBeside start p) v) = _ at h
    change after (s.writeBeside start p) v = w at hafter
    rw [hafter] at h ⊢
    rcases change_cases (fun t => t.rename start (s.stagingOf p.user) (s.fileOf p.user)) w with
      ⟨x, -, -, hmoved⟩ | ⟨cause, hrename, hleft, hmoved⟩
    · exact absurd (hmoved.symm.trans h) (by simp)
    · change after (s.moveOver start p.user) w = w at hleft
      rw [hleft]
      refine ⟨⟨cause, (Except.error.inj (hmoved.symm.trans h)).symm⟩, .inr ?_⟩
      exact ⟨v, cause, hway, hwrite, hrename⟩
  · rw [outcome_bind_error (w := s.writeBeside start p) hwritten] at h
    rw [after_bind_error (w := s.writeBeside start p) hwritten]
    change after (s.writeBeside start p) v = v at hafter
    rw [hafter]
    exact ⟨⟨cause, (Except.error.inj h).symm⟩, .inl hway⟩

/-! ### Updates -/

/-- What an update that failed has left of a tree: directories were made on the way to the profiles,
or a profile was written beside its file as well and could not be moved over it. -/
inductive Unstored (s : ProfileStore) (start : Place) (user : String) (t u : FileTree) : Prop
  | room : WayMade start s.directory t u → Unstored s start user t u
  | beside (v : FileTree) (text : String) (cause : FileError) :
      isUser user = true → WayMade start s.directory t v →
      v.writeText start (s.stagingOf user) text = .ok u →
      u.rename start (s.stagingOf user) (s.fileOf user) = .error cause →
      Unstored s start user t u

/-- An update fails because the profile cannot be read, and changes nothing, or because it cannot be
stored. -/
theorem update_error {change : Profile → Profile} (hchange : ∀ p, (change p).user = p.user)
    (h : outcome (s.update start user change) t = .error e) :
    (s.get start user t = .error e ∧ after (s.update start user change) t = t) ∨
    (∃ p, s.get start user t = .ok p) ∧ (∃ cause, e = failed cause) ∧
      Unstored s start user t (after (s.update start user change) t) := by
  unfold update at h ⊢
  rcases hget : s.get start user t with e' | p
  · have hask : outcome (Disk.ask (s.get start user)) t = .error e' := hget
    rw [outcome_bind_error hask] at h
    rw [after_bind_error hask]
    exact .inl ⟨congrArg _ (Except.error.inj h), rfl⟩
  · have hask : outcome (Disk.ask (s.get start user)) t = .ok p := hget
    have hsame : after (Disk.ask (s.get start user)) t = t := rfl
    have huser : isUser user = true := isUser_of_get hget
    have hname : (change p).user = user := (hchange p).trans (user_of_get hget)
    rw [outcome_bind_ok hask, hsame] at h
    rw [after_bind_ok hask, hsame]
    dsimp only at h ⊢
    rw [after_bind_pure]
    have hsave : outcome (s.save start (change p)) t = .error e := by
      rcases hsaved : outcome (s.save start (change p)) t with e' | ⟨⟩
      · rw [outcome_bind_error hsaved] at h
        exact congrArg _ (Except.error.inj h)
      · rw [outcome_bind_ok hsaved] at h
        exact absurd h (by simp)
    obtain ⟨hcause, hleft⟩ := save_error (hname.symm ▸ huser) hsave
    rw [hname] at hleft
    refine .inr ⟨⟨p, rfl⟩, hcause, ?_⟩
    rcases hleft with hway | ⟨v, cause, hway, hwrite, hrename⟩
    · exact .room hway
    · exact .beside v _ cause huser hway hwrite hrename

/-- Where a profile is stored, its directory is there, and making it changes nothing. -/
theorem lookup?_of_wayMade (hother : isUser other = true)
    (hread : t.readBytes start (s.fileOf other) = .ok content)
    (hway : WayMade start s.directory t u) (place : Place) : u.lookup? place = t.lookup? place := by
  obtain ⟨found, hfind, -⟩ := ok_of_bind hread
  have hwalk := walk_of_locate (find_ok hfind)
  have horigin : origin start (s.fileOf other) = origin start s.directory := by
    rw [origin, origin, fileOf_eq, Path.isAbsolute_child (isName_fileName hother)]
  rw [horigin, fileOf_eq, Path.parts_child (isName_fileName hother)] at hwalk
  rcases hway.kept place with hkeep | ⟨hpass, hnone, -⟩
  · exact hkeep
  · exact absurd hnone (hwalk.lookup?_ne_none hpass.append)

/-- **Where a profile is stored, an update that fails changes nothing at all.** -/
theorem lookup?_of_unstored (hother : isUser other = true)
    (hread : t.readBytes start (s.fileOf other) = .ok content) (hget : s.get start user t = .ok p)
    (h : Unstored s start user t u) (place : Place) : u.lookup? place = t.lookup? place := by
  rcases h with hway | ⟨v, text, cause, huser, hway, hwrite, hrename⟩
  · exact lookup?_of_wayMade hother hread hway place
  · -- A directory would bear the name of the file, and the profile could not have been read.
    obtain ⟨found, hfind, hdir⟩ := rename_error huser hwrite hrename
    have hsame := lookup?_of_wayMade hother hread hway
    have hextends : Extends v t := fun place _ => (hsame place).symm
    rw [hsame found] at hdir
    exact absurd hget (get_ne_ok_of_directory (hextends.find hfind) hdir)

end ProfileStore

/-- Edits leave the name of the learner. -/
theorem Profile.user_edit (p : Profile) (edit : ProfileEdit) : (p.edit edit).user = p.user := by
  cases edit <;> simp only [Profile.edit, recordIssue, takeQuiz, addPoints]
  all_goals unfold adjust; split <;> rfl

end ReviewMentor
