import ReviewMentor.Proofs.Files.Touching
import ReviewMentor.Proofs.Path.Slashed

/-!
# What stands in a directory

A path to a directory with a name after it leads to what stands in the directory under that name,
whatever the directory is reached through. So making and removing a directory under a path like that
does exactly one thing to a tree. A path that is found stays found while things are only added
elsewhere.
-/

namespace ReviewMentor.FileTree

variable {t u v : FileTree} {start place mid : Place} {p : Path} {name : String}
  {content : ByteArray}

/-! ### Going on from a directory -/

/-- Steps that lead to a directory, and more steps after them, are followed one after the other. -/
theorem follow_append {last dir dir' : Bool} {steps more : List String}
    {result : Except FileError Spot} {jump jump' : Place → String → List String →
      Except FileError Spot} (hmid : t.lookup? mid = some .directory) (hmore : more ≠ [])
    (hend : ∀ jump, t.follow last dir' jump mid more = result)
    (hjump : ∀ place target rest, jump place target rest = .ok (.taken mid) →
      jump' place target (rest ++ more) = result)
    (h : t.follow true dir jump place steps = .ok (.taken mid)) :
    t.follow last dir' jump' place (steps ++ more) = result := by
  induction steps generalizing place with
  | nil =>
    obtain rfl := Spot.taken.inj (Except.ok.inj h)
    exact hend jump'
  | cons step rest ih =>
    rw [List.cons_append]
    by_cases hhere : step = "."
    · subst hhere
      rw [follow_here] at h ⊢
      exact ih h
    by_cases hup : step = ".."
    · subst hup
      rw [follow_up] at h ⊢
      exact ih h
    obtain ⟨hstep, hfollowed⟩ := follow_step hhere hup h
    cases hfollowed with
    | enter hdir h =>
      rw [hstep.follow_directory hdir]
      exact ih h
    | file hfile =>
      -- a file is no directory to go on from
      exact absurd (hfile.symm.trans hmid) (by simp)
    | stay _ hlast => exact absurd hlast (by simp)
    | jump hlink _ hj =>
      rw [hstep.follow_link hlink (by simp [hmore])]
      exact hjump place _ rest hj

theorem followLinks_append {last dir' : Bool} {more : List String} {result : Except FileError Spot}
    (hmid : t.lookup? mid = some .directory) (hmore : more ≠ [])
    (hend : ∀ jump, t.follow last dir' jump mid more = result) {budget : Nat} {dir : Bool}
    {steps : List String} (h : t.followLinks true budget dir place steps = .ok (.taken mid)) :
    t.followLinks last budget dir' place (steps ++ more) = result := by
  induction budget generalizing dir place steps with
  | zero =>
    rw [followLinks] at h ⊢
    exact follow_append hmid hmore hend (fun _ _ _ hj => absurd hj (by simp)) h
  | succ budget ih =>
    rw [followLinks] at h ⊢
    refine follow_append hmid hmore hend (fun place target rest hj => ?_) h
    dsimp only at hj ⊢
    split at hj
    · exact absurd hj (by simp)
    · next htarget =>
      have hrest : (rest ++ more).isEmpty = false := by simp [hmore]
      rw [if_neg htarget, hrest, Bool.false_and, Bool.or_false, ← List.append_assoc]
      exact ih hj

/-- A name after a path is not longer than names and paths may be, and holds no NUL. -/
structure Fits (p : Path) (name : String) : Prop where
  noNul : (p.child name).text.toList.any (· = Char.ofNat 0) = false
  pathShort : (p.child name).text.utf8ByteSize < pathLimit
  nameShort : name.utf8ByteSize ≤ longestName

theorem Fits.enters (h : Fits p name) (hname : Path.IsName name) : Enters name :=
  ⟨hname.ne_here, hname.ne_up, h.nameShort⟩

theorem text_child (h : Path.IsName name) :
    (p.child name).text =
      (if p.text = "" || p.endsWithSlash then p.text else p.text ++ "/") ++ name := by
  have habs : (Path.mk name).isAbsolute = false := Path.not_isAbsolute_of_not_mem h.noSlash
  rw [Path.child, Path.join, habs, if_neg (by simp)]
  split <;> simp_all

theorem text_child_ne_empty (hname : Path.IsName name) : (p.child name).text ≠ "" := by
  intro h
  have hparts : (p.child name).parts = p.parts ++ [name] := Path.parts_child hname
  rw [show p.child name = ⟨""⟩ from congrArg Path.mk h, Path.parts_empty] at hparts
  simp at hparts

theorem Passable.locate_child {last : Bool} (h : Passable (p.child name))
    (hname : Path.IsName name) : t.locate start last (p.child name) =
      t.followLinks last linkLimit false (origin start p) (p.parts ++ [name]) := by
  rw [h.locate_eq, Path.endsWithSlash_child hname, Path.parts_child hname, origin, origin,
    Path.isAbsolute_child hname]

theorem Fits.passable (h : Fits p name) (hname : Path.IsName name) : Passable (p.child name) :=
  ⟨noNul_iff.mp h.noNul, text_child_ne_empty hname, h.pathShort⟩

theorem Passable.fits (h : Passable (p.child name)) (hshort : name.utf8ByteSize ≤ longestName) :
    Fits p name :=
  ⟨noNul_iff.mpr h.noNul, h.short, hshort⟩

section Child

variable {last : Bool} (hfind : t.find start true p = .ok mid)
  (hmid : t.lookup? mid = some .directory) (hname : Path.IsName name)

include hfind hmid hname

/-- A path that fits ends as its last step ends in the directory. -/
theorem locate_child {result : Except FileError Spot} (hfits : Fits p name)
    (hend : ∀ jump dir, t.follow last dir jump mid [name] = result) :
    t.locate start last (p.child name) = result := by
  rw [(hfits.passable hname).locate_child hname]
  exact followLinks_append hmid (List.cons_ne_nil name []) (fun jump => hend jump _)
    (locate_ok (find_ok hfind))

theorem locate_child_free (hfits : Fits p name) (hnone : t.lookup? (mid ++ [name]) = none) :
    t.locate start last (p.child name) = .ok (.free mid name) := by
  exact locate_child hfind hmid hname hfits fun _ _ => (hfits.enters hname).follow_free hnone

theorem locate_child_taken (hfits : Fits p name)
    (hdir : t.lookup? (mid ++ [name]) = some .directory) :
    t.locate start last (p.child name) = .ok (.taken (mid ++ [name])) := by
  exact locate_child hfind hmid hname hfits fun _ _ => (hfits.enters hname).follow_directory hdir

/-- A path that does not fit leads nowhere, for a reason that making directories cannot mend. -/
theorem locate_child_error (hfits : ¬ Fits p name) :
    ∃ e, e ≠ .notFound ∧ ∀ last, t.locate start last (p.child name) = .error e := by
  by_cases hpass : Passable (p.child name)
  · have hlong : longestName < name.utf8ByteSize := by
      by_contra hshort
      exact hfits (hpass.fits (Nat.not_lt.mp hshort))
    refine ⟨.nameTooLong, by simp, fun last => ?_⟩
    rw [hpass.locate_child hname]
    exact followLinks_append hmid (List.cons_ne_nil name [])
      (fun _ => follow_long hname.ne_here hname.ne_up hlong) (locate_ok (find_ok hfind))
  · obtain ⟨e, hne, he⟩ := exists_locate_eq_error hpass
    exact ⟨e, hne (text_child_ne_empty hname), he t start⟩

theorem find_child (hfits : Fits p name) (hdir : t.lookup? (mid ++ [name]) = some .directory) :
    t.find start last (p.child name) = .ok (mid ++ [name]) := by
  rw [find, locate_child_taken hfind hmid hname hfits hdir]

/-! ### Making and removing -/

theorem makeDirectories_child (hfits : Fits p name) (hnone : t.lookup? (mid ++ [name]) = none) :
    t.makeDirectories start (p.child name) = (t.set (mid ++ [name]) .directory, .ok ()) := by
  have hmake : t.makeDirectory start (p.child name) = .ok (t.set (mid ++ [name]) .directory) := by
    simp [makeDirectory, locate_child_free hfind hmid hname hfits hnone, bind, Except.bind]
  rw [makeDirectories, makeDirectoriesUpTo, if_neg (text_child_ne_empty hname), hmake]

/-- A directory whose path does not fit is not made, and none on the way to it. -/
theorem makeDirectories_child_error (hfits : ¬ Fits p name) :
    ∃ e, t.makeDirectories start (p.child name) = (t, .error e) := by
  obtain ⟨e, hne, hlocate⟩ := locate_child_error hfind hmid hname hfits
  have hmake : t.makeDirectory start (p.child name) = .error e := by
    simp [makeDirectory, hlocate, bind, Except.bind]
  have hnot : t.isDirectory start (p.child name) = false := by
    simp [isDirectory, entry?, find, hlocate]
  refine ⟨e, ?_⟩
  rw [makeDirectories, makeDirectoriesUpTo, if_neg (text_child_ne_empty hname), hmake]
  cases e <;> simp_all

theorem removeDirectory_child (hfits : Fits p name)
    (hdir : t.lookup? (mid ++ [name]) = some .directory) :
    t.removeDirectory start (p.child name) = .ok (t.drop (mid ++ [name])) := by
  have hne : mid ++ [name] ≠ [] := by simp
  simp [removeDirectory, find_child hfind hmid hname hfits hdir, hdir, bind, Except.bind]

end Child

/-! ### While things are added -/

/-- Whatever stands in a tree also stands in another one. -/
def Extends (t u : FileTree) : Prop :=
  ∀ place, t.lookup? place ≠ none → u.lookup? place = t.lookup? place

/-- Directories and links of a tree stand in another one as well. -/
def WaysStay (t u : FileTree) : Prop :=
  ∀ place e, t.lookup? place = some e → (∀ content mode, e ≠ .file content mode) →
    u.lookup? place = some e

theorem WaysStay.refl (t : FileTree) : WaysStay t t := fun _ _ h _ => h

theorem WaysStay.trans (h : WaysStay t u) (h' : WaysStay u v) : WaysStay t v :=
  fun place e he hfile => h' place e (h place e he hfile) hfile

instance : Std.Refl WaysStay := ⟨WaysStay.refl⟩

instance : IsTrans FileTree WaysStay := ⟨fun _ _ _ h h' => h.trans h'⟩

theorem Extends.waysStay (h : Extends t u) : WaysStay t u :=
  fun place e he _ => (h place (by simp [he])).trans he

namespace WaysStay

variable {q : Place} (h : WaysStay t u)
  (hfile : ∀ content mode, t.lookup? q = some (.file content mode) →
    ∃ content' mode', u.lookup? q = some (.file content' mode'))

include h hfile

theorem follow {last dir : Bool} {steps : List String} {jump jump' : Place → String →
      List String → Except FileError Spot}
    (hjump : ∀ place target rest, jump place target rest = .ok (.taken q) →
      jump' place target rest = .ok (.taken q))
    (hfollow : t.follow last dir jump place steps = .ok (.taken q)) :
    u.follow last dir jump' place steps = .ok (.taken q) := by
  induction steps generalizing place with
  | nil => exact hfollow
  | cons step rest ih =>
    by_cases hhere : step = "."
    · subst hhere
      rw [follow_here] at hfollow ⊢
      exact ih hfollow
    by_cases hup : step = ".."
    · subst hup
      rw [follow_up] at hfollow ⊢
      exact ih hfollow
    obtain ⟨hstep, hfollowed⟩ := follow_step hhere hup hfollow
    cases hfollowed with
    | enter hdir hfollow =>
      rw [hstep.follow_directory (h _ _ hdir (by simp))]
      exact ih hfollow
    | file hentry hplain =>
      -- A file ends the way, so that it is what was found.
      obtain ⟨_, _, hafter⟩ := hfile _ _ hentry
      rw [hplain]
      exact hstep.follow_taken hafter (by simp)
    | stay hlink hlast hplain =>
      rw [hplain]
      exact hstep.follow_taken (h _ _ hlink (by simp)) (by simp [hlast])
    | jump hlink hgoes hj =>
      rw [hstep.follow_link (h _ _ hlink (by simp)) hgoes]
      exact hjump _ _ _ hj

/-- What is found is found again where the ways stay, and a file that was found is still one. -/
theorem find {last : Bool} (hfind : t.find start last p = .ok q) :
    u.find start last p = .ok q := by
  have hlinks : ∀ budget dir place steps,
      t.followLinks last budget dir place steps = .ok (.taken q) →
        u.followLinks last budget dir place steps = .ok (.taken q) := by
    intro budget
    induction budget with
    | zero =>
      intro dir place steps hfollow
      rw [followLinks] at hfollow ⊢
      exact h.follow hfile (fun _ _ _ hj => absurd hj (by simp)) hfollow
    | succ budget ih =>
      intro dir place steps hfollow
      rw [followLinks] at hfollow ⊢
      refine h.follow hfile (fun place target rest hj => ?_) hfollow
      dsimp only at hj ⊢
      split at hj
      · exact absurd hj (by simp)
      · next htarget =>
        rw [if_neg htarget]
        exact ih _ _ _ hj
  have hfound := find_ok hfind
  rw [FileTree.find, (passable_of_locate hfound).locate_eq, hlinks _ _ _ _ (locate_ok hfound)]

end WaysStay

/-- What is found is found again where things were only added. -/
theorem Extends.find {last : Bool} {q : Place} (h : Extends t u)
    (hfind : t.find start last p = .ok q) : u.find start last p = .ok q :=
  h.waysStay.find (fun _ _ he => ⟨_, _, (h q (by simp [he])).trans he⟩) hfind

theorem WayMade.waysStay (h : WayMade start p t u) : WaysStay t u := by
  intro place e he _
  rcases h.kept place with hkeep | ⟨-, hnone, -⟩
  · rw [hkeep, he]
  · simp [hnone] at he

/-- Whatever is a directory stays one. -/
def DirectoriesStay (t u : FileTree) : Prop :=
  ∀ place, t.lookup? place = some .directory → u.lookup? place = some .directory

instance : Std.Refl DirectoriesStay := ⟨fun _ _ h => h⟩

instance : IsTrans FileTree DirectoriesStay := ⟨fun _ _ _ h h' place hp => h' place (h place hp)⟩

theorem directoriesStay_makeDirectories (t : FileTree) (start : Place) (p : Path) :
    DirectoriesStay t (t.makeDirectories start p).1 := by
  intro place hdir
  rcases (wayMade_makeDirectories t start p).kept place with hkeep | ⟨-, -, hmade⟩
  · rw [hkeep, hdir]
  · exact hmade

theorem directoriesStay_writeBytes {content : ByteArray}
    (h : t.writeBytes start p content = .ok u) : DirectoriesStay t u := by
  unfold writeBytes at h
  obtain ⟨spot, hspot, h⟩ := Effect.ok_of_bind h
  intro place hdir
  rcases spot with q | ⟨directory, n⟩
  · dsimp only at h
    split at h
    · next hentry =>
      obtain rfl := Except.ok.inj h
      have hbeside : place ≠ q := by
        rintro rfl
        simp [hdir] at hentry
      have hfile : t.lookup? q ≠ some .directory := by simp [hentry]
      have hne : q ≠ [] := ne_nil_of_lookup?_ne_directory hfile
      rw [lookup?_set_of_ne hne hbeside, hdir]
    · exact absurd h (by simp)
    · exact absurd h (by simp)
  · dsimp only at h
    split at h
    · exact absurd h (by simp)
    · obtain rfl := Except.ok.inj h
      have hnone : t.lookup? (directory ++ [n]) = none := (walk_of_locate hspot).leads_free.2
      have hbeside : place ≠ directory ++ [n] := by
        rintro rfl
        simp [hdir] at hnone
      rw [lookup?_set_of_ne (by simp) hbeside, hdir]

theorem waysStay_writeBytes (h : t.writeBytes start p content = .ok u) : WaysStay t u := by
  intro place e he hfile
  cases e with
  | directory => exact directoriesStay_writeBytes h place he
  | file content mode => exact absurd rfl (hfile content mode)
  | link target => exact (sameLinks_writeBytes h place target).mpr he

end ReviewMentor.FileTree
