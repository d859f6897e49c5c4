import ReviewMentor.Proofs.Files.Siblings
import ReviewMentor.Proofs.Files.Sound

/-!
# Making room

Nothing is found below a directory that is missing, and nothing is found there when it was made,
because a new directory is empty. So whoever looks for a file below a path whose directories are
being made does not notice it, as long as the path does not climb. And a directory that is there
already is not made, so that its files are looked up in it, whatever else comes and goes.
-/

namespace ReviewMentor

/-- No part of a path climbs, and none is longer than names may be. -/
def Path.Descends (p : Path) : Prop :=
  ∀ part ∈ p.parts, part ≠ ".." ∧ part.utf8ByteSize ≤ FileTree.longestName

namespace FileTree

variable {t u v : FileTree} {start place d mid : Place} {p q : Path} {n name : String}
  {last last' dir dir' : Bool} {steps more : List String} {result : Except FileError Spot}

/-! ### Beyond a free name -/

/-- Steps that end at a free name, and more steps after them, go on with that name from its
directory, also where things were added. -/
theorem follow_beyond {jump jump' : Place → String → List String → Except FileError Spot}
    (hext : Extends t v) (hmore : more ≠ [])
    (hend : ∀ jump, v.follow last dir' jump d (n :: more) = result)
    (hjump : ∀ place target rest, jump place target rest = .ok (.free d n) →
      jump' place target (rest ++ more) = result)
    (h : t.follow last' dir jump place steps = .ok (.free d n)) :
    v.follow last dir' jump' place (steps ++ more) = result := by
  induction steps generalizing place with
  | nil => exact absurd h (by simp [follow_nil])
  | cons step rest ih =>
    rw [List.cons_append]
    by_cases hhere : step = "."
    · subst hhere
      rw [follow_here] at h ⊢
      exact ih h
    by_cases hup : step = ".."
    · subst hup
      rw [follow_up] at h ⊢
      exact ih h
    obtain ⟨hstep, hfollowed⟩ := follow_step hhere hup h
    cases hfollowed with
    | free => exact hend jump'
    | enter hdir hfollow =>
      rw [hstep.follow_directory ((hext _ (by simp [hdir])).trans hdir)]
      exact ih hfollow
    | jump hlink _ hj =>
      rw [hstep.follow_link ((hext _ (by simp [hlink])).trans hlink) (by simp [hmore])]
      exact hjump place _ rest hj

theorem followLinks_beyond (hext : Extends t v) (hmore : more ≠ [])
    (hend : ∀ jump, v.follow last dir' jump d (n :: more) = result) {budget : Nat}
    (h : t.followLinks last' budget dir place steps = .ok (.free d n)) :
    v.followLinks last budget dir' place (steps ++ more) = result := by
  induction budget generalizing dir place steps with
  | zero =>
    rw [followLinks] at h ⊢
    exact follow_beyond hext hmore hend (fun _ _ _ hj => absurd hj (by simp)) h
  | succ budget ih =>
    rw [followLinks] at h ⊢
    refine follow_beyond hext hmore hend (fun place target rest hj => ?_) h
    dsimp only at hj ⊢
    split at hj
    · exact absurd hj (by simp)
    · next htarget =>
      have hrest : (rest ++ more).isEmpty = false := by simp [hmore]
      rw [if_neg htarget, hrest, Bool.false_and, Bool.or_false, ← List.append_assoc]
      exact ih hj

/-- Nothing stands where a spot is looked for. -/
def Lost (result : Except FileError Spot) : Prop :=
  result = .error .notFound ∨ ∃ d n, result = .ok (.free d n)

/-- Steps that do not climb find nothing in a directory where nothing stands. -/
theorem exists_lost (hempty : ∀ more, more ≠ [] → v.lookup? (place ++ more) = none)
    (hsteps : ∀ step ∈ steps, step ≠ ".." ∧ step.utf8ByteSize ≤ longestName)
    (hname : Path.IsName name) (hshort : name.utf8ByteSize ≤ longestName) :
    ∃ result, Lost result ∧ ∀ jump, v.follow last dir jump place (steps ++ [name]) = result := by
  have hnone (step : String) : v.lookup? (place ++ [step]) = none := hempty [step] (by simp)
  induction steps with
  | nil =>
    have hstep : Enters name := ⟨hname.ne_here, hname.ne_up, hshort⟩
    exact ⟨_, .inr ⟨place, name, rfl⟩, fun jump => hstep.follow_free (hnone name)⟩
  | cons step rest ih =>
    obtain ⟨⟨hup, hlong⟩, hrest⟩ := List.forall_mem_cons.mp hsteps
    by_cases hhere : step = "."
    · subst hhere
      obtain ⟨result, hlost, hfollow⟩ := ih hrest
      exact ⟨result, hlost, fun jump => follow_here.trans (hfollow jump)⟩
    · have hstep : Enters step := ⟨hhere, hup, hlong⟩
      exact ⟨_, .inl rfl, fun jump => hstep.follow_missing (hnone step) (by simp)⟩

/-! ### Making a directory -/

/-- Nothing is found under a path, before and after, and for the same reason. -/
def Barren (start : Place) (p : Path) (t u : FileTree) : Prop :=
  ∀ name, Path.IsName name → name.utf8ByteSize ≤ longestName → ∀ last,
    ∃ e, t.find start last (p.child name) = .error e ∧ u.find start last (p.child name) = .error e

theorem Barren.trans (h : Barren start p t u) (h' : Barren start p u v) : Barren start p t v := by
  intro name hname hshort last
  obtain ⟨e, hbefore, hmid⟩ := h name hname hshort last
  obtain ⟨e', hmid', hafter⟩ := h' name hname hshort last
  obtain rfl := Except.error.inj (hmid.symm.trans hmid')
  exact ⟨e, hbefore, hafter⟩

theorem find_of_lost {p : Path} (h : Lost (t.locate start last p)) :
    t.find start last p = .error .notFound := by
  rcases h with h | ⟨d, n, h⟩ <;> rw [find, h]

/-- A name that does not fit is not found, whatever the tree is. -/
theorem locate_not_fits (hshort : name.utf8ByteSize ≤ longestName) (hfits : ¬ Fits p name) :
    ∃ e, ∀ t : FileTree, ∀ last, t.locate start last (p.child name) = .error e := by
  have hpass : ¬ Passable (p.child name) := fun hpass => hfits (hpass.fits hshort)
  obtain ⟨e, -, he⟩ := exists_locate_eq_error hpass
  exact ⟨e, fun t => he t start⟩

/-- A name after steps that go on from a free name is not found, and neither is it when a directory
was made there. -/
theorem barren_of_free (hext : Extends t v) (hparts : p.parts = steps ++ more)
    (hp : p.Descends) (hn : Storable n)
    (hbelow : ∀ more, more ≠ [] → v.lookup? (d ++ [n] ++ more) = none)
    (hv : v.lookup? (d ++ [n]) = none ∨ v.lookup? (d ++ [n]) = some .directory)
    (hspot : t.followLinks false linkLimit dir (origin start p) steps = .ok (.free d n))
    (hname : Path.IsName name) (hshort : name.utf8ByteSize ≤ longestName) (hfits : Fits p name)
    (last : Bool) : v.find start last (p.child name) = .error .notFound := by
  obtain ⟨result, hlost, hend⟩ : ∃ result, Lost result ∧
      ∀ jump, v.follow last false jump d (n :: (more ++ [name])) = result := by
    rcases hv with hv | hv
    · exact ⟨_, .inl rfl, fun jump => hn.enters.follow_missing hv (by simp)⟩
    · have hmore (step : String) (hstep : step ∈ more) :=
        hp step (hparts ▸ List.mem_append_right _ hstep)
      obtain ⟨result, hlost, hend⟩ : ∃ result, Lost result ∧
          ∀ jump, v.follow last false jump (d ++ [n]) (more ++ [name]) = result :=
        exists_lost hbelow hmore hname hshort
      exact ⟨result, hlost, fun jump => (hn.enters.follow_directory hv).trans (hend jump)⟩
  refine find_of_lost ?_
  rw [(hfits.passable hname).locate_child hname, hparts, List.append_assoc]
  exact (followLinks_beyond hext (by simp) hend hspot).symm ▸ hlost

theorem barren_makeDirectory (h : Standing start t) (hp : p.Descends) (hq : q.parts <+: p.parts)
    (habs : q.isAbsolute = p.isAbsolute) (hmade : t.makeDirectory start q = .ok u) :
    Barren start p t u := by
  intro name hname hshort last
  by_cases hfits : Fits p name
  swap
  · obtain ⟨e, he⟩ := locate_not_fits hshort hfits
    exact ⟨e, by rw [find, he], by rw [find, he]⟩
  obtain ⟨more, hparts⟩ := hq
  obtain ⟨spot, hspot, hset⟩ := Effect.ok_of_bind hmade
  rcases spot with taken | ⟨d, n⟩
  · exact absurd hset (by simp)
  obtain rfl := Except.ok.inj hset
  obtain ⟨hdir, hn, hnone⟩ := h.free hspot
  have hfollow := locate_ok hspot
  have horigin : origin start q = origin start p := by rw [origin, origin, habs]
  rw [horigin] at hfollow
  have hbelow : ∀ more, more ≠ [] → t.lookup? (d ++ [n] ++ more) = none :=
    fun more hmore => h.sound.lookup?_below hmore (by simp [hnone])
  refine ⟨.notFound, ?_, ?_⟩
  · exact barren_of_free (fun _ _ => rfl) hparts.symm hp hn hbelow (.inl hnone) hfollow hname
      hshort hfits last
  · refine barren_of_free (fun place hplace => ?_) hparts.symm hp hn (fun more hmore => ?_)
      (.inr (lookup?_set_self (by simp))) hfollow hname hshort hfits last
    · refine lookup?_set_of_ne (by simp) ?_
      rintro rfl
      exact hplace hnone
    · rw [lookup?_set_of_ne (by simp) (by simpa using hmore), hbelow more hmore]

/-- **Making the directories of a path that does not climb makes nothing to be found there.** -/
theorem barren_makeDirectoriesUpTo (h : Standing start t) (hp : p.Descends)
    (hq : q.parts <+: p.parts) (habs : q.isAbsolute = p.isAbsolute) (depth : Nat) :
    (makeDirectoriesUpTo depth t start q).1 = t ∨
      Barren start p t (makeDirectoriesUpTo depth t start q).1 := by
  induction depth generalizing t q with
  | zero => exact .inl rfl
  | succ depth ih =>
    rw [makeDirectoriesUpTo]
    split
    · exact .inl rfl
    split
    · next u hu => exact .inr (barren_makeDirectory h hp hq habs hu)
    · split
      · exact .inl rfl
      · next parent hparent =>
        obtain ⟨hparts, habs'⟩ := Path.parts_parent? hparent
        have hbefore := ih h (hparts.trans hq) (habs'.trans habs)
        have hstanding := h.makeDirectoriesUpTo depth parent
        split
        · next hmade => rwa [hmade] at hbefore
        · next u hmade =>
          rw [hmade] at hbefore hstanding
          split
          · next w hw =>
            have hafter := barren_makeDirectory hstanding hp hq habs hw
            rcases hbefore with rfl | hbefore
            · exact .inr hafter
            · exact .inr (hbefore.trans hafter)
          · split <;> exact hbefore
    · split <;> exact .inl rfl

theorem barren_makeDirectories (h : Standing start t) (hp : p.Descends) :
    (t.makeDirectories start p).1 = t ∨ Barren start p t (t.makeDirectories start p).1 :=
  barren_makeDirectoriesUpTo h hp List.prefix_rfl rfl _

/-! ### Directories that are there -/

/-- A path leads to a directory; the empty one leads to where one is. -/
def IsThere (start : Place) (p : Path) (t : FileTree) : Prop :=
  p.text = "" ∨ t.isDirectory start p = true

theorem isDirectory_iff : t.isDirectory start p = true ↔
    ∃ mid, t.find start true p = .ok mid ∧ t.lookup? mid = some .directory := by
  unfold isDirectory entry?
  rcases t.find start true p with e | mid
  · simp
  · simp only [Except.ok.injEq, exists_eq_left']
    split <;> simp_all

theorem IsThere.waysStay (h : IsThere start p t) (hways : WaysStay t u) : IsThere start p u := by
  refine h.imp_right fun hdir => ?_
  obtain ⟨mid, hfind, hmid⟩ := isDirectory_iff.mp hdir
  exact isDirectory_iff.mpr ⟨mid, hways.find (by simp [hmid]) hfind, hways mid _ hmid (by simp)⟩

/-- Names after a path that leads to a directory are looked up there, also when files have come and
gone. -/
theorem IsThere.exists_holds (h : IsThere start p t) (hstart : t.lookup? start = some .directory) :
    ∃ mid, t.lookup? mid = some .directory ∧ ∀ u, WaysStay t u → Holds u start p mid := by
  obtain ⟨mid, hmid, hfollow⟩ : ∃ mid, t.lookup? mid = some .directory ∧
      ∀ u, WaysStay t u → ∀ last name result, Path.IsName name →
        (∀ jump, u.follow last false jump mid [name] = result) →
        u.followLinks last linkLimit false (origin start p) (p.parts ++ [name]) = result := by
    rcases h with hempty | hdir
    · obtain rfl : p = ⟨""⟩ := congrArg Path.mk hempty
      refine ⟨start, hstart, fun u _ last name result _ hend => ?_⟩
      rw [Path.parts_empty, List.nil_append, show linkLimit = 39 + 1 from rfl, followLinks]
      exact hend _
    · obtain ⟨mid, hfind, hmid⟩ := isDirectory_iff.mp hdir
      refine ⟨mid, hmid, fun u hways last name result _ hend => ?_⟩
      exact followLinks_append (hways mid _ hmid (by simp)) (List.cons_ne_nil name []) hend
        (locate_ok (find_ok (hways.find (by simp [hmid]) hfind)))
  refine ⟨mid, hmid, fun u hways last name result hname hfits hend => ?_⟩
  rw [(hfits.passable hname).locate_child hname]
  exact hfollow u hways last name result hname hend

/-- Making a directory that is there makes nothing. -/
theorem IsThere.lookup?_makeDirectories (h : IsThere start p t) (place : Place) :
    (t.makeDirectories start p).1.lookup? place = t.lookup? place := by
  rcases h with hempty | hdir
  · rw [makeDirectories, makeDirectoriesUpTo, if_pos hempty]
  · obtain ⟨mid, hfind, -⟩ := isDirectory_iff.mp hdir
    have hwalk := walk_of_locate (find_ok hfind)
    rcases (wayMade_makeDirectories t start p).kept place with hkeep | ⟨hpass, hnone, -⟩
    · exact hkeep
    · exact absurd hnone (hwalk.lookup?_ne_none hpass)

/-! ### Names that are looked up in one place -/

/-- No link stands where a path leads. -/
def NoLinkAt (start : Place) (p : Path) (t : FileTree) : Prop :=
  ∀ place target, t.find start false p = .ok place → t.lookup? place ≠ some (.link target)

namespace Holds

variable (ht : Holds t start p mid) (hu : Holds u start p mid) (hname : Path.IsName name)

include ht hname

theorem noLink (h : NoLinkAt start (p.child name) t) (hfits : Fits p name) (target : String) :
    t.lookup? (mid ++ [name]) ≠ some (.link target) := fun hlink => by
  refine h (mid ++ [name]) target ?_ hlink
  rw [find, ht.locate_taken hname hfits false hlink (by simp)]

include hu

theorem noLinkAt (h : NoLinkAt start (p.child name) t)
    (hlinks : ∀ target, u.lookup? (mid ++ [name]) = some (.link target) →
      t.lookup? (mid ++ [name]) = some (.link target)) : NoLinkAt start (p.child name) u := by
  intro place target hfind hlink
  obtain ⟨-, -, hfits, -⟩ := holds_of_locate hname (find_ok hfind)
  rcases hentry : u.lookup? (mid ++ [name]) with _ | e
  · rw [find, hu.locate_free hname hfits false hentry] at hfind
    exact absurd hfind (by simp)
  · rw [find, hu.locate_taken hname hfits false hentry (by simp)] at hfind
    obtain rfl := Except.ok.inj hfind
    exact ht.noLink hname h hfits target (hlinks target hlink)

/-- What is read under a name is what stands there. -/
theorem readBytes_congr (h : NoLinkAt start (p.child name) t)
    (hshort : name.utf8ByteSize ≤ longestName)
    (hsame : u.lookup? (mid ++ [name]) = t.lookup? (mid ++ [name])) :
    u.readBytes start (p.child name) = t.readBytes start (p.child name) := by
  by_cases hfits : Fits p name
  · rcases hentry : t.lookup? (mid ++ [name]) with _ | (_ | ⟨content, mode⟩ | target)
    · rw [ht.readBytes_none hname hfits hentry, hu.readBytes_none hname hfits (hsame.trans hentry)]
    · rw [ht.readBytes_directory hname hfits hentry,
        hu.readBytes_directory hname hfits (hsame.trans hentry)]
    · rw [ht.readBytes_file hname hfits hentry,
        hu.readBytes_file hname hfits (hsame.trans hentry)]
    · exact absurd hentry (ht.noLink hname h hfits target)
  · obtain ⟨e, he⟩ := locate_not_fits hshort hfits
    rw [readBytes, readBytes, find, find, he, he]
    rfl

end Holds

/-! ### Parts that are too long -/

/-- A path from the root into a directory, with a part after it that no directory holds. -/
structure TooLong (n name : String) (rest : List String) (p : Path) : Prop where
  absolute : p.isAbsolute = true
  parts : p.parts = n :: name :: rest
  noNul : p.text.toList.any (· = Char.ofNat 0) = false
  pathShort : p.text.utf8ByteSize < pathLimit

namespace TooLong

variable {n name : String} {rest : List String} {p : Path} (h : TooLong n name rest p)

include h

theorem text_ne_empty : p.text ≠ "" := fun htext => by
  have hparts := h.parts
  rw [show p = ⟨""⟩ from congrArg Path.mk htext, Path.parts_empty] at hparts
  exact absurd hparts (by simp)

theorem locate_eq (t : FileTree) (start : Place) (last : Bool) : t.locate start last p =
    t.followLinks last linkLimit p.endsWithSlash [] (n :: name :: rest) := by
  have hpass : Passable p := ⟨noNul_iff.mp h.noNul, h.text_ne_empty, h.pathShort⟩
  rw [hpass.locate_eq, origin, if_pos h.absolute, h.parts]

theorem child {m : String} (hm : Path.IsName m) (hfits : Fits p m) :
    TooLong n name (rest ++ [m]) (p.child m) where
  absolute := (Path.isAbsolute_child hm).trans h.absolute
  parts := by rw [Path.parts_child hm, h.parts, List.cons_append, List.cons_append]
  noNul := hfits.noNul
  pathShort := hfits.pathShort

variable (hn : Storable n)

include hn

/-- While the directory is missing, the path leads nowhere. -/
theorem locate_missing {t : FileTree} (hmissing : t.lookup? [n] = none) (start : Place)
    (last : Bool) : t.locate start last p = .error .notFound := by
  rw [h.locate_eq, show linkLimit = 39 + 1 from rfl, followLinks]
  exact hn.enters.follow_missing hmissing (by simp)

/-- Once the directory is there, the path is refused. -/
theorem locate_made {t : FileTree} (hname : Path.IsName name)
    (hlong : longestName < name.utf8ByteSize) (hmade : t.lookup? [n] = some .directory)
    (start : Place) (last : Bool) : t.locate start last p = .error .nameTooLong := by
  rw [h.locate_eq, show linkLimit = 39 + 1 from rfl, followLinks, hn.enters.follow_directory hmade]
  exact follow_long hname.ne_here hname.ne_up hlong

end TooLong

end FileTree

end ReviewMentor
