import ReviewMentor.Classify
import ReviewMentor.Fix
import ReviewMentor.Proofs.Files.Touching
import ReviewMentor.Proofs.SideBySide
import ReviewMentor.Zip.Archive

/-!
# What is seen from a directory

From a directory a tree looks like itself with all files elsewhere emptied. Where paths lead only
depends on what stands somewhere and not on what files hold, so operations on two trees that look
the same from a directory have the same results, as long as no file outside is read; and the trees
look the same afterwards.
-/

namespace ReviewMentor

/-- An entry without what it holds. -/
def Entry.emptied : Entry → Entry
  | .file _ mode => .file .empty mode
  | e => e

namespace FileTree

variable {t u : FileTree} {d start place : Place} {p q : Path} {e : Entry}

/-- What is seen of an entry from a directory: what files outside hold is hidden. -/
def glimpse (d place : Place) (e : Entry) : Entry := if d <+: place then e else e.emptied

/-- A tree as it is seen from a directory. -/
def seenFrom (d : Place) (t : FileTree) : FileTree :=
  ⟨t.entries.map fun x => (x.1, glimpse d x.1 x.2)⟩

/-- Two trees look the same from a directory. -/
def SameView (d : Place) (t u : FileTree) : Prop := t.seenFrom d = u.seenFrom d

/-! ### Entries -/

theorem glimpse_of_below (h : d <+: place) : glimpse d place e = e := if_pos h

@[simp] theorem glimpse_directory (d place : Place) : glimpse d place .directory = .directory := by
  unfold glimpse
  split_ifs <;> rfl

@[simp] theorem glimpse_link (d place : Place) (s : String) :
    glimpse d place (.link s) = .link s := by
  unfold glimpse
  split_ifs <;> rfl

/-- A file is seen as a file with the same mode. -/
theorem exists_glimpse_file (d place : Place) (content : ByteArray) (mode : Nat) :
    ∃ seen, glimpse d place (.file content mode) = .file seen mode := by
  unfold glimpse
  split_ifs
  · exact ⟨content, rfl⟩
  · exact ⟨.empty, rfl⟩

theorem glimpse_glimpse {other : Place} (h : d <+: other → d <+: place) :
    glimpse d other (glimpse d place e) = glimpse d other e := by
  unfold glimpse
  split_ifs with ho hp hp
  · rfl
  · exact absurd (h ho) hp
  · rfl
  · cases e <;> rfl

theorem lookup_map_glimpse (entries : List (Place × Entry)) :
    (entries.map fun x => (x.1, glimpse d x.1 x.2)).lookup place =
      (entries.lookup place).map (glimpse d place) := by
  induction entries with
  | nil => rfl
  | cons x rest ih =>
    obtain ⟨p, old⟩ := x
    by_cases hp : place = p
    · subst hp
      simp
    · have hbeq : (place == p) = false := by simpa using hp
      simp only [List.map_cons, List.lookup_cons, hbeq, ih]

theorem lookup?_seenFrom :
    (t.seenFrom d).lookup? place = (t.lookup? place).map (glimpse d place) := by
  by_cases hp : place = []
  · subst hp
    simp
  · rw [lookup?_of_ne_nil hp, lookup?_of_ne_nil hp]
    exact lookup_map_glimpse t.entries

theorem seenFrom_set :
    (t.set place e).seenFrom d = (t.seenFrom d).set place (glimpse d place e) := by
  have hany : (t.seenFrom d).entries.any (·.1 = place) = t.entries.any (·.1 = place) := by
    simp [seenFrom, List.any_map, Function.comp_def]
  unfold set
  rw [hany]
  split_ifs with h
  · simp only [seenFrom, List.map_map, FileTree.mk.injEq]
    refine List.map_congr_left fun x _ => ?_
    by_cases hx : x.1 = place <;> simp [hx]
  · simp [seenFrom]

theorem seenFrom_drop : (t.drop place).seenFrom d = (t.seenFrom d).drop place := by
  simp [drop, seenFrom, List.filter_map, Function.comp_def]

theorem seenFrom_seenFrom : (t.seenFrom d).seenFrom d = t.seenFrom d := by
  simp only [seenFrom, List.map_map, FileTree.mk.injEq]
  exact List.map_congr_left fun x _ => by simp [glimpse_glimpse fun h : d <+: x.1 => h]

/-- Hiding what files hold changes nothing in how steps are followed. -/
theorem follow_seenFrom {last dir : Bool} {steps : List String}
    {jump jump' : Place → String → List String → Except FileError Spot}
    (hjump : ∀ place target rest, jump' place target rest = jump place target rest) :
    (t.seenFrom d).follow last dir jump' place steps = t.follow last dir jump place steps := by
  induction steps generalizing place with
  | nil => rfl
  | cons step rest ih =>
    by_cases hhere : step = "."
    · subst hhere
      exact ih
    by_cases hup : step = ".."
    · subst hup
      exact ih
    by_cases hlong : longestName < step.utf8ByteSize
    · rw [follow_long hhere hup hlong, follow_long hhere hup hlong]
    have hstep : Enters step := ⟨hhere, hup, Nat.not_lt.mp hlong⟩
    rw [hstep.follow_eq, hstep.follow_eq, lookup?_seenFrom]
    rcases t.lookup? (place ++ [step]) with _ | (_ | ⟨content, mode⟩ | target)
    · rfl
    · simp [ih]
    · obtain ⟨seen, hseen⟩ := exists_glimpse_file d (place ++ [step]) content mode
      simp [hseen]
    · simp [hjump]

theorem followLinks_seenFrom {last dir : Bool} {budget : Nat} {steps : List String} :
    (t.seenFrom d).followLinks last budget dir place steps =
      t.followLinks last budget dir place steps := by
  induction budget generalizing dir place steps with
  | zero =>
    rw [followLinks, followLinks]
    exact follow_seenFrom fun _ _ _ => rfl
  | succ budget ih =>
    rw [followLinks, followLinks]
    refine follow_seenFrom fun place target rest => ?_
    split
    · rfl
    · exact ih

theorem locate_seenFrom {last : Bool} :
    (t.seenFrom d).locate start last p = t.locate start last p := by
  by_cases hpass : Passable p
  · rw [hpass.locate_eq, hpass.locate_eq, followLinks_seenFrom]
  · obtain ⟨e, -, he⟩ := exists_locate_eq_error hpass
    rw [he, he]

theorem find_seenFrom {last : Bool} : (t.seenFrom d).find start last p = t.find start last p := by
  rw [find, locate_seenFrom, find]

theorem hasDirectory_seenFrom : (t.seenFrom d).hasDirectory place = t.hasDirectory place := by
  rw [hasDirectory, hasDirectory, lookup?_seenFrom]
  rcases t.lookup? place with _ | (_ | ⟨content, mode⟩ | s)
  · rfl
  · simp
  · obtain ⟨seen, hseen⟩ := exists_glimpse_file d place content mode
    simp [hseen]
  · simp

theorem entry?_seenFrom :
    FileTree.entry? (t.seenFrom d) start p =
      match t.find start true p with
      | .ok place => (t.lookup? place).map (glimpse d place)
      | .error _ => none := by
  unfold entry?
  rw [find_seenFrom]
  split <;> simp [*, lookup?_seenFrom]

theorem isDirectory_seenFrom : (t.seenFrom d).isDirectory start p = t.isDirectory start p := by
  rw [isDirectory, isDirectory, entry?_seenFrom, entry?]
  rcases t.find start true p with e | place
  · rfl
  simp only
  rcases t.lookup? place with _ | (_ | ⟨content, mode⟩ | s)
  · rfl
  · simp
  · obtain ⟨seen, hseen⟩ := exists_glimpse_file d place content mode
    simp [hseen]
  · simp

theorem isFile_seenFrom : (t.seenFrom d).isFile start p = t.isFile start p := by
  rw [isFile, isFile, entry?_seenFrom, entry?]
  rcases t.find start true p with e | place
  · rfl
  simp only
  rcases t.lookup? place with _ | (_ | ⟨content, mode⟩ | s)
  · rfl
  · simp
  · obtain ⟨seen, hseen⟩ := exists_glimpse_file d place content mode
    simp [hseen]
  · simp

/-! ### Changes -/

theorem makeDirectory_seenFrom :
    (t.seenFrom d).makeDirectory start p = (t.makeDirectory start p).map (seenFrom d) := by
  rw [makeDirectory, makeDirectory, locate_seenFrom]
  rcases t.locate start false p with e | (taken | ⟨directory, name⟩)
  · rfl
  · rfl
  · simp [bind, Except.bind, Except.map, seenFrom_set]

theorem makeDirectoriesUpTo_seenFrom (depth : Nat) (t : FileTree) (start : Place) (p : Path) :
    makeDirectoriesUpTo depth (t.seenFrom d) start p =
      ((makeDirectoriesUpTo depth t start p).1.seenFrom d,
        (makeDirectoriesUpTo depth t start p).2) := by
  induction depth generalizing t p with
  | zero => rfl
  | succ depth ih =>
    rw [makeDirectoriesUpTo, makeDirectoriesUpTo, makeDirectory_seenFrom, isDirectory_seenFrom]
    by_cases hempty : p.text = ""
    · simp [hempty]
    simp only [hempty, if_false]
    rcases t.makeDirectory start p with e | u
    · cases e
      case notFound =>
        rcases p.parent? with _ | parent
        · rfl
        simp only [Except.map, ih]
        rcases makeDirectoriesUpTo depth t start parent with ⟨u, e | _⟩
        · rfl
        simp only [makeDirectory_seenFrom, isDirectory_seenFrom]
        rcases u.makeDirectory start p with e | v
        · simp only [Except.map]
          split_ifs <;> rfl
        · rfl
      all_goals
        simp only [Except.map]
        split_ifs <;> rfl
    · rfl

/-- What a file holds that is written over what was there does not depend on that. -/
theorem writeBytes_seenFrom {content : ByteArray} :
    ((t.seenFrom d).writeBytes start p content).map (seenFrom d) =
      (t.writeBytes start p content).map (seenFrom d) := by
  rw [writeBytes, writeBytes, locate_seenFrom]
  rcases t.locate start true p with e | (place | ⟨directory, name⟩)
  · rfl
  · simp only [bind, Except.bind, lookup?_seenFrom]
    rcases t.lookup? place with _ | (_ | ⟨old, mode⟩ | s)
    · rfl
    · simp
    · obtain ⟨seen, hseen⟩ := exists_glimpse_file d place old mode
      simp [hseen, Except.map, seenFrom_set, seenFrom_seenFrom]
    · simp
  · simp only [bind, Except.bind]
    split_ifs
    · rfl
    · simp [Except.map, seenFrom_set, seenFrom_seenFrom]

theorem removeDirectory_seenFrom :
    (t.seenFrom d).removeDirectory start p = (t.removeDirectory start p).map (seenFrom d) := by
  rw [removeDirectory, removeDirectory, find_seenFrom]
  rcases t.find start false p with e | place
  · rfl
  simp only [bind, Except.bind, lookup?_seenFrom]
  rcases t.lookup? place with _ | (_ | ⟨old, mode⟩ | s)
  · rfl
  · simp only [Option.map_some, glimpse_directory]
    split_ifs
    · rfl
    · simp [Except.map, seenFrom_drop]
  · obtain ⟨seen, hseen⟩ := exists_glimpse_file d place old mode
    simp [hseen, Except.map]
  · simp only [Option.map_some, glimpse_link]
    split_ifs
    · rfl
    · simp [Except.map, seenFrom_drop]

theorem glimpse_eq_directory : glimpse d place e = .directory ↔ e = .directory := by
  unfold glimpse
  split_ifs
  · rfl
  · cases e <;> simp [Entry.emptied]

theorem moved_eq {old new : Place} (h : e ≠ .directory) : t.moved old new e =
    if t.hasDirectory new then .error .isDirectory
    else .ok (if old = new then t else (t.drop old).set new e) := by
  unfold moved hasDirectory
  rcases e with _ | ⟨content, mode⟩ | s
  · exact absurd rfl h
  all_goals rcases t.lookup? new with _ | (_ | ⟨content', mode'⟩ | s') <;> rfl

/-- What is moved is seen the same way, unless it is moved into the directory from outside. -/
theorem moved_seenFrom {old new : Place} (h : d <+: new → d <+: old) :
    ((t.seenFrom d).moved old new (glimpse d old e)).map (seenFrom d) =
      (t.moved old new e).map (seenFrom d) := by
  by_cases hdir : e = .directory
  · subst hdir
    rw [glimpse_directory]
    rfl
  have hmoved : (if old = new then t.seenFrom d
        else ((t.seenFrom d).drop old).set new (glimpse d old e)).seenFrom d =
      (if old = new then t else (t.drop old).set new e).seenFrom d := by
    split_ifs
    · exact seenFrom_seenFrom
    · rw [seenFrom_set, seenFrom_set, seenFrom_drop, seenFrom_drop, seenFrom_seenFrom,
        glimpse_glimpse h]
  rw [moved_eq hdir, moved_eq (fun hseen => hdir (glimpse_eq_directory.mp hseen)),
    hasDirectory_seenFrom]
  split
  · rfl
  · exact congrArg Except.ok hmoved

theorem rename_seenFrom (h : ∀ old spot, t.locate start false p = .ok (.taken old) →
      t.locate start false q = .ok spot → d <+: spot.place → d <+: old) :
    ((t.seenFrom d).rename start p q).map (seenFrom d) = (t.rename start p q).map (seenFrom d) := by
  rw [rename_eq, rename_eq, find_seenFrom, locate_seenFrom]
  rcases hfind : t.find start false p with e | old
  · rfl
  simp only [Except.bind, lookup?_seenFrom]
  rcases t.lookup? old with _ | e
  · rfl
  rcases hspot : t.locate start false q with e' | spot
  · rfl
  · exact moved_seenFrom (h old spot (find_ok hfind) hspot)

/-! ### Reading -/

/-- Files below the directory are read as they are. -/
theorem readBytes_seenFrom (h : ∀ place, t.find start true p = .ok place → d <+: place) :
    (t.seenFrom d).readBytes start p = t.readBytes start p := by
  rw [readBytes, readBytes, find_seenFrom]
  rcases hfind : t.find start true p with e | place
  · rfl
  · have hsame : (t.seenFrom d).lookup? place = t.lookup? place := by
      rw [lookup?_seenFrom]
      rcases t.lookup? place with _ | e
      · rfl
      · rw [Option.map_some, glimpse_of_below (h place hfind)]
    simp only [bind, Except.bind, hsame]

theorem readText_seenFrom (h : ∀ place, t.find start true p = .ok place → d <+: place) :
    (t.seenFrom d).readText start p = t.readText start p := by
  rw [readText, readBytes_seenFrom h, readText]

/-- All files below a place in the directory are seen as they are. -/
theorem filesBelow_seenFrom_of_prefix (h : d <+: place) :
    (t.seenFrom d).filesBelow place = t.filesBelow place := by
  simp only [filesBelow, seenFrom, List.filterMap_map]
  refine List.filterMap_congr fun x _ => ?_
  obtain ⟨other, e⟩ := x
  by_cases hp : place <+: other
  · simp [glimpse_of_below (h.trans hp)]
  · cases e with
    | directory => simp
    | link => simp
    | file content mode =>
      obtain ⟨seen, hseen⟩ := exists_glimpse_file d other content mode
      simp [hseen, hp]

/-- A sweep finds files whatever they hold. -/
theorem sweepFrom_seenFrom {root : Path} (levels : Nat) (names : List String) :
    (t.seenFrom d).sweepFrom place root levels names = t.sweepFrom place root levels names := by
  have hlisting : ∀ other, (t.seenFrom d).listing other = t.listing other := fun other => by
    simp [listing, seenFrom, List.filterMap_map]
  induction levels generalizing names with
  | zero => rfl
  | succ levels ih =>
    rw [sweepFrom, sweepFrom, hlisting]
    split_ifs
    · rfl
    refine List.flatMap_congr fun name _ => ?_
    rw [lookup?_seenFrom]
    rcases t.lookup? (place ++ names ++ [name]) with _ | (_ | ⟨content, mode⟩ | target)
    · rfl
    · simp only [Option.map_some, glimpse_directory, ih]
    · obtain ⟨seen, hseen⟩ := exists_glimpse_file d (place ++ names ++ [name]) content mode
      simp only [Option.map_some, hseen]
    · simp only [Option.map_some, glimpse_link]

theorem sweep_seenFrom {root : Path} : (t.seenFrom d).sweep place root = t.sweep place root := by
  have hdepth : (t.seenFrom d).depth = t.depth := by simp [depth, seenFrom, List.foldr_map]
  rw [sweep, sweep, hdepth, sweepFrom_seenFrom]

theorem projectPaths_seenFrom : (t.seenFrom d).projectPaths start p = t.projectPaths start p := by
  rw [projectPaths, projectPaths, find_seenFrom]
  rcases t.find start true p with e | place
  · rfl
  simp only [lookup?_seenFrom, sweep_seenFrom]
  rcases t.lookup? place with _ | (_ | ⟨content, mode⟩ | s)
  · rfl
  · simp
  · obtain ⟨seen, hseen⟩ := exists_glimpse_file d place content mode
    simp [hseen]
  · simp

theorem classify_seenFrom : (t.seenFrom d).classify start p = t.classify start p := by
  rw [classify, scores, projectPaths_seenFrom, classify, scores]

theorem hasSources_seenFrom : (t.seenFrom d).hasSources start p = t.hasSources start p := by
  rw [hasSources, hasSources, find_seenFrom]
  rcases t.find start true p with e | place
  · rfl
  simp only [lookup?_seenFrom, sweep_seenFrom]
  rcases t.lookup? place with _ | (_ | ⟨content, mode⟩ | s)
  · rfl
  · simp
  · obtain ⟨seen, hseen⟩ := exists_glimpse_file d place content mode
    simp [hseen]
  · simp

/-- The archive of a directory only holds what is seen from there. -/
theorem exportFiles_seenFrom (h : ∀ place, t.find start true p = .ok place → d <+: place) :
    Zip.exportFiles (t.seenFrom d) start p = Zip.exportFiles t start p := by
  rw [Zip.exportFiles, Zip.exportFiles, find_seenFrom]
  rcases hfind : t.find start true p with e | place
  · rfl
  have hbelow : d <+: place := h place hfind
  simp only [lookup?_seenFrom, filesBelow_seenFrom_of_prefix hbelow]
  rcases t.lookup? place with _ | e
  · rfl
  · rw [Option.map_some, glimpse_of_below hbelow]

/-- Replacing a line of a file below the directory looks the same from there. -/
theorem fixLine_seenFrom {line : Nat} {new : String}
    (h : ∀ place, t.find start true p = .ok place → d <+: place) :
    ((t.seenFrom d).fixLine start p line new).map (fun x => (x.1.seenFrom d, x.2)) =
      (t.fixLine start p line new).map fun x => (x.1.seenFrom d, x.2) := by
  rw [fixLine, fixLine, isFile_seenFrom, readText_seenFrom h]
  split_ifs
  · rfl
  rcases t.readText start p with e | content
  · rfl
  simp only
  split_ifs with hsame
  · simp [Except.map, seenFrom_seenFrom]
  have hwrite : ((t.seenFrom d).writeText start p (Text.replaceLine content line new)).map
        (seenFrom d) =
      (t.writeText start p (Text.replaceLine content line new)).map (seenFrom d) :=
    writeBytes_seenFrom
  rcases hseen : (t.seenFrom d).writeText start p (Text.replaceLine content line new) with e | v <;>
    rcases hold : t.writeText start p (Text.replaceLine content line new) with e' | u <;>
    simp_all [Except.map]

/-! ### The same view -/

namespace SameView

theorem refl (d : Place) (t : FileTree) : SameView d t t := rfl

/-- What hiding does not change is the same in all trees that look the same. -/
theorem congr {γ : Type} {f : FileTree → γ} (hf : ∀ t, f (t.seenFrom d) = f t)
    (h : SameView d t u) : f u = f t := by
  rw [← hf u, ← h, hf t]

theorem readText (h : SameView d t u)
    (hbelow : ∀ place, t.find start true p = .ok place → d <+: place) :
    u.readText start p = t.readText start p := by
  have hfind : u.find start true p = t.find start true p :=
    h.congr (f := fun t => t.find start true p) fun _ => find_seenFrom
  rw [← readText_seenFrom hbelow, h, readText_seenFrom (hfind ▸ hbelow)]

theorem exportFiles (h : SameView d t u)
    (hbelow : ∀ place, t.find start true p = .ok place → d <+: place) :
    Zip.exportFiles u start p = Zip.exportFiles t start p := by
  have hfind : u.find start true p = t.find start true p :=
    h.congr (f := fun t => t.find start true p) fun _ => find_seenFrom
  rw [← exportFiles_seenFrom hbelow, h, exportFiles_seenFrom (hfind ▸ hbelow)]

theorem fixLine {line : Nat} {new : String} (h : SameView d t u)
    (hbelow : ∀ place, t.find start true p = .ok place → d <+: place) :
    (u.fixLine start p line new).map (fun x => (x.1.seenFrom d, x.2)) =
      (t.fixLine start p line new).map fun x => (x.1.seenFrom d, x.2) := by
  have hfind : u.find start true p = t.find start true p :=
    h.congr (f := fun t => t.find start true p) fun _ => find_seenFrom
  rw [← fixLine_seenFrom hbelow, h, fixLine_seenFrom (hfind ▸ hbelow)]

end SameView

end FileTree

namespace Disk

open FileTree Effect

variable {ε α : Type} {d : Place}

theorem respects_of {f : FileTree → FileTree × Except ε α}
    (hf : ∀ t, f (t.seenFrom d) = ((f t).1.seenFrom d, (f t).2)) :
    Respects (SameView d) (Disk.of f) := by
  intro t u h
  have hseen : ((f u).1.seenFrom d, (f u).2) = ((f t).1.seenFrom d, (f t).2) := by
    rw [← hf u, ← hf t, h]
  rw [after_of, after_of, outcome_of, outcome_of]
  exact ⟨(Prod.mk.inj hseen).2, (Prod.mk.inj hseen).1.symm⟩

theorem change_ok {f : FileTree → Except ε FileTree} {t u : FileTree} (h : f t = .ok u) :
    after (Disk.change f) t = u ∧ outcome (Disk.change f) t = .ok () := by
  rw [change, after_of, outcome_of, h]
  exact ⟨rfl, rfl⟩

theorem change_error {f : FileTree → Except ε FileTree} {t : FileTree} {e : ε}
    (h : f t = .error e) :
    after (Disk.change f) t = t ∧ outcome (Disk.change f) t = .error e := by
  rw [change, after_of, outcome_of, h]
  exact ⟨rfl, rfl⟩

theorem ok_of_change {f : FileTree → Except ε FileTree} {t : FileTree} {a : Unit}
    (h : outcome (Disk.change f) t = .ok a) : f t = .ok (after (Disk.change f) t) := by
  rcases hf : f t with e | u
  · rw [(change_error hf).2] at h
    exact absurd h (by simp)
  · rw [(change_ok hf).1]

/-- A change that looks the same from a directory if what files elsewhere hold is hidden before. -/
theorem respects_change {f : FileTree → Except ε FileTree}
    (hf : ∀ t, (f (t.seenFrom d)).map (seenFrom d) = (f t).map (seenFrom d)) :
    Respects (SameView d) (Disk.change f) := by
  intro t u h
  have hseen : (f u).map (seenFrom d) = (f t).map (seenFrom d) := by
    rw [← hf u, ← h, hf t]
  rcases ht : f t with e | v <;> rcases hu : f u with e' | w <;> rw [ht, hu] at hseen
  · rw [(change_error ht).1, (change_error ht).2, (change_error hu).1, (change_error hu).2]
    exact ⟨congrArg Except.error (Except.error.inj hseen), h⟩
  · exact absurd hseen (by simp [Except.map])
  · exact absurd hseen (by simp [Except.map])
  · rw [(change_ok ht).1, (change_ok ht).2, (change_ok hu).1, (change_ok hu).2]
    exact ⟨rfl, (Except.ok.inj hseen).symm⟩

theorem respects_makeDirectories (start : Place) (p : Path) :
    Respects (SameView d) (Disk.of fun t => t.makeDirectories start p) :=
  respects_of fun t => makeDirectoriesUpTo_seenFrom _ t start p

theorem respects_writeText (start : Place) (p : Path) (s : String) :
    Respects (SameView d) (Disk.change fun t => t.writeText start p s) :=
  respects_change fun _ => writeBytes_seenFrom

end Disk

end ReviewMentor
