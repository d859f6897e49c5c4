import ReviewMentor.Proofs.Files.Paving
import ReviewMentor.Proofs.Zip.Unpacking

/-!
# Restoring files

When files do not get in each other's way, an archive of them can be unpacked into any empty
directory whose paths do not get too long: before each file is written, nothing stands on the way to
it but directories, and nothing stands at its place. Afterwards the directory holds these files and
what leads to them. Where a path gets too long, unpacking fails.
-/

namespace ReviewMentor

open FileTree Effect

namespace Path

variable {names : List String}

theorem isStep_names (hnames : ∀ n ∈ names, IsName n) : ∀ c ∈ names.map Component.name, IsStep c :=
  List.forall_mem_map.mpr hnames

theorem parts_join_names (hnames : ∀ n ∈ names, IsName n) :
    (Path.mk (Text.join "/" names)).parts = names := by
  rw [← slashed_names, parts_slashed (isStep_names hnames)]
  simp [Component.text, Function.comp_def]

/-- Names joined by slashes spell these names. -/
theorem spells_join (hne : names ≠ []) (hnames : ∀ n ∈ names, IsName n) :
    Spells (Text.join "/" names) names := by
  refine ⟨?_, ?_, ?_⟩
  · rw [← slashed_names]
    exact not_isAbsolute_slashed (isStep_names hnames)
  · have hsteps := List.filterMap_congr fun n hn => component?_of_isName (hnames n hn)
    rw [parts_join_names hnames, hsteps]
    simp
  · rw [Text.cut_join hne fun n hn => (hnames n hn).noSlash]

end Path

namespace Zip

/-- Files by the names that lead to them. -/
abbrev Files := List (Place × ByteArray)

/-- The entry of a file in an archive. -/
def entryOf (f : Place × ByteArray) : ArchiveEntry :=
  ⟨Text.join "/" f.1, .bytes f.2 true⟩

/-- Names that lead to a file which an archive can hold: none is missing, all can be stored, and the
last one does not end like that of a directory. -/
structure Nameable (names : List String) : Prop where
  ne_nil : names ≠ []
  storable : ∀ n ∈ names, Storable n
  ending : ∀ n ∈ names.getLast?, n.toList.getLast? ≠ some '\\'

/-- Files that do not get in each other's way. -/
structure Apart (files : Files) : Prop where
  nameable : ∀ f ∈ files, Nameable f.1
  distinct : (files.map Prod.fst).Nodup
  apart : ∀ f ∈ files, ∀ g ∈ files, f.1 <+: g.1 → f.1 = g.1

/-! ### Names in archives -/

namespace Nameable

variable {names front : List String} {n : String} {target : Path}

theorem isName (h : Nameable names) : ∀ n ∈ names, Path.IsName n := fun n hn =>
  (h.storable n hn).isName

theorem spells (h : Nameable names) : Path.Spells (Text.join "/" names) names :=
  Path.spells_join h.ne_nil h.isName

theorem noNul (h : Nameable names) : Char.ofNat 0 ∉ (Text.join "/" names).toList :=
  h.spells.noNul fun n hn => (h.storable n hn).noNul

theorem isEnclosed (h : Nameable names) : isEnclosed (Text.join "/" names) = true := by
  have hstay : staysBelow 0 ((Path.mk (Text.join "/" names)).parts.filterMap Path.component?) =
      true := by
    rw [h.spells.steps, staysBelow_iff]
    refine ⟨by simp, fun before hbefore => ?_⟩
    have hnone : Component.up ∉ before := fun hup => by simpa using hbefore.subset hup
    simp [List.count_eq_zero_of_not_mem hnone]
  have hcomponents : staysBelow 0 (Path.mk (Text.join "/" names)).components = true := by
    rw [Path.components_of_relative h.spells.relative]
    split
    · exact hstay
    · exact hstay
  simp [Zip.isEnclosed, hcomponents, h.noNul]

theorem isDirectoryName (h : Nameable names) : isDirectoryName (Text.join "/" names) = false := by
  obtain ⟨front, n, rfl⟩ := (List.eq_nil_or_concat' names).resolve_left h.ne_nil
  have hn : Path.IsName n := h.isName n (by simp)
  have hchars : n.toList ≠ [] := fun hnil => hn.ne_empty (Path.text_toList_eq_nil.mp hnil)
  have hlast : (Text.join "/" (front ++ [n])).toList.getLast? = n.toList.getLast? := by
    by_cases hfront : front = []
    · rw [hfront, List.nil_append, Text.join, String.intercalate_singleton]
    · rw [Text.join_append hfront (by simp), String.toList_append,
        show Text.join "/" [n] = n from String.intercalate_singleton,
        List.getLast?_append_of_ne_nil _ hchars]
  unfold Zip.isDirectoryName
  rw [hlast]
  rcases hc : n.toList.getLast? with _ | c
  · rfl
  · have hslash : c ≠ '/' := by
      rintro rfl
      exact hn.noSlash (List.mem_of_getLast? hc)
    have hback : c ≠ '\\' := by
      rintro rfl
      exact h.ending n (by simp) hc
    simp [hslash, hback]

/-- The path of an entry goes on with its names. -/
theorem goesOn (h : Nameable names) (hnul : Char.ofNat 0 ∉ target.text.toList)
    (hshort : (target.child (Text.join "/" names)).text.utf8ByteSize < pathLimit) :
    target.GoesOn names (target.child (Text.join "/" names)) := by
  have hrel := h.spells.relative
  refine ⟨⟨[], ?_, by simp⟩, ?_, ?_, hshort⟩
  · rw [Path.child, Path.parts_join hrel, Path.parts_join_names h.isName, List.append_nil]
  · rw [Path.child, Path.isAbsolute_join, hrel, Bool.or_false]
  · have hname := h.noNul
    unfold Path.child Path.join
    rw [if_neg (by simp [hrel])]
    split_ifs <;> simp [hname, hnul]

end Nameable

/-! ### Directories that are filled -/

/-- An empty directory in a tree to work in. -/
structure Bare (start : Place) (target : Path) (d : Place) (t : FileTree) : Prop where
  standing : Standing start t
  found : t.find start true target = .ok d
  isDirectory : t.lookup? d = some .directory
  empty : ∀ names, names ≠ [] → t.lookup? (d ++ names) = none

/-- What stands in a directory: some of the files that are to be there, and directories on the way
to those files. -/
structure Filled (start : Place) (target : Path) (d : Place) (files done : Files)
    (t : FileTree) : Prop where
  standing : Standing start t
  found : t.find start true target = .ok d
  isDirectory : t.lookup? d = some .directory
  entries : ∀ names e, names ≠ [] → t.lookup? (d ++ names) = some e →
    (e = .directory ∧ ∃ f ∈ files, names <+: f.1 ∧ names ≠ f.1) ∨
      ∃ content mode, e = .file content mode ∧ (names, content) ∈ done

section Filling

variable {start d : Place} {target : Path} {files done rest : Files} {t u : FileTree}
  {f : Place × ByteArray} {names : List String}

theorem Bare.filled (h : Bare start target d t) : Filled start target d files [] t :=
  ⟨h.standing, h.found, h.isDirectory, fun names e hne he =>
    absurd ((h.empty names hne).symm.trans he) (by simp)⟩

namespace Filled

variable (h : Filled start target d files done t) (hfiles : Apart files) (hf : f ∈ files)

include h hfiles hf

/-- Nothing stands at the place of a file that is still to come. -/
theorem missing (hdone : ∀ g ∈ done, g.1 ≠ f.1) : t.lookup? (d ++ f.1) = none := by
  by_contra hentry
  obtain ⟨e, he⟩ := Option.ne_none_iff_exists'.mp hentry
  rcases h.entries f.1 e (hfiles.nameable f hf).ne_nil he with ⟨-, g, hg, hpre, hne⟩ |
    ⟨content, mode, -, hmem⟩
  · exact hne (hfiles.apart f hf g hg hpre)
  · exact hdone _ hmem rfl

/-- On the way to a file stand directories or nothing. -/
theorem way_open (hdone : ∀ g ∈ done, g ∈ files) {more : List String} (hmore : more <+: f.1)
    (hne : more ≠ f.1) :
    t.lookup? (d ++ more) = none ∨ t.lookup? (d ++ more) = some .directory := by
  by_cases hnil : more = []
  · exact .inr (by rw [hnil, List.append_nil, h.isDirectory])
  rcases hentry : t.lookup? (d ++ more) with _ | e
  · exact .inl rfl
  rcases h.entries more e hnil hentry with ⟨rfl, -⟩ | ⟨content, mode, -, hmem⟩
  · exact .inr rfl
  · exact absurd (hfiles.apart _ (hdone _ hmem) f hf hmore) hne

end Filled

/-! ### One file -/

theorem makeRoom_ok {q : Path} (h : t.makeDirectories start q = (u, .ok ())) :
    outcome (makeRoom start q) t = .ok () ∧ after (makeRoom start q) t = u := by
  unfold makeRoom
  rw [Disk.outcome_of, Disk.after_of, h]
  exact ⟨rfl, rfl⟩

theorem write_ok {q : Path} {content : ByteArray} (h : t.writeBytes start q content = .ok u) :
    after (Disk.change fun t => (t.writeBytes start q content).mapError
        ArchiveError.storage) t = u ∧
      outcome (Disk.change fun t => (t.writeBytes start q content).mapError
        ArchiveError.storage) t = .ok () :=
  Disk.change_ok (by rw [h]; rfl)

/-- A file is emptied and then filled at a place where nothing stands. -/
theorem fill_ok {front : List String} {n : String} {q : Path} (ht : Standing start t)
    (hfind : t.find start true target = .ok d) (hdir : t.lookup? d = some .directory)
    (hq : target.GoesOn (front ++ [n]) q) (hn : Storable n)
    (hfront : t.lookup? (d ++ front) = some .directory) (hslash : q.endsWithSlash = false)
    (hnone : t.lookup? (d ++ (front ++ [n])) = none) (content : ByteArray) :
    ∃ u v, t.writeBytes start q .empty = .ok u ∧ u.writeBytes start q content = .ok v ∧
      Standing start v ∧ WaysStay t v ∧
      v.lookup? (d ++ (front ++ [n])) = some (.file content defaultMode) ∧
      ∀ place, place ≠ d ++ (front ++ [n]) → v.lookup? place = t.lookup? place := by
  have hne : d ++ (front ++ [n]) ≠ [] := by simp
  obtain ⟨u, hu, hempty⟩ : ∃ u, u = t.set (d ++ (front ++ [n])) (.file .empty defaultMode) ∧
      t.writeBytes start q .empty = .ok u :=
    ⟨_, rfl, writeBytes_last_free ht.sound hfind hdir hq hn hfront hslash hnone⟩
  have hways := waysStay_writeBytes hempty
  have hstanding := ht.of_writeBytes hempty
  obtain ⟨v, hv, hfull⟩ : ∃ v, v = u.set (d ++ (front ++ [n])) (.file content defaultMode) ∧
      u.writeBytes start q content = .ok v :=
    ⟨_, rfl, writeBytes_last_file hstanding.sound (hways.find (by simp [hdir]) hfind)
      (hways d _ hdir (by simp)) hq hn (hways _ _ hfront (by simp)) hslash
      (hu ▸ lookup?_set_self hne)⟩
  refine ⟨u, v, hempty, hfull, hstanding.of_writeBytes hfull,
    hways.trans (waysStay_writeBytes hfull), hv ▸ lookup?_set_self hne, fun place hplace => ?_⟩
  rw [hv, lookup?_set_of_ne hne hplace, hu, lookup?_set_of_ne hne hplace]

/-- An entry is unpacked by making its directory and writing its file twice. -/
theorem extractEntry_eq {q r : Path} {v w : FileTree} (hname : Nameable f.1)
    (hpath : target.child (Text.join "/" f.1) = q) (hparent : q.parent? = some r)
    (hmade : t.makeDirectories start r = (u, .ok ())) (hempty : u.writeBytes start q .empty = .ok v)
    (hfull : v.writeBytes start q f.2 = .ok w) :
    outcome (extractEntry start target (entryOf f)) t = .ok true ∧
      after (extractEntry start target (entryOf f)) t = w := by
  obtain ⟨hroom, hafter⟩ := makeRoom_ok hmade
  obtain ⟨hafter₁, hfirst⟩ := write_ok hempty
  obtain ⟨hafter₂, hsecond⟩ := write_ok hfull
  unfold extractEntry entryOf
  simp only [hname.isEnclosed, hname.isDirectoryName, hpath, hparent, Bool.not_true,
    Bool.false_eq_true, if_false]
  constructor
  · rw [outcome_bind_ok hroom, hafter, outcome_bind_ok hfirst, hafter₁, outcome_bind_ok hsecond]
    rfl
  · rw [after_bind_ok hroom, hafter, after_bind_ok hfirst, hafter₁, after_bind_ok hsecond, hafter₂]
    rfl

namespace Filled

variable {front : List String} {n : String} {mode : Nat}
  (h : Filled start target d files done t) (hf : f ∈ files)

include h hf

/-- The way to a file that is still to come is paved, and its place stays free. -/
theorem pave (hfiles : Apart files) (hdone : ∀ g ∈ done, g ∈ files ∧ g.1 ≠ f.1)
    (hnames : f.1 = front ++ [n]) {q : Path} (hq : target.GoesOn (front ++ [n]) q) :
    ∃ r u, q.parent? = some r ∧ t.makeDirectories start r = (u, .ok ()) ∧ Paved d front t u ∧
      Standing start u ∧ WaysStay t u ∧ u.lookup? (d ++ (front ++ [n])) = none := by
  have hname := hfiles.nameable f hf
  have hn : Path.IsName n := hname.isName n (by simp [hnames])
  have hfew : ∀ m ∈ front, Storable m := fun m hm => hname.storable m (by simp [hnames, hm])
  have hshorter : ∀ more, more <+: front → more ≠ f.1 := fun more hmore heq => by
    have hlength := hmore.length_le
    rw [heq, hnames, List.length_append, List.length_singleton] at hlength
    omega
  have hopen : ∀ more, more <+: front → t.lookup? (d ++ more) = none ∨
      t.lookup? (d ++ more) = some .directory := fun more hmore =>
    h.way_open hfiles hf (fun g hg => (hdone g hg).1)
      (hnames ▸ hmore.trans (List.prefix_append _ _)) (hshorter more hmore)
  obtain ⟨r, hparent, hr⟩ := hq.parent hn
  obtain ⟨u, hmade, hpaved⟩ :=
    paved_makeDirectories h.standing h.found h.isDirectory hr hfew hopen
  have hways := (wayMade_makeDirectories t start r).waysStay
  have hstanding := h.standing.makeDirectories r
  rw [hmade] at hways hstanding
  refine ⟨r, u, hparent, hmade, hpaved, hstanding, hways, ?_⟩
  rw [← hnames]
  rcases hpaved.kept (d ++ f.1) with hkeep | ⟨-, more, hmore, heq⟩
  · rw [hkeep, h.missing hfiles hf fun g hg => (hdone g hg).2]
  · exact absurd (List.append_cancel_left heq).symm (hshorter more hmore)

/-- A file at the end of its way is one file more. -/
theorem add (hfront : front <+: f.1) (hpaved : Paved d front t u) {v : FileTree}
    (hv : Standing start v)
    (hfind : v.find start true target = .ok d) (hdir : v.lookup? d = some .directory)
    (hfile : v.lookup? (d ++ f.1) = some (.file f.2 mode))
    (hkept : ∀ place, place ≠ d ++ f.1 → v.lookup? place = u.lookup? place) :
    Filled start target d files (done ++ [f]) v := by
  refine ⟨hv, hfind, hdir, fun names e hne he => ?_⟩
  by_cases hsame : names = f.1
  · subst hsame
    obtain rfl := Option.some.inj (hfile.symm.trans he)
    exact .inr ⟨f.2, mode, rfl, List.mem_append_right _ List.mem_cons_self⟩
  rw [hkept _ fun heq => hsame (List.append_cancel_left heq)] at he
  rcases hpaved.kept (d ++ names) with hkeep | ⟨hmade, more, hmore, heq⟩
  · rw [hkeep] at he
    rcases h.entries names e hne he with hway | ⟨content, mode', rfl, hmem⟩
    · exact .inl hway
    · exact .inr ⟨content, mode', rfl, List.mem_append_left _ hmem⟩
  · obtain rfl := List.append_cancel_left heq
    obtain rfl := Option.some.inj (hmade.symm.trans he)
    exact .inl ⟨rfl, f, hf, hmore.trans hfront, hsame⟩

/-- **A file that is still to come is unpacked.** -/
theorem extractEntry (hfiles : Apart files) (hdone : ∀ g ∈ done, g ∈ files ∧ g.1 ≠ f.1)
    (hshort : (target.child (Text.join "/" f.1)).text.utf8ByteSize < pathLimit) :
    outcome (extractEntry start target (entryOf f)) t = .ok true ∧
      Filled start target d files (done ++ [f])
        (after (Zip.extractEntry start target (entryOf f)) t) := by
  have hname := hfiles.nameable f hf
  obtain ⟨front, n, hnames⟩ := (List.eq_nil_or_concat' f.1).resolve_left hname.ne_nil
  have hn : Storable n := hname.storable n (by simp [hnames])
  have hq := hname.goesOn (passable_of_locate (find_ok h.found)).noNul hshort
  have hslash := hname.spells.endsWithSlash_child target
  generalize hpath : target.child (Text.join "/" f.1) = q at hq hslash
  rw [hnames] at hq
  obtain ⟨r, u, hparent, hmade, hpaved, hu, hways, hfree⟩ := h.pave hf hfiles hdone hnames hq
  have hfind := hways.find (by simp [h.isDirectory]) h.found
  have hdir := hways d _ h.isDirectory (by simp)
  obtain ⟨v, w, hempty, hfull, hw, hways', hfile, hkept⟩ :=
    fill_ok hu hfind hdir hq hn hpaved.made hslash hfree f.2
  obtain ⟨hdone', hafter⟩ := extractEntry_eq hname hpath hparent hmade hempty hfull
  refine ⟨hdone', hafter ▸ ?_⟩
  rw [← hnames] at hfile hkept
  exact h.add hf (hnames ▸ List.prefix_append _ _) hpaved hw (hways'.find (by simp [hdir]) hfind)
    (hways' d _ hdir (by simp)) hfile hkept

end Filled

/-! ### All files -/

/-- **All files that are still to come are unpacked.** -/
theorem Filled.extractAll (h : Filled start target d files done t) (hfiles : Apart files)
    (hall : files = done ++ rest)
    (hshort : ∀ f ∈ files, (target.child (Text.join "/" f.1)).text.utf8ByteSize < pathLimit) :
    outcome ((rest.map entryOf).mapM (Zip.extractEntry start target)) t =
        .ok (List.replicate rest.length true) ∧
      Filled start target d files files
        (after ((rest.map entryOf).mapM (Zip.extractEntry start target)) t) := by
  induction rest generalizing done t with
  | nil =>
    rw [List.append_nil] at hall
    exact ⟨rfl, hall ▸ h⟩
  | cons f rest ih =>
    have hf : f ∈ files := by simp [hall]
    have hdone : ∀ g ∈ done, g ∈ files ∧ g.1 ≠ f.1 := fun g hg => by
      refine ⟨by simp [hall, hg], fun heq => ?_⟩
      have hdistinct := hfiles.distinct
      rw [hall, List.map_append, List.map_cons, List.nodup_append] at hdistinct
      exact hdistinct.2.2 _ (List.mem_map_of_mem hg) _ List.mem_cons_self heq
    obtain ⟨hentry, hfilled⟩ := h.extractEntry hf hfiles hdone (hshort f hf)
    obtain ⟨hrest, hfilled'⟩ := ih hfilled (by simp [hall])
    rw [List.map_cons, List.mapM_cons, outcome_bind_ok hentry, after_bind_ok hentry,
      outcome_bind_ok hrest, after_bind_ok hrest]
    exact ⟨rfl, hfilled'⟩

end Filling

/-! ### Archives -/

section Archives

variable {start d : Place} {target : Path} {files : Files} {t : FileTree} {data : ByteArray}
  {names : List String} {content : ByteArray}

/-- The files of an archive are those that it holds entries of. -/
theorem filesOf_entryOf (hnames : ∀ f ∈ files, Nameable f.1)
    (hdistinct : (files.map Prod.fst).Nodup) :
    filesOf (files.map entryOf) names = some content ↔ (names, content) ∈ files := by
  induction files using List.reverseRecOn with
  | nil => simp [filesOf, FileMap.empty]
  | append_singleton files f ih =>
    obtain ⟨hbefore, -, hnew⟩ := List.nodup_append.mp (List.map_append ▸ hdistinct)
    have hf : Nameable f.1 := hnames f (by simp)
    have hlast : filesOf ((files ++ [f]).map entryOf) =
        (filesOf (files.map entryOf)).put f.1 f.2 := by
      have hgoal : (Path.mk (entryOf f).name).goal = f.1 := hf.spells.goal_eq
      have hdir : isDirectoryName (entryOf f).name = false := hf.isDirectoryName
      rw [filesOf, List.map_append, List.foldl_append, List.map_singleton, List.foldl_cons,
        List.foldl_nil, ArchiveEntry.applied, hgoal, hdir]
      rfl
    rw [hlast, List.mem_append, List.mem_singleton]
    by_cases hsame : names = f.1
    · subst hsame
      have hnone : (f.1, content) ∉ files := fun hmem =>
        hnew _ (List.mem_map_of_mem hmem) f.1 (by simp) rfl
      rw [FileMap.put_self]
      simp [hnone, Prod.ext_iff, eq_comm]
    · have hother : (names, content) ≠ f := fun heq => hsame (congrArg Prod.fst heq)
      rw [FileMap.put_of_ne hsame, ih (fun g hg => hnames g (by simp [hg])) hbefore]
      simp [hother]

theorem Bare.lies (h : Bare start target d t) : LiesAt t start target d := by
  refine ⟨leads_of_find h.found, ?_⟩
  rintro place ⟨names, rfl⟩ s hlink
  by_cases hnil : names = []
  · rw [hnil, List.append_nil, h.isDirectory] at hlink
    exact absurd hlink (by simp)
  · rw [h.empty names hnil] at hlink
    exact absurd hlink (by simp)

theorem Bare.contents_eq (h : Bare start target d t) : t.contents d = .empty := by
  funext names
  unfold contents
  by_cases hnil : names = []
  · rw [hnil, List.append_nil, h.isDirectory]
    rfl
  · rw [h.empty names hnil]
    rfl

/-- **An archive of files that do not get in each other's way is unpacked into an empty
directory.** -/
theorem Bare.extract (h : Bare start target d t) (hfiles : Apart files)
    (hread : entries? data = some (files.map entryOf))
    (hshort : ∀ f ∈ files, (target.child (Text.join "/" f.1)).text.utf8ByteSize < pathLimit) :
    outcome (extract start target data) t = .ok files.length ∧
      Filled start target d files files (after (Zip.extract start target data) t) ∧
      ∀ names content, (after (Zip.extract start target data) t).contents d names = some content ↔
        (names, content) ∈ files := by
  obtain ⟨hall, hfilled⟩ := h.filled.extractAll hfiles (List.nil_append files).symm hshort
  have hout : outcome (Zip.extract start target data) t = .ok files.length := by
    unfold Zip.extract
    rw [hread]
    dsimp only
    rw [outcome_bind_ok hall, outcome_pure, List.count_replicate_self]
  have hafter : after (Zip.extract start target data) t =
      after ((files.map entryOf).mapM (Zip.extractEntry start target)) t := by
    unfold Zip.extract
    rw [hread]
    dsimp only
    rw [after_bind_ok hall, after_pure]
  refine ⟨hout, hafter ▸ hfilled, fun names content => ?_⟩
  obtain ⟨entries, hentries, hcontents⟩ := contents_extract h.lies h.contents_eq hout
  obtain rfl := Option.some.inj (hread.symm.trans hentries)
  rw [hcontents, filesOf_entryOf hfiles.nameable hfiles.distinct]

theorem not_ok_writeBytes_of_long {q : Path} {u : FileTree}
    (hlong : pathLimit ≤ q.text.utf8ByteSize) : t.writeBytes start q content ≠ .ok u := by
  intro hwrite
  obtain ⟨spot, hspot, -⟩ := ok_of_bind hwrite
  exact absurd (passable_of_locate hspot).short (Nat.not_lt.mpr hlong)

/-- No file is unpacked under a path that is longer than paths may be. -/
theorem not_ok_extract_of_long {f : Place × ByteArray} {count : Nat} (hf : f ∈ files)
    (hname : isDirectoryName (Text.join "/" f.1) = false)
    (hread : entries? data = some (files.map entryOf))
    (hlong : pathLimit ≤ (target.child (Text.join "/" f.1)).text.utf8ByteSize) :
    outcome (Zip.extract start target data) t ≠ .ok count := by
  intro hout
  unfold Zip.extract at hout
  rw [hread] at hout
  obtain ⟨bs, hall, -⟩ := bind_ok hout
  obtain ⟨u, b, hentry⟩ := mapM_ok hall (entryOf f) (List.mem_map_of_mem hf)
  unfold Zip.extractEntry entryOf at hentry
  simp only [hname, Bool.false_eq_true, if_false] at hentry
  split at hentry
  · exact absurd hentry (by simp [Disk.fail])
  split at hentry
  · obtain ⟨⟨⟩, -, hentry⟩ := bind_ok hentry
    obtain ⟨⟨⟩, hwrite, -⟩ := bind_ok hentry
    exact not_ok_writeBytes_of_long hlong (ok_of_write hwrite)
  · obtain ⟨⟨⟩, hwrite, -⟩ := bind_ok hentry
    exact not_ok_writeBytes_of_long hlong (ok_of_write hwrite)

end Archives

end Zip

end ReviewMentor
