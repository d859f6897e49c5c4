import Mathlib
import ReviewMentor.Proofs.Zip.Marks
import ReviewMentor.Proofs.Zip.Restoring
import ReviewMentor.Zip.Writer

/-!
# Exports come back

An export of a directory holds each of its files once, in the order of their names, however the
files are listed. Names of a directory tree do not get in each other's way, so an export that is
unpacked into an empty directory leaves a copy of the files. It is only relied on that an archive
reads as it was written.
-/

namespace ReviewMentor

open FileTree Effect

namespace Zip

/-- Files in the order of their paths, compared name by name, each path once. -/
def InOrder (files : Files) : Prop := files.Pairwise fun f g => f.1 < g.1

/-- The files of a directory in the order in which they are exported. -/
def sortedBelow (t : FileTree) (d : Place) : Files :=
  (t.filesBelow d).mergeSort fun a b => !b.1.lex a.1

/-- A file of a directory on its way into an export. -/
def packing (f : Place × ByteArray) : Packing := ⟨Text.join "/" f.1, deflated, f.2⟩

section Sorting

variable {t u : FileTree} {d start : Place} {root : Path} {files : Files}

theorem not_lex_iff {a b : List String} : (!b.lex a) = true ↔ a ≤ b := by
  rw [Bool.not_eq_true', ← Bool.not_eq_true, List.lex_eq_true_iff_lt]
  exact not_lt

theorem ordered_sortedBelow (h : t.Sound) (d : Place) : InOrder (sortedBelow t d) := by
  have hle : (sortedBelow t d).Pairwise fun a b => a.1 ≤ b.1 := by
    refine (List.pairwise_mergeSort (fun a b c hab hbc => ?_) (fun a b => ?_) _).imp
      fun hab => not_lex_iff.mp hab
    · exact not_lex_iff.mpr (le_trans (not_lex_iff.mp hab) (not_lex_iff.mp hbc))
    · rw [Bool.or_eq_true, not_lex_iff, not_lex_iff]
      exact le_total _ _
  have hne : (sortedBelow t d).Pairwise fun a b => a.1 ≠ b.1 := by
    refine List.pairwise_map.mp (((List.mergeSort_perm _ _).map Prod.fst).nodup_iff.mpr ?_)
    exact nodup_filesBelow h
  exact (hle.and hne).imp fun hab => lt_of_le_of_ne hab.1 hab.2

theorem InOrder.eq_of_perm {files' : Files} (h : InOrder files) (h' : InOrder files')
    (hperm : files.Perm files') : files = files' :=
  hperm.eq_of_pairwise (fun _ _ _ _ hab hba => absurd (hab.trans hba) (lt_irrefl _)) h h'

theorem mem_sortedBelow (h : t.Sound) (hdir : t.lookup? d = some .directory) {names : List String}
    {content : ByteArray} :
    (names, content) ∈ sortedBelow t d ↔ t.contents d names = some content := by
  rw [sortedBelow, (List.mergeSort_perm _ _).mem_iff, mem_filesBelow h hdir]

theorem exportFiles_eq (hfind : t.find start true root = .ok d)
    (hdir : t.lookup? d = some .directory) :
    exportFiles t start root = (sortedBelow t d).map fun f => (Text.join "/" f.1, f.2) := by
  simp only [exportFiles, hfind, hdir, sortedBelow]

end Sorting

/-! ### Files of a directory tree -/

/-- A directory all of whose files can be exported: each is found under the path that its names give
and is smaller than 4 GiB, and its name does not end like that of a directory. -/
structure Exportable (start : Place) (root : Path) (d : Place) (t : FileTree) : Prop where
  sound : t.Sound
  found : t.find start true root = .ok d
  isDirectory : t.lookup? d = some .directory
  readable : ∀ names content, t.contents d names = some content →
    ∃ bytes, t.readBytes start (root.child (Text.join "/" names)) = .ok bytes
  small : ∀ names content, t.contents d names = some content → content.size < 2 ^ 32
  endings : ∀ names content, t.contents d names = some content →
    ∀ n ∈ names, n.toList.getLast? ≠ some '\\'

namespace Exportable

variable {t u : FileTree} {d start : Place} {root : Path} {names : List String}
  {content : ByteArray}

section Files

variable (h : Exportable start root d t)

include h

theorem nameable (hfile : t.contents d names = some content) : Nameable names := by
  refine ⟨?_, fun n hn => h.sound.storable hfile hn, fun n hn =>
    h.endings names content hfile n (List.mem_of_getLast? hn)⟩
  rintro rfl
  obtain ⟨mode, hentry⟩ := contents_eq_some.mp hfile
  rw [List.append_nil, h.isDirectory] at hentry
  exact absurd hentry (by simp)

/-- A file is never on the way to another one. -/
theorem apart : Apart (sortedBelow t d) := by
  have hmem : ∀ f ∈ sortedBelow t d, t.contents d f.1 = some f.2 := fun f hf =>
    (mem_sortedBelow h.sound h.isDirectory).mp hf
  refine ⟨fun f hf => h.nameable (hmem f hf), ?_, fun f hf g hg hpre => ?_⟩
  · exact ((List.mergeSort_perm _ _).map Prod.fst).nodup_iff.mpr (nodup_filesBelow h.sound)
  · obtain ⟨more, hmore⟩ := hpre
    obtain ⟨mode, hf'⟩ := contents_eq_some.mp (hmem f hf)
    obtain ⟨mode', hg'⟩ := contents_eq_some.mp (hmem g hg)
    rcases more with _ | ⟨n, more⟩
    · rw [← hmore, List.append_nil]
    · rw [← hmore, ← List.append_assoc] at hg'
      have hdir := h.sound.directory_of_append (by simp) hg'
      exact absurd (hf'.symm.trans hdir) (by simp)

/-- The path of a file that is found is not longer than paths may be. -/
theorem short (hfile : t.contents d names = some content) :
    (root.child (Text.join "/" names)).text.utf8ByteSize < pathLimit := by
  obtain ⟨bytes, hread⟩ := h.readable names content hfile
  exact (passable_of_readBytes hread).short

/-- What is read under the path of a file is what the file holds. -/
theorem readBytes_eq (hfile : t.contents d names = some content) :
    t.readBytes start (exportPath root (Text.join "/" names)) = .ok content := by
  have hname := h.nameable hfile
  have hne : Text.join "/" names ≠ "" := fun hempty => hname.ne_nil <| by
    have hparts := Path.parts_join_names hname.isName
    rw [hempty, Path.parts_empty] at hparts
    exact hparts.symm
  rw [exportPath, if_neg hne]
  exact h.sound.readBytes_spelled h.found h.isDirectory hfile hname.spells (h.short hfile)

/-- The order in which a tree lists its places does not matter. -/
theorem perm (hperm : u.entries.Perm t.entries) : Exportable start root d u := by
  have hsame := h.sound.lookup?_perm hperm
  have hcontents : u.contents d = t.contents d := contents_of_lookup?_eq fun place _ => hsame place
  have hext : FileTree.Extends t u := fun place _ => hsame place
  refine ⟨⟨(hperm.map Prod.fst).nodup_iff.mpr h.sound.distinct, ?_, ?_⟩, hext.find h.found,
    (hsame d).trans h.isDirectory, fun names content hfile => ?_, hcontents ▸ h.small,
    hcontents ▸ h.endings⟩
  · simpa only [hsame] using h.sound.grown
  · simpa only [hsame] using h.sound.targets
  · obtain ⟨bytes, hread⟩ := h.readable names content (hcontents ▸ hfile)
    obtain ⟨place, hfind, hentry⟩ := ok_of_bind hread
    refine ⟨bytes, ?_⟩
    unfold readBytes
    rw [hext.find hfind]
    simpa only [hsame, bind, Except.bind] using hentry

theorem sortedBelow_perm (hperm : u.entries.Perm t.entries) :
    sortedBelow u d = sortedBelow t d := by
  refine (ordered_sortedBelow (h.perm hperm).sound d).eq_of_perm (ordered_sortedBelow h.sound d) ?_
  refine (List.mergeSort_perm _ _).trans (List.Perm.trans ?_ (List.mergeSort_perm _ _).symm)
  rw [filesBelow_eq, filesBelow_eq]
  exact hperm.filterMap _

end Files

/-! ### Writing -/

theorem addFile_eq (h : Exportable start root d t) (w : Writer) (s : w.State)
    (hfile : t.contents d names = some content) :
    addFile w t start root s (Text.join "/" names) = w.add s (packing (names, content)) := by
  rw [addFile, h.readBytes_eq hfile]
  rfl

/-- An export writes the files of the directory in the order of their names. -/
theorem buildExport_eq (h : Exportable start root d t) (w : Writer) :
    buildExport w t start root = w.archive ((sortedBelow t d).map packing) := by
  have hfold : ∀ (files : Files) (s : w.State),
      (∀ f ∈ files, t.contents d f.1 = some f.2) →
      files.foldlM (fun s f => addFile w t start root s (Text.join "/" f.1)) s =
        files.foldlM (fun s f => w.add s (packing f)) s := by
    intro files
    induction files with
    | nil => exact fun _ _ => rfl
    | cons f files ih =>
      intro s hfiles
      rw [List.foldlM_cons, List.foldlM_cons, h.addFile_eq w s (hfiles f (by simp))]
      exact bind_congr fun s' => ih s' fun g hg => hfiles g (by simp [hg])
  rw [buildExport, exportFiles_eq h.found h.isDirectory, List.map_map, List.foldlM_map,
    Writer.archive, List.foldlM_map]
  exact congrArg (· >>= w.finish) (hfold _ _ fun f hf =>
    (mem_sortedBelow h.sound h.isDirectory).mp hf)

end Exportable

/-! ### Archives and their writers -/

/-- An archive has an entry for each of some files, in their order, with its name, its method and
its bytes. -/
def ReadsAs (data : ByteArray) (files : List Packing) : Prop :=
  (directory? data).map (·.map fun r => (r.name, r.method, r.content data)) =
    some (files.map fun f => (f.name, f.method, .bytes f.content true))

deriving instance DecidableEq for Content

instance (data : ByteArray) (files : List Packing) : Decidable (ReadsAs data files) :=
  inferInstanceAs (Decidable (_ = _))

/-- Files that any archive can hold: no two have one name, and neither names nor contents are too
long for the fields that give their sizes. -/
structure Writable (files : List Packing) : Prop where
  distinct : (files.map Packing.name).Nodup
  short : ∀ f ∈ files, f.name.utf8ByteSize < 2 ^ 16
  small : ∀ f ∈ files, f.content.size < 2 ^ 32

/-- What is relied on of a writer: files that an archive can hold are written, and read as they were
written. -/
def Writer.Keeps (w : Writer) (files : List Packing) : Prop :=
  Writable files → ∃ data, w.archive files = .ok data ∧ ReadsAs data files

theorem ReadsAs.entries?_eq {data : ByteArray} {files : Files}
    (h : ReadsAs data (files.map packing)) : entries? data = some (files.map entryOf) := by
  unfold ReadsAs at h
  obtain ⟨records, hrecords, hread⟩ := Option.map_eq_some_iff.mp h
  have hentries : entries? data = some (records.map fun r => ⟨r.name, r.content data⟩) := by
    simp [entries?, hrecords]
  have hmap := congrArg (List.map fun x : String × Nat × Content => ArchiveEntry.mk x.1 x.2.2) hread
  rw [List.map_map, List.map_map, List.map_map] at hmap
  rw [hentries]
  exact congrArg some hmap

/-! ### Copies -/

/-- One directory holds the files of another one, what leads to them, and nothing else. -/
structure Copied (t : FileTree) (d : Place) (u : FileTree) (e : Place) : Prop where
  contents : u.contents e = t.contents d
  entries : ∀ names x, names ≠ [] → u.lookup? (e ++ names) = some x →
    (x = .directory ∧ ∃ more content, t.contents d (names ++ more) = some content) ∨
      ∃ content mode, x = .file content mode

/-- What an export of a directory is: an archive of its files, each once and in the order of their
names, however the tree lists its places, that leaves a copy of the files in each empty directory
where it is unpacked and where their paths are not longer than paths may be. -/
structure Exported (w : Writer) (start : Place) (root : Path) (d : Place) (t : FileTree)
    (files : Files) (data : ByteArray) : Prop where
  ordered : InOrder files
  complete : ∀ names content, (names, content) ∈ files ↔ t.contents d names = some content
  built : ∀ u, u.entries.Perm t.entries → buildExport w u start root = .ok data
  read : ReadsAs data (files.map packing)
  restored : ∀ start' target e u, Bare start' target e u →
    (∀ f ∈ files, (target.child (Text.join "/" f.1)).text.utf8ByteSize < pathLimit) →
      outcome (extract start' target data) u = .ok files.length ∧
        Copied t d (after (extract start' target data) u) e

section Exports

variable {t : FileTree} {start d : Place} {root : Path} {w : Writer} {data : ByteArray}

theorem Exportable.writable (h : Exportable start root d t) :
    Writable ((sortedBelow t d).map packing) := by
  have hmem : ∀ f ∈ sortedBelow t d, t.contents d f.1 = some f.2 := fun f hf =>
    (mem_sortedBelow h.sound h.isDirectory).mp hf
  refine ⟨?_, List.forall_mem_map.mpr fun f hf => ?_, List.forall_mem_map.mpr fun f hf =>
    h.small _ _ (hmem f hf)⟩
  · have hnames := (exportFiles_spec h.sound h.found h.isDirectory).1
    rw [exportFiles_eq h.found h.isDirectory, List.map_map] at hnames
    rw [List.map_map]
    exact hnames
  · have hsize := Path.size_add_le_child (p := root) (h.nameable (hmem f hf)).spells.relative
    have hshort : _ < 4096 := h.short (hmem f hf)
    exact ((Nat.le_add_left _ _).trans hsize).trans_lt (hshort.trans (by decide))

/-- What stands in a directory that is filled is a copy. -/
theorem Filled.copied {start' e : Place} {target : Path} {files : Files} {u : FileTree}
    (h : Filled start' target e files files u)
    (hfiles : ∀ names content, (names, content) ∈ files ↔ t.contents d names = some content)
    (hcontents : ∀ names content, u.contents e names = some content ↔ (names, content) ∈ files) :
    Copied t d u e := by
  refine ⟨?_, fun names x hne hx => ?_⟩
  · funext names
    refine Option.ext fun content => ?_
    rw [hcontents, hfiles]
  · rcases h.entries names x hne hx with ⟨hdir, f, hf, ⟨more, hmore⟩, -⟩ | ⟨content, mode, hfile, -⟩
    · exact .inl ⟨hdir, more, f.2, (hfiles _ _).mp (by rwa [hmore])⟩
    · exact .inr ⟨content, mode, hfile⟩

/-- An export is written and can be read, however the tree lists its places. -/
theorem Exportable.archived (h : Exportable start root d t)
    (hw : w.Keeps ((exportFiles t start root).map fun f => ⟨f.1, deflated, f.2⟩)) :
    ∃ data, (∀ u, u.entries.Perm t.entries → buildExport w u start root = .ok data) ∧
      ReadsAs data ((sortedBelow t d).map packing) := by
  have hpackings : (exportFiles t start root).map (fun f => ⟨f.1, deflated, f.2⟩) =
      (sortedBelow t d).map packing := by
    rw [exportFiles_eq h.found h.isDirectory, List.map_map]
    rfl
  rw [hpackings] at hw
  obtain ⟨data, hdata, hread⟩ := hw h.writable
  refine ⟨data, fun u hperm => ?_, hread⟩
  rw [(h.perm hperm).buildExport_eq w, h.sortedBelow_perm hperm, hdata]

end Exports

/-! ### A directory with a hidden file, a link and an empty directory -/

/-- A number as so many bytes, the lowest ones first. -/
def littleEndian : Nat → Nat → List UInt8
  | 0, _ => []
  | count + 1, n => UInt8.ofNat n :: littleEndian count (n / 256)

namespace Packing

/-- The bytes of a file in one block that is not compressed. -/
def block (f : Packing) : List UInt8 :=
  1 :: [littleEndian 2 f.content.size, littleEndian 2 (65535 - f.content.size),
    f.content.toList].flatten

/-- What both headers of an entry say. -/
def fields (f : Packing) : List UInt8 :=
  [littleEndian 2 20, littleEndian 2 0x0800, littleEndian 2 f.method, littleEndian 4 0,
    littleEndian 4 (checksum f.content).toNat, littleEndian 4 f.block.length,
    littleEndian 4 f.content.size, littleEndian 2 f.name.utf8ByteSize, littleEndian 2 0].flatten

/-- An entry in front of the directory. -/
def entry (f : Packing) : List UInt8 :=
  [littleEndian 4 localMark, f.fields, f.name.toUTF8.toList, f.block].flatten

/-- The record of an entry in the directory. -/
def record (f : Packing) (header : Nat) : List UInt8 :=
  [littleEndian 4 recordMark, littleEndian 2 20, f.fields, littleEndian 10 0,
    littleEndian 4 header, f.name.toUTF8.toList].flatten

/-- The records of entries that follow one another. -/
def records : Nat → List Packing → List UInt8
  | _, [] => []
  | header, f :: files => f.record header ++ records (header + f.entry.length) files

/-- An archive of files whose bytes fit into one block each. -/
def archiveOf (files : List Packing) : ByteArray :=
  let entries := files.flatMap entry
  let directory := records 0 files
  ⟨([entries, directory, littleEndian 4 endMark, littleEndian 4 0, littleEndian 2 files.length,
    littleEndian 2 files.length, littleEndian 4 directory.length, littleEndian 4 entries.length,
    littleEndian 2 0].flatten).toArray⟩

end Packing

/-- A writer that does not compress, for small files. -/
def plainWriter : Writer where
  State := List Packing
  new := []
  startFile files name method := .ok (files ++ [⟨name, method, .empty⟩])
  write files content :=
    match files.getLast? with
    | some f =>
      if f.content.size + content.size < 2 ^ 16 then
        .ok (files.dropLast ++ [{ f with content := f.content ++ content }])
      else .error .invalid
    | none => .error .invalid
  finish files := .ok (Packing.archiveOf files)

/-- A directory with a hidden file, one in a directory, a link and an empty directory, beside an
empty one. -/
def sampleTree : FileTree :=
  ⟨[(["p"], .directory), (["p", "d"], .directory),
    (["p", "d", "b.py"], .file "b".toUTF8 defaultMode), (["p", "l"], .link "d/b.py"),
    (["p", ".env"], .file "c".toUTF8 defaultMode), (["p", "empty"], .directory),
    (["q"], .directory)]⟩

/-- The files of that directory in the order of their names. -/
def sampleFiles : Files := [([".env"], "c".toUTF8), (["d", "b.py"], "b".toUTF8)]

theorem sound_sampleTree : sampleTree.Sound :=
  .of_entries (by decide) (by decide) (by simp [sampleTree])

theorem mem_sampleFiles {names : List String} {content : ByteArray} :
    (names, content) ∈ sampleFiles ↔ sampleTree.contents ["p"] names = some content := by
  rw [← mem_filesBelow sound_sampleTree rfl, show sampleTree.filesBelow ["p"] =
    [(["d", "b.py"], "b".toUTF8), ([".env"], "c".toUTF8)] from rfl]
  simp [sampleFiles, or_comm]

/-- Every file of the directory can be read. -/
theorem readBytes_sampleFiles : ∀ f ∈ sampleFiles,
    sampleTree.readBytes [] (Path.child ⟨"/p"⟩ (Text.join "/" f.1)) = .ok f.2 := by
  decide

theorem exportable_sampleTree : Exportable [] ⟨"/p"⟩ ["p"] sampleTree where
  sound := sound_sampleTree
  found := by decide
  isDirectory := rfl
  readable names content hfile :=
    ⟨content, readBytes_sampleFiles (names, content) (mem_sampleFiles.mpr hfile)⟩
  small names content hfile := by
    have hsmall : ∀ f ∈ sampleFiles, f.2.size < 2 ^ 32 := by decide
    exact hsmall (names, content) (mem_sampleFiles.mpr hfile)
  endings names content hfile := by
    have hends : ∀ f ∈ sampleFiles, ∀ n ∈ f.1, n.toList.getLast? ≠ some '\\' := by decide
    exact hends (names, content) (mem_sampleFiles.mpr hfile)

theorem ordered_sampleFiles : InOrder sampleFiles := by
  unfold InOrder
  decide

theorem eq_sampleFiles {files : Files} (hordered : InOrder files)
    (hmem : ∀ names content, (names, content) ∈ files ↔
      sampleTree.contents ["p"] names = some content) : files = sampleFiles := by
  have hnodup : ∀ {files : Files}, InOrder files → files.Nodup := fun h =>
    h.imp fun hab heq => absurd (heq ▸ hab) (lt_irrefl _)
  refine hordered.eq_of_perm ordered_sampleFiles ((List.perm_ext_iff_of_nodup (hnodup hordered)
    (hnodup ordered_sampleFiles)).mpr fun f => ?_)
  exact (hmem f.1 f.2).trans mem_sampleFiles.symm

theorem keeps_sampleTree : plainWriter.Keeps
    ((exportFiles sampleTree [] ⟨"/p"⟩).map fun f => ⟨f.1, deflated, f.2⟩) := by
  have h := exportable_sampleTree
  have hsorted : sortedBelow sampleTree ["p"] = sampleFiles :=
    eq_sampleFiles (ordered_sortedBelow h.sound _) fun _ _ => mem_sortedBelow h.sound h.isDirectory
  have hread : ReadsAs (Packing.archiveOf (sampleFiles.map packing)) (sampleFiles.map packing) := by
    rw [ReadsAs, Packing.archiveOf, directory?_eq]
    decide +kernel
  rw [exportFiles_eq h.found h.isDirectory, hsorted, List.map_map]
  exact fun _ => ⟨_, rfl, hread⟩

theorem bare_sampleTree : Bare [] ⟨"/q"⟩ ["q"] sampleTree := by
  refine ⟨⟨sound_sampleTree, rfl⟩, by decide, rfl, fun names hne => ?_⟩
  by_contra hentry
  obtain ⟨e, he⟩ := Option.ne_none_iff_exists'.mp hentry
  have hmem := mem_of_lookup? (by simp) he
  simp [sampleTree, hne] at hmem

/-! ### A directory whose path is nearly too long -/

/-- A way down through so many directories of one name. -/
def deepPlace (n : Nat) : Place := List.replicate n "d"

/-- A tree that is nothing but such a way. -/
def deepTree (n : Nat) : FileTree :=
  ⟨(List.range n).map fun i => (deepPlace (i + 1), .directory)⟩

section Deep

variable {n i : Nat} {place : Place} {e : Entry}

theorem mem_deepTree : (place, e) ∈ (deepTree n).entries ↔
    ∃ i, i < n ∧ place = deepPlace (i + 1) ∧ e = .directory := by
  simp only [deepTree, List.mem_map, List.mem_range, Prod.mk.injEq]
  exact exists_congr fun i => and_congr_right fun _ => and_congr eq_comm eq_comm

theorem distinct_deepTree (n : Nat) : ((deepTree n).entries.map Prod.fst).Nodup := by
  rw [deepTree, List.map_map]
  refine List.nodup_range.map fun i j hij => ?_
  have hlength : (deepPlace (i + 1)).length = (deepPlace (j + 1)).length :=
    congrArg List.length hij
  simpa [deepPlace] using hlength

theorem lookup?_deepTree (h : i ≤ n) : (deepTree n).lookup? (deepPlace i) = some .directory := by
  rcases i with _ | i
  · rfl
  · exact FileTree.lookup?_of_mem (distinct_deepTree n) (by simp [deepPlace])
      (mem_deepTree.mpr ⟨i, h, rfl, rfl⟩)

theorem sound_deepTree (n : Nat) : (deepTree n).Sound := by
  refine .of_entries (distinct_deepTree n) (fun x hx => ?_) fun x hx s hs => ?_
  · obtain ⟨i, hi, hplace, -⟩ := mem_deepTree.mp hx
    have hfront : x.1.dropLast = deepPlace i := by simp [hplace, deepPlace]
    have hlast : x.1.getLast? = some "d" := by
      rw [hplace, deepPlace, List.replicate_succ', List.getLast?_concat]
    refine ⟨?_, fun name hname => ?_⟩
    · rw [hasDirectory, hfront, lookup?_deepTree hi.le]
    · rw [hlast] at hname
      obtain rfl := Option.some.inj hname
      decide
  · obtain ⟨i, -, -, hdir⟩ := mem_deepTree.mp hx
    exact absurd (hdir.symm.trans hs) (by simp)

theorem size_join_deepPlace (n : Nat) :
    (Text.join "/" (deepPlace (n + 1))).utf8ByteSize = 2 * n + 1 := by
  induction n with
  | zero => decide
  | succ n ih =>
    have hsplit : deepPlace (n + 1 + 1) = ["d"] ++ deepPlace (n + 1) := rfl
    rw [hsplit, Text.join_append (by simp) (by simp [deepPlace]), String.utf8ByteSize_append,
      String.utf8ByteSize_append, ih, show (Text.join "/" ["d"]).utf8ByteSize = 1 by decide,
      show "/".utf8ByteSize = 1 by decide]
    omega

/-- The path of the lowest directory. -/
def deepPath (n : Nat) : Path := Path.child ⟨"/"⟩ (Text.join "/" (deepPlace (n + 1)))

theorem nameable_deepPlace (n : Nat) : Nameable (deepPlace (n + 1)) := by
  have hd : ∀ name ∈ deepPlace (n + 1), name = "d" := fun name hname =>
    List.eq_of_mem_replicate hname
  refine ⟨by simp [deepPlace], fun name hname => ?_, fun name hname => ?_⟩
  · rw [hd name hname]
    decide
  · rw [hd name (List.mem_of_getLast? hname)]
    decide

theorem size_deepPath (n : Nat) : (deepPath n).text.utf8ByteSize = 2 * n + 2 := by
  have htext : (deepPath n).text = "/" ++ Text.join "/" (deepPlace (n + 1)) := by
    have hslash : Path.endsWithSlash ⟨"/"⟩ = true := by decide
    rw [deepPath, Path.child, Path.join, if_neg (by simp [(nameable_deepPlace n).spells.relative])]
    simp [hslash]
  rw [htext, String.utf8ByteSize_append, size_join_deepPlace,
    show "/".utf8ByteSize = 1 by decide]
  omega

theorem bare_deepTree (hshort : 2 * n + 2 < pathLimit) :
    Bare [] (deepPath n) (deepPlace (n + 1)) (deepTree (n + 1)) := by
  have hname := nameable_deepPlace n
  have hsplit : deepPlace (n + 1) = deepPlace n ++ ["d"] := List.replicate_succ'
  have hq : Path.GoesOn ⟨"/"⟩ (deepPlace n ++ ["d"]) (deepPath n) :=
    hsplit ▸ hname.goesOn (by decide) (size_deepPath n ▸ hshort)
  have hfind : (deepTree (n + 1)).find [] true (deepPath n) = .ok (deepPlace (n + 1)) := by
    rw [find, locate_last_directory (t := deepTree (n + 1)) (d := []) rfl rfl
      (sound_deepTree _) hq (by decide) (lookup?_deepTree n.le_succ)
      (hsplit ▸ lookup?_deepTree le_rfl), hsplit]
    rfl
  refine ⟨⟨sound_deepTree _, rfl⟩, hfind, lookup?_deepTree le_rfl, fun names hne => ?_⟩
  by_contra hentry
  obtain ⟨e, he⟩ := Option.ne_none_iff_exists'.mp hentry
  obtain ⟨i, hi, hplace, -⟩ := mem_deepTree.mp (mem_of_lookup? (by simp [hne]) he)
  have hlength := congrArg List.length hplace
  have hpos := List.length_pos_of_ne_nil hne
  simp only [deepPlace, List.length_append, List.length_replicate] at hlength
  omega

end Deep

/-! ### Exports come back -/

/-- **An export holds every file once, in order, and comes back as a copy.** -/
theorem export_comes_back (w : Writer) (start : Place) (root : Path) (d : Place) (t : FileTree)
    (h : Exportable start root d t)
    (hw : w.Keeps ((exportFiles t start root).map fun f => ⟨f.1, deflated, f.2⟩)) :
    ∃ files data, Exported w start root d t files data := by
  obtain ⟨data, hbuilt, hread⟩ := h.archived hw
  have hfiles : ∀ names content, (names, content) ∈ sortedBelow t d ↔
      t.contents d names = some content := fun _ _ => mem_sortedBelow h.sound h.isDirectory
  refine ⟨sortedBelow t d, data, ordered_sortedBelow h.sound d, hfiles, hbuilt, hread,
    fun start' target e u hbare hshort => ?_⟩
  obtain ⟨hout, hfilled, hcontents⟩ := hbare.extract h.apart hread.entries?_eq hshort
  exact ⟨hout, hfilled.copied hfiles hcontents⟩

/-- An export of that directory is unpacked into the empty one beside it. -/
theorem export_comes_back_sample :
    Exportable [] ⟨"/p"⟩ ["p"] sampleTree ∧
    plainWriter.Keeps ((exportFiles sampleTree [] ⟨"/p"⟩).map fun f => ⟨f.1, deflated, f.2⟩) ∧
    Bare [] ⟨"/q"⟩ ["q"] sampleTree ∧
    ∃ data, Exported plainWriter [] ⟨"/p"⟩ ["p"] sampleTree sampleFiles data ∧
      outcome (extract [] ⟨"/q"⟩ data) sampleTree = .ok 2 ∧
      (after (extract [] ⟨"/q"⟩ data) sampleTree).contents ["q"] =
        sampleTree.contents ["p"] := by
  obtain ⟨files, data, hexported⟩ := export_comes_back plainWriter [] ⟨"/p"⟩ ["p"] sampleTree
    exportable_sampleTree keeps_sampleTree
  obtain rfl := eq_sampleFiles hexported.ordered hexported.complete
  obtain ⟨hout, hcopied⟩ := hexported.restored [] ⟨"/q"⟩ ["q"] sampleTree bare_sampleTree
    (by decide)
  exact ⟨exportable_sampleTree, keeps_sampleTree, bare_sampleTree, data, hexported, hout,
    hcopied.contents⟩

/-- An export is not unpacked into an empty directory whose path leaves too little room for the
names of its files. -/
theorem export_lost_in_deep_directory :
    Exportable [] ⟨"/p"⟩ ["p"] sampleTree ∧
    plainWriter.Keeps ((exportFiles sampleTree [] ⟨"/p"⟩).map fun f => ⟨f.1, deflated, f.2⟩) ∧
    Bare [] (deepPath 2046) (deepPlace 2047) (deepTree 2047) ∧
    ∃ data, buildExport plainWriter sampleTree [] ⟨"/p"⟩ = .ok data ∧
      ∀ count, outcome (extract [] (deepPath 2046) data) (deepTree 2047) ≠ .ok count := by
  have h := exportable_sampleTree
  obtain ⟨data, hbuilt, hread⟩ := h.archived keeps_sampleTree
  refine ⟨h, keeps_sampleTree, bare_deepTree (by decide), data, hbuilt _ (List.Perm.refl _), ?_⟩
  have hfile : sampleTree.contents ["p"] [".env"] = some "c".toUTF8 := rfl
  have hname := h.nameable hfile
  have hsize := Path.size_add_le_child (p := deepPath 2046) hname.spells.relative
  rw [size_deepPath, show (Text.join "/" [".env"]).utf8ByteSize = 4 by decide] at hsize
  exact fun count => not_ok_extract_of_long ((mem_sortedBelow h.sound h.isDirectory).mpr hfile)
    hname.isDirectoryName hread.entries?_eq ((by decide : pathLimit ≤ _).trans hsize)

end Zip

end ReviewMentor
