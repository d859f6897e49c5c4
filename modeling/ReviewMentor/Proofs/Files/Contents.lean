import Mathlib.Logic.Function.Basic
import ReviewMentor.Proofs.Files.Sound
import ReviewMentor.Zip.Archive

/-!
# Directories as maps

A directory without links is a map from lists of names to what the files with these names hold. A
write puts one entry into the map, at the names where its path ends up, and making directories
changes nothing. Where the tree is sound, an entry is found under every way to spell its names, and
an archive of the directory holds each entry once.
-/

namespace ReviewMentor

/-- What the files of a directory hold, by the names that lead to them. -/
abbrev FileMap := List String → Option ByteArray

namespace FileMap

/-- The map without files. -/
def empty : FileMap := fun _ => none

/-- The map in which a file holds other bytes than before, if it was there. -/
def put (m : FileMap) (names : List String) (content : ByteArray) : FileMap :=
  Function.update m names (some content)

variable {m : FileMap} {names : List String} {content : ByteArray}

theorem put_self : m.put names content names = some content := Function.update_self ..

theorem put_of_ne {other : List String} (h : other ≠ names) : m.put names content other = m other :=
  Function.update_of_ne h ..

theorem put_put (first : ByteArray) : (m.put names first).put names content = m.put names content :=
  Function.update_idem ..

/-- A file that holds what it is made to hold does not change. -/
theorem put_eq_self (h : m names = some content) : m.put names content = m := by
  rw [put, ← h, Function.update_eq_self]

end FileMap

namespace Path

/-- The names where steps end up that go on from other names. -/
def goalFrom : List String → List String → List String
  | names, [] => names
  | names, "." :: rest => goalFrom names rest
  | names, ".." :: rest => goalFrom names.dropLast rest
  | names, step :: rest => goalFrom (names ++ [step]) rest

/-- The names where a path ends up in the directory that it is followed from. -/
def goal (p : Path) : List String := goalFrom [] p.parts

theorem goalFrom_of_names {names steps more : List String}
    (h : steps.filterMap component? = more.map .name) : goalFrom names steps = names ++ more := by
  induction steps generalizing names more with
  | nil =>
    obtain rfl : more = [] := by simpa using h.symm
    rw [goalFrom, List.append_nil]
  | cons step rest ih =>
    by_cases hhere : step = "."
    · subst hhere
      rw [goalFrom]
      exact ih (by simpa [component?] using h)
    by_cases hup : step = ".."
    · -- Names hold no two dots.
      subst hup
      rcases more with _ | ⟨n, more⟩ <;> simp [component?] at h
    · rcases more with _ | ⟨n, more⟩
      · simp [component?, hhere, hup] at h
      simp only [List.filterMap_cons, component?, hhere, hup, if_false, List.map_cons,
        List.cons.injEq, Component.name.injEq] at h
      obtain ⟨rfl, hrest⟩ := h
      rw [goalFrom, ih hrest, List.append_assoc, List.singleton_append]
      all_goals assumption

/-- A text that spells names as a path within a directory: between its slashes stand the names in
their order, single dots and nothing, and the last name stands at its end. -/
structure Spells (file : String) (names : List String) : Prop where
  relative : (Path.mk file).isAbsolute = false
  steps : (Path.mk file).parts.filterMap component? = names.map .name
  ends : (Text.cut '/' file).getLast? = names.getLast?

namespace Spells

variable {file : String} {names : List String} (h : Spells file names)

include h

theorem goal_eq : (Path.mk file).goal = names := goalFrom_of_names h.steps

theorem ne_nil : names ≠ [] := by
  rintro rfl
  have hends := h.ends
  rw [List.getLast?_nil, List.getLast?_eq_none_iff] at hends
  exact Text.cut_ne_nil '/' file hends

theorem isName {name : String} (hname : name ∈ names) : IsName name :=
  isStep_of_mem (c := .name name) (p := ⟨file⟩) (h.steps ▸ List.mem_map_of_mem hname)

/-- The last part is the last name. -/
theorem getLast?_parts : (Path.mk file).parts.getLast? = names.getLast? := by
  obtain ⟨front, name, rfl⟩ := (List.eq_nil_or_concat' names).resolve_left h.ne_nil
  have hname : IsName name := h.isName (by simp)
  have hends := h.ends
  rw [List.getLast?_concat] at hends ⊢
  obtain ⟨before, hcut⟩ := List.getLast?_eq_some_iff.mp hends
  rw [parts, hcut, List.filter_append, List.filter_singleton]
  simp [hname.ne_empty]

theorem endsWithSlash_child (base : Path) : (base.child file).endsWithSlash = false := by
  obtain ⟨front, name, rfl⟩ := (List.eq_nil_or_concat' names).resolve_left h.ne_nil
  have hname : IsName name := h.isName (by simp)
  have hends := h.ends
  rw [List.getLast?_concat] at hends
  have hne : file ≠ "" := by
    rintro rfl
    rw [show Text.cut '/' "" = [""] by decide] at hends
    exact hname.ne_empty (Option.some.inj hends).symm
  rw [child, Path.endsWithSlash_join hne, ← Bool.not_eq_true]
  intro hslash
  obtain ⟨s, hs⟩ := exists_eq_append_slash hslash
  have hcut := Text.cut_append_slash s ""
  rw [String.append_empty, ← hs] at hcut
  rw [hcut, List.getLast?_append_of_ne_nil _ (Text.cut_ne_nil _ _),
    show Text.cut '/' "" = [""] by decide] at hends
  exact hname.ne_empty (Option.some.inj hends).symm

/-- Only the names and what is between them are in the text. -/
theorem noNul (hnames : ∀ name ∈ names, Char.ofNat 0 ∉ name.toList) :
    Char.ofNat 0 ∉ file.toList := by
  intro hnul
  have hmark : Char.ofNat 0 ≠ '/' := by decide
  obtain ⟨part, hpart, hmem⟩ := (Text.mem_cut hmark).mpr hnul
  have hne : part ≠ "" := by
    rintro rfl
    simp at hmem
  have hparts : part ∈ (Path.mk file).parts := mem_parts.mpr ⟨hpart, hne⟩
  rcases hc : component? part with _ | c
  · rw [component?_eq_none.mp hc] at hmem
    exact absurd hmem (by decide)
  · have hstep : c ∈ names.map Component.name :=
      h.steps ▸ List.mem_filterMap.mpr ⟨part, hparts, hc⟩
    obtain ⟨name, hname, rfl⟩ := List.mem_map.mp hstep
    unfold component? at hc
    split_ifs at hc
    · simp at hc
    · obtain rfl := Component.name.inj (Option.some.inj hc)
      exact hnames part hname hmem

/-- A dot and a slash before a path change nothing. -/
theorem dotted : Spells ("." ++ "/" ++ file) names := by
  have hcut : Text.cut '/' ("." ++ "/" ++ file) = "." :: Text.cut '/' file :=
    Text.cut_append_slash "." file
  refine ⟨by simp [isAbsolute], ?_, ?_⟩
  · rw [← h.steps, parts, hcut, List.filter_cons_of_pos (by decide)]
    rfl
  · rw [← h.ends, hcut, List.getLast?_cons_of_ne_nil (Text.cut_ne_nil _ _)]

end Spells

end Path

namespace FileTree

variable {t u : FileTree} {start place d : Place} {p target : Path} {names : List String}
  {content : ByteArray}

/-- What the files in a directory hold. -/
def contents (t : FileTree) (d : Place) : FileMap := fun names =>
  match t.lookup? (d ++ names) with
  | some (.file content _) => some content
  | _ => none

theorem contents_eq_some : t.contents d names = some content ↔
    ∃ mode, t.lookup? (d ++ names) = some (.file content mode) := by
  unfold contents
  split
  · next old mode hentry => simp [hentry]
  · next hother =>
    constructor
    · exact fun h => absurd h (by simp)
    · rintro ⟨mode, hentry⟩
      exact absurd hentry (hother content mode)

theorem contents_of_lookup?_eq (h : ∀ place, d <+: place → u.lookup? place = t.lookup? place) :
    u.contents d = t.contents d := by
  funext names
  rw [contents, contents, h _ (List.prefix_append _ _)]

/-- Directories hold nothing by themselves. -/
theorem WayMade.contents_eq (h : WayMade start p t u) (d : Place) :
    u.contents d = t.contents d := by
  funext names
  unfold contents
  rcases h.kept (d ++ names) with hkeep | ⟨-, hnone, hmade⟩
  · rw [hkeep]
  · rw [hnone, hmade]

/-! ### Writing -/

/-- Steps that never climb above a directory without links lead to the names where they end up. -/
theorem Leads.goal_eq {shun : Place → Prop} {steps : List String} {goal : Place}
    (hfree : LinkFree t d)
    (hstay : Zip.staysBelow names.length (steps.filterMap Path.component?) = true)
    (h : Leads t shun (d ++ names) steps goal) : goal = d ++ Path.goalFrom names steps := by
  induction steps generalizing names with
  | nil =>
    cases h
    rw [Path.goalFrom]
  | cons step rest ih =>
    by_cases hhere : step = "."
    · subst hhere
      rw [Path.goalFrom]
      exact ih (by simpa [Path.component?] using hstay) h.of_here
    by_cases hup : step = ".."
    · subst hup
      rcases List.eq_nil_or_concat' names with rfl | ⟨front, name, rfl⟩
      · simp [Path.component?, Zip.staysBelow] at hstay
      · have hclimb := h.of_up
        rw [← List.append_assoc, List.dropLast_concat] at hclimb
        rw [Path.goalFrom, List.dropLast_concat]
        exact ih (by simpa [Path.component?, Zip.staysBelow] using hstay) hclimb
    · rcases h.of_step hhere hup with ⟨-, h⟩ | ⟨s, hs, -⟩
      · rw [List.append_assoc] at h
        rw [Path.goalFrom]
        · refine ih ?_ h
          simpa [Path.component?, hhere, hup, Zip.staysBelow] using hstay
        all_goals assumption
      · refine absurd hs (hfree _ ?_ s)
        rw [List.append_assoc]
        exact List.prefix_append _ _

theorem LiesAt.leads_child {name : String} {goal : Place} (hlies : LiesAt t start target d)
    (hrel : (Path.mk name).isAbsolute = false)
    (hstay : Zip.staysBelow 0 ((Path.mk name).parts.filterMap Path.component?) = true)
    (h : Leads t nowhere (origin start (target.child name)) (target.child name).parts goal) :
    goal = d ++ (Path.mk name).goal := by
  have horigin : origin start (target.child name) = origin start target := by
    rw [origin, origin, Path.child, Path.isAbsolute_join, hrel, Bool.or_false]
  rw [horigin, Path.child, Path.parts_join hrel] at h
  obtain ⟨mid, hmid, hrest⟩ := h.split
  obtain rfl := hmid.unique hlies.leads
  rw [← List.append_nil mid] at hrest
  exact hrest.goal_eq hlies.linkFree hstay

/-- A write puts one entry where its path ends up, and changes no other one. -/
theorem contents_writeBytes {name : String} (hlies : LiesAt t start target d)
    (hrel : (Path.mk name).isAbsolute = false)
    (hstay : Zip.staysBelow 0 ((Path.mk name).parts.filterMap Path.component?) = true)
    (h : t.writeBytes start (target.child name) content = .ok u) :
    u.contents d = (t.contents d).put (Path.mk name).goal content := by
  obtain ⟨place, mode, hlead, -, hnew, hkeep⟩ := writeBytes_ok h
  obtain rfl := hlies.leads_child hrel hstay hlead
  funext names
  by_cases hnames : names = (Path.mk name).goal
  · subst hnames
    rw [FileMap.put_self]
    exact contents_eq_some.mpr ⟨mode, hnew⟩
  · rw [FileMap.put_of_ne hnames, contents, contents, hkeep _ fun heq => hnames ?_]
    exact List.append_cancel_left heq

/-! ### Reading -/

namespace Sound

/-- In a sound tree names that lead to a file are followed to that file, whatever dots are between
them. -/
theorem follow_names (h : t.Sound) {steps : List String} {jump : Place → String → List String →
      Except FileError Spot} (hfile : t.contents place names = some content) (hne : names ≠ [])
    (hnames : steps.filterMap Path.component? = names.map .name)
    (hends : steps.getLast? = names.getLast?) :
    t.follow true false jump place steps = .ok (.taken (place ++ names)) := by
  induction steps generalizing place names with
  | nil => exact absurd (by simpa using hnames.symm) hne
  | cons step rest ih =>
    by_cases hhere : step = "."
    · subst hhere
      have hnames' : rest.filterMap Path.component? = names.map .name := by
        simpa [Path.component?] using hnames
      have hrest : rest ≠ [] := by
        rintro rfl
        exact hne (by simpa using hnames'.symm)
      rw [follow_here]
      exact ih hfile hne hnames' (by rwa [List.getLast?_cons_of_ne_nil hrest] at hends)
    by_cases hup : step = ".."
    · subst hup
      rcases names with _ | ⟨n, names⟩ <;> simp [Path.component?] at hnames
    obtain ⟨n, more, rfl⟩ := List.exists_cons_of_ne_nil hne
    simp only [List.filterMap_cons, Path.component?, hhere, hup, if_false, List.map_cons,
      List.cons.injEq, Component.name.injEq] at hnames
    obtain ⟨rfl, hnames⟩ := hnames
    have hsplit : place ++ step :: more = place ++ [step] ++ more := by simp
    obtain ⟨mode, hentry⟩ := contents_eq_some.mp hfile
    rw [hsplit] at hentry ⊢
    by_cases hmore : more = []
    · -- Behind the last name there are no dots.
      subst hmore
      have hrest : rest = [] := by
        by_contra hne'
        rw [List.getLast?_cons_of_ne_nil hne'] at hends
        have hdots : ∀ s ∈ rest, s = "." := fun s hs =>
          Path.component?_eq_none.mp (List.filterMap_eq_nil_iff.mp hnames s hs)
        exact hhere (hdots step (List.mem_of_getLast? (hends.trans rfl)))
      subst hrest
      rw [List.append_nil] at hentry ⊢
      exact (h.grown place step _ hentry).2.enters.follow_taken hentry (by simp)
    · have hdir : t.lookup? (place ++ [step]) = some .directory :=
        h.directory_of_append hmore hentry
      have hrest : rest ≠ [] := by
        rintro rfl
        exact hmore (by simpa using hnames.symm)
      rw [(h.grown place step _ hdir).2.enters.follow_directory hdir]
      refine ih (contents_eq_some.mpr ⟨mode, hentry⟩) hmore hnames ?_
      rwa [List.getLast?_cons_of_ne_nil hrest, List.getLast?_cons_of_ne_nil hmore] at hends

/-- Every name on the way to a file can be stored. -/
theorem storable (h : t.Sound) (hfile : t.contents d names = some content) {name : String}
    (hname : name ∈ names) : Storable name := by
  obtain ⟨before, more, rfl⟩ := List.append_of_mem hname
  obtain ⟨mode, hentry⟩ := contents_eq_some.mp hfile
  have hsplit : d ++ (before ++ name :: more) = d ++ before ++ [name] ++ more := by simp
  rw [hsplit] at hentry
  by_cases hmore : more = []
  · rw [hmore, List.append_nil] at hentry
    exact (h.grown _ name _ hentry).2
  · exact (h.grown _ name _ (h.directory_of_append hmore hentry)).2

end Sound

/-- A file in a directory is found under every way to spell its names. -/
theorem Sound.find_spelled {file : String} (h : t.Sound) (hfind : t.find start true target = .ok d)
    (hdir : t.lookup? d = some .directory) (hfile : t.contents d names = some content)
    (hspells : Path.Spells file names)
    (hshort : (target.child file).text.utf8ByteSize < pathLimit) :
    t.find start true (target.child file) = .ok (d ++ names) := by
  have hparts : (target.child file).parts = target.parts ++ (Path.mk file).parts :=
    Path.parts_join hspells.relative
  have hmore : (Path.mk file).parts ≠ [] := by
    intro hnil
    have hsteps := hspells.steps
    rw [hnil] at hsteps
    exact hspells.ne_nil (by simpa using hsteps.symm)
  have hne : (target.child file).text ≠ "" := by
    intro hempty
    rw [show target.child file = ⟨""⟩ from congrArg Path.mk hempty, Path.parts_empty] at hparts
    exact hmore (List.append_eq_nil_iff.mp hparts.symm).2
  have hnul : Char.ofNat 0 ∉ (target.child file).text.toList := by
    have hfile' := hspells.noNul fun name hname => (h.storable hfile hname).noNul
    have htarget := (passable_of_locate (find_ok hfind)).noNul
    unfold Path.child Path.join
    rw [if_neg (by simp [hspells.relative])]
    split_ifs <;> simp [hfile', htarget]
  have hend : ∀ jump, t.follow true (target.child file).endsWithSlash jump d
      (Path.mk file).parts = .ok (.taken (d ++ names)) := by
    intro jump
    rw [hspells.endsWithSlash_child]
    exact h.follow_names hfile hspells.ne_nil hspells.steps hspells.getLast?_parts
  have horigin : origin start (target.child file) = origin start target := by
    rw [origin, origin, Path.child, Path.isAbsolute_join, hspells.relative, Bool.or_false]
  have hpass : Passable (target.child file) := ⟨hnul, hne, hshort⟩
  rw [find, hpass.locate_eq, horigin, hparts,
    followLinks_append hdir hmore hend (locate_ok (find_ok hfind))]

section Spelled

variable {file : String} (h : t.Sound) (hfind : t.find start true target = .ok d)
  (hdir : t.lookup? d = some .directory) (hfile : t.contents d names = some content)
  (hspells : Path.Spells file names)
  (hshort : (target.child file).text.utf8ByteSize < pathLimit)

include h hfind hdir hfile hspells hshort

theorem Sound.isFile_spelled : t.isFile start (target.child file) = true := by
  obtain ⟨mode, hentry⟩ := contents_eq_some.mp hfile
  simp [isFile, entry?, h.find_spelled hfind hdir hfile hspells hshort, hentry]

theorem Sound.readBytes_spelled : t.readBytes start (target.child file) = .ok content := by
  obtain ⟨mode, hentry⟩ := contents_eq_some.mp hfile
  simp [readBytes, h.find_spelled hfind hdir hfile hspells hshort, hentry, bind, Except.bind]

end Spelled

/-- What is read within a directory is what its map holds where the path ends up. -/
theorem LiesAt.contents_of_readBytes {name : String} (hlies : LiesAt t start target d)
    (hrel : (Path.mk name).isAbsolute = false)
    (hstay : Zip.staysBelow 0 ((Path.mk name).parts.filterMap Path.component?) = true)
    (h : t.readBytes start (target.child name) = .ok content) :
    t.contents d (Path.mk name).goal = some content := by
  unfold readBytes at h
  obtain ⟨place, hfind, hentry⟩ := Effect.ok_of_bind h
  obtain rfl := hlies.leads_child hrel hstay (leads_of_find hfind)
  split at hentry
  · next old mode hold =>
    obtain rfl := Except.ok.inj hentry
    exact contents_eq_some.mpr ⟨mode, hold⟩
  · exact absurd hentry (by simp)
  · exact absurd hentry (by simp)

theorem readBytes_of_isFile (h : t.isFile start p = true) :
    ∃ content, t.readBytes start p = .ok content := by
  unfold isFile entry? at h
  rcases hfind : t.find start true p with e | place <;> rw [hfind] at h
  · exact absurd h (by simp)
  · dsimp only at h
    split at h
    · next content mode hentry =>
      exact ⟨content, by simp [readBytes, hfind, hentry, bind, Except.bind]⟩
    · exact absurd h (by simp)

/-! ### All files -/

theorem mem_of_lookup? {e : Entry} (hne : place ≠ []) (h : t.lookup? place = some e) :
    (place, e) ∈ t.entries := by
  rw [lookup?_of_ne_nil hne] at h
  obtain ⟨before, after, hentries, -⟩ := List.lookup_eq_some_iff.mp h
  simp [hentries]

/-- A tree is sound if every entry lies in a directory. -/
theorem Sound.of_entries (hdistinct : (t.entries.map Prod.fst).Nodup)
    (hgrown : ∀ x ∈ t.entries, t.hasDirectory x.1.dropLast = true ∧
      ∀ name ∈ x.1.getLast?, Storable name)
    (htargets : ∀ x ∈ t.entries, ∀ s, x.2 = .link s → Char.ofNat 0 ∉ s.toList) : t.Sound := by
  refine ⟨hdistinct, fun place name e he => ?_, fun place s hs => ?_⟩
  · obtain ⟨hdir, hname⟩ := hgrown _ (mem_of_lookup? (by simp) he)
    rw [List.dropLast_concat] at hdir
    refine ⟨?_, hname name (by simp)⟩
    unfold hasDirectory at hdir
    split at hdir
    · assumption
    · exact absurd hdir (by simp)
  · have hne : place ≠ [] := by
      rintro rfl
      simp at hs
    exact htargets _ (mem_of_lookup? hne hs) s rfl

/-- Where there is one entry for each place, it is what stands there. -/
theorem lookup?_of_mem {e : Entry} (hdistinct : (t.entries.map Prod.fst).Nodup) (hne : place ≠ [])
    (hmem : (place, e) ∈ t.entries) : t.lookup? place = some e := by
  rw [lookup?_of_ne_nil hne, lookup_eq_some_iff_mem hdistinct]
  exact hmem

theorem Sound.lookup?_of_mem {e : Entry} (h : t.Sound) (hne : place ≠ [])
    (hmem : (place, e) ∈ t.entries) : t.lookup? place = some e :=
  FileTree.lookup?_of_mem h.distinct hne hmem

/-- The order in which places are listed is of no account. -/
theorem Sound.lookup?_perm (h : t.Sound) (hperm : u.entries.Perm t.entries) (place : Place) :
    u.lookup? place = t.lookup? place := by
  by_cases hne : place = []
  · subst hne
    rfl
  · rw [lookup?_of_ne_nil hne, lookup?_of_ne_nil hne, lookup_perm hperm h.distinct]

/-- The file that an entry is in a directory, by its names there. -/
def fileBelow? (d : Place) (x : Place × Entry) : Option (Place × ByteArray) :=
  match x.2 with
  | .file content _ =>
    if d.isPrefixOf x.1 && d != x.1 then some (x.1.drop d.length, content) else none
  | _ => none

theorem filesBelow_eq (t : FileTree) (d : Place) :
    t.filesBelow d = t.entries.filterMap (fileBelow? d) := rfl

theorem fileBelow?_eq_some {x : Place × Entry} : fileBelow? d x = some (names, content) ↔
    names ≠ [] ∧ ∃ mode, x = (d ++ names, .file content mode) := by
  obtain ⟨place, e⟩ := x
  rcases e with _ | ⟨old, mode⟩ | target
  · simp [fileBelow?]
  · constructor
    · intro h
      unfold fileBelow? at h
      dsimp only at h
      split_ifs at h with hbelow
      obtain ⟨hnames, rfl⟩ := Prod.mk.inj (Option.some.inj h)
      simp only [Bool.and_eq_true, List.isPrefixOf_iff_prefix, bne_iff_ne] at hbelow
      obtain ⟨⟨more, rfl⟩, hne⟩ := hbelow
      obtain rfl : more = names := by simpa using hnames
      exact ⟨by simpa using hne, mode, rfl⟩
    · rintro ⟨hne, mode', heq⟩
      obtain ⟨rfl, hfile⟩ := Prod.mk.inj heq
      obtain ⟨rfl, rfl⟩ := Entry.file.inj hfile
      simp [fileBelow?, hne]
  · simp [fileBelow?]

theorem mem_filesBelow (h : t.Sound) (hdir : t.lookup? d = some .directory) :
    (names, content) ∈ t.filesBelow d ↔ t.contents d names = some content := by
  rw [contents_eq_some, filesBelow_eq, List.mem_filterMap]
  constructor
  · rintro ⟨x, hmem, hx⟩
    obtain ⟨hne, mode, rfl⟩ := fileBelow?_eq_some.mp hx
    exact ⟨mode, h.lookup?_of_mem (by simp [hne]) hmem⟩
  · rintro ⟨mode, hfile⟩
    have hne : names ≠ [] := by
      rintro rfl
      rw [List.append_nil, hdir] at hfile
      exact absurd hfile (by simp)
    exact ⟨_, mem_of_lookup? (by simp [hne]) hfile, fileBelow?_eq_some.mpr ⟨hne, mode, rfl⟩⟩

/-- The names of a file can be read back from their path. -/
theorem cut_join_names (h : t.Sound) (hdir : t.lookup? d = some .directory)
    (hfile : t.contents d names = some content) : Text.cut '/' (Text.join "/" names) = names := by
  refine Text.cut_join (fun hnil => ?_) fun name hname => (h.storable hfile hname).isName.noSlash
  obtain ⟨mode, hentry⟩ := contents_eq_some.mp hfile
  rw [hnil, List.append_nil, hdir] at hentry
  exact absurd hentry (by simp)

theorem nodup_filesBelow (h : t.Sound) : ((t.filesBelow d).map Prod.fst).Nodup := by
  have hkeys : t.entries.Pairwise fun x y => x.1 ≠ y.1 := List.pairwise_map.mp h.distinct
  rw [filesBelow_eq]
  refine List.pairwise_map.mpr (List.pairwise_filterMap.mpr
    (hkeys.imp fun {x y} hxy a ha b hb heq => hxy ?_))
  obtain ⟨-, mode, rfl⟩ := fileBelow?_eq_some.mp ha
  obtain ⟨-, mode', rfl⟩ := fileBelow?_eq_some.mp hb
  rw [heq]

end FileTree

/-- **An archive holds each file of a directory once.** -/
theorem Zip.exportFiles_spec {t : FileTree} {start d : Place} {target : Path} (h : t.Sound)
    (hfind : t.find start true target = .ok d) (hdir : t.lookup? d = some .directory) :
    ((exportFiles t start target).map Prod.fst).Nodup ∧
    ∀ name content, (name, content) ∈ exportFiles t start target ↔
      ∃ names, t.contents d names = some content ∧ name = Text.join "/" names := by
  have hsorted : exportFiles t start target =
      ((t.filesBelow d).mergeSort fun a b => !b.1.lex a.1).map fun f =>
        (Text.join "/" f.1, f.2) := by
    simp only [exportFiles, hfind, hdir]
  have hperm := List.mergeSort_perm (t.filesBelow d) fun a b => !b.1.lex a.1
  rw [hsorted]
  constructor
  · rw [List.map_map]
    have hkeys := (hperm.map Prod.fst).nodup_iff.mpr (FileTree.nodup_filesBelow h)
    have hread : ∀ names ∈ ((t.filesBelow d).mergeSort fun a b => !b.1.lex a.1).map Prod.fst,
        Text.cut '/' (Text.join "/" names) = names := by
      intro names hnames
      obtain ⟨⟨names, content⟩, hmem, rfl⟩ := List.mem_map.mp hnames
      exact FileTree.cut_join_names h hdir
        ((FileTree.mem_filesBelow h hdir).mp (hperm.mem_iff.mp hmem))
    rw [show (Prod.fst ∘ fun f : Place × ByteArray => (Text.join "/" f.1, f.2)) =
      Text.join "/" ∘ Prod.fst from rfl, ← List.map_map]
    refine hkeys.map_on fun a ha b hb heq => ?_
    rw [← hread a ha, ← hread b hb, heq]
  · intro name content
    rw [List.mem_map]
    constructor
    · rintro ⟨⟨names, bytes⟩, hmem, heq⟩
      obtain ⟨rfl, rfl⟩ := Prod.mk.inj heq
      exact ⟨names, (FileTree.mem_filesBelow h hdir).mp (hperm.mem_iff.mp hmem), rfl⟩
    · rintro ⟨names, hfile, rfl⟩
      exact ⟨(names, content), hperm.mem_iff.mpr ((FileTree.mem_filesBelow h hdir).mpr hfile), rfl⟩

end ReviewMentor
