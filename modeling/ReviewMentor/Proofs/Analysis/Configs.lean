import ReviewMentor.Analysis.Invoker
import ReviewMentor.Proofs.Files.Views
import ReviewMentor.Proofs.Path.Slashed

/-!
# Generated files

Writing the file that configures an analyzer puts a new file under another name first and moves it
then. Only what stands under these names can be a link before and none after it, or the other way
round; and a link that is moved stays in its directory. So a directory without links stays without
links, unless it is itself named like a generated file.
-/

namespace ReviewMentor.Invoker

open FileTree Effect

variable {v : Invoker} {t u : FileTree} {start place dest : Place} {name file : String}

/-- The names under which generated files are written and kept. -/
def configNames (v : Invoker) : List String :=
  ([.ruff, .pylint, .bandit, .radon].filterMap Analyzer.configFile?).flatMap fun file =>
    [v.stagingName file, file]

/-- A place on the way to which stands a generated file, or that of one. -/
def Generated (v : Invoker) (place : Place) : Prop := ∃ n ∈ place, n ∈ v.configNames

theorem mem_configNames {a : Analyzer} (h : a.configFile? = some file) :
    file ∈ v.configNames ∧ v.stagingName file ∈ v.configNames := by
  have hall : file ∈ [Analyzer.ruff, .pylint, .bandit, .radon].filterMap Analyzer.configFile? :=
    List.mem_filterMap.mpr ⟨a, by cases a <;> simp, h⟩
  exact ⟨List.mem_flatMap.mpr ⟨file, hall, by simp⟩, List.mem_flatMap.mpr ⟨file, hall, by simp⟩⟩

theorem getLast?_stagingName (v : Invoker) (file : String) :
    (v.stagingName file).toList.getLast? = some 'p' := by
  unfold stagingName
  rw [String.toList_append, List.getLast?_append_of_ne_nil _ (by decide)]
  decide

theorem noSlash_stagingName (h : '/' ∉ file.toList) : '/' ∉ (v.stagingName file).toList := by
  unfold stagingName
  intro hm
  simp only [String.toList_append, String.toList_ofList, List.mem_append] at hm
  rcases hm with ((hm | hm) | hm) | hm
  · exact h ((List.dropWhile_suffix _).subset hm)
  · exact absurd hm (by decide)
  · rw [Nat.toString_eq_ofList_toDigits, String.toList_ofList] at hm
    exact absurd (Nat.isDigit_of_mem_toDigits (by decide) (by decide) hm) (by decide)
  · exact absurd hm (by decide)

/-- A generated file has a name, which ends as no name of a session does. -/
theorem isName_configNames (h : name ∈ v.configNames) :
    Path.IsName name ∧ name.toList.getLast? ≠ some '7' := by
  obtain ⟨file, hfile, hname⟩ := List.mem_flatMap.mp h
  have hfixed : file = "ruff.toml" ∨ file = ".pylintrc" ∨ file = ".bandit" := by
    simpa [Analyzer.configFile?] using hfile
  rcases List.mem_pair.mp hname with rfl | rfl
  · have hlast := v.getLast?_stagingName file
    refine ⟨⟨?_, ?_, ?_, noSlash_stagingName ?_⟩, by rw [hlast]; decide⟩
    · intro e
      rw [e] at hlast
      exact absurd hlast (by decide)
    · intro e
      rw [e] at hlast
      exact absurd hlast (by decide)
    · intro e
      rw [e] at hlast
      exact absurd hlast (by decide)
    · rcases hfixed with rfl | rfl | rfl <;> decide
  · rcases hfixed with rfl | rfl | rfl <;>
      exact ⟨⟨by decide, by decide, by decide, by decide⟩, by decide⟩

/-! ### Links -/

/-- Links only came or went where generated files are, and none came into a directory without
links. -/
structure ConfigKept (v : Invoker) (t u : FileTree) : Prop where
  links : ∀ place, ¬ v.Generated place → ∀ s,
    u.lookup? place = some (.link s) ↔ t.lookup? place = some (.link s)
  linkFree : ∀ dest last, dest.getLast? = some last → last ∉ v.configNames → LinkFree t dest →
    LinkFree u dest

instance (v : Invoker) : Std.Refl v.ConfigKept :=
  ⟨fun _ => ⟨fun _ _ _ => Iff.rfl, fun _ _ _ _ h => h⟩⟩

instance (v : Invoker) : IsTrans FileTree v.ConfigKept :=
  ⟨fun _ _ _ h h' => ⟨fun place hp s => (h'.links place hp s).trans (h.links place hp s),
    fun dest last hlast hname hfree =>
      h'.linkFree dest last hlast hname (h.linkFree dest last hlast hname hfree)⟩⟩

theorem configKept_of_sameLinks (h : SameLinks t u) : v.ConfigKept t u :=
  ⟨fun place _ s => h place s, fun _ _ _ _ hfree => h.linkFree hfree⟩

/-- A path to a name in a directory leads to that name, whatever stands there. -/
theorem place_of_child {p : Path} {n : String} {spot : Spot} (hn : Path.IsName n)
    (h : t.locate start false (p.child n) = .ok spot) :
    ∃ mid, Leads t nowhere (origin start p) p.parts mid ∧ spot.place = mid ++ [n] := by
  have hwalk := walk_of_locate h
  have horigin : origin start (p.child n) = origin start p := by
    rw [origin, origin, Path.isAbsolute_child hn]
  rw [Path.parts_child hn, horigin] at hwalk
  exact hwalk.ends ⟨hn.ne_here, hn.ne_up⟩ rfl (Path.endsWithSlash_child hn)

/-- Moving a generated file to its name. -/
theorem configKept_rename {p : Path} {from' to' : String} (hfrom : from' ∈ v.configNames)
    (hto : to' ∈ v.configNames) (h : t.rename start (p.child from') (p.child to') = .ok u) :
    v.ConfigKept t u := by
  rcases rename_ok h with rfl | ⟨old, spot, e, hold, hspot, hentry, -, -, rfl⟩
  · exact refl_of v.ConfigKept u
  obtain ⟨mid, hmid, hplace⟩ := place_of_child (isName_configNames hfrom).1 hold
  obtain ⟨mid', hmid', hnew⟩ := place_of_child (isName_configNames hto).1 hspot
  obtain rfl := hmid'.unique hmid
  obtain rfl : old = mid' ++ [from'] := hplace
  rw [hnew]
  have hne : mid' ++ [to'] ≠ [] := by simp
  refine ⟨fun place hp s => ?_, fun dest last hlast hname hfree place hp s hs => ?_⟩
  · -- neither of the two names is on the way to the place
    have hother : place ≠ mid' ++ [to'] := by
      rintro rfl
      exact hp ⟨to', by simp, hto⟩
    have hbeside : ¬ mid' ++ [from'] <+: place := fun hpre =>
      hp ⟨from', hpre.subset (by simp), hfrom⟩
    rw [lookup?_set_of_ne hne hother, lookup?_drop_beside hbeside]
  · by_cases hmoved : place = mid' ++ [to']
    · -- a link that was moved here was in the same directory before
      subst hmoved
      rw [lookup?_set_self hne, Option.some.injEq] at hs
      subst hs
      rcases List.prefix_concat_iff.mp hp with rfl | hp
      · rw [List.getLast?_concat, Option.some.injEq] at hlast
        exact hname (hlast ▸ hto)
      · exact hfree _ (hp.trans (List.prefix_append _ _)) s hentry
    · rw [lookup?_set_of_ne hne hmoved] at hs
      by_cases hbelow : mid' ++ [from'] <+: place
      · have hplace : place ≠ [] := by
          rintro rfl
          simp at hbelow
        rw [lookup?_drop_below hbelow hplace] at hs
        exact absurd hs (by simp)
      · rw [lookup?_drop_beside hbelow] at hs
        exact hfree place hp s hs

/-- Writing the file that configures an analyzer keeps the links elsewhere. -/
theorem keeps_ensureConfig (v : Invoker) (start : Place) (a : Analyzer) :
    Keeps v.ConfigKept (v.ensureConfig start a) := by
  unfold ensureConfig
  split
  · next file content hfile _ =>
    obtain ⟨hto, hfrom⟩ := mem_configNames (v := v) hfile
    refine Keeps.bind ?_ fun _ => Keeps.bind ?_ fun _ => Keeps.bind ?_ fun _ => Keeps.pure _
    · intro t
      exact configKept_of_sameLinks (wayMade_makeDirectories t start _).sameLinks
    · exact Disk.keeps_change fun t u h => configKept_of_sameLinks (sameLinks_writeBytes h)
    · exact Disk.keeps_change fun t u h => configKept_rename hfrom hto h
  · exact Keeps.pure _

/-! ### Where generated files are -/

/-- A place where the path of a generated file leads, or at that name where the path of the
directory of generated files leads. -/
def ConfigPlace (v : Invoker) (start : Place) (t : FileTree) (place : Place) : Prop :=
  ∃ name ∈ v.configNames,
    Leads t nowhere (origin start (v.configDirectory.child name))
      (v.configDirectory.child name).parts place ∨
    ∃ mid, Leads t nowhere (origin start v.configDirectory) v.configDirectory.parts mid ∧
      mid ++ [name] <+: place

/-- Directories were made on the way to the generated files, and what stands where these are was
changed, but nothing else. -/
def ConfigWritten (v : Invoker) (start : Place) (t u : FileTree) : Prop :=
  ∀ place, u.lookup? place = t.lookup? place ∨
    (Passes t (origin start v.configDirectory) v.configDirectory.parts place ∧
      t.lookup? place = none ∧ u.lookup? place = some .directory) ∨
    v.ConfigPlace start t place

theorem ConfigPlace.congr (h : SameLinks t u) (hplace : v.ConfigPlace start u place) :
    v.ConfigPlace start t place := by
  obtain ⟨name, hname, hlead | ⟨mid, hmid, hbelow⟩⟩ := hplace
  · exact ⟨name, hname, .inl (h.symm.leads hlead)⟩
  · exact ⟨name, hname, .inr ⟨mid, h.symm.leads hmid, hbelow⟩⟩

theorem ConfigWritten.trans {w : FileTree} (hlinks : SameLinks t u) (h : v.ConfigWritten start t u)
    (h' : v.ConfigWritten start u w) : v.ConfigWritten start t w := by
  intro place
  rcases h' place with hkeep' | ⟨hpass', hnone', hmade'⟩ | hconfig
  · rw [hkeep']
    exact h place
  · rcases h place with hkeep | ⟨-, -, hmade⟩ | hconfig
    · exact .inr (.inl ⟨hpass'.congr hlinks.symm, hkeep ▸ hnone', hmade'⟩)
    · simp [hmade] at hnone'
    · exact .inr (.inr hconfig)
  · exact .inr (.inr (hconfig.congr hlinks))

theorem ConfigWritten.bind {ε α β : Type} {w : Disk ε α} {f : α → Disk ε β}
    (hlinks : SameLinks t (after w t)) (hw : v.ConfigWritten start t (after w t))
    (hf : ∀ a, v.ConfigWritten start (after w t) (after (f a) (after w t))) :
    v.ConfigWritten start t (after (w >>= f) t) := by
  rw [after_bind]
  split
  · exact hw.trans hlinks (hf _)
  · exact hw

theorem configWritten_writeBytes {content : ByteArray} (hname : name ∈ v.configNames)
    (h : t.writeBytes start (v.configDirectory.child name) content = .ok u) :
    v.ConfigWritten start t u := by
  obtain ⟨spot, mode, hlead, -, -, hkeep⟩ := writeBytes_ok h
  intro place
  by_cases hplace : place = spot
  · exact .inr (.inr ⟨name, hname, .inl (hplace ▸ hlead)⟩)
  · exact .inl (hkeep place hplace)

theorem configWritten_rename {from' to' : String} (hfrom : from' ∈ v.configNames)
    (hto : to' ∈ v.configNames)
    (h : t.rename start (v.configDirectory.child from') (v.configDirectory.child to') = .ok u) :
    v.ConfigWritten start t u := by
  rcases rename_ok h with rfl | ⟨old, spot, e, hold, hspot, -, -, -, rfl⟩
  · exact fun _ => .inl rfl
  obtain ⟨mid, hmid, hplace⟩ := place_of_child (isName_configNames hfrom).1 hold
  obtain ⟨mid', hmid', hnew⟩ := place_of_child (isName_configNames hto).1 hspot
  obtain rfl : old = mid ++ [from'] := hplace
  intro place
  by_cases hnewp : place = mid' ++ [to']
  · exact .inr (.inr ⟨to', hto, .inr ⟨mid', hmid', hnewp ▸ List.prefix_refl _⟩⟩)
  by_cases holdp : mid ++ [from'] <+: place
  · exact .inr (.inr ⟨from', hfrom, .inr ⟨mid, hmid, holdp⟩⟩)
  · rw [hnew, lookup?_set_of_ne (by simp) hnewp, lookup?_drop_beside holdp]
    exact .inl rfl

/-- **Writing the file that configures an analyzer** changes nothing but generated files. -/
theorem configWritten_ensureConfig (v : Invoker) (start : Place) (a : Analyzer) (t : FileTree) :
    v.ConfigWritten start t (after (v.ensureConfig start a) t) := by
  unfold ensureConfig
  split
  · next file content hfile _ =>
    obtain ⟨hto, hfrom⟩ := mem_configNames (v := v) hfile
    have hway := wayMade_makeDirectories t start v.configDirectory
    refine .bind hway.sameLinks (fun place => ?_) fun _ => .bind ?_ ?_ fun _ => ?_
    · exact (hway.kept place).imp_right .inl
    · exact Disk.after_change_of (.refl _) fun u h => sameLinks_writeBytes h
    · exact Disk.after_change_of (fun _ => .inl rfl) fun u h => configWritten_writeBytes hfrom h
    · rw [after_bind_pure]
      exact Disk.after_change_of (fun _ => .inl rfl) fun u h => configWritten_rename hfrom hto h
  · exact fun _ => .inl rfl

/-! ### Seen from elsewhere -/

/-- Moving a generated file looks the same from every directory that is not named like one. -/
theorem rename_seenFrom_config {p : Path} {from' to' last : String}
    (hlast : dest.getLast? = some last)
    (hname : last ∉ v.configNames) (hfrom : from' ∈ v.configNames) (hto : to' ∈ v.configNames) :
    ((t.seenFrom dest).rename start (p.child from') (p.child to')).map (seenFrom dest) =
      (t.rename start (p.child from') (p.child to')).map (seenFrom dest) := by
  refine rename_seenFrom fun old spot hold hspot hbelow => ?_
  obtain ⟨mid, hmid, hplace⟩ := place_of_child (isName_configNames hfrom).1 hold
  obtain ⟨mid', hmid', hnew⟩ := place_of_child (isName_configNames hto).1 hspot
  obtain rfl := hmid'.unique hmid
  obtain rfl : old = mid' ++ [from'] := hplace
  rw [hnew] at hbelow
  rcases List.prefix_concat_iff.mp hbelow with rfl | hbelow
  · rw [List.getLast?_concat, Option.some.injEq] at hlast
    exact absurd (hlast ▸ hto) hname
  · exact hbelow.trans (List.prefix_append _ _)

/-- Writing the file that configures an analyzer reads no file. -/
theorem respects_ensureConfig {last : String} (hlast : dest.getLast? = some last)
    (hname : last ∉ v.configNames) (start : Place) (a : Analyzer) :
    Respects (SameView dest) (v.ensureConfig start a) := by
  unfold ensureConfig
  split
  · next file content hfile _ =>
    obtain ⟨hto, hfrom⟩ := mem_configNames (v := v) hfile
    refine (Disk.respects_makeDirectories start _).bind fun _ => ?_
    refine (Disk.respects_writeText start _ content).bind fun _ => ?_
    refine (Disk.respects_change fun t => ?_).bind fun _ => Respects.pure _
    exact rename_seenFrom_config hlast hname hfrom hto
  · exact Respects.pure _

end ReviewMentor.Invoker
