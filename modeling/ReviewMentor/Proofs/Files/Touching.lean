import ReviewMentor.Files.Disk
import ReviewMentor.Proofs.Effects
import ReviewMentor.Proofs.Files.Passing

/-!
# What operations touch

Each operation on files is described by what it leaves of a tree: directories are only made on the
way that a path takes, a write changes one file where its path leads, and what is removed is removed
where its path leads. No operation but moving changes the links of a tree.
-/

namespace ReviewMentor.FileTree

variable {t u v : FileTree} {start dest place : Place} {p q target : Path}

/-! ### Directories on the way -/

/-- Directories were added where a path passes, and nothing else was changed. -/
structure WayMade (start : Place) (p : Path) (t u : FileTree) : Prop where
  kept : ∀ place, u.lookup? place = t.lookup? place ∨
    Passes t (origin start p) p.parts place ∧
      t.lookup? place = none ∧ u.lookup? place = some .directory

namespace WayMade

theorem refl (start : Place) (p : Path) (t : FileTree) : WayMade start p t t :=
  ⟨fun _ => .inl rfl⟩

theorem sameLinks (h : WayMade start p t u) : SameLinks t u := by
  intro place s
  rcases h.kept place with hkeep | ⟨-, hnone, hmade⟩
  · rw [hkeep]
  · simp [hnone, hmade]

theorem trans (h : WayMade start p t u) (h' : WayMade start p u v) : WayMade start p t v := by
  refine ⟨fun place => ?_⟩
  rcases h'.kept place with hkeep' | ⟨hpass', hnone', hmade'⟩
  · rw [hkeep']
    exact h.kept place
  · rcases h.kept place with hkeep | ⟨-, -, hmade⟩
    · exact .inr ⟨hpass'.congr h.sameLinks.symm, hkeep ▸ hnone', hmade'⟩
    · simp [hmade] at hnone'

/-- The way of a path goes on where another path goes on. -/
theorem extend (hparts : q.parts <+: p.parts) (habs : q.isAbsolute = p.isAbsolute)
    (h : WayMade start q t u) : WayMade start p t u := by
  refine ⟨fun place => ?_⟩
  rcases h.kept place with hkeep | ⟨hpass, hnone, hmade⟩
  · exact .inl hkeep
  · have horigin : origin start q = origin start p := by rw [origin, origin, habs]
    exact .inr ⟨horigin ▸ hpass.extend hparts, hnone, hmade⟩

end WayMade

theorem wayMade_makeDirectory (h : t.makeDirectory start p = .ok u) : WayMade start p t u := by
  unfold makeDirectory at h
  rcases hspot : t.locate start false p with e | (taken | ⟨directory, name⟩)
  · simp [hspot, bind, Except.bind] at h
  · simp [hspot, bind, Except.bind] at h
  · obtain rfl : t.set (directory ++ [name]) .directory = u := by
      simpa [hspot, bind, Except.bind] using h
    have hwalk := walk_of_locate hspot
    have hne : directory ++ [name] ≠ [] := by simp
    refine ⟨fun place => ?_⟩
    by_cases hp : place = directory ++ [name]
    · subst hp
      exact .inr ⟨hwalk.passes_free, hwalk.leads_free.2, lookup?_set_self hne⟩
    · exact .inl (lookup?_set_of_ne hne hp)

/-- Making directories adds nothing but directories on the way, also when it fails. -/
theorem wayMade_makeDirectoriesUpTo (depth : Nat) (t : FileTree) (start : Place) (p : Path) :
    WayMade start p t (makeDirectoriesUpTo depth t start p).1 := by
  induction depth generalizing t p with
  | zero => exact .refl ..
  | succ depth ih =>
    rw [makeDirectoriesUpTo]
    split
    · exact .refl ..
    split
    · next u hu => exact wayMade_makeDirectory hu
    · split
      · exact .refl ..
      · next parent hparent =>
        obtain ⟨hparts, habs⟩ := Path.parts_parent? hparent
        have hway : WayMade start p t (makeDirectoriesUpTo depth t start parent).1 :=
          (ih t parent).extend hparts habs
        split
        · next hmade => rwa [hmade] at hway
        · next u hmade =>
          rw [hmade] at hway
          split
          · next w hw => exact hway.trans (wayMade_makeDirectory hw)
          · split <;> exact hway
    · split <;> exact .refl ..

theorem wayMade_makeDirectories (t : FileTree) (start : Place) (p : Path) :
    WayMade start p t (t.makeDirectories start p).1 :=
  wayMade_makeDirectoriesUpTo ..

/-! ### Writing and removing -/

/-- A write changes one file, where its path leads. -/
theorem writeBytes_ok {content : ByteArray} (h : t.writeBytes start p content = .ok u) :
    ∃ place mode, Leads t nowhere (origin start p) p.parts place ∧
      (∀ s, t.lookup? place ≠ some (.link s)) ∧
      u.lookup? place = some (.file content mode) ∧
      ∀ other, other ≠ place → u.lookup? other = t.lookup? other := by
  unfold writeBytes at h
  rcases hspot : t.locate start true p with e | (place | ⟨directory, name⟩)
  · simp [hspot, bind, Except.bind] at h
  · simp only [hspot, bind, Except.bind] at h
    split at h
    · next old mode hentry =>
      obtain rfl := Except.ok.inj h
      have hdir : t.lookup? place ≠ some .directory := by simp [hentry]
      have hne : place ≠ [] := ne_nil_of_lookup?_ne_directory hdir
      refine ⟨place, mode, ?_, by simp [hentry], lookup?_set_self hne,
        fun other ho => lookup?_set_of_ne hne ho⟩
      exact (walk_of_locate hspot).leads
    · exact absurd h (by simp)
    · exact absurd h (by simp)
  · simp only [hspot, bind, Except.bind] at h
    split at h
    · exact absurd h (by simp)
    · obtain rfl := Except.ok.inj h
      obtain ⟨hlead, hnone⟩ := (walk_of_locate hspot).leads_free
      have hne : directory ++ [name] ≠ [] := by simp
      exact ⟨_, defaultMode, hlead, by simp [hnone], lookup?_set_self hne,
        fun other ho => lookup?_set_of_ne hne ho⟩

/-- A write puts no link anywhere and replaces none. -/
theorem sameLinks_writeBytes {p : Path} {content : ByteArray}
    (h : t.writeBytes start p content = .ok u) : SameLinks t u := by
  obtain ⟨place, mode, -, hnolink, hnew, hkeep⟩ := writeBytes_ok h
  intro other s
  by_cases ho : other = place
  · subst ho
    simp [hnew, hnolink s]
  · rw [hkeep other ho]

theorem find_ok {last : Bool} (h : t.find start last p = .ok place) :
    t.locate start last p = .ok (.taken place) := by
  unfold find at h
  split at h
  · next hspot => rw [hspot, Except.ok.inj h]
  · exact absurd h (by simp)
  · exact absurd h (by simp)

theorem passable_of_readBytes {content : ByteArray} (h : t.readBytes start p = .ok content) :
    Passable p := by
  obtain ⟨place, hfind, -⟩ := Effect.ok_of_bind h
  exact passable_of_locate (find_ok hfind)

/-- A path that is found with its links followed leads where it is found. -/
theorem leads_of_find (h : t.find start true p = .ok place) :
    Leads t nowhere (origin start p) p.parts place :=
  (walk_of_locate (find_ok h)).leads

theorem removeDirectory_ok (h : t.removeDirectory start p = .ok u) :
    ∃ place, t.find start false p = .ok place ∧ place ≠ [] ∧ u = t.drop place := by
  unfold removeDirectory at h
  rcases hfind : t.find start false p with e | place
  · simp [hfind, bind, Except.bind] at h
  · simp only [hfind, bind, Except.bind] at h
    split at h
    · exact absurd h (by simp)
    · split at h
      · exact absurd h (by simp)
      · next hne => exact ⟨place, rfl, hne, (Except.ok.inj h).symm⟩
    · exact absurd h (by simp)

/-- The tree after an entry was moved from one place to another one, if it may be moved. -/
def moved (t : FileTree) (old new : Place) (e : Entry) : Except FileError FileTree :=
  match e, t.lookup? new with
  | .directory, _ => .error .notDirectory
  | _, some .directory => .error .isDirectory
  | e, _ => .ok (if old = new then t else (t.drop old).set new e)

theorem rename_eq : t.rename start p q = (t.find start false p).bind fun old =>
    match t.lookup? old with
    | none => .error .notFound
    | some e => (t.locate start false q).bind fun spot => t.moved old spot.place e := by
  unfold rename
  rcases t.find start false p with e | old
  · rfl
  simp only [bind, Except.bind]
  rcases t.lookup? old with _ | e
  · rfl
  rcases t.locate start false q with e' | (place | ⟨directory, name⟩) <;> rfl

theorem moved_ok {old new : Place} {e : Entry} (h : t.moved old new e = .ok u) :
    u = t ∨ e ≠ .directory ∧ t.lookup? new ≠ some .directory ∧ u = (t.drop old).set new e := by
  unfold moved at h
  split at h
  · exact absurd h (by simp)
  · exact absurd h (by simp)
  · next hfile hfree =>
    obtain rfl := Except.ok.inj h
    split_ifs
    · exact .inl rfl
    · exact .inr ⟨hfile, hfree, rfl⟩

/-- What is moved is taken away where its path leads, and stands then where the other path leads.
No directory is moved, and none is moved over. -/
theorem rename_ok (h : t.rename start p q = .ok u) :
    u = t ∨ ∃ old spot e, t.locate start false p = .ok (.taken old) ∧
      t.locate start false q = .ok spot ∧ t.lookup? old = some e ∧ e ≠ .directory ∧
      t.lookup? spot.place ≠ some .directory ∧ u = (t.drop old).set spot.place e := by
  rw [rename_eq] at h
  rcases hfind : t.find start false p with e | old
  · simp [hfind, Except.bind] at h
  simp only [hfind, Except.bind] at h
  rcases hentry : t.lookup? old with _ | e
  · simp [hentry] at h
  simp only [hentry] at h
  rcases hspot : t.locate start false q with e' | spot
  · simp [hspot] at h
  · simp only [hspot] at h
    rcases moved_ok h with rfl | ⟨hfile, hfree, rfl⟩
    · exact .inl rfl
    · exact .inr ⟨old, spot, e, find_ok hfind, rfl, hentry, hfile, hfree, rfl⟩

/-! ### Touching a directory -/

/-- Where a path lies that no link hides: it leads to a place at and below which no links are. -/
structure LiesAt (t : FileTree) (start : Place) (target : Path) (dest : Place) : Prop where
  leads : Leads t nowhere (origin start target) target.parts dest
  linkFree : LinkFree t dest

/-- Only what lies in a directory was changed, or a directory was made on the way to it, and no link
came or went. -/
structure Touched (start : Place) (target : Path) (dest : Place) (t u : FileTree) : Prop where
  outside : ∀ place, ¬ dest <+: place → u.lookup? place = t.lookup? place ∨
    Passes t (origin start target) target.parts place ∧
      t.lookup? place = none ∧ u.lookup? place = some .directory
  links : SameLinks t u

theorem LiesAt.keep (hlies : LiesAt t start target dest) (h : SameLinks t u) :
    LiesAt u start target dest :=
  ⟨h.leads hlies.leads, h.linkFree hlies.linkFree⟩

namespace Touched

theorem refl (start : Place) (target : Path) (dest : Place) (t : FileTree) :
    Touched start target dest t t :=
  ⟨fun _ _ => .inl rfl, .refl t⟩

theorem trans (h : Touched start target dest t u) (h' : Touched start target dest u v) :
    Touched start target dest t v := by
  refine ⟨fun place hp => ?_, h.links.trans h'.links⟩
  rcases h'.outside place hp with hkeep' | ⟨hpass', hnone', hmade'⟩
  · rw [hkeep']
    exact h.outside place hp
  · rcases h.outside place hp with hkeep | ⟨-, -, hmade⟩
    · exact .inr ⟨hpass'.congr h.links.symm, hkeep ▸ hnone', hmade'⟩
    · simp [hmade] at hnone'

/-- A directory that exists is on its own way, so that nothing outside was made. -/
theorem lookup?_of_find (h : Touched start target dest t u)
    (hfind : t.find start true target = .ok dest)
    (hp : ¬ dest <+: place) : u.lookup? place = t.lookup? place := by
  rcases h.outside place hp with hkeep | ⟨hpass, hnone, -⟩
  · exact hkeep
  · exact absurd hnone ((walk_of_locate (find_ok hfind)).lookup?_ne_none hpass)

end Touched

/-! ### Paths in a directory -/

/-- A path that goes on from a directory with steps that never climb above it. -/
structure Within (target q : Path) : Prop where
  absolute : q.isAbsolute = target.isAbsolute
  parts : ∃ steps, q.parts = target.parts ++ steps ∧
    Zip.staysBelow 0 (steps.filterMap Path.component?) = true

namespace Within

theorem refl (target : Path) : Within target target := ⟨rfl, [], by simp, rfl⟩

theorem origin_eq (h : Within target q) (start : Place) : origin start q = origin start target := by
  rw [origin, origin, h.absolute]

theorem leads {shun : Place → Prop} (hlies : LiesAt t start target dest) (h : Within target q)
    (hlead : Leads t shun (origin start q) q.parts place) : dest <+: place := by
  obtain ⟨steps, hparts, hstay⟩ := h.parts
  rw [h.origin_eq, hparts] at hlead
  obtain ⟨mid, hmid, hrest⟩ := hlead.split
  obtain rfl := hmid.unique hlies.leads
  exact hrest.inside hlies.linkFree (List.prefix_refl _) (Nat.le_refl _) hstay

theorem passes (hlies : LiesAt t start target dest) (h : Within target q)
    (hpass : Passes t (origin start q) q.parts place) :
    Passes t (origin start target) target.parts place ∨ dest <+: place := by
  obtain ⟨steps, hparts, hstay⟩ := h.parts
  rw [h.origin_eq, hparts] at hpass
  rcases hpass.split with hpass | ⟨mid, hmid, hrest⟩
  · exact .inl hpass
  · obtain rfl := hmid.unique hlies.leads
    exact .inr (hrest.inside hlies.linkFree (List.prefix_refl _) (Nat.le_refl _) hstay)

end Within

theorem WayMade.touched (hlies : LiesAt t start target dest) (hq : Within target q)
    (h : WayMade start q t u) : Touched start target dest t u := by
  refine ⟨fun place hp => ?_, h.sameLinks⟩
  rcases h.kept place with hkeep | ⟨hpass, hnone, hmade⟩
  · exact .inl hkeep
  · exact .inr ⟨(hq.passes hlies hpass).resolve_right hp, hnone, hmade⟩

theorem touched_writeBytes {content : ByteArray} (hlies : LiesAt t start target dest)
    (hq : Within target q) (h : t.writeBytes start q content = .ok u) :
    Touched start target dest t u := by
  obtain ⟨place, mode, hlead, -, -, hkeep⟩ := writeBytes_ok h
  have hbelow : dest <+: place := hq.leads hlies hlead
  refine ⟨fun other ho => .inl (hkeep other ?_), sameLinks_writeBytes h⟩
  rintro rfl
  exact ho hbelow

/-- Taking a directory away that holds no links touches only that directory. -/
theorem touched_drop (hfree : LinkFree t dest) (hne : dest ≠ []) :
    Touched start target dest t (t.drop dest) := by
  refine ⟨fun place hp => .inl (lookup?_drop_beside hp), fun place s => ?_⟩
  by_cases hp : dest <+: place
  · have hplace : place ≠ [] := by
      rintro rfl
      exact hne (List.prefix_nil.mp hp)
    rw [lookup?_drop_below hp hplace]
    exact ⟨fun h => absurd h (by simp), fun h => absurd h (hfree place hp s)⟩
  · rw [lookup?_drop_beside hp]

/-- What happened to a tree only touched the directory that a path leads to. -/
def StaysIn (start : Place) (target : Path) (dest : Place) (t u : FileTree) : Prop :=
  LiesAt t start target dest → Touched start target dest t u

instance (start : Place) (target : Path) (dest : Place) : Std.Refl (StaysIn start target dest) :=
  ⟨fun t _ => .refl start target dest t⟩

instance (start : Place) (target : Path) (dest : Place) :
    IsTrans FileTree (StaysIn start target dest) :=
  ⟨fun _ _ _ h h' hlies => (h hlies).trans (h' (hlies.keep (h hlies).links))⟩

end ReviewMentor.FileTree

namespace ReviewMentor.Disk

open Effect

variable {ε α : Type}

theorem run_eq (w : Disk ε α) (t : FileTree) : w.run t = (after w t, outcome w t) := rfl

theorem after_of (f : FileTree → FileTree × Except ε α) (t : FileTree) :
    after (Disk.of f) t = (f t).1 := rfl

theorem outcome_of (f : FileTree → FileTree × Except ε α) (t : FileTree) :
    outcome (Disk.of f) t = (f t).2 := rfl

/-- Work that changes a tree or fails leaves the changed tree or the same one. -/
theorem after_change_of {P : FileTree → Prop} {f : FileTree → Except ε FileTree} {t : FileTree}
    (hsame : P t) (h : ∀ u, f t = .ok u → P u) : P (after (Disk.change f) t) := by
  show P (after (Disk.of _) t)
  rw [after_of]
  split
  · next u hu => exact h u hu
  · exact hsame

/-- Work that changes a tree or fails keeps what every change keeps. -/
theorem keeps_change {R : FileTree → FileTree → Prop} [Std.Refl R]
    {f : FileTree → Except ε FileTree} (h : ∀ t u, f t = .ok u → R t u) :
    Keeps R (Disk.change f) :=
  fun t => after_change_of (refl_of R t) (h t)

theorem failsOnly_change {P : ε → Prop} {f : FileTree → Except ε FileTree}
    (h : ∀ t e, f t = .error e → P e) : FailsOnly P (Disk.change f) := by
  intro t e he
  change outcome (Disk.of _) t = .error e at he
  rw [outcome_of] at he
  split at he
  · exact absurd he (by simp)
  · next e' hf => exact Except.error.inj he ▸ h t e' hf

end ReviewMentor.Disk
