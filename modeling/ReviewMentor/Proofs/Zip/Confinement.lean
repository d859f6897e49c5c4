import ReviewMentor.Proofs.Files.Children
import ReviewMentor.Proofs.Files.Views
import ReviewMentor.Proofs.Path.Slashed
import ReviewMentor.Zip.Archive

/-!
# Unpacking stays inside

Unpacking an archive changes nothing outside the directory into which it is unpacked. A name may
climb with two dots as long as it never climbs above its start, and then every prefix of its steps
leads into the directory, whatever the entries before it have made there. The first name that does
climb, or is absolute, or holds a NUL ends the work.
-/

namespace ReviewMentor.Zip

open FileTree Effect

/-! ### Names that leave -/

/-- Some first components of a name climb more often than they enter. -/
def Climbs (name : String) : Prop :=
  ∃ before, before <+: (Path.mk name).components ∧
    before.countP Component.isNamed < before.count .up

/-- A name that must not be unpacked: it holds a NUL, is absolute, or climbs above its start. -/
def Leaves (name : String) : Prop :=
  Char.ofNat 0 ∈ name.toList ∨ (Path.mk name).isAbsolute = true ∨ Climbs name

theorem forall_prefix_cons {c : Component} {rest : List Component} {P : List Component → Prop} :
    (∀ before, before <+: c :: rest → P before) ↔
      P [] ∧ ∀ before, before <+: rest → P (c :: before) := by
  constructor
  · intro h
    exact ⟨h [] (List.nil_prefix), fun before hb => h _ (List.cons_prefix_cons.mpr ⟨rfl, hb⟩)⟩
  · rintro ⟨hnil, hcons⟩ before hb
    rcases List.prefix_cons_iff.mp hb with rfl | ⟨more, rfl, hmore⟩
    · exact hnil
    · exact hcons more hmore

/-- Components stay below their start if none is the root and no first ones climb more often than
they enter, with the names that were entered before. -/
theorem staysBelow_iff {depth : Nat} {cs : List Component} :
    staysBelow depth cs = true ↔
      .root ∉ cs ∧ ∀ before, before <+: cs →
        before.count .up ≤ depth + before.countP Component.isNamed := by
  induction cs generalizing depth with
  | nil => simp [staysBelow]
  | cons c rest ih =>
    rw [forall_prefix_cons]
    cases c with
    | root => simp [staysBelow]
    | here => simp [staysBelow, ih, Component.isNamed]
    | name s =>
      have hstep : ∀ before : List Component,
          depth + (before.countP Component.isNamed + 1) =
            depth + 1 + before.countP Component.isNamed :=
        fun before => by omega
      simp [staysBelow, ih, Component.isNamed, List.countP_cons, hstep]
    | up =>
      obtain _ | depth := depth
      · -- the climb alone is more than was entered
        have hup : ¬ ∀ before, before <+: rest → (Component.up :: before).count .up ≤
            0 + (Component.up :: before).countP Component.isNamed := by
          intro h
          have := h [] List.nil_prefix
          simp [Component.isNamed] at this
        exact ⟨fun h => absurd h (by simp [staysBelow]), fun h => absurd h.2.2 hup⟩
      · have hstep : ∀ m n, m + 1 ≤ depth + 1 + n ↔ m ≤ depth + n := fun m n => by omega
        simp [staysBelow, ih, Component.isNamed, hstep]

/-- The check of a name refuses exactly the names that leave. -/
theorem isEnclosed_eq_false_iff {name : String} : isEnclosed name = false ↔ Leaves name := by
  have hstay : staysBelow 0 (Path.mk name).components = false ↔
      (Path.mk name).isAbsolute = true ∨ Climbs name := by
    rw [← Bool.not_eq_true, staysBelow_iff, Path.root_mem_components, not_and_or, not_not]
    simp [Climbs]
  rw [isEnclosed, Bool.and_eq_false_iff, hstay]
  simp [Leaves]

/-! ### The paths of entries -/

section Paths

variable {start dest : Place} {target q : Path} {t u : FileTree} {name : String}

theorem staysBelow_of_isEnclosed (h : isEnclosed name = true) :
    (Path.mk name).isAbsolute = false ∧
      staysBelow 0 ((Path.mk name).parts.filterMap Path.component?) = true := by
  have hstay : staysBelow 0 (Path.mk name).components = true := (Bool.and_eq_true_iff.mp h).2
  have habs : (Path.mk name).isAbsolute = false := by
    rw [← Bool.not_eq_true, ← Path.root_mem_components]
    exact (staysBelow_iff.mp hstay).1
  refine ⟨habs, ?_⟩
  rw [Path.components_of_relative habs] at hstay
  split at hstay <;> simpa [staysBelow] using hstay

theorem staysBelow_mono {cs ds : List Component} (h : cs <+: ds) (hstay : staysBelow 0 ds = true) :
    staysBelow 0 cs = true := by
  obtain ⟨hroot, hups⟩ := staysBelow_iff.mp hstay
  exact staysBelow_iff.mpr ⟨fun hm => hroot (h.subset hm),
    fun before hb => hups before (hb.trans h)⟩

/-- Every path from a directory towards an entry whose name does not leave stays within it. -/
theorem within_of_isEnclosed (h : isEnclosed name = true) (habs : q.isAbsolute = target.isAbsolute)
    (hfrom : target.parts <+: q.parts) (hto : q.parts <+: (target.child name).parts) :
    Within target q := by
  obtain ⟨hrel, hstay⟩ := staysBelow_of_isEnclosed h
  obtain ⟨steps, hsteps⟩ := hfrom
  rw [Path.child, Path.parts_join hrel, ← hsteps, List.prefix_append_right_inj] at hto
  exact ⟨habs, steps, hsteps.symm, staysBelow_mono (hto.filterMap _) hstay⟩

theorem within_child (h : isEnclosed name = true) : Within target (target.child name) := by
  have hrel := (staysBelow_of_isEnclosed h).1
  refine within_of_isEnclosed h ?_ ?_ (List.prefix_refl _)
  · rw [Path.child, Path.isAbsolute_join, hrel, Bool.or_false]
  · rw [Path.child, Path.parts_join hrel]
    exact List.prefix_append _ _

end Paths

/-! ### One entry -/

section Entries

variable {start dest : Place} {target : Path} {e : ArchiveEntry} {t : FileTree}

theorem keeps_makeRoom {q p : Path} (hparts : q.parts <+: p.parts)
    (habs : q.isAbsolute = p.isAbsolute) (hp : Within target p) :
    Keeps (StaysIn start target dest) (makeRoom start q) := by
  intro t hlies
  have hway : WayMade start p t (t.makeDirectories start q).1 :=
    (wayMade_makeDirectories t start q).extend hparts habs
  exact hway.touched hlies hp

theorem keeps_write {q : Path} (hq : Within target q) (content : ByteArray) :
    Keeps (StaysIn start target dest)
      (Disk.change fun t => (t.writeBytes start q content).mapError ArchiveError.storage) := by
  refine Disk.keeps_change fun t u hu hlies => ?_
  rcases hwrite : t.writeBytes start q content with e | v
  · simp [hwrite, Except.mapError] at hu
  · obtain rfl : v = u := by simpa [hwrite, Except.mapError] using hu
    exact touched_writeBytes hlies hq hwrite

/-- A file is emptied before it is filled, both where its path leads. -/
theorem keeps_fill {q : Path} (hq : Within target q) (content : ByteArray) (intact : Bool) :
    Keeps (StaysIn start target dest) (do
      Disk.change fun t => (t.writeBytes start q .empty).mapError ArchiveError.storage
      Disk.change fun t => (t.writeBytes start q content).mapError ArchiveError.storage
      if !intact then Disk.fail .damaged
      pure true : Disk ArchiveError Bool) := by
  refine (keeps_write hq _).bind fun _ => (keeps_write hq _).bind fun _ => ?_
  split
  · exact (Keeps.throw _).bind fun _ => Keeps.pure _
  · exact Keeps.pure _

/-- Unpacking an entry only touches the directory into which it is unpacked, whatever comes of
it. -/
theorem keeps_extractEntry (start : Place) (target : Path) (dest : Place) (e : ArchiveEntry) :
    Keeps (StaysIn start target dest) (extractEntry start target e) := by
  unfold extractEntry
  split
  · exact Keeps.throw _
  split
  · exact Keeps.throw _
  next hsafe =>
    have hwithin : Within target (target.child e.name) := within_child (by simpa using hsafe)
    dsimp only
    split
    · exact (keeps_makeRoom (List.prefix_refl _) rfl hwithin).bind fun _ => Keeps.pure _
    · split
      · next parent hparent =>
        obtain ⟨hparts, habs⟩ := Path.parts_parent? hparent
        exact (keeps_makeRoom hparts habs hwithin).bind fun _ => keeps_fill hwithin _ _
      · exact keeps_fill hwithin _ _

/-- How unpacking an entry fails that can be read and whose name does not leave. -/
def Spoilt (intact : Bool) : ArchiveError → Prop
  | .storage _ => True
  | .damaged => intact = false
  | .invalid | .unsafeEntry _ => False

theorem failsOnly_write (start : Place) (q : Path) (content : ByteArray) (intact : Bool) :
    FailsOnly (Spoilt intact)
      (Disk.change fun t => (t.writeBytes start q content).mapError ArchiveError.storage) := by
  refine Disk.failsOnly_change fun t e h => ?_
  rcases hwrite : t.writeBytes start q content with cause | u
  · obtain rfl : ArchiveError.storage cause = e := by simpa [hwrite, Except.mapError] using h
    trivial
  · simp [hwrite, Except.mapError] at h

theorem failsOnly_makeRoom (start : Place) (p : Path) (intact : Bool) :
    FailsOnly (Spoilt intact) (makeRoom start p) := by
  intro t e h
  change (t.makeDirectories start p).2.mapError ArchiveError.storage = .error e at h
  rcases hmade : (t.makeDirectories start p).2 with cause | u
  · obtain rfl : ArchiveError.storage cause = e := by simpa [hmade, Except.mapError] using h
    trivial
  · simp [hmade, Except.mapError] at h

theorem failsOnly_fill (start : Place) (q : Path) (content : ByteArray) (intact : Bool) :
    FailsOnly (Spoilt intact) (do
      Disk.change fun t => (t.writeBytes start q .empty).mapError ArchiveError.storage
      Disk.change fun t => (t.writeBytes start q content).mapError ArchiveError.storage
      if !intact then Disk.fail .damaged
      pure true : Disk ArchiveError Bool) := by
  refine (failsOnly_write start q _ _).bind fun _ =>
    (failsOnly_write start q _ _).bind fun _ => ?_
  split
  · next hdamaged =>
    exact (FailsOnly.throw (by simpa [Spoilt] using hdamaged)).bind fun _ => FailsOnly.pure _
  · exact FailsOnly.pure _

/-- How unpacking an entry fails: for what the entry is, or as one that is readable and safe. -/
theorem extractEntry_error {cause : ArchiveError}
    (h : outcome (extractEntry start target e) t = .error cause) :
    (e.content = .refused ∧ cause = .invalid) ∨
    ∃ content intact, e.content = .bytes content intact ∧
      ((isEnclosed e.name = false ∧ cause = .unsafeEntry e.name ∧
          after (extractEntry start target e) t = t) ∨
        isEnclosed e.name = true ∧ Spoilt intact cause) := by
  unfold extractEntry at h ⊢
  split at h
  · next hrefused => exact .inl ⟨hrefused, (Except.error.inj h).symm⟩
  next content intact hbytes =>
    refine .inr ⟨content, intact, hbytes, ?_⟩
    split at h
    · next hleaves =>
      refine .inl ⟨by simpa using hleaves, (Except.error.inj h).symm, ?_⟩
      simp only [hleaves, if_true]
      rfl
    · next hsafe =>
      refine .inr ⟨by simpa using hsafe, (?_ : FailsOnly (Spoilt intact) _) t _ h⟩
      dsimp only
      split
      · exact (failsOnly_makeRoom _ _ _).bind fun _ => FailsOnly.pure _
      · split
        · exact (failsOnly_makeRoom _ _ _).bind fun _ => failsOnly_fill _ _ _ _
        · exact failsOnly_fill _ _ _ _

/-- An entry is only refused for its name if the name leaves, and then nothing was done. -/
theorem leaves_of_unsafeEntry {name : String}
    (h : outcome (extractEntry start target e) t = .error (.unsafeEntry name)) :
    e.name = name ∧ Leaves name ∧ after (extractEntry start target e) t = t := by
  rcases extractEntry_error h with ⟨-, hinvalid⟩ |
    ⟨content, intact, -, ⟨hleaves, hcause, hsame⟩ | ⟨-, hspoilt⟩⟩
  · simp at hinvalid
  · obtain rfl : name = e.name := ArchiveError.unsafeEntry.inj hcause
    exact ⟨rfl, isEnclosed_eq_false_iff.mp hleaves, hsame⟩
  · exact hspoilt.elim

theorem not_leaves_of_ok {b : Bool} (h : outcome (extractEntry start target e) t = .ok b) :
    ¬ Leaves e.name := by
  unfold extractEntry at h
  split at h
  · exact absurd h (by simp [Disk.fail])
  split at h
  · exact absurd h (by simp [Disk.fail])
  · next hsafe =>
    rw [← isEnclosed_eq_false_iff]
    simpa using hsafe

end Entries

/-! ### What making room and writing keep -/

section Kept

variable {R : FileTree → FileTree → Prop} [Std.Refl R] [IsTrans FileTree R] {start : Place}

/-- Unpacking an archive keeps what is kept by making room for its entries and by writing them. -/
theorem keeps_extract_of (hroom : ∀ q, Keeps R (makeRoom start q))
    (hwrite : ∀ q content, Keeps R
      (Disk.change fun t => (t.writeBytes start q content).mapError ArchiveError.storage))
    (target : Path) (data : ByteArray) : Keeps R (extract start target data) := by
  have hfill : ∀ q content intact, Keeps R (do
      Disk.change fun t => (t.writeBytes start q .empty).mapError ArchiveError.storage
      Disk.change fun t => (t.writeBytes start q content).mapError ArchiveError.storage
      if !intact then Disk.fail .damaged
      pure true : Disk ArchiveError Bool) := by
    intro q content intact
    refine (hwrite q _).bind fun _ => (hwrite q _).bind fun _ => ?_
    split
    · exact (Keeps.throw _).bind fun _ => Keeps.pure _
    · exact Keeps.pure _
  have hentry : ∀ e, Keeps R (extractEntry start target e) := by
    intro e
    unfold extractEntry
    split
    · exact Keeps.throw _
    split
    · exact Keeps.throw _
    dsimp only
    split
    · exact (hroom _).bind fun _ => Keeps.pure _
    · split
      · exact (hroom _).bind fun _ => hfill _ _ _
      · exact hfill _ _ _
  unfold extract
  split
  · exact Keeps.throw _
  · exact (Keeps.mapM fun e _ => hentry e).bind fun _ => Keeps.pure _

/-- Unpacking an archive puts nothing in the place of a directory. -/
theorem directoriesStay_extract (start : Place) (target : Path) (data : ByteArray) :
    Keeps DirectoriesStay (extract start target data) := by
  refine keeps_extract_of (fun q t => directoriesStay_makeDirectories t start q)
    (fun q content => Disk.keeps_change fun t u hu => ?_) target data
  rcases hwrite : t.writeBytes start q content with e | v
  · simp [hwrite, Except.mapError] at hu
  · obtain rfl : v = u := by simpa [hwrite, Except.mapError] using hu
    exact directoriesStay_writeBytes hwrite

end Kept

/-! ### What is read -/

section Views

variable {d : Place}

theorem respects_makeRoom (start : Place) (q : Path) : Respects (SameView d) (makeRoom start q) :=
  Disk.respects_of fun t => by simp [makeDirectories, makeDirectoriesUpTo_seenFrom]

theorem respects_write (start : Place) (q : Path) (content : ByteArray) :
    Respects (SameView d)
      (Disk.change fun t => (t.writeBytes start q content).mapError ArchiveError.storage) := by
  refine Disk.respects_change fun t => ?_
  have hseen : ((t.seenFrom d).writeBytes start q content).map (seenFrom d) =
      (t.writeBytes start q content).map (seenFrom d) := writeBytes_seenFrom
  rcases h : (t.seenFrom d).writeBytes start q content with e | v <;>
    rcases h' : t.writeBytes start q content with e' | u <;>
    simp_all [Except.map, Except.mapError]

theorem respects_fill (start : Place) (q : Path) (content : ByteArray) (intact : Bool) :
    Respects (SameView d) (do
      Disk.change fun t => (t.writeBytes start q .empty).mapError ArchiveError.storage
      Disk.change fun t => (t.writeBytes start q content).mapError ArchiveError.storage
      if !intact then Disk.fail .damaged
      pure true : Disk ArchiveError Bool) := by
  refine (respects_write start q _).bind fun _ => (respects_write start q _).bind fun _ => ?_
  split
  · exact (Respects.throw _).bind fun _ => Respects.pure _
  · exact Respects.pure _

theorem respects_extractEntry (start : Place) (target : Path) (e : ArchiveEntry) :
    Respects (SameView d) (extractEntry start target e) := by
  unfold extractEntry
  split
  · exact Respects.throw _
  split
  · exact Respects.throw _
  · dsimp only
    split
    · exact (respects_makeRoom start _).bind fun _ => Respects.pure _
    · split
      · exact (respects_makeRoom start _).bind fun _ => respects_fill start _ _ _
      · exact respects_fill start _ _ _

/-- Unpacking an archive reads no file. -/
theorem respects_extract (start : Place) (target : Path) (data : ByteArray) :
    Respects (SameView d) (extract start target data) := by
  unfold extract
  split
  · exact Respects.throw _
  · refine Respects.bind ?_ fun _ => Respects.pure _
    exact Respects.mapM fun e _ => respects_extractEntry start target e

end Views

/-! ### The archive -/

section Archives

variable {start dest : Place} {target : Path} {t : FileTree} {data : ByteArray}

theorem keeps_extract (start : Place) (target : Path) (dest : Place) (data : ByteArray) :
    Keeps (StaysIn start target dest) (extract start target data) := by
  unfold extract
  split
  · exact Keeps.throw _
  · refine Keeps.bind ?_ fun _ => Keeps.pure _
    exact Keeps.mapM fun e _ => keeps_extractEntry start target dest e

/-- An archive that cannot be unpacked is none, or fails at one entry when those before it have been
unpacked. -/
theorem extract_error {cause : ArchiveError}
    (h : outcome (extract start target data) t = .error cause) :
    (entries? data = none ∧ cause = .invalid) ∨
    ∃ before e rest bs, entries? data = some (before ++ e :: rest) ∧
      outcome (before.mapM (extractEntry start target)) t = .ok bs ∧
      outcome (extractEntry start target e) (after (before.mapM (extractEntry start target)) t) =
        .error cause ∧
      after (extract start target data) t =
        after (extractEntry start target e)
          (after (before.mapM (extractEntry start target)) t) := by
  unfold extract at h ⊢
  split at h
  · next hnone => exact .inl ⟨hnone, (Except.error.inj h).symm⟩
  · next entries hentries =>
    rcases hall : outcome (entries.mapM (extractEntry start target)) t with cause' | written
    · rw [outcome_bind_error hall] at h
      obtain rfl := Except.error.inj h
      obtain ⟨before, e, rest, bs, rfl, hbefore, he, hafter⟩ := mapM_error hall
      refine .inr ⟨before, e, rest, bs, hentries, hbefore, he, ?_⟩
      rw [after_bind_error hall, hafter]
    · rw [outcome_bind_ok hall] at h
      exact absurd h (by simp)

theorem first_unsafeEntry {name : String}
    (h : outcome (extract start target data) t = .error (.unsafeEntry name)) :
    ∃ before e rest, entries? data = some (before ++ e :: rest) ∧ e.name = name ∧ Leaves name ∧
      (∀ x ∈ before, ¬ Leaves x.name) ∧
      after (extract start target data) t = after (before.mapM (extractEntry start target)) t := by
  rcases extract_error h with ⟨-, hinvalid⟩ | ⟨before, e, rest, bs, hentries, hbefore, he, hafter⟩
  · simp at hinvalid
  · obtain ⟨hname, hleaves, hsame⟩ := leaves_of_unsafeEntry he
    refine ⟨before, e, rest, hentries, hname, hleaves, fun x hx => ?_, hafter.trans hsame⟩
    obtain ⟨t', b, hb⟩ := mapM_ok hbefore x hx
    exact not_leaves_of_ok hb

/-- An archive with one entry, which climbs. -/
def climbingArchive : ByteArray :=
  ⟨#[80, 75, 3, 4, 20, 0, 0, 0, 0, 0, 0, 0, 33, 0, 0, 0, 0, 0, 0, 0, 0, 0, 0, 0, 0, 0, 4, 0, 0,
    0, 46, 46, 47, 120, 80, 75, 1, 2, 20, 3, 20, 0, 0, 0, 0, 0, 0, 0, 33, 0, 0, 0, 0, 0, 0, 0, 0,
    0, 0, 0, 0, 0, 4, 0, 0, 0, 0, 0, 0, 0, 0, 0, 0, 0, 128, 1, 0, 0, 0, 0, 46, 46, 47, 120, 80,
    75, 5, 6, 0, 0, 0, 0, 1, 0, 1, 0, 50, 0, 0, 0, 34, 0, 0, 0, 0, 0]⟩

/-- A directory that a link leads to, with a file beside it. -/
def linkedTree : FileTree :=
  ⟨[(["d"], .directory), (["d", "t"], .directory), (["l"], .link "d/t"),
    (["d", "x"], .file .empty defaultMode)]⟩

theorem linkedTree_linkFree : LinkFree linkedTree ["d", "t"] := by
  rintro place ⟨rest, rfl⟩ s hs
  simp [linkedTree, lookup?, List.lookup_cons] at hs
  split at hs <;> simp at hs

end Archives

end ReviewMentor.Zip
