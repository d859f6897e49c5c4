import ReviewMentor.Proofs.Files.Contents
import ReviewMentor.Proofs.Zip.Confinement

/-!
# What unpacking leaves

Unpacking an archive goes entry by entry, and each entry that is a file puts its bytes where its
name ends up. So the files of an archive that is unpacked into an empty directory are those of its
entries, and of entries that end up at the same names the last one counts.
-/

namespace ReviewMentor.Zip

open FileTree Effect

/-! ### The files of an archive -/

/-- The files of a directory when an entry has been unpacked there. -/
def ArchiveEntry.applied (e : ArchiveEntry) (m : FileMap) : FileMap :=
  match e.content with
  | .refused => m
  | .bytes data _ => if isDirectoryName e.name then m else m.put (Path.mk e.name).goal data

/-- The files that entries leave in an empty directory. -/
def filesOf (entries : List ArchiveEntry) : FileMap :=
  entries.foldl (fun m e => e.applied m) .empty

/-! ### One entry -/

section Entries

variable {start dest : Place} {target : Path} {e : ArchiveEntry} {t : FileTree} {b : Bool}
  {data : ByteArray}

theorem ok_of_write {q : Path} {content : ByteArray} {a : Unit}
    (h : outcome (Disk.change fun t => (t.writeBytes start q content).mapError
      ArchiveError.storage) t = .ok a) :
    t.writeBytes start q content = .ok (after (Disk.change fun t =>
      (t.writeBytes start q content).mapError ArchiveError.storage) t) := by
  have hwrite := Disk.ok_of_change h
  rcases hw : t.writeBytes start q content with cause | u
  · rw [hw] at hwrite
    exact absurd hwrite (by simp [Except.mapError])
  · rw [hw] at hwrite
    exact congrArg Except.ok (Except.ok.inj hwrite)

/-- A file is emptied before it is filled, of which nothing is left. -/
theorem contents_fill {name : String} {intact : Bool} (hlies : LiesAt t start target dest)
    (hsafe : isEnclosed name = true)
    (h : outcome (do
      Disk.change fun t => (t.writeBytes start (target.child name) .empty).mapError .storage
      Disk.change fun t => (t.writeBytes start (target.child name) data).mapError .storage
      if !intact then Disk.fail .damaged
      pure true : Disk ArchiveError Bool) t = .ok b) :
    (after (do
      Disk.change fun t => (t.writeBytes start (target.child name) .empty).mapError .storage
      Disk.change fun t => (t.writeBytes start (target.child name) data).mapError .storage
      if !intact then Disk.fail .damaged
      pure true : Disk ArchiveError Bool) t).contents dest =
      (t.contents dest).put (Path.mk name).goal data := by
  obtain ⟨hrel, hstay⟩ := staysBelow_of_isEnclosed hsafe
  obtain ⟨⟨⟩, hempty, h⟩ := bind_ok h
  obtain ⟨⟨⟩, hfull, h⟩ := bind_ok h
  have hfirst := ok_of_write hempty
  have hsecond := ok_of_write hfull
  rw [after_bind_ok hempty, after_bind_ok hfull]
  have hkept := hlies.keep (sameLinks_writeBytes hfirst)
  have hcontents := contents_writeBytes hkept hrel hstay hsecond
  rw [contents_writeBytes hlies hrel hstay hfirst, FileMap.put_put] at hcontents
  cases intact
  · obtain ⟨⟨⟩, hdamaged, -⟩ := bind_ok h
    exact absurd hdamaged (by simp [Disk.fail])
  · exact hcontents

/-- Unpacking an entry puts its file where its name ends up. -/
theorem contents_extractEntry (hlies : LiesAt t start target dest)
    (h : outcome (extractEntry start target e) t = .ok b) :
    (after (extractEntry start target e) t).contents dest = e.applied (t.contents dest) := by
  unfold ArchiveEntry.applied
  unfold extractEntry at h ⊢
  rcases e with ⟨name, _ | ⟨data, intact⟩⟩
  · exact absurd h (by simp [Disk.fail])
  dsimp only at h ⊢
  split at h
  · exact absurd h (by simp [Disk.fail])
  next hsafe =>
  rw [if_neg hsafe]
  have hsafe' : isEnclosed name = true := by simpa using hsafe
  have hroom : ∀ p t, (after (makeRoom start p) t).contents dest = t.contents dest := fun p t =>
    (wayMade_makeDirectories t start p).contents_eq dest
  split at h
  · next hdir =>
    obtain ⟨⟨⟩, hmade, -⟩ := bind_ok h
    rw [if_pos hdir, if_pos hdir, after_bind_ok hmade]
    exact hroom _ _
  · next hfile =>
    rw [if_neg hfile, if_neg hfile]
    split at h
    · next parent _ =>
      obtain ⟨⟨⟩, hmade, h⟩ := bind_ok h
      rw [after_bind_ok hmade]
      have hkept : LiesAt (after (makeRoom start parent) t) start target dest :=
        hlies.keep (wayMade_makeDirectories t start parent).sameLinks
      rw [contents_fill hkept hsafe' h, hroom]
    · exact contents_fill hlies hsafe' h

theorem contents_mapM {entries : List ArchiveEntry} {bs : List Bool}
    (hlies : LiesAt t start target dest)
    (h : outcome (entries.mapM (extractEntry start target)) t = .ok bs) :
    (after (entries.mapM (extractEntry start target)) t).contents dest =
      entries.foldl (fun m e => e.applied m) (t.contents dest) := by
  induction entries generalizing t bs with
  | nil => rfl
  | cons e rest ih =>
    rw [List.mapM_cons] at h ⊢
    obtain ⟨b, hentry, h⟩ := bind_ok h
    obtain ⟨cs, hrest, -⟩ := bind_ok h
    have hkept := hlies.keep (keeps_extractEntry start target dest e t hlies).links
    rw [after_bind_ok hentry, after_bind_ok hrest, List.foldl_cons,
      ← contents_extractEntry hlies hentry]
    exact ih hkept hrest

end Entries

/-! ### The archive -/

section Archives

variable {start dest : Place} {target : Path} {t : FileTree} {data : ByteArray} {count : Nat}

/-- **An archive that is unpacked leaves the files of its entries.** -/
theorem contents_extract (hlies : LiesAt t start target dest) (hempty : t.contents dest = .empty)
    (h : outcome (extract start target data) t = .ok count) :
    ∃ entries, entries? data = some entries ∧
      (after (extract start target data) t).contents dest = filesOf entries := by
  unfold extract at h ⊢
  split at h
  · exact absurd h (by simp [Disk.fail])
  · next entries hentries =>
    obtain ⟨bs, hall, -⟩ := bind_ok h
    refine ⟨entries, hentries, ?_⟩
    rw [after_bind_ok hall, after_pure, contents_mapM hlies hall, hempty, filesOf]

/-- Unpacking leaves a tree to work in. -/
theorem staysStanding_extract (start : Place) (target : Path) (data : ByteArray) :
    Keeps (StaysStanding start) (extract start target data) := by
  have hroom : ∀ q, Keeps (StaysStanding start) (makeRoom start q) := fun q t ht =>
    ht.makeDirectories q
  refine keeps_extract_of hroom (fun q content => Disk.keeps_change fun t u hu ht => ?_) target data
  rcases hwrite : t.writeBytes start q content with e | v
  · simp [hwrite, Except.mapError] at hu
  · obtain rfl : v = u := by simpa [hwrite, Except.mapError] using hu
    exact ht.of_writeBytes hwrite

end Archives

end ReviewMentor.Zip
