import ReviewMentor.Proofs.Files.Room
import ReviewMentor.Proofs.Learner.Reading

/-!
# What a store returns while it is written to

Where no links stand among the files of a store, and its directory is there or its path does not
climb, making room and writing a profile beside its file change nothing of what is returned. Moving
the written profile over the file makes it the profile of its learner, and of no other.
-/

namespace ReviewMentor.ProfileStore

open FileTree Effect

/-- A tree in which profiles are stored apart from each other. -/
structure Settled (s : ProfileStore) (start : Place) (t : FileTree) : Prop where
  standing : Standing start t
  room : IsThere start s.directory t ∨ s.directory.Descends
  noLink : ∀ user, isUser user = true →
    NoLinkAt start (s.fileOf user) t ∧ NoLinkAt start (s.stagingOf user) t

/-- The same is returned of every learner. -/
def SameAnswers (s : ProfileStore) (start : Place) (t u : FileTree) : Prop :=
  ∀ user, s.get start user u = s.get start user t

variable {s : ProfileStore} {start : Place} {t u v : FileTree} {user other : String} {p : Profile}

theorem size_le_longestUser (h : isUser user = true) : user.utf8ByteSize ≤ longestUser := by
  simp only [isUser, Bool.and_eq_true, decide_eq_true_eq] at h
  exact h.1.1.2

theorem short_fileName (h : isUser user = true) :
    (fileName user).utf8ByteSize ≤ longestName := by
  have hsize := size_le_longestUser h
  have hjson : ".json".utf8ByteSize = 5 := by decide
  rw [fileName, String.utf8ByteSize_append, hjson, longestName]
  exact (Nat.add_le_add_right hsize 5).trans (by decide)

/-- What is returned is what is read from the file. -/
theorem get_congr (h : isUser user = true →
    u.readBytes start (s.directory.child (fileName user)) =
      t.readBytes start (s.directory.child (fileName user))) :
    s.get start user u = s.get start user t := by
  by_cases huser : isUser user = true
  · rw [get, get, readText, readText, fileOf_eq, h huser]
  · have hcheck : checkUser user = .error (.badUser user) := if_neg huser
    rw [get, get, hcheck]
    rfl

namespace Settled

/-! ### Making room -/

/-- Making room for profiles changes nothing of what is returned. -/
theorem makeRoom (h : s.Settled start t) :
    s.Settled start (t.makeDirectories start s.directory).1 ∧
      s.SameAnswers start t (t.makeDirectories start s.directory).1 := by
  have hstanding := h.standing.makeDirectories s.directory
  have hlinks := (wayMade_makeDirectories t start s.directory).sameLinks
  rcases h.room with hthere | hdescends
  · have hsame := hthere.lookup?_makeDirectories
    have hways : WaysStay t (t.makeDirectories start s.directory).1 :=
      fun place e he _ => (hsame place).trans he
    obtain ⟨mid, -, hholds⟩ := hthere.exists_holds h.standing.start
    have ht := hholds t (.refl t)
    have hu := hholds _ hways
    refine ⟨⟨hstanding, .inl (hthere.waysStay hways), fun user huser => ⟨?_, ?_⟩⟩, fun user => ?_⟩
    · exact ht.noLinkAt hu (isName_fileName huser) (h.noLink user huser).1
        fun target => (hlinks _ target).mp
    · exact ht.noLinkAt hu (s.isName_stagingName huser) (h.noLink user huser).2
        fun target => (hlinks _ target).mp
    · exact get_congr fun huser => ht.readBytes_congr hu (isName_fileName huser)
        (h.noLink user huser).1 (short_fileName huser) (hsame _)
  · rcases barren_makeDirectories h.standing hdescends with hsame | hbarren
    · rw [hsame]
      exact ⟨h, fun _ => rfl⟩
    refine ⟨⟨hstanding, .inr hdescends, fun user huser => ⟨?_, ?_⟩⟩, fun user => ?_⟩
    · intro place target hfind
      obtain ⟨e, -, hnone⟩ := hbarren _ (isName_fileName huser) (short_fileName huser) false
      exact absurd (hnone.symm.trans hfind) (by simp)
    · intro place target hfind
      obtain ⟨-, -, hfits, -⟩ := holds_of_locate (s.isName_stagingName huser) (find_ok hfind)
      obtain ⟨e, -, hnone⟩ := hbarren _ (s.isName_stagingName huser) hfits.nameShort false
      exact absurd (hnone.symm.trans hfind) (by simp)
    · refine get_congr fun huser => ?_
      obtain ⟨e, hbefore, hafter⟩ :=
        hbarren _ (isName_fileName huser) (short_fileName huser) true
      rw [readBytes, readBytes, hbefore, hafter]
      rfl

/-! ### Writing beside the file -/

section Writing

variable {text : String} (h : s.Settled start t) (huser : isUser user = true)
  (hwrite : t.writeText start (s.stagingOf user) text = .ok u)

include h huser hwrite

/-- A profile that was written stands under the name for it, in the directory of the profiles. -/
theorem exists_staged : ∃ mid mode, Fits s.directory (s.stagingName user) ∧
    (∀ v, WaysStay t v → Holds v start s.directory mid) ∧
    u = t.set (mid ++ [s.stagingName user]) (.file text.toUTF8 mode) := by
  have hname := s.isName_stagingName huser
  obtain ⟨spot, hspot, -⟩ := ok_of_bind hwrite
  obtain ⟨mid, -, hfits, hholds⟩ := holds_of_locate hname hspot
  have ht := hholds t (.refl t)
  rw [writeText, stagingOf_eq] at hwrite
  rcases hentry : t.lookup? (mid ++ [s.stagingName user]) with _ | (_ | ⟨old, mode⟩ | target)
  · rw [ht.writeBytes_none hname hfits hentry] at hwrite
    exact ⟨mid, _, hfits, hholds, (Except.ok.inj hwrite).symm⟩
  · have htaken := ht.locate_taken hname hfits true hentry (by simp)
    simp [writeBytes, htaken, hentry, bind, Except.bind] at hwrite
  · rw [ht.writeBytes_file hname hfits hentry] at hwrite
    exact ⟨mid, mode, hfits, hholds, (Except.ok.inj hwrite).symm⟩
  · exact absurd hentry (ht.noLink hname (h.noLink user huser).2 hfits target)

/-- Writing a profile beside its file changes nothing of what is returned. -/
theorem write : s.Settled start u ∧ s.SameAnswers start t u := by
  obtain ⟨mid, mode, -, hholds, hu⟩ := h.exists_staged huser hwrite
  have hways : WaysStay t u := waysStay_writeBytes hwrite
  have hlinks : SameLinks t u := sameLinks_writeBytes hwrite
  have ht := hholds t (.refl t)
  have hu' := hholds u hways
  refine ⟨⟨h.standing.of_writeBytes hwrite, h.room.imp_left (·.waysStay hways),
    fun other hother => ⟨?_, ?_⟩⟩, fun other => ?_⟩
  · exact ht.noLinkAt hu' (isName_fileName hother) (h.noLink other hother).1
      fun target => (hlinks _ target).mp
  · exact ht.noLinkAt hu' (s.isName_stagingName hother) (h.noLink other hother).2
      fun target => (hlinks _ target).mp
  · refine get_congr fun hother => ?_
    refine ht.readBytes_congr hu' (isName_fileName hother) (h.noLink other hother).1
      (short_fileName hother) ?_
    rw [hu, lookup?_set_of_ne (by simp)]
    simpa using fileName_ne_stagingName s other user

/-! ### Moving over the file -/

/-- Moving a profile that was written over the file of its learner changes what is returned of this
learner alone. -/
theorem move (hrename : u.rename start (s.stagingOf user) (s.fileOf user) = .ok v) :
    s.Settled start v ∧ v.readText start (s.fileOf user) = .ok text ∧
      ∀ other, other ≠ user → s.get start other v = s.get start other u := by
  obtain ⟨mid, mode, hfits, hholds, hu⟩ := h.exists_staged huser hwrite
  obtain ⟨hsettled, -⟩ := h.write huser hwrite
  have hways : WaysStay t u := waysStay_writeBytes hwrite
  have hholdsU := hholds u hways
  have hstaging := s.isName_stagingName huser
  have hfile := isName_fileName huser
  have hfits' := fits_fileName huser hfits
  have hapart : fileName user ≠ s.stagingName user := fileName_ne_stagingName s user user
  have hentry : u.lookup? (mid ++ [s.stagingName user]) = some (.file text.toUTF8 mode) := by
    rw [hu, lookup?_set_self (by simp)]
  have hfree : u.lookup? (mid ++ [fileName user]) ≠ some .directory := fun hdir => by
    have hfrom := hholdsU.locate_taken hstaging hfits false hentry (by simp)
    have hto := hholdsU.locate_taken hfile hfits' false hdir (by simp)
    rw [rename_eq, find, stagingOf_eq, fileOf_eq, hfrom] at hrename
    simp only [Except.bind, hentry, hto, moved, Spot.place, hdir] at hrename
    exact absurd hrename (by simp)
  have hmoved := hholdsU.rename_ok hstaging hfits hfile hfits' hentry (by simp) hfree
  rw [← stagingOf_eq, ← fileOf_eq, hrename, if_neg (by simpa using hapart.symm)] at hmoved
  obtain rfl := Except.ok.inj hmoved
  have hover : ∀ e, u.lookup? (mid ++ [fileName user]) = some e →
      ∃ old mode, e = .file old mode := by
    rintro (_ | ⟨old, mode⟩ | target) he
    · exact absurd he hfree
    · exact ⟨old, mode, rfl⟩
    · exact absurd he (hholdsU.noLink hfile (hsettled.noLink user huser).1 hfits' target)
  have hsound := hsettled.standing.sound
  have hwaysV := waysStay_moved hsound hentry hover rfl
  have hlinks := sameLinks_moved hsound hentry hover rfl
  have hholdsV := hholds _ (hways.trans hwaysV)
  refine ⟨⟨?_, hsettled.room.imp_left (·.waysStay hwaysV), fun other hother => ⟨?_, ?_⟩⟩, ?_,
    fun other hne => ?_⟩
  · exact standing_moved hsound hentry hover rfl hsettled.standing.start (hfits'.storable hfile)
  · exact hholdsU.noLinkAt hholdsV (isName_fileName hother) (hsettled.noLink other hother).1
      fun target => (hlinks _ target).mp
  · exact hholdsU.noLinkAt hholdsV (s.isName_stagingName hother) (hsettled.noLink other hother).2
      fun target => (hlinks _ target).mp
  · have hread := hholdsV.readBytes_file hfile hfits' (lookup?_set_self (by simp))
    have htext : String.fromUTF8? text.toUTF8 = some text := dif_pos text.isValidUTF8
    simp only [readText, fileOf_eq, hread, htext]
  · refine get_congr fun hother => ?_
    refine hholdsU.readBytes_congr hholdsV (isName_fileName hother) (hsettled.noLink other hother).1
      (short_fileName hother) ?_
    have hnew : fileName other ≠ fileName user := fun heq => hne (fileName_injective heq)
    have hbeside : ¬ mid ++ [s.stagingName user] <+: mid ++ [fileName other] := by
      simpa using (fileName_ne_stagingName s other user).symm
    rw [lookup?_set_of_ne (by simp) (by simpa using hnew), lookup?_drop_beside hbeside]

end Writing

end Settled

/-! ### The steps of storing -/

/-- Making room for a profile whose learner is accepted. -/
def enter (s : ProfileStore) (start : Place) (p : Profile) : Disk ProfileError Unit := do
  Disk.ask fun _ => checkUser p.user
  s.makeRoom start

theorem after_enter (h : isUser p.user = true) :
    after (s.enter start p) t = (t.makeDirectories start s.directory).1 := by
  have hask : outcome (Disk.ask fun _ => checkUser p.user) t = .ok () := checkUser_ok.mpr h
  rw [enter, after_bind_ok hask]
  rfl

theorem save_steps (s : ProfileStore) (start : Place) (p : Profile) : s.save start p =
    (do
      s.enter start p
      s.writeBeside start p
      s.moveOver start p.user) := by
  rw [save_eq, enter, bind_assoc]

namespace Settled

theorem enter (h : s.Settled start t) (p : Profile) :
    s.Settled start (after (s.enter start p) t) ∧
      s.SameAnswers start t (after (s.enter start p) t) := by
  unfold ProfileStore.enter
  rcases hask : outcome (Disk.ask fun _ => checkUser p.user) t with e | ⟨⟩
  · rw [after_bind_error hask]
    exact ⟨h, fun _ => rfl⟩
  · rw [after_bind_ok hask]
    exact h.makeRoom

theorem writeBeside (h : s.Settled start t) (hp : isUser p.user = true) :
    s.Settled start (after (s.writeBeside start p) t) ∧
      s.SameAnswers start t (after (s.writeBeside start p) t) := by
  rcases change_cases (fun t => t.writeText start (s.stagingOf p.user) p.toJson.pretty) t with
    ⟨u, hwrite, hafter, -⟩ | ⟨-, -, hafter, -⟩ <;>
    change after (s.writeBeside start p) t = _ at hafter <;> rw [hafter]
  · exact h.write hp hwrite
  · exact ⟨h, fun _ => rfl⟩

end Settled

/-- A stored profile is returned as it is. -/
theorem get_of_readText {text : String} (huser : isUser user = true) (hp : p.Storable)
    (hname : p.user = user) (htext : p.toJson.IsText text)
    (hread : t.readText start (s.fileOf user) = .ok text) : s.get start user t = .ok p := by
  have hcheck : checkUser user = .ok () := checkUser_ok.mpr huser
  have hdecode := Profile.decode_toJson hp htext
  rw [get, hcheck]
  simp only [hread, hdecode, bind, Except.bind]
  obtain rfl := hname
  rfl

end ReviewMentor.ProfileStore
