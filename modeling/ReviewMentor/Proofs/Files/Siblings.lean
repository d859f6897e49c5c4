import ReviewMentor.Proofs.Files.Children

/-!
# Files beside each other

Paths that end with different names in one directory only differ in their last step. So where one of
them is found the others are looked up in the same place, also after files have come, gone and
changed: the way to a directory takes directories and links alone.
-/

namespace ReviewMentor.FileTree

variable {t u v : FileTree} {start place mid : Place} {p : Path} {name other : String} {last : Bool}
  {content : ByteArray} {mode : Nat} {e : Entry}

/-! ### The last step -/

/-- A name after a path is looked up in a place. -/
def Holds (t : FileTree) (start : Place) (p : Path) (mid : Place) : Prop :=
  ∀ last name result, Path.IsName name → Fits p name →
    (∀ jump, t.follow last false jump mid [name] = result) →
    t.locate start last (p.child name) = result

/-- Steps before a name that is followed lead to a place, and any other name after them is followed
from there. -/
theorem follow_sibling {jump : Place → String → List String → Except FileError Spot}
    {steps : List String} {spot : Spot}
    (jump' : FileTree → Bool → Place → String → List String → Except FileError Spot)
    (hname : Path.IsName name)
    (hjump : ∀ place target rest, jump place target (rest ++ [name]) = .ok spot →
      ∃ mid, Leads t nowhere (origin place ⟨target⟩) (linkSteps target ++ rest) mid ∧
        name.utf8ByteSize ≤ longestName ∧
        ∀ u, WaysStay t u → ∀ last' other result,
          (∀ j, u.follow last' false j mid [other] = result) →
          jump' u last' place target (rest ++ [other]) = result)
    (h : t.follow last false jump place (steps ++ [name]) = .ok spot) :
    ∃ mid, Leads t nowhere place steps mid ∧ name.utf8ByteSize ≤ longestName ∧
      ∀ u, WaysStay t u → ∀ last' other result,
        (∀ j, u.follow last' false j mid [other] = result) →
        u.follow last' false (jump' u last') place (steps ++ [other]) = result := by
  induction steps generalizing place with
  | nil =>
    have hstep := (follow_step hname.ne_here hname.ne_up h).1
    exact ⟨place, .done _, hstep.short, fun u _ last' other result hend => hend _⟩
  | cons step rest ih =>
    rw [List.cons_append] at h
    by_cases hhere : step = "."
    · subst hhere
      rw [follow_here] at h
      obtain ⟨mid, hlead, hshort, hfollow⟩ := ih h
      refine ⟨mid, .here hlead, hshort, fun u hu last' other result hend => ?_⟩
      rw [List.cons_append, follow_here]
      exact hfollow u hu last' other result hend
    by_cases hup : step = ".."
    · subst hup
      rw [follow_up] at h
      obtain ⟨mid, hlead, hshort, hfollow⟩ := ih h
      refine ⟨mid, .up hlead, hshort, fun u hu last' other result hend => ?_⟩
      rw [List.cons_append, follow_up]
      exact hfollow u hu last' other result hend
    obtain ⟨hstep, hfollowed⟩ := follow_step hhere hup h
    generalize hall : rest ++ [name] = more at hfollowed
    cases hfollowed with
    | free => exact absurd hall (by simp)
    | file => exact absurd hall (by simp)
    | stay => exact absurd hall (by simp)
    | enter hdir h =>
      obtain ⟨mid, hlead, hshort, hfollow⟩ := ih (hall ▸ h)
      refine ⟨mid, .name hhere hup id (by simp [hdir]) hlead, hshort,
        fun u hu last' other result hend => ?_⟩
      rw [List.cons_append, hstep.follow_directory (hu _ _ hdir (by simp))]
      exact hfollow u hu last' other result hend
    | jump hlink _ hj =>
      obtain ⟨mid, hlead, hshort, hfollow⟩ := hjump place _ rest (hall ▸ hj)
      refine ⟨mid, .link hhere hup id hlink hlead, hshort,
        fun u hu last' other result hend => ?_⟩
      rw [List.cons_append, hstep.follow_link (hu _ _ hlink (by simp)) (by simp)]
      exact hfollow u hu last' other result hend

theorem followLinks_sibling {budget : Nat} {steps : List String} {spot : Spot}
    (hname : Path.IsName name)
    (h : t.followLinks last budget false place (steps ++ [name]) = .ok spot) :
    ∃ mid, Leads t nowhere place steps mid ∧ name.utf8ByteSize ≤ longestName ∧
      ∀ u, WaysStay t u → ∀ last' other result,
        (∀ j, u.follow last' false j mid [other] = result) →
        u.followLinks last' budget false place (steps ++ [other]) = result := by
  induction budget generalizing place steps with
  | zero =>
    rw [followLinks] at h
    simp only [followLinks]
    exact follow_sibling (fun _ _ _ _ _ => .error .tooManyLinks) hname
      (fun _ _ _ hj => absurd hj (by simp)) h
  | succ budget ih =>
    rw [followLinks] at h
    simp only [followLinks]
    refine follow_sibling (fun u last' place target rest =>
      if target = "" then .error .notFound
      else u.followLinks last' budget
        (false || (rest.isEmpty && (routeFrom place ⟨target⟩).toDirectory))
        (routeFrom place ⟨target⟩).start ((routeFrom place ⟨target⟩).steps ++ rest)) hname
      (fun place target rest hj => ?_) h
    have hmore : ∀ other : String, (rest ++ [other]).isEmpty = false := by simp
    split at hj
    · exact absurd hj (by simp)
    · next htarget =>
      simp only [hmore, Bool.false_and, Bool.or_false, ← List.append_assoc] at hj
      obtain ⟨mid, hlead, hshort, hfollow⟩ := ih hj
      refine ⟨mid, hlead, hshort, fun u hu last' other result hend => ?_⟩
      simp only [htarget, if_false, hmore, Bool.false_and, Bool.or_false, ← List.append_assoc]
      exact hfollow u hu last' other result hend

/-- Where a name after a path is looked up, every other name is looked up as well, and will be. -/
theorem holds_of_locate {spot : Spot} (hname : Path.IsName name)
    (h : t.locate start last (p.child name) = .ok spot) :
    ∃ mid, Leads t nowhere (origin start p) p.parts mid ∧ Fits p name ∧
      ∀ u, WaysStay t u → Holds u start p mid := by
  have hpass := passable_of_locate h
  rw [hpass.locate_child hname] at h
  obtain ⟨mid, hlead, hshort, hsiblings⟩ := followLinks_sibling hname h
  refine ⟨mid, hlead, hpass.fits hshort, fun u hu last' other result hother hfits hend => ?_⟩
  rw [(hfits.passable hother).locate_child hother]
  exact hsiblings u hu last' other result hend

/-! ### Names in a directory -/

namespace Holds

variable (h : Holds t start p mid) (hname : Path.IsName name) (hfits : Fits p name)

include h hname hfits

theorem locate_free (last : Bool) (hnone : t.lookup? (mid ++ [name]) = none) :
    t.locate start last (p.child name) = .ok (.free mid name) :=
  h last name _ hname hfits fun _ => (hfits.enters hname).follow_free hnone

theorem locate_taken (last : Bool) (hentry : t.lookup? (mid ++ [name]) = some e)
    (hlink : last = true → ∀ target, e ≠ .link target) :
    t.locate start last (p.child name) = .ok (.taken (mid ++ [name])) :=
  h last name _ hname hfits fun _ => (hfits.enters hname).follow_taken hentry hlink

theorem readBytes_file (hentry : t.lookup? (mid ++ [name]) = some (.file content mode)) :
    t.readBytes start (p.child name) = .ok content := by
  have hspot := h.locate_taken hname hfits true hentry (by simp)
  simp [readBytes, find, hspot, hentry, bind, Except.bind]

theorem readBytes_none (hnone : t.lookup? (mid ++ [name]) = none) :
    t.readBytes start (p.child name) = .error .notFound := by
  have hspot := h.locate_free hname hfits true hnone
  simp [readBytes, find, hspot, bind, Except.bind]

theorem readBytes_directory (hentry : t.lookup? (mid ++ [name]) = some .directory) :
    t.readBytes start (p.child name) = .error .isDirectory := by
  have hspot := h.locate_taken hname hfits true hentry (by simp)
  simp [readBytes, find, hspot, hentry, bind, Except.bind]

theorem writeBytes_none (hnone : t.lookup? (mid ++ [name]) = none) (content : ByteArray) :
    t.writeBytes start (p.child name) content =
      .ok (t.set (mid ++ [name]) (.file content defaultMode)) := by
  have hspot := h.locate_free hname hfits true hnone
  simp [writeBytes, hspot, Path.endsWithSlash_child hname, bind, Except.bind]

theorem writeBytes_file {old : ByteArray}
    (hentry : t.lookup? (mid ++ [name]) = some (.file old mode)) (content : ByteArray) :
    t.writeBytes start (p.child name) content =
      .ok (t.set (mid ++ [name]) (.file content mode)) := by
  have hspot := h.locate_taken hname hfits true hentry (by simp)
  simp [writeBytes, hspot, hentry, bind, Except.bind]

/-- What a write leaves under the name is no directory. -/
theorem exists_of_writeBytes (hwrite : t.writeBytes start (p.child name) content = .ok u) :
    ∃ e, u.lookup? (mid ++ [name]) = some e ∧ e ≠ .directory := by
  have hne : mid ++ [name] ≠ [] := by simp
  rcases hentry : t.lookup? (mid ++ [name]) with _ | (_ | ⟨old, mode⟩ | target)
  · rw [h.writeBytes_none hname hfits hentry] at hwrite
    obtain rfl := Except.ok.inj hwrite
    exact ⟨_, lookup?_set_self hne, by simp⟩
  · have hspot := h.locate_taken hname hfits true hentry (by simp)
    simp [writeBytes, hspot, hentry, bind, Except.bind] at hwrite
  · rw [h.writeBytes_file hname hfits hentry] at hwrite
    obtain rfl := Except.ok.inj hwrite
    exact ⟨_, lookup?_set_self hne, by simp⟩
  · exact ⟨_, waysStay_writeBytes hwrite _ _ hentry (by simp), by simp⟩

end Holds

/-- Moving something that is no directory to another name, where no directory stands. -/
theorem Holds.rename_ok (h : Holds t start p mid) (hname : Path.IsName name)
    (hfits : Fits p name) (hother : Path.IsName other) (hfits' : Fits p other)
    (hentry : t.lookup? (mid ++ [name]) = some e) (hfile : e ≠ .directory)
    (hfree : t.lookup? (mid ++ [other]) ≠ some .directory) :
    t.rename start (p.child name) (p.child other) =
      .ok (if mid ++ [name] = mid ++ [other] then t
        else (t.drop (mid ++ [name])).set (mid ++ [other]) e) := by
  have hfind : t.find start false (p.child name) = .ok (mid ++ [name]) := by
    rw [find, h.locate_taken hname hfits false hentry (by simp)]
  have hmoved : t.moved (mid ++ [name]) (mid ++ [other]) e =
      .ok (if mid ++ [name] = mid ++ [other] then t
        else (t.drop (mid ++ [name])).set (mid ++ [other]) e) := by
    unfold moved
    split
    · exact absurd rfl hfile
    · next hdir => exact absurd hdir hfree
    · rfl
  rw [rename_eq, hfind]
  simp only [Except.bind, hentry]
  rcases hspot : t.lookup? (mid ++ [other]) with _ | target
  · rw [h.locate_free hother hfits' false hspot]
    exact hmoved
  · rw [h.locate_taken hother hfits' false hspot (by simp)]
    exact hmoved

end ReviewMentor.FileTree
