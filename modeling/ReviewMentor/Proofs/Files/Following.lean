import ReviewMentor.Proofs.Files.Lookup

/-!
# Following a step

A step is a dot, two dots, or something under whose name the tree is entered. What following it does
is told here once, for each thing that may stand under the name, and so is what it must have done
where it did not fail. Whoever goes along a path needs nothing else about how steps are followed,
and about whole paths only that those that can be followed at all are followed step by step.
-/

namespace ReviewMentor.FileTree

/-- Where the parts of a path are followed from. -/
def origin (start : Place) (p : Path) : Place :=
  if p.isAbsolute then [] else start

/-- The steps that are taken instead of a link that is followed from `place`. -/
def linkSteps (target : String) : List String := (Path.mk target).parts

/-- A step under whose name something is looked up: it is no dots, and not longer than names may
be. -/
structure Enters (step : String) : Prop where
  notHere : step ≠ "."
  notUp : step ≠ ".."
  short : step.utf8ByteSize ≤ longestName

variable {t : FileTree} {last dir : Bool} {place : Place} {step target : String}
  {rest : List String} {content : ByteArray} {mode : Nat} {spot : Spot} {e : Entry}
  {jump : Place → String → List String → Except FileError Spot}

/-! ### Dots -/

theorem follow_nil : t.follow last dir jump place [] = .ok (.taken place) := rfl

theorem follow_here :
    t.follow last dir jump place ("." :: rest) = t.follow last dir jump place rest := by
  rw [follow]

theorem follow_up :
    t.follow last dir jump place (".." :: rest) = t.follow last dir jump place.dropLast rest := by
  rw [follow]

/-! ### Names -/

theorem follow_long (hhere : step ≠ ".") (hup : step ≠ "..")
    (hlong : longestName < step.utf8ByteSize) :
    t.follow last dir jump place (step :: rest) = .error .nameTooLong := by
  rw [follow, if_pos hlong]
  all_goals assumption

namespace Enters

variable (h : Enters step)

include h

/-- What stands under a name decides how it goes on. -/
theorem follow_eq : t.follow last dir jump place (step :: rest) =
    match t.lookup? (place ++ [step]) with
    | none => if rest.isEmpty then .ok (.free place step) else .error .notFound
    | some .directory => t.follow last dir jump (place ++ [step]) rest
    | some (.file _ _) =>
      if rest.isEmpty && !dir then .ok (.taken (place ++ [step])) else .error .notDirectory
    | some (.link target) =>
      if rest.isEmpty && !last && !dir then .ok (.taken (place ++ [step]))
      else jump place target rest := by
  rw [follow]
  · exact if_neg (Nat.not_lt.mpr h.short)
  · exact h.notHere
  · exact h.notUp

theorem follow_free (hnone : t.lookup? (place ++ [step]) = none) :
    t.follow last dir jump place [step] = .ok (.free place step) := by
  rw [h.follow_eq, hnone]
  rfl

theorem follow_missing (hnone : t.lookup? (place ++ [step]) = none) (hrest : rest ≠ []) :
    t.follow last dir jump place (step :: rest) = .error .notFound := by
  rw [h.follow_eq, hnone]
  exact if_neg (by simpa using hrest)

theorem follow_directory (hdir : t.lookup? (place ++ [step]) = some .directory) :
    t.follow last dir jump place (step :: rest) =
      t.follow last dir jump (place ++ [step]) rest := by
  rw [h.follow_eq, hdir]

theorem follow_link (hlink : t.lookup? (place ++ [step]) = some (.link target))
    (hgoes : rest = [] → last = false → dir = true) :
    t.follow last dir jump place (step :: rest) = jump place target rest := by
  rw [h.follow_eq, hlink]
  refine if_neg fun hstays => ?_
  simp only [Bool.and_eq_true, List.isEmpty_iff, Bool.not_eq_true'] at hstays
  obtain ⟨⟨hrest, hlast⟩, hdir⟩ := hstays
  exact absurd (hgoes hrest hlast) (by simp [hdir])

/-- At the end stands what was looked for, unless it is a link that is to be followed. -/
theorem follow_taken (hentry : t.lookup? (place ++ [step]) = some e)
    (hlink : last = true → ∀ target, e ≠ .link target) :
    t.follow last false jump place [step] = .ok (.taken (place ++ [step])) := by
  rw [h.follow_eq, hentry]
  rcases e with _ | ⟨content, mode⟩ | target
  · exact follow_nil
  · rfl
  · cases last
    · rfl
    · exact absurd rfl (hlink rfl target)

end Enters

/-- What following a step did where it did not fail: nothing stands under the name, and it is free;
a directory is entered; a file or a link stands there and is the last; or a link is followed. -/
inductive Followed (t : FileTree) (last dir : Bool)
    (jump : Place → String → List String → Except FileError Spot) (place : Place) (step : String) :
    List String → Spot → Prop
  | free : t.lookup? (place ++ [step]) = none → Followed t last dir jump place step []
      (.free place step)
  | enter {rest : List String} {spot : Spot} : t.lookup? (place ++ [step]) = some .directory →
      t.follow last dir jump (place ++ [step]) rest = .ok spot →
      Followed t last dir jump place step rest spot
  | file {content : ByteArray} {mode : Nat} :
      t.lookup? (place ++ [step]) = some (.file content mode) → dir = false →
      Followed t last dir jump place step [] (.taken (place ++ [step]))
  | stay {target : String} : t.lookup? (place ++ [step]) = some (.link target) → last = false →
      dir = false → Followed t last dir jump place step [] (.taken (place ++ [step]))
  | jump {target : String} {rest : List String} {spot : Spot} :
      t.lookup? (place ++ [step]) = some (.link target) →
      (rest = [] → last = false → dir = true) → jump place target rest = .ok spot →
      Followed t last dir jump place step rest spot

theorem follow_step (hhere : step ≠ ".") (hup : step ≠ "..")
    (h : t.follow last dir jump place (step :: rest) = .ok spot) :
    Enters step ∧ Followed t last dir jump place step rest spot := by
  have hstep : Enters step := by
    refine ⟨hhere, hup, Nat.not_lt.mp fun hlong => ?_⟩
    rw [follow_long hhere hup hlong] at h
    exact absurd h (by simp)
  refine ⟨hstep, ?_⟩
  rw [hstep.follow_eq] at h
  split at h
  · next hnone =>
    split at h
    · next hrest =>
      obtain rfl := List.isEmpty_iff.mp hrest
      obtain rfl := Except.ok.inj h
      exact .free hnone
    · exact absurd h (by simp)
  · next hdir => exact .enter hdir h
  · next hfile =>
    split at h
    · next hends =>
      simp only [Bool.and_eq_true, List.isEmpty_iff, Bool.not_eq_true'] at hends
      obtain ⟨rfl, hplain⟩ := hends
      obtain rfl := Except.ok.inj h
      exact .file hfile hplain
    · exact absurd h (by simp)
  · next hlink =>
    split at h
    · next hstays =>
      simp only [Bool.and_eq_true, List.isEmpty_iff, Bool.not_eq_true'] at hstays
      obtain ⟨⟨rfl, hlast⟩, hplain⟩ := hstays
      obtain rfl := Except.ok.inj h
      exact .stay hlink hlast hplain
    · next hgoes =>
      refine .jump hlink (fun hrest hlast => ?_) h
      by_contra hdir
      exact hgoes (by simp [hrest, hlast, hdir])

/-! ### Whole paths -/

/-- A path that can be followed, whatever the tree is. -/
structure Passable (p : Path) : Prop where
  noNul : Char.ofNat 0 ∉ p.text.toList
  nonempty : p.text ≠ ""
  short : p.text.utf8ByteSize < pathLimit

theorem noNul_iff {p : Path} :
    p.text.toList.any (· = Char.ofNat 0) = false ↔ Char.ofNat 0 ∉ p.text.toList := by
  rw [List.any_eq_false]
  refine ⟨fun h hmem => h _ hmem (by simp), fun h c hc hnul => ?_⟩
  obtain rfl := of_decide_eq_true hnul
  exact h hc

section Paths

variable {start : Place} {p : Path}

theorem Passable.locate_eq (h : Passable p) : t.locate start last p =
    t.followLinks last linkLimit p.endsWithSlash (origin start p) p.parts := by
  unfold locate
  rw [noNul_iff.mpr h.noNul, if_neg Bool.false_ne_true, if_neg h.nonempty,
    if_neg (Nat.not_le.mpr h.short)]
  rfl

theorem passable_of_locate (h : t.locate start last p = .ok spot) : Passable p := by
  unfold locate at h
  split_ifs at h with hnul hempty hlong
  exact ⟨noNul_iff.mp (Bool.not_eq_true _ ▸ hnul), hempty, Nat.not_le.mp hlong⟩

theorem locate_ok (h : t.locate start last p = .ok spot) :
    t.followLinks last linkLimit p.endsWithSlash (origin start p) p.parts = .ok spot := by
  rwa [(passable_of_locate h).locate_eq] at h

/-- A path that cannot be followed leads nowhere, for a reason that no change of the tree mends. -/
theorem exists_locate_eq_error (h : ¬ Passable p) : ∃ e, (p.text ≠ "" → e ≠ .notFound) ∧
    ∀ (t : FileTree) (start : Place) (last : Bool), t.locate start last p = .error e := by
  by_cases hnul : p.text.toList.any (· = Char.ofNat 0) = true
  · refine ⟨.badName, by simp, fun t start last => ?_⟩
    rw [locate, if_pos hnul]
  by_cases hempty : p.text = ""
  · refine ⟨.notFound, fun hne => absurd hempty hne, fun t start last => ?_⟩
    rw [locate, if_neg hnul, if_pos hempty]
  · have hlong : pathLimit ≤ p.text.utf8ByteSize := by
      by_contra hshort
      exact h ⟨noNul_iff.mp (Bool.not_eq_true _ ▸ hnul), hempty, Nat.not_le.mp hshort⟩
    refine ⟨.nameTooLong, by simp, fun t start last => ?_⟩
    rw [locate, if_neg hnul, if_neg hempty, if_pos hlong]

end Paths

end ReviewMentor.FileTree
