import Mathlib.Data.Set.Basic
import ReviewMentor.Files.Sweep
import ReviewMentor.Proofs.Files.Contents

/-!
# What a sweep finds

A sweep of a directory finds each file below it once, as long as the directory of the file has a
path that the system accepts. Directories and links are not found, and nothing behind a link is.
-/

namespace ReviewMentor

namespace Path

variable {root : Path} {front names : List String} {name : String}

theorem descend_concat : root.descend (names ++ [name]) = (root.descend names).child name := by
  rw [descend, List.foldl_append]
  rfl

theorem descend_append : root.descend (front ++ names) = (root.descend front).descend names :=
  List.foldl_append

/-- The path of a directory is not longer than the paths of those in it. -/
theorem size_descend_le (h : ∀ name ∈ names, IsName name) :
    root.text.utf8ByteSize ≤ (root.descend names).text.utf8ByteSize := by
  induction names using List.reverseRecOn with
  | nil => exact le_rfl
  | append_singleton names name ih =>
    have hname : IsName name := h name (by simp)
    have hchild := size_add_le_child (p := root.descend names)
      (not_isAbsolute_of_not_mem hname.noSlash)
    rw [descend_concat]
    have hnames := ih fun n hn => h n (List.mem_append_left _ hn)
    omega

end Path

namespace FileTree

variable {t : FileTree} {d place : Place} {root : Path} {names more : List String} {name : String}
  {levels : Nat}

theorem mem_listing : name ∈ t.listing place ↔ ∃ e, (place ++ [name], e) ∈ t.entries := by
  have hlast : ∀ other : Place,
      other.dropLast = place ∧ other.getLast? = some name ↔ other = place ++ [name] := by
    intro other
    constructor
    · rintro ⟨rfl, hname⟩
      exact (List.dropLast_append_getLast? name hname).symm
    · rintro rfl
      simp
  simp [listing, Option.ite_none_right_eq_some, hlast]

/-- A directory lists each name once. -/
theorem Sound.nodup_listing (h : t.Sound) : (t.listing place).Nodup := by
  have hkeys : t.entries.Pairwise fun x y => x.1 ≠ y.1 := List.pairwise_map.mp h.distinct
  refine List.pairwise_filterMap.mpr (hkeys.imp fun {x y} hxy a ha b hb heq => hxy ?_)
  simp only [Option.ite_none_right_eq_some] at ha hb
  obtain ⟨hplace, hname⟩ := ha
  obtain ⟨hplace', hname'⟩ := hb
  rw [← List.dropLast_append_getLast? a hname, ← List.dropLast_append_getLast? b hname', hplace,
    hplace', heq]

theorem length_le_depth {e : Entry} (h : (place, e) ∈ t.entries) : place.length ≤ t.depth := by
  obtain ⟨entries⟩ := t
  unfold depth
  induction entries with
  | nil => simp at h
  | cons x rest ih =>
    rw [List.foldr_cons]
    rcases List.mem_cons.mp h with rfl | h
    · exact le_max_left _ _
    · exact (ih h).trans (le_max_right _ _)

/-- The files below a directory that a sweep reaches: those in directories whose paths, written from
the path of the first one, are accepted by the system. -/
def swept (t : FileTree) (d : Place) (root : Path) : Set (List String) :=
  {names | (∃ content, t.contents d names = some content) ∧
    (root.descend names.dropLast).text.utf8ByteSize < pathLimit}

/-- A sweep finds nothing but files that it reaches. -/
theorem of_mem_sweepFrom (h : more ∈ t.sweepFrom d root levels names) :
    (∃ rest, rest ≠ [] ∧ more = names ++ rest) ∧ more ∈ t.swept d root := by
  induction levels generalizing names with
  | zero => simp [sweepFrom] at h
  | succ levels ih =>
    rw [sweepFrom] at h
    split_ifs at h with hlong
    · simp at h
    obtain ⟨name, -, hmore⟩ := List.mem_flatMap.mp h
    split at hmore
    · next content mode hfile =>
      obtain rfl := List.mem_singleton.mp hmore
      rw [List.append_assoc] at hfile
      refine ⟨⟨[name], by simp, rfl⟩, ⟨content, contents_eq_some.mpr ⟨mode, hfile⟩⟩, ?_⟩
      rw [List.dropLast_concat]
      exact Nat.not_le.mp hlong
    · obtain ⟨⟨rest, -, rfl⟩, hswept⟩ := ih hmore
      exact ⟨⟨name :: rest, by simp, by simp⟩, hswept⟩
    · simp at hmore

/-- What is found through different names is different, if it starts with them. -/
theorem disjoint_of_starts (names : List String) {found : String → List (List String)}
    {a b : String} (hab : a ≠ b)
    (hstarts : ∀ name, ∀ more ∈ found name, ∃ rest, more = names ++ name :: rest) :
    Function.onFun List.Disjoint found a b := by
  intro more ha hb
  obtain ⟨rest, rfl⟩ := hstarts a more ha
  obtain ⟨rest', heq⟩ := hstarts b _ hb
  exact hab (List.cons.inj (List.append_cancel_left heq)).1

namespace Sound

variable (h : t.Sound)

include h

/-- Every file that a sweep reaches is found, unless it lies too deep. -/
theorem mem_sweepFrom {rest : List String} (hne : rest ≠ []) (hlevels : rest.length ≤ levels)
    (hreached : names ++ rest ∈ t.swept d root) :
    names ++ rest ∈ t.sweepFrom d root levels names := by
  induction levels generalizing names rest with
  | zero => simp_all
  | succ levels ih =>
    obtain ⟨name, rest, rfl⟩ := List.exists_cons_of_ne_nil hne
    obtain ⟨⟨content, hcontent⟩, hshort⟩ := hreached
    have hnames : ∀ n ∈ (name :: rest).dropLast, Path.IsName n := fun n hn =>
      (h.storable hcontent (List.mem_append_right _ ((List.dropLast_sublist _).subset hn))).isName
    have hhere : ¬ pathLimit ≤ (root.descend names).text.utf8ByteSize := by
      rw [List.dropLast_append_of_ne_nil hne, Path.descend_append] at hshort
      exact Nat.not_le.mpr ((Path.size_descend_le hnames).trans_lt hshort)
    obtain ⟨mode, hfile⟩ := contents_eq_some.mp hcontent
    rw [sweepFrom, if_neg hhere, List.mem_flatMap]
    by_cases hrest : rest = []
    · subst hrest
      rw [← List.append_assoc] at hfile
      refine ⟨name, mem_listing.mpr ⟨_, mem_of_lookup? (by simp) hfile⟩, ?_⟩
      rw [hfile]
      exact List.mem_singleton_self _
    · have hsplit : names ++ name :: rest = names ++ [name] ++ rest := by simp
      rw [hsplit, ← List.append_assoc, ← List.append_assoc] at hfile
      have hdir := h.directory_of_append hrest hfile
      refine ⟨name, mem_listing.mpr ⟨_, mem_of_lookup? (by simp) hdir⟩, ?_⟩
      rw [hdir, hsplit]
      refine ih hrest (by simpa using hlevels) ?_
      rw [← hsplit]
      exact ⟨⟨content, hcontent⟩, hshort⟩

/-- **A sweep finds exactly the files that it reaches.** -/
theorem mem_sweep (hdir : t.lookup? d = some .directory) :
    names ∈ t.sweep d root ↔ names ∈ t.swept d root := by
  constructor
  · exact fun hmem => (of_mem_sweepFrom hmem).2
  · intro hswept
    obtain ⟨content, hcontent⟩ := hswept.1
    obtain ⟨mode, hfile⟩ := contents_eq_some.mp hcontent
    have hne : names ≠ [] := by
      rintro rfl
      rw [List.append_nil, hdir] at hfile
      exact absurd hfile (by simp)
    have hdepth := length_le_depth (mem_of_lookup? (by simp [hne]) hfile)
    rw [List.length_append] at hdepth
    rw [← List.nil_append names] at hswept ⊢
    exact h.mem_sweepFrom hne (by omega) hswept

theorem nodup_sweepFrom : (t.sweepFrom d root levels names).Nodup := by
  induction levels generalizing names with
  | zero => exact List.nodup_nil
  | succ levels ih =>
    rw [sweepFrom]
    split_ifs
    · exact List.nodup_nil
    refine List.nodup_flatMap.mpr ⟨fun name _ => ?_, h.nodup_listing.imp fun {a b} hab => ?_⟩
    · split
      · exact List.nodup_singleton _
      · exact ih
      · exact List.nodup_nil
    · refine disjoint_of_starts names hab fun name more hmore => ?_
      split at hmore
      · exact ⟨[], List.mem_singleton.mp hmore⟩
      · obtain ⟨⟨rest, -, rfl⟩, -⟩ := of_mem_sweepFrom hmore
        exact ⟨rest, by simp⟩
      · simp at hmore

/-- A sweep finds nothing twice. -/
theorem nodup_sweep : (t.sweep d root).Nodup := h.nodup_sweepFrom

end Sound

end FileTree

end ReviewMentor
