import ReviewMentor.Proofs.Files.Room

/-!
# Paving the way

Directories are made from the last one backwards: whoever finds the way to a directory missing makes
its parent first. The parent of a path that ends with a name is the path without that name, apart
from dots that say nothing. So where only directories are on the way, or nothing, all of it can be
made, and after that there is a spot for a file at its end.
-/

namespace ReviewMentor

namespace Path

variable {p q target : Path} {front names : List String} {name : String}

/-! ### Parents -/

/-- What is trimmed away are parts that are no components. -/
theorem exists_trimmed (parts : List String) :
    ∃ tail, parts = trimParts parts ++ tail ∧ ∀ part ∈ tail, isEmptyPart part = true := by
  rcases parts with _ | ⟨first, rest⟩
  · exact ⟨[], rfl, by simp⟩
  · refine ⟨(rest.reverse.takeWhile isEmptyPart).reverse, ?_, fun part hpart => ?_⟩
    · have hsplit := congrArg List.reverse
        (List.takeWhile_append_dropWhile (p := isEmptyPart) (l := rest.reverse))
      rw [List.reverse_append, List.reverse_reverse] at hsplit
      exact congrArg (first :: ·) hsplit.symm
    · exact List.mem_takeWhile_imp (List.mem_reverse.mp hpart)

/-- Trimming stops at a name. -/
theorem trimParts_append {tail : List String} (hname : IsName name)
    (htail : ∀ part ∈ tail, isEmptyPart part = true) :
    trimParts (front ++ name :: tail) = front ++ [name] := by
  have hstop : ∀ before, ((before ++ name :: tail).reverse.dropWhile isEmptyPart).reverse =
      before ++ [name] := by
    intro before
    have hkept : isEmptyPart name = false := by simp [isEmptyPart, hname.ne_empty, hname.ne_here]
    rw [List.reverse_append, List.reverse_cons, List.append_assoc,
      List.dropWhile_append_of_pos fun part hpart => htail part (List.mem_reverse.mp hpart)]
    simp [hkept]
  rcases front with _ | ⟨first, rest⟩
  · have hnone := List.dropWhile_eq_nil_iff.mpr fun part hpart =>
      htail part (List.mem_reverse.mp hpart)
    simp [trimParts, hnone]
  · exact congrArg (first :: ·) (hstop rest)

/-- The last component of a path that ends with a name is that name. -/
theorem exists_components (hparts : p.parts = front ++ [name]) (hname : IsName name) :
    ∃ cs, p.components = cs ++ [.name name] := by
  have hsteps : p.parts.filterMap component? = front.filterMap component? ++ [.name name] := by
    simp [hparts, component?_of_isName hname]
  by_cases habs : p.isAbsolute = true
  · exact ⟨.root :: front.filterMap component?, by rw [components_of_isAbsolute habs, hsteps]; rfl⟩
  · rw [components_of_relative (Bool.not_eq_true _ ▸ habs), hsteps, ← List.append_assoc]
    exact ⟨_, rfl⟩

/-- The parts that a path is cut into, apart from empty ones. -/
theorem parts_join_kept {kept : List String} (hslash : ∀ part ∈ kept, '/' ∉ part.toList) :
    (Path.mk (Text.join "/" kept)).parts = kept.filter (· ≠ "") := by
  by_cases hnil : kept = []
  · subst hnil
    exact parts_empty
  · rw [parts, Text.cut_join hnil hslash]

/-- The parent of a path that ends with a name is what stands before the name, apart from dots that
stand before it. -/
theorem exists_parent? (hparts : p.parts = front ++ [name]) (hname : IsName name) :
    ∃ q, p.parent? = some q ∧ (∃ dots, front = q.parts ++ dots ∧ ∀ part ∈ dots, part = ".") ∧
      ∃ more, p.text = q.text ++ more := by
  obtain ⟨before, rest, hcut, hbefore, hrest⟩ := List.filter_eq_append_iff.mp hparts
  obtain ⟨gap, tail, rfl, hgap, -, htail⟩ := List.filter_eq_cons_iff.mp hrest
  -- What stands before the name, with the empty parts.
  have hfront : (before ++ gap).filter (· ≠ "") = front := by
    rw [List.filter_append, hbefore, List.filter_eq_nil_iff.mpr hgap, List.append_nil]
  have htrim : trimParts (Text.cut '/' p.text) = (before ++ gap) ++ [name] := by
    rw [hcut, ← List.append_assoc]
    refine trimParts_append hname fun part hpart => ?_
    simpa [isEmptyPart] using Or.inl (by simpa using List.filter_eq_nil_iff.mp htail part hpart)
  obtain ⟨cs, hcs⟩ := exists_components hparts hname
  obtain ⟨dots, hsplit, hdots⟩ := exists_trimmed (before ++ gap)
  have hdots' : ∀ part ∈ dots.filter (· ≠ ""), part = "." := fun part hpart => by
    obtain ⟨hmem, hne⟩ := List.mem_filter.mp hpart
    have hne : part ≠ "" := by simpa using hne
    simpa [isEmptyPart, hne] using hdots part hmem
  have htext : p.text =
      Text.join "/" (trimParts (before ++ gap) ++ (dots ++ name :: tail)) := by
    rw [← List.append_assoc, ← hsplit, List.append_assoc, ← hcut, Text.join_cut]
  rw [hsplit, List.filter_append] at hfront
  have hslash : ∀ part ∈ trimParts (before ++ gap), '/' ∉ part.toList := fun part hpart =>
    Text.not_mem_of_mem_cut (s := p.text) (by
      rw [hcut, ← List.append_assoc, hsplit]
      simp [hpart])
  rw [parent?, hcs, List.reverse_concat, htrim, List.dropLast_concat]
  dsimp only
  split
  · next hroot =>
    -- Only the root stands before the name.
    refine ⟨_, rfl, ⟨dots.filter (· ≠ ""), ?_, hdots'⟩, Text.join "/" (dots ++ name :: tail), ?_⟩
    · rw [← hfront, hroot]
      rfl
    · rw [htext, hroot, Text.join_append (by simp) (by simp)]
      rfl
  · refine ⟨_, rfl, ⟨dots.filter (· ≠ ""), ?_, hdots'⟩, ?_⟩
    · rw [parts_join_kept hslash, hfront]
    · by_cases hnil : trimParts (before ++ gap) = []
      · exact ⟨p.text, by rw [hnil]; exact (String.empty_append ..).symm⟩
      · exact ⟨_, by rw [htext, Text.join_append hnil (by simp), String.append_assoc]⟩

/-! ### Paths into a directory -/

/-- A path goes on where another one ends, with names that lead on from there; dots at its end say
nothing. It is one that can be followed. -/
structure GoesOn (target : Path) (names : List String) (q : Path) : Prop where
  parts : ∃ dots, target.parts ++ names = q.parts ++ dots ∧ ∀ part ∈ dots, part = "."
  absolute : q.isAbsolute = target.isAbsolute
  noNul : Char.ofNat 0 ∉ q.text.toList
  short : q.text.utf8ByteSize < FileTree.pathLimit

namespace GoesOn

variable {n : String}

/-- There are no dots behind a name. -/
theorem parts_eq (h : target.GoesOn (names ++ [n]) q) (hn : IsName n) :
    q.parts = target.parts ++ names ++ [n] := by
  obtain ⟨dots, hparts, hdots⟩ := h.parts
  rw [← List.append_assoc] at hparts
  rcases List.eq_nil_or_concat' dots with rfl | ⟨front, dot, rfl⟩
  · rw [hparts, List.append_nil]
  · rw [← List.append_assoc] at hparts
    obtain rfl : n = dot := by simpa using (List.append_inj' hparts rfl).2
    exact absurd (hdots n (by simp)) hn.ne_here

theorem parent (h : target.GoesOn (names ++ [n]) q) (hn : IsName n) :
    ∃ r, q.parent? = some r ∧ target.GoesOn names r := by
  obtain ⟨r, hr, hparts, more, htext⟩ := exists_parent? (h.parts_eq hn) hn
  refine ⟨r, hr, hparts, (parts_parent? hr).2.trans h.absolute, fun hnul => h.noNul ?_, ?_⟩
  · rw [htext, String.toList_append]
    exact List.mem_append_left _ hnul
  · refine Nat.lt_of_le_of_lt ?_ h.short
    rw [htext, String.utf8ByteSize_append]
    exact Nat.le_add_right ..

theorem text_ne_empty (h : target.GoesOn (names ++ [n]) q) (hn : IsName n) : q.text ≠ "" := by
  intro htext
  have hparts := h.parts_eq hn
  rw [show q = ⟨""⟩ from congrArg Path.mk htext, parts_empty] at hparts
  simp at hparts

/-- Names are components, so that a path has no fewer of them. -/
theorem length_le (h : target.GoesOn names q) (hnames : ∀ n ∈ names, IsName n) :
    names.length ≤ q.components.length := by
  have hsteps : names.length ≤ (q.parts.filterMap component?).length := by
    obtain ⟨dots, hparts, hdots⟩ := h.parts
    have hnone : dots.filterMap component? = [] :=
      List.filterMap_eq_nil_iff.mpr fun part hpart => component?_eq_none.mpr (hdots part hpart)
    have hall := congrArg (List.filterMap component?) hparts
    rw [List.filterMap_append, List.filterMap_append, hnone, List.append_nil] at hall
    rw [← hall, List.length_append]
    refine Nat.le_add_left_of_le (Nat.le_of_eq ?_)
    rw [List.filterMap_congr fun n hn => component?_of_isName (hnames n hn)]
    simp
  refine hsteps.trans ?_
  by_cases habs : q.isAbsolute = true
  · rw [components_of_isAbsolute habs, List.length_cons]
    exact Nat.le_succ _
  · rw [components_of_relative (Bool.not_eq_true _ ▸ habs), List.length_append]
    exact Nat.le_add_left ..

end GoesOn

end Path

namespace FileTree

variable {t u : FileTree} {start place mid d : Place} {p q target : Path} {n : String}
  {last dir dir' : Bool} {names rest steps dots : List String}
  {jump jump' : Place → String → List String → Except FileError Spot}

/-! ### Following names -/

/-- Names through directories are entered one after another. -/
theorem Sound.follow_names_append (h : t.Sound)
    (hdir : t.lookup? (place ++ names) = some .directory) :
    t.follow last dir jump place (names ++ rest) =
      t.follow last dir jump (place ++ names) rest := by
  induction names generalizing place with
  | nil => rw [List.append_nil, List.nil_append]
  | cons n names ih =>
    have hsplit : place ++ n :: names = place ++ [n] ++ names := by simp
    rw [hsplit] at hdir ⊢
    have hentry : t.lookup? (place ++ [n]) = some .directory := by
      by_cases hnil : names = []
      · rwa [hnil, List.append_nil] at hdir
      · exact h.directory_of_append hnil hdir
    have hn : Storable n := (h.grown place n _ hentry).2
    rw [List.cons_append, hn.enters.follow_directory hentry]
    exact ih hdir

/-- Names through directories are not found any more where one of them is missing. -/
theorem follow_missing (hnames : ∀ n ∈ names, Storable n) (hrest : rest ≠ [])
    (hopen : ∀ more, more <+: names → t.lookup? (place ++ more) = none ∨
      t.lookup? (place ++ more) = some .directory)
    (hplace : t.lookup? place = some .directory) (hmissing : t.lookup? (place ++ names) = none) :
    t.follow last dir jump place (names ++ rest) = .error .notFound := by
  induction names generalizing place with
  | nil =>
    rw [List.append_nil, hplace] at hmissing
    exact absurd hmissing (by simp)
  | cons n names ih =>
    obtain ⟨hn, hnames⟩ := List.forall_mem_cons.mp hnames
    rw [List.cons_append]
    rcases hopen [n] (by simp) with hnone | hdir
    · exact hn.enters.follow_missing hnone (by simp [hrest])
    · rw [hn.enters.follow_directory hdir]
      refine ih hnames (fun more hmore => ?_) hdir (by simpa using hmissing)
      simpa using hopen (n :: more) (List.cons_prefix_cons.mpr ⟨rfl, hmore⟩)

/-! ### Dots at the end -/

theorem follow_dots (hdots : ∀ part ∈ dots, part = ".") :
    t.follow last dir jump place dots = .ok (.taken place) := by
  induction dots with
  | nil => rfl
  | cons dot dots ih =>
    obtain ⟨rfl, hrest⟩ := List.forall_mem_cons.mp hdots
    rw [follow_here]
    exact ih hrest

/-- Where steps lead to a directory, they lead somewhere without the dots at their end too; a link
there need not be followed. -/
def LeadsOn (last : Bool) (mid : Place) (result : Except FileError Spot) : Prop :=
  ∃ q, result = .ok (.taken q) ∧ (last = true → q = mid)

theorem follow_trimmed (hmid : t.lookup? mid = some .directory)
    (hdots : ∀ part ∈ dots, part = ".")
    (hjump : ∀ place target rest, jump place target (rest ++ dots) = .ok (.taken mid) →
      LeadsOn last mid (jump' place target rest))
    (h : t.follow true dir jump place (steps ++ dots) = .ok (.taken mid)) :
    LeadsOn last mid (t.follow last dir' jump' place steps) := by
  induction steps generalizing place with
  | nil =>
    rw [List.nil_append, follow_dots hdots] at h
    exact ⟨place, rfl, fun _ => Spot.taken.inj (Except.ok.inj h)⟩
  | cons step rest ih =>
    rw [List.cons_append] at h
    by_cases hhere : step = "."
    · subst hhere
      rw [follow_here] at h ⊢
      exact ih h
    by_cases hup : step = ".."
    · subst hup
      rw [follow_up] at h ⊢
      exact ih h
    obtain ⟨hstep, hfollowed⟩ := follow_step hhere hup h
    generalize hall : rest ++ dots = more at hfollowed
    cases hfollowed with
    | enter hdir h =>
      rw [hstep.follow_directory hdir]
      exact ih (hall ▸ h)
    | file hfile =>
      -- A file is no directory.
      exact absurd (hfile.symm.trans hmid) (by simp)
    | stay _ hlast => exact absurd hlast (by simp)
    | jump hlink _ hj =>
      rw [hstep.follow_eq, hlink]
      dsimp only
      split
      · next hstays => exact ⟨_, rfl, fun hlast => by simp [hlast] at hstays⟩
      · exact hjump place _ rest (hall ▸ hj)

theorem followLinks_trimmed (hmid : t.lookup? mid = some .directory)
    (hdots : ∀ part ∈ dots, part = ".") {budget : Nat}
    (h : t.followLinks true budget dir place (steps ++ dots) = .ok (.taken mid)) :
    LeadsOn last mid (t.followLinks last budget dir' place steps) := by
  induction budget generalizing dir dir' place steps with
  | zero =>
    rw [followLinks] at h ⊢
    exact follow_trimmed hmid hdots (fun _ _ _ hj => absurd hj (by simp)) h
  | succ budget ih =>
    rw [followLinks] at h ⊢
    refine follow_trimmed hmid hdots (fun place target rest hj => ?_) h
    dsimp only at hj ⊢
    split at hj
    · exact absurd hj (by simp)
    · next htarget =>
      rw [if_neg htarget]
      rw [← List.append_assoc] at hj
      exact ih hj

/-! ### Making directories -/

section Locating

variable (hfind : t.find start true target = .ok d)
  (hdir : t.lookup? d = some .directory)

include hfind hdir

/-- A path that goes on without names ends where the other one does, unless it stays at a link. -/
theorem locate_trimmed (hq : target.GoesOn [] q) (hne : q.text ≠ "") :
    LeadsOn last d (t.locate start last q) := by
  obtain ⟨dots, hparts, hdots⟩ := hq.parts
  have hfound := locate_ok (find_ok hfind)
  rw [List.append_nil] at hparts
  rw [hparts, origin, ← hq.absolute] at hfound
  have hleads : LeadsOn last d
      (t.followLinks last linkLimit q.endsWithSlash (origin start q) q.parts) :=
    followLinks_trimmed hdir hdots hfound
  have hpass : Passable q := ⟨hq.noNul, hne, hq.short⟩
  rwa [hpass.locate_eq]

/-- A path that goes on with names ends as they do. -/
theorem locate_extended {result : Except FileError Spot} (hq : target.GoesOn (names ++ [n]) q)
    (hn : Path.IsName n)
    (hend : ∀ jump, t.follow last q.endsWithSlash jump d (names ++ [n]) = result) :
    t.locate start last q = result := by
  have hpass : Passable q := ⟨hq.noNul, hq.text_ne_empty hn, hq.short⟩
  rw [hpass.locate_eq, hq.parts_eq hn, List.append_assoc,
    show origin start q = origin start target by rw [origin, origin, hq.absolute]]
  exact followLinks_append hdir (by simp) hend (locate_ok (find_ok hfind))

section Last

variable (h : t.Sound) (hq : target.GoesOn (names ++ [n]) q) (hn : Storable n)
  (hfront : t.lookup? (d ++ names) = some .directory)

include h hq hn hfront

theorem locate_last {result : Except FileError Spot}
    (hend : ∀ jump, t.follow last q.endsWithSlash jump (d ++ names) [n] = result) :
    t.locate start last q = result :=
  locate_extended hfind hdir hq hn.isName fun jump => by
    rw [h.follow_names_append hfront, hend]

theorem locate_last_free (hnone : t.lookup? (d ++ (names ++ [n])) = none) :
    t.locate start last q = .ok (.free (d ++ names) n) :=
  locate_last hfind hdir h hq hn hfront fun jump =>
    hn.enters.follow_free (by rwa [List.append_assoc])

theorem locate_last_directory (hlast : t.lookup? (d ++ (names ++ [n])) = some .directory) :
    t.locate start last q = .ok (.taken (d ++ (names ++ [n]))) := by
  refine locate_last hfind hdir h hq hn hfront fun jump => ?_
  rw [← List.append_assoc] at hlast ⊢
  exact hn.enters.follow_directory hlast

theorem locate_last_file {content : ByteArray} {mode : Nat} (hslash : q.endsWithSlash = false)
    (hlast : t.lookup? (d ++ (names ++ [n])) = some (.file content mode)) :
    t.locate start last q = .ok (.taken (d ++ (names ++ [n]))) := by
  refine locate_last hfind hdir h hq hn hfront fun jump => ?_
  rw [← List.append_assoc] at hlast ⊢
  rw [hslash]
  exact hn.enters.follow_taken hlast (by simp)

theorem isDirectory_last (hlast : t.lookup? (d ++ (names ++ [n])) = some .directory) :
    t.isDirectory start q = true := by
  simp [isDirectory, entry?, find, locate_last_directory hfind hdir h hq hn hfront hlast, hlast]

end Last

end Locating

/-! ### Making directories -/

/-- Directories were added on a way of names, and nothing else; where it ends stands one now. -/
structure Paved (d : Place) (names : List String) (t u : FileTree) : Prop where
  made : u.lookup? (d ++ names) = some .directory
  kept : ∀ place, u.lookup? place = t.lookup? place ∨
    u.lookup? place = some .directory ∧ ∃ more, more <+: names ∧ place = d ++ more

theorem Paved.lookup?_cases (h : Paved d names t u) {more : List String}
    (hopen : t.lookup? (d ++ more) = none ∨ t.lookup? (d ++ more) = some .directory) :
    u.lookup? (d ++ more) = none ∨ u.lookup? (d ++ more) = some .directory := by
  rcases h.kept (d ++ more) with hkeep | ⟨hmade, -⟩
  · rwa [hkeep]
  · exact .inr hmade

/-- A directory is made at the end of a way that is paved, unless it is there. -/
theorem Paved.makeDirectory (h : Paved d names t u) (hu : Standing start u)
    (hfind : u.find start true target = .ok d) (hdir : u.lookup? d = some .directory)
    (hq : target.GoesOn (names ++ [n]) q) (hn : Storable n)
    (hopen : t.lookup? (d ++ (names ++ [n])) = none ∨
      t.lookup? (d ++ (names ++ [n])) = some .directory) :
    ∃ v, Paved d (names ++ [n]) t v ∧ (u.makeDirectory start q = .ok v ∨
      v = u ∧ u.makeDirectory start q = .error .occupied ∧ u.isDirectory start q = true) := by
  have hlast := h.lookup?_cases hopen
  have hgrown : ∀ v : FileTree, v.lookup? (d ++ (names ++ [n])) = some .directory →
      (∀ place, place ≠ d ++ (names ++ [n]) → v.lookup? place = u.lookup? place) →
      Paved d (names ++ [n]) t v := by
    refine fun v hmade hkept => ⟨hmade, fun place => ?_⟩
    by_cases hplace : place = d ++ (names ++ [n])
    · subst hplace
      exact .inr ⟨hmade, _, List.prefix_rfl, rfl⟩
    · rcases h.kept place with hkeep | ⟨hdir', more, hmore, heq⟩
      · exact .inl ((hkept place hplace).trans hkeep)
      · exact .inr ⟨(hkept place hplace).trans hdir', more,
          hmore.trans (List.prefix_append _ _), heq⟩
  rcases hlast with hnone | hthere
  · have hlocate : u.locate start false q = .ok (.free (d ++ names) n) :=
      locate_last_free hfind hdir hu.sound hq hn h.made hnone
    refine ⟨u.set (d ++ (names ++ [n])) .directory, hgrown _ (lookup?_set_self (by simp))
      (fun place hplace => lookup?_set_of_ne (by simp) hplace), .inl ?_⟩
    simp [FileTree.makeDirectory, hlocate, bind, Except.bind]
  · have hlocate : u.locate start false q = .ok (.taken (d ++ (names ++ [n]))) :=
      locate_last_directory hfind hdir hu.sound hq hn h.made hthere
    refine ⟨u, hgrown u hthere fun _ _ => rfl, .inr ⟨rfl, ?_, ?_⟩⟩
    · simp [FileTree.makeDirectory, hlocate, bind, Except.bind]
    · exact isDirectory_last hfind hdir hu.sound hq hn h.made hthere

section Making

variable (h : Standing start t) (hfind : t.find start true target = .ok d)
  (hdir : t.lookup? d = some .directory)

include h hfind hdir

/-- **A way on which nothing stands but directories can be paved.** -/
theorem paved_makeDirectoriesUpTo (hq : target.GoesOn names q) (hnames : ∀ n ∈ names, Storable n)
    (hopen : ∀ more, more <+: names → t.lookup? (d ++ more) = none ∨
      t.lookup? (d ++ more) = some .directory) {depth : Nat} (hdepth : names.length < depth) :
    ∃ u, t.makeDirectoriesUpTo depth start q = (u, .ok ()) ∧ Paved d names t u := by
  induction names using List.reverseRecOn generalizing q depth with
  | nil =>
    obtain ⟨depth, rfl⟩ := Nat.exists_eq_add_one_of_ne_zero (Nat.ne_zero_of_lt hdepth)
    have hpaved : Paved d [] t t := ⟨by rwa [List.append_nil], fun _ => .inl rfl⟩
    refine ⟨t, ?_, hpaved⟩
    rw [makeDirectoriesUpTo]
    by_cases hne : q.text = ""
    · rw [if_pos hne]
    have hleads : ∀ last, LeadsOn last d (t.locate start last q) := fun _ =>
      locate_trimmed hfind hdir hq hne
    obtain ⟨x, hx, -⟩ := hleads false
    obtain ⟨y, hy, hlast⟩ := hleads true
    obtain rfl := hlast rfl
    have hmake : t.makeDirectory start q = .error .occupied := by
      simp [makeDirectory, hx, bind, Except.bind]
    have hthere : t.isDirectory start q = true := by
      simp [isDirectory, entry?, find, hy, hdir]
    simp only [if_neg hne, hmake, hthere, if_true]
  | append_singleton names n ih =>
    obtain ⟨depth, rfl⟩ := Nat.exists_eq_add_one_of_ne_zero (Nat.ne_zero_of_lt hdepth)
    have hn : Storable n := hnames n (by simp)
    have hfew : ∀ m ∈ names, Storable m := fun m hm => hnames m (by simp [hm])
    have hbefore := fun more (hmore : more <+: names) =>
      hopen more (hmore.trans (List.prefix_append _ _))
    rw [makeDirectoriesUpTo, if_neg (hq.text_ne_empty hn.isName)]
    rcases hbefore names List.prefix_rfl with hmissing | hfront
    · -- The way is missing, and is made first.
      obtain ⟨r, hparent, hr⟩ := hq.parent hn.isName
      have hne : names ≠ [] := by
        rintro rfl
        rw [List.append_nil, hdir] at hmissing
        exact absurd hmissing (by simp)
      have hlocate : t.locate start false q = .error .notFound :=
        locate_extended hfind hdir hq hn.isName fun jump =>
          follow_missing hfew (by simp) hbefore hdir hmissing
      have hmake : t.makeDirectory start q = .error .notFound := by
        simp [makeDirectory, hlocate, bind, Except.bind]
      obtain ⟨u, hmade, hpaved⟩ : ∃ u, t.makeDirectoriesUpTo depth start r = (u, .ok ()) ∧
          Paved d names t u := ih hr hfew hbefore (by simpa using hdepth)
      have hu := h.makeDirectoriesUpTo depth r
      have hways := (wayMade_makeDirectoriesUpTo depth t start r).waysStay
      rw [hmade] at hu hways
      obtain ⟨v, hv, hlast⟩ := hpaved.makeDirectory hu (hways.find (by simp [hdir]) hfind)
        (hways d _ hdir (by simp)) hq hn (hopen _ List.prefix_rfl)
      refine ⟨v, ?_, hv⟩
      rcases hlast with hmake' | ⟨rfl, hmake', hthere⟩
      · simp only [hmake, hparent, hmade, hmake']
      · simp only [hmake, hparent, hmade, hmake', hthere, if_true]
    · have hpaved : Paved d names t t := ⟨hfront, fun _ => .inl rfl⟩
      obtain ⟨v, hv, hlast⟩ := hpaved.makeDirectory h hfind hdir hq hn (hopen _ List.prefix_rfl)
      refine ⟨v, ?_, hv⟩
      rcases hlast with hmake | ⟨rfl, hmake, hthere⟩
      · simp only [hmake]
      · simp only [hmake, hthere, if_true]

theorem paved_makeDirectories (hq : target.GoesOn names q) (hnames : ∀ n ∈ names, Storable n)
    (hopen : ∀ more, more <+: names → t.lookup? (d ++ more) = none ∨
      t.lookup? (d ++ more) = some .directory) :
    ∃ u, t.makeDirectories start q = (u, .ok ()) ∧ Paved d names t u :=
  paved_makeDirectoriesUpTo h hfind hdir hq hnames hopen
    (Nat.lt_succ_of_le (hq.length_le fun n hn => (hnames n hn).isName))

end Making

/-! ### Writing a file -/

section Writing

variable {content : ByteArray} (h : t.Sound) (hfind : t.find start true target = .ok d)
  (hdir : t.lookup? d = some .directory) (hq : target.GoesOn (names ++ [n]) q) (hn : Storable n)
  (hfront : t.lookup? (d ++ names) = some .directory) (hslash : q.endsWithSlash = false)

include h hfind hdir hq hn hfront hslash

/-- A file is put where nothing stands. -/
theorem writeBytes_last_free (hnone : t.lookup? (d ++ (names ++ [n])) = none) :
    t.writeBytes start q content =
      .ok (t.set (d ++ (names ++ [n])) (.file content defaultMode)) := by
  have hlocate : t.locate start true q = .ok (.free (d ++ names) n) :=
    locate_last_free hfind hdir h hq hn hfront hnone
  simp [writeBytes, hlocate, hslash, bind, Except.bind]

/-- A file is put in the place of another one. -/
theorem writeBytes_last_file {old : ByteArray} {mode : Nat}
    (hold : t.lookup? (d ++ (names ++ [n])) = some (.file old mode)) :
    t.writeBytes start q content = .ok (t.set (d ++ (names ++ [n])) (.file content mode)) := by
  have hlocate : t.locate start true q = .ok (.taken (d ++ (names ++ [n]))) :=
    locate_last_file hfind hdir h hq hn hfront hslash hold
  simp [writeBytes, hlocate, hold, bind, Except.bind]

end Writing

end FileTree

end ReviewMentor
