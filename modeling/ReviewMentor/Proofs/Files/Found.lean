import ReviewMentor.Proofs.Files.Touching
import ReviewMentor.Proofs.Path.Slashed

/-!
# Where things are found

Whoever finds something along an absolute path went through directories only, each under a name. So
the place where it is found can be spelled as a path again, and names that lead towards that place
lead nowhere else.
-/

namespace ReviewMentor.FileTree

/-- Names through which only directories are entered. -/
structure Open (t : FileTree) (place : Place) : Prop where
  directories : ∀ place', place' <+: place → t.lookup? place' = some .directory
  names : ∀ n ∈ place, Path.IsName n

/-- A place to which only directories lead, whatever stands there. -/
structure Reached (t : FileTree) (place : Place) : Prop where
  directories : ∀ place', place' <+: place → place' ≠ place → t.lookup? place' = some .directory
  names : ∀ n ∈ place, Path.IsName n

variable {t : FileTree} {place q : Place} {steps : List String} {step : String}

theorem open_nil (t : FileTree) : Open t [] := by
  refine ⟨fun place' h => ?_, by simp⟩
  obtain rfl := List.prefix_nil.mp h
  rfl

theorem Open.reached (h : Open t place) : Reached t place :=
  ⟨fun place' hp _ => h.directories place' hp, h.names⟩

theorem Open.dropLast (h : Open t place) : Open t place.dropLast :=
  ⟨fun place' hp => h.directories place' (hp.trans (List.dropLast_prefix _)),
    fun n hn => h.names n (List.dropLast_subset _ hn)⟩

theorem Open.reach (h : Open t place) (hname : Path.IsName step) : Reached t (place ++ [step]) := by
  refine ⟨fun place' hp hne => ?_, fun n hn => ?_⟩
  · rcases List.prefix_concat_iff.mp hp with rfl | hp
    · exact absurd rfl hne
    · exact h.directories place' hp
  · rcases List.mem_append.mp hn with hn | hn
    · exact h.names n hn
    · obtain rfl := List.mem_singleton.mp hn
      exact hname

theorem Open.enter (h : Open t place) (hname : Path.IsName step)
    (hdir : t.lookup? (place ++ [step]) = some .directory) : Open t (place ++ [step]) := by
  refine ⟨fun place' hp => ?_, (h.reach hname).names⟩
  by_cases hall : place' = place ++ [step]
  · rw [hall]
    exact hdir
  · exact (h.reach hname).directories place' hp hall

theorem Open.origin (h : Open t place) (p : Path) : Open t (origin place p) := by
  unfold FileTree.origin
  split_ifs
  · exact open_nil t
  · exact h

/-! ### Walks -/

/-- The parts of a path, which may be dots but are neither empty nor hold a slash. -/
def ArePieces (steps : List String) : Prop := ∀ s ∈ steps, s ≠ "" ∧ '/' ∉ s.toList

theorem arePieces_parts (p : Path) : ArePieces p.parts := fun _ hs =>
  ⟨(Path.mem_parts.mp hs).2, Path.not_mem_slash_of_mem_parts hs⟩

/-- A walk from an open place ends where only directories lead. -/
theorem Walk.reached {budget : Nat} {dir : Bool} (h : Walk t true budget dir place steps (.taken q))
    (hopen : Open t place) (hsteps : ArePieces steps) : Reached t q := by
  generalize hspot : Spot.taken q = spot at h
  induction h with
  | done =>
    obtain rfl := Spot.taken.inj hspot
    exact hopen.reached
  | here _ ih => exact ih hopen (fun s hs => hsteps s (List.mem_cons_of_mem _ hs)) hspot
  | up _ ih => exact ih hopen.dropLast (fun s hs => hsteps s (List.mem_cons_of_mem _ hs)) hspot
  | free => exact absurd hspot (by simp)
  | @enter _ _ _ step _ _ h1 h2 hdir _ ih =>
    obtain ⟨hne, hslash⟩ := hsteps step List.mem_cons_self
    exact ih (hopen.enter ⟨hne, h1, h2, hslash⟩ hdir)
      (fun s hs => hsteps s (List.mem_cons_of_mem _ hs)) hspot
  | @file _ _ step _ _ h1 h2 _ =>
    obtain rfl := Spot.taken.inj hspot
    obtain ⟨hne, hslash⟩ := hsteps step List.mem_cons_self
    exact hopen.reach ⟨hne, h1, h2, hslash⟩
  | stay _ _ _ hlast => exact absurd hlast (by simp)
  | @jump _ _ _ _ target _ _ _ _ _ _ _ ih =>
    refine ih (hopen.origin _) (fun s hs => ?_) hspot
    rcases List.mem_append.mp hs with hs | hs
    · exact arePieces_parts ⟨target⟩ s hs
    · exact hsteps s (List.mem_cons_of_mem _ hs)

theorem reached_of_find {start : Place} {p : Path} (habs : p.isAbsolute = true)
    (h : t.find start true p = .ok q) : Reached t q := by
  have hwalk := walk_of_locate (find_ok h)
  rw [origin, if_pos habs] at hwalk
  exact hwalk.reached (open_nil t) (arePieces_parts p)

/-! ### Names towards a place -/

/-- Names through which no link is met lead to where they say. -/
theorem leads_of_names {names : List String}
    (hnames : steps.filterMap Path.component? = names.map .name)
    (hlinks : ∀ more, more <+: names → more ≠ [] →
      ∀ s, t.lookup? (place ++ more) ≠ some (.link s)) :
    Leads t nowhere place steps (place ++ names) := by
  induction steps generalizing place names with
  | nil =>
    obtain rfl : names = [] := by simpa using hnames.symm
    rw [List.append_nil]
    exact .done _
  | cons step rest ih =>
    by_cases hhere : step = "."
    · subst hhere
      exact .here (ih (by simpa [Path.component?] using hnames) hlinks)
    by_cases hup : step = ".."
    · -- names hold no two dots
      subst hup
      rcases names with _ | ⟨n, names⟩ <;> simp [Path.component?] at hnames
    · rcases names with _ | ⟨n, names⟩
      · simp [Path.component?, hhere, hup] at hnames
      simp only [List.filterMap_cons, Path.component?, hhere, hup, if_false, List.map_cons,
        List.cons.injEq, Component.name.injEq] at hnames
      obtain ⟨rfl, hnames⟩ := hnames
      have hfirst : ∀ s, t.lookup? (place ++ [step]) ≠ some (.link s) :=
        hlinks [step] (by simp) (by simp)
      refine .name hhere hup id hfirst ?_
      have hrest : Leads t nowhere (place ++ [step]) rest (place ++ [step] ++ names) := by
        refine ih hnames fun more hmore _ s => ?_
        have := hlinks (step :: more) (List.cons_prefix_cons.mpr ⟨rfl, hmore⟩) (by simp) s
        simpa using this
      simpa using hrest

/-- A path of names towards the place where it is found names that place. -/
theorem eq_of_prefix_of_find {start : Place} {p : Path} {names : List String}
    (habs : p.isAbsolute = true) (hnames : p.components = .root :: names.map .name)
    (h : t.find start true p = .ok q) (hpre : names <+: q) : names = q := by
  by_contra hne
  have hreached : Reached t q := reached_of_find habs h
  have hparts : p.parts.filterMap Path.component? = names.map .name := by
    rw [Path.components_of_isAbsolute habs] at hnames
    exact (List.cons.inj hnames).2
  have hlead : Leads t nowhere [] p.parts ([] ++ names) := by
    refine leads_of_names hparts fun more hmore _ s => ?_
    have hmore' : more ≠ q := by
      rintro rfl
      exact hne (hpre.eq_of_length_le hmore.length_le)
    rw [List.nil_append, hreached.directories more (hmore.trans hpre) hmore']
    simp
  have hfound := leads_of_find h
  rw [origin, if_pos habs] at hfound
  exact hne (hlead.unique hfound)

end ReviewMentor.FileTree
