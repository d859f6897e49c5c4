import ReviewMentor.Findings.Basic
import ReviewMentor.Proofs.Path.Slashed

/-!
# Paths relative to a root

What becomes of a path that is told relative to the root of a project. What comes out is stable, is
absolute only where nothing could be done, and leads from the root to where the path led.
-/

namespace ReviewMentor

namespace Path

/-- The components of a path after its start. -/
def steps (p : Path) : List Component := p.parts.filterMap component?

/-- The components of a path without a dot at its start. -/
def route (p : Path) : List Component := p.components.filter (· ≠ .here)

theorem isStep_of_mem_steps {p : Path} : ∀ c ∈ p.steps, IsStep c := fun _ hc => isStep_of_mem hc

theorem steps_ne_here {p : Path} : ∀ c ∈ p.steps, c ≠ .here := fun _ hc =>
  (filterMap_component?_ne_root hc).2

theorem dropWhile_components {p : Path} (h : p.isAbsolute = false) :
    p.components.dropWhile (· = .here) = p.steps := by
  have hsteps : p.steps.dropWhile (· = .here) = p.steps := by
    rcases hs : p.steps with _ | ⟨c, rest⟩
    · rfl
    · have hc : c ≠ .here := steps_ne_here (p := p) c (by simp [hs])
      simp [hc]
  rw [components_of_relative h]
  split_ifs
  · simpa [steps] using hsteps
  · simpa [steps] using hsteps

theorem filter_steps (p : Path) : p.steps.filter (· ≠ .here) = p.steps :=
  List.filter_eq_self.mpr fun c hc => by simpa using steps_ne_here c hc

theorem route_of_relative {p : Path} (h : p.isAbsolute = false) : p.route = p.steps := by
  unfold route
  rw [components_of_relative h, List.filter_append, ← steps, filter_steps]
  split_ifs <;> simp

/-- A relative path adds its steps to the route of the path that it follows. -/
theorem route_join {base p : Path} (h : p.isAbsolute = false) :
    (base.join p).route = base.route ++ p.steps := by
  by_cases hb : base.text = ""
  · have hjoin : base.join p = p := by simp [join, h, hb]
    have hbase : base.route = [] := by
      obtain rfl : base = ⟨""⟩ := by rw [← hb]
      decide
    rw [hjoin, hbase, route_of_relative h, List.nil_append]
  · unfold route
    rw [components_join hb h, List.filter_append, ← steps, filter_steps]

theorem below?_eq_some {p root : Path} {rest : List Component} :
    p.below? root = some rest ↔ p.components = root.components ++ rest := by
  unfold below?
  simp only
  split_ifs with h
  · obtain ⟨more, hmore⟩ := List.isPrefixOf_iff_prefix.mp h
    rw [← hmore]
    simp
  · constructor
    · exact fun e => absurd e (by simp)
    · exact fun e => absurd (List.isPrefixOf_iff_prefix.mpr ⟨rest, e.symm⟩) h

theorem components_eq_nil {p : Path} (h : p.components = []) : p.text = "" := by
  by_contra hne
  by_cases habs : p.isAbsolute = true
  · simp [components_of_isAbsolute habs] at h
  · rw [Bool.not_eq_true] at habs
    -- a relative path starts with a part, which is a dot if it is no component
    obtain ⟨part, rest, hcut⟩ := List.exists_cons_of_ne_nil (Text.cut_ne_nil '/' p.text)
    have hpart : part ≠ "" := by
      rintro rfl
      rw [isAbsolute_iff_cut.mpr ⟨by rw [hcut]; rfl, hne⟩] at habs
      simp at habs
    rw [components_of_relative habs, List.append_eq_nil_iff] at h
    have hdot : part = "." := by
      have hmem : part ∈ p.parts := mem_parts.mpr ⟨by simp [hcut], hpart⟩
      exact component?_eq_none.mp (List.filterMap_eq_nil_iff.mp h.2 part hmem)
    simp [hcut, hdot] at h

end Path

namespace Root

/-- A raw path goes on from one of the two forms of the root. -/
def Holds (root : Root) (raw : String) : Prop :=
  root.path.components <+: (Path.mk raw).components ∨
    ∃ c, root.canonical? = some c ∧ c.components <+: (Path.mk raw).components

section Relative

variable {root : Root} {raw : String} {rest : List Component}

theorem relative_of_below (habs : (Path.mk raw).isAbsolute = true)
    (h : (Path.mk raw).components = root.path.components ++ rest) :
    root.relative raw = Path.slashed rest := by
  simp [relative, habs, Path.below?_eq_some.mpr h]

theorem below?_eq_none (h : ¬ root.path.components <+: (Path.mk raw).components) :
    (Path.mk raw).below? root.path = none := by
  rw [Option.eq_none_iff_forall_ne_some]
  intro rest hrest
  exact h ⟨rest, (Path.below?_eq_some.mp hrest).symm⟩

theorem relative_of_canonical {c : Path} (habs : (Path.mk raw).isAbsolute = true)
    (hpath : ¬ root.path.components <+: (Path.mk raw).components) (hc : root.canonical? = some c)
    (h : (Path.mk raw).components = c.components ++ rest) :
    root.relative raw = Path.slashed rest := by
  simp [relative, habs, below?_eq_none hpath, hc, Path.below?_eq_some.mpr h]

theorem relative_of_not_holds (habs : (Path.mk raw).isAbsolute = true) (h : ¬ root.Holds raw) :
    root.relative raw = raw := by
  have hcanonical : root.canonical?.bind (Path.mk raw).below? = none := by
    rw [Option.eq_none_iff_forall_ne_some]
    intro rest hrest
    obtain ⟨c, hc, hbelow⟩ := Option.bind_eq_some_iff.mp hrest
    exact h (.inr ⟨c, hc, rest, (Path.below?_eq_some.mp hbelow).symm⟩)
  simp [relative, habs, below?_eq_none fun hp => h (.inl hp), hcanonical]

theorem relative_of_relative (root : Root) (habs : (Path.mk raw).isAbsolute = false) :
    root.relative raw =
      if (Path.mk raw).steps = [] then raw else Path.slashed (Path.mk raw).steps := by
  unfold relative
  simp only [habs, Bool.false_eq_true, if_false, Path.dropWhile_components habs]
  split
  · next h => rw [if_pos h]
  · next h => rw [if_neg h]

theorem steps_slashed (hrest : ∀ c ∈ rest, Path.IsStep c) :
    (Path.mk (Path.slashed rest)).steps = rest := by
  rw [Path.steps, Path.parts_slashed hrest, Path.filterMap_text hrest]

/-- What was told relative to a root stays as it is. -/
theorem relative_slashed (hrest : ∀ c ∈ rest, Path.IsStep c) :
    root.relative (Path.slashed rest) = Path.slashed rest := by
  rw [root.relative_of_relative (Path.not_isAbsolute_slashed hrest), steps_slashed hrest]
  split_ifs with h <;> rfl

/-- What follows a path that has components in an absolute path are names and two dots. -/
theorem isStep_of_append {p q : Path} (habs : p.isAbsolute = true) (hq : q.components ≠ [])
    (h : p.components = q.components ++ rest) : ∀ c ∈ rest, Path.IsStep c := by
  rw [Path.components_of_isAbsolute habs] at h
  obtain ⟨first, more, hfirst⟩ := List.exists_cons_of_ne_nil hq
  rw [hfirst, List.cons_append, List.cons.injEq] at h
  intro c hc
  refine Path.isStep_of_mem (p := p) ?_
  rw [h.2]
  exact List.mem_append_right _ hc

/-- What can become of a raw path. -/
inductive Told (root : Root) (raw : String) : Prop
  | kept : (Path.mk raw).isAbsolute = true → ¬ root.Holds raw → root.relative raw = raw →
      Told root raw
  | dots : (Path.mk raw).isAbsolute = false → root.relative raw = raw → Told root raw
  | cleaned : (Path.mk raw).isAbsolute = false →
      root.relative raw = Path.slashed (Path.mk raw).steps → Told root raw
  | below {rest : List Component} : (Path.mk raw).isAbsolute = true → (∀ c ∈ rest, Path.IsStep c) →
      (Path.mk raw).components = root.path.components ++ rest →
      root.relative raw = Path.slashed rest → Told root raw
  | canonical {c : Path} {rest : List Component} : (∀ c ∈ rest, Path.IsStep c) →
      root.canonical? = some c → (Path.mk raw).components = c.components ++ rest →
      root.relative raw = Path.slashed rest → Told root raw
  /-- Everything goes on from the empty path, absolute paths included. -/
  | rooted : root.path.text = "" → (Path.mk raw).isAbsolute = true →
      root.relative raw = Path.slashed (Path.mk raw).components → Told root raw

theorem told (hcanonical : ∀ c, root.canonical? = some c → c.components ≠ []) (raw : String) :
    root.Told raw := by
  rcases habs : (Path.mk raw).isAbsolute with _ | _
  · have hrel := root.relative_of_relative habs
    split_ifs at hrel
    · exact .dots habs hrel
    · exact .cleaned habs hrel
  · by_cases hpath : root.path.components <+: (Path.mk raw).components
    · obtain ⟨rest, hrest⟩ := hpath
      by_cases hempty : root.path.components = []
      · refine .rooted (Path.components_eq_nil hempty) habs (relative_of_below habs ?_)
        rw [hempty, List.nil_append]
      · exact .below habs (isStep_of_append habs hempty hrest.symm) hrest.symm
          (relative_of_below habs hrest.symm)
    · by_cases hholds : root.Holds raw
      · obtain ⟨c, hc, rest, hrest⟩ := hholds.resolve_left hpath
        exact .canonical (isStep_of_append habs (hcanonical c hc) hrest.symm) hc hrest.symm
          (relative_of_canonical habs hpath hc hrest.symm)
      · exact .kept habs hholds (relative_of_not_holds habs hholds)

/-- The components of an absolute path, joined by slashes, are read as the same components. -/
theorem components_slashed_components {p : Path} (habs : p.isAbsolute = true) :
    (Path.mk (Path.slashed p.components)).components = p.components := by
  rw [Path.components_of_isAbsolute habs]
  exact Path.components_slashed_root fun c hc => Path.isStep_of_mem hc

theorem isAbsolute_slashed_components {p : Path} (habs : p.isAbsolute = true) :
    (Path.mk (Path.slashed p.components)).isAbsolute = true := by
  rw [← Path.root_mem_components, components_slashed_components habs]
  exact Path.root_mem_components.mpr habs

/-- **Telling a path relative to the root twice changes nothing more.** -/
theorem relative_relative (h : root.Told raw) :
    root.relative (root.relative raw) = root.relative raw := by
  cases h with
  | kept _ _ hrel => rw [hrel, hrel]
  | dots _ hrel => rw [hrel, hrel]
  | cleaned _ hrel => rw [hrel, relative_slashed Path.isStep_of_mem_steps]
  | below _ hrest _ hrel => rw [hrel, relative_slashed hrest]
  | canonical hrest _ _ hrel => rw [hrel, relative_slashed hrest]
  | rooted hempty habs hrel =>
    have hnil : root.path.components = [] := by
      obtain ⟨⟨text⟩, canonical⟩ := root
      obtain rfl : text = "" := hempty
      show (Path.mk "").components = []
      decide
    rw [hrel]
    refine (relative_of_below (isAbsolute_slashed_components habs) ?_).trans rfl
    rw [hnil, List.nil_append, components_slashed_components habs]

/-- What comes out is absolute only where nothing could be done. -/
theorem of_isAbsolute_relative (h : root.Told raw) (hroot : root.path.text ≠ "")
    (habs : (Path.mk (root.relative raw)).isAbsolute = true) :
    (Path.mk raw).isAbsolute = true ∧ ¬ root.Holds raw ∧ root.relative raw = raw := by
  cases h with
  | kept habs' hholds hrel => exact ⟨habs', hholds, hrel⟩
  | dots habs' hrel =>
    rw [hrel, habs'] at habs
    exact absurd habs (by simp)
  | cleaned _ hrel =>
    rw [hrel, Path.not_isAbsolute_slashed Path.isStep_of_mem_steps] at habs
    exact absurd habs (by simp)
  | below _ hrest _ hrel =>
    rw [hrel, Path.not_isAbsolute_slashed hrest] at habs
    exact absurd habs (by simp)
  | canonical hrest _ _ hrel =>
    rw [hrel, Path.not_isAbsolute_slashed hrest] at habs
    exact absurd habs (by simp)
  | rooted hempty => exact absurd hempty hroot

theorem filter_of_isStep (hrest : ∀ c ∈ rest, Path.IsStep c) :
    rest.filter (· ≠ .here) = rest := by
  refine List.filter_eq_self.mpr fun c hc => ?_
  have hne : c ≠ .here := by
    rintro rfl
    exact hrest _ hc
  simpa using hne

/-- **What comes out leads from the root to where the raw path led**, or to the same place below the
root if the raw path led below the canonical root. -/
theorem route_join_relative (h : root.Told raw) :
    (root.path.join ⟨root.relative raw⟩).route = (root.path.join ⟨raw⟩).route ∨
      ∃ c rest, root.canonical? = some c ∧ (Path.mk raw).components = c.components ++ rest ∧
        (root.path.join ⟨root.relative raw⟩).route = root.path.route ++ rest := by
  cases h with
  | kept _ _ hrel => exact .inl (by rw [hrel])
  | dots _ hrel => exact .inl (by rw [hrel])
  | cleaned habs hrel =>
    have hsteps := Path.isStep_of_mem_steps (p := ⟨raw⟩)
    rw [hrel, Path.route_join (Path.not_isAbsolute_slashed hsteps), Path.route_join habs,
      steps_slashed hsteps]
    exact .inl rfl
  | below habs hrest hraw hrel =>
    rw [hrel, Path.route_join (Path.not_isAbsolute_slashed hrest), steps_slashed hrest,
      Path.join_of_isAbsolute habs]
    refine .inl ?_
    rw [Path.route, Path.route, hraw, List.filter_append, filter_of_isStep hrest]
  | canonical hrest hc hraw hrel =>
    refine .inr ⟨_, _, hc, hraw, ?_⟩
    rw [hrel, Path.route_join (Path.not_isAbsolute_slashed hrest), steps_slashed hrest]
  | rooted _ habs hrel =>
    rw [hrel, Path.join_of_isAbsolute (isAbsolute_slashed_components habs),
      Path.join_of_isAbsolute habs, Path.route, Path.route, components_slashed_components habs]
    exact .inl rfl

end Relative

end Root

end ReviewMentor
