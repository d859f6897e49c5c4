import ReviewMentor.Proofs.Files.Leading
import ReviewMentor.Zip.Names

/-!
# What paths pass

The places that steps enter on their way. Whatever is made along a path is made where the path
passes; a path that is found passes nothing that is missing. Steps that never climb above their
start pass nothing outside, as long as no link lies inside.
-/

namespace ReviewMentor.FileTree

/-- Steps from a place enter another place on their way. -/
inductive Passes (t : FileTree) : Place → List String → Place → Prop
  | here {place goal : Place} {rest : List String} :
      Passes t place rest goal → Passes t place ("." :: rest) goal
  | up {place goal : Place} {rest : List String} :
      Passes t place.dropLast rest goal → Passes t place (".." :: rest) goal
  | enter {place : Place} {step : String} {rest : List String} :
      step ≠ "." → step ≠ ".." → (∀ target, t.lookup? (place ++ [step]) ≠ some (.link target)) →
      Passes t place (step :: rest) (place ++ [step])
  | name {place goal : Place} {step : String} {rest : List String} :
      step ≠ "." → step ≠ ".." → (∀ target, t.lookup? (place ++ [step]) ≠ some (.link target)) →
      Passes t (place ++ [step]) rest goal → Passes t place (step :: rest) goal
  | link {place goal : Place} {step target : String} {rest : List String} :
      step ≠ "." → step ≠ ".." → t.lookup? (place ++ [step]) = some (.link target) →
      Passes t (origin place ⟨target⟩) (linkSteps target ++ rest) goal →
      Passes t place (step :: rest) goal

/-- Two trees with the same links. -/
def SameLinks (t u : FileTree) : Prop :=
  ∀ place target, u.lookup? place = some (.link target) ↔ t.lookup? place = some (.link target)

/-- No link lies at a place or below it. -/
def LinkFree (t : FileTree) (dest : Place) : Prop :=
  ∀ place, dest <+: place → ∀ target, t.lookup? place ≠ some (.link target)

section Links

variable {t u v : FileTree} {dest : Place}

theorem SameLinks.refl (t : FileTree) : SameLinks t t := fun _ _ => Iff.rfl

theorem SameLinks.symm (h : SameLinks t u) : SameLinks u t := fun place s => (h place s).symm

theorem SameLinks.trans (h : SameLinks t u) (h' : SameLinks u v) : SameLinks t v :=
  fun place s => (h' place s).trans (h place s)

theorem SameLinks.linkFree (h : SameLinks t u) (hfree : LinkFree t dest) : LinkFree u dest :=
  fun place hp s hl => hfree place hp s ((h place s).mp hl)

theorem SameLinks.leads {shun : Place → Prop} {place goal : Place} {steps : List String}
    (h : SameLinks t u) (hlead : Leads t shun place steps goal) : Leads u shun place steps goal :=
  hlead.congr fun place _ s => h place s

end Links

namespace Passes

variable {t u : FileTree} {place goal dest : Place} {steps more : List String}

theorem append (h : Passes t place steps goal) : Passes t place (steps ++ more) goal := by
  induction h with
  | here _ ih => exact .here ih
  | up _ ih => exact .up ih
  | enter h1 h2 hl => exact .enter h1 h2 hl
  | name h1 h2 hl _ ih => exact .name h1 h2 hl ih
  | link h1 h2 hl _ ih =>
    rw [List.append_assoc] at ih
    exact .link h1 h2 hl ih

theorem extend (hpre : steps <+: more) (h : Passes t place steps goal) :
    Passes t place more goal := by
  obtain ⟨rest, rfl⟩ := hpre
  exact h.append

theorem congr (hlinks : SameLinks t u) (h : Passes t place steps goal) :
    Passes u place steps goal := by
  have hkeep : ∀ place, (∀ s, t.lookup? place ≠ some (.link s)) →
      ∀ s, u.lookup? place ≠ some (.link s) := fun p hl s hs => hl s ((hlinks p s).mp hs)
  induction h with
  | here _ ih => exact .here ih
  | up _ ih => exact .up ih
  | enter h1 h2 hl => exact .enter h1 h2 (hkeep _ hl)
  | name h1 h2 hl _ ih => exact .name h1 h2 (hkeep _ hl) ih
  | link h1 h2 hl _ ih => exact .link h1 h2 ((hlinks _ _).mpr hl) ih

/-- What is passed is passed by the first steps, or by the others from where the first ones lead. -/
theorem split (h : Passes t place (steps ++ more) goal) :
    Passes t place steps goal ∨
      ∃ mid, Leads t nowhere place steps mid ∧ Passes t mid more goal := by
  generalize hall : steps ++ more = all at h
  induction h generalizing steps with
  | here h ih =>
    rcases steps with _ | ⟨step, steps⟩
    · obtain rfl : more = _ := hall
      exact .inr ⟨_, .done _, .here h⟩
    · obtain ⟨rfl, rfl⟩ := List.cons_eq_cons.mp hall
      rcases ih rfl with h' | ⟨mid, h1, h2⟩
      · exact .inl (.here h')
      · exact .inr ⟨mid, .here h1, h2⟩
  | up h ih =>
    rcases steps with _ | ⟨step, steps⟩
    · obtain rfl : more = _ := hall
      exact .inr ⟨_, .done _, .up h⟩
    · obtain ⟨rfl, rfl⟩ := List.cons_eq_cons.mp hall
      rcases ih rfl with h' | ⟨mid, h1, h2⟩
      · exact .inl (.up h')
      · exact .inr ⟨mid, .up h1, h2⟩
  | enter hd hdd hl =>
    rcases steps with _ | ⟨step, steps⟩
    · obtain rfl : more = _ := hall
      exact .inr ⟨_, .done _, .enter hd hdd hl⟩
    · obtain ⟨rfl, rfl⟩ := List.cons_eq_cons.mp hall
      exact .inl (.enter hd hdd hl)
  | name hd hdd hl h ih =>
    rcases steps with _ | ⟨step, steps⟩
    · obtain rfl : more = _ := hall
      exact .inr ⟨_, .done _, .name hd hdd hl h⟩
    · obtain ⟨rfl, rfl⟩ := List.cons_eq_cons.mp hall
      rcases ih rfl with h' | ⟨mid, h1, h2⟩
      · exact .inl (.name hd hdd hl h')
      · exact .inr ⟨mid, .name hd hdd id hl h1, h2⟩
  | link hd hdd hl h ih =>
    rcases steps with _ | ⟨step, steps⟩
    · obtain rfl : more = _ := hall
      exact .inr ⟨_, .done _, .link hd hdd hl h⟩
    · obtain ⟨rfl, rfl⟩ := List.cons_eq_cons.mp hall
      rcases ih (List.append_assoc ..) with h' | ⟨mid, h1, h2⟩
      · exact .inl (.link hd hdd hl h')
      · exact .inr ⟨mid, .link hd hdd id hl h1, h2⟩

end Passes

/-! ### Walks pass -/

section Walks

variable {t : FileTree} {last dir : Bool} {budget : Nat} {place q d goal : Place}
  {steps : List String} {n : String}

/-- A walk that ends at a free name passes that name. -/
theorem Walk.passes_free (h : Walk t last budget dir place steps (.free d n)) :
    Passes t place steps (d ++ [n]) := by
  generalize hspot : Spot.free d n = spot at h
  induction h with
  | done => exact absurd hspot (by simp)
  | here _ ih => exact .here (ih hspot)
  | up _ ih => exact .up (ih hspot)
  | free h1 h2 hnone =>
    obtain ⟨rfl, rfl⟩ := Spot.free.inj hspot
    exact .enter h1 h2 (by simp [hnone])
  | enter h1 h2 hdir _ ih => exact .name h1 h2 (by simp [hdir]) (ih hspot)
  | file => exact absurd hspot (by simp)
  | stay => exact absurd hspot (by simp)
  | jump h1 h2 hlink _ _ ih => exact .link h1 h2 hlink (ih hspot)

theorem Passes.of_here (h : Passes t place ("." :: steps) goal) : Passes t place steps goal := by
  generalize hall : "." :: steps = all at h
  cases h with
  | here h => exact (List.cons_eq_cons.mp hall).2 ▸ h
  | up => exact absurd (List.cons_eq_cons.mp hall).1 (by decide)
  | enter h1 => exact absurd (List.cons_eq_cons.mp hall).1.symm h1
  | name h1 => exact absurd (List.cons_eq_cons.mp hall).1.symm h1
  | link h1 => exact absurd (List.cons_eq_cons.mp hall).1.symm h1

theorem Passes.of_up (h : Passes t place (".." :: steps) goal) :
    Passes t place.dropLast steps goal := by
  generalize hall : ".." :: steps = all at h
  cases h with
  | here => exact absurd (List.cons_eq_cons.mp hall).1 (by decide)
  | up h => exact (List.cons_eq_cons.mp hall).2 ▸ h
  | enter _ h2 => exact absurd (List.cons_eq_cons.mp hall).1.symm h2
  | name _ h2 => exact absurd (List.cons_eq_cons.mp hall).1.symm h2
  | link _ h2 => exact absurd (List.cons_eq_cons.mp hall).1.symm h2

/-- A step that is no dots passes what it enters and what follows from there, or follows a link. -/
theorem Passes.of_step {step : String} (h1 : step ≠ ".") (h2 : step ≠ "..")
    (h : Passes t place (step :: steps) goal) :
    ((∀ target, t.lookup? (place ++ [step]) ≠ some (.link target)) ∧
        (goal = place ++ [step] ∨ Passes t (place ++ [step]) steps goal)) ∨
      ∃ target, t.lookup? (place ++ [step]) = some (.link target) ∧
        Passes t (origin place ⟨target⟩) (linkSteps target ++ steps) goal := by
  cases h with
  | here => exact absurd rfl h1
  | up => exact absurd rfl h2
  | enter _ _ hl => exact .inl ⟨hl, .inl rfl⟩
  | name _ _ hl h => exact .inl ⟨hl, .inr h⟩
  | link _ _ hl h => exact .inr ⟨_, hl, h⟩

/-- A path that is found passes nothing that is missing. -/
theorem Walk.lookup?_ne_none (h : Walk t true budget dir place steps (.taken q))
    (hpass : Passes t place steps goal) : t.lookup? goal ≠ none := by
  generalize hspot : Spot.taken q = spot at h
  induction h with
  | done => cases hpass
  | here _ ih => exact ih hpass.of_here hspot
  | up _ ih => exact ih hpass.of_up hspot
  | free => exact absurd hspot (by simp)
  | enter h1 h2 hentry _ ih =>
    rcases hpass.of_step h1 h2 with ⟨-, rfl | hpass⟩ | ⟨s, hs, -⟩
    · simp [hentry]
    · exact ih hpass hspot
    · simp [hentry] at hs
  | file h1 h2 hentry =>
    rcases hpass.of_step h1 h2 with ⟨-, rfl | hpass⟩ | ⟨s, hs, -⟩
    · simp [hentry]
    · cases hpass
    · simp [hentry] at hs
  | stay _ _ _ hlast => exact absurd hlast (by simp)
  | jump h1 h2 hentry _ _ ih =>
    rcases hpass.of_step h1 h2 with ⟨hl, -⟩ | ⟨s, hs, hpass⟩
    · exact absurd hentry (hl _)
    · obtain rfl := Entry.link.inj (Option.some.inj (hentry.symm.trans hs))
      exact ih hpass hspot

end Walks

/-! ### Staying inside -/

section Inside

variable {t : FileTree} {shun : Place → Prop} {dest place goal : Place} {depth : Nat}
  {steps : List String}

theorem prefix_dropLast (h : dest <+: place) (hlen : dest.length < place.length) :
    dest <+: place.dropLast := by
  refine List.prefix_of_prefix_length_le h (List.dropLast_prefix _) ?_
  rw [List.length_dropLast]
  omega

/-- Steps that never climb above a place without links lead below it. -/
theorem Leads.inside (hfree : LinkFree t dest) (hplace : dest <+: place)
    (hdepth : dest.length + depth ≤ place.length)
    (hstay : Zip.staysBelow depth (steps.filterMap Path.component?) = true)
    (h : Leads t shun place steps goal) : dest <+: goal := by
  induction steps generalizing place depth with
  | nil =>
    cases h
    exact hplace
  | cons step rest ih =>
    by_cases hhere : step = "."
    · subst hhere
      exact ih hplace hdepth (by simpa [Path.component?] using hstay) h.of_here
    by_cases hup : step = ".."
    · subst hup
      -- two dots are only taken where a name was entered before
      obtain _ | depth := depth
      · simp [Path.component?, Zip.staysBelow] at hstay
      have hlen : dest.length + depth ≤ place.dropLast.length := by
        rw [List.length_dropLast]
        omega
      exact ih (prefix_dropLast hplace (by omega)) hlen
        (by simpa [Path.component?, Zip.staysBelow] using hstay) h.of_up
    · have hnext : dest <+: place ++ [step] := hplace.trans (List.prefix_append _ _)
      have hlen : dest.length + (depth + 1) ≤ (place ++ [step]).length := by
        rw [List.length_append, List.length_singleton]
        omega
      rcases h.of_step hhere hup with ⟨-, h⟩ | ⟨s, hs, -⟩
      · refine ih hnext hlen ?_ h
        simpa [Path.component?, hhere, hup, Zip.staysBelow] using hstay
      · exact absurd hs (hfree _ hnext s)

/-- Steps that never climb above a place without links pass only what lies below it. -/
theorem Passes.inside (hfree : LinkFree t dest) (hplace : dest <+: place)
    (hdepth : dest.length + depth ≤ place.length)
    (hstay : Zip.staysBelow depth (steps.filterMap Path.component?) = true)
    (h : Passes t place steps goal) : dest <+: goal := by
  induction steps generalizing place depth with
  | nil => cases h
  | cons step rest ih =>
    by_cases hhere : step = "."
    · subst hhere
      exact ih hplace hdepth (by simpa [Path.component?] using hstay) h.of_here
    by_cases hup : step = ".."
    · subst hup
      obtain _ | depth := depth
      · simp [Path.component?, Zip.staysBelow] at hstay
      have hlen : dest.length + depth ≤ place.dropLast.length := by
        rw [List.length_dropLast]
        omega
      exact ih (prefix_dropLast hplace (by omega)) hlen
        (by simpa [Path.component?, Zip.staysBelow] using hstay) h.of_up
    · have hnext : dest <+: place ++ [step] := hplace.trans (List.prefix_append _ _)
      have hlen : dest.length + (depth + 1) ≤ (place ++ [step]).length := by
        rw [List.length_append, List.length_singleton]
        omega
      rcases h.of_step hhere hup with ⟨-, rfl | h⟩ | ⟨s, hs, -⟩
      · exact hnext
      · refine ih hnext hlen ?_ h
        simpa [Path.component?, hhere, hup, Zip.staysBelow] using hstay
      · exact absurd hs (hfree _ hnext s)

end Inside

end ReviewMentor.FileTree
