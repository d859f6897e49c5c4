import ReviewMentor.Proofs.Files.Following
import ReviewMentor.Proofs.Path.Parts

/-!
# Where paths lead

`Walk` is what following a path does, step by step: it stands for the executable function wherever a
proof goes along a path. `Leads` forgets what is in the way: links are followed and everything else
is entered, whether it is there or not. So `Leads` only depends on the links of a tree, and stays
true while files and directories come and go. A path that can be followed leads where it is followed
to (`Walk.leads`).
-/

namespace ReviewMentor

/-- The place of a spot, whether something stands there or not. -/
def Spot.place : Spot → Place
  | .taken place => place
  | .free directory name => directory ++ [name]

end ReviewMentor

namespace ReviewMentor.FileTree

/-! ### Walks -/

/-- Following steps from a place ends at a spot. `budget` bounds how many links are followed, `last`
says whether a link at the end is followed, `dir` whether only a directory may stand at the end. -/
inductive Walk (t : FileTree) (last : Bool) : Nat → Bool → Place → List String → Spot → Prop
  | done (budget : Nat) (dir : Bool) (place : Place) :
      Walk t last budget dir place [] (.taken place)
  | here {budget : Nat} {dir : Bool} {place : Place} {rest : List String} {spot : Spot} :
      Walk t last budget dir place rest spot → Walk t last budget dir place ("." :: rest) spot
  | up {budget : Nat} {dir : Bool} {place : Place} {rest : List String} {spot : Spot} :
      Walk t last budget dir place.dropLast rest spot →
      Walk t last budget dir place (".." :: rest) spot
  | free {budget : Nat} {dir : Bool} {place : Place} {step : String} :
      step ≠ "." → step ≠ ".." → t.lookup? (place ++ [step]) = none →
      Walk t last budget dir place [step] (.free place step)
  | enter {budget : Nat} {dir : Bool} {place : Place} {step : String} {rest : List String}
      {spot : Spot} :
      step ≠ "." → step ≠ ".." → t.lookup? (place ++ [step]) = some .directory →
      Walk t last budget dir (place ++ [step]) rest spot →
      Walk t last budget dir place (step :: rest) spot
  | file {budget : Nat} {place : Place} {step : String} {content : ByteArray} {mode : Nat} :
      step ≠ "." → step ≠ ".." → t.lookup? (place ++ [step]) = some (.file content mode) →
      Walk t last budget false place [step] (.taken (place ++ [step]))
  | stay {budget : Nat} {place : Place} {step target : String} :
      step ≠ "." → step ≠ ".." → t.lookup? (place ++ [step]) = some (.link target) → last = false →
      Walk t last budget false place [step] (.taken (place ++ [step]))
  | jump {budget : Nat} {dir : Bool} {place : Place} {step target : String} {rest : List String}
      {spot : Spot} :
      step ≠ "." → step ≠ ".." → t.lookup? (place ++ [step]) = some (.link target) →
      (rest = [] → last = false → dir = true) →
      Walk t last budget (dir || (rest.isEmpty && (Path.mk target).endsWithSlash))
        (origin place ⟨target⟩) (linkSteps target ++ rest) spot →
      Walk t last (budget + 1) dir place (step :: rest) spot

theorem walk_of_follow {t : FileTree} {last dir : Bool} {budget : Nat}
    {jump : Place → String → List String → Except FileError Spot}
    (hjump : ∀ place step target rest spot, step ≠ "." → step ≠ ".." →
      t.lookup? (place ++ [step]) = some (.link target) → (rest = [] → last = false → dir = true) →
      jump place target rest = .ok spot → Walk t last budget dir place (step :: rest) spot)
    {place : Place} {steps : List String} {spot : Spot}
    (h : t.follow last dir jump place steps = .ok spot) :
    Walk t last budget dir place steps spot := by
  induction steps generalizing place with
  | nil =>
    obtain rfl := Except.ok.inj h
    exact .done ..
  | cons step rest ih =>
    by_cases hhere : step = "."
    · subst hhere
      exact .here (ih (follow_here ▸ h))
    by_cases hup : step = ".."
    · subst hup
      exact .up (ih (follow_up ▸ h))
    cases (follow_step hhere hup h).2 with
    | free hnone => exact .free hhere hup hnone
    | enter hdir h => exact .enter hhere hup hdir (ih h)
    | file hfile hplain =>
      subst hplain
      exact .file hhere hup hfile
    | stay hlink hlast hplain =>
      subst hplain
      exact .stay hhere hup hlink hlast
    | jump hlink hgoes hj => exact hjump place step _ rest spot hhere hup hlink hgoes hj

/-- The executable function follows steps as `Walk` says. -/
theorem walk_of_followLinks {t : FileTree} {last : Bool} {budget : Nat} {dir : Bool} {place : Place}
    {steps : List String} {spot : Spot}
    (h : t.followLinks last budget dir place steps = .ok spot) :
    Walk t last budget dir place steps spot := by
  induction budget generalizing dir place steps spot with
  | zero =>
    rw [followLinks] at h
    exact walk_of_follow (fun _ _ _ _ _ _ _ _ _ hj => absurd hj (by simp)) h
  | succ budget ih =>
    rw [followLinks] at h
    refine walk_of_follow (fun p step target rest s h1 h2 hlink hend hj => ?_) h
    split at hj
    · exact absurd hj (by simp)
    · exact .jump h1 h2 hlink hend (ih hj)

theorem walk_of_locate {t : FileTree} {start : Place} {last : Bool} {p : Path} {spot : Spot}
    (h : t.locate start last p = .ok spot) :
    Walk t last linkLimit p.endsWithSlash (origin start p) p.parts spot := by
  rw [(passable_of_locate h).locate_eq] at h
  exact walk_of_followLinks h

/-! ### Leading -/

/-- Where steps lead from a place, whatever stands on the way. No step touches a place that is
shunned. -/
inductive Leads (t : FileTree) (shun : Place → Prop) : Place → List String → Place → Prop
  | done (place : Place) : Leads t shun place [] place
  | here {place goal : Place} {rest : List String} :
      Leads t shun place rest goal → Leads t shun place ("." :: rest) goal
  | up {place goal : Place} {rest : List String} :
      Leads t shun place.dropLast rest goal → Leads t shun place (".." :: rest) goal
  | name {place goal : Place} {step : String} {rest : List String} :
      step ≠ "." → step ≠ ".." → ¬ shun (place ++ [step]) →
      (∀ target, t.lookup? (place ++ [step]) ≠ some (.link target)) →
      Leads t shun (place ++ [step]) rest goal → Leads t shun place (step :: rest) goal
  | link {place goal : Place} {step target : String} {rest : List String} :
      step ≠ "." → step ≠ ".." → ¬ shun (place ++ [step]) →
      t.lookup? (place ++ [step]) = some (.link target) →
      Leads t shun (origin place ⟨target⟩) (linkSteps target ++ rest) goal →
      Leads t shun place (step :: rest) goal

namespace Leads

variable {t u : FileTree} {shun shun' : Place → Prop} {place mid goal goal' : Place}
  {steps more : List String}

theorem append (h : Leads t shun place steps mid) (h' : Leads t shun mid more goal) :
    Leads t shun place (steps ++ more) goal := by
  induction h with
  | done => exact h'
  | here _ ih => exact .here (ih h')
  | up _ ih => exact .up (ih h')
  | name h1 h2 hs hl _ ih => exact .name h1 h2 hs hl (ih h')
  | link h1 h2 hs hl _ ih =>
    have hrest := ih h'
    rw [List.append_assoc] at hrest
    exact .link h1 h2 hs hl hrest

theorem split (h : Leads t shun place (steps ++ more) goal) :
    ∃ mid, Leads t shun place steps mid ∧ Leads t shun mid more goal := by
  generalize hall : steps ++ more = all at h
  induction h generalizing steps with
  | done =>
    obtain ⟨rfl, rfl⟩ := List.append_eq_nil_iff.mp hall
    exact ⟨_, .done _, .done _⟩
  | here h ih =>
    rcases steps with _ | ⟨step, steps⟩
    · obtain rfl : more = _ := hall
      exact ⟨_, .done _, .here h⟩
    · obtain ⟨rfl, rfl⟩ := List.cons_eq_cons.mp hall
      obtain ⟨mid, h1, h2⟩ := ih rfl
      exact ⟨mid, .here h1, h2⟩
  | up h ih =>
    rcases steps with _ | ⟨step, steps⟩
    · obtain rfl : more = _ := hall
      exact ⟨_, .done _, .up h⟩
    · obtain ⟨rfl, rfl⟩ := List.cons_eq_cons.mp hall
      obtain ⟨mid, h1, h2⟩ := ih rfl
      exact ⟨mid, .up h1, h2⟩
  | name hd hdd hs hl h ih =>
    rcases steps with _ | ⟨step, steps⟩
    · obtain rfl : more = _ := hall
      exact ⟨_, .done _, .name hd hdd hs hl h⟩
    · obtain ⟨rfl, rfl⟩ := List.cons_eq_cons.mp hall
      obtain ⟨mid, h1, h2⟩ := ih rfl
      exact ⟨mid, .name hd hdd hs hl h1, h2⟩
  | link hd hdd hs hl h ih =>
    rcases steps with _ | ⟨step, steps⟩
    · obtain rfl : more = _ := hall
      exact ⟨_, .done _, .link hd hdd hs hl h⟩
    · obtain ⟨rfl, rfl⟩ := List.cons_eq_cons.mp hall
      obtain ⟨mid, h1, h2⟩ := ih (List.append_assoc ..)
      exact ⟨mid, .link hd hdd hs hl h1, h2⟩

theorem of_here (h : Leads t shun place ("." :: steps) goal) : Leads t shun place steps goal := by
  generalize hall : "." :: steps = all at h
  cases h with
  | done => exact absurd hall (by simp)
  | here h => exact (List.cons_eq_cons.mp hall).2 ▸ h
  | up => exact absurd (List.cons_eq_cons.mp hall).1 (by decide)
  | name h1 => exact absurd (List.cons_eq_cons.mp hall).1.symm h1
  | link h1 => exact absurd (List.cons_eq_cons.mp hall).1.symm h1

theorem of_up (h : Leads t shun place (".." :: steps) goal) :
    Leads t shun place.dropLast steps goal := by
  generalize hall : ".." :: steps = all at h
  cases h with
  | done => exact absurd hall (by simp)
  | here => exact absurd (List.cons_eq_cons.mp hall).1 (by decide)
  | up h => exact (List.cons_eq_cons.mp hall).2 ▸ h
  | name _ h2 => exact absurd (List.cons_eq_cons.mp hall).1.symm h2
  | link _ h2 => exact absurd (List.cons_eq_cons.mp hall).1.symm h2

/-- A step that is no dots either enters what stands there or follows a link. -/
theorem of_step {step : String} (h1 : step ≠ ".") (h2 : step ≠ "..")
    (h : Leads t shun place (step :: steps) goal) :
    ((∀ target, t.lookup? (place ++ [step]) ≠ some (.link target)) ∧
        Leads t shun (place ++ [step]) steps goal) ∨
      ∃ target, t.lookup? (place ++ [step]) = some (.link target) ∧
        Leads t shun (origin place ⟨target⟩) (linkSteps target ++ steps) goal := by
  cases h with
  | here => exact absurd rfl h1
  | up => exact absurd rfl h2
  | name _ _ _ hl h => exact .inl ⟨hl, h⟩
  | link _ _ _ hl h => exact .inr ⟨_, hl, h⟩

/-- Steps lead to one place only. -/
theorem unique (h : Leads t shun place steps goal) (h' : Leads t shun' place steps goal') :
    goal = goal' := by
  induction h with
  | done => cases h'; rfl
  | here _ ih => exact ih h'.of_here
  | up _ ih => exact ih h'.of_up
  | name h1 h2 _ hl _ ih =>
    rcases h'.of_step h1 h2 with ⟨-, h'⟩ | ⟨target, hl', -⟩
    · exact ih h'
    · exact absurd hl' (hl target)
  | link h1 h2 _ hl _ ih =>
    rcases h'.of_step h1 h2 with ⟨hl', -⟩ | ⟨target, hl', h'⟩
    · exact absurd hl (hl' _)
    · obtain rfl := Entry.link.inj (Option.some.inj (hl.symm.trans hl'))
      exact ih h'

/-- Only the links decide where steps lead, and only those at places that are not shunned. -/
theorem congr (hlinks : ∀ place, ¬ shun place → ∀ target,
      u.lookup? place = some (.link target) ↔ t.lookup? place = some (.link target))
    (h : Leads t shun place steps goal) : Leads u shun place steps goal := by
  induction h with
  | done => exact .done _
  | here _ ih => exact .here ih
  | up _ ih => exact .up ih
  | name h1 h2 hs hl _ ih => exact .name h1 h2 hs (fun s hs' => hl s ((hlinks _ hs s).mp hs')) ih
  | link h1 h2 hs hl _ ih => exact .link h1 h2 hs ((hlinks _ hs _).mpr hl) ih

theorem mono (hshun : ∀ place, shun' place → shun place) (h : Leads t shun place steps goal) :
    Leads t shun' place steps goal := by
  induction h with
  | done => exact .done _
  | here _ ih => exact .here ih
  | up _ ih => exact .up ih
  | name h1 h2 hs hl _ ih => exact .name h1 h2 (fun h => hs (hshun _ h)) hl ih
  | link h1 h2 hs hl _ ih => exact .link h1 h2 (fun h => hs (hshun _ h)) hl ih

end Leads

/-- Nothing is shunned. -/
abbrev nowhere : Place → Prop := fun _ => False

/-! ### Walks lead -/

section Walks

variable {t : FileTree} {last dir : Bool} {budget : Nat} {place q d : Place} {steps : List String}
  {n : String}

theorem Walk.leads_free (h : Walk t last budget dir place steps (.free d n)) :
    Leads t nowhere place steps (d ++ [n]) ∧ t.lookup? (d ++ [n]) = none := by
  generalize hspot : Spot.free d n = spot at h
  induction h with
  | done => exact absurd hspot (by simp)
  | here _ ih => exact ⟨.here (ih hspot).1, (ih hspot).2⟩
  | up _ ih => exact ⟨.up (ih hspot).1, (ih hspot).2⟩
  | free h1 h2 hnone =>
    obtain ⟨rfl, rfl⟩ := Spot.free.inj hspot
    exact ⟨.name h1 h2 id (by simp [hnone]) (.done _), hnone⟩
  | enter h1 h2 hdir _ ih => exact ⟨.name h1 h2 id (by simp [hdir]) (ih hspot).1, (ih hspot).2⟩
  | file => exact absurd hspot (by simp)
  | stay => exact absurd hspot (by simp)
  | jump h1 h2 hlink _ _ ih => exact ⟨.link h1 h2 id hlink (ih hspot).1, (ih hspot).2⟩

/-- A walk ends where its steps lead, unless it stays at a link that is its last step. -/
theorem Walk.leads_taken (h : Walk t last budget dir place steps (.taken q)) :
    Leads t nowhere place steps q ∨
      last = false ∧ dir = false ∧ ∃ before step mid, steps = before ++ [step] ∧
        Leads t nowhere place before mid ∧ q = mid ++ [step] := by
  generalize hspot : Spot.taken q = spot at h
  induction h with
  | done =>
    obtain rfl := Spot.taken.inj hspot
    exact .inl (.done _)
  | here _ ih =>
    rcases ih hspot with h | ⟨hlast, hdir, before, step, mid, rfl, h, hq⟩
    · exact .inl (.here h)
    · exact .inr ⟨hlast, hdir, _, step, mid, rfl, .here h, hq⟩
  | up _ ih =>
    rcases ih hspot with h | ⟨hlast, hdir, before, step, mid, rfl, h, hq⟩
    · exact .inl (.up h)
    · exact .inr ⟨hlast, hdir, _, step, mid, rfl, .up h, hq⟩
  | free => exact absurd hspot (by simp)
  | enter h1 h2 hentry _ ih =>
    have hl : ∀ s, t.lookup? _ ≠ some (.link s) := fun s => by rw [hentry]; simp
    rcases ih hspot with h | ⟨hlast, hdir, before, step, mid, rfl, h, hq⟩
    · exact .inl (.name h1 h2 id hl h)
    · exact .inr ⟨hlast, hdir, _, step, mid, rfl, .name h1 h2 id hl h, hq⟩
  | file h1 h2 hentry =>
    obtain rfl := Spot.taken.inj hspot
    exact .inl (.name h1 h2 id (by simp [hentry]) (.done _))
  | stay h1 h2 _ hlast =>
    obtain rfl := Spot.taken.inj hspot
    exact .inr ⟨hlast, rfl, [], _, _, rfl, .done _, rfl⟩
  | @jump budget dir place' step' target rest _ h1 h2 hlink hend _ ih =>
    rcases ih hspot with h | ⟨hlast, hdir, before, step, mid, heq, h, hq⟩
    · exact .inl (.link h1 h2 id hlink h)
    · -- a link that is the last step is only followed where a directory must stand
      have hfree : dir = false := (Bool.or_eq_false_iff.mp hdir).1
      have hrest : rest ≠ [] := fun e => by simp [hend e hlast] at hfree
      obtain ⟨rest', end', rfl⟩ := (List.eq_nil_or_concat' rest).resolve_left hrest
      rw [← List.append_assoc] at heq
      obtain ⟨rfl, hstep⟩ := List.append_inj' heq rfl
      obtain rfl : end' = step := by simpa using hstep
      exact .inr ⟨hlast, hfree, step' :: rest', _, mid, rfl, .link h1 h2 id hlink h, hq⟩

/-- A walk that follows a link at its end leads to its spot. -/
theorem Walk.leads {spot : Spot} (h : Walk t true budget dir place steps spot) :
    Leads t nowhere place steps spot.place := by
  cases spot with
  | taken q => exact h.leads_taken.resolve_right (by simp)
  | free d n => exact h.leads_free.1

/-- A walk that ends with a name and does not follow a link there ends at that name. -/
theorem Walk.ends {spot : Spot} {before : List String} (hdots : n ≠ "." ∧ n ≠ "..")
    (hlast : last = false) (hdir : dir = false)
    (h : Walk t last budget dir place (before ++ [n]) spot) :
    ∃ mid, Leads t nowhere place before mid ∧ spot.place = mid ++ [n] := by
  generalize hsteps : before ++ [n] = steps at h
  induction h generalizing before with
  | done => simp at hsteps
  | here _ ih =>
    rcases before with _ | ⟨step, before⟩
    · exact absurd (List.cons_eq_cons.mp hsteps).1 hdots.1
    · obtain ⟨rfl, hrest⟩ := List.cons_eq_cons.mp hsteps
      obtain ⟨mid, hlead, hspot⟩ := ih hdir hrest
      exact ⟨mid, .here hlead, hspot⟩
  | up _ ih =>
    rcases before with _ | ⟨step, before⟩
    · exact absurd (List.cons_eq_cons.mp hsteps).1 hdots.2
    · obtain ⟨rfl, hrest⟩ := List.cons_eq_cons.mp hsteps
      obtain ⟨mid, hlead, hspot⟩ := ih hdir hrest
      exact ⟨mid, .up hlead, hspot⟩
  | free | file | stay =>
    rcases before with _ | ⟨step, before⟩
    · obtain ⟨rfl, -⟩ := List.cons_eq_cons.mp hsteps
      exact ⟨_, .done _, rfl⟩
    · simp at hsteps
  | enter h1 h2 hentry hwalk ih =>
    have hl : ∀ s, t.lookup? _ ≠ some (.link s) := fun s => by rw [hentry]; simp
    rcases before with _ | ⟨step, before⟩
    · obtain ⟨rfl, rfl⟩ := List.cons_eq_cons.mp hsteps
      cases hwalk
      exact ⟨_, .done _, rfl⟩
    · obtain ⟨rfl, hrest⟩ := List.cons_eq_cons.mp hsteps
      obtain ⟨mid, hlead, hspot⟩ := ih hdir hrest
      exact ⟨mid, .name h1 h2 id hl hlead, hspot⟩
  | jump h1 h2 hlink hend _ ih =>
    rcases before with _ | ⟨step, before⟩
    · -- a link at the end is not followed
      obtain ⟨rfl, rfl⟩ := List.cons_eq_cons.mp hsteps
      simp [hdir, hlast] at hend
    · obtain ⟨rfl, rfl⟩ := List.cons_eq_cons.mp hsteps
      obtain ⟨mid, hlead, hspot⟩ := ih (by simp [hdir]) (List.append_assoc ..)
      exact ⟨mid, .link h1 h2 id hlink hlead, hspot⟩

end Walks

end ReviewMentor.FileTree
