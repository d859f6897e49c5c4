import ReviewMentor.Proofs.Json.Forms
import ReviewMentor.Proofs.Learner.Storing
import ReviewMentor.Proofs.Timestamp.Written

/-!
# Profiles that can be stored

Whatever is read as a profile can be stored and is read again as it is, and so can the profile of a
learner of whom nothing is known. Changes that keep this, and the name of the learner, are what a
profile goes through.
-/

namespace ReviewMentor

open Effect

/-! ### What is read -/

namespace Json

variable {α β : Type} {read : Decode α} {Q : α → Prop} {d : Draft} {a : α}

theorem exists_of_decode {text : String} (h : decode read text = .ok a) :
    ∃ d, read d = .ok a := by
  unfold decode at h
  split at h
  · next d _ => exact ⟨d, h⟩
  · obtain ⟨-, -, hend⟩ := ok_of_bind h
    exact absurd hend (by simp)

theorem of_mem_items {ds : List Draft} {as : List α} (hread : ∀ d a, read d = .ok a → Q a)
    (h : Draft.items read ds = .ok as) : ∀ a ∈ as, Q a := by
  induction ds generalizing as with
  | nil =>
    obtain rfl := Except.ok.inj h
    simp
  | cons d ds ih =>
    obtain ⟨a, ha, h⟩ := ok_of_bind h
    obtain ⟨rest, hrest, h⟩ := ok_of_bind h
    obtain rfl := Except.ok.inj h
    exact List.forall_mem_cons.mpr ⟨hread d a ha, ih hrest⟩

theorem of_mem_list {as : List α} (hread : ∀ d a, read d = .ok a → Q a)
    (h : Draft.list read d = .ok as) : ∀ a ∈ as, Q a := by
  cases d with
  | array ds => exact of_mem_items hread h
  | _ => exact absurd h (by simp [Draft.list])

theorem of_mem_entries {members : List (List Piece × Draft)} {pairs : List (String × α)}
    (hread : ∀ d a, read d = .ok a → Q a) (h : Draft.entries read members = .ok pairs) :
    ∀ p ∈ pairs, Q p.2 := by
  induction members generalizing pairs with
  | nil =>
    obtain rfl := Except.ok.inj h
    simp
  | cons m members ih =>
    obtain ⟨name, -, h⟩ := ok_of_bind h
    obtain ⟨a, ha, h⟩ := ok_of_bind h
    obtain ⟨rest, hrest, h⟩ := ok_of_bind h
    obtain rfl := Except.ok.inj h
    exact List.forall_mem_cons.mpr ⟨hread m.2 a ha, ih hrest⟩

theorem of_mem_table {pairs : List (String × α)} (hread : ∀ d a, read d = .ok a → Q a)
    (h : Draft.table read d = .ok pairs) : ∀ p ∈ pairs, Q p.2 := by
  cases d with
  | object members => exact of_mem_entries hread h
  | _ => exact absurd h (by simp [Draft.table])

theorem whole_bounds {least greatest n : Int} (h : Draft.whole least greatest d = .ok n) :
    least ≤ n ∧ n ≤ greatest := by
  unfold Draft.whole at h
  split at h
  · split at h
    · exact absurd h (by simp)
    · split at h
      · next hbounds => exact Except.ok.inj h ▸ hbounds
      · exact absurd h (by simp)
    · exact absurd h (by simp)
  · exact absurd h (by simp)

theorem natural_lt {bits n : Nat} (h : Draft.natural bits d = .ok n) : n < 2 ^ bits := by
  unfold Draft.natural at h
  rcases hwhole : d.whole 0 (2 ^ bits - 1) with e | m
  · simp [hwhole, Except.map] at h
  · rw [hwhole] at h
    obtain rfl : m.toNat = n := Except.ok.inj h
    obtain ⟨hleast, hgreatest⟩ := whole_bounds hwhole
    have hpos : 0 < 2 ^ bits := Nat.two_pow_pos bits
    zify [hleast] at hpos ⊢
    omega

namespace Record

variable {r : Record (α → β)} {q : Record α} {P : β → Prop}

/-- What holds of the fields read so far, from none of them on, so that something else holds of what
they give. -/
structure Filling (q : Record α) (Filled : q.Slots → Prop) (Q : α → Prop) : Prop where
  empty : Filled q.empty
  put : ∀ name d slots filled, Filled slots → q.put name d slots = some (.ok filled) →
    Filled filled
  build : ∀ slots a, Filled slots → q.build slots = .ok a → Q a
  take : ∀ ds a rest, q.take ds = .ok (a, rest) → Q a

/-- Something holds of all that a record gives. -/
def Makes (q : Record α) (Q : α → Prop) : Prop := ∃ Filled, q.Filling Filled Q

theorem Filling.of_fill {Filled : q.Slots → Prop} (h : q.Filling Filled Q)
    {members : List (List Piece × Draft)} {slots filled : q.Slots} (hslots : Filled slots)
    (hfill : q.fill slots members = .ok filled) : Filled filled := by
  induction members generalizing slots with
  | nil => exact Except.ok.inj hfill ▸ hslots
  | cons m members ih =>
    obtain ⟨name, -, hfill⟩ := ok_of_bind hfill
    split at hfill
    · next result hput =>
      obtain ⟨next, hnext, hfill⟩ := ok_of_bind hfill
      subst hnext
      exact ih (h.put name m.2 slots next hslots hput) hfill
    · split at hfill
      · exact ih hslots hfill
      · exact absurd hfill (by simp)

theorem Makes.of_read (h : q.Makes Q) (hread : q.read d = .ok a) : Q a := by
  obtain ⟨Filled, h⟩ := h
  unfold read readWith at hread
  split at hread
  · obtain ⟨filled, hfill, hbuild⟩ := ok_of_bind hread
    exact h.build filled a (h.of_fill h.empty hfill) hbuild
  · obtain ⟨⟨b, rest⟩, htake, hend⟩ := ok_of_bind hread
    dsimp only at hend
    split at hend
    · exact Except.ok.inj hend ▸ h.take _ b rest htake
    · exact absurd hend (by simp)
  · exact absurd hread (by simp)

theorem makes_start {b : β} (h : P b) : (start b).Makes P := by
  refine ⟨fun _ => True, trivial, fun _ _ _ _ _ _ => trivial, fun _ c _ hbuild => ?_,
    fun _ c _ htake => ?_⟩
  · exact Except.ok.inj hbuild ▸ h
  · exact (Prod.mk.inj (Except.ok.inj htake)).1 ▸ h

theorem makes_field {names : List String} {missing? cutOff? : Option α}
    (hread : ∀ d a, read d = .ok a → Q a) (hmissing : ∀ a ∈ missing?, Q a)
    (hcutOff : ∀ a ∈ cutOff?, Q a) : (field names read missing? cutOff?).Makes Q := by
  refine ⟨fun slot : Option α => ∀ a ∈ slot, Q a, by simp [field], ?_, ?_, ?_⟩
  · intro name d slot filled _ hput
    simp only [field] at hput
    split_ifs at hput
    · simp at hput
    · rcases hvalue : read d with e | a
      · simp [hvalue, Except.map] at hput
      · obtain rfl : some a = filled := Except.ok.inj (by simpa [hvalue, Except.map] using hput)
        rintro _ ⟨⟩
        exact hread d a hvalue
  · intro slot a hslot hbuild
    rcases slot with _ | b
    · rcases missing? with _ | b
      · exact absurd hbuild (by simp [field])
      · exact Except.ok.inj hbuild ▸ hmissing b rfl
    · exact Except.ok.inj hbuild ▸ hslot b rfl
  · intro ds a rest htake
    rcases ds with _ | ⟨d, ds⟩
    · rcases cutOff? with _ | b
      · exact absurd htake (by simp [field])
      · exact (Prod.mk.inj (Except.ok.inj htake)).1 ▸ hcutOff b rfl
    · rcases hvalue : read d with e | b
      · simp [field, hvalue, Except.map] at htake
      · simp only [field, hvalue, Except.map] at htake
        exact (Prod.mk.inj (Except.ok.inj htake)).1 ▸ hread d b hvalue

theorem Makes.and (hr : r.Makes fun f => ∀ a, Q a → P (f a)) (hq : q.Makes Q) :
    (r.and q).Makes P := by
  obtain ⟨FilledR, hr⟩ := hr
  obtain ⟨FilledQ, hq⟩ := hq
  refine ⟨fun slots : r.Slots × q.Slots => FilledR slots.1 ∧ FilledQ slots.2,
    ⟨hr.empty, hq.empty⟩, ?_, ?_, ?_⟩
  · rintro name d ⟨slots, slots'⟩ filled ⟨hslots, hslots'⟩ hput
    simp only [Record.and] at hput
    rcases hknown : r.put name d slots with _ | e | next
    · rcases hother : q.put name d slots' with _ | e | next
      · simp [hknown, hother] at hput
      · simp [hknown, hother, Except.map] at hput
      · obtain rfl : (slots, next) = filled :=
          Except.ok.inj (by simpa [hknown, hother, Except.map] using hput)
        exact ⟨hslots, hq.put name d slots' next hslots' hother⟩
    · simp [hknown, Except.map] at hput
    · obtain rfl : (next, slots') = filled :=
        Except.ok.inj (by simpa [hknown, Except.map] using hput)
      exact ⟨hr.put name d slots next hslots hknown, hslots'⟩
  · rintro ⟨slots, slots'⟩ b ⟨hslots, hslots'⟩ hbuild
    obtain ⟨f, hf, hbuild⟩ := ok_of_bind hbuild
    obtain ⟨a, ha, hbuild⟩ := ok_of_bind hbuild
    exact Except.ok.inj hbuild ▸ hr.build slots f hslots hf a (hq.build slots' a hslots' ha)
  · intro ds b rest htake
    obtain ⟨⟨f, more⟩, hf, htake⟩ := ok_of_bind htake
    obtain ⟨⟨a, more'⟩, ha, htake⟩ := ok_of_bind htake
    exact (Prod.mk.inj (Except.ok.inj htake)).1 ▸ hr.take ds f more hf a (hq.take more a more' ha)

theorem Makes.needs (names : List String) (Q : α → Prop)
    (hr : r.Makes fun f => ∀ a, Q a → P (f a)) (hread : ∀ d a, read d = .ok a → Q a) :
    (r.needs names read).Makes P :=
  hr.and (makes_field hread (by simp) (by simp))

theorem Makes.defaults {name : String} {value : α} (Q : α → Prop)
    (hr : r.Makes fun f => ∀ a, Q a → P (f a)) (hvalue : Q value)
    (hread : ∀ d a, read d = .ok a → Q a) : (r.defaults name read value).Makes P :=
  hr.and (makes_field hread (by simpa using hvalue) (by simpa using hvalue))

end Record

end Json

/-! ### What profiles are made of -/

namespace Feedback

theorem shown_of_readTime {d : Json.Draft} {t : Timestamp} (h : readTime d = .ok t) : t.Shown := by
  obtain ⟨text, -, h⟩ := ok_of_bind h
  split at h
  · next hparse => exact Except.ok.inj h ▸ Timestamp.shown_of_parse? hparse
  · exact absurd h (by simp)

theorem shown_of_read {d : Json.Draft} {f : Feedback} (h : record.read d = .ok f) :
    f.time.Shown := by
  refine Json.Record.Makes.of_read (Q := fun f : Feedback => f.time.Shown) ?_ h
  unfold record
  refine .needs _ Timestamp.Shown ?_ fun d t ht => shown_of_readTime ht
  refine .needs _ (fun _ => True) ?_ fun _ _ _ => trivial
  refine .needs _ (fun _ => True) ?_ fun _ _ _ => trivial
  refine .needs _ (fun _ => True) ?_ fun _ _ _ => trivial
  exact Json.Record.makes_start fun _ _ _ _ _ _ t ht => ht

end Feedback

namespace Profile

open Ordered

theorem sorted_of_readSet {d : Json.Draft} {names : List String} (h : readSet d = .ok names) :
    Sorted names := by
  unfold readSet at h
  rcases hlist : d.list Json.Draft.text with e | texts
  · simp [hlist, Except.map] at h
  · rw [hlist] at h
    exact Except.ok.inj h ▸ sorted_ofList texts

theorem sorted_of_readSeen {d : Json.Draft} {seen : List (String × Nat)}
    (h : readSeen d = .ok seen) : Sorted (keys seen) ∧ ∀ s ∈ seen, s.2 < 2 ^ 32 := by
  unfold readSeen at h
  rcases htable : d.table (Json.Draft.natural 32) with e | pairs
  · simp [htable, Except.map] at h
  · rw [htable] at h
    obtain rfl := Except.ok.inj h
    refine ⟨sorted_ofPairs pairs, fun s hs => ?_⟩
    exact Json.of_mem_table (fun _ _ => Json.natural_lt) htable s (mem_of_mem_ofPairs hs)

/-- **What is read as a profile can be stored.** -/
theorem storable_of_decode {text : String} {p : Profile}
    (h : Json.decode Profile.read text = .ok p) : p.Storable := by
  obtain ⟨d, h⟩ := Json.exists_of_decode h
  refine Json.Record.Makes.of_read (Q := Storable) ?_ h
  unfold record
  refine .defaults (fun log : List Feedback => ∀ f ∈ log, f.time.Shown) ?_ (by simp)
    fun d log hlog => Json.of_mem_list (fun _ _ => Feedback.shown_of_read) hlog
  refine .defaults (fun _ => True) ?_ trivial fun _ _ _ => trivial
  refine .defaults Sorted ?_ .nil fun d names => sorted_of_readSet
  refine .defaults (fun n : Int => -2 ^ 63 ≤ n ∧ n < 2 ^ 63) ?_ (by decide) fun d n hn => ?_
  · refine .defaults (fun seen : List (String × Nat) => Sorted (keys seen) ∧
      ∀ s ∈ seen, s.2 < 2 ^ 32) ?_ ⟨.nil, by simp⟩ fun d seen => sorted_of_readSeen
    refine .defaults Sorted ?_ .nil fun d names => sorted_of_readSet
    refine .defaults Sorted ?_ .nil fun d names => sorted_of_readSet
    refine .defaults (fun _ => True) ?_ trivial fun _ _ _ => trivial
    refine .defaults (fun _ => True) ?_ trivial fun _ _ _ => trivial
    refine Json.Record.makes_start fun user _ level _ concepts hconcepts weak hweak seen hseen
      points hpoints achievements hachievements quiz _ log hlog => ?_
    exact ⟨hconcepts, hweak, hachievements, hseen.1, hseen.2, hpoints,
      fun f hf => Timestamp.parse?_render (hlog f hf)⟩
  · have hbounds := Json.whole_bounds hn
    omega

theorem storable_fresh (user : String) : (fresh user).Storable :=
  ⟨.nil, .nil, .nil, .nil, by simp [fresh], by simp [fresh], by simp [fresh]⟩

/-! ### Changes -/

namespace Storable

variable {p : Profile}

theorem addPoints (h : p.Storable) (points : Int) : (p.addPoints points).Storable := by
  refine ⟨h.concepts, h.weakAreas, h.achievements, h.seen, h.counts, ?_, h.times⟩
  have hleast := Int.le_bmod (x := p.points + points) (m := 2 ^ 64) (by decide)
  have hmost := Int.bmod_lt (x := p.points + points) (m := 2 ^ 64) (by decide)
  exact ⟨hleast, hmost⟩

theorem recordIssue (h : p.Storable) (code : String) : (p.recordIssue code).Storable := by
  refine ⟨h.concepts, ?_, h.achievements, h.seen.put _ _, fun s hs => ?_, h.points, h.times⟩
  · unfold Profile.recordIssue
    dsimp only
    split
    · exact h.weakAreas.insert _
    · exact h.weakAreas
  · rcases mem_put hs with rfl | hs
    · exact Nat.mod_lt _ (by decide)
    · exact h.counts s hs

theorem takeQuiz (h : p.Storable) (score : Nat) (level : Level) :
    (p.takeQuiz score level).Storable := by
  have hquick : Sorted (if quickScore < score then Ordered.insert "quick_learner" p.achievements
      else p.achievements) := by
    split_ifs
    · exact h.achievements.insert _
    · exact h.achievements
  refine ⟨h.concepts, h.weakAreas, ?_, h.seen, h.counts, (h.addPoints _).points, h.times⟩
  unfold Profile.takeQuiz
  dsimp only
  split_ifs at hquick ⊢
  all_goals first | exact hquick.insert _ | exact hquick

theorem adjust (h : p.Storable) (helpful : Bool) : (p.adjust helpful).Storable := by
  unfold Profile.adjust
  split
  · exact h.addPoints 5
  · exact h.addPoints 3
  · exact h
  · exact ⟨h.concepts, h.weakAreas, h.achievements, h.seen, h.counts, h.points, h.times⟩
  · exact h.addPoints (-2)
  · exact h

end Storable

/-- What a store returns can be stored. -/
theorem storable_of_get {s : ProfileStore} {start : Place} {user : String} {t : FileTree}
    {p : Profile} (h : s.get start user t = .ok p) : p.Storable := by
  obtain ⟨-, -, hread⟩ := ok_of_bind h
  split at hread
  · exact Except.ok.inj hread ▸ storable_fresh user
  · exact absurd hread (by simp)
  · split at hread
    · next q hdecode =>
      obtain rfl := Except.ok.inj hread
      have hq := storable_of_decode hdecode
      exact ⟨hq.concepts, hq.weakAreas, hq.achievements, hq.seen, hq.counts, hq.points, hq.times⟩
    · exact absurd hread (by simp)

/-- A change that a stored profile may go through: it is about the same learner, and what comes of
it can be stored again. -/
structure Change where
  apply : Profile → Profile
  user : ∀ p, (apply p).user = p.user
  storable : ∀ p, p.Storable → (apply p).Storable

end Profile

/-- Feedback is given at a moment that can be written. -/
def ProfileEdit.Shown (e : ProfileEdit) : Prop :=
  ∀ entry, e = .feedback entry → entry.time.Shown

/-- An edit as a change. -/
def ProfileEdit.change (e : ProfileEdit) (h : e.Shown) : Profile.Change where
  apply p := p.edit e
  user p := p.user_edit e
  storable p hp := by
    cases e with
    | recordIssue code => exact hp.recordIssue code
    | quiz score level => exact hp.takeQuiz score level
    | adjust helpful => exact hp.adjust helpful
    | feedback entry =>
      suffices hlogged : Profile.Storable { p with feedback := p.feedback ++ [entry] } from
        hlogged.adjust entry.helpful
      refine ⟨hp.concepts, hp.weakAreas, hp.achievements, hp.seen, hp.counts, hp.points,
        fun f hf => ?_⟩
      rcases List.mem_append.mp hf with hf | hf
      · exact hp.times f hf
      · obtain rfl := List.mem_singleton.mp hf
        exact Timestamp.parse?_render (h f rfl)
    | setLevel level =>
      exact ⟨hp.concepts, hp.weakAreas, hp.achievements, hp.seen, hp.counts, hp.points, hp.times⟩
    | addConcept concept =>
      exact ⟨hp.concepts.insert concept, hp.weakAreas, hp.achievements, hp.seen, hp.counts,
        hp.points, hp.times⟩

end ReviewMentor
