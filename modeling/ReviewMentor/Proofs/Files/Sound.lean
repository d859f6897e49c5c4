import Mathlib.Data.List.Induction
import Mathlib.Data.List.Nodup
import ReviewMentor.Proofs.Files.Children

/-!
# Sound trees

Trees as file systems have them: one entry for each place, nothing but directories on the way to
anything, and names that can be stored. Whatever works with a sound tree leaves a sound one, because
a free spot always lies in a directory. In a sound tree a file is found under every way to spell its
names.
-/

namespace ReviewMentor.FileTree

/-- A name under which something may stand. -/
structure Storable (name : String) : Prop where
  isName : Path.IsName name
  short : name.utf8ByteSize ≤ longestName
  noNul : Char.ofNat 0 ∉ name.toList

instance (name : String) : Decidable (Storable name) :=
  decidable_of_iff (Path.IsName name ∧ name.utf8ByteSize ≤ longestName ∧
    Char.ofNat 0 ∉ name.toList) ⟨fun ⟨h1, h2, h3⟩ => ⟨h1, h2, h3⟩, fun ⟨h1, h2, h3⟩ => ⟨h1, h2, h3⟩⟩

theorem Storable.enters {name : String} (h : Storable name) : Enters name :=
  ⟨h.isName.ne_here, h.isName.ne_up, h.short⟩

theorem Fits.storable {p : Path} {name : String} (h : Fits p name) (hname : Path.IsName name) :
    Storable name := by
  refine ⟨hname, h.nameShort, fun hnul => ?_⟩
  have hfree := h.noNul
  rw [text_child hname, String.toList_append, List.any_append, Bool.or_eq_false_iff] at hfree
  exact List.any_eq_false.mp hfree.2 _ hnul (by simp)

/-- A tree as file systems have them. -/
structure Sound (t : FileTree) : Prop where
  distinct : (t.entries.map Prod.fst).Nodup
  grown : ∀ place name e, t.lookup? (place ++ [name]) = some e →
    t.lookup? place = some .directory ∧ Storable name
  targets : ∀ place target, t.lookup? place = some (.link target) → Char.ofNat 0 ∉ target.toList

variable {t u : FileTree} {start place mid d : Place} {p q : Path} {name n : String} {e : Entry}
  {spot : Spot} {content : ByteArray} {mode : Nat}

namespace Sound

/-! ### Entries -/

theorem exists_concat (h : t.Sound) (hentry : t.lookup? place = some e) (hne : place ≠ []) :
    ∃ parent name, place = parent ++ [name] ∧ t.lookup? parent = some .directory ∧
      Storable name := by
  obtain ⟨parent, name, rfl⟩ := (List.eq_nil_or_concat' place).resolve_left hne
  exact ⟨parent, name, rfl, h.grown parent name e hentry⟩

theorem directory_of_append (h : t.Sound) {more : Place} (hmore : more ≠ [])
    (hentry : t.lookup? (place ++ more) = some e) : t.lookup? place = some .directory := by
  induction more using List.reverseRecOn generalizing e with
  | nil => exact absurd rfl hmore
  | append_singleton more name ih =>
    rw [← List.append_assoc] at hentry
    have hdir := (h.grown _ _ e hentry).1
    by_cases hnil : more = []
    · simpa [hnil] using hdir
    · exact ih hnil hdir

/-- Nothing stands below what is no directory. -/
theorem lookup?_below (h : t.Sound) {more : Place} (hmore : more ≠ [])
    (hdir : t.lookup? place ≠ some .directory) : t.lookup? (place ++ more) = none := by
  by_contra hentry
  obtain ⟨e, he⟩ := Option.ne_none_iff_exists'.mp hentry
  exact hdir (h.directory_of_append hmore he)

end Sound

/-! ### Changes -/

theorem keys_set : (t.set place e).entries.map Prod.fst =
    if t.entries.any (·.1 = place) then t.entries.map Prod.fst
    else t.entries.map Prod.fst ++ [place] := by
  unfold set
  split_ifs
  · rw [List.map_map]
    refine List.map_congr_left fun x _ => ?_
    show (if x.1 = place then (place, e) else x).1 = x.1
    split_ifs with hx
    · exact hx.symm
    · rfl
  · simp

theorem distinct_set (h : (t.entries.map Prod.fst).Nodup) :
    ((t.set place e).entries.map Prod.fst).Nodup := by
  rw [keys_set]
  split_ifs with hany
  · exact h
  · refine List.nodup_append.mpr ⟨h, by simp, fun a ha b hb => ?_⟩
    rintro rfl
    obtain rfl := List.mem_singleton.mp hb
    obtain ⟨x, hx, hplace⟩ := List.mem_map.mp ha
    exact hany (List.any_eq_true.mpr ⟨x, hx, by simpa using hplace⟩)

namespace Sound

/-- Putting something in a directory, but not in the place of another directory. -/
theorem set (h : t.Sound) (hdir : t.lookup? d = some .directory) (hname : Storable n)
    (hfree : t.lookup? (d ++ [n]) ≠ some .directory)
    (he : ∀ target, e = .link target → Char.ofNat 0 ∉ target.toList) :
    (t.set (d ++ [n]) e).Sound := by
  have hne : d ++ [n] ≠ [] := by simp
  refine ⟨distinct_set h.distinct, fun place name e' hentry => ?_, fun place target hlink => ?_⟩
  · by_cases hplace : place = d ++ [n]
    · -- Nothing stands below the place that was filled.
      have hbeside : place ++ [name] ≠ d ++ [n] := by simp [hplace]
      rw [lookup?_set_of_ne hne hbeside, hplace, h.lookup?_below (by simp) hfree] at hentry
      exact absurd hentry (by simp)
    · rw [lookup?_set_of_ne hne hplace]
      by_cases hnew : place ++ [name] = d ++ [n]
      · obtain ⟨rfl, hlast⟩ := List.append_inj' hnew rfl
        obtain rfl : name = n := by simpa using hlast
        exact ⟨hdir, hname⟩
      · rw [lookup?_set_of_ne hne hnew] at hentry
        exact h.grown place name e' hentry
  · by_cases hplace : place = d ++ [n]
    · rw [hplace, lookup?_set_self hne] at hlink
      exact he target (Option.some.inj hlink)
    · rw [lookup?_set_of_ne hne hplace] at hlink
      exact h.targets place target hlink

theorem set_file (h : t.Sound) {old : ByteArray} {mode' : Nat}
    (hold : t.lookup? place = some (.file old mode')) :
    (t.set place (.file content mode)).Sound := by
  have hdir : t.lookup? place ≠ some .directory := by simp [hold]
  obtain ⟨parent, name, rfl, hparent, hname⟩ :=
    h.exists_concat hold (ne_nil_of_lookup?_ne_directory hdir)
  exact h.set hparent hname hdir (by simp)

theorem drop (h : t.Sound) (place : Place) : (t.drop place).Sound := by
  refine ⟨h.distinct.sublist (List.filter_sublist.map _), fun q name e hentry => ?_,
    fun q target hlink => ?_⟩
  · have hbeside : ¬ place <+: q ++ [name] := fun hbelow => by
      rw [lookup?_drop_below hbelow (by simp)] at hentry
      exact absurd hentry (by simp)
    rw [lookup?_drop_beside hbeside] at hentry
    rw [lookup?_drop_beside fun hbelow => hbeside (hbelow.trans (List.prefix_append _ _))]
    exact h.grown q name e hentry
  · have hne : q ≠ [] := by
      rintro rfl
      simp at hlink
    have hbeside : ¬ place <+: q := fun hbelow => by
      rw [lookup?_drop_below hbelow hne] at hlink
      exact absurd hlink (by simp)
    rw [lookup?_drop_beside hbeside] at hlink
    exact h.targets q target hlink

end Sound

/-! ### Free spots -/

/-- A step that could be stored. -/
def IsPiece (step : String) : Prop :=
  step ≠ "" ∧ '/' ∉ step.toList ∧ Char.ofNat 0 ∉ step.toList

theorem isPiece_parts (h : Char.ofNat 0 ∉ p.text.toList) : ∀ part ∈ p.parts, IsPiece part :=
  fun part hpart => ⟨(Path.mem_parts.mp hpart).2, Path.not_mem_slash_of_mem_parts hpart,
    fun hnul => h ((Text.mem_cut (by decide)).mp ⟨part, (Path.mem_parts.mp hpart).1, hnul⟩)⟩

/-- Free names are not longer than names may be. -/
theorem follow_free_short {last dir : Bool} {steps : List String}
    {jump : Place → String → List String → Except FileError Spot}
    (hjump : ∀ place target rest, jump place target rest = .ok (.free d n) →
      n.utf8ByteSize ≤ longestName)
    (h : t.follow last dir jump place steps = .ok (.free d n)) : n.utf8ByteSize ≤ longestName := by
  induction steps generalizing place with
  | nil => exact absurd h (by simp [follow_nil])
  | cons step rest ih =>
    by_cases hhere : step = "."
    · subst hhere
      exact ih (follow_here ▸ h)
    by_cases hup : step = ".."
    · subst hup
      exact ih (follow_up ▸ h)
    obtain ⟨hstep, hfollowed⟩ := follow_step hhere hup h
    cases hfollowed with
    | free => exact hstep.short
    | enter _ h => exact ih h
    | jump _ _ hj => exact hjump _ _ _ hj

theorem locate_free_short {last : Bool} (h : t.locate start last p = .ok (.free d n)) :
    n.utf8ByteSize ≤ longestName := by
  have hlinks : ∀ budget dir place steps,
      t.followLinks last budget dir place steps = .ok (.free d n) →
        n.utf8ByteSize ≤ longestName := by
    intro budget
    induction budget with
    | zero =>
      intro dir place steps hfollow
      rw [followLinks] at hfollow
      exact follow_free_short (fun _ _ _ hj => absurd hj (by simp)) hfollow
    | succ budget ih =>
      intro dir place steps hfollow
      rw [followLinks] at hfollow
      refine follow_free_short (fun place target rest hj => ?_) hfollow
      dsimp only at hj
      split at hj
      · exact absurd hj (by simp)
      · exact ih _ _ _ hj
  exact hlinks _ _ _ _ (locate_ok h)

/-- A walk through a sound tree that ends at a free name ends in a directory, and the name could be
stored. -/
theorem Walk.free_sound {last dir : Bool} {budget : Nat} {steps : List String}
    (hwalk : Walk t last budget dir place steps (.free d n)) (h : t.Sound)
    (hplace : t.lookup? place = some .directory) (hsteps : ∀ step ∈ steps, IsPiece step) :
    t.lookup? d = some .directory ∧ Path.IsName n ∧ Char.ofNat 0 ∉ n.toList := by
  generalize hspot : Spot.free d n = spot at hwalk
  induction hwalk with
  | done => exact absurd hspot (by simp)
  | here _ ih => exact ih hplace (fun s hs => hsteps s (List.mem_cons_of_mem _ hs)) hspot
  | @up _ _ place _ _ _ ih =>
    refine ih ?_ (fun s hs => hsteps s (List.mem_cons_of_mem _ hs)) hspot
    rcases List.eq_nil_or_concat' place with rfl | ⟨parent, name, rfl⟩
    · rfl
    · rw [List.dropLast_concat]
      exact (h.grown parent name _ hplace).1
  | @free _ _ _ step h1 h2 _ =>
    obtain ⟨rfl, rfl⟩ := Spot.free.inj hspot
    obtain ⟨hne, hslash, hnul⟩ := hsteps n List.mem_cons_self
    exact ⟨hplace, ⟨hne, h1, h2, hslash⟩, hnul⟩
  | enter _ _ hdir _ ih =>
    exact ih hdir (fun s hs => hsteps s (List.mem_cons_of_mem _ hs)) hspot
  | file => exact absurd hspot (by simp)
  | stay => exact absurd hspot (by simp)
  | @jump _ _ _ _ target _ _ _ _ hlink _ _ ih =>
    refine ih ?_ (fun s hs => ?_) hspot
    · unfold origin
      split_ifs
      · rfl
      · exact hplace
    · rcases List.mem_append.mp hs with hs | hs
      · exact isPiece_parts (h.targets _ _ hlink) s hs
      · exact hsteps s (List.mem_cons_of_mem _ hs)

/-- A sound tree with the directory in which the program works. -/
structure Standing (start : Place) (t : FileTree) : Prop where
  sound : t.Sound
  start : t.lookup? start = some .directory

namespace Standing

/-- A free spot is a name that can be stored in a directory. -/
theorem free (h : Standing start t) {last : Bool}
    (hspot : t.locate start last p = .ok (.free d n)) :
    t.lookup? d = some .directory ∧ Storable n ∧ t.lookup? (d ++ [n]) = none := by
  have hwalk := walk_of_locate hspot
  have horigin : t.lookup? (origin start p) = some .directory := by
    unfold origin
    split_ifs
    · rfl
    · exact h.start
  obtain ⟨hdir, hname, hnul⟩ := hwalk.free_sound h.sound horigin
    (isPiece_parts (passable_of_locate hspot).noNul)
  exact ⟨hdir, ⟨hname, locate_free_short hspot, hnul⟩, hwalk.leads_free.2⟩

theorem of_makeDirectory (h : Standing start t) (hmade : t.makeDirectory start p = .ok u) :
    Standing start u := by
  unfold makeDirectory at hmade
  obtain ⟨spot, hspot, hset⟩ := Effect.ok_of_bind hmade
  rcases spot with taken | ⟨d, n⟩
  · exact absurd hset (by simp)
  · obtain rfl := Except.ok.inj hset
    obtain ⟨hdir, hname, hnone⟩ := h.free hspot
    have hstart : start ≠ d ++ [n] := by
      intro heq
      rw [← heq, h.start] at hnone
      exact absurd hnone (by simp)
    refine ⟨h.sound.set hdir hname (by simp [hnone]) (by simp), ?_⟩
    rw [lookup?_set_of_ne (by simp) hstart, h.start]

theorem makeDirectoriesUpTo (depth : Nat) (h : Standing start t) (p : Path) :
    Standing start (FileTree.makeDirectoriesUpTo depth t start p).1 := by
  induction depth generalizing t p with
  | zero => exact h
  | succ depth ih =>
    rw [FileTree.makeDirectoriesUpTo]
    split
    · exact h
    split
    · next u hu => exact h.of_makeDirectory hu
    · split
      · exact h
      · next parent _ =>
        have hparent := ih h parent
        split
        · next hmade => rwa [hmade] at hparent
        · next u hmade =>
          rw [hmade] at hparent
          split
          · next v hv => exact hparent.of_makeDirectory hv
          · split <;> exact hparent
    · split <;> exact h

theorem makeDirectories (h : Standing start t) (p : Path) :
    Standing start (t.makeDirectories start p).1 :=
  h.makeDirectoriesUpTo _ p

theorem of_writeBytes (h : Standing start t) (hwrite : t.writeBytes start p content = .ok u) :
    Standing start u := by
  refine ⟨?_, directoriesStay_writeBytes hwrite _ h.start⟩
  unfold writeBytes at hwrite
  obtain ⟨spot, hspot, hset⟩ := Effect.ok_of_bind hwrite
  rcases spot with place | ⟨d, n⟩
  · dsimp only at hset
    split at hset
    · next hold =>
      obtain rfl := Except.ok.inj hset
      exact h.sound.set_file hold
    · exact absurd hset (by simp)
    · exact absurd hset (by simp)
  · dsimp only at hset
    split at hset
    · exact absurd hset (by simp)
    · obtain rfl := Except.ok.inj hset
      obtain ⟨hdir, hname, hnone⟩ := h.free hspot
      exact h.sound.set hdir hname (by simp [hnone]) (by simp)

end Standing

/-- What happened to a tree left it one to work in. -/
def StaysStanding (start : Place) (t u : FileTree) : Prop := Standing start t → Standing start u

instance (start : Place) : Std.Refl (StaysStanding start) := ⟨fun _ h => h⟩

instance (start : Place) : IsTrans FileTree (StaysStanding start) :=
  ⟨fun _ _ _ h h' ht => h' (h ht)⟩

/-! ### Moving a file -/

section Moving

variable {c : Place} {to' : String} (h : t.Sound)
  (hfrom : t.lookup? (c ++ [name]) = some (.file content mode))
  (hto : ∀ e, t.lookup? (c ++ [to']) = some e → ∃ old mode, e = .file old mode)
  (hmoved : u = (t.drop (c ++ [name])).set (c ++ [to']) (.file content mode))

include h hfrom hto hmoved

/-- A file that is moved is gone from where it was, and all but files stay. -/
theorem waysStay_moved : WaysStay t u := by
  subst hmoved
  intro place e he hother
  have hnew : place ≠ c ++ [to'] := by
    rintro rfl
    obtain ⟨old, mode, rfl⟩ := hto e he
    exact hother old mode rfl
  have hold : ¬ c ++ [name] <+: place := by
    rintro ⟨more, rfl⟩
    by_cases hmore : more = []
    · rw [hmore, List.append_nil, hfrom] at he
      exact hother content mode (Option.some.inj he).symm
    · rw [h.lookup?_below hmore (by simp [hfrom])] at he
      exact absurd he (by simp)
  rw [lookup?_set_of_ne (by simp) hnew, lookup?_drop_beside hold, he]

theorem sameLinks_moved : SameLinks t u := by
  intro place s
  constructor
  · intro hlink
    subst hmoved
    by_cases hnew : place = c ++ [to']
    · rw [hnew, lookup?_set_self (by simp)] at hlink
      exact absurd hlink (by simp)
    rw [lookup?_set_of_ne (by simp) hnew] at hlink
    by_cases hold : c ++ [name] <+: place
    · have hne : place ≠ [] := by
        rintro rfl
        simp at hold
      rw [lookup?_drop_below hold hne] at hlink
      exact absurd hlink (by simp)
    · rwa [lookup?_drop_beside hold] at hlink
  · exact fun hlink => waysStay_moved h hfrom hto hmoved place _ hlink (by simp)

theorem standing_moved (hstart : t.lookup? start = some .directory) (hstorable : Storable to') :
    Standing start u := by
  refine ⟨?_, waysStay_moved h hfrom hto hmoved _ _ hstart (by simp)⟩
  subst hmoved
  have hbeside : ¬ c ++ [name] <+: c := fun hbelow => by
    have hlength := hbelow.length_le
    rw [List.length_append, List.length_singleton] at hlength
    omega
  refine (h.drop _).set ?_ hstorable (fun hdir => ?_) (by simp)
  · rw [lookup?_drop_beside hbeside]
    exact (h.grown c name _ hfrom).1
  · by_cases hold : c ++ [name] <+: c ++ [to']
    · rw [lookup?_drop_below hold (by simp)] at hdir
      exact absurd hdir (by simp)
    · rw [lookup?_drop_beside hold] at hdir
      obtain ⟨old, mode, hfile⟩ := hto _ hdir
      exact absurd hfile (by simp)

/-- What lies in another directory is neither moved nor moved over. -/
theorem lookup?_moved (hdir : t.lookup? d = some .directory) (hapart : ¬ d <+: c) {place : Place}
    (hbelow : d <+: place) : u.lookup? place = t.lookup? place := by
  subst hmoved
  have hside : ∀ n, t.lookup? (c ++ [n]) ≠ some .directory → ¬ d <+: c ++ [n] := by
    intro n hn hd
    rcases List.prefix_concat_iff.mp hd with rfl | hd
    · exact hn hdir
    · exact hapart hd
  have hnew : place ≠ c ++ [to'] := by
    rintro rfl
    refine hside to' (fun hto' => ?_) hbelow
    obtain ⟨old, mode, hfile⟩ := hto _ hto'
    exact absurd hfile (by simp)
  have hold : ¬ c ++ [name] <+: place := by
    intro hold
    rcases List.prefix_or_prefix_of_prefix hbelow hold with hd | ⟨more, rfl⟩
    · exact hside name (by simp [hfrom]) hd
    · by_cases hmore : more = []
      · rw [hmore, List.append_nil, hfrom] at hdir
        exact absurd hdir (by simp)
      · rw [h.lookup?_below hmore (by simp [hfrom])] at hdir
        exact absurd hdir (by simp)
  rw [lookup?_set_of_ne (by simp) hnew, lookup?_drop_beside hold]

end Moving

end ReviewMentor.FileTree
