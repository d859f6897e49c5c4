import ReviewMentor.Proofs.Sessions.Registry

/-!
# Whole runs of a store

Whatever is ordered of a store, in whatever order and whatever comes of it, the directories of
sessions on the disk are those of the live sessions, and nothing else on the disk has changed. Names
are never given twice, so that a session that was removed is never found again.
-/

namespace ReviewMentor

open FileTree Effect SessionStore SessionWork

/-- What a store is asked to do. -/
inductive StoreOrder where
  | create (user : Option String)
  | unpack (data : ByteArray) (user : Option String)
  | attach (id : String) (r : Review)
  | update (id : String) (change : Review → Review)
  | cleanup (id : String)
  | cleanupAll
  /-- A first analysis failed, and its session is given up; whether that succeeds is not asked. -/
  | discard (id : String)

namespace StoreOrder

/-- The workplace after an order. -/
def run : StoreOrder → Workplace → Workplace
  | create user, p => after (SessionWork.create user) p
  | unpack data user, p => after (createFromArchive data user) p
  | attach id r, p => after (SessionWork.attach id r) p
  | update id change, p => after (SessionWork.update id change) p
  | cleanup id, p => after (SessionWork.cleanup id) p
  | cleanupAll, p => after SessionWork.cleanupAll p
  | discard id, p => ((SessionWork.cleanup id).run p).1

/-- The workplace after some orders. -/
def runAll (orders : List StoreOrder) (p : Workplace) : Workplace :=
  orders.foldl (fun p o => o.run p) p

theorem runAll_cons (o : StoreOrder) (rest : List StoreOrder) (p : Workplace) :
    runAll (o :: rest) p = runAll rest (o.run p) := rfl

theorem runAll_append (orders later : List StoreOrder) (p : Workplace) :
    runAll (orders ++ later) p = runAll later (runAll orders p) :=
  List.foldl_append

/-- An order about one session that has begun. -/
def IsAbout (id : String) : StoreOrder → Prop
  | attach other _ | update other _ | cleanup other | discard other => other = id
  | _ => False

/-- An order that ends the session with a name. -/
def Ends (id : String) : StoreOrder → Prop
  | cleanup other | discard other => other = id
  | cleanupAll => True
  | _ => False

end StoreOrder

/-- Whatever is asked about a session is answered that it is not known. -/
structure Unknown (p : Workplace) (id : String) : Prop where
  attach : ∀ r, outcome (SessionWork.attach id r) p = .error (.notFound id)
  update : ∀ change, outcome (SessionWork.update id change) p = .error (.notFound id)
  cleanup : outcome (SessionWork.cleanup id) p = .error (.notFound id)
  directory : p.sessions.directory id = .error (.notFound id)
  result : p.sessions.result id = .error (.notFound id)
  resolve : ∀ file, p.sessions.resolve id file = .error (.notFound id)

variable {g : Site} {p : Workplace} {id other : String} {x : Session} {n : Nat}

theorem unknown_of_find? (h : p.sessions.find? id = none) : Unknown p id := by
  have hfind : p.sessions.find id = .error (.notFound id) := by
    rw [SessionStore.find, h]
  have hdirectory : p.sessions.directory id = .error (.notFound id) := by
    rw [SessionStore.directory, hfind]
    rfl
  refine ⟨fun r => ?_, fun change => ?_, (cleanup_unknown h).1, hdirectory, ?_, fun file => ?_⟩
  · unfold SessionWork.attach
    rw [outcome_bind_error (outcome_find_unknown h)]
  · unfold SessionWork.update
    rw [outcome_bind_error (outcome_find_unknown h)]
  · rw [SessionStore.result, hfind]
    rfl
  · rw [SessionStore.resolve, hdirectory]
    rfl

/-! ### Reviews -/

theorem after_attach_cases (id : String) (r : Review) (p : Workplace) :
    after (SessionWork.attach id r) p = p ∨
      after (SessionWork.attach id r) p = ⟨p.sessions.setResult id r, p.files⟩ := by
  rcases hx : p.sessions.find? id with _ | x
  · unfold SessionWork.attach
    rw [after_bind_error (outcome_find_unknown hx), after_ask]
    exact .inl rfl
  · exact .inr (after_attach r hx).1

theorem after_update_cases (id : String) (change : Review → Review) (p : Workplace) :
    after (SessionWork.update id change) p = p ∨
      ∃ r, after (SessionWork.update id change) p = ⟨p.sessions.setResult id r, p.files⟩ := by
  rw [after_update]
  split
  · exact .inr ⟨_, rfl⟩
  · exact .inl rfl

theorem SessionStore.mem_setResult {s : SessionStore} {r : Review}
    (hx : x ∈ (s.setResult id r).live) : ∃ y ∈ s.live, y.id = x.id ∧ y.directory = x.directory := by
  obtain ⟨y, hy, rfl⟩ := List.mem_map.mp hx
  refine ⟨y, hy, ?_⟩
  split_ifs <;> exact ⟨rfl, rfl⟩

theorem Registered.setResult (h : Registered g p) (id : String) (r : Review) :
    Registered g ⟨p.sessions.setResult id r, p.files⟩ := by
  have hids : (p.sessions.setResult id r).live.map Session.id = p.sessions.live.map Session.id := by
    show (p.sessions.live.map _).map Session.id = _
    rw [List.map_map]
    refine List.map_congr_left fun y _ => ?_
    show (if y.id = id then { y with result := some r } else y).id = y.id
    split_ifs <;> rfl
  refine ⟨h.root, h.namePrefix, h.start, fun x hx => ?_,
    h.housed.congr hids fun x hx => mem_setResult hx⟩
  obtain ⟨y, hy, hid, -⟩ := mem_setResult hx
  obtain ⟨k, hk, hyk⟩ := h.used y hy
  exact ⟨k, hk, hid.symm.trans hyk⟩

/-! ### Removing all sessions -/

/-- What is done for each session when all are removed: it is counted if its directory could be
removed. -/
def sweep (count : Nat) (session : Session) : SessionWork Nat := do
  let p ← get
  let (p, result) := (removeDirectory session.directory).run p
  set p
  pure (match result with
    | .ok _ => count + 1
    | .error _ => count)

theorem sweep_ok {u : FileTree} (count : Nat)
    (h : removal p.sessions.start x.directory p.files = .ok u) :
    outcome (sweep count x) p = .ok (count + 1) ∧
      after (sweep count x) p = { p with files := u } := by
  obtain ⟨houtcome, hafter⟩ := removeDirectory_ok h
  have hrun : (removeDirectory x.directory).run p = ({ p with files := u }, .ok ()) := by
    show (after (removeDirectory x.directory) p, outcome (removeDirectory x.directory) p) = _
    rw [houtcome, hafter]
  unfold sweep
  rw [outcome_get_bind, after_get_bind, hrun]
  exact ⟨rfl, rfl⟩

/-- Removing housed sessions one after the other counts them all and leaves the tree of the site. -/
theorem sweep_all {live : List Session} (h : Housed g live p.files)
    (hstart : p.sessions.start = g.start) (count : Nat) :
    outcome (live.foldlM sweep count) p = .ok (count + live.length) ∧
      ∃ u, after (live.foldlM sweep count) p = { p with files := u } ∧ Housed g [] u := by
  induction live generalizing p count with
  | nil => exact ⟨rfl, p.files, rfl, h⟩
  | cons x rest ih =>
    have hremoval := h.removal_eq (List.mem_cons_self : x ∈ x :: rest)
    obtain ⟨houtcome, hafter⟩ := sweep_ok count (hstart.symm ▸ hremoval)
    have hrest : (x :: rest).filter (·.id ≠ x.id) = rest := by
      have hne : ∀ y ∈ rest, y.id ≠ x.id := by
        intro y hy heq
        exact (List.nodup_cons.mp h.distinct).1 (heq ▸ List.mem_map_of_mem hy)
      rw [List.filter_cons_of_neg (by simp)]
      exact List.filter_eq_self.mpr fun y hy => by simpa using hne y hy
    have hleft : Housed g rest (p.files.drop (g.placeOf x.id)) := by
      have hdrop := h.drop (List.mem_cons_self : x ∈ x :: rest)
      rwa [hrest] at hdrop
    obtain ⟨hcount, u, hu, hnone⟩ :=
      ih (p := { p with files := p.files.drop (g.placeOf x.id) }) hleft hstart (count + 1)
    rw [List.foldlM_cons, outcome_bind_ok houtcome, after_bind_ok houtcome, hafter, hcount]
    refine ⟨?_, u, hu, hnone⟩
    rw [List.length_cons, Nat.add_assoc, Nat.add_comm 1]

theorem Registered.cleanupAll_eq (h : Registered g p) :
    outcome SessionWork.cleanupAll p = .ok p.sessions.live.length ∧
      ∃ u, after SessionWork.cleanupAll p = ⟨{ p.sessions with live := [] }, u⟩ ∧
        Housed g [] u := by
  obtain ⟨hcount, u, hu, hnone⟩ :=
    sweep_all (p := ⟨{ p.sessions with live := [] }, p.files⟩) h.housed h.start 0
  have hwork : SessionWork.cleanupAll = (get >>= fun q : Workplace => (do
      modify fun q => { q with sessions := { q.sessions with live := [] } }
      q.sessions.live.foldlM sweep 0 : SessionWork Nat)) := rfl
  rw [hwork, outcome_get_bind, after_get_bind, outcome_modify_bind, after_modify_bind, hcount,
    Nat.zero_add]
  exact ⟨rfl, u, hu, hnone⟩

/-! ### One order -/

theorem Registered.cleanupAll (h : Registered g p) :
    Registered g (after SessionWork.cleanupAll p) := by
  obtain ⟨-, u, hu, hnone⟩ := h.cleanupAll_eq
  rw [hu]
  exact ⟨h.root, h.namePrefix, h.start, fun _ hx => absurd hx List.not_mem_nil, hnone⟩

theorem Registered.cleanup (h : Registered g p) (id : String) :
    Registered g (after (SessionWork.cleanup id) p) := by
  rcases hx : p.sessions.find? id with _ | x
  · rwa [(cleanup_unknown hx).2]
  · obtain ⟨hmem, rfl⟩ := mem_of_find? hx
    exact (h.cleanup_known hmem).2.2

/-- Every order leaves the sessions registered and housed. -/
theorem Registered.run (h : Registered g p) (o : StoreOrder) : Registered g (o.run p) := by
  cases o with
  | create user =>
    rcases h.create_cases user with ⟨-, -, hnew⟩ | ⟨-, hafter⟩
    · exact hnew
    · show Registered g (after (SessionWork.create user) p)
      rw [hafter]
      exact h.advance
  | unpack data user => exact (h.createFromArchive_cases data user).1
  | attach id r =>
    show Registered g (after (SessionWork.attach id r) p)
    rcases after_attach_cases id r p with hafter | hafter
    · rwa [hafter]
    · rw [hafter]
      exact h.setResult id r
  | update id change =>
    show Registered g (after (SessionWork.update id change) p)
    rcases after_update_cases id change p with hafter | ⟨r, hafter⟩
    · rwa [hafter]
    · rw [hafter]
      exact h.setResult id r
  | cleanup id => exact h.cleanup id
  | cleanupAll => exact h.cleanupAll
  | discard id => exact h.cleanup id

theorem Registered.runAll (h : Registered g p) (orders : List StoreOrder) :
    Registered g (StoreOrder.runAll orders p) := by
  induction orders generalizing p with
  | nil => exact h
  | cons o rest ih => exact ih (h.run o)

/-! ### Names that are gone -/

/-- A name that was given away and that no live session bears. -/
structure Gone (p : Workplace) (id : String) : Prop where
  given : ∃ n < p.sessions.serial, id = idOf n
  absent : ∀ x ∈ p.sessions.live, x.id ≠ id

theorem Gone.unknown (h : Gone p id) : Unknown p id := by
  refine unknown_of_find? (List.find?_eq_none.mpr fun x hx => ?_)
  simpa using h.absent x hx

/-- An order gives no name but the next one. -/
theorem Registered.names_run (h : Registered g p) (o : StoreOrder) :
    p.sessions.serial ≤ (o.run p).sessions.serial ∧ ∀ x ∈ (o.run p).sessions.live,
      (∃ y ∈ p.sessions.live, y.id = x.id) ∨ x.id = idOf p.sessions.serial := by
  have hjoined : ∀ user, ∀ x ∈ (p.sessions.advanced.joined (p.sessions.upcoming user)).live,
      (∃ y ∈ p.sessions.live, y.id = x.id) ∨ x.id = idOf p.sessions.serial := by
    intro user x hx
    rcases List.mem_append.mp hx with hx | hx
    · exact .inl ⟨x, hx, rfl⟩
    · exact .inr (List.mem_singleton.mp hx ▸ rfl)
  have hsame : ∀ x ∈ p.sessions.live,
      (∃ y ∈ p.sessions.live, y.id = x.id) ∨ x.id = idOf p.sessions.serial :=
    fun x hx => .inl ⟨x, hx, rfl⟩
  have hreview : ∀ q : Workplace, (q = p ∨ ∃ id r, q = ⟨p.sessions.setResult id r, p.files⟩) →
      p.sessions.serial ≤ q.sessions.serial ∧ ∀ x ∈ q.sessions.live,
        (∃ y ∈ p.sessions.live, y.id = x.id) ∨ x.id = idOf p.sessions.serial := by
    rintro q (rfl | ⟨id, r, rfl⟩)
    · exact ⟨Nat.le_refl _, hsame⟩
    · refine ⟨Nat.le_refl _, fun x hx => ?_⟩
      obtain ⟨y, hy, hid, -⟩ := mem_setResult hx
      exact .inl ⟨y, hy, hid⟩
  have hcleanup : ∀ id, p.sessions.serial ≤ (after (SessionWork.cleanup id) p).sessions.serial ∧
      ∀ x ∈ (after (SessionWork.cleanup id) p).sessions.live,
        (∃ y ∈ p.sessions.live, y.id = x.id) ∨ x.id = idOf p.sessions.serial := by
    intro id
    rcases hx : p.sessions.find? id with _ | x
    · rw [(cleanup_unknown hx).2]
      exact ⟨Nat.le_refl _, hsame⟩
    · obtain ⟨hmem, rfl⟩ := mem_of_find? hx
      rw [(h.cleanup_known hmem).2.1]
      exact ⟨Nat.le_refl _, fun y hy => hsame y (List.mem_filter.mp hy).1⟩
  cases o with
  | create user =>
    show _ ≤ (after (SessionWork.create user) p).sessions.serial ∧
      ∀ x ∈ (after (SessionWork.create user) p).sessions.live, _
    rcases h.create_cases user with ⟨-, hafter, -⟩ | ⟨-, hafter⟩ <;> rw [hafter]
    · exact ⟨Nat.le_succ _, hjoined user⟩
    · exact ⟨Nat.le_succ _, hsame⟩
  | unpack data user =>
    show _ ≤ (after (createFromArchive data user) p).sessions.serial ∧
      ∀ x ∈ (after (createFromArchive data user) p).sessions.live, _
    obtain ⟨-, ⟨-, hafter, -⟩ | ⟨-, hafter, -⟩⟩ := h.createFromArchive_cases data user <;>
      rw [hafter]
    · exact ⟨Nat.le_succ _, hjoined user⟩
    · exact ⟨Nat.le_succ _, hsame⟩
  | attach id r => exact hreview _ ((after_attach_cases id r p).imp_right fun h => ⟨id, r, h⟩)
  | update id change =>
    exact hreview _ ((after_update_cases id change p).imp_right fun ⟨r, h⟩ => ⟨id, r, h⟩)
  | cleanup id => exact hcleanup id
  | cleanupAll =>
    obtain ⟨-, u, hu, -⟩ := h.cleanupAll_eq
    show _ ≤ (after SessionWork.cleanupAll p).sessions.serial ∧
      ∀ x ∈ (after SessionWork.cleanupAll p).sessions.live, _
    rw [hu]
    exact ⟨Nat.le_refl _, fun _ hx => absurd hx List.not_mem_nil⟩
  | discard id => exact hcleanup id

/-- A name that is gone stays gone. -/
theorem Gone.runAll (hgone : Gone p id) (h : Registered g p) (orders : List StoreOrder) :
    Gone (StoreOrder.runAll orders p) id := by
  induction orders generalizing p with
  | nil => exact hgone
  | cons o rest ih =>
    obtain ⟨hserial, hnames⟩ := h.names_run o
    obtain ⟨n, hn, rfl⟩ := hgone.given
    have hlt : n < (o.run p).sessions.serial := Nat.lt_of_lt_of_le hn hserial
    refine ih ⟨⟨n, hlt, rfl⟩, fun x hx heq => ?_⟩ (h.run o)
    rcases hnames x hx with ⟨y, hy, hid⟩ | hid
    · exact hgone.absent y hy (hid.trans heq)
    · have hsame : p.sessions.serial = n := idOf_injective (hid.symm.trans heq)
      omega

/-- The name of a session is gone when the session has ended. -/
theorem Registered.gone_of_ends (h : Registered g p) (hx : x ∈ p.sessions.live) {o : StoreOrder}
    (hends : o.Ends x.id) : Gone (o.run p) x.id := by
  have hgiven := h.used x hx
  have hcleanup : Gone (after (SessionWork.cleanup x.id) p) x.id := by
    rw [(h.cleanup_known hx).2.1]
    exact ⟨hgiven, fun y hy => by simpa using (List.mem_filter.mp hy).2⟩
  cases o with
  | create | unpack | attach | update => exact hends.elim
  | cleanup id =>
    obtain rfl : id = x.id := hends
    exact hcleanup
  | cleanupAll =>
    obtain ⟨-, u, hu, -⟩ := h.cleanupAll_eq
    show Gone (after SessionWork.cleanupAll p) x.id
    rw [hu]
    exact ⟨hgiven, fun _ hy => absurd hy List.not_mem_nil⟩
  | discard id =>
    obtain rfl : id = x.id := hends
    exact hcleanup

/-! ### The registry and the disk -/

/-- The sessions that a store knows are those whose directories are on the disk. -/
structure InStep (g : Site) (p : Workplace) : Prop where
  known : ∀ id x, p.sessions.find? id = some x ↔ x ∈ p.sessions.live ∧ x.id = id
  distinct : (p.sessions.live.map Session.id).Nodup
  directory : ∀ x ∈ p.sessions.live, x.directory = g.root.child (g.namePrefix ++ x.id)
  found : ∀ x ∈ p.sessions.live, p.files.find g.start true x.directory = .ok (g.placeOf x.id)
  apart : ∀ x ∈ p.sessions.live, ∀ y ∈ p.sessions.live, x.id ≠ y.id →
    x.directory ≠ y.directory ∧ ¬ g.placeOf x.id <+: g.placeOf y.id
  /-- The directories of the live sessions are there, and those of no others. -/
  stands : ∀ n, if ∃ x ∈ p.sessions.live, x.id = idOf n
    then p.files.lookup? (g.placeOf (idOf n)) = some .directory
    else ∀ place, g.placeOf (idOf n) <+: place → p.files.lookup? place = none
  /-- Whatever lies in no directory of a live session is as it was in the beginning. -/
  elsewhere : ∀ place, (∀ x ∈ p.sessions.live, ¬ g.placeOf x.id <+: place) →
    p.files.lookup? place = g.files.lookup? place

theorem Registered.inStep (h : Registered g p) : InStep g p := by
  refine ⟨fun id x => ⟨mem_of_find?, ?_⟩, h.housed.distinct, h.housed.placed,
    fun x hx => h.housed.find hx true, fun x hx y hy hne => ?_, fun n => ?_, h.housed.elsewhere⟩
  · rintro ⟨hx, rfl⟩
    exact h.find?_eq_some hx
  · have hbeside : ¬ g.placeOf x.id <+: g.placeOf y.id := fun hbelow =>
      hne (Site.eq_of_below hbelow (List.prefix_refl _))
    refine ⟨fun hsame => hbeside ?_, hbeside⟩
    -- one path leads to one place
    have hplace : Except.ok (g.placeOf x.id) = Except.ok (ε := FileError) (g.placeOf y.id) := by
      rw [← h.housed.find hx true, ← h.housed.find hy true, hsame]
    exact Except.ok.inj hplace ▸ List.prefix_refl _
  · split_ifs with hlive
    · obtain ⟨x, hx, hid⟩ := hlive
      exact hid ▸ h.housed.directories x hx
    · intro place hbelow
      exact h.housed.lookup?_unused (fun x hx hid => hlive ⟨x, hx, hid⟩) hbelow

/-- Records and directories of the sessions with other names are the same. -/
structure SparesOthers (g : Site) (id : String) (p q : Workplace) : Prop where
  records : ∀ other, other ≠ id → q.sessions.find? other = p.sessions.find? other
  files : ∀ place, ¬ g.placeOf id <+: place → q.files.lookup? place = p.files.lookup? place

theorem SparesOthers.setResult (g : Site) (id : String) (r : Review) (p : Workplace) :
    SparesOthers g id p ⟨p.sessions.setResult id r, p.files⟩ :=
  ⟨fun _ hne => find?_setResult_of_ne hne, fun _ _ => rfl⟩

theorem SessionStore.find?_erase_of_ne {s : SessionStore} (h : other ≠ id) :
    (s.erase id).find? other = s.find? other := by
  show (s.live.filter _).find? _ = s.live.find? _
  rw [List.find?_filter]
  congr 1
  funext x
  by_cases hx : x.id = other
  · simp [hx, h]
  · simp [hx]

theorem Registered.spares_cleanup (h : Registered g p) (id : String) :
    SparesOthers g id p (after (SessionWork.cleanup id) p) := by
  rcases hx : p.sessions.find? id with _ | x
  · rw [(cleanup_unknown hx).2]
    exact ⟨fun _ _ => rfl, fun _ _ => rfl⟩
  · obtain ⟨hmem, rfl⟩ := mem_of_find? hx
    rw [(h.cleanup_known hmem).2.1]
    exact ⟨fun _ hne => find?_erase_of_ne hne, fun _ hp => lookup?_drop_beside hp⟩

/-- An order about one session spares the others. -/
theorem Registered.spares (h : Registered g p) {o : StoreOrder} (habout : o.IsAbout id) :
    SparesOthers g id p (o.run p) := by
  cases o with
  | create | unpack | cleanupAll => exact habout.elim
  | attach other r =>
    obtain rfl : other = id := habout
    show SparesOthers g other p (after (SessionWork.attach other r) p)
    rcases after_attach_cases other r p with hafter | hafter <;> rw [hafter]
    · exact ⟨fun _ _ => rfl, fun _ _ => rfl⟩
    · exact .setResult g other r p
  | update other change =>
    obtain rfl : other = id := habout
    show SparesOthers g other p (after (SessionWork.update other change) p)
    rcases after_update_cases other change p with hafter | ⟨r, hafter⟩ <;> rw [hafter]
    · exact ⟨fun _ _ => rfl, fun _ _ => rfl⟩
    · exact .setResult g other r p
  | cleanup other | discard other =>
    obtain rfl : other = id := habout
    exact h.spares_cleanup other

/-- Live sessions and files as they were; only the next name may be another one. -/
structure Restored (p q : Workplace) : Prop where
  sessions : q.sessions = { p.sessions with serial := q.sessions.serial }
  files : ∀ place, q.files.lookup? place = p.files.lookup? place

/-- A session begins and is the last of the live ones, or nothing is left of it. -/
def Begins (w : SessionWork Session) (p : Workplace) : Prop :=
  (∃ x, outcome w p = .ok x ∧ (after w p).sessions.live = p.sessions.live ++ [x]) ∨
    ∃ e, outcome w p = .error e ∧ Restored p (after w p)

theorem Registered.begins_create (h : Registered g p) (user : Option String) :
    Begins (SessionWork.create user) p := by
  rcases h.create_cases user with ⟨hok, hafter, -⟩ | ⟨⟨e, herror⟩, hafter⟩
  · exact .inl ⟨_, hok, hafter ▸ rfl⟩
  · exact .inr ⟨_, herror, hafter ▸ ⟨rfl, fun _ => rfl⟩⟩

theorem Registered.begins_unpack (h : Registered g p) (data : ByteArray) (user : Option String) :
    Begins (createFromArchive data user) p := by
  obtain ⟨-, ⟨hok, hsessions, -⟩ | ⟨⟨e, herror⟩, hsessions, hfiles⟩⟩ :=
    h.createFromArchive_cases data user
  · exact .inl ⟨_, hok, hsessions ▸ rfl⟩
  · exact .inr ⟨_, herror, hsessions ▸ rfl, hfiles⟩

/-- Nothing is left of a session that is given up. -/
theorem Registered.restored_of_discard (h : Registered g p) {data : ByteArray}
    {user : Option String} (hok : outcome (createFromArchive data user) p = .ok x) :
    Restored p ((StoreOrder.discard x.id).run (after (createFromArchive data user) p)) := by
  obtain ⟨hnew, ⟨hbegun, hsessions, hfiles⟩ | ⟨⟨e, herror⟩, -⟩⟩ :=
    h.createFromArchive_cases data user
  · obtain rfl : p.sessions.upcoming user = x := Except.ok.inj (hbegun.symm.trans hok)
    have hx : p.sessions.upcoming user ∈
        (after (createFromArchive data user) p).sessions.live := by
      rw [hsessions]
      exact List.mem_append_right _ (List.mem_singleton_self _)
    obtain ⟨-, hremoved, -⟩ := hnew.cleanup_known hx
    show Restored p (after (SessionWork.cleanup (p.sessions.upcoming user).id) _)
    rw [hremoved]
    refine ⟨?_, fun place => ?_⟩
    · show (after (createFromArchive data user) p).sessions.erase (idOf p.sessions.serial) = _
      rw [hsessions, h.erase_joined]
      rfl
    · show (FileTree.drop _ (g.placeOf (idOf p.sessions.serial))).lookup? place = _
      exact h.housed.lookup?_drop_unused (h.id_ne_idOf (Nat.le_refl _)) hfiles place
  · rw [herror] at hok
    simp at hok

/-- **The registry and the disk agree.** However a store was used, it knows each session under its
own name, sessions have directories of their own under the root, and the directories on the disk are
theirs. An archive that cannot be unpacked leaves no trace, nor does a session that is given up;
work on one session spares the others, what has ended is not known any more, and removing all counts
all and leaves nothing to remove. -/
theorem registry_matches_disk (g : Site) (orders : List StoreOrder) :
    let p := StoreOrder.runAll orders g.opening
    InStep g p ∧
    (∀ user, Begins (SessionWork.create user) p) ∧
    (∀ data user, Begins (createFromArchive data user) p) ∧
    (∀ data user x, outcome (createFromArchive data user) p = .ok x →
      Restored p ((StoreOrder.discard x.id).run (after (createFromArchive data user) p))) ∧
    (∀ id (o : StoreOrder), o.IsAbout id → SparesOthers g id p (o.run p)) ∧
    (∀ x ∈ p.sessions.live, outcome (SessionWork.cleanup x.id) p = .ok () ∧
      ∀ o : StoreOrder, o.Ends x.id → ∀ later,
        Unknown (StoreOrder.runAll later (o.run p)) x.id) ∧
    outcome SessionWork.cleanupAll p = .ok p.sessions.live.length ∧
    (after SessionWork.cleanupAll p).sessions.live = [] ∧
    (∀ place, (after SessionWork.cleanupAll p).files.lookup? place = g.files.lookup? place) ∧
    outcome SessionWork.cleanupAll (after SessionWork.cleanupAll p) = .ok 0 := by
  intro p
  have hp : Registered g p := (Registered.opening g).runAll orders
  obtain ⟨hcount, u, hu, hnone⟩ := hp.cleanupAll_eq
  have hagain := hp.cleanupAll.cleanupAll_eq.1
  refine ⟨hp.inStep, hp.begins_create, hp.begins_unpack, fun _ _ _ => hp.restored_of_discard,
    fun _ _ => hp.spares, fun x hx => ⟨(hp.cleanup_known hx).1, fun o hends later => ?_⟩,
    hcount, ?_, fun place => ?_, ?_⟩
  · exact ((hp.gone_of_ends hx hends).runAll (hp.run o) later).unknown
  · rw [hu]
  · rw [hu]
    exact hnone.elsewhere place fun _ hx => absurd hx List.not_mem_nil
  · rw [hagain, hu]
    rfl

/-- A root that is reached by a link, beside a file. -/
def linkedSite : Site where
  root := ⟨"/l"⟩
  namePrefix := "p-"
  start := []
  files := ⟨[(["s"], .directory), (["l"], .link "s"), (["t"], .file .empty defaultMode)]⟩
  home := ["s"]
  found := by decide
  isDirectory := rfl
  noSlash := by decide
  unused := by
    intro n place hbelow
    have hlength : 2 ≤ place.length := hbelow.length_le
    rcases hlookup : FileTree.lookup? _ place with _ | e
    · rfl
    · unfold lookup? at hlookup
      split_ifs at hlookup with hplace
      · rw [hplace] at hlength
        simp at hlength
      · obtain ⟨before, rest, hentries, -⟩ := List.lookup_eq_some_iff.mp hlookup
        have hmem : (place, e) ∈ before ++ (place, e) :: rest := by simp
        rw [← hentries] at hmem
        obtain ⟨rfl, -⟩ | ⟨rfl, -⟩ | ⟨rfl, -⟩ : (place = ["s"] ∧ _) ∨ (place = ["l"] ∧ _) ∨
          place = ["t"] ∧ _ := by simpa using hmem
        all_goals simp at hlength

/-- Three sessions begin, one of them with no archive at all, and the first one ends. -/
def threeBegun : List StoreOrder :=
  [.create none, .unpack .empty none, .create (some "ada"), .cleanup (idOf 0)]

theorem registry_matches_disk_linked :
    (StoreOrder.runAll threeBegun linkedSite.opening).sessions.live.map Session.id = [idOf 2] ∧
    InStep linkedSite (StoreOrder.runAll threeBegun linkedSite.opening) ∧
    outcome SessionWork.cleanupAll (StoreOrder.runAll threeBegun linkedSite.opening) = .ok 1 ∧
    Unknown (StoreOrder.runAll (threeBegun ++ [.cleanupAll, .create none]) linkedSite.opening)
      (idOf 2) := by
  have hlive : (StoreOrder.runAll threeBegun linkedSite.opening).sessions.live.map Session.id =
      [idOf 2] := by decide +kernel
  obtain ⟨hstep, -, -, -, -, hended, hcount, -⟩ := registry_matches_disk linkedSite threeBegun
  have hlength : (StoreOrder.runAll threeBegun linkedSite.opening).sessions.live.length = 1 := by
    rw [← List.length_map Session.id, hlive]
    rfl
  obtain ⟨x, hx, hid⟩ := List.mem_map.mp (hlive ▸ List.mem_singleton_self (idOf 2))
  refine ⟨hlive, hstep, hlength ▸ hcount, ?_⟩
  have hlater := (hended x hx).2 .cleanupAll trivial [.create none]
  rwa [hid, ← StoreOrder.runAll_cons, ← StoreOrder.runAll_append] at hlater

end ReviewMentor
