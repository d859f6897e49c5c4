import Mathlib.Logic.Relation
import ReviewMentor.Proofs.Analysis.Configs
import ReviewMentor.Proofs.Sessions.Places
import ReviewMentor.Proofs.Zip.Confinement

/-!
# Sessions without links

The invariant of the sessions and their files: every live session has a number and lies where its
name says, the way to the sessions leads past no generated file, and no link lies in a directory of
a session, nor where the directory of a session to come will be. Work for one session only changes
what lies in its directory, and the files that configure the analyzers.
-/

namespace ReviewMentor

open FileTree Effect SessionStore

/-- A number that a live session has, or one to come. -/
def SessionStore.Reserved (s : SessionStore) (n : Nat) : Prop :=
  s.serial ≤ n ∨ ∃ x ∈ s.live, x.id = idOf n

/-- Sessions lie side by side in `home`, where their names say, and no link lies in their
directories. -/
structure Tidy (l : Pipeline) (home : Place) (p : Workplace) : Prop where
  start : p.sessions.start = l.machine.cwd
  named : ∀ x ∈ p.sessions.live, ∃ n < p.sessions.serial, x.id = idOf n
  placed : ∀ x ∈ p.sessions.live, x.directory = p.sessions.directoryPath x.id
  way : Leads p.files l.invoker.Generated (origin l.machine.cwd p.sessions.base)
    p.sessions.homeSteps home
  linkFree : ∀ n, p.sessions.Reserved n → LinkFree p.files (home ++ [p.sessions.leaf (idOf n)])

/-- What is done for a session to the files: something in its directory, or on the way to it, or
writing the file that configures an analyzer. -/
inductive Change (l : Pipeline) (target : Path) (d : Place) : FileTree → FileTree → Prop
  | inside {t u : FileTree} : Touched l.machine.cwd target d t u → Change l target d t u
  | config (t : FileTree) (a : Analyzer) :
      Change l target d t (after (l.invoker.ensureConfig l.machine.cwd a) t)

/-- Any number of changes, one after another. -/
def Changes (l : Pipeline) (target : Path) (d : Place) : FileTree → FileTree → Prop :=
  Relation.ReflTransGen (Change l target d)

variable {l : Pipeline} {home d : Place} {target q : Path} {n : Nat} {p : Workplace}
  {t u : FileTree} {s : SessionStore}

instance : Std.Refl (Changes l target d) := ⟨fun _ => .refl⟩

instance : IsTrans FileTree (Changes l target d) := ⟨fun _ _ _ h h' => h.trans h'⟩

theorem Changes.inside (h : Touched l.machine.cwd target d t u) : Changes l target d t u :=
  .single (.inside h)

theorem Changes.configKept (h : Changes l target d t u) : l.invoker.ConfigKept t u := by
  induction h with
  | refl => exact refl_of _ t
  | tail _ hchange ih =>
    cases hchange with
    | inside htouched => exact trans_of _ ih (Invoker.configKept_of_sameLinks htouched.links)
    | config a => exact trans_of _ ih (l.invoker.keeps_ensureConfig _ a _)

/-- A place on the way to the directory of a session, or to the generated files. -/
def OnWay (l : Pipeline) (target : Path) (t : FileTree) (place : Place) : Prop :=
  ∃ q ∈ [target, l.invoker.configDirectory], Passes t (origin l.machine.cwd q) q.parts place

/-- What stands outside the directory stays, but for directories that were made on the way to it or
to the generated files, and for the generated files. -/
theorem Changes.outside {place : Place} (h : Changes l target d t u) (hp : ¬ d <+: place) :
    u.lookup? place = t.lookup? place ∨ ∃ v, Changes l target d t v ∧
      ((OnWay l target v place ∧ t.lookup? place = none ∧ u.lookup? place = some .directory) ∨
        l.invoker.ConfigPlace l.machine.cwd v place) := by
  induction h with
  | refl => exact .inl rfl
  | @tail v u hv hchange ih =>
    have hstep : u.lookup? place = v.lookup? place ∨
        (OnWay l target v place ∧ v.lookup? place = none ∧ u.lookup? place = some .directory) ∨
        l.invoker.ConfigPlace l.machine.cwd v place := by
      cases hchange with
      | inside htouched =>
        rcases htouched.outside place hp with hkeep | ⟨hpass, hmade⟩
        · exact .inl hkeep
        · exact .inr (.inl ⟨⟨_, by simp, hpass⟩, hmade⟩)
      | config a =>
        rcases l.invoker.configWritten_ensureConfig l.machine.cwd a v place with
          hkeep | ⟨hpass, hmade⟩ | hconfig
        · exact .inl hkeep
        · exact .inr (.inl ⟨⟨_, by simp, hpass⟩, hmade⟩)
        · exact .inr (.inr hconfig)
    rcases hstep with hkeep | ⟨hway, hnone, hmade⟩ | hconfig
    · rwa [hkeep]
    · rcases ih with hkeep | ⟨w, hw, ⟨-, -, hmade'⟩ | hconfig⟩
      · exact .inr ⟨v, hv, .inl ⟨hway, hkeep ▸ hnone, hmade⟩⟩
      · simp [hmade'] at hnone
      · exact .inr ⟨w, hw, .inr hconfig⟩
    · exact .inr ⟨v, hv, .inr hconfig⟩

/-! ### The directory of a session -/

theorem leaf_not_config (s : SessionStore) (v : Invoker) (n : Nat) :
    s.leaf (idOf n) ∉ v.configNames := fun h =>
  (Invoker.isName_configNames h).2 (s.getLast?_leaf n)

/-- Steps without two dots stay below where they start. -/
theorem staysBelow_steps (hup : .up ∉ q.steps) : Zip.staysBelow 0 q.steps = true := by
  refine Zip.staysBelow_iff.mpr ⟨fun hroot => (Path.filterMap_component?_ne_root hroot).1 rfl,
    fun before hb => ?_⟩
  have hcount : before.count .up = 0 := List.count_eq_zero.mpr fun h => hup (hb.subset h)
  omega

/-- A relative path without two dots stays within the directory that it is followed from. -/
theorem within_join (habs : q.isAbsolute = false) (hup : .up ∉ q.steps) :
    Within target (target.join q) :=
  ⟨by rw [Path.isAbsolute_join, habs, Bool.or_false], q.parts, Path.parts_join habs,
    staysBelow_steps hup⟩

theorem up_not_mem_steps (h : .up ∉ q.components) : .up ∉ q.steps := by
  rw [← filter_components]
  exact fun hup => h (List.mem_of_mem_filter hup)

/-- What is resolved within a session and then told relative to a root also stays within. -/
theorem within_of_relative {id file : String} (hq : s.resolve id file = .ok q) (root : Root) :
    Within target (target.join ⟨root.relative file⟩) := by
  obtain ⟨x, -, -, habs, hup, -⟩ := resolve_eq_ok.mp hq
  rw [root.relative_of_relative habs]
  split_ifs
  · exact within_join habs (up_not_mem_steps hup)
  · refine within_join (Path.not_isAbsolute_slashed Path.isStep_of_mem_steps) ?_
    rw [Root.steps_slashed Path.isStep_of_mem_steps]
    exact up_not_mem_steps hup

/-- Work for the session with a number, whose directory has a path and lies at a place. -/
structure Scoped (l : Pipeline) (home : Place) (n : Nat) (target : Path) (d : Place)
    (p : Workplace) : Prop where
  tidy : Tidy l home p
  path : p.sessions.directoryPath (idOf n) = target
  place : home ++ [p.sessions.leaf (idOf n)] = d
  linkFree : LinkFree p.files d

namespace Scoped

theorem last (h : Scoped l home n target d p) :
    ∃ last, d.getLast? = some last ∧ last ∉ l.invoker.configNames :=
  ⟨p.sessions.leaf (idOf n), by rw [← h.place, List.getLast?_concat], leaf_not_config _ _ n⟩

/-- The path of the directory leads to its place. -/
theorem lies (h : Scoped l home n target d p) : LiesAt p.files l.machine.cwd target d := by
  refine ⟨?_, h.linkFree⟩
  have horigin : origin l.machine.cwd target = origin l.machine.cwd p.sessions.base := by
    rw [← h.path, origin, origin, isAbsolute_directoryPath (noSlash_idOf n)]
  rw [horigin, ← h.path, parts_directoryPath (noSlash_idOf n) (idOf_ne_empty n), ← h.place]
  have hname := p.sessions.isName_leaf n
  refine (h.tidy.way.mono fun _ hno => hno.elim).append ?_
  refine .name hname.ne_here hname.ne_up id (fun s => ?_) (.done _)
  rw [h.place]
  exact h.linkFree d (List.prefix_refl d) s

/-- Whatever is found under the path is found at the place, also if a link at the end is not
followed. -/
theorem eq_of_find {place : Place} (h : Scoped l home n target d p)
    (hfind : p.files.find l.machine.cwd false target = .ok place) : place = d := by
  have hwalk := walk_of_locate (find_ok hfind)
  have horigin : origin l.machine.cwd target = origin l.machine.cwd p.sessions.base := by
    rw [← h.path, origin, origin, isAbsolute_directoryPath (noSlash_idOf n)]
  have hname := p.sessions.isName_leaf n
  rw [horigin, ← h.path, parts_directoryPath (noSlash_idOf n) (idOf_ne_empty n)] at hwalk
  obtain ⟨mid, hmid, hplace⟩ := hwalk.ends ⟨hname.ne_here, hname.ne_up⟩ rfl
    (endsWithSlash_directoryPath n)
  obtain rfl := hmid.unique h.tidy.way
  exact hplace.trans h.place

/-- Changes for the session keep its directory where it is. -/
theorem changed (h : Scoped l home n target d ⟨s, t⟩) (hu : Changes l target d t u) :
    Scoped l home n target d ⟨s, u⟩ := by
  have hkept := hu.configKept
  obtain ⟨last, hlast, hname⟩ := h.last
  refine ⟨⟨h.tidy.start, h.tidy.named, h.tidy.placed, h.tidy.way.congr hkept.links,
    fun k hk => ?_⟩, h.path, h.place, hkept.linkFree d last hlast hname h.linkFree⟩
  exact hkept.linkFree _ _ List.getLast?_concat (leaf_not_config _ _ k) (h.tidy.linkFree k hk)

/-- A live session works in its own directory. -/
theorem of_find (h : Tidy l home p) {id : String} {x : Session}
    (hx : p.sessions.find? id = some x) :
    ∃ n, id = idOf n ∧ Scoped l home n (p.sessions.directoryPath id)
      (home ++ [p.sessions.leaf id]) p := by
  obtain ⟨hmem, hid⟩ := mem_of_find? hx
  obtain ⟨n, -, hname⟩ := h.named x hmem
  obtain rfl : id = idOf n := hid.symm.trans hname
  exact ⟨n, rfl, h, rfl, rfl, h.linkFree n (.inr ⟨x, hmem, hname⟩)⟩

/-- The next session has a directory waiting. -/
theorem next (h : Tidy l home p) :
    Scoped l home p.sessions.serial (p.sessions.directoryPath (idOf p.sessions.serial))
      (home ++ [p.sessions.leaf (idOf p.sessions.serial)]) p :=
  ⟨h, rfl, rfl, h.linkFree _ (.inl (Nat.le_refl _))⟩

theorem directory_of_find {x : Session} (h : Scoped l home n target d p)
    (hx : p.sessions.find? (idOf n) = some x) : x.directory = target := by
  obtain ⟨hmem, hid⟩ := mem_of_find? hx
  rw [h.tidy.placed x hmem, hid, h.path]

theorem eq_of_directory (h : Scoped l home n target d p)
    (hq : p.sessions.directory (idOf n) = .ok q) : q = target := by
  unfold directory SessionStore.find at hq
  rcases hx : p.sessions.find? (idOf n) with _ | x
  · simp [hx, Except.map] at hq
  · obtain rfl : x.directory = q := by simpa [hx, Except.map] using hq
    exact h.directory_of_find hx

/-! ### Paths within the directory -/

/-- What is resolved within the session stays within its directory. -/
theorem within_of_resolve {file : String} (h : Scoped l home n target d p)
    (hq : p.sessions.resolve (idOf n) file = .ok q) : Within target q := by
  obtain ⟨x, hx, -, habs, hup, rfl⟩ := resolve_eq_ok.mp hq
  rw [h.directory_of_find hx]
  exact within_join habs (up_not_mem_steps hup)

/-- Paths within the directory are found below its place. -/
theorem below_of_find {place : Place} (h : Scoped l home n target d p) (hq : Within target q)
    (hfind : p.files.find l.machine.cwd true q = .ok place) : d <+: place :=
  hq.leads h.lies (leads_of_find hfind)

/-! ### Changes of the store -/

/-- A session that begins takes its number, which is no number to come any more. -/
theorem begun (h : Scoped l home n target d ⟨s, t⟩) (hn : s.serial = n) :
    Scoped l home n target d ⟨{ s with serial := n + 1 }, t⟩ := by
  refine ⟨⟨h.tidy.start, fun x hx => ?_, h.tidy.placed, h.tidy.way, fun k hk => ?_⟩, h.path,
    h.place, h.linkFree⟩
  · obtain ⟨k, hk, hid⟩ := h.tidy.named x hx
    exact ⟨k, by dsimp only at hk ⊢; omega, hid⟩
  · refine h.tidy.linkFree k (hk.imp_left fun hlt => ?_)
    dsimp only at hlt ⊢
    omega

theorem joined {x : Session} (h : Scoped l home n target d ⟨s, t⟩) (hn : n < s.serial)
    (hid : x.id = idOf n) (hdir : x.directory = target) :
    Scoped l home n target d ⟨{ s with live := s.live ++ [x] }, t⟩ := by
  refine ⟨⟨h.tidy.start, fun y hy => ?_, fun y hy => ?_, h.tidy.way, fun k hk => ?_⟩, h.path,
    h.place, h.linkFree⟩
  · rcases List.mem_append.mp hy with hy | hy
    · exact h.tidy.named y hy
    · exact ⟨n, hn, List.mem_singleton.mp hy ▸ hid⟩
  · rcases List.mem_append.mp hy with hy | hy
    · exact h.tidy.placed y hy
    · rw [List.mem_singleton.mp hy, hid, hdir]
      exact h.path.symm
  · rcases hk with hk | ⟨y, hy, hyk⟩
    · exact h.tidy.linkFree k (.inl hk)
    · rcases List.mem_append.mp hy with hy | hy
      · exact h.tidy.linkFree k (.inr ⟨y, hy, hyk⟩)
      · rw [List.mem_singleton.mp hy, hid] at hyk
        obtain rfl := idOf_injective hyk
        exact h.place ▸ h.linkFree

theorem erased (h : Scoped l home n target d ⟨s, t⟩) (id : String) :
    Scoped l home n target d ⟨s.erase id, t⟩ := by
  have hsub : ∀ x ∈ (s.erase id).live, x ∈ s.live := fun x hx => (List.mem_filter.mp hx).1
  exact ⟨⟨h.tidy.start, fun x hx => h.tidy.named x (hsub x hx),
    fun x hx => h.tidy.placed x (hsub x hx), h.tidy.way,
    fun k hk => h.tidy.linkFree k (hk.imp_right fun ⟨x, hx, hid⟩ => ⟨x, hsub x hx, hid⟩)⟩,
    h.path, h.place, h.linkFree⟩

/-- Another review changes neither names nor directories. -/
theorem setResult (h : Scoped l home n target d ⟨s, t⟩) (id : String) (r : Review) :
    Scoped l home n target d ⟨s.setResult id r, t⟩ := by
  have hsame : ∀ x ∈ (s.setResult id r).live,
      ∃ y ∈ s.live, y.id = x.id ∧ y.directory = x.directory := by
    intro x hx
    obtain ⟨y, hy, rfl⟩ := List.mem_map.mp hx
    refine ⟨y, hy, ?_⟩
    split_ifs <;> exact ⟨rfl, rfl⟩
  refine ⟨⟨h.tidy.start, fun x hx => ?_, fun x hx => ?_, h.tidy.way, fun k hk => ?_⟩, h.path,
    h.place, h.linkFree⟩
  · obtain ⟨y, hy, hid, -⟩ := hsame x hx
    obtain ⟨k, hk, hyk⟩ := h.tidy.named y hy
    exact ⟨k, hk, hid.symm.trans hyk⟩
  · obtain ⟨y, hy, hid, hdir⟩ := hsame x hx
    rw [← hdir, ← hid]
    exact h.tidy.placed y hy
  · refine h.tidy.linkFree k (hk.imp_right fun ⟨x, hx, hxk⟩ => ?_)
    obtain ⟨y, hy, hid, -⟩ := hsame x hx
    exact ⟨y, hy, hid.trans hxk⟩

end Scoped

/-- What is resolved follows the path from the directory of a session with a number. -/
theorem Tidy.of_resolve {id file : String} (h : Tidy l home p)
    (hq : p.sessions.resolve id file = .ok q) :
    ∃ n x, id = idOf n ∧ p.sessions.find? id = some x ∧
      x.directory = p.sessions.directoryPath (idOf n) ∧ (Path.mk file).isAbsolute = false ∧
      .up ∉ (Path.mk file).components ∧ q = x.directory.child file := by
  obtain ⟨x, hx, -, habs, hup, rfl⟩ := resolve_eq_ok.mp hq
  obtain ⟨n, rfl, hscope⟩ := Scoped.of_find h hx
  exact ⟨n, x, rfl, hx, hscope.directory_of_find hx, habs, hup, rfl⟩

end ReviewMentor
