import Mathlib.Data.List.Nodup
import ReviewMentor.Proofs.Files.Children
import ReviewMentor.Proofs.Sessions.Beside

/-!
# Sessions and their directories

A site is where a store keeps its sessions: a root that exists, and names for the directories to
come that nothing bears yet. Sessions are housed if each one has a directory of its own and the rest
of the tree is that of the site. Beginning a session, removing one and working in the directory of
one keep sessions housed.
-/

namespace ReviewMentor

open FileTree Effect SessionStore

/-! ### Sites -/

/-- Where a store keeps its sessions, before there are any. -/
structure Site where
  root : Path
  namePrefix : String
  start : Place
  files : FileTree
  /-- The place of the root. -/
  home : Place
  found : files.find start true root = .ok home
  isDirectory : files.lookup? home = some .directory
  noSlash : '/' ∉ namePrefix.toList
  unused : ∀ n place, home ++ [namePrefix ++ idOf n] <+: place → files.lookup? place = none

namespace Site

variable {g : Site} {id other : String} {place : Place}

/-- The place of the directory of a session. -/
def placeOf (g : Site) (id : String) : Place := g.home ++ [g.namePrefix ++ id]

/-- The path of the directory of a session. -/
def pathOf (g : Site) (id : String) : Path := g.root.child (g.namePrefix ++ id)

/-- A store without sessions. -/
def opening (g : Site) : Workplace := ⟨.empty g.root g.namePrefix g.start, g.files⟩

theorem isName (g : Site) (n : Nat) : Path.IsName (g.namePrefix ++ idOf n) := by
  have hleaf := (SessionStore.empty g.root g.namePrefix g.start).isName_leaf n
  have hcut : Text.cut '/' g.namePrefix = [g.namePrefix] := Text.cut_of_not_mem g.noSlash
  simpa [leaf, SessionStore.empty, hcut] using hleaf

theorem placeOf_ne_nil : g.placeOf id ≠ [] := by simp [placeOf]

/-- Directories of different sessions share no place. -/
theorem eq_of_below (h : g.placeOf id <+: place) (h' : g.placeOf other <+: place) : id = other := by
  have hpre : g.placeOf id <+: g.placeOf other :=
    List.prefix_of_prefix_length_le h h' (by simp [placeOf])
  have hname : g.namePrefix ++ id = g.namePrefix ++ other := by
    simpa [placeOf] using (List.prefix_append_right_inj _).mp hpre
  exact (String.append_right_inj _).mp hname

end Site

/-! ### Housed sessions -/

/-- Each of the sessions has a directory where its name says, and the rest of the tree is that of
the site. -/
structure Housed (g : Site) (live : List Session) (t : FileTree) : Prop where
  numbered : ∀ x ∈ live, ∃ n, x.id = idOf n
  distinct : (live.map Session.id).Nodup
  placed : ∀ x ∈ live, x.directory = g.pathOf x.id
  fits : ∀ x ∈ live, Fits g.root (g.namePrefix ++ x.id)
  directories : ∀ x ∈ live, t.lookup? (g.placeOf x.id) = some .directory
  elsewhere : ∀ place, (∀ x ∈ live, ¬ g.placeOf x.id <+: place) →
    t.lookup? place = g.files.lookup? place

namespace Housed

variable {g : Site} {live rest : List Session} {t u : FileTree} {x y : Session} {n : Nat}

theorem empty (g : Site) : Housed g [] g.files := by
  refine ⟨?_, List.nodup_nil, ?_, ?_, ?_, fun _ _ => rfl⟩ <;> simp

theorem extending (h : Housed g live t) : Extends g.files t := by
  intro place hplace
  refine h.elsewhere place fun x hx hbelow => ?_
  obtain ⟨n, hn⟩ := h.numbered x hx
  exact hplace (g.unused n place (hn ▸ hbelow))

theorem find_root (h : Housed g live t) : t.find g.start true g.root = .ok g.home :=
  h.extending.find g.found

theorem lookup?_home (h : Housed g live t) : t.lookup? g.home = some .directory := by
  rw [h.extending g.home (by simp [g.isDirectory]), g.isDirectory]

theorem eq_of_id (h : Housed g live t) (hx : x ∈ live) (hy : y ∈ live) (hid : x.id = y.id) :
    x = y :=
  List.inj_on_of_nodup_map h.distinct hx hy hid

/-- The directory of a session is found under its path. -/
theorem find (h : Housed g live t) (hx : x ∈ live) (last : Bool) :
    t.find g.start last x.directory = .ok (g.placeOf x.id) := by
  obtain ⟨n, hn⟩ := h.numbered x hx
  have hname : Path.IsName (g.namePrefix ++ x.id) := hn ▸ g.isName n
  rw [h.placed x hx]
  exact find_child h.find_root h.lookup?_home hname (h.fits x hx) (h.directories x hx)

/-- Nothing stands where the directory of another session will be. -/
theorem lookup?_unused (h : Housed g live t) (hn : ∀ x ∈ live, x.id ≠ idOf n) {place : Place}
    (hplace : g.placeOf (idOf n) <+: place) : t.lookup? place = none := by
  rw [h.elsewhere place fun x hx hbelow => hn x hx (Site.eq_of_below hbelow hplace)]
  exact g.unused n place hplace

/-- The new directory of a session holds nothing. -/
theorem linkFree_unused (h : Housed g live t) (hn : ∀ x ∈ live, x.id ≠ idOf n) :
    LinkFree (t.set (g.placeOf (idOf n)) .directory) (g.placeOf (idOf n)) := by
  intro place hplace target hlink
  by_cases heq : place = g.placeOf (idOf n)
  · rw [heq, lookup?_set_self Site.placeOf_ne_nil] at hlink
    simp at hlink
  · rw [lookup?_set_of_ne Site.placeOf_ne_nil heq, h.lookup?_unused hn hplace] at hlink
    simp at hlink

/-- Taking away what came to stand in a new directory leaves the tree as it was. -/
theorem lookup?_drop_unused (h : Housed g live t) (hn : ∀ x ∈ live, x.id ≠ idOf n)
    (hkeep : ∀ place, ¬ g.placeOf (idOf n) <+: place → u.lookup? place = t.lookup? place)
    (place : Place) : (u.drop (g.placeOf (idOf n))).lookup? place = t.lookup? place := by
  by_cases hbelow : g.placeOf (idOf n) <+: place
  · have hne : place ≠ [] := by
      rintro rfl
      exact Site.placeOf_ne_nil (List.prefix_nil.mp hbelow)
    rw [lookup?_drop_below hbelow hne, h.lookup?_unused hn hbelow]
  · rw [lookup?_drop_beside hbelow, hkeep place hbelow]

theorem removal_eq (h : Housed g live t) (hx : x ∈ live) :
    SessionWork.removal g.start x.directory t = .ok (t.drop (g.placeOf x.id)) := by
  obtain ⟨n, hn⟩ := h.numbered x hx
  have hname : Path.IsName (g.namePrefix ++ x.id) := hn ▸ g.isName n
  have hremove := removeDirectory_child h.find_root h.lookup?_home hname (h.fits x hx)
    (h.directories x hx)
  rw [h.placed x hx, SessionWork.removal, Site.pathOf, hremove]
  rfl

/-! ### Changes -/

theorem join (h : Housed g live t) (hid : x.id = idOf n) (hn : ∀ y ∈ live, y.id ≠ idOf n)
    (hplaced : x.directory = g.pathOf x.id) (hfits : Fits g.root (g.namePrefix ++ x.id)) :
    Housed g (live ++ [x]) (t.set (g.placeOf x.id) .directory) := by
  have hnew : ∀ y ∈ live, g.placeOf y.id ≠ g.placeOf x.id := by
    intro y hy heq
    have hbelow : g.placeOf x.id <+: g.placeOf y.id := heq ▸ List.prefix_refl (g.placeOf y.id)
    have hsame : y.id = x.id := Site.eq_of_below (List.prefix_refl _) hbelow
    exact hn y hy (hsame.trans hid)
  have hmem : ∀ y ∈ live ++ [x], y ∈ live ∨ y = x := fun y hy => by simpa using hy
  refine ⟨fun y hy => ?_, ?_, fun y hy => ?_, fun y hy => ?_, fun y hy => ?_, fun place hp => ?_⟩
  · rcases hmem y hy with hy | rfl
    · exact h.numbered y hy
    · exact ⟨n, hid⟩
  · rw [List.map_append, List.nodup_append]
    refine ⟨h.distinct, by simp, fun a ha b hb => ?_⟩
    obtain ⟨y, hy, rfl⟩ := List.mem_map.mp ha
    obtain rfl : b = x.id := by simpa using hb
    exact hid ▸ hn y hy
  · rcases hmem y hy with hy | rfl
    · exact h.placed y hy
    · exact hplaced
  · rcases hmem y hy with hy | rfl
    · exact h.fits y hy
    · exact hfits
  · rcases hmem y hy with hy | rfl
    · rw [lookup?_set_of_ne Site.placeOf_ne_nil (hnew y hy)]
      exact h.directories y hy
    · exact lookup?_set_self Site.placeOf_ne_nil
  · have hbeside : place ≠ g.placeOf x.id := by
      rintro rfl
      exact hp x (by simp) (List.prefix_refl _)
    rw [lookup?_set_of_ne Site.placeOf_ne_nil hbeside]
    exact h.elsewhere place fun y hy => hp y (List.mem_append_left _ hy)

/-- Taking the directory of a session away leaves the others housed. -/
theorem drop (h : Housed g live t) (hx : x ∈ live) :
    Housed g (live.filter (·.id ≠ x.id)) (t.drop (g.placeOf x.id)) := by
  have hmem : ∀ y, y ∈ live.filter (·.id ≠ x.id) ↔ y ∈ live ∧ y.id ≠ x.id := by simp
  have hsub : ((live.filter (·.id ≠ x.id)).map Session.id).Sublist (live.map Session.id) :=
    List.filter_sublist.map _
  refine ⟨fun y hy => h.numbered y ((hmem y).mp hy).1, h.distinct.sublist hsub,
    fun y hy => h.placed y ((hmem y).mp hy).1, fun y hy => h.fits y ((hmem y).mp hy).1,
    fun y hy => ?_, fun place hp => ?_⟩
  · obtain ⟨hy, hne⟩ := (hmem y).mp hy
    have hbeside : ¬ g.placeOf x.id <+: g.placeOf y.id := fun hbelow =>
      hne (Site.eq_of_below (List.prefix_refl _) hbelow)
    rw [lookup?_drop_beside hbeside]
    exact h.directories y hy
  · by_cases hbelow : g.placeOf x.id <+: place
    · -- nothing is left there, and nothing was there before the session began
      obtain ⟨n, hn⟩ := h.numbered x hx
      have hne : place ≠ [] := by
        rintro rfl
        exact Site.placeOf_ne_nil (List.prefix_nil.mp hbelow)
      rw [lookup?_drop_below hbelow hne, g.unused n place (hn ▸ hbelow)]
    · rw [lookup?_drop_beside hbelow]
      refine h.elsewhere place fun y hy hy' => ?_
      by_cases hid : y.id = x.id
      · exact hbelow (hid ▸ hy')
      · exact hp y ((hmem y).mpr ⟨hy, hid⟩) hy'

/-- Work in the directory of a session that leaves it a directory. -/
theorem inside (h : Housed g live t) (hx : x ∈ live)
    (hdir : u.lookup? (g.placeOf x.id) = some .directory)
    (hkeep : ∀ place, ¬ g.placeOf x.id <+: place → u.lookup? place = t.lookup? place) :
    Housed g live u := by
  refine ⟨h.numbered, h.distinct, h.placed, h.fits, fun y hy => ?_, fun place hp => ?_⟩
  · by_cases hid : y.id = x.id
    · rw [hid]
      exact hdir
    · have hbeside : ¬ g.placeOf x.id <+: g.placeOf y.id := fun hbelow =>
        hid (Site.eq_of_below (List.prefix_refl _) hbelow)
      rw [hkeep _ hbeside]
      exact h.directories y hy
  · rw [hkeep place (hp x hx)]
    exact h.elsewhere place hp

/-- Only names and directories of sessions matter. -/
theorem congr (h : Housed g live t) {other : List Session}
    (hids : other.map Session.id = live.map Session.id)
    (hsame : ∀ y ∈ other, ∃ x ∈ live, x.id = y.id ∧ x.directory = y.directory) :
    Housed g other t := by
  refine ⟨fun y hy => ?_, hids ▸ h.distinct, fun y hy => ?_, fun y hy => ?_, fun y hy => ?_,
    fun place hp => h.elsewhere place fun x hx => ?_⟩
  · obtain ⟨x, hx, hid, -⟩ := hsame y hy
    exact hid ▸ h.numbered x hx
  · obtain ⟨x, hx, hid, hdir⟩ := hsame y hy
    rw [← hdir, ← hid]
    exact h.placed x hx
  · obtain ⟨x, hx, hid, -⟩ := hsame y hy
    exact hid ▸ h.fits x hx
  · obtain ⟨x, hx, hid, -⟩ := hsame y hy
    exact hid ▸ h.directories x hx
  · obtain ⟨y, hy, hid⟩ : ∃ y ∈ other, y.id = x.id := by
      have hmem : x.id ∈ other.map Session.id := hids ▸ List.mem_map_of_mem hx
      simpa using hmem
    exact hid ▸ hp y hy

end Housed

end ReviewMentor
