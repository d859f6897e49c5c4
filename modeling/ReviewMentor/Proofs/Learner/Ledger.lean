import Mathlib.Data.List.Induction
import ReviewMentor.Proofs.Files.Contents
import ReviewMentor.Proofs.Learner.Settled

/-!
# Requests to one store

Updates of profiles take the lock of their store, read a profile, change it, write it beside its
file, move it over the file and give the lock back; looks at profiles take no lock. Their steps may
be taken in any order. Whatever the order is, the updates of a learner are applied one after the
other as they took the lock, and every look sees the profile as some of them left it.
-/

namespace ReviewMentor

open FileTree Effect ProfileStore

/-- A request to a store. -/
inductive Inquiry where
  | look (user : String)
  | update (user : String) (change : Profile.Change)

/-- The change that a request makes to the profile of a learner. -/
def Inquiry.changeFor? (user : String) : Inquiry → Option Profile.Change
  | .look _ => none
  | .update other change => if other = user then some change else none

/-- The profile after changes. -/
def Profile.after (changes : List Profile.Change) (p : Profile) : Profile :=
  changes.foldl (fun p c => c.apply p) p

/-- How far a request has come. -/
inductive Progress where
  | waiting
  | locked
  /-- It has read the profile and changed it. -/
  | changed (p : Profile)
  /-- There is room for the profile. -/
  | ready (p : Profile)
  /-- The profile is written beside its file. -/
  | written (p : Profile)
  /-- The profile is stored, or the request has failed. -/
  | ended (result : Except ProfileError Profile)
  | answered (result : Except ProfileError Profile)

/-- Whether a request has the lock. -/
def Progress.hasLock : Progress → Bool
  | .waiting | .answered _ => false
  | _ => true

/-- Whether a request has done what it was made for. -/
def Progress.isStored : Progress → Bool
  | .ended (.ok _) | .answered (.ok _) => true
  | _ => false

/-- The files of a store while requests are worked on. -/
structure Ledger where
  files : FileTree
  progress : Nat → Progress
  /-- The request that has the lock. -/
  holder : Option Nat
  /-- The requests that took the lock, one after the other. -/
  taken : List Nat

namespace Ledger

/-- No request has begun. -/
def start (t : FileTree) : Ledger := ⟨t, fun _ => .waiting, none, []⟩

/-- A request has come further. -/
def moved (x : Ledger) (i : Nat) (next : Progress) (files : FileTree) : Ledger :=
  { x with files, progress := Function.update x.progress i next }

/-- A request works on the files, and comes further unless it fails. -/
def works (x : Ledger) (i : Nat) (w : Disk ProfileError Unit) (next : Progress) : Ledger :=
  x.moved i
    (match outcome w x.files with
      | .ok _ => next
      | .error e => .ended (.error e))
    (after w x.files)

/-- A request takes the lock. -/
def locks (x : Ledger) (i : Nat) : Ledger :=
  { x.moved i .locked x.files with holder := some i, taken := x.taken ++ [i] }

/-- A request gives the lock back. -/
def releases (x : Ledger) (i : Nat) (result : Except ProfileError Profile) : Ledger :=
  { x.moved i (.answered result) x.files with holder := none }

section Steps

variable (s : ProfileStore) (start : Place) (inquiries : List Inquiry)

/-- A step of one request. -/
def step (i : Nat) (x : Ledger) : Ledger :=
  match inquiries[i]?, x.progress i with
  | some (.look user), .waiting => x.moved i (.answered (s.get start user x.files)) x.files
  | some (.update _ _), .waiting => if x.holder = none then x.locks i else x
  | some (.update user change), .locked =>
    x.moved i
      (match s.get start user x.files with
        | .ok p => .changed (change.apply p)
        | .error e => .ended (.error e))
      x.files
  | some (.update _ _), .changed p => x.works i (s.enter start p) (.ready p)
  | some (.update _ _), .ready p => x.works i (s.writeBeside start p) (.written p)
  | some (.update _ _), .written p => x.works i (s.moveOver start p.user) (.ended (.ok p))
  | some (.update _ _), .ended result => x.releases i result
  | _, _ => x

/-- Steps of requests in some order. -/
def run (order : List Nat) (x : Ledger) : Ledger :=
  order.foldl (fun x i => x.step s start inquiries i) x

/-- The changes of a learner's profile that are stored, in the order in which the lock was taken. -/
def changes (x : Ledger) (user : String) : List Profile.Change :=
  (x.taken.filter fun i => (x.progress i).isStored).filterMap fun i =>
    inquiries[i]?.bind (Inquiry.changeFor? user)

end Steps

variable {s : ProfileStore} {start : Place} {inquiries : List Inquiry} {t u : FileTree}
  {x y : Ledger} {i j : Nat} {user other : String} {change : Profile.Change} {p : Profile}
  {result : Except ProfileError Profile} {next : Progress} {files : FileTree}

theorem run_concat (order : List Nat) (i : Nat) (x : Ledger) :
    x.run s start inquiries (order ++ [i]) =
      (x.run s start inquiries order).step s start inquiries i := by
  rw [run, List.foldl_append]
  rfl

@[simp] theorem progress_moved_self (x : Ledger) (i : Nat) (next : Progress) (files : FileTree) :
    (x.moved i next files).progress i = next := Function.update_self ..

@[simp] theorem files_moved (x : Ledger) (i : Nat) (next : Progress) (files : FileTree) :
    (x.moved i next files).files = files := rfl

@[simp] theorem progress_locks_self (x : Ledger) (i : Nat) : (x.locks i).progress i = .locked :=
  Function.update_self ..

@[simp] theorem progress_releases_self (x : Ledger) (i : Nat)
    (result : Except ProfileError Profile) :
    (x.releases i result).progress i = .answered result := Function.update_self ..

theorem progress_moved_of_ne (h : j ≠ i) :
    (x.moved i next files).progress j = x.progress j := Function.update_of_ne h ..

@[simp] theorem moved_moved (x : Ledger) (i : Nat) (next later : Progress)
    (files newer : FileTree) :
    (x.moved i next files).moved i later newer = x.moved i later newer := by
  simp [moved]

theorem progress_locks_of_ne (h : j ≠ i) : (x.locks i).progress j = x.progress j :=
  Function.update_of_ne h ..

theorem progress_releases_of_ne (h : j ≠ i) : (x.releases i result).progress j = x.progress j :=
  Function.update_of_ne h ..

/-! ### One request alone -/

section Alone

variable (hi : inquiries[i]? = some (.update user change))

include hi

theorem step_waiting (hx : x.progress i = .waiting) (hfree : x.holder = none) :
    x.step s start inquiries i = x.locks i := by
  simp only [step, hi, hx, hfree, if_true]

theorem step_locked (hx : x.progress i = .locked) : x.step s start inquiries i =
    x.moved i
      (match s.get start user x.files with
        | .ok p => .changed (change.apply p)
        | .error e => .ended (.error e))
      x.files := by
  simp only [step, hi, hx]

theorem step_changed (hx : x.progress i = .changed p) :
    x.step s start inquiries i = x.works i (s.enter start p) (.ready p) := by
  simp only [step, hi, hx]

theorem step_ready (hx : x.progress i = .ready p) :
    x.step s start inquiries i = x.works i (s.writeBeside start p) (.written p) := by
  simp only [step, hi, hx]

theorem step_written (hx : x.progress i = .written p) :
    x.step s start inquiries i = x.works i (s.moveOver start p.user) (.ended (.ok p)) := by
  simp only [step, hi, hx]

theorem step_ended (hx : x.progress i = .ended result) :
    x.step s start inquiries i = x.releases i result := by
  simp only [step, hi, hx]

theorem step_answered (hx : x.progress i = .answered result) :
    x.step s start inquiries i = x := by
  simp only [step, hi, hx]

/-- A request that has stored its profile or failed gives the lock back and is answered. -/
theorem run_ended (hx : x.progress i = .ended result) (more : Nat) :
    x.run s start inquiries (i :: List.replicate more i) = x.releases i result := by
  rw [run, List.foldl_cons, step_ended hi hx]
  induction more with
  | zero => rfl
  | succ more ih =>
    rw [List.replicate_succ, List.foldl_cons, step_answered hi (progress_releases_self ..)]
    exact ih

/-- A request that works on the files goes on, or is answered that it failed. -/
theorem run_works {w : Disk ProfileError Unit}
    (hstep : x.step s start inquiries i = x.works i w next) (more : Nat) :
    x.run s start inquiries (i :: List.replicate (more + 1) i) =
      match outcome w x.files with
      | .ok _ => (x.moved i next (after w x.files)).run s start inquiries
        (List.replicate (more + 1) i)
      | .error e => (x.moved i (.ended (.error e)) (after w x.files)).releases i (.error e) := by
  rw [run, List.foldl_cons, hstep, works]
  rcases outcome w x.files with e | ⟨⟩
  · exact run_ended hi (progress_moved_self ..) more
  · rfl

/-- Storing a changed profile, step by step. -/
theorem run_save (hx : x.progress i = .changed p) :
    x.run s start inquiries (i :: List.replicate 3 i) =
      (x.moved i .locked (after (s.save start p) x.files)).releases i
        ((outcome (s.save start p) x.files).map fun _ => p) := by
  have hmoved (next : Progress) (files : FileTree) (result : Except ProfileError Profile) :
      (x.moved i next files).releases i result = (x.moved i .locked files).releases i result := by
    rw [releases, releases, moved_moved, moved_moved]
    rfl
  rw [ProfileStore.save_steps, run_works hi (step_changed hi hx)]
  rcases henter : outcome (s.enter start p) x.files with e | ⟨⟩
  · rw [after_bind_error henter, outcome_bind_error henter]
    exact hmoved _ _ _
  rw [after_bind_ok henter, outcome_bind_ok henter]
  generalize after (s.enter start p) x.files = files
  dsimp only
  rw [List.replicate_succ, run_works hi (step_ready hi (progress_moved_self ..)), files_moved]
  rcases hwrite : outcome (s.writeBeside start p) files with e | ⟨⟩
  · rw [after_bind_error hwrite, outcome_bind_error hwrite]
    dsimp only
    rw [moved_moved]
    exact hmoved _ _ _
  rw [after_bind_ok hwrite, outcome_bind_ok hwrite]
  generalize after (s.writeBeside start p) files = files
  dsimp only
  rw [moved_moved, List.replicate_succ, run_works hi (step_written hi (progress_moved_self ..)),
    files_moved]
  rcases hmove : outcome (s.moveOver start p.user) files with e | ⟨⟩
  · dsimp only
    rw [moved_moved]
    exact hmoved _ _ _
  dsimp only
  rw [moved_moved, List.replicate_succ, run_ended hi (progress_moved_self ..)]
  exact hmoved _ _ _

/-- **A request whose steps are taken one after the other does what an update does.** -/
theorem run_alone (hx : x.progress i = .waiting) (hfree : x.holder = none) :
    let y := x.run s start inquiries [i, i, i, i, i, i]
    y.files = after (s.update start user change.apply) x.files ∧
      y.progress i = .answered (outcome (s.update start user change.apply) x.files) ∧
      y.holder = none := by
  intro y
  have hrun : y = ((x.step s start inquiries i).step s start inquiries i).run s start inquiries
      (i :: List.replicate 3 i) := rfl
  rw [step_waiting hi hx hfree, step_locked hi (progress_locks_self ..)] at hrun
  rw [hrun]
  clear hrun y
  unfold ProfileStore.update
  have hfiles : (x.locks i).files = x.files := rfl
  rw [hfiles]
  rcases hget : s.get start user x.files with e | p
  · have hask : outcome (Disk.ask (s.get start user)) x.files = .error e := hget
    rw [after_bind_error hask, outcome_bind_error hask, run_ended hi (progress_moved_self ..) 3]
    exact ⟨rfl, progress_releases_self .., rfl⟩
  have hask : outcome (Disk.ask (s.get start user)) x.files = .ok p := hget
  have hsame : after (Disk.ask (s.get start user)) x.files = x.files := rfl
  rw [after_bind_ok hask, outcome_bind_ok hask, hsame, run_save hi (progress_moved_self ..)]
  dsimp only
  rw [after_bind_pure]
  refine ⟨rfl, ?_, rfl⟩
  rw [progress_releases_self]
  show Progress.answered ((outcome (s.save start (change.apply p)) x.files).map _) = _
  rcases hsave : outcome (s.save start (change.apply p)) x.files with e | ⟨⟩
  · rw [outcome_bind_error hsave]
    rfl
  · rw [outcome_bind_ok hsave]
    rfl

/-- The first steps of an update make room for what is to be stored. -/
theorem files_run_enter (hx : x.progress i = .waiting) (hfree : x.holder = none)
    (hget : s.get start user x.files = .ok p) :
    (x.run s start inquiries [i, i, i]).files = after (s.enter start (change.apply p)) x.files := by
  have hrun : x.run s start inquiries [i, i, i] =
      ((x.step s start inquiries i).step s start inquiries i).step s start inquiries i := rfl
  have hfiles : (x.locks i).files = x.files := rfl
  rw [hrun, step_waiting hi hx hfree, step_locked hi (progress_locks_self ..), hfiles, hget,
    step_changed hi (progress_moved_self ..)]
  rfl

end Alone

/-! ### What a step keeps -/

section Keeping

variable (s : ProfileStore) (start : Place) (inquiries : List Inquiry)

/-- What is known of the profile that a request is about to store. -/
def Pending (user : String) (change : Profile.Change) (files : FileTree) : Progress → Prop
  | .changed p | .ready p => ∃ old, s.get start user files = .ok old ∧ p = change.apply old
  | .written p => (∃ old, s.get start user files = .ok old ∧ p = change.apply old) ∧
    ∃ t, s.Settled start t ∧ t.writeText start (s.stagingOf user) p.toJson.pretty = .ok files
  | _ => True

/-- One request at a time has the lock, it took the lock last, and what it is about to store is the
changed profile. -/
structure Orderly (x : Ledger) : Prop where
  settled : s.Settled start x.files
  once : x.taken.Nodup
  holder : ∀ i, (x.progress i).hasLock = true ↔ x.holder = some i
  last : ∀ i, x.holder = some i → ∃ before, x.taken = before ++ [i]
  begun : ∀ i ∈ x.taken, (x.progress i) ≠ .waiting
  taken : ∀ i user change, inquiries[i]? = some (.update user change) →
    x.progress i ≠ .waiting → i ∈ x.taken
  pending : ∀ i user change, inquiries[i]? = some (.update user change) →
    Pending s start user change x.files (x.progress i)

/-- What a step of a request does to what is returned. -/
inductive Turn (i : Nat) (x y : Ledger) : Prop
  | quiet : s.SameAnswers start x.files y.files →
      (∀ user, y.changes inquiries user = x.changes inquiries user) → Turn i x y
  | stores {user : String} {change : Profile.Change} :
      inquiries[i]? = some (.update user change) → (y.progress i).isStored = true →
      (∀ other, other ≠ user → s.get start other y.files = s.get start other x.files ∧
        y.changes inquiries other = x.changes inquiries other) →
      s.get start user y.files = (s.get start user x.files).map change.apply →
      y.changes inquiries user = x.changes inquiries user ++ [change] → Turn i x y

end Keeping

theorem orderly_start (h : s.Settled start t) : Orderly s start inquiries (.start t) where
  settled := h
  once := .nil
  holder i := by simp [Ledger.start, Progress.hasLock]
  last i hi := absurd hi (by simp [Ledger.start])
  begun i hi := absurd hi (by simp [Ledger.start])
  taken i user change _ hx := absurd rfl hx
  pending i user change _ := trivial

theorem changes_congr (htaken : y.taken = x.taken)
    (h : ∀ j ∈ x.taken, (y.progress j).isStored = (x.progress j).isStored) (user : String) :
    y.changes inquiries user = x.changes inquiries user := by
  rw [changes, changes, htaken]
  exact congrArg _ (List.filter_congr h)

theorem changes_locks (hnew : i ∉ x.taken) (user : String) :
    (x.locks i).changes inquiries user = x.changes inquiries user := by
  have htaken : (x.locks i).taken = x.taken ++ [i] := rfl
  have hbefore : x.taken.filter (fun j => ((x.locks i).progress j).isStored) =
      x.taken.filter fun j => (x.progress j).isStored :=
    List.filter_congr fun j hj => by
      rw [progress_locks_of_ne (ne_of_mem_of_not_mem hj hnew)]
  rw [changes, changes, htaken, List.filter_append, hbefore,
    List.filter_cons_of_neg (by simp [Progress.isStored]), List.filter_nil, List.append_nil]

/-- What was stored last is added at the end. -/
theorem changes_stored (inquiries : List Inquiry) (files : FileTree) {before : List Nat}
    (htaken : x.taken = before ++ [i])
    (honce : x.taken.Nodup) (hx : (x.progress i).isStored = false) (hnext : next.isStored = true)
    (user : String) : (x.moved i next files).changes inquiries user =
      x.changes inquiries user ++ (inquiries[i]?.bind (Inquiry.changeFor? user)).toList := by
  have hbefore : before.filter (fun j => ((x.moved i next files).progress j).isStored) =
      before.filter fun j => (x.progress j).isStored := by
    refine List.filter_congr fun j hj => ?_
    have hji : j ≠ i := by
      rintro rfl
      rw [htaken] at honce
      exact (List.nodup_append.mp honce).2.2 j hj j (by simp) rfl
    rw [progress_moved_of_ne hji]
  have htaken' : (x.moved i next files).taken = before ++ [i] := htaken
  rw [changes, changes, htaken', htaken, List.filter_append, List.filter_append, hbefore,
    List.filter_cons_of_pos (by rw [progress_moved_self, hnext]),
    List.filter_cons_of_neg (by simp [hx])]
  simp only [List.filter_nil, List.append_nil, List.filterMap_append]
  rcases hchange : inquiries[i]?.bind (Inquiry.changeFor? user) with _ | c <;> simp [hchange]

theorem pending_of_not_hasLock (h : next.hasLock = false) :
    Pending s start user change files next := by
  cases next with
  | waiting | answered => trivial
  | _ => exact absurd h (by simp [Progress.hasLock])

/-- A request comes further without storing anything. -/
theorem turn_moved (hsame : s.SameAnswers start x.files files)
    (hstored : next.isStored = (x.progress i).isStored ∨ i ∉ x.taken) :
    Turn s start inquiries i x (x.moved i next files) := by
  refine .quiet hsame (changes_congr rfl fun j hj => ?_)
  rcases eq_or_ne j i with rfl | hji
  · rw [progress_moved_self]
    exact hstored.resolve_right (absurd hj)
  · rw [progress_moved_of_ne hji]

namespace Orderly

variable (h : Orderly s start inquiries x)

include h

/-- No other request has the lock. -/
theorem hasLock_of_ne (hlock : (x.progress i).hasLock = true) (hji : j ≠ i) :
    (x.progress j).hasLock = false := by
  by_contra hother
  have hholder := (h.holder i).mp hlock
  rw [(h.holder j).mp (by simpa using hother)] at hholder
  exact hji (Option.some.inj hholder)

/-- A request comes further and neither takes the lock nor gives it back. -/
theorem moved (hlock : next.hasLock = (x.progress i).hasLock) (hnext : next ≠ .waiting)
    (hsettled : s.Settled start files) (hfiles : (x.progress i).hasLock = true ∨ files = x.files)
    (hupdate : ∀ user change, inquiries[i]? = some (.update user change) →
      i ∈ x.taken ∧ Pending s start user change files next) :
    Orderly s start inquiries (x.moved i next files) := by
  refine ⟨hsettled, h.once, fun j => ?_, h.last, fun j hj => ?_, fun j user change hj hx => ?_,
    fun j user change hj => ?_⟩ <;> rcases eq_or_ne j i with rfl | hji
  · rw [progress_moved_self, hlock]
    exact h.holder j
  · rw [progress_moved_of_ne hji]
    exact h.holder j
  · rwa [progress_moved_self]
  · rw [progress_moved_of_ne hji]
    exact h.begun j hj
  · exact (hupdate user change hj).1
  · exact h.taken j user change hj (progress_moved_of_ne hji ▸ hx)
  · rw [progress_moved_self]
    exact (hupdate user change hj).2
  · rw [progress_moved_of_ne hji]
    rcases hfiles with hhas | rfl
    · exact pending_of_not_hasLock (h.hasLock_of_ne hhas hji)
    · exact h.pending j user change hj

/-- A request takes the lock. -/
theorem locks (hi : inquiries[i]? = some (.update user change)) (hx : x.progress i = .waiting)
    (hfree : x.holder = none) : Orderly s start inquiries (x.locks i) := by
  have hlocks (j : Nat) : (x.progress j).hasLock = false := by
    by_contra hlock
    rw [(h.holder j).mp (by simpa using hlock)] at hfree
    exact absurd hfree (by simp)
  have hnew : i ∉ x.taken := fun hmem => h.begun i hmem hx
  refine ⟨h.settled, ?_, fun j => ?_, fun j hj => ?_, fun j hj => ?_, fun j user change hj hx => ?_,
    fun j user change hj => ?_⟩
  · exact List.nodup_append.mpr ⟨h.once, by simp, fun a ha b hb hab => by
      obtain rfl := List.mem_singleton.mp hb
      exact hnew (hab ▸ ha)⟩
  · rcases eq_or_ne j i with rfl | hji
    · rw [progress_locks_self]
      exact ⟨fun _ => rfl, fun _ => rfl⟩
    · rw [progress_locks_of_ne hji, hlocks j]
      exact ⟨fun h => absurd h (by simp), fun h => absurd (Option.some.inj h).symm hji⟩
  · obtain rfl := Option.some.inj hj
    exact ⟨x.taken, rfl⟩
  · rcases eq_or_ne j i with rfl | hji
    · rw [progress_locks_self]
      simp
    · rw [progress_locks_of_ne hji]
      exact h.begun j ((List.mem_append.mp hj).resolve_right (by simpa using hji))
  · rcases eq_or_ne j i with rfl | hji
    · exact List.mem_append_right _ (by simp)
    · exact List.mem_append_left _ (h.taken j user change hj (progress_locks_of_ne hji ▸ hx))
  · rcases eq_or_ne j i with rfl | hji
    · rw [progress_locks_self]
      trivial
    · rw [progress_locks_of_ne hji]
      exact pending_of_not_hasLock (hlocks j)

/-- A request gives the lock back. -/
theorem releases (hlock : (x.progress i).hasLock = true) :
    Orderly s start inquiries (x.releases i result) := by
  refine ⟨h.settled, h.once, fun j => ?_, fun j hj => absurd hj (by simp [Ledger.releases]),
    fun j hj => ?_, fun j user change hj hx => ?_, fun j user change hj => ?_⟩ <;>
    rcases eq_or_ne j i with rfl | hji
  · simp [Progress.hasLock, Ledger.releases]
  · rw [progress_releases_of_ne hji, h.hasLock_of_ne hlock hji]
    simp [Ledger.releases]
  · simp
  · rw [progress_releases_of_ne hji]
    exact h.begun j hj
  · refine h.taken j user change hj fun hwaiting => ?_
    rw [hwaiting] at hlock
    exact absurd hlock (by simp [Progress.hasLock])
  · exact h.taken j user change hj (progress_releases_of_ne hji ▸ hx)
  · rw [progress_releases_self]
    trivial
  · rw [progress_releases_of_ne hji]
    exact h.pending j user change hj

/-! ### What a step does -/

/-- Work on the files that leaves everything to be returned as it is. -/
theorem works {w : Disk ProfileError Unit} (hi : inquiries[i]? = some (.update user change))
    (hlock : (x.progress i).hasLock = true) (hx : (x.progress i).isStored = false)
    (hnext : next.hasLock = true) (hstored : next.isStored = false)
    (hsettled : s.Settled start (after w x.files))
    (hsame : s.SameAnswers start x.files (after w x.files))
    (hpending : outcome w x.files = .ok () →
      Pending s start user change (after w x.files) next) :
    Orderly s start inquiries (x.works i w next) ∧
      Turn s start inquiries i x (x.works i w next) := by
  have htaken : i ∈ x.taken := h.taken i user change hi fun hwaiting => by
    rw [hwaiting] at hlock
    exact absurd hlock (by simp [Progress.hasLock])
  have hpend (next : Progress) (hp : Pending s start user change (after w x.files) next)
      (user' : String) (change' : Profile.Change)
      (hi' : inquiries[i]? = some (.update user' change')) :
      i ∈ x.taken ∧ Pending s start user' change' (after w x.files) next := by
    obtain ⟨rfl, rfl⟩ := Inquiry.update.inj (Option.some.inj (hi.symm.trans hi'))
    exact ⟨htaken, hp⟩
  unfold Ledger.works
  rcases houtcome : outcome w x.files with e | ⟨⟩
  · refine ⟨h.moved ?_ (by simp) hsettled (.inl hlock) (hpend _ trivial),
      turn_moved hsame (.inl ?_)⟩
    · rw [hlock]
      rfl
    · rw [hx]
      rfl
  · refine ⟨h.moved ?_ ?_ hsettled (.inl hlock) (hpend _ (hpending houtcome)),
      turn_moved hsame (.inl ?_)⟩
    · rw [hlock, hnext]
    · rintro rfl
      exact absurd hnext (by simp [Progress.hasLock])
    · rw [hx, hstored]

/-- Moving the written profile over its file stores the change. -/
theorem stores (hi : inquiries[i]? = some (.update user change)) (hx : x.progress i = .written p) :
    Orderly s start inquiries (x.works i (s.moveOver start p.user) (.ended (.ok p))) ∧
      Turn s start inquiries i x (x.works i (s.moveOver start p.user) (.ended (.ok p))) := by
  have hpending := h.pending i user change hi
  rw [hx] at hpending
  obtain ⟨⟨old, hget, rfl⟩, t, ht, hwrite⟩ := hpending
  have huser : isUser user = true := isUser_of_get hget
  have hname : (change.apply old).user = user := (change.user old).trans (user_of_get hget)
  have hlock : (x.progress i).hasLock = true := by rw [hx]; rfl
  have hunstored : (x.progress i).isStored = false := by rw [hx]; rfl
  rcases change_cases (fun t => t.rename start (s.stagingOf (change.apply old).user)
      (s.fileOf (change.apply old).user)) x.files with
    ⟨v, hrename, hafter, houtcome⟩ | ⟨cause, -, hafter, houtcome⟩ <;>
    change after (s.moveOver start (change.apply old).user) x.files = _ at hafter <;>
    change outcome (s.moveOver start (change.apply old).user) x.files = _ at houtcome
  · rw [Ledger.works, houtcome, hafter]
    rw [hname] at hrename
    obtain ⟨hsettled, hread, hothers⟩ := ht.move huser hwrite hrename
    have hstorable := change.storable _ (Profile.storable_of_get hget)
    have hstored : s.get start user v = .ok (change.apply old) :=
      get_of_readText huser hstorable hname (.inr rfl) hread
    obtain ⟨before, htaken⟩ := h.last i ((h.holder i).mp hlock)
    have hdone : (Progress.ended (.ok (change.apply old))).isStored = true := rfl
    have hchanges := changes_stored inquiries v htaken h.once hunstored hdone
    refine ⟨h.moved (by rw [hlock]; rfl) (by simp) hsettled (.inl hlock)
        fun user' change' hi' => ?_,
      .stores hi (by rw [progress_moved_self]; rfl)
        (fun other hne => ⟨hothers other hne, ?_⟩) ?_ ?_⟩
    · exact ⟨by rw [htaken]; simp, trivial⟩
    · rw [hchanges, hi]
      simp [Inquiry.changeFor?, Ne.symm hne]
    · rw [files_moved, hstored, hget]
      rfl
    · rw [hchanges, hi]
      simp [Inquiry.changeFor?]
  · rw [Ledger.works, houtcome, hafter]
    refine ⟨h.moved (by rw [hlock]; rfl) (by simp) h.settled (.inl hlock)
      fun user' change' hi' => ⟨?_, trivial⟩, turn_moved (fun _ => rfl) (.inl ?_)⟩
    · refine h.taken i user' change' hi' ?_
      rw [hx]
      simp
    · rw [hunstored]
      rfl

/-- **A step of a request leaves the store in order, and changes what is returned of a learner only
by storing a change of that profile.** -/
theorem step (i : Nat) : Orderly s start inquiries (x.step s start inquiries i) ∧
    Turn s start inquiries i x (x.step s start inquiries i) := by
  have hsame : s.SameAnswers start x.files x.files := fun _ => rfl
  unfold Ledger.step
  split
  · next user hi hx =>
    refine ⟨h.moved (by rw [hx]; rfl) (by simp) h.settled (.inr rfl) fun user' change hi' => ?_,
      turn_moved hsame (.inr fun hmem => h.begun i hmem hx)⟩
    exact absurd (hi.symm.trans hi') (by simp)
  · next user change hi hx =>
    split
    · next hfree =>
      have hnew : i ∉ x.taken := fun hmem => h.begun i hmem hx
      exact ⟨h.locks hi hx hfree, .quiet hsame fun user => changes_locks hnew user⟩
    · exact ⟨h, .quiet hsame fun _ => rfl⟩
  · next user change hi hx =>
    have htaken : i ∈ x.taken := h.taken i user change hi (by rw [hx]; simp)
    rcases hget : s.get start user x.files with e | p
    · refine ⟨h.moved (by rw [hx]; rfl) (by simp) h.settled (.inr rfl)
        fun _ _ _ => ⟨htaken, trivial⟩, turn_moved hsame (.inl ?_)⟩
      rw [hx]
      rfl
    · refine ⟨h.moved (by rw [hx]; rfl) (by simp) h.settled (.inr rfl) fun user' change' hi' => ?_,
        turn_moved hsame (.inl ?_)⟩
      · obtain ⟨rfl, rfl⟩ := Inquiry.update.inj (Option.some.inj (hi.symm.trans hi'))
        exact ⟨htaken, p, hget, rfl⟩
      · rw [hx]
        rfl
  · next user change p hi hx =>
    obtain ⟨hsettled, hanswers⟩ := h.settled.enter p
    have hpending := h.pending i user change hi
    rw [hx] at hpending
    obtain ⟨old, hget, hp⟩ := hpending
    exact h.works hi (by rw [hx]; rfl) (by rw [hx]; rfl) rfl rfl hsettled hanswers
      fun _ => ⟨old, (hanswers user).trans hget, hp⟩
  · next user change p hi hx =>
    have hpending := h.pending i user change hi
    rw [hx] at hpending
    obtain ⟨old, hget, hp⟩ := hpending
    have hname : p.user = user := hp ▸ (change.user old).trans (user_of_get hget)
    obtain ⟨hsettled, hanswers⟩ := h.settled.writeBeside (hname.symm ▸ isUser_of_get hget)
    refine h.works hi (by rw [hx]; rfl) (by rw [hx]; rfl) rfl rfl hsettled hanswers
      fun hwritten => ⟨⟨old, (hanswers user).trans hget, hp⟩, x.files, h.settled, ?_⟩
    rcases change_cases (fun t => t.writeText start (s.stagingOf p.user) p.toJson.pretty)
      x.files with ⟨u, hwrite, hafter, -⟩ | ⟨cause, -, -, hfailed⟩
    · change after (s.writeBeside start p) x.files = u at hafter
      rw [hafter, ← hname, hwrite]
    · exact absurd (hwritten.symm.trans hfailed) (by simp)
  · next user change p hi hx => exact h.stores hi hx
  · next user change result hi hx =>
    refine ⟨h.releases (by rw [hx]; rfl), .quiet hsame (changes_congr rfl fun j _ => ?_)⟩
    rcases eq_or_ne j i with rfl | hji
    · rw [progress_releases_self, hx]
      rcases result with e | p <;> rfl
    · rw [progress_releases_of_ne hji]
  · exact ⟨h, .quiet hsame fun _ => rfl⟩

end Orderly

/-! ### Runs -/

theorem progress_step_of_ne (hji : j ≠ i) :
    (x.step s start inquiries i).progress j = x.progress j := by
  unfold step
  split
  · exact progress_moved_of_ne hji
  · split
    · exact progress_locks_of_ne hji
    · rfl
  · exact progress_moved_of_ne hji
  · exact progress_moved_of_ne hji
  · exact progress_moved_of_ne hji
  · exact progress_moved_of_ne hji
  · exact progress_releases_of_ne hji
  · rfl

/-- What is stored stays stored. -/
theorem isStored_step (hj : (x.progress j).isStored = true) :
    ((x.step s start inquiries i).progress j).isStored = true := by
  rcases eq_or_ne j i with rfl | hji
  · unfold step
    split
    case h_7 result _ hx =>
      rw [hx] at hj
      rw [progress_releases_self]
      rcases result with e | p
      · exact absurd hj (by simp [Progress.isStored])
      · rfl
    case h_8 => exact hj
    all_goals
      next hx =>
      rw [hx] at hj
      exact absurd hj (by simp [Progress.isStored])
  · rwa [progress_step_of_ne hji]

theorem isStored_run (order : List Nat) (hj : (x.progress j).isStored = true) :
    ((x.run s start inquiries order).progress j).isStored = true := by
  induction order using List.reverseRecOn with
  | nil => exact hj
  | append_singleton order i ih =>
    rw [run_concat]
    exact isStored_step ih

theorem run_append (early late : List Nat) (x : Ledger) :
    x.run s start inquiries (early ++ late) =
      (x.run s start inquiries early).run s start inquiries late := List.foldl_append

/-- A look at a profile returns what the store returned at some moment. -/
theorem exists_of_look (hi : inquiries[i]? = some (.look user)) {order : List Nat}
    (hx : x.progress i = .waiting)
    (hanswered : (x.run s start inquiries order).progress i = .answered result) :
    ∃ early late, order = early ++ i :: late ∧
      result = s.get start user (x.run s start inquiries early).files := by
  induction order using List.reverseRecOn with
  | nil => exact absurd (hx.symm.trans hanswered) (by simp)
  | append_singleton order j ih =>
    rw [run_concat] at hanswered
    by_cases hbefore : (x.run s start inquiries order).progress i = .answered result
    · obtain ⟨early, late, rfl, hresult⟩ := ih hbefore
      exact ⟨early, late ++ [j], by simp, hresult⟩
    · rcases eq_or_ne i j with rfl | hij
      · refine ⟨order, [], rfl, ?_⟩
        unfold step at hanswered
        split at hanswered
        · next user' hi' _ =>
          obtain rfl := Inquiry.look.inj (Option.some.inj (hi.symm.trans hi'))
          rw [progress_moved_self] at hanswered
          exact (Progress.answered.inj hanswered).symm
        case h_8 => exact absurd hanswered hbefore
        all_goals
          next hi' _ => exact absurd (hi.symm.trans hi') (by simp)
      · rw [progress_step_of_ne hij] at hanswered
        exact absurd hanswered hbefore

theorem Turn.answers (h : Turn s start inquiries i x y) {first : Except ProfileError Profile}
    (hx : s.get start user x.files = first.map (Profile.after (x.changes inquiries user))) :
    s.get start user y.files = first.map (Profile.after (y.changes inquiries user)) := by
  cases h with
  | quiet hsame hchanges => rw [hsame user, hchanges user, hx]
  | @stores user' change _ _ hothers hstored hchanges =>
    rcases eq_or_ne user user' with rfl | hne
    · rw [hstored, hchanges, hx]
      rcases first with e | p
      · rfl
      · simp [Except.map, Profile.after]
    · rw [(hothers user hne).1, (hothers user hne).2, hx]

theorem Turn.isPrefix_changes (h : Turn s start inquiries i x y) (user : String) :
    x.changes inquiries user <+: y.changes inquiries user := by
  cases h with
  | quiet _ hchanges => exact hchanges user ▸ List.prefix_rfl
  | @stores user' change _ _ hothers _ hchanges =>
    rcases eq_or_ne user user' with rfl | hne
    · exact ⟨[change], hchanges.symm⟩
    · exact (hothers user hne).2 ▸ List.prefix_rfl

namespace Orderly

variable (h : Orderly s start inquiries x) (order : List Nat)

include h

theorem run : Orderly s start inquiries (x.run s start inquiries order) := by
  induction order using List.reverseRecOn with
  | nil => exact h
  | append_singleton order i ih =>
    rw [run_concat]
    exact (ih.step i).1

theorem answers_run {first : Except ProfileError Profile}
    (hx : s.get start user x.files = first.map (Profile.after (x.changes inquiries user))) :
    s.get start user (x.run s start inquiries order).files =
      first.map (Profile.after ((x.run s start inquiries order).changes inquiries user)) := by
  induction order using List.reverseRecOn with
  | nil => exact hx
  | append_singleton order i ih =>
    rw [run_concat]
    exact ((h.run order).step i).2.answers ih

theorem isPrefix_changes (user : String) : x.changes inquiries user <+:
    (x.run s start inquiries order).changes inquiries user := by
  induction order using List.reverseRecOn with
  | nil => exact List.prefix_rfl
  | append_singleton order i ih =>
    rw [run_concat]
    exact ih.trans (((h.run order).step i).2.isPrefix_changes user)

end Orderly

end Ledger

/-- **Updates of profiles are neither lost nor torn nor mixed up.** Where no link stands among the
files of a store, and its directory is there or its path does not climb, and whatever order the
steps of requests are taken in: what is stored of a learner is what was stored at first after the
changes of the updates that succeeded, each of them once and in the order in which they took the
lock; a look returns what was stored after some of them; and a step changes what is returned of a
learner only if it belongs to an update of this learner that succeeds. -/
theorem updates_in_lock_order (s : ProfileStore) (start : Place) (t : FileTree)
    (inquiries : List Inquiry) (order : List Nat) (h : s.Settled start t) :
    let x := Ledger.start t
    let y := x.run s start inquiries order
    (∀ user, s.get start user y.files =
      (s.get start user t).map (Profile.after (y.changes inquiries user))) ∧
    (y.taken.Nodup ∧ ∀ i user change, inquiries[i]? = some (.update user change) →
      (y.progress i).isStored = true → i ∈ y.taken) ∧
    (∀ i user result, inquiries[i]? = some (.look user) → y.progress i = .answered result →
      ∃ early late, order = early ++ i :: late ∧
        let z := x.run s start inquiries early
        z.changes inquiries user <+: y.changes inquiries user ∧
          result = (s.get start user t).map (Profile.after (z.changes inquiries user))) ∧
    (∀ early i late user, order = early ++ i :: late →
      let z := x.run s start inquiries early
      s.get start user (z.step s start inquiries i).files ≠ s.get start user z.files →
        (∃ change, inquiries[i]? = some (.update user change)) ∧ (y.progress i).isStored = true) ∧
    ∀ user other, isUser user = true → isUser other = true →
      (s.fileOf user).parts = s.directory.parts ++ [ProfileStore.fileName user] ∧
      (s.stagingOf user).parts = s.directory.parts ++ [s.stagingName user] ∧
      (ProfileStore.fileName user = ProfileStore.fileName other → user = other) ∧
      ProfileStore.fileName user ≠ s.stagingName other := by
  intro x y
  have hstart : Ledger.Orderly s start inquiries x := Ledger.orderly_start h
  have hfirst (user : String) : s.get start user x.files =
      (s.get start user t).map (Profile.after (x.changes inquiries user)) := by
    show s.get start user t = _
    rcases s.get start user t with e | p <;> rfl
  have hend := hstart.run order
  refine ⟨fun user => hstart.answers_run order (hfirst user),
    ⟨hend.once, fun i user change hi hdone => ?_⟩,
    fun i user result hi hanswered => ?_, fun early i late user horder => ?_,
    fun user other huser hother => ⟨?_, ?_, ?_, ?_⟩⟩
  · refine hend.taken i user change hi fun hwaiting => ?_
    rw [hwaiting] at hdone
    exact absurd hdone (by simp [Progress.isStored])
  · obtain ⟨early, late, rfl, hresult⟩ := Ledger.exists_of_look hi rfl hanswered
    refine ⟨early, late, rfl, ?_, ?_⟩
    · have hlater := (hstart.run early).isPrefix_changes (i :: late) user
      rwa [← Ledger.run_append] at hlater
    · exact hresult.trans (hstart.answers_run early (hfirst user))
  · intro z hchanged
    have hrun : y = (z.step s start inquiries i).run s start inquiries late := by
      rw [show y = x.run s start inquiries order from rfl, horder, Ledger.run_append]
      rfl
    cases ((hstart.run early).step i).2 with
    | quiet hsame => exact absurd (hsame user) hchanged
    | @stores user' change hi hdone hothers =>
      rcases eq_or_ne user user' with rfl | hne
      · exact ⟨⟨change, hi⟩, hrun ▸ Ledger.isStored_run late hdone⟩
      · exact absurd (hothers user hne).1 hchanged
  · exact Path.parts_child (ProfileStore.isName_fileName huser)
  · exact Path.parts_child (s.isName_stagingName huser)
  · exact ProfileStore.fileName_injective
  · exact ProfileStore.fileName_ne_stagingName s user other

/-- A store whose directory lies in the root. -/
def oneStore : ProfileStore := ⟨⟨"/p"⟩, 1⟩

/-- The learner meets an issue of the rule E1. -/
def meetsE1 : Profile.Change := (ProfileEdit.recordIssue "E1").change fun _ => by simp

/-- An update for Ana, a look at her profile and an update for Ben. -/
def threeInquiries : List Inquiry :=
  [.update "ana" meetsE1, .look "ana", .update "ben" meetsE1]

/-- A directory for profiles, without any. -/
def noProfiles : FileTree := ⟨[(["p"], .directory)]⟩

theorem settled_noProfiles : oneStore.Settled [] noProfiles := by
  have hlink : ∀ place target, noProfiles.lookup? place ≠ some (.link target) := by
    intro place target hlookup
    rcases eq_or_ne place [] with rfl | hne
    · simp [lookup?] at hlookup
    · have hmem := mem_of_lookup? hne hlookup
      simp [noProfiles] at hmem
  have hname : Storable "p" := by decide
  have hroot : noProfiles.hasDirectory [] = true := rfl
  refine ⟨⟨.of_entries (by decide) ?_ (by simp [noProfiles]), rfl⟩,
    .inl (.inr (by decide +kernel)), fun user _ => ⟨fun place target _ => hlink place target,
      fun place target _ => hlink place target⟩⟩
  simpa [noProfiles, hname] using hroot

/-- While Ana's profile is being stored it is looked at, and Ben's update asks for the lock. -/
def turns : List Nat := [0, 2, 0, 0, 1, 0, 2, 0, 0, 2, 2, 2, 2, 2, 2]

/-- The look sees Ana's profile as it was, and Ben's update waits until hers is stored. -/
theorem updates_in_lock_order_interleaved :
    oneStore.Settled [] noProfiles ∧
      let y := (Ledger.start noProfiles).run oneStore [] threeInquiries turns
      y.taken = [0, 2] ∧ y.progress 1 = .answered (.ok (.fresh "ana")) ∧
      oneStore.get [] "ana" y.files = .ok { Profile.fresh "ana" with seen := [("E1", 1)] } ∧
      oneStore.get [] "ben" y.files = .ok { Profile.fresh "ben" with seen := [("E1", 1)] } := by
  obtain ⟨hfold, -⟩ := updates_in_lock_order oneStore [] noProfiles threeInquiries turns
    settled_noProfiles
  have hfresh : ∀ user ∈ ["ana", "ben"],
      oneStore.get [] user noProfiles = .ok (.fresh user) := by decide +kernel
  obtain ⟨htaken, hana, hben⟩ :
      let y := (Ledger.start noProfiles).run oneStore [] threeInquiries turns
      y.taken = [0, 2] ∧ (y.progress 0).isStored = true ∧ (y.progress 2).isStored = true := by
    decide +kernel
  have hchanges : ∀ user ∈ ["ana", "ben"], ((Ledger.start noProfiles).run oneStore []
      threeInquiries turns).changes threeInquiries user = [meetsE1] := by
    intro user huser
    rw [Ledger.changes, htaken]
    simp only [List.filter_cons, hana, hben, if_true, List.filter_nil]
    revert user
    simp [threeInquiries, Inquiry.changeFor?]
  refine ⟨settled_noProfiles, htaken, ?_, ?_, ?_⟩
  · rfl
  · rw [hfold "ana", hfresh "ana" (by simp), hchanges "ana" (by simp)]
    decide
  · rw [hfold "ben", hfresh "ben" (by simp), hchanges "ben" (by simp)]
    decide

/-! ### Stores that are not settled -/

/-- After these steps of an update for Ben, what is returned of a learner is not what the changes
that were stored make of it. -/
def Strays (s : ProfileStore) (t : FileTree) (user : String) (order : List Nat) : Prop :=
  let inquiries := [.update "ben" meetsE1]
  let y := (Ledger.start t).run s [] inquiries order
  s.get [] user y.files ≠ (s.get [] user t).map (Profile.after (y.changes inquiries user))

instance (s : ProfileStore) (t : FileTree) (user : String) (order : List Nat) :
    Decidable (Strays s t user order) :=
  inferInstanceAs (Decidable (_ ≠ _))

/-- A name that no directory holds. -/
def longPart : String := String.ofList (List.replicate 256 'a')

/-- A store whose directory has such a name, in another directory. -/
def longStore : ProfileStore := ⟨⟨"/new" ++ "/" ++ longPart⟩, 1⟩

theorem toList_longPart : longPart.toList = List.replicate 256 'a' := String.toList_ofList

theorem size_longPart : longPart.utf8ByteSize = 256 := by decide +kernel

theorem longestName_lt_longPart : longestName < longPart.utf8ByteSize := by
  rw [size_longPart]
  decide

theorem isName_longPart : Path.IsName longPart := by
  have hne (short : String) (h : short.toList.length ≠ 256) : longPart ≠ short := by
    rintro rfl
    rw [toList_longPart, List.length_replicate] at h
    exact h rfl
  refine ⟨hne _ (by decide), hne _ (by decide), hne _ (by decide), fun hmem => ?_⟩
  rw [toList_longPart] at hmem
  exact absurd (List.eq_of_mem_replicate hmem) (by decide)

theorem storable_new : Storable "new" := by decide

theorem cut_longStore : Text.cut '/' longStore.directory.text = ["", "new", longPart] := by
  rw [longStore, Text.cut_append_slash, Text.cut_of_not_mem isName_longPart.noSlash]
  rfl

theorem tooLong_longStore : TooLong "new" longPart [] longStore.directory := by
  refine ⟨?_, ?_, ?_, ?_⟩
  · rw [Path.isAbsolute_iff_head, longStore, String.toList_append, String.toList_append]
    rfl
  · rw [Path.parts, cut_longStore]
    simp [isName_longPart.ne_empty]
  · rw [longStore, String.toList_append, toList_longPart, List.any_append, List.any_replicate]
    decide
  · rw [longStore, String.utf8ByteSize_append, size_longPart]
    decide

theorem tooLong_fileOf {user : String} (huser : isUser user = true)
    (hnul : (fileName user).toList.any (· = Char.ofNat 0) = false) :
    TooLong "new" longPart [fileName user] (longStore.fileOf user) := by
  have hname := isName_fileName huser
  have hshort := short_fileName huser
  have hdir := tooLong_longStore
  have hslash : longStore.directory.endsWithSlash = false := by
    rw [← Bool.not_eq_true, Path.endsWithSlash_iff, longStore, String.toList_append,
      toList_longPart, List.getLast?_append_of_ne_nil _ (by decide)]
    decide
  have htext : (longStore.directory.child (fileName user)).text =
      longStore.directory.text ++ "/" ++ fileName user := by
    rw [text_child hname, if_neg (by simp [hdir.text_ne_empty, hslash])]
  refine fileOf_eq .. ▸ hdir.child hname ⟨?_, ?_, hshort⟩ <;> rw [htext]
  · rw [String.toList_append, String.toList_append, List.any_append, List.any_append, hdir.noNul,
      hnul]
    decide
  · have hsize : (longStore.directory.text ++ "/").utf8ByteSize = 262 := by
      rw [String.utf8ByteSize_append, longStore, String.utf8ByteSize_append, size_longPart]
      decide
    rw [String.utf8ByteSize_append, hsize]
    exact (Nat.add_le_add_left hshort 262).trans_lt (by decide)

theorem components_longStore :
    longStore.directory.components = [.root, .name "new", .name longPart] := by
  rw [Path.components_of_isAbsolute tooLong_longStore.absolute, tooLong_longStore.parts]
  simp [Path.component?_of_isName isName_longPart, Path.component?_of_isName storable_new.isName]

theorem parent?_longStore : longStore.directory.parent? = some ⟨"/new"⟩ := by
  have hname := isName_longPart
  have htrim : Path.trimParts ["", "new", longPart] = ["", "new", longPart] := by
    simp [Path.trimParts, Path.isEmptyPart, hname.ne_empty, hname.ne_here]
  rw [Path.parent?, components_longStore, cut_longStore, htrim]
  rfl

/-- Of the directories that lead to a place, those before a part that is too long are made. -/
theorem makeDirectories_of_tooLong {p : Path} {name : String} (h : TooLong "new" name [] p)
    (hname : Path.IsName name) (hlong : longestName < name.utf8ByteSize)
    (hcomponents : p.components = [.root, .name "new", .name name])
    (hparent : p.parent? = some ⟨"/new"⟩) :
    (⟨[]⟩ : FileTree).makeDirectories [] p =
      (⟨[(["new"], .directory)]⟩, .error .nameTooLong) := by
  have hmissing := h.locate_missing (t := ⟨[]⟩) storable_new rfl []
  have hmade := h.locate_made (t := ⟨[(["new"], .directory)]⟩) storable_new hname hlong rfl []
  have hfirst : makeDirectoriesUpTo 3 ⟨[]⟩ [] ⟨"/new"⟩ = (⟨[(["new"], .directory)]⟩, .ok ()) := rfl
  rw [makeDirectories, hcomponents, List.length_cons, List.length_cons, List.length_cons,
    List.length_nil, makeDirectoriesUpTo, if_neg h.text_ne_empty]
  simp [makeDirectory, hmissing, hmade, hparent, hfirst, bind, Except.bind, isDirectory, entry?,
    find]

/-- Then a profile is refused that was only missing before. -/
theorem get_longStore {user : String} (huser : isUser user = true)
    (hnul : (fileName user).toList.any (· = Char.ofNat 0) = false) :
    longStore.get [] user ⟨[]⟩ = .ok (.fresh user) ∧
      longStore.get [] user ⟨[(["new"], .directory)]⟩ = .error (.storage (some .nameTooLong)) := by
  have h := tooLong_fileOf huser hnul
  have hmissing := h.locate_missing (t := ⟨[]⟩) storable_new rfl [] true
  have hmade := h.locate_made (t := ⟨[(["new"], .directory)]⟩) storable_new isName_longPart
    longestName_lt_longPart rfl [] true
  have hcheck : checkUser user = .ok () := checkUser_ok.mpr huser
  constructor <;>
    simp [ProfileStore.get, hcheck, readText, readBytes, find, hmissing, hmade, bind, Except.bind]

theorem strays_longStore : Strays longStore ⟨[]⟩ "ana" [0, 0, 0] := by
  have hi : ([.update "ben" meetsE1] : List Inquiry)[0]? = some (.update "ben" meetsE1) := rfl
  obtain ⟨hben, -⟩ := get_longStore (by decide : isUser "ben" = true) (by decide)
  obtain ⟨hbefore, hafter⟩ := get_longStore (by decide : isUser "ana" = true) (by decide)
  have hrun := Ledger.files_run_enter hi (x := .start ⟨[]⟩) rfl rfl hben
  rw [after_enter (by decide), show (Ledger.start ⟨[]⟩).files = ⟨[]⟩ from rfl,
    makeDirectories_of_tooLong tooLong_longStore isName_longPart longestName_lt_longPart
      components_longStore parent?_longStore] at hrun
  intro heq
  rw [hrun, hafter, hbefore] at heq
  exact absurd heq (by simp [Except.map])

/-- Updates are mixed up or lost where a link stands at the name of a profile or of the file in
which it is written first, and where the directory of the profiles is missing and its path climbs
or has a part that is too long. -/
theorem updates_stray :
    Strays oneStore ⟨[(["p"], .directory), (["p", "ana.json"], .link "ben.json/.")]⟩ "ana"
      [0, 0, 0, 0, 0] ∧
    Strays oneStore ⟨[(["p"], .directory), (["p", "ben.1.tmp"], .link "ben.json")]⟩ "ben"
      [0, 0, 0, 0, 0] ∧
    Strays ⟨⟨"/new/../p"⟩, 1⟩
      ⟨[(["p"], .directory), (["p", "ana.json"], .file "\x7b".toUTF8 0o644)]⟩ "ana" [0, 0, 0] ∧
    Strays longStore ⟨[]⟩ "ana" [0, 0, 0] :=
  ⟨by decide +kernel, by decide +kernel, by decide +kernel, strays_longStore⟩

end ReviewMentor
