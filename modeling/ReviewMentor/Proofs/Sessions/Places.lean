import ReviewMentor.Proofs.Findings.Relative
import ReviewMentor.Proofs.Sessions.Store

/-!
# Where sessions lie

Sessions are numbered, and a number can be read back from the name of a session. All directories of
sessions lie beside each other: they are reached by the same steps and differ in the last name. A
path that is resolved within a session goes on from its directory with names only, so that it can
never lead into the directory of another session.
-/

namespace ReviewMentor.SessionStore

/-! ### Names of sessions -/

/-- The value of a digit to the base 16. -/
def digitValue (c : Char) : Nat := if c.toNat < 58 then c.toNat - 48 else c.toNat - 87

/-- The number that digits to the base 16 stand for. -/
def readDigits (cs : List Char) : Nat := cs.foldl (fun n c => 16 * n + digitValue c) 0

theorem readDigits_toDigits (n : Nat) : readDigits (Nat.toDigits 16 n) = n := by
  have hdigit : ∀ d < 16, digitValue d.digitChar = d := by decide
  induction n using Nat.strongRecOn with
  | ind n ih =>
    rw [Nat.toDigits_eq_if (by decide)]
    split_ifs with h
    · simp [readDigits, hdigit n h]
    · have hdiv : readDigits (Nat.toDigits 16 (n / 16)) = n / 16 := ih (n / 16) (by omega)
      unfold readDigits at hdiv ⊢
      rw [List.foldl_append, hdiv, List.foldl_cons, List.foldl_nil,
        hdigit (n % 16) (Nat.mod_lt _ (by decide))]
      omega

theorem mem_toDigits {n : Nat} {c : Char} (h : c ∈ Nat.toDigits 16 n) :
    ∃ d < 16, c = Nat.digitChar d := by
  induction n using Nat.strongRecOn with
  | ind n ih =>
    rw [Nat.toDigits_eq_if (by decide)] at h
    split_ifs at h with hn
    · exact ⟨n, hn, by simpa using h⟩
    · rcases List.mem_append.mp h with h | h
      · exact ih (n / 16) (by omega) h
      · exact ⟨n % 16, Nat.mod_lt _ (by decide), by simpa using h⟩

/-- Leading zeros do not change a number. -/
theorem readDigits_zeros (count : Nat) (cs : List Char) :
    readDigits (List.replicate count '0' ++ cs) = readDigits cs := by
  induction count with
  | zero => rfl
  | succ count ih =>
    rw [List.replicate_succ, List.cons_append]
    exact ih

theorem serialDigits_injective {m n : Nat} (h : serialDigits m = serialDigits n) : m = n := by
  have hread : ∀ k, readDigits (serialDigits k).toList = k := by
    intro k
    unfold serialDigits
    rw [String.toList_ofList, readDigits_zeros, readDigits_toDigits]
  rw [← hread m, ← hread n, h]

/-- Different numbers name different sessions. -/
theorem idOf_injective {m n : Nat} (h : idOf m = idOf n) : m = n := by
  unfold idOf at h
  exact serialDigits_injective (String.append_left_inj _ |>.mp h)

theorem noSlash_idOf (n : Nat) : '/' ∉ (idOf n).toList := by
  intro h
  have hdigit : ∀ d < 16, Nat.digitChar d ≠ '/' := by decide
  simp only [idOf, serialDigits, String.toList_append, String.toList_ofList, List.mem_append,
    List.mem_replicate] at h
  rcases h with (⟨-, h⟩ | h) | h
  · exact absurd h (by decide)
  · obtain ⟨d, hd, hc⟩ := mem_toDigits h
    exact hdigit d hd hc.symm
  · exact absurd h (by decide)

/-- The names of sessions end with the same digit, as no name of dots or a generated file does. -/
theorem getLast?_idOf (n : Nat) : (idOf n).toList.getLast? = some '7' := by
  unfold idOf
  rw [String.toList_append, List.getLast?_append_of_ne_nil _ (by decide)]
  decide

/-! ### Directories of sessions -/

variable {s : SessionStore} {id other relative : String} {p q : Path} {m n : Nat}

/-- The directory that the session with a name gets. -/
def directoryPath (s : SessionStore) (id : String) : Path := s.root.child (s.namePrefix ++ id)

/-- The path from which all directories of sessions start. -/
def base (s : SessionStore) : Path :=
  if (Path.mk s.namePrefix).isAbsolute then ⟨s.namePrefix⟩ else s.root

/-- The steps to all directories of sessions but the last one. -/
def homeSteps (s : SessionStore) : List String :=
  (if (Path.mk s.namePrefix).isAbsolute then [] else s.root.parts) ++
    (Text.cut '/' s.namePrefix).dropLast.filter (· ≠ "")

/-- The last step to the directory of a session. -/
def leaf (s : SessionStore) (id : String) : String :=
  ((Text.cut '/' s.namePrefix).getLast?.getD "") ++ id

theorem leaf_ne_empty (h : id ≠ "") : s.leaf id ≠ "" := by
  unfold leaf
  simp [h]

theorem parts_prefixed (hslash : '/' ∉ id.toList) (hne : id ≠ "") :
    (Path.mk (s.namePrefix ++ id)).parts =
      (Text.cut '/' s.namePrefix).dropLast.filter (· ≠ "") ++ [s.leaf id] := by
  have hleaf : s.leaf id ≠ "" := leaf_ne_empty hne
  unfold Path.parts
  rw [Text.cut_append_of_not_mem hslash, List.filter_append]
  congr 1
  refine List.filter_eq_self.mpr fun part hpart => ?_
  rw [List.mem_singleton.mp hpart]
  exact decide_eq_true hleaf

theorem isAbsolute_prefixed (hslash : '/' ∉ id.toList) :
    (Path.mk (s.namePrefix ++ id)).isAbsolute = (Path.mk s.namePrefix).isAbsolute := by
  by_cases hempty : s.namePrefix = ""
  · rw [hempty, String.empty_append, Path.not_isAbsolute_of_not_mem hslash]
    decide
  · exact Path.isAbsolute_append hempty

theorem parts_directoryPath (hslash : '/' ∉ id.toList) (hne : id ≠ "") :
    (s.directoryPath id).parts = s.homeSteps ++ [s.leaf id] := by
  unfold directoryPath Path.child homeSteps
  rcases habs : (Path.mk s.namePrefix).isAbsolute with _ | _
  · rw [Path.parts_join ((isAbsolute_prefixed hslash).trans habs), parts_prefixed hslash hne,
      ← List.append_assoc]
    rfl
  · rw [Path.join_of_isAbsolute ((isAbsolute_prefixed hslash).trans habs),
      parts_prefixed hslash hne]
    simp

theorem isAbsolute_directoryPath (hslash : '/' ∉ id.toList) :
    (s.directoryPath id).isAbsolute = s.base.isAbsolute := by
  unfold directoryPath Path.child base
  rw [Path.isAbsolute_join, isAbsolute_prefixed hslash]
  rcases habs : (Path.mk s.namePrefix).isAbsolute with _ | _
  · simp
  · simp [habs]

theorem idOf_ne_empty (n : Nat) : idOf n ≠ "" := by
  intro h
  have := getLast?_idOf n
  rw [h] at this
  exact absurd this (by decide)

theorem getLast?_leaf (n : Nat) : (s.leaf (idOf n)).toList.getLast? = some '7' := by
  have hne : (idOf n).toList ≠ [] := fun e => idOf_ne_empty n (Path.text_toList_eq_nil.mp e)
  unfold leaf
  rw [String.toList_append, List.getLast?_append_of_ne_nil _ hne, getLast?_idOf]

/-- The last step to the directory of a session enters a name. -/
theorem isName_leaf (n : Nat) : Path.IsName (s.leaf (idOf n)) := by
  have hlast := s.getLast?_leaf n
  have hparts := s.parts_directoryPath (noSlash_idOf n) (idOf_ne_empty n)
  refine ⟨leaf_ne_empty (idOf_ne_empty n), ?_, ?_, ?_⟩
  · intro h
    rw [h] at hlast
    exact absurd hlast (by decide)
  · intro h
    rw [h] at hlast
    exact absurd hlast (by decide)
  · refine Path.not_mem_slash_of_mem_parts (p := s.directoryPath (idOf n)) ?_
    rw [hparts]
    exact List.mem_append_right _ (List.mem_singleton_self _)

theorem steps_directoryPath (n : Nat) :
    (s.directoryPath (idOf n)).steps =
      s.homeSteps.filterMap Path.component? ++ [.name (s.leaf (idOf n))] := by
  rw [Path.steps, s.parts_directoryPath (noSlash_idOf n) (idOf_ne_empty n), List.filterMap_append]
  congr 1
  simp [Path.component?_of_isName (s.isName_leaf n)]

theorem text_directoryPath_ne (n : Nat) : (s.directoryPath (idOf n)).text ≠ "" := by
  intro h
  have hparts := s.parts_directoryPath (noSlash_idOf n) (idOf_ne_empty n)
  rw [Path.parts, h] at hparts
  simp [show Text.cut '/' "" = [""] by decide] at hparts

theorem endsWithSlash_directoryPath (n : Nat) :
    (s.directoryPath (idOf n)).endsWithSlash = false := by
  have hne : (idOf n).toList ≠ [] := fun e => idOf_ne_empty n (Path.text_toList_eq_nil.mp e)
  have hlast : (s.namePrefix ++ idOf n).toList.getLast? = some '7' := by
    rw [String.toList_append, List.getLast?_append_of_ne_nil _ hne, getLast?_idOf]
  have htext : s.namePrefix ++ idOf n ≠ "" := by
    intro h
    rw [h] at hlast
    exact absurd hlast (by decide)
  rw [directoryPath, Path.child, Path.endsWithSlash_join htext, ← Bool.not_eq_true,
    Path.endsWithSlash_iff, hlast]
  decide

/-! ### Resolving -/

theorem all_isInner_iff {p : Path} :
    p.components.all isInner = true ↔ p.isAbsolute = false ∧ .up ∉ p.components := by
  rw [← Bool.not_eq_true, ← Path.root_mem_components, List.all_eq_true]
  constructor
  · intro h
    exact ⟨fun hr => absurd (h _ hr) (by decide), fun hu => absurd (h _ hu) (by decide)⟩
  · rintro ⟨hroot, hup⟩ c hc
    cases c with
    | root => exact absurd hc hroot
    | up => exact absurd hc hup
    | here => rfl
    | name => rfl

/-- A path is resolved if its session is known and it is not empty, relative, and without two
dots. -/
theorem resolve_eq_ok :
    s.resolve id relative = .ok p ↔ ∃ x, s.find? id = some x ∧ relative ≠ "" ∧
      (Path.mk relative).isAbsolute = false ∧ .up ∉ (Path.mk relative).components ∧
      p = x.directory.child relative := by
  unfold resolve directory find
  rcases s.find? id with _ | x
  · simp [Except.map, bind, Except.bind]
  by_cases hempty : relative = ""
  · simp [Except.map, bind, Except.bind, hempty, throw, throwThe, MonadExceptOf.throw]
  by_cases hinner : (Path.mk relative).components.all isInner = true
  · obtain ⟨habs, hup⟩ := all_isInner_iff.mp hinner
    simp [Except.map, bind, Except.bind, pure, Except.pure, hempty, hinner, habs, hup, eq_comm]
  · have hbad : ¬ ((Path.mk relative).isAbsolute = false ∧ .up ∉ (Path.mk relative).components) :=
      fun h => hinner (all_isInner_iff.mpr h)
    simp only [Except.map, bind, Except.bind, hempty, hinner, decide_false, Bool.false_or,
      Bool.not_false, if_true]
    constructor
    · exact fun h => absurd h (by simp [throw, throwThe, MonadExceptOf.throw])
    · rintro ⟨-, -, -, habs, hup, -⟩
      exact absurd ⟨habs, hup⟩ hbad

/-- The steps of a path are its components after its start. -/
theorem filter_components (p : Path) :
    p.components.filter (fun c => c ≠ .root && c ≠ .here) = p.steps := by
  have hsteps : p.steps.filter (fun c => c ≠ .root && c ≠ .here) = p.steps := by
    refine List.filter_eq_self.mpr fun c hc => ?_
    have := Path.filterMap_component?_ne_root hc
    simp [this.1, this.2]
  rcases habs : p.isAbsolute with _ | _
  · rw [Path.components_of_relative habs, List.filter_append, ← Path.steps, hsteps]
    split_ifs <;> simp
  · rw [Path.components_of_isAbsolute habs, ← Path.steps]
    simpa using hsteps

/-- Without two dots, the steps of a relative path are its names. -/
theorem filter_isNamed (habs : p.isAbsolute = false) (hup : .up ∉ p.components) :
    p.components.filter Component.isNamed = p.steps := by
  rw [← filter_components]
  refine List.filter_congr fun c hc => ?_
  have hroot : .root ∉ p.components := by
    rw [Path.root_mem_components, habs]
    simp
  cases c with
  | root => exact absurd hc hroot
  | up => exact absurd hc hup
  | here => rfl
  | name => rfl

/-- **Resolved paths go on from the directory of their session** with the names of the path that was
given. -/
theorem components_of_resolve {x : Session} (hx : x.directory = s.directoryPath (idOf n))
    (habs : (Path.mk relative).isAbsolute = false) (hup : .up ∉ (Path.mk relative).components) :
    (x.directory.child relative).components =
      x.directory.components ++ (Path.mk relative).components.filter Component.isNamed := by
  have htext : x.directory.text ≠ "" := hx ▸ s.text_directoryPath_ne n
  rw [Path.child, Path.components_join htext habs, filter_isNamed habs hup]
  rfl

theorem steps_child (habs : (Path.mk relative).isAbsolute = false) :
    (p.child relative).steps = p.steps ++ (Path.mk relative).steps := by
  rw [Path.child, Path.steps, Path.parts_join habs, List.filterMap_append]
  rfl

/-- **Paths of different sessions never meet**: none goes on from another one. -/
theorem not_prefix_of_resolve (hmn : m ≠ n) (habs : (Path.mk relative).isAbsolute = false)
    (habs' : (Path.mk other).isAbsolute = false) :
    ¬ ((s.directoryPath (idOf m)).child relative).components <+:
      ((s.directoryPath (idOf n)).child other).components := by
  intro h
  have hsteps := h.filter (fun c => c ≠ .root && c ≠ .here)
  rw [filter_components, filter_components, steps_child habs, steps_child habs',
    steps_directoryPath, steps_directoryPath, List.append_assoc, List.append_assoc,
    List.prefix_append_right_inj] at hsteps
  have hleaf : s.leaf (idOf m) = s.leaf (idOf n) :=
    Component.name.inj (List.cons_prefix_cons.mp hsteps).1
  exact hmn (idOf_injective ((String.append_right_inj _).mp hleaf))

end ReviewMentor.SessionStore
