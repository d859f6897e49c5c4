import ReviewMentor.Proofs.Path.Parts

/-!
# Components as texts

Components joined by slashes are read back as the same components, as long as each of them is a name
or two dots.
-/

namespace ReviewMentor

/-- Whether a component enters a name. -/
def Component.isNamed : Component → Bool
  | .name _ => true
  | _ => false

end ReviewMentor

namespace ReviewMentor.Path

/-- A text that names something in a directory. -/
structure IsName (s : String) : Prop where
  ne_empty : s ≠ ""
  ne_here : s ≠ "."
  ne_up : s ≠ ".."
  noSlash : '/' ∉ s.toList

instance (s : String) : Decidable (IsName s) :=
  decidable_of_iff (s ≠ "" ∧ s ≠ "." ∧ s ≠ ".." ∧ '/' ∉ s.toList)
    ⟨fun ⟨h1, h2, h3, h4⟩ => ⟨h1, h2, h3, h4⟩, fun ⟨h1, h2, h3, h4⟩ => ⟨h1, h2, h3, h4⟩⟩

/-- A component that is a name or two dots. -/
def IsStep : Component → Prop
  | .up => True
  | .name s => IsName s
  | _ => False

theorem component?_of_isName {s : String} (h : IsName s) : component? s = some (.name s) := by
  simp [component?, h.ne_here, h.ne_up]

theorem isStep_of_mem {p : Path} {c : Component} (h : c ∈ p.parts.filterMap component?) :
    IsStep c := by
  obtain ⟨part, hpart, hc⟩ := List.mem_filterMap.mp h
  unfold component? at hc
  split_ifs at hc with hhere hup
  · obtain rfl := Option.some.inj hc
    trivial
  · obtain rfl := Option.some.inj hc
    exact ⟨(mem_parts.mp hpart).2, hhere, hup, not_mem_slash_of_mem_parts hpart⟩

section Steps

variable {cs : List Component}

theorem text_of_isStep {c : Component} (h : IsStep c) :
    c.text ≠ "" ∧ c.text ≠ "." ∧ '/' ∉ c.text.toList ∧ component? c.text = some c := by
  cases c with
  | root => exact absurd h id
  | here => exact absurd h id
  | up => decide
  | name s => exact ⟨h.ne_empty, h.ne_here, h.noSlash, component?_of_isName h⟩

theorem cut_slashed (hcs : ∀ c ∈ cs, IsStep c) (hne : cs ≠ []) :
    Text.cut '/' (slashed cs) = cs.map Component.text := by
  refine Text.cut_join (by simpa using hne) fun part hpart => ?_
  obtain ⟨c, hc, rfl⟩ := List.mem_map.mp hpart
  exact (text_of_isStep (hcs c hc)).2.2.1

theorem parts_slashed (hcs : ∀ c ∈ cs, IsStep c) :
    (Path.mk (slashed cs)).parts = cs.map Component.text := by
  by_cases hne : cs = []
  · subst hne
    decide
  · rw [parts, cut_slashed hcs hne, List.filter_eq_self]
    intro part hpart
    obtain ⟨c, hc, rfl⟩ := List.mem_map.mp hpart
    simpa using (text_of_isStep (hcs c hc)).1

theorem filterMap_text (hcs : ∀ c ∈ cs, IsStep c) :
    (cs.map Component.text).filterMap component? = cs := by
  rw [List.filterMap_map]
  refine (List.filterMap_congr fun c hc => ?_).trans List.filterMap_some
  exact (text_of_isStep (hcs c hc)).2.2.2

theorem head?_cut_slashed (hcs : ∀ c ∈ cs, IsStep c) (hne : cs ≠ []) :
    ∃ c, IsStep c ∧ (Text.cut '/' (slashed cs)).head? = some c.text := by
  obtain ⟨c, rest, rfl⟩ := List.exists_cons_of_ne_nil hne
  exact ⟨c, hcs c List.mem_cons_self, by rw [cut_slashed hcs hne]; rfl⟩

theorem not_isAbsolute_slashed (hcs : ∀ c ∈ cs, IsStep c) :
    (Path.mk (slashed cs)).isAbsolute = false := by
  by_cases hne : cs = []
  · subst hne
    decide
  · rw [← Bool.not_eq_true, isAbsolute_iff_cut]
    rintro ⟨hhead, -⟩
    obtain ⟨c, hc, hfirst⟩ := head?_cut_slashed hcs hne
    rw [hfirst] at hhead
    exact (text_of_isStep hc).1 (Option.some.inj hhead)

/-- **Reading back.** Names and two dots, joined by slashes, are read as the same components. -/
theorem components_slashed (hcs : ∀ c ∈ cs, IsStep c) :
    (Path.mk (slashed cs)).components = cs := by
  by_cases hne : cs = []
  · subst hne
    decide
  · have hhead : (Text.cut '/' (slashed cs)).head? ≠ some "." := by
      obtain ⟨c, hc, hfirst⟩ := head?_cut_slashed hcs hne
      rw [hfirst]
      exact fun e => (text_of_isStep hc).2.1 (Option.some.inj e)
    rw [components_of_relative (not_isAbsolute_slashed hcs), parts_slashed hcs, filterMap_text hcs]
    simp [hhead]

/-- After the root they are read as the components of an absolute path. -/
theorem components_slashed_root (hcs : ∀ c ∈ cs, IsStep c) :
    (Path.mk (slashed (.root :: cs))).components = .root :: cs := by
  by_cases hne : cs = []
  · subst hne
    decide
  · have htext : slashed (.root :: cs) = "/" ++ "/" ++ slashed cs := by
      have hmap : cs.map Component.text ≠ [] := by simpa using hne
      simp [slashed, Text.join, String.intercalate_cons_of_ne_nil hmap, Component.text]
    have habs : (Path.mk (slashed (.root :: cs))).isAbsolute = true := by
      rw [isAbsolute_iff_head, htext]
      simp
    have hparts : (Path.mk (slashed (.root :: cs))).parts = (Path.mk (slashed cs)).parts := by
      unfold parts
      rw [htext, Text.cut_append_slash]
      simp [show Text.cut '/' "/" = ["", ""] by decide]
    rw [components_of_isAbsolute habs, hparts, parts_slashed hcs, filterMap_text hcs]

theorem slashed_names (names : List String) :
    slashed (names.map .name) = Text.join "/" names := by
  simp [slashed, Component.text, Function.comp_def]

/-- The components of the absolute path of names. -/
theorem components_ofNames {names : List String} (h : ∀ n ∈ names, IsName n) :
    (ofNames names).components = .root :: names.map .name := by
  have habs : (ofNames names).isAbsolute = true := by
    rw [isAbsolute_iff_head]
    simp [ofNames]
  have hsteps : ∀ c ∈ names.map Component.name, IsStep c := by
    intro c hc
    obtain ⟨n, hn, rfl⟩ := List.mem_map.mp hc
    exact h n hn
  have hparts : (ofNames names).parts = (Path.mk (slashed (names.map .name))).parts := by
    have hcut := Text.cut_append_slash "" (slashed (names.map .name))
    rw [String.empty_append] at hcut
    unfold parts ofNames
    rw [← slashed_names, hcut]
    simp [show Text.cut '/' "" = [""] by decide]
  rw [components_of_isAbsolute habs, hparts, parts_slashed hsteps, filterMap_text hsteps]

end Steps

/-! ### A name after a path -/

section Child

variable {base p : Path} {n : String}

theorem endsWithSlash_iff : p.endsWithSlash = true ↔ p.text.toList.getLast? = some '/' := by
  unfold endsWithSlash
  split
  · next h => simp [h]
  · next h => exact ⟨fun e => absurd e (by simp), fun e => absurd e h⟩

/-- How a path ends is decided by what it ends with. -/
theorem endsWithSlash_join (h : p.text ≠ "") : (base.join p).endsWithSlash = p.endsWithSlash := by
  have hne : p.text.toList ≠ [] := fun e => h (text_toList_eq_nil.mp e)
  rw [Bool.eq_iff_iff, endsWithSlash_iff, endsWithSlash_iff]
  unfold join
  split_ifs
  · rfl
  · rw [String.toList_append, List.getLast?_append_of_ne_nil _ hne]
  · rw [String.toList_append, List.getLast?_append_of_ne_nil _ hne]

theorem parts_child (h : IsName n) : (base.child n).parts = base.parts ++ [n] := by
  have hparts : (Path.mk n).parts = [n] := by
    simp [parts, Text.cut_of_not_mem h.noSlash, h.ne_empty]
  rw [child, parts_join (not_isAbsolute_of_not_mem h.noSlash), hparts]

theorem isAbsolute_child (h : IsName n) : (base.child n).isAbsolute = base.isAbsolute := by
  rw [child, isAbsolute_join, not_isAbsolute_of_not_mem h.noSlash, Bool.or_false]

theorem endsWithSlash_child (h : IsName n) : (base.child n).endsWithSlash = false := by
  rw [child, endsWithSlash_join h.ne_empty, ← Bool.not_eq_true, endsWithSlash_iff]
  exact fun e => h.noSlash (List.mem_of_getLast? e)

end Child

end ReviewMentor.Path
