import Mathlib.Data.List.Basic
import Mathlib.Data.List.TakeWhile
import Mathlib.Tactic.Common
import ReviewMentor.Path
import ReviewMentor.Proofs.Text.Cutting

/-!
# Parts of paths

What the parts and the components of a path become when paths are joined and when the last component
is taken away. A parent only ever loses parts at the end.
-/

namespace ReviewMentor.Path

theorem mem_parts {p : Path} {part : String} :
    part ∈ p.parts ↔ part ∈ Text.cut '/' p.text ∧ part ≠ "" := by
  simp [parts]

theorem not_mem_slash_of_mem_parts {p : Path} {part : String} (h : part ∈ p.parts) :
    '/' ∉ part.toList :=
  Text.not_mem_of_mem_cut (mem_parts.mp h).1

@[simp] theorem parts_empty : (Path.mk "").parts = [] := by decide

theorem text_toList_eq_nil {s : String} : s.toList = [] ↔ s = "" := by
  rw [← String.toList_inj]
  rfl

theorem isAbsolute_iff_head {p : Path} :
    p.isAbsolute = true ↔ p.text.toList.head? = some '/' := by
  unfold isAbsolute
  split
  · next h => simp [h]
  · next h =>
    rcases hs : p.text.toList with _ | ⟨c, rest⟩
    · simp
    · have hc : c ≠ '/' := fun e => h rest (by rw [hs, e])
      simp [hc]

/-- A path is absolute if nothing stands before its first slash. -/
theorem isAbsolute_iff_cut {p : Path} :
    p.isAbsolute = true ↔ (Text.cut '/' p.text).head? = some "" ∧ p.text ≠ "" := by
  rw [isAbsolute_iff_head, Text.cut]
  rcases h : p.text.toList with _ | ⟨c, rest⟩
  · simp [text_toList_eq_nil.mp h]
  · have hne : p.text ≠ "" := fun e => by simp [e] at h
    by_cases hc : c = '/'
    · simp [hc, hne, Text.cutAt]
    · obtain ⟨part, parts, hp⟩ := List.exists_cons_of_ne_nil (Text.cutAt_ne_nil '/' rest)
      simp [hc, Text.cutAt, hp]

theorem isAbsolute_append {s t : String} (h : s ≠ "") :
    (Path.mk (s ++ t)).isAbsolute = (Path.mk s).isAbsolute := by
  have hs : s.toList ≠ [] := fun e => h (text_toList_eq_nil.mp e)
  rw [Bool.eq_iff_iff, isAbsolute_iff_head, isAbsolute_iff_head]
  obtain ⟨c, rest, hc⟩ := List.exists_cons_of_ne_nil hs
  simp [hc]

theorem not_isAbsolute_of_not_mem {s : String} (h : '/' ∉ s.toList) :
    (Path.mk s).isAbsolute = false := by
  rw [← Bool.not_eq_true, isAbsolute_iff_head]
  exact fun hh => h (List.mem_of_mem_head? hh)

/-! ### Joining -/

theorem exists_eq_append_slash {p : Path} (h : p.endsWithSlash = true) :
    ∃ s : String, p.text = s ++ "/" := by
  unfold endsWithSlash at h
  split at h
  · next hlast =>
    obtain ⟨cs, hcs⟩ := List.getLast?_eq_some_iff.mp hlast
    exact ⟨String.ofList cs, String.toList_inj.mp (by simp [hcs])⟩
  · exact absurd h Bool.false_ne_true

/-- A relative path adds its parts to those of the path that it follows. -/
theorem parts_join {base p : Path} (h : p.isAbsolute = false) :
    (base.join p).parts = base.parts ++ p.parts := by
  obtain ⟨b⟩ := base
  unfold join
  rw [if_neg (by simp [h])]
  by_cases hb : b = ""
  · simp [hb]
  by_cases hs : (Path.mk b).endsWithSlash = true
  · obtain ⟨s, rfl⟩ := exists_eq_append_slash hs
    have hcut : Text.cut '/' (s ++ "/") = Text.cut '/' s ++ [""] := by
      have := Text.cut_append_slash s ""
      rwa [String.append_empty] at this
    simp only [hs, Bool.or_true, if_true, parts, Text.cut_append_slash, hcut, List.filter_append]
    simp
  · simp [hb, hs, parts, Text.cut_append_slash]

theorem join_of_isAbsolute {base p : Path} (h : p.isAbsolute = true) : base.join p = p := by
  simp [join, h]

theorem isAbsolute_join {base p : Path} :
    (base.join p).isAbsolute = (base.isAbsolute || p.isAbsolute) := by
  obtain ⟨b⟩ := base
  by_cases hp : p.isAbsolute = true
  · simp [join_of_isAbsolute hp, hp]
  rw [Bool.not_eq_true] at hp
  unfold join
  by_cases hb : b = ""
  · simp [hb, isAbsolute]
  by_cases hs : (Path.mk b).endsWithSlash = true
  · simp [hp, hb, hs, isAbsolute_append]
  · have : b ++ "/" ++ p.text = b ++ ("/" ++ p.text) := String.append_assoc ..
    simp [hp, hb, hs, this, isAbsolute_append]

/-- A path within a directory is not shorter than that of the directory and what follows it. -/
theorem size_add_le_child {p : Path} {file : String} (h : (Path.mk file).isAbsolute = false) :
    p.text.utf8ByteSize + file.utf8ByteSize ≤ (p.child file).text.utf8ByteSize := by
  unfold child join
  rw [if_neg (by simp [h])]
  split_ifs <;> simp only [String.utf8ByteSize_append] <;> omega

/-! ### Components -/

theorem component?_eq_none {part : String} : component? part = none ↔ part = "." := by
  unfold component?
  split_ifs <;> simp_all

theorem components_of_isAbsolute {p : Path} (h : p.isAbsolute = true) :
    p.components = .root :: p.parts.filterMap component? := by
  simp [components, h]

/-- A relative path has the components of its parts, after a dot if it starts with one. -/
theorem components_of_relative {p : Path} (h : p.isAbsolute = false) :
    p.components = (if (Text.cut '/' p.text).head? = some "." then [.here] else []) ++
      p.parts.filterMap component? := by
  simp only [components, h, Bool.false_eq_true, if_false]
  split
  · next hh => simp [hh]
  · next hh => rw [if_neg hh, List.nil_append]

theorem filterMap_component?_ne_root {parts : List String} {c : Component}
    (h : c ∈ parts.filterMap component?) : c ≠ .root ∧ c ≠ .here := by
  obtain ⟨part, -, hc⟩ := List.mem_filterMap.mp h
  unfold component? at hc
  split_ifs at hc <;> simp at hc <;> subst hc <;> simp

theorem root_mem_components {p : Path} : .root ∈ p.components ↔ p.isAbsolute = true := by
  constructor
  · intro h
    by_contra habs
    rw [Bool.not_eq_true] at habs
    rw [components_of_relative habs] at h
    rcases List.mem_append.mp h with h | h
    · split at h <;> simp at h
    · exact (filterMap_component?_ne_root h).1 rfl
  · intro h
    rw [components_of_isAbsolute h]
    exact List.mem_cons_self

/-- What follows a path does not change how it starts. -/
theorem head?_cut_join {base p : Path} (hb : base.text ≠ "") (h : p.isAbsolute = false) :
    (Text.cut '/' (base.join p).text).head? = (Text.cut '/' base.text).head? := by
  have hcut : ∀ s t : String, (Text.cut '/' (s ++ "/" ++ t)).head? = (Text.cut '/' s).head? := by
    intro s t
    obtain ⟨part, rest, hp⟩ := List.exists_cons_of_ne_nil (Text.cut_ne_nil '/' s)
    simp [Text.cut_append_slash, hp]
  unfold join
  by_cases hs : base.endsWithSlash = true
  · obtain ⟨s, hs'⟩ := exists_eq_append_slash hs
    have hbare := hcut s ""
    rw [String.append_empty] at hbare
    simp [h, hs, hs', hcut, hbare]
  · simp [h, hb, hs, hcut]

/-- A relative path adds its components to those of the path that it follows; a dot at its start is
none of them then. -/
theorem components_join {base p : Path} (hb : base.text ≠ "") (h : p.isAbsolute = false) :
    (base.join p).components = base.components ++ p.parts.filterMap component? := by
  have habs : (base.join p).isAbsolute = base.isAbsolute := by simp [isAbsolute_join, h]
  have hparts : (base.join p).parts = base.parts ++ p.parts := parts_join h
  by_cases hbase : base.isAbsolute = true
  · rw [components_of_isAbsolute (habs.trans hbase), components_of_isAbsolute hbase, hparts]
    simp
  · rw [Bool.not_eq_true] at hbase
    rw [components_of_relative (habs.trans hbase), components_of_relative hbase, hparts,
      head?_cut_join hb h, List.filterMap_append, List.append_assoc]

/-! ### Parents -/

theorem dropWhile_suffix_reverse {α : Type} (keep : α → Bool) (l : List α) :
    (l.reverse.dropWhile keep).reverse <+: l := by
  have h := (List.dropWhile_suffix keep (l := l.reverse)).reverse
  rwa [List.reverse_reverse] at h

theorem trimParts_isPrefix (parts : List String) : trimParts parts <+: parts := by
  cases parts with
  | nil => exact List.prefix_refl _
  | cons first rest => exact List.cons_prefix_cons.mpr ⟨rfl, dropWhile_suffix_reverse ..⟩

/-- A path with components keeps more than its first part when it is trimmed, if that part is
empty. -/
theorem trimParts_dropLast_ne_nil {rest : List String}
    (h : (("" :: rest).filter (· ≠ "")).filterMap component? ≠ []) :
    (trimParts ("" :: rest)).dropLast ≠ [] := by
  intro hnil
  have hall : ∀ part ∈ rest, isEmptyPart part = true := by
    have hdrop : rest.reverse.dropWhile isEmptyPart = [] := by
      by_contra hne
      obtain ⟨c, cs, hcs⟩ := List.exists_cons_of_ne_nil (mt List.reverse_eq_nil_iff.mp hne)
      simp [trimParts, hcs] at hnil
    intro part hmem
    exact List.dropWhile_eq_nil_iff.mp hdrop part (List.mem_reverse.mpr hmem)
  apply h
  rw [List.filterMap_eq_nil_iff]
  intro part hpart
  rw [List.mem_filter] at hpart
  obtain ⟨hmem, hne⟩ := hpart
  have hne : part ≠ "" := by simpa using hne
  rcases List.mem_cons.mp hmem with rfl | hmem
  · exact absurd rfl hne
  · have := hall part hmem
    simp only [isEmptyPart, Bool.or_eq_true, decide_eq_true_eq, hne, false_or] at this
    exact component?_eq_none.mpr this

theorem trimParts_ne_nil {parts : List String} (h : parts ≠ []) : trimParts parts ≠ [] := by
  obtain ⟨first, rest, rfl⟩ := List.exists_cons_of_ne_nil h
  exact List.cons_ne_nil _ _

theorem parts_parent?_of_kept {p : Path} {kept : List String} (hpre : kept <+: Text.cut '/' p.text)
    (hne : kept ≠ []) (hroot : kept ≠ [""]) (htext : p.text ≠ "") :
    (Path.mk (Text.join "/" kept)).parts <+: p.parts ∧
      (Path.mk (Text.join "/" kept)).isAbsolute = p.isAbsolute := by
  have hslash : ∀ part ∈ kept, '/' ∉ part.toList := fun part hpart =>
    Text.not_mem_of_mem_cut (hpre.subset hpart)
  have hcut : Text.cut '/' (Text.join "/" kept) = kept := Text.cut_join hne hslash
  have hempty : Text.join "/" kept ≠ "" := by
    intro e
    rw [e] at hcut
    exact hroot hcut.symm
  refine ⟨?_, ?_⟩
  · unfold parts
    rw [hcut]
    exact hpre.filter _
  · obtain ⟨more, hmore⟩ := hpre
    rw [Bool.eq_iff_iff, isAbsolute_iff_cut, isAbsolute_iff_cut, hcut, ← hmore,
      List.head?_append_of_ne_nil _ hne]
    simp [hempty, htext]

/-- Something is left of an absolute path with a component after the root. -/
theorem not_isAbsolute_of_trimmed {p : Path} (hroot : p.components ≠ [.root])
    (hnil : trimParts (trimParts (Text.cut '/' p.text)).dropLast = []) : p.isAbsolute = false := by
  rw [← Bool.not_eq_true]
  intro habs
  obtain ⟨rest, hrest⟩ : ∃ rest, Text.cut '/' p.text = "" :: rest := by
    obtain ⟨part, rest, hp⟩ := List.exists_cons_of_ne_nil (Text.cut_ne_nil '/' p.text)
    have hhead := (isAbsolute_iff_cut.mp habs).1
    rw [hp, List.head?_cons, Option.some.injEq] at hhead
    exact ⟨rest, by rw [hp, hhead]⟩
  have hcomps : p.parts.filterMap component? ≠ [] := by
    intro e
    have hc := components_of_isAbsolute habs
    rw [e] at hc
    exact hroot hc
  unfold parts at hcomps
  rw [hrest] at hcomps hnil
  exact trimParts_ne_nil (trimParts_dropLast_ne_nil hcomps) hnil

/-- A parent starts where the path starts and loses parts only at the end. -/
theorem parts_parent? {p q : Path} (h : p.parent? = some q) :
    q.parts <+: p.parts ∧ q.isAbsolute = p.isAbsolute := by
  have htext : p.text ≠ "" := by
    intro e
    have : p.components = [] := by simp [components, parts, isAbsolute, e]; decide
    simp [parent?, this] at h
  have hpre : trimParts (trimParts (Text.cut '/' p.text)).dropLast <+: Text.cut '/' p.text :=
    (trimParts_isPrefix _).trans ((List.dropLast_prefix _).trans (trimParts_isPrefix _))
  unfold parent? at h
  split at h
  · exact absurd h (by simp)
  · exact absurd h (by simp)
  · next hnil hrooted =>
    split at h
    · next hk =>
      -- only the root is left
      obtain rfl : (⟨"/"⟩ : Path) = q := Option.some.inj h
      have hhead : (Text.cut '/' p.text).head? = some "" := by
        obtain ⟨more, hmore⟩ := hpre
        rw [← hmore, hk]
        rfl
      have habs : p.isAbsolute = true := isAbsolute_iff_cut.mpr ⟨hhead, htext⟩
      exact ⟨by simp [parts, show Text.cut '/' "/" = ["", ""] by decide], by rw [habs]; decide⟩
    · next hk =>
      obtain rfl := Option.some.inj h
      by_cases hne : trimParts (trimParts (Text.cut '/' p.text)).dropLast = []
      · -- nothing is left, so that the path was a single name
        have habs : p.isAbsolute = false :=
          not_isAbsolute_of_trimmed (fun e => hrooted [] (by rw [e]; rfl)) hne
        rw [hne]
        exact ⟨by simp [Text.join], by rw [habs]; decide⟩
      · exact parts_parent?_of_kept hpre hne (fun e => hk e) htext

end ReviewMentor.Path
