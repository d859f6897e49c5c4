import ReviewMentor.Text.Split

/-!
# Cutting and joining

Cutting a text at a mark and joining the parts with that mark are inverse to each other, as long as
no part holds the mark. Cutting goes through a mark: what precedes it and what follows it are cut on
their own.
-/

namespace ReviewMentor.Text

section Characters

variable {mark : Char}

theorem cutAt_ne_nil (mark : Char) (cs : List Char) : cutAt mark cs ≠ [] := by
  cases cs with
  | nil => simp [cutAt]
  | cons c rest =>
    unfold cutAt
    split
    · simp
    · split <;> simp

theorem cutAt_of_not_mem {cs : List Char} (h : mark ∉ cs) : cutAt mark cs = [cs] := by
  induction cs with
  | nil => rfl
  | cons c rest ih =>
    have hc : c ≠ mark := fun e => h (e ▸ List.mem_cons_self)
    have hrest : mark ∉ rest := fun hm => h (List.mem_cons_of_mem _ hm)
    simp [cutAt, hc, ih hrest]

/-- Cutting goes through a mark. -/
theorem cutAt_append_mark (cs ds : List Char) :
    cutAt mark (cs ++ mark :: ds) = cutAt mark cs ++ cutAt mark ds := by
  induction cs with
  | nil => simp [cutAt]
  | cons c rest ih =>
    by_cases hc : c = mark
    · simp [cutAt, hc, ih]
    · obtain ⟨part, parts, hp⟩ := List.exists_cons_of_ne_nil (cutAt_ne_nil mark rest)
      simp [cutAt, hc, ih, hp]

/-- What holds no mark goes on with the last part. -/
theorem cutAt_append_of_not_mem {cs ds : List Char} (h : mark ∉ ds) :
    cutAt mark (cs ++ ds) =
      (cutAt mark cs).dropLast ++ [((cutAt mark cs).getLast?.getD []) ++ ds] := by
  induction cs with
  | nil => simp [cutAt, cutAt_of_not_mem h]
  | cons c rest ih =>
    obtain ⟨part, parts, hp⟩ := List.exists_cons_of_ne_nil (cutAt_ne_nil mark rest)
    rw [hp] at ih
    by_cases hc : c = mark
    · simp [cutAt, hc, hp, ih]
    · rw [List.cons_append, cutAt, if_neg hc, ih, cutAt, if_neg hc, hp]
      rcases parts with _ | ⟨next, more⟩ <;> simp

theorem not_mem_of_mem_cutAt {cs part : List Char} (h : part ∈ cutAt mark cs) : mark ∉ part := by
  induction cs generalizing part with
  | nil =>
    obtain rfl : part = [] := by simpa [cutAt] using h
    exact List.not_mem_nil
  | cons c rest ih =>
    by_cases hc : c = mark
    · rw [cutAt, if_pos hc] at h
      rcases List.mem_cons.mp h with rfl | h
      · exact List.not_mem_nil
      · exact ih h
    · obtain ⟨first, parts, hp⟩ := List.exists_cons_of_ne_nil (cutAt_ne_nil mark rest)
      rw [cutAt, if_neg hc, hp] at h
      rcases List.mem_cons.mp h with rfl | h
      · have hfirst : mark ∉ first := ih (by rw [hp]; exact List.mem_cons_self)
        simpa [Ne.symm hc] using hfirst
      · exact ih (by rw [hp]; exact List.mem_cons_of_mem _ h)

/-- The parts hold what the text holds, but for the marks. -/
theorem mem_cutAt {c : Char} {cs : List Char} (hc : c ≠ mark) :
    (∃ part ∈ cutAt mark cs, c ∈ part) ↔ c ∈ cs := by
  induction cs with
  | nil => simp [cutAt]
  | cons d rest ih =>
    by_cases hd : d = mark
    · simp [cutAt, hd, hc, ih]
    · obtain ⟨part, parts, hp⟩ := List.exists_cons_of_ne_nil (cutAt_ne_nil mark rest)
      rw [hp] at ih
      rw [cutAt, if_neg hd, hp, List.mem_cons, ← ih]
      simp [or_assoc]

end Characters

/-! ### Texts -/

theorem cut_ne_nil (mark : Char) (s : String) : cut mark s ≠ [] := by
  simpa [cut] using cutAt_ne_nil mark s.toList

theorem not_mem_of_mem_cut {mark : Char} {s part : String} (h : part ∈ cut mark s) :
    mark ∉ part.toList := by
  obtain ⟨cs, hcs, rfl⟩ := List.mem_map.mp h
  simpa using not_mem_of_mem_cutAt hcs

theorem mem_cut {mark c : Char} {s : String} (hc : c ≠ mark) :
    (∃ part ∈ cut mark s, c ∈ part.toList) ↔ c ∈ s.toList := by
  rw [← mem_cutAt hc]
  constructor
  · rintro ⟨part, hpart, hmem⟩
    obtain ⟨cs, hcs, rfl⟩ := List.mem_map.mp hpart
    exact ⟨cs, hcs, by simpa using hmem⟩
  · rintro ⟨cs, hcs, hmem⟩
    exact ⟨_, List.mem_map_of_mem hcs, by simpa using hmem⟩

theorem cut_of_not_mem {mark : Char} {s : String} (h : mark ∉ s.toList) : cut mark s = [s] := by
  simp [cut, cutAt_of_not_mem h]

theorem cut_append_of_not_mem {mark : Char} {s t : String} (h : mark ∉ t.toList) :
    cut mark (s ++ t) = (cut mark s).dropLast ++ [((cut mark s).getLast?.getD "") ++ t] := by
  have hlast : ((cutAt mark s.toList).map String.ofList).getLast?.getD "" =
      String.ofList ((cutAt mark s.toList).getLast?.getD []) := by
    rw [List.getLast?_map]
    rcases (cutAt mark s.toList).getLast? with _ | cs <;> rfl
  unfold cut
  rw [String.toList_append, cutAt_append_of_not_mem h, hlast]
  simp [List.map_dropLast]

/-- A mark between two texts keeps their parts apart. -/
theorem cut_append_separator {mark : Char} {separator : String} (h : separator.toList = [mark])
    (s t : String) : cut mark (s ++ separator ++ t) = cut mark s ++ cut mark t := by
  have hcs : (s ++ separator ++ t).toList = s.toList ++ mark :: t.toList := by simp [h]
  rw [cut, hcs, cutAt_append_mark, List.map_append]
  rfl

/-- A slash between two texts keeps their parts apart. -/
theorem cut_append_slash (s t : String) :
    cut '/' (s ++ "/" ++ t) = cut '/' s ++ cut '/' t :=
  cut_append_separator rfl s t

/-- What is joined by a mark is cut into the same parts. -/
theorem cut_join_separator {mark : Char} {separator : String} (hmark : separator.toList = [mark])
    {parts : List String} (hne : parts ≠ []) (h : ∀ part ∈ parts, mark ∉ part.toList) :
    cut mark (join separator parts) = parts := by
  induction parts with
  | nil => exact absurd rfl hne
  | cons part rest ih =>
    have hpart : mark ∉ part.toList := h part List.mem_cons_self
    cases rest with
    | nil => rw [join, String.intercalate_singleton, cut_of_not_mem hpart]
    | cons next more =>
      have hmore := ih (List.cons_ne_nil _ _) fun p hp => h p (List.mem_cons_of_mem _ hp)
      rw [join, String.intercalate_cons_cons, cut_append_separator hmark, cut_of_not_mem hpart]
      exact congrArg (part :: ·) hmore

/-- What is joined by slashes is cut into the same parts. -/
theorem cut_join {parts : List String} (hne : parts ≠ [])
    (h : ∀ part ∈ parts, '/' ∉ part.toList) : cut '/' (join "/" parts) = parts :=
  cut_join_separator rfl hne h

/-- A separator stands between parts that are joined and more of them. -/
theorem join_append {separator : String} {parts more : List String} (hparts : parts ≠ [])
    (hmore : more ≠ []) :
    join separator (parts ++ more) = join separator parts ++ separator ++ join separator more := by
  induction parts with
  | nil => exact absurd rfl hparts
  | cons part rest ih =>
    by_cases hrest : rest = []
    · rw [hrest, join, join, List.singleton_append, String.intercalate_singleton,
        String.intercalate_cons_of_ne_nil hmore]
      rfl
    · have hall := ih hrest
      unfold join at hall ⊢
      rw [List.cons_append, String.intercalate_cons_of_ne_nil (by simp [hrest]), hall,
        String.intercalate_cons_of_ne_nil hrest]
      simp only [String.append_assoc]

/-- The parts of a text, joined by slashes, are the text. -/
theorem join_cut (s : String) : join "/" (cut '/' s) = s := by
  have key : ∀ cs : List Char, join "/" ((cutAt '/' cs).map String.ofList) = String.ofList cs := by
    intro cs
    induction cs with
    | nil => rfl
    | cons c rest ih =>
      obtain ⟨part, parts, hp⟩ := List.exists_cons_of_ne_nil (cutAt_ne_nil '/' rest)
      by_cases hc : c = '/'
      · have hne : (cutAt '/' rest).map String.ofList ≠ [] := by simp [hp]
        rw [cutAt, if_pos hc, List.map_cons, join, String.intercalate_cons_of_ne_nil hne]
        rw [join] at ih
        rw [ih, hc]
        apply String.toList_inj.mp
        simp
      · rw [hp, List.map_cons] at ih
        rw [cutAt, if_neg hc, hp, List.map_cons]
        have hpart : String.ofList (c :: part) = String.ofList [c] ++ String.ofList part := by
          apply String.toList_inj.mp
          simp
        rw [hpart, join, String.intercalate_cons_append]
        rw [join] at ih
        rw [ih]
        apply String.toList_inj.mp
        simp
  simpa [cut] using key s.toList

end ReviewMentor.Text
