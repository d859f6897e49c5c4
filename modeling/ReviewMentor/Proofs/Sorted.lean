import Mathlib.Tactic.Common
import ReviewMentor.Ordered

/-!
# Sets and maps in order

The lists that stand for sets and maps are in strict order. Every operation keeps that order, and a
list in order is the set or the map of its own elements.
-/

namespace ReviewMentor.Ordered

variable {α : Type} {name other : String} {value : α} {names : List String}
  {pairs : List (String × α)}

/-- Texts in strict order. -/
def Sorted (names : List String) : Prop := names.Pairwise (· < ·)

instance : Decidable (Sorted names) := inferInstanceAs (Decidable (names.Pairwise (· < ·)))

/-- The names of a map. -/
def keys (pairs : List (String × α)) : List String := pairs.map Prod.fst

theorem lt_of_not (h : ¬ name < other) (hne : name ≠ other) : other < name := by
  by_contra hle
  exact hne (String.le_antisymm (String.not_lt.mp hle) (String.not_lt.mp h))

/-! ### Sets -/

theorem mem_insert : other ∈ insert name names ↔ other = name ∨ other ∈ names := by
  induction names with
  | nil => simp [insert]
  | cons first rest ih =>
    unfold insert
    split_ifs with hlt heq
    · simp
    · simp [heq]
    · simp only [List.mem_cons, ih]
      tauto

theorem Sorted.insert (h : Sorted names) (name : String) : Sorted (insert name names) := by
  induction names with
  | nil => exact List.pairwise_singleton ..
  | cons first rest ih =>
    obtain ⟨hfirst, hrest⟩ := List.pairwise_cons.mp h
    unfold Ordered.insert
    split_ifs with hlt heq
    · refine List.pairwise_cons.mpr ⟨fun x hx => ?_, h⟩
      rcases List.mem_cons.mp hx with rfl | hx
      · exact hlt
      · exact String.lt_trans hlt (hfirst x hx)
    · exact h
    · refine List.pairwise_cons.mpr ⟨fun x hx => ?_, ih hrest⟩
      rcases mem_insert.mp hx with rfl | hx
      · exact lt_of_not hlt heq
      · exact hfirst x hx

theorem sorted_ofList (names : List String) : Sorted (ofList names) := by
  have hfold : ∀ set, Sorted set → Sorted (names.foldl (fun set name => insert name set) set) := by
    induction names with
    | nil => exact fun _ h => h
    | cons name rest ih => exact fun set h => ih _ (h.insert name)
  exact hfold [] .nil

theorem insert_last (h : ∀ x ∈ names, x < name) : insert name names = names ++ [name] := by
  induction names with
  | nil => rfl
  | cons first rest ih =>
    have hfirst := h first (by simp)
    have hne : name ≠ first := fun heq => String.lt_irrefl _ (heq ▸ hfirst)
    rw [insert, if_neg (String.lt_asymm hfirst), if_neg hne, ih fun x hx => h x (by simp [hx])]
    rfl

/-- A list in order is the set of its elements. -/
theorem Sorted.ofList_eq (h : Sorted names) : ofList names = names := by
  have hfold : ∀ set, Sorted (set ++ names) →
      names.foldl (fun set name => Ordered.insert name set) set = set ++ names := by
    induction names with
    | nil => exact fun set _ => (List.append_nil set).symm
    | cons name rest ih =>
      intro set hset
      obtain ⟨-, -, hbefore⟩ := List.pairwise_append.mp hset
      rw [List.foldl_cons, insert_last fun x hx => hbefore x hx name (by simp)]
      rw [ih (List.pairwise_cons.mp h).2 _ (by simpa using hset)]
      simp
  exact hfold [] h

/-! ### Maps -/

theorem mem_keys_put : other ∈ keys (put name value pairs) ↔ other = name ∨ other ∈ keys pairs := by
  induction pairs with
  | nil => simp [put, keys]
  | cons p rest ih =>
    obtain ⟨first, old⟩ := p
    unfold put
    split_ifs with hlt heq
    · simp [keys]
    · simp [keys, heq]
    · simp only [keys, List.map_cons, List.mem_cons] at ih ⊢
      rw [ih]
      tauto

theorem mem_put {p : String × α} (h : p ∈ put name value pairs) :
    p = (name, value) ∨ p ∈ pairs := by
  induction pairs with
  | nil => exact .inl (by simpa [put] using h)
  | cons q rest ih =>
    obtain ⟨first, old⟩ := q
    unfold put at h
    split_ifs at h with hlt heq
    · exact List.mem_cons.mp h
    · rcases List.mem_cons.mp h with rfl | h
      · exact .inl rfl
      · exact .inr (by simp [h])
    · rcases List.mem_cons.mp h with rfl | h
      · exact .inr (by simp)
      · exact (ih h).imp_right fun h => by simp [h]

theorem Sorted.put (h : Sorted (keys pairs)) (name : String) (value : α) :
    Sorted (keys (put name value pairs)) := by
  induction pairs with
  | nil => exact List.pairwise_singleton ..
  | cons p rest ih =>
    obtain ⟨first, old⟩ := p
    obtain ⟨hfirst, hrest⟩ := List.pairwise_cons.mp h
    unfold Ordered.put
    split_ifs with hlt heq
    · refine List.pairwise_cons.mpr ⟨fun x hx => ?_, h⟩
      rcases List.mem_cons.mp hx with rfl | hx
      · exact hlt
      · exact String.lt_trans hlt (hfirst x hx)
    · subst heq
      exact h
    · refine List.pairwise_cons.mpr ⟨fun x hx => ?_, ih hrest⟩
      rcases mem_keys_put.mp hx with rfl | hx
      · exact lt_of_not hlt heq
      · exact hfirst x hx

theorem sorted_ofPairs (pairs : List (String × α)) : Sorted (keys (ofPairs pairs)) := by
  have hfold : ∀ map, Sorted (keys map) →
      Sorted (keys (pairs.foldl (fun map p => put p.1 p.2 map) map)) := by
    induction pairs with
    | nil => exact fun _ h => h
    | cons p rest ih => exact fun map h => ih _ (h.put p.1 p.2)
  exact hfold [] .nil

theorem lookup_put_self : (put name value pairs).lookup name = some value := by
  induction pairs with
  | nil => simp [put]
  | cons p rest ih =>
    obtain ⟨first, old⟩ := p
    unfold put
    split_ifs with hlt heq
    · simp
    · simp
    · rw [List.lookup_cons, beq_eq_false_iff_ne.mpr heq]
      exact ih

theorem lookup_put_of_ne (hne : other ≠ name) :
    (put name value pairs).lookup other = pairs.lookup other := by
  have hskip : (other == name) = false := beq_eq_false_iff_ne.mpr hne
  induction pairs with
  | nil => simp [put, List.lookup_cons, hskip]
  | cons p rest ih =>
    obtain ⟨first, old⟩ := p
    unfold put
    split_ifs with hlt heq
    · rw [List.lookup_cons, hskip]
    · rw [List.lookup_cons, hskip, List.lookup_cons, ← heq, hskip]
    · rw [List.lookup_cons, List.lookup_cons, ih]

theorem mem_of_mem_ofPairs {p : String × α} (h : p ∈ ofPairs pairs) : p ∈ pairs := by
  have hfold : ∀ map, p ∈ pairs.foldl (fun map p => put p.1 p.2 map) map →
      p ∈ map ∨ p ∈ pairs := by
    clear h
    induction pairs with
    | nil => exact fun _ h => .inl h
    | cons q rest ih =>
      intro map h
      rcases ih _ h with h | h
      · rcases mem_put h with rfl | h
        · exact .inr (by simp)
        · exact .inl h
      · exact .inr (by simp [h])
  exact (hfold [] h).resolve_left (by simp)

theorem put_last (h : ∀ x ∈ keys pairs, x < name) (value : α) :
    put name value pairs = pairs ++ [(name, value)] := by
  induction pairs with
  | nil => rfl
  | cons p rest ih =>
    obtain ⟨first, old⟩ := p
    have hfirst : first < name := h first (by simp [keys])
    have hne : name ≠ first := fun heq => String.lt_irrefl _ (heq ▸ hfirst)
    rw [put, if_neg (String.lt_asymm hfirst), if_neg hne, ih fun x hx => h x (by
      simp only [keys, List.map_cons, List.mem_cons] at hx ⊢
      exact .inr hx)]
    rfl

/-- A list of pairs in the order of their names is the map of its pairs. -/
theorem Sorted.ofPairs_eq (h : Sorted (keys pairs)) : ofPairs pairs = pairs := by
  have hfold : ∀ map, Sorted (keys (map ++ pairs)) →
      pairs.foldl (fun map p => Ordered.put p.1 p.2 map) map = map ++ pairs := by
    induction pairs with
    | nil => exact fun map _ => (List.append_nil map).symm
    | cons p rest ih =>
      intro map hmap
      have hsplit : Sorted (keys map ++ keys (p :: rest)) := by
        simpa [keys] using hmap
      obtain ⟨-, -, hbefore⟩ := List.pairwise_append.mp hsplit
      rw [List.foldl_cons, put_last fun x hx => hbefore x hx p.1 (by simp [keys])]
      rw [ih (List.pairwise_cons.mp h).2 _ (by simpa using hmap)]
      simp
  exact hfold [] h

end ReviewMentor.Ordered
