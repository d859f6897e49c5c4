import ReviewMentor.Proofs.Json.Written

/-!
# Parsing written values

A value whose numbers are whole and that is not nested too deep is parsed from both of its written
forms as itself, but for its members: they come out in the order of their names, and of several with
one name the last is kept.
-/

namespace ReviewMentor.Json

mutual

/-- The value with the members of its objects in the order of their names. -/
def ordered : Json → Json
  | array items => .array (orderedItems items)
  | object members => .object (sortMembers (orderedMembers members))
  | j => j

/-- The items, each with its members in order. -/
def orderedItems : List Json → List Json
  | [] => []
  | item :: rest => ordered item :: orderedItems rest

/-- The members, each with the members of its value in order. -/
def orderedMembers : List (String × Json) → List (String × Json)
  | [] => []
  | (name, value) :: rest => (name, ordered value) :: orderedMembers rest

end

mutual

/-- How deep arrays and objects are nested in a value. -/
def depth : Json → Nat
  | array items => itemsDepth items + 1
  | object members => membersDepth members + 1
  | _ => 0

/-- How deep the items are nested. -/
def itemsDepth : List Json → Nat
  | [] => 0
  | item :: rest => max (depth item) (itemsDepth rest)

/-- How deep the values of members are nested. -/
def membersDepth : List (String × Json) → Nat
  | [] => 0
  | (_, value) :: rest => max (depth value) (membersDepth rest)

end

mutual

/-- The draft of a value has the value, if the limit of nesting is not below its depth. -/
theorem toJson?_draftOf : ∀ (j : Json) (limit : Nat), j.isPlain = true → j.depth ≤ limit →
    (draftOf j).toJson? limit = some j.ordered
  | null, _, _, _ | bool _, _, _, _ => by simp [draftOf, Draft.toJson?, ordered]
  | string s, _, _, _ => by simp [draftOf, Draft.toJson?, ordered, joinPieces?_piecesOf]
  | number (.int n), _, hplain, _ => by
    rw [isPlain, decide_eq_true_eq] at hplain
    simp [draftOf, Draft.toJson?, ordered, number?_render hplain]
  | number (.real _), _, hplain, _ => absurd hplain (by simp [isPlain])
  | array items, limit, hplain, hdepth => by
    rw [depth] at hdepth
    obtain ⟨inner, rfl⟩ := Nat.exists_eq_add_of_le' (Nat.le_trans (Nat.le_add_left 1 _) hdepth)
    rw [draftOf, Draft.toJson?, itemsToJson?_draftsOf items inner (by simpa [isPlain] using hplain)
      (Nat.le_of_succ_le_succ hdepth), Option.map_some, ordered]
  | object members, limit, hplain, hdepth => by
    rw [depth] at hdepth
    obtain ⟨inner, rfl⟩ := Nat.exists_eq_add_of_le' (Nat.le_trans (Nat.le_add_left 1 _) hdepth)
    rw [draftOf, Draft.toJson?, membersToJson?_memberDrafts members inner
      (by simpa [isPlain] using hplain) (Nat.le_of_succ_le_succ hdepth), Option.map_some, ordered]

theorem itemsToJson?_draftsOf : ∀ (items : List Json) (limit : Nat), allPlain items = true →
    itemsDepth items ≤ limit →
      Draft.itemsToJson? limit (draftsOf items) = some (orderedItems items)
  | [], _, _, _ => rfl
  | item :: rest, limit, hplain, hdepth => by
    rw [allPlain, Bool.and_eq_true] at hplain
    rw [itemsDepth, Nat.max_le] at hdepth
    rw [draftsOf, Draft.itemsToJson?, toJson?_draftOf item limit hplain.1 hdepth.1,
      itemsToJson?_draftsOf rest limit hplain.2 hdepth.2]
    rfl

theorem membersToJson?_memberDrafts : ∀ (members : List (String × Json)) (limit : Nat),
    membersPlain members = true → membersDepth members ≤ limit →
      Draft.membersToJson? limit (memberDrafts members) = some (orderedMembers members)
  | [], _, _, _ => rfl
  | (name, value) :: rest, limit, hplain, hdepth => by
    rw [membersPlain, Bool.and_eq_true] at hplain
    rw [membersDepth, Nat.max_le] at hdepth
    rw [memberDrafts, Draft.membersToJson?, joinPieces?_piecesOf,
      toJson?_draftOf value limit hplain.1 hdepth.1,
      membersToJson?_memberDrafts rest limit hplain.2 hdepth.2]
    simp [orderedMembers]

end

/-- **A written value is parsed again**, with its members in order. -/
theorem parse?_written {j : Json} {written : String} (hplain : j.isPlain = true)
    (hdepth : j.depth ≤ depthLimit) (h : j.IsText written) : parse? written = some j.ordered := by
  rw [parse?, Draft.read?, scan_written hplain h]
  exact toJson?_draftOf j depthLimit hplain hdepth

end ReviewMentor.Json
