import ReviewMentor.Proofs.Json.Written

/-!
# Reading records of written values

What each reader makes of the draft of a written value. A record is read field by field: a field
takes the one member that bears one of its names, wherever it stands, and members that no field
knows are passed over.
-/

namespace ReviewMentor.Json

variable {α β : Type} {s name : String} {a : α} {f : α → β} {encode : α → Json} {v : Json}
  {read : Decode α} {named : String → Option α} {names : List String}
  {members : List (String × Json)}

/-! ### Single values -/

theorem pieceText_piecesOf (s : String) : Draft.pieceText (piecesOf s) = .ok s := by
  simp [Draft.pieceText, joinPieces?_piecesOf]

theorem text_string (s : String) : Draft.text (draftOf (.string s)) = .ok s :=
  pieceText_piecesOf s

theorem truth_bool (b : Bool) : Draft.truth (draftOf (.bool b)) = .ok b := rfl

theorem whole_int {n least greatest : Int} (hwhole : IsWhole n) (hleast : least ≤ n)
    (hgreatest : n ≤ greatest) : Draft.whole least greatest (draftOf (.int n)) = .ok n := by
  simp [int, draftOf, Draft.whole, number?_render hwhole, hleast, hgreatest]

theorem isWhole_ofNat {n : Nat} (h : n < 2 ^ 64) : IsWhole n := by
  simp only [IsWhole, wholeRange]
  omega

theorem natural_nat {n : Nat} (h : n < 2 ^ 32) : Draft.natural 32 (draftOf (.nat n)) = .ok n := by
  have hwhole : Draft.whole 0 (2 ^ 32 - 1) (draftOf (.int n)) = .ok (n : Int) :=
    whole_int (isWhole_ofNat (by omega)) (by omega) (by omega)
  rw [nat, Draft.natural, hwhole]
  rfl

theorem word_string (h : named s = some a) : Draft.word named (draftOf (.string s)) = .ok a := by
  simp [draftOf, Draft.word, pieceText_piecesOf, h, bind, Except.bind, pure, Except.pure]

theorem nullable_some (hread : read (draftOf v) = .ok a) (hvalue : draftOf v ≠ .null) :
    Draft.nullable read (draftOf v) = .ok (some a) := by
  unfold Draft.nullable
  split
  · next hnull => exact absurd hnull hvalue
  · rw [hread]
    rfl

theorem nullable_optional (o : Option α)
    (hread : ∀ a ∈ o, read (draftOf (encode a)) = .ok a)
    (hvalue : ∀ a ∈ o, draftOf (encode a) ≠ .null) :
    Draft.nullable read (draftOf (.optional encode o)) = .ok o := by
  cases o with
  | none => rfl
  | some a => exact nullable_some (hread a rfl) (hvalue a rfl)

/-! ### Arrays and tables -/

theorem draftsOf_eq (items : List Json) : draftsOf items = items.map draftOf := by
  induction items with
  | nil => rfl
  | cons item rest ih => rw [draftsOf, ih, List.map_cons]

theorem memberDrafts_eq (members : List (String × Json)) :
    memberDrafts members = members.map fun m => (piecesOf m.1, draftOf m.2) := by
  induction members with
  | nil => rfl
  | cons m rest ih => rw [memberDrafts, ih, List.map_cons]

theorem list_array {as : List α} (h : ∀ a ∈ as, read (draftOf (encode a)) = .ok a) :
    Draft.list read (draftOf (.array (as.map encode))) = .ok as := by
  have hitems : Draft.items read (draftsOf (as.map encode)) = .ok as := by
    induction as with
    | nil => rfl
    | cons a as ih =>
      rw [List.map_cons, draftsOf, Draft.items, h a (by simp), ih fun b hb => h b (by simp [hb])]
      rfl
  exact hitems

theorem list_strings (items : List String) :
    Draft.list Draft.text (draftOf (.strings items)) = .ok items :=
  list_array fun s _ => text_string s

theorem table_object {entries : List (String × α)}
    (h : ∀ e ∈ entries, read (draftOf (encode e.2)) = .ok e.2) :
    Draft.table read (draftOf (.object (entries.map fun e => (e.1, encode e.2)))) =
      .ok entries := by
  have hentries :
      Draft.entries read (memberDrafts (entries.map fun e => (e.1, encode e.2))) = .ok entries := by
    induction entries with
    | nil => rfl
    | cons e rest ih =>
      rw [List.map_cons, memberDrafts, Draft.entries, pieceText_piecesOf, h e (by simp),
        ih fun b hb => h b (by simp [hb])]
      rfl
  exact hentries

/-! ### Members that are passed over -/

mutual

theorem isWhole_draftOf : ∀ j : Json, (draftOf j).isWhole = true
  | null | bool _ | number _ | string _ => rfl
  | array items => allWhole_draftsOf items
  | object members => membersWhole_memberDrafts members

theorem allWhole_draftsOf : ∀ items : List Json, Draft.allWhole (draftsOf items) = true
  | [] => rfl
  | item :: rest => by
    rw [draftsOf, Draft.allWhole, isWhole_draftOf item, allWhole_draftsOf rest, Bool.and_self]

theorem membersWhole_memberDrafts : ∀ members : List (String × Json),
    Draft.membersWhole (memberDrafts members) = true
  | [] => rfl
  | (name, value) :: rest => by
    rw [memberDrafts, Draft.membersWhole, isWhole_draftOf value, membersWhole_memberDrafts rest,
      Bool.and_self]

end

namespace Record

variable {r : Record (α → β)} {q : Record α} {missing? cutOff? : Option α}

/-- A record does not know a name. -/
def Ignores (r : Record β) (name : String) : Prop := ∀ d slots, r.put name d slots = none

@[simp] theorem ignores_start (b : β) (name : String) : (start b).Ignores name := fun _ _ => rfl

theorem ignores_field : (field names read missing? cutOff?).Ignores name ↔ name ∉ names := by
  constructor
  · intro h hmem
    simpa [field, hmem] using h .null none
  · intro h d slots
    exact if_neg h

theorem ignores_and : (r.and q).Ignores name ↔ r.Ignores name ∧ q.Ignores name := by
  constructor
  · intro h
    have hboth (d : Draft) (slots : r.Slots) (slots' : q.Slots) :
        r.put name d slots = none ∧ q.put name d slots' = none := by
      have hput := h d (slots, slots')
      rcases hr : r.put name d slots with _ | result
      · exact ⟨rfl, by simpa [and, hr] using hput⟩
      · simp [and, hr] at hput
    exact ⟨fun d slots => (hboth d slots q.empty).1, fun d slots => (hboth d r.empty slots).2⟩
  · rintro ⟨hr, hq⟩ d slots
    simp [and, hr d slots.1, hq d slots.2]

@[simp] theorem ignores_needs :
    (r.needs names read).Ignores name ↔ r.Ignores name ∧ name ∉ names := by
  rw [needs, ignores_and, ignores_field]

@[simp] theorem ignores_defaults {other : String} :
    (r.defaults other read a).Ignores name ↔ r.Ignores name ∧ name ≠ other := by
  rw [defaults, ignores_and, ignores_field, List.mem_singleton]

/-! ### Filling the fields -/

theorem fill_nil (q : Record α) (slots : q.Slots) :
    q.fill slots (memberDrafts []) = .ok slots := rfl

theorem fill_cons (q : Record α) (slots : q.Slots) (name : String) (v : Json)
    (members : List (String × Json)) : q.fill slots (memberDrafts ((name, v) :: members)) =
      match q.put name (draftOf v) slots with
      | some (.ok filled) => q.fill filled (memberDrafts members)
      | some (.error e) => .error e
      | none => q.fill slots (memberDrafts members) := by
  rw [memberDrafts, fill, pieceText_piecesOf]
  dsimp only [bind, Except.bind]
  rcases q.put name (draftOf v) slots with _ | _ | filled
  · simp [isWhole_draftOf]
  · rfl
  · rfl

/-- The fields of two records side by side. -/
def beside (a : r.Slots) (b : q.Slots) : (r.and q).Slots := (a, b)

/-- One field, read or not. -/
def slot (names : List String) (read : Decode α) (missing? cutOff? : Option α) (a? : Option α) :
    (field names read missing? cutOff?).Slots := a?

/-- Two records that share no name are filled one beside the other. -/
theorem fill_and {slots filled : r.Slots} {slots' filled' : q.Slots}
    (hapart : ∀ name, r.Ignores name ∨ q.Ignores name)
    (hr : r.fill slots (memberDrafts members) = .ok filled)
    (hq : q.fill slots' (memberDrafts members) = .ok filled') :
    (r.and q).fill (beside slots slots') (memberDrafts members) = .ok (beside filled filled') := by
  induction members generalizing slots slots' with
  | nil =>
    obtain rfl := Except.ok.inj hr
    obtain rfl := Except.ok.inj hq
    rfl
  | cons m members ih =>
    obtain ⟨name, v⟩ := m
    rw [fill_cons] at hr hq ⊢
    rcases hapart name with hfree | hfree
    · rw [hfree] at hr
      have hput : (r.and q).put name (draftOf v) (beside slots slots') =
          (q.put name (draftOf v) slots').map (·.map (beside slots)) := by
        simp only [and, beside, hfree (draftOf v) slots]
        rfl
      rw [hput]
      rcases hknown : q.put name (draftOf v) slots' with _ | e | next <;>
        simp only [hknown] at hq
      · exact ih hr hq
      · exact absurd hq (by simp)
      · exact ih hr hq
    · rw [hfree] at hq
      rcases hknown : r.put name (draftOf v) slots with _ | e | next <;>
        simp only [hknown] at hr
      · have hput : (r.and q).put name (draftOf v) (beside slots slots') = none := by
          simp [and, beside, hknown, hfree (draftOf v) slots']
        rw [hput]
        exact ih hr hq
      · exact absurd hr (by simp)
      · have hput : (r.and q).put name (draftOf v) (beside slots slots') =
            some (.ok (beside next slots')) := by
          simp [and, beside, hknown, Except.map]
        rw [hput]
        exact ih hr hq

theorem fill_field_none (h : members.filter (·.1 ∈ names) = []) (a? : Option α) :
    (field names read missing? cutOff?).fill (slot names read missing? cutOff? a?)
      (memberDrafts members) = .ok (slot names read missing? cutOff? a?) := by
  induction members with
  | nil => rfl
  | cons m members ih =>
    obtain ⟨name, v⟩ := m
    rw [List.filter_eq_nil_iff] at h
    have hfree : name ∉ names := by simpa using h (name, v) (by simp)
    rw [fill_cons, ignores_field.mpr hfree]
    exact ih (List.filter_eq_nil_iff.mpr fun m hm => h m (by simp [hm]))

theorem fill_field_some (hone : members.filter (·.1 ∈ names) = [(name, v)])
    (hread : read (draftOf v) = .ok a) :
    (field names read missing? cutOff?).fill (slot names read missing? cutOff? none)
      (memberDrafts members) = .ok (slot names read missing? cutOff? (some a)) := by
  induction members with
  | nil => exact absurd hone (by simp)
  | cons m members ih =>
    by_cases hknown : m.1 ∈ names
    · rw [List.filter_cons_of_pos (by simpa using hknown)] at hone
      obtain ⟨rfl, hrest⟩ := List.cons_eq_cons.mp hone
      have hput : (field names read missing? cutOff?).put name (draftOf v)
          (slot names read missing? cutOff? none) =
            some (.ok (slot names read missing? cutOff? (some a))) := by
        simp only [field, slot, if_pos hknown, Option.isSome_none, Bool.false_eq_true, if_false,
          hread]
        rfl
      rw [fill_cons, hput]
      exact fill_field_none hrest _
    · rw [List.filter_cons_of_neg (by simpa using hknown)] at hone
      obtain ⟨other, w⟩ := m
      rw [fill_cons, ignores_field.mpr hknown]
      exact ih hone

/-! ### Records from members -/

/-- The members of an object give a record. -/
def Gives (q : Record α) (members : List (String × Json)) (a : α) : Prop :=
  ∃ filled, q.fill q.empty (memberDrafts members) = .ok filled ∧ q.build filled = .ok a

theorem Gives.read_object (h : q.Gives members a) : q.read (draftOf (.object members)) = .ok a := by
  obtain ⟨filled, hfill, hbuild⟩ := h
  show (q.fill q.empty (memberDrafts members)).bind q.build = .ok a
  rw [hfill]
  exact hbuild

theorem gives_start (b : β) (members : List (String × Json)) : (start b).Gives members b := by
  refine ⟨(), ?_, rfl⟩
  induction members with
  | nil => rfl
  | cons m members ih =>
    obtain ⟨name, v⟩ := m
    rw [fill_cons, ignores_start]
    exact ih

theorem Gives.and (hr : r.Gives members f) (hq : q.Gives members a)
    (hapart : ∀ name, r.Ignores name ∨ q.Ignores name) : (r.and q).Gives members (f a) := by
  obtain ⟨filled, hfill, hbuild⟩ := hr
  obtain ⟨filled', hfill', hbuild'⟩ := hq
  refine ⟨(filled, filled'), fill_and hapart hfill hfill', ?_⟩
  show (r.build filled).bind (fun f => (q.build filled').bind fun a => .ok (f a)) = _
  rw [hbuild, hbuild']
  rfl

theorem apart_field (hfree : ∀ name ∈ names, r.Ignores name) (name : String) :
    r.Ignores name ∨ (field names read missing? cutOff?).Ignores name := by
  by_cases h : name ∈ names
  · exact .inl (hfree name h)
  · exact .inr (ignores_field.mpr h)

theorem Gives.needs (names : List String) (name : String) (hr : r.Gives members f)
    (hfree : ∀ name ∈ names, r.Ignores name)
    (hone : members.filter (·.1 ∈ names) = [(name, v)]) (hread : read (draftOf v) = .ok a) :
    (r.needs names read).Gives members (f a) :=
  hr.and ⟨some a, fill_field_some hone hread, rfl⟩ (apart_field hfree)

theorem Gives.need (name : String) (hr : r.Gives members f) (hfree : r.Ignores name)
    (hone : members.filter (·.1 ∈ [name]) = [(name, v)]) (hread : read (draftOf v) = .ok a) :
    (r.needs [name] read).Gives members (f a) :=
  hr.needs [name] name (by simpa using hfree) hone hread

theorem Gives.defaults (name : String) (value : α) (hr : r.Gives members f)
    (hfree : r.Ignores name)
    (hone : members.filter (·.1 ∈ [name]) = [(name, v)]) (hread : read (draftOf v) = .ok a) :
    (r.defaults name read value).Gives members (f a) :=
  hr.and ⟨some a, fill_field_some hone hread, rfl⟩ (apart_field (by simpa using hfree))

theorem Gives.missing (name : String) (value : α) (hr : r.Gives members f)
    (hfree : r.Ignores name)
    (hnone : members.filter (·.1 ∈ [name]) = []) :
    (r.defaults name read value).Gives members (f value) :=
  hr.and ⟨none, fill_field_none hnone none, rfl⟩ (apart_field (by simpa using hfree))

end Record

end ReviewMentor.Json
