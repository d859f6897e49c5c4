import ReviewMentor.Json.Decode
import ReviewMentor.Proofs.Json.Tokens

/-!
# Reading written values

Every value whose numbers are whole is read from both of its written forms as its own draft: the
tree of its parts, with the pieces of its strings and the digits of its numbers. So what is decoded
from a written text is what is read from that draft.
-/

namespace ReviewMentor.Json

/-! ### Tokens of values -/

/-- Parts with a comma before every one but the first. -/
def listed : List (List Token) → List Token
  | [] => []
  | ts :: more => ts ++ more.flatMap (.comma :: ·)

mutual

/-- The tokens of a value. -/
def tokensOf : Json → List Token
  | null => [.null]
  | bool b => [.bool b]
  | number n => [.number n.render.toList]
  | string s => [.string (piecesOf s)]
  | array items => .openArray :: listed (itemTokens items) ++ [.closeArray]
  | object members => .openObject :: listed (memberTokens members) ++ [.closeObject]

/-- The tokens of each item. -/
def itemTokens : List Json → List (List Token)
  | [] => []
  | item :: rest => tokensOf item :: itemTokens rest

/-- The tokens of each member. -/
def memberTokens : List (String × Json) → List (List Token)
  | [] => []
  | (name, value) :: rest =>
    (.string (piecesOf name) :: .colon :: tokensOf value) :: memberTokens rest

end

mutual

/-- Whether all numbers of a value are whole and have 64 bits. -/
def isPlain : Json → Bool
  | number (.int n) => decide (IsWhole n)
  | number (.real _) => false
  | array items => allPlain items
  | object members => membersPlain members
  | _ => true

/-- Whether all items are plain. -/
def allPlain : List Json → Bool
  | [] => true
  | item :: rest => isPlain item && allPlain rest

/-- Whether the values of all members are plain. -/
def membersPlain : List (String × Json) → Bool
  | [] => true
  | (_, value) :: rest => isPlain value && membersPlain rest

end

/-! ### Layout -/

/-- A text that is only layout. -/
def IsLayout (text : List Char) : Prop := ∀ c ∈ text, c = ' ' ∨ c = '\n'

variable {text before after inner : List Char} {parts : List (List Char)} {ts : List Token}
  {tss : List (List Token)} {rest : List (Option Char)} {opening closing : Char}
  {first last : Token}

theorem tokensFrom_layout (h : IsLayout text) (rest : List (Option Char)) :
    tokensFrom .between (text.map some ++ rest) = tokensFrom .between rest := by
  induction text with
  | nil => rfl
  | cons c text ih =>
    have hrest := ih fun d hd => h d (by simp [hd])
    rcases h c (by simp) with rfl | rfl <;> exact hrest

theorem isLayout_lineBreak (level : Nat) : IsLayout (lineBreak level) := by
  intro c hc
  simp only [lineBreak, List.mem_cons, List.mem_replicate] at hc
  tauto

/-- Parts that are separated by a comma and layout. -/
theorem spells_separated (hblank : IsLayout before) (h : List.Forall₂ Spells parts tss) :
    Spells (separated (',' :: before) parts) (listed tss) := by
  induction h with
  | nil => exact fun _ _ => rfl
  | @cons part ts parts tss hpart hparts ih =>
    cases hparts with
    | nil => simpa [separated, listed] using hpart
    | @cons next us parts tss hnext hmore =>
      intro rest hrest
      have hcomma : ∀ cs, tokensFrom .between (some ',' :: (before.map some ++ cs)) =
          .comma :: tokensFrom .between cs := fun cs =>
        congrArg (Token.comma :: ·) (tokensFrom_layout hblank cs)
      have hpart' := hpart (some ',' :: (before.map some ++
        ((separated (',' :: before) (next :: parts)).map some ++ rest))) (by simp [Ends])
      rw [hcomma, ih rest hrest] at hpart'
      simpa [separated, listed] using hpart'

/-- Parts between brackets, with layout inside the brackets. -/
theorem spells_enclosed (hopen : start? opening = some (some first, .between))
    (hclose : start? closing = some (some last, .between)) (hends : Ends [some closing])
    (hbefore : IsLayout before) (hafter : IsLayout after) (hinner : Spells inner ts) :
    Spells (opening :: before ++ inner ++ after ++ [closing]) (first :: ts ++ [last]) := by
  intro rest _
  have hfollows : Ends (after.map some ++ some closing :: rest) := by
    rcases after with _ | ⟨c, after⟩
    · exact hends
    · rcases hafter c (by simp) with rfl | rfl
      · simp [Ends]
      · simp [Ends]
  have hlast : tokensFrom .between (some closing :: rest) =
      last :: tokensFrom .between rest := by
    rw [tokensFrom_between, hclose]
  have hcs : (opening :: before ++ inner ++ after ++ [closing]).map some ++ rest =
      some opening :: (before.map some ++ (inner.map some ++ (after.map some ++
        some closing :: rest))) := by simp
  rw [hcs, tokensFrom_between, hopen]
  simp only
  rw [tokensFrom_layout hbefore, hinner _ hfollows, tokensFrom_layout hafter, hlast]
  simp

/-- Parts between brackets on one line. -/
theorem spells_line (hopen : start? opening = some (some first, .between))
    (hclose : start? closing = some (some last, .between)) (hends : Ends [some closing])
    (h : List.Forall₂ Spells parts tss) :
    Spells (opening :: separated [','] parts ++ [closing]) (first :: listed tss ++ [last]) := by
  have hnone : IsLayout [] := by simp [IsLayout]
  simpa using spells_enclosed hopen hclose hends hnone hnone (spells_separated hnone h)

/-- Parts between brackets over several lines. -/
theorem spells_block (hopen : start? opening = some (some first, .between))
    (hclose : start? closing = some (some last, .between)) (hends : Ends [some closing])
    (level : Nat) (h : List.Forall₂ Spells parts tss) :
    Spells (block opening closing level parts) (first :: listed tss ++ [last]) := by
  cases h with
  | nil => exact spells_line hopen hclose hends .nil
  | cons hpart hparts =>
    simpa [block] using spells_enclosed hopen hclose hends (isLayout_lineBreak (level + 1))
      (isLayout_lineBreak level)
      (spells_separated (isLayout_lineBreak (level + 1)) (.cons hpart hparts))

/-- A name with its value. -/
theorem spells_member (name : String) (before : List Char) (hblank : IsLayout before)
    (h : Spells text ts) :
    Spells (quoted name ++ ':' :: before ++ text) (.string (piecesOf name) :: .colon :: ts) := by
  intro rest hrest
  have hcs : (quoted name ++ ':' :: before ++ text).map some ++ rest =
      (quoted name).map some ++ some ':' :: (before.map some ++ (text.map some ++ rest)) := by simp
  have hcolon : ∀ cs, tokensFrom .between (some ':' :: cs) = .colon :: tokensFrom .between cs :=
    fun _ => rfl
  rw [hcs, tokensFrom_quoted, hcolon, tokensFrom_layout hblank, h rest hrest]
  rfl

/-! ### Written values -/

mutual

theorem spells_compact : ∀ j : Json, j.isPlain = true → Spells j.compactChars (tokensOf j)
  | null, _ => spells_null
  | bool b, _ => spells_bool b
  | number (.int n), _ => spells_int n
  | string s, _ => spells_quoted s
  | array items, h => spells_line rfl rfl (by simp [Ends]) (spells_compactItems items h)
  | object members, h => spells_line rfl rfl (by simp [Ends]) (spells_compactMembers members h)

theorem spells_compactItems : ∀ items : List Json, allPlain items = true →
    List.Forall₂ Spells (compactItems items) (itemTokens items)
  | [], _ => .nil
  | item :: rest, h => by
    obtain ⟨hitem, hrest⟩ := Bool.and_eq_true_iff.mp h
    exact .cons (spells_compact item hitem) (spells_compactItems rest hrest)

theorem spells_compactMembers : ∀ members : List (String × Json), membersPlain members = true →
    List.Forall₂ Spells (compactMembers members) (memberTokens members)
  | [], _ => .nil
  | (name, value) :: rest, h => by
    obtain ⟨hvalue, hrest⟩ := Bool.and_eq_true_iff.mp h
    refine .cons ?_ (spells_compactMembers rest hrest)
    simpa using spells_member name [] (by simp [IsLayout]) (spells_compact value hvalue)

end

mutual

theorem spells_pretty : ∀ (j : Json) (level : Nat), j.isPlain = true →
    Spells (j.prettyChars level) (tokensOf j)
  | null, _, _ => spells_null
  | bool b, _, _ => spells_bool b
  | number (.int n), _, _ => spells_int n
  | string s, _, _ => spells_quoted s
  | array items, level, h =>
    spells_block rfl rfl (by simp [Ends]) level (spells_prettyItems items (level + 1) h)
  | object members, level, h =>
    spells_block rfl rfl (by simp [Ends]) level (spells_prettyMembers members (level + 1) h)

theorem spells_prettyItems : ∀ (items : List Json) (level : Nat), allPlain items = true →
    List.Forall₂ Spells (prettyItems level items) (itemTokens items)
  | [], _, _ => .nil
  | item :: rest, level, h => by
    obtain ⟨hitem, hrest⟩ := Bool.and_eq_true_iff.mp h
    exact .cons (spells_pretty item level hitem) (spells_prettyItems rest level hrest)

theorem spells_prettyMembers : ∀ (members : List (String × Json)) (level : Nat),
    membersPlain members = true →
    List.Forall₂ Spells (prettyMembers level members) (memberTokens members)
  | [], _, _ => .nil
  | (name, value) :: rest, level, h => by
    obtain ⟨hvalue, hrest⟩ := Bool.and_eq_true_iff.mp h
    refine .cons ?_ (spells_prettyMembers rest level hrest)
    have hspace : IsLayout [' '] := by simp [IsLayout]
    simpa using spells_member name _ hspace (spells_pretty value level hvalue)

end

/-! ### Drafts of values -/

mutual

/-- The draft of a value. -/
def draftOf : Json → Draft
  | null => .null
  | bool b => .bool b
  | number n => .number n.render.toList
  | string s => .string (piecesOf s)
  | array items => .array (draftsOf items)
  | object members => .object (memberDrafts members)

/-- The drafts of items. -/
def draftsOf : List Json → List Draft
  | [] => []
  | item :: rest => draftOf item :: draftsOf rest

/-- The drafts of members. -/
def memberDrafts : List (String × Json) → List (List Piece × Draft)
  | [] => []
  | (name, value) :: rest => (piecesOf name, draftOf value) :: memberDrafts rest

end

/-- What is left to read after a whole value. -/
def scanAfter (d : Draft) (frames : List Frame) (ts : List Token) : Scan :=
  match d.place frames with
  | none => ⟨d, some ts⟩
  | some frames => Draft.scanFrom frames .commaOrClose ts

theorem scanFrom_closeArray (done : List Draft) (frames : List Frame) (ts : List Token) :
    Draft.scanFrom (.array done :: frames) .commaOrClose (.closeArray :: ts) =
        scanAfter (.array done.reverse) frames ts ∧
      Draft.scanFrom (.array done :: frames) .valueOrClose (.closeArray :: ts) =
        scanAfter (.array done.reverse) frames ts := by
  rcases frames with _ | ⟨_ | _, frames⟩ <;> exact ⟨rfl, rfl⟩

theorem scanFrom_closeObject (done : List (List Piece × Draft)) (name : List Piece)
    (frames : List Frame) (ts : List Token) :
    Draft.scanFrom (.object done name :: frames) .commaOrClose (.closeObject :: ts) =
        scanAfter (.object done.reverse) frames ts ∧
      Draft.scanFrom (.object done name :: frames) .nameOrClose (.closeObject :: ts) =
        scanAfter (.object done.reverse) frames ts := by
  rcases frames with _ | ⟨_ | _, frames⟩ <;> exact ⟨rfl, rfl⟩

mutual

theorem scanFrom_value : ∀ (j : Json) (frames : List Frame) (ts : List Token),
    Draft.scanFrom frames .value (tokensOf j ++ ts) = scanAfter (draftOf j) frames ts ∧
    Draft.scanFrom frames .valueOrClose (tokensOf j ++ ts) = scanAfter (draftOf j) frames ts
  | null, frames, ts | bool _, frames, ts | number _, frames, ts | string _, frames, ts => by
    rcases frames with _ | ⟨_ | _, frames⟩ <;> exact ⟨rfl, rfl⟩
  | array [], frames, ts => by
    have hclose := (scanFrom_closeArray [] frames ts).2
    exact ⟨hclose, hclose⟩
  | array (item :: rest), frames, ts => by
    have hfirst := (scanFrom_value item (.array [] :: frames)
      ((itemTokens rest).flatMap (.comma :: ·) ++ .closeArray :: ts)).2
    have hmore := scanFrom_items rest [draftOf item] frames ts
    have htokens : tokensOf (array (item :: rest)) ++ ts = .openArray :: (tokensOf item ++
        ((itemTokens rest).flatMap (.comma :: ·) ++ .closeArray :: ts)) := by
      simp [tokensOf, itemTokens, listed]
    rw [htokens, Draft.scanFrom, Draft.scanFrom, and_self, hfirst]
    exact hmore
  | object [], frames, ts => by
    have hclose := (scanFrom_closeObject [] lostName frames ts).2
    exact ⟨hclose, hclose⟩
  | object ((name, value) :: rest), frames, ts => by
    have hfirst := (scanFrom_value value (.object [] (piecesOf name) :: frames)
      ((memberTokens rest).flatMap (.comma :: ·) ++ .closeObject :: ts)).1
    have hmore := scanFrom_members rest [(piecesOf name, draftOf value)] frames ts
    have htokens : tokensOf (object ((name, value) :: rest)) ++ ts =
        .openObject :: .string (piecesOf name) :: .colon :: (tokensOf value ++
          ((memberTokens rest).flatMap (.comma :: ·) ++ .closeObject :: ts)) := by
      simp [tokensOf, memberTokens, listed]
    rw [htokens, Draft.scanFrom, Draft.scanFrom, and_self, Draft.scanFrom, Draft.scanFrom, hfirst]
    exact hmore

theorem scanFrom_items : ∀ (items : List Json) (done : List Draft) (frames : List Frame)
    (ts : List Token),
    Draft.scanFrom (.array done :: frames) .commaOrClose
        ((itemTokens items).flatMap (.comma :: ·) ++ .closeArray :: ts) =
      scanAfter (.array (done.reverse ++ draftsOf items)) frames ts
  | [], done, frames, ts => by
    simpa [itemTokens, draftsOf] using (scanFrom_closeArray done frames ts).1
  | item :: rest, done, frames, ts => by
    have hfirst := (scanFrom_value item (.array done :: frames)
      ((itemTokens rest).flatMap (.comma :: ·) ++ .closeArray :: ts)).1
    have hmore := scanFrom_items rest (draftOf item :: done) frames ts
    rw [List.reverse_cons, List.append_assoc] at hmore
    rw [itemTokens, List.flatMap_cons, List.append_assoc, List.cons_append, Draft.scanFrom, hfirst]
    exact hmore

theorem scanFrom_members : ∀ (members : List (String × Json)) (done : List (List Piece × Draft))
    (frames : List Frame) (ts : List Token),
    Draft.scanFrom (.object done lostName :: frames) .commaOrClose
        ((memberTokens members).flatMap (.comma :: ·) ++ .closeObject :: ts) =
      scanAfter (.object (done.reverse ++ memberDrafts members)) frames ts
  | [], done, frames, ts => by
    simpa [memberTokens, memberDrafts] using (scanFrom_closeObject done lostName frames ts).1
  | (name, value) :: rest, done, frames, ts => by
    have hfirst := (scanFrom_value value (.object done (piecesOf name) :: frames)
      ((memberTokens rest).flatMap (.comma :: ·) ++ .closeObject :: ts)).1
    have hmore := scanFrom_members rest ((piecesOf name, draftOf value) :: done) frames ts
    rw [List.reverse_cons, List.append_assoc] at hmore
    rw [memberTokens, List.flatMap_cons, List.append_assoc, List.cons_append, List.cons_append,
      List.cons_append, Draft.scanFrom, Draft.scanFrom, Draft.scanFrom, hfirst]
    exact hmore

end

/-! ### Decoding what was written -/

/-- A written form of a value. -/
def IsText (j : Json) (text : String) : Prop := text = j.compact ∨ text = j.pretty

variable {α : Type} {j : Json} {written : String}

theorem tokens_written (hplain : j.isPlain = true) (h : j.IsText written) :
    tokens (written.toList.map some) = tokensOf j := by
  have hspells : Spells written.toList (tokensOf j) := by
    rcases h with rfl | rfl
    · simpa [compact] using spells_compact j hplain
    · simpa [pretty] using spells_pretty j 0 hplain
  simpa [tokens, tokensFrom_nil] using hspells [] trivial

/-- A written value is one draft and nothing else. -/
theorem scan_written (hplain : j.isPlain = true) (h : j.IsText written) :
    Draft.scan (written.toList.map some) = ⟨draftOf j, some []⟩ := by
  have hvalue := (scanFrom_value j [] []).1
  rw [List.append_nil] at hvalue
  rw [Draft.scan, tokens_written hplain h, hvalue]
  rfl

/-- **What is decoded from a written value is what is read from its draft.** -/
theorem decode_written (read : Decode α) (hplain : j.isPlain = true) (h : j.IsText written) :
    decode read written = read (draftOf j) := by
  rw [decode, scan_written hplain h]

theorem decodeFront_written (read : Decode α) (hplain : j.isPlain = true)
    (h : j.IsText written) : decodeFront read written.toUTF8 = read (draftOf j) := by
  rw [decodeFront, Text.signs, show String.fromUTF8? written.toUTF8 = some written from
    dif_pos written.isValidUTF8]
  exact congrArg (fun s => read s.draft) (scan_written hplain h)

end ReviewMentor.Json
