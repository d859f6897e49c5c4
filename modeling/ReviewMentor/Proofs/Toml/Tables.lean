import ReviewMentor.Proofs.Toml.Strings
import ReviewMentor.Toml.Document

/-!
# Written tables of TOML

A written array of strings is read back, and so is each line that gives a key such an array. A text
that is made of such lines and of headers is read line by line: `Reads` says which document comes
out, and has one rule for each kind of line.
-/

namespace ReviewMentor.Toml

/-- An array of strings. -/
def strings (items : List (List Char)) : Toml := .array (items.map .string)

variable {cs item name rest : List Char} {items : List (List Char)} {fuel depth : Nat}

/-! ### Arrays -/

theorem exists_writeString (cs : List Char) :
    ∃ quote more, writeString cs = quote :: more ∧ (quote = '"' ∨ quote = '\'') := by
  have hquotes : ∀ form : Form, ∃ quote more, form.quotes = quote :: more ∧
      (quote = '"' ∨ quote = '\'') := by
    intro form
    cases form <;> exact ⟨_, _, rfl, by decide⟩
  obtain ⟨quote, more, hquote, hcase⟩ := hquotes (.ofString cs)
  have h := writeAs_append (.ofString cs) cs []
  rw [hquote, List.append_nil] at h
  exact ⟨quote, _, h, hcase⟩

theorem value?_writeString (hrest : Follows rest) :
    value? (fuel + 1) depth (writeString cs ++ rest) = some (.string cs, rest) := by
  have hread := string?_writeString cs hrest
  obtain ⟨quote, more, hwritten, hquote⟩ := exists_writeString cs
  rw [hwritten] at hread ⊢
  rcases hquote with rfl | rfl
  · rw [List.cons_append] at hread ⊢
    rw [value?, hread]
    rfl
  · rw [List.cons_append] at hread ⊢
    rw [value?, hread]
    rfl

theorem skipFiller_writeString (cs rest : List Char) :
    skipFiller false (writeString cs ++ rest) = some (writeString cs ++ rest) := by
  obtain ⟨quote, more, hwritten, hquote⟩ := exists_writeString cs
  rw [hwritten]
  rcases hquote with rfl | rfl <;> rfl

theorem items?_gap (cs : List Char) : items? fuel depth (' ' :: cs) = items? fuel depth cs := by
  cases fuel <;> rfl

/-- A string at the front of the items of an array is its first item. -/
theorem items?_writeString (hrest : Follows rest) :
    items? (fuel + 2) depth (writeString item ++ rest) =
      (do match ← skipFiller false rest with
        | ',' :: rest =>
          let (vs, rest) ← items? (fuel + 1) depth rest
          pure (.string item :: vs, rest)
        | ']' :: rest => some ([.string item], rest)
        | _ => none) := by
  have hread : value? (fuel + 1) depth (writeString item ++ rest) = some (.string item, rest) :=
    value?_writeString hrest
  have hskip := skipFiller_writeString item rest
  obtain ⟨quote, more, hwritten, hquote⟩ := exists_writeString item
  rw [hwritten] at hread hskip ⊢
  have hclose : quote ≠ ']' := by rcases hquote with rfl | rfl <;> decide
  rw [items?, hskip, Option.bind_eq_bind, Option.bind_some, List.cons_append]
  rw [List.cons_append] at hread
  split
  · next heq => exact absurd (List.cons.inj heq).1 hclose
  · rw [hread]
    rfl

theorem items?_writeItems (hfuel : items.length < fuel) (rest : List Char) :
    items? fuel depth (writeItems (items.map writeString) ++ ']' :: rest) =
      some (items.map .string, rest) := by
  induction items generalizing fuel with
  | nil =>
    obtain _ | fuel := fuel
    · exact absurd hfuel (Nat.not_lt_zero _)
    · rfl
  | cons item items ih =>
    obtain _ | _ | fuel := fuel
    · exact absurd hfuel (Nat.not_lt_zero _)
    · exact absurd hfuel (by simp)
    · rcases items with _ | ⟨next, items⟩
      · rw [List.map_singleton, writeItems, items?_writeString ⟨by simp, by simp⟩]
        rfl
      · have hmore := @ih (fuel + 1) (by simpa using hfuel)
        rw [← items?_gap] at hmore
        have hfollows : Follows (',' :: ' ' ::
          (writeItems ((next :: items).map writeString) ++ ']' :: rest)) := ⟨by simp, by simp⟩
        have hfirst := @items?_writeString item _ fuel depth hfollows
        have hcomma : ∀ cs, skipFiller false (',' :: cs) = some (',' :: cs) := fun _ => rfl
        rw [hcomma, Option.bind_eq_bind, Option.bind_some] at hfirst
        simp only [hmore] at hfirst
        simpa [writeItems] using hfirst

theorem value?_writeStrings (hfuel : items.length + 1 < fuel) (rest : List Char) :
    value? fuel (depth + 1) (writeStrings items ++ rest) = some (strings items, rest) := by
  obtain _ | fuel := fuel
  · exact absurd hfuel (Nat.not_lt_zero _)
  · have hopen : ∀ cs, value? (fuel + 1) (depth + 1) ('[' :: cs) =
        (items? fuel depth cs).map fun r => (.array r.1, r.2) := fun _ => rfl
    have hitems : items? fuel depth (writeItems (items.map writeString) ++ ']' :: rest) =
        some (items.map .string, rest) := items?_writeItems (by omega) rest
    rw [writeStrings, List.cons_append, List.cons_append, hopen, List.append_assoc,
      List.singleton_append, hitems]
    rfl

/-! ### Lines -/

/-- A written key begins with no blank, line break, comment or bracket. -/
theorem exists_writeKey (name : List Char) : ∃ c more, writeKey name = c :: more ∧
    c ∉ ['[', ' ', '\t', '\n', '\r', '#'] := by
  have hplain : ∀ c, c = '"' ∨ c = '\'' ∨ isBareChar c = true →
      c ∉ ['[', ' ', '\t', '\n', '\r', '#'] := by
    intro c hc hmem
    simp only [List.mem_cons, List.not_mem_nil, or_false] at hmem
    rcases hmem with rfl | rfl | rfl | rfl | rfl | rfl <;> revert hc <;> decide
  unfold writeKey
  split_ifs with hbare
  · simp only [Bool.and_eq_true, decide_eq_true_eq, List.all_eq_true] at hbare
    obtain ⟨c, more, rfl⟩ := List.exists_cons_of_ne_nil hbare.1
    exact ⟨c, more, rfl, hplain c (.inr (.inr (hbare.2 c List.mem_cons_self)))⟩
  · have h := writeAs_append (.ofKey name) name []
    rw [List.append_nil] at h
    rcases Form.fits_ofKey name with hform | ⟨hform, -⟩
    · rw [hform] at h ⊢
      exact ⟨_, _, h, hplain _ (.inl rfl)⟩
    · rw [hform] at h ⊢
      exact ⟨_, _, h, hplain _ (.inr (.inl rfl))⟩

theorem skipGap_writeKey (name rest : List Char) :
    skipGap (writeKey name ++ rest) = writeKey name ++ rest := by
  obtain ⟨c, more, hkey, hc⟩ := exists_writeKey name
  have hgap : isGap c = false := by
    simp only [List.mem_cons, not_or] at hc
    simp [isGap, hc]
  rw [hkey, List.cons_append, skipGap, List.dropWhile_cons_of_neg (by simp [hgap])]

theorem key?_writeKey (name rest : List Char) :
    key? (writeKey name ++ ' ' :: '=' :: rest) = some ([name], '=' :: rest) := by
  have hname := @keyPart?_writeKey (' ' :: '=' :: rest) name (by simp [isBareChar])
  rw [key?, hname]
  rfl

/-- The parts of a key that follow its first one, each after a dot. -/
def dotted (names : List (List Char)) : List Char := names.flatMap fun name => '.' :: writeKey name

theorem keyTail_dotted {names : List (List Char)} (h : names.length < fuel) (rest : List Char) :
    keyTail fuel (dotted names ++ ']' :: rest) = some (names, ']' :: rest) := by
  induction names generalizing fuel with
  | nil =>
    obtain _ | fuel := fuel
    · exact absurd h (Nat.not_lt_zero _)
    · rfl
  | cons name names ih =>
    obtain _ | fuel := fuel
    · exact absurd h (Nat.not_lt_zero _)
    · have hname := @keyPart?_writeKey (dotted names ++ ']' :: rest) name
        (by cases names <;> simp [dotted, isBareChar])
      have hskip := skipGap_writeKey name (dotted names ++ ']' :: rest)
      have hdot : ∀ cs, skipGap ('.' :: cs) = '.' :: cs := fun _ => rfl
      have htext : dotted (name :: names) ++ ']' :: rest =
          '.' :: (writeKey name ++ (dotted names ++ ']' :: rest)) := by simp [dotted]
      rw [htext, keyTail, hdot]
      simp only [hskip, hname, ih (Nat.lt_of_succ_lt_succ h), Option.bind_eq_bind, Option.bind_some]
      rfl

theorem key?_dotted {names : List (List Char)} (h : names.length + 1 < depthLimit)
    (name rest : List Char) :
    key? (writeKey name ++ (dotted names ++ ']' :: rest)) = some (name :: names, ']' :: rest) := by
  have hname := @keyPart?_writeKey (dotted names ++ ']' :: rest) name
    (by cases names <;> simp [dotted, isBareChar])
  have hmore : keyTail (depthLimit - 1) (dotted names ++ ']' :: rest) = some (names, ']' :: rest) :=
    keyTail_dotted (by omega) rest
  simp only [key?, hname, hmore, Option.bind_eq_bind, Option.bind_some]
  rfl

/-- A line begins with its key, which is neither passed over nor taken for a header. -/
theorem exists_writeMember (name : List Char) (items : List (List Char)) (rest : List Char) :
    ∃ c more, writeMember name items ++ rest = c :: more ∧ c ≠ '[' ∧
      skipFiller false (c :: more) = some (c :: more) := by
  obtain ⟨c, more, hkey, hc⟩ := exists_writeKey name
  simp only [List.mem_cons, List.not_mem_nil, or_false, not_or] at hc
  obtain ⟨hopen, hspace, htab, hn, hr, hcomment⟩ := hc
  refine ⟨c, _, by rw [writeMember, hkey, List.cons_append, List.cons_append, List.cons_append,
    List.cons_append], hopen, ?_⟩
  rw [skipFiller]
  · simp [hn, isGap, hspace, htab, hcomment]
  · exact fun _ h => absurd h hr

/-- **A line that gives a key an array of strings is read back.** -/
theorem line?_writeMember {d e : Document} (hfuel : items.length + 1 < fuel)
    (h : d.assign [name] (strings items) = some e) (rest : List Char) :
    d.line? fuel (writeMember name items ++ rest) = some (e, rest) := by
  obtain ⟨c, more, hline, hopen, -⟩ := exists_writeMember name items rest
  have hkey : key? (writeMember name items ++ rest) =
      some ([name], '=' :: ' ' :: (writeStrings items ++ '\n' :: rest)) := by
    simpa [writeMember] using key?_writeKey name (' ' :: (writeStrings items ++ '\n' :: rest))
  have hvalue : value? fuel (depthLimit - 1) (writeStrings items ++ '\n' :: rest) =
      some (strings items, '\n' :: rest) := value?_writeStrings hfuel _
  have hmark : ∀ cs, char? '=' (skipGap ('=' :: cs)) = some cs := fun _ => rfl
  have hgap : ∀ cs, skipGap (' ' :: (writeStrings items ++ cs)) = writeStrings items ++ cs :=
    fun _ => rfl
  have hend : lineEnd? ('\n' :: rest) = some rest := rfl
  rw [hline] at hkey ⊢
  rw [Document.line?]
  · simp only [hkey, hmark, hgap, hvalue, h, hend, Option.bind_eq_bind, Option.bind_some]
    rfl
  · exact fun _ heq => hopen (List.cons.inj heq).1
  · exact fun _ heq => hopen (List.cons.inj heq).1

theorem length_writeItems (items : List (List Char)) :
    items.length ≤ (writeItems (items.map writeString)).length := by
  have hone : ∀ item, 1 ≤ (writeString item).length := fun item => by
    obtain ⟨quote, more, hwritten, -⟩ := exists_writeString item
    simp [hwritten]
  induction items with
  | nil => exact Nat.zero_le _
  | cons item items ih =>
    have hitem := hone item
    rcases items with _ | ⟨next, items⟩
    · simpa [writeItems] using hitem
    · simp only [List.map_cons, writeItems, List.length_append, List.length_cons] at ih ⊢
      omega

/-- Reading a text line by line makes a document of another one. -/
def Reads (d : Document) (cs : List Char) (e : Document) : Prop :=
  ∀ fuel, cs.length < fuel → Document.lines? fuel d cs = some e

namespace Reads

variable {d e f : Document}

theorem nil (d : Document) : Reads d [] d := by
  intro fuel hfuel
  obtain _ | fuel := fuel
  · exact absurd hfuel (Nat.not_lt_zero _)
  · rfl

theorem blank (h : Reads d cs e) : Reads d ('\n' :: cs) e := by
  intro fuel hfuel
  rw [← h fuel (Nat.lt_of_succ_lt hfuel)]
  obtain _ | fuel := fuel <;> rfl

theorem cons {c : Char} {more : List Char}
    (hskip : skipFiller false (c :: more) = some (c :: more))
    (hline : ∀ fuel, more.length < fuel → d.line? fuel (c :: more) = some (e, rest))
    (hshort : rest.length ≤ more.length) (h : Reads e rest f) : Reads d (c :: more) f := by
  intro fuel hfuel
  obtain _ | fuel := fuel
  · exact absurd hfuel (Nat.not_lt_zero _)
  · have hless : more.length < fuel := Nat.lt_of_succ_lt_succ hfuel
    simp only [Document.lines?, hskip, hline fuel hless, Option.bind_eq_bind, Option.bind_some]
    exact h fuel (Nat.lt_of_le_of_lt hshort hless)

theorem member (hassign : d.assign [name] (strings items) = some e) (h : Reads e rest f) :
    Reads d (writeMember name items ++ rest) f := by
  obtain ⟨c, more, hline, -, hskip⟩ := exists_writeMember name items rest
  have hlength : items.length + rest.length + 2 ≤ more.length := by
    have htotal := congrArg List.length hline
    have hitems := length_writeItems items
    simp only [writeMember, writeStrings, List.length_append, List.length_cons, List.length_nil,
      String.length_toList] at htotal
    have hmark : " = ".length = 3 := rfl
    omega
  rw [hline]
  refine cons hskip (fun fuel hfuel => ?_) (by omega) h
  rw [← hline]
  exact line?_writeMember (by omega) hassign rest

theorem table {names : List (List Char)} (hlength : names.length + 1 < depthLimit)
    (hopen : d.openHeader false (name :: names) = some e) (h : Reads e rest f) :
    Reads d ('[' :: (writeKey name ++ (dotted names ++ ']' :: '\n' :: rest))) f := by
  refine cons rfl (fun fuel _ => ?_) (by simp; omega) h
  obtain ⟨c, more, hname, hc⟩ := exists_writeKey name
  have hkey := key?_dotted hlength name ('\n' :: rest)
  have hskip := skipGap_writeKey name (dotted names ++ ']' :: '\n' :: rest)
  have hmark : ∀ cs, char? ']' (skipGap (']' :: cs)) = some cs := fun _ => rfl
  have hend : lineEnd? ('\n' :: rest) = some rest := rfl
  have hitem : c ≠ '[' := fun h => hc (h ▸ List.mem_cons_self)
  rw [hname, List.cons_append] at hkey hskip ⊢
  rw [Document.line?]
  · simp only [hskip, hkey, hmark, hopen, hend, Option.bind_eq_bind, Option.bind_some]
    rfl
  · exact fun _ heq => hitem (List.cons.inj heq).1

end Reads

/-! ### Open tables -/

/-- Tables inside each other, each the last member so far: the name of a table with the members that
precede it, from the outermost one on, and the members of the innermost one. -/
def nested : List (List Char × Members) → Members → Members
  | [], inner => inner
  | (name, front) :: way, inner => front ++ [(name, .table false false (nested way inner))]

/-- Every table has a name that no member before it has. -/
def Fresh (way : List (List Char × Members)) : Prop :=
  ∀ table ∈ way, table.1 ∉ table.2.map Prod.fst

/-- What has been read when the lines of the innermost table are being read. -/
def Document.within (way : List (List Char × Members)) (inner : Members) : Document :=
  ⟨nested way inner, way.map Prod.fst⟩

section OpenTables

variable {way : List (List Char × Members)} {front inner : Members} {v : Toml}

theorem lookup_fresh (h : name ∉ front.map Prod.fst) : front.lookup name = none := by
  rw [List.lookup_eq_none_iff]
  exact fun p hp => bne_iff_ne.mpr fun heq => h (List.mem_map.mpr ⟨p, hp, heq.symm⟩)

theorem lookup_last (node : Node) (h : name ∉ front.map Prod.fst) :
    (front ++ [(name, node)]).lookup name = some node := by
  rw [List.lookup_append, lookup_fresh h]
  simp

theorem swap_last (node old : Node) (h : name ∉ front.map Prod.fst) :
    Node.swap name node (front ++ [(name, old)]) = front ++ [(name, node)] := by
  have hfront : front.map (fun m => if m.1 = name then (name, node) else m) = front := by
    refine (List.map_congr_left fun m hm => ?_).trans (List.map_id front)
    exact if_neg fun heq => h (List.mem_map.mpr ⟨m, hm, heq⟩)
  simp [Node.swap, hfront]

/-- A change in the innermost table is a change of the whole. -/
theorem atPath_nested (change : Bool → Members → Option Members) (h : Fresh way) :
    Node.atPath false change (way.map Prod.fst) false (nested way inner) =
      (change false inner).map (nested way) := by
  induction way with
  | nil => exact (Option.map_id' (x := change false inner)).symm
  | cons table way ih =>
    obtain ⟨name, front⟩ := table
    obtain ⟨hname, hway⟩ := List.forall_mem_cons.mp h
    rw [List.map_cons, nested, Node.atPath, lookup_last _ hname]
    simp only [Bool.false_and, Bool.false_eq_true, if_false, ih hway, Option.map_map,
      swap_last _ _ hname]
    rfl

/-- A new key of the innermost table gets its value. -/
theorem assign_within (hway : Fresh way) (h : name ∉ inner.map Prod.fst) :
    (Document.within way inner).assign [name] v =
      some (.within way (inner ++ [(name, .value v)])) := by
  have hadd : Node.assign [name] v inner = Node.add name (.value v) inner := rfl
  rw [Document.assign, Document.within, atPath_nested _ hway, hadd, Node.add, lookup_fresh h]
  rfl

/-- A header opens a new table in the innermost one. -/
theorem openHeader_within (way : List (List Char × Members)) (inner : Members) (hway : Fresh way)
    (h : name ∉ inner.map Prod.fst) (header) :
    Document.openHeader ⟨nested way inner, header⟩ false (way.map Prod.fst ++ [name]) =
      some (.within (way ++ [(name, inner)]) []) := by
  have hopen : Node.openTable name inner = some (inner ++ [(name, .table false false [])]) := by
    rw [Node.openTable, lookup_fresh h]
  have hnested : ∀ way, nested way (inner ++ [(name, .table false false [])]) =
      nested (way ++ [(name, inner)]) [] := by
    intro way
    induction way with
    | nil => rfl
    | cons table way ih => rw [nested, List.cons_append, nested, ih]
  rw [Document.openHeader, List.dropLast_concat, atPath_nested _ hway]
  simp [hopen, hnested, Document.within]

/-- Lines with new keys are the members of the innermost table. -/
theorem Reads.members {e : Document} {pairs : List (List Char × List (List Char))}
    (hway : Fresh way) (h : (inner.map Prod.fst ++ pairs.map Prod.fst).Nodup)
    (hrest : Reads (.within way (inner ++ pairs.map fun p => (p.1, .value (strings p.2)))) rest e) :
    Reads (.within way inner) (pairs.flatMap (fun p => writeMember p.1 p.2) ++ rest) e := by
  induction pairs generalizing inner with
  | nil => simpa using hrest
  | cons p pairs ih =>
    have hfresh : p.1 ∉ inner.map Prod.fst := fun hmem =>
      (List.nodup_append.mp h).2.2 _ hmem _ List.mem_cons_self rfl
    rw [List.flatMap_cons, List.append_assoc]
    refine .member (assign_within hway hfresh) (ih ?_ ?_)
    · simpa using h
    · simpa using hrest

theorem membersToToml_values (pairs : List (List Char × List (List Char))) :
    Node.membersToToml (pairs.map fun p => (p.1, .value (strings p.2))) =
      pairs.map fun p => (p.1, strings p.2) := by
  induction pairs with
  | nil => rfl
  | cons p pairs ih =>
    rw [List.map_cons, Node.membersToToml, ih]
    rfl

end OpenTables

/-- **The value of a text that is read line by line.** -/
theorem parse?_of_reads {text : String} {d : Document} (h : Reads .empty text.toList d)
    (hmark : ∀ c ∈ text.toList.head?, c.toNat ≠ 0xFEFF) :
    parse? text = some (.table (Node.membersToToml d.members)) := by
  simp only [parse?]
  split
  · next c cs hcs =>
    rw [if_neg (hmark c (by rw [hcs]; rfl)), ← hcs, h _ (by omega)]
    rfl
  · next hcs =>
    rw [hcs] at h
    rw [h _ (by decide)]
    rfl

end ReviewMentor.Toml
