import Mathlib.Tactic.Common
import ReviewMentor.Proofs.Text.Trimming
import ReviewMentor.Toml.Scalar

/-!
# Written strings and keys of TOML

A string is written in one of four forms, and each form is read back as the string, whatever follows
that is no quote. Between double quotes this is so for every string; a form between single quotes
needs that the string has no character to escape and no run of quotes that would close it, which is
when it is chosen.
-/

namespace ReviewMentor.Toml

variable {c mark : Char} {cs part digits rest : List Char} {values : List Nat} {n run : Nat}

/-! ### Escapes -/

theorem hexValue?_hexDigit (h : n < 16) : Text.hexValue? (Text.hexDigit n).toUpper = some n := by
  have hall : ∀ n < 16, Text.hexValue? (Text.hexDigit n).toUpper = some n := by decide
  exact hall n h

theorem codePoint?_of_values (hdigits : digits.mapM Text.hexValue? = some values)
    (hvalue : values.foldl (fun n d => 16 * n + d) 0 = c.toNat) : codePoint? digits = some c := by
  have hvalid : c.toNat < 0xD800 ∨ (0xE000 ≤ c.toNat ∧ c.toNat < 0x110000) := by
    have hrange : c.toNat < 0xD800 ∨ 0xDFFF < c.toNat ∧ c.toNat < 0x110000 := c.valid
    omega
  rw [codePoint?, hdigits, Option.bind_eq_bind, Option.bind_some, hvalue, if_pos hvalid,
    Char.ofNat_toNat]

/-- The ways to write a character between double quotes. -/
inductive Escapes (c : Char) : List Char → Prop
  | plain : c ≠ '"' → c ≠ '\\' → c ≠ '\n' → isControl c = false → Escapes c [c]
  | short {letter : Char} : shortEscape? letter = some c → Escapes c ['\\', letter]
  | unit {x y z w : Char} : codePoint? [x, y, z, w] = some c → Escapes c ['\\', 'u', x, y, z, w]

/-- Four digits are enough for the characters that have to be escaped. -/
theorem escapes_unicodeEscape (h : isControl c = true) : Escapes c (unicodeEscape c) := by
  have hlow : c.toNat < 0x80 := by
    simp only [isControl, Bool.or_eq_true, Bool.and_eq_true, decide_eq_true_eq] at h
    omega
  have hdigit (k : Nat) := hexValue?_hexDigit (n := c.toNat / k % 16) (Nat.mod_lt _ (by decide))
  refine .unit (@codePoint?_of_values _ _
    ([0x1000, 0x100, 0x10, 1].map fun k => c.toNat / k % 16) ?_ ?_)
  · have hlast := hdigit 1
    rw [Nat.div_one] at hlast
    simp [hdigit, hlast]
  · simp only [List.map_cons, List.map_nil, List.foldl_cons, List.foldl_nil]
    omega

/-- The written form of a character is a way to write it. -/
theorem escapes_escapeChar (c : Char) : Escapes c (escapeChar c) := by
  unfold escapeChar
  split_ifs with ht hn hr hback hb hf hquote hcontrol
  · exact .short (by rw [ht]; rfl)
  · exact .short (by rw [hn]; rfl)
  · exact .short (by rw [hr]; rfl)
  · exact .short (by rw [hback]; rfl)
  · obtain rfl : c = Char.ofNat 8 := by rw [← hb, Char.ofNat_toNat]
    exact .short rfl
  · obtain rfl : c = Char.ofNat 0xC := by rw [← hf, Char.ofNat_toNat]
    exact .short rfl
  · exact .short (by rw [hquote]; rfl)
  · exact escapes_unicodeEscape hcontrol
  · exact .plain hquote hback hn (by simpa using hcontrol)

/-- No written character begins with a quote or breaks the line. -/
theorem Escapes.exists_cons (h : Escapes c part) :
    ∃ first more, part = first :: more ∧ first ≠ '"' ∧ first ≠ '\n' ∧ first ≠ '\r' := by
  cases h with
  | plain hquote _ hn hcontrol =>
    refine ⟨c, [], rfl, hquote, hn, ?_⟩
    rintro rfl
    exact absurd hcontrol (by decide)
  | short | unit => exact ⟨'\\', _, rfl, by decide, by decide, by decide⟩

theorem shortEscape?_ne {letter : Char} (h : shortEscape? letter = some c) :
    letter ≠ 'u' ∧ letter ≠ 'U' := by
  constructor <;> rintro rfl <;> simp [shortEscape?] at h

theorem basicRest_escaped (h : Escapes c part) (rest : List Char) :
    basicRest (part ++ rest) = push c (basicRest rest) := by
  have hpush : ∀ d, ((basicRest rest).bind fun r => some (d :: r.1, r.2)) =
      push d (basicRest rest) := fun d => by cases basicRest rest <;> rfl
  cases h with
  | plain hquote hback hn hcontrol =>
    rw [List.singleton_append, basicRest]
    · simpa [hn, hcontrol] using hpush c
    all_goals simp_all
  | short hletter =>
    obtain ⟨hu, hU⟩ := shortEscape?_ne hletter
    rw [List.cons_append, List.singleton_append, basicRest]
    · simpa [hletter] using hpush c
    all_goals simp_all
  | unit hcode =>
    simp only [List.cons_append, List.nil_append, basicRest, hcode]
    exact hpush c

theorem longBasicRest_escaped (h : Escapes c part) (rest : List Char) :
    longBasicRest false (part ++ rest) = push c (longBasicRest false rest) := by
  cases h with
  | plain hquote hback hn hcontrol =>
    have hr : c ≠ '\r' := by
      rintro rfl
      exact absurd hcontrol (by decide)
    rw [List.singleton_append, longBasicRest]
    · simp [hback, hcontrol]
    all_goals simp_all
  | short hletter =>
    obtain ⟨hu, hU⟩ := shortEscape?_ne hletter
    rw [List.cons_append, List.singleton_append, longBasicRest]
    · simp [hletter]
    all_goals simp_all
  | unit hcode => simp [longBasicRest, hcode]

/-! ### Runs of quotes -/

/-- The quotes before the end of a long string belong to it, if there are at most two. -/
theorem extraQuotes_replicate (hrun : run ≤ 2) (hrest : rest.head? ≠ some mark) :
    extraQuotes mark (List.replicate run mark ++ rest) = (List.replicate run mark, rest) := by
  have hnone : ∀ k, (rest.take k).takeWhile (· = mark) = [] := by
    intro k
    rcases rest with _ | ⟨c, rest⟩
    · simp
    · have hc : c ≠ mark := fun h => hrest (by simp [h])
      cases k <;> simp [hc]
  obtain rfl | rfl | rfl : run = 0 ∨ run = 1 ∨ run = 2 := by omega
  · simp [extraQuotes, hnone]
  · simp [extraQuotes, hnone]
  · simp [extraQuotes]

/-- A reader that takes a quote which does not begin three of them for itself takes a short run of
quotes for itself. -/
theorem reads_quotes {read : List Char → Option (List Char × List Char)}
    (hstep : ∀ cs, (∀ more, cs ≠ mark :: mark :: more) → read (mark :: cs) = push mark (read cs))
    (hrun : run ≤ 2) (hc : c ≠ mark) :
    read (List.replicate run mark ++ c :: rest) =
      (read (c :: rest)).map fun r => (List.replicate run mark ++ r.1, r.2) := by
  obtain rfl | rfl | rfl : run = 0 ∨ run = 1 ∨ run = 2 := by omega
  · simp
  · rw [List.replicate_one, List.singleton_append, hstep _ (by simp [hc])]
    rfl
  · rw [List.replicate_succ, List.replicate_one, List.cons_append, List.singleton_append,
      hstep _ (by simp [hc]), hstep _ (by simp [hc]), push, push, Option.map_map]
    rfl

theorem longBasicRest_quotes (hrun : run ≤ 2) (hc : c ≠ '"') :
    longBasicRest false (List.replicate run '"' ++ c :: rest) =
      (longBasicRest false (c :: rest)).map fun r => (List.replicate run '"' ++ r.1, r.2) := by
  refine reads_quotes (fun cs hcs => ?_) hrun hc
  rw [longBasicRest]
  · simp [show isControl '"' = false by decide]
  all_goals simp_all

theorem longLiteralRest_quotes (hrun : run ≤ 2) (hc : c ≠ '\'') :
    longLiteralRest (List.replicate run '\'' ++ c :: rest) =
      (longLiteralRest (c :: rest)).map fun r => (List.replicate run '\'' ++ r.1, r.2) := by
  refine reads_quotes (fun cs hcs => ?_) hrun hc
  rw [longLiteralRest]
  · simp [show isControl '\'' = false by decide]
  all_goals simp_all

/-- After a run of a character, no run of it in a text gets longer than a limit. -/
def RunsWithin (mark : Char) (limit : Nat) : Nat → List Char → Prop
  | _, [] => True
  | run, c :: cs =>
    if c = mark then run < limit ∧ RunsWithin mark limit (run + 1) cs
    else RunsWithin mark limit 0 cs

/-- The longest run and the last one after one more character. -/
def countRun (mark : Char) (p : Nat × Nat) (c : Char) : Nat × Nat :=
  if c = mark then (max p.1 (p.2 + 1), p.2 + 1) else (p.1, 0)

theorem runsWithin_of_foldl {limit : Nat} (cs : List Char) (p : Nat × Nat) :
    p.1 ≤ (cs.foldl (countRun mark) p).1 ∧
      ((cs.foldl (countRun mark) p).1 ≤ limit → RunsWithin mark limit p.2 cs) := by
  induction cs generalizing p with
  | nil => exact ⟨Nat.le_refl _, fun _ => trivial⟩
  | cons c cs ih =>
    obtain ⟨hbest, hruns⟩ := ih (countRun mark p c)
    rw [List.foldl_cons, RunsWithin]
    by_cases hc : c = mark
    · rw [countRun, if_pos hc] at hbest hruns ⊢
      rw [if_pos hc]
      exact ⟨by omega, fun h => ⟨by omega, hruns h⟩⟩
    · rw [countRun, if_neg hc] at hbest hruns ⊢
      rw [if_neg hc]
      exact ⟨hbest, hruns⟩

theorem runsWithin_of_longestRun {limit : Nat} (h : longestRun mark cs ≤ limit) :
    RunsWithin mark limit 0 cs :=
  (runsWithin_of_foldl cs (0, 0)).2 h

theorem RunsWithin.not_mem (h : RunsWithin mark 0 run cs) : mark ∉ cs := by
  induction cs generalizing run with
  | nil => exact List.not_mem_nil
  | cons c cs ih =>
    rw [RunsWithin] at h
    split at h
    · exact absurd h.1 (Nat.not_lt_zero _)
    · next hc => exact fun hmem => (List.mem_cons.mp hmem).elim (fun h => hc h.symm) (ih h)

/-! ### The four forms -/

theorem escapeFrom_short (run : Nat) (cs : List Char) :
    escapeFrom false run cs = cs.flatMap escapeChar := by
  induction cs generalizing run with
  | nil => rfl
  | cons c cs ih => simp [escapeFrom, ih]

theorem basicRest_escapeFrom (cs rest : List Char) :
    basicRest (escapeFrom false 0 cs ++ '"' :: rest) = some (cs, rest) := by
  rw [escapeFrom_short]
  induction cs with
  | nil => rfl
  | cons c cs ih =>
    rw [List.flatMap_cons, List.append_assoc, basicRest_escaped (escapes_escapeChar c), ih]
    rfl

theorem literalRest_append (hcontrol : ∀ c ∈ cs, isControl c = false) (hn : '\n' ∉ cs)
    (hquote : '\'' ∉ cs) (rest : List Char) :
    literalRest (cs ++ '\'' :: rest) = some (cs, rest) := by
  induction cs with
  | nil => rfl
  | cons c cs ih =>
    simp only [List.mem_cons, not_or, forall_eq_or_imp] at hcontrol hn hquote
    rw [List.cons_append, literalRest]
    · simp [Ne.symm hn.1, hcontrol.1, ih hcontrol.2 hn.2 hquote.2]
    · exact Ne.symm hquote.1

/-- A line feed stands for itself over several lines. -/
theorem longBasicRest_lineFeed (rest : List Char) :
    longBasicRest false ('\n' :: rest) = push '\n' (longBasicRest false rest) := by
  rw [longBasicRest]
  · simp [show isControl '\n' = false by decide]
  all_goals simp

theorem append_closing (run : Nat) (mark : Char) (rest : List Char) :
    List.replicate run mark ++ mark :: mark :: mark :: rest =
      mark :: mark :: mark :: (List.replicate run mark ++ rest) := by
  have hthree : mark :: mark :: mark :: rest = List.replicate 3 mark ++ rest := rfl
  rw [hthree, ← List.append_assoc, List.replicate_append_replicate, Nat.add_comm,
    ← List.replicate_append_replicate, List.append_assoc]
  rfl

/-- The quotes that were written last may turn out to be part of the end. -/
theorem longBasicRest_escapeFrom (cs : List Char) (hrun : run ≤ 2)
    (hrest : rest.head? ≠ some '"') :
    longBasicRest false
        (List.replicate run '"' ++ (escapeFrom true run cs ++ '"' :: '"' :: '"' :: rest)) =
      some (List.replicate run '"' ++ cs, rest) := by
  induction cs generalizing run with
  | nil =>
    rw [escapeFrom, List.nil_append, append_closing, longBasicRest,
      extraQuotes_replicate hrun hrest, List.append_nil]
    simp
  | cons c cs ih =>
    have hnone := ih (Nat.zero_le 2)
    rw [List.replicate_zero, List.nil_append, List.nil_append] at hnone
    -- What is not a third quote in a row is read after the quotes before it.
    have hstop : ∀ first part, first ≠ '"' → longBasicRest false (first :: part ++
        (escapeFrom true 0 cs ++ '"' :: '"' :: '"' :: rest)) = push c (longBasicRest false
          (escapeFrom true 0 cs ++ '"' :: '"' :: '"' :: rest)) →
        longBasicRest false (List.replicate run '"' ++ (first :: part ++
          (escapeFrom true 0 cs ++ '"' :: '"' :: '"' :: rest))) =
          some (List.replicate run '"' ++ c :: cs, rest) := by
      intro first part hfirst hread
      rw [List.cons_append] at hread ⊢
      rw [longBasicRest_quotes hrun hfirst, hread, hnone]
      rfl
    obtain ⟨first, part, hpart, hfirst, -⟩ := (escapes_escapeChar c).exists_cons
    have hescaped := longBasicRest_escaped (escapes_escapeChar c)
      (escapeFrom true 0 cs ++ '"' :: '"' :: '"' :: rest)
    rw [hpart] at hescaped
    rw [escapeFrom]
    split_ifs with hquote hmore hn
    · have hless : run < 2 := by simpa using hmore
      have hlast := @ih (run + 1) hless
      rw [List.replicate_succ', List.append_assoc, List.append_assoc] at hlast
      rw [hquote]
      exact hlast
    · rw [hpart, List.append_assoc]
      exact hstop first part hfirst hescaped
    · obtain rfl : c = '\n' := by simpa using hn
      exact hstop '\n' [] (by decide) (longBasicRest_lineFeed _)
    · rw [hpart, List.append_assoc]
      exact hstop first part hfirst hescaped

theorem longLiteralRest_append (hcontrol : ∀ c ∈ cs, isControl c = false) (hrun : run ≤ 2)
    (hruns : RunsWithin '\'' 2 run cs) (hrest : rest.head? ≠ some '\'') :
    longLiteralRest (List.replicate run '\'' ++ (cs ++ '\'' :: '\'' :: '\'' :: rest)) =
      some (List.replicate run '\'' ++ cs, rest) := by
  induction cs generalizing run with
  | nil =>
    rw [List.nil_append, append_closing, longLiteralRest, extraQuotes_replicate hrun hrest,
      List.append_nil]
  | cons c cs ih =>
    simp only [List.forall_mem_cons] at hcontrol
    rw [RunsWithin] at hruns
    by_cases hquote : c = '\''
    · rw [if_pos hquote] at hruns
      have hlast := @ih (run + 1) hcontrol.2 hruns.1 hruns.2
      rw [List.replicate_succ', List.append_assoc, List.append_assoc] at hlast
      rw [hquote]
      exact hlast
    · rw [if_neg hquote] at hruns
      have hnone := ih hcontrol.2 (Nat.zero_le 2) hruns
      rw [List.replicate_zero, List.nil_append, List.nil_append] at hnone
      have hr : c ≠ '\r' := by
        rintro rfl
        exact absurd hcontrol.1 (by decide)
      rw [List.cons_append, longLiteralRest_quotes hrun hquote, longLiteralRest]
      · simp [hcontrol.1, hnone, push]
      all_goals simp_all

/-! ### Strings and keys -/

/-- What a string has to be like for a form. -/
def Form.Fits (form : Form) (cs : List Char) : Prop :=
  match form with
  | .basic | .longBasic => True
  | .literal => cs ≠ [] ∧ (∀ c ∈ cs, isControl c = false) ∧ '\n' ∉ cs ∧ '\'' ∉ cs
  | .longLiteral => (∀ c ∈ cs, isControl c = false) ∧ RunsWithin '\'' 2 0 cs

theorem Form.fits_ofString (cs : List Char) : (Form.ofString cs).Fits cs := by
  simp only [Form.ofString]
  split_ifs with hbasic hliteral hlong hsingle
  · trivial
  · simp only [Bool.and_eq_true, Bool.not_eq_true', List.any_eq_false, decide_eq_true_eq,
      Bool.not_eq_true, List.contains_eq_mem, decide_eq_false_iff_not] at hliteral
    obtain ⟨⟨hcontrol, hquote⟩, hn⟩ := hliteral
    refine ⟨?_, hcontrol, hn, (runsWithin_of_longestRun (Nat.le_of_eq hquote)).not_mem⟩
    rintro rfl
    exact hbasic (by decide)
  · trivial
  · simp only [Bool.and_eq_true, Bool.not_eq_true', List.any_eq_false, decide_eq_true_eq,
      Bool.not_eq_true] at hsingle
    exact ⟨hsingle.1, runsWithin_of_longestRun hsingle.2⟩
  · trivial
  · trivial

theorem Form.fits_ofKey (cs : List Char) :
    Form.ofKey cs = .basic ∨ Form.ofKey cs = .literal ∧ Form.Fits .literal cs := by
  simp only [Form.ofKey]
  split_ifs with hbasic hliteral
  · exact .inl rfl
  · simp only [Bool.and_eq_true, Bool.not_eq_true', List.any_eq_false,
      List.contains_eq_mem, decide_eq_false_iff_not, Bool.not_eq_true,
      Bool.or_eq_false_iff] at hliteral
    obtain ⟨hcontrol, hquote⟩ := hliteral
    refine .inr ⟨rfl, ?_, fun c hc => (hcontrol c hc).1, fun hn => (hcontrol _ hn).2 rfl, hquote⟩
    rintro rfl
    exact hbasic (by decide)
  · exact .inl rfl

/-! Which of the four forms a text begins. -/

theorem string?_basic {cs : List Char} (h : ∀ more, cs ≠ '"' :: '"' :: more) :
    string? ('"' :: cs) = basicRest cs := by
  rw [string?]
  all_goals simp_all

theorem string?_literal {cs : List Char} (h : ∀ more, cs ≠ '\'' :: '\'' :: more) :
    string? ('\'' :: cs) = literalRest cs := by
  rw [string?]
  all_goals simp_all

/-- The line feed before a long string is left out again, and nothing else is. -/
theorem dropLineBreak_opening (newline : Bool)
    (h : newline = false → cs.head? ≠ some '\n' ∧ cs.head? ≠ some '\r') :
    dropLineBreak ((if newline then ['\n'] else []) ++ cs) = cs := by
  cases newline with
  | true => rfl
  | false =>
    obtain ⟨hn, hr⟩ := h rfl
    rcases cs with _ | ⟨c, cs⟩
    · rfl
    · have hnone : lineBreak? (c :: cs) = none := by
        rw [lineBreak?]
        all_goals simp_all
      simp [dropLineBreak, hnone]

/-- What stands between the quotes of a form. -/
def Form.body : Form → List Char → List Char
  | .basic, cs => escapeFrom false 0 cs
  | .longBasic, cs => escapeFrom true 0 cs
  | .literal, cs | .longLiteral, cs => cs

theorem writeAs_append (form : Form) (cs rest : List Char) :
    writeAs form cs ++ rest =
      form.quotes ++ ((if form.isLong && cs.contains '\n' then ['\n'] else []) ++
        (form.body cs ++ (form.quotes ++ rest))) := by
  cases form <;> unfold writeAs <;> dsimp only [Form.body] <;> split_ifs <;> simp

/-- What stands between double quotes does not begin with a quote or a line break, unless the string
does. -/
theorem head_escapeFrom (long : Bool) (cs more : List Char) :
    let text := escapeFrom long 0 cs ++ '"' :: more
    (cs ≠ [] → long = false → text.head? ≠ some '"') ∧
      ('\n' ∉ cs → text.head? ≠ some '\n' ∧ text.head? ≠ some '\r') := by
  rcases cs with _ | ⟨c, cs⟩
  · simp [escapeFrom]
  · obtain ⟨first, part, hpart, hquote, hn, hr⟩ := (escapes_escapeChar c).exists_cons
    unfold escapeFrom
    split_ifs with hc hlong hfeed
    · simp_all
    · simp [hpart, hquote, hn, hr]
    · simp_all
    · simp [hpart, hquote, hn, hr]

/-- What follows a string is no quote. -/
def Follows (rest : List Char) : Prop := rest.head? ≠ some '"' ∧ rest.head? ≠ some '\''

/-- **A string in a form that it fits is read back.** -/
theorem string?_writeAs {form : Form} (h : form.Fits cs) (hrest : Follows rest) :
    string? (writeAs form cs ++ rest) = some (cs, rest) := by
  rw [writeAs_append]
  cases form with
  | basic =>
    refine (@string?_basic (escapeFrom false 0 cs ++ '"' :: rest) fun more hmore => ?_).trans
      (basicRest_escapeFrom cs rest)
    rcases cs with _ | ⟨c, cs⟩
    · exact hrest.1 (by rw [(List.cons.inj hmore).2]; rfl)
    · exact (head_escapeFrom false (c :: cs) rest).1 (List.cons_ne_nil _ _) rfl (by rw [hmore]; rfl)
  | literal =>
    obtain ⟨hne, hcontrol, hn, hquote⟩ := h
    refine (@string?_literal (cs ++ '\'' :: rest) fun more hmore => ?_).trans
      (literalRest_append hcontrol hn hquote rest)
    obtain ⟨c, cs, rfl⟩ := List.exists_cons_of_ne_nil hne
    exact hquote (by rw [(List.cons.inj hmore).1]; exact List.mem_cons_self)
  | longBasic =>
    have hread := longBasicRest_escapeFrom cs (Nat.zero_le 2) hrest.1
    refine Eq.trans (congrArg (longBasicRest false) (dropLineBreak_opening _ fun hnone => ?_)) hread
    exact (head_escapeFrom true cs _).2 (by simpa [Form.isLong] using hnone)
  | longLiteral =>
    obtain ⟨hcontrol, hruns⟩ := h
    have hread := longLiteralRest_append hcontrol (Nat.zero_le 2) hruns hrest.2
    refine Eq.trans (congrArg longLiteralRest (dropLineBreak_opening _ fun hnone => ?_)) hread
    rcases cs with _ | ⟨c, cs⟩
    · simp [Form.quotes, Form.body]
    · have hn : '\n' ∉ c :: cs := by simpa [Form.isLong] using hnone
      have hr : c ≠ '\r' := by
        rintro rfl
        exact absurd (hcontrol _ List.mem_cons_self) (by decide)
      have hc : c ≠ '\n' := fun h => hn (h ▸ List.mem_cons_self)
      simp [Form.body, hr, hc]

theorem string?_writeString (cs : List Char) (hrest : Follows rest) :
    string? (writeString cs ++ rest) = some (cs, rest) :=
  string?_writeAs (Form.fits_ofString cs) hrest

/-- **A key is read back**, whatever follows that cannot go on with it. -/
theorem keyPart?_writeKey (cs : List Char) (hrest : ∀ c ∈ rest.head?, isBareChar c = false) :
    keyPart? (writeKey cs ++ rest) = some (cs, rest) := by
  unfold writeKey
  split_ifs with hbare
  · simp only [Bool.and_eq_true, decide_eq_true_eq, List.all_eq_true] at hbare
    obtain ⟨hne, hall⟩ := hbare
    obtain ⟨c, cs, rfl⟩ := List.exists_cons_of_ne_nil hne
    have hc : c ≠ '"' ∧ c ≠ '\'' := by
      constructor <;> rintro rfl <;> exact absurd (hall _ List.mem_cons_self) (by decide)
    rw [List.cons_append, keyPart?, ← List.cons_append, Text.takeWhile_run hall hrest,
      Text.dropWhile_run hall hrest]
    all_goals simp [hc.1, hc.2]
  · rcases Form.fits_ofKey cs with hform | ⟨hform, -, hcontrol, hn, hquote⟩
    · rw [hform, writeAs_append]
      exact basicRest_escapeFrom cs rest
    · rw [hform, writeAs_append]
      exact literalRest_append hcontrol hn hquote rest

end ReviewMentor.Toml
