import Mathlib.Data.List.TakeWhile
import Mathlib.Tactic.Common
import ReviewMentor.Json.Numeral
import ReviewMentor.Json.Printer

/-!
# Tokens of written values

Both written forms of a value have the same tokens, those that the value itself tells: its layout is
blanks between them. A string is read piece by piece as it was escaped, and a whole number that fits
into 64 bits is read as the number that it is.
-/

namespace ReviewMentor.Json

/-! ### Numbers -/

theorem digitsValue_eq (digits : List Char) :
    digitsValue digits = Nat.ofDigitChars 10 digits 0 := by
  have hfold : ∀ value, digits.foldl (fun n c => n * 10 + (c.toNat - 0x30)) value =
      Nat.ofDigitChars 10 digits value := by
    induction digits with
    | nil => exact fun _ => rfl
    | cons c rest ih =>
      intro value
      rw [List.foldl_cons, ih, Nat.ofDigitChars_cons, Nat.mul_comm]
      rfl
  exact hfold 0

theorem digitsValue_toDigits (n : Nat) : digitsValue (Nat.toDigits 10 n) = n := by
  rw [digitsValue_eq, Nat.ofDigitChars_toDigits (by decide) (by decide)]

theorem isDigit_of_mem {n : Nat} {c : Char} (h : c ∈ Nat.toDigits 10 n) : c.isDigit = true :=
  Nat.isDigit_of_mem_toDigits (by decide) (by decide) h

/-- The digits of a positive number do not start with a zero. -/
theorem toDigits_pos {n : Nat} (h : 0 < n) :
    ∃ c rest, Nat.toDigits 10 n = c :: rest ∧ c.isDigit = true ∧ c ≠ '0' := by
  induction n using Nat.strongRecOn with
  | ind n ih =>
    rw [Nat.toDigits_eq_if (by decide)]
    split
    · next hlt =>
      refine ⟨n.digitChar, [], rfl, ?_, ?_⟩
      · exact isDigit_of_mem (n := n) (by simp [Nat.toDigits_of_lt_base hlt])
      · intro hzero
        have hval := Nat.toNat_digitChar_of_lt_ten hlt
        rw [hzero] at hval
        simp at hval
        omega
    · obtain ⟨c, rest, hcs, hdigit, hne⟩ := ih (n / 10) (by omega) (by omega)
      exact ⟨c, rest ++ [(n % 10).digitChar], by simp [hcs], hdigit, hne⟩

/-- The characters of a whole number. -/
theorem render_int (n : Int) : (Number.int n).render.toList =
    if 0 ≤ n then Nat.toDigits 10 n.toNat else '-' :: Nat.toDigits 10 (-n).toNat := by
  rw [Number.render, Int.toString_eq_repr, Int.repr_eq_if]
  split
  · rw [Nat.repr_eq_ofList_toDigits, String.toList_ofList]
  · rw [Nat.repr_eq_ofList_toDigits, String.toList_append, String.toList_ofList]
    simp

/-- The least and the greatest whole number that is read as such. -/
def wholeRange : Int × Int := (-2 ^ 63, 2 ^ 64 - 1)

/-- A whole number that is read as such. -/
def IsWhole (n : Int) : Prop := wholeRange.1 ≤ n ∧ n ≤ wholeRange.2

instance (n : Int) : Decidable (IsWhole n) := inferInstanceAs (Decidable (_ ∧ _))

theorem ofChars_digits {digits : List Char} (h : ∀ c ∈ digits, c.isDigit = true) :
    Numeral.ofChars digits = ⟨false, digits, none, none⟩ := by
  have htake : digits.takeWhile Char.isDigit = digits := List.takeWhile_eq_self_iff.mpr h
  have hdrop : digits.dropWhile Char.isDigit = [] := List.dropWhile_eq_nil_iff.mpr h
  have hsign : ∀ rest, digits ≠ '-' :: rest := by
    rintro rest rfl
    exact absurd (h '-' (by simp)) (by decide)
  simp [Numeral.ofChars, htake, hdrop]

theorem ofChars_minus {digits : List Char} (h : ∀ c ∈ digits, c.isDigit = true) :
    Numeral.ofChars ('-' :: digits) = ⟨true, digits, none, none⟩ := by
  have htake : digits.takeWhile Char.isDigit = digits := List.takeWhile_eq_self_iff.mpr h
  have hdrop : digits.dropWhile Char.isDigit = [] := List.dropWhile_eq_nil_iff.mpr h
  simp [Numeral.ofChars, htake, hdrop]

/-- A whole number of 64 bits is read as it was written. -/
theorem number?_render {n : Int} (h : IsWhole n) :
    number? (Number.int n).render.toList = some (.int n) := by
  obtain ⟨hleast, hgreatest⟩ := h
  simp only [wholeRange] at hleast hgreatest
  rw [render_int]
  split
  · next hpos =>
    have hfits : n.toNat ≤ significandLimit := by
      unfold significandLimit
      omega
    rw [number?, ofChars_digits fun c => isDigit_of_mem]
    simp [digitsValue_toDigits, hfits, Int.toNat_of_nonneg hpos]
  · next hneg =>
    have hpos : 0 < (-n).toNat := by omega
    have hfits : (-n).toNat ≤ 2 ^ 63 := by omega
    rw [number?, ofChars_minus fun c => isDigit_of_mem]
    have hne : n ≠ 0 := by omega
    have hval : -(((-n).toNat : Nat) : Int) = n := by omega
    simp only [digitsValue_toDigits, Bool.not_true, Bool.false_and, Bool.false_eq_true, if_false,
      Bool.true_and, hpos, hfits, decide_true, if_true, hval]

/-! ### Reading one character -/

section Characters

variable (c : Char) (rest : List (Option Char)) (pieces : List Piece)

theorem tokensFrom_nil : tokensFrom .between [] = [] := rfl

theorem tokensFrom_between : tokensFrom .between (some c :: rest) =
    match start? c with
    | none => [.bad]
    | some (none, reading) => tokensFrom reading rest
    | some (some token, reading) => token :: tokensFrom reading rest := rfl

theorem tokensFrom_string : tokensFrom (.string pieces) (some c :: rest) =
    if c = '"' then .string pieces.reverse :: tokensFrom .between rest
    else if c = '\\' then tokensFrom (.escape pieces) rest
    else if c.toNat < 0x20 then [.bad]
    else tokensFrom (.string (.char c :: pieces)) rest := rfl

theorem tokensFrom_escape : tokensFrom (.escape pieces) (some c :: rest) =
    if c = 'u' then tokensFrom (.hex pieces 3 0) rest
    else match unescape? c with
      | some d => tokensFrom (.string (.char d :: pieces)) rest
      | none => [.bad] := rfl

theorem tokensFrom_hex (left value : Nat) : tokensFrom (.hex pieces left value) (some c :: rest) =
    match hexDigit? c, left with
    | none, _ => [.bad]
    | some d, 0 => tokensFrom (.string (.unit (16 * value + d) :: pieces)) rest
    | some d, left + 1 => tokensFrom (.hex pieces left (16 * value + d)) rest := rfl

/-- Where a number ends, the character after it is read as if nothing had been read before. -/
theorem tokensFrom_digit (phase : Phase) (digits : List Char) :
    tokensFrom (.number phase digits) (some c :: rest) =
      match phase.next? c with
      | some next => tokensFrom (.number next (c :: digits)) rest
      | none =>
        if phase.mayEnd && !(phase = .zero && c.isDigit) then
          .number digits.reverse :: tokensFrom .between (some c :: rest)
        else [.bad] := rfl

end Characters

/-! ### Texts that are tokens -/

/-- What follows does not go on with a number. -/
def Ends : List (Option Char) → Prop
  | some c :: _ => c ∈ [',', ':', ']', '\x7d', '\n', ' ']
  | none :: _ => False
  | [] => True

/-- A text is read as some tokens, whatever follows that does not go on with a number. -/
def Spells (text : List Char) (ts : List Token) : Prop :=
  ∀ rest, Ends rest → tokensFrom .between (text.map some ++ rest) = ts ++ tokensFrom .between rest

variable {cs text : List Char} {ts : List Token} {rest : List (Option Char)}

theorem spells_null : Spells "null".toList [.null] := fun _ _ => rfl

theorem spells_bool (b : Bool) :
    Spells (if b then "true" else "false").toList [.bool b] := by
  cases b <;> exact fun _ _ => rfl

/-! Numbers. -/

theorem tokensFrom_number {phase : Phase} (digits : List Char) (hend : phase.mayEnd = true)
    (h : Ends rest) : tokensFrom (.number phase digits) rest =
      .number digits.reverse :: tokensFrom .between rest := by
  rcases rest with _ | ⟨_ | c, rest⟩
  · exact if_pos hend
  · exact absurd h (by simp [Ends])
  · have hmark : phase.next? c = none ∧ c.isDigit = false := by
      simp only [Ends, List.mem_cons, List.not_mem_nil, or_false] at h
      rcases h with rfl | rfl | rfl | rfl | rfl | rfl <;> cases phase <;> decide
    simp only [tokensFrom_digit, hmark.1, hend, hmark.2, Bool.and_false, Bool.not_false,
      Bool.and_true, if_true]

theorem tokensFrom_whole (cs : List Char) (digits : List Char)
    (hdigits : ∀ c ∈ cs, c.isDigit = true) (h : Ends rest) :
    tokensFrom (.number .whole digits) (cs.map some ++ rest) =
      .number (digits.reverse ++ cs) :: tokensFrom .between rest := by
  induction cs generalizing digits with
  | nil => simpa using tokensFrom_number _ rfl h
  | cons c cs ih =>
    have hnext : Phase.whole.next? c = some .whole := by
      simp [Phase.next?, hdigits c (by simp)]
    rw [List.map_cons, List.cons_append, tokensFrom_digit, hnext]
    simpa using ih (c :: digits) fun d hd => hdigits d (by simp [hd])

theorem start?_digit {c : Char} (hdigit : c.isDigit = true) (hzero : c ≠ '0') :
    start? c = some (none, .number .whole [c]) := by
  unfold start?
  split <;> simp_all

/-- The digits of a number are its token, also after a sign. -/
theorem spells_digits (n : Nat) : Spells (Nat.toDigits 10 n) [.number (Nat.toDigits 10 n)] ∧
    (0 < n → Spells ('-' :: Nat.toDigits 10 n) [.number ('-' :: Nat.toDigits 10 n)]) := by
  rcases Nat.eq_zero_or_pos n with rfl | hpos
  · refine ⟨fun rest h => ?_, fun h => absurd h (by simp)⟩
    exact tokensFrom_number ['0'] rfl h
  · obtain ⟨c, cs, hcs, hdigit, hzero⟩ := toDigits_pos hpos
    have hrest : ∀ d ∈ cs, d.isDigit = true := fun d hd =>
      isDigit_of_mem (n := n) (by simp [hcs, hd])
    rw [hcs]
    refine ⟨fun rest h => ?_, fun _ rest h => ?_⟩
    · rw [List.map_cons, List.cons_append, tokensFrom_between, start?_digit hdigit hzero]
      exact tokensFrom_whole cs [c] hrest h
    · have hnext : Phase.minus.next? c = some .whole := by
        simp [Phase.next?, hdigit, hzero]
      rw [List.map_cons, List.cons_append, tokensFrom_between]
      show tokensFrom (.number .minus ['-']) _ = _
      rw [List.map_cons, List.cons_append, tokensFrom_digit, hnext]
      exact tokensFrom_whole cs [c, '-'] hrest h

theorem spells_int (n : Int) :
    Spells (Number.int n).render.toList [.number (Number.int n).render.toList] := by
  rw [render_int]
  split
  · exact (spells_digits _).1
  · exact (spells_digits _).2 (by omega)

/-! Strings. -/

/-- The part of a string as which a character is written. -/
def Piece.ofChar (c : Char) : Piece :=
  if c.toNat < 0x20 ∧ c ≠ '\n' ∧ c ≠ '\r' ∧ c ≠ '\t' ∧ c.toNat ≠ 0x8 ∧ c.toNat ≠ 0xC then
    .unit c.toNat
  else .char c

/-- The pieces of a written text. -/
def piecesOf (s : String) : List Piece := s.toList.map .ofChar

theorem hexDigit?_hexDigit {n : Nat} (h : n < 16) : hexDigit? (Text.hexDigit n) = some n := by
  have hall : ∀ n < 16, hexDigit? (Text.hexDigit n) = some n := by decide
  exact hall n h

theorem tokensFrom_escapeChar (c : Char) (pieces : List Piece) (rest : List (Option Char)) :
    tokensFrom (.string pieces) ((escapeChar c).map some ++ rest) =
      tokensFrom (.string (.ofChar c :: pieces)) rest := by
  have hquote : '"'.toNat = 34 := rfl
  have hback : '\\'.toNat = 92 := rfl
  by_cases hlow : c.toNat < 0x20
  · have hnoQuote : c ≠ '"' := by
      rintro rfl
      omega
    have hnoBack : c ≠ '\\' := by
      rintro rfl
      omega
    -- Five of the control characters have an escape of one letter.
    by_cases hshort : c = '\n' ∨ c = '\r' ∨ c = '\t' ∨ c.toNat = 0x8 ∨ c.toNat = 0xC
    · obtain rfl | rfl | rfl | h | h := hshort
      · rfl
      · rfl
      · rfl
      · obtain rfl : c = Char.ofNat 8 := by rw [← h, Char.ofNat_toNat]
        rfl
      · obtain rfl : c = Char.ofNat 0xC := by rw [← h, Char.ofNat_toNat]
        rfl
    · simp only [not_or] at hshort
      obtain ⟨hn, hr, ht, hb, hf⟩ := hshort
      have hhigh := hexDigit?_hexDigit (n := c.toNat / 16) (by omega)
      have hdigit := hexDigit?_hexDigit (n := c.toNat % 16) (by omega)
      have hzero : hexDigit? '0' = some 0 := rfl
      have hval : 16 * (c.toNat / 16) + c.toNat % 16 = c.toNat := Nat.div_add_mod ..
      simp [escapeChar, Piece.ofChar, hnoQuote, hnoBack, hn, hr, ht, hb, hf, hlow,
        tokensFrom_string, tokensFrom_escape, tokensFrom_hex, hhigh, hdigit, hzero, hval]
  · have hn : c ≠ '\n' ∧ c ≠ '\r' ∧ c ≠ '\t' := by
      refine ⟨?_, ?_, ?_⟩ <;> rintro rfl <;> exact hlow (by decide)
    have hpiece : Piece.ofChar c = .char c := if_neg fun h => hlow h.1
    rw [hpiece]
    by_cases hq : c = '"'
    · subst hq
      rfl
    by_cases hb : c = '\\'
    · subst hb
      rfl
    have hplain : escapeChar c = [c] := by
      simp [escapeChar, hq, hb, hn, hlow, show c.toNat ≠ 8 by omega, show c.toNat ≠ 12 by omega]
    simp [hplain, tokensFrom_string, hq, hb, hlow]

theorem tokensFrom_flatMap (cs : List Char) (pieces : List Piece) (rest : List (Option Char)) :
    tokensFrom (.string pieces) ((cs.flatMap escapeChar).map some ++ some '"' :: rest) =
      .string (pieces.reverse ++ cs.map .ofChar) :: tokensFrom .between rest := by
  induction cs generalizing pieces with
  | nil => simp [tokensFrom_string]
  | cons c cs ih =>
    rw [List.flatMap_cons, List.map_append, List.append_assoc, tokensFrom_escapeChar, ih]
    simp

theorem tokensFrom_quoted (s : String) (rest : List (Option Char)) :
    tokensFrom .between ((quoted s).map some ++ rest) =
      .string (piecesOf s) :: tokensFrom .between rest := by
  have h := tokensFrom_flatMap s.toList [] rest
  simpa [quoted, piecesOf, tokensFrom_between, start?] using h

theorem spells_quoted (s : String) : Spells (quoted s) [.string (piecesOf s)] :=
  fun rest _ => tokensFrom_quoted s rest

/-- A code unit that is no half of a pair is a character by itself. -/
theorem joinPieces?_unit {n : Nat} (h : ¬ (0xD800 ≤ n ∧ n < 0xE000)) (pieces : List Piece) :
    joinPieces? (.unit n :: pieces) = (joinPieces? pieces).map (Char.ofNat n :: ·) := by
  have hhigh : ¬ (0xD800 ≤ n ∧ n < 0xDC00) := by omega
  have hlow : ¬ (0xDC00 ≤ n ∧ n < 0xE000) := by omega
  rcases pieces with _ | ⟨_ | low | _, pieces⟩
  · exact if_neg h
  · exact if_neg h
  · exact (if_neg hhigh).trans (if_neg hlow)
  · exact if_neg h

/-- The pieces of a written text have that text. -/
theorem joinPieces?_piecesOf (s : String) : joinPieces? (piecesOf s) = some s.toList := by
  unfold piecesOf
  induction s.toList with
  | nil => rfl
  | cons c cs ih =>
    rw [List.map_cons, Piece.ofChar]
    split_ifs with hctl
    · rw [joinPieces?_unit (by omega), ih, Option.map_some, Char.ofNat_toNat]
    · exact (congrArg (Option.map (c :: ·)) ih).trans (Option.map_some ..)

end ReviewMentor.Json
