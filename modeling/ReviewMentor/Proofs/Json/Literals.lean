import Mathlib.Data.List.Forall2
import ReviewMentor.Proofs.Json.Tokens

/-!
# String literals

A text has many literals: each character may stand as it is, as an escape of one letter, or as the
code units that it has in UTF-16. All of them are read as the text. The printed form of the text is
one of them.
-/

namespace ReviewMentor.Json

/-- Four hexadecimal digits that write a code unit. -/
def WritesUnit (digits : List Char) (n : Nat) : Prop :=
  ∃ a b c d, digits.map hexDigit? = [some a, some b, some c, some d] ∧
    n = 16 * (16 * (16 * a + b) + c) + d

/-- The ways to write a character between quotes. -/
inductive Writes (c : Char) : List Char → Prop
  | plain : c ≠ '"' → c ≠ '\\' → 0x20 ≤ c.toNat → Writes c [c]
  | short {letter : Char} : unescape? letter = some c → Writes c ['\\', letter]
  | unit {digits : List Char} : WritesUnit digits c.toNat → Writes c ('\\' :: 'u' :: digits)
  | pair {first second : List Char} {high low : Nat} : WritesUnit first high →
    WritesUnit second low → 0xD800 ≤ high → high < 0xDC00 → 0xDC00 ≤ low → low < 0xE000 →
    c.toNat = 0x10000 + (high - 0xD800) * 0x400 + (low - 0xDC00) →
    Writes c ('\\' :: 'u' :: first ++ '\\' :: 'u' :: second)

/-- A literal of a text: its characters between quotes, each written in one of its ways. -/
def IsLiteralOf (literal text : String) : Prop :=
  ∃ parts, List.Forall₂ Writes text.toList parts ∧ literal.toList = '"' :: parts.flatten ++ ['"']

variable {c : Char} {cs part digits : List Char} {parts : List (List Char)} {n : Nat}
  {pieces : List Piece} {rest : List (Option Char)}

/-! ### Reading one character -/

section Characters

theorem tokensFrom_unit (h : WritesUnit digits n) (pieces : List Piece)
    (rest : List (Option Char)) :
    tokensFrom (.string pieces) (('\\' :: 'u' :: digits).map some ++ rest) =
      tokensFrom (.string (.unit n :: pieces)) rest := by
  obtain ⟨a, b, c, d, hdigits, rfl⟩ := h
  obtain ⟨w, _, rfl, hw, hdigits⟩ := List.map_eq_cons_iff.mp hdigits
  obtain ⟨x, _, rfl, hx, hdigits⟩ := List.map_eq_cons_iff.mp hdigits
  obtain ⟨y, _, rfl, hy, hdigits⟩ := List.map_eq_cons_iff.mp hdigits
  obtain ⟨z, _, rfl, hz, hdigits⟩ := List.map_eq_cons_iff.mp hdigits
  obtain rfl := List.map_eq_nil_iff.mp hdigits
  simp [tokensFrom_string, tokensFrom_escape, tokensFrom_hex, hw, hx, hy, hz]

/-- No character is half of a pair. -/
theorem not_surrogate (c : Char) : ¬ (0xD800 ≤ c.toNat ∧ c.toNat < 0xE000) := by
  have hvalid : c.toNat < 0xD800 ∨ 0xDFFF < c.toNat ∧ c.toNat < 0x110000 := c.valid
  omega

/-- However a character is written, it is read as pieces that are that character. -/
theorem Writes.exists_pieces (h : Writes c part) : ∃ read : List Piece,
    (∀ pieces rest, tokensFrom (.string pieces) (part.map some ++ rest) =
      tokensFrom (.string (read.reverse ++ pieces)) rest) ∧
    ∀ more, joinPieces? (read ++ more) = (joinPieces? more).map (c :: ·) := by
  cases h with
  | plain hquote hback hlow =>
    have hcontrol : ¬ c.toNat < 0x20 := Nat.not_lt.mpr hlow
    exact ⟨[.char c], fun pieces rest => by simp [tokensFrom_string, hquote, hback, hcontrol],
      fun more => rfl⟩
  | short hletter =>
    refine ⟨[.char c], fun pieces rest => ?_, fun more => rfl⟩
    have hunit : unescape? 'u' = none := rfl
    have hne : ∀ letter, unescape? letter = some c → letter ≠ 'u' := by
      rintro letter h rfl
      exact absurd (hunit.symm.trans h) (by simp)
    simp [tokensFrom_string, tokensFrom_escape, hne _ hletter, hletter]
  | unit hunit =>
    refine ⟨[.unit c.toNat], fun pieces rest => tokensFrom_unit hunit pieces rest, fun more => ?_⟩
    rw [List.singleton_append, joinPieces?_unit (not_surrogate c), Char.ofNat_toNat]
  | @pair first second high low hfirst hsecond hhigh hhigh' hlow hlow' hc =>
    refine ⟨[.unit high, .unit low], fun pieces rest => ?_, fun more => ?_⟩
    · rw [List.map_append, List.append_assoc, tokensFrom_unit hfirst, tokensFrom_unit hsecond]
      rfl
    · have hpair : 0xD800 ≤ high ∧ high < 0xDC00 := ⟨hhigh, hhigh'⟩
      have hpair' : 0xDC00 ≤ low ∧ low < 0xE000 := ⟨hlow, hlow'⟩
      simp only [List.cons_append, List.nil_append]
      refine (if_pos hpair).trans ((if_pos hpair').trans ?_)
      rw [← hc, Char.ofNat_toNat]

end Characters

/-! ### Reading literals -/

section Literals

theorem exists_pieces (h : List.Forall₂ Writes cs parts) : ∃ read : List Piece,
    (∀ pieces rest, tokensFrom (.string pieces) (parts.flatten.map some ++ some '"' :: rest) =
      .string (pieces.reverse ++ read) :: tokensFrom .between rest) ∧
    joinPieces? read = some cs := by
  induction h with
  | nil => exact ⟨[], fun pieces rest => by simp [tokensFrom_string], rfl⟩
  | @cons c part cs parts hpart _ ih =>
    obtain ⟨first, hfirst, hjoin⟩ := hpart.exists_pieces
    obtain ⟨read, hread, hrest⟩ := ih
    refine ⟨first ++ read, fun pieces rest => ?_, by rw [hjoin, hrest, Option.map_some]⟩
    rw [List.flatten_cons, List.map_append, List.append_assoc, hfirst, hread]
    simp

/-- **Every literal of a text is read as the text.** -/
theorem parse?_of_isLiteralOf {literal text : String} (h : IsLiteralOf literal text) :
    parse? literal = some (.string text) := by
  obtain ⟨parts, hparts, hliteral⟩ := h
  obtain ⟨read, hread, hjoin⟩ := exists_pieces hparts
  have htokens : tokens (literal.toList.map some) = [.string read] := by
    have h := hread [] []
    rw [hliteral, tokens, List.cons_append, List.map_cons, List.map_append]
    simpa [tokensFrom_nil, tokensFrom_between, start?] using h
  have hscan : Draft.read? literal = some (.string read) := by
    rw [Draft.read?, Draft.scan, htokens]
    rfl
  rw [parse?, hscan, Option.bind_some, Draft.toJson?, hjoin, Option.map_some,
    String.ofList_toList]

/-- The printed form of a character is a way to write it. -/
theorem writes_escapeChar (c : Char) : Writes c (escapeChar c) := by
  unfold escapeChar
  split_ifs with hquote hback hn hr ht hb hf hlow
  · exact .short (by rw [hquote]; rfl)
  · exact .short (by rw [hback]; rfl)
  · exact .short (by rw [hn]; rfl)
  · exact .short (by rw [hr]; rfl)
  · exact .short (by rw [ht]; rfl)
  · obtain rfl : c = '\x08' := by rw [← Char.ofNat_toNat c, hb]
    exact .short rfl
  · obtain rfl : c = '\x0c' := by rw [← Char.ofNat_toNat c, hf]
    exact .short rfl
  · have hhigh := hexDigit?_hexDigit (n := c.toNat / 16) (by omega)
    have hdigit := hexDigit?_hexDigit (n := c.toNat % 16) (by omega)
    have hzero : hexDigit? '0' = some 0 := rfl
    exact .unit ⟨0, 0, c.toNat / 16, c.toNat % 16, by simp [hhigh, hdigit, hzero], by omega⟩
  · exact .plain hquote hback (Nat.not_lt.mp hlow)

theorem isLiteralOf_compact (text : String) : IsLiteralOf (Json.string text).compact text := by
  refine ⟨text.toList.map escapeChar, ?_, ?_⟩
  · exact List.forall₂_map_right_iff.mpr (List.forall₂_same.mpr fun c _ => writes_escapeChar c)
  · rw [compact, String.toList_ofList, compactChars, quoted, List.flatMap_def]

end Literals

end ReviewMentor.Json
