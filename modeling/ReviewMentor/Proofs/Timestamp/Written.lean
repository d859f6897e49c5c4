import Mathlib.Data.List.Induction
import Mathlib.Data.Nat.Digits.Defs
import ReviewMentor.Proofs.Json.Tokens
import ReviewMentor.Proofs.Text.Trimming
import ReviewMentor.Proofs.Timestamp.Calendar

/-!
# Moments as texts

What is written of a moment is read as the same moment, and a moment that was read can be written.
-/

namespace ReviewMentor.Timestamp

/-! ### Digits -/

theorem valueOf_eq (digits : List Char) : valueOf digits = Nat.ofDigitChars 10 digits 0 :=
  Json.digitsValue_eq digits

/-- Digits that say a number. -/
structure Says (digits : List Char) (n : Nat) : Prop where
  nonempty : digits ≠ []
  areDigits : ∀ c ∈ digits, c.isDigit = true
  value : valueOf digits = n

theorem toList_padded (width n : Nat) : (padded width n).toList =
    List.replicate (width - (Nat.toDigits 10 n).length) '0' ++ Nat.toDigits 10 n := by
  rw [padded, String.toList_append, String.toList_ofList, Nat.toString_eq_ofList_toDigits,
    ← String.length_toList, String.toList_ofList]

theorem says_padded (width n : Nat) : Says (padded width n).toList n := by
  rw [toList_padded]
  refine ⟨by simp [Nat.toDigits_ne_nil], fun c hc => ?_, ?_⟩
  · rcases List.mem_append.mp hc with hc | hc
    · obtain rfl := List.eq_of_mem_replicate hc
      decide
    · exact Json.isDigit_of_mem hc
  · rw [valueOf_eq, Nat.ofDigitChars_append, Nat.ofDigitChars_replicate_zero, Nat.mul_zero,
      Nat.ofDigitChars_toDigits (by decide) (by decide)]

theorem length_padded {width n : Nat} (hwidth : 0 < width) (h : n < 10 ^ width) :
    (padded width n).toList.length = width := by
  have hlength := Nat.toDigits_length 10 n width hwidth h
  rw [toList_padded, List.length_append, List.length_replicate]
  omega

variable {digits : List Char} {n most : Nat} {c : Char} (rest : List Char)

/-- Digits are read up to what is none, or as many as may be read. -/
theorem digits?_append (h : Says digits n) (hmost : digits.length ≤ most)
    (hends : digits.length = most ∨ ∀ c ∈ rest.head?, c.isDigit = false) :
    digits? most (digits ++ rest) = some (n, rest) := by
  have htake : ((digits ++ rest).take most).takeWhile Char.isDigit = digits := by
    rw [List.take_append, List.take_of_length_le hmost,
      List.takeWhile_append_of_pos h.areDigits]
    rcases hends with rfl | hends
    · simp
    · rcases rest with _ | ⟨c, rest⟩
      · simp
      · have hc : c.isDigit = false := hends c rfl
        rcases most - digits.length with _ | more <;> simp [hc]
  obtain ⟨first, more, rfl⟩ := List.exists_cons_of_ne_nil h.nonempty
  rw [digits?, htake]
  dsimp only
  rw [h.value, List.drop_left]

theorem not_isBlank_of_isDigit (h : c.isDigit = true) : Text.isBlank c = false := by
  have hzero : '0'.toNat = 48 := rfl
  have hnine : '9'.toNat = 57 := rfl
  have hrange := Char.isDigit_iff_toNat.mp h
  simp [Text.isBlank]
  omega

theorem skipBlanks_of_head (h : Text.isBlank c = false) : skipBlanks (c :: rest) = c :: rest := by
  simp [skipBlanks, h]

theorem skipBlanks_append (h : Says digits n) : skipBlanks (digits ++ rest) = digits ++ rest := by
  obtain ⟨first, more, rfl⟩ := List.exists_cons_of_ne_nil h.nonempty
  exact skipBlanks_of_head _ (not_isBlank_of_isDigit (h.areDigits first (by simp)))

/-- A number of two digits is read. -/
theorem number?_padded (h : n < 100) :
    number? 2 ((padded 2 n).toList ++ rest) = some (n, rest) := by
  rw [number?, skipBlanks_append rest (says_padded 2 n)]
  have hlength : (padded 2 n).toList.length = 2 := length_padded (by decide) h
  exact digits?_append rest (says_padded 2 n) hlength.le (.inl hlength)

theorem mark?_self (h : Text.isBlank c = false) : mark? c (c :: rest) = some rest := by
  rw [mark?, skipBlanks_of_head rest h]
  exact if_pos rfl

/-! ### Years and fractions -/

theorem year?_signed (h : Says digits n) (hends : ∀ c ∈ rest.head?, c.isDigit = false) :
    year? ('-' :: (digits ++ rest)) = some (-(n : Int), rest) ∧
    year? ('+' :: (digits ++ rest)) = some ((n : Int), rest) := by
  have hread : digits? (digits ++ rest).length (digits ++ rest) = some (n, rest) :=
    digits?_append rest h (by simp) (.inr hends)
  have hminus : skipBlanks ('-' :: (digits ++ rest)) = '-' :: (digits ++ rest) :=
    skipBlanks_of_head _ (by decide)
  have hplus : skipBlanks ('+' :: (digits ++ rest)) = '+' :: (digits ++ rest) :=
    skipBlanks_of_head _ (by decide)
  constructor
  · rw [year?, hminus]
    simp only [hread, Option.map_some, Int.neg_one_mul]
  · rw [year?, hplus]
    simp only [hread, Option.map_some, Int.one_mul]

theorem year?_digits (h : Says digits n) (hlength : digits.length = 4) :
    year? (digits ++ rest) = some ((n : Int), rest) := by
  have hread := digits?_append rest h hlength.le (.inl hlength)
  have hskip := skipBlanks_append rest h
  obtain ⟨first, more, rfl⟩ := List.exists_cons_of_ne_nil h.nonempty
  have hfirst : first.isDigit = true := h.areDigits first (by simp)
  rw [year?, hskip]
  split
  · next heq =>
    obtain rfl : first = '-' := (List.cons.inj heq).1
    exact absurd hfirst (by decide)
  · next heq =>
    obtain rfl : first = '+' := (List.cons.inj heq).1
    exact absurd hfirst (by decide)
  · rw [hread]
    rfl

theorem year?_renderYear (year : Int) (rest : List Char) :
    year? ((renderYear year).toList ++ '-' :: rest) = some (year, '-' :: rest) := by
  have hsays := says_padded 4 year.natAbs
  obtain ⟨hminus, hplus⟩ := year?_signed ('-' :: rest) hsays (by simp)
  unfold renderYear
  split_ifs with hfour hneg
  · rw [year?_digits _ (says_padded 4 _) (length_padded (by decide) (by omega)),
      Int.toNat_of_nonneg hfour.1]
  · rw [String.toList_append]
    refine hminus.trans ?_
    rw [show -(year.natAbs : Int) = year by omega]
  · rw [String.toList_append]
    refine hplus.trans ?_
    rw [show (year.natAbs : Int) = year by omega]

/-- What follows a fraction of a second is found after it. -/
theorem fraction?_dot (h : Says digits n) (hmost : digits.length ≤ 9)
    (hends : ∀ c ∈ rest.head?, c.isDigit = false) :
    fraction? ('.' :: (digits ++ rest)) = some (n * 10 ^ (9 - digits.length), rest) := by
  have htake : (digits ++ rest).takeWhile Char.isDigit = digits :=
    Text.takeWhile_run h.areDigits hends
  obtain ⟨first, more, rfl⟩ := List.exists_cons_of_ne_nil h.nonempty
  rw [fraction?, htake]
  dsimp only
  rw [List.take_of_length_le hmost, h.value, List.drop_left]

theorem fraction?_renderFraction {nanos : Nat} (h : nanos < 10 ^ 9) :
    fraction? ((renderFraction nanos).toList ++ ['Z']) = some (nanos, ['Z']) := by
  have hends : ∀ c ∈ ['Z'].head?, c.isDigit = false := by
    rintro c ⟨⟩
    decide
  have hdot (width n : Nat) (hwidth : 0 < width) (hmost : width ≤ 9) (hn : n < 10 ^ width) :
      fraction? (("." ++ padded width n).toList ++ ['Z']) =
        some (n * 10 ^ (9 - width), ['Z']) := by
    have hlength := length_padded hwidth hn
    have hread := fraction?_dot _ (says_padded width n) (hlength.le.trans hmost) hends
    rw [hlength] at hread
    rw [String.toList_append]
    exact hread
  unfold renderFraction
  split_ifs with hzero hthree hsix
  · rw [hzero]
    rfl
  · rw [hdot 3 _ (by decide) (by decide) (by omega)]
    exact congrArg some (Prod.ext (by dsimp only; omega) rfl)
  · rw [hdot 6 _ (by decide) (by decide) (by omega)]
    exact congrArg some (Prod.ext (by dsimp only; omega) rfl)
  · rw [hdot 9 _ (by decide) (by decide) h]
    simp


/-! ### Times of day -/

/-- A moment that can be written: its year is in range, and it has more than a billion nanoseconds
only in the last second of a minute. -/
structure Shown (t : Timestamp) : Prop where
  year : ¬ ((dateOf (t.seconds.fdiv 86400)).1 < yearRange.1 ∨
    yearRange.2 < (dateOf (t.seconds.fdiv 86400)).1)
  nanos : t.nanos < 2 * 10 ^ 9
  leap : 10 ^ 9 ≤ t.nanos → t.seconds % 60 = 59

theorem daysIn_le (year : Int) (month : Nat) : daysIn year month ≤ 31 := by
  unfold daysIn
  split_ifs <;> omega

/-- The parts of a moment are put together again. -/
theorem ofParts?_shown {t : Timestamp} (h : t.Shown) {year : Int} {month day : Nat}
    (hdate : dateOf (t.seconds.fdiv 86400) = (year, month, day)) :
    let inDay := (t.seconds.fmod 86400).toNat
    let leap := if 10 ^ 9 ≤ t.nanos then 1 else 0
    ofParts? year month day (inDay / 3600) (inDay / 60 % 60) (inDay % 60 + leap)
      (t.nanos - leap * 10 ^ 9) 0 = some t := by
  intro inDay leap
  have hspec := dateOf_spec (t.seconds.fdiv 86400)
  have hyear := h.year
  rw [hdate] at hspec hyear
  obtain ⟨⟨hmonth, hmonths, hday, hdays⟩, hcount⟩ := hspec
  dsimp only at hmonth hmonths hday hdays hcount hyear
  have hsplit : t.seconds.fdiv 86400 * 86400 + inDay = t.seconds ∧ inDay < 86400 := by
    have hdiv := Int.fdiv_eq_ediv_of_nonneg t.seconds (b := 86400) (by omega)
    have hmod := Int.fmod_eq_emod_of_nonneg t.seconds (b := 86400) (by omega)
    omega
  have hlast : leap = 0 ∧ t.nanos < 10 ^ 9 ∨ leap = 1 ∧ 10 ^ 9 ≤ t.nanos ∧ inDay % 60 = 59 := by
    have hleap := h.leap
    by_cases hmany : 10 ^ 9 ≤ t.nanos
    · refine .inr ⟨if_pos hmany, hmany, ?_⟩
      have hminute := hleap hmany
      omega
    · exact .inl ⟨if_neg hmany, Nat.not_le.mp hmany⟩
  have hseconds : daysOf year month day * 86400 + ((inDay / 3600 * 3600 +
      inDay / 60 % 60 * 60 + min (inDay % 60 + leap) 59 : Nat) : Int) - 0 = t.seconds := by
    rw [hcount]
    omega
  rw [ofParts?, if_neg (by omega)]
  dsimp only at hseconds ⊢
  push_cast at hseconds ⊢
  rw [hseconds, hdate, if_neg hyear]
  obtain ⟨seconds, nanos⟩ := t
  refine congrArg some (congrArg (Timestamp.mk seconds) ?_)
  dsimp only at hlast ⊢
  split_ifs <;> omega

/-- The parts of a text are read one after the other. -/
theorem parse?_of_parts {s : String} {year offset : Int} {month day hour minute second nanos : Nat}
    {c₁ c₂ c₃ c₄ c₅ c₆ c₇ c₈ c₉ c₁₀ c₁₁ c₁₂ : List Char} (hyear : year? s.toList = some (year, c₁))
    (h₁ : mark? '-' c₁ = some c₂) (hmonth : number? 2 c₂ = some (month, c₃))
    (h₃ : mark? '-' c₃ = some c₄) (hday : number? 2 c₄ = some (day, 'T' :: c₅))
    (hhour : number? 2 c₅ = some (hour, c₆)) (h₆ : mark? ':' c₆ = some c₇)
    (hminute : number? 2 c₇ = some (minute, c₈)) (h₈ : mark? ':' c₈ = some c₉)
    (hsecond : number? 2 c₉ = some (second, c₁₀)) (hnanos : fraction? c₁₀ = some (nanos, c₁₁))
    (hoffset : offset? (skipBlanks c₁₁) = some (offset, c₁₂)) (hend : skipBlanks c₁₂ = []) :
    parse? s = ofParts? year month day hour minute second nanos offset := by
  unfold parse?
  rw [hyear]
  refine (congrArg (· >>= _) h₁).trans ?_
  refine (congrArg (· >>= _) hmonth).trans ?_
  refine (congrArg (· >>= _) h₃).trans ?_
  refine (congrArg (· >>= _) hday).trans ?_
  refine (congrArg (· >>= _) hhour).trans ?_
  refine (congrArg (· >>= _) h₆).trans ?_
  refine (congrArg (· >>= _) hminute).trans ?_
  refine (congrArg (· >>= _) h₈).trans ?_
  refine (congrArg (· >>= _) hsecond).trans ?_
  refine (congrArg (· >>= _) hnanos).trans ?_
  refine (congrArg (· >>= _) hoffset).trans ?_
  exact if_pos (by simp [hend])

/-- Every part of a written moment is read as it was written. -/
theorem parse?_text (year : Int) {month day hour minute second nanos : Nat} (hmonth : month < 100)
    (hday : day < 100) (hhour : hour < 100) (hminute : minute < 100) (hsecond : second < 100)
    (hnanos : nanos < 10 ^ 9) :
    parse? (renderYear year ++ "-" ++ padded 2 month ++ "-" ++ padded 2 day ++ "T" ++
      padded 2 hour ++ ":" ++ padded 2 minute ++ ":" ++ padded 2 second ++
      renderFraction nanos ++ "Z") = ofParts? year month day hour minute second nanos 0 := by
  have hminus (rest : List Char) : mark? '-' ('-' :: rest) = some rest := mark?_self _ (by decide)
  have hcolon (rest : List Char) : mark? ':' (':' :: rest) = some rest := mark?_self _ (by decide)
  have hoffset : offset? (skipBlanks ['Z']) = some (0, []) := rfl
  have hend : skipBlanks [] = [] := rfl
  have hyear := year?_renderYear year ((padded 2 month).toList ++ '-' :: ((padded 2 day).toList ++
    'T' :: ((padded 2 hour).toList ++ ':' :: ((padded 2 minute).toList ++
    ':' :: ((padded 2 second).toList ++ ((renderFraction nanos).toList ++ ['Z']))))))
  refine parse?_of_parts ?_ (hminus _) (number?_padded _ hmonth) (hminus _)
    (number?_padded _ hday) (number?_padded _ hhour) (hcolon _)
    (number?_padded _ hminute) (hcolon _) (number?_padded _ hsecond)
    (fraction?_renderFraction hnanos) hoffset hend
  rw [← hyear]
  simp [String.toList_append]

/-- **What is written of a moment is read as the moment.** -/
theorem parse?_render {t : Timestamp} (h : t.Shown) : parse? t.render = some t := by
  rcases hdate : dateOf (t.seconds.fdiv 86400) with ⟨year, month, day⟩
  have hspec := (dateOf_spec (t.seconds.fdiv 86400)).1
  rw [hdate] at hspec
  have hmonth : month < 100 := Nat.lt_of_le_of_lt hspec.month_le (by decide)
  have hday : day < 100 :=
    Nat.lt_of_le_of_lt (hspec.day_le.trans (daysIn_le year month)) (by decide)
  have hnanos := h.nanos
  have hrange : (t.seconds.fmod 86400).toNat < 86400 := by
    rw [Int.fmod_eq_emod_of_nonneg _ (by omega)]
    omega
  rw [render, hdate]
  refine (parse?_text year hmonth hday ?_ ?_ ?_ ?_).trans (ofParts?_shown h hdate)
  · omega
  · omega
  · split_ifs <;> omega
  · split_ifs <;> omega

/-! ### What was read -/

theorem valueOf_lt {digits : List Char} (h : ∀ c ∈ digits, c.isDigit = true) :
    valueOf digits < 10 ^ digits.length := by
  induction digits using List.reverseRecOn with
  | nil => decide
  | append_singleton digits c ih =>
    have hfirst := ih fun d hd => h d (by simp [hd])
    have hzero : '0'.toNat = 48 := rfl
    have hnine : '9'.toNat = 57 := rfl
    have hlast := Char.isDigit_iff_toNat.mp (h c (by simp))
    rw [valueOf] at hfirst
    rw [valueOf, List.foldl_append, List.foldl_cons, List.foldl_nil, List.length_append,
      List.length_singleton, Nat.pow_succ]
    omega

theorem fraction?_lt {cs rest : List Char} {nanos : Nat} (h : fraction? cs = some (nanos, rest)) :
    nanos < 10 ^ 9 := by
  unfold fraction? at h
  split at h
  · next text =>
    split at h
    · exact absurd h (by simp)
    · next digits hdigits _ =>
      obtain ⟨rfl, -⟩ := Prod.ext_iff.mp (Option.some.inj h)
      have hkept : ∀ c ∈ (text.takeWhile Char.isDigit).take 9, c.isDigit = true := fun c hc =>
        List.mem_takeWhile_imp (List.mem_of_mem_take hc)
      have hlength : ((text.takeWhile Char.isDigit).take 9).length ≤ 9 := List.length_take_le _ _
      calc valueOf ((text.takeWhile Char.isDigit).take 9) *
            10 ^ (9 - ((text.takeWhile Char.isDigit).take 9).length)
          < 10 ^ ((text.takeWhile Char.isDigit).take 9).length *
            10 ^ (9 - ((text.takeWhile Char.isDigit).take 9).length) :=
              Nat.mul_lt_mul_of_pos_right (valueOf_lt hkept) (by positivity)
        _ = 10 ^ 9 := by rw [← Nat.pow_add, Nat.add_sub_cancel' hlength]
  · obtain ⟨rfl, -⟩ := Prod.ext_iff.mp (Option.some.inj h)
    show 0 < 10 ^ 9
    decide

/-- Offsets are whole minutes. -/
theorem offset?_mod {cs rest : List Char} {offset : Int} (h : offset? cs = some (offset, rest)) :
    offset % 60 = 0 := by
  have hsigned (sign : Int) (hours minutes : Nat) :
      (sign * (hours * 3600 + minutes * 60 : Nat)) % 60 = 0 := by
    have hwhole : sign * ((hours * 3600 + minutes * 60 : Nat) : Int) =
        60 * (sign * (hours * 60 + minutes : Nat)) := by
      push_cast
      ring
    rw [hwhole, Int.mul_emod_right]
  have hread (sign : Int) (text : List Char)
      (hread : ((digits? 2 text).bind fun hours =>
        (digits? 2 (hours.2.dropWhile fun c => c = ':' || Text.isBlank c)).bind fun minutes =>
          if minutes.1 < 60 then
            some (sign * (hours.1 * 3600 + minutes.1 * 60 : Nat), minutes.2)
          else none) = some (offset, rest)) : offset % 60 = 0 := by
    obtain ⟨⟨hours, more⟩, -, hread⟩ := Option.bind_eq_some_iff.mp hread
    obtain ⟨⟨minutes, after⟩, -, hread⟩ := Option.bind_eq_some_iff.mp hread
    dsimp only at hread
    split_ifs at hread
    obtain ⟨rfl, -⟩ := Prod.ext_iff.mp (Option.some.inj hread)
    exact hsigned sign hours minutes
  unfold offset? at h
  dsimp only at h
  split at h
  · obtain ⟨rfl, -⟩ := Prod.ext_iff.mp (Option.some.inj h)
    rfl
  · obtain ⟨rfl, -⟩ := Prod.ext_iff.mp (Option.some.inj h)
    rfl
  · split_ifs at h
    · obtain ⟨rfl, -⟩ := Prod.ext_iff.mp (Option.some.inj h)
      rfl
    · exact hread 1 _ h
    · exact hread (-1) _ h
  · exact absurd h (by simp)

theorem shown_of_ofParts? {year offset : Int} {month day hour minute second nanos : Nat}
    {t : Timestamp} (hnanos : nanos < 10 ^ 9) (hoffset : offset % 60 = 0)
    (h : ofParts? year month day hour minute second nanos offset = some t) : t.Shown := by
  unfold ofParts? at h
  split at h
  · exact absurd h (by simp)
  dsimp only at h
  split at h
  · exact absurd h (by simp)
  next hyear =>
  obtain rfl := Option.some.inj h
  refine ⟨hyear, ?_, fun hmany => ?_⟩
  · dsimp only
    split_ifs <;> omega
  · dsimp only at hmany ⊢
    split_ifs at hmany <;> omega

theorem shown_of_time {year : Int} {month day : Nat} {cs : List Char} {t : Timestamp}
    (h : (do
      let (hour, cs) ← number? 2 cs
      let (minute, cs) ← number? 2 (← mark? ':' cs)
      let (second, cs) ← number? 2 (← mark? ':' cs)
      let (nanos, cs) ← fraction? cs
      let (offset, cs) ← offset? (skipBlanks cs)
      if (skipBlanks cs).isEmpty then ofParts? year month day hour minute second nanos offset
        else none) = some t) : t.Shown := by
  obtain ⟨⟨hour, _⟩, -, h⟩ := Option.bind_eq_some_iff.mp h
  obtain ⟨_, -, h⟩ := Option.bind_eq_some_iff.mp h
  obtain ⟨⟨minute, _⟩, -, h⟩ := Option.bind_eq_some_iff.mp h
  obtain ⟨_, -, h⟩ := Option.bind_eq_some_iff.mp h
  obtain ⟨⟨second, _⟩, -, h⟩ := Option.bind_eq_some_iff.mp h
  obtain ⟨⟨nanos, _⟩, hnanos, h⟩ := Option.bind_eq_some_iff.mp h
  obtain ⟨⟨offset, _⟩, hoffset, h⟩ := Option.bind_eq_some_iff.mp h
  dsimp only at h
  split_ifs at h
  exact shown_of_ofParts? (fraction?_lt hnanos) (offset?_mod hoffset) h

/-- **A moment that was read can be written.** -/
theorem shown_of_parse? {s : String} {t : Timestamp} (h : parse? s = some t) : t.Shown := by
  unfold parse? at h
  obtain ⟨⟨year, _⟩, -, h⟩ := Option.bind_eq_some_iff.mp h
  obtain ⟨_, -, h⟩ := Option.bind_eq_some_iff.mp h
  obtain ⟨⟨month, _⟩, -, h⟩ := Option.bind_eq_some_iff.mp h
  obtain ⟨_, -, h⟩ := Option.bind_eq_some_iff.mp h
  obtain ⟨⟨day, cs⟩, -, h⟩ := Option.bind_eq_some_iff.mp h
  dsimp only at h
  split at h
  · exact shown_of_time h
  · exact shown_of_time h
  · exact shown_of_time h
  · exact absurd h (by simp)

end ReviewMentor.Timestamp
