import ReviewMentor.Decimal.Binary

/-!
# Shortest digits

The fewest decimal digits that read back as a given floating-point number, and the number's text:
positional with at least one place where the exponent is small, with an exponent otherwise.
-/

namespace ReviewMentor.Decimal

/-- The number `digits · 10 ^ exponent`. -/
structure Scientific where
  digits : Nat
  exponent : Int
deriving DecidableEq, Repr

/-- `num · 10 ^ (-shift)` over `den`, as a ratio of naturals. -/
def scaledTen (num den : Nat) (shift : Int) : Nat × Nat :=
  match shift with
  | .ofNat k => (num, den * 10 ^ k)
  | .negSucc k => (num * 10 ^ (k + 1), den)

/-- The numbers that round to a given one: a scale and both ends of the interval, in quarters of
the mantissa's unit. -/
structure Interval where
  lower : Nat
  centre : Nat
  upper : Nat
  closed : Bool

namespace Binary

/-- The interval of numbers that are read as `b`. -/
def interval (f : Format) (b : Binary) : Interval :=
  let atPower := b.mantissa = 2 ^ (f.precision - 1) ∧ f.least < b.exponent
  { lower := 4 * b.mantissa - (if atPower then 1 else 2)
    centre := 4 * b.mantissa
    upper := 4 * b.mantissa + 2
    closed := b.mantissa % 2 = 0 }

/-- The nearest point of the grid of step `10 ^ place` that is read as `b`, if there is one. -/
def onGrid? (f : Format) (b : Binary) (place : Int) : Option Scientific :=
  let i := b.interval f
  -- a quarter of the unit in grid steps, as a ratio
  let (num, den) := match b.exponent - 2 with
    | .ofNat k => scaledTen (2 ^ k) 1 place
    | .negSucc k => scaledTen 1 (2 ^ (k + 1)) place
  let inside (g : Nat) : Bool :=
    if i.closed then i.lower * num ≤ g * den && g * den ≤ i.upper * num
    else i.lower * num < g * den && g * den < i.upper * num
  let below := i.centre * num / den
  let rest := i.centre * num % den
  let above := below + 1
  match decide (0 < below) && inside below, inside above with
  | true, true => some ⟨if 2 * rest < den || (2 * rest == den && below % 2 == 0)
      then below else above, place⟩
  | true, false => some ⟨below, place⟩
  | false, true => some ⟨above, place⟩
  | false, false => none

/-- Tries finer and finer grids, from `place` downwards. -/
def search (f : Format) (b : Binary) : Nat → Int → Scientific
  | 0, place => (b.onGrid? f place).getD ⟨0, 0⟩
  | tries + 1, place => match b.onGrid? f place with
    | some d => d
    | none => search f b tries (place - 1)

/-- The fewest digits that read back as `b`. -/
def shortest (f : Format) (b : Binary) : Scientific :=
  if b.mantissa = 0 then ⟨0, 0⟩
  else
    let (num, den) := b.ratio
    let size : Int := (Nat.toDigits 10 num).length - (Nat.toDigits 10 den).length
    search f b 20 (size + 1)

end Binary

/-- The text of `digits · 10 ^ exponent`; numbers from `10 ^ -5` up to `10 ^ 16` are positional. -/
def Scientific.render (d : Scientific) : String :=
  let digits := Nat.toDigits 10 d.digits
  let point : Int := digits.length + d.exponent
  if d.digits = 0 then "0.0"
  else if 0 ≤ d.exponent ∧ point ≤ 16 then
    String.ofList (digits ++ List.replicate d.exponent.toNat '0') ++ ".0"
  else if 0 < point ∧ point ≤ 16 then
    String.ofList (digits.take point.toNat ++ '.' :: digits.drop point.toNat)
  else if -5 < point ∧ point ≤ 0 then
    "0." ++ String.ofList (List.replicate (-point).toNat '0' ++ digits)
  else
    let tail := digits.drop 1
    String.ofList (digits.take 1 ++ (if tail.isEmpty then [] else '.' :: tail)) ++
      "e" ++ toString (point - 1)

/-- The shortest text that reads back as `b`. -/
def Binary.render (f : Format) (b : Binary) : String :=
  (if b.negative then "-" else "") ++ (b.shortest f).render

end ReviewMentor.Decimal
