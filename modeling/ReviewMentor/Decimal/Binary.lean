import ReviewMentor.Powers

/-!
# Binary floating point

Finite floating-point numbers as exact values `± mantissa · 2 ^ exponent`, and rounding of a ratio
to the nearest number of a format, a half going to the even neighbour. Nothing here uses machine
arithmetic, so every step can be reasoned about.
-/

namespace ReviewMentor.Decimal

/-- A floating-point format: bits of the mantissa and the range of its exponents. -/
structure Format where
  /-- Number of bits of a full mantissa. -/
  precision : Nat
  /-- Exponent of the smallest positive number. -/
  least : Int
  /-- Largest exponent of a full mantissa. -/
  greatest : Int

namespace Format

/-- Double precision. -/
def double : Format := ⟨53, -1074, 971⟩

/-- Single precision. -/
def single : Format := ⟨24, -149, 104⟩

end Format

/-- The number `± mantissa · 2 ^ exponent`. -/
structure Binary where
  negative : Bool
  mantissa : Nat
  exponent : Int
deriving DecidableEq, Repr, Inhabited

/-- A quotient rounded to the nearest integer, a half to the even one. -/
def roundDiv (num den : Nat) : Nat :=
  let quotient := num / den
  let twice := 2 * (num % den)
  if den < twice ∨ (twice = den ∧ quotient % 2 = 1) then quotient + 1 else quotient

/-- `num · 2 ^ (-shift)` over `den`, as a ratio of naturals. -/
def scaled (num den : Nat) (shift : Int) : Nat × Nat :=
  match shift with
  | .ofNat k => (num, den * 2 ^ k)
  | .negSucc k => (num * 2 ^ (k + 1), den)

namespace Binary

/-- Zero with a sign. -/
def zero (negative : Bool) : Binary := ⟨negative, 0, 0⟩

/-- The number of the format nearest to `num / den`, or nothing beyond the largest one. -/
def ofRatio? (f : Format) (negative : Bool) (num den : Nat) : Option Binary :=
  if num = 0 then some (zero negative)
  else
    let guess : Int := (Nat.log2 num : Int) - Nat.log2 den
    let (n, d) := scaled num den guess
    let top := if d ≤ n then guess else guess - 1
    let exponent := max f.least (top - (f.precision - 1 : Nat))
    let (n, d) := scaled num den exponent
    let mantissa := roundDiv n d
    let (mantissa, exponent) :=
      if mantissa = 2 ^ f.precision then (mantissa / 2, exponent + 1) else (mantissa, exponent)
    if f.greatest < exponent then none else some ⟨negative, mantissa, exponent⟩

/-- The absolute value as a ratio of naturals. -/
def ratio (b : Binary) : Nat × Nat :=
  match b.exponent with
  | .ofNat k => (b.mantissa * 2 ^ k, 1)
  | .negSucc k => (b.mantissa, 2 ^ (k + 1))

/-- The nearest number of another format. -/
def convert? (f : Format) (b : Binary) : Option Binary :=
  ofRatio? f b.negative b.ratio.1 b.ratio.2

end Binary

end ReviewMentor.Decimal
