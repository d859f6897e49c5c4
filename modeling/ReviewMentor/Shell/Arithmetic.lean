import ReviewMentor.Shell.State

/-!
# Sums in shell scripts

Whole numbers, variables and operators. A sum that divides by zero has no value.
-/

namespace ReviewMentor.Shell

/-- The tokens of a sum: numbers, names and operators. -/
def sumTokens : Nat → List Char → List String
  | 0, _ => []
  | fuel + 1, cs =>
    match cs with
    | [] => []
    | c :: rest =>
      if c = ' ' || c = '\t' || c = '\n' || c = '$' then sumTokens fuel rest
      else if isNameChar c then
        String.ofList (cs.takeWhile isNameChar) :: sumTokens fuel (cs.dropWhile isNameChar)
      else match c, rest with
        | '<', '=' :: rest | '>', '=' :: rest | '=', '=' :: rest | '!', '=' :: rest =>
          String.ofList [c, '='] :: sumTokens fuel rest
        | '&', '&' :: rest | '|', '|' :: rest => String.ofList [c, c] :: sumTokens fuel rest
        | c, rest => String.ofList [c] :: sumTokens fuel rest

/-- How strongly an operator binds. -/
def strength? (op : String) : Option Nat :=
  if op = "||" then some 1 else if op = "&&" then some 2
  else if op = "==" ∨ op = "!=" then some 3
  else if op = "<" ∨ op = ">" ∨ op = "<=" ∨ op = ">=" then some 4
  else if op = "+" ∨ op = "-" then some 5
  else if op = "*" ∨ op = "/" ∨ op = "%" then some 6
  else none

/-- What an operator makes of two numbers. -/
def combined? (op : String) (a b : Int) : Option Int :=
  let truth (p : Bool) : Option Int := some (if p then 1 else 0)
  if op = "+" then some (a + b) else if op = "-" then some (a - b)
  else if op = "*" then some (a * b)
  else if op = "/" then if b = 0 then none else some (a.tdiv b)
  else if op = "%" then if b = 0 then none else some (a.tmod b)
  else if op = "==" then truth (a = b) else if op = "!=" then truth (a ≠ b)
  else if op = "<" then truth (a < b) else if op = ">" then truth (b < a)
  else if op = "<=" then truth (a ≤ b) else if op = ">=" then truth (b ≤ a)
  else if op = "&&" then truth (a ≠ 0 ∧ b ≠ 0) else truth (a ≠ 0 ∨ b ≠ 0)

mutual

/-- The value of a sum whose operators bind at least as strongly as a given one. -/
def sumFrom (s : State) : Nat → Nat → List String → Option (Int × List String)
  | 0, _, ts => some (0, ts)
  | fuel + 1, least, ts => do
    let (first, rest) ← operand s fuel ts
    sumTail s fuel least first rest

/-- The value of a sum that begins with a known number. -/
def sumTail (s : State) : Nat → Nat → Int → List String → Option (Int × List String)
  | 0, _, a, ts => some (a, ts)
  | fuel + 1, least, a, ts =>
    match ts with
    | op :: rest =>
      match strength? op with
      | some n =>
        if least ≤ n then do
          let (b, rest) ← sumFrom s fuel (n + 1) rest
          sumTail s fuel least (← combined? op a b) rest
        else some (a, ts)
      | none => some (a, ts)
    | [] => some (a, [])

/-- The value of a number, a name or a sum in brackets. -/
def operand (s : State) : Nat → List String → Option (Int × List String)
  | 0, ts => some (0, ts)
  | fuel + 1, ts =>
    match ts with
    | "(" :: rest => do
      let (a, rest) ← sumFrom s fuel 0 rest
      some (a, rest.drop 1)
    | "-" :: rest => do
      let (a, rest) ← operand s fuel rest
      some (-a, rest)
    | "!" :: rest => do
      let (a, rest) ← operand s fuel rest
      some (if a = 0 then 1 else 0, rest)
    | t :: rest =>
      match t.toInt? with
      | some n => some (n, rest)
      | none => some (((s.value t).toInt?).getD 0, rest)
    | [] => some (0, [])

end

/-- The value of a sum, unless it divides by zero. -/
def sum? (s : State) (expression : List Char) : Option Int :=
  let ts := sumTokens (expression.length + 1) expression
  (sumFrom s (3 * ts.length + 3) 0 ts).map Prod.fst

end ReviewMentor.Shell
