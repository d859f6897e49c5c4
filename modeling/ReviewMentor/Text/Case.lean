import ReviewMentor.Text.CaseTable

/-!
# Lower and upper case

Case mappings of single letters and of whole texts. A capital sigma at the end of a word becomes
the final form of the small sigma; every other letter is mapped by itself.
-/

namespace ReviewMentor.Text

/-- Whether a code point lies in one of the ranges. -/
def inRanges (ranges : List (Nat × Nat)) (n : Nat) : Bool :=
  ranges.any fun r => r.1 ≤ n && n ≤ r.2

namespace CaseRun

/-- Whether a code point is one of the letters of the run. -/
def has (r : CaseRun) (n : Nat) : Bool :=
  r.first ≤ n && n ≤ r.last && (n - r.first) % r.step == 0

/-- The counterpart of a letter of the run. -/
def image (r : CaseRun) (n : Nat) : Char :=
  Char.ofNat (n + r.shift).toNat

end CaseRun

/-- The lower-case form of one character. -/
def lowerChar (c : Char) : List Char :=
  if c.toNat < 0x80 then [c.toLower]
  else if c = 'İ' then ['i', Char.ofNat 0x307]
  else match CaseTable.lower.find? (·.has c.toNat) with
    | some r => [r.image c.toNat]
    | none => [c]

/-- The upper-case form of one character. -/
def upperChar (c : Char) : List Char :=
  if c.toNat < 0x80 then [c.toUpper]
  else match CaseTable.upperLong.lookup c.toNat with
    | some ns => ns.map Char.ofNat
    | none => match CaseTable.upper.find? (·.has c.toNat) with
      | some r => [r.image c.toNat]
      | none => [c]

/-- Whether the first character that is not case-ignorable has a case. -/
def nextIsCased (cs : List Char) : Bool :=
  match cs.dropWhile fun c => inRanges CaseTable.caseIgnorable c.toNat with
  | [] => false
  | c :: _ => inRanges CaseTable.cased c.toNat

/-- Lower case of the rest of a text; `before` holds what precedes it, nearest first. -/
def lowerFrom : List Char → List Char → List Char
  | _, [] => []
  | before, c :: rest =>
    (if c = 'Σ' then
      [if nextIsCased before && !nextIsCased rest then 'ς' else 'σ']
    else lowerChar c) ++ lowerFrom (c :: before) rest

/-- The text in lower case. -/
def lower (s : String) : String :=
  String.ofList (lowerFrom [] s.toList)

end ReviewMentor.Text
