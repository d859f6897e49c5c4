import ReviewMentor.Zip.Stream

/-!
# Chances

Reading data whose bits are coded by how likely they are. A coder narrows a range of numbers with
each bit, and learns the chances of the bits in each context. The bits tell literals and
repetitions, of which the distances of the last four are kept in mind.
-/

namespace ReviewMentor.Zip.Lzma

/-- How contexts are chosen. -/
structure Properties where
  /-- How many bits of the byte before a literal count. -/
  byteBits : Nat
  /-- How many bits of the position of a literal count. -/
  literalBits : Nat
  /-- How many bits of any position count. -/
  positionBits : Nat

/-- The properties that a byte stands for. -/
def Properties.ofByte? (b : Nat) : Option Properties :=
  if b < 225 then some ⟨b % 9, b / 9 % 5, b / 45⟩ else none

/-- A coder. -/
structure Coder where
  properties : Properties
  /-- Where the bytes to be read end. -/
  stop : Nat
  /-- Where the output starts that may be repeated, and how far back. -/
  start : Nat
  reach : Nat
  /-- Whether output leaves before another byte. -/
  isFull : Stream → Bool
  range : Nat
  code : Nat
  /-- How likely a zero is in each context. -/
  chances : Array Nat
  /-- What the last steps were. -/
  state : Nat
  first : Nat
  second : Nat
  third : Nat
  fourth : Nat

/-- Reading with a coder. -/
abbrev Coding (α : Type) := StateT Coder Unpacking α

/-- Chances are fractions of this. -/
def certain : Nat := 2048

/-- How many contexts there are apart from those of literals. -/
def commonContexts : Nat := 1847

/-- How many contexts there are for a literal. -/
def literalContexts : Nat := 0x300

namespace Coder

/-- A coder that has learnt nothing yet. -/
def fresh (properties : Properties) : Coder :=
  { properties, stop := 0, start := 0, reach := 0, isFull := Stream.fillsPortion, range := 0
    code := 0
    chances := Array.replicate (commonContexts +
      literalContexts * 2 ^ (properties.byteBits + properties.literalBits)) (certain / 2)
    state := 0, first := 1, second := 1, third := 1, fourth := 1 }

end Coder

namespace Coding

/-- The next byte, which must not lie behind the end. -/
def byte : Coding Nat := do
  if (← get).stop ≤ (← getThe Stream).bytesRead then Unpacking.corrupt
  pure (← Unpacking.byte).toNat

/-- Reads the number that a coder starts with. -/
def begin : Coding Unit := do
  let code ← (List.range 4).foldlM (fun code _ => do pure (256 * code + (← byte))) 0
  modify ({ · with range := 2 ^ 32 - 1, code })

/-- Widens a range that has become narrow. -/
def widen : Coding Unit := do
  if (← get).range < 2 ^ 24 then
    let b ← byte
    modify fun c => { c with range := 256 * c.range, code := 256 * c.code + b }

/-- Splits the range, and tells in which part the number lies. -/
def narrow (context : Nat) (c : Coder) : Nat × Coder :=
  let chance := c.chances.getD context 0
  let bound := c.range / certain * chance
  if c.code < bound then
    (0, { c with range := bound,
                 chances := c.chances.setIfInBounds context (chance + (certain - chance) / 32) })
  else
    (1, { c with range := c.range - bound, code := c.code - bound,
                 chances := c.chances.setIfInBounds context (chance - chance / 32) })

/-- Reads a bit in a context. -/
def bit (context : Nat) : Coding Nat := do
  widen
  modifyGet (narrow context)

/-- Reads a bit that is as likely to be a zero as a one. -/
def evenBit : Coding Nat := do
  widen
  modifyGet fun c =>
    let half := c.range / 2
    if c.code < half then (0, { c with range := half })
    else (1, { c with range := half, code := c.code - half })

/-- Reads bits, the highest one first, where the context of a bit is told by those before it. -/
def tree (context : Nat) : Nat → Nat → Coding Nat
  | 0, path => pure path
  | count + 1, path => do
    let next ← bit (context + path)
    tree context count (2 * path + next)

/-- Reads a number of some bits, the highest one first. -/
def number (context count : Nat) : Coding Nat := do
  pure ((← tree context count 1) - 2 ^ count)

/-- Reads bits, the lowest one first, where the context of a bit is told by those before it. -/
def lowTree (context : Nat) : Nat → Nat → Coding Nat
  | 0, _ => pure 0
  | count + 1, path => do
    let next ← bit (context + path)
    pure (next + 2 * (← lowTree context count (2 * path + next)))

/-- Reads bits that are as likely to be zeros as ones, the highest one first. -/
def evenBits : Nat → Nat → Coding Nat
  | 0, value => pure value
  | count + 1, value => do
    let next ← evenBit
    evenBits count (2 * value + next)

/-- How many bytes may be repeated. -/
def history : Coding Nat := do
  let c ← get
  pure (min c.reach ((← getThe Stream).output.size - c.start))

/-- The byte that was put out some bytes ago. -/
def byteBack (distance : Nat) : Coding Nat := do
  pure ((← getThe Stream).back distance).toNat

/-- The position that counts for contexts. -/
def position (bits : Nat) : Coding Nat := do
  pure (((← getThe Stream).output.size - (← get).start) % 2 ^ bits)

/-- Reads the bits of a literal after a repetition: as long as they agree with those of the byte
that would have been repeated, that byte counts for their contexts. -/
def unlike (context : Nat) : Nat → Nat → Nat → Coding Nat
  | 0, _, path => pure path
  | count + 1, other, path => do
    let expected := other / 2 ^ count % 2
    let next ← bit (context + 256 * (1 + expected) + path)
    let path := 2 * path + next
    if next = expected then unlike context count other path else tree context count path

/-- Reads a literal. -/
def literal : Coding Unit := do
  let properties := (← get).properties
  let state := (← get).state
  let isFull := (← get).isFull
  let before ← if (← history) = 0 then pure 0 else byteBack 1
  let place ← position properties.literalBits
  let context := commonContexts + literalContexts *
    (place * 2 ^ properties.byteBits + before / 2 ^ (8 - properties.byteBits))
  let value ← do
    if state < 7 then tree context 8 1
    else unlike context 8 (← byteBack (← get).first) 1
  let state := if state < 4 then 0 else if state < 10 then state - 3 else state - 6
  modify ({ · with state })
  modifyThe Stream (·.put isFull (UInt8.ofNat value))

/-- Reads a length; its contexts start at the given one. -/
def length (context : Nat) : Coding Nat := do
  let place ← position (← get).properties.positionBits
  if (← bit context) = 0 then pure (2 + (← number (context + 2 + 8 * place) 3))
  else if (← bit (context + 1)) = 0 then pure (10 + (← number (context + 130 + 8 * place) 3))
  else pure (18 + (← number (context + 258) 8))

/-- Reads a distance; short repetitions have contexts of their own. -/
def distance (length : Nat) : Coding Nat := do
  let slot ← number (432 + 64 * min (length - 2) 3) 6
  if slot < 4 then pure (slot + 1)
  else
    let count := slot / 2 - 1
    let least := (2 + slot % 2) * 2 ^ count
    if slot < 14 then pure (least + (← lowTree (688 + least - slot) count 1) + 1)
    else
      let high ← evenBits (count - 4) 0
      pure (least + 16 * high + (← lowTree 803 4 1) + 1)

/-- The distance that marks the end. -/
def endDistance : Nat := 2 ^ 32

/-- Repeats bytes, up to a position of the output. -/
def copyBack (limit count distance : Nat) : Coding Unit := do
  let isFull := (← get).isFull
  let room := limit - (← getThe Stream).output.size
  modifyThe Stream (·.repeatBack isFull distance (min count room))
  if room < count then Unpacking.corrupt

/-- Reads a repetition at a new distance; whether it is one, and not the end. -/
def newRepetition (limit : Nat) : Coding Bool := do
  let count ← length 819
  let distance ← distance count
  modify fun c => { c with
    first := distance, second := c.first, third := c.second, fourth := c.third
    state := if c.state < 7 then 7 else 10 }
  if distance = endDistance then pure false
  else
    if (← history) < distance then Unpacking.corrupt
    copyBack limit count distance
    pure true

/-- Reads a repetition at one of the last distances. -/
def oldRepetition (limit : Nat) : Coding Unit := do
  let state := (← get).state
  if (← history) = 0 then Unpacking.corrupt
  let place ← position (← get).properties.positionBits
  let isSingle : Bool ← do
    if (← bit (204 + state)) = 0 then
      pure ((← bit (240 + 16 * state + place)) = 0)
    else if (← bit (216 + state)) = 0 then
      modify fun c => { c with first := c.second, second := c.first }
      pure false
    else if (← bit (228 + state)) = 0 then
      modify fun c => { c with first := c.third, second := c.first, third := c.second }
      pure false
    else
      modify fun c => { c with
        first := c.fourth, second := c.first, third := c.second, fourth := c.third }
      pure false
  if isSingle then
    modify ({ · with state := if state < 7 then 9 else 11 })
    copyBack limit 1 (← get).first
  else
    let count ← length 1333
    modify ({ · with state := if state < 7 then 8 else 11 })
    if (← history) < (← get).first then Unpacking.corrupt
    copyBack limit count (← get).first

/-- Reads a literal or a repetition, which puts out bytes up to a limit; whether it was one, and
not the end. -/
def step (limit : Nat) : Coding Bool := do
  let state := (← get).state
  let place ← position (← get).properties.positionBits
  if (← bit (16 * state + place)) = 0 then
    literal
    pure true
  else if (← bit (192 + state)) = 0 then newRepetition limit
  else
    oldRepetition limit
    pure true

end Coding

end ReviewMentor.Zip.Lzma
