import ReviewMentor.Toml.Scalar

/-!
# Reading TOML

A text is a list of lines that name a table or give a key a value. Tables are built while reading,
and what defined a table decides how it may be extended: a table that a header defined is complete
with its lines, one that only stands in the path of a header may still get a header of its own, and
one that a dotted key made belongs to the lines of its table.
-/

namespace ReviewMentor.Toml

/-- What a key stands for while a document is read. -/
inductive Node where
  | value (v : Toml)
  | table (implicit dotted : Bool) (members : List (List Char × Node))
  | tables (items : List (List (List Char × Node)))

/-- The members of a table that is being read. -/
abbrev Members := List (List Char × Node)

namespace Node

mutual

/-- The value that a node has in the end. -/
def toToml : Node → Toml
  | value v => v
  | table _ _ members => .table (membersToToml members)
  | tables items => .array (itemsToToml items)

/-- The values of members. -/
def membersToToml : Members → List (List Char × Toml)
  | [] => []
  | (name, node) :: rest => (name, toToml node) :: membersToToml rest

/-- The values of tables in an array. -/
def itemsToToml : List Members → List Toml
  | [] => []
  | members :: rest => .table (membersToToml members) :: itemsToToml rest

end

/-- Puts a node in the place of the one with the same name. -/
def swap (name : List Char) (node : Node) (members : Members) : Members :=
  members.map fun m => if m.1 = name then (name, node) else m

/-- Changes the table at the end of a path, making tables on the way. A dotted path must not lead
through a table that has its own header. -/
def atPath (dotted : Bool) (change : Bool → Members → Option Members) :
    List (List Char) → Bool → Members → Option Members
  | [], isDotted, members => change isDotted members
  | name :: path, _, members =>
    match members.lookup name with
    | none =>
      (atPath dotted change path dotted []).map fun sub =>
        members ++ [(name, table true dotted sub)]
    | some (table implicit isDotted sub) =>
      if dotted && !implicit then none
      else (atPath dotted change path isDotted sub).map fun sub =>
        swap name (table implicit isDotted sub) members
    | some (tables items) =>
      match items.getLast? with
      | none => none
      | some sub => (atPath dotted change path false sub).map fun sub =>
        swap name (tables (items.dropLast ++ [sub])) members
    | some (value _) => none

/-- Adds a member to a table, which must not have it yet. -/
def add (name : List Char) (node : Node) (members : Members) : Option Members :=
  if (members.lookup name).isSome then none else some (members ++ [(name, node)])

/-- Gives a key a value. A table is either extended by dotted keys or by plain ones. -/
def assign (key : List (List Char)) (v : Toml) (members : Members) : Option Members :=
  let path := key.dropLast
  let name := key.getLastD []
  atPath true (fun isDotted sub =>
    if isDotted == path.isEmpty then none else add name (value v) sub) path false members

/-- Opens the table of a header. -/
def openTable (name : List Char) (members : Members) : Option Members :=
  match members.lookup name with
  | none => some (members ++ [(name, table false false [])])
  | some (table true false sub) => some (swap name (table false false sub) members)
  | some _ => none

/-- Opens another table of an array. -/
def openItem (name : List Char) (members : Members) : Option Members :=
  match members.lookup name with
  | none => some (members ++ [(name, tables [[]])])
  | some (tables items) => some (swap name (tables (items ++ [[]])) members)
  | some _ => none

end Node

mutual

/-- Reads a value. The first number bounds the steps, the second one the nesting. -/
def value? : Nat → Nat → List Char → Option (Toml × List Char)
  | 0, _, _ => none
  | fuel + 1, depth, cs =>
    match cs with
    | '[' :: rest => match depth with
      | 0 => none
      | depth + 1 => (items? fuel depth rest).map fun (vs, rest) => (.array vs, rest)
    | '\x7b' :: rest => match depth with
      | 0 => none
      | depth + 1 => do
        let (members, rest) ← match skipGap rest with
          | '\x7d' :: rest => some ([], rest)
          | rest => members? fuel depth [] rest
        pure ((Node.table false false members).toToml, rest)
    | '"' :: _ | '\'' :: _ => (string? cs).map fun (s, rest) => (.string s, rest)
    | _ => plain? cs

/-- Reads the items of an array up to its end. -/
def items? : Nat → Nat → List Char → Option (List Toml × List Char)
  | 0, _, _ => none
  | fuel + 1, depth, cs => do
    match ← skipFiller false cs with
    | ']' :: rest => some ([], rest)
    | rest =>
      let (v, rest) ← value? fuel depth rest
      match ← skipFiller false rest with
      | ',' :: rest =>
        let (vs, rest) ← items? fuel depth rest
        pure (v :: vs, rest)
      | ']' :: rest => some ([v], rest)
      | _ => none

/-- Reads the members of a table in one line up to its end. -/
def members? : Nat → Nat → Members → List Char → Option (Members × List Char)
  | 0, _, _, _ => none
  | fuel + 1, depth, members, cs => do
    let (key, rest) ← key? (skipGap cs)
    let rest ← char? '=' (skipGap rest)
    let (v, rest) ← value? fuel depth (skipGap rest)
    let members ← Node.assign key v members
    match skipGap rest with
    | ',' :: rest => members? fuel depth members rest
    | '\x7d' :: rest => some (members, rest)
    | _ => none

end

/-- What has been read of a document: its members, and the header of the current table. -/
structure Document where
  members : Members
  header : List (List Char)

namespace Document

/-- An empty document. -/
def empty : Document := ⟨[], []⟩

/-- Opens the table of a header. -/
def openHeader (d : Document) (isItem : Bool) (key : List (List Char)) : Option Document := do
  let name := key.getLastD []
  let members ← Node.atPath false
    (fun _ sub => if isItem then Node.openItem name sub else Node.openTable name sub)
    key.dropLast false d.members
  pure ⟨members, key⟩

/-- Gives a key of the current table a value. -/
def assign (d : Document) (key : List (List Char)) (v : Toml) : Option Document := do
  let members ← Node.atPath false (fun _ sub => Node.assign key v sub) d.header false d.members
  pure { d with members }

/-- Reads one line, and returns the rest of the text. -/
def line? (d : Document) (fuel : Nat) (cs : List Char) : Option (Document × List Char) :=
  match cs with
  | '[' :: '[' :: rest => do
    let (key, rest) ← key? (skipGap rest)
    let rest ← char? ']' (← char? ']' (skipGap rest))
    pure (← d.openHeader true key, ← lineEnd? rest)
  | '[' :: rest => do
    let (key, rest) ← key? (skipGap rest)
    let rest ← char? ']' (skipGap rest)
    pure (← d.openHeader false key, ← lineEnd? rest)
  | _ => do
    let (key, rest) ← key? cs
    let rest ← char? '=' (skipGap rest)
    let (v, rest) ← value? fuel (depthLimit - 1) (skipGap rest)
    pure (← d.assign key v, ← lineEnd? rest)

/-- Reads lines up to the end of the text. -/
def lines? : Nat → Document → List Char → Option Document
  | 0, _, _ => none
  | fuel + 1, d, cs => do
    match ← skipFiller false cs with
    | [] => some d
    | cs =>
      let (d, rest) ← d.line? fuel cs
      lines? fuel d rest

end Document

/-- The table of a text. -/
def parse? (text : String) : Option Toml :=
  let cs := match text.toList with
    | c :: rest => if c.toNat = 0xFEFF then rest else c :: rest
    | [] => []
  (Document.lines? (2 * cs.length + 2) .empty cs).map fun d =>
    .table (Node.membersToToml d.members)

end ReviewMentor.Toml
