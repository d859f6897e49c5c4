import ReviewMentor.Text.Split

/-!
# Media types

The part of a media type that decides whether a body is JSON. Parameters do not matter, but they
have to be well formed.
-/

namespace ReviewMentor.Http

/-- Whether a character may stand in a name. -/
def isTokenChar (c : Char) : Bool :=
  c.isAlphanum || "!#$%&'*+-.^_\x60|~".toList.contains c

/-- Whether a character may stand between quotes. -/
def isQuotedChar (c : Char) : Bool :=
  0x1F < c.toNat && c.toNat ≠ 0x7F

/-- A value between quotes: what follows the quote at its end. A value is never empty. -/
def afterQuoted? : Bool → List Char → Option (List Char)
  | _, [] => none
  | started, c :: rest =>
    if c = '"' && started then some rest
    else if isQuotedChar c then afterQuoted? true rest
    else none

/-- What follows the semicolon after a value between quotes; blanks may precede it. -/
def afterGap? : List Char → Option (List Char)
  | [] => some []
  | ' ' :: rest => afterGap? rest
  | ';' :: rest => some rest
  | _ => none

/-- Reads parameters, given whether there was one before: whether there is any at all, unless they
are not well formed. The number bounds how many there are. -/
def parameters? : Nat → Bool → List Char → Option Bool
  | _, found, [] => some found
  | 0, _, _ => none
  | fuel + 1, found, ' ' :: rest => parameters? fuel found rest
  | fuel + 1, _, cs =>
    let name := cs.takeWhile isTokenChar
    if name.isEmpty then none
    else match cs.drop name.length with
      | '=' :: '"' :: rest =>
        ((afterQuoted? false rest).bind afterGap?).bind (parameters? fuel true)
      | '=' :: rest =>
        let value := rest.takeWhile isTokenChar
        match rest.drop value.length with
        | [] => some true
        | ';' :: rest => if value.isEmpty then none else parameters? fuel true rest
        | _ => none
      | _ => none

/-- The part of a media type before its parameters, and the parameters. -/
def splitParameters (cs : List Char) : List Char × List Char :=
  let essence := cs.takeWhile isTokenOrSlash
  (essence, cs.drop essence.length)
where
  /-- Whether a character may stand before the parameters. -/
  isTokenOrSlash (c : Char) : Bool := isTokenChar c || c = '/'

/-- A subtype without the suffix after its last plus, and that suffix. -/
def splitSuffix (subtype : List Char) : List Char × Option (List Char) :=
  match Text.cutAt '+' subtype.reverse with
  | suffix :: _ :: _ =>
    let base := subtype.take (subtype.length - suffix.length - 1)
    if base.isEmpty then (subtype, none) else (base, some suffix.reverse)
  | _ => (subtype, none)

/-- The subtype of a media type of applications. Separators that no parameter follows belong to
it. -/
def applicationSubtype? (cs : List Char) : Option (List Char) := do
  let (essence, parameters) := splitParameters cs
  let subtype := essence.drop "application/".length
  if !"application/".toList.isPrefixOf essence || subtype.isEmpty || subtype.contains '/' then none
  match parameters with
  | [] => pure subtype
  | c :: rest =>
    if c ≠ ';' && c ≠ ' ' then none
    let found ← parameters? (rest.length + 1) false rest
    pure (if found then subtype else subtype ++ parameters)

/-- Whether a media type is that of JSON, or of a format that is written in JSON. -/
def isJsonType (mediaType : String) : Bool :=
  match applicationSubtype? (mediaType.toList.map Char.toLower) with
  | none => false
  | some subtype =>
    let (base, suffix?) := splitSuffix subtype
    base = "json".toList || suffix? = some "json".toList

end ReviewMentor.Http
