import ReviewMentor.Text.Split
import ReviewMentor.Text.Utf8

/-!
# Escaped texts and forms

Percent signs with two digits stand for bytes. In a form, fields stand between ampersands, and a
plus stands for a blank.
-/

namespace ReviewMentor.Http

/-- The bytes that an escaped text stands for. A percent sign without two digits stands for itself. -/
def unescapeBytes : List UInt8 → List UInt8
  | 0x25 :: high :: low :: rest =>
    match Text.hexValue? (Char.ofNat high.toNat), Text.hexValue? (Char.ofNat low.toNat) with
    | some a, some b => UInt8.ofNat (16 * a + b) :: unescapeBytes rest
    | _, _ => 0x25 :: unescapeBytes (high :: low :: rest)
  | b :: rest => b :: unescapeBytes rest
  | [] => []

/-- The bytes that an escaped text stands for. -/
def unescape (s : String) : ByteArray :=
  ⟨(unescapeBytes s.toUTF8.toList).toArray⟩

/-- The text of a part of a path; there is none if its bytes are no UTF-8. -/
def pathText? (s : String) : Option String :=
  String.fromUTF8? (unescape s)

/-- The text of a name or a value in a form. -/
def formText (s : String) : String :=
  Text.ofBytesLossy (unescape (String.ofList (s.toList.map fun c => if c = '+' then ' ' else c)))

/-- A field of a form; without an equals sign it is a name with an empty value. -/
def formField (field : String) : String × String :=
  let cs := field.toList
  let name := cs.takeWhile (· ≠ '=')
  (formText (String.ofList name), formText (String.ofList (cs.drop (name.length + 1))))

/-- The fields of a form in their order. -/
def formFields (form : String) : List (String × String) :=
  ((Text.cut '&' form).filter (· ≠ "")).map formField

/-- The only value of a name in a form: nothing if there is none, and a fault if there are several. -/
def formValue? (fields : List (String × String)) (name : String) : Except Unit (Option String) :=
  match fields.filter fun f => f.1 = name with
  | [] => .ok none
  | [field] => .ok (some field.2)
  | _ => .error ()

end ReviewMentor.Http
