import ReviewMentor.Path
import ReviewMentor.Text.Utf8

/-!
# Names of entries

How the bytes of a name are read, and which names stay within the directory into which an archive
is unpacked.
-/

namespace ReviewMentor.Zip

/-- The characters above 127 of the code page that names are written in unless they are UTF-8. -/
def codePage : String :=
  "ÇüéâäàåçêëèïîìÄÅÉæÆôöòûùÿÖÜ¢£¥₧ƒáíóúñÑªº¿⌐¬½¼¡«»░▒▓│┤╡╢╖╕╣║╗╝╜╛┐└┴┬├─┼╞╟╚╔╩╦╠═╬╧╨╤╥╙╘╒╓╫╪┘┌" ++
  "█▄▌▐▀αßΓπΣσµτΦΘΩδ∞φε∩≡±≥≤⌠⌡÷≈°∙·√ⁿ²■\u00a0"

/-- The characters of the code page as an array. -/
def codePageChars : Array Char := codePage.toList.toArray

/-- The character of a byte in the code page. -/
def codePageChar (b : UInt8) : Char :=
  if b < 0x80 then Char.ofNat b.toNat else codePageChars.getD (b.toNat - 0x80) ' '

/-- The text of a name. -/
def nameText (isUtf8 : Bool) (bytes : ByteArray) : String :=
  if isUtf8 then Text.ofBytesLossy bytes
  else String.ofList (bytes.toList.map codePageChar)

/-- Whether components never climb above their start, where `depth` names were entered so far. -/
def staysBelow : Nat → List Component → Bool
  | _, [] => true
  | _, .root :: _ => false
  | depth, .here :: rest => staysBelow depth rest
  | depth, .name _ :: rest => staysBelow (depth + 1) rest
  | 0, .up :: _ => false
  | depth + 1, .up :: rest => staysBelow depth rest

/-- Whether a name stays within the directory into which an archive is unpacked. -/
def isEnclosed (name : String) : Bool :=
  !name.toList.contains (Char.ofNat 0) && staysBelow 0 (Path.mk name).components

/-- Whether a name is that of a directory. -/
def isDirectoryName (name : String) : Bool :=
  match name.toList.getLast? with
  | some c => c = '/' || c = '\\'
  | none => false

end ReviewMentor.Zip
