/-!
# Checksums

Cyclic redundancy checks: that of the entries of an archive, and those of packed data.
-/

namespace ReviewMentor.Zip

/-- The polynomial of the checksum, lowest power in the highest bit. -/
def polynomial : UInt32 := 0xEDB88320

/-- One bit of the division by the polynomial. -/
def reduceBit (n : UInt32) : UInt32 :=
  if n &&& 1 = 1 then (n >>> 1) ^^^ polynomial else n >>> 1

/-- One byte of the division by the polynomial. -/
def reduceByte (n : UInt32) (b : UInt8) : UInt32 :=
  let n := n ^^^ b.toUInt32
  reduceBit (reduceBit (reduceBit (reduceBit (reduceBit (reduceBit (reduceBit (reduceBit n)))))))

/-- The checksum of bytes. -/
def checksum (bytes : ByteArray) : UInt32 :=
  (bytes.foldl reduceByte 0xFFFFFFFF) ^^^ 0xFFFFFFFF

/-- One bit of the division by the polynomial with the highest power in the highest bit. -/
def reduceHighBit (n : UInt32) : UInt32 :=
  if n &&& 0x80000000 ≠ 0 then (n <<< 1) ^^^ 0x04C11DB7 else n <<< 1

/-- One byte of that division. -/
def reduceHighByte (n : UInt32) (b : UInt8) : UInt32 :=
  (List.range 8).foldl (fun n _ => reduceHighBit n) (n ^^^ (b.toUInt32 <<< 24))

/-- The checksum of bytes that starts at their high ends. -/
def highChecksum (bytes : ByteArray) : UInt32 :=
  (bytes.foldl reduceHighByte 0xFFFFFFFF) ^^^ 0xFFFFFFFF

/-- One bit of the division by the polynomial with 64 bits, lowest power in the highest bit. -/
def reduceLongBit (n : UInt64) : UInt64 :=
  if n &&& 1 = 1 then (n >>> 1) ^^^ 0xC96C5795D7870F42 else n >>> 1

/-- One byte of that division. -/
def reduceLongByte (n : UInt64) (b : UInt8) : UInt64 :=
  (List.range 8).foldl (fun n _ => reduceLongBit n) (n ^^^ b.toUInt64)

/-- The checksum of bytes with 64 bits. -/
def longChecksum (bytes : ByteArray) : UInt64 :=
  (bytes.foldl reduceLongByte 0xFFFFFFFFFFFFFFFF) ^^^ 0xFFFFFFFFFFFFFFFF

end ReviewMentor.Zip
