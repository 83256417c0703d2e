/-!
# Checksums

CRC-32C of a text: a left fold of a one-byte step over its UTF-8 bytes, with the
reflected Castagnoli polynomial, all ones at the start and complemented at the
end.
-/

namespace Statechart
namespace Checksum

/-- The reflected polynomial. -/
def polynomial : UInt32 := 0x82F63B78

/-- Divides by `x` once. -/
def shift (r : UInt32) : UInt32 :=
  if r &&& 1 = 1 then (r >>> 1) ^^^ polynomial else r >>> 1

/-- Feeds one byte. -/
def feed (r : UInt32) (byte : UInt8) : UInt32 :=
  shift (shift (shift (shift (shift (shift (shift (shift (r ^^^ byte.toUInt32))))))))

/-- The checksum of some bytes. -/
def ofBytes (bytes : List UInt8) : UInt32 :=
  (bytes.foldl feed 0xFFFFFFFF) ^^^ 0xFFFFFFFF

/-- The last `count` hexadecimal digits of a number, in lower case. -/
def hexDigits : (count : Nat) → Nat → List Char
  | 0, _ => []
  | count + 1, n => hexDigits count (n / 16) ++ [Nat.digitChar (n % 16)]

/-- The checksum of a text as eight hexadecimal digits. -/
def ofText (text : String) : String :=
  String.ofList (hexDigits 8 (ofBytes text.toUTF8.toList).toNat)

/-- The check value of the code: the checksum of the digits from one to nine. -/
example : ofBytes [49, 50, 51, 52, 53, 54, 55, 56, 57] = 0xE3069283 := by
  decide +kernel

end Checksum
end Statechart
