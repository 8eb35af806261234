import Iec61850.Asn1.BerInteger

/-! `ber_encoder.c`. A function gives the octets it puts into the buffer, and the
function that determines a size gives their number. -/

namespace Iec61850.BerEncoder

def encodeLength (length : Nat) : List UInt8 :=
  if length < 128 then [UInt8.ofNat length]
  else if length < 256 then [0x81, UInt8.ofNat length]
  else [0x82, UInt8.ofNat (length / 256), UInt8.ofNat (length % 256)]

def encodeTL (tag : UInt8) (length : Nat) : List UInt8 := tag :: encodeLength length

def encodeBoolean (tag : UInt8) (value : Bool) : List UInt8 :=
  [tag, 1, if value then 0xff else 0x00]

def encodeStringWithTag (tag : UInt8) : Option (List UInt8) → List UInt8
  | some string => tag :: encodeLength string.length ++ string
  | none => [tag, 0]

def encodeAsn1PrimitiveValue (tag : UInt8) (value : Asn1PrimitiveValue) : List UInt8 :=
  tag :: encodeLength value.size ++ value.content

def encodeOctetString (tag : UInt8) (octetString : List UInt8) : List UInt8 :=
  tag :: encodeLength octetString.length ++ octetString

/-- `byteSize` of the bit string functions. -/
def bitStringByteSize (bitStringSize : Nat) : Nat :=
  bitStringSize / 8 + if bitStringSize % 8 ≠ 0 then 1 else 0

def paddingMask (padding : Nat) : UInt8 := ~~~(UInt8.ofNat (2 ^ padding - 1))

/-- `buffer[bufPos - 1] = buffer[bufPos - 1] & paddingMask` -/
def maskLast (mask : UInt8) : List UInt8 → List UInt8
  | [] => []
  | [b] => [b &&& mask]
  | b :: c :: bs => b :: maskLast mask (c :: bs)

def encodeBitString (tag : UInt8) (bitStringSize : Nat) (bitString : List UInt8) : List UInt8 :=
  let byteSize := bitStringByteSize bitStringSize
  let padding := byteSize * 8 - bitStringSize
  tag :: encodeLength (byteSize + 1) ++
    maskLast (paddingMask padding) (UInt8.ofNat padding :: bitString.take byteSize)

def encodeFloat (floatValue : List UInt8) (exponentWidth : UInt8) : List UInt8 :=
  exponentWidth :: revertByteOrder floatValue

def determineLengthSize (length : Nat) : Nat :=
  if length < 128 then 1
  else if length < 256 then 2
  else 3

def determineEncodedBitStringSize (bitStringSize : Nat) : Nat :=
  let byteSize := bitStringByteSize bitStringSize
  2 + determineLengthSize byteSize + byteSize

def determineEncodedStringSize : Option (List UInt8) → Nat
  | some string => 1 + determineLengthSize string.length + string.length
  | none => 2

@[simp] theorem length_encodeLength (n : Nat) :
    (encodeLength n).length = determineLengthSize n := by
  unfold encodeLength determineLengthSize
  split
  · rfl
  · split <;> rfl

@[simp] theorem length_maskLast (mask : UInt8) (bs : List UInt8) :
    (maskLast mask bs).length = bs.length := by
  induction bs with
  | nil => rfl
  | cons b bs ih =>
    cases bs with
    | nil => rfl
    | cons c bs => simpa [maskLast] using ih

end Iec61850.BerEncoder
