import Iec61850.Mms.IntegerCodec

/-! Comparing and changing values in place (`mms_value.c`). -/

namespace Iec61850

namespace BerInteger

def setFromBerInteger (self value : Asn1PrimitiveValue) : Option Asn1PrimitiveValue :=
  if h : value.content.length ≤ self.maxSize then some (self.store value.content h) else none

end BerInteger

namespace MmsValue

/-- `memcpy` over the beginning of a buffer. -/
def copyOver (buf octets : List UInt8) : List UInt8 := octets ++ buf.drop octets.length

theorem length_copyOver {buf octets : List UInt8} (h : octets.length ≤ buf.length) :
    (copyOver buf octets).length = buf.length := by
  rw [copyOver, List.length_append, List.length_drop]
  omega

mutual

def equals : MmsValue → MmsValue → Bool
  | .array vs, .array ws => equalComponents vs ws
  | .structured vs, .structured ws => equalComponents vs ws
  | .boolean b, .boolean c => b == c
  | .float f, .float g => f.buf == g.buf.take (f.formatWidth / 8)
  | .integer v, .integer w => v.compare w
  | .unsigned v, .unsigned w => v.compare w
  | .utcTime t, .utcTime u => t.octets == u.octets
  | .bitString b, .bitString c => b.size == c.size && b.buf == c.buf
  | .binaryTime t, .binaryTime u => t.size == u.size && t.content == u.content
  | .octetString o, .octetString p => o.size == p.size && o.content == p.content
  | .visibleString s, .visibleString t => s.map (·.octets) == t.map (·.octets)
  | .mmsString s, .mmsString t => s.map (·.octets) == t.map (·.octets)
  | .dataAccessError e, .dataAccessError f => e == f
  | _, _ => false

def equalComponents : List MmsValue → List MmsValue → Bool
  | [], [] => true
  | v :: vs, w :: ws => equals v w && equalComponents vs ws
  | _, _ => false

end

mutual

def equalTypes : MmsValue → MmsValue → Bool
  | .array vs, .array ws => equalComponentTypes vs ws
  | .structured vs, .structured ws => equalComponentTypes vs ws
  | .boolean _, .boolean _ => true
  | .float _, .float _ => true
  | .integer _, .integer _ => true
  | .unsigned _, .unsigned _ => true
  | .utcTime _, .utcTime _ => true
  | .bitString _, .bitString _ => true
  | .binaryTime _, .binaryTime _ => true
  | .octetString _, .octetString _ => true
  | .visibleString _, .visibleString _ => true
  | .mmsString _, .mmsString _ => true
  | .dataAccessError _, .dataAccessError _ => true
  | _, _ => false

def equalComponentTypes : List MmsValue → List MmsValue → Bool
  | [], [] => true
  | v :: vs, w :: ws => equalTypes v w && equalComponentTypes vs ws
  | _, _ => false

end

def updateFloat (f g : FloatingPoint) : Option FloatingPoint :=
  if h : f.formatWidth = g.formatWidth then
    some { f with exponentWidth := g.exponentWidth, buf := g.buf
                  buf_length := by rw [h]; exact g.buf_length }
  else none

def updateBitString (b c : BitString) : Option BitString :=
  if h : b.size = c.size then some { b with buf := c.buf, buf_length := by rw [h]; exact c.buf_length }
  else none

def updateOctetString (o p : OctetString) : Option OctetString :=
  if h : o.maxSize = p.maxSize then
    some { o with
      size := p.size
      buf := copyOver o.buf p.content
      size_le := by rw [h]; exact p.size_le
      buf_length := by
        rw [length_copyOver, o.buf_length]
        rw [p.length_content, o.buf_length, h]
        exact p.size_le }
  else none

def updateBinaryTime (t u : BinaryTime) : BinaryTime where
  size := u.size
  buf := copyOver t.buf u.content
  size_eq := u.size_eq
  buf_length := by
    rw [length_copyOver, t.buf_length]
    rw [u.length_content, t.buf_length]
    rcases u.size_eq with h | h <;> omega

mutual

/-- The value as it is afterwards, or nothing when the function returns false and leaves
the value alone. -/
def update : MmsValue → MmsValue → Option MmsValue
  | .structured vs, .structured ws => some (.structured (updateComponents vs ws))
  | .array vs, .array ws => some (.array (updateComponents vs ws))
  | .boolean _, .boolean c => some (.boolean c)
  | .float f, .float g => (updateFloat f g).map .float
  | .integer v, .integer w => (BerInteger.setFromBerInteger v w).map .integer
  | .unsigned v, .unsigned w => (BerInteger.setFromBerInteger v w).map .unsigned
  | .utcTime _, .utcTime u => some (.utcTime u)
  | .bitString b, .bitString c => (updateBitString b c).map .bitString
  | .octetString o, .octetString p => (updateOctetString o p).map .octetString
  | .visibleString _, .visibleString t => some (.visibleString t)
  | .mmsString _, .mmsString t => some (.mmsString t)
  | .binaryTime t, .binaryTime u => some (.binaryTime (updateBinaryTime t u))
  | _, _ => none

/-- Components whose update fails stay as they are. -/
def updateComponents : List MmsValue → List MmsValue → List MmsValue
  | v :: vs, w :: ws => (update v w).getD v :: updateComponents vs ws
  | vs, _ => vs

end

/-- `MmsValue_update` where the caller ignores what it returns. -/
def updated (self value : MmsValue) : MmsValue := (update self value).getD self

def setBoolean (b : Bool) : MmsValue → MmsValue
  | .boolean _ => .boolean b
  | value => value

def setOctetString (octets : List UInt8) : MmsValue → MmsValue
  | .octetString o =>
    if h : octets.length ≤ o.maxSize then
      .octetString { o with
        size := octets.length
        buf := copyOver o.buf octets
        size_le := h
        buf_length := by
          rw [length_copyOver, o.buf_length]
          rw [o.buf_length]
          exact h }
    else .octetString o
  | value => value

def getBitStringBit (bitPos : Nat) : MmsValue → Bool
  | .bitString b =>
    bitPos < b.size ∧
      (b.buf.getD (bitPos / 8) 0 &&& (1 <<< UInt8.ofNat (7 - bitPos % 8))) ≠ 0
  | _ => false

def clearBitStringBit (bitPos : Nat) : MmsValue → MmsValue
  | .bitString b =>
    if bitPos < b.size then
      .bitString { b with
        buf := b.buf.modify (bitPos / 8) (· &&& ~~~(1 <<< UInt8.ofNat (7 - bitPos % 8)))
        buf_length := by rw [List.length_modify, b.buf_length] }
    else .bitString b
  | value => value

/-- Milliseconds of the day, and the day when there is room for it. -/
def setBinaryTime (timestamp : UInt64) : MmsValue → MmsValue
  | .binaryTime t =>
    let mmsTime := timestamp - 441763200000
    .binaryTime { t with
      buf := Octets.ofNat 4 (mmsTime % 86400000).toNat ++
        if t.size = 6 then Octets.ofNat 2 (mmsTime / 86400000).toNat else t.buf.drop 4
      buf_length := by
        rw [List.length_append, Octets.length_ofNat]
        split
        · rw [Octets.length_ofNat]
        · rw [List.length_drop, t.buf_length] }
  | value => value

def toMmsString : MmsValue → Option CString
  | .visibleString s => s
  | .mmsString s => s
  | _ => none

end MmsValue

end Iec61850
