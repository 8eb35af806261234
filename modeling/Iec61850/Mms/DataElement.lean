import Iec61850.Lib.Memory
import Iec61850.Mms.Elements

/-! `mms_common_msg.c`: between value trees and the `Data_t` structures of the ASN.1 codec. -/

namespace Iec61850

open Machine

/-- `Data_t` -/
inductive Data
  | nothing
  | array (list : List Data)
  | structure (list : List Data)
  | boolean (b : Bool)
  | bitstring (buf : List UInt8) (bitsUnused : Int)
  | integer (buf : List UInt8)
  | unsigned (buf : List UInt8)
  | floatingpoint (buf : List UInt8)
  | octetstring (buf : List UInt8)
  | visiblestring (buf : List UInt8)
  | generalizedtime (buf : List UInt8)
  | binarytime (buf : List UInt8)
  | bcd (buf : List UInt8)
  | booleanArray (buf : List UInt8) (bitsUnused : Int)
  | mMSString (buf : List UInt8)
  | utctime (buf : List UInt8)

/-- What the parsers of `Data_t` allocate. Nothing makes such a value well formed: the size of a
bit string is the one that was computed, a float without octets has no format, and `null` is the
null pointer. -/
inductive ParsedValue
  | null
  | array (elements : List ParsedValue)
  | structured (components : List ParsedValue)
  | boolean (b : Bool)
  | bitString (size : Int) (buf : List UInt8)
  | integer (v : Asn1PrimitiveValue)
  | unsigned (v : Asn1PrimitiveValue)
  | float (exponentWidth : UInt8) (formatWidth : Nat) (buf : List UInt8)
  | octetString (size : Nat) (buf : List UInt8)
  | visibleString (octets : List UInt8)
  | binaryTime (octets : List UInt8)
  | mmsString (octets : List UInt8)
  | utcTime (octets : List UInt8)
  | dataAccessError (e : MmsDataAccessError)

namespace BerInteger

/-- `BerInteger_createFromBuffer` of any buffer; the sizes are numbers of eight bits. -/
def createFromOctets (buf : List UInt8) : Asn1PrimitiveValue :=
  if h : buf.length < 256 then createFromBuffer buf h
  else
    { size := buf.length % 256
      maxSize := buf.length % 256
      octets := buf.take (buf.length % 256)
      size_le := le_rfl
      octets_length := List.length_take_of_le (Nat.mod_le _ _)
      maxSize_lt := Nat.mod_lt _ (by decide) }

theorem content_createFromOctets {buf : List UInt8} (h : buf.length < 256) :
    (createFromOctets buf).content = buf := by
  rw [createFromOctets, dif_pos h]
  exact Asn1PrimitiveValue.content_store _ buf _

end BerInteger

namespace MmsMsg

/-- `mmsMsg_createFloatData` -/
def createFloatData (value : MmsValue.FloatingPoint) : List UInt8 :=
  if value.formatWidth = 64 then 11 :: value.buf.reverse else 8 :: value.buf.reverse

mutual

/-- `mmsMsg_createBasicDataElement` -/
def createBasicDataElement : MmsValue → Data
  | .array elements => .array (createDataElements elements)
  | .structured components => .structure (createDataElements components)
  | .bitString b =>
    let size := b.size / 8 + if 0 < b.size % 8 then 1 else 0
    .bitstring (b.buf.take size) (8 - (b.size % 8 : Nat))
  | .boolean b => .boolean b
  | .float f => .floatingpoint (createFloatData f)
  | .utcTime t => .utctime t.octets
  | .integer v => .integer v.content
  | .unsigned v => .unsigned v.content
  | .visibleString s => .visiblestring ((s.map (·.octets)).getD [])
  | .octetString o => .octetstring o.content
  | .mmsString s => .mMSString ((s.map (·.octets)).getD [])
  | .binaryTime t => .binarytime t.content
  | .dataAccessError _ => .nothing

def createDataElements : List MmsValue → List Data
  | [] => []
  | v :: vs => createBasicDataElement v :: createDataElements vs

end

/-- The part about `Data_PR_floatingpoint`. -/
def parseFloatData : List UInt8 → ParsedValue
  | exponentWidth :: floatBuf =>
    if floatBuf.length = 4 then .float exponentWidth 32 floatBuf.reverse
    else if floatBuf.length = 8 then .float exponentWidth 64 floatBuf.reverse
    else .float 0 0 []
  | [] => .float 0 0 []

mutual

/-- `mmsMsg_parseDataElement` -/
def parseDataElement : Data → Exec ParsedValue
  | .structure list => do return .structured (← parseDataElements list)
  | .array list => do return .array (← parseDataElements list)
  | .integer buf => .ok (.integer (BerInteger.createFromOctets buf))
  | .unsigned buf => .ok (.unsigned (BerInteger.createFromOctets buf))
  | .visiblestring buf => .ok (.visibleString buf)
  | .mMSString buf => .ok (.mmsString buf)
  | .bitstring buf bitsUnused => .ok (.bitString (buf.length * 8 - bitsUnused) buf)
  | .floatingpoint buf => .ok (parseFloatData buf)
  -- eight octets are copied, however many there are
  | .utctime buf => if 8 ≤ buf.length then .ok (.utcTime (buf.take 8)) else .error .outOfBounds
  | .octetstring buf => .ok (.octetString (buf.length % 65536) buf)
  | .binarytime buf => .ok (if buf.length ≤ 6 then .binaryTime buf else .null)
  | .boolean b => .ok (.boolean b)
  | _ => .ok .null

def parseDataElements : List Data → Exec (List ParsedValue)
  | [] => .ok []
  | d :: ds => do
    let value ← parseDataElement d
    return value :: (← parseDataElements ds)

end

end MmsMsg

/-- A bit of a buffer, as `MmsValue_getBitStringBit` counts them. -/
def bufferBit (buf : List UInt8) (bitPos : Nat) : Bool :=
  (buf.getD (bitPos / 8) 0).toNat.testBit (7 - bitPos % 8)

namespace MmsValue

mutual

/-- The parsed value has the type, the sizes and the contents of this one. A string that is the
null pointer is the empty string. -/
def Same : MmsValue → ParsedValue → Prop
  | .array vs, .array ps => SameAll vs ps
  | .structured vs, .structured ps => SameAll vs ps
  | .boolean b, .boolean c => b = c
  | .bitString b, .bitString size buf =>
    (b.size : Int) = size ∧ ∀ i < b.size, bufferBit b.buf i = bufferBit buf i
  | .integer v, .integer w => v.content = w.content
  | .unsigned v, .unsigned w => v.content = w.content
  | .float f, .float exponentWidth formatWidth buf =>
    f.exponentWidth = exponentWidth ∧ f.formatWidth = formatWidth ∧ f.buf = buf
  | .octetString o, .octetString size buf => o.size = size ∧ o.content = buf
  | .visibleString s, .visibleString octets => (s.map (·.octets)).getD [] = octets
  | .binaryTime t, .binaryTime octets => t.content = octets
  | .mmsString s, .mmsString octets => (s.map (·.octets)).getD [] = octets
  | .utcTime t, .utcTime octets => t.octets = octets
  | .dataAccessError e, .dataAccessError f => e = f
  | _, _ => False

def SameAll : List MmsValue → List ParsedValue → Prop
  | [], [] => True
  | v :: vs, p :: ps => Same v p ∧ SameAll vs ps
  | _, _ => False

end

/-- The leaves that come back as they are. -/
def SurvivesData : MmsValue → Prop
  | .bitString b => b.size % 8 ≠ 0
  | .float f => f.exponentWidth = if f.formatWidth = 64 then 11 else 8
  | .dataAccessError _ => False
  | _ => True

/-- The round trip through `Data_t`. -/
def RoundTrips (v : MmsValue) : Prop :=
  ∃ p, MmsMsg.parseDataElement (MmsMsg.createBasicDataElement v) = .ok p ∧ v.Same p

end MmsValue

namespace MmsMsg

open MmsValue

theorem take_bitString (b : MmsValue.BitString) :
    b.buf.take (b.size / 8 + if 0 < b.size % 8 then 1 else 0) = b.buf := by
  apply List.take_of_length_le
  rw [b.buf_length, BerEncoder.bitStringByteSize]
  simp only [ne_eq, Nat.pos_iff_ne_zero]
  exact le_rfl

theorem bitString_roundTrips_iff (b : MmsValue.BitString) :
    RoundTrips (.bitString b) ↔ b.size % 8 ≠ 0 := by
  have hlen : (b.buf.take (b.size / 8 + if 0 < b.size % 8 then 1 else 0)).length =
      b.size / 8 + if 0 < b.size % 8 then 1 else 0 := by
    rw [take_bitString, b.buf_length, BerEncoder.bitStringByteSize]
    simp only [ne_eq, Nat.pos_iff_ne_zero]
  constructor
  · rintro ⟨p, hp, hsame⟩ h0
    cases hp
    have hsize := hsame.1
    rw [hlen, if_neg (by omega), h0] at hsize
    push_cast at hsize
    omega
  · intro h
    refine ⟨_, rfl, ?_, fun i _ => ?_⟩
    · rw [hlen, if_pos (Nat.pos_of_ne_zero h)]
      push_cast
      omega
    · rw [take_bitString]

theorem float_roundTrips_iff (f : MmsValue.FloatingPoint) :
    RoundTrips (.float f) ↔ f.exponentWidth = if f.formatWidth = 64 then 11 else 8 := by
  have hparsed : parseFloatData (createFloatData f) =
      .float (if f.formatWidth = 64 then 11 else 8) f.formatWidth f.buf := by
    rcases f.formatWidth_eq with h | h
    · simp [createFloatData, parseFloatData, f.buf_length, h]
    · simp [createFloatData, parseFloatData, f.buf_length, h]
  constructor
  · rintro ⟨p, hp, hsame⟩
    obtain rfl := Except.ok.inj hp
    rw [hparsed] at hsame
    exact hsame.1
  · intro h
    refine ⟨_, rfl, ?_⟩
    rw [hparsed]
    exact ⟨h, rfl, rfl⟩

theorem leaf_roundTrips_iff {v : MmsValue} (h : v.IsLeaf) : v.RoundTrips ↔ v.SurvivesData := by
  cases v with
  | array | structured => exact h.elim
  | bitString b => exact bitString_roundTrips_iff b
  | float f => exact float_roundTrips_iff f
  | integer v | unsigned v =>
    have hcontent := BerInteger.content_createFromOctets
      (v.length_content.trans_lt v.size_lt)
    refine iff_of_true ⟨_, rfl, ?_⟩ trivial
    exact hcontent.symm
  | octetString o =>
    have hlt := o.size_le.trans_lt o.maxSize_lt
    refine iff_of_true ⟨_, rfl, ?_, rfl⟩ trivial
    rw [o.length_content, Nat.mod_eq_of_lt hlt]
  | binaryTime t =>
    have hle : t.content.length ≤ 6 := by
      rw [t.length_content]
      rcases t.size_eq with h | h <;> omega
    refine iff_of_true ⟨.binaryTime t.content, ?_, rfl⟩ trivial
    rw [createBasicDataElement, parseDataElement, if_pos hle]
  | utcTime t =>
    refine iff_of_true ⟨.utcTime t.octets, ?_, rfl⟩ trivial
    rw [createBasicDataElement, parseDataElement, if_pos t.octets_length.ge,
      List.take_of_length_le t.octets_length.le]
  | dataAccessError e =>
    refine iff_of_false ?_ id
    rintro ⟨p, hp, hsame⟩
    cases hp
    exact hsame
  | boolean | visibleString | mmsString => exact iff_of_true ⟨_, rfl, rfl⟩ trivial

/-- The members of an array or a structure are converted one by one. -/
theorem elements_roundTrip_iff (vs : List MmsValue) :
    (∃ ps, parseDataElements (createDataElements vs) = .ok ps ∧ SameAll vs ps) ↔
      ∀ v ∈ vs, v.RoundTrips := by
  induction vs with
  | nil => exact iff_of_true ⟨[], rfl, trivial⟩ (by simp)
  | cons v vs ih =>
    rw [List.forall_mem_cons, ← ih]
    constructor
    · rintro ⟨ps, hps, hsame⟩
      obtain ⟨p, hp, hps⟩ := bind_ok hps
      obtain ⟨qs, hqs, hps⟩ := bind_ok hps
      cases hps
      exact ⟨⟨p, hp, hsame.1⟩, qs, hqs, hsame.2⟩
    · rintro ⟨⟨p, hp, hsame⟩, ps, hps, hsames⟩
      refine ⟨p :: ps, ?_, hsame, hsames⟩
      rw [createDataElements, parseDataElements, hp, ok_bind, hps]
      rfl

theorem array_roundTrips_iff (vs : List MmsValue) :
    RoundTrips (.array vs) ↔ ∀ v ∈ vs, v.RoundTrips := by
  rw [← elements_roundTrip_iff]
  constructor
  · rintro ⟨p, hp, hsame⟩
    obtain ⟨ps, hps, hp⟩ := bind_ok hp
    cases hp
    exact ⟨ps, hps, hsame⟩
  · rintro ⟨ps, hps, hsame⟩
    refine ⟨.array ps, ?_, hsame⟩
    rw [createBasicDataElement, parseDataElement, hps]
    rfl

theorem structured_roundTrips_iff (vs : List MmsValue) :
    RoundTrips (.structured vs) ↔ ∀ v ∈ vs, v.RoundTrips := by
  rw [← elements_roundTrip_iff]
  constructor
  · rintro ⟨p, hp, hsame⟩
    obtain ⟨ps, hps, hp⟩ := bind_ok hp
    cases hp
    exact ⟨ps, hps, hsame⟩
  · rintro ⟨ps, hps, hsame⟩
    refine ⟨.structured ps, ?_, hsame⟩
    rw [createBasicDataElement, parseDataElement, hps]
    rfl

theorem forall_leavesOf {P : MmsValue → Prop} (vs : List MmsValue) :
    (∀ l ∈ leavesOf vs, P l) ↔ ∀ v ∈ vs, ∀ l ∈ leaves v, P l := by
  constructor
  · intro h v hv l hl
    exact h l (mem_leavesOf.mpr ⟨v, hv, hl⟩)
  · intro h l hl
    obtain ⟨v, hv, hl⟩ := mem_leavesOf.mp hl
    exact h v hv l hl

/-- A tree comes back as it is exactly when its leaves do. -/
theorem roundTrips_iff (v : MmsValue) : v.RoundTrips ↔ ∀ l ∈ v.leaves, l.SurvivesData := by
  induction v using MmsValue.tree_induction with
  | array vs ih =>
    rw [array_roundTrips_iff, leaves, forall_leavesOf]
    exact forall₂_congr ih
  | structured vs ih =>
    rw [structured_roundTrips_iff, leaves, forall_leavesOf]
    exact forall₂_congr ih
  | leaf v hv => rw [leaves_of_isLeaf hv, List.forall_mem_singleton, leaf_roundTrips_iff hv]

/-- Eight bits come back as none. -/
theorem not_roundTrips_eight_bits :
    parseDataElement (createBasicDataElement (.bitString ⟨8, [0xff], rfl⟩)) =
        .ok (.bitString 0 [0xff]) ∧
      ¬ RoundTrips (.bitString ⟨8, [0xff], rfl⟩) := by
  refine ⟨rfl, ?_⟩
  rw [bitString_roundTrips_iff]
  decide

end MmsMsg

end Iec61850
