import Iec61850.Mms.Value
import Iec61850.Lib.Tlv

/-! `mms_access_result.c`: the size pass and the encode pass over a value tree. -/

namespace Iec61850

namespace MmsServer

open BerEncoder MmsValue

/-- `floatSize` -/
def floatSize (f : MmsValue.FloatingPoint) : Nat := f.formatWidth / 8 + 1

mutual

/-- `mmsServer_encodeAccessResult` with `encode` false. -/
def encodeAccessResultSize : MmsValue → Nat
  | .structured components =>
    let componentsSize := elementsSize components
    1 + componentsSize + determineLengthSize componentsSize
  | .array elements =>
    let elementsSize := elementsSize elements
    1 + elementsSize + determineLengthSize elementsSize
  | .dataAccessError e => 2 + uInt32determineEncodedSize (.ofInt e.code)
  | .visibleString s => determineEncodedStringSize (s.map (·.octets))
  | .unsigned v => 2 + v.size
  | .integer v => 2 + v.size
  | .utcTime _ => 10
  | .bitString b => determineEncodedBitStringSize b.size
  | .boolean _ => 3
  | .binaryTime t => 2 + t.size
  | .octetString o => 1 + determineLengthSize o.size + o.size
  | .float f => floatSize f + 2
  | .mmsString s => determineEncodedStringSize (s.map (·.octets))

/-- The first loop of the array and of the structure function. -/
def elementsSize : List MmsValue → Nat
  | [] => 0
  | v :: vs => encodeAccessResultSize v + elementsSize vs

end

mutual

/-- `mmsServer_encodeAccessResult` with `encode` true. -/
def encodeAccessResult : MmsValue → List UInt8
  | .structured components => 0xa2 :: encodeLength (elementsSize components) ++
      encodeElements components
  | .array elements => 0xa1 :: encodeLength (elementsSize elements) ++ encodeElements elements
  | .dataAccessError e =>
    encodeTL 0x80 (uInt32determineEncodedSize (.ofInt e.code)) ++ encodeUInt32 (.ofInt e.code)
  | .visibleString s => encodeStringWithTag 0x8a (s.map (·.octets))
  | .unsigned v => encodeAsn1PrimitiveValue 0x86 v
  | .integer v => encodeAsn1PrimitiveValue 0x85 v
  | .utcTime t => encodeOctetString 0x91 t.octets
  | .bitString b => encodeBitString 0x84 b.size b.buf
  | .boolean b => encodeBoolean 0x83 b
  | .binaryTime t => encodeOctetString 0x8c t.content
  | .octetString o => encodeOctetString 0x89 o.content
  | .float f => encodeTL 0x87 (floatSize f) ++ encodeFloat f.buf f.exponentWidth
  | .mmsString s => encodeStringWithTag 0x90 (s.map (·.octets))

/-- The second loop. -/
def encodeElements : List MmsValue → List UInt8
  | [] => []
  | v :: vs => encodeAccessResult v ++ encodeElements vs

end

/-- The leaves whose size pass chooses the length octets of the encode pass: it leaves
the padding octet of a bit string out of the length, and takes an integer to be short. -/
def SizedExactly : MmsValue → Prop
  | .bitString b => bitStringByteSize b.size ≠ 127 ∧ bitStringByteSize b.size ≠ 255
  | .integer v => v.size < 128
  | .unsigned v => v.size < 128
  | _ => True

theorem encodeElements_eq (vs : List MmsValue) :
    encodeElements vs = (vs.map encodeAccessResult).flatten := by
  induction vs with
  | nil => rfl
  | cons v vs ih => rw [encodeElements, ih]; rfl

theorem lengthOctets_encodeLength {n : Nat} (h : n < 65536) :
    Tlv.LengthOctets n (encodeLength n) := by
  unfold encodeLength
  split
  case isTrue h1 => exact .one h1
  case isFalse =>
    split
    case isTrue h2 => exact .two h2
    case isFalse => exact .three h

theorem determineLengthSize_mono {m n : Nat} (h : m ≤ n) :
    determineLengthSize m ≤ determineLengthSize n := by
  unfold determineLengthSize
  split_ifs <;> omega

theorem determineLengthSize_le (n : Nat) : determineLengthSize n ≤ 3 := by
  unfold determineLengthSize
  split_ifs <;> decide

theorem determineLengthSize_pos (n : Nat) : 1 ≤ determineLengthSize n := by
  unfold determineLengthSize
  split_ifs <;> omega

theorem length_encodeString (tag : UInt8) (s : Option (List UInt8)) :
    (encodeStringWithTag tag s).length = determineEncodedStringSize s := by
  cases s with
  | none => rfl
  | some s =>
    simp only [encodeStringWithTag, determineEncodedStringSize, List.length_append,
      List.length_cons, length_encodeLength]
    omega

theorem length_encodeBitString (tag : UInt8) (b : MmsValue.BitString) :
    (encodeBitString tag b.size b.buf).length =
      determineLengthSize (bitStringByteSize b.size + 1) + bitStringByteSize b.size + 2 := by
  simp only [encodeBitString, List.length_append, List.length_cons, length_encodeLength,
    length_maskLast, List.length_take, b.buf_length, min_self]
  omega

theorem bitString_size_le (b : MmsValue.BitString) :
    determineEncodedBitStringSize b.size ≤ (encodeBitString 0x84 b.size b.buf).length := by
  have := determineLengthSize_mono (Nat.le_add_right (bitStringByteSize b.size) 1)
  rw [length_encodeBitString]
  simp only [determineEncodedBitStringSize]
  omega

theorem bitString_size_eq_iff (b : MmsValue.BitString) :
    (encodeBitString 0x84 b.size b.buf).length = determineEncodedBitStringSize b.size ↔
      bitStringByteSize b.size ≠ 127 ∧ bitStringByteSize b.size ≠ 255 := by
  rw [length_encodeBitString]
  simp only [determineEncodedBitStringSize, determineLengthSize]
  split_ifs <;> omega

theorem length_encodeUInt32 (n : UInt32) : (encodeUInt32 n).length = uInt32determineEncodedSize n :=
  rfl

theorem uInt32determineEncodedSize_le (n : UInt32) : uInt32determineEncodedSize n ≤ 5 := by
  rw [uInt32determineEncodedSize]
  exact (length_compressInteger_le _).trans (by simp)

theorem length_encodeFloat (f : MmsValue.FloatingPoint) :
    (encodeFloat f.buf f.exponentWidth).length = floatSize f := by
  simp [encodeFloat, revertByteOrder, floatSize, f.buf_length]

theorem floatSize_le (f : MmsValue.FloatingPoint) : floatSize f ≤ 9 := by
  rcases f.formatWidth_eq with h | h <;> simp [floatSize, h]

theorem integer_size (tag : UInt8) (v : Asn1PrimitiveValue) :
    2 + v.size ≤ (encodeAsn1PrimitiveValue tag v).length ∧
      ((encodeAsn1PrimitiveValue tag v).length = 2 + v.size ↔ v.size < 128) := by
  have hlt := v.size_lt
  simp only [encodeAsn1PrimitiveValue, List.length_append, List.length_cons, length_encodeLength,
    v.length_content, determineLengthSize]
  split
  case isTrue => omega
  case isFalse => omega

theorem length_encodeOctetString (tag : UInt8) (bs : List UInt8) :
    (encodeOctetString tag bs).length = 1 + determineLengthSize bs.length + bs.length := by
  simp only [encodeOctetString, List.length_append, List.length_cons, length_encodeLength]
  omega

theorem length_encodeTL_short (tag : UInt8) {n : Nat} (h : n < 128) :
    (encodeTL tag n).length = 2 := by
  simp [encodeTL, determineLengthSize, h]

theorem size_of_eq {v : MmsValue}
    (heq : (encodeAccessResult v).length = encodeAccessResultSize v) (h : SizedExactly v) :
    encodeAccessResultSize v ≤ (encodeAccessResult v).length ∧
      ((encodeAccessResult v).length = encodeAccessResultSize v ↔ SizedExactly v) :=
  ⟨heq.ge, iff_of_true heq h⟩

/-- The encode pass never writes less than the size pass has counted. -/
theorem leaf_size {v : MmsValue} (h : v.IsLeaf) :
    encodeAccessResultSize v ≤ (encodeAccessResult v).length ∧
      ((encodeAccessResult v).length = encodeAccessResultSize v ↔ SizedExactly v) := by
  cases v with
  | array | structured => exact h.elim
  | bitString b =>
    simp only [encodeAccessResult, encodeAccessResultSize, SizedExactly]
    exact ⟨bitString_size_le b, bitString_size_eq_iff b⟩
  | integer v | unsigned v =>
    simp only [encodeAccessResult, encodeAccessResultSize, SizedExactly]
    exact integer_size _ v
  | visibleString s | mmsString s =>
    refine size_of_eq ?_ trivial
    simp only [encodeAccessResult, encodeAccessResultSize, length_encodeString]
  | dataAccessError e =>
    have hle := uInt32determineEncodedSize_le (.ofInt e.code)
    refine size_of_eq ?_ trivial
    simp only [encodeAccessResult, encodeAccessResultSize, List.length_append]
    rw [length_encodeTL_short _ (by omega), length_encodeUInt32]
  | float f =>
    have hle := floatSize_le f
    refine size_of_eq ?_ trivial
    simp only [encodeAccessResult, encodeAccessResultSize, List.length_append]
    rw [length_encodeTL_short _ (by omega), length_encodeFloat, Nat.add_comm]
  | octetString o =>
    refine size_of_eq ?_ trivial
    simp only [encodeAccessResult, encodeAccessResultSize, length_encodeOctetString,
      o.length_content]
  | binaryTime t =>
    have hle : t.size < 128 := by rcases t.size_eq with h | h <;> omega
    refine size_of_eq ?_ trivial
    simp only [encodeAccessResult, encodeAccessResultSize, length_encodeOctetString,
      t.length_content, determineLengthSize, hle, if_true]
  | utcTime t =>
    refine size_of_eq ?_ trivial
    simp [encodeAccessResult, encodeAccessResultSize, length_encodeOctetString, t.octets_length,
      determineLengthSize]
  | boolean b =>
    refine size_of_eq ?_ trivial
    simp [encodeAccessResult, encodeAccessResultSize, encodeBoolean]

theorem elements_size {vs : List MmsValue}
    (h : ∀ v ∈ vs, encodeAccessResultSize v ≤ (encodeAccessResult v).length ∧
      ((encodeAccessResult v).length = encodeAccessResultSize v ↔
        ∀ l ∈ leaves v, SizedExactly l)) :
    elementsSize vs ≤ (encodeElements vs).length ∧
      ((encodeElements vs).length = elementsSize vs ↔ ∀ l ∈ leavesOf vs, SizedExactly l) := by
  induction vs with
  | nil => simp [elementsSize, encodeElements, leavesOf]
  | cons v vs ih =>
    obtain ⟨hle, hiff⟩ := h v (by simp)
    obtain ⟨hles, hiffs⟩ := ih fun w hw => h w (List.mem_cons_of_mem v hw)
    simp only [elementsSize, encodeElements, leavesOf, List.length_append, List.forall_mem_append,
      ← hiff, ← hiffs]
    omega

/-- The two passes over a whole tree. -/
theorem tree_size (v : MmsValue) :
    encodeAccessResultSize v ≤ (encodeAccessResult v).length ∧
      ((encodeAccessResult v).length = encodeAccessResultSize v ↔
        ∀ l ∈ leaves v, SizedExactly l) := by
  induction v using MmsValue.tree_induction with
  | array vs ih | structured vs ih =>
    have := elements_size ih
    simp only [encodeAccessResultSize, encodeAccessResult, leaves, List.length_append,
      List.length_cons, length_encodeLength, ← this.2]
    omega
  | leaf v hv =>
    have := leaf_size hv
    rwa [leaves_of_isLeaf hv, List.forall_mem_singleton]

theorem wellFormed_primitive {tag : UInt8} (ht : Tlv.IsShortTag tag)
    (hp : ¬ Tlv.IsConstructed tag) {content : List UInt8} {n : Nat} (hn : content.length = n)
    (h : (tag :: encodeLength n ++ content).length < 65536) :
    Tlv.WellFormed (tag :: encodeLength n ++ content) := by
  rw [List.length_append] at h
  apply Tlv.WellFormed.primitive ht hp
  rw [hn]
  exact lengthOctets_encodeLength (by omega)

theorem wellFormed_encodeString {tag : UInt8} (ht : Tlv.IsShortTag tag)
    (hp : ¬ Tlv.IsConstructed tag) (s : Option (List UInt8))
    (h : (encodeStringWithTag tag s).length < 65536) :
    Tlv.WellFormed (encodeStringWithTag tag s) := by
  cases s with
  | none => exact wellFormed_primitive ht hp List.length_nil (by simp [encodeLength])
  | some s => exact wellFormed_primitive ht hp rfl h

theorem leaf_wellFormed {v : MmsValue} (hv : v.IsLeaf)
    (h : (encodeAccessResult v).length < 65536) : Tlv.WellFormed (encodeAccessResult v) := by
  cases v with
  | array | structured => exact hv.elim
  | visibleString s | mmsString s =>
    simp only [encodeAccessResult] at h ⊢
    exact wellFormed_encodeString (by decide) (by decide) _ h
  | boolean b =>
    simp only [encodeAccessResult] at h ⊢
    change Tlv.WellFormed (0x83 :: encodeLength 1 ++ [if b then 0xff else 0x00])
    exact wellFormed_primitive (by decide) (by decide) rfl h
  | bitString b =>
    simp only [encodeAccessResult] at h ⊢
    refine wellFormed_primitive (by decide) (by decide) ?_ h
    simp [b.buf_length]
  | integer v | unsigned v =>
    simp only [encodeAccessResult] at h ⊢
    exact wellFormed_primitive (by decide) (by decide) v.length_content h
  | float f =>
    simp only [encodeAccessResult] at h ⊢
    exact wellFormed_primitive (by decide) (by decide) (length_encodeFloat f) h
  | octetString o =>
    simp only [encodeAccessResult] at h ⊢
    exact wellFormed_primitive (by decide) (by decide) rfl h
  | binaryTime t =>
    simp only [encodeAccessResult] at h ⊢
    exact wellFormed_primitive (by decide) (by decide) rfl h
  | utcTime t =>
    simp only [encodeAccessResult] at h ⊢
    exact wellFormed_primitive (by decide) (by decide) rfl h
  | dataAccessError e =>
    simp only [encodeAccessResult] at h ⊢
    exact wellFormed_primitive (by decide) (by decide) (length_encodeUInt32 _) h

/-- A constructed header states the sum of the size pass: the elements must add up to it. -/
theorem wellFormed_elements {tag : UInt8} (ht : Tlv.IsShortTag tag) (hc : Tlv.IsConstructed tag)
    {vs : List MmsValue} (hs : (encodeElements vs).length = elementsSize vs)
    (he : ∀ v ∈ vs, Tlv.WellFormed (encodeAccessResult v))
    (h : (tag :: encodeLength (elementsSize vs) ++ encodeElements vs).length < 65536) :
    Tlv.WellFormed (tag :: encodeLength (elementsSize vs) ++ encodeElements vs) := by
  rw [List.length_append] at h
  have hl := lengthOctets_encodeLength (n := elementsSize vs) (by omega)
  rw [← hs, encodeElements_eq] at hl
  rw [← hs, encodeElements_eq]
  refine Tlv.WellFormed.constructed ht hc ?_ hl
  intro element hmem
  obtain ⟨v, hv, rfl⟩ := List.mem_map.mp hmem
  exact he v hv

theorem length_le_elements {v : MmsValue} {vs : List MmsValue} (h : v ∈ vs) :
    (encodeAccessResult v).length ≤ (encodeElements vs).length := by
  induction h with
  | head vs => simp [encodeElements]
  | tail w _ ih =>
    rw [encodeElements, List.length_append]
    omega

theorem tree_wellFormed (v : MmsValue) (h : (encodeAccessResult v).length < 65536)
    (hexact : ∀ l ∈ leaves v, SizedExactly l) : Tlv.WellFormed (encodeAccessResult v) := by
  induction v using MmsValue.tree_induction with
  | array vs ih | structured vs ih =>
    simp only [encodeAccessResult, leaves] at h hexact ⊢
    have hs := (elements_size fun v _ => tree_size v).2.mpr hexact
    refine wellFormed_elements (by decide) (by decide) hs ?_ h
    intro v hv
    have hle := length_le_elements hv
    rw [List.length_append] at h
    exact ih v hv (by omega) fun l hl => hexact l (mem_leavesOf.mpr ⟨v, hv, hl⟩)
  | leaf v hv => exact leaf_wellFormed hv h

/-- The two passes agree, and the output is one element, exactly when every leaf is sized
as it is written. -/
theorem encodeAccessResult_exact_iff (v : MmsValue) (h : (encodeAccessResult v).length < 65536) :
    ((encodeAccessResult v).length = encodeAccessResultSize v ∧
      Tlv.WellFormed (encodeAccessResult v)) ↔ ∀ l ∈ leaves v, SizedExactly l := by
  constructor
  · rintro ⟨hlen, -⟩
    exact (tree_size v).2.mp hlen
  · intro hexact
    exact ⟨(tree_size v).2.mpr hexact, tree_wellFormed v h hexact⟩

theorem encodeAccessResult_exact_nested :
    (encodeAccessResult (.structured [.array [.boolean true], .visibleString none])).length =
        encodeAccessResultSize (.structured [.array [.boolean true], .visibleString none]) ∧
      Tlv.WellFormed
        (encodeAccessResult (.structured [.array [.boolean true], .visibleString none])) :=
  (encodeAccessResult_exact_iff (.structured [.array [.boolean true], .visibleString none])
    (by decide)).mpr (by simp [leaves, leavesOf, SizedExactly])

/-- 127 octets of bits: with the padding octet the length takes two octets, and the
structure around it states one octet too few. -/
theorem encodeAccessResult_bitString_1016 :
    let v := MmsValue.structured [.bitString ⟨1016, List.replicate 127 0, by simp [bitStringByteSize]⟩]
    (encodeAccessResult v).length = 134 ∧ encodeAccessResultSize v = 133 ∧
      (encodeAccessResult v).take 3 = [0xa2, 0x81, 130] := by
  decide +kernel

end MmsServer

end Iec61850
