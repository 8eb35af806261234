import Iec61850.Mms.IntegerCodec

/-! The integers a client or the application sets: what is stored, what is read
back, and what is left of them after a transmission. -/

namespace Iec61850

open Machine

/-- The argument of an integer setter of `mms_value.c`. -/
inductive NativeInteger
  | int8 (integer : Int8) | int16 (integer : Int16) | int32 (integer : Int32)
  | int64 (integer : Int64)
  | uint8 (integer : UInt8) | uint16 (integer : UInt16) | uint32 (integer : UInt32)

namespace NativeInteger

def number : NativeInteger → Int
  | int8 v => v.toInt
  | int16 v => v.toInt
  | int32 v => v.toInt
  | int64 v => v.toInt
  | uint8 u => u.toNat
  | uint16 u => u.toNat
  | uint32 u => u.toNat

def set : NativeInteger → MmsValue → MmsValue
  | int8 v, value => value.setInt8 v
  | int16 v, value => value.setInt16 v
  | int32 v, value => value.setInt32 v
  | int64 v, value => value.setInt64 v
  | uint8 u, value => value.setUint8 u
  | uint16 u, value => value.setUint16 u
  | uint32 u, value => value.setUint32 u

/-- The octets of the argument, most significant first. -/
def octets : NativeInteger → List UInt8
  | int8 v => Octets.ofNat 1 v.toUInt8.toNat
  | int16 v => Octets.ofNat 2 v.toUInt16.toNat
  | int32 v => Octets.ofNat 4 v.toUInt32.toNat
  | int64 v => Octets.ofNat 8 v.toUInt64.toNat
  | uint8 u => Octets.ofNat 1 u.toNat
  | uint16 u => Octets.ofNat 2 u.toNat
  | uint32 u => Octets.ofNat 4 u.toNat

/-- The octets the setter hands to the compressor: the small signed ones are widened. -/
def passed : NativeInteger → List UInt8
  | int8 v => Octets.ofNat 4 v.toInt32.toUInt32.toNat
  | int16 v => Octets.ofNat 4 v.toInt32.toUInt32.toNat
  | i => i.octets

/-- The integer inside an unsigned setter. -/
def unsigned? : NativeInteger → Option UInt32
  | uint8 u => some u.toUInt32
  | uint16 u => some u.toUInt32
  | uint32 u => some u
  | _ => none

/-- A value of the setter's type with room for its argument. -/
def Accepts (i : NativeInteger) : MmsValue → Prop
  | .integer v => i.unsigned? = none ∧ i.octets.length ≤ v.maxSize
  | .unsigned v => i.unsigned? ≠ none ∧ i.octets.length ≤ v.maxSize
  | _ => False

def ReadBack (i : NativeInteger) (value : MmsValue) : Prop :=
  match i with
  | int64 v => value.toInt64 = v
  | int8 _ | int16 _ | int32 _ => value.toInt32.toInt = i.number ∧ value.toInt64.toInt = i.number
  | uint8 _ | uint16 _ | uint32 _ => value.toUint32.toNat = i.number

def Stored (i : NativeInteger) (value : MmsValue) : Prop :=
  ∃ v, value.integerOf = some v ∧ Octets.Shortest v.content i.number

def tag (i : NativeInteger) : UInt8 := if i.unsigned? = none then 0x85 else 0x86

/-- A receiver of the encoded octets finds their length and then the number: the
unsigned ones by `decodeUint32`, the signed ones in a primitive value. -/
def Transmitted (i : NativeInteger) (value : MmsValue) : Prop :=
  ∃ v, value.integerOf = some v ∧
    let message := BerEncoder.encodeAsn1PrimitiveValue i.tag v
    ∃ pos length, BerDecoder.decodeLength (.ofList message) 0 1 message.length = .ok (pos, length) ∧
      if i.unsigned? = none then
        ∃ bs, ∃ h : bs.length < 256, (Memory.ofList message).readOctets pos length.toNat = .ok bs ∧
          (BerInteger.toInt64 (BerInteger.createFromBuffer bs h)).map Int64.toInt = some i.number
      else
        (BerDecoder.decodeUint32 (.ofList message) length pos).map UInt32.toNat = .ok i.number.toNat

/-- The unsigned numbers also go through `encodeUInt32`, whose size is determined beforehand. -/
def Encoded (i : NativeInteger) : Prop :=
  ∀ u, i.unsigned? = some u →
    (BerDecoder.decodeUint32 (.ofList (BerEncoder.encodeUInt32 u))
      (BerEncoder.uInt32determineEncodedSize u) 0).map UInt32.toNat = .ok i.number.toNat ∧
    Octets.Shortest (BerEncoder.encodeUInt32 u) i.number

structure RoundTrips (i : NativeInteger) (value : MmsValue) : Prop where
  readBack : i.ReadBack value
  stored : i.Stored value
  transmitted : i.Transmitted value
  encoded : i.Encoded

/-- An unsigned number that its own width holds as a two's complement number too. -/
def TopBitClear : NativeInteger → Prop
  | uint8 u => u.toNat < 0x80
  | uint16 u => u.toNat < 0x8000
  | uint32 u => u.toNat < 0x80000000
  | _ => True

theorem octets_ne_nil (i : NativeInteger) : i.octets ≠ [] := by
  cases i <;> simp [octets, Octets.ofNat]

theorem passed_ne_nil (i : NativeInteger) : i.passed ≠ [] := by
  cases i <;> simp [passed, octets, Octets.ofNat]

theorem signed_octets (i : NativeInteger) (h : i.unsigned? = none) :
    Octets.signed i.octets = i.number := by
  cases i with
  | int8 v =>
    rw [octets, Octets.signed_ofNat_bmod v.toUInt8.toNat_lt]
    exact (BitVec.toInt_eq_toNat_bmod v.toBitVec).symm
  | int16 v =>
    rw [octets, Octets.signed_ofNat_bmod v.toUInt16.toNat_lt]
    exact (BitVec.toInt_eq_toNat_bmod v.toBitVec).symm
  | int32 v =>
    rw [octets, Octets.signed_ofNat_bmod v.toUInt32.toNat_lt]
    exact (BitVec.toInt_eq_toNat_bmod v.toBitVec).symm
  | int64 v =>
    rw [octets, Octets.signed_ofNat_bmod v.toUInt64.toNat_lt]
    exact (BitVec.toInt_eq_toNat_bmod v.toBitVec).symm
  | uint8 | uint16 | uint32 => simp [unsigned?] at h

/-- Widening does not change the number. -/
theorem signed_passed (i : NativeInteger) : Octets.signed i.passed = Octets.signed i.octets := by
  cases i with
  | int8 v =>
    rw [signed_octets _ rfl]
    exact (signed_octets (int32 v.toInt32) rfl).trans v.toInt_toInt32
  | int16 v =>
    rw [signed_octets _ rfl]
    exact (signed_octets (int32 v.toInt32) rfl).trans v.toInt_toInt32
  | _ => rfl

theorem shortest_passed (i : NativeInteger) :
    Octets.Shortest (BerEncoder.compressInteger i.passed) (Octets.signed i.octets) := by
  rw [← signed_passed]
  exact BerEncoder.shortest_compressInteger i.passed_ne_nil

theorem length_passed_le (i : NativeInteger) :
    (BerEncoder.compressInteger i.passed).length ≤ i.octets.length :=
  i.shortest_passed.least i.octets i.octets_ne_nil rfl

theorem value_octets (i : NativeInteger) (h : i.unsigned? ≠ none) :
    (Octets.value i.octets : Int) = i.number := by
  cases i with
  | uint8 u => rw [octets, Octets.value_ofNat_of_lt u.toNat_lt]; rfl
  | uint16 u => rw [octets, Octets.value_ofNat_of_lt u.toNat_lt]; rfl
  | uint32 u => rw [octets, Octets.value_ofNat_of_lt u.toNat_lt]; rfl
  | _ => exact absurd rfl h

theorem number_lt (i : NativeInteger) (h : i.unsigned? ≠ none) : i.number < 2 ^ 32 := by
  cases i with
  | uint8 u => have := u.toNat_lt; simp only [number]; omega
  | uint16 u => have := u.toNat_lt; simp only [number]; omega
  | uint32 u => have := u.toNat_lt; simp only [number]; omega
  | _ => exact absurd rfl h

theorem topBitClear_iff (i : NativeInteger) :
    i.TopBitClear ↔ Octets.signed i.octets = i.number := by
  cases i with
  | uint8 u =>
    have hlt := u.toNat_lt
    rw [octets, Octets.signed_ofNat hlt]
    simp only [TopBitClear, number]
    split <;> omega
  | uint16 u =>
    have hlt := u.toNat_lt
    rw [octets, Octets.signed_ofNat hlt]
    simp only [TopBitClear, number]
    split <;> omega
  | uint32 u =>
    have hlt := u.toNat_lt
    rw [octets, Octets.signed_ofNat hlt]
    simp only [TopBitClear, number]
    split <;> omega
  | _ => exact iff_of_true trivial (signed_octets _ rfl)

theorem stored_spec (i : NativeInteger) {v : Asn1PrimitiveValue} {w n : Nat}
    (hroom : i.octets.length ≤ v.maxSize) (hp : i.passed = Octets.ofNat w n) :
    (MmsValue.storeInteger (BerInteger.setIntegerValue · (BerEncoder.nativeOctets w n)) v).content =
      BerEncoder.compressInteger i.passed := by
  have hfit := i.length_passed_le.trans hroom
  rw [hp] at hfit ⊢
  obtain ⟨s, hset, hc⟩ := BerInteger.setIntegerValue_spec v hfit
  rw [MmsValue.storeInteger, hset, Option.getD_some, hc]

theorem set_spec (i : NativeInteger) {value : MmsValue} (h : i.Accepts value) :
    ∃ v, (i.set value).integerOf = some v ∧ v.content = BerEncoder.compressInteger i.passed := by
  cases value with
  | integer v =>
    obtain ⟨hs, hroom⟩ := h
    have hmin := hroom
    cases i with
    | int8 | int16 | int32 | int64 =>
      refine ⟨_, ?_, stored_spec _ hroom rfl⟩
      simp only [octets, Octets.length_ofNat] at hmin
      simp only [set, MmsValue.setInt8, MmsValue.setInt16, MmsValue.setInt32, MmsValue.setInt64,
        MmsValue.setSigned]
      rw [if_pos (by omega)]
      rfl
    | uint8 | uint16 | uint32 => simp [unsigned?] at hs
  | unsigned v =>
    obtain ⟨hs, hroom⟩ := h
    have hmin := hroom
    cases i with
    | uint8 | uint16 | uint32 =>
      refine ⟨_, ?_, stored_spec _ hroom rfl⟩
      simp only [octets, Octets.length_ofNat] at hmin
      simp only [set, MmsValue.setUint8, MmsValue.setUint16, MmsValue.setUint32,
        MmsValue.setUnsigned]
      rw [if_pos (by omega)]
      rfl
    | int8 | int16 | int32 | int64 => exact absurd rfl hs
  | _ => exact h.elim

theorem length_octets_le (i : NativeInteger) : i.octets.length ≤ 8 := by
  cases i <;> simp [octets]

/-- The octets every accepted setter leaves behind. -/
theorem content_cons (i : NativeInteger) {v : Asn1PrimitiveValue}
    (hc : v.content = BerEncoder.compressInteger i.passed) :
    ∃ b bs, v.content = b :: bs ∧ Octets.signed (b :: bs) = Octets.signed i.octets ∧
      v.size ≤ i.octets.length := by
  have hsize := i.length_passed_le
  rw [← hc, v.length_content] at hsize
  have hsigned := i.shortest_passed.denotes
  rw [← hc] at hsigned
  have hne := i.shortest_passed.nonempty
  rw [← hc] at hne
  obtain ⟨b, bs, hb⟩ := List.exists_cons_of_ne_nil hne
  exact ⟨b, bs, hb, hb ▸ hsigned, hsize⟩

theorem value_content_of_clear (i : NativeInteger) (hu : i.unsigned? ≠ none) (h : i.TopBitClear) :
    (Octets.value (BerEncoder.compressInteger i.passed) : Int) = i.number := by
  have hp : i.passed = i.octets := by
    cases i with
    | uint8 | uint16 | uint32 => rfl
    | _ => exact absurd rfl hu
  have hvalue := i.value_octets hu
  have hsigned := i.topBitClear_iff.mp h
  obtain ⟨b, bs, hb⟩ := List.exists_cons_of_ne_nil i.octets_ne_nil
  rw [hb] at hvalue hsigned
  have hclear : b.toNat < 0x80 := by
    by_contra hset
    rw [Octets.signed_of_set bs (by omega), hvalue] at hsigned
    have hpow : (0 : Int) < 256 ^ (bs.length + 1) := by positivity
    omega
  rw [hp, hb, BerEncoder.value_compressInteger_of_clear hclear, hvalue]

theorem readBack_of_clear (i : NativeInteger) {value : MmsValue} (h : i.Accepts value)
    (hclear : i.TopBitClear) : i.ReadBack (i.set value) := by
  obtain ⟨v, hv, hc⟩ := i.set_spec h
  obtain ⟨b, bs, hb, hsigned, hsize⟩ := i.content_cons hc
  rw [i.topBitClear_iff.mp hclear] at hsigned
  cases i with
  | int64 n =>
    have hlen : v.size < 9 := by simpa [octets] using Nat.lt_succ_of_le hsize
    obtain ⟨m, hm, heq⟩ := BerInteger.toInt64_of_content v hb hlen
    apply Int64.toInt.inj
    change _ = (int64 n).number
    simpa [MmsValue.toInt64, hv, hm, hsigned] using heq
  | int8 | int16 | int32 =>
    have hlen : v.size < 5 := by
      simp only [octets, Octets.length_ofNat] at hsize
      omega
    obtain ⟨m, hm, heq⟩ := BerInteger.toInt32_of_content v hb hlen
    obtain ⟨k, hk, heq'⟩ := BerInteger.toInt64_of_content v hb (by omega)
    constructor
    · simpa [MmsValue.toInt32, hv, hm, hsigned] using heq
    · simpa [MmsValue.toInt64, hv, hk, hsigned] using heq'
  | uint8 | uint16 | uint32 =>
    have hlen : v.size < 5 := by
      simp only [octets, Octets.length_ofNat] at hsize
      omega
    obtain ⟨m, hm, heq⟩ := BerInteger.toUint32_of_content v hlen
    rw [hc] at heq
    have hnum := value_content_of_clear _ (by simp [unsigned?]) hclear
    rw [ReadBack, ← hnum, ← heq]
    simp [MmsValue.toUint32, hv, hm]

theorem decodeLength_short (tag n : UInt8) (content : List UInt8) (h : n.toNat < 128) :
    BerDecoder.decodeLength (.ofList (tag :: n :: content)) 0 1
      (tag :: n :: content).length = .ok (2, n.toNat) := by
  have hread := Memory.read_ofList_append [tag] content n
  have hclear := (BerEncoder.and_sign_eq_zero_iff n).mpr h
  rw [List.singleton_append, List.length_singleton, Nat.cast_one] at hread
  rw [BerDecoder.decodeLength, if_neg (by simp only [List.length_cons]; omega), hread]
  simp [bind, Except.bind, hclear, pure, Except.pure]

theorem transmitted_of_clear (i : NativeInteger) {value : MmsValue} (h : i.Accepts value)
    (hclear : i.TopBitClear) : i.Transmitted (i.set value) := by
  obtain ⟨v, hv, hc⟩ := i.set_spec h
  obtain ⟨b, bs, hb, hsigned, hsize⟩ := i.content_cons hc
  rw [i.topBitClear_iff.mp hclear] at hsigned
  have hle := i.length_octets_le
  have hsmall : (UInt8.ofNat v.size).toNat = v.size := UInt8.toNat_ofNat_of_lt' (by
    have := v.size_lt
    simpa using this)
  have hmessage : BerEncoder.encodeAsn1PrimitiveValue i.tag v =
      i.tag :: UInt8.ofNat v.size :: v.content := by
    rw [BerEncoder.encodeAsn1PrimitiveValue, BerEncoder.encodeLength, if_pos (by omega)]
    rfl
  have hread : (Memory.ofList (i.tag :: UInt8.ofNat v.size :: v.content)).readOctets 2 v.size =
      .ok v.content := by
    have := Memory.readOctets_ofList_append [i.tag, UInt8.ofNat v.size] v.content []
    simpa using this
  refine ⟨v, hv, 2, v.size, ?_, ?_⟩
  · have := decodeLength_short i.tag (UInt8.ofNat v.size) v.content (by omega)
    rw [hmessage, this, hsmall]
  · rw [hmessage, Int.toNat_natCast]
    split
    case isTrue =>
      refine ⟨v.content, by rw [v.length_content]; omega, hread, ?_⟩
      have hcontent : (BerInteger.createFromBuffer v.content
          (by rw [v.length_content]; omega)).content = b :: bs := by
        rw [← hb]
        exact Asn1PrimitiveValue.content_store _ _ _
      obtain ⟨m, hm, heq⟩ := BerInteger.toInt64_of_content _ hcontent (by
        rw [← Asn1PrimitiveValue.length_content, hcontent, ← hb, v.length_content]
        omega)
      rw [hm, ← hsigned, ← heq]
      rfl
    case isFalse hu =>
      have hnum := i.value_content_of_clear hu hclear
      rw [← hc] at hnum
      have hlt := i.number_lt hu
      rw [BerDecoder.decodeUint32, Int.toNat_natCast, hread]
      change Except.ok (BerDecoder.uint32OfOctets v.content).toNat = _
      rw [BerDecoder.uint32OfOctets_toNat, Nat.mod_eq_of_lt (by omega), ← hnum]
      rfl

theorem encoded (i : NativeInteger) : i.Encoded := by
  intro u hu
  have hnum : (u.toNat : Int) = i.number := by
    cases i with
    | uint8 n | uint16 n | uint32 n =>
      obtain rfl := Option.some.inj hu
      simp [number]
    | _ => simp [unsigned?] at hu
  have hvalue : Octets.value (BerEncoder.encodeUInt32 u) = u.toNat := by
    rw [BerEncoder.encodeUInt32, BerEncoder.revertByteOrder_nativeOctets,
      BerEncoder.value_compressInteger_of_clear (by decide), Octets.value_cons]
    simpa using Octets.value_ofNat_of_lt (w := 4) u.toNat_lt
  constructor
  · have hread := Memory.readOctets_ofList_append [] (BerEncoder.encodeUInt32 u) []
    simp only [List.nil_append, List.append_nil, List.length_nil, Nat.cast_zero] at hread
    change (BerDecoder.decodeUint32 _ ((BerEncoder.encodeUInt32 u).length : Int) 0).map _ = _
    rw [BerDecoder.decodeUint32, Int.toNat_natCast, hread]
    change Except.ok (BerDecoder.uint32OfOctets _).toNat = _
    rw [BerDecoder.uint32OfOctets_toNat, hvalue, Nat.mod_eq_of_lt u.toNat_lt, ← hnum]
    rfl
  · have hshort := BerEncoder.shortest_compressInteger (List.cons_ne_nil 0 (Octets.ofNat 4 u.toNat))
    rw [Octets.signed_of_clear _ (by decide), Octets.value_cons,
      Octets.value_ofNat_of_lt (w := 4) u.toNat_lt] at hshort
    rw [BerEncoder.encodeUInt32, BerEncoder.revertByteOrder_nativeOctets, ← hnum]
    simpa using hshort

theorem stored_iff (i : NativeInteger) {value : MmsValue} (h : i.Accepts value) :
    i.Stored (i.set value) ↔ i.TopBitClear := by
  obtain ⟨v, hv, hc⟩ := i.set_spec h
  have hshort := i.shortest_passed
  rw [← hc] at hshort
  rw [i.topBitClear_iff]
  constructor
  · rintro ⟨w, hw, hshortest⟩
    obtain rfl := Option.some.inj (hv.symm.trans hw)
    exact hshort.denotes.symm.trans hshortest.denotes
  · intro heq
    exact ⟨v, hv, heq ▸ hshort⟩

/-- The compressor is the one of the two's complement numbers: the unsigned setters
do not put the clear octet in front that `encodeUInt32` does. -/
theorem set_roundTrips_iff (i : NativeInteger) (value : MmsValue) (h : i.Accepts value) :
    i.RoundTrips (i.set value) ↔ i.TopBitClear := by
  constructor
  · intro hr
    exact (i.stored_iff h).mp hr.stored
  · intro hclear
    exact ⟨i.readBack_of_clear h hclear, (i.stored_iff h).mpr hclear,
      i.transmitted_of_clear h hclear, i.encoded⟩

theorem set_roundTrips_int32 :
    (int32 (-129)).RoundTrips ((int32 (-129)).set (.integer (.create 4))) :=
  (set_roundTrips_iff (int32 (-129)) (.integer (.create 4)) ⟨rfl, by decide⟩).mpr trivial

/-- 65535 is stored as one octet, and 255 is read back. -/
theorem set_uint16_reads_255 :
    (uint16 0xffff).Accepts (.unsigned (.create 4)) ∧
      ¬ (uint16 0xffff).RoundTrips ((uint16 0xffff).set (.unsigned (.create 4))) := by
  constructor
  · exact ⟨by decide, by decide⟩
  · intro h
    have hread : (255 : Int) = 65535 := h.readBack
    exact absurd hread (by decide)

end NativeInteger

end Iec61850
