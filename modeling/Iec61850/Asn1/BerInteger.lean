import Iec61850.Lib.Octets

/-! `asn1_ber_primitive_value.c`, `ber_integer.c` and the integer part of
`ber_encoder.c` and `ber_decode.c`. The native byte order is little endian. -/

namespace Iec61850

/-- The octets of an integer and the room there is for them. -/
@[ext] structure Asn1PrimitiveValue where
  size : Nat
  maxSize : Nat
  octets : List UInt8
  size_le : size ≤ maxSize
  octets_length : octets.length = maxSize
  maxSize_lt : maxSize < 256

namespace Asn1PrimitiveValue

def create (size : Fin 256) : Asn1PrimitiveValue where
  size := size
  maxSize := size
  octets := List.replicate size 0
  size_le := le_rfl
  octets_length := List.length_replicate
  maxSize_lt := size.isLt

/-- The octets in use. -/
def content (self : Asn1PrimitiveValue) : List UInt8 := self.octets.take self.size

@[simp] theorem length_content (self : Asn1PrimitiveValue) : self.content.length = self.size := by
  rw [content, List.length_take, self.octets_length]
  exact min_eq_left self.size_le

theorem size_lt (self : Asn1PrimitiveValue) : self.size < 256 :=
  lt_of_le_of_lt self.size_le self.maxSize_lt

/-- `memcpy` into the octets, as every setter does once the size has been checked. -/
def store (self : Asn1PrimitiveValue) (bs : List UInt8) (h : bs.length ≤ self.maxSize) :
    Asn1PrimitiveValue where
  size := bs.length
  maxSize := self.maxSize
  octets := bs ++ self.octets.drop bs.length
  size_le := h
  octets_length := by
    rw [List.length_append, List.length_drop, self.octets_length]
    omega
  maxSize_lt := self.maxSize_lt

@[simp] theorem store_size (self : Asn1PrimitiveValue) (bs : List UInt8)
    (h : bs.length ≤ self.maxSize) : (self.store bs h).size = bs.length := rfl

@[simp] theorem store_maxSize (self : Asn1PrimitiveValue) (bs : List UInt8)
    (h : bs.length ≤ self.maxSize) : (self.store bs h).maxSize = self.maxSize := rfl

@[simp] theorem content_store (self : Asn1PrimitiveValue) (bs : List UInt8)
    (h : bs.length ≤ self.maxSize) : (self.store bs h).content = bs := by
  simp [content, store]

def compare (self otherValue : Asn1PrimitiveValue) : Bool :=
  self.size == otherValue.size && self.content == otherValue.content

end Asn1PrimitiveValue

namespace BerEncoder

def revertByteOrder (octets : List UInt8) : List UInt8 := octets.reverse

def compressInteger : List UInt8 → List UInt8
  | b :: c :: bs =>
    if b = 0x00 then
      if c &&& 0x80 = 0 then compressInteger (c :: bs) else b :: c :: bs
    else if b = 0xff then
      if c &&& 0x80 ≠ 0 then compressInteger (c :: bs) else b :: c :: bs
    else b :: c :: bs
  | integer => integer

/-- The octets of a native integer of `w` octets as they lie in memory. -/
def nativeOctets (w n : Nat) : List UInt8 := (Octets.ofNat w n).reverse

@[simp] theorem revertByteOrder_nativeOctets (w n : Nat) :
    revertByteOrder (nativeOctets w n) = Octets.ofNat w n := by
  simp [revertByteOrder, nativeOctets]

/-- The octets `encodeUInt32` puts into the buffer. -/
def encodeUInt32 (value : UInt32) : List UInt8 :=
  compressInteger (0 :: revertByteOrder (nativeOctets 4 value.toNat))

def uInt32determineEncodedSize (value : UInt32) : Nat :=
  (compressInteger (0 :: revertByteOrder (nativeOctets 4 value.toNat))).length

theorem and_sign_eq_zero_iff (c : UInt8) : c &&& 0x80 = 0 ↔ c.toNat < 0x80 := by
  obtain ⟨c⟩ := c
  revert c
  decide +kernel

/-- The compressor drops an octet exactly when it is redundant. -/
theorem compressInteger_cons (b c : UInt8) (bs : List UInt8) :
    compressInteger (b :: c :: bs) =
      if Octets.Redundant (b :: c :: bs) then compressInteger (c :: bs) else b :: c :: bs := by
  simp only [compressInteger, Octets.Redundant, and_sign_eq_zero_iff, ne_eq, not_lt]
  by_cases h0 : b = 0x00
  · have hff : b ≠ 0xff := by rw [h0]; decide
    simp [h0]
  · by_cases hff : b = 0xff <;> simp [h0, hff]

theorem compressInteger_ne_nil {bs : List UInt8} (h : bs ≠ []) : compressInteger bs ≠ [] := by
  induction bs with
  | nil => exact absurd rfl h
  | cons b bs ih =>
    cases bs with
    | nil => simp [compressInteger]
    | cons c bs =>
      rw [compressInteger_cons]
      split
      · exact ih (by simp)
      · simp

theorem length_compressInteger_le (bs : List UInt8) :
    (compressInteger bs).length ≤ bs.length := by
  induction bs with
  | nil => simp [compressInteger]
  | cons b bs ih =>
    cases bs with
    | nil => simp [compressInteger]
    | cons c bs =>
      rw [compressInteger_cons]
      split
      · exact ih.trans (by simp)
      · exact le_rfl

theorem signed_compressInteger (bs : List UInt8) :
    Octets.signed (compressInteger bs) = Octets.signed bs := by
  induction bs with
  | nil => rfl
  | cons b bs ih =>
    cases bs with
    | nil => rfl
    | cons c bs =>
      rw [compressInteger_cons]
      split
      case isTrue h => rw [ih, Octets.signed_tail_of_redundant h]
      case isFalse => rfl

theorem not_redundant_compressInteger (bs : List UInt8) :
    ¬ Octets.Redundant (compressInteger bs) := by
  induction bs with
  | nil => simp [compressInteger, Octets.Redundant]
  | cons b bs ih =>
    cases bs with
    | nil => simp [compressInteger, Octets.Redundant]
    | cons c bs =>
      rw [compressInteger_cons]
      split
      case isTrue => exact ih
      case isFalse h => exact h

/-- The compressed octets are the shortest of the number they were given. -/
theorem shortest_compressInteger {bs : List UInt8} (h : bs ≠ []) :
    Octets.Shortest (compressInteger bs) (Octets.signed bs) := by
  rw [← signed_compressInteger]
  exact Octets.shortest_of_not_redundant (compressInteger_ne_nil h)
    (not_redundant_compressInteger bs)

/-- With the sign bit clear the compressor keeps the unsigned number as well. -/
theorem value_compressInteger_of_clear {b : UInt8} {bs : List UInt8} (h : b.toNat < 0x80) :
    Octets.value (compressInteger (b :: bs)) = Octets.value (b :: bs) := by
  induction bs generalizing b with
  | nil => rfl
  | cons c bs ih =>
    rw [compressInteger_cons]
    split
    case isTrue hr =>
      rcases hr with ⟨rfl, hc⟩ | ⟨rfl, -⟩
      · rw [ih hc, Octets.value_cons 0]
        simp
      · exact absurd h (by decide)
    case isFalse => rfl

end BerEncoder

end Iec61850
