import Iec61850.Mms.Value
import Iec61850.Asn1.BerDecoder

/-! The integer setters and getters of `mms_value.c` over `ber_integer.c`. -/

namespace Iec61850

namespace BerInteger

/-- The new value, when the compressed octets fit. -/
def setIntegerValue (self : Asn1PrimitiveValue) (valueBuffer : List UInt8) :
    Option Asn1PrimitiveValue :=
  let octets := BerEncoder.compressInteger (BerEncoder.revertByteOrder valueBuffer)
  if h : octets.length ≤ self.maxSize then some (self.store octets h) else none

def setInt32 (self : Asn1PrimitiveValue) (value : Int32) : Option Asn1PrimitiveValue :=
  setIntegerValue self (BerEncoder.nativeOctets 4 value.toUInt32.toNat)

def setInt64 (self : Asn1PrimitiveValue) (value : Int64) : Option Asn1PrimitiveValue :=
  setIntegerValue self (BerEncoder.nativeOctets 8 value.toUInt64.toNat)

def setUint8 (self : Asn1PrimitiveValue) (value : UInt8) : Option Asn1PrimitiveValue :=
  setIntegerValue self (BerEncoder.nativeOctets 1 value.toNat)

def setUint16 (self : Asn1PrimitiveValue) (value : UInt16) : Option Asn1PrimitiveValue :=
  setIntegerValue self (BerEncoder.nativeOctets 2 value.toNat)

def setUint32 (self : Asn1PrimitiveValue) (value : UInt32) : Option Asn1PrimitiveValue :=
  setIntegerValue self (BerEncoder.nativeOctets 4 value.toNat)

/-- `maxSize` of a value made from a buffer. -/
def bufferSize (buf : List UInt8) : Nat := if 8 < buf.length then buf.length else 8

theorem bufferSize_lt {buf : List UInt8} (h : buf.length < 256) : bufferSize buf < 256 := by
  unfold bufferSize
  split <;> omega

theorem le_bufferSize (buf : List UInt8) : buf.length ≤ bufferSize buf := by
  unfold bufferSize
  split <;> omega

def createFromBuffer (buf : List UInt8) (h : buf.length < 256) : Asn1PrimitiveValue :=
  (Asn1PrimitiveValue.create ⟨bufferSize buf, bufferSize_lt h⟩).store buf (le_bufferSize buf)

/-- `buf[0] & 0x80`, read whatever the size is. -/
def signBit (self : Asn1PrimitiveValue) : Bool := self.octets.headD 0 &&& 0x80 ≠ 0

def toInt32 (self : Asn1PrimitiveValue) : Option Int32 :=
  if self.size < 5 then
    let nativeValue : UInt32 := if signBit self then 0xffffffff else 0
    some (self.content.foldl (fun (nativeValue : UInt32) b =>
      (nativeValue <<< 8) ||| b.toUInt32) nativeValue).toInt32
  else none

def toUint32 (self : Asn1PrimitiveValue) : Option UInt32 :=
  if self.size < 5 then
    some (self.content.foldl (fun (nativeValue : UInt32) b =>
      (nativeValue <<< 8) ||| b.toUInt32) 0)
  else none

def toInt64 (self : Asn1PrimitiveValue) : Option Int64 :=
  if self.size < 9 then
    let nativeValue : UInt64 := if signBit self then 0xffffffffffffffff else 0
    some (self.content.foldl (fun (nativeValue : UInt64) b =>
      (nativeValue <<< 8) ||| b.toUInt64) nativeValue).toInt64
  else none

end BerInteger

namespace MmsValue

/-- A setter that leaves the value as it is when the octets do not fit. -/
def storeInteger (set : Asn1PrimitiveValue → Option Asn1PrimitiveValue)
    (v : Asn1PrimitiveValue) : Asn1PrimitiveValue := (set v).getD v

def setSigned (minSize : Nat) (set : Asn1PrimitiveValue → Option Asn1PrimitiveValue) :
    MmsValue → MmsValue
  | .integer v => if minSize ≤ v.maxSize then .integer (storeInteger set v) else .integer v
  | value => value

def setUnsigned (minSize : Nat) (set : Asn1PrimitiveValue → Option Asn1PrimitiveValue) :
    MmsValue → MmsValue
  | .unsigned v => if minSize ≤ v.maxSize then .unsigned (storeInteger set v) else .unsigned v
  | value => value

def setInt8 (value : MmsValue) (integer : Int8) : MmsValue :=
  setSigned 1 (BerInteger.setInt32 · integer.toInt32) value

def setInt16 (value : MmsValue) (integer : Int16) : MmsValue :=
  setSigned 1 (BerInteger.setInt32 · integer.toInt32) value

def setInt32 (value : MmsValue) (integer : Int32) : MmsValue :=
  setSigned 4 (BerInteger.setInt32 · integer) value

def setInt64 (value : MmsValue) (integer : Int64) : MmsValue :=
  setSigned 8 (BerInteger.setInt64 · integer) value

def setUint32 (value : MmsValue) (integer : UInt32) : MmsValue :=
  setUnsigned 4 (BerInteger.setUint32 · integer) value

def setUint16 (value : MmsValue) (integer : UInt16) : MmsValue :=
  setUnsigned 2 (BerInteger.setUint16 · integer) value

def setUint8 (value : MmsValue) (integer : UInt8) : MmsValue :=
  setUnsigned 1 (BerInteger.setUint8 · integer) value

/-- `value->value.integer`, for the two types that have one. -/
def integerOf : MmsValue → Option Asn1PrimitiveValue
  | .integer v => some v
  | .unsigned v => some v
  | _ => none

def toInt32 (value : MmsValue) : Int32 := ((integerOf value).bind BerInteger.toInt32).getD 0

def toUint32 (value : MmsValue) : UInt32 := ((integerOf value).bind BerInteger.toUint32).getD 0

def toInt64 (value : MmsValue) : Int64 := ((integerOf value).bind BerInteger.toInt64).getD 0

end MmsValue

namespace BerInteger

theorem shiftLeft_or_u32 (x : UInt32) (b : UInt8) :
    (x <<< 8) ||| b.toUInt32 = (x <<< 8) + b.toUInt32 := by
  have hb := b.toNat_lt
  have hlow : x.toNat * 256 % 2 ^ 32 = (x.toNat % 2 ^ 24) <<< 8 := by
    rw [Nat.shiftLeft_eq]
    omega
  apply UInt32.toNat.inj
  have hor := Nat.shiftLeft_add_eq_or_of_lt (i := 8) hb (x.toNat % 2 ^ 24)
  simp only [UInt32.toNat_or, UInt32.toNat_add, UInt32.toNat_shiftLeft, UInt8.toNat_toUInt32,
    UInt32.reduceToNat, Nat.reduceMod]
  rw [Nat.shiftLeft_eq x.toNat]
  change (x.toNat * 256 % _ ||| _) = _
  rw [hlow, ← hor, Nat.shiftLeft_eq]
  omega

theorem shiftLeft_or_u64 (x : UInt64) (b : UInt8) :
    (x <<< 8) ||| b.toUInt64 = (x <<< 8) + b.toUInt64 := by
  have hb := b.toNat_lt
  have hlow : x.toNat * 256 % 2 ^ 64 = (x.toNat % 2 ^ 56) <<< 8 := by
    rw [Nat.shiftLeft_eq]
    omega
  apply UInt64.toNat.inj
  have hor := Nat.shiftLeft_add_eq_or_of_lt (i := 8) hb (x.toNat % 2 ^ 56)
  simp only [UInt64.toNat_or, UInt64.toNat_add, UInt64.toNat_shiftLeft, UInt8.toNat_toUInt64,
    UInt64.reduceToNat, Nat.reduceMod]
  rw [Nat.shiftLeft_eq x.toNat]
  change (x.toNat * 256 % _ ||| _) = _
  rw [hlow, ← hor, Nat.shiftLeft_eq]
  omega

theorem foldl_or_u32 (octets : List UInt8) (acc : UInt32) :
    (octets.foldl (fun (value : UInt32) b => (value <<< 8) ||| b.toUInt32) acc).toNat =
      (acc.toNat * 256 ^ octets.length + Octets.value octets) % 2 ^ 32 := by
  simp only [shiftLeft_or_u32]
  exact BerDecoder.foldl_shift_add octets acc

theorem foldl_or_u64 (octets : List UInt8) (acc : UInt64) :
    (octets.foldl (fun (value : UInt64) b => (value <<< 8) ||| b.toUInt64) acc).toNat =
      (acc.toNat * 256 ^ octets.length + Octets.value octets) % 2 ^ 64 := by
  induction octets generalizing acc with
  | nil => simp
  | cons b bs ih =>
    have step : ((acc <<< 8) ||| b.toUInt64).toNat = (acc.toNat * 256 + b.toNat) % 2 ^ 64 := by
      rw [shiftLeft_or_u64]
      simp [UInt64.toNat_add, UInt64.toNat_shiftLeft, Nat.shiftLeft_eq]
    rw [List.foldl_cons, ih, step, Octets.value_cons, List.length_cons, pow_succ]
    rw [Nat.add_mod, Nat.mod_mul_mod, ← Nat.add_mod]
    congr 1
    ring

theorem signBit_eq (self : Asn1PrimitiveValue) {b : UInt8} {bs : List UInt8}
    (h : self.content = b :: bs) : signBit self = decide (0x80 ≤ b.toNat) := by
  have hhead : self.octets.headD 0 = b := by
    rw [Asn1PrimitiveValue.content] at h
    cases ho : self.octets with
    | nil => simp [ho] at h
    | cons c cs =>
      cases hs : self.size with
      | zero => simp [hs] at h
      | succ n =>
        rw [ho, hs, List.take_succ_cons] at h
        exact (List.cons.inj h).1
  rw [signBit, hhead]
  simp only [ne_eq, BerEncoder.and_sign_eq_zero_iff, not_lt]

theorem toInt_toInt32 (x : UInt32) : x.toInt32.toInt = (x.toNat : Int).bmod (2 ^ 32) :=
  BitVec.toInt_eq_toNat_bmod x.toBitVec

theorem toInt_toInt64 (x : UInt64) : x.toInt64.toInt = (x.toNat : Int).bmod (2 ^ 64) :=
  BitVec.toInt_eq_toNat_bmod x.toBitVec

/-- The accumulator starts as minus one or zero: what it collects is the two's complement
number modulo the width of the accumulator. -/
theorem accumulated_emod (b : UInt8) (bs : List UInt8) {m : Nat} (acc : Nat) (hm : 0 < m)
    (hacc : acc = if 0x80 ≤ b.toNat then m - 1 else 0) :
    (((acc * 256 ^ (b :: bs).length + Octets.value (b :: bs)) % m : Nat) : Int) =
      Octets.signed (b :: bs) % m := by
  by_cases h : 0x80 ≤ b.toNat
  · rw [if_pos h] at hacc
    have expand : ((acc * 256 ^ (b :: bs).length + Octets.value (b :: bs) : Nat) : Int) =
        Octets.signed (b :: bs) + m * 256 ^ (b :: bs).length := by
      rw [Octets.signed_of_set bs h, hacc, List.length_cons]
      push_cast [Nat.cast_sub hm]
      ring
    rw [Int.natCast_mod, expand, Int.add_mul_emod_self_left]
  · rw [if_neg h] at hacc
    rw [Octets.signed_of_clear bs (by omega), hacc]
    simp

theorem toInt32_of_content (self : Asn1PrimitiveValue) {b : UInt8} {bs : List UInt8}
    (hc : self.content = b :: bs) (hs : self.size < 5) :
    ∃ n, toInt32 self = some n ∧ n.toInt = Octets.signed (b :: bs) := by
  rw [toInt32, if_pos hs, signBit_eq self hc, hc]
  refine ⟨_, rfl, ?_⟩
  have hlen : bs.length ≤ 3 := by
    have := self.length_content
    rw [hc, List.length_cons] at this
    omega
  have hpow : (256 : Int) ^ bs.length ≤ 256 ^ 3 := pow_le_pow_right₀ (by norm_num) hlen
  have hb := Octets.signed_bounds b bs
  have hacc := accumulated_emod b bs (m := 2 ^ 32)
    ((if decide (0x80 ≤ b.toNat) = true then (0xffffffff : UInt32) else 0).toNat)
    (by norm_num) (by by_cases h : 0x80 ≤ b.toNat <;> simp [h])
  rw [← foldl_or_u32] at hacc
  rw [toInt_toInt32, hacc, Int.bmod_def]
  omega

theorem toInt64_of_content (self : Asn1PrimitiveValue) {b : UInt8} {bs : List UInt8}
    (hc : self.content = b :: bs) (hs : self.size < 9) :
    ∃ n, toInt64 self = some n ∧ n.toInt = Octets.signed (b :: bs) := by
  rw [toInt64, if_pos hs, signBit_eq self hc, hc]
  refine ⟨_, rfl, ?_⟩
  have hlen : bs.length ≤ 7 := by
    have := self.length_content
    rw [hc, List.length_cons] at this
    omega
  have hpow : (256 : Int) ^ bs.length ≤ 256 ^ 7 := pow_le_pow_right₀ (by norm_num) hlen
  have hb := Octets.signed_bounds b bs
  have hacc := accumulated_emod b bs (m := 2 ^ 64)
    ((if decide (0x80 ≤ b.toNat) = true then (0xffffffffffffffff : UInt64) else 0).toNat)
    (by norm_num) (by by_cases h : 0x80 ≤ b.toNat <;> simp [h])
  rw [← foldl_or_u64] at hacc
  rw [toInt_toInt64, hacc, Int.bmod_def]
  omega

theorem toUint32_of_content (self : Asn1PrimitiveValue) (hs : self.size < 5) :
    ∃ n, toUint32 self = some n ∧ n.toNat = Octets.value self.content := by
  rw [toUint32, if_pos hs]
  refine ⟨_, rfl, ?_⟩
  have hlt := Octets.value_lt self.content
  have hpow : 256 ^ self.content.length ≤ 256 ^ 4 :=
    Nat.pow_le_pow_right (by norm_num) (by rw [self.length_content]; omega)
  rw [foldl_or_u32]
  simp only [UInt32.toNat_zero, zero_mul, zero_add]
  exact Nat.mod_eq_of_lt (by omega)

theorem setIntegerValue_spec (self : Asn1PrimitiveValue) {w n : Nat}
    (h : (BerEncoder.compressInteger (Octets.ofNat w n)).length ≤ self.maxSize) :
    ∃ s, setIntegerValue self (BerEncoder.nativeOctets w n) = some s ∧
      s.content = BerEncoder.compressInteger (Octets.ofNat w n) := by
  simp only [setIntegerValue, BerEncoder.revertByteOrder_nativeOctets]
  rw [dif_pos h]
  exact ⟨_, rfl, self.content_store _ h⟩

end BerInteger

end Iec61850
