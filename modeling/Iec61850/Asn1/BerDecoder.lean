import Iec61850.Lib.Memory
import Iec61850.Asn1.BerEncoder

/-! `ber_decode.c`: lengths and unsigned integers read from a buffer. -/

namespace Iec61850.BerDecoder

open Machine

/-- The octets of a long form length, as long as they stay below `maxBufPos`. -/
def decodeLengthOctets (buffer : Memory) (maxBufPos : Int) :
    Nat → Int → Int → Exec (Int × Int)
  | 0, length, bufPos => return (bufPos, length)
  | n + 1, length, bufPos =>
    if maxBufPos ≤ bufPos then return (-1, length)
    else do
      let b ← buffer.read bufPos
      decodeLengthOctets buffer maxBufPos n (i32 (length * 256 + b.toNat)) (bufPos + 1)

/-- The new position, or -1, and the length. `length` is what the caller's variable
held before: it keeps that value when there is no length octet at all. -/
def decodeLength (buffer : Memory) (length bufPos maxBufPos : Int) : Exec (Int × Int) :=
  if maxBufPos ≤ bufPos then return (-1, length)
  else do
    let len1 ← buffer.read bufPos
    if len1 &&& 0x80 = 0 then return (bufPos + 1, len1.toNat)
    else if len1 &&& 0x7f = 0 then return (bufPos + 1, -1)
    else decodeLengthOctets buffer maxBufPos (len1 &&& 0x7f).toNat 0 (bufPos + 1)

def uint32OfOctets (octets : List UInt8) : UInt32 :=
  octets.foldl (fun value b => (value <<< 8) + b.toUInt32) 0

def decodeUint32 (buffer : Memory) (intlen bufPos : Int) : Exec UInt32 := do
  return uint32OfOctets (← buffer.readOctets bufPos intlen.toNat)

theorem foldl_shift_add (octets : List UInt8) (acc : UInt32) :
    (octets.foldl (fun (value : UInt32) b => (value <<< 8) + b.toUInt32) acc).toNat =
      (acc.toNat * 256 ^ octets.length + Octets.value octets) % 2 ^ 32 := by
  induction octets generalizing acc with
  | nil => simp
  | cons b bs ih =>
    have step : ((acc <<< 8) + b.toUInt32).toNat = (acc.toNat * 256 + b.toNat) % 2 ^ 32 := by
      simp [UInt32.toNat_add, UInt32.toNat_shiftLeft, Nat.shiftLeft_eq]
    rw [List.foldl_cons, ih, step, Octets.value_cons, List.length_cons, pow_succ]
    rw [Nat.add_mod, Nat.mod_mul_mod, ← Nat.add_mod]
    congr 1
    ring

theorem uint32OfOctets_toNat (octets : List UInt8) :
    (uint32OfOctets octets).toNat = Octets.value octets % 2 ^ 32 := by
  rw [uint32OfOctets, foldl_shift_add]
  simp

end Iec61850.BerDecoder
