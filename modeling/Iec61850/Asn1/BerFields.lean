import Iec61850.Asn1.BerElements
import Iec61850.Mms.AccessResult

/-! Loops over fields that are well formed: what the decoder of lengths gives for a length that is
there, whatever form it has, and the loop that keeps the length of the field before. -/

namespace Iec61850.BerDecoder

open Machine BerEncoder

variable {σ : Type}

/-- The loop of a parser whose length is declared in front of it: where no length is decoded, the
one before is still there. The lengths are checked against `maxBufPos`, the loop ends at `endPos`,
and nobody looks whether a position is negative. -/
def parseFields (buffer : Memory) (maxBufPos endPos : Int) (field : ElementParser σ) :
    Nat → Int → Int → σ → Exec (Option Int × σ)
  | 0, _, _, _ => .error .outOfFuel
  | fuel + 1, length, bufPos, state =>
    if endPos ≤ bufPos then return (some bufPos, state)
    else do
      let tag ← buffer.read bufPos
      let (bufPos, length) ← decodeLength buffer length (bufPos + 1) maxBufPos
      let (next, state) ← field tag length bufPos state
      match next with
      | none => return (none, state)
      | some bufPos => parseFields buffer maxBufPos endPos field fuel length bufPos state

/-- What every field keeps, the loop keeps. -/
theorem parseFields_invariant {buffer : Memory} {maxBufPos endPos length bufPos : Int}
    {field : ElementParser σ} {fuel : Nat} {state : σ} {result : Option Int × σ} {I : σ → Prop}
    (hstep : ∀ tag len bufPos state result, I state →
      field tag len bufPos state = .ok result → I result.2)
    (h : parseFields buffer maxBufPos endPos field fuel length bufPos state = .ok result)
    (hI : I state) : I result.2 := by
  induction fuel generalizing length bufPos state with
  | zero => cases h
  | succ fuel ih =>
    rw [parseFields] at h
    split at h
    · cases h
      exact hI
    · obtain ⟨tag, -, h⟩ := bind_ok h
      obtain ⟨⟨bufPos, len⟩, -, h⟩ := bind_ok h
      obtain ⟨⟨next, state'⟩, hfield, h⟩ := bind_ok h
      have hI' := hstep tag len bufPos state _ hI hfield
      cases next with
      | none =>
        cases h
        exact hI'
      | some bufPos => exact ih h hI'

variable {message rest octets : List UInt8} {pos maxBufPos length : Int}

theorem decodeLengthOctets_left (acc : Nat)
    (hvalue : acc * 256 ^ octets.length + Octets.value octets < 2147483648)
    (hl : Memory.Left message (octets ++ rest) pos) (hmax : pos + octets.length ≤ maxBufPos) :
    decodeLengthOctets (.ofList message) maxBufPos octets.length acc pos =
      .ok (pos + octets.length, (acc * 256 ^ octets.length + Octets.value octets : Nat)) := by
  induction octets generalizing acc pos with
  | nil => simp [decodeLengthOctets, pure, Except.pure]
  | cons b bs ih =>
    have hnext : (acc * 256 + b.toNat) * 256 ^ bs.length + Octets.value bs =
        acc * 256 ^ (b :: bs).length + Octets.value (b :: bs) := by
      rw [Octets.value_cons, List.length_cons, pow_succ]
      ring
    have hlt : acc * 256 + b.toNat < 2147483648 := by
      have hpos : 0 < 256 ^ bs.length := by positivity
      nlinarith
    have hi32 : i32 ((acc : Int) * 256 + b.toNat) = ((acc * 256 + b.toNat : Nat) : Int) := by
      rw [i32_of_range (by omega) (by omega)]
      push_cast
      ring
    rw [List.length_cons] at hmax
    push_cast at hmax
    have hbound : ¬ maxBufPos ≤ pos := by omega
    have hleft : Memory.Left message (bs ++ rest) (pos + 1) := by
      have hone : Memory.Left message ([b] ++ (bs ++ rest)) pos := hl
      exact hone.advance
    have htail := ih (acc * 256 + b.toNat) (by rwa [hnext]) hleft (by omega)
    rw [List.length_cons, decodeLengthOctets, if_neg hbound, hl.read, ok_bind, hi32, htail, hnext,
      List.length_cons]
    push_cast
    rw [add_assoc, add_comm (1 : Int)]

/-- A length is decoded whatever form it has. -/
theorem decodeLength_left {n : Nat} (h : Tlv.LengthOctets n octets) (hn : n < 2147483648)
    (hl : Memory.Left message (octets ++ rest) pos) (hmax : pos + octets.length ≤ maxBufPos) :
    decodeLength (.ofList message) length pos maxBufPos = .ok (pos + octets.length, n) := by
  cases h with
  | @short m h =>
    have hclear := (and_sign_eq_zero_iff m).mpr h
    have hbound : ¬ maxBufPos ≤ pos := by
      rw [List.length_singleton] at hmax
      omega
    rw [decodeLength, if_neg hbound, hl.read, ok_bind, if_pos hclear]
    rfl
  | @long m octets hne hlt h =>
    have hset : ¬ m &&& 0x80 = 0 := by
      rw [and_sign_eq_zero_iff]
      omega
    have hcount : (m &&& 0x7f).toNat = octets.length := by
      rw [UInt8.toNat_and]
      change m.toNat &&& (2 ^ 7 - 1) = octets.length
      rw [Nat.and_two_pow_sub_one_eq_mod, h]
      omega
    have hpos : 0 < octets.length := List.length_pos_of_ne_nil hne
    have hcount0 : ¬ m &&& 0x7f = 0 := by
      intro h0
      rw [h0] at hcount
      exact absurd hcount.symm hpos.ne'
    rw [List.length_cons] at hmax
    push_cast at hmax
    have hbound : ¬ maxBufPos ≤ pos := by omega
    have hleft : Memory.Left message (octets ++ rest) (pos + 1) := by
      have hone : Memory.Left message ([m] ++ (octets ++ rest)) pos := hl
      exact hone.advance
    have hmax : pos + 1 + octets.length ≤ maxBufPos := by omega
    have hoctets := decodeLengthOctets_left 0 (by simpa using hn) hleft hmax
    rw [decodeLength, if_neg hbound, hl.read, ok_bind, if_neg hset, if_neg hcount0, hcount]
    simp only [Nat.zero_mul, Nat.zero_add, Nat.cast_zero] at hoctets
    rw [hoctets, List.length_cons]
    push_cast
    rw [add_assoc, add_comm (1 : Int)]

theorem length_encodeTL_le (tag : UInt8) (n : Nat) : (encodeTL tag n).length ≤ 4 := by
  rw [encodeTL, List.length_cons, length_encodeLength, determineLengthSize]
  split_ifs <;> decide

theorem uint32OfOctets_encodeUInt32 (n : UInt32) : uint32OfOctets (encodeUInt32 n) = n := by
  have hvalue : Octets.value (encodeUInt32 n) = n.toNat := by
    rw [encodeUInt32, value_compressInteger_of_clear (by decide), Octets.value_cons]
    have hn := Octets.value_ofNat_of_lt (w := 4) n.toNat_lt
    simp [hn]
  apply UInt32.toNat_inj.mp
  rw [uint32OfOctets_toNat, hvalue, Nat.mod_eq_of_lt n.toNat_lt]

section Field

variable {tag : UInt8} {n : Nat} (hn : n < 65536)
  (hl : Memory.Left message (encodeTL tag n ++ rest) pos)

include hl in
theorem read_encodeTL : (Memory.ofList message).read pos = .ok tag := by
  have hcons : Memory.Left message (tag :: (encodeLength n ++ rest)) pos := hl
  exact hcons.read

include hn hl in
theorem decodeLength_encodeTL (hmax : pos + (encodeTL tag n).length ≤ maxBufPos) :
    decodeLength (.ofList message) length (pos + 1) maxBufPos =
      .ok (pos + (encodeTL tag n).length, n) := by
  have hone : Memory.Left message ([tag] ++ (encodeLength n ++ rest)) pos := hl
  rw [encodeTL, List.length_cons] at hmax ⊢
  push_cast at hmax ⊢
  have hmax : pos + 1 + (encodeLength n).length ≤ maxBufPos := by omega
  rw [add_comm ((encodeLength n).length : Int), ← add_assoc]
  exact decodeLength_left (MmsServer.lengthOctets_encodeLength hn) (by omega) hone.advance hmax

variable {fuel : Nat} {endPos : Int} {field : ElementParser σ} {state : σ}

include hn hl in
/-- One turn of the loop. -/
theorem parseFields_encodeTL (hend : pos < endPos)
    (hmax : pos + (encodeTL tag n).length ≤ maxBufPos) :
    parseFields (.ofList message) maxBufPos endPos field (fuel + 1) length pos state =
      (field tag n (pos + (encodeTL tag n).length) state >>= fun r =>
        match r.1 with
        | none => .ok (none, r.2)
        | some bufPos => parseFields (.ofList message) maxBufPos endPos field fuel n bufPos r.2) := by
  rw [parseFields, if_neg (not_le.mpr hend), read_encodeTL hl, ok_bind,
    decodeLength_encodeTL hn hl hmax, ok_bind]
  rfl

include hn hl in
/-- One turn of the loop that the upper layers share. -/
theorem parseElements_encodeTL {uninitialised : Int} {checked : Bool}
    (hmax : pos + (encodeTL tag n).length ≤ maxBufPos) :
    parseElements (.ofList message) uninitialised maxBufPos checked field (fuel + 1) pos state =
      (field tag n (pos + (encodeTL tag n).length) state >>= fun r =>
        match r.1 with
        | none => .ok (none, r.2)
        | some bufPos =>
          parseElements (.ofList message) uninitialised maxBufPos checked field fuel bufPos r.2) := by
  have hpos := hl.pos_nonneg
  have hsome : 0 < (encodeTL tag n).length := Nat.succ_pos _
  have hvalid : ¬ (checked = true ∧ pos + (encodeTL tag n).length < 0) := by
    rintro ⟨-, hneg⟩
    omega
  have hone : parseElement (.ofList message) uninitialised maxBufPos checked field pos state =
      field tag n (pos + (encodeTL tag n).length) state := by
    rw [parseElement, read_encodeTL hl, ok_bind, decodeLength_encodeTL hn hl hmax, ok_bind]
    exact if_neg hvalid
  rw [parseElements, if_neg (by omega), hone]
  rfl

end Field

theorem parseElements_end {buffer : Memory} {fuel : Nat} {bufPos uninitialised : Int}
    {checked : Bool} {field : ElementParser σ} {state : σ} (h : maxBufPos ≤ bufPos) :
    parseElements buffer uninitialised maxBufPos checked field (fuel + 1) bufPos state =
      .ok (some bufPos, state) := by
  rw [parseElements, if_pos h]
  rfl

theorem parseFields_end {buffer : Memory} {fuel : Nat} {endPos bufPos : Int}
    {field : ElementParser σ} {state : σ} (h : endPos ≤ bufPos) :
    parseFields buffer maxBufPos endPos field (fuel + 1) length bufPos state =
      .ok (some bufPos, state) := by
  rw [parseFields, if_pos h]
  rfl

end Iec61850.BerDecoder
