import Iec61850.Asn1.BerFields
import Iec61850.Asn1.ObjectIdentifiers
import Iec61850.Lib.TextBuffer

/-! The lengths and the object identifiers of BER, as all the parsers and builders use them. -/

namespace Iec61850

open Machine

/-- `BerEncoder_encodeLength`, in a buffer. -/
def BerEncoder.encodeLengthAt (length : Nat) (buffer : List UInt8) (bufPos : Nat) :
    Exec (List UInt8 × Nat) := do
  let octets := encodeLength length
  return (← TextBuffer.putChars buffer bufPos octets, bufPos + octets.length)

/-- The length that stands in front of these octets, with none for the indefinite form. -/
def definiteLength : List UInt8 → Option Nat
  | [] => none
  | b :: rest =>
    if b.toNat < 128 then some b.toNat
    else if b = 0x80 then none
    else some (Octets.value (rest.take (b.toNat - 128)))

/-- The octets from a position up to a bound. -/
def window (buffer : List UInt8) (bufPos maxBufPos : Nat) : List UInt8 :=
  (buffer.take maxBufPos).drop bufPos

/-- A length is encoded and decoded again; octets are decoded; an identifier is encoded. -/
inductive CodecUse
  | length (n : UInt16) (buffer : List UInt8) (bufPos maxBufPos : Nat)
  | decode (buffer : List UInt8) (bufPos maxBufPos : Nat)
  | oid (identifier : ObjectIdentifier) (maxBufLen : Int)

namespace CodecUse

open BerEncoder BerDecoder

/-- What is asked of the codec. `length` is what the variable of the caller holds before. -/
def Right : CodecUse → Prop
  | .length n buffer bufPos maxBufPos =>
    bufPos + determineLengthSize n.toNat ≤ maxBufPos → maxBufPos ≤ buffer.length →
      ∃ buffer' endPos, encodeLengthAt n.toNat buffer bufPos = .ok (buffer', endPos) ∧
        endPos = bufPos + determineLengthSize n.toNat ∧
        ∀ length, decodeLength (.ofList buffer') length bufPos maxBufPos =
          .ok (endPos, n.toNat)
  | .decode buffer bufPos maxBufPos =>
    maxBufPos ≤ buffer.length → ∀ length, ∃ pos decoded,
      decodeLength (.ofList buffer) length bufPos maxBufPos = .ok (pos, decoded) ∧
        (pos = -1 ∨ 0 ≤ decoded ∧ 0 ≤ pos ∧ pos ≤ maxBufPos ∧
          (definiteLength (window buffer bufPos maxBufPos)).map Nat.cast = some decoded)
  | .oid identifier maxBufLen => identifier.Encoded maxBufLen

/-- What the use has to be like. -/
def Restricted : CodecUse → Prop
  | .length _ _ _ _ => True
  | .decode buffer bufPos maxBufPos =>
    maxBufPos ≤ buffer.length → ∀ b rest, window buffer bufPos maxBufPos = b :: rest →
      b ≠ 0x80 ∧ (128 < b.toNat → b.toNat - 128 ≤ rest.length →
        Octets.value (rest.take (b.toNat - 128)) < 2147483648)
  | .oid identifier maxBufLen =>
    FitsInt (identifier.x.toInt * 40) ∧ FitsInt identifier.firstSubidentifier ∧
      (maxBufLen < 1 + (identifier.positiveArcs.flatMap ObjectIdentifier.arcOctets).length ∨
        0 ≤ identifier.x.toInt ∧ 0 ≤ identifier.y.toInt ∧ identifier.firstSubidentifier < 128 ∧
          ∀ arc ∈ identifier.arcs, 0 < arc.toInt)

/-! ## Lengths -/

section Lengths

variable {message behind octets rest buffer : List UInt8} {pos maxBufPos acc : Int} {count : Nat}
  {b : UInt8}

/-- The length octets are cut by the bound. -/
theorem decodeLengthOctets_cut (acc : Int)
    (hl : Memory.Left message (octets ++ behind) pos)
    (hmax : maxBufPos = pos + octets.length) (h : octets.length < count) :
    ∃ decoded, decodeLengthOctets (.ofList message) maxBufPos count acc pos =
      .ok (-1, decoded) := by
  induction count generalizing octets pos acc with
  | zero => cases h
  | succ count ih =>
    cases octets with
    | nil =>
      rw [List.length_nil, Nat.cast_zero, add_zero] at hmax
      exact ⟨acc, by rw [decodeLengthOctets, if_pos hmax.le]; rfl⟩
    | cons b octets =>
      rw [List.length_cons] at h hmax
      push_cast at hmax
      rw [decodeLengthOctets, if_neg (by omega), hl.read, ok_bind]
      exact ih _ hl.next (by omega) (Nat.lt_of_succ_lt_succ h)

/-- All of them are read, into an `int`. -/
theorem decodeLengthOctets_complete (hl : Memory.Left message (octets ++ behind) pos)
    (hmax : maxBufPos = pos + octets.length) (h : count ≤ octets.length)
    (hacc : acc < 2147483648) : ∃ decoded, decoded < 2147483648 ∧
      decodeLengthOctets (.ofList message) maxBufPos count acc pos =
        .ok (pos + count, decoded) := by
  induction count generalizing octets pos acc with
  | zero =>
    refine ⟨acc, hacc, ?_⟩
    rw [decodeLengthOctets, Nat.cast_zero, add_zero]
    rfl
  | succ count ih =>
    cases octets with
    | nil => cases h
    | cons b octets =>
      rw [List.length_cons] at h hmax
      push_cast at hmax
      obtain ⟨decoded, hlt, heq⟩ := ih hl.next (by omega) (Nat.le_of_succ_le_succ h)
        (i32_range (acc * 256 + b.toNat)).2
      refine ⟨decoded, hlt, ?_⟩
      rw [decodeLengthOctets, if_neg (by omega), hl.read, ok_bind, heq]
      push_cast
      rw [add_assoc, add_comm (1 : Int)]

theorem toNat_and_low (h : 128 ≤ b.toNat) : (b &&& 0x7f).toNat = b.toNat - 128 := by
  have hlt := b.toNat_lt
  rw [UInt8.toNat_and]
  change b.toNat &&& (2 ^ 7 - 1) = b.toNat - 128
  rw [Nat.and_two_pow_sub_one_eq_mod]
  omega

theorem left_window {bufPos maxBufPos : Nat} (hle : bufPos ≤ maxBufPos)
    (hmax : maxBufPos ≤ buffer.length) :
    Memory.Left buffer (window buffer bufPos maxBufPos ++ buffer.drop maxBufPos) bufPos ∧
      (maxBufPos : Int) = bufPos + (window buffer bufPos maxBufPos).length := by
  have hlength : (window buffer bufPos maxBufPos).length = maxBufPos - bufPos := by
    rw [window, List.length_drop, List.length_take, Nat.min_eq_left hmax]
  refine ⟨⟨buffer.take bufPos, ?_, ?_⟩, by omega⟩
  · have hfront : (buffer.take maxBufPos).take bufPos = buffer.take bufPos := by
      rw [List.take_take, Nat.min_eq_left hle]
    rw [← List.append_assoc, window, ← hfront, List.take_append_drop, List.take_append_drop]
  · rw [List.length_take, Nat.min_eq_left (hle.trans hmax)]

theorem length_right (n : UInt16) (buffer : List UInt8) (bufPos maxBufPos : Nat) :
    Right (.length n buffer bufPos maxBufPos) := by
  intro hroom hmax
  have hsize := length_encodeLength n.toNat
  have hfront : (buffer.take bufPos).length = bufPos := by
    rw [List.length_take]
    omega
  have hrest : (encodeLength n.toNat).length ≤ (buffer.drop bufPos).length := by
    rw [List.length_drop]
    omega
  have hput := TextBuffer.putChars_append (buffer.take bufPos) hrest
  rw [List.take_append_drop, hfront] at hput
  refine ⟨_, _, by rw [encodeLengthAt, hput]; rfl, by rw [hsize], fun length => ?_⟩
  have hl : Memory.Left (buffer.take bufPos ++ (encodeLength n.toNat ++
      (buffer.drop bufPos).drop (encodeLength n.toNat).length))
      (encodeLength n.toNat ++ (buffer.drop bufPos).drop (encodeLength n.toNat).length) bufPos :=
    ⟨buffer.take bufPos, rfl, by rw [hfront]⟩
  have hlt := n.toNat_lt
  rw [decodeLength_left (MmsServer.lengthOctets_encodeLength hlt) (by omega) hl (by omega)]
  rfl

/-- What is decoded by the first octet. -/
theorem decodeLength_short (hb : b.toNat < 128) {length : Int} (hpos : ¬ maxBufPos ≤ pos)
    (hl : Memory.Left message (b :: rest) pos) :
    decodeLength (.ofList message) length pos maxBufPos = .ok (pos + 1, b.toNat) := by
  rw [decodeLength, if_neg hpos, hl.read, ok_bind, if_pos ((and_sign_eq_zero_iff b).mpr hb)]
  rfl

theorem decodeLength_indefinite {length : Int} (hpos : ¬ maxBufPos ≤ pos)
    (hl : Memory.Left message (0x80 :: rest) pos) :
    decodeLength (.ofList message) length pos maxBufPos = .ok (pos + 1, -1) := by
  rw [decodeLength, if_neg hpos, hl.read, ok_bind, if_neg (by decide), if_pos (by decide)]
  rfl

theorem decodeLength_long (hb : 128 < b.toNat) {length : Int} (hpos : ¬ maxBufPos ≤ pos)
    (hl : Memory.Left message (b :: rest) pos) :
    decodeLength (.ofList message) length pos maxBufPos =
      decodeLengthOctets (.ofList message) maxBufPos (b.toNat - 128) 0 (pos + 1) := by
  have hset : ¬ b &&& 0x80 = 0 := by
    rw [and_sign_eq_zero_iff]
    omega
  have hlow := toNat_and_low hb.le
  have hcount : ¬ b &&& 0x7f = 0 := by
    intro h
    rw [h] at hlow
    change 0 = b.toNat - 128 at hlow
    omega
  rw [decodeLength, if_neg hpos, hl.read, ok_bind, if_neg hset, if_neg hcount, hlow]

theorem definiteLength_long (hb : 128 < b.toNat) :
    definiteLength (b :: octets) = some (Octets.value (octets.take (b.toNat - 128))) := by
  have hne : b ≠ 0x80 := by
    rintro rfl
    exact absurd hb (by decide)
  rw [definiteLength, if_neg (by omega), if_neg hne]

/-- A window that begins with a length of the long form. -/
theorem right_long_iff (hb : 128 < b.toNat) {bufPos : Nat} {length : Int}
    (hl : Memory.Left message (b :: octets ++ behind) bufPos)
    (hmax : maxBufPos = bufPos + (b :: octets).length) :
    (∃ pos decoded, decodeLength (.ofList message) length bufPos maxBufPos = .ok (pos, decoded) ∧
        (pos = -1 ∨ 0 ≤ decoded ∧ 0 ≤ pos ∧ pos ≤ maxBufPos ∧
          (definiteLength (b :: octets)).map Nat.cast = some decoded)) ↔
      (b.toNat - 128 ≤ octets.length →
        Octets.value (octets.take (b.toNat - 128)) < 2147483648) := by
  have hnext : Memory.Left message (octets ++ behind) (bufPos + 1) := hl.next
  rw [List.length_cons] at hmax
  push_cast at hmax
  have hmax' : maxBufPos = (bufPos + 1 : Int) + octets.length := by omega
  rw [decodeLength_long hb (by omega) hl, definiteLength_long hb, Option.map_some]
  by_cases hcount : b.toNat - 128 ≤ octets.length
  case neg =>
    obtain ⟨decoded, heq⟩ := decodeLengthOctets_cut 0 hnext hmax' (not_le.mp hcount)
    exact iff_of_true ⟨_, _, heq, Or.inl rfl⟩ fun h => absurd h hcount
  rw [forall_prop_of_true hcount]
  constructor
  · rintro ⟨pos, decoded, heq, hright⟩
    obtain ⟨decoded', hlt, heq'⟩ := decodeLengthOctets_complete hnext hmax' hcount
      (show (0 : Int) < 2147483648 by decide)
    cases heq.symm.trans heq'
    rcases hright with hfailed | ⟨-, -, -, hvalue⟩
    · omega
    · have hcast := Option.some.inj hvalue
      omega
  · intro hvalue
    have hlength : (octets.take (b.toNat - 128)).length = b.toNat - 128 := by
      rw [List.length_take, Nat.min_eq_left hcount]
    have hleft : Memory.Left message (octets.take (b.toNat - 128) ++
        (octets.drop (b.toNat - 128) ++ behind)) (bufPos + 1) := by
      rwa [← List.append_assoc, List.take_append_drop]
    have heq := decodeLengthOctets_left 0 (by rwa [Nat.zero_mul, Nat.zero_add]) hleft
      (show (bufPos + 1 : Int) + (octets.take (b.toNat - 128)).length ≤ maxBufPos by
        rw [hlength]
        omega)
    rw [hlength, Nat.zero_mul, Nat.zero_add, Nat.cast_zero] at heq
    exact ⟨_, _, heq, Or.inr ⟨Int.natCast_nonneg _, by omega, by omega, rfl⟩⟩

theorem decode_right_iff (buffer : List UInt8) (bufPos maxBufPos : Nat) :
    Right (.decode buffer bufPos maxBufPos) ↔ Restricted (.decode buffer bufPos maxBufPos) := by
  rw [Right, Restricted]
  refine forall_congr' fun hmax => ?_
  by_cases hempty : maxBufPos ≤ bufPos
  case pos =>
    have hwindow : window buffer bufPos maxBufPos = [] := by
      refine List.drop_eq_nil_of_le ?_
      rw [List.length_take]
      omega
    rw [hwindow]
    refine iff_of_true (fun length => ⟨-1, length, ?_, Or.inl rfl⟩) fun b rest h => nomatch h
    rw [decodeLength, if_pos (by exact_mod_cast hempty)]
    rfl
  obtain ⟨hl, hlength⟩ := left_window (not_le.mp hempty).le hmax
  cases hw : window buffer bufPos maxBufPos with
  | nil =>
    rw [hw, List.length_nil] at hlength
    omega
  | cons b octets =>
    rw [hw] at hl hlength
    have hpos : ¬ (maxBufPos : Int) ≤ bufPos := by omega
    have hsingle : (∀ c rest, b :: octets = c :: rest → c ≠ 0x80 ∧ (128 < c.toNat →
          c.toNat - 128 ≤ rest.length →
            Octets.value (rest.take (c.toNat - 128)) < 2147483648)) ↔
        b ≠ 0x80 ∧ (128 < b.toNat → b.toNat - 128 ≤ octets.length →
          Octets.value (octets.take (b.toNat - 128)) < 2147483648) := by
      constructor
      · intro h
        exact h b octets rfl
      · intro h c rest heq
        cases heq
        exact h
    rw [hsingle]
    rcases Nat.lt_trichotomy b.toNat 128 with hb | hb | hb
    · refine iff_of_true (fun length => ?_) ⟨?_, fun h => absurd h hb.not_gt⟩
      · refine ⟨_, _, decodeLength_short hb hpos hl, Or.inr ⟨Int.natCast_nonneg _, ?_, ?_, ?_⟩⟩
        · omega
        · omega
        · rw [definiteLength, if_pos hb]
          rfl
      · rintro rfl
        exact absurd hb (by decide)
    · have hindefinite : b = 0x80 := UInt8.toNat_inj.mp hb
      subst hindefinite
      refine iff_of_false (fun h => ?_) fun h => h.1 rfl
      obtain ⟨pos, decoded, heq, hright⟩ := h 0
      cases heq.symm.trans (decodeLength_indefinite hpos hl)
      rcases hright with hfailed | ⟨hneg, -⟩
      · omega
      · omega
    · have hne : b ≠ 0x80 := by
        rintro rfl
        exact absurd hb (by decide)
      rw [and_iff_right hne, forall_prop_of_true hb]
      constructor
      · intro h
        exact (right_long_iff hb hl hlength).mp (h 0)
      · intro h length
        exact (right_long_iff hb hl hlength).mpr h

end Lengths

/-- Lengths below 65536 survive. A length is decoded where it has the definite form and fits an
`int`. An identifier is encoded where the first two arcs fit one octet and no other arc is zero. -/
theorem codecRight_iff (use : CodecUse) : use.Right ↔ use.Restricted := by
  cases use with
  | length n buffer bufPos maxBufPos =>
    exact iff_of_true (length_right n buffer bufPos maxBufPos) trivial
  | decode buffer bufPos maxBufPos => exact decode_right_iff buffer bufPos maxBufPos
  | oid identifier maxBufLen => exact ObjectIdentifier.encoded_iff identifier maxBufLen

/-- An arc that is zero is left out. -/
theorem not_right_zeroArc : ¬ Right (.oid ⟨1, 2, [0]⟩ 10) := by
  intro h
  obtain ⟨-, -, h⟩ := (ObjectIdentifier.encoded_iff _ _).mp h
  rcases h with hroom | ⟨-, -, -, hpositive⟩
  · exact absurd hroom (by decide)
  · exact absurd (hpositive 0 List.mem_cons_self) (by decide)

end CodecUse

end Iec61850
