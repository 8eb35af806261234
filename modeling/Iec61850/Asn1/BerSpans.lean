import Iec61850.Asn1.BerFields

/-! Loops over the elements of a part of a message: one turn for each element that was encoded. -/

namespace Machine.Memory

/-- These octets of the message stand from one position to another. -/
def Span (message octets : List UInt8) (pos endPos : Int) : Prop :=
  ∃ behind, Left message (octets ++ behind) pos ∧ endPos = pos + octets.length

namespace Span

variable {message octets rest : List UInt8} {pos endPos : Int} {b : UInt8}

theorem whole (octets behind : List UInt8) : Span (octets ++ behind) octets 0 octets.length :=
  ⟨behind, .start _, (Int.zero_add _).symm⟩

/-- A message from its first octet to its last one. -/
theorem all (message : List UInt8) : Span message message 0 message.length :=
  ⟨[], by rw [List.append_nil]; exact .start _, (Int.zero_add _).symm⟩

theorem tail (h : Span message (octets ++ rest) pos endPos) :
    Span message rest (pos + octets.length) endPos := by
  obtain ⟨behind, hl, rfl⟩ := h
  rw [List.append_assoc] at hl
  refine ⟨behind, hl.advance, ?_⟩
  rw [List.length_append, Nat.cast_add, Int.add_assoc]

theorem head (h : Span message (octets ++ rest) pos endPos) :
    Span message octets pos (pos + octets.length) := by
  obtain ⟨behind, hl, -⟩ := h
  rw [List.append_assoc] at hl
  exact ⟨rest ++ behind, hl, rfl⟩

theorem next (h : Span message (b :: rest) pos endPos) : Span message rest (pos + 1) endPos := by
  have hone : Span message ([b] ++ rest) pos endPos := h
  exact hone.tail

theorem endPos_eq (h : Span message octets pos endPos) : endPos = pos + octets.length := by
  obtain ⟨-, -, h⟩ := h
  exact h

theorem pos_nonneg (h : Span message octets pos endPos) : 0 ≤ pos := by
  obtain ⟨behind, hl, -⟩ := h
  exact hl.pos_nonneg

theorem left (h : Span message octets pos endPos) :
    ∃ behind, Left message (octets ++ behind) pos := by
  obtain ⟨behind, hl, -⟩ := h
  exact ⟨behind, hl⟩

theorem read (h : Span message (b :: rest) pos endPos) :
    (ofList message).read pos = .ok b := by
  obtain ⟨behind, hl⟩ := h.left
  exact hl.read

theorem readOctets (h : Span message octets pos endPos) :
    (ofList message).readOctets pos octets.length = .ok octets := by
  obtain ⟨behind, hl⟩ := h.left
  exact hl.readOctets

/-- Positions in a message that is not too long do not wrap around. -/
theorem i32_end (h : Span message octets pos endPos) (hsmall : endPos < 2147483648) :
    i32 (pos + octets.length) = endPos := by
  have hpos := h.pos_nonneg
  have hend := h.endPos_eq
  rw [← hend]
  exact i32_of_range (by omega) hsmall

end Span

end Machine.Memory

namespace Iec61850

open Machine BerEncoder

/-- The part of the buffer holds these octets. -/
def Region.Holds (region : Region) (buffer : Memory) (octets : List UInt8) : Prop :=
  region.size = octets.length ∧ (region.memory buffer).readOctets 0 octets.length = .ok octets

namespace BerDecoder

variable {σ : Type} {message octets content rest : List UInt8} {pos endPos : Int} {tag : UInt8}

theorem readOctets_memory (buffer : Memory) (start size offset : Int) (n : Nat) :
    (Region.memory ⟨start, size⟩ buffer).readOctets offset n =
      buffer.readOctets (start + offset) n := by
  induction n generalizing offset with
  | zero => rfl
  | succ n ih =>
    rw [Memory.readOctets, Memory.readOctets, ih, ← Int.add_assoc]
    rfl

theorem holds_of_span (h : Memory.Span message octets pos endPos) :
    Region.Holds ⟨pos, octets.length⟩ (.ofList message) octets := by
  refine ⟨rfl, ?_⟩
  rw [readOctets_memory, Int.add_zero]
  exact h.readOctets

theorem decodeUint32_span (h : Memory.Span message octets pos endPos) :
    decodeUint32 (.ofList message) octets.length pos = .ok (uint32OfOctets octets) := by
  rw [decodeUint32, Int.toNat_natCast, h.readOctets]
  rfl

theorem skip_span {state : σ} (h : Memory.Span message octets pos endPos)
    (hsmall : endPos < 2147483648) :
    skip octets.length pos state = .ok (some endPos, state) := by
  rw [skip, h.i32_end hsmall]
  rfl

/-- Two octets hold the length modulo 65536. -/
theorem lengthOctets_mod (n : Nat) : Tlv.LengthOctets (n % 65536) (encodeLength n) := by
  rcases Nat.lt_or_ge n 65536 with hn | hn
  · rw [Nat.mod_eq_of_lt hn]
    exact MmsServer.lengthOctets_encodeLength hn
  · have hthree := Tlv.LengthOctets.three (n := n % 65536) (Nat.mod_lt _ (by decide))
    have hhigh : UInt8.ofNat (n % 65536 / 256) = UInt8.ofNat (n / 256) := by
      apply UInt8.toNat_inj.mp
      rw [UInt8.toNat_ofNat', UInt8.toNat_ofNat']
      omega
    have hlow : n % 65536 % 256 = n % 256 := by omega
    rw [hhigh, hlow] at hthree
    rw [encodeLength, if_neg (by omega), if_neg (by omega)]
    exact hthree

/-- Whatever length is encoded, the octets behind it are found. -/
theorem decodeLength_header (length : Int) {n : Nat} {maxBufPos : Int}
    (h : Memory.Span message (encodeTL tag n ++ rest) pos endPos) (hle : endPos ≤ maxBufPos) :
    ∃ p, Memory.Span message rest p endPos ∧
      decodeLength (.ofList message) length (pos + 1) maxBufPos = .ok (p, (n % 65536 : Nat)) := by
  have hafter : Memory.Span message (encodeLength n ++ rest) (pos + 1) endPos := h.next
  obtain ⟨behind, hl⟩ := hafter.left
  rw [List.append_assoc] at hl
  have hend := hafter.endPos_eq
  rw [List.length_append, Nat.cast_add] at hend
  have hn := Nat.mod_lt n (show 0 < 65536 by decide)
  exact ⟨_, hafter.tail, decodeLength_left (lengthOctets_mod n) (by omega) hl (by omega)⟩

/-- The length of an element that stands in a part of the message. -/
theorem decodeLength_span (length : Int) {maxBufPos : Int}
    (h : Memory.Span message (encodeTL tag content.length ++ (content ++ rest)) pos endPos)
    (hn : content.length < 65536) (hle : endPos ≤ maxBufPos) :
    ∃ p p', Memory.Span message content p p' ∧ Memory.Span message rest p' endPos ∧
      decodeLength (.ofList message) length (pos + 1) maxBufPos = .ok (p, content.length) := by
  obtain ⟨behind, hl⟩ := h.left
  rw [List.append_assoc] at hl
  have hend := h.endPos_eq
  rw [List.length_append, Nat.cast_add] at hend
  exact ⟨_, _, h.tail.head, h.tail.tail, decodeLength_encodeTL hn hl (by omega)⟩

/-- The length of the last element. -/
theorem decodeLength_last (length : Int) {maxBufPos : Int}
    (h : Memory.Span message (encodeTL tag content.length ++ content) pos endPos)
    (hn : content.length < 65536) (hle : endPos ≤ maxBufPos) :
    ∃ p, Memory.Span message content p endPos ∧
      decodeLength (.ofList message) length (pos + 1) maxBufPos = .ok (p, content.length) := by
  have hone : Memory.Span message (encodeTL tag content.length ++ (content ++ [])) pos endPos := by
    rwa [List.append_nil]
  obtain ⟨p, p', hc, hdone, heq⟩ := decodeLength_span length hone hn hle
  have hend := hdone.endPos_eq
  rw [List.length_nil, Nat.cast_zero, Int.add_zero] at hend
  exact ⟨p, hend ▸ hc, heq⟩

/-- The tag of a message that is one element, whatever length is encoded. -/
theorem decodeLength_outermost (length : Int) (tag : UInt8) (n : Nat) :
    ∃ p, Memory.Span (encodeTL tag n ++ content) content p (encodeTL tag n ++ content).length ∧
      (Memory.ofList (encodeTL tag n ++ content)).read 0 = .ok tag ∧
      decodeLength (.ofList (encodeTL tag n ++ content)) length 1
        (encodeTL tag n ++ content).length = .ok (p, (n % 65536 : Nat)) := by
  have hall := Memory.Span.all (encodeTL tag n ++ content)
  obtain ⟨p, hc, heq⟩ := decodeLength_header length hall (Int.le_refl _)
  rw [Int.zero_add] at heq
  exact ⟨p, hc, hall.read, heq⟩

/-- The tag and the length of a message that is one element. -/
theorem decodeLength_message (length : Int) (tag : UInt8) (hn : content.length < 65536) :
    ∃ p, Memory.Span (encodeTL tag content.length ++ content) content p
        (encodeTL tag content.length ++ content).length ∧
      (Memory.ofList (encodeTL tag content.length ++ content)).read 0 = .ok tag ∧
      decodeLength (.ofList (encodeTL tag content.length ++ content)) length 1
        (encodeTL tag content.length ++ content).length = .ok (p, content.length) := by
  have h := @decodeLength_outermost content length tag content.length
  rwa [Nat.mod_eq_of_lt hn] at h

variable (uninitialised : Int) (checked : Bool) (field : ElementParser σ) (state : σ)

/-- One turn of the loop, for an element that the parser goes behind. -/
theorem parseElements_turn (Q : σ → Prop)
    (h : Memory.Span message (encodeTL tag content.length ++ (content ++ rest)) pos endPos)
    (hn : content.length < 65536)
    (hfield : ∀ p p', Memory.Span message content p p' → p' ≤ endPos →
      ∃ state', field tag content.length p state = .ok (some p', state') ∧ Q state') :
    ∃ p' state', Memory.Span message rest p' endPos ∧ Q state' ∧ ∀ fuel,
      parseElements (.ofList message) uninitialised endPos checked field (fuel + 1) pos state =
        parseElements (.ofList message) uninitialised endPos checked field fuel p' state' := by
  obtain ⟨behind, hl⟩ := h.left
  rw [List.append_assoc] at hl
  have hend := h.endPos_eq
  rw [List.length_append, List.length_append, Nat.cast_add, Nat.cast_add] at hend
  obtain ⟨state', heq, hq⟩ := hfield _ _ h.tail.head (by omega)
  refine ⟨_, state', h.tail.tail, hq, fun fuel => ?_⟩
  rw [parseElements_encodeTL hn hl (by omega), heq]
  rfl

/-- One turn for an element whose length is not what the parser goes by. -/
theorem parseElements_header (Q : Int → σ → Prop) {n : Nat}
    (h : Memory.Span message (encodeTL tag n ++ rest) pos endPos)
    (hfield : ∀ p, Memory.Span message rest p endPos →
      ∃ p' state', field tag (n % 65536 : Nat) p state = .ok (some p', state') ∧ Q p' state') :
    ∃ p' state', Q p' state' ∧ ∀ fuel,
      parseElements (.ofList message) uninitialised endPos checked field (fuel + 1) pos state =
        parseElements (.ofList message) uninitialised endPos checked field fuel p' state' := by
  have htag : (Memory.ofList message).read pos = .ok tag := h.read
  have hend := h.endPos_eq
  rw [List.length_append, Nat.cast_add] at hend
  have hsome : 0 < (encodeTL tag n).length := Nat.succ_pos _
  obtain ⟨p, hspan, hdecode⟩ := decodeLength_header uninitialised h (Int.le_refl endPos)
  have hp := hspan.pos_nonneg
  obtain ⟨p', state', heq, hq⟩ := hfield p hspan
  refine ⟨p', state', hq, fun fuel => ?_⟩
  have hone : parseElement (.ofList message) uninitialised endPos checked field pos state =
      .ok (some p', state') := by
    rw [parseElement, htag, ok_bind, hdecode, ok_bind]
    dsimp only
    rw [if_neg (fun hneg => absurd hneg.2 (not_lt.mpr hp)), heq]
  rw [parseElements, if_neg (by omega), hone]
  rfl

/-- One turn for an element that the parser only goes behind. -/
theorem parseElements_skip
    (h : Memory.Span message (encodeTL tag content.length ++ (content ++ rest)) pos endPos)
    (hn : content.length < 65536) (hsmall : endPos < 2147483648)
    (hfield : ∀ p, field tag content.length p state = skip content.length p state) :
    ∃ p', Memory.Span message rest p' endPos ∧ ∀ fuel,
      parseElements (.ofList message) uninitialised endPos checked field (fuel + 1) pos state =
        parseElements (.ofList message) uninitialised endPos checked field fuel p' state := by
  obtain ⟨p', state', hs, hstate, heq⟩ := parseElements_turn uninitialised checked field state
    (· = state) h hn
    fun p p' hc hle => ⟨state, (hfield p).trans (skip_span hc (hle.trans_lt hsmall)), rfl⟩
  rw [hstate] at heq
  exact ⟨p', hs, heq⟩

/-- An element, by its tag and its content. -/
def encodeElement (element : UInt8 × List UInt8) : List UInt8 :=
  encodeTL element.1 element.2.length ++ element.2

/-- As many turns as there are elements that the parser only goes behind. -/
theorem parseElements_skips (elements : List (UInt8 × List UInt8))
    (h : Memory.Span message (elements.flatMap encodeElement ++ rest) pos endPos)
    (hsmall : endPos < 2147483648)
    (hn : ∀ element ∈ elements, element.2.length < 65536)
    (hfield : ∀ element ∈ elements, ∀ len p, field element.1 len p state = skip len p state) :
    ∃ p', Memory.Span message rest p' endPos ∧ ∀ fuel,
      parseElements (.ofList message) uninitialised endPos checked field (fuel + elements.length)
        pos state =
        parseElements (.ofList message) uninitialised endPos checked field fuel p' state := by
  induction elements generalizing pos with
  | nil => exact ⟨pos, h, fun fuel => rfl⟩
  | cons element elements ih =>
    rw [List.flatMap_cons, encodeElement, List.append_assoc, List.append_assoc] at h
    obtain ⟨p, hrest, hturn⟩ := parseElements_skip uninitialised checked field state h
      (hn element List.mem_cons_self) hsmall
      fun p => hfield element List.mem_cons_self _ p
    obtain ⟨p', hspan, hturns⟩ := ih hrest
      (fun element hmem => hn element (List.mem_cons_of_mem _ hmem))
      fun element hmem => hfield element (List.mem_cons_of_mem _ hmem)
    exact ⟨p', hspan, fun fuel => (hturn (fuel + elements.length)).trans (hturns fuel)⟩

/-- The last turn. -/
theorem parseElements_last (Q : σ → Prop)
    (h : Memory.Span message (encodeTL tag content.length ++ content) pos endPos)
    (hn : content.length < 65536)
    (hfield : ∀ p, Memory.Span message content p endPos →
      ∃ state', field tag content.length p state = .ok (some endPos, state') ∧ Q state') :
    ∃ state', Q state' ∧ ∀ fuel,
      parseElements (.ofList message) uninitialised endPos checked field (fuel + 2) pos state =
        .ok (some endPos, state') := by
  have hone : Memory.Span message (encodeTL tag content.length ++ (content ++ [])) pos endPos := by
    rwa [List.append_nil]
  obtain ⟨behind, hl⟩ := hone.left
  rw [List.append_assoc] at hl
  have hend := hone.tail.tail.endPos_eq
  rw [List.length_nil, Nat.cast_zero, Int.add_zero] at hend
  have hc := hone.tail.head
  rw [← hend] at hc
  obtain ⟨state', heq, hq⟩ := hfield _ hc
  refine ⟨state', hq, fun fuel => ?_⟩
  have hle : pos + ((encodeTL tag content.length).length : Int) ≤ endPos := by omega
  rw [parseElements_encodeTL hn hl hle, heq]
  exact parseElements_end (Int.le_refl endPos)

end BerDecoder

end Iec61850
