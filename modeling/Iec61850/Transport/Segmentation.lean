import Iec61850.Transport.Cotp

/-! What is sent over a transport connection arrives, when its TPDUs have room for an octet. -/

namespace Iec61850.Transport

open Machine

/-- `dataTpdu` as a whole message. -/
def wholeTpdu (isLastUnit : Bool) (octets : List UInt8) : List UInt8 :=
  CotpConnection.dataTpdu isLastUnit (7 + octets.length) octets

/-- The TPDUs cut a message into pieces of a size, and mark the last one. -/
inductive Segments (size : Nat) : List UInt8 → List (List UInt8) → Prop
  | last {octets : List UInt8} : octets.length ≤ size →
    Segments size octets [wholeTpdu true octets]
  | more {octets rest : List UInt8} {tpdus : List (List UInt8)} : octets.length = size →
    Segments size rest tpdus → Segments size (octets ++ rest) (wholeTpdu false octets :: tpdus)

/-- The length of a TPDU, without the header around it. -/
def tpduLength (tpdu : List UInt8) : Nat := tpdu.length - 4

def isLastTpdu (tpdu : List UInt8) : Bool := tpdu.getD 6 0 &&& 0x80 ≠ 0

/-- Only the last TPDU is marked as the last. -/
def MarksLast (tpdus : List (List UInt8)) : Prop :=
  ∃ first last, tpdus = first ++ [last] ∧ isLastTpdu last = true ∧
    ∀ tpdu ∈ first, isLastTpdu tpdu = false

/-- One connection sends a payload in TPDUs of its size, and the other one gets it. -/
def Transmits (wideShift : UInt8 → Int) (sender receiver : CotpConnection)
    (payload : BufferChain) : Prop :=
  ∃ tpdus, sender.sendDataMessage (fun _ => true) payload = .ok (.ok, tpdus) ∧
    (∀ tpdu ∈ tpdus, tpduLength tpdu ≤ sender.getTpduSize) ∧ MarksLast tpdus ∧
    ∃ receiver', receiver.parseIncomingMessage wideShift tpdus.flatten =
        .ok (.dataIndication, receiver', []) ∧ receiver'.payload.octets = payload.octets

namespace Segments

variable {size : Nat} {octets : List UInt8} {tpdus : List (List UInt8)}

theorem length_wholeTpdu (isLastUnit : Bool) (octets : List UInt8) :
    (wholeTpdu isLastUnit octets).length = octets.length + 7 := by
  simp [wholeTpdu, CotpConnection.dataTpdu, CotpConnection.rfc1006Header,
    CotpConnection.dataTpduHeader]

theorem isLastTpdu_wholeTpdu (isLastUnit : Bool) (octets : List UInt8) :
    isLastTpdu (wholeTpdu isLastUnit octets) = isLastUnit := by
  change decide ((if isLastUnit then (0x80 : UInt8) else 0) &&& 0x80 ≠ 0) = isLastUnit
  cases isLastUnit with
  | false => rfl
  | true => rfl

theorem tpduLength_le (h : Segments size octets tpdus) :
    ∀ tpdu ∈ tpdus, tpduLength tpdu ≤ size + 3 := by
  induction h with
  | last h =>
    intro tpdu htpdu
    rw [List.mem_singleton.mp htpdu, tpduLength, length_wholeTpdu]
    omega
  | more h hs ih =>
    intro tpdu htpdu
    rcases List.mem_cons.mp htpdu with rfl | htpdu
    · rw [tpduLength, length_wholeTpdu]
      omega
    · exact ih tpdu htpdu

theorem length_le_flatten (h : Segments size octets tpdus) :
    tpdus.length ≤ tpdus.flatten.length := by
  induction h with
  | last h =>
    rw [List.flatten_singleton, length_wholeTpdu]
    exact Nat.le_add_left 1 _
  | more h hs ih =>
    rw [List.flatten_cons, List.length_append, length_wholeTpdu, List.length_cons]
    omega

theorem marksLast (h : Segments size octets tpdus) : MarksLast tpdus := by
  induction h with
  | @last octets h =>
    refine ⟨[], _, rfl, isLastTpdu_wholeTpdu true octets, ?_⟩
    intro tpdu htpdu
    cases htpdu
  | @more octets rest tpdus h hs ih =>
    obtain ⟨first, last, rfl, hlast, hfirst⟩ := ih
    refine ⟨wholeTpdu false octets :: first, last, rfl, hlast, ?_⟩
    intro tpdu htpdu
    rcases List.mem_cons.mp htpdu with rfl | htpdu
    · exact isLastTpdu_wholeTpdu false octets
    · exact hfirst tpdu htpdu

end Segments

namespace CotpConnection

/-! The sender. -/

/-- The octets from a position on. -/
def ChainPos.remaining (p : ChainPos) : List UInt8 := p.part.drop p.index ++ p.nextParts.flatten

def ChainPos.Whole (p : ChainPos) : Prop := ∀ part ∈ p.nextParts, part ≠ []

theorem ChainPos.nextPart_ok {p : ChainPos} (hw : p.Whole) (hr : p.remaining ≠ []) :
    ∃ q, p.nextPart = .ok q ∧ q.remaining = p.remaining ∧ q.Whole ∧ q.index < q.part.length := by
  rw [ChainPos.nextPart]
  split
  case isTrue hle =>
    obtain ⟨part, index, nextParts⟩ := p
    cases nextParts with
    | nil =>
      rw [ChainPos.remaining, List.drop_eq_nil_of_le hle] at hr
      exact absurd rfl hr
    | cons next nextParts =>
      refine ⟨_, rfl, ?_, fun q hq => hw q (List.mem_cons_of_mem next hq), ?_⟩
      · rw [ChainPos.remaining, ChainPos.remaining, List.drop_eq_nil_of_le hle]
        rfl
      · exact List.length_pos_of_ne_nil (hw next List.mem_cons_self)
  case isFalse hlt => exact ⟨p, rfl, rfl, hw, Nat.lt_of_not_le hlt⟩

/-- Copying gives the next octets. -/
theorem ChainPos.copyOctets_ok {p : ChainPos} (hw : p.Whole) {n : Nat}
    (hn : n ≤ p.remaining.length) :
    ∃ q, p.copyOctets n = .ok (p.remaining.take n, q) ∧ q.remaining = p.remaining.drop n ∧
      q.Whole := by
  induction n generalizing p with
  | zero => exact ⟨p, rfl, rfl, hw⟩
  | succ n ih =>
    have hne : p.remaining ≠ [] := List.ne_nil_of_length_pos (by omega)
    obtain ⟨q, hq, hremaining, hwq, hlt⟩ := nextPart_ok hw hne
    have hcons : q.remaining = q.part[q.index] ::
        ChainPos.remaining { q with index := q.index + 1 } := by
      rw [ChainPos.remaining, List.drop_eq_getElem_cons hlt]
      rfl
    rw [← hremaining, hcons] at hn ⊢
    obtain ⟨q', hcopy, hdrop, hwq'⟩ := ih (p := { q with index := q.index + 1 }) hwq
      (Nat.le_of_succ_le_succ hn)
    refine ⟨q', ?_, hdrop, hwq'⟩
    rw [ChainPos.copyOctets, hq, ok_bind]
    simp only [List.getElem?_eq_getElem hlt]
    rw [hcopy]
    rfl

/-- One turn of the loop. -/
theorem sendFragments_succ (fragments : Nat) {fragmentPayloadSize length currentBufPos : Int}
    {maxSize : Nat} {p q : ChainPos} {octets : List UInt8}
    (hlimit : (if 0 < fragments then currentBufPos + fragmentPayloadSize else length) =
      currentBufPos + octets.length)
    (hcopy : p.copyOctets octets.length = .ok (octets, q)) (hm : octets.length + 7 ≤ maxSize) :
    sendFragments (fun _ => true) fragmentPayloadSize length maxSize (fragments + 1)
        currentBufPos p = do
      let (indication, tpdus) ← sendFragments (fun _ => true) fragmentPayloadSize length maxSize
        fragments (currentBufPos + octets.length) q
      return (indication, wholeTpdu (fragments = 0) octets :: tpdus) := by
  have hroom : ¬ maxSize < (dataTpdu (fragments = 0) (7 + octets.length) octets).length := by
    rw [← wholeTpdu, Segments.length_wholeTpdu]
    exact not_lt_of_ge hm
  rw [sendFragments, hlimit, add_sub_cancel_left, Int.toNat_natCast, hcopy, ok_bind]
  dsimp only
  rw [if_neg hroom, if_pos rfl]
  rfl

/-- The loop sends the rest of the payload in pieces. -/
theorem sendFragments_ok {size maxSize : Nat} (hm : size + 7 ≤ maxSize) {length : Int}
    {fragments : Nat} {currentBufPos : Int} {p : ChainPos} (hw : p.Whole)
    (hlength : length = currentBufPos + p.remaining.length)
    (hlow : fragments * size < p.remaining.length)
    (hhigh : p.remaining.length ≤ (fragments + 1) * size) :
    ∃ tpdus, sendFragments (fun _ => true) size length maxSize (fragments + 1) currentBufPos p =
        .ok (.ok, tpdus) ∧ Segments size p.remaining tpdus := by
  induction fragments generalizing currentBufPos p with
  | zero =>
    obtain ⟨q, hcopy, -, -⟩ := p.copyOctets_ok hw le_rfl
    rw [List.take_length] at hcopy
    rw [Nat.zero_add, Nat.one_mul] at hhigh
    refine ⟨[wholeTpdu true p.remaining], ?_, .last hhigh⟩
    have hlimit : (if 0 < 0 then currentBufPos + size else length) =
        currentBufPos + p.remaining.length := hlength
    rw [sendFragments_succ 0 hlimit hcopy (hm.trans' (Nat.add_le_add_right hhigh 7))]
    rfl
  | succ fragments ih =>
    have hsize : size ≤ p.remaining.length := by
      rw [Nat.succ_mul] at hlow
      omega
    obtain ⟨q, hcopy, hdrop, hwq⟩ := p.copyOctets_ok hw hsize
    have htake : (p.remaining.take size).length = size := List.length_take_of_le hsize
    have hq : q.remaining.length = p.remaining.length - size := by
      rw [hdrop, List.length_drop]
    rw [Nat.succ_mul] at hlow hhigh
    have hnext : length = currentBufPos + size + q.remaining.length := by omega
    obtain ⟨tpdus, hsend, hsegments⟩ := ih hwq hnext (by omega) (by omega)
    refine ⟨wholeTpdu false (p.remaining.take size) :: tpdus, ?_, ?_⟩
    · have hlimit : (if 0 < fragments + 1 then currentBufPos + size else length) =
          currentBufPos + (p.remaining.take size).length := by
        rw [if_pos (Nat.succ_pos fragments), htake]
      have hcopy' : p.copyOctets (p.remaining.take size).length = .ok (p.remaining.take size, q) := by
        rw [htake, hcopy]
      rw [sendFragments_succ (fragments + 1) hlimit hcopy' (by rw [htake]; exact hm), htake, hsend]
      rfl
    · have hmore := Segments.more htake hsegments
      rwa [hdrop, List.take_append_drop] at hmore

/-! The receiver. -/

theorem value_length {n : Nat} (h : n < 65536) :
    Octets.value [UInt8.ofInt ((n : Int).tdiv 256), UInt8.ofInt ((n : Int) % 256)] = n := by
  have hoctet (k : Nat) : (UInt8.ofInt (k : Int)).toNat = k % 256 := by
    simp [UInt8.ofInt]
    omega
  have hhigh : (n : Int).tdiv 256 = (n / 256 : Nat) := by
    rw [Int.tdiv_eq_ediv_of_nonneg (Int.natCast_nonneg n)]
    rfl
  have hlow : (n : Int) % 256 = (n % 256 : Nat) := rfl
  rw [hhigh, hlow, Octets.value_cons, Octets.value_singleton, hoctet, hoctet,
    List.length_singleton]
  omega

/-- The octets of one TPDU are put behind the others. -/
def received (self : CotpConnection) (isLastUnit : Bool) (octets : List UInt8)
    (h : self.payload.octets.length + octets.length ≤ self.payload.maxSize) : CotpConnection :=
  { self with
    isLastDataUnit := isLastUnit
    payload :=
      { self.payload with
        octets := self.payload.octets ++ octets
        size_le := by
          rw [List.length_append]
          exact h } }

theorem parseTpdus_wholeTpdu (wideShift : UInt8 → Int) (fuel : Nat) (self : CotpConnection)
    (isLastUnit : Bool) {octets : List UInt8} (hsize : octets.length + 7 < 65536) (rest : Stream) :
    self.parseTpdus wideShift (fuel + 1) (wholeTpdu isLastUnit octets ++ rest) =
      if h : self.payload.octets.length + octets.length ≤ self.payload.maxSize then
        if isLastUnit then .ok (.dataIndication, self.received isLastUnit octets h, rest)
        else do
          let (indication, self, rest) ←
            (self.received isLastUnit octets h).parseTpdus wideShift fuel rest
          return (if indication = .dataIndication then .dataIndication else .error, self, rest)
      else .ok (.error, { self with isLastDataUnit := isLastUnit }, octets ++ rest) := by
  have hvalue := value_length hsize
  have hflag : decide ((if isLastUnit then (0x80 : UInt8) else 0) &&& 0x80 ≠ 0) = isLastUnit := by
    cases isLastUnit with
    | false => rfl
    | true => rfl
  have hlen : (7 + octets.length : Int) = (octets.length + 7 : Nat) := by omega
  rw [wholeTpdu, dataTpdu, rfc1006Header, dataTpduHeader, hlen]
  simp only [List.cons_append, List.nil_append]
  rw [parseTpdus, if_neg (by decide), if_neg (by decide), if_pos rfl, parseDataTpdu, if_pos rfl,
    hflag, hvalue]
  dsimp only
  rw [addPayloadToBuffer, if_neg (by omega)]
  simp only [Nat.add_sub_cancel]
  split
  case isTrue h =>
    rw [dif_neg (by rw [List.length_append]; omega)]
    simp only [List.take_left', List.drop_left']
    cases isLastUnit with
    | true => rfl
    | false =>
      simp only [received, Bool.false_eq_true, if_false]
      generalize parseTpdus wideShift fuel _ rest = next
      cases next with
      | error e => rfl
      | ok r =>
        obtain ⟨indication, self', rest'⟩ := r
        cases indication with
        | dataIndication => rfl
        | _ => rfl
  case isFalse h => rfl

/-- The TPDUs of a message are put together, as long as there is room for it. -/
theorem parseTpdus_segments (wideShift : UInt8 → Int) {size : Nat} (hsize : size + 7 < 65536)
    {octets : List UInt8} {tpdus : List (List UInt8)} (hs : Segments size octets tpdus)
    (self : CotpConnection) {fuel : Nat} (hf : tpdus.length ≤ fuel) :
    (self.payload.octets.length + octets.length ≤ self.payload.maxSize →
      ∃ self', self.parseTpdus wideShift fuel tpdus.flatten = .ok (.dataIndication, self', []) ∧
        self'.payload.octets = self.payload.octets ++ octets) ∧
    (self.payload.maxSize < self.payload.octets.length + octets.length →
      ∃ self' rest, self.parseTpdus wideShift fuel tpdus.flatten = .ok (.error, self', rest)) := by
  induction hs generalizing self fuel with
  | @last octets hle =>
    cases fuel with
    | zero => cases hf
    | succ fuel =>
      have hroom : octets.length + 7 < 65536 := by omega
      have hparse := parseTpdus_wholeTpdu wideShift fuel self true hroom []
      rw [List.append_nil] at hparse
      rw [List.flatten_singleton, hparse]
      constructor
      · intro h
        exact ⟨_, dif_pos h, rfl⟩
      · intro h
        exact ⟨_, _, dif_neg (Nat.not_le_of_gt h)⟩
  | @more octets rest tpdus hlen hs ih =>
    cases fuel with
    | zero => cases hf
    | succ fuel =>
      have hroom : octets.length + 7 < 65536 := by omega
      have hparse := parseTpdus_wholeTpdu wideShift fuel self false hroom tpdus.flatten
      rw [List.flatten_cons, hparse, List.length_append]
      constructor
      · intro h
        have hroom : self.payload.octets.length + octets.length ≤ self.payload.maxSize := by omega
        have hreceived : (self.received false octets hroom).payload.octets.length + rest.length ≤
            self.payload.maxSize := by
          rw [received, List.length_append]
          omega
        obtain ⟨self', hself, hpayload⟩ := (ih (self.received false octets hroom)
          (Nat.le_of_succ_le_succ hf)).1 hreceived
        refine ⟨self', ?_, ?_⟩
        · rw [dif_pos hroom, if_neg Bool.false_ne_true, hself]
          rfl
        · rw [hpayload, received, List.append_assoc]
      · intro h
        by_cases hroom : self.payload.octets.length + octets.length ≤ self.payload.maxSize
        · have hreceived : self.payload.maxSize <
              (self.received false octets hroom).payload.octets.length + rest.length := by
            rw [received, List.length_append]
            omega
          obtain ⟨self', rest', hself⟩ := (ih (self.received false octets hroom)
            (Nat.le_of_succ_le_succ hf)).2 hreceived
          refine ⟨self', rest', ?_⟩
          rw [dif_pos hroom, if_neg Bool.false_ne_true, hself]
          rfl
        · exact ⟨_, _, dif_neg hroom⟩

/-! The sizes there can be. -/

theorem setTpduSizeLoop_spec {tpduSize : Int} (h : tpduSize ≤ maxTpduSize) {fuel newTpduSize : Nat}
    (hf : newTpduSize + fuel = 14) :
    setTpduSizeLoop tpduSize fuel newTpduSize ≤ 14 ∧
      ¬ 2 ^ setTpduSizeLoop tpduSize fuel newTpduSize < tpduSize := by
  induction fuel generalizing newTpduSize with
  | zero =>
    rw [maxTpduSize] at h
    rw [setTpduSizeLoop, show newTpduSize = 14 from hf]
    exact ⟨le_rfl, by omega⟩
  | succ fuel ih =>
    rw [setTpduSizeLoop]
    split
    case isTrue => exact ih (by omega)
    case isFalse hlt => exact ⟨by omega, hlt⟩

theorem setTpduSize_le (self : CotpConnection) (tpduSize : Int) :
    (self.setTpduSize tpduSize).tpduSize ≤ 13 := by
  have hmax : (if maxTpduSize < tpduSize then maxTpduSize else tpduSize) ≤ maxTpduSize := by
    split
    case isTrue => exact le_rfl
    case isFalse h => exact le_of_not_gt h
  obtain ⟨hle, -⟩ := setTpduSizeLoop_spec hmax (show 1 + 13 = 14 from rfl)
  rw [setTpduSize]
  dsimp only
  generalize (if maxTpduSize < tpduSize then maxTpduSize else tpduSize) = size at hmax hle
  split
  case isTrue => exact Nat.sub_le_sub_right hle 1
  case isFalse h =>
    apply Nat.le_of_lt_succ
    apply lt_of_le_of_ne hle
    intro heq
    rw [heq] at h
    rw [maxTpduSize] at hmax
    omega

/-- Nothing has been sent yet. -/
structure Fresh (c : CotpConnection) : Prop where
  tpduSize : c.tpduSize ≤ 13
  writeBuffer : c.writeBuffer = none

theorem Fresh.of_eq {c d : CotpConnection} (h : c.Fresh) (hs : d.tpduSize = c.tpduSize)
    (hw : d.writeBuffer = c.writeBuffer) : d.Fresh := ⟨hs ▸ h.tpduSize, hw ▸ h.writeBuffer⟩

theorem Fresh.setTpduSize {self : CotpConnection} (h : self.Fresh) (tpduSize : Int) :
    (self.setTpduSize tpduSize).Fresh := ⟨setTpduSize_le self tpduSize, h.writeBuffer⟩

theorem Fresh.parseOptions {self : CotpConnection} (h : self.Fresh) (wideShift : UInt8 → Int)
    (optLen : Int) (fuel : Nat) (readBytes : Int) (s : Stream) :
    (parseOptions wideShift optLen fuel readBytes self s).2.1.Fresh := by
  induction fuel generalizing self readBytes s with
  | zero => exact h
  | succ fuel ih =>
    unfold CotpConnection.parseOptions
    split
    case isFalse => exact h
    case isTrue =>
      split
      · exact ih (h.setTpduSize _) _ _
      · apply ih
        exact h.of_eq rfl rfl
      · apply ih
        exact h.of_eq rfl rfl
      · exact ih h _ _
      · exact h
      · exact h
      · exact h
      · exact h
      · split
        · exact h
        · exact ih h _ _
      · exact h

theorem Fresh.parseConnectRequestTpdu {self : CotpConnection} (h : self.Fresh)
    (wideShift : UInt8 → Int) (len : UInt8) (s : Stream) :
    (self.parseConnectRequestTpdu wideShift len s).2.1.Fresh := by
  unfold CotpConnection.parseConnectRequestTpdu
  split
  · apply Fresh.parseOptions
    exact h.of_eq rfl rfl
  · exact h

theorem Fresh.parseConnectConfirmTpdu {self : CotpConnection} (h : self.Fresh)
    (wideShift : UInt8 → Int) (len : UInt8) (s : Stream) :
    (self.parseConnectConfirmTpdu wideShift len s).2.1.Fresh := by
  unfold CotpConnection.parseConnectConfirmTpdu
  split
  · apply Fresh.parseOptions
    exact h.of_eq rfl rfl
  · exact h

theorem Fresh.parseDataTpdu {self self' : CotpConnection} (h : self.Fresh) {len : UInt8}
    {s s' : Stream} {parsed : Bool} (hp : self.parseDataTpdu len s = (parsed, self', s')) :
    self'.Fresh := by
  unfold CotpConnection.parseDataTpdu at hp
  split at hp
  · split at hp
    · cases hp
      exact h.of_eq rfl rfl
    · cases hp
      exact h
  · cases hp
    exact h

theorem Fresh.addPayloadToBuffer {self : CotpConnection} (h : self.Fresh)
    {parse : CotpConnection → Stream → Exec (CotpIndication × CotpConnection × Stream)}
    (hparse : ∀ self s r, parse self s = .ok r → self.Fresh → r.2.1.Fresh)
    {rfc1006Length : Nat} {s : Stream} {r : Bool × CotpConnection × Stream}
    (hr : self.addPayloadToBuffer parse rfc1006Length s = .ok r) : r.2.1.Fresh := by
  unfold CotpConnection.addPayloadToBuffer at hr
  split at hr
  · cases hr
  · split at hr
    · split at hr
      · cases hr
        exact h
      · dsimp only at hr
        split at hr
        · cases hr
          exact h.of_eq rfl rfl
        · obtain ⟨next, hnext, hr⟩ := bind_ok hr
          cases hr
          exact hparse _ _ _ hnext (h.of_eq rfl rfl)
    · cases hr
      exact h

/-- Parsing keeps the size of TPDUs small. -/
theorem Fresh.parseTpdus {self : CotpConnection} (h : self.Fresh) {wideShift : UInt8 → Int}
    {fuel : Nat} {s : Stream} {r : CotpIndication × CotpConnection × Stream}
    (hr : self.parseTpdus wideShift fuel s = .ok r) : r.2.1.Fresh := by
  induction fuel generalizing self s r with
  | zero => cases hr
  | succ fuel ih =>
    unfold CotpConnection.parseTpdus at hr
    split at hr
    · cases hr
    · split at hr
      · cases hr
        exact h.parseConnectRequestTpdu wideShift _ _
      · split at hr
        · cases hr
          apply Fresh.parseConnectConfirmTpdu
          exact h.of_eq rfl rfl
        · split at hr
          · split at hr
            · rename_i hdata
              obtain ⟨added, hadded, hr⟩ := bind_ok hr
              cases hr
              refine (h.parseDataTpdu hdata).addPayloadToBuffer ?_ hadded
              intro self s r hr h
              obtain rfl := Nat.succ.inj ‹fuel + 1 = Nat.succ _›
              exact ih h hr
            · rename_i hdata
              cases hr
              exact h.parseDataTpdu hdata
          · cases hr
            exact h
    · cases hr
      exact h

/-- A connection that is told a size by a connection request. -/
theorem fresh_of_request {wideShift : UInt8 → Int} {payloadBuffer : ByteBuffer} {request : Stream}
    {indication : CotpIndication} {self : CotpConnection} {rest : Stream}
    (h : (init payloadBuffer).parseIncomingMessage wideShift request =
      .ok (indication, self, rest)) : self.Fresh := by
  have hinit : (init payloadBuffer).Fresh := ⟨setTpduSize_le _ _, rfl⟩
  refine Fresh.parseTpdus ?_ h
  exact hinit.of_eq rfl rfl

/-- The number of fragments covers the payload, and no fragment is empty. -/
theorem fragments_spec {length size : Nat} (hl : 0 < length) (hs : 0 < size) :
    ∃ n, (fragments length size).toNat = n + 1 ∧ n * size < length ∧ length ≤ (n + 1) * size := by
  have hcast : fragments length size = ((if size < length then
      length / size + (if length % size ≠ 0 then 1 else 0) else 1 : Nat) : Int) := by
    rw [fragments]
    simp only [Nat.cast_lt, ← Int.ofNat_tdiv, ← Int.ofNat_tmod, ne_eq, Nat.cast_eq_zero]
    push_cast
    rfl
  have hdiv := Nat.div_add_mod' length size
  have hmod := Nat.mod_lt length hs
  rw [hcast, Int.toNat_natCast]
  split
  case isFalse hle =>
    refine ⟨0, rfl, ?_, ?_⟩
    · rwa [Nat.zero_mul]
    · rw [Nat.zero_add, Nat.one_mul]
      exact Nat.le_of_not_lt hle
  case isTrue hlt =>
    by_cases hzero : length % size = 0
    · rw [if_neg (not_not.mpr hzero)]
      obtain ⟨n, hn⟩ := Nat.exists_eq_succ_of_ne_zero (Nat.div_pos hlt.le hs).ne'
      rw [hn, Nat.succ_mul] at hdiv
      refine ⟨n, hn, by omega, ?_⟩
      rw [Nat.succ_mul]
      omega
    · rw [if_pos hzero]
      refine ⟨length / size, rfl, by omega, ?_⟩
      rw [Nat.succ_mul]
      omega

/-- What there is room for is sent in pieces. -/
theorem sendDataMessage_ok {self : CotpConnection} (hf : self.Fresh) (hs : 4 ≤ self.getTpduSize)
    (payload : Payload) :
    ∃ tpdus, self.allocateWriteBuffer.sendDataMessage (fun _ => true) payload.toBufferChain =
        .ok (.ok, tpdus) ∧ Segments (self.getTpduSize - 3) payload.octets tpdus := by
  have hne : 0 < payload.octets.length := by
    rw [BufferChain.octets, List.length_append]
    exact Nat.add_pos_left (List.length_pos_of_ne_nil payload.part_ne_nil) _
  obtain ⟨n, hn, hlow, hhigh⟩ := fragments_spec hne (Nat.sub_pos_of_lt hs)
  have hroom : self.getTpduSize - 3 + 7 ≤ self.getTpduSize + 4 := by omega
  have hw : ChainPos.Whole ⟨payload.part, 0, payload.nextParts⟩ := payload.nextParts_ne_nil
  obtain ⟨tpdus, hsend, hsegments⟩ :=
    sendFragments_ok hroom hw (Int.zero_add _).symm hlow hhigh
  refine ⟨tpdus, ?_, hsegments⟩
  have hsize : ((self.getTpduSize : Int) - 3) = (self.getTpduSize - 3 : Nat) := by omega
  rw [sendDataMessage, allocateWriteBuffer, hf.writeBuffer]
  change sendFragments _ (self.getTpduSize - 3) payload.length (self.getTpduSize + 4)
    (fragments payload.length (self.getTpduSize - 3)).toNat 0 _ = _
  rw [hsize, payload.length_eq, hn]
  exact hsend

/-- Whatever is sent has the headers. -/
theorem length_of_sendFragments {written : List UInt8 → Bool} {fragmentPayloadSize length : Int}
    {maxSize fragments : Nat} {currentBufPos : Int} {p : ChainPos} {indication : CotpIndication}
    {tpdus : List (List UInt8)}
    (h : sendFragments written fragmentPayloadSize length maxSize fragments currentBufPos p =
      .ok (indication, tpdus)) : ∀ tpdu ∈ tpdus, 7 ≤ tpdu.length := by
  induction fragments generalizing currentBufPos p indication tpdus with
  | zero =>
    cases h
    intro tpdu htpdu
    cases htpdu
  | succ fragments ih =>
    rw [sendFragments] at h
    generalize (if 0 < fragments then currentBufPos + fragmentPayloadSize else length) = limit at h
    obtain ⟨⟨octets, q⟩, -, h⟩ := bind_ok h
    dsimp only at h
    split at h
    · cases h
    · split at h
      · obtain ⟨⟨indication', tpdus'⟩, hsend, h⟩ := bind_ok h
        cases h
        intro tpdu htpdu
        rcases List.mem_cons.mp htpdu with rfl | htpdu
        · exact Nat.le_add_left 7 octets.length
        · exact ih hsend tpdu htpdu
      · cases h
        intro tpdu htpdu
        cases htpdu

/-- A size below the one of the header. -/
theorem not_transmits_small {wideShift : UInt8 → Int} {self receiver : CotpConnection}
    (hs : self.getTpduSize < 3) (payload : Payload) :
    ¬ Transmits wideShift self receiver payload.toBufferChain := by
  rintro ⟨tpdus, hsend, hlength, ⟨first, last, rfl, -⟩, -⟩
  have hlast : last ∈ first ++ [last] := List.mem_append_right first (List.mem_singleton.mpr rfl)
  have hle := hlength last hlast
  rw [sendDataMessage] at hsend
  split at hsend
  · cases hsend
  · have hheader := length_of_sendFragments hsend last hlast
    rw [tpduLength] at hle
    omega

theorem getTpduSize_lt_three {self : CotpConnection} (h : self.getTpduSize < 4) :
    self.getTpduSize < 3 := by
  rw [getTpduSize] at h ⊢
  have hlt : self.tpduSize < 2 := (Nat.pow_lt_pow_iff_right (by decide)).mp h
  exact Nat.lt_succ_of_le (Nat.pow_le_pow_right (by decide) (Nat.le_of_lt_succ hlt))

/-- A payload arrives exactly when a TPDU has room for an octet of it, and the receiver for all. -/
theorem transmits_iff {wideShift : UInt8 → Int} {payloadBuffer : ByteBuffer} {request : Stream}
    {self : CotpConnection} {rest : Stream}
    (h : (init payloadBuffer).parseIncomingMessage wideShift request =
      .ok (.connectIndication, self, rest)) (payload : Payload) (receiver : CotpConnection) :
    Transmits wideShift self.allocateWriteBuffer receiver payload.toBufferChain ↔
      4 ≤ self.getTpduSize ∧ payload.octets.length ≤ receiver.payload.maxSize := by
  have hfresh := fresh_of_request h
  rcases Nat.lt_or_ge self.getTpduSize 4 with hs | hs
  · refine iff_of_false (not_transmits_small ?_ payload) fun h => Nat.not_lt_of_ge h.1 hs
    exact getTpduSize_lt_three hs
  · obtain ⟨tpdus, hsend, hsegments⟩ := sendDataMessage_ok hfresh hs payload
    have hmax : self.getTpduSize ≤ 8192 := Nat.pow_le_pow_right (by decide) hfresh.tpduSize
    have hsize : self.getTpduSize - 3 + 7 < 65536 := by omega
    have hfuel : tpdus.length ≤ tpdus.flatten.length + 1 :=
      Nat.le_succ_of_le hsegments.length_le_flatten
    obtain ⟨hroom, hfull⟩ := parseTpdus_segments wideShift hsize hsegments
      { receiver with payload := { receiver.payload with octets := [], size_le := Nat.zero_le _ } }
      hfuel
    constructor
    · rintro ⟨tpdus', hsend', -, -, receiver', hparse, -⟩
      refine ⟨hs, ?_⟩
      cases hsend.symm.trans hsend'
      by_contra hlt
      obtain ⟨self', rest', hself⟩ := hfull (by simpa using hlt)
      cases hparse.symm.trans hself
    · rintro ⟨-, hle⟩
      obtain ⟨receiver', hparse, hpayload⟩ := hroom (by simpa using hle)
      refine ⟨tpdus, hsend, ?_, hsegments.marksLast, receiver', hparse, hpayload⟩
      intro tpdu htpdu
      have hle := hsegments.tpduLength_le tpdu htpdu
      change _ ≤ self.getTpduSize
      omega

/-- A connection request that asks for TPDUs of `1 << size` octets. -/
def requestOf (size : UInt8) : Stream := [3, 0, 0, 14, 9, 0xe0, 0, 0, 0, 2, 0, 0xc0, 1, size]

def emptyBuffer (maxSize : Nat) : ByteBuffer := ⟨[], maxSize, Nat.zero_le maxSize⟩

/-- Three octets in two buffers. -/
def smallPayload : Payload where
  length := 3
  part := [1, 2]
  nextParts := [[3]]
  part_ne_nil := List.cons_ne_nil 1 [2]
  nextParts_ne_nil := List.forall_mem_singleton.mpr (List.cons_ne_nil 3 [])
  length_eq := rfl

/-- After a request for 4 octets every TPDU carries one, and all of them arrive. -/
theorem transmits_four : ∃ self rest,
    (init (emptyBuffer 100)).parseIncomingMessage (fun _ => 0) (requestOf 2) =
        .ok (.connectIndication, self, rest) ∧
      Transmits (fun _ => 0) self.allocateWriteBuffer (init (emptyBuffer 100))
        smallPayload.toBufferChain := by
  obtain ⟨self, rest, h, hs⟩ : ∃ self rest,
      (init (emptyBuffer 100)).parseIncomingMessage (fun _ => 0) (requestOf 2) =
        .ok (.connectIndication, self, rest) ∧ 4 ≤ self.getTpduSize := ⟨_, _, rfl, by decide⟩
  exact ⟨self, rest, h, (transmits_iff h smallPayload _).mpr ⟨hs, by decide⟩⟩

/-- After a request for 2 octets nothing is sent, and that is a success. -/
theorem not_transmits_two : ∃ self rest,
    (init (emptyBuffer 100)).parseIncomingMessage (fun _ => 0) (requestOf 1) =
        .ok (.connectIndication, self, rest) ∧
      self.allocateWriteBuffer.sendDataMessage (fun _ => true) smallPayload.toBufferChain =
        .ok (.ok, []) ∧
      ¬ Transmits (fun _ => 0) self.allocateWriteBuffer (init (emptyBuffer 100))
        smallPayload.toBufferChain :=
  ⟨_, _, rfl, rfl, not_transmits_small (by decide) smallPayload⟩

end CotpConnection

end Iec61850.Transport
