import Iec61850.Lib.Transition
import Iec61850.Transport.Segmentation

/-! The write buffer of a connection, from the first connection request on: what
`handleTcpConnection` receives changes the size of the TPDUs, and the connect responses and the data
messages are put into the buffer that was allocated for the size there was first. -/

namespace Iec61850.Transport

open Machine

namespace CotpConnection

def getOptionsLength (self : CotpConnection) : Nat :=
  (if self.tpduSize ≠ 0 then 3 else 0) + (if self.tsapIdDst ≠ -1 then 4 else 0) +
    (if self.tsapIdSrc ≠ -1 then 4 else 0)

/-- Two octets of a reference or a selector. -/
def reference (value : Int) : List UInt8 :=
  [UInt8.ofInt (value.tdiv 256), UInt8.ofInt (value % 256)]

def writeOptions (self : CotpConnection) : List UInt8 :=
  (if self.tpduSize ≠ 0 then [0xc0, 0x01, UInt8.ofNat self.tpduSize] else []) ++
    (if self.tsapIdDst ≠ -1 then [0xc2, 0x02] ++ reference self.tsapIdDst else []) ++
    (if self.tsapIdSrc ≠ -1 then [0xc1, 0x02] ++ reference self.tsapIdSrc else [])

/-- `writeStaticConnectResponseHeader` -/
def staticConnectResponseHeader (self : CotpConnection) (optionsLength : Nat) : List UInt8 :=
  [UInt8.ofNat (6 + optionsLength), 0xd0] ++ reference self.srcRef ++ reference self.dstRef ++
    [UInt8.ofInt self.protocolClass]

/-- What `CotpConnection_sendConnectionResponseMessage` writes. -/
def connectResponse (self : CotpConnection) : List UInt8 :=
  let optionsLength := self.getOptionsLength
  rfc1006Header (11 + optionsLength : Nat) ++ self.staticConnectResponseHeader optionsLength ++
    self.writeOptions

def sendConnectionResponseMessage (self : CotpConnection) :
    Exec (CotpConnection × List UInt8) :=
  let self := self.allocateWriteBuffer
  match self.writeBuffer with
  | none => .error .nullPointer
  | some maxSize =>
    if maxSize < self.connectResponse.length then .error .outOfBounds
    else .ok (self, self.connectResponse)

end CotpConnection

/-- The transport of `handleTcpConnection`: a connect indication that has not been answered, a data
indication that has been given, after which messages may be sent, and whether an octet has been
written where there is no buffer for it. -/
structure ServerTransport where
  cotp : CotpConnection
  running : Bool
  responding : Bool
  indicated : Bool
  outside : Bool

inductive TransportEvent
  | receive (octets : Stream)
  | respond
  | send (written : List UInt8 → Bool) (payload : Payload)

namespace ServerTransport

open CotpConnection

def start (payloadBuffer : ByteBuffer) : ServerTransport where
  cotp := CotpConnection.init payloadBuffer
  running := true
  responding := false
  indicated := false
  outside := false

/-- `CotpConnection_parseIncomingMessage`, for octets that have nothing outside of the receive
buffer. -/
def receive (wideShift : UInt8 → Int) (s : ServerTransport) (octets : Stream) :
    Option ServerTransport :=
  match s.cotp.parseIncomingMessage wideShift octets with
  | .ok (.connectIndication, cotp, _) => some { s with cotp, responding := true }
  | .ok (.dataIndication, cotp, _) => some { s with cotp, indicated := true }
  | .ok (_, cotp, _) => some { s with cotp, running := false }
  | .error _ => none

def respond (s : ServerTransport) : ServerTransport :=
  match s.cotp.sendConnectionResponseMessage with
  | .ok (cotp, _) => { s with cotp, responding := false }
  | .error _ => { s with outside := true }

/-- A message is sent, in answer to what has been received or by another thread. -/
def send (s : ServerTransport) (written : List UInt8 → Bool) (payload : Payload) :
    ServerTransport :=
  match s.cotp.sendDataMessage written payload.toBufferChain with
  | .ok _ => s
  | .error _ => { s with outside := true }

def next (wideShift : UInt8 → Int) (s : ServerTransport) :
    TransportEvent → Option ServerTransport
  | .receive octets => if s.running ∧ ¬ s.responding then s.receive wideShift octets else none
  | .respond => if s.responding then some s.respond else none
  | .send written payload =>
    if s.running ∧ s.indicated then some (s.send written payload) else none

def Step (wideShift : UInt8 → Int) (s : ServerTransport) (e : TransportEvent)
    (t : ServerTransport) : Prop := s.next wideShift e = some t

end ServerTransport

/-! ## Messages -/

namespace CotpConnection

variable {self : CotpConnection} {written : List UInt8 → Bool} {length currentBufPos : Int}
  {size maxSize n : Nat} {p : ChainPos}

theorem length_connectResponse (self : CotpConnection) :
    self.connectResponse.length = 11 + self.getOptionsLength := by
  unfold connectResponse staticConnectResponseHeader writeOptions getOptionsLength
  dsimp only
  split_ifs <;> rfl

/-- The size of the buffer that there is, or that would be allocated. -/
def room (self : CotpConnection) : Nat := self.writeBuffer.getD (self.getTpduSize + 4)

theorem allocateWriteBuffer_writeBuffer (self : CotpConnection) :
    self.allocateWriteBuffer.writeBuffer = some self.room := by
  rw [allocateWriteBuffer, room]
  cases self.writeBuffer with
  | none => rfl
  | some maxSize => rfl

/-- How many octets of the buffer a message needs: a fragment is cut to the size of the TPDUs, and
what is sent with a size of one octet is a message of one octet. -/
def longestTpdu (tpduSize length : Nat) : Nat :=
  if 4 ≤ tpduSize then 7 + min (tpduSize - 3) length
  else if tpduSize = 1 ∧ length = 1 then 8
  else 0

/-- The last fragment. -/
theorem sendFragments_one_iff {fragmentPayloadSize : Int} (hw : p.Whole)
    (hlength : length = currentBufPos + p.remaining.length) :
    (∃ r, sendFragments written fragmentPayloadSize length maxSize 1 currentBufPos p = .ok r) ↔
      7 + p.remaining.length ≤ maxSize := by
  obtain ⟨q, hcopy, -, -⟩ := p.copyOctets_ok hw le_rfl
  rw [List.take_length] at hcopy
  have hlimit : (length - currentBufPos).toNat = p.remaining.length := by omega
  have hsize : (dataTpdu true (7 + (length - currentBufPos)) p.remaining).length =
      7 + p.remaining.length := by
    rw [dataTpdu, List.length_append]
    rfl
  rw [sendFragments, if_neg (Nat.lt_irrefl 0), hlimit, hcopy, ok_bind]
  simp only [decide_true]
  rw [hsize]
  split
  · refine iff_of_false ?_ (Nat.not_le.mpr ‹_›)
    rintro ⟨r, h⟩
    cases h
  · refine iff_of_true ?_ (Nat.not_lt.mp ‹_›)
    split
    · exact ⟨_, rfl⟩
    · exact ⟨_, rfl⟩

/-- The first of several fragments. -/
theorem sendFragments_more_iff (hw : p.Whole) (hsize : size ≤ p.remaining.length) :
    ∃ q, q.remaining = p.remaining.drop size ∧ q.Whole ∧
      ((∃ r, sendFragments written size length maxSize (n + 2) currentBufPos p = .ok r) ↔
        7 + size ≤ maxSize ∧ (written (wholeTpdu false (p.remaining.take size)) →
          ∃ r, sendFragments written size length maxSize (n + 1) (currentBufPos + size) q =
            .ok r)) := by
  obtain ⟨q, hcopy, hdrop, hwq⟩ := p.copyOctets_ok hw hsize
  have htake : (p.remaining.take size).length = size := List.length_take_of_le hsize
  have hlength : (wholeTpdu false (p.remaining.take size)).length = 7 + size := by
    rw [Segments.length_wholeTpdu, htake, Nat.add_comm]
  have htpdu : dataTpdu false (7 + (currentBufPos + size - currentBufPos))
      (p.remaining.take size) = wholeTpdu false (p.remaining.take size) := by
    rw [wholeTpdu, htake, add_sub_cancel_left]
  refine ⟨q, hdrop, hwq, ?_⟩
  rw [sendFragments, if_pos (Nat.succ_pos n)]
  have hcount : (currentBufPos + size - currentBufPos).toNat = size := by omega
  rw [hcount, hcopy, ok_bind]
  simp only [Nat.add_eq_zero_iff, one_ne_zero, and_false, decide_false, htpdu, hlength, htake]
  constructor
  · rintro ⟨r, h⟩
    split at h
    · cases h
    case isFalse hroom =>
      refine ⟨Nat.not_lt.mp hroom, fun hwritten => ?_⟩
      rw [if_pos hwritten] at h
      obtain ⟨r', hr', -⟩ := bind_ok h
      exact ⟨r', hr'⟩
  · rintro ⟨hroom, hrest⟩
    rw [if_neg (Nat.not_lt.mpr hroom)]
    split
    case isTrue hwritten =>
      obtain ⟨r, hr⟩ := hrest hwritten
      rw [hr]
      exact ⟨_, rfl⟩
    case isFalse => exact ⟨_, rfl⟩

/-- The loop needs as much as its first fragment. -/
theorem sendFragments_iff (hw : p.Whole) (hlength : length = currentBufPos + p.remaining.length)
    (hlow : n * size < p.remaining.length)
    (hhigh : p.remaining.length ≤ (n + 1) * size) :
    (∃ r, sendFragments written size length maxSize (n + 1) currentBufPos p = .ok r) ↔
      7 + min size p.remaining.length ≤ maxSize := by
  induction n generalizing currentBufPos p with
  | zero =>
    rw [Nat.zero_add, Nat.one_mul] at hhigh
    rw [sendFragments_one_iff hw hlength, Nat.min_eq_right hhigh]
  | succ n ih =>
    rw [Nat.succ_mul] at hlow hhigh
    have hsize : size ≤ p.remaining.length := by omega
    obtain ⟨q, hdrop, hwq, hiff⟩ := sendFragments_more_iff hw hsize
    have hq : q.remaining.length = p.remaining.length - size := by
      rw [hdrop, List.length_drop]
    rw [hiff, Nat.min_eq_left hsize]
    refine and_iff_left_of_imp fun hroom _ => ?_
    rw [ih hwq (by omega) (by omega) (by omega)]
    exact (Nat.add_le_add_left (Nat.min_le_left _ _) 7).trans hroom

/-- What the number of fragments is for a size that is less than the header. -/
theorem fragments_neg {length : Nat} (hl : 0 < length) :
    (fragments length (-1)).toNat = 0 ∧
      (fragments length (-2)).toNat = if length = 1 then 1 else 0 := by
  have hone : ((length : Int).tmod 1) = 0 := Int.tmod_one _
  have hdiv : ((length : Int).tdiv 2) = (length / 2 : Nat) := rfl
  have hmod : ((length : Int).tmod 2) = (length % 2 : Nat) := rfl
  have hdiv1 : ((length : Int).tdiv 1) = length := Int.tdiv_one _
  constructor
  · rw [fragments, if_pos (by omega), Int.tdiv_neg, Int.tmod_neg, hone, hdiv1]
    simp
  · rw [fragments, if_pos (by omega), Int.tdiv_neg, Int.tmod_neg, hdiv, hmod]
    split_ifs <;> omega

theorem length_payload_pos (payload : Payload) : 0 < payload.length := by
  rw [payload.length_eq, BufferChain.octets, List.length_append]
  exact Nat.add_pos_left (List.length_pos_of_ne_nil payload.part_ne_nil) _

/-- A TPDU of one or of two octets has no room for its own header. -/
theorem sendDataMessage_small_iff (payload : Payload) (hsize : self.getTpduSize < 4)
    (hbuffer : self.writeBuffer = some maxSize) :
    (∃ r, self.sendDataMessage written payload.toBufferChain = .ok r) ↔
      longestTpdu self.getTpduSize payload.length ≤ maxSize := by
  obtain ⟨htwo, hone⟩ := fragments_neg (length_payload_pos payload)
  have hnone : ∀ fragmentPayloadSize : Int, ∃ r, sendFragments written fragmentPayloadSize
      payload.length maxSize 0 0 ⟨payload.part, 0, payload.nextParts⟩ = .ok r :=
    fun _ => ⟨_, rfl⟩
  rw [sendDataMessage, hbuffer, longestTpdu, if_neg (Nat.not_le.mpr hsize)]
  dsimp only
  rw [getTpduSize] at hsize ⊢
  have hlt : self.tpduSize < 2 := (Nat.pow_lt_pow_iff_right (by decide)).mp hsize
  obtain hs | hs : self.tpduSize = 0 ∨ self.tpduSize = 1 := by omega
  · rw [hs, show ((2 ^ 0 : Nat) : Int) - 3 = -2 from rfl, hone]
    by_cases hl : payload.length = 1
    · rw [if_pos hl, if_pos ⟨rfl, hl⟩]
      have hw : ChainPos.Whole ⟨payload.part, 0, payload.nextParts⟩ := payload.nextParts_ne_nil
      have hremaining : ChainPos.remaining ⟨payload.part, 0, payload.nextParts⟩ =
          payload.octets := rfl
      rw [sendFragments_one_iff hw, hremaining, ← payload.length_eq, hl]
      rw [hremaining, ← payload.length_eq, Int.zero_add]
    · rw [if_neg hl, if_neg fun h => hl h.2]
      exact iff_of_true (hnone _) (Nat.zero_le _)
  · rw [hs, show ((2 ^ 1 : Nat) : Int) - 3 = -1 from rfl, htwo,
      if_neg (fun h => absurd h.1 (by decide))]
    exact iff_of_true (hnone _) (Nat.zero_le _)

/-- A message can be sent if and only if there is a buffer, with room for its longest TPDU. -/
theorem sendDataMessage_iff (self : CotpConnection) (written : List UInt8 → Bool)
    (payload : Payload) :
    (∃ r, self.sendDataMessage written payload.toBufferChain = .ok r) ↔
      ∃ maxSize, self.writeBuffer = some maxSize ∧
        longestTpdu self.getTpduSize payload.length ≤ maxSize := by
  cases hbuffer : self.writeBuffer with
  | none =>
    refine iff_of_false ?_ fun ⟨_, h, _⟩ => by cases h
    rintro ⟨r, hr⟩
    rw [sendDataMessage, hbuffer] at hr
    cases hr
  | some maxSize =>
    simp only [Option.some.injEq, exists_eq_left']
    rcases Nat.lt_or_ge self.getTpduSize 4 with hsize | hsize
    · exact sendDataMessage_small_iff payload hsize hbuffer
    · obtain ⟨n, hn, hlow, hhigh⟩ :=
        fragments_spec (length_payload_pos payload) (Nat.sub_pos_of_lt hsize)
      have hcast : (self.getTpduSize : Int) - 3 = (self.getTpduSize - 3 : Nat) := by omega
      have hremaining : ChainPos.remaining ⟨payload.part, 0, payload.nextParts⟩ =
          payload.octets := rfl
      rw [sendDataMessage, hbuffer, longestTpdu, if_pos hsize]
      dsimp only
      rw [hcast, hn]
      rw [payload.length_eq] at hlow hhigh ⊢
      exact sendFragments_iff payload.nextParts_ne_nil (Int.zero_add _).symm hlow hhigh

end CotpConnection

namespace ServerTransport

open CotpConnection

variable {wideShift : UInt8 → Int} {s t : ServerTransport} {e : TransportEvent}

/-- What is sent has room: a connect response in the buffer that there is or that is allocated for
it, and a message in the buffer that there is. -/
def HasRoom (s : ServerTransport) : TransportEvent → Prop
  | .receive _ => True
  | .respond => 11 + s.cotp.getOptionsLength ≤ s.cotp.room
  | .send _ payload => ∃ maxSize ∈ s.cotp.writeBuffer,
      longestTpdu s.cotp.getTpduSize payload.length ≤ maxSize

instance (s : ServerTransport) : (e : TransportEvent) → Decidable (s.HasRoom e)
  | .receive _ => inferInstanceAs (Decidable True)
  | .respond => inferInstanceAs (Decidable (_ ≤ _))
  | .send _ _ => inferInstanceAs (Decidable (∃ maxSize ∈ s.cotp.writeBuffer, _ ≤ maxSize))

theorem respond_inside_iff (h : s.outside = false) :
    s.respond.outside = false ↔ s.HasRoom .respond := by
  have hlength : s.cotp.allocateWriteBuffer.connectResponse.length =
      11 + s.cotp.getOptionsLength := length_connectResponse _
  rw [respond, sendConnectionResponseMessage, allocateWriteBuffer_writeBuffer]
  dsimp only
  rw [hlength]
  by_cases hlt : s.cotp.room < 11 + s.cotp.getOptionsLength
  · rw [if_pos hlt]
    exact iff_of_false (fun h => by cases h) (Nat.not_le.mpr hlt)
  · rw [if_neg hlt]
    exact iff_of_true h (Nat.not_lt.mp hlt)

theorem send_inside_iff (h : s.outside = false) (written : List UInt8 → Bool)
    (payload : Payload) :
    (s.send written payload).outside = false ↔ s.HasRoom (.send written payload) := by
  refine Iff.trans ?_ (sendDataMessage_iff s.cotp written payload)
  rw [send]
  cases s.cotp.sendDataMessage written payload.toBufferChain with
  | ok r => exact iff_of_true h ⟨r, rfl⟩
  | error fault => exact iff_of_false (fun h => by cases h) fun ⟨_, h⟩ => by cases h

theorem receive_outside {octets : Stream} (ht : s.receive wideShift octets = some t) :
    t.outside = s.outside := by
  unfold receive at ht
  split at ht <;> cases ht <;> rfl

/-- A step that has room, and no other, keeps to the buffer. -/
theorem step_inside_iff (h : s.outside = false) (ht : s.Step wideShift e t) :
    t.outside = false ↔ s.HasRoom e := by
  cases e with
  | receive octets =>
    obtain ⟨-, ht⟩ := Option.ite_none_right_eq_some.mp ht
    exact iff_of_true ((receive_outside ht).trans h) trivial
  | respond =>
    obtain ⟨-, ht⟩ := Option.ite_none_right_eq_some.mp ht
    cases ht
    exact respond_inside_iff h
  | send written payload =>
    obtain ⟨-, ht⟩ := Option.ite_none_right_eq_some.mp ht
    cases ht
    exact send_inside_iff h written payload

/-- Nothing has been written outside of the buffer. -/
def Inside (s : ServerTransport) : Prop := s.outside = false

/-- Whatever is received and sent, in any order, all is written into the buffer as long as every
response and every message has room in it; and where one has not, an octet is written outside. -/
theorem inside_of_run {payloadBuffer : ByteBuffer} {events : List TransportEvent}
    (hr : Transition.Run (Step wideShift) HasRoom (start payloadBuffer) events s) :
    s.Inside ∧ ∀ e t, s.Step wideShift e t → (t.Inside ↔ s.HasRoom e) := by
  have h : s.Inside :=
    hr.invariant (rfl : (start payloadBuffer).Inside) fun _ _ _ h hg ht =>
      (step_inside_iff h ht).mpr hg
  exact ⟨h, fun _ _ ht => step_inside_iff h ht⟩

/-- A request for TPDUs of `1 << size` octets is received and answered. -/
def requested (size : UInt8) : List TransportEvent := [.receive (requestOf size), .respond]

/-- A connection with TPDUs of 8192 octets, over which three octets are sent. -/
theorem inside_of_run_message : ∃ events s, Transition.Run (Step fun _ => 0) HasRoom
    (start (emptyBuffer 100)) events s ∧ s.cotp.writeBuffer = some 8196 ∧ s.Inside := by
  have hf : (Transition.follow (next fun _ => 0) HasRoom (start (emptyBuffer 100))
      (requested 13 ++ [.receive [3, 0, 0, 8, 2, 0xf0, 0x80, 1],
        .send (fun _ => true) smallPayload])).map (·.cotp.writeBuffer) = some (some 8196) := by
    decide
  obtain ⟨s, hf, hbuffer⟩ := Option.map_eq_some_iff.mp hf
  have hr : Transition.Run (Step fun _ => 0) HasRoom (start (emptyBuffer 100)) _ s :=
    Transition.run_of_follow (fun _ _ _ h => h) hf
  exact ⟨_, s, hr, hbuffer, (inside_of_run hr).1⟩

/-- The response to a request for TPDUs of two octets is written behind the end of the buffer. -/
theorem response_outside : ∃ events s, Transition.Run (Step fun _ => 0) (fun _ _ => True)
    (start (emptyBuffer 100)) events s ∧ ¬ s.Inside := by
  have hf : (Transition.follow (next fun _ => 0) (fun _ _ => True) (start (emptyBuffer 100))
      (requested 1)).map (·.outside) = some true := by decide
  obtain ⟨s, hf, houtside⟩ := Option.map_eq_some_iff.mp hf
  exact ⟨_, s, Transition.run_of_follow (fun _ _ _ h => h) hf,
    fun h => Bool.false_ne_true (h.symm.trans houtside)⟩

end ServerTransport

/-! ## Requests that ask for enough, and not for more than before -/

namespace CotpConnection

variable {self self' : CotpConnection} {wideShift : UInt8 → Int}

/-- The parser leaves the write buffer alone, and without a request the size of the TPDUs. -/
structure Keeps (c : CotpConnection) (r : CotpIndication × CotpConnection × Stream) : Prop where
  writeBuffer : r.2.1.writeBuffer = c.writeBuffer
  tpduSize : r.1 = .dataIndication → r.2.1.tpduSize = c.tpduSize

theorem parseOptions_writeBuffer (wideShift : UInt8 → Int) (optLen : Int) (fuel : Nat)
    (readBytes : Int) (self : CotpConnection) (s : Stream) :
    (parseOptions wideShift optLen fuel readBytes self s).2.1.writeBuffer = self.writeBuffer := by
  induction fuel generalizing self readBytes s with
  | zero => rfl
  | succ fuel ih =>
    unfold CotpConnection.parseOptions
    split
    case isFalse => rfl
    case isTrue =>
      split
      case h_1 | h_2 | h_3 | h_4 => exact ih _ _ _
      case h_9 =>
        split
        · rfl
        · exact ih _ _ _
      all_goals rfl

theorem parseConnectRequestTpdu_writeBuffer (wideShift : UInt8 → Int) (self : CotpConnection)
    (len : UInt8) (s : Stream) :
    (self.parseConnectRequestTpdu wideShift len s).2.1.writeBuffer = self.writeBuffer := by
  unfold parseConnectRequestTpdu
  split
  · exact parseOptions_writeBuffer wideShift _ _ _ _ _
  · rfl

theorem parseConnectConfirmTpdu_writeBuffer (wideShift : UInt8 → Int) (self : CotpConnection)
    (len : UInt8) (s : Stream) :
    (self.parseConnectConfirmTpdu wideShift len s).2.1.writeBuffer = self.writeBuffer := by
  unfold parseConnectConfirmTpdu
  split
  · exact parseOptions_writeBuffer wideShift _ _ _ _ _
  · rfl

theorem parseDataTpdu_eq {len : UInt8} {s : Stream} {r : Bool × CotpConnection × Stream}
    (h : self.parseDataTpdu len s = r) :
    r.2.1.writeBuffer = self.writeBuffer ∧ r.2.1.tpduSize = self.tpduSize := by
  subst h
  unfold parseDataTpdu
  split
  · split
    · exact ⟨rfl, rfl⟩
    · exact ⟨rfl, rfl⟩
  · exact ⟨rfl, rfl⟩

theorem indicationOf_connect {r : Bool × CotpConnection × Stream}
    (h : r.2.1.writeBuffer = self.writeBuffer) :
    self.Keeps (indicationOf .connectIndication r) := by
  refine ⟨h, fun hind => ?_⟩
  obtain ⟨ok, rest⟩ := r
  cases ok with
  | true => cases hind
  | false => cases hind

theorem Keeps.addPayloadToBuffer
    {parse : CotpConnection → Stream → Exec (CotpIndication × CotpConnection × Stream)}
    {rfc1006Length : Nat} {s : Stream} {r : Bool × CotpConnection × Stream}
    (hparse : ∀ self s r, parse self s = .ok r → Keeps self r)
    (hr : self.addPayloadToBuffer parse rfc1006Length s = .ok r) :
    self.Keeps (indicationOf .dataIndication r) := by
  unfold CotpConnection.addPayloadToBuffer at hr
  split at hr
  · cases hr
  · split at hr
    · split at hr
      · cases hr
        exact ⟨rfl, fun _ => rfl⟩
      · dsimp only at hr
        split at hr
        · cases hr
          exact ⟨rfl, fun _ => rfl⟩
        · obtain ⟨next, hnext, hr⟩ := bind_ok hr
          have hkeeps := hparse _ _ _ hnext
          cases hr
          refine ⟨hkeeps.writeBuffer, fun hind => hkeeps.tpduSize ?_⟩
          by_contra hne
          rw [indicationOf, decide_eq_false hne] at hind
          cases hind
    · cases hr
      exact ⟨rfl, fun _ => rfl⟩

theorem Keeps.parseTpdus {fuel : Nat} {s : Stream} {r : CotpIndication × CotpConnection × Stream}
    (hr : self.parseTpdus wideShift fuel s = .ok r) : self.Keeps r := by
  induction fuel generalizing self s r with
  | zero => cases hr
  | succ fuel ih =>
    unfold CotpConnection.parseTpdus at hr
    split at hr
    · cases hr
    · split at hr
      · cases hr
        exact indicationOf_connect (parseConnectRequestTpdu_writeBuffer wideShift _ _ _)
      · split at hr
        · cases hr
          exact indicationOf_connect (parseConnectConfirmTpdu_writeBuffer wideShift _ _ _)
        · split at hr
          · split at hr
            · rename_i hdata
              obtain ⟨added, hadded, hr⟩ := bind_ok hr
              cases hr
              obtain ⟨hbuffer, hsize⟩ := parseDataTpdu_eq hdata
              have hkeeps : Keeps _ _ := Keeps.addPayloadToBuffer (fun self s r h => by
                obtain rfl := Nat.succ.inj ‹fuel + 1 = Nat.succ _›
                exact ih h) hadded
              exact ⟨hkeeps.writeBuffer.trans hbuffer, fun h => (hkeeps.tpduSize h).trans hsize⟩
            · rename_i hdata
              cases hr
              exact ⟨(parseDataTpdu_eq hdata).1, fun h => by cases h⟩
          · cases hr
            exact ⟨rfl, fun h => by cases h⟩
    · cases hr
      exact ⟨rfl, fun h => by cases h⟩

/-- There is room for TPDUs of the size there is, and of 32 octets. -/
def WideEnough (c : CotpConnection) : Prop := 32 + 4 ≤ c.room ∧ c.getTpduSize + 4 ≤ c.room

theorem Keeps.sized {r : CotpIndication × CotpConnection × Stream} (hk : self.Keeps r)
    (hd : r.1 = .dataIndication) (h : self.WideEnough) : r.2.1.WideEnough := by
  have hsize : r.2.1.getTpduSize = self.getTpduSize := congrArg (2 ^ ·) (hk.tpduSize hd)
  have hroom : r.2.1.room = self.room := by rw [room, room, hk.writeBuffer, hsize]
  rw [WideEnough, hroom, hsize]
  exact h

theorem WideEnough.getOptionsLength_le (h : self.WideEnough) : 11 + self.getOptionsLength ≤ self.room := by
  have hle : self.getOptionsLength ≤ 11 := by
    unfold getOptionsLength
    split_ifs <;> decide
  have hroom := h.1
  omega

theorem WideEnough.longestTpdu_le (h : self.WideEnough) (length : Nat) :
    longestTpdu self.getTpduSize length ≤ self.room := by
  obtain ⟨hmin, hsize⟩ := h
  unfold longestTpdu
  split_ifs
  · omega
  · omega
  · exact Nat.zero_le _

theorem WideEnough.allocate (h : self.WideEnough) : self.allocateWriteBuffer.WideEnough := by
  have hroom : self.allocateWriteBuffer.room = self.room := by
    rw [room, allocateWriteBuffer_writeBuffer]
    rfl
  rw [WideEnough, hroom]
  exact h

end CotpConnection

namespace ServerTransport

open CotpConnection

variable {wideShift : UInt8 → Int} {s t : ServerTransport} {e : TransportEvent}

/-- The first request asks for 32 octets or more, and no other one for more than the first; nothing
is sent before the first has been answered. -/
def AsksWithin (wideShift : UInt8 → Int) (s : ServerTransport) : TransportEvent → Prop
  | .receive octets => ∀ cotp rest, s.cotp.parseIncomingMessage wideShift octets =
      .ok (.connectIndication, cotp, rest) → cotp.WideEnough
  | .respond => True
  | .send _ _ => s.cotp.writeBuffer ≠ none

/-- What such requests keep. -/
structure Roomy (s : ServerTransport) : Prop where
  inside : s.Inside
  sized : s.running = true → s.cotp.WideEnough
  running : s.responding = true → s.running = true

theorem Roomy.receive (h : s.Roomy) {octets : Stream}
    (hg : s.AsksWithin wideShift (.receive octets))
    (hrun : s.running = true ∧ ¬ s.responding = true)
    (ht : s.receive wideShift octets = some t) : t.Roomy := by
  have hinside := (receive_outside ht).trans h.inside
  unfold ServerTransport.receive at ht
  split at ht
  case h_1 cotp rest heq =>
    cases ht
    exact ⟨hinside, fun _ => hg cotp rest heq, fun _ => hrun.1⟩
  case h_2 cotp rest heq =>
    cases ht
    have hk : CotpConnection.Keeps _ _ := Keeps.parseTpdus heq
    exact ⟨hinside, fun hr => hk.sized rfl (h.sized hr), h.running⟩
  case h_3 =>
    cases ht
    exact ⟨hinside, fun hr => absurd hr Bool.false_ne_true, fun hr => absurd hr hrun.2⟩
  case h_4 => cases ht

theorem Roomy.hasRoom (h : s.Roomy) (hg : s.AsksWithin wideShift e) (ht : s.Step wideShift e t) :
    s.HasRoom e := by
  cases e with
  | receive octets => trivial
  | respond =>
    obtain ⟨hresp, -⟩ := Option.ite_none_right_eq_some.mp ht
    exact (h.sized (h.running hresp)).getOptionsLength_le
  | send written payload =>
    obtain ⟨hrun, -⟩ := Option.ite_none_right_eq_some.mp ht
    obtain ⟨maxSize, hbuffer⟩ := Option.ne_none_iff_exists'.mp hg
    have hle := (h.sized hrun.1).longestTpdu_le payload.length
    rw [room, hbuffer] at hle
    exact ⟨maxSize, hbuffer, hle⟩

theorem Roomy.step (h : s.Roomy) (hg : s.AsksWithin wideShift e) (ht : s.Step wideShift e t) :
    t.Roomy := by
  have hinside : t.Inside := (step_inside_iff h.inside ht).mpr (h.hasRoom hg ht)
  cases e with
  | receive octets =>
    obtain ⟨hrun, ht⟩ := Option.ite_none_right_eq_some.mp ht
    exact h.receive hg hrun ht
  | respond =>
    obtain ⟨hresp, ht⟩ := Option.ite_none_right_eq_some.mp ht
    have hrun := h.running hresp
    cases ht
    unfold respond at hinside ⊢
    split at hinside
    case h_1 cotp _ heq =>
      refine ⟨hinside, fun _ => ?_, fun _ => hrun⟩
      unfold sendConnectionResponseMessage at heq
      dsimp only at heq
      split at heq
      · cases heq
      · split at heq <;> cases heq
        exact (h.sized hrun).allocate
    case h_2 => cases hinside
  | send written payload =>
    obtain ⟨-, ht⟩ := Option.ite_none_right_eq_some.mp ht
    cases ht
    unfold send at hinside ⊢
    split at hinside
    case h_1 => exact h
    case h_2 => cases hinside

/-- The size that is allocated for the first request is enough for all that is sent after it. -/
theorem inside_of_requests {payloadBuffer : ByteBuffer} {events : List TransportEvent}
    (hr : Transition.Run (Step wideShift) (AsksWithin wideShift) (start payloadBuffer) events s) :
    s.Inside := by
  have hstart : (start payloadBuffer).Roomy := by
    refine ⟨rfl, fun _ => ?_, fun h => absurd h Bool.false_ne_true⟩
    have hroom : (init payloadBuffer).room = 8192 + 4 := rfl
    have hsize : (init payloadBuffer).getTpduSize = 8192 := rfl
    rw [WideEnough, start, hroom, hsize]
    decide
  have h : s.Roomy := hr.invariant hstart fun _ _ _ h hg ht => h.step hg ht
  exact h.inside

end ServerTransport

end Iec61850.Transport
