import Iec61850.Control.ControlClient
import Iec61850.Mms.AccessResult

/-! `goose_publisher.c`: what a publisher keeps between two frames, and the frames it sends. -/

namespace Iec61850

namespace BerEncoder

def encodeUInt32WithTL (tag : UInt8) (value : UInt32) : List UInt8 :=
  tag :: UInt8.ofNat (uInt32determineEncodedSize value) :: encodeUInt32 value

end BerEncoder

namespace Goose

open BerEncoder MmsServer

structure CommParameters where
  vlanPriority : UInt8
  vlanId : UInt16
  appId : UInt16
  dstAddress : List UInt8
  dstAddress_length : dstAddress.length = 6

/-- What a frame has in front of the payload. -/
structure GooseBuffer where
  octets : List UInt8
  octets_length : octets.length = 26

/-- `lengthField` -/
def lengthField : Nat := 20

/-- `GOOSE_MAX_MESSAGE_SIZE - self->payloadStart` -/
def maxPayloadSize : Nat := 1518 - 26

/-- `prepareGooseBuffer` -/
def prepareGooseBuffer (parameters : CommParameters)
    (srcAddr : { octets : List UInt8 // octets.length = 6 }) : GooseBuffer where
  octets := parameters.dstAddress ++ srcAddr.val ++
    ([0x81, 0x00, (parameters.vlanPriority <<< 5) + UInt8.ofNat (parameters.vlanId.toNat / 256),
      UInt8.ofNat (parameters.vlanId.toNat % 256), 0x88, 0xb8,
      UInt8.ofNat (parameters.appId.toNat / 256), UInt8.ofNat (parameters.appId.toNat % 256),
      0x00, 0x08, 0x00, 0x00, 0x00, 0x00] : List UInt8)
  octets_length := by
    rw [List.length_append, List.length_append, parameters.dstAddress_length, srcAddr.property]
    rfl

structure GoosePublisher where
  buffer : GooseBuffer
  goID : Option (List UInt8)
  goCBRef : Option (List UInt8)
  dataSetRef : Option (List UInt8)
  confRev : UInt32
  stNum : UInt32
  sqNum : UInt32
  timeAllowedToLive : UInt32
  needsCommission : Bool
  simulation : Bool
  timestamp : MmsValue.UtcTime

namespace GoosePublisher

def reset (self : GoosePublisher) : GoosePublisher := { self with sqNum := 0, stNum := 1 }

/-- `GoosePublisher_create` -/
def create (parameters : CommParameters) (srcAddr : { octets : List UInt8 // octets.length = 6 })
    (currentTime : UInt64) : GoosePublisher :=
  reset {
    buffer := prepareGooseBuffer parameters srcAddr
    goID := none
    goCBRef := none
    dataSetRef := none
    confRev := 0
    stNum := 0
    sqNum := 0
    timeAllowedToLive := 0
    needsCommission := false
    simulation := false
    timestamp := ⟨MmsValue.utcTimeOctets currentTime, MmsValue.length_utcTimeOctets currentTime⟩ }

/-- `GoosePublisher_increaseStNum` -/
def increaseStNum (self : GoosePublisher) (currentTime : UInt64) : GoosePublisher :=
  { self with
    timestamp := ⟨MmsValue.utcTimeOctets currentTime, MmsValue.length_utcTimeOctets currentTime⟩
    stNum := self.stNum + 1
    sqNum := 0 }

def setTimeAllowedToLive (self : GoosePublisher) (timeAllowedToLive : UInt32) : GoosePublisher :=
  { self with timeAllowedToLive }

/-- The first step of `createGoosePayload`. -/
def goosePduLength (self : GoosePublisher) (dataSetValues : List MmsValue) : Nat :=
  let dataSetSize := elementsSize dataSetValues
  determineEncodedStringSize self.goCBRef + determineEncodedStringSize self.dataSetRef +
    (match self.goID with
      | some goID => determineEncodedStringSize (some goID)
      | none => 0) +
    (2 + uInt32determineEncodedSize self.timeAllowedToLive) + (2 + 8) +
    (2 + uInt32determineEncodedSize self.sqNum) + (2 + uInt32determineEncodedSize self.stNum) +
    (2 + uInt32determineEncodedSize self.confRev) + 6 +
    (2 + uInt32determineEncodedSize (UInt32.ofNat dataSetValues.length)) +
    (dataSetSize + determineLengthSize dataSetSize + 1)

/-- The second step of `createGoosePayload`. -/
def goosePdu (self : GoosePublisher) (dataSetValues : List MmsValue) : List UInt8 :=
  encodeTL 0x61 (self.goosePduLength dataSetValues) ++ encodeStringWithTag 0x80 self.goCBRef ++
    encodeUInt32WithTL 0x81 self.timeAllowedToLive ++ encodeStringWithTag 0x82 self.dataSetRef ++
    (match self.goID with
      | some goID => encodeStringWithTag 0x83 (some goID)
      | none => []) ++
    encodeOctetString 0x84 self.timestamp.octets ++ encodeUInt32WithTL 0x85 self.stNum ++
    encodeUInt32WithTL 0x86 self.sqNum ++ encodeBoolean 0x87 self.simulation ++
    encodeUInt32WithTL 0x88 self.confRev ++ encodeBoolean 0x89 self.needsCommission ++
    encodeUInt32WithTL 0x8a (UInt32.ofNat dataSetValues.length) ++
    encodeTL 0xab (elementsSize dataSetValues) ++ encodeElements dataSetValues

/-- `createGoosePayload`, which does not count the header of the PDU in what it compares. -/
def createGoosePayload (self : GoosePublisher) (dataSetValues : List MmsValue) :
    Option (List UInt8) :=
  if maxPayloadSize < self.goosePduLength dataSetValues then none
  else some (self.goosePdu dataSetValues)

/-- What `GoosePublisher_publish` passes to `Ethernet_sendPacket`. -/
def packet (self : GoosePublisher) (payload : List UInt8) : List UInt8 :=
  let gooseLength := payload.length + 8
  (self.buffer.octets.set lengthField (UInt8.ofNat (gooseLength / 256))).set (lengthField + 1)
    (UInt8.ofNat (gooseLength % 256)) ++ payload

end GoosePublisher

/-- A packet that has been sent, and the publisher and the values it shows. -/
structure Frame where
  publisher : GoosePublisher
  dataSetValues : List MmsValue
  packet : List UInt8

namespace GoosePublisher

/-- `GoosePublisher_publish`, which counts a frame whether it can be sent or not. There is no result
when the payload goes beyond the end of the buffer. -/
def publish (self : GoosePublisher) (dataSetValues : List MmsValue) :
    Option (GoosePublisher × Option Frame) :=
  match self.createGoosePayload dataSetValues with
  | none => some ({ self with sqNum := self.sqNum + 1 }, none)
  | some payload =>
    if maxPayloadSize < payload.length then none
    else some ({ self with sqNum := self.sqNum + 1 },
      some ⟨self, dataSetValues, self.packet payload⟩)

/-! ## Payloads that can be sent -/

variable {self : GoosePublisher} {dataSetValues : List MmsValue}

theorem length_encodeUInt32WithTL (tag : UInt8) (value : UInt32) :
    (encodeUInt32WithTL tag value).length = 2 + uInt32determineEncodedSize value := by
  rw [encodeUInt32WithTL, List.length_cons, List.length_cons, length_encodeUInt32, Nat.add_assoc,
    Nat.add_comm]

/-- Behind its header the PDU has as many octets as were counted, if the values have. -/
theorem length_goosePdu (self : GoosePublisher) (dataSetValues : List MmsValue) :
    (self.goosePdu dataSetValues).length + elementsSize dataSetValues =
      1 + determineLengthSize (self.goosePduLength dataSetValues) +
        self.goosePduLength dataSetValues + (encodeElements dataSetValues).length := by
  have htime := self.timestamp.octets_length
  have height : determineLengthSize 8 = 1 := rfl
  cases hid : self.goID with
  | none | some =>
    simp only [goosePdu, goosePduLength, hid, List.length_append, List.length_nil, encodeTL,
      List.length_cons, length_encodeLength, length_encodeString, length_encodeUInt32WithTL,
      length_encodeOctetString, htime, height, encodeBoolean]
    omega

/-- The payload has room in the frame, with its header. -/
def Fits (self : GoosePublisher) (dataSetValues : List MmsValue) : Prop :=
  (self.goosePdu dataSetValues).length ≤ maxPayloadSize

instance : Decidable (self.Fits dataSetValues) :=
  inferInstanceAs (Decidable ((self.goosePdu dataSetValues).length ≤ maxPayloadSize))

theorem Fits.goosePduLength_le (h : self.Fits dataSetValues) :
    self.goosePduLength dataSetValues ≤ maxPayloadSize := by
  have hlength := length_goosePdu self dataSetValues
  have hvalues := (elements_size fun v (_ : v ∈ dataSetValues) => tree_size v).1
  have hfits : (self.goosePdu dataSetValues).length ≤ maxPayloadSize := h
  omega

/-- What fits is sent. -/
theorem Fits.publish (h : self.Fits dataSetValues) :
    self.publish dataSetValues = some ({ self with sqNum := self.sqNum + 1 },
      some ⟨self, dataSetValues, self.packet (self.goosePdu dataSetValues)⟩) := by
  rw [GoosePublisher.publish, createGoosePayload, if_neg (Nat.not_lt.mpr h.goosePduLength_le)]
  exact if_neg (Nat.not_lt.mpr h)

/-- Nothing else is sent. -/
theorem sent_iff_fits :
    (∃ publisher frame, self.publish dataSetValues = some (publisher, some frame)) ↔
      self.Fits dataSetValues := by
  constructor
  · rintro ⟨publisher, frame, h⟩
    by_contra hnot
    unfold GoosePublisher.publish createGoosePayload at h
    split at h
    · cases h
    case h_2 payload hpayload =>
      split at hpayload
      · cases hpayload
      · cases hpayload
        rw [if_pos (Nat.not_le.mp hnot)] at h
        cases h
  · intro h
    exact ⟨_, _, h.publish⟩

end GoosePublisher

end Goose

end Iec61850
