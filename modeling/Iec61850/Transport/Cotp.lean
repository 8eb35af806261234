import Iec61850.Lib.Memory
import Iec61850.Lib.Octets

/-! `cotp.c`: the transport connection that cuts messages into data TPDUs and puts them together
again. -/

namespace Iec61850.Transport

open Machine

inductive CotpIndication
  | ok | error | connectIndication | dataIndication | disconnectIndication
  deriving DecidableEq

structure ByteBuffer where
  octets : List UInt8
  maxSize : Nat
  size_le : octets.length ≤ maxSize

/-- `tpduSize` is the one of the options, an exponent of two. Of the buffer messages are written
into only the size is kept. -/
structure CotpConnection where
  srcRef : Int
  dstRef : Int
  protocolClass : Int
  tpduSize : Nat
  tsapIdSrc : Int
  tsapIdDst : Int
  isLastDataUnit : Bool
  payload : ByteBuffer
  writeBuffer : Option Nat

/-- A buffer with the ones chained behind it. -/
structure BufferChain where
  length : Nat
  part : List UInt8
  nextParts : List (List UInt8)

def BufferChain.octets (chain : BufferChain) : List UInt8 :=
  chain.part ++ chain.nextParts.flatten

/-- A chain of buffers that are not empty, with the length of them all. -/
structure Payload extends BufferChain where
  part_ne_nil : part ≠ []
  nextParts_ne_nil : ∀ p ∈ nextParts, p ≠ []
  length_eq : length = toBufferChain.octets.length

/-- What the peer sends from here on. It is there when it is read. -/
abbrev Stream := List UInt8

namespace CotpConnection

/-- `COTP_MAX_TPDU_SIZE` -/
def maxTpduSize : Int := 8192

/-- The loop of `CotpConnection_setTpduSize`; no size is more than 2 to the power of 13. -/
def setTpduSizeLoop (tpduSize : Int) : Nat → Nat → Nat
  | 0, newTpduSize => newTpduSize
  | fuel + 1, newTpduSize =>
    if 2 ^ newTpduSize < tpduSize then setTpduSizeLoop tpduSize fuel (newTpduSize + 1)
    else newTpduSize

def setTpduSize (self : CotpConnection) (tpduSize : Int) : CotpConnection :=
  let tpduSize := if maxTpduSize < tpduSize then maxTpduSize else tpduSize
  let newTpduSize := setTpduSizeLoop tpduSize 13 1
  { self with tpduSize := if tpduSize < 2 ^ newTpduSize then newTpduSize - 1 else newTpduSize }

/-- In octets. -/
def getTpduSize (self : CotpConnection) : Nat := 2 ^ self.tpduSize

def init (payloadBuffer : ByteBuffer) : CotpConnection :=
  setTpduSize
    { srcRef := -1
      dstRef := -1
      protocolClass := -1
      tpduSize := 0
      tsapIdSrc := -1
      tsapIdDst := -1
      isLastDataUnit := false
      payload := payloadBuffer
      writeBuffer := none } maxTpduSize

def allocateWriteBuffer (self : CotpConnection) : CotpConnection :=
  { self with writeBuffer := self.writeBuffer.or (some (self.getTpduSize + 4)) }

/-! Sending. -/

/-- The position of the sender in the chain. -/
structure ChainPos where
  part : List UInt8
  index : Nat
  nextParts : List (List UInt8)

def ChainPos.nextPart (p : ChainPos) : Exec ChainPos :=
  if p.part.length ≤ p.index then
    match p.nextParts with
    | [] => .error .nullPointer
    | part :: nextParts => .ok ⟨part, 0, nextParts⟩
  else .ok p

def ChainPos.copyOctets : Nat → ChainPos → Exec (List UInt8 × ChainPos)
  | 0, p => .ok ([], p)
  | n + 1, p => do
    let p ← p.nextPart
    match p.part[p.index]? with
    | none => .error .outOfBounds
    | some b =>
      let (octets, p) ← copyOctets n { p with index := p.index + 1 }
      return (b :: octets, p)

def rfc1006Header (len : Int) : List UInt8 :=
  [0x03, 0x00, UInt8.ofInt (len.tdiv 256), UInt8.ofInt (len % 256)]

def dataTpduHeader (isLastUnit : Bool) : List UInt8 := [0x02, 0xf0, if isLastUnit then 0x80 else 0]

def dataTpdu (isLastUnit : Bool) (len : Int) (octets : List UInt8) : List UInt8 :=
  rfc1006Header len ++ dataTpduHeader isLastUnit ++ octets

/-- The loop of `CotpConnection_sendDataMessage`, with the octets of each buffer that the socket
has taken. -/
def sendFragments (written : List UInt8 → Bool) (fragmentPayloadSize length : Int)
    (maxSize : Nat) : Nat → Int → ChainPos → Exec (CotpIndication × List (List UInt8))
  | 0, _, _ => .ok (.ok, [])
  | fragments + 1, currentBufPos, p => do
    let currentLimit := if 0 < fragments then currentBufPos + fragmentPayloadSize else length
    let (octets, p) ← p.copyOctets (currentLimit - currentBufPos).toNat
    let tpdu := dataTpdu (fragments = 0) (7 + (currentLimit - currentBufPos)) octets
    if maxSize < tpdu.length then .error .outOfBounds
    else if written tpdu then do
      let (indication, tpdus) ← sendFragments written fragmentPayloadSize length maxSize fragments
        (currentBufPos + octets.length) p
      return (indication, tpdu :: tpdus)
    else return (.error, [])

/-- How many fragments there are to be. -/
def fragments (length fragmentPayloadSize : Int) : Int :=
  if fragmentPayloadSize < length then
    length.tdiv fragmentPayloadSize + if length.tmod fragmentPayloadSize ≠ 0 then 1 else 0
  else 1

def sendDataMessage (self : CotpConnection) (written : List UInt8 → Bool) (payload : BufferChain) :
    Exec (CotpIndication × List (List UInt8)) :=
  let fragmentPayloadSize := (self.getTpduSize : Int) - 3
  match self.writeBuffer with
  | none => .error .nullPointer
  | some maxSize =>
    sendFragments written fragmentPayloadSize payload.length maxSize
      (fragments payload.length fragmentPayloadSize).toNat 0 ⟨payload.part, 0, payload.nextParts⟩

/-! Receiving. `wideShift` is what `1 << n` gives for an `n` of 31 and more. -/

def requestedTpduSize (wideShift : UInt8 → Int) (value : UInt8) : Int :=
  if value.toNat < 31 then 2 ^ value.toNat else wideShift value

/-- The loop of `parseOptions`: whether there is no error. Every turn reads two octets at least. -/
def parseOptions (wideShift : UInt8 → Int) (optLen : Int) :
    Nat → Int → CotpConnection → Stream → Bool × CotpConnection × Stream
  | 0, _, self, s => (false, self, s)
  | fuel + 1, readBytes, self, s =>
    if readBytes < optLen then
      match s with
      | 0xc0 :: _ :: value :: s =>
        parseOptions wideShift optLen fuel (readBytes + 3)
          (self.setTpduSize (requestedTpduSize wideShift value)) s
      | 0xc1 :: 2 :: high :: low :: s =>
        parseOptions wideShift optLen fuel (readBytes + 4)
          { self with tsapIdSrc := Octets.value [high, low] } s
      | 0xc2 :: 2 :: high :: low :: s =>
        parseOptions wideShift optLen fuel (readBytes + 4)
          { self with tsapIdDst := Octets.value [high, low] } s
      -- whether there is a value is not looked at
      | 0xc6 :: 1 :: s => parseOptions wideShift optLen fuel (readBytes + 3) self (s.drop 1)
      | 0xc0 :: s | 0xc1 :: s | 0xc2 :: s | 0xc6 :: s => (false, self, s)
      | _ :: _ :: s =>
        if s.length < optLen.toNat then (false, self, [])
        else
          parseOptions wideShift optLen fuel (readBytes + 2 + optLen) self (s.drop optLen.toNat)
      | s => (false, self, s)
    else (true, self, s)

def parseConnectRequestTpdu (wideShift : UInt8 → Int) (self : CotpConnection) (len : UInt8) :
    Stream → Bool × CotpConnection × Stream
  | a :: b :: c :: d :: protocolClass :: s =>
    parseOptions wideShift (len.toNat - 6) (s.length + 1) 0
      { self with
        dstRef := Octets.value [a, b]
        srcRef := Octets.value [c, d]
        protocolClass := protocolClass.toNat } s
  | _ => (false, self, [])

def parseConnectConfirmTpdu (wideShift : UInt8 → Int) (self : CotpConnection) (len : UInt8) :
    Stream → Bool × CotpConnection × Stream
  | a :: b :: c :: d :: protocolClass :: s =>
    parseOptions wideShift (len.toNat - 6) (s.length + 1) 0
      { self with
        srcRef := Octets.value [a, b]
        dstRef := Octets.value [c, d]
        protocolClass := protocolClass.toNat } s
  | _ => (false, self, [])

def parseDataTpdu (self : CotpConnection) (len : UInt8) : Stream → Bool × CotpConnection × Stream
  | flowControl :: s =>
    if len = 2 then (true, { self with isLastDataUnit := flowControl &&& 0x80 ≠ 0 }, s)
    else (false, self, flowControl :: s)
  | [] => (false, self, [])

/-- `parse` is `parseIncomingMessage`, for the next TPDU of the message. -/
def addPayloadToBuffer
    (parse : CotpConnection → Stream → Exec (CotpIndication × CotpConnection × Stream))
    (self : CotpConnection) (rfc1006Length : Nat) (s : Stream) :
    Exec (Bool × CotpConnection × Stream) :=
  -- a negative number of octets to read is a very large one
  if rfc1006Length < 7 then .error .outOfBounds
  else if h : self.payload.octets.length + (rfc1006Length - 7) ≤ self.payload.maxSize then
    if hr : s.length < rfc1006Length - 7 then .ok (false, self, [])
    else
      let self := { self with payload :=
        { self.payload with
          octets := self.payload.octets ++ s.take (rfc1006Length - 7)
          size_le := by
            rw [List.length_append, List.length_take_of_le (Nat.le_of_not_lt hr)]
            exact h } }
      let s := s.drop (rfc1006Length - 7)
      if self.isLastDataUnit then .ok (true, self, s)
      else do
        let (indication, self, s) ← parse self s
        return (indication = .dataIndication, self, s)
  else .ok (false, self, s)

/-- The indication for a TPDU that was parsed. -/
def indicationOf (indication : CotpIndication) (r : Bool × CotpConnection × Stream) :
    CotpIndication × CotpConnection × Stream :=
  (if r.1 then indication else .error, r.2)

/-- `parseIncomingMessage`, for as many TPDUs as there is fuel. -/
def parseTpdus (wideShift : UInt8 → Int) :
    Nat → CotpConnection → Stream → Exec (CotpIndication × CotpConnection × Stream)
  | 0, _, _ => .error .outOfFuel
  | fuel + 1, self, 0x03 :: 0x00 :: high :: low :: len :: tpduType :: s =>
    if tpduType = 0xe0 then
      .ok (indicationOf .connectIndication (self.parseConnectRequestTpdu wideShift len s))
    else if tpduType = 0xd0 then
      .ok (indicationOf .connectIndication
        (parseConnectConfirmTpdu wideShift { self with isLastDataUnit := true } len s))
    else if tpduType = 0xf0 then
      match self.parseDataTpdu len s with
      | (true, self, s) => do
        return indicationOf .dataIndication
          (← self.addPayloadToBuffer (parseTpdus wideShift fuel) (Octets.value [high, low]) s)
      | (false, self, s) => .ok (.error, self, s)
    else .ok (.error, self, s)
  | _ + 1, self, s => .ok (.error, self, s)

/-- `CotpConnection_parseIncomingMessage` -/
def parseIncomingMessage (wideShift : UInt8 → Int) (self : CotpConnection) (s : Stream) :
    Exec (CotpIndication × CotpConnection × Stream) :=
  parseTpdus wideShift (s.length + 1)
    { self with payload := { self.payload with octets := [], size_le := Nat.zero_le _ } } s

end CotpConnection

end Iec61850.Transport
