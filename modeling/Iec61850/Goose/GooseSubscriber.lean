import Iec61850.Asn1.BerFields
import Iec61850.Goose.GoosePublisher
import Iec61850.Mms.DataElement

/-! `goose_subscriber.c`: what a subscriber keeps between two frames, and what it makes of a
frame. A position counts from where the pointer points that a parser is given. -/

namespace Iec61850

open Machine

namespace BerDecoder

def decodeBoolean (buffer : Memory) (bufPos : Int) : Exec Bool := do
  return (← buffer.read bufPos) ≠ 0

/-- `BerDecoder_decodeFloat` and `BerDecoder_decodeDouble`: the number as it lies in memory. -/
def decodeFloat (buffer : Memory) (size : Nat) (bufPos : Int) : Exec (List UInt8) := do
  return (← buffer.readOctets (bufPos + 1) size).reverse

end BerDecoder

namespace Goose

open BerDecoder

/-- The casts between the two formats of floating point numbers. -/
structure FloatCasts where
  toFloat : List UInt8 → List UInt8
  toDouble : List UInt8 → List UInt8

/-- The octets that `memcpy` reads. A number that is negative is a very large one. -/
def copied (buffer : Memory) (pos n : Int) : Exec (List UInt8) :=
  if n < 0 then .error .outOfBounds else buffer.readOctets pos n.toNat

/-- Where they are put: the buffer may be too small. -/
def putOctets (buf octets : List UInt8) : Exec (List UInt8) :=
  if octets.length ≤ buf.length then .ok (MmsValue.copyOver buf octets) else .error .outOfBounds

/-! ## Values that are there -/

def storeBitString (buffer : Memory) (elementLength bufPos size : Int) (buf : List UInt8) :
    Exec ParsedValue := do
  let padding ← buffer.read bufPos
  if i32 (8 * (elementLength - 1) - padding.toNat) = size then
    return .bitString size
      (← putOctets buf (← copied buffer (bufPos + 1) (elementLength - 1)))
  else return .bitString size buf

/-- The new integer, where there is room for it. -/
def storeInteger (buffer : Memory) (elementLength bufPos : Int) (value : Asn1PrimitiveValue) :
    Exec Asn1PrimitiveValue :=
  if elementLength ≤ value.maxSize then do
    let octets ← copied buffer bufPos elementLength
    return if h : octets.length ≤ value.maxSize then value.store octets h else value
  else return value

/-- `MmsValue_setDouble` and `MmsValue_setFloat`, by the size of the element. -/
def storeFloat (casts : FloatCasts) (buffer : Memory) (elementLength bufPos : Int)
    (exponentWidth : UInt8) (formatWidth : Nat) (buf : List UInt8) : Exec ParsedValue := do
  if elementLength = 9 then
    let value ← decodeFloat buffer 8 bufPos
    return .float exponentWidth formatWidth
      (if formatWidth = 32 then casts.toFloat value else if formatWidth = 64 then value else buf)
  else if elementLength = 5 then
    let value ← decodeFloat buffer 4 bufPos
    return .float exponentWidth formatWidth
      (if formatWidth = 32 then value else if formatWidth = 64 then casts.toDouble value else buf)
  else return .float exponentWidth formatWidth buf

def storeOctetString (buffer : Memory) (elementLength bufPos : Int) (size : Nat)
    (buf : List UInt8) : Exec ParsedValue :=
  if elementLength ≤ buf.length then do
    let octets ← copied buffer bufPos elementLength
    return .octetString octets.length (← putOctets buf octets)
  else return .octetString size buf

/-- Whether the type of the value is looked at. -/
def looksAtValue (tag : UInt8) (elementLength : Int) : Bool :=
  tag ∈ ([0xa1, 0xa2, 0x83, 0x84, 0x85, 0x86, 0x87, 0x89, 0x8a, 0x8c] : List UInt8) ∨
    tag = 0x91 ∧ elementLength = 8

/-- The cases about values without members of their own. -/
def storePrimitive (casts : FloatCasts) (buffer : Memory) (tag : UInt8)
    (elementLength bufPos : Int) (value : ParsedValue) : Exec ParsedValue :=
  match value with
  | .null => if looksAtValue tag elementLength then .error .nullPointer else .ok value
  | .boolean _ =>
    if tag = 0x83 then do return .boolean (← decodeBoolean buffer bufPos) else .ok value
  | .bitString size buf =>
    if tag = 0x84 then storeBitString buffer elementLength bufPos size buf else .ok value
  | .integer v =>
    if tag = 0x85 then do return .integer (← storeInteger buffer elementLength bufPos v)
    else .ok value
  | .unsigned v =>
    if tag = 0x86 then do return .unsigned (← storeInteger buffer elementLength bufPos v)
    else .ok value
  | .float exponentWidth formatWidth buf =>
    if tag = 0x87 then storeFloat casts buffer elementLength bufPos exponentWidth formatWidth buf
    else .ok value
  | .octetString size buf =>
    if tag = 0x89 then storeOctetString buffer elementLength bufPos size buf else .ok value
  -- whether the string is long enough for the new one or is replaced makes no difference
  | .visibleString _ =>
    if tag = 0x8a then do
      return .visibleString ((← copied buffer bufPos elementLength).takeWhile (· ≠ 0))
    else .ok value
  | .binaryTime octets =>
    if tag = 0x8c ∧ (elementLength = 4 ∨ elementLength = 6) then do
      return .binaryTime ((MmsValue.copyOver octets
        (← buffer.readOctets bufPos elementLength.toNat)).take octets.length)
    else .ok value
  | .utcTime _ =>
    if tag = 0x91 ∧ elementLength = 8 then do return .utcTime (← buffer.readOctets bufPos 8)
    else .ok value
  | value => .ok value

/-- The switch of `parseAllData`, with the result of the parser for the members. -/
def storeElement (casts : FloatCasts)
    (parse : Memory → Int → List ParsedValue → Exec (Int × List ParsedValue)) (buffer : Memory)
    (tag : UInt8) (elementLength bufPos : Int) : ParsedValue → Exec (Int × ParsedValue)
  | .array elements =>
    if tag = 0xa1 then do
      let (result, elements) ←
        parse (Region.memory ⟨bufPos, elementLength⟩ buffer) elementLength elements
      return (result, .array elements)
    else return (1, .array elements)
  | .structured components =>
    if tag = 0xa2 then do
      let (result, components) ←
        parse (Region.memory ⟨bufPos, elementLength⟩ buffer) elementLength components
      return (result, .structured components)
    else return (1, .structured components)
  | value => do return (1, ← storePrimitive casts buffer tag elementLength bufPos value)

/-- `parseAllData` from some element on: its result, and the values as they are then. The length is
that of the element before until the next one is decoded, and nobody looks whether it is. -/
def parseElementsFrom (casts : FloatCasts) (fuel : Nat) (buffer : Memory)
    (allDataLength elementLength bufPos : Int) (dataSetValues : List ParsedValue) :
    Exec (Int × List ParsedValue) :=
  match fuel with
  | 0 => .error .outOfFuel
  | fuel + 1 =>
    if allDataLength ≤ bufPos then return (1, dataSetValues)
    else do
      let tag ← buffer.read bufPos
      match dataSetValues with
      | [] => return (0, [])
      | value :: values =>
        let (bufPos, elementLength) ←
          decodeLength buffer elementLength (bufPos + 1) allDataLength
        if allDataLength < i32 (bufPos + elementLength) then return (0, value :: values)
        else
          let (result, value) ←
            storeElement casts (fun buffer length => parseElementsFrom casts fuel buffer length 0 0)
              buffer tag elementLength bufPos value
          -- a result of -1 is not 0
          if result = 0 then return (-1, value :: values)
          else
            let (result, values) ← parseElementsFrom casts fuel buffer allDataLength elementLength
              (i32 (bufPos + elementLength)) values
            return (result, value :: values)

def parseAllData (casts : FloatCasts) (fuel : Nat) (buffer : Memory) (allDataLength : Int)
    (dataSetValues : List ParsedValue) : Exec (Int × List ParsedValue) :=
  parseElementsFrom casts fuel buffer allDataLength 0 0 dataSetValues

/-! ## Values that are created -/

/-- One turn of the first loop of `parseAllDataUnknownValue`. The state is the number of elements
and the length of the last one. -/
def countElement (allDataLength : Int) : ElementParser (Nat × Int) :=
  fun tag elementLength bufPos state =>
    if allDataLength < i32 (bufPos + elementLength) then return (none, (state.1, elementLength))
    else if tag ∈ ([0x80, 0xa1, 0xa2, 0x83, 0x84, 0x85, 0x86, 0x87, 0x89, 0x8a, 0x8c, 0x91] :
        List UInt8) then
      return (some (i32 (bufPos + elementLength)), (state.1 + 1, elementLength))
    else return (none, (state.1, elementLength))

/-- The octets for which `MmsValue_newInteger` and `MmsValue_newUnsigned` make room. -/
def integerRoom (size : Int) : Nat := if size ≤ 32 then 4 else 8

theorem integerRoom_lt (size : Int) : integerRoom size < 256 := by
  unfold integerRoom
  split <;> decide

/-- An integer with these octets at the beginning of its room. The size stays that of the room. -/
def integerOf (size : Int) (octets : List UInt8) (h : octets.length ≤ integerRoom size) :
    Asn1PrimitiveValue where
  size := integerRoom size
  maxSize := integerRoom size
  octets := octets ++ List.replicate (integerRoom size - octets.length) 0
  size_le := le_rfl
  octets_length := by
    rw [List.length_append, List.length_replicate]
    omega
  maxSize_lt := integerRoom_lt size

def newInteger (buffer : Memory) (elementLength bufPos : Int) : Exec Asn1PrimitiveValue := do
  let octets ← copied buffer bufPos elementLength
  if h : octets.length ≤ integerRoom (i32 (elementLength * 8)) then return integerOf _ octets h
  else .error .outOfBounds

/-- `bitStringByteSize` -/
def byteSize (size : Int) : Int :=
  if size.tmod 8 ≠ 0 then size.tdiv 8 + 1 else size.tdiv 8

/-- `MmsValue_newBitString` with the octets. -/
def newBitString (buffer : Memory) (elementLength bufPos : Int) : Exec ParsedValue := do
  let padding ← buffer.read bufPos
  let size := i32 (8 * (elementLength - 1) - padding.toNat)
  return .bitString size (← putOctets (List.replicate (byteSize size).toNat 0)
    (← copied buffer (bufPos + 1) (elementLength - 1)))

/-- The second switch, for values without members of their own: no result where the parser gives
up, and the null pointer where it creates no value. -/
def createPrimitive (buffer : Memory) (tag : UInt8) (elementLength bufPos : Int) :
    Exec (Option ParsedValue) :=
  match tag.toNat with
  | 0x83 => do return some (.boolean (← decodeBoolean buffer bufPos))
  | 0x84 => do return some (← newBitString buffer elementLength bufPos)
  | 0x85 => do return some (.integer (← newInteger buffer elementLength bufPos))
  | 0x86 => do return some (.unsigned (← newInteger buffer elementLength bufPos))
  | 0x87 =>
    if elementLength = 9 then do return some (.float 11 64 (← decodeFloat buffer 8 bufPos))
    else if elementLength = 5 then do return some (.float 8 32 (← decodeFloat buffer 4 bufPos))
    else return some .null
  | 0x89 => do
    let octets ← copied buffer bufPos elementLength
    return some (.octetString (octets.length % 65536) octets)
  | 0x8a => do
    return some (.visibleString ((← copied buffer bufPos elementLength).takeWhile (· ≠ 0)))
  | 0x8c =>
    if elementLength = 4 ∨ elementLength = 6 then do
      return some (.binaryTime (← buffer.readOctets bufPos elementLength.toNat))
    else return some .null
  | 0x91 =>
    if elementLength = 8 then do return some (.utcTime (← buffer.readOctets bufPos 8))
    else return some .null
  | _ => return none

/-- What the second loop has created, and whether the subscriber has been told that it owns its
values. -/
structure Creation where
  values : List ParsedValue
  selfAllocated : Bool

/-- `MmsValue_setElement` at the index, unless there is no value. -/
def Creation.add (creation : Creation) : ParsedValue → Creation
  | .null => creation
  | value => { creation with values := creation.values ++ [value] }

/-- One turn of the second loop. -/
def createElement (parse : Memory → Int → Bool → Exec (Option (List ParsedValue) × Bool))
    (buffer : Memory) (allDataLength : Int) : ElementParser Creation :=
  fun tag elementLength bufPos creation =>
    if allDataLength < i32 (bufPos + elementLength) then return (none, creation)
    else if tag = 0xa1 ∨ tag = 0xa2 then do
      let (members, selfAllocated) ←
        parse (Region.memory ⟨bufPos, elementLength⟩ buffer) elementLength creation.selfAllocated
      let creation := { creation with selfAllocated }
      match members with
      | none => return (none, creation)
      | some members =>
        return (some (i32 (bufPos + elementLength)),
          creation.add (if tag = 0xa1 then .array members else .structured members))
    else do
      match ← createPrimitive buffer tag elementLength bufPos with
      | none => return (none, creation)
      | some value => return (some (i32 (bufPos + elementLength)), creation.add value)

/-- `parseAllDataUnknownValue`: the members of the array or the structure, unless it gives up.
There is a null pointer for each element without a value, behind the others. -/
def parseAllDataUnknownValue (fuel : Nat) (buffer : Memory) (allDataLength : Int)
    (selfAllocated : Bool) : Exec (Option (List ParsedValue) × Bool) :=
  match fuel with
  | 0 => .error .outOfFuel
  | fuel + 1 => do
    let (counted, elementCount, elementLength) ←
      parseFields buffer allDataLength allDataLength (countElement allDataLength) fuel 0 0 (0, 0)
    if counted.isNone then return (none, selfAllocated)
    else
      let (created, creation) ←
        parseFields buffer allDataLength allDataLength
          (createElement (parseAllDataUnknownValue fuel) buffer allDataLength) fuel elementLength 0
          ⟨[], selfAllocated⟩
      if created.isNone then return (none, creation.selfAllocated)
      else
        let values := creation.values ++ List.replicate elementCount ParsedValue.null
        return (some (values.take elementCount), true)

/-! ## Messages -/

structure GooseSubscriber where
  goCBRef : List UInt8
  timeAllowedToLive : UInt32
  stNum : UInt32
  sqNum : UInt32
  confRev : UInt32
  timestamp : List UInt8
  simulation : Bool
  ndsCom : Bool
  /-- `none` if every APPID will do -/
  appId : Option UInt16
  /-- the elements of the array or the structure, unless the pointer is null -/
  dataSetValues : Option (List ParsedValue)
  dataSetValuesSelfAllocated : Bool
  /-- whether a listener is installed -/
  listener : Bool

namespace GooseSubscriber

/-- `GooseSubscriber_create` -/
def create (goCBRef : List UInt8) (dataSetValues : Option (List ParsedValue)) :
    GooseSubscriber where
  goCBRef
  timeAllowedToLive := 0
  stNum := 0
  sqNum := 0
  confRev := 0
  timestamp := List.replicate 8 0
  simulation := false
  ndsCom := false
  appId := none
  dataSetValues
  dataSetValuesSelfAllocated := false
  listener := false

def setAppId (self : GooseSubscriber) (appId : UInt16) : GooseSubscriber :=
  { self with appId := some appId }

def setListener (self : GooseSubscriber) : GooseSubscriber := { self with listener := true }

end GooseSubscriber

/-- The variables of `parseGoosePayload`. -/
structure PayloadState where
  self : GooseSubscriber
  timeAllowedToLive : UInt32
  stNum : UInt32
  sqNum : UInt32
  confRev : UInt32
  simulation : Bool
  ndsCom : Bool
  isMatching : Bool
  /-- what the function returns when it does not come to the end of the message -/
  result : Int

/-- What the function does with the values of the data set. -/
def GooseSubscriber.parseValues (casts : FloatCasts) (fuel : Nat) (buffer : Memory)
    (elementLength : Int) (self : GooseSubscriber) : Exec GooseSubscriber :=
  match self.dataSetValues with
  | none => do
    let (values, selfAllocated) ←
      parseAllDataUnknownValue fuel buffer elementLength self.dataSetValuesSelfAllocated
    return { self with dataSetValues := values, dataSetValuesSelfAllocated := selfAllocated }
  | some values => do
    -- what the parser returns is not looked at
    let (_, values) ← parseAllData casts fuel buffer elementLength values
    return { self with dataSetValues := some values }

/-- The switch of `parseGoosePayload`. -/
def payloadField (casts : FloatCasts) (fuel : Nat) (buffer : Memory) (apduLength : Int) :
    ElementParser PayloadState := fun tag elementLength bufPos state => do
  if apduLength < i32 (bufPos + elementLength) ∨ bufPos = -1 then
    return (none, { state with result := -1 })
  let next := some (i32 (bufPos + elementLength))
  match tag.toNat with
  | 0x80 =>
    if (state.self.goCBRef.length : Int) = elementLength then
      if (← buffer.readOctets bufPos state.self.goCBRef.length) = state.self.goCBRef then
        return (next, { state with isMatching := true })
      else return (none, { state with result := 0 })
    else return (none, { state with result := 0 })
  | 0x81 =>
    return (next, { state with timeAllowedToLive := ← decodeUint32 buffer elementLength bufPos })
  | 0x84 =>
    let timestamp ← buffer.readOctets bufPos 8
    return (next, { state with self := { state.self with timestamp } })
  | 0x85 => return (next, { state with stNum := ← decodeUint32 buffer elementLength bufPos })
  | 0x86 => return (next, { state with sqNum := ← decodeUint32 buffer elementLength bufPos })
  | 0x87 => return (next, { state with simulation := ← decodeBoolean buffer bufPos })
  | 0x88 => return (next, { state with confRev := ← decodeUint32 buffer elementLength bufPos })
  | 0x89 => return (next, { state with ndsCom := ← decodeBoolean buffer bufPos })
  | 0x8a =>
    let _ ← decodeUint32 buffer elementLength bufPos
    return (next, state)
  | 0xab =>
    let self ← state.self.parseValues casts fuel
      (Region.memory ⟨bufPos, elementLength⟩ buffer) elementLength
    return (next, { state with self })
  | _ => return (next, state)

/-- What the variables hold that the function does not initialise. -/
structure Uninitialised where
  gooseLength : Int
  elementLength : Int
  confRev : UInt32

/-- `parseGoosePayload`, with the subscriber as it is afterwards. -/
def parseGoosePayload (casts : FloatCasts) (uninitialised : Uninitialised) (fuel : Nat)
    (buffer : Memory) (apduLength : Int) (self : GooseSubscriber) :
    Exec (Int × GooseSubscriber) := do
  if (← buffer.read 0) = 0x61 then
    let (bufPos, gooseLength) ← decodeLength buffer uninitialised.gooseLength 1 apduLength
    let gooseEnd := i32 (bufPos + gooseLength)
    let (next, state) ←
      parseFields buffer apduLength gooseEnd (payloadField casts fuel buffer apduLength) fuel
        uninitialised.elementLength bufPos
        ⟨self, 0, 0, 0, uninitialised.confRev, false, false, false, 0⟩
    if next.isNone then return (state.result, state.self)
    else if state.isMatching then
      return (1, { state.self with
        stNum := state.stNum
        sqNum := state.sqNum
        timeAllowedToLive := state.timeAllowedToLive
        confRev := state.confRev
        ndsCom := state.ndsCom
        simulation := state.simulation })
    else return (0, state.self)
  else return (-1, self)

/-- Two octets at a position, as a `uint16_t`. -/
def decodeUint16 (buffer : Memory) (bufPos : Int) : Exec UInt16 := do
  let high ← buffer.read bufPos
  let low ← buffer.read (bufPos + 1)
  return UInt16.ofNat (high.toNat * 256 + low.toNat)

/-- `parseGooseMessage` -/
def parseGooseMessage (casts : FloatCasts) (uninitialised : Uninitialised) (fuel : Nat)
    (buffer : Memory) (numbytes : Int) (subscriber : GooseSubscriber) :
    Exec (Int × GooseSubscriber) := do
  if numbytes < 22 then return (-1, subscriber)
  let tagged := (← decodeUint16 buffer 12) = 0x8100
  let headerLength := if tagged then 18 else 14
  if (← decodeUint16 buffer (headerLength - 2)) ≠ 0x88b8 then return (-1, subscriber)
  let appId ← decodeUint16 buffer headerLength
  let length ← decodeUint16 buffer (headerLength + 2)
  if numbytes ≠ length.toNat + headerLength then return (-1, subscriber)
  if ∃ expected ∈ subscriber.appId, appId ≠ expected then return (0, subscriber)
  parseGoosePayload casts uninitialised fuel (Region.memory ⟨headerLength + 8, length.toNat - 8⟩
    buffer) (length.toNat - 8) subscriber

/-- `ETH_BUFFER_LENGTH` -/
def ethBufferLength : Nat := 1518

/-- One turn of `gooseSubscriberLoop` with a packet that has been received, and whether the listener
is called. -/
def receive (casts : FloatCasts) (uninitialised : Uninitialised) (fuel : Nat) (packet : List UInt8)
    (self : GooseSubscriber) : Exec (GooseSubscriber × Bool) := do
  let buffer := packet.take ethBufferLength
  if 0 < buffer.length then
    let (result, self) ←
      parseGooseMessage casts uninitialised fuel (.ofList buffer) buffer.length self
    return (self, result = 1 ∧ self.listener)
  else return (self, false)

end Goose

end Iec61850
