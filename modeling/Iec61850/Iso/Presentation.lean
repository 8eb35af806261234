import Iec61850.Asn1.BerElements

/-! `iso_presentation.c`: what is read from a presentation message. -/

namespace Iec61850

open Machine BerDecoder

/-- The payload is a part of the message. -/
structure IsoPresentation where
  nextContextId : UInt8
  acseContextId : UInt8
  mmsContextId : UInt8
  nextPayload : Option Region
  deriving DecidableEq

namespace IsoPresentation

/-- As the memory is allocated. -/
def init : IsoPresentation where
  nextContextId := 0
  acseContextId := 0
  mmsContextId := 0
  nextPayload := none

def asnIdAsAcse : List UInt8 := [0x52, 0x01, 0x00, 0x01]

def asnIdMms : List UInt8 := [0x28, 0xca, 0x22, 0x02, 0x01]

variable (buffer : Memory) (uninitialised : Int)

/-- The elements of the data list, with whether there are user data. -/
def fullyEncodedElement : ElementParser (Bool × IsoPresentation) :=
  fun tag length bufPos (userDataPresent, self) =>
    match tag with
    | 0x02 => do
      let presentationSelector ← decodeUint32 buffer length bufPos
      skip length bufPos
        (userDataPresent, { self with nextContextId := presentationSelector.toUInt8 })
    | 0xa0 => skip length bufPos (true, { self with nextPayload := some ⟨bufPos, length⟩ })
    | _ => skip length bufPos (userDataPresent, self)

def parseFullyEncodedData (fuel : Nat) (len bufPos : Int) (self : IsoPresentation) :
    Exec (Option Int × IsoPresentation) := do
  let endPos := i32 (bufPos + len)
  if (← buffer.read bufPos) ≠ 0x30 then return (none, self)
  let (bufPos, len) ← decodeLength buffer len (bufPos + 1) endPos
  if bufPos < 0 then return (none, self)
  let endPos := i32 (bufPos + len)
  let (bufPos, userDataPresent, self) ← parseElements buffer uninitialised endPos true
    (fullyEncodedElement buffer) fuel bufPos (false, self)
  return (if userDataPresent then bufPos else none, self)

/-- What is known of an entry of the list of contexts. -/
structure ContextEntry where
  contextId : Int
  isAcse : Bool
  isMms : Bool

def pcdlEntryElement : ElementParser ContextEntry :=
  fun tag len bufPos entry =>
    match tag with
    | 0x02 => do
      let contextId ← decodeUint32 buffer len bufPos
      skip len bufPos { entry with contextId := i32 contextId.toNat }
    | 0x06 => do
      if len = 5 then
        let isMms := (← buffer.readOctets bufPos 5) = asnIdMms
        skip len bufPos { entry with isMms := entry.isMms || isMms }
      else if len = 4 then
        let isAcse := (← buffer.readOctets bufPos 4) = asnIdAsAcse
        skip len bufPos { entry with isAcse := entry.isAcse || isAcse }
      else skip len bufPos entry
    | _ => skip len bufPos entry

def parsePCDLEntry (fuel : Nat) (totalLength bufPos : Int) (self : IsoPresentation) :
    Exec (Option Int × IsoPresentation) := do
  let (bufPos, entry) ← parseElements buffer uninitialised (i32 (bufPos + totalLength)) false
    (pcdlEntryElement buffer) fuel bufPos ⟨-1, false, false⟩
  if entry.contextId < 0 then return (none, self)
  if !entry.isAcse && !entry.isMms then return (none, self)
  let contextId := UInt8.ofInt entry.contextId
  if entry.isMms then return (bufPos, { self with mmsContextId := contextId })
  else return (bufPos, { self with acseContextId := contextId })

def definitionListElement (fuel : Nat) : ElementParser IsoPresentation :=
  fun tag len bufPos self =>
    if tag = 0x30 then
      return rejectNegative (← parsePCDLEntry buffer uninitialised fuel len bufPos self)
    else skip len bufPos self

def parsePresentationContextDefinitionList (fuel : Nat) (totalLength bufPos : Int)
    (self : IsoPresentation) : Exec (Option Int × IsoPresentation) :=
  parseElements buffer uninitialised (i32 (bufPos + totalLength)) false
    (definitionListElement buffer uninitialised fuel) fuel bufPos self

/-- An error in the list of contexts is not seen: the parser goes on at the position -1. -/
def normalModeElement (fuel : Nat) : ElementParser IsoPresentation :=
  fun tag len bufPos self =>
    if tag = 0xa4 then do
      let (bufPos, self) ←
        parsePresentationContextDefinitionList buffer uninitialised fuel len bufPos self
      return (some (bufPos.getD (-1)), self)
    else if tag = 0x61 then
      return rejectNegative (← parseFullyEncodedData buffer uninitialised fuel len bufPos self)
    else skip len bufPos self

def parseNormalModeParameters (fuel : Nat) (totalLength bufPos : Int) (self : IsoPresentation) :
    Exec (Option Int × IsoPresentation) :=
  parseElements buffer uninitialised (i32 (bufPos + totalLength)) true
    (normalModeElement buffer uninitialised fuel) fuel bufPos self

def acceptElement (fuel : Nat) : ElementParser IsoPresentation :=
  fun tag len bufPos self =>
    if tag = 0xa2 then
      return rejectNegative (← parseNormalModeParameters buffer uninitialised fuel len bufPos self)
    else skip len bufPos self

def parseAcceptMessage (fuel : Nat) (maxBufPos : Int) (self : IsoPresentation) :
    Exec (Bool × IsoPresentation) := do
  if (← buffer.read 0) ≠ 0x31 then return (false, self)
  let (bufPos, _) ← decodeLength buffer uninitialised 1 maxBufPos
  let (bufPos, self) ← parseElements buffer uninitialised maxBufPos true
    (acceptElement buffer uninitialised fuel) fuel bufPos self
  return (bufPos.isSome, self)

/-- The value of the mode is not looked at. -/
def connectElement (maxBufPos : Int) (fuel : Nat) : ElementParser IsoPresentation :=
  fun tag len bufPos self =>
    if tag = 0xa0 then do
      if (← buffer.read bufPos) ≠ 0x80 then return (none, self)
      let (bufPos, len) ← decodeLength buffer len (bufPos + 1) maxBufPos
      let _ ← decodeUint32 buffer len bufPos
      skip len bufPos self
    else if tag = 0xa2 then
      return rejectNegative (← parseNormalModeParameters buffer uninitialised fuel len bufPos self)
    else skip len bufPos self

def parseConnect (fuel : Nat) (maxBufPos : Int) (self : IsoPresentation) :
    Exec (Bool × IsoPresentation) := do
  if (← buffer.read 0) ≠ 0x31 then return (false, self)
  let (bufPos, _) ← decodeLength buffer uninitialised 1 maxBufPos
  let (bufPos, self) ← parseElements buffer uninitialised maxBufPos true
    (connectElement buffer uninitialised maxBufPos fuel) fuel bufPos self
  return (bufPos.isSome, self)

def parseUserData (length : Int) (self : IsoPresentation) : Exec (Bool × IsoPresentation) := do
  if length < 9 then return (false, self)
  if (← buffer.read 0) ≠ 0x61 then return (false, self)
  let (bufPos, len) ← decodeLength buffer uninitialised 1 length
  if (← buffer.read bufPos) ≠ 0x30 then return (false, self)
  let (bufPos, _) ← decodeLength buffer len (bufPos + 1) length
  if (← buffer.read bufPos) ≠ 0x02 then return (false, self)
  if (← buffer.read (bufPos + 1)) ≠ 0x01 then return (false, self)
  let self := { self with nextContextId := ← buffer.read (bufPos + 2) }
  if (← buffer.read (bufPos + 3)) ≠ 0xa0 then return (false, self)
  let (bufPos, userDataLength) ← decodeLength buffer uninitialised (bufPos + 4) length
  return (true, { self with nextPayload := some ⟨bufPos, userDataLength⟩ })

section Fuel

variable {buffer uninitialised}

theorem parseFullyEncodedData_mono (len bufPos : Int) (self : IsoPresentation) :
    FuelMonotone fun fuel => parseFullyEncodedData buffer uninitialised fuel len bufPos self := by
  apply FuelMonotone.bind (FuelMonotone.const _)
  intro tag
  apply FuelMonotone.ite (FuelMonotone.const _)
  apply FuelMonotone.bind (FuelMonotone.const _)
  intro pair
  apply FuelMonotone.ite (FuelMonotone.const _)
  apply FuelMonotone.bind (parseElements_mono_leaf _ _ _)
  exact fun _ => FuelMonotone.const _

theorem parsePCDLEntry_mono (totalLength bufPos : Int) (self : IsoPresentation) :
    FuelMonotone fun fuel => parsePCDLEntry buffer uninitialised fuel totalLength bufPos self := by
  apply FuelMonotone.bind (parseElements_mono_leaf _ _ _)
  exact fun _ => FuelMonotone.const _

theorem parsePresentationContextDefinitionList_mono (totalLength bufPos : Int)
    (self : IsoPresentation) : FuelMonotone fun fuel =>
      parsePresentationContextDefinitionList buffer uninitialised fuel totalLength bufPos self := by
  apply parseElements_mono
  intro tag len bufPos self
  apply FuelMonotone.ite
  · exact (parsePCDLEntry_mono len bufPos self).bind fun _ => FuelMonotone.const _
  · exact FuelMonotone.const _

theorem parseNormalModeParameters_mono (totalLength bufPos : Int) (self : IsoPresentation) :
    FuelMonotone fun fuel =>
      parseNormalModeParameters buffer uninitialised fuel totalLength bufPos self := by
  apply parseElements_mono
  intro tag len bufPos self
  apply FuelMonotone.ite
  · apply (parsePresentationContextDefinitionList_mono len bufPos self).bind
    exact fun _ => FuelMonotone.const _
  · apply FuelMonotone.ite
    · exact (parseFullyEncodedData_mono len bufPos self).bind fun _ => FuelMonotone.const _
    · exact FuelMonotone.const _

/-- Whether a message is accepted does not depend on the fuel. -/
theorem parseAcceptMessage_mono (maxBufPos : Int) (self : IsoPresentation) :
    FuelMonotone fun fuel => parseAcceptMessage buffer uninitialised fuel maxBufPos self := by
  apply FuelMonotone.bind (FuelMonotone.const _)
  intro tag
  apply FuelMonotone.ite (FuelMonotone.const _)
  apply FuelMonotone.bind (FuelMonotone.const _)
  intro pair
  apply FuelMonotone.bind
  · apply parseElements_mono
    intro tag len bufPos self
    apply FuelMonotone.ite
    · exact (parseNormalModeParameters_mono len bufPos self).bind fun _ => FuelMonotone.const _
    · exact FuelMonotone.const _
  · exact fun _ => FuelMonotone.const _

theorem parseConnect_mono (maxBufPos : Int) (self : IsoPresentation) :
    FuelMonotone fun fuel => parseConnect buffer uninitialised fuel maxBufPos self := by
  apply FuelMonotone.bind (FuelMonotone.const _)
  intro tag
  apply FuelMonotone.ite (FuelMonotone.const _)
  apply FuelMonotone.bind (FuelMonotone.const _)
  intro pair
  apply FuelMonotone.bind
  · apply parseElements_mono
    intro tag len bufPos self
    apply FuelMonotone.ite (FuelMonotone.const _)
    apply FuelMonotone.ite
    · exact (parseNormalModeParameters_mono len bufPos self).bind fun _ => FuelMonotone.const _
    · exact FuelMonotone.const _
  · exact fun _ => FuelMonotone.const _

end Fuel

end IsoPresentation

end Iec61850
