import Iec61850.Control.ControlClient
import Iec61850.Mms.BitStrings
import Iec61850.Server.WriteAccess

/-! The functions an application gives a data attribute another value with (`ied_server.c`). Each
compares the new value with the old one in its own type, and what follows depends on that. -/

namespace Iec61850

open Machine

namespace MmsValue

variable {value : MmsValue}

def isFloat : MmsValue → Bool
  | .float _ => true
  | _ => false

def isInteger : MmsValue → Bool
  | .integer _ => true
  | _ => false

def isUnsigned : MmsValue → Bool
  | .unsigned _ => true
  | _ => false

def isBitString : MmsValue → Bool
  | .bitString _ => true
  | _ => false

def isBoolean : MmsValue → Bool
  | .boolean _ => true
  | _ => false

def isVisibleString : MmsValue → Bool
  | .visibleString _ => true
  | _ => false

def isUtcTime : MmsValue → Bool
  | .utcTime _ => true
  | _ => false

/-- The octets have the order of the processor, the lowest one first. -/
def toFloat : MmsValue → Float32
  | .float f =>
    if f.formatWidth = 32 then Float32.ofBits (UInt32.ofNat (Octets.value f.buf.reverse))
    else (Float.ofBits (UInt64.ofNat (Octets.value f.buf.reverse))).toFloat32
  | _ => 0

def floatOctets (formatWidth : Nat) (newFloatValue : Float32) : List UInt8 :=
  BerEncoder.nativeOctets (formatWidth / 8)
    (if formatWidth = 32 then newFloatValue.toBits.toNat
      else newFloatValue.toFloat.toBits.toNat)

theorem length_floatOctets (formatWidth : Nat) (newFloatValue : Float32) :
    (floatOctets formatWidth newFloatValue).length = formatWidth / 8 := by
  rw [floatOctets, BerEncoder.nativeOctets, List.length_reverse, Octets.length_ofNat]

def setFloat (newFloatValue : Float32) : MmsValue → MmsValue
  | .float f => .float { f with
      buf := floatOctets f.formatWidth newFloatValue
      buf_length := length_floatOctets f.formatWidth newFloatValue }
  | value => value

def BitString.buffer (b : BitString) : BitBuffer := ⟨b.size, b.buf, b.buf_length.ge⟩

theorem length_buf_setBitStringBit (b : BitBuffer) (bitPos : Nat) (bit : Bool) :
    (b.setBitStringBit bitPos bit).buf.length = b.buf.length := by
  rw [BitBuffer.setBitStringBit]
  split
  · exact List.length_set
  · rfl

theorem length_buf_setBitsFrom (n bitPos : Nat) (intValue : UInt32) (b : BitBuffer) :
    (BitBuffer.setBitsFrom n bitPos intValue b).buf.length = b.buf.length := by
  induction n generalizing bitPos intValue b with
  | zero => rfl
  | succ n ih => rw [BitBuffer.setBitsFrom, ih, length_buf_setBitStringBit]

def getBitStringAsInteger : MmsValue → UInt32
  | .bitString b => b.buffer.getBitStringAsInteger
  | _ => 0

def setBitStringFromInteger (intValue : UInt32) : MmsValue → MmsValue
  | .bitString b => .bitString
      { size := b.size
        buf := (b.buffer.setBitStringFromInteger intValue).buf
        buf_length := (length_buf_setBitsFrom _ _ _ _).trans b.buf_length }
  | value => value

def getBitStringSize : MmsValue → Nat
  | .bitString b => b.size
  | _ => 0

def getBoolean : MmsValue → Bool
  | .boolean b => b
  | _ => false

def toString : MmsValue → Option CString
  | .visibleString s => s
  | .mmsString s => s
  | _ => none

def setVisibleString (string : CString) : MmsValue → MmsValue
  | .visibleString _ => .visibleString (some string)
  | value => value

/-- All octets of the value are set, the time quality too. -/
def setUtcTimeMs (timeval : UInt64) : MmsValue → MmsValue
  | .utcTime _ => newUtcTimeByMsTime timeval
  | value => value

/-- `!strcmp` of the string of the value and another one. -/
def sameString (value : MmsValue) (string : CString) : Exec Bool :=
  match value.toString with
  | some current => .ok (current.octets == string.octets)
  | none => .error .nullPointer

end MmsValue

/-- The data attribute that the functions are called with. -/
structure NamedAttribute extends BoundAttribute where
  name : List UInt8

namespace IedServer

variable (s : IedServer) (da : NamedAttribute)

/-- What the functions for values of one type have in common. -/
def updateTyped (hasType : MmsValue → Bool) (same : MmsValue → Exec Bool)
    (set : MmsValue → MmsValue) : Exec (IedServer × List WriteEvent) :=
  match da.mmsValue with
  | none => .error .nullPointer
  | some p => do
    let current ← s.valueAt p
    if !hasType current then throw .assertion
    if ← same current then return (s, checkForUpdateTrigger da.toBoundAttribute p)
    return (s.modifyAt p set, checkForChangedTriggers da.toBoundAttribute p)

def updateFloatAttributeValue (value : Float32) : Exec (IedServer × List WriteEvent) :=
  s.updateTyped da MmsValue.isFloat (fun current => .ok (current.toFloat == value))
    (MmsValue.setFloat value)

def updateInt32AttributeValue (value : Int32) : Exec (IedServer × List WriteEvent) :=
  s.updateTyped da MmsValue.isInteger (fun current => .ok (current.toInt32 == value))
    (MmsValue.setInt32 · value)

def updateInt64AttributeValue (value : Int64) : Exec (IedServer × List WriteEvent) :=
  s.updateTyped da MmsValue.isInteger (fun current => .ok (current.toInt64 == value))
    (MmsValue.setInt64 · value)

def updateUnsignedAttributeValue (value : UInt32) : Exec (IedServer × List WriteEvent) :=
  s.updateTyped da MmsValue.isUnsigned (fun current => .ok (current.toUint32 == value))
    (MmsValue.setUint32 · value)

def updateBitStringAttributeValue (value : UInt32) : Exec (IedServer × List WriteEvent) :=
  s.updateTyped da MmsValue.isBitString
    (fun current => .ok (current.getBitStringAsInteger == value))
    (MmsValue.setBitStringFromInteger value)

def updateBooleanAttributeValue (value : Bool) : Exec (IedServer × List WriteEvent) :=
  s.updateTyped da MmsValue.isBoolean (fun current => .ok (current.getBoolean == value))
    (MmsValue.setBoolean value)

def updateVisibleStringAttributeValue (value : MmsValue.CString) :
    Exec (IedServer × List WriteEvent) :=
  s.updateTyped da MmsValue.isVisibleString (·.sameString value) (MmsValue.setVisibleString value)

def updateUTCTimeAttributeValue (value : UInt64) : Exec (IedServer × List WriteEvent) :=
  s.updateTyped da MmsValue.isUtcTime (fun current => .ok (current.getUtcTimeInMs == some value))
    (MmsValue.setUtcTimeMs value)

/-- The octet of the name `q`. -/
def qualityName : List UInt8 := [113]

/-- What follows a change of a quality. -/
def checkForQualityTrigger (da : BoundAttribute) (p : ValuePlace) : List WriteEvent :=
  (if da.triggerOptions &&& 2 ≠ 0 then [.triggerReportObservers p .qualityChanged] else []) ++
    [.triggerGooseObservers p]

/-- A quality is compared like a bit string. -/
def updateQuality (quality : UInt16) : Exec (IedServer × List WriteEvent) :=
  if da.name = qualityName then
    match da.mmsValue with
    | none => .error .nullPointer
    | some p => do
      let current ← s.valueAt p
      if current.isBitString ∧ 12 ≤ current.getBitStringSize ∧ current.getBitStringSize ≤ 15 then
        if current.getBitStringAsInteger ≠ quality.toUInt32 then
          return (s.modifyAt p (MmsValue.setBitStringFromInteger quality.toUInt32),
            checkForQualityTrigger da.toBoundAttribute p)
        else return (s, [])
      else .error .assertion
  else .error .assertion

end IedServer

/-- A call of one of the functions, with the value it is given. -/
inductive AttributeUpdate
  | attributeValue (value : MmsValue)
  | float (value : Float32)
  | int32 (value : Int32)
  | int64 (value : Int64)
  | unsigned (value : UInt32)
  | bitString (value : UInt32)
  | boolean (value : Bool)
  | visibleString (value : MmsValue.CString)
  | utcTime (value : UInt64)
  | quality (quality : UInt16)

namespace AttributeUpdate

/-- The new value is not the one that is read from the attribute in its type. -/
def differs : AttributeUpdate → MmsValue → Bool
  | .attributeValue value, current => !current.equals value
  | .float value, current => !(current.toFloat == value)
  | .int32 value, current => current.toInt32 != value
  | .int64 value, current => current.toInt64 != value
  | .unsigned value, current => current.toUint32 != value
  | .bitString value, current => current.getBitStringAsInteger != value
  | .boolean value, current => current.getBoolean != value
  | .visibleString value, current => current.toString.map (·.octets) != some value.octets
  | .utcTime value, current => current.getUtcTimeInMs != some value
  | .quality value, current => current.getBitStringAsInteger != value.toUInt32

def isQuality : AttributeUpdate → Bool
  | .quality _ => true
  | _ => false

/-- Why members are to be reported: a change is one of the data if the attribute has this trigger,
and one of the quality otherwise. The function for qualities knows changes of the quality only. -/
def reason (u : AttributeUpdate) (triggerOptions : UInt8) (current : MmsValue) :
    Reporting.ReportInclusionFlag :=
  if u.differs current then
    if triggerOptions &&& 1 ≠ 0 ∧ u.isQuality = false then .valueChanged
    else if triggerOptions &&& 2 ≠ 0 then .qualityChanged
    else .none
  else if triggerOptions &&& 4 ≠ 0 ∧ u.isQuality = false then .valueUpdate
  else .none

/-- What follows for the control blocks. -/
def events (u : AttributeUpdate) (triggerOptions : UInt8) (p : ValuePlace) (current : MmsValue) :
    List WriteEvent :=
  (if u.reason triggerOptions current = .none then []
    else [.triggerReportObservers p (u.reason triggerOptions current)]) ++
  if u.differs current then [.triggerGooseObservers p] else []

end AttributeUpdate

namespace IedServer

def update (s : IedServer) (da : NamedAttribute) :
    AttributeUpdate → Exec (IedServer × List WriteEvent)
  | .attributeValue value => s.updateAttributeValue da.toBoundAttribute value
  | .float value => s.updateFloatAttributeValue da value
  | .int32 value => s.updateInt32AttributeValue da value
  | .int64 value => s.updateInt64AttributeValue da value
  | .unsigned value => s.updateUnsignedAttributeValue da value
  | .bitString value => s.updateBitStringAttributeValue da value
  | .boolean value => s.updateBooleanAttributeValue da value
  | .visibleString value => s.updateVisibleStringAttributeValue da value
  | .utcTime value => s.updateUTCTimeAttributeValue da value
  | .quality quality => s.updateQuality da quality

/-- The attribute had the value `current` at `p`, and has been changed there if the new value
differs. -/
structure Updated (s : IedServer) (da : NamedAttribute) (u : AttributeUpdate) (s' : IedServer)
    (events : List WriteEvent) (p : ValuePlace) (current : MmsValue) : Prop where
  mmsValue : da.mmsValue = some p
  valueAt : s.valueAt p = .ok current
  server : ∃ set, s' = if u.differs current then s.modifyAt p set else s
  events : events = u.events da.triggerOptions p current

variable {s s' : IedServer} {da : NamedAttribute} {u : AttributeUpdate}
  {events : List WriteEvent}

end IedServer

end Iec61850
