import Iec61850.Mms.Clone
import Iec61850.Lib.Block
import Iec61850.Lib.Arena

/-! The report buffer of `reporting.c`. A pointer into the memory block is the distance
from its beginning. -/

namespace Iec61850.Reporting

open Machine

inductive ReportInclusionFlag
  | none | valueUpdate | valueChanged | qualityChanged
  deriving DecidableEq

def ReportInclusionFlag.code : ReportInclusionFlag → UInt8
  | .none => 0
  | .valueUpdate => 1
  | .valueChanged => 2
  | .qualityChanged => 3

/-- A member of the data set of a report control block: its value, `inclusionFlags[i]`
and `bufferedDataSetValues[i]`. -/
structure Member where
  value : MmsValue
  flag : ReportInclusionFlag
  bufferedValue : Option MmsValue
  bufferedValue_of_flag : flag ≠ .none → bufferedValue.isSome

/-- What lies in the memory block. A value stands as it was when it was copied; only its integers
are read through pointers to the originals. -/
inductive BufferObject
  | entryId (id : UInt64)
  | octet (b : UInt8)
  | entryLength (n : Nat)
  | next (p : Option Nat)
  | value (v : MmsValue)

instance : Sized BufferObject where
  size
    | .entryId _ => 8
    | .octet _ => 1
    | .entryLength _ => 4
    | .next _ => 8
    | .value v => v.sizeInMemory

/-- `sizeof(ReportBufferEntry)`; the fields are at 0, 8, 12 and 16. -/
def sizeofReportBufferEntry : Nat := 24

@[ext] structure ReportBuffer where
  memoryBlock : Block BufferObject
  reportsCount : Int
  oldestReport : Option Nat
  lastEnqueuedReport : Option Nat
  nextToTransmit : Option Nat

namespace ReportBuffer

def create (memoryBlockSize : Nat) : ReportBuffer where
  memoryBlock := .empty memoryBlockSize
  reportsCount := 0
  oldestReport := none
  lastEnqueuedReport := none
  nextToTransmit := none

def purgeBuf (b : ReportBuffer) : ReportBuffer :=
  { b with lastEnqueuedReport := none, oldestReport := none, nextToTransmit := none,
           reportsCount := 0 }

def readNext (b : ReportBuffer) (entry : Nat) : Exec (Option Nat) := do
  match ← b.memoryBlock.read (entry + 16) with
  | .next p => return p
  | _ => .error .notThere

def readEntryLength (b : ReportBuffer) (entry : Nat) : Exec Nat := do
  match ← b.memoryBlock.read (entry + 12) with
  | .entryLength n => return n
  | _ => .error .notThere

def write (b : ReportBuffer) (pos : Nat) (o : BufferObject) : Exec ReportBuffer := do
  return { b with memoryBlock := ← b.memoryBlock.write pos o }

def writeNext (b : ReportBuffer) (entry : Nat) (p : Option Nat) : Exec ReportBuffer :=
  b.write (entry + 16) (.next p)

def evictOldest (b : ReportBuffer) (oldest : Nat) : Exec ReportBuffer := do
  let next ← b.readNext oldest
  return { b with
    nextToTransmit := if b.nextToTransmit = some oldest then next else b.nextToTransmit
    oldestReport := next
    reportsCount := b.reportsCount - 1 }

/-- The eviction loops. All of them end when `oldestReport` is the null pointer. -/
def evictWhile (test : Nat → Bool) : Nat → ReportBuffer → Exec ReportBuffer
  | 0, _ => .error .outOfFuel
  | fuel + 1, b =>
    match b.oldestReport with
    | none => .ok b
    | some oldest =>
      if test oldest then do evictWhile test fuel (← b.evictOldest oldest)
      else .ok b

/-- The end of the eviction loop that may empty the buffer. -/
def restartIfEmpty (b : ReportBuffer) : Exec ReportBuffer :=
  if b.oldestReport = none then writeNext { b with oldestReport := some 0 } 0 none else .ok b

/-- Each turn removes one entry. -/
def fuel (b : ReportBuffer) : Nat := b.reportsCount.toNat + 1

/-- Where the new entry goes: the part of `enqueueReport` that sets `entryBufPos`. -/
def allocateEntry (b : ReportBuffer) (bufferEntrySize : Nat) : Exec (ReportBuffer × Nat) := do
  match b.lastEnqueuedReport with
  | none => return ({ b with oldestReport := some 0, nextToTransmit := some 0 }, 0)
  | some last =>
    match b.oldestReport with
    | none => .error .assertion
    | some oldest =>
      let entryBufPos := last + (← b.readEntryLength last)
      if last = oldest then
        if b.reportsCount ≠ 1 then .error .assertion
        else if b.memoryBlock.size < entryBufPos + bufferEntrySize then
          let b ← writeNext { b with reportsCount := 0, oldestReport := some 0 } 0 none
          return ({ b with nextToTransmit := none }, 0)
        else
          let b := { b with
            nextToTransmit := if b.nextToTransmit = some oldest then some last
              else b.nextToTransmit
            oldestReport := some last }
          return (← b.writeNext last (some entryBufPos), entryBufPos)
      else if oldest < last then
        if b.memoryBlock.size < entryBufPos + bufferEntrySize then
          let b ← b.evictWhile (fun p => p < bufferEntrySize) b.fuel
          let b ← b.restartIfEmpty
          return (← b.writeNext last (some 0), 0)
        else return (← b.writeNext last (some entryBufPos), entryBufPos)
      else
        if b.memoryBlock.size < entryBufPos + bufferEntrySize then
          let b ← b.evictWhile (fun p => 0 < p) b.fuel
          let b ← b.evictWhile (fun p => p < bufferEntrySize) b.fuel
          return (← b.writeNext last (some 0), 0)
        else
          let b ← b.evictWhile (fun p => p < entryBufPos + bufferEntrySize ∧ p ≠ 0) b.fuel
          return (← b.writeNext last (some entryBufPos), entryBufPos)

end ReportBuffer

/-- The room for the reason for inclusion and the value. -/
def addValueSize (size : Nat) (v : MmsValue) : Exec Nat := do
  return size + 1 + (← v.getSizeInMemory)

def addChangedValueSize (size : Nat) (m : Member) : Exec Nat :=
  if m.flag = .none then .ok size
  else match m.bufferedValue with
    | some v => addValueSize size v
    | none => .error .assertion

def bufferEntrySize (members : List Member) (isIntegrity isGI : Bool) : Exec Nat :=
  if isIntegrity || isGI then
    members.foldlM (fun size m => addValueSize size m.value) sizeofReportBufferEntry
  else
    members.foldlM addChangedValueSize
      (sizeofReportBufferEntry + BerEncoder.bitStringByteSize members.length)

def setBitStringBit (buf : List UInt8) (bitPos : Nat) : List UInt8 :=
  buf.modify (bitPos / 8) (· ||| (1 <<< UInt8.ofNat (7 - bitPos % 8)))

def getBitStringBit (buf : List UInt8) (bitPos : Nat) : Bool :=
  (buf.getD (bitPos / 8) 0 &&& (1 <<< UInt8.ofNat (7 - bitPos % 8))) != 0

def setInclusionBits : Nat → List Member → List UInt8 → List UInt8
  | _, [], buf => buf
  | i, m :: ms, buf =>
    setInclusionBits (i + 1) ms (if m.flag = .none then buf else setBitStringBit buf i)

/-- The inclusion field of an entry. -/
def inclusionBits (members : List Member) : List UInt8 :=
  setInclusionBits 0 members (List.replicate (BerEncoder.bitStringByteSize members.length) 0)

namespace ReportBuffer

/-- The reason for inclusion and the copy of a value. -/
def encodeValue (b : ReportBuffer) (pos : Nat) (flag : ReportInclusionFlag) (value : MmsValue) :
    Exec (ReportBuffer × Nat) := do
  let b ← b.write pos (.octet flag.code)
  let b ← b.write (pos + 1) (.value value)
  return (b, ← value.cloneToBuffer (pos + 1))

def encodeAllValues (b : ReportBuffer) (pos : Nat) : List Member → Exec (ReportBuffer × Nat)
  | [] => .ok (b, pos)
  | m :: ms => do
    let (b, pos) ← b.encodeValue pos m.flag m.value
    encodeAllValues b pos ms

def encodeChangedValues (b : ReportBuffer) (pos : Nat) : List Member → Exec (ReportBuffer × Nat)
  | [] => .ok (b, pos)
  | m :: ms =>
    if m.flag = .none then encodeChangedValues b pos ms
    else match m.bufferedValue with
      | some v => do
        let (b, pos) ← b.encodeValue pos m.flag v
        encodeChangedValues b pos ms
      | none => .error .assertion

def writeOctets (b : ReportBuffer) (pos : Nat) : List UInt8 → Exec (ReportBuffer × Nat)
  | [] => .ok (b, pos)
  | o :: os => do writeOctets (← b.write pos (.octet o)) (pos + 1) os

/-- `entry->flags` -/
def entryFlags (isIntegrity isGI : Bool) : UInt8 :=
  if isIntegrity then 1 else if isGI then 2 else 0

/-- The header and the values of the new entry. -/
def writeEntry (b : ReportBuffer) (entryBufPos bufferEntrySize : Nat) (members : List Member)
    (isIntegrity isGI : Bool) (entryId : UInt64) : Exec ReportBuffer := do
  let b ← writeNext { b with lastEnqueuedReport := some entryBufPos } entryBufPos none
  let b := { b with reportsCount := b.reportsCount + 1 }
  let b ← b.write entryBufPos (.entryId entryId)
  let b ← b.write (entryBufPos + 8) (.octet (entryFlags isIntegrity isGI))
  let b ← b.write (entryBufPos + 12) (.entryLength bufferEntrySize)
  let pos := entryBufPos + sizeofReportBufferEntry
  if isIntegrity || isGI then return (← b.encodeAllValues pos members).1
  else
    -- the bits are set one by one in the loop over the values; nothing reads them before
    let (b, pos) ← b.writeOctets pos (inclusionBits members)
    return (← b.encodeChangedValues pos members).1

/-- `enqueueReport` on the buffer; the flag tells whether the event was not skipped. -/
def enqueueReport (b : ReportBuffer) (members : List Member) (isIntegrity isGI : Bool)
    (entryId : UInt64) : Exec (ReportBuffer × Bool) := do
  let size ← bufferEntrySize members isIntegrity isGI
  if b.memoryBlock.size < size then return (b, false)
  else
    let (b, entryBufPos) ← b.allocateEntry size
    let b ← b.writeEntry entryBufPos size members isIntegrity isGI entryId
    return ({ b with nextToTransmit := b.nextToTransmit.or b.lastEnqueuedReport
                     oldestReport := b.oldestReport.or b.lastEnqueuedReport }, true)

/-- What `sendNextReportEntry` does to the buffer when the report could be put together
in the local storage. -/
def transmitted (b : ReportBuffer) : Exec ReportBuffer :=
  match b.nextToTransmit with
  | none => .ok b
  | some report => do
    let next ← b.readNext report
    if next = some report then .error .assertion
    else return { b with nextToTransmit := next }

end ReportBuffer

end Iec61850.Reporting
