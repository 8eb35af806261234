import Iec61850.Report.ReportControl

/-! The reports of a report control block: what makes them, and what is in them. -/

namespace Iec61850.Reporting

open Machine

/-- A report on its way to `connection`. Its inclusion field has `elementCount` bits. -/
structure Report where
  connection : Option Connection
  header : List MmsValue
  elementCount : Nat
  inclusion : List UInt8
  values : List MmsValue
  reasons : List (List UInt8)

/-- What can be seen of a function: `sendReport` or `enqueueReport` makes a report of the data
set as it is, and a report is sent. -/
inductive Output
  | generated (isIntegrity isGI : Bool) (members : List Member)
  | sent (report : Report)

/-- `MmsValue_setAllBitStringBits` on an inclusion field of `n` members. -/
def allBitStringBits (n : Nat) : List UInt8 :=
  let byteSize := BerEncoder.bitStringByteSize n
  BerEncoder.maskLast (BerEncoder.paddingMask (byteSize * 8 - n)) (List.replicate byteSize 0xff)

/-- The six bits of a reason for inclusion with one of them set. -/
def reasonBit (bitPos : Nat) : List UInt8 := setBitStringBit [0] bitPos

def reasonOfFlag : ReportInclusionFlag → List UInt8
  | .qualityChanged => reasonBit 2
  | .valueChanged => reasonBit 1
  | .valueUpdate => reasonBit 3
  | .none => [0]

def isIncluded (m : Member) : Bool := m.flag ≠ .none

/-- The values `bufferedDataSetValues[i]` of the members that are included. -/
def changedValues : List Member → Exec (List MmsValue)
  | [] => .ok []
  | m :: ms =>
    if m.flag = .none then changedValues ms
    else match m.bufferedValue with
      | some v => do return v :: (← changedValues ms)
      | none => .error .assertion

/-- The values `sendReport` puts into the report: all of them or the included ones. -/
def sentValues (all : Bool) (members : List Member) : Exec (List MmsValue) :=
  if all then .ok (members.map (·.value)) else changedValues members

/-- The reasons for inclusion that `sendReport` puts into the report. -/
def sentReasons (isIntegrity isGI : Bool) (members : List Member) : List (List UInt8) :=
  if isGI || isIntegrity then
    members.map fun _ =>
      let reason := if isGI then setBitStringBit [0] 5 else [0]
      if isIntegrity then setBitStringBit reason 4 else reason
  else (members.filter isIncluded).map fun m => reasonOfFlag m.flag

namespace ReportControl

/-- `self->timeOfEntry` -/
def timeOfEntryValue (rc : ReportControl) : MmsValue :=
  if rc.buffered then rc.rcbValues .timeOfEntry else rc.timeOfEntry

def updateTimeOfEntry (rc : ReportControl) (currentTime : UInt64) : ReportControl :=
  if rc.buffered then rc.setRCBValue .timeOfEntry (·.setBinaryTime currentTime)
  else { rc with timeOfEntry := rc.timeOfEntry.setBinaryTime currentTime }

def increaseSqNum (rc : ReportControl) : ReportControl :=
  let sqNum := rc.sqNum + 1
  setRCBValue { rc with sqNum := sqNum } .sqNum (·.setUint16 sqNum)

/-- The elements of a report before its inclusion field. -/
def reportHeader (rc : ReportControl) (entryId : Option MmsValue) : List MmsValue :=
  let optFlds := rc.rcbValues .optFlds
  [rc.rcbValues .rptID, optFlds] ++
    (if optFlds.getBitStringBit 1 then [rc.rcbValues .sqNum] else []) ++
    (if optFlds.getBitStringBit 2 then [rc.timeOfEntryValue] else []) ++
    (if optFlds.getBitStringBit 4 then [rc.rcbValues .datSet] else []) ++
    (if optFlds.getBitStringBit 6 then [.boolean false] else []) ++
    (if optFlds.getBitStringBit 7 then entryId.toList else []) ++
    (if optFlds.getBitStringBit 8 then [rc.rcbValues .confRev] else [])

/-- `sendReport`, for blocks that are not buffered. -/
def sendReport (rc : ReportControl) (isIntegrity isGI : Bool) :
    Exec (ReportControl × List Output) :=
  match rc.members with
  | none => .error .nullPointer
  | some members => do
    let rc := rc.setRCBValue .optFlds fun optFlds =>
      ((optFlds.clearBitStringBit 5).clearBitStringBit 7).clearBitStringBit 9
    let all := isGI || isIntegrity
    let values ← sentValues all members
    let report : Report :=
      { connection := rc.clientConnection
        header := rc.reportHeader none
        elementCount := members.length
        inclusion := if all then allBitStringBits members.length else inclusionBits members
        values := values
        reasons := if (rc.rcbValues .optFlds).getBitStringBit 3 then
            sentReasons isIntegrity isGI members
          else [] }
    return (rc.clearInclusionFlags.increaseSqNum,
      [.generated isIntegrity isGI members, .sent report])

def entryIdValue (id : UInt64) : List UInt8 := BerEncoder.nativeOctets 8 id.toNat

/-- `enqueueReport`, at the time `now`. An entry that does not fit leaves everything as it is. -/
def enqueueReport (rc : ReportControl) (isIntegrity isGI : Bool) (now : UInt64) :
    Exec (ReportControl × List Output) :=
  match rc.members with
  | none => .error .nullPointer
  | some members => do
    let timestamp := if now = rc.lastEntryId then now + 1 else now
    let (buffer, stored) ← rc.reportBuffer.enqueueReport members isIntegrity isGI timestamp
    if stored then
      let rc := if rc.enabled then rc
        else rc.setRCBValue .entryID (MmsValue.setOctetString (entryIdValue timestamp))
      return ({ rc.clearInclusionFlags with reportBuffer := buffer, lastEntryId := timestamp },
        [.generated isIntegrity isGI members])
    else return (rc, [])

end ReportControl

/-- Reading an entry: `n` octets. -/
def readOctets (m : Block BufferObject) (pos : Nat) : Nat → Exec (List UInt8)
  | 0 => .ok []
  | n + 1 => do
    match ← m.read pos with
    | .octet b => return b :: (← readOctets m (pos + 1) n)
    | _ => .error .notThere

/-- One reason and value, and the position behind them. -/
def readValue (m : Block BufferObject) (pos : Nat) : Exec (UInt8 × MmsValue × Nat) := do
  match ← m.read pos with
  | .octet flag =>
    match ← m.read (pos + 1) with
    | .value v => return (flag, v, pos + 1 + (← v.getSizeInMemory))
    | _ => .error .notThere
  | _ => .error .notThere

/-- The loop over the `n` members from the `i`th on, of which `included` are in the entry. -/
def readValues (m : Block BufferObject) (included : Nat → Bool) :
    Nat → Nat → Nat → Exec (List (UInt8 × MmsValue))
  | 0, _, _ => .ok []
  | n + 1, i, pos =>
    if included i then do
      let (flag, v, pos) ← readValue m pos
      return (flag, v) :: (← readValues m included n (i + 1) pos)
    else readValues m included n (i + 1) pos

/-- The reason for inclusion of a stored `ReportInclusionFlag`. -/
def reasonOfCode (flag : UInt8) : List UInt8 :=
  if flag = 3 then reasonBit 2
  else if flag = 2 then reasonBit 1
  else if flag = 1 then reasonBit 3
  else [0]

/-- The reason for inclusion of an entry with the flags of an integrity or GI report. -/
def reasonOfFlags (flags : UInt8) : List UInt8 :=
  let reason := if flags &&& 0x01 ≠ 0 then setBitStringBit [0] 5 else [0]
  if flags &&& 0x02 ≠ 0 then setBitStringBit reason 4 else reason

/-- A stored report as the reader takes it apart. -/
structure StoredReport where
  entryId : UInt64
  flags : UInt8
  inclusion : List UInt8
  values : List (UInt8 × MmsValue)

def StoredReport.reasons (stored : StoredReport) : List (List UInt8) :=
  if stored.flags = 0 then stored.values.map fun v => reasonOfCode v.1
  else stored.values.map fun _ => reasonOfFlags stored.flags

def localStorageMemorySize : Nat := 65536

/-- Taking an entry apart with the number of members the data set has now. -/
def readEntry (m : Block BufferObject) (entry n : Nat) : Exec StoredReport := do
  match ← m.read entry, ← m.read (entry + 8) with
  | .entryId id, .octet flags =>
    if flags = 0 then do
      let inclusion ← readOctets m (entry + sizeofReportBufferEntry)
        (BerEncoder.bitStringByteSize n)
      let values ← readValues m (fun i => i < n && getBitStringBit inclusion i) n 0
        (entry + sizeofReportBufferEntry + BerEncoder.bitStringByteSize n)
      return ⟨id, flags, inclusion, values⟩
    else do
      let values ← readValues m (fun _ => true) n 0 (entry + sizeofReportBufferEntry)
      return ⟨id, flags, allBitStringBits n, values⟩
  | _, _ => .error .notThere

namespace ReportControl

/-- The elements of the block that go with an entry. -/
def prepareEntry (rc : ReportControl) (stored : StoredReport) : ReportControl :=
  (rc.setRCBValue .entryID (MmsValue.setOctetString (entryIdValue stored.entryId))).setRCBValue
    .optFlds fun optFlds => (optFlds.clearBitStringBit 5).clearBitStringBit 9

def entryHeader (rc : ReportControl) : List MmsValue :=
  rc.reportHeader (some (rc.rcbValues .entryID))

/-- The report of an entry of `n` members. -/
def entryReport (rc : ReportControl) (stored : StoredReport) (n : Nat) : Report where
  connection := rc.clientConnection
  header := rc.entryHeader
  elementCount := n
  inclusion := stored.inclusion
  values := stored.values.map Prod.snd
  reasons := if (rc.rcbValues .optFlds).getBitStringBit 3 then stored.reasons else []

/-- The octets `sendNextReportEntry` allocates: the list with its elements, the inclusion field
of an integrity or GI report, and the values it makes. -/
def localStorageUsed (rc : ReportControl) (stored : StoredReport) (n : Nat) : Nat :=
  let optFlds := rc.rcbValues .optFlds
  24 + 16 * (rc.entryHeader.length + 1 + stored.values.length) +
    (if stored.flags ≠ 0 then BerEncoder.bitStringByteSize n else 0) +
    (if optFlds.getBitStringBit 6 then MmsValue.sizeofMmsValue else 0) +
    (if optFlds.getBitStringBit 7 then MmsValue.sizeofMmsValue else 0) +
    (if optFlds.getBitStringBit 3 then
      stored.values.length * (MmsValue.sizeofMmsValue + 1 + 16) else 0)

/-- `sendNextReportEntry` -/
def sendNextReportEntry (rc : ReportControl) : Exec (ReportControl × List Output) :=
  match rc.reportBuffer.nextToTransmit, rc.members with
  | none, _ => .ok (rc, [])
  | some _, none => .error .nullPointer
  | some entry, some members => do
    let stored ← readEntry rc.reportBuffer.memoryBlock entry members.length
    let rc := rc.prepareEntry stored
    if localStorageMemorySize < rc.localStorageUsed stored members.length then return (rc, [])
    else
      let buffer ← rc.reportBuffer.transmitted
      return ({ rc.increaseSqNum with reportBuffer := buffer },
        [.sent (rc.entryReport stored members.length)])

/-- Each of the reports that `processEventsForReport` makes. -/
def generate (rc : ReportControl) (isIntegrity isGI : Bool) (now : UInt64) :
    Exec (ReportControl × List Output) :=
  if rc.buffered then rc.enqueueReport isIntegrity isGI now else rc.sendReport isIntegrity isGI

/-- Pending events go into a report of their own. -/
def flush (rc : ReportControl) (now : UInt64) : Exec (ReportControl × List Output) :=
  if rc.triggered then do
    let (rc, outputs) ← rc.generate false false now
    return ({ rc with triggered := false }, outputs)
  else .ok (rc, [])

def processGI (rc : ReportControl) (currentTime : UInt64) (hal : Nat → UInt64) :
    Exec (ReportControl × List Output) :=
  if rc.triggerOps.gi && rc.gi then do
    let (rc, before) ← rc.flush (hal 0)
    let (rc, outputs) ← (rc.updateTimeOfEntry currentTime).generate false true (hal 1)
    return ({ rc with gi := false, triggered := false }, before ++ outputs)
  else .ok (rc, [])

def processIntegrity (rc : ReportControl) (currentTime : UInt64) (hal : Nat → UInt64) :
    Exec (ReportControl × List Output) :=
  if rc.triggerOps.integrity && 0 < rc.intgPd && rc.nextIntgReportTime ≤ currentTime then do
    let (rc, before) ← rc.flush (hal 2)
    let rc := { rc with nextIntgReportTime := currentTime + rc.intgPd.toUInt64 }
    let (rc, outputs) ← (rc.updateTimeOfEntry currentTime).generate true false (hal 3)
    return ({ rc with triggered := false }, before ++ outputs)
  else .ok (rc, [])

def processTriggered (rc : ReportControl) (currentTime : UInt64) (hal : Nat → UInt64) :
    Exec (ReportControl × List Output) :=
  if rc.triggered && rc.reportTime ≤ currentTime then rc.flush (hal 4) else .ok (rc, [])

/-- The last thing `processEventsForReport` does. -/
def sendPending (rc : ReportControl) : Exec (ReportControl × List Output) :=
  if rc.buffered && rc.enabled then rc.sendNextReportEntry else .ok (rc, [])

/-- `processEventsForReport`; `hal` is what `Hal_getTimeInMs` returns in each of the places
where it is called. -/
def processEventsForReport (rc : ReportControl) (currentTime : UInt64) (hal : Nat → UInt64) :
    Exec (ReportControl × List Output) :=
  if rc.enabled || rc.isBuffering then do
    let (rc, outputs) ← rc.processGI currentTime hal
    let (rc, outputs') ← rc.processIntegrity currentTime hal
    let (rc, outputs'') ← rc.processTriggered currentTime hal
    let (rc, sent) ← rc.sendPending
    return (rc, outputs ++ outputs' ++ outputs'' ++ sent)
  else .ok (rc, [])

/-- The member takes the flag, and its buffered value follows the value of the data set. -/
def includeMember (m : Member) (flag : ReportInclusionFlag) : Member where
  value := m.value
  flag := flag
  bufferedValue := some (match m.bufferedValue with
    | none => m.value
    | some buffered => buffered.updated m.value)
  bufferedValue_of_flag := fun _ => rfl

def setInclusionFlag (rc : ReportControl) (index : Nat) (flag : ReportInclusionFlag) :
    ReportControl :=
  { rc with members := rc.members.map fun ms => ms.modify index (includeMember · flag) }

/-- The first event of a report starts its buffer time. -/
def startBufferTime (rc : ReportControl) (now : UInt64) : ReportControl :=
  if rc.triggered then rc
  else { rc.updateTimeOfEntry now with reportTime := now + rc.bufTm.toUInt64 }

/-- A report with this member is already pending: it does not wait for the buffer time. -/
def bypassBufferTime (rc : ReportControl) (member : Member) (now : UInt64) (hal : Nat → UInt64) :
    Exec (ReportControl × List Output) :=
  if member.flag ≠ .none then processEventsForReport { rc with reportTime := now } now hal
  else .ok (rc, [])

/-- `ReportControl_valueUpdated`; `now` is the time of its own calls of `Hal_getTimeInMs`. -/
def valueUpdated (rc : ReportControl) (dataSetEntryIndex : Nat) (flag : ReportInclusionFlag)
    (now : Nat → UInt64) (hal : Nat → UInt64) : Exec (ReportControl × List Output) :=
  match rc.members.bind (·[dataSetEntryIndex]?) with
  | none => .error .outOfBounds
  | some member => do
    let (rc, outputs) ← rc.bypassBufferTime member (now 0) hal
    let rc := (rc.setInclusionFlag dataSetEntryIndex flag).startBufferTime (now 1)
    return ({ rc with triggered := true }, outputs)

/-- The test of `MmsMapping_triggerReportObservers`. -/
def observes (rc : ReportControl) (flag : ReportInclusionFlag) : Bool :=
  (rc.enabled || (rc.buffered && rc.members.isSome)) &&
    match flag with
    | .valueUpdate => rc.triggerOps.dataUpdate
    | .valueChanged => rc.triggerOps.dataChanged || rc.triggerOps.dataUpdate
    | .qualityChanged => rc.triggerOps.qualityChanged
    | .none => false

/-- `MmsMapping_triggerReportObservers` on one block, for a value that is the member of the
data set at `index`, or no member. -/
def triggerReportObservers (rc : ReportControl) (index : Option Nat) (flag : ReportInclusionFlag)
    (now : Nat → UInt64) (hal : Nat → UInt64) : Exec (ReportControl × List Output) :=
  if rc.observes flag then
    match index with
    | some index => rc.valueUpdated index flag now hal
    | none => .ok (rc, [])
  else .ok (rc, [])

/-- The application gives a member of the data set another value. -/
def setMemberValue (rc : ReportControl) (index : Nat) (value : MmsValue) : ReportControl :=
  { rc with members := rc.members.map fun ms => ms.modify index fun m => { m with value := value } }

end ReportControl

end Iec61850.Reporting
