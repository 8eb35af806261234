import Iec61850.Report.Events

/-! How a report control block comes into being, and what happens to it afterwards. -/

namespace Iec61850

namespace MmsValue

def newUnsigned : MmsValue := .unsigned (.create 4)

def newUnsignedFromUint32 (integer : UInt32) : MmsValue :=
  .unsigned (storeInteger (BerInteger.setUint32 · integer) (.create 4))

def newIntegerFromInt16 (integer : Int16) : MmsValue :=
  .integer (storeInteger (BerInteger.setInt32 · integer.toInt32) (.create 4))

def newBitString (bitSize : Nat) : MmsValue :=
  .bitString ⟨bitSize, List.replicate (BerEncoder.bitStringByteSize bitSize) 0,
    List.length_replicate⟩

theorem length_setBitStringBit {b : BitString} (bitPos : Nat) :
    (Reporting.setBitStringBit b.buf bitPos).length = BerEncoder.bitStringByteSize b.size := by
  rw [Reporting.setBitStringBit, List.length_modify, b.buf_length]

def setBitStringBit (bitPos : Nat) : MmsValue → MmsValue
  | .bitString b =>
    if bitPos < b.size then
      .bitString ⟨b.size, Reporting.setBitStringBit b.buf bitPos, length_setBitStringBit bitPos⟩
    else .bitString b
  | value => value

def newOctetString (size maxSize : Nat) (h : size ≤ maxSize) (hlt : maxSize < 65536) : MmsValue :=
  .octetString ⟨size, maxSize, List.replicate maxSize 0, h, hlt, List.length_replicate⟩

def newBinaryTime (timeOfDay : Bool) : MmsValue :=
  if timeOfDay then .binaryTime ⟨4, List.replicate 6 0, .inl rfl, List.length_replicate⟩
  else .binaryTime ⟨6, List.replicate 6 0, .inr rfl, List.length_replicate⟩

end MmsValue

namespace Reporting

open Machine

/-- The configuration of a block. `dataSetReference` is made of the name of its data set. -/
structure ReportControlBlock where
  rptId : Option MmsValue.CString
  dataSetReference : Option MmsValue.CString
  confRef : UInt32
  options : UInt8
  bufferTime : UInt32
  trgOps : UInt8
  intPeriod : UInt32

/-- Each of the `n` options has the bit after its own. -/
def setOptions (options : UInt8) (n : Nat) (value : MmsValue) : MmsValue :=
  (List.range n).foldl (fun value i =>
    if options &&& (1 <<< UInt8.ofNat i) ≠ 0 then value.setBitStringBit (i + 1) else value) value

def createOptFlds (rcb : ReportControlBlock) : MmsValue :=
  setOptions rcb.options 8 (.newBitString 10)

def createTrgOps (rcb : ReportControlBlock) : MmsValue :=
  setOptions rcb.trgOps 5 (.newBitString 6)

def emptyString : MmsValue.CString := ⟨[], List.not_mem_nil⟩

/-- The elements of a new block; the last two are none. -/
def newRCBValue (buffered : Bool) (rcb : ReportControlBlock) : ElementName → MmsValue
  | .rptID => .visibleString rcb.rptId
  | .rptEna => .boolean false
  | .resv => .boolean false
  | .datSet => .visibleString (some (rcb.dataSetReference.getD emptyString))
  | .confRev => .newUnsignedFromUint32 rcb.confRef
  | .optFlds => createOptFlds rcb
  | .bufTm => .newUnsignedFromUint32 rcb.bufferTime
  | .sqNum => .newUnsigned
  | .trgOps => createTrgOps rcb
  | .intgPd => .newUnsignedFromUint32 rcb.intPeriod
  | .gi => .boolean false
  | .purgeBuf => .boolean false
  | .entryID => .newOctetString 8 8 le_rfl (by decide)
  | .timeOfEntry => .newBinaryTime false
  | .resvTms => .newUnsigned
  | .owner =>
    if buffered then .newOctetString 0 4 (Nat.zero_le 4) (by decide)
    else .newOctetString 0 128 (Nat.zero_le 128) (by decide)
  | .entryId => .boolean false
  | .other => .boolean false

namespace ReportControl

/-- `ReportControl_create` and the elements of `createUnbufferedReportControlBlock` and
`createBufferedReportControlBlock`. Nothing is written to `reportTime`. -/
def create (buffered : Bool) (rcb : ReportControlBlock) (memoryBlockSize : Nat)
    (reportTime : UInt64) : ReportControl :=
  let rc : ReportControl :=
    { buffered := buffered
      rcbValues := newRCBValue buffered rcb
      enabled := false
      reserved := false
      gi := false
      triggered := false
      isBuffering := false
      isResync := false
      isDynamicDataSet := false
      clientConnection := none
      members := none
      sqNum := 0
      intgPd := 0
      bufTm := 0
      nextIntgReportTime := 0
      reportTime := reportTime
      lastEntryId := 0
      triggerOps := ⟨false, false, false, false, false⟩
      timeOfEntry := .newBinaryTime false
      reportBuffer := .create memoryBlockSize }
  rc.refreshBufferTime.refreshIntegrityPeriod.refreshTriggerOptions

@[simp] theorem create_buffered (buffered : Bool) (rcb : ReportControlBlock)
    (memoryBlockSize : Nat) (reportTime : UInt64) :
    (create buffered rcb memoryBlockSize reportTime).buffered = buffered := rfl

/-- `Reporting_activateBufferedReports` on one block. -/
def activateBufferedReports (dataSets : DataSets) (rc : ReportControl) : ReportControl :=
  if rc.buffered then
    match updateReportDataset dataSets rc none with
    | some rc => { rc with isBuffering := true }
    | none => { rc with isBuffering := false }
  else rc

end ReportControl

/-- What happens to a block: a client writes an element, a client is gone, a value is observed
that is or is not a member of the data set, the server looks after its reports, and the
application changes a value. -/
inductive Event
  | writeAccessHandler (dataSets : DataSets) (w : Write)
  | deactivateReportsForConnection (connection : Connection)
  | triggerReportObservers (index : Option Nat) (flag : ReportInclusionFlag)
    (now hal : Nat → UInt64)
  | processEventsForReport (currentTime : UInt64) (hal : Nat → UInt64)
  | setMemberValue (index : Nat) (value : MmsValue)

namespace ReportControl

def handle (rc : ReportControl) : Event → Exec (ReportControl × List Output)
  | .writeAccessHandler dataSets w => do return ((← rc.writeAccessHandler dataSets w).1, [])
  | .deactivateReportsForConnection connection =>
    .ok (rc.deactivateReportsForConnection connection, [])
  | .triggerReportObservers index flag now hal => rc.triggerReportObservers index flag now hal
  | .processEventsForReport currentTime hal => rc.processEventsForReport currentTime hal
  | .setMemberValue index value => .ok (rc.setMemberValue index value, [])

/-- A request for an element that the block does not have ends before the handler. -/
def Receives (rc : ReportControl) : Event → Prop
  | .writeAccessHandler _ w => hasElement rc.buffered w.elementName
  | _ => True

end ReportControl

/-- A data set of one Boolean under every name. -/
def oneMember : DataSets := ⟨fun _ => some [.boolean false], fun _ => none⟩

def plainBlock : ReportControlBlock := ⟨none, none, 1, 0, 0, 4, 0⟩

def writeBoolean (elementName : ElementName) (b : Bool) (connection : Connection) : Write :=
  ⟨elementName, .boolean b, b, connection, [127, 0, 0, 1]⟩

theorem receives_writeBoolean (dataSets : DataSets) (b : Bool) (connection : Connection)
    {rc : ReportControl} {elementName : ElementName}
    (h : hasElement rc.buffered elementName = true) :
    rc.Receives (.writeAccessHandler dataSets (writeBoolean elementName b connection)) := h

end Reporting

end Iec61850
