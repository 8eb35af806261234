import Iec61850.Report.Buffer
import Iec61850.Mms.Update

/-! Report control blocks: their state and the two functions by which clients change it,
`Reporting_RCBWriteAccessHandler` and `Reporting_deactivateReportsForConnection`. -/

namespace Iec61850.Reporting

open Machine

/-- The name of an element of a report control block. `entryId` stands for "EntryId", which
the handler asks for and no block has. -/
inductive ElementName
  | rptID | rptEna | resv | datSet | confRev | optFlds | bufTm | sqNum | trgOps | intgPd | gi
  | purgeBuf | entryID | timeOfEntry | resvTms | owner
  | entryId | other
  deriving DecidableEq

def hasElement (buffered : Bool) : ElementName → Bool
  | .resv => !buffered
  | .purgeBuf => buffered
  | .entryID => buffered
  | .timeOfEntry => buffered
  | .resvTms => buffered
  | .entryId => false
  | .other => false
  | _ => true

abbrev Connection := Nat

structure TriggerOptions where
  dataChanged : Bool
  qualityChanged : Bool
  dataUpdate : Bool
  integrity : Bool
  gi : Bool

/-- `members` is the data set with its three arrays, nothing for the null pointer.
`timeOfEntry` is only used by unbuffered blocks: the one of a buffered block is its element. -/
structure ReportControl where
  buffered : Bool
  rcbValues : ElementName → MmsValue
  enabled : Bool
  reserved : Bool
  gi : Bool
  triggered : Bool
  isBuffering : Bool
  isResync : Bool
  isDynamicDataSet : Bool
  clientConnection : Option Connection
  members : Option (List Member)
  sqNum : UInt16
  intgPd : UInt32
  bufTm : UInt32
  nextIntgReportTime : UInt64
  reportTime : UInt64
  lastEntryId : UInt64
  triggerOps : TriggerOptions
  timeOfEntry : MmsValue
  reportBuffer : ReportBuffer

/-- `IedModel_lookupDataSet` and `MmsMapping_getDomainSpecificDataSet`: the values of the
members of the data set of a name. -/
structure DataSets where
  lookupDataSet : Option MmsValue.CString → Option (List MmsValue)
  getDomainSpecificDataSet : Option MmsValue.CString → Option (List MmsValue)

/-- What a client writes. `rawBoolean` is what reading `value.boolean` gives when the value
has another type. -/
structure Write where
  elementName : ElementName
  value : MmsValue
  rawBoolean : Bool
  connection : Connection
  /-- the address of the client as the bytes of its dotted form give it -/
  ownerAddress : List UInt8

def Write.boolean (w : Write) : Bool :=
  match w.value with
  | .boolean b => b
  | _ => w.rawBoolean

def newMember (value : MmsValue) : Member := ⟨value, .none, none, fun h => absurd rfl h⟩

namespace ReportControl

def getRCBValue (rc : ReportControl) (name : ElementName) : Option MmsValue :=
  if hasElement rc.buffered name then some (rc.rcbValues name) else none

def setRCBValue (rc : ReportControl) (name : ElementName) (f : MmsValue → MmsValue) :
    ReportControl :=
  { rc with rcbValues := fun n => if n = name then f (rc.rcbValues n) else rc.rcbValues n }

def updateReportDataset (dataSets : DataSets) (rc : ReportControl)
    (newDatSet : Option MmsValue) : Option ReportControl :=
  let dataSetName := (newDatSet.getD (rc.rcbValues .datSet)).toMmsString
  match dataSets.lookupDataSet dataSetName with
  | some values => some { rc with isDynamicDataSet := false, members := some (values.map newMember) }
  | none =>
    match dataSets.getDomainSpecificDataSet dataSetName with
    | some values =>
      some { rc with isDynamicDataSet := true, members := some (values.map newMember) }
    | none => none

def refreshTriggerOptions (rc : ReportControl) : ReportControl :=
  let trgOps := rc.rcbValues .trgOps
  { rc with triggerOps :=
      { dataChanged := trgOps.getBitStringBit 1
        qualityChanged := trgOps.getBitStringBit 2
        dataUpdate := trgOps.getBitStringBit 3
        integrity := trgOps.getBitStringBit 4
        gi := trgOps.getBitStringBit 5 } }

def purgeBuf (rc : ReportControl) : ReportControl :=
  { rc with reportBuffer := rc.reportBuffer.purgeBuf }

def purgeIfBuffered (rc : ReportControl) : ReportControl :=
  if rc.buffered then rc.purgeBuf else rc

def refreshIntegrityPeriod (rc : ReportControl) : ReportControl :=
  { rc with
    intgPd := (rc.rcbValues .intgPd).toUint32
    nextIntgReportTime := if rc.buffered then rc.nextIntgReportTime else 0 }

def refreshBufferTime (rc : ReportControl) : ReportControl :=
  { rc with bufTm := (rc.rcbValues .bufTm).toUint32 }

/-- The client and its address, or no client and the empty address. -/
def updateOwner (rc : ReportControl) (connection : Option Connection) (address : List UInt8) :
    ReportControl :=
  setRCBValue { rc with clientConnection := connection } .owner (MmsValue.setOctetString address)

def increaseConfRev (rc : ReportControl) : ReportControl :=
  let confRev := (rc.rcbValues .confRev).toUint32 + 1
  rc.setRCBValue .confRev (·.setUint32 (if confRev = 0 then 1 else confRev))

/-- The loop never leaves the first entry. -/
def checkReportBufferForEntryID (rc : ReportControl) (entryId : List UInt8) :
    Exec (ReportControl × Bool) :=
  match rc.reportBuffer.oldestReport with
  | none => .ok (rc, false)
  | some entry => do
    match ← rc.reportBuffer.memoryBlock.read entry with
    | .entryId id =>
      if BerEncoder.nativeOctets 8 id.toNat = entryId then
        let next ← rc.reportBuffer.readNext entry
        return ({ rc with
          reportBuffer := { rc.reportBuffer with nextToTransmit := next }
          isResync := next.isSome }, true)
      else .error .outOfFuel
    | _ => .error .notThere

/-- The element takes the value as it is. -/
def updateElement (rc : ReportControl) (w : Write) : ReportControl × MmsDataAccessError :=
  if hasElement rc.buffered w.elementName then
    (rc.setRCBValue w.elementName (·.updated w.value), .success)
  else (rc, .objectValueInvalid)

/-- An element whose change purges the buffer: `refresh` takes the change over. -/
def updateParameter (refresh : ReportControl → ReportControl) (rc : ReportControl) (w : Write) :
    ReportControl × MmsDataAccessError :=
  if (rc.rcbValues w.elementName).equals w.value then (rc, .success)
  else (refresh (rc.setRCBValue w.elementName (·.updated w.value)), .success)

/-- The part of the handler that is for blocks that are not enabled. -/
def writeElement (dataSets : DataSets) (rc : ReportControl) (w : Write) :
    Exec (ReportControl × MmsDataAccessError) :=
  if rc.enabled then .ok (rc, .temporarilyUnavailable)
  else if rc.reserved ∧ rc.clientConnection ≠ some w.connection then
    .ok (rc, .temporarilyUnavailable)
  else
    match w.elementName with
    | .resv =>
      let rc := { rc with
        reserved := w.boolean
        clientConnection := if w.boolean then some w.connection else rc.clientConnection }
      .ok (rc.updateElement w)
    | .purgeBuf =>
      match w.value with
      | .boolean true => .ok (rc.purgeBuf, .success)
      | _ => .ok (rc.updateElement w)
    | .datSet =>
      if (rc.rcbValues .datSet).equals w.value then .ok (rc, .success)
      else
        match updateReportDataset dataSets rc (some w.value) with
        | some rc =>
          .ok ((rc.purgeIfBuffered.setRCBValue .datSet (·.updated w.value)).increaseConfRev,
            .success)
        | none => .ok (rc, .objectValueInvalid)
    | .intgPd =>
      .ok (rc.updateParameter (fun rc =>
        let rc := rc.refreshIntegrityPeriod
        if rc.buffered then purgeBuf { rc with nextIntgReportTime := 0 } else rc) w)
    | .trgOps => .ok (rc.updateParameter (fun rc => rc.purgeIfBuffered.refreshTriggerOptions) w)
    | .bufTm => .ok (rc.updateParameter (fun rc => rc.purgeIfBuffered.refreshBufferTime) w)
    | .entryId =>
      match w.value with
      | .octetString o =>
        if o.size ≠ 8 then .ok (rc, .objectValueInvalid)
        else do
          let (rc, found) ← rc.checkReportBufferForEntryID o.content
          -- there is no element of that name to update
          if found then .error .nullPointer else return (rc, .objectValueInvalid)
      | _ => .ok (rc, .objectValueInvalid)
    | .confRev => .ok (rc, .objectAccessDenied)
    | _ => .ok (rc.updateElement w)

def enable (rc : ReportControl) (w : Write) : ReportControl :=
  let rc := rc.updateOwner (some w.connection) w.ownerAddress
  let rc := rc.setRCBValue .rptEna (·.updated w.value)
  let rc := { rc with enabled := true, isResync := false, gi := false }
  let rc := rc.refreshBufferTime.refreshTriggerOptions.refreshIntegrityPeriod
  { rc with sqNum := 0 }

/-- The flags of an unbuffered block are freed: nothing is included any more. -/
def clearInclusionFlags (rc : ReportControl) : ReportControl :=
  { rc with members := rc.members.map (·.map fun m =>
      ⟨m.value, .none, m.bufferedValue, fun h => absurd rfl h⟩) }

def disable (rc : ReportControl) : ReportControl :=
  let rc := if rc.buffered then rc else
    { rc.clearInclusionFlags.setRCBValue .resv (·.setBoolean false) with reserved := false }
  { rc.updateOwner none [] with enabled := false }

/-- `Reporting_RCBWriteAccessHandler` -/
def writeAccessHandler (dataSets : DataSets) (rc : ReportControl) (w : Write) :
    Exec (ReportControl × MmsDataAccessError) :=
  if w.elementName = .rptEna then
    if w.boolean then
      if rc.enabled then .ok (rc, .temporarilyUnavailable)
      else
        match updateReportDataset dataSets rc none with
        | some rc => .ok (rc.enable w, .success)
        | none => .ok (rc, .objectAttributeInconsistent)
    else if (rc.enabled ∨ rc.reserved) ∧ rc.clientConnection ≠ some w.connection then
      .ok (rc, .temporarilyUnavailable)
    else writeElement dataSets rc.disable w
  else if w.elementName = .gi then
    if rc.enabled ∧ rc.clientConnection = some w.connection then
      .ok ({ rc with gi := true }, .success)
    else .ok (rc, .temporarilyUnavailable)
  else writeElement dataSets rc w

/-- `Reporting_deactivateReportsForConnection` on one block. -/
def deactivateReportsForConnection (rc : ReportControl) (connection : Connection) :
    ReportControl :=
  if rc.clientConnection = some connection then
    let rc := { rc with enabled := false, clientConnection := none }
    let rc := rc.setRCBValue .rptEna (·.setBoolean false)
    let rc := if rc.buffered then rc
      else { rc.setRCBValue .resv (·.setBoolean false) with reserved := false }
    rc.updateOwner none []
  else rc

end ReportControl

end Iec61850.Reporting
