import Iec61850.Lib.Memory
import Iec61850.Mms.Elements

/-! The control objects of `control.c`: what the requests of clients, the worker threads and the
event thread do to one of them. -/

namespace Iec61850.Control

open Machine

abbrev Connection := Nat

inductive ControlState
  | unselected | ready | waitForActivationTime | performTest | waitForExecution | operate
  deriving DecidableEq

/-- `ctlVal`, `ctlNum` and `origin` of a request, and the copies a control object keeps. -/
structure ControlParameters where
  ctlVal : MmsValue
  ctlNum : MmsValue
  origin : MmsValue

/-- A control object that has been initialized. `sboClass` and `sboTimeout` are values of the
cache; `parameters` is nothing as long as nothing has been copied. -/
structure ControlObject where
  ctlModel : UInt32
  sbo : Option MmsValue.CString
  sboClass : Option Int32
  sboTimeout : Option UInt32
  state : ControlState
  oper : MmsValue
  parameters : Option ControlParameters
  selectTime : UInt64
  selectTimeout : UInt32
  timeActivatedOperate : Bool
  operateTime : UInt64
  clientConnection : Option Connection
  testMode : Bool
  interlockCheck : Bool
  synchroCheck : Bool
  operateInvokeId : UInt32

/-- `LastApplError` -/
structure LastApplError where
  error : Int32
  addCause : Int32
  ctlNum : MmsValue
  origin : MmsValue

inductive Message
  | writeResponse (invokeId : UInt32) (result : MmsDataAccessError)
  | commandTermination (oper : MmsValue)
  | lastApplError (e : LastApplError)

/-- What can be seen of a control object. `operated` is the call of the control handler, `asked`
the call of the check handler for an operation, and `sent` what a thread tells the client. -/
inductive Observation
  | expired (currentTime : UInt64)
  | selected (connection : Connection) (currentTime : UInt64) (selectTimeout : UInt32)
    (parameters : Option ControlParameters)
  | operateWritten (connection : Connection) (currentTime : UInt64)
    (parameters : ControlParameters) (testMode : Bool)
  | asked (connection : Option Connection)
  | operated (ctlVal : Option MmsValue) (testMode : Bool) (currentTime : UInt64)
  | sent (connection : Connection) (message : Message)
  | cancelled (connection : Connection)
  | finished (operateOnce : Bool)
  | abandoned
  | connectionClosed (connection : Connection)

/-- What a handler of a request leaves behind and answers. -/
structure Handled where
  object : ControlObject
  indication : MmsDataAccessError
  lastApplError : Option LastApplError
  startsThread : Bool
  observations : List Observation

/-- A request of a client. Its last parts are what reading the value of `Test`, the bits of
`Check` and the time of `operTm` gives when they have another type. -/
structure ControlWrite where
  connection : Connection
  value : MmsValue
  rawTest : Bool
  rawCheck : Nat → Bool
  rawOperTm : UInt64

def getCtlVal : MmsValue → Option MmsValue
  | .structured vs => if 5 < vs.length then vs[0]? else none
  | _ => none

def getOperParameterOperTime : MmsValue → Option MmsValue
  | .structured vs => if vs.length = 7 then vs[1]? else none
  | _ => none

def getOperParameterCtlNum : MmsValue → Option MmsValue := MmsValue.getElementOf 7 3 2

def getOperParameterOrigin : MmsValue → Option MmsValue := MmsValue.getElementOf 7 2 1

def getOperParameterTest : MmsValue → Option MmsValue := MmsValue.getElementOf 7 5 4

def getOperParameterCheck : MmsValue → Option MmsValue := MmsValue.getElementOf 7 6 5

def isUtcTime : MmsValue → Bool
  | .utcTime _ => true
  | _ => false

def getOperParameterTime (value : MmsValue) : Option MmsValue :=
  (MmsValue.getElementOf 7 4 3 value).filter isUtcTime

def getCancelParameterCtlNum : MmsValue → Option MmsValue := MmsValue.getElementOf 6 3 2

def getCancelParameterOrigin : MmsValue → Option MmsValue := MmsValue.getElementOf 6 2 1

def checkValidityOfOriginParameter : MmsValue → Bool
  | .structured [.integer orCat, .octetString orIdent] =>
    orIdent.size ≤ 64 && 0 ≤ (MmsValue.integer orCat).toInt32 &&
      (MmsValue.integer orCat).toInt32 ≤ 8
  | _ => false

/-- The comparison of the parameters of `Oper` with the ones of `SBOw`. -/
def ControlParameters.equals (p q : ControlParameters) : Bool :=
  p.ctlVal.equals q.ctlVal && p.origin.equals q.origin && p.ctlNum.equals q.ctlNum

def ControlWrite.test (w : ControlWrite) : MmsValue → Bool
  | .boolean b => b
  | _ => w.rawTest

def ControlWrite.checkBit (w : ControlWrite) (bitPos : Nat) : MmsValue → Bool
  | .bitString b => (MmsValue.bitString b).getBitStringBit bitPos
  | _ => w.rawCheck bitPos

def ControlWrite.operTm (w : ControlWrite) (operTm : MmsValue) : UInt64 :=
  operTm.getUtcTimeInMs.getD w.rawOperTm

/-- The result of a check handler, nothing when there is none. It is `CONTROL_ACCEPTED` or one of
the error codes. -/
abbrev CheckResult := Option Int

/-- The result read as a `bool`. -/
def checkOk (result : CheckResult) : Bool := result.all (· ≠ 0)

def asked (result : CheckResult) (connection : Option Connection) : List Observation :=
  if result.isSome then [.asked connection] else []

/-- The indication of an `Oper` that the check handler does not accept. -/
def indicationOfCheck (code : Int) : MmsDataAccessError :=
  if code = 1 then .hardwareFault
  else if code = 2 then .temporarilyUnavailable
  else if code = 4 then .objectUndefined
  else .objectAccessDenied

namespace ControlObject

def isSelectBeforeOperate (self : ControlObject) : Bool := self.ctlModel = 2 || self.ctlModel = 4

def isSboClassOperateOnce (self : ControlObject) : Bool := self.sboClass ≠ some 1

/-- `CONFIG_CONTROL_DEFAULT_SBO_TIMEOUT` -/
def defaultSboTimeout : UInt32 := 15000

/-- `ControlObject_create` and `initialize` -/
def create (ctlModel : UInt32) (sbo : MmsValue.CString) (sboClass : Option Int32)
    (sboTimeout : Option UInt32) (oper : MmsValue) : ControlObject where
  ctlModel := ctlModel
  sbo := if ctlModel = 2 ∨ ctlModel = 4 then some sbo else none
  sboClass := sboClass
  sboTimeout := sboTimeout
  state := if ctlModel = 2 ∨ ctlModel = 4 then .unselected else .ready
  oper := oper
  parameters := none
  selectTime := 0
  selectTimeout := if ctlModel = 2 ∨ ctlModel = 4 then sboTimeout.getD defaultSboTimeout else 0
  timeActivatedOperate := false
  operateTime := 0
  clientConnection := none
  testMode := false
  interlockCheck := false
  synchroCheck := false
  operateInvokeId := 0

def abortControlOperation (self : ControlObject) : ControlObject :=
  { self with
    state := if self.isSelectBeforeOperate && self.isSboClassOperateOnce then .unselected
      else .ready }

def selectObject (self : ControlObject) (selectTime : UInt64) (connection : Connection) :
    ControlObject :=
  { self with
    selectTimeout := self.sboTimeout.getD defaultSboTimeout
    selectTime := selectTime
    clientConnection := some connection
    state := .ready }

def checkSelectTimeout (self : ControlObject) (currentTime : UInt64) :
    ControlObject × List Observation :=
  if self.isSelectBeforeOperate && self.state = .ready && 0 < self.selectTimeout &&
      self.selectTime + self.selectTimeout.toUInt64 < currentTime then
    ({ self with state := .unselected }, [.expired currentTime])
  else (self, [])

/-- Reading the element `SBO`, at the time `currentTime`. -/
def readSBO (self : ControlObject) (connection : Connection) (currentTime : UInt64)
    (result : CheckResult) : ControlObject × MmsValue × List Observation :=
  if self.ctlModel = 2 then
    let (self, expired) := self.checkSelectTimeout currentTime
    if self.state = .unselected && checkOk result then
      let self := self.selectObject currentTime connection
      (self, .visibleString self.sbo,
        expired ++ [.selected connection currentTime self.selectTimeout none])
    else (self, .visibleString none, expired)
  else (self, .visibleString self.sbo, [])

/-- An answer without any effect. -/
def refuse (self : ControlObject) (indication : MmsDataAccessError)
    (observations : List Observation) (lastApplError : Option LastApplError) : Handled where
  object := self
  indication := indication
  lastApplError := lastApplError
  startsThread := false
  observations := observations

/-- Writing the element `SBOw`. -/
def writeSBOw (self : ControlObject) (w : ControlWrite) (currentTime : UInt64)
    (result : CheckResult) : Exec Handled :=
  if self.ctlModel ≠ 4 then .ok (self.refuse .objectAccessDenied [] none)
  else
    match getCtlVal w.value, getOperParameterOrigin w.value, getOperParameterCtlNum w.value with
    | none, _, _ => .ok (self.refuse .objectValueInvalid [] none)
    | some ctlVal, some origin, some ctlNum =>
      if !checkValidityOfOriginParameter origin then
        .ok (self.refuse .objectValueInvalid [] none)
      else
        let (self, expired) := self.checkSelectTimeout currentTime
        if self.state ≠ .unselected then
          let addCause := if self.clientConnection ≠ some w.connection then 27 else 19
          .ok (self.refuse .temporarilyUnavailable expired (some ⟨0, addCause, ctlNum, origin⟩))
        else if checkOk result then
          let self := self.selectObject currentTime w.connection
          let parameters := ⟨ctlVal, ctlNum, origin⟩
          .ok
            { object := { self with parameters := some parameters }
              indication := .success
              lastApplError := none
              startsThread := false
              observations := expired ++
                [.selected w.connection currentTime self.selectTimeout (some parameters)] }
        else .ok (self.refuse .objectAccessDenied expired (some ⟨0, 3, ctlNum, origin⟩))
    -- the origin of a structure with more components is the null pointer
    | some _, _, _ => .error .nullPointer

/-- The part of `Oper` that sets the time of a time activated operation. -/
def setOperateTime (self : ControlObject) (w : ControlWrite) (check : MmsValue) : ControlObject :=
  match getOperParameterOperTime w.value with
  | none => self
  | some operTm =>
    let self := { self with operateTime := w.operTm operTm }
    if self.operateTime ≠ 0 then
      { self with
        timeActivatedOperate := true
        synchroCheck := w.checkBit 0 check
        interlockCheck := w.checkBit 1 check
        clientConnection := some w.connection
        state := .waitForActivationTime }
    else self

/-- The part of `Oper` for an operation that is not time activated. -/
def performTest (self : ControlObject) (connection : Connection) (result : CheckResult)
    (invokeId : UInt32) (observations : List Observation) : Handled :=
  let self := { self with state := .performTest }
  let observations := observations ++ asked result (some connection)
  if result.all (· = -1) then
    { object := { self with clientConnection := some connection, operateInvokeId := invokeId }
      indication := .noResponse
      lastApplError := none
      startsThread := true
      observations := observations }
  else
    self.abortControlOperation.refuse (indicationOfCheck (result.getD (-1)))
      (observations ++ [.finished self.isSboClassOperateOnce]) none

/-- The operation begins. -/
def acceptOper (self : ControlObject) (w : ControlWrite) (parameters : ControlParameters)
    (check : MmsValue) (currentTime : UInt64) (result : CheckResult) (invokeId : UInt32)
    (observations : List Observation) : Handled :=
  let written : Observation := .operateWritten w.connection currentTime parameters self.testMode
  let before := self.timeActivatedOperate
  let self := setOperateTime { self with parameters := some parameters } w check
  let self := { self with oper := self.oper.updated w.value }
  if self.timeActivatedOperate then
    -- only an operation that was cancelled can have left the flag set
    if before && self.state ≠ .waitForActivationTime then
      self.refuse .objectAccessDenied observations none
    else self.refuse .success (observations ++ [written]) none
  else self.performTest w.connection result invokeId (observations ++ [written])

/-- Writing the element `Oper`. `invokeId` is the one of the request. -/
def writeOper (self : ControlObject) (w : ControlWrite) (currentTime : UInt64)
    (result : CheckResult) (invokeId : UInt32) : Exec Handled :=
  match getCtlVal w.value, getOperParameterTest w.value, getOperParameterCtlNum w.value,
    getOperParameterOrigin w.value, getOperParameterCheck w.value,
    getOperParameterTime w.value with
  | some ctlVal, some test, some ctlNum, some origin, some check, some _ =>
    if !checkValidityOfOriginParameter origin then
      .ok (self.refuse .objectValueInvalid [] none)
    else
      let (self, expired) := self.checkSelectTimeout currentTime
      let lastApplError (addCause : Int32) := some ⟨0, addCause, ctlNum, origin⟩
      match self.state with
      | .waitForActivationTime =>
        .ok (self.refuse .temporarilyUnavailable expired (lastApplError 12))
      | .unselected => .ok (self.refuse .objectAccessDenied expired (lastApplError 18))
      | .ready =>
        let self := { self with testMode := w.test test }
        let parameters := ⟨ctlVal, ctlNum, origin⟩
        let accepted := self.acceptOper w parameters check currentTime result invokeId expired
        if self.isSelectBeforeOperate then
          if self.clientConnection ≠ some w.connection then
            .ok (self.refuse .temporarilyUnavailable expired none)
          else if self.ctlModel = 4 then
            match self.parameters with
            | none => .error .nullPointer
            | some stored =>
              if parameters.equals stored then .ok accepted
              else .ok (self.refuse .typeInconsistent expired (lastApplError 26))
          else .ok accepted
        else .ok accepted
      | _ => .ok (self.refuse .objectAccessDenied expired none)
  | _, _, _, _, _, _ => .ok (self.refuse .objectValueInvalid [] none)

/-- The end of `Cancel`: a time activated operation is given up, whoever asks for it. -/
def cancelTimeActivated (self : ControlObject) (indication : MmsDataAccessError)
    (lastApplError : Option LastApplError) : Handled :=
  if self.timeActivatedOperate then
    let self := { self with timeActivatedOperate := false }
    self.abortControlOperation.refuse .success [.finished self.isSboClassOperateOnce] lastApplError
  else self.refuse indication [] lastApplError

/-- Writing the element `Cancel`. -/
def writeCancel (self : ControlObject) (w : ControlWrite) : Handled :=
  match getCancelParameterCtlNum w.value, getCancelParameterOrigin w.value with
  | some ctlNum, some origin =>
    if self.isSelectBeforeOperate && self.state ≠ .unselected then
      if self.clientConnection = some w.connection then
        { object := { self with state := .unselected }
          indication := .success
          lastApplError := none
          startsThread := false
          observations := [.cancelled w.connection] }
      else self.cancelTimeActivated .temporarilyUnavailable (some ⟨0, 27, ctlNum, origin⟩)
    else self.cancelTimeActivated .objectAccessDenied none
  | _, _ => self.refuse .typeInconsistent [] none

/-- `ControlObject_unselect` -/
def unselect (self : ControlObject) (connection : Connection) : ControlObject :=
  if self.clientConnection = some connection then self.abortControlOperation else self

/-- What a thread tells the client of the object. -/
def send (self : ControlObject) (message : Message) : Exec (List Observation) :=
  match self.clientConnection with
  | none => .error .nullPointer
  | some connection => .ok [.sent connection message]

def sendLastApplError (self : ControlObject) (addCause : Int32) : Exec (List Observation) :=
  match self.parameters with
  | none => .error .nullPointer
  | some p => self.send (.lastApplError ⟨0, addCause, p.ctlNum, p.origin⟩)

/-- `operTm` of the element `Oper` is set back. -/
def clearOperTime (self : ControlObject) : Exec ControlObject :=
  match self.oper with
  | .structured vs =>
    if vs.length = 7 then
      .ok { self with oper := .structured (vs.modify 1 (·.setUtcTime 0)) }
    else .error .nullPointer
  | _ => .error .nullPointer

end ControlObject

/-- Where a thread that runs `controlOperateThread` is. `task` is the client whose tasks it is
counted in. -/
inductive Worker
  | start
  | readState (task : Connection)
  | enter (task : Connection) (isTimeActivatedControl : Bool)
  | waitForExecution (task : Connection) (isTimeActivatedControl : Bool)
  | reject (task : Connection) (isTimeActivatedControl : Bool)
  | respond (task : Connection) (isTimeActivatedControl : Bool)
  | setOperate (task : Connection)
  | operate (task : Connection) (currentTime : UInt64)
  | terminate (task : Connection)
  | abort (task : Connection)
  | decreaseTasksCount (task : Connection)

namespace Worker

def task : Worker → Option Connection
  | .start => none
  | .readState task => some task
  | .enter task _ => some task
  | .waitForExecution task _ => some task
  | .reject task _ => some task
  | .respond task _ => some task
  | .setOperate task => some task
  | .operate task _ => some task
  | .terminate task => some task
  | .abort task => some task
  | .decreaseTasksCount task => some task

/-- The operation of the thread is not over yet. -/
def isActive : Worker → Bool
  | .decreaseTasksCount _ => false
  | _ => true

/-- The control handler has not been called yet. -/
def beforeOperate : Worker → Bool
  | .terminate _ => false
  | .abort _ => false
  | .decreaseTasksCount _ => false
  | _ => true

/-- The next step of the thread: the object, where the thread is then (nowhere when it has ended),
and what can be seen. `ok` is what the handler for the dynamic tests says, `currentTime` what
`Hal_getTimeInMs` says. `ControlObject_operate` always returns true. -/
def step (self : ControlObject) (closed : List Connection) (ok : Bool) (currentTime : UInt64) :
    Worker → Exec (ControlObject × Option Worker × List Observation)
  | .start =>
    match self.clientConnection with
    | none => .ok (self, none, [.abandoned])
    | some connection =>
      if connection ∈ closed then .ok (self, none, [.abandoned])
      else .ok (self, some (.readState connection), [])
  | .readState task => .ok (self, some (.enter task (self.state = .waitForActivationTime)), [])
  | .enter task isTimeActivatedControl =>
    .ok ({ self with state := .waitForExecution },
      some (.waitForExecution task isTimeActivatedControl), [])
  | .waitForExecution task isTimeActivatedControl =>
    .ok (self, some (if ok then .respond task isTimeActivatedControl
      else .reject task isTimeActivatedControl), [])
  | .reject task isTimeActivatedControl => do
    let sent ← if isTimeActivatedControl then self.sendLastApplError 11
      else self.send (.writeResponse self.operateInvokeId .objectAccessDenied)
    return (self, some (.abort task), sent)
  | .respond task isTimeActivatedControl =>
    if isTimeActivatedControl then do
      let sent ← self.send (.commandTermination self.oper)
      return (← self.clearOperTime, some (.setOperate task), sent)
    else do
      let sent ← self.send (.writeResponse self.operateInvokeId .success)
      return (self, some (.setOperate task), sent)
  | .setOperate task => .ok ({ self with state := .operate }, some (.operate task currentTime), [])
  | .operate task currentTime =>
    .ok ({ self with selectTime := currentTime }, some (.terminate task),
      [.operated (self.parameters.map (·.ctlVal)) self.testMode currentTime])
  | .terminate task =>
    if self.ctlModel = 4 ∨ self.ctlModel = 3 then do
      return (self, some (.abort task), ← self.send (.commandTermination self.oper))
    else .ok (self, some (.abort task), [])
  | .abort task =>
    .ok (self.abortControlOperation, some (.decreaseTasksCount task),
      [.finished self.isSboClassOperateOnce])
  | .decreaseTasksCount _ => .ok (self, none, [])

end Worker

end Iec61850.Control
