import Iec61850.Asn1.BerElements
import Mathlib.Logic.Function.Basic

/-! `mms_client_connection.c`: the threads that share a connection to a server, the thread that
receives for them, and the one place where a response is handed over. -/

namespace Iec61850.MmsConnection

open Machine BerDecoder

/-- `MMS_ERROR_SERVICE_TIMEOUT`, and what a confirmed error PDU may become. -/
inductive MmsError
  | serviceTimeout | other | vmdstateOther | applicationReferenceOther
  | definitionOther | definitionInvalidAddress | definitionTypeUnsupported
  | definitionTypeInconsistent | definitionObjectUndefined | definitionObjectExists
  | definitionObjectAttributeInconsistent
  | resourceOther | serviceOther | servicePreemptOther | timeResolutionOther
  | accessOther | accessObjectNonExistent | accessObjectAccessUnsupported
  | accessObjectAccessDenied | accessObjectInvalidated
  | fileOther | fileFileNonExistent
  deriving DecidableEq

structure MmsServiceError where
  errorClass : Int
  errorCode : Int
  deriving DecidableEq

def convertServiceErrorToMmsError (serviceError : MmsServiceError) : MmsError :=
  match serviceError.errorClass with
  | 0 => .vmdstateOther
  | 1 => .applicationReferenceOther
  | 2 =>
    match serviceError.errorCode with
    | 1 => .definitionObjectUndefined
    | 2 => .definitionInvalidAddress
    | 3 => .definitionTypeUnsupported
    | 4 => .definitionTypeInconsistent
    | 5 => .definitionObjectExists
    | 6 => .definitionObjectAttributeInconsistent
    | _ => .definitionOther
  | 3 => .resourceOther
  | 4 => .serviceOther
  | 5 => .servicePreemptOther
  | 6 => .timeResolutionOther
  | 7 =>
    match serviceError.errorCode with
    | 1 => .accessObjectAccessUnsupported
    | 2 => .accessObjectNonExistent
    | 3 => .accessObjectAccessDenied
    | 4 => .accessObjectInvalidated
    | _ => .accessOther
  | 11 =>
    match serviceError.errorCode with
    | 7 => .fileFileNonExistent
    | _ => .fileOther
  | _ => .other

/-! ## Confirmed PDUs -/

def parseServiceErrorElement (buffer : Memory) (endPos : Int) : ElementParser MmsServiceError :=
  fun tag len bufPos error =>
    if tag = 0xa0 then do
      let errorClassTag ← buffer.read bufPos
      let (bufPos, len) ← decodeLength buffer len (bufPos + 1) endPos
      if bufPos < 0 then return (none, error)
      let errorCode ← decodeUint32 buffer len bufPos
      return (some (i32 (bufPos + len)), ⟨(errorClassTag.toNat : Int) - 0x80, i32 errorCode.toNat⟩)
    else skip len bufPos error

def parseServiceError (buffer : Memory) (fuel : Nat) (bufPos maxLength : Int)
    (error : MmsServiceError) : Exec (Option Int × MmsServiceError) :=
  let endPos := i32 (bufPos + maxLength)
  parseElements buffer 0 endPos true (parseServiceErrorElement buffer endPos) fuel bufPos error

/-- What `parseConfirmedErrorPDU` finds: the invoke id, unless there is none, and the error. -/
structure ConfirmedError where
  invokeId : Option UInt32
  serviceError : MmsServiceError

def parseConfirmedErrorElement (buffer : Memory) (fuel : Nat) : ElementParser ConfirmedError :=
  fun tag len bufPos pdu =>
    if tag = 0x80 then do
      let invokeId ← decodeUint32 buffer len bufPos
      return (some (i32 (bufPos + len)), { pdu with invokeId := some invokeId })
    else if tag = 0xa2 then do
      let (bufPos, error) ← parseServiceError buffer fuel bufPos len pdu.serviceError
      return rejectNegative (bufPos, { pdu with serviceError := error })
    else skip len bufPos pdu

/-- The lengths are checked against the end of the message, the loop against that of the PDU. -/
def parseConfirmedErrorElements (buffer : Memory) (maxBufPos endPos : Int) (fuel : Nat) :
    Nat → Int → ConfirmedError → Exec (Option ConfirmedError)
  | 0, _, _ => .error .outOfFuel
  | turns + 1, bufPos, pdu =>
    if endPos ≤ bufPos then return some pdu
    else do
      let (next, pdu) ← parseElement buffer 0 maxBufPos true
        (parseConfirmedErrorElement buffer fuel) bufPos pdu
      match next with
      | none => return none
      | some bufPos => parseConfirmedErrorElements buffer maxBufPos endPos fuel turns bufPos pdu

def parseConfirmedErrorPDU (payload : List UInt8) : Exec (Option ConfirmedError) := do
  let buffer := Memory.ofList payload
  let (bufPos, len) ← decodeLength buffer 0 1 payload.length
  if bufPos < 0 then return none
  let endPos := i32 (bufPos + len)
  if payload.length < endPos then return none
  parseConfirmedErrorElements buffer payload.length endPos (payload.length + 1)
    (payload.length + 1) bufPos ⟨none, ⟨0, 0⟩⟩

/-- What the receiver makes of a payload: the answer to a request, or something it has dealt with
and whose buffer it has released, or something it does nothing with. -/
inductive Indication
  | response (invokeId : UInt32)
  | error (invokeId : UInt32) (error : MmsError)
  | released
  | ignored
  deriving DecidableEq

def Indication.invokeId : Indication → Option UInt32
  | .response invokeId => some invokeId
  | .error invokeId _ => some invokeId
  | .released => none
  | .ignored => none

def parseConfirmedResponse (payload : List UInt8) : Exec Indication := do
  let buffer := Memory.ofList payload
  let (bufPos, _) ← decodeLength buffer 0 1 payload.length
  if bufPos = -1 then return .released
  let tag ← buffer.read bufPos
  if tag ≠ 0x02 then return .released
  let (bufPos, invokeIdLength) ← decodeLength buffer 0 (bufPos + 1) payload.length
  if bufPos = -1 then return .released
  return .response (← decodeUint32 buffer invokeIdLength bufPos)

/-- The dispatch of `mmsIsoCallback` on data. An error PDU without an invoke id would leave the
variable of the caller as it was, that is without a value. -/
def indication (payload : List UInt8) : Exec Indication :=
  match payload with
  | [] => return .released
  | tag :: _ =>
    if tag = 0xa3 ∨ tag = 0x8b ∨ tag = 0x8c ∨ tag = 0x8d then return .released
    else if tag = 0xa2 then do
      match ← parseConfirmedErrorPDU payload with
      | none => return .ignored
      | some ⟨none, _⟩ => .error .notThere
      | some ⟨some invokeId, serviceError⟩ =>
        return .error invokeId (convertServiceErrorToMmsError serviceError)
    else if tag = 0xa1 then parseConfirmedResponse payload
    else return .ignored

/-! ## The connection -/

/-- `lastResponseError`; an error of the server with the invoke id it came with. -/
inductive ResponseError
  | timeout
  | service (invokeId : UInt32) (error : MmsError)
  deriving DecidableEq

/-- What a call gives its caller. -/
inductive Result
  | response (payload : List UInt8)
  | error (error : ResponseError)
  | nothing
  deriving DecidableEq

/-- Where a thread is in a request. `success` tells that it has left the loop of
`sendRequestAndWaitForResponse` with a response. -/
inductive Caller
  | idle
  | starting (invokeId : UInt32)
  | added (invokeId : UInt32)
  | waiting (invokeId : UInt32)
  | leaving (invokeId : UInt32) (success : Bool)
  | removed (invokeId : UInt32) (success : Bool)
  | evaluated (invokeId : UInt32) (success : Bool) (result : Result)
  | cleared
  deriving DecidableEq

/-- Where the connection thread is: in `CotpConnection_parseIncomingMessage`, before
`checkForOutstandingCall`, in `waitUntilLastResponseHasBeenProcessed`, before the receive buffer,
or gone. -/
inductive Receiver
  | reading
  | checking (message : Indication)
  | storing (message : Indication)
  | waitingForBuffer
  | closed
  deriving DecidableEq

/-- `nextPayload` is what the receive buffer holds; `lastResponse` is this buffer. -/
structure Client (Thread : Type) where
  lastInvokeId : UInt32
  outstandingCalls : List UInt32
  responseInvokeId : UInt32
  lastResponseError : Option ResponseError
  nextPayload : List UInt8
  receiveBufferMutex : Nat
  receiver : Receiver
  callers : Thread → Caller

/-- The connection is there, and nothing has been asked yet. -/
def Client.create (Thread : Type) : Client Thread where
  lastInvokeId := 0
  outstandingCalls := List.replicate 10 0
  responseInvokeId := 0
  lastResponseError := none
  nextPayload := []
  receiveBufferMutex := 1
  receiver := .waitingForBuffer
  callers := fun _ => .idle

def addToOutstandingCalls (invokeId : UInt32) : List UInt32 → List UInt32
  | [] => []
  | call :: calls =>
    if call = 0 then invokeId :: calls else call :: addToOutstandingCalls invokeId calls

def removeFromOutstandingCalls (invokeId : UInt32) : List UInt32 → List UInt32
  | [] => []
  | call :: calls =>
    if call = invokeId then 0 :: calls else call :: removeFromOutstandingCalls invokeId calls

/-- What a thread does next, or the connection thread. -/
inductive Event (Thread : Type)
  | getNextInvokeId (thread : Thread)
  | addToOutstandingCalls (thread : Thread)
  | sendMessage (thread : Thread)
  | takeResponse (thread : Thread)
  | timeout (thread : Thread)
  | connectionLost (thread : Thread)
  | removeFromOutstandingCalls (thread : Thread)
  | evaluate (thread : Thread)
  | clearResponse (thread : Thread)
  | releaseReceiveBuffer (thread : Thread)
  | receive (payload : List UInt8)
  | checkForOutstandingCall
  | storeResponse
  | waitForBuffer
  | close

namespace Client

variable {Thread : Type} [DecidableEq Thread]

def setCaller (s : Client Thread) (thread : Thread) (caller : Caller) : Client Thread :=
  { s with callers := Function.update s.callers thread caller }

/-- What the services do behind `sendRequestAndWaitForResponse`. -/
def result (s : Client Thread) (success : Bool) : Result :=
  match s.lastResponseError with
  | some error => .error error
  | none => if success then .response s.nextPayload else .nothing

def receive (s : Client Thread) (payload : List UInt8) : Indication → Client Thread
  | .released =>
    { s with
      nextPayload := payload, receiver := .waitingForBuffer
      receiveBufferMutex := s.receiveBufferMutex + 1 }
  | .ignored => { s with nextPayload := payload, receiver := .waitingForBuffer }
  | message => { s with nextPayload := payload, receiver := .checking message }

def checkForOutstandingCall (s : Client Thread) (message : Indication) (invokeId : UInt32) :
    Client Thread :=
  if invokeId ∈ s.outstandingCalls then { s with receiver := .storing message }
  else
    { s with
      receiver := .waitingForBuffer, receiveBufferMutex := s.receiveBufferMutex + 1 }

def storeResponse (s : Client Thread) : Indication → Client Thread
  | .error invokeId error =>
    { s with
      lastResponseError := some (.service invokeId error)
      responseInvokeId := invokeId, receiver := .waitingForBuffer }
  | .response invokeId =>
    { s with responseInvokeId := invokeId, receiver := .waitingForBuffer }
  | _ => s

/-- One step of the thread or of the receiver that the event names, if it is there. The semaphore
around the transmit buffer would only take interleavings away. -/
def step (s : Client Thread) : Event Thread → Option (Client Thread)
  | .getNextInvokeId thread =>
    match s.callers thread with
    | .idle =>
      some (({ s with lastInvokeId := s.lastInvokeId + 1 } : Client Thread).setCaller thread
        (.starting (s.lastInvokeId + 1)))
    | _ => none
  | .addToOutstandingCalls thread =>
    match s.callers thread with
    | .starting invokeId =>
      some (({ s with
        outstandingCalls := MmsConnection.addToOutstandingCalls invokeId s.outstandingCalls } :
          Client Thread).setCaller thread (.added invokeId))
    | _ => none
  | .sendMessage thread =>
    match s.callers thread with
    | .added invokeId => some (s.setCaller thread (.waiting invokeId))
    | _ => none
  | .takeResponse thread =>
    match s.callers thread with
    | .waiting invokeId =>
      if s.responseInvokeId = invokeId then some (s.setCaller thread (.leaving invokeId true))
      else none
    | _ => none
  | .timeout thread =>
    match s.callers thread with
    | .waiting invokeId =>
      some (({ s with lastResponseError := some .timeout } : Client Thread).setCaller thread
        (.leaving invokeId false))
    | _ => none
  | .connectionLost thread =>
    match s.callers thread with
    | .waiting invokeId =>
      if s.receiver = .closed then some (s.setCaller thread (.leaving invokeId false)) else none
    | _ => none
  | .removeFromOutstandingCalls thread =>
    match s.callers thread with
    | .leaving invokeId success =>
      some (({ s with
        outstandingCalls := MmsConnection.removeFromOutstandingCalls invokeId s.outstandingCalls } :
          Client Thread).setCaller thread (.removed invokeId success))
    | _ => none
  | .evaluate thread =>
    match s.callers thread with
    | .removed invokeId success =>
      some (s.setCaller thread (.evaluated invokeId success (s.result success)))
    | _ => none
  | .clearResponse thread =>
    match s.callers thread with
    | .evaluated _ _ _ =>
      some (({ s with responseInvokeId := 0, lastResponseError := none } :
        Client Thread).setCaller thread .cleared)
    | _ => none
  | .releaseReceiveBuffer thread =>
    match s.callers thread with
    | .cleared =>
      some (({ s with receiveBufferMutex := s.receiveBufferMutex + 1 } :
        Client Thread).setCaller thread .idle)
    | _ => none
  | .receive payload =>
    match s.receiver, indication payload with
    | .reading, .ok message => some (s.receive payload message)
    | _, _ => none
  | .checkForOutstandingCall =>
    match s.receiver with
    | .checking message => message.invokeId.map (s.checkForOutstandingCall message)
    | _ => none
  | .storeResponse =>
    match s.receiver with
    | .storing message =>
      if s.responseInvokeId = 0 then some (s.storeResponse message) else none
    | _ => none
  | .waitForBuffer =>
    match s.receiver with
    | .waitingForBuffer =>
      if 0 < s.receiveBufferMutex then
        some { s with receiver := .reading, receiveBufferMutex := s.receiveBufferMutex - 1 }
      else none
    | _ => none
  | .close =>
    match s.receiver with
    | .reading => some { s with receiver := .closed }
    | _ => none

end Client

end Iec61850.MmsConnection
