import Iec61850.Control.ControlAccess
import Iec61850.Lib.Slots
import Iec61850.Server.AlternateAccess

/-! The write service (`mms_write_service.c`): a request writes its variables one after the other
and is answered with what each write has come to, unless a thread answers it later. -/

namespace Iec61850

open Machine MmsVariableSpecification Control

/-- A request that names its variables one by one. `listOfData` is what
`mmsMsg_parseDataElement` makes of the values. -/
structure WriteRequest where
  listOfVariable : List VariableAccess
  listOfData : List (Option MmsValue)

inductive RejectReason
  | requestInvalidArgument | other
  deriving DecidableEq

inductive WriteResponse
  | writeResponse (invokeId : UInt32) (results : List MmsDataAccessError)
  | reject (invokeId : UInt32) (reason : RejectReason)
  deriving DecidableEq

/-- The handlers of the control blocks of GOOSE and reports. They answer at once. -/
structure BlockHandlers (τ : Type) where
  writeAccess : WriteTarget → τ → Nat → List UInt8 → MmsValue → Nat →
    Exec (τ × MmsDataAccessError)
  answersAtOnce : ∀ target blocks domain variableId value connection blocks',
    writeAccess target blocks domain variableId value connection ≠ .ok (blocks', .noResponse)

/-- A server with its control objects and the other control blocks. The domains are those of the
caches, under these names. -/
structure MmsServer (τ : Type) where
  domainNames : List (List UInt8)
  ied : IedServer
  controls : List ControlEntry
  blocks : τ

/-- A variable of a request with its value, and what the environment adds. -/
structure WriteItem where
  varSpec : VariableAccess
  data : Option MmsValue
  inputs : ControlInputs

/-- The variables with their values. -/
def WriteRequest.items (request : WriteRequest) (inputs : Nat → ControlInputs) : List WriteItem :=
  (request.listOfVariable.zip request.listOfData).mapIdx fun i (varSpec, data) =>
    ⟨varSpec, data, inputs i⟩

namespace MmsServer

variable {τ : Type}

/-- `MmsDevice_getDomain` -/
def getDomain (s : MmsServer τ) (domainId : List UInt8) : Option Nat :=
  s.domainNames.findIdx? (· = createStringFromBuffer domainId)

def getNamedVariable (s : MmsServer τ) (domain : Nat) (nameId : List UInt8) :
    Exec (Option MmsVariableSpecification) :=
  match s.ied.caches[domain]? with
  | some cache => cache.domain.getNamedVariable nameId
  | none => .ok none

/-- The handlers of the variables that are not values of the data model. -/
def handlers (others : BlockHandlers τ) (inputs : ControlInputs) (invokeId : UInt32) :
    ControlBlockHandlers (List ControlEntry × τ) where
  writeAccess target blocks domain variableId value connection :=
    match target with
    | .controlObject => do
      let (controls, indication) ←
        writeAccessControlObject blocks.1 inputs invokeId domain variableId value connection
      return ((controls, blocks.2), indication)
    | target => do
      let (others, indication) ←
        others.writeAccess target blocks.2 domain variableId value connection
      return ((blocks.1, others), indication)

/-- `mmsServer_setValue` -/
def setValue (others : BlockHandlers τ) (s : MmsServer τ) (inputs : ControlInputs)
    (invokeId : UInt32) (domain : Nat) (itemId : List UInt8) (value : MmsValue)
    (connection : Connection) : Exec (MmsServer τ × MmsDataAccessError) := do
  let (ied, blocks, indication, _) ← s.ied.mmsWriteHandler (handlers others inputs invokeId)
    (s.controls, s.blocks) domain itemId value connection
  return ({ s with ied := ied, controls := blocks.1, blocks := blocks.2 }, indication)

/-- The write of an array element. -/
def writeElement (s : MmsServer τ) (alternateAccess : AlternateAccess) (domain : Nat)
    (nameId : List UInt8) (value : MmsValue) : Exec (MmsServer τ × MmsDataAccessError) := do
  match ← s.ied.getPlaceFromCache domain nameId with
  | none => return (s, .objectAttributeInconsistent)
  | some place =>
    let cachedArray ← s.ied.valueAt place
    let index ← alternateAccess.getLowIndex
    match cachedArray.getElement index with
    | none => return (s, .objectAttributeInconsistent)
    | some elementValue =>
      match elementValue.update value with
      | none => return (s, .typeInconsistent)
      | some updated =>
        let element := ⟨place.domain, place.place.itemId, place.place.path ++ [index.toNat]⟩
        return ({ s with ied := s.ied.modifyAt element fun _ => updated }, .success)

/-- One turn of the loop of `mmsServer_handleWriteRequest`. -/
def writeVariable (others : BlockHandlers τ) (connection : Connection) (invokeId : UInt32)
    (s : MmsServer τ) (item : WriteItem) : Exec (MmsServer τ × MmsDataAccessError) :=
  match item.varSpec.name with
  | none => .ok (s, .objectAccessUnsupported)
  | some (domainId, itemId) =>
    match s.getDomain domainId with
    | none => .ok (s, .objectNoneExistent)
    | some domain => do
      let nameId := createStringFromBuffer itemId
      match ← s.getNamedVariable domain nameId with
      | none => return (s, .objectNoneExistent)
      | some variableSpecification =>
        match item.varSpec.alternateAccess with
        | none =>
          match item.data with
          | none => return (s, .objectAttributeInconsistent)
          | some value => s.setValue others item.inputs invokeId domain nameId value connection
        | some alternateAccess =>
          match variableSpecification with
          | .array _ _ _ =>
            if !(← alternateAccess.isIndexAccess) then return (s, .objectAccessUnsupported)
            match item.data with
            | none => return (s, .objectAttributeInconsistent)
            | some value => s.writeElement alternateAccess domain nameId value
          | _ => return (s, .objectAttributeInconsistent)

/-- The loop of `mmsServer_handleWriteRequest`. A slot that has not been written holds nothing. -/
def writeVariables (others : BlockHandlers τ) (connection : Connection) (invokeId : UInt32) :
    MmsServer τ → List WriteItem → List (Option MmsDataAccessError) × Nat → Bool →
      Exec (MmsServer τ × (List (Option MmsDataAccessError) × Nat) × Bool)
  | s, [], accessResults, sendResponse => .ok (s, accessResults, sendResponse)
  | s, item :: items, accessResults, sendResponse => do
    let (s, valueIndication) ← s.writeVariable others connection invokeId item
    writeVariables others connection invokeId s items
      (← fillNext accessResults (some valueIndication))
      (if valueIndication = .noResponse then false else sendResponse)

/-- `CONFIG_MMS_WRITE_SERVICE_MAX_NUMBER_OF_WRITE_ITEMS` -/
def maxNumberOfWriteItems : Nat := 100

/-- `mmsServer_createMmsWriteResponse` -/
def createMmsWriteResponse (invokeId : UInt32) (numberOfItems : Nat)
    (accessResults : List (Option MmsDataAccessError)) : Exec WriteResponse := do
  let results ← (accessResults.take numberOfItems).mapM fun
    | some result => .ok result
    | none => .error .notThere
  return .writeResponse invokeId results

/-- `mmsServer_handleWriteRequest`. Nothing is returned where nothing is sent. -/
def handleWriteRequest (others : BlockHandlers τ) (s : MmsServer τ) (connection : Connection)
    (invokeId : UInt32) (request : WriteRequest) (inputs : Nat → ControlInputs) :
    Exec (MmsServer τ × Option WriteResponse) :=
  let numberOfWriteItems := request.listOfVariable.length
  if numberOfWriteItems < 1 then .ok (s, some (.reject invokeId .requestInvalidArgument))
  else if maxNumberOfWriteItems < numberOfWriteItems then
    .ok (s, some (.reject invokeId .other))
  else if request.listOfData.length ≠ numberOfWriteItems then
    .ok (s, some (.reject invokeId .requestInvalidArgument))
  else do
    let (s, accessResults, sendResponse) ← s.writeVariables others connection invokeId
      (request.items inputs) (List.replicate (maxNumberOfWriteItems * 4) none, 0) true
    if sendResponse then
      return (s, some (← createMmsWriteResponse invokeId numberOfWriteItems accessResults.1))
    return (s, none)

/-- The items are written one after the other, each with its outcome. -/
inductive Writes (others : BlockHandlers τ) (connection : Connection) (invokeId : UInt32) :
    MmsServer τ → List WriteItem → List MmsDataAccessError → MmsServer τ → Prop
  | nil {s : MmsServer τ} : Writes others connection invokeId s [] [] s
  | cons {s s' s'' : MmsServer τ} {item : WriteItem} {items : List WriteItem}
      {outcome : MmsDataAccessError} {outcomes : List MmsDataAccessError} :
    s.writeVariable others connection invokeId item = .ok (s', outcome) →
    Writes others connection invokeId s' items outcomes s'' →
    Writes others connection invokeId s (item :: items) (outcome :: outcomes) s''

/-- What the write of an item asks of a control object. -/
def controlRequest (s : MmsServer τ) (connection : Connection) (invokeId : UInt32)
    (item : WriteItem) : Option (Nat × Control.Event) := do
  let (domainId, itemId) ← item.varSpec.name
  let domain ← s.getDomain domainId
  let value ← item.data
  let nameId := createStringFromBuffer itemId
  let rest ← behindSeparator nameId
  if writeTarget rest = .controlObject then
    Control.controlRequest s.controls item.inputs invokeId domain nameId value connection
  else none

/-- The requests that the threads of a control object have been asked. -/
def asked (s : MmsServer τ) (index : Nat) : List Asked :=
  (s.controls[index]?.map (·.history.asked)).getD []

/-- No operation in progress is cancelled by one of the items. -/
def ItemsSteady (others : BlockHandlers τ) (connection : Connection) (invokeId : UInt32) :
    MmsServer τ → List WriteItem → Prop
  | _, [] => True
  | s, item :: items =>
    (∀ index e entry, s.controlRequest connection invokeId item = some (index, e) →
      s.controls[index]? = some entry → entry.history.Steady e) ∧
    ∀ s' outcome, s.writeVariable others connection invokeId item = .ok (s', outcome) →
      ItemsSteady others connection invokeId s' items

end MmsServer

/-- A write request with the states before and after it, and what has been sent at once. -/
structure Exchange (τ : Type) where
  before : MmsServer τ
  after : MmsServer τ
  connection : Connection
  invokeId : UInt32
  request : WriteRequest
  inputs : Nat → ControlInputs
  response : Option WriteResponse

namespace Exchange

variable {τ : Type}

/-- What the threads of a control object are left to answer. -/
def leftTo (x : Exchange τ) (index : Nat) : List Asked :=
  (x.after.asked index).drop (x.before.asked index).length

def Writes (others : BlockHandlers τ) (x : Exchange τ) (outcomes : List MmsDataAccessError) : Prop :=
  MmsServer.Writes others x.connection x.invokeId x.before (x.request.items x.inputs) outcomes
    x.after

/-- There are variables, and as many values. -/
def WellFormed (x : Exchange τ) : Prop :=
  1 ≤ x.request.listOfVariable.length ∧
    x.request.listOfData.length = x.request.listOfVariable.length

/-- The request is answered at once with the outcomes of all its writes, or its only write is left
to the thread of a control object. -/
def Responds (others : BlockHandlers τ) (x : Exchange τ) : Prop :=
  ∃ outcomes, x.Writes others outcomes ∧
    outcomes.length = x.request.listOfVariable.length ∧
    ((.noResponse ∉ outcomes ∧ x.response = some (.writeResponse x.invokeId outcomes) ∧
        ∀ index, x.leftTo index = []) ∨
      (outcomes = [.noResponse] ∧ x.response = none ∧
        ∃ index, x.leftTo index = [⟨x.connection, x.invokeId⟩] ∧
          ∀ other, other ≠ index → x.leftTo other = []))

/-- Some of several writes are left to threads. -/
def Mixed (others : BlockHandlers τ) (x : Exchange τ) : Prop :=
  ∃ outcomes, x.Writes others outcomes ∧ .noResponse ∈ outcomes ∧ outcomes.length ≠ 1

/-- A well-formed request is responded to, or rejected if it has too many variables. -/
structure Answered (others : BlockHandlers τ) (x : Exchange τ) : Prop where
  responds : x.WellFormed → x.request.listOfVariable.length ≤ MmsServer.maxNumberOfWriteItems →
    ¬ x.Mixed others → x.Responds others
  rejected : x.WellFormed → MmsServer.maxNumberOfWriteItems < x.request.listOfVariable.length →
    x.response = some (.reject x.invokeId .other) ∧ x.after = x.before

end Exchange

/-- A server with the write requests it has had. -/
structure WriteHistory (τ : Type) where
  server : MmsServer τ
  exchanges : List (Exchange τ)

/-- `changed` is whatever else changes the values and the other control blocks. -/
inductive ServerEvent (τ : Type)
  | writeRequest (connection : Connection) (invokeId : UInt32) (request : WriteRequest)
    (inputs : Nat → ControlInputs)
  | control (index : Nat) (e : Control.Event)
  | changed (ied : IedServer) (blocks : τ)

namespace WriteHistory

variable {τ : Type}

def perform (others : BlockHandlers τ) (h : WriteHistory τ) :
    ServerEvent τ → Exec (WriteHistory τ)
  | .writeRequest connection invokeId request inputs => do
    let (server, response) ←
      h.server.handleWriteRequest others connection invokeId request inputs
    return ⟨server, h.exchanges ++
      [⟨h.server, server, connection, invokeId, request, inputs, response⟩]⟩
  | .control index e =>
    match h.server.controls[index]? with
    | none => .error .outOfBounds
    | some entry => do
      let history ← entry.history.perform e
      return { h with server := { h.server with
        controls := h.server.controls.set index { entry with history := history } } }
  | .changed ied blocks =>
    .ok { h with server := { h.server with ied := ied, blocks := blocks } }

def Step (others : BlockHandlers τ) (h : WriteHistory τ) (e : ServerEvent τ)
    (h' : WriteHistory τ) : Prop := h.perform others e = .ok h'

/-- No operation in progress is cancelled or cleared up, its thread finds the client, and the
elements of control objects are written by write requests only. -/
def Steady (others : BlockHandlers τ) (h : WriteHistory τ) : ServerEvent τ → Prop
  | .writeRequest connection invokeId request inputs =>
    h.server.ItemsSteady others connection invokeId (request.items inputs)
  | .control index e =>
    (∀ connection invokeId, ¬ AnswerHistory.IsWriteOf connection invokeId e) ∧
      ∀ entry, h.server.controls[index]? = some entry → entry.history.Steady e
  | .changed _ _ => True

/-- Every request is answered, at once or by the threads of a control object, which answer what is
left to them in this order, each once. -/
structure Responds (others : BlockHandlers τ) (h : WriteHistory τ) : Prop where
  answered : ∀ x ∈ h.exchanges, x.Answered others
  leftTo : ∀ index entry, h.server.controls[index]? = some entry →
    entry.history.asked = h.exchanges.flatMap (·.leftTo index)
  answers : ∀ entry ∈ h.server.controls, entry.history.Answers

end WriteHistory

/-! ## What a write does to the control objects -/

namespace IedServer

variable {s s' : IedServer} {domain : Nat} {variableId : List UInt8} {value : MmsValue}
  {connection : Nat} {fc : FunctionalConstraint} {indication : MmsDataAccessError}
  {events : List WriteEvent}

theorem writeData_answersAtOnce (h : s.writeData fc domain variableId value connection =
    .ok (s', indication, events)) : indication ≠ .noResponse := by
  rw [writeData] at h
  obtain ⟨found, -, h⟩ := bind_ok h
  cases found with
  | none =>
    cases h
    decide
  | some p =>
    obtain ⟨current, -, h⟩ := bind_ok h
    split at h
    · cases h
      decide
    · split at h
      · cases h
        decide
      · split at h
        · cases h
          decide
        · obtain ⟨⟨updated, triggered⟩, -, h⟩ := bind_ok h
          cases h
          decide

end IedServer

namespace MmsServer

variable {τ : Type} {others : BlockHandlers τ} {s s' : MmsServer τ} {connection : Connection}
  {invokeId : UInt32} {item : WriteItem} {indication : MmsDataAccessError} {index : Nat}

/-- What a write does to the control objects: nothing, or one of them is asked. -/
inductive Turn (s s' : MmsServer τ) (request : Option (Nat × Control.Event)) (asked : Asked)
    (indication : MmsDataAccessError) : Prop
  | kept : s'.controls = s.controls → indication ≠ .noResponse → Turn s s' request asked indication
  | control (index : Nat) (e : Control.Event) (entry : ControlEntry) (history : AnswerHistory) :
    request = some (index, e) → s.controls[index]? = some entry → entry.history.Step e history →
    s'.controls = s.controls.set index { entry with history := history } →
    history.asked = entry.history.asked ++ (if indication = .noResponse then [asked] else []) →
    Turn s s' request asked indication

theorem answer_ne {target : WriteTarget} {blocks blocks' : τ} {domain : Nat}
    {itemId : List UInt8} {value : MmsValue}
    (h : others.writeAccess target blocks domain itemId value connection =
      .ok (blocks', indication)) : indication ≠ .noResponse := by
  rintro rfl
  exact others.answersAtOnce _ _ _ _ _ _ _ h

theorem setValue_turn {inputs : ControlInputs} {domain : Nat} {itemId : List UInt8}
    {value : MmsValue} {request : Option (Nat × Control.Event)}
    (hrequest : ∀ rest, behindSeparator itemId = some rest → writeTarget rest = .controlObject →
      request = Control.controlRequest s.controls inputs invokeId domain itemId value connection)
    (h : s.setValue others inputs invokeId domain itemId value connection =
      .ok (s', indication)) : Turn s s' request ⟨connection, invokeId⟩ indication := by
  obtain ⟨⟨ied, ⟨controls, blocks⟩, answer, events⟩, hwrite, h⟩ := bind_ok h
  cases h
  rw [IedServer.mmsWriteHandler] at hwrite
  cases hsep : behindSeparator itemId with
  | none =>
    rw [hsep] at hwrite
    cases hwrite
    exact .kept rfl (by decide)
  | some rest =>
    rw [hsep] at hwrite
    dsimp only at hwrite
    cases htarget : writeTarget rest with
    | data fc =>
      rw [htarget] at hwrite
      obtain ⟨⟨ied', answer', events'⟩, hdata, hwrite⟩ := bind_ok hwrite
      cases hwrite
      exact .kept rfl (IedServer.writeData_answersAtOnce hdata)
    | notWritable =>
      rw [htarget] at hwrite
      cases hwrite
      exact .kept rfl (by decide)
    | controlObject =>
      rw [htarget] at hwrite
      obtain ⟨⟨blocks', answer'⟩, hcontrol, hwrite⟩ := bind_ok hwrite
      cases hwrite
      obtain ⟨⟨controls', answer''⟩, haccess, hcontrol⟩ := bind_ok hcontrol
      cases hcontrol
      rcases writeAccessControlObject_cases haccess with ⟨rfl, hne⟩ |
        ⟨index, e, entry, history, hasks, hentry, hstep, rfl, hasked⟩
      · exact .kept rfl hne
      · exact .control index e entry history ((hrequest rest hsep htarget).trans hasks) hentry
          hstep rfl hasked
    | gooseControlBlock =>
      rw [htarget] at hwrite
      obtain ⟨⟨blocks', answer'⟩, hblock, hwrite⟩ := bind_ok hwrite
      cases hwrite
      obtain ⟨⟨blocks'', answer''⟩, haccess, hblock⟩ := bind_ok hblock
      cases hblock
      exact .kept rfl (answer_ne haccess)
    | reportControlBlock =>
      rw [htarget] at hwrite
      obtain ⟨⟨blocks', answer'⟩, hblock, hwrite⟩ := bind_ok hwrite
      cases hwrite
      obtain ⟨⟨blocks'', answer''⟩, haccess, hblock⟩ := bind_ok hblock
      cases hblock
      exact .kept rfl (answer_ne haccess)

theorem writeElement_controls {alternateAccess : AlternateAccess} {domain : Nat}
    {nameId : List UInt8} {value : MmsValue}
    (h : s.writeElement alternateAccess domain nameId value = .ok (s', indication)) :
    s'.controls = s.controls ∧ indication ≠ .noResponse := by
  obtain ⟨found, -, h⟩ := bind_ok h
  cases found with
  | none =>
    cases h
    exact ⟨rfl, by decide⟩
  | some place =>
    obtain ⟨cachedArray, -, h⟩ := bind_ok h
    obtain ⟨low, -, h⟩ := bind_ok h
    split at h
    · cases h
      exact ⟨rfl, by decide⟩
    · split at h
      · cases h
        exact ⟨rfl, by decide⟩
      · cases h
        exact ⟨rfl, by decide⟩

theorem controlRequest_eq {domainId itemId : List UInt8} {domain : Nat} {value : MmsValue}
    {rest : List UInt8} (hname : item.varSpec.name = some (domainId, itemId))
    (hdomain : s.getDomain domainId = some domain) (hdata : item.data = some value)
    (hsep : behindSeparator (createStringFromBuffer itemId) = some rest)
    (htarget : writeTarget rest = .controlObject) :
    s.controlRequest connection invokeId item = Control.controlRequest s.controls item.inputs
      invokeId domain (createStringFromBuffer itemId) value connection := by
  simp only [controlRequest, hname, hdomain, hdata, hsep, htarget, Option.bind_eq_bind,
    Option.bind_some, if_true]

theorem writeVariable_turn
    (h : s.writeVariable others connection invokeId item = .ok (s', indication)) :
    Turn s s' (s.controlRequest connection invokeId item) ⟨connection, invokeId⟩ indication := by
  rw [writeVariable] at h
  cases hname : item.varSpec.name with
  | none =>
    rw [hname] at h
    cases h
    exact .kept rfl (by decide)
  | some name =>
    obtain ⟨domainId, itemId⟩ := name
    rw [hname] at h
    dsimp only at h
    cases hdomain : s.getDomain domainId with
    | none =>
      rw [hdomain] at h
      cases h
      exact .kept rfl (by decide)
    | some domain =>
      rw [hdomain] at h
      obtain ⟨found, -, h⟩ := bind_ok h
      cases found with
      | none =>
        cases h
        exact .kept rfl (by decide)
      | some variableSpecification =>
        dsimp only at h
        cases haccess : item.varSpec.alternateAccess with
        | none =>
          rw [haccess] at h
          dsimp only at h
          cases hdata : item.data with
          | none =>
            rw [hdata] at h
            cases h
            exact .kept rfl (by decide)
          | some value =>
            rw [hdata] at h
            exact setValue_turn (fun rest => controlRequest_eq hname hdomain hdata) h
        | some alternateAccess =>
          rw [haccess] at h
          cases variableSpecification with
          | array name elementCount elementTypeSpec =>
            obtain ⟨isIndexAccess, -, h⟩ := bind_ok h
            cases isIndexAccess with
            | false =>
              cases h
              exact .kept rfl (by decide)
            | true =>
              cases hdata : item.data with
              | none =>
                rw [hdata] at h
                cases h
                exact .kept rfl (by decide)
              | some value =>
                rw [hdata] at h
                obtain ⟨hcontrols, hne⟩ := writeElement_controls h
                exact .kept hcontrols hne
          | structured name elements =>
            cases h
            exact .kept rfl (by decide)
          | leaf name size =>
            cases h
            exact .kept rfl (by decide)

theorem asked_eq {entry : ControlEntry} (h : s.controls[index]? = some entry) :
    s.asked index = entry.history.asked := by
  rw [asked, h]
  rfl

theorem asked_of_controls (h : s'.controls = s.controls) (index : Nat) :
    s'.asked index = s.asked index := by
  rw [asked, asked, h]

/-- Only the object that changes can have been asked. -/
theorem asked_set {entry entry' : ControlEntry} (hentry : s.controls[index]? = some entry)
    (h : s'.controls = s.controls.set index entry') :
    s'.asked index = entry'.history.asked ∧
      ∀ other, other ≠ index → s'.asked other = s.asked other := by
  constructor
  · apply asked_eq
    rw [h]
    exact List.getElem?_set_self (List.getElem?_eq_some_iff.mp hentry).1
  · intro other hne
    rw [asked, asked, h, List.getElem?_set_ne hne.symm]

namespace Turn

variable {request : Option (Nat × Control.Event)} {asked : Asked}

theorem asked_same (h : Turn s s' request asked indication) (hne : indication ≠ .noResponse)
    (index : Nat) : s'.asked index = s.asked index := by
  cases h with
  | kept hcontrols => exact asked_of_controls hcontrols index
  | control written e entry history hrequest hentry hstep hset hasked =>
    obtain ⟨hself, hother⟩ := asked_set hentry hset
    by_cases hi : index = written
    · subst hi
      rw [hself, asked_eq hentry]
      rw [if_neg hne, List.append_nil] at hasked
      exact hasked
    · exact hother index hi

theorem asked_left (h : Turn s s' request asked .noResponse) :
    ∃ index, s'.asked index = s.asked index ++ [asked] ∧
      ∀ other, other ≠ index → s'.asked other = s.asked other := by
  cases h with
  | kept hcontrols hne => exact absurd rfl hne
  | control index e entry history hrequest hentry hstep hset hasked =>
    obtain ⟨hself, hother⟩ := asked_set hentry hset
    refine ⟨index, ?_, hother⟩
    rw [hself, asked_eq hentry]
    exact hasked

theorem asked_grows (h : Turn s s' request asked indication) (index : Nat) :
    s.asked index <+: s'.asked index := by
  by_cases hne : indication = .noResponse
  · subst hne
    obtain ⟨written, hself, hother⟩ := h.asked_left
    by_cases hi : index = written
    · rw [hi, hself]
      exact List.prefix_append _ _
    · rw [hother index hi]
  · rw [h.asked_same hne index]

end Turn

/-- All control objects are as their threads need them. -/
def Tracks (s : MmsServer τ) : Prop := ∀ entry ∈ s.controls, entry.history.Tracks

theorem Tracks.set {entry : ControlEntry} (h : s.Tracks) {history : AnswerHistory}
    (hset : s'.controls = s.controls.set index { entry with history := history })
    (ht : history.Tracks) : s'.Tracks := by
  intro entry' hmem
  rw [hset] at hmem
  rcases List.mem_or_eq_of_mem_set hmem with hmem | rfl
  · exact h entry' hmem
  · exact ht

theorem Tracks.turn (h : s.Tracks) {request : Option (Nat × Control.Event)} {asked : Asked}
    (hturn : Turn s s' request asked indication)
    (hg : ∀ index e entry, request = some (index, e) → s.controls[index]? = some entry →
      entry.history.Steady e) : s'.Tracks := by
  cases hturn with
  | kept hcontrols =>
    intro entry hmem
    rw [hcontrols] at hmem
    exact h entry hmem
  | control index e entry history hrequest hentry hstep hset =>
    have ht := h entry (List.mem_of_getElem? hentry)
    exact h.set hset (ht.step (hg index e entry hrequest hentry) hstep)

section Writes

variable {items : List WriteItem} {outcomes : List MmsDataAccessError}

theorem Writes.length (h : Writes others connection invokeId s items outcomes s') :
    outcomes.length = items.length := by
  induction h with
  | nil => rfl
  | cons _ _ ih => rw [List.length_cons, List.length_cons, ih]

theorem Writes.tracks (h : Writes others connection invokeId s items outcomes s')
    (hs : s.Tracks) (hg : s.ItemsSteady others connection invokeId items) : s'.Tracks := by
  induction h with
  | nil => exact hs
  | cons hwrite _ ih =>
    obtain ⟨hitem, hrest⟩ := hg
    exact ih (hs.turn (writeVariable_turn hwrite) hitem) (hrest _ _ hwrite)

theorem Writes.asked_grows (h : Writes others connection invokeId s items outcomes s')
    (index : Nat) : s.asked index <+: s'.asked index := by
  induction h with
  | nil => exact List.prefix_rfl
  | cons hwrite _ ih => exact ((writeVariable_turn hwrite).asked_grows index).trans ih

theorem Writes.asked_same (h : Writes others connection invokeId s items outcomes s')
    (hne : .noResponse ∉ outcomes) (index : Nat) : s'.asked index = s.asked index := by
  induction h with
  | nil => rfl
  | cons hwrite _ ih =>
    rw [List.mem_cons, not_or] at hne
    rw [ih hne.2, (writeVariable_turn hwrite).asked_same (Ne.symm hne.1)]

theorem Writes.asked_left (h : Writes others connection invokeId s items [.noResponse] s') :
    ∃ index, s'.asked index = s.asked index ++ [⟨connection, invokeId⟩] ∧
      ∀ other, other ≠ index → s'.asked other = s.asked other := by
  cases h with
  | cons hwrite hrest =>
    cases hrest
    exact (writeVariable_turn hwrite).asked_left

/-- The loop writes the items one after the other. -/
theorem writeVariables_filled (values : List MmsDataAccessError) {free : Nat}
    (hfree : items.length ≤ free) (sendResponse : Bool)
    {accessResults : List (Option MmsDataAccessError) × Nat} {sendResponse' : Bool}
    (h : s.writeVariables others connection invokeId items (filled none (values.map some) free)
      sendResponse = .ok (s', accessResults, sendResponse')) :
    ∃ outcomes, Writes others connection invokeId s items outcomes s' ∧
      accessResults = filled none ((values ++ outcomes).map some) (free - items.length) ∧
      sendResponse' = (sendResponse && !outcomes.contains .noResponse) := by
  induction items generalizing s values free sendResponse with
  | nil =>
    cases h
    exact ⟨[], .nil, by simp, by simp⟩
  | cons item items ih =>
    obtain ⟨⟨written, outcome⟩, hwrite, h⟩ := bind_ok h
    obtain ⟨free, rfl⟩ := Nat.exists_eq_succ_of_ne_zero (Nat.ne_of_gt (Nat.lt_of_lt_of_le
      (Nat.succ_pos items.length) hfree))
    dsimp only at h
    rw [fillNext_filled, ok_bind, ← List.map_singleton, ← List.map_append] at h
    obtain ⟨outcomes, hwrites, hresults, hsend⟩ :=
      ih (values ++ [outcome]) (Nat.le_of_succ_le_succ hfree) _ h
    refine ⟨outcome :: outcomes, .cons hwrite hwrites, ?_, ?_⟩
    · rw [hresults, List.append_assoc, List.singleton_append, List.length_cons,
        Nat.succ_sub_succ]
    · rw [hsend, List.contains_cons]
      by_cases hne : outcome = .noResponse
      · subst hne
        simp
      · rw [if_neg hne, beq_eq_false_iff_ne.mpr (Ne.symm hne), Bool.false_or]

theorem mapM_some (outcomes : List MmsDataAccessError) :
    (outcomes.map some).mapM (fun
      | some result => (.ok result : Exec MmsDataAccessError)
      | none => .error .notThere) = .ok outcomes := by
  induction outcomes with
  | nil => rfl
  | cons outcome outcomes ih =>
    rw [List.map_cons, List.mapM_cons, ih]
    rfl

theorem createMmsWriteResponse_filled (free : Nat) :
    createMmsWriteResponse invokeId outcomes.length (filled none (outcomes.map some) free).1 =
      .ok (.writeResponse invokeId outcomes) := by
  have htake : ((filled none (outcomes.map some) free).1).take outcomes.length =
      outcomes.map some := by
    rw [filled]
    exact List.take_left' (List.length_map _)
  rw [createMmsWriteResponse, htake, mapM_some]
  rfl

theorem length_items {request : WriteRequest} {inputs : Nat → ControlInputs}
    (h : request.listOfData.length = request.listOfVariable.length) :
    (request.items inputs).length = request.listOfVariable.length := by
  rw [WriteRequest.items, List.length_mapIdx, List.length_zip, h, Nat.min_self]

/-- A request that is not rejected is answered with the outcomes of its writes unless one of them
is left to a thread. -/
theorem handleWriteRequest_writes {request : WriteRequest} {inputs : Nat → ControlInputs}
    {response : Option WriteResponse} (hpos : 1 ≤ request.listOfVariable.length)
    (hmax : request.listOfVariable.length ≤ maxNumberOfWriteItems)
    (hdata : request.listOfData.length = request.listOfVariable.length)
    (h : s.handleWriteRequest others connection invokeId request inputs = .ok (s', response)) :
    ∃ outcomes, Writes others connection invokeId s (request.items inputs) outcomes s' ∧
      outcomes.length = request.listOfVariable.length ∧
      response = if .noResponse ∈ outcomes then none
        else some (.writeResponse invokeId outcomes) := by
  rw [handleWriteRequest, if_neg (Nat.not_lt.mpr hpos), if_neg (Nat.not_lt.mpr hmax),
    if_neg (not_not.mpr hdata)] at h
  obtain ⟨⟨written, accessResults, sendResponse⟩, hloop, h⟩ := bind_ok h
  have hfree : (request.items inputs).length ≤ maxNumberOfWriteItems * 4 := by
    rw [length_items hdata]
    omega
  obtain ⟨outcomes, hwrites, hresults, hsend⟩ := writeVariables_filled [] hfree true hloop
  have hlen : outcomes.length = request.listOfVariable.length := by
    rw [hwrites.length, length_items hdata]
  dsimp only at h
  rw [hsend, Bool.true_and, hresults, List.nil_append] at h
  by_cases hmem : .noResponse ∈ outcomes
  · rw [if_neg (by simp [hmem])] at h
    cases h
    exact ⟨outcomes, hwrites, hlen, (if_pos hmem).symm⟩
  · rw [if_pos (by simp [hmem]), ← hlen, createMmsWriteResponse_filled, ok_bind] at h
    cases h
    exact ⟨outcomes, hwrites, hlen, (if_neg hmem).symm⟩

theorem handleWriteRequest_rejects {request : WriteRequest} {inputs : Nat → ControlInputs}
    (hmax : maxNumberOfWriteItems < request.listOfVariable.length) :
    s.handleWriteRequest others connection invokeId request inputs =
      .ok (s, some (.reject invokeId .other)) := by
  rw [handleWriteRequest, if_neg (by omega), if_pos hmax]

/-- A request for which nothing is written is rejected. -/
theorem handleWriteRequest_cases {request : WriteRequest} {inputs : Nat → ControlInputs}
    {response : Option WriteResponse}
    (h : s.handleWriteRequest others connection invokeId request inputs = .ok (s', response)) :
    s' = s ∨ ∃ outcomes,
      Writes others connection invokeId s (request.items inputs) outcomes s' := by
  by_cases hpos : 1 ≤ request.listOfVariable.length
  · by_cases hmax : request.listOfVariable.length ≤ maxNumberOfWriteItems
    · by_cases hdata : request.listOfData.length = request.listOfVariable.length
      · obtain ⟨outcomes, hwrites, -⟩ := handleWriteRequest_writes hpos hmax hdata h
        exact .inr ⟨outcomes, hwrites⟩
      · rw [handleWriteRequest, if_neg (Nat.not_lt.mpr hpos), if_neg (Nat.not_lt.mpr hmax),
          if_pos hdata] at h
        cases h
        exact .inl rfl
    · rw [handleWriteRequest_rejects (Nat.lt_of_not_le hmax)] at h
      cases h
      exact .inl rfl
  · rw [handleWriteRequest, if_pos (Nat.lt_of_not_le hpos)] at h
    cases h
    exact .inl rfl

end Writes

end MmsServer

/-! ## The answers of a run -/

namespace Exchange

variable {τ : Type} {others : BlockHandlers τ} {x : Exchange τ}

theorem leftTo_same {index : Nat} (h : x.after.asked index = x.before.asked index) :
    x.leftTo index = [] := by
  rw [leftTo, h, List.drop_length]

theorem Writes.responds {outcomes : List MmsDataAccessError} (h : x.Writes others outcomes)
    (hlen : outcomes.length = x.request.listOfVariable.length)
    (hresponse : x.response = if .noResponse ∈ outcomes then none
      else some (.writeResponse x.invokeId outcomes))
    (hmixed : ¬ x.Mixed others) : x.Responds others := by
  refine ⟨outcomes, h, hlen, ?_⟩
  by_cases hmem : .noResponse ∈ outcomes
  · right
    rw [if_pos hmem] at hresponse
    have hone : outcomes.length = 1 := by
      by_contra hne
      exact hmixed ⟨outcomes, h, hmem, hne⟩
    obtain ⟨outcome, rfl⟩ := List.length_eq_one_iff.mp hone
    obtain rfl := List.mem_singleton.mp hmem
    obtain ⟨index, hself, hother⟩ := MmsServer.Writes.asked_left h
    refine ⟨rfl, hresponse, index, ?_, fun other hne => leftTo_same (hother other hne)⟩
    rw [leftTo, hself]
    exact List.drop_left
  · left
    rw [if_neg hmem] at hresponse
    exact ⟨hmem, hresponse, fun index => leftTo_same (MmsServer.Writes.asked_same h hmem index)⟩

theorem answered_of_handled (h : x.before.handleWriteRequest others x.connection x.invokeId
    x.request x.inputs = .ok (x.after, x.response)) : x.Answered others where
  responds hwell hmax hmixed := by
    obtain ⟨outcomes, hwrites, hlen, hresponse⟩ :=
      MmsServer.handleWriteRequest_writes hwell.1 hmax hwell.2 h
    exact Writes.responds hwrites hlen hresponse hmixed
  rejected hwell hmax := by
    rw [MmsServer.handleWriteRequest_rejects hmax] at h
    obtain ⟨hafter, hresponse⟩ := Prod.mk.inj (Except.ok.inj h)
    exact ⟨hresponse.symm, hafter.symm⟩

/-- What the threads have been asked before the request, they have been asked afterwards. -/
theorem asked_leftTo (h : x.before.handleWriteRequest others x.connection x.invokeId
    x.request x.inputs = .ok (x.after, x.response)) (index : Nat) :
    x.after.asked index = x.before.asked index ++ x.leftTo index := by
  rw [leftTo]
  apply List.prefix_append_drop
  rcases MmsServer.handleWriteRequest_cases h with hsame | ⟨outcomes, hwrites⟩
  · rw [hsame]
  · exact hwrites.asked_grows index

end Exchange

namespace WriteHistory

variable {τ : Type} {others : BlockHandlers τ} {h h' : WriteHistory τ}

structure Inv (others : BlockHandlers τ) (h : WriteHistory τ) : Prop where
  tracks : h.server.Tracks
  answered : ∀ x ∈ h.exchanges, x.Answered others
  asked : ∀ index, h.server.asked index = h.exchanges.flatMap (·.leftTo index)

theorem asks_of_not_write {s : Control.Server} {e : Control.Event}
    (h : ∀ connection invokeId, ¬ AnswerHistory.IsWriteOf connection invokeId e) :
    AnswerHistory.asks s e = [] := by
  cases e with
  | writeOper w currentTime result invokeId => exact absurd ⟨rfl, rfl⟩ (h w.connection invokeId)
  | _ => rfl

theorem Inv.writeRequest (hi : h.Inv others) {connection : Connection} {invokeId : UInt32}
    {request : WriteRequest} {inputs : Nat → ControlInputs} {server : MmsServer τ}
    {response : Option WriteResponse}
    (hg : h.server.ItemsSteady others connection invokeId (request.items inputs))
    (hs : h.server.handleWriteRequest others connection invokeId request inputs =
      .ok (server, response)) :
    Inv others ⟨server, h.exchanges ++
      [⟨h.server, server, connection, invokeId, request, inputs, response⟩]⟩ where
  tracks := by
    rcases MmsServer.handleWriteRequest_cases hs with rfl | ⟨outcomes, hwrites⟩
    · exact hi.tracks
    · exact hwrites.tracks hi.tracks hg
  answered := by
    intro x hx
    rcases List.mem_append.mp hx with hx | hx
    · exact hi.answered x hx
    · obtain rfl := List.mem_singleton.mp hx
      exact Exchange.answered_of_handled hs
  asked := by
    intro index
    rw [List.flatMap_append, List.flatMap_singleton, ← hi.asked index]
    exact Exchange.asked_leftTo
      (x := ⟨h.server, server, connection, invokeId, request, inputs, response⟩) hs index

theorem Inv.control (hi : h.Inv others) {index : Nat} {e : Control.Event} {entry : ControlEntry}
    {history : AnswerHistory} (hentry : h.server.controls[index]? = some entry)
    (hstep : entry.history.Step e history) (hsteady : entry.history.Steady e)
    (hwrite : ∀ connection invokeId, ¬ AnswerHistory.IsWriteOf connection invokeId e) :
    Inv others { h with server := { h.server with
      controls := h.server.controls.set index { entry with history := history } } } where
  tracks := by
    have ht := hi.tracks entry (List.mem_of_getElem? hentry)
    exact hi.tracks.set rfl (ht.step hsteady hstep)
  answered := hi.answered
  asked := by
    intro other
    obtain ⟨⟨server, observations⟩, -, hs⟩ := bind_ok hstep
    have hasked : history.asked = entry.history.asked := by
      cases hs
      rw [asks_of_not_write hwrite, List.append_nil]
    have hset : ({ h.server with
        controls := h.server.controls.set index { entry with history := history } } :
          MmsServer τ).controls =
        h.server.controls.set index { entry with history := history } := rfl
    obtain ⟨hself, hother⟩ := MmsServer.asked_set hentry hset
    rw [← hi.asked other]
    by_cases hi : other = index
    · subst hi
      rw [hself, MmsServer.asked_eq hentry]
      exact hasked
    · exact hother other hi

theorem Inv.step (hi : h.Inv others) {e : ServerEvent τ} (hg : h.Steady others e)
    (hs : h.Step others e h') : h'.Inv others := by
  cases e with
  | writeRequest connection invokeId request inputs =>
    obtain ⟨⟨server, response⟩, hrequest, hs⟩ := bind_ok hs
    cases hs
    exact hi.writeRequest hg hrequest
  | control index e =>
    rw [Step, perform] at hs
    cases hentry : h.server.controls[index]? with
    | none =>
      rw [hentry] at hs
      cases hs
    | some entry =>
      rw [hentry] at hs
      obtain ⟨history, hstep, hs⟩ := bind_ok hs
      cases hs
      exact hi.control hentry hstep (hg.2 entry hentry) hg.1
  | changed ied blocks =>
    cases hs
    exact ⟨hi.tracks, hi.answered, hi.asked⟩

theorem Inv.responds (hi : h.Inv others) : h.Responds others where
  answered := hi.answered
  leftTo index entry hentry := by
    rw [← MmsServer.asked_eq hentry]
    exact hi.asked index
  answers entry hmem := (hi.tracks entry hmem).answers

end WriteHistory

/-- The names of a control object, and what it is created with. -/
structure ControlObjectConfiguration where
  domain : Nat
  lnName : List UInt8
  name : List UInt8
  ctlModel : UInt32
  sbo : MmsValue.CString
  sboClass : Option Int32
  sboTimeout : Option UInt32
  oper : MmsValue

def ControlObjectConfiguration.create (c : ControlObjectConfiguration) : ControlEntry where
  domain := c.domain
  lnName := c.lnName
  name := c.name
  history := .start (.create c.ctlModel c.sbo c.sboClass c.sboTimeout c.oper)

namespace WriteHistory

variable {τ : Type}

def start (domainNames : List (List UInt8)) (ied : IedServer)
    (controls : List ControlObjectConfiguration) (blocks : τ) : WriteHistory τ :=
  ⟨⟨domainNames, ied, controls.map ControlObjectConfiguration.create, blocks⟩, []⟩

theorem Inv.start (others : BlockHandlers τ) (domainNames : List (List UInt8)) (ied : IedServer)
    (controls : List ControlObjectConfiguration) (blocks : τ) :
    (start domainNames ied controls blocks).Inv others where
  tracks := by
    intro entry hmem
    obtain ⟨c, -, rfl⟩ := List.mem_map.mp hmem
    exact AnswerHistory.Tracks.start rfl
  answered x hx := absurd hx List.not_mem_nil
  asked := by
    intro index
    rw [MmsServer.asked]
    cases hentry : (WriteHistory.start domainNames ied controls blocks).server.controls[index]? with
    | none => rfl
    | some entry =>
      obtain ⟨c, -, rfl⟩ := List.mem_map.mp (List.mem_of_getElem? hentry)
      rfl

theorem wellNamed_only {name : List UInt8} {e : MmsVariableSpecification}
    (hname : separator ∉ e.name) (he : e.WellNamed) :
    (MmsVariableSpecification.structured name [e]).WellNamed := by
  refine .structured (List.nodup_singleton _) ?_ ?_
  · intro e' he'
    obtain rfl := List.mem_singleton.mp he'
    exact hname
  · intro e' he'
    obtain rfl := List.mem_singleton.mp he'
    exact he

/-- The control object `O` with its element `Oper`. -/
def controllable : MmsVariableSpecification :=
  .structured (ascii "CO") [.structured (ascii "O") [.leaf (ascii "Oper") 0]]

def sampleDomain : MmsDomain where
  namedVariables := [.structured (ascii "L") [controllable]]
  nodup := List.nodup_singleton _
  plain v hv := by
    obtain rfl := List.mem_singleton.mp hv
    exact ⟨by decide, by decide⟩
  wellNamed v hv := by
    obtain rfl := List.mem_singleton.mp hv
    exact wellNamed_only (by decide) (wellNamed_only (by decide) (wellNamed_only (by decide) .leaf))

def sampleIed : IedServer where
  caches := [⟨sampleDomain, []⟩]
  attributes := []
  attributeAccessHandlers := []
  observedObjects := []
  writeAccessPolicies := fun _ => false

def sampleControl : ControlObjectConfiguration :=
  ⟨0, ascii "L", ascii "O", 1, ⟨[], noZero_nil⟩, none, none, Server.immediateValue⟩

def sampleStart : WriteHistory Unit := start [ascii "D"] sampleIed [sampleControl] ()

def noInputs : ControlInputs := ⟨0, none, false, fun _ => false, 0⟩

/-- `Oper` of the control object. -/
def operVariable : VariableAccess := ⟨some (ascii "D", ascii "L$CO$O$Oper"), none⟩

def operate : ServerEvent Unit :=
  .writeRequest 1 7 ⟨[operVariable], [some Server.immediateValue]⟩ fun _ => noInputs

/-- A thread goes on, and finds its client. -/
def FindsClient (h : WriteHistory τ) : ServerEvent τ → Prop
  | .control index (.work worker _ _) =>
    ∀ entry ∈ h.server.controls[index]?, entry.history.server.FindsClient worker
  | _ => False

instance (h : WriteHistory τ) : (e : ServerEvent τ) → Decidable (h.FindsClient e)
  | .control index (.work worker _ _) => inferInstanceAs (Decidable
      (∀ entry ∈ h.server.controls[index]?, entry.history.server.FindsClient worker))
  | .control _ (.readSBO _ _ _) | .control _ (.writeSBOw _ _ _) | .control _ (.writeOper _ _ _ _)
  | .control _ (.writeCancel _) | .control _ (.processControlActions _)
  | .control _ (.startActivated _) | .control _ (.connectionClosed _) | .control _ (.unselect _)
  | .control _ (.configure _ _) | .writeRequest _ _ _ _ | .changed _ _ => isFalse id

/-- The thread of the first operation takes its steps. -/
def works : List (ServerEvent Unit) := List.replicate 11 (.control 0 (.work 0 true 0))

end WriteHistory

end Iec61850
