import Iec61850.Device.ValueCache
import Iec61850.Mms.AccessResult
import Iec61850.Server.AlternateAccess

/-! The read service (`mms_read_service.c`): a request names variables, parts of variables or a
list of variables, and what is found for them is collected in one list of results. -/

namespace Iec61850

open Machine MmsVariableSpecification

/-- `MmsAccessSpecifier`. There is no domain where the name of the domain was not known when the
list was defined. -/
structure NamedVariableListEntry where
  domain : Option Nat
  variableName : List UInt8
  arrayIndex : Int
  componentName : Option (List UInt8)

/-- The name of a list is an identifier, and no identifier is empty. -/
structure NamedVariableList where
  name : List UInt8
  listOfVariables : List NamedVariableListEntry
  name_ne : name ≠ []

/-- A domain of a server that is read, with the cache of its values. -/
structure ReadDomain where
  domainName : List UInt8
  cache : MmsValueCache
  namedVariableLists : List NamedVariableList
  domainName_ne : domainName ≠ []

/-- A server as one of its connections reads it. `readHandler` is what the handler returns for a
domain and a name while the variable with this number is read; `namedVariableLists` are those of
the connection. -/
structure ReadServer where
  domains : List ReadDomain
  readHandler : Nat → Nat → List UInt8 → Option MmsValue
  namedVariableLists : List NamedVariableList
  maxPduSize : Nat

/-- What the access specification of a variable is: a name, or one of the others. -/
inductive ReadSpecification
  | name (access : VariableAccess)
  | other

inductive ListName
  | vmdSpecific
  | domainSpecific (domainId itemId : List UInt8)
  | aaSpecific (listName : List UInt8)

inductive VariableAccessSpecification
  | listOfVariable (items : List ReadSpecification)
  | variableListName (listName : ListName)

structure ReadRequest where
  specificationWithResult : Bool
  variableAccessSpecification : VariableAccessSpecification

/-- `VarAccessSpec`, where it is that of a named variable list. -/
structure VarAccessSpec where
  domainId : Option (List UInt8)
  itemId : List UInt8

inductive ReadResult
  | failure (e : MmsDataAccessError)
  | success (value : MmsValue)

inductive ReadError
  | objectNonExistent | objectAccessUnsupported | serviceOther
  deriving DecidableEq

inductive ReadResponse
  | readResponse (invokeId : UInt32) (accessSpec : Option VarAccessSpec)
    (listOfAccessResult : List ReadResult)
  | confirmedError (invokeId : UInt32) (error : ReadError)
  | reject (invokeId : UInt32)

/-- A `MmsValue*` in the list of results: one that is made of an access error, one of the values
of the server, or a structure or an array that is made of such values and may have empty slots. -/
inductive ReadValue
  | error
  | null
  | value (v : MmsValue)
  | structured (components : List ReadValue)
  | array (elements : List ReadValue)

namespace ReadValue

def ofOption : Option MmsValue → ReadValue
  | some v => .value v
  | none => .null

mutual

/-- The value as it is encoded, which goes into all the slots. -/
def complete : ReadValue → Exec MmsValue
  | .error => .ok (.dataAccessError .objectNoneExistent)
  | .null => .error .nullPointer
  | .value v => .ok v
  | .structured components => do return .structured (← completeSlots components)
  | .array elements => do return .array (← completeSlots elements)

def completeSlots : List ReadValue → Exec (List MmsValue)
  | [] => .ok []
  | v :: vs => do return (← complete v) :: (← completeSlots vs)

end

def result : ReadValue → Exec ReadResult
  | .error => .ok (.failure .objectNoneExistent)
  | v => do return .success (← v.complete)

end ReadValue

/-- `mmsMsg_copyAsn1IdentifierToStringBuffer` -/
def copyAsn1IdentifierToStringBuffer (identifier : List UInt8) (bufSize : Nat) : List UInt8 :=
  if identifier.length < bufSize then createStringFromBuffer identifier else []

/-- `strncmp(name, buf, size) == 0`, where `size` is the length of the buffer. -/
def strncmpEqual : List UInt8 → List UInt8 → Bool
  | _, [] => true
  | [], b :: _ => b == 0
  | c :: cs, b :: bs => c == b && (c == 0 || strncmpEqual cs bs)

namespace AlternateAccess

/-- What selects a part of what the first member selects: `isAccessToArrayComponent` is whether
there is something. -/
def inner : AlternateAccess → Option AlternateAccess
  | .selectAlternateAccess _ alternateAccess => some alternateAccess
  | _ => none

/-- The first member is taken for the name of a component without a look at what it is. An index is
found as the octets that it came with, and `allElements` as nothing at all. -/
def componentOctets (alternateAccess : AlternateAccess) : Exec (List UInt8) := do
  match ← alternateAccess.selection with
  | none => .error .outOfBounds
  | some (.component name) => return name
  | some (.index index) => return BerEncoder.encodeUInt32 index
  | some (.indexRange lowIndex _) => return BerEncoder.encodeUInt32 lowIndex
  | some .allElements => return []

end AlternateAccess

/-- `typeSpec.structure.elements` -/
def MmsVariableSpecification.elements : MmsVariableSpecification → List MmsVariableSpecification
  | .structured _ elements => elements
  | _ => []

/-- The loop of `getComponentOfArrayElement`. It takes as many turns as the array has elements. -/
def findComponent (component : List UInt8) :
    Nat → List MmsVariableSpecification → Nat → Exec (Option Nat)
  | 0, _, _ => .ok none
  | _ + 1, [], _ => .error .outOfBounds
  | n + 1, e :: es, i =>
    if strncmpEqual e.name component then .ok (some i) else findComponent component n es (i + 1)

/-- `getComponentOfArrayElement` behind `isAccessToArrayComponent` -/
def getComponentOfArrayElement (inner : AlternateAccess) (elementCount : Int)
    (elements : List MmsVariableSpecification) (structuredValue : MmsValue) :
    Exec (Option MmsValue) := do
  let component ← inner.componentOctets
  if 129 < component.length then return none
  match ← findComponent component elementCount.toNat elements 0 with
  | some i => return structuredValue.getElement i
  | none => return none

def MmsValue.isNullString : MmsValue → Bool
  | .visibleString none => true
  | .mmsString none => true
  | _ => false

/-- `MmsValue_clone` takes the length of every string. -/
def MmsValue.clone (value : MmsValue) : Exec MmsValue :=
  if value.leaves.any MmsValue.isNullString then .error .nullPointer else .ok value

/-- The loop over an index range: no element may be missing. -/
def cloneElements (arrayValue : MmsValue) : Int → Nat → Exec (List MmsValue)
  | _, 0 => .ok []
  | index, n + 1 => do
    match arrayValue.getElement index with
    | none => .error .nullPointer
    | some elementValue =>
      return (← elementValue.clone) :: (← cloneElements arrayValue (index + 1) n)

/-- The array for an index range, whose slots are filled as far as there are any. -/
def rangeValue (arrayValue : MmsValue) (lowIndex numberOfElements : Int) : Exec ReadValue := do
  let elements ← cloneElements arrayValue lowIndex
    (i32 (lowIndex + numberOfElements) - lowIndex).toNat
  let slots := List.replicate (numberOfElements.toNat - elements.length) ReadValue.null
  return .array ((elements.map ReadValue.value ++ slots).take numberOfElements.toNat)

/-- `appendValueToResultList` -/
def appendValueToResultList : ReadValue → List ReadValue
  | .null => []
  | value => [value]

/-- `appendErrorToResultList` -/
def appendErrorToResultList : List ReadValue := [.error]

section Variable

variable (getValue : List UInt8 → Exec (Option MmsValue))

mutual

def addNamedVariableValue : MmsVariableSpecification → List UInt8 → Exec ReadValue
  | .structured _ elements, itemId => do
    match ← getValue itemId with
    | some value => return .value value
    | none => return .structured (← addElementValues elements itemId)
  | .array _ _ _, itemId => do return .ofOption (← getValue itemId)
  | .leaf _ _, itemId => do return .ofOption (← getValue itemId)

/-- The loop over the components of a structure. -/
def addElementValues : List MmsVariableSpecification → List UInt8 → Exec (List ReadValue)
  | [], _ => .ok []
  | e :: es, itemId => do
    return (← addNamedVariableValue e (itemId ++ separator :: e.name)) ::
      (← addElementValues es itemId)

end

/-- The branches of `alternateArrayAccess` for one element, or a component of it. -/
def elementValue (alternateAccess : AlternateAccess) (elementCount : Int)
    (elementTypeSpec : MmsVariableSpecification) (arrayValue : MmsValue) (index : Int) :
    Exec ReadValue :=
  match alternateAccess.inner with
  | none => .ok (.ofOption (arrayValue.getElement index))
  | some inner => do
    if !elementTypeSpec.isStructure then return .null
    match arrayValue.getElement index with
    | none => return .null
    | some structValue =>
      return .ofOption
        (← getComponentOfArrayElement inner elementCount elementTypeSpec.elements structValue)

def alternateArrayAccess (alternateAccess : AlternateAccess) (itemId : List UInt8)
    (elementCount : Int) (elementTypeSpec : MmsVariableSpecification) :
    Exec (List ReadValue) := do
  if !(← alternateAccess.isIndexAccess) then return appendErrorToResultList
  let lowIndex ← alternateAccess.getLowIndex
  let numberOfElements ← alternateAccess.getNumberOfElements
  match ← getValue itemId with
  | none => return appendErrorToResultList
  | some arrayValue =>
    let value :=
      if numberOfElements = 0 then
        elementValue alternateAccess elementCount elementTypeSpec arrayValue lowIndex
      else rangeValue arrayValue lowIndex numberOfElements
    return appendValueToResultList (← value)

def addNamedVariableToResultList (nameIdStr : List UInt8)
    (alternateAccess : Option AlternateAccess) :
    Option MmsVariableSpecification → Exec (List ReadValue)
  | none => .ok appendErrorToResultList
  | some (.structured name elements) => do
    match ← getValue nameIdStr with
    | some value => return appendValueToResultList (.value value)
    | none =>
      return appendValueToResultList
        (← addNamedVariableValue getValue (.structured name elements) nameIdStr)
  | some (.array _ elementCount elementTypeSpec) =>
    match alternateAccess with
    | some alternateAccess =>
      alternateArrayAccess getValue alternateAccess nameIdStr elementCount elementTypeSpec
    | none => do return appendValueToResultList (.ofOption (← getValue nameIdStr))
  | some (.leaf _ _) => do
    match ← getValue nameIdStr with
    | none => return appendErrorToResultList
    | some value => return appendValueToResultList (.value value)

end Variable

namespace ReadServer

/-- `MmsDevice_getDomain` -/
def getDomain (s : ReadServer) (domainId : List UInt8) : Option Nat :=
  s.domains.findIdx? (·.domainName = domainId)

/-- `MmsDomain_getNamedVariable` -/
def getNamedVariable (s : ReadServer) (domain : Nat) (nameId : List UInt8) :
    Exec (Option MmsVariableSpecification) :=
  match s.domains[domain]? with
  | some d => d.cache.domain.getNamedVariable nameId
  | none => .error .nullPointer

/-- `mmsServer_getValue`, while the variable with this number is read. -/
def getValue (s : ReadServer) (i domain : Nat) (itemId : List UInt8) : Exec (Option MmsValue) :=
  match s.domains[domain]? with
  | some d => do
    match ← d.cache.lookupValue itemId with
    | some value => return some value
    | none => return s.readHandler i domain itemId
  | none => .error .nullPointer

/-- `mmsMsg_copyAsn1IdentifierToStringBuffer(identifier, buffer, 65)` -/
def nameOf (identifier : List UInt8) : List UInt8 := copyAsn1IdentifierToStringBuffer identifier 65

/-- One turn of the loop of `handleReadListOfVariablesRequest`. -/
def readVariable (s : ReadServer) (i : Nat) (access : VariableAccess) : Exec (List ReadValue) :=
  match access.name with
  | none => .ok appendErrorToResultList
  | some (domainId, itemId) =>
    match s.getDomain (nameOf domainId) with
    | none => .ok appendErrorToResultList
    | some domain => do
      match ← s.getNamedVariable domain (nameOf itemId) with
      | none => return appendErrorToResultList
      | some namedVariable =>
        addNamedVariableToResultList (s.getValue i domain) (nameOf itemId) access.alternateAccess
          (some namedVariable)

/-- One turn of the loop of `createNamedVariableListResponse`. -/
def readMember (s : ReadServer) (i : Nat) (entry : NamedVariableListEntry) :
    Exec (List ReadValue) :=
  match entry.domain with
  | none => .error .nullPointer
  | some domain => do
    addNamedVariableToResultList (s.getValue i domain) entry.variableName none
      (← s.getNamedVariable domain entry.variableName)

/-- The loop of `handleReadListOfVariablesRequest`, with nothing where the request is rejected. -/
def readVariables (s : ReadServer) :
    Nat → List ReadSpecification → Exec (Option (List ReadValue))
  | _, [] => .ok (some [])
  | i, .name access :: items => do
    let values ← s.readVariable i access
    return (← readVariables s (i + 1) items).map (values ++ ·)
  | _, .other :: _ => .ok none

/-- The loop of `createNamedVariableListResponse`, and that over the variables where all of them
have names. -/
def readAll {α : Type} (read : Nat → α → Exec (List ReadValue)) : Nat → List α →
    Exec (List ReadValue)
  | _, [] => .ok []
  | i, a :: as => do return (← read i a) ++ (← readAll read (i + 1) as)

/-- `encodeVariableAccessSpecification` with `encode` false. -/
def encodedAccessSpecSize (accessSpec : VarAccessSpec) : Nat :=
  let sized (n : Nat) : Nat := n + BerEncoder.determineLengthSize n + 1
  sized (sized (sized (sized accessSpec.itemId.length +
    (accessSpec.domainId.map fun domainId => sized domainId.length).getD 0)))

end ReadServer

def ReadResult.encodedSize : ReadResult → Nat
  | .failure e => MmsServer.encodeAccessResultSize (.dataAccessError e)
  | .success value => MmsServer.encodeAccessResultSize value

/-- `mmsPduSize` of `encodeReadResponse` -/
def ReadResponse.mmsPduSize (invokeId : UInt32) (accessSpec : Option VarAccessSpec)
    (results : List ReadResult) : Nat :=
  let sized (n : Nat) : Nat := 1 + BerEncoder.determineLengthSize n + n
  let accessResultSize := (results.map ReadResult.encodedSize).sum
  let varAccessSpecSize := (accessSpec.map ReadServer.encodedAccessSpecSize).getD 0
  let invokeIdSize := BerEncoder.uInt32determineEncodedSize invokeId + 2
  sized (sized (sized accessResultSize + varAccessSpecSize) + invokeIdSize)

namespace ReadServer

def encodeReadResponse (s : ReadServer) (invokeId : UInt32) (values : List ReadValue)
    (accessSpec : Option VarAccessSpec) : Exec ReadResponse := do
  let results ← values.mapM ReadValue.result
  if s.maxPduSize < ReadResponse.mmsPduSize invokeId accessSpec results then
    return .confirmedError invokeId .serviceOther
  return .readResponse invokeId accessSpec results

def handleReadListOfVariablesRequest (s : ReadServer) (invokeId : UInt32)
    (items : List ReadSpecification) : Exec ReadResponse := do
  match ← s.readVariables 0 items with
  | none => return .reject invokeId
  | some values => s.encodeReadResponse invokeId values none

def createNamedVariableListResponse (s : ReadServer) (invokeId : UInt32) (withSpec : Bool)
    (namedList : Option NamedVariableList) (accessSpec : VarAccessSpec) : Exec ReadResponse :=
  match namedList with
  | none => .ok (.confirmedError invokeId .objectNonExistent)
  | some namedList => do
    let values ← readAll s.readMember 0 namedList.listOfVariables
    s.encodeReadResponse invokeId values (if withSpec then some accessSpec else none)

/-- `MmsDomain_getNamedVariableList`, in the domain with this name. -/
def getNamedVariableList (s : ReadServer) (domainId listName : List UInt8) :
    Option NamedVariableList := do
  let domain ← s.domains.find? (·.domainName = domainId)
  domain.namedVariableLists.find? (·.name = listName)

/-- `MmsServerConnection_getNamedVariableList` -/
def getConnectionVariableList (s : ReadServer) (listName : List UInt8) :
    Option NamedVariableList :=
  s.namedVariableLists.find? (·.name = listName)

def handleReadNamedVariableListRequest (s : ReadServer) (invokeId : UInt32) (withSpec : Bool) :
    ListName → Exec ReadResponse
  | .domainSpecific domainId itemId =>
    s.createNamedVariableListResponse invokeId withSpec
      (s.getNamedVariableList (nameOf domainId) (nameOf itemId))
      ⟨some (nameOf domainId), nameOf itemId⟩
  | .aaSpecific listName =>
    s.createNamedVariableListResponse invokeId withSpec
      (s.getConnectionVariableList (nameOf listName)) ⟨none, nameOf listName⟩
  | .vmdSpecific => .ok (.confirmedError invokeId .objectAccessUnsupported)

/-- `mmsServer_handleReadRequest` -/
def handleReadRequest (s : ReadServer) (invokeId : UInt32) (request : ReadRequest) :
    Exec ReadResponse :=
  match request.variableAccessSpecification with
  | .listOfVariable items => s.handleReadListOfVariablesRequest invokeId items
  | .variableListName listName =>
    s.handleReadNamedVariableListRequest invokeId request.specificationWithResult listName

end ReadServer

end Iec61850
