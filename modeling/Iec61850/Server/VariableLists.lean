import Iec61850.Device.TypeDescription
import Iec61850.Lib.NamedList
import Iec61850.Lib.Transition
import Iec61850.Server.ReadService
import Mathlib.Data.Finset.Card

/-! Lists of variables are defined, described, read and deleted
(`mms_named_variable_list_service.c`, `mms_read_service.c`). -/

namespace Iec61850

open Machine

/-- What a request calls a list or a variable. -/
inductive ObjectName
  | vmdSpecific (identifier : List UInt8)
  | domainSpecific (domainId itemId : List UInt8)
  | aaSpecific (identifier : List UInt8)

/-- What stands where a domain specific name has its domain and its item. -/
def ObjectName.domainAndItem : ObjectName → List UInt8 × List UInt8
  | .vmdSpecific identifier => (identifier, [])
  | .domainSpecific domainId itemId => (domainId, itemId)
  | .aaSpecific identifier => (identifier, [])

inductive VariableSpecification
  | name (name : ObjectName)
  | other

/-- A member of a list that is to be defined, with the members of its alternate access. -/
structure ListMember where
  variableSpecification : VariableSpecification
  alternateAccess : Option (List AlternateAccess)

structure DefineRequest where
  variableListName : ObjectName
  listOfVariable : List ListMember

/-- The scope is the octets of an integer, and does not have to be there; nor do the names. -/
structure DeleteRequest where
  scopeOfDelete : Option (List UInt8)
  listOfVariableListName : Option (List ObjectName)

/-- What the decoder leaves: where it fails, as much as it has found. -/
inductive Received (α : Type)
  | complete (request : α)
  | incomplete (found : Option α)

inductive ListRequest
  | define (request : Received DefineRequest)
  | delete (request : Received DeleteRequest)
  | getAttributes (request : Received ObjectName)
  | read (request : Received ObjectName)

/-- A request that comes from one of the clients. -/
structure ListEvent (κ : Type) where
  connection : κ
  request : ListRequest

inductive ListError
  | objectNonExistent | objectAccessUnsupported | objectExists
  deriving DecidableEq

/-- `read` has the variables that are looked for, with what is found. -/
inductive ListAnswer
  | define
  | delete (numberMatched numberDeleted : Nat)
  | getAttributes (mmsDeletable : Bool) (listOfVariable : List (List UInt8 × List UInt8))
  | read (found : List (Nat × List UInt8 × Option MmsVariableSpecification))
  | error (error : ListError)
  | reject

structure MmsNamedVariableList where
  name : List UInt8
  deletable : Bool
  listOfVariables : List NamedVariableListEntry

structure ListDomain where
  domainName : List UInt8
  namedVariables : MmsDomain

/-- There are lists in every domain and for every client. -/
inductive ListScope (κ : Type)
  | domain (index : Nat)
  | association (connection : κ)
  deriving DecidableEq

structure ListServer (κ : Type) where
  domains : List ListDomain
  lists : ListScope κ → List MmsNamedVariableList

namespace AccessSelection

/-- What is found where an index is. The octets of a name are taken for an integer, and nothing is
found where there are none. -/
def index2long : AccessSelection → Option Int64
  | .component name => TypeDescription.iNTEGER2long name
  | .index value => some (.ofNat value.toNat)
  | .indexRange lowIndex _ => some (.ofNat lowIndex.toNat)
  | .allElements => none

end AccessSelection

/-- The index and the component that an alternate access selects, with none where it is not
supported. Nothing is made sure of that stands behind the first member. -/
def alternatePart : Option (List AlternateAccess) → Exec (Option (Int × Option (List UInt8)))
  | none => .ok (some (-1, none))
  | some [.selectAlternateAccess selection alternateAccess] => do
    let componentName ← alternateAccess.componentOctets
    let arrayIndex := (selection.index2long.getD (-1)).toInt
    return some (i32 arrayIndex, some (createStringFromBuffer componentName))
  | some [.selectAccess _] => .error .nullPointer
  | some _ => .ok none

namespace ListServer

variable {κ : Type}

/-- `MmsDevice_getDomain` -/
def getDomain (s : ListServer κ) (domainId : List UInt8) : Option Nat :=
  s.domains.findIdx? (·.domainName = domainId)

/-- `MmsDomain_getNamedVariable` -/
def getNamedVariable (s : ListServer κ) (domain : Nat) (nameId : List UInt8) :
    Exec (Option MmsVariableSpecification) :=
  match s.domains[domain]? with
  | some d => d.namedVariables.getNamedVariable nameId
  | none => .error .nullPointer

/-- `MmsDomain_getNamedVariableList` and `MmsServerConnection_getNamedVariableList` -/
def getNamedVariableList (s : ListServer κ) (scope : ListScope κ) (listName : List UInt8) :
    Option MmsNamedVariableList :=
  NamedList.lookup MmsNamedVariableList.name (s.lists scope) listName

/-! ## Define -/

/-- The turn of `createNamedVariableList`, with none where the loop ends. -/
def createEntry (s : ListServer κ) (member : ListMember) : Exec (Option NamedVariableListEntry) := do
  match ← alternatePart member.alternateAccess with
  | none => return none
  | some (arrayIndex, componentName) =>
    match member.variableSpecification with
    | .other => return none
    | .name objectName =>
      let (domainId, itemId) := objectName.domainAndItem
      return some ⟨s.getDomain (createStringFromBuffer domainId), createStringFromBuffer itemId,
        arrayIndex, componentName⟩

def createNamedVariableList (s : ListServer κ) :
    List ListMember → Exec (Option (List NamedVariableListEntry))
  | [] => .ok (some [])
  | member :: members => do
    match ← s.createEntry member with
    | none => return none
    | some entry => return (← s.createNamedVariableList members).map (entry :: ·)

section Changes

variable [DecidableEq κ]

def addNamedVariableList (s : ListServer κ) (scope : ListScope κ) (l : MmsNamedVariableList) :
    ListServer κ :=
  ⟨s.domains, Function.update s.lists scope (s.lists scope ++ [l])⟩

/-- `mmsServer_deleteVariableList` -/
def deleteVariableList (s : ListServer κ) (scope : ListScope κ) (listName : List UInt8) :
    ListServer κ :=
  ⟨s.domains, Function.update s.lists scope
    (NamedList.remove MmsNamedVariableList.name (s.lists scope) listName)⟩

/-- What is done in the domain and for the client alike. -/
def defineIn (s : ListServer κ) (scope : ListScope κ) (listName : List UInt8)
    (members : List ListMember) : Exec (ListAnswer × ListServer κ) :=
  match s.getNamedVariableList scope listName with
  | some _ => .ok (.error .objectExists, s)
  | none => do
    match ← s.createNamedVariableList members with
    | none => return (.error .objectAccessUnsupported, s)
    | some entries => return (.define, s.addNamedVariableList scope ⟨listName, true, entries⟩)

def handleDefine (s : ListServer κ) (connection : κ) (request : DefineRequest) :
    Exec (ListAnswer × ListServer κ) :=
  match request.variableListName with
  | .domainSpecific domainId itemId =>
    match s.getDomain (createStringFromBuffer domainId) with
    | none => .ok (.error .objectNonExistent, s)
    | some domain =>
      s.defineIn (.domain domain) (createStringFromBuffer itemId) request.listOfVariable
  | .aaSpecific identifier =>
    s.defineIn (.association connection) (createStringFromBuffer identifier) request.listOfVariable
  | .vmdSpecific _ => .ok (.error .objectAccessUnsupported, s)

/-! ## Delete -/

/-- How many lists have been found and how many of them are gone. -/
structure DeleteCount where
  numberMatched : Nat
  numberDeleted : Nat

/-- One turn of the loop over the names. A domain that there is not is not made sure of. -/
def deleteName (connection : κ) (name : ObjectName) (s : ListServer κ) (count : DeleteCount) :
    Exec (ListServer κ × DeleteCount) :=
  match name with
  | .domainSpecific domainId itemId =>
    match s.getDomain (ReadServer.nameOf domainId) with
    | none => .error .nullPointer
    | some domain =>
      match s.getNamedVariableList (.domain domain) (ReadServer.nameOf itemId) with
      | none => .ok (s, count)
      | some l =>
        if l.deletable then
          .ok (s.deleteVariableList (.domain domain) (ReadServer.nameOf itemId),
            ⟨count.numberMatched + 1, count.numberDeleted + 1⟩)
        else .ok (s, { count with numberMatched := count.numberMatched + 1 })
  | .aaSpecific identifier =>
    match s.getNamedVariableList (.association connection) (createStringFromBuffer identifier) with
    | none => .ok (s, count)
    | some _ =>
      .ok (s.deleteVariableList (.association connection) (createStringFromBuffer identifier),
        ⟨count.numberMatched + 1, count.numberDeleted + 1⟩)
  | .vmdSpecific _ => .ok (s, count)

def deleteNames (connection : κ) :
    List ObjectName → ListServer κ → DeleteCount → Exec (ListServer κ × DeleteCount)
  | [], s, count => .ok (s, count)
  | name :: names, s, count => do
    let (s, count) ← deleteName connection name s count
    deleteNames connection names s count

/-- `uninitialised` is what is found where the scope is not sent. -/
def handleDelete (uninitialised : Int64) (s : ListServer κ) (connection : κ)
    (request : DeleteRequest) : Exec (ListAnswer × ListServer κ) :=
  if (request.scopeOfDelete.bind TypeDescription.iNTEGER2long).getD uninitialised = 0 then
    match request.listOfVariableListName with
    | none => .error .nullPointer
    | some names => do
      let (t, count) ← deleteNames connection names s ⟨0, 0⟩
      return (.delete count.numberMatched count.numberDeleted, t)
  else .ok (.error .objectAccessUnsupported, s)

end Changes

/-! ## Get attributes, and read -/

def entryAttributes (s : ListServer κ) (entry : NamedVariableListEntry) :
    Exec (List UInt8 × List UInt8) :=
  match entry.domain.bind fun domain => s.domains[domain]? with
  | none => .error .nullPointer
  | some d => .ok (d.domainName, entry.variableName)

def handleGetAttributes (s : ListServer κ) : ObjectName → Exec ListAnswer
  | .domainSpecific domainId itemId =>
    match s.getDomain (createStringFromBuffer domainId) with
    | none => .ok (.error .objectNonExistent)
    | some domain =>
      match s.getNamedVariableList (.domain domain) (createStringFromBuffer itemId) with
      | none => .ok (.error .objectNonExistent)
      | some l => do return .getAttributes l.deletable (← l.listOfVariables.mapM s.entryAttributes)
  | _ => .ok (.error .objectAccessUnsupported)

/-- One turn of the loop of `createNamedVariableListResponse`: the variable that is read. -/
def readEntry (s : ListServer κ) (entry : NamedVariableListEntry) :
    Exec (Nat × List UInt8 × Option MmsVariableSpecification) :=
  match entry.domain with
  | none => .error .nullPointer
  | some domain => do
    return (domain, entry.variableName, ← s.getNamedVariable domain entry.variableName)

def readList (s : ListServer κ) (namedList : Option MmsNamedVariableList) : Exec ListAnswer :=
  match namedList with
  | none => .ok (.error .objectNonExistent)
  | some l => do return .read (← l.listOfVariables.mapM s.readEntry)

/-- `handleReadNamedVariableListRequest` -/
def handleRead (s : ListServer κ) (connection : κ) : ObjectName → Exec ListAnswer
  | .domainSpecific domainId itemId =>
    match s.getDomain (ReadServer.nameOf domainId) with
    | none => .ok (.error .objectNonExistent)
    | some domain =>
      s.readList (s.getNamedVariableList (.domain domain) (ReadServer.nameOf itemId))
  | .aaSpecific identifier =>
    s.readList (s.getNamedVariableList (.association connection) (ReadServer.nameOf identifier))
  | .vmdSpecific _ => .ok (.error .objectAccessUnsupported)

/-! ## Requests -/

/-- The answer of a service that goes on behind its reject message: it is written over the
message, unless it is an error, which comes behind it. -/
def behindReject : ListAnswer → ListAnswer
  | .error _ => .reject
  | answer => answer

variable [DecidableEq κ]

/-- The define and the delete service go on with a request that has not been decoded. -/
def handle (uninitialised : Int64) (s : ListServer κ) (e : ListEvent κ) :
    Exec (ListAnswer × ListServer κ) :=
  match e.request with
  | .define (.complete request) => s.handleDefine e.connection request
  | .define (.incomplete (some found)) => do
    let (answer, t) ← s.handleDefine e.connection found
    return (behindReject answer, t)
  | .delete (.complete request) => handleDelete uninitialised s e.connection request
  | .delete (.incomplete (some found)) => do
    let (answer, t) ← handleDelete uninitialised s e.connection found
    return (behindReject answer, t)
  | .define (.incomplete none) => .error .nullPointer
  | .delete (.incomplete none) => .error .nullPointer
  | .getAttributes (.complete name) => do return (← s.handleGetAttributes name, s)
  | .getAttributes (.incomplete _) => .ok (.reject, s)
  | .read (.complete name) => do return (← s.handleRead e.connection name, s)
  | .read (.incomplete _) => .ok (.reject, s)

def Step (uninitialised : Int64) (s : ListServer κ) (e : ListEvent κ) (t : ListServer κ) : Prop :=
  ∃ answer, handle uninitialised s e = .ok (answer, t)

end ListServer

end Iec61850
