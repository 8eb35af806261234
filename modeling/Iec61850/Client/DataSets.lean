import Iec61850.Client.ObjectReferences
import Iec61850.Server.VariableListServices

/-! A client creates a data set and reads its directory (`ied_connection.c`,
`mms_client_named_variable_list.c`). -/

namespace Iec61850

open Machine MmsMapping

/-! ## The messages with the names of the members -/

def elementSize (n : Nat) : Nat := 1 + BerEncoder.determineLengthSize n + n

/-- The octets of a domain specific name by the lengths of its parts. -/
def domainSpecificSize (domainLength itemLength : Nat) : Nat :=
  elementSize (elementSize domainLength + elementSize itemLength)

def ObjectName.encodedSize : ObjectName → Nat
  | .vmdSpecific identifier => elementSize identifier.length
  | .domainSpecific domainId itemId => domainSpecificSize domainId.length itemId.length
  | .aaSpecific identifier => elementSize identifier.length

/-- The octets of a request or a response, by those of what stands in front of the members and of
the names of the members. -/
def confirmedSizeOf (invokeId : UInt32) (front : Nat) (names : List Nat) : Nat :=
  elementSize (elementSize (BerEncoder.uInt32determineEncodedSize invokeId) +
    elementSize (front + elementSize ((names.map fun n => elementSize (elementSize n)).sum)))

def defineSize (invokeId : UInt32) (name : ObjectName) (members : List ObjectName) : Nat :=
  confirmedSizeOf invokeId name.encodedSize (members.map ObjectName.encodedSize)

def attributesSize (invokeId : UInt32) (attributes : List (List UInt8 × List UInt8)) : Nat :=
  confirmedSizeOf invokeId 3 (attributes.map fun a => domainSpecificSize a.1.length a.2.length)

/-- What asn1c and the connection make of the two messages: nothing comes where the connection
breaks. The second one is not decoded in parts. -/
structure MmsCodec where
  defineCapacity : Nat
  attributesCapacity : Nat
  define : UInt32 → ObjectName → List ObjectName → Option (Received DefineRequest)
  attributes : UInt32 → Bool → List (List UInt8 × List UInt8) →
    Option (Option (Bool × List (List UInt8 × List UInt8)))

/-- A message that the buffers can hold comes as it was. Of a longer one the end is cut off. -/
structure MmsCodec.Carries (codec : MmsCodec) : Prop where
  define_whole : ∀ invokeId name members,
    defineSize invokeId name members ≤ codec.defineCapacity →
    codec.define invokeId name members =
      some (.complete ⟨name, members.map fun member => ⟨.name member, none⟩⟩)
  define_cut : ∀ invokeId domainId itemId members received, domainId.length ≤ 64 →
    itemId.length ≤ 128 →
    codec.defineCapacity < defineSize invokeId (.domainSpecific domainId itemId) members →
    codec.define invokeId (.domainSpecific domainId itemId) members = some received →
    ∃ found, received = .incomplete found ∧ ∀ request ∈ found,
      request.variableListName = .domainSpecific domainId itemId ∧
      request.listOfVariable.length < members.length
  attributes_whole : ∀ invokeId mmsDeletable attributes,
    attributesSize invokeId attributes ≤ codec.attributesCapacity →
    codec.attributes invokeId mmsDeletable attributes = some (some (mmsDeletable, attributes))
  attributes_cut : ∀ invokeId mmsDeletable attributes received,
    codec.attributesCapacity < attributesSize invokeId attributes →
    codec.attributes invokeId mmsDeletable attributes = some received → received = none

/-! ## The client -/

/-- The name of the list: in a domain, or that of the association. The buffers for the domain and
the item have 65 and 129 octets. -/
def dataSetName (dataSetReference : List UInt8) : Exec ObjectName :=
  if dataSetReference.head? = some 64 then .ok (.aaSpecific dataSetReference)
  else
    match strchr dataSetReference 47 with
    | none => .error .nullPointer
    | some domainIdEnd =>
      let domainId := dataSetReference.takeWhile (· ≠ 47)
      if 64 < domainId.length ∨ 128 < domainIdEnd.tail.length then .error .outOfBounds
      else .ok (.domainSpecific domainId (StringUtils.replace 46 36 domainIdEnd.tail))

/-- A turn of the loop of `mmsClient_createDefineNamedVariableListRequest`. There is no alternate
access, and a variable with the index 0 has no domain. -/
def memberName : Option MmsVariableAccessSpecification → Exec ObjectName
  | none => .error .nullPointer
  | some variableSpec =>
    match variableSpec.itemId with
    | none => .error .nullPointer
    | some itemId =>
      if variableSpec.arrayIndex = 0 then .ok (.vmdSpecific itemId)
      else .ok (.domainSpecific variableSpec.domainId itemId)

def ListAnswer.isDefine : ListAnswer → Bool
  | .define => true
  | _ => false

/-- A turn of the loops of `parseNamedVariableAttributes` and of `getDataSetDirectory`. -/
def memberReference (attributes : List UInt8 × List UInt8) : Exec (List UInt8) :=
  varAccessSpecToObjectReference
    ⟨createStringFromBuffer attributes.1, some (createStringFromBuffer attributes.2), -1, none⟩

namespace ListServer

variable {κ : Type}

/-- Whether there is no error, and the lists that the server has then. -/
def createDataSet [DecidableEq κ] (codec : MmsCodec) (uninitialised : Int64) (s : ListServer κ)
    (connection : κ) (invokeId : UInt32) (dataSetReference : List UInt8)
    (dataSetElements : List (List UInt8)) : Exec (Bool × ListServer κ) := do
  let name ← dataSetName dataSetReference
  let dataSetEntries ← dataSetElements.mapM objectReferenceToVariableAccessSpec
  let members ← dataSetEntries.mapM memberName
  match codec.define invokeId name members with
  | none => return (false, s)
  | some received =>
    let (answer, t) ← handle uninitialised s ⟨connection, .define received⟩
    return (answer.isDefine, t)

/-- The references of the members and whether the data set is deletable, with none where there is
an error. A response that is not decoded gives no list, which is not made sure of. -/
def getDataSetDirectory (codec : MmsCodec) (s : ListServer κ) (invokeId : UInt32)
    (dataSetReference : List UInt8) : Exec (Option (List (List UInt8) × Bool)) := do
  let name ← dataSetName dataSetReference
  match ← s.handleGetAttributes name with
  | .getAttributes mmsDeletable listOfVariable =>
    match codec.attributes invokeId mmsDeletable listOfVariable with
    | none => return none
    | some none => .error .nullPointer
    | some (some (deletable, attributes)) =>
      return some (← attributes.mapM memberReference, deletable)
  | _ => return none

end ListServer

end Iec61850
