import Iec61850.Lib.SiblingLists
import Iec61850.Model.IedModel

/-! The data model that is made while the program runs (`dynamic_model.c`): objects that are made one
after the other and refer to each other, and what is let go with the model. -/

namespace Iec61850.ConfigFile

open Machine

/-- The lists of objects: those of a model, and those of another object. -/
inductive Slot
  | devices (model : Nat)
  | dataSets (model : Nat)
  | rcbs (model : Nat)
  | gseCBs (model : Nat)
  | children (object : Nat)
  deriving DecidableEq

inductive ObjectType
  | iedModel | logicalDevice | logicalNode | dataObject | dataAttribute | dataSet | dataSetEntry
  | reportControlBlock | gseControlBlock | phyComAddress
  deriving DecidableEq

/-- A floating point number is the text that it is read from. -/
inductive ConfiguredValue
  | mmsString (text : List UInt8)
  | visibleString (text : List UInt8)
  | integer (value : Int)
  | unsigned (value : Int)
  | float (text : List UInt8)
  | double (text : List UInt8)
  | boolean (value : Bool)

/-- What is stored of an object besides the references that make the lists. -/
inductive Object
  | iedModel (name : List UInt8)
  | logicalDevice (name : List UInt8) (parent : Nat)
  | logicalNode (name : List UInt8) (parent : Nat)
  | dataObject (name : List UInt8) (parent : Nat) (elementCount : Int)
  | dataAttribute (name : List UInt8) (parent : Nat) (type fc : Int) (triggerOptions : UInt8)
    (elementCount sAddr : Int) (mmsValue : Option ConfiguredValue)
  | dataSet (name logicalDeviceName : List UInt8)
  | dataSetEntry (variableName logicalDeviceName : List UInt8) (index : Int)
  | reportControlBlock (name : List UInt8) (parent : Nat) (rptId : Option (List UInt8))
    (buffered : Bool) (dataSetName : Option (List UInt8)) (confRef : Int) (trgOps options : UInt8)
    (bufferTime intPeriod : Int)
  | gseControlBlock (name : List UInt8) (parent : Option Nat) (appId dataSetName : List UInt8)
    (confRef : Int) (fixedOffs : Bool)
  | phyComAddress (vlanPriority : UInt8) (vlanId appId : UInt16) (dstAddress : List UInt8)

namespace Object

def type : Object → ObjectType
  | iedModel .. => .iedModel
  | logicalDevice .. => .logicalDevice
  | logicalNode .. => .logicalNode
  | dataObject .. => .dataObject
  | dataAttribute .. => .dataAttribute
  | dataSet .. => .dataSet
  | dataSetEntry .. => .dataSetEntry
  | reportControlBlock .. => .reportControlBlock
  | gseControlBlock .. => .gseControlBlock
  | phyComAddress .. => .phyComAddress

def name : Object → List UInt8
  | iedModel name | logicalDevice name _ | logicalNode name _ | dataObject name _ _
  | dataAttribute name _ _ _ _ _ _ _ | dataSet name _ | dataSetEntry name _ _
  | reportControlBlock name _ _ _ _ _ _ _ _ _ | gseControlBlock name _ _ _ _ _ => name
  | phyComAddress .. => []

/-- The object that an object is part of, where it has a reference to it. -/
def parent : Object → Option Nat
  | logicalDevice _ parent | logicalNode _ parent | dataObject _ parent _
  | dataAttribute _ parent _ _ _ _ _ _ | reportControlBlock _ parent _ _ _ _ _ _ _ _ =>
    some parent
  | gseControlBlock _ parent _ _ _ _ => parent
  | _ => none

end Object

/-- Objects are numbered as they are made. -/
structure Heap where
  objects : List Object
  links : SiblingLists Slot

namespace Heap

def count (h : Heap) : Nat := h.objects.length

def empty : Heap := ⟨[], ⟨fun _ => none, fun _ => none⟩⟩

def typeOf (h : Heap) (n : Nat) : Option ObjectType := h.objects[n]?.map (·.type)

def object (h : Heap) (n : Nat) : Exec Object :=
  match h.objects[n]? with
  | some o => .ok o
  | none => .error .notThere

/-- The object that a reference leads to. -/
def deref : Option Nat → Exec Nat
  | some n => .ok n
  | none => .error .nullPointer

def make (h : Heap) (o : Object) : Heap := ⟨h.objects ++ [o], h.links.make h.count⟩

/-- The loops that look for the end of a list are the same for all of them. -/
def append (h : Heap) (s : Slot) (n : Nat) : Exec Heap := do
  let links ← h.links.append h.count s n
  return { h with links }

/-- An object is made and comes to the end of a list. -/
def create (h : Heap) (o : Object) (s : Slot) : Exec (Heap × Nat) := do
  let h' ← (h.make o).append s h.count
  return (h', h.count)

/-- The object that the parent of an object is part of. -/
def modelOf (h : Heap) (ln : Nat) : Exec Nat := do
  let ld ← deref (← h.object ln).parent
  deref (← h.object ld).parent

end Heap

open Heap

def IedModel_create (h : Heap) (name : List UInt8) : Heap × Nat := (h.make (.iedModel name), h.count)

def LogicalDevice_create (h : Heap) (name : List UInt8) (parent : Option Nat) :
    Exec (Heap × Nat) := do
  let model ← deref parent
  h.create (.logicalDevice name model) (.devices model)

def LogicalNode_create (h : Heap) (name : List UInt8) (parent : Option Nat) :
    Exec (Heap × Nat) := do
  let ld ← deref parent
  h.create (.logicalNode name ld) (.children ld)

/-- A new object comes to the children of an object of certain types. -/
def addToParent (h : Heap) (o : Object) (parent : Nat) (types : List ObjectType) :
    Exec (Heap × Nat) := do
  let p ← h.object parent
  if p.type ∈ types then h.create o (.children parent) else return (h.make o, h.count)

def DataObject_create (h : Heap) (name : List UInt8) (parent : Option Nat) (arrayElements : Int) :
    Exec (Heap × Nat) := do
  let p ← deref parent
  addToParent h (.dataObject name p arrayElements) p [.logicalNode, .dataObject]

def DataAttribute_create (h : Heap) (name : List UInt8) (parent : Option Nat) (type fc : Int)
    (triggerOptions : UInt8) (arrayElements sAddr : Int) (mmsValue : Option ConfiguredValue) :
    Exec (Heap × Nat) := do
  let p ← deref parent
  addToParent h
    (.dataAttribute name p type fc triggerOptions arrayElements sAddr mmsValue) p
    [.dataObject, .dataAttribute]

def DataSet_create (h : Heap) (name : List UInt8) (parent : Option Nat) : Exec (Heap × Nat) := do
  let ln ← deref parent
  let lnObject ← h.object ln
  let ld ← deref lnObject.parent
  let ldObject ← h.object ld
  let model ← deref ldObject.parent
  h.create (.dataSet (lnObject.name ++ ascii "$" ++ name) ldObject.name) (.dataSets model)

def DataSetEntry_create (h : Heap) (dataSet : Option Nat) (variable' : List UInt8) (index : Int) :
    Exec (Heap × Nat) := do
  let ds ← deref dataSet
  match ← h.object ds with
  | .dataSet _ logicalDeviceName =>
    h.create (.dataSetEntry variable' logicalDeviceName index) (.children ds)
  | _ => .error .notThere

def ReportControlBlock_create (h : Heap) (name : List UInt8) (parent : Option Nat)
    (rptId : Option (List UInt8)) (isBuffered : Bool) (dataSetName : Option (List UInt8))
    (confRef : Int) (trgOps options : UInt8) (bufTm intgPd : Int) : Exec (Heap × Nat) := do
  let ln ← deref parent
  let model ← h.modelOf ln
  h.create (.reportControlBlock name ln rptId isBuffered dataSetName confRef trgOps options bufTm
    intgPd) (.rcbs model)

def GSEControlBlock_create (h : Heap) (name : List UInt8) (parent : Option Nat)
    (appId dataSet : List UInt8) (confRef : Int) (fixedOffs : Bool) : Exec (Heap × Nat) := do
  match parent with
  | none => return (h.make (.gseControlBlock name none appId dataSet confRef fixedOffs), h.count)
  | some ln =>
    let model ← h.modelOf ln
    h.create (.gseControlBlock name (some ln) appId dataSet confRef fixedOffs) (.gseCBs model)

/-- The address replaces the one that the block has. -/
def PhyComAddress_create (h : Heap) (parent : Option Nat) (vlanPriority : UInt8)
    (vlanId appId : UInt16) (dstAddress : List UInt8) : Heap × Nat :=
  let h' := h.make (.phyComAddress vlanPriority vlanId appId dstAddress)
  match parent with
  | none => (h', h.count)
  | some gcb => ({ h' with links := h'.links.set (.children gcb) h.count }, h.count)

/-! ## Letting go of the model -/

namespace Heap

def list (h : Heap) (s : Slot) : Exec (List Nat) :=
  SiblingLists.walk h.links.sibling h.count (h.links.first s)

/-- The objects that are let go, in their order. -/
def ModelNode_destroy (h : Heap) (n : Nat) : Exec (List Nat) :=
  h.links.dismantle .children h.count h.count n

def destroyLogicalNode (h : Heap) (ln : Nat) : Exec (List Nat) := do
  let dataObjects ← h.list (.children ln)
  let freed ← concatM h.ModelNode_destroy dataObjects
  return freed ++ [ln]

def destroyLogicalDevice (h : Heap) (ld : Nat) : Exec (List Nat) := do
  let logicalNodes ← h.list (.children ld)
  let freed ← concatM h.destroyLogicalNode logicalNodes
  return freed ++ [ld]

def destroyDataSet (h : Heap) (dataSet : Nat) : Exec (List Nat) := do
  let entries ← h.list (.children dataSet)
  return entries ++ [dataSet]

/-- There is one address at most, and only this is let go. -/
def destroyGSEControlBlock (h : Heap) (gcb : Nat) : List Nat :=
  (h.links.first (.children gcb)).toList ++ [gcb]

def IedModel_destroy (h : Heap) (model : Option Nat) : Exec (List Nat) := do
  let m ← deref model
  let devices ← h.list (.devices m)
  let freedDevices ← concatM h.destroyLogicalDevice devices
  let dataSets ← h.list (.dataSets m)
  let freedDataSets ← concatM h.destroyDataSet dataSets
  let rcbs ← h.list (.rcbs m)
  let gseCBs ← h.list (.gseCBs m)
  return freedDevices ++ freedDataSets ++ rcbs ++ gseCBs.flatMap h.destroyGSEControlBlock ++ [m]

end Heap

end Iec61850.ConfigFile
