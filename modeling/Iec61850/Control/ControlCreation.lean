import Iec61850.Control.ControlAccess
import Iec61850.Lib.Concat
import Iec61850.Model.LogicalNodes

/-! The control objects that are created with a server (`createControlObjects` in `ied_server.c`):
one for each type below `CO` that has an `Oper` element. -/

namespace Iec61850.Control

open Machine MmsMapping MmsVariableSpecification

/-- The names that the components of a control object can have. -/
def elementNames : List (List UInt8) := ["Oper", "SBO", "SBOw", "Cancel"].map ascii

/-- Where a control object is: the number of its domain, and its two names. -/
structure ControlPlace where
  domain : Nat
  lnName : List UInt8
  name : List UInt8
  deriving DecidableEq

/-- A control object as it is created. Of its elements it has the positions in the value. -/
structure CreatedControl where
  place : ControlPlace
  typeSpec : Specification
  operIndex : Nat
  cancelIndex : Option Nat
  sBOwIndex : Option Nat

def ControlEntry.place (entry : ControlEntry) : ControlPlace :=
  ⟨entry.domain, entry.lnName, entry.name⟩

/-- The elements of a data object that have been found, with their positions. -/
structure ElementIndexes where
  oper : Option Nat
  cancel : Option Nat
  sBOw : Option Nat

/-- The loop over the elements of a data object. -/
def findElements : List Specification → Nat → ElementIndexes → Exec ElementIndexes
  | [], _, found => .ok found
  | coElementSpec :: rest, j, found =>
    match coElementSpec.name with
    | none => .error .nullPointer
    | some name =>
      if name = ascii "Oper" then findElements rest (j + 1) { found with oper := some j }
      else if name = ascii "Cancel" then findElements rest (j + 1) { found with cancel := some j }
      else if name = ascii "SBOw" then findElements rest (j + 1) { found with sBOw := some j }
      else if name = ascii "SBO" then findElements rest (j + 1) found
      else .error .assertion

/-- `strcat` to a buffer with this size. -/
def strcat (size : Nat) (dest src : List UInt8) : Exec (List UInt8) :=
  if dest.length + src.length < size then .ok (dest ++ src) else .error .outOfBounds

/-- The name so far, and a separator. -/
def startName : Option (List UInt8) → Exec (List UInt8)
  | none => .ok []
  | some namePrefix => do strcat 65 (← strcat 65 [] namePrefix) [separator]

section Creation

variable (domain : Nat) (lnName : List UInt8)

mutual

/-- What is done for an element of `typeSpec`. -/
def createControlObject (namePrefix : Option (List UInt8)) :
    Specification → Exec (List CreatedControl)
  | .null => .error .nullPointer
  | .structured name elementCount elements => do
    let objectName ← startName namePrefix
    let found ← findElements elements 0 ⟨none, none, none⟩
    match name with
    | none => .error .nullPointer
    | some name =>
      let objectName ← strcat 65 objectName name
      match found.oper with
      | some operIndex =>
        return [⟨⟨domain, lnName, objectName⟩, .structured (some name) elementCount elements,
          operIndex, found.cancel, found.sBOw⟩]
      | none => createElements (some objectName) elements
  | _ => do
    let _ ← startName namePrefix
    return []

/-- The loop over the elements of `typeSpec`. -/
def createElements (namePrefix : Option (List UInt8)) :
    List Specification → Exec (List CreatedControl)
  | [] => .ok []
  | coSpec :: rest => do
    return (← createControlObject namePrefix coSpec) ++ (← createElements namePrefix rest)

end

end Creation

/-- A data object whose `CO` data form control objects, of itself and of the data objects in it. -/
inductive FormsControls : ModelNode → Prop
  | dataObject {name : List UInt8} {elementCount : Int} {children : List ModelNode} :
    (∀ da, .dataAttribute da ∈ children → da.fc = .co → da.name ∈ elementNames) →
    (∀ da, .dataAttribute da ∈ children → da.fc = .co →
      ∃ oper, .dataAttribute oper ∈ children ∧ oper.fc = .co ∧ oper.name = ascii "Oper") →
    (∀ name elementCount nodes, .dataObject name elementCount nodes ∈ children →
      ModelNode.Contains .co (.dataObject name elementCount nodes) → name ∉ elementNames) →
    (∀ name elementCount nodes, .dataObject name elementCount nodes ∈ children →
      ModelNode.Contains .co (.dataObject name elementCount nodes) →
      FormsControls (.dataObject name elementCount nodes)) →
    FormsControls (.dataObject name elementCount children)

/-- No data object with `CO` data is inside of another one. -/
def Unnested (node : ModelNode) : Prop :=
  ∀ c ∈ node.children, c.Contains .co → ∃ da, c = .dataAttribute da

section FindElements

variable {elements : List Specification} {j : Nat} {found found' : ElementIndexes}

end FindElements

section Objects

variable {domain : Nat} {lnName : List UInt8} {o : DataObject} {v : Specification}

end Objects

section LogicalNodes

variable {model : IedModel} {parent : Nat × Nat} {domain : Nat} {ln : LogicalNode}
  {v : Specification}

end LogicalNodes

end Iec61850.Control
