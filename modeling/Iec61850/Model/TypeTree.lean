import Iec61850.Lib.Slots
import Iec61850.Model.IedModel

/-! The MMS types that are made of the data model (`mms_mapping.c`): the components are counted in
one traversal, allocated, and filled in by another. -/

namespace Iec61850

open Machine

/-- The types without components, with the sizes that their specification has. -/
inductive PrimitiveType
  | boolean
  | bitString (size : Int)
  | integer (size : Int)
  | unsigned (size : Int)
  | float (formatWidth exponentWidth : Int)
  | octetString (size : Int)
  | visibleString (size : Int)
  | binaryTime (size : Int)
  | mmsString (size : Int)
  | utcTime

/-- A `MmsVariableSpecification*` while the types are made: it may be null, and the type of the
elements of an array has no name. -/
inductive Specification
  | null
  | array (name : Option (List UInt8)) (elementCount : Int) (elementTypeSpec : Specification)
  | structured (name : Option (List UInt8)) (elementCount : Int) (elements : List Specification)
  | primitive (name : Option (List UInt8)) (type : PrimitiveType)

namespace Specification

def name : Specification → Option (List UInt8)
  | .null => none
  | .array name _ _ => name
  | .structured name _ _ => name
  | .primitive name _ => name

def components : Specification → List Specification
  | .structured _ _ elements => elements
  | _ => []

/-- No slot is unfilled, and a structure has as many elements as it says. -/
inductive Complete : Specification → Prop
  | array {name : Option (List UInt8)} {elementCount : Int} {v : Specification} :
    Complete v → Complete (.array name elementCount v)
  | structured {name : Option (List UInt8)} {elementCount : Int} {elements : List Specification} :
    elementCount = elements.length → (∀ e ∈ elements, Complete e) →
    Complete (.structured name elementCount elements)
  | primitive {name : Option (List UInt8)} {type : PrimitiveType} : Complete (.primitive name type)

/-- The names lead from a type to a part of it, also through the type of array elements. -/
inductive Reaches : Specification → List (List UInt8) → Specification → Prop
  | here {v : Specification} : Reaches v [] v
  | component {name : Option (List UInt8)} {elementCount : Int} {elements : List Specification}
    {e v : Specification} {first : List UInt8} {names : List (List UInt8)} :
    e ∈ elements → e.name = some first → Reaches e names v →
    Reaches (.structured name elementCount elements) (first :: names) v
  | element {name : Option (List UInt8)} {elementCount : Int} {e v : Specification}
    {first : List UInt8} {names : List (List UInt8)} :
    Reaches e (first :: names) v → Reaches (.array name elementCount e) (first :: names) v

/-- The name with these parts exists in the type. -/
def HasName (v : Specification) (names : List (List UInt8)) : Prop := ∃ w, v.Reaches names w

end Specification

/-- The switch over the types of attributes, as far as it leads to a type without components. -/
def DataAttributeType.primitive : DataAttributeType → Option PrimitiveType
  | .boolean => some .boolean
  | .int8 => some (.integer 8)
  | .int16 => some (.integer 16)
  | .int32 => some (.integer 32)
  | .int64 => some (.integer 64)
  | .int128 => some (.integer 128)
  | .int8u => some (.unsigned 8)
  | .int16u => some (.unsigned 16)
  | .int24u => some (.unsigned 24)
  | .int32u => some (.unsigned 32)
  | .float32 => some (.float 32 8)
  | .float64 => some (.float 64 11)
  | .enumerated => some (.integer 8)
  | .check => some (.bitString (-2))
  | .codedEnum => some (.bitString 2)
  | .octetString6 => some (.octetString (-6))
  | .octetString8 => some (.octetString 8)
  | .octetString64 => some (.octetString (-64))
  | .visibleString32 => some (.visibleString (-129))
  | .visibleString64 => some (.visibleString (-129))
  | .visibleString65 => some (.visibleString (-129))
  | .visibleString129 => some (.visibleString (-129))
  | .visibleString255 => some (.visibleString (-255))
  | .unicodeString255 => some (.mmsString (-255))
  | .genericBitstring => some (.bitString 0)
  | .timestamp => some .utcTime
  | .quality => some (.bitString (-13))
  | .entryTime => some (.binaryTime 6)
  | .constructed => none
  | .phyComAddr => none

namespace MmsMapping

def primitiveNamed (s : String × PrimitiveType) : Specification :=
  .primitive (some (ascii s.1)) s.2

/-- `MmsMapping_createPhyComAddrStructure` -/
def createPhyComAddrStructure (name : Option (List UInt8)) : Specification :=
  .structured name 4 ([("Addr", .visibleString 6), ("PRIORITY", .unsigned 8),
    ("VID", .unsigned 16), ("APPID", .unsigned 16)].map primitiveNamed)

/-- The type of an attribute without sub-attributes. Where it cannot be mapped, it stays as it
was allocated, which reads as an array. -/
def createTypeSpec (type : DataAttributeType) (name : Option (List UInt8)) : Specification :=
  match type.primitive with
  | some primitive => .primitive name primitive
  | none => if type = .phyComAddr then createPhyComAddrStructure name else .array name 0 .null

/-- An array has the name, and its elements have none. -/
def createArray {m : Type → Type} [Monad m] (name : List UInt8) (elementCount : Int)
    (typeSpec : Option (List UInt8) → m Specification) : m Specification := do
  if 0 < elementCount then return .array (some name) elementCount (← typeSpec none)
  else typeSpec (some name)

mutual

def createNamedVariableFromDataAttribute : DataAttribute → Exec Specification
  | ⟨name, elementCount, _, type, _, children⟩ =>
    createArray name elementCount fun name => do
      if children.isEmpty then return createTypeSpec type name
      else
        let s ← fillSubAttributes children (List.replicate children.length .null, 0)
        return .structured name s.2 s.1

/-- The loop over the sub-attributes. -/
def fillSubAttributes :
    List DataAttribute → List Specification × Nat → Exec (List Specification × Nat)
  | [], s => .ok s
  | da :: das, s => do
    fillSubAttributes das (← fillNext s (← createNamedVariableFromDataAttribute da))

end

def countChildrenWithFc (fc : FunctionalConstraint) (children : List ModelNode) : Nat :=
  children.countP (ModelNode.hasFCData fc)

mutual

/-- `createNamedVariableFromDataAttribute` or `createFCNamedVariableFromDataObject`, after the
kind of the component. -/
def createFCNamedVariableFromNode (fc : FunctionalConstraint) : ModelNode → Exec Specification
  | .dataAttribute da => createNamedVariableFromDataAttribute da
  | .dataObject name elementCount children =>
    createArray name elementCount fun name => do
      let elementCount := countChildrenWithFc fc children
      let s ← fillComponents fc children (List.replicate elementCount .null, 0)
      return .structured name elementCount s.1

/-- The loop over the components of a data object. -/
def fillComponents (fc : FunctionalConstraint) :
    List ModelNode → List Specification × Nat → Exec (List Specification × Nat)
  | [], s => .ok s
  | node :: nodes, s => do
    if node.hasFCData fc then
      fillComponents fc nodes (← fillNext s (← createFCNamedVariableFromNode fc node))
    else fillComponents fc nodes s

end

def createFCNamedVariableFromDataObject (fc : FunctionalConstraint) (o : DataObject) :
    Exec Specification :=
  createFCNamedVariableFromNode fc o.node

def createFCNamedVariable (ln : LogicalNode) (fc : FunctionalConstraint) : Exec Specification := do
  let dataObjectCount := ln.dataObjects.countP (DataObject.hasFCData fc)
  let s ← fillPresent (DataObject.hasFCData fc) (createFCNamedVariableFromDataObject fc)
    ln.dataObjects (List.replicate dataObjectCount .null, 0)
  return .structured fc.toString dataObjectCount s.1

def determineLogicalNodeComponentCount (ln : LogicalNode) : Nat :=
  FunctionalConstraint.named.countP ln.hasFCData

def countReportControlBlocksForLogicalNode (model : IedModel) (parent : Nat × Nat)
    (buffered : Bool) : Nat :=
  model.rcbs.countP fun rcb => rcb.parent = parent ∧ rcb.buffered = buffered

def countGSEControlBlocksForLogicalNode (model : IedModel) (parent : Nat × Nat) : Nat :=
  model.gseCBs.countP fun gcb => gcb.parent = parent

def createUnbufferedReportControlBlock (rcb : IedModel.ReportControlBlock) : Specification :=
  .structured (some rcb.name) 12 ([("RptID", .visibleString (-129)), ("RptEna", .boolean),
    ("Resv", .boolean), ("DatSet", .visibleString (-129)), ("ConfRev", .unsigned 32),
    ("OptFlds", .bitString 10), ("BufTm", .unsigned 32), ("SqNum", .unsigned 16),
    ("TrgOps", .bitString 6), ("IntgPd", .unsigned 32), ("GI", .boolean),
    ("Owner", .octetString (-128))].map primitiveNamed)

def createBufferedReportControlBlock (rcb : IedModel.ReportControlBlock) : Specification :=
  .structured (some rcb.name) 15 ([("RptID", .visibleString (-129)), ("RptEna", .boolean),
    ("DatSet", .visibleString (-129)), ("ConfRev", .unsigned 32), ("OptFlds", .bitString 10),
    ("BufTm", .unsigned 32), ("SqNum", .unsigned 16), ("TrgOps", .bitString 6),
    ("IntgPd", .unsigned 32), ("GI", .boolean), ("PurgeBuf", .boolean),
    ("EntryID", .octetString 8), ("TimeOfEntry", .binaryTime 0), ("ResvTms", .unsigned 32),
    ("Owner", .octetString (-128))].map primitiveNamed)

def createMmsGooseControlBlock (gcb : IedModel.GSEControlBlock) : Specification :=
  .structured (some gcb.name) 9
    ([("GoEna", .boolean), ("GoID", .visibleString (-129)), ("DatSet", .visibleString (-129)),
      ("ConfRev", .unsigned 32), ("NdsCom", .boolean)].map primitiveNamed ++
    createPhyComAddrStructure (some (ascii "DstAddress")) ::
    [("MinTime", .unsigned 32), ("MaxTime", .unsigned 32), ("FixedOffs", .boolean)].map
      primitiveNamed)

/-- `getRCBForLogicalNodeWithIndex` and `getGCBForLogicalNodeWithIndex`: the loop counts the
blocks that belong to the node. -/
def getBlockWithIndex {α : Type} (belongs : α → Bool) (index : Nat) : List α → Nat → Option α
  | [], _ => none
  | block :: blocks, count =>
    if belongs block then
      if count = index then some block else getBlockWithIndex belongs index blocks (count + 1)
    else getBlockWithIndex belongs index blocks count

/-- `Reporting_createMmsBufferedRCBs`, `Reporting_createMmsUnbufferedRCBs` and
`GOOSE_createGOOSEControlBlocks`. -/
def createControlBlocks {α : Type} (name : List UInt8) (belongs : α → Bool)
    (createBlock : α → Specification) (blocks : List α) (count : Nat) : Exec Specification := do
  let s ← fillPresent (fun _ => true)
    (fun i => (getBlockWithIndex belongs i blocks 0).elim (.error .nullPointer)
      fun block => .ok (createBlock block))
    (List.range count) (List.replicate count .null, 0)
  return .structured (some name) count s.1

/-- What may be a component of a logical node, in the order in which they are filled in. -/
inductive ComponentKind
  | constraint (fc : FunctionalConstraint)
  | rcbs (buffered : Bool)
  | gseCBs

namespace ComponentKind

def order : List ComponentKind :=
  [.constraint .mx, .constraint .st, .constraint .co, .constraint .cf, .constraint .dc,
    .constraint .sp, .constraint .sg, .rcbs false, .rcbs true, .gseCBs, .constraint .sv,
    .constraint .se, .constraint .ex, .constraint .sr, .constraint .or, .constraint .bl]

def name : ComponentKind → Option (List UInt8)
  | .constraint fc => fc.toString
  | .rcbs false => some (ascii "RP")
  | .rcbs true => some (ascii "BR")
  | .gseCBs => some (ascii "GO")

end ComponentKind

section LogicalNode

variable (model : IedModel) (parent : Nat × Nat) (ln : LogicalNode)

def hasComponent : ComponentKind → Bool
  | .constraint fc => ln.hasFCData fc
  | .rcbs buffered => 0 < countReportControlBlocksForLogicalNode model parent buffered
  | .gseCBs => 0 < countGSEControlBlocksForLogicalNode model parent

def createComponent : ComponentKind → Exec Specification
  | .constraint fc => createFCNamedVariable ln fc
  | .rcbs false =>
    createControlBlocks (ascii "RP") (fun rcb => rcb.parent = parent ∧ rcb.buffered = false)
      createUnbufferedReportControlBlock model.rcbs
      (countReportControlBlocksForLogicalNode model parent false)
  | .rcbs true =>
    createControlBlocks (ascii "BR") (fun rcb => rcb.parent = parent ∧ rcb.buffered = true)
      createBufferedReportControlBlock model.rcbs
      (countReportControlBlocksForLogicalNode model parent true)
  | .gseCBs =>
    createControlBlocks (ascii "GO") (fun gcb => gcb.parent = parent)
      createMmsGooseControlBlock model.gseCBs (countGSEControlBlocksForLogicalNode model parent)

def createNamedVariableFromLogicalNode : Exec Specification := do
  let componentCount := determineLogicalNodeComponentCount ln
    + (if 0 < countReportControlBlocksForLogicalNode model parent true then 1 else 0)
    + (if 0 < countReportControlBlocksForLogicalNode model parent false then 1 else 0)
    + (if 0 < countGSEControlBlocksForLogicalNode model parent then 1 else 0)
  let s ← fillPresent (hasComponent model parent ln) (createComponent model parent ln)
    ComponentKind.order (List.replicate componentCount .null, 0)
  return .structured (some ln.name) s.2 s.1

end LogicalNode

/-- A domain with the types of its named variables. -/
structure DomainTypes where
  domainName : List UInt8
  namedVariables : List Specification

def createMmsDomainFromIedDevice (model : IedModel) (index : Nat) (ld : LogicalDevice) :
    Exec DomainTypes := do
  let s ← fillPresent (fun _ => true)
    (fun node : LogicalNode × Nat =>
      createNamedVariableFromLogicalNode model (index, node.2) node.1)
    ld.logicalNodes.zipIdx (List.replicate ld.logicalNodes.length .null, 0)
  return ⟨ld.name, s.1⟩

def createMmsDataModel (model : IedModel) : Exec (List DomainTypes) := do
  let s ← fillPresent (fun _ => true)
    (fun device : LogicalDevice × Nat => createMmsDomainFromIedDevice model device.2 device.1)
    model.logicalDevices.zipIdx
    (List.replicate model.logicalDevices.length (DomainTypes.mk [] []), 0)
  return s.1

/-- There is no device where the model has no logical device. -/
def createMmsModelFromIedModel (model : IedModel) : Exec (Option (List DomainTypes)) := do
  if model.logicalDevices.isEmpty then return none else return some (← createMmsDataModel model)

end MmsMapping

end Iec61850
