import Iec61850.Mms.Value
import Mathlib.Data.List.Forall2

/-! The data model of an IED (`model.c`): logical devices, logical nodes, data objects and data
attributes, and the data of a functional constraint in it. -/

namespace Iec61850

def ascii (s : String) : List UInt8 := s.toList.map fun c => UInt8.ofNat c.toNat

inductive FunctionalConstraint
  | st | mx | sp | sv | cf | dc | sg | se | sr | or | bl | ex | co | all | none
  deriving DecidableEq

namespace FunctionalConstraint

/-- `FunctionalConstraint_toString` -/
def toString : FunctionalConstraint → Option (List UInt8)
  | .st => some (ascii "ST")
  | .mx => some (ascii "MX")
  | .sp => some (ascii "SP")
  | .sv => some (ascii "SV")
  | .cf => some (ascii "CF")
  | .dc => some (ascii "DC")
  | .sg => some (ascii "SG")
  | .se => some (ascii "SE")
  | .sr => some (ascii "SR")
  | .or => some (ascii "OR")
  | .bl => some (ascii "BL")
  | .ex => some (ascii "EX")
  | .co => some (ascii "CO")
  | .all => Option.none
  | .none => Option.none

/-- The constraints with a name, in the order in which they are counted. -/
def named : List FunctionalConstraint := [st, mx, sp, sv, cf, dc, sg, se, sr, or, bl, ex, co]

theorem mem_named {fc : FunctionalConstraint} {name : List UInt8}
    (h : fc.toString = some name) : fc ∈ named := by
  have hall : ∀ fc : FunctionalConstraint, fc.toString ≠ Option.none → fc ∈ named := by
    intro fc
    cases fc <;> decide
  exact hall fc (h ▸ Option.some_ne_none name)

end FunctionalConstraint

inductive DataAttributeType
  | boolean | int8 | int16 | int32 | int64 | int128 | int8u | int16u | int24u | int32u
  | float32 | float64 | enumerated | octetString64 | octetString6 | octetString8
  | visibleString32 | visibleString64 | visibleString65 | visibleString129 | visibleString255
  | unicodeString255 | timestamp | quality | check | codedEnum | genericBitstring | constructed
  | entryTime | phyComAddr
  deriving DecidableEq

/-- `mmsValue` is the value that is configured, and `children` are the sub-attributes. -/
structure DataAttribute where
  name : List UInt8
  elementCount : Int
  fc : FunctionalConstraint
  type : DataAttributeType
  mmsValue : Option MmsValue
  children : List DataAttribute

/-- A component of a data object: an attribute, or a data object of its own. -/
inductive ModelNode
  | dataAttribute (da : DataAttribute)
  | dataObject (name : List UInt8) (elementCount : Int) (children : List ModelNode)

structure DataObject where
  name : List UInt8
  elementCount : Int
  children : List ModelNode

structure LogicalNode where
  name : List UInt8
  dataObjects : List DataObject

structure LogicalDevice where
  name : List UInt8
  logicalNodes : List LogicalNode

/-- `parent` is the place of the logical node: that of its device, and its own in the device. -/
structure IedModel.ReportControlBlock where
  parent : Nat × Nat
  name : List UInt8
  buffered : Bool

structure IedModel.GSEControlBlock where
  parent : Nat × Nat
  name : List UInt8

structure IedModel where
  name : List UInt8
  logicalDevices : List LogicalDevice
  rcbs : List IedModel.ReportControlBlock
  gseCBs : List IedModel.GSEControlBlock

/-- A data object is a node like the ones below it. -/
def DataObject.node (o : DataObject) : ModelNode := .dataObject o.name o.elementCount o.children

namespace ModelNode

def name : ModelNode → List UInt8
  | .dataAttribute da => da.name
  | .dataObject name _ _ => name

def elementCount : ModelNode → Int
  | .dataAttribute da => da.elementCount
  | .dataObject _ elementCount _ => elementCount

def children : ModelNode → List ModelNode
  | .dataAttribute da => da.children.map .dataAttribute
  | .dataObject _ _ children => children

mutual

/-- The test of a component that all the loops over components make. -/
def hasFCData (fc : FunctionalConstraint) : ModelNode → Bool
  | .dataAttribute da => da.fc = fc
  | .dataObject _ _ children => anyHasFCData fc children

def anyHasFCData (fc : FunctionalConstraint) : List ModelNode → Bool
  | [] => false
  | node :: nodes => hasFCData fc node || anyHasFCData fc nodes

end

/-- An attribute of the constraint is the node or is below it. -/
inductive Contains (fc : FunctionalConstraint) : ModelNode → Prop
  | dataAttribute {da : DataAttribute} : da.fc = fc → Contains fc (.dataAttribute da)
  | dataObject {name : List UInt8} {elementCount : Int} {children : List ModelNode}
    {node : ModelNode} :
    node ∈ children → Contains fc node → Contains fc (.dataObject name elementCount children)

/-- The components that contain data of the constraint. -/
def parts (fc : FunctionalConstraint) (node : ModelNode) : List ModelNode :=
  node.children.filter (hasFCData fc)

end ModelNode

/-- `DataObject_hasFCData` -/
def DataObject.hasFCData (fc : FunctionalConstraint) (o : DataObject) : Bool :=
  ModelNode.anyHasFCData fc o.children

/-- `LogicalNode_hasFCData` -/
def LogicalNode.hasFCData (fc : FunctionalConstraint) (ln : LogicalNode) : Bool :=
  ln.dataObjects.any (DataObject.hasFCData fc)

/-- The nodes have one with this path that contains data of the constraint. -/
inductive DataAt (fc : FunctionalConstraint) : List ModelNode → List (List UInt8) → Prop
  | here {node : ModelNode} {nodes : List ModelNode} :
    node ∈ nodes → node.Contains fc → DataAt fc nodes [node.name]
  | through {node : ModelNode} {nodes : List ModelNode} {path : List (List UInt8)} :
    node ∈ nodes → DataAt fc node.children path → DataAt fc nodes (node.name :: path)

/-- The sub-attributes have the constraint of their attribute. -/
inductive DataAttribute.Uniform : DataAttribute → Prop
  | intro {da : DataAttribute} :
    (∀ c ∈ da.children, c.fc = da.fc) → (∀ c ∈ da.children, Uniform c) → Uniform da

namespace ModelNode

inductive Uniform : ModelNode → Prop
  | dataAttribute {da : DataAttribute} : da.Uniform → Uniform (.dataAttribute da)
  | dataObject {name : List UInt8} {elementCount : Int} {children : List ModelNode} :
    (∀ c ∈ children, Uniform c) → Uniform (.dataObject name elementCount children)

end ModelNode

/-- In the whole model the sub-attributes have the constraint of their attribute. -/
def IedModel.Uniform (model : IedModel) : Prop :=
  ∀ ld ∈ model.logicalDevices, ∀ ln ∈ ld.logicalNodes, ∀ o ∈ ln.dataObjects, o.node.Uniform

/-- Induction over attributes: the hypothesis is about the sub-attributes. -/
@[elab_as_elim] theorem DataAttribute.tree_induction {motive : DataAttribute → Prop}
    (step : ∀ da : DataAttribute, (∀ c ∈ da.children, motive c) → motive da)
    (da : DataAttribute) : motive da := by
  refine @DataAttribute.rec motive (fun das => ∀ c ∈ das, motive c) ?_ ?_ ?_ da
  case refine_1 =>
    intro name elementCount fc type mmsValue children ih
    exact step _ ih
  case refine_2 => exact fun c hc => absurd hc List.not_mem_nil
  case refine_3 =>
    intro head tail hhead htail c hc
    rcases List.mem_cons.mp hc with rfl | hc
    · exact hhead
    · exact htail c hc

namespace ModelNode

/-- Induction over the nodes below a data object: the hypothesis is about its components. -/
@[elab_as_elim] theorem tree_induction {motive : ModelNode → Prop}
    (dataAttribute : ∀ da, motive (.dataAttribute da))
    (dataObject : ∀ name elementCount children, (∀ c ∈ children, motive c) →
      motive (.dataObject name elementCount children)) (node : ModelNode) : motive node := by
  refine @ModelNode.rec motive (fun nodes => ∀ c ∈ nodes, motive c) dataAttribute dataObject
    ?_ ?_ node
  case refine_1 => exact fun c hc => absurd hc List.not_mem_nil
  case refine_2 =>
    intro head tail hhead htail c hc
    rcases List.mem_cons.mp hc with rfl | hc
    · exact hhead
    · exact htail c hc

variable {fc : FunctionalConstraint} {node : ModelNode} {nodes : List ModelNode}

theorem anyHasFCData_eq (fc : FunctionalConstraint) (nodes : List ModelNode) :
    anyHasFCData fc nodes = nodes.any (hasFCData fc) := by
  induction nodes with
  | nil => rfl
  | cons node nodes ih => rw [anyHasFCData, List.any_cons, ih]

theorem hasFCData_iff : node.hasFCData fc = true ↔ node.Contains fc := by
  induction node using tree_induction with
  | dataAttribute da =>
    constructor
    · intro h
      exact .dataAttribute (of_decide_eq_true h)
    · intro h
      cases h with
      | dataAttribute h => exact decide_eq_true h
  | dataObject name elementCount children ih =>
    rw [hasFCData, anyHasFCData_eq, List.any_eq_true]
    constructor
    · intro ⟨c, hc, h⟩
      exact .dataObject hc ((ih c hc).mp h)
    · intro h
      cases h with
      | dataObject hc h => exact ⟨_, hc, (ih _ hc).mpr h⟩

theorem Uniform.children (h : node.Uniform) : ∀ c ∈ node.children, c.Uniform := by
  intro c hc
  cases h with
  | dataAttribute h =>
    obtain ⟨a, ha, rfl⟩ := List.mem_map.mp hc
    cases h with
    | intro _ hall => exact .dataAttribute (hall a ha)
  | dataObject h => exact h c hc

/-- A node with a component that contains data of the constraint contains some itself. -/
theorem Uniform.contains {c : ModelNode} (h : node.Uniform) (hc : c ∈ node.children)
    (hcontains : c.Contains fc) : node.Contains fc := by
  cases h with
  | dataAttribute h =>
    obtain ⟨a, ha, rfl⟩ := List.mem_map.mp hc
    cases h with
    | intro hfc _ =>
      cases hcontains with
      | dataAttribute hcontains => exact .dataAttribute ((hfc a ha).symm.trans hcontains)
  | dataObject h => exact .dataObject hc hcontains

end ModelNode

theorem DataObject.hasFCData_node (fc : FunctionalConstraint) (o : DataObject) :
    o.hasFCData fc = o.node.hasFCData fc := rfl

/-- The path of data leads through one of the nodes. -/
theorem DataAt.exists_contains {fc : FunctionalConstraint} {nodes : List ModelNode}
    {path : List (List UInt8)} (hu : ∀ node ∈ nodes, node.Uniform) (h : DataAt fc nodes path) :
    ∃ node ∈ nodes, node.Contains fc := by
  induction h with
  | here hnode hcontains => exact ⟨_, hnode, hcontains⟩
  | through hnode _ ih =>
    obtain ⟨c, hc, hcontains⟩ := ih (hu _ hnode).children
    exact ⟨_, hnode, (hu _ hnode).contains hc hcontains⟩

end Iec61850
