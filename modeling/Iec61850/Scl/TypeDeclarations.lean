import Iec61850.Lib.TreeGrowth
import Iec61850.Model.IedModel
import Iec61850.Scl.ParserUtils

/-! The declarations of types in an SCL file, and the nodes that the constructors of data objects
and data attributes make of them. -/

namespace Iec61850.Scl

inductive AttributeType
  | boolean | int8 | int16 | int32 | int64 | int128 | int8u | int16u | int24u | int32u
  | float32 | float64 | enumerated | octetString64 | octetString6 | octetString8
  | visibleString32 | visibleString64 | visibleString65 | visibleString129 | visibleString255
  | unicodeString255 | timestamp | quality | check | codedenum | genericBitstring | constructed
  | entryTime | phycomaddr
  deriving DecidableEq

structure TriggerOptions where
  dchg : Bool
  qchg : Bool
  dupd : Bool
  period : Bool
  gi : Bool

structure DataObjectDefinition where
  name : String
  type : String
  count : Int

/-- There is no type where the attribute has none. -/
structure DataAttributeDefinition where
  name : String
  bType : String
  type : Option String
  count : Int
  fc : Option FunctionalConstraint
  attributeType : AttributeType
  triggerOptions : TriggerOptions

structure LogicalNodeType where
  id : String
  lnClass : String
  dataObjectDefinitions : List DataObjectDefinition

structure DataObjectType where
  id : String
  cdc : String
  dataAttributes : List DataAttributeDefinition
  subDataObjects : List DataObjectDefinition

structure DataAttributeType where
  id : String
  subDataAttributes : List DataAttributeDefinition

structure EnumerationType where
  id : String
  enumValues : List (String × Int)

inductive SclType
  | logicalNodeType (type : LogicalNodeType)
  | dataObjectType (type : DataObjectType)
  | dataAttributeType (type : DataAttributeType)
  | enumerationType (type : EnumerationType)

def SclType.id : SclType → String
  | logicalNodeType type => type.id
  | dataObjectType type => type.id
  | dataAttributeType type => type.id
  | enumerationType type => type.id

abbrev TypeDeclarations := List SclType

namespace TypeDeclarations

/-- `lookupType`: the first declaration with the id. -/
def lookupType (typeDeclarations : TypeDeclarations) (typeId : Option String) : Option SclType :=
  typeDeclarations.find? fun declaration => some declaration.id = typeId

/-- `lookupType` with the class of data objects. -/
def lookupDataObjectType (typeDeclarations : TypeDeclarations) (typeId : String) :
    Option DataObjectType :=
  (typeDeclarations.filterMap fun
    | .dataObjectType type => some type
    | _ => none).find? (·.id = typeId)

/-- `lookupType` with the class of data attributes. -/
def lookupDataAttributeType (typeDeclarations : TypeDeclarations) (typeId : Option String) :
    Option DataAttributeType :=
  (typeDeclarations.filterMap fun
    | .dataAttributeType type => some type
    | _ => none).find? fun type => some type.id = typeId

end TypeDeclarations

/-- What is fixed of an attribute when it is made. -/
structure DataAttribute where
  name : String
  fc : Option FunctionalConstraint
  type : AttributeType
  count : Int
  sclType : Option SclType
  triggerOptions : TriggerOptions

def DataAttribute.isBasicAttribute (a : DataAttribute) : Bool := a.type ≠ .constructed

/-- A node of the data of a logical node. The children of a data object are its attributes, and
behind them the data objects in it. -/
inductive DataModelNode
  | logicalNode
  | dataObject (name : String) (count : Int) (sclType : DataObjectType)
  | dataAttribute (a : DataAttribute)

abbrev DataTree := RoseTree DataModelNode

/-- A constructor with its arguments. An attribute that is part of another one has the trigger
options of that one. -/
inductive Component
  | logicalNode (type : LogicalNodeType)
  | dataObject (doDefinition : DataObjectDefinition)
  | dataAttribute (daDefinition : DataAttributeDefinition) (fc : Option FunctionalConstraint)
    (parent : Option TriggerOptions)

namespace Component

/-- The attributes of a type that is itself an attribute. -/
def subDataAttributes (type : DataAttributeType) (fc : Option FunctionalConstraint)
    (triggerOptions : TriggerOptions) : List Component :=
  type.subDataAttributes.map fun daDef => .dataAttribute daDef fc (some triggerOptions)

/-- The attributes and the data objects in a data object. -/
def componentsOf (type : DataObjectType) : List Component :=
  type.dataAttributes.map (fun daDefinition => .dataAttribute daDefinition none none) ++
    type.subDataObjects.map .dataObject

/-- What the constructor of an attribute finds in the declarations, and the attributes that it makes
in turn. -/
def createDataAttribute (typeDeclarations : TypeDeclarations)
    (daDefinition : DataAttributeDefinition) (fc : Option FunctionalConstraint)
    (parent : Option TriggerOptions) : Java (DataModelNode × List Component) :=
  let fc := daDefinition.fc.or fc
  let triggerOptions := parent.getD daDefinition.triggerOptions
  let made : Option SclType → DataModelNode := fun sclType => .dataAttribute
    ⟨daDefinition.name, fc, daDefinition.attributeType, daDefinition.count, sclType,
      triggerOptions⟩
  match daDefinition.attributeType with
  | .constructed =>
    match typeDeclarations.lookupDataAttributeType daDefinition.type with
    | none =>
      .error (.sclParserException none
        ("Missing type definition for constructed data attribute: " ++ daDefinition.bType))
    | some type =>
      .ok (made (some (.dataAttributeType type)), subDataAttributes type fc triggerOptions)
  | .enumerated =>
    match typeDeclarations.lookupType daDefinition.type with
    | none =>
      .error (.sclParserException none
        ("Missing type definition for enumerated data attribute: " ++ daDefinition.bType))
    | some (.enumerationType type) => .ok (made (some (.enumerationType type)), [])
    | some _ =>
      .error (.sclParserException none "Wrong type definition for enumerated data attribute")
  | _ => .ok (made none, [])

/-- The same for every constructor. -/
def create (typeDeclarations : TypeDeclarations) : Component → Java (DataModelNode × List Component)
  | .logicalNode type => .ok (.logicalNode, type.dataObjectDefinitions.map .dataObject)
  | .dataObject doDefinition =>
    match typeDeclarations.lookupDataObjectType doDefinition.type with
    | none => .error (.sclParserException none "type declaration missing for data object.")
    | some type =>
      .ok (.dataObject doDefinition.name doDefinition.count type, componentsOf type)
  | .dataAttribute daDefinition fc parent =>
    createDataAttribute typeDeclarations daDefinition fc parent

end Component

/-- The constructors, with as many calls inside each other as there is room for. -/
def construct (typeDeclarations : TypeDeclarations) : Nat → Component → Java DataTree :=
  RoseTree.grow (Component.create typeDeclarations) .stackOverflowError

/-! ## The expansion of a type -/

/-- The type that the declarations have for an attribute, with its parts. -/
inductive DeclaresType (typeDeclarations : TypeDeclarations) (d : DataAttributeDefinition)
    (fc : Option FunctionalConstraint) (triggerOptions : TriggerOptions) :
    Option SclType → List Component → Prop
  | constructed {type : DataAttributeType} : d.attributeType = .constructed →
    typeDeclarations.lookupDataAttributeType d.type = some type →
    DeclaresType typeDeclarations d fc triggerOptions (some (.dataAttributeType type))
      (type.subDataAttributes.map fun part => .dataAttribute part fc (some triggerOptions))
  | enumerated {type : EnumerationType} : d.attributeType = .enumerated →
    typeDeclarations.lookupType d.type = some (.enumerationType type) →
    DeclaresType typeDeclarations d fc triggerOptions (some (.enumerationType type)) []
  | basic : d.attributeType ≠ .constructed → d.attributeType ≠ .enumerated →
    DeclaresType typeDeclarations d fc triggerOptions none []

/-- What a component is by the declarations, and what its own components are, in the order of the
declaration. The functional constraint is that of the attribute around it where it has none, and
the trigger options are always those of the attribute around it. -/
inductive Declares (typeDeclarations : TypeDeclarations) :
    Component → DataModelNode → List Component → Prop
  | logicalNode {type : LogicalNodeType} : Declares typeDeclarations (.logicalNode type)
      .logicalNode (type.dataObjectDefinitions.map .dataObject)
  | dataObject {d : DataObjectDefinition} {type : DataObjectType} :
    typeDeclarations.lookupDataObjectType d.type = some type →
    Declares typeDeclarations (.dataObject d) (.dataObject d.name d.count type)
      (type.dataAttributes.map (fun part => .dataAttribute part none none) ++
        type.subDataObjects.map .dataObject)
  | dataAttribute {d : DataAttributeDefinition} {inherited fc : Option FunctionalConstraint}
    {parent : Option TriggerOptions} {triggerOptions : TriggerOptions} {sclType : Option SclType}
    {parts : List Component} :
    fc = (if d.fc = none then inherited else d.fc) →
    triggerOptions = parent.getD d.triggerOptions →
    DeclaresType typeDeclarations d fc triggerOptions sclType parts →
    Declares typeDeclarations (.dataAttribute d inherited parent)
      (.dataAttribute ⟨d.name, fc, d.attributeType, d.count, sclType, triggerOptions⟩) parts

/-- The tree is the expansion of a component. -/
abbrev IsExpansion (typeDeclarations : TypeDeclarations) : DataTree → Component → Prop :=
  RoseTree.IsGrown (Declares typeDeclarations)

section

variable {typeDeclarations : TypeDeclarations} {c : Component} {node : DataModelNode}
  {cs : List Component} {d : DataAttributeDefinition} {inherited : Option FunctionalConstraint}
  {parent : Option TriggerOptions}

theorem or_eq_ite (fc inherited : Option FunctionalConstraint) :
    fc.or inherited = if fc = none then inherited else fc := by
  cases fc <;> rfl

theorem createDataAttribute_ok_iff :
    Component.createDataAttribute typeDeclarations d inherited parent = .ok (node, cs) ↔
      Declares typeDeclarations (.dataAttribute d inherited parent) node cs := by
  constructor
  · intro h
    simp only [Component.createDataAttribute] at h
    split at h
    case h_1 htype =>
      split at h
      case h_1 => cases h
      case h_2 hlookup =>
        cases h
        exact .dataAttribute (or_eq_ite d.fc inherited) rfl (.constructed htype hlookup)
    case h_2 htype =>
      split at h
      case h_1 => cases h
      case h_2 hlookup =>
        cases h
        exact .dataAttribute (or_eq_ite d.fc inherited) rfl (.enumerated htype hlookup)
      case h_3 => cases h
    case h_3 hconstructed henumerated =>
      cases h
      exact .dataAttribute (or_eq_ite d.fc inherited) rfl (.basic hconstructed henumerated)
  · intro h
    cases h with
    | dataAttribute hfc htriggerOptions htype =>
      rw [← or_eq_ite] at hfc
      subst hfc htriggerOptions
      cases htype with
      | constructed htype hlookup =>
        simp only [Component.createDataAttribute, htype, hlookup]
        rfl
      | enumerated htype hlookup =>
        simp only [Component.createDataAttribute, htype, hlookup]
      | basic hconstructed henumerated =>
        simp only [Component.createDataAttribute]

theorem create_ok_iff (c : Component) (node : DataModelNode) (cs : List Component) :
    Component.create typeDeclarations c = .ok (node, cs) ↔ Declares typeDeclarations c node cs := by
  cases c with
  | logicalNode type =>
    constructor
    · intro h
      cases h
      exact .logicalNode
    · intro h
      cases h
      rfl
  | dataObject doDefinition =>
    rw [Component.create]
    constructor
    · intro h
      split at h
      · cases h
      · cases h
        exact .dataObject ‹_›
    · intro h
      cases h with
      | dataObject htype =>
        rw [htype]
        rfl
  | dataAttribute daDefinition fc parent => exact createDataAttribute_ok_iff

end

end Iec61850.Scl
