import Iec61850.Scl.TypeDeclarations
import Mathlib.Logic.Function.Basic

/-! The elements of a logical node that give values and short addresses to its attributes: how the
constructor walks through them, and what it leaves at each place of the data. -/

namespace Iec61850.Scl

/-! ## Values -/

def AttributeType.toString : AttributeType → String
  | boolean => "BOOLEAN"
  | int8 => "INT8"
  | int16 => "INT16"
  | int32 => "INT32"
  | int64 => "INT64"
  | int128 => "INT128"
  | int8u => "INT8U"
  | int16u => "INT16U"
  | int24u => "INT24U"
  | int32u => "INT32U"
  | float32 => "FLOAT32"
  | float64 => "FLOAT64"
  | enumerated => "ENUMERATED"
  | octetString64 => "OCTET_STRING_64"
  | octetString6 => "OCTET_STRING_6"
  | octetString8 => "OCTET_STRING_8"
  | visibleString32 => "VISIBLE_STRING_32"
  | visibleString64 => "VISIBLE_STRING_64"
  | visibleString65 => "VISIBLE_STRING_65"
  | visibleString129 => "VISIBLE_STRING_129"
  | visibleString255 => "VISIBLE_STRING_255"
  | unicodeString255 => "UNICODE_STRING_255"
  | timestamp => "TIMESTAMP"
  | quality => "QUALITY"
  | check => "CHECK"
  | codedenum => "CODEDENUM"
  | genericBitstring => "GENERIC_BITSTRING"
  | constructed => "CONSTRUCTED"
  | entryTime => "ENTRY_TIME"
  | phycomaddr => "PHYCOMADDR"

/-- A floating point number is the text that it is made of. -/
inductive DataModelValue
  | integer (value : Int)
  | long (value : Int)
  | boolean (value : Bool)
  | float (text : String)
  | double (text : String)
  | string (text : String)
  | null

def EnumerationType.getOrdByEnumString (type : EnumerationType) (enumString : String) : Java Int :=
  match type.enumValues.find? (·.1 = enumString) with
  | some value => .ok value.2
  | none => .error (.illegalValueException ("Enum has no value " ++ enumString))

namespace DataModelValue

def newEnumerated (sclType : Option SclType) (value : String) : Java DataModelValue :=
  match sclType with
  | none => .error .nullPointerException
  | some (.enumerationType enumType) => integer <$> enumType.getOrdByEnumString value
  | some _ => .error .classCastException

def newLong (lib : JavaText) (value : String) : Java DataModelValue :=
  if value = "" then .ok (long 0) else long <$> newNumber lib.newLong value

def newFloatingPoint (isNumber : String → Bool) (make : String → DataModelValue)
    (value : String) : Java DataModelValue :=
  if value = "" then .ok (make "0")
  else if isNumber value then .ok (make value)
  else .error .numberFormatException

def create (lib : JavaText) (type : AttributeType) (sclType : Option SclType) (value : String) :
    Java DataModelValue :=
  match type with
  | .enumerated => newEnumerated sclType value
  | .int8 | .int16 | .int32 | .int8u | .int16u | .int32u | .int24u | .int64 => newLong lib value
  | .boolean => .ok (boolean (lib.toLowerCase value = "true"))
  | .float32 => newFloatingPoint lib.isFloat float value
  | .float64 => newFloatingPoint lib.isDouble double value
  | .unicodeString255 => .ok (string value)
  | .visibleString32 | .visibleString64 | .visibleString65 | .visibleString129
  | .visibleString255 => .ok (string value)
  -- The initialization of these is unsupported, which is only a warning.
  | .check | .codedenum => .ok null
  | _ =>
    .error (.illegalValueException ("Unsupported type " ++ type.toString ++ " value: " ++ value))

end DataModelValue

namespace Verdict

def enumerated (sclType : Option SclType) (value : String) : Verdict :=
  match sclType with
  | some (.enumerationType enumType) =>
    if (enumType.enumValues.find? (·.1 = value)).isSome then .accepted else .rejected
  | _ => .faulty

def numeric (isNumber : String → Bool) (value : String) : Verdict :=
  if value = "" ∨ isNumber value then .accepted else .faulty

def value (lib : JavaText) (a : DataAttribute) (value : String) : Verdict :=
  match a.type with
  | .enumerated => enumerated a.sclType value
  | .int8 | .int16 | .int32 | .int8u | .int16u | .int32u | .int24u | .int64 =>
    numeric (fun text => (lib.newLong text).isSome) value
  | .float32 => numeric lib.isFloat value
  | .float64 => numeric lib.isDouble value
  | .boolean | .unicodeString255 | .visibleString32 | .visibleString64 | .visibleString65
  | .visibleString129 | .visibleString255 | .check | .codedenum => .accepted
  | _ => .rejected

end Verdict

/-- The parser makes its own exception of a value that is not one of the type. -/
def catchIllegalValue {α : Type} (valNode : Node) : Java α → Java α
  | .error (.illegalValueException message) => .error (.sclParserException (some valNode) message)
  | result => result

section

variable {lib : JavaText} {valNode : Node}

theorem verdict_newEnumerated (sclType : Option SclType) (value : String) :
    verdict (catchIllegalValue valNode (DataModelValue.newEnumerated sclType value)) =
      Verdict.enumerated sclType value := by
  cases sclType with
  | none => rfl
  | some sclType =>
    cases sclType with
    | enumerationType enumType =>
      simp only [DataModelValue.newEnumerated, EnumerationType.getOrdByEnumString,
        Verdict.enumerated]
      cases enumType.enumValues.find? (·.1 = value) <;> rfl
    | logicalNodeType type => rfl
    | dataObjectType type => rfl
    | dataAttributeType type => rfl

theorem verdict_newLong (value : String) :
    verdict (catchIllegalValue valNode (DataModelValue.newLong lib value)) =
      Verdict.numeric (fun text => (lib.newLong text).isSome) value := by
  rw [DataModelValue.newLong, Verdict.numeric]
  by_cases hempty : value = ""
  · rw [if_pos hempty, if_pos (Or.inl hempty)]
    rfl
  · rw [if_neg hempty, newNumber]
    cases h : lib.newLong value with
    | none =>
      rw [if_neg (by simp [hempty])]
      rfl
    | some n =>
      rw [if_pos (by simp)]
      rfl

theorem verdict_newFloatingPoint (isNumber : String → Bool) (make : String → DataModelValue)
    (value : String) :
    verdict (catchIllegalValue valNode (DataModelValue.newFloatingPoint isNumber make value)) =
      Verdict.numeric isNumber value := by
  rw [DataModelValue.newFloatingPoint, Verdict.numeric]
  by_cases hempty : value = ""
  · rw [if_pos hempty, if_pos (Or.inl hempty)]
    rfl
  · by_cases hnumber : isNumber value
    · rw [if_neg hempty, if_pos hnumber, if_pos (Or.inr hnumber)]
      rfl
    · rw [if_neg hempty, if_neg hnumber, if_neg (not_or.mpr ⟨hempty, hnumber⟩)]
      rfl

theorem verdict_value (a : DataAttribute) (value : String) :
    verdict (catchIllegalValue valNode (DataModelValue.create lib a.type a.sclType value)) =
      Verdict.value lib a value := by
  rw [Verdict.value]
  cases a.type
  case enumerated => exact verdict_newEnumerated a.sclType value
  case float32 => exact verdict_newFloatingPoint lib.isFloat .float value
  case float64 => exact verdict_newFloatingPoint lib.isDouble .double value
  all_goals first
    | rfl
    | exact verdict_newLong value

end

/-! ## Places -/

/-- A node is referred to by its place in the data of the logical node. -/
abbrev Place := List Nat

def DataModelNode.isNamed (childName : Option String) : DataModelNode → Bool
  | logicalNode => false
  | dataObject name _ _ => some name = childName
  | dataAttribute a => some a.name = childName

/-- There is no list of children. -/
def DataModelNode.isBasic : DataModelNode → Bool
  | dataAttribute a => a.isBasicAttribute
  | _ => false

def nodeAt (tree : DataTree) (node : Option Place) : Option DataTree := node.bind tree.get?

def dataAttributeAt (tree : DataTree) (place : Place) : Option DataAttribute :=
  match nodeAt tree (some place) with
  | some (.node (.dataAttribute a) _) => some a
  | _ => none

/-- The place of the first child with the name. -/
def childPlace (tree : DataTree) (node : Option Place) (childName : Option String) : Option Place :=
  node.bind fun place =>
    ((nodeAt tree node).bind (·.children.findIdx? (·.label.isNamed childName))).map
      fun i => place ++ [i]

/-- The place that names lead to, from the logical node on. -/
def locate (tree : DataTree) (path : List (Option String)) : Option Place :=
  path.foldl (childPlace tree) (some [])

/-- Names of children can be asked for. -/
def Navigable (tree : DataTree) (node : Option Place) : Bool :=
  (nodeAt tree node).any fun t => !t.label.isBasic

def getChildByName (tree : DataTree) (node : Option Place) (childName : Option String) :
    Java (Option Place) :=
  match nodeAt tree node with
  | none => .error .nullPointerException
  | some t =>
    if t.label.isBasic then .error .nullPointerException
    else .ok (childPlace tree node childName)

/-! ## The walk of the constructor -/

/-- What is set of an attribute after it is made. -/
structure Fields where
  value : Option DataModelValue
  shortAddress : Option String

/-- The fields at each place. -/
abbrev Instance := Place → Fields

def Instance.set (fields : Instance) (place : Place) (value : Option DataModelValue)
    (shortAddress : Option String) : Instance :=
  Function.update fields place
    ⟨value.or (fields place).value, shortAddress.or (fields place).shortAddress⟩

structure AttributeReference where
  place : Place
  dataAttribute : DataAttribute

/-- What is found is taken for an attribute. -/
def castDataAttribute (tree : DataTree) (daiNode : Node) : Option Place → Java AttributeReference
  | none =>
    .error (.sclParserException (some daiNode) ("Missing data attribute with name \"" ++
      (parseAttribute daiNode "name").getD "null" ++ "\""))
  | some place =>
    match dataAttributeAt tree place with
    | none => .error .classCastException
    | some a => .ok ⟨place, a⟩

def parseVal (lib : JavaText) (a : DataAttribute) (daiNode : Node) :
    Java (Option DataModelValue) :=
  match getChildNodeWithTag daiNode "Val" with
  | none => .ok none
  | some valNode =>
    some <$> catchIllegalValue valNode
      (DataModelValue.create lib a.type a.sclType valNode.textContent)

def shortAddressOf (daiNode : Node) : Option String :=
  (parseAttribute daiNode "sAddr").filter (· ≠ "")

def parseDataAttributeNode (lib : JavaText) (tree : DataTree) (dataObject : Option Place)
    (fields : Instance) (daiNode : Node) : Java Instance := do
  let child ← getChildByName tree dataObject (parseAttribute daiNode "name")
  let reference ← castDataAttribute tree daiNode child
  let value ← parseVal lib reference.dataAttribute daiNode
  return fields.set reference.place value (shortAddressOf daiNode)

def parseDataAttributeNodes (lib : JavaText) (tree : DataTree) (doiNode : Node)
    (dataObject : Option Place) (fields : Instance) : Java Instance :=
  (getChildNodesWithTag doiNode "DAI").foldlM (parseDataAttributeNode lib tree dataObject) fields

mutual

/-- A child that is not found is only reported, and the walk goes on with none. -/
def parseSubDataInstances (lib : JavaText) (tree : DataTree) :
    Node → Option Place → Instance → Java Instance
  | .mk _ _ childNodes _, dataObject, fields => parseSdiNodes lib tree childNodes dataObject fields

def parseSdiNodes (lib : JavaText) (tree : DataTree) :
    List Node → Option Place → Instance → Java Instance
  | [], _, fields => .ok fields
  | sdiNode :: nodes, dataObject, fields =>
    if sdiNode.nodeName = "SDI" then do
      let subDataAttribute ← getChildByName tree dataObject (parseAttribute sdiNode "name")
      let fields ← parseDataAttributeNodes lib tree sdiNode subDataAttribute fields
      let fields ← parseSubDataInstances lib tree sdiNode subDataAttribute fields
      parseSdiNodes lib tree nodes dataObject fields
    else parseSdiNodes lib tree nodes dataObject fields

end

def castDataObject (doiNode : Node) : Option Place → Java Place
  | none =>
    .error (.sclParserException (some doiNode) ("Missing data object with name \"" ++
      (parseAttribute doiNode "name").getD "null" ++ "\""))
  | some place => .ok place

def parseDataObjectInstance (lib : JavaText) (tree : DataTree) (fields : Instance)
    (doiNode : Node) : Java Instance := do
  let child ← getChildByName tree (some []) (parseAttribute doiNode "name")
  let dataObject ← castDataObject doiNode child
  let fields ← parseDataAttributeNodes lib tree doiNode (some dataObject) fields
  parseSubDataInstances lib tree doiNode (some dataObject) fields

def parseDataObjectInstances (lib : JavaText) (tree : DataTree) (lnNode : Node) : Java Instance :=
  (getChildNodesWithTag lnNode "DOI").foldlM (parseDataObjectInstance lib tree)
    fun _ => ⟨none, none⟩

/-! ## The elements in their order -/

inductive ElementKind
  | doi | sdi | dai
  deriving DecidableEq

/-- An element with the names around it. -/
structure Access where
  kind : ElementKind
  path : List (Option String)
  element : Node

namespace Access

def name (access : Access) : Option String := parseAttribute access.element "name"

mutual

/-- The attributes in an element come first, and then the elements with attributes of their own. -/
def inside (path : List (Option String)) : Node → List Access
  | .mk _ _ childNodes _ =>
    (childNodes.filter (·.nodeName = "DAI")).map (⟨.dai, path, ·⟩) ++ ofSdiNodes path childNodes

def ofSdiNodes (path : List (Option String)) : List Node → List Access
  | [] => []
  | sdiNode :: nodes =>
    (if sdiNode.nodeName = "SDI" then
      ⟨.sdi, path, sdiNode⟩ :: inside (path ++ [parseAttribute sdiNode "name"]) sdiNode
    else []) ++ ofSdiNodes path nodes

end

def ofDoiNode (doiNode : Node) : List Access :=
  ⟨.doi, [], doiNode⟩ :: inside [parseAttribute doiNode "name"] doiNode

/-- All of a logical node. -/
def ofLogicalNode (lnNode : Node) : List Access :=
  (getChildNodesWithTag lnNode "DOI").flatMap ofDoiNode

variable (lib : JavaText) (tree : DataTree)

/-- The element says something of the attribute at a place: it is an attribute, the names lead to
the place, and there is an attribute. -/
def attributeAt (place : Place) (access : Access) : Option DataAttribute :=
  if access.kind = .dai ∧ childPlace tree (locate tree access.path) access.name = some place then
    dataAttributeAt tree place
  else none

/-- The value that it gives to the attribute at a place. -/
def valueAt (place : Place) (access : Access) : Option DataModelValue :=
  (access.attributeAt tree place).bind fun a =>
    (getChildNodeWithTag access.element "Val").bind fun valNode =>
      (DataModelValue.create lib a.type a.sclType valNode.textContent).toOption

/-- The short address that it gives to it. -/
def shortAddressAt (place : Place) (access : Access) : Option String :=
  (access.attributeAt tree place).bind fun _ => shortAddressOf access.element

end Access

namespace Verdict

def val (lib : JavaText) (a : DataAttribute) (daiNode : Node) : Verdict :=
  match getChildNodeWithTag daiNode "Val" with
  | none => .accepted
  | some valNode => value lib a valNode.textContent

/-- An attribute has to be there, and to be one. -/
def dai (lib : JavaText) (tree : DataTree) (daiNode : Node) : Option Place → Verdict
  | none => .rejected
  | some place =>
    match dataAttributeAt tree place with
    | none => .faulty
    | some a => val lib a daiNode

def access (lib : JavaText) (tree : DataTree) (access : Access) : Verdict :=
  if Navigable tree (locate tree access.path) then
    let child := childPlace tree (locate tree access.path) access.name
    match access.kind with
    | .doi => if child.isSome then .accepted else .rejected
    | .sdi => .accepted
    | .dai => dai lib tree access.element child
  else .faulty

end Verdict

/-! ## The walk goes through the elements in their order -/

namespace Access

/-- What the walk does at one element. -/
def step (lib : JavaText) (tree : DataTree) (fields : Instance) (access : Access) : Java Instance :=
  match access.kind with
  | .doi => do
    let child ← getChildByName tree (locate tree access.path) access.name
    let _ ← castDataObject access.element child
    return fields
  | .sdi => do
    let _ ← getChildByName tree (locate tree access.path) access.name
    return fields
  | .dai => parseDataAttributeNode lib tree (locate tree access.path) fields access.element

end Access

section

variable {lib : JavaText} {tree : DataTree} {path : List (Option String)} {fields : Instance}

theorem locate_append (path : List (Option String)) (name : Option String) :
    locate tree (path ++ [name]) = childPlace tree (locate tree path) name := by
  rw [locate, List.foldl_append]
  rfl

theorem getChildByName_ok {node child : Option Place} {childName : Option String}
    (h : getChildByName tree node childName = .ok child) :
    child = childPlace tree node childName := by
  rw [getChildByName] at h
  split at h
  · cases h
  · split at h
    · cases h
    · cases h
      rfl

theorem verdict_getChildByName (node : Option Place) (childName : Option String) :
    verdict (getChildByName tree node childName) =
      if Navigable tree node then .accepted else .faulty := by
  rw [getChildByName, Navigable]
  cases nodeAt tree node with
  | none => rfl
  | some t =>
    cases hbasic : t.label.isBasic with
    | false => simp [hbasic]
    | true =>
      simp only [Option.any_some, hbasic]
      rfl

theorem parseDataAttributeNodes_eq (node : Node) :
    parseDataAttributeNodes lib tree node (locate tree path) fields =
      (((getChildNodesWithTag node "DAI").map (⟨.dai, path, ·⟩)).foldlM (Access.step lib tree)
        fields) := by
  rw [List.foldlM_map]
  rfl

mutual

theorem parseSubDataInstances_eq : ∀ (node : Node) (path : List (Option String))
    (fields : Instance),
    (parseDataAttributeNodes lib tree node (locate tree path) fields >>=
      parseSubDataInstances lib tree node (locate tree path)) =
        (Access.inside path node).foldlM (Access.step lib tree) fields
  | .mk nodeName attributes childNodes textContent, path, fields => by
    rw [Access.inside, List.foldlM_append, parseDataAttributeNodes_eq]
    refine bind_congr fun fields => ?_
    rw [parseSubDataInstances]
    exact parseSdiNodes_eq childNodes path fields

theorem parseSdiNodes_eq : ∀ (nodes : List Node) (path : List (Option String))
    (fields : Instance),
    parseSdiNodes lib tree nodes (locate tree path) fields =
      (Access.ofSdiNodes path nodes).foldlM (Access.step lib tree) fields
  | [], path, fields => by
    rw [parseSdiNodes, Access.ofSdiNodes]
    rfl
  | sdiNode :: nodes, path, fields => by
    rw [parseSdiNodes, Access.ofSdiNodes]
    by_cases hsdi : sdiNode.nodeName = "SDI"
    · rw [if_pos hsdi, if_pos hsdi, List.foldlM_append, List.foldlM_cons]
      cases hchild : getChildByName tree (locate tree path) (parseAttribute sdiNode "name") with
      | error e =>
        rw [Access.step, Access.name, hchild]
        rfl
      | ok child =>
        -- The child is the place that the names lead to, with its own behind them.
        have hlocate := (getChildByName_ok hchild).trans (locate_append path _).symm
        rw [Access.step, Access.name, hchild, hlocate]
        change (parseDataAttributeNodes lib tree sdiNode _ fields >>= fun fields =>
            parseSubDataInstances lib tree sdiNode _ fields >>= fun fields =>
              parseSdiNodes lib tree nodes (locate tree path) fields) =
          ((Access.inside _ sdiNode).foldlM (Access.step lib tree) fields >>= _)
        rw [← parseSubDataInstances_eq sdiNode _ fields, bind_assoc]
        refine bind_congr fun fields => bind_congr fun fields => ?_
        exact parseSdiNodes_eq nodes path fields
    · rw [if_neg hsdi, if_neg hsdi, List.nil_append]
      exact parseSdiNodes_eq nodes path fields

end

theorem parseDataObjectInstance_eq (doiNode : Node) :
    parseDataObjectInstance lib tree fields doiNode =
      (Access.ofDoiNode doiNode).foldlM (Access.step lib tree) fields := by
  rw [parseDataObjectInstance, Access.ofDoiNode, List.foldlM_cons]
  cases hchild : getChildByName tree (some []) (parseAttribute doiNode "name") with
  | error e =>
    rw [Access.step, Access.name, locate, List.foldl_nil, hchild]
    rfl
  | ok child =>
    rw [Access.step, Access.name, locate, List.foldl_nil, hchild]
    cases child with
    | none => rfl
    | some place =>
      have hlocate : some place = locate tree [parseAttribute doiNode "name"] :=
        getChildByName_ok hchild
      refine Eq.trans ?_ (parseSubDataInstances_eq doiNode [parseAttribute doiNode "name"] fields)
      rw [← hlocate]
      rfl

theorem parseDataObjectInstances_eq (lnNode : Node) :
    parseDataObjectInstances lib tree lnNode =
      (Access.ofLogicalNode lnNode).foldlM (Access.step lib tree) fun _ => ⟨none, none⟩ := by
  rw [parseDataObjectInstances, Access.ofLogicalNode]
  generalize (fun _ => ⟨none, none⟩ : Instance) = fields
  induction getChildNodesWithTag lnNode "DOI" generalizing fields with
  | nil => rfl
  | cons doiNode nodes ih =>
    rw [List.foldlM_cons, List.flatMap_cons, List.foldlM_append, parseDataObjectInstance_eq]
    exact bind_congr fun fields => ih fields

/-! ## What comes of the walk -/

theorem verdict_parseVal (a : DataAttribute) (daiNode : Node) :
    verdict (parseVal lib a daiNode) = Verdict.val lib a daiNode := by
  rw [parseVal, Verdict.val]
  cases getChildNodeWithTag daiNode "Val" with
  | none => rfl
  | some valNode => exact (verdict_map some).trans (verdict_value a valNode.textContent)

theorem verdict_castDataAttribute {f : AttributeReference → Java Instance} (daiNode : Node)
    (child : Option Place)
    (h : ∀ reference, verdict (f reference) = Verdict.val lib reference.dataAttribute daiNode) :
    verdict (castDataAttribute tree daiNode child >>= f) = Verdict.dai lib tree daiNode child := by
  cases child with
  | none => rfl
  | some place =>
    rw [castDataAttribute, Verdict.dai]
    cases dataAttributeAt tree place with
    | none => rfl
    | some a => exact h ⟨place, a⟩

theorem verdict_castDataObject (doiNode : Node) (child : Option Place) :
    verdict (castDataObject doiNode child >>= fun _ => pure fields) =
      if child.isSome then .accepted else .rejected := by
  cases child <;> rfl

theorem verdict_child {node : Option Place} {childName : Option String}
    {f : Option Place → Java Instance} {v : Verdict}
    (h : verdict (f (childPlace tree node childName)) = v) :
    verdict (getChildByName tree node childName >>= f) =
      if Navigable tree node then v else .faulty := by
  have hchild : ∀ child, getChildByName tree node childName = .ok child →
      verdict (f child) = Verdict.first [v] := by
    intro child hchild
    rw [getChildByName_ok hchild, h, first_singleton]
  rw [verdict_bind (verdict_getChildByName node childName) hchild]
  split
  · exact first_singleton v
  · rfl

theorem verdict_step (access : Access) :
    verdict (access.step lib tree fields) = Verdict.access lib tree access := by
  rcases access with ⟨kind, path, element⟩
  cases kind with
  | doi => exact verdict_child (verdict_castDataObject ..)
  | sdi => exact verdict_child rfl
  | dai =>
    refine verdict_child (verdict_castDataAttribute element _ fun reference => ?_)
    exact (verdict_bind_pure _).trans (verdict_parseVal reference.dataAttribute element)

theorem verdict_foldlM {α β : Type} {f : β → α → Java β} {g : α → Verdict}
    (h : ∀ b a, verdict (f b a) = g a) (as : List α) (b : β) :
    verdict (as.foldlM f b) = Verdict.first (as.map g) := by
  induction as generalizing b with
  | nil => rfl
  | cons a as ih =>
    rw [List.foldlM_cons, List.map_cons]
    exact verdict_bind (h b a) fun b' _ => ih b'

theorem verdict_parseDataObjectInstances (lnNode : Node) :
    verdict (parseDataObjectInstances lib tree lnNode) =
      Verdict.first ((Access.ofLogicalNode lnNode).map (Verdict.access lib tree)) := by
  rw [parseDataObjectInstances_eq]
  exact verdict_foldlM (fun _ access => verdict_step access) _ _

/-- A loop that writes leaves what is written last. -/
theorem foldlM_last_write {α β σ : Type} {f : σ → α → Java σ} (read : σ → Option β)
    {write : α → Option β}
    (h : ∀ s a s', f s a = .ok s' → read s' = (write a).or (read s)) {as : List α} {s s' : σ}
    (hrun : as.foldlM f s = .ok s') : read s' = ((as.filterMap write).getLast?).or (read s) := by
  induction as generalizing s with
  | nil =>
    cases hrun
    rfl
  | cons a as ih =>
    rw [List.foldlM_cons] at hrun
    obtain ⟨s₁, hs₁, hrun⟩ := bind_ok hrun
    rw [ih hrun, h s a s₁ hs₁]
    cases hwrite : write a with
    | none => rw [List.filterMap_cons_none hwrite, Option.none_or]
    | some b =>
      rw [List.filterMap_cons_some hwrite, List.getLast?_cons, Option.some_or]
      cases (as.filterMap write).getLast? <;> rfl

theorem castDataAttribute_ok {daiNode : Node} {child : Option Place}
    {reference : AttributeReference} (h : castDataAttribute tree daiNode child = .ok reference) :
    child = some reference.place ∧
      dataAttributeAt tree reference.place = some reference.dataAttribute := by
  cases child with
  | none => cases h
  | some place =>
    rw [castDataAttribute] at h
    cases ha : dataAttributeAt tree place with
    | none =>
      rw [ha] at h
      cases h
    | some a =>
      rw [ha] at h
      cases h
      exact ⟨rfl, ha⟩

theorem catchIllegalValue_ok {α : Type} {valNode : Node} {x : Java α} {a : α}
    (h : catchIllegalValue valNode x = .ok a) : x = .ok a := by
  cases x with
  | ok a' => exact h
  | error e => cases e <;> cases h

theorem parseVal_ok {a : DataAttribute} {daiNode : Node} {value : Option DataModelValue}
    (h : parseVal lib a daiNode = .ok value) :
    value = (getChildNodeWithTag daiNode "Val").bind fun valNode =>
      (DataModelValue.create lib a.type a.sclType valNode.textContent).toOption := by
  rw [parseVal] at h
  cases hval : getChildNodeWithTag daiNode "Val" with
  | none =>
    rw [hval] at h
    cases h
    rfl
  | some valNode =>
    simp only [hval] at h
    obtain ⟨v, hv, rfl⟩ := RoseTree.map_eq_ok h
    rw [Option.bind_some, catchIllegalValue_ok hv]
    rfl

/-- An element sets the fields of an attribute as it says, and it sets no others. -/
theorem step_ok {access : Access} {fields' : Instance}
    (h : access.step lib tree fields = .ok fields') (place : Place) :
    (fields' place).value = (access.valueAt lib tree place).or (fields place).value ∧
      (fields' place).shortAddress =
        (access.shortAddressAt tree place).or (fields place).shortAddress := by
  rcases access with ⟨kind, path, element⟩
  cases kind with
  | doi =>
    obtain ⟨child, _, h⟩ := bind_ok h
    obtain ⟨dataObject, _, h⟩ := bind_ok h
    cases h
    exact ⟨rfl, rfl⟩
  | sdi =>
    obtain ⟨child, _, h⟩ := bind_ok h
    cases h
    exact ⟨rfl, rfl⟩
  | dai =>
    obtain ⟨child, hchild, h⟩ := bind_ok h
    obtain ⟨reference, hreference, h⟩ := bind_ok h
    obtain ⟨value, hvalue, h⟩ := bind_ok h
    cases h
    obtain ⟨hplace, hattribute⟩ := castDataAttribute_ok hreference
    rw [getChildByName_ok hchild] at hplace
    by_cases heq : place = reference.place
    · subst heq
      have hat : Access.attributeAt tree reference.place ⟨.dai, path, element⟩ =
          some reference.dataAttribute := by
        rw [Access.attributeAt, if_pos ⟨rfl, hplace⟩, hattribute]
      rw [Access.valueAt, Access.shortAddressAt, hat, Instance.set, Function.update_self,
        Option.bind_some, Option.bind_some, parseVal_ok hvalue]
      exact ⟨rfl, rfl⟩
    · have hat : Access.attributeAt tree place ⟨.dai, path, element⟩ = none := by
        refine if_neg fun h => heq ?_
        exact Option.some.inj (h.2.symm.trans hplace)
      rw [Access.valueAt, Access.shortAddressAt, hat, Instance.set, Function.update_of_ne heq]
      exact ⟨rfl, rfl⟩

/-- The fields at each place are those of the last element that says something of it. -/
theorem parseDataObjectInstances_ok {lnNode : Node}
    (h : parseDataObjectInstances lib tree lnNode = .ok fields) (place : Place) :
    (fields place).value =
        ((Access.ofLogicalNode lnNode).filterMap (Access.valueAt lib tree place)).getLast? ∧
      (fields place).shortAddress =
        ((Access.ofLogicalNode lnNode).filterMap (Access.shortAddressAt tree place)).getLast? := by
  rw [parseDataObjectInstances_eq] at h
  constructor
  · refine (foldlM_last_write (fun fields : Instance => (fields place).value) ?_ h).trans
      Option.or_none
    exact fun _ _ _ hstep => (step_ok hstep place).1
  · refine (foldlM_last_write (fun fields : Instance => (fields place).shortAddress) ?_ h).trans
      Option.or_none
    exact fun _ _ _ hstep => (step_ok hstep place).2

end

end Iec61850.Scl
