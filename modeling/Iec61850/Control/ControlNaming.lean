import Iec61850.Client.ObjectReferences
import Iec61850.Control.ControlCreation

/-! The names of control objects: a read, a write and the functions of the server get from a name
to the control object (`control.c`, `ied_server.c`). -/

namespace Iec61850.Control

open Machine MmsMapping MmsVariableSpecification

/-- The names of a path with a character between them. -/
def joinNames (c : UInt8) : List (List UInt8) → List UInt8
  | [] => []
  | [name] => name
  | name :: second :: names => name ++ c :: joinNames c (second :: names)

/-- `LN$CO` and a path of data below it. -/
def controlItem (lnName : List UInt8) (path : List (List UInt8)) : List UInt8 :=
  lnName ++ separator :: (ascii "CO" ++ path.flatMap fun name => separator :: name)

/-- What of a control object is read. -/
inductive ControlValue
  | mmsValue | oper | sBOw | sbo | cancel
  | subElement (varName : List UInt8)
  deriving DecidableEq

def ControlValue.ofName (varName : List UInt8) : ControlValue :=
  if varName = ascii "Oper" then .oper
  else if varName = ascii "SBOw" then .sBOw
  else if varName = ascii "SBO" then .sbo
  else if varName = ascii "Cancel" then .cancel
  else .subElement varName

/-- The names of a read: without the name of an element it is one of the whole object. -/
def readNames (variableIdOrig : List UInt8) :
    Option (List UInt8 × List UInt8 × Option (List UInt8)) := do
  let variableId := variableIdOrig.take 128
  let objectName ← getNextNameElement (← behindSeparator variableId)
  match splitVarName [] objectName with
  | none => return (firstName variableId, objectName, none)
  | some (objectName, varName) => return (firstName variableId, objectName, some varName)

/-- The object that is found for a read, and what of it is read. -/
def controlRead (controls : List ControlEntry) (domain : Nat) (variableId : List UInt8) :
    Option (Nat × ControlValue) := do
  let (lnName, objectName, varName) ← readNames variableId
  let index ← lookupControlObject controls domain lnName objectName
  return (index, varName.elim .mmsValue .ofName)

/-- `Control_readAccessControlObject`: only a read of `SBO` does something with the object. -/
def readAccessControlObject (controls : List ControlEntry) (inputs : ControlInputs)
    (domain : Nat) (variableId : List UInt8) (connection : Connection) :
    Exec (List ControlEntry × Option (Nat × ControlValue)) :=
  match controlRead controls domain variableId with
  | none => .ok (controls, none)
  | some (index, value) =>
    match controls[index]? with
    | none => .error .outOfBounds
    | some entry =>
      if value = .sbo then do
        let history ← entry.history.perform (.readSBO connection inputs.currentTime inputs.result)
        return (controls.set index { entry with history := history }, some (index, value))
      else .ok (controls, some (index, value))

/-- The object that is found for a write, and the name of the element. -/
def controlWritten (controls : List ControlEntry) (domain : Nat) (variableId : List UInt8) :
    Option (Nat × List UInt8) := do
  let (lnName, objectName, varName) ← controlNames variableId
  let index ← lookupControlObject controls domain lnName objectName
  return (index, varName)

section Names

variable {path : List (List UInt8)} {names : List (List UInt8)} {first element : List UInt8}

/-- The characters that stand between names are in none of them. -/
def PlainName (name : List UInt8) : Prop := separator ∉ name ∧ 46 ∉ name ∧ 47 ∉ name

instance (name : List UInt8) : Decidable (PlainName name) :=
  inferInstanceAs (Decidable (separator ∉ name ∧ 46 ∉ name ∧ 47 ∉ name))

variable {lnName : List UInt8}

variable {domainNames : List (List UInt8)} {controls : List ControlEntry} {ldName : List UInt8}
  {domain : Nat}

end Names

section Accesses

variable {controls controls' : List ControlEntry} {inputs : ControlInputs} {domain : Nat}
  {variableId : List UInt8} {connection : Connection}

/-- A read changes no other control object, and moves none. -/
theorem readAccessControlObject_others {read : Option (Nat × ControlValue)}
    (h : readAccessControlObject controls inputs domain variableId connection =
      .ok (controls', read)) :
    read = controlRead controls domain variableId ∧
      controls'.map ControlEntry.place = controls.map ControlEntry.place ∧
      ∀ j, (∀ index value, read = some (index, value) → index ≠ j) →
        controls'[j]? = controls[j]? := by
  rw [readAccessControlObject] at h
  cases hread : controlRead controls domain variableId with
  | none =>
    rw [hread] at h
    cases h
    exact ⟨rfl, rfl, fun _ _ => rfl⟩
  | some found =>
    obtain ⟨index, value⟩ := found
    rw [hread] at h
    dsimp only at h
    cases hentry : controls[index]? with
    | none =>
      rw [hentry] at h
      cases h
    | some entry =>
      rw [hentry] at h
      dsimp only at h
      split at h
      · obtain ⟨history, -, h⟩ := bind_ok h
        cases h
        refine ⟨rfl, ?_, fun j hne => List.getElem?_set_ne (hne index value rfl)⟩
        have hplace : (controls.map ControlEntry.place)[index]? = some entry.place := by
          rw [List.getElem?_map, hentry, Option.map_some]
        obtain ⟨hlt, hsame⟩ := List.getElem?_eq_some_iff.mp hplace
        rw [List.map_set]
        exact (congrArg (List.set _ index) hsame.symm).trans (List.set_getElem_self hlt)
      · cases h
        exact ⟨rfl, rfl, fun _ _ => rfl⟩

/-- What is asked of an object when it is written comes after its names. -/
theorem controlRequest_eq (invokeId : UInt32) (value : MmsValue) :
    controlRequest controls inputs invokeId domain variableId value connection =
      (controlWritten controls domain variableId).bind fun written =>
        (elementWrite written.2 ⟨connection, value, inputs.rawTest, inputs.rawCheck,
          inputs.rawOperTm⟩ inputs invokeId).map fun e => (written.1, e) := by
  rw [controlRequest, controlWritten]
  cases controlNames variableId with
  | none => rfl
  | some names =>
    obtain ⟨lnName, objectName, varName⟩ := names
    simp only [Option.bind_eq_bind, Option.bind_some]
    cases lookupControlObject controls domain lnName objectName with
    | none => rfl
    | some index =>
      simp only [Option.bind_some, Option.pure_def]
      cases elementWrite varName _ inputs invokeId <;> rfl

end Accesses

/-- The nodes have this one at the path. -/
inductive NodeAt : List ModelNode → List (List UInt8) → ModelNode → Prop
  | here {node : ModelNode} {nodes : List ModelNode} :
    node ∈ nodes → NodeAt nodes [node.name] node
  | inside {node c : ModelNode} {nodes : List ModelNode} {path : List (List UInt8)} :
    node ∈ nodes → NodeAt node.children path c → NodeAt nodes (node.name :: path) c

/-- A data object that has an `Oper` element. -/
def HasOper (node : ModelNode) : Prop :=
  ∃ name elementCount children oper, node = .dataObject name elementCount children ∧
    .dataAttribute oper ∈ children ∧ oper.fc = .co ∧ oper.name = ascii "Oper"

/-- There is a data object with an `Oper` element at this path in the logical node. -/
def OperAt (ln : LogicalNode) (path : List (List UInt8)) : Prop :=
  ∃ node, NodeAt (ln.dataObjects.map DataObject.node) path node ∧ HasOper node

/-- A model with names that differ, are plain and keep to the limit, whose `CO` data form control
objects. -/
structure ControlModel (model : IedModel) : Prop where
  devices : model.logicalDevices ≠ []
  distinctDevices : (model.logicalDevices.map LogicalDevice.name).Nodup
  distinctNodes : ∀ ld ∈ model.logicalDevices, (ld.logicalNodes.map LogicalNode.name).Nodup
  distinctObjects : ∀ ld ∈ model.logicalDevices, ∀ ln ∈ ld.logicalNodes,
    (ln.dataObjects.map DataObject.name).Nodup
  plainDevices : ∀ ld ∈ model.logicalDevices, PlainName ld.name ∧ ld.name.length ≤ 64
  plainNodes : ∀ ld ∈ model.logicalDevices, ∀ ln ∈ ld.logicalNodes, PlainName ln.name
  plainObjects : ∀ ld ∈ model.logicalDevices, ∀ ln ∈ ld.logicalNodes, ∀ o ∈ ln.dataObjects,
    PlainName o.name
  limit : ∀ ld ∈ model.logicalDevices, ∀ ln ∈ ld.logicalNodes, ∀ path,
    DataAt .co (ln.dataObjects.map DataObject.node) path → (controlItem ln.name path).length ≤ 64
  forms : ∀ ld ∈ model.logicalDevices, ∀ ln ∈ ld.logicalNodes, ∀ o ∈ ln.dataObjects,
    o.node.Contains .co → FormsControls o.node

section Unnested

variable {model : IedModel} {ln : LogicalNode} {nodes : List ModelNode}
  {path : List (List UInt8)} {node : ModelNode}

/-- A path to an `Oper` element begins with a data object with `CO` data. -/
theorem NodeAt.exists_object (h : NodeAt nodes path node) (hoper : HasOper node) :
    ∃ o ∈ nodes, o.Contains .co ∧ ¬ ∃ da, o = .dataAttribute da := by
  induction h with
  | here hnode =>
    obtain ⟨name, elementCount, children, oper, rfl, hmem, hfc, -⟩ := hoper
    refine ⟨_, hnode, .dataObject hmem (.dataAttribute hfc), ?_⟩
    intro ⟨da, hda⟩
    cases hda
  | @inside outer c nodes path hnode _ ih =>
    obtain ⟨o, ho, hcontains, hobject⟩ := ih hoper
    cases outer with
    | dataAttribute da =>
      obtain ⟨a, -, rfl⟩ := List.mem_map.mp ho
      exact absurd ⟨a, rfl⟩ hobject
    | dataObject name elementCount children =>
      refine ⟨_, hnode, .dataObject ho hcontains, ?_⟩
      intro ⟨da, hda⟩
      cases hda

/-- Where no data object with `CO` data is inside of another one, the paths are single names. -/
theorem operAt_iff (hforms : ∀ o ∈ ln.dataObjects, o.node.Contains .co → FormsControls o.node)
    (hun : ∀ o ∈ ln.dataObjects, Unnested o.node) :
    OperAt ln path ↔ ∃ o ∈ ln.dataObjects, o.node.Contains .co ∧ path = [o.name] := by
  constructor
  · intro ⟨node, hat, hoper⟩
    cases hat with
    | here hnode =>
      obtain ⟨o, ho, rfl⟩ := List.mem_map.mp hnode
      obtain ⟨name, elementCount, children, oper, heq, hmem, hfc, -⟩ := hoper
      refine ⟨o, ho, ?_, rfl⟩
      rw [heq]
      exact .dataObject hmem (.dataAttribute hfc)
    | inside hnode hinside =>
      obtain ⟨o, ho, rfl⟩ := List.mem_map.mp hnode
      obtain ⟨c, hc, hcontains, hobject⟩ := hinside.exists_object hoper
      exact absurd (hun o ho c hc hcontains) hobject
  · rintro ⟨o, ho, hcontains, rfl⟩
    refine ⟨o.node, .here (List.mem_map_of_mem ho), ?_⟩
    have hform := hforms o ho hcontains
    cases hform with
    | dataObject _ hoper =>
      cases hcontains with
      | dataObject hc hco =>
        obtain ⟨da, rfl⟩ := hun o ho _ hc hco
        cases hco with
        | dataAttribute hfc =>
          obtain ⟨oper, hmem, hfc, hname⟩ := hoper da hc hfc
          exact ⟨o.name, o.elementCount, o.children, oper, rfl, hmem, hfc, hname⟩

/-- The data of `Oper` has a name in the model, that is not too long. -/
theorem ControlModel.length_le (hmodel : ControlModel model) {ld : LogicalDevice}
    (hld : ld ∈ model.logicalDevices) (hln : ln ∈ ld.logicalNodes)
    (hun : ∀ o ∈ ln.dataObjects, Unnested o.node) {o : DataObject} (ho : o ∈ ln.dataObjects)
    (hcontains : o.node.Contains .co) : ln.name.length + o.name.length ≤ 56 := by
  have hoper := (operAt_iff (hmodel.forms ld hld ln hln) hun).mpr ⟨o, ho, hcontains, rfl⟩
  have hform := hmodel.forms ld hld ln hln o ho hcontains
  cases hform with
  | dataObject _ hoper =>
    cases hcontains with
    | dataObject hc hco =>
      obtain ⟨da, rfl⟩ := hun o ho _ hc hco
      cases hco with
      | dataAttribute hfc =>
        obtain ⟨oper, hmem, hfc, hname⟩ := hoper da hc hfc
        have hpath : DataAt .co (ln.dataObjects.map DataObject.node) [o.name, oper.name] :=
          .through (List.mem_map_of_mem ho) (.here hmem (.dataAttribute hfc))
        have hlen := hmodel.limit ld hld ln hln _ hpath
        have hco : (ascii "CO").length = 2 := rfl
        have hoperName : (ascii "Oper").length = 4 := rfl
        simp [controlItem, hname, hco, hoperName] at hlen
        omega

end Unnested

end Iec61850.Control
