import Iec61850.Model.Mapping

/-! The types of logical nodes: a component for each constraint that the node has data of, and for
each kind of control block it has. -/

namespace Iec61850

open Machine

namespace MmsMapping

section ControlBlocks

variable {α : Type} {belongs : α → Bool} {createBlock : α → Specification}

theorem getBlockWithIndex_eq (belongs : α → Bool) (blocks : List α) (count i : Nat) :
    getBlockWithIndex belongs (count + i) blocks count = (blocks.filter belongs)[i]? := by
  induction blocks generalizing count i with
  | nil => rfl
  | cons block blocks ih =>
    rw [getBlockWithIndex]
    cases hb : belongs block with
    | false =>
      rw [List.filter_cons_of_neg (by simp [hb])]
      exact ih count i
    | true =>
      rw [List.filter_cons_of_pos hb, if_pos rfl]
      cases i with
      | zero => rw [if_pos (Nat.add_zero count).symm, List.getElem?_cons_zero]
      | succ i =>
        have hne : count ≠ count + (i + 1) := by omega
        rw [if_neg hne, List.getElem?_cons_succ, ← ih (count + 1) i]
        congr 1
        omega

/-- Every block that belongs to the node has its type, and in the order of the blocks. -/
theorem createControlBlocks_eq (name : List UInt8) (blocks : List α) :
    createControlBlocks name belongs createBlock blocks (blocks.countP belongs) =
      .ok (.structured (some name) (blocks.countP belongs)
        ((blocks.filter belongs).map createBlock)) := by
  have hmake : ∀ i ∈ List.range (blocks.countP belongs),
      ∃ v, (getBlockWithIndex belongs i blocks 0).elim (.error .nullPointer)
          (fun block => (.ok (createBlock block) : Exec Specification)) = .ok v ∧
        ((blocks.filter belongs).map createBlock)[i]? = some v := by
    intro i hi
    have hlt := List.mem_range.mp hi
    rw [List.countP_eq_length_filter] at hlt
    have hblock := getBlockWithIndex_eq belongs blocks 0 i
    rw [Nat.zero_add, List.getElem?_eq_getElem hlt] at hblock
    refine ⟨createBlock (blocks.filter belongs)[i], ?_, ?_⟩
    · rw [hblock]
      rfl
    · rw [List.getElem?_map, List.getElem?_eq_getElem hlt]
      rfl
  obtain ⟨elements, hfill, hlen, hall⟩ := fillPresent_all .null hmake List.length_range.symm
  have heq : elements = (blocks.filter belongs).map createBlock := by
    apply List.ext_getElem?
    intro i
    by_cases hi : i < elements.length
    · have hget := (List.forall₂_iff_get.mp hall).2 i (by simpa [hlen] using hi) hi
      rw [List.get_eq_getElem, List.get_eq_getElem, List.getElem_range] at hget
      rw [hget, List.getElem?_eq_getElem hi]
    · rw [List.getElem?_eq_none (Nat.le_of_not_lt hi), List.getElem?_eq_none]
      rw [List.length_map, ← List.countP_eq_length_filter, hlen]
      exact Nat.le_of_not_lt hi
  refine (bind_eq_of_ok hfill _).trans ?_
  rw [heq]
  rfl

end ControlBlocks

deriving instance DecidableEq for ComponentKind

/-- There is something for the component: data of the constraint, or a control block. -/
def Present (model : IedModel) (parent : Nat × Nat) (ln : LogicalNode) : ComponentKind → Prop
  | .constraint fc => ∃ o ∈ ln.dataObjects, o.node.Contains fc
  | .rcbs buffered => ∃ rcb ∈ model.rcbs, rcb.parent = parent ∧ rcb.buffered = buffered
  | .gseCBs => ∃ gcb ∈ model.gseCBs, gcb.parent = parent

/-- The component has the types of these data objects or control blocks, in their order. -/
inductive ComponentImage (model : IedModel) (parent : Nat × Nat) (ln : LogicalNode) :
    ComponentKind → Specification → Prop
  | constraint {fc : FunctionalConstraint} {elements : List Specification} :
    List.Forall₂ (Images fc)
      ((ln.dataObjects.map DataObject.node).filter (ModelNode.hasFCData fc)) elements →
    ComponentImage model parent ln (.constraint fc)
      (.structured fc.toString elements.length elements)
  | rcbs {buffered : Bool} :
    ComponentImage model parent ln (.rcbs buffered)
      (.structured (ComponentKind.rcbs buffered).name
        (countReportControlBlocksForLogicalNode model parent buffered)
        ((model.rcbs.filter fun rcb => rcb.parent = parent ∧ rcb.buffered = buffered).map
          (if buffered then createBufferedReportControlBlock
            else createUnbufferedReportControlBlock)))
  | gseCBs :
    ComponentImage model parent ln .gseCBs
      (.structured ComponentKind.gseCBs.name (countGSEControlBlocksForLogicalNode model parent)
        ((model.gseCBs.filter fun gcb => gcb.parent = parent).map createMmsGooseControlBlock))

section LogicalNode

variable {model : IedModel} {parent : Nat × Nat} {ln : LogicalNode} {kind : ComponentKind}
  {v : Specification}

theorem hasComponent_iff : hasComponent model parent ln kind = true ↔
    Present model parent ln kind := by
  cases kind with
  | constraint fc =>
    rw [hasComponent, LogicalNode.hasFCData, List.any_eq_true, Present]
    refine exists_congr fun o => and_congr_right fun _ => ?_
    rw [DataObject.hasFCData_node, ModelNode.hasFCData_iff]
  | rcbs buffered =>
    rw [hasComponent, decide_eq_true_iff, countReportControlBlocksForLogicalNode,
      List.countP_pos_iff, Present]
    refine exists_congr fun rcb => and_congr_right fun _ => ?_
    rw [decide_eq_true_iff]
  | gseCBs =>
    rw [hasComponent, decide_eq_true_iff, countGSEControlBlocksForLogicalNode,
      List.countP_pos_iff, Present]
    refine exists_congr fun gcb => and_congr_right fun _ => ?_
    rw [decide_eq_true_iff]

theorem createComponent_image (model : IedModel) (parent : Nat × Nat) (ln : LogicalNode)
    (kind : ComponentKind) :
    ∃ v, createComponent model parent ln kind = .ok v ∧
      ComponentImage model parent ln kind v := by
  cases kind with
  | constraint fc =>
    obtain ⟨elements, hcreate, hall⟩ := createFCNamedVariable_images ln fc
    refine ⟨_, hcreate, .constraint ?_⟩
    rw [List.filter_map]
    exact List.forall₂_map_left_iff.mpr hall
  | rcbs buffered =>
    cases buffered with
    | false => exact ⟨_, createControlBlocks_eq _ _, .rcbs⟩
    | true => exact ⟨_, createControlBlocks_eq _ _, .rcbs⟩
  | gseCBs => exact ⟨_, createControlBlocks_eq _ _, .gseCBs⟩

theorem order_perm : ComponentKind.order.Perm
    (FunctionalConstraint.named.map .constraint ++ [.rcbs true, .rcbs false, .gseCBs]) := by
  decide

/-- The slots that are allocated are as many as those that are filled. -/
theorem componentCount_eq :
    determineLogicalNodeComponentCount ln
      + (if 0 < countReportControlBlocksForLogicalNode model parent true then 1 else 0)
      + (if 0 < countReportControlBlocksForLogicalNode model parent false then 1 else 0)
      + (if 0 < countGSEControlBlocksForLogicalNode model parent then 1 else 0) =
    ComponentKind.order.countP (hasComponent model parent ln) := by
  rw [order_perm.countP_eq, List.countP_append, List.countP_map, List.countP_cons,
    List.countP_cons, List.countP_cons, List.countP_nil]
  simp only [hasComponent, decide_eq_true_eq]
  rw [determineLogicalNodeComponentCount]
  have hcount : List.countP ln.hasFCData FunctionalConstraint.named =
      List.countP (hasComponent model parent ln ∘ ComponentKind.constraint)
        FunctionalConstraint.named := rfl
  omega

theorem ComponentImage.name_eq (h : ComponentImage model parent ln kind v) :
    v.name = kind.name := by
  cases h <;> rfl

theorem ComponentKind.mem_order {name : List UInt8} (h : kind.name = some name) :
    kind ∈ ComponentKind.order := by
  cases kind with
  | constraint fc =>
    have hall : ∀ fc ∈ FunctionalConstraint.named,
        ComponentKind.constraint fc ∈ ComponentKind.order := by decide
    exact hall fc (FunctionalConstraint.mem_named h)
  | rcbs buffered =>
    cases buffered <;> decide
  | gseCBs => decide

theorem ComponentKind.eq_of_name {kind' : ComponentKind} {name : List UInt8}
    (h : kind.name = some name) (h' : kind'.name = some name) : kind = kind' := by
  have hall : ∀ kind ∈ ComponentKind.order, ∀ kind' ∈ ComponentKind.order,
      kind.name = kind'.name → kind = kind' := by decide
  exact hall kind (mem_order h) kind' (mem_order h') (h.trans h'.symm)

theorem nodup_order_names : (ComponentKind.order.map ComponentKind.name).Nodup := by decide

/-- The type of a logical node has one component for each thing that is present, no other, and
all its slots are filled; its names below a constraint are those of the data, and of the
components of addresses. -/
structure Maps (model : IedModel) (parent : Nat × Nat) (ln : LogicalNode) (v : Specification) :
    Prop where
  name_eq : v.name = some ln.name
  complete : ln.Mapped → v.Complete
  distinct : (v.components.map Specification.name).Nodup
  only : ∀ e ∈ v.components, ∃ kind,
    Present model parent ln kind ∧ ComponentImage model parent ln kind e
  every : ∀ kind name, kind.name = some name → Present model parent ln kind →
    ∃ e ∈ v.components, ComponentImage model parent ln kind e
  hasName : ∀ fc name path, fc.toString = some name →
    (v.HasName (name :: path) ↔
      path = [] ∧ Present model parent ln (.constraint fc) ∨
        DataAt fc (ln.dataObjects.map DataObject.node) path ∨
        PhyComAddrAt fc (ln.dataObjects.map DataObject.node) path)

theorem ComponentImage.complete (hm : ln.Mapped) (h : ComponentImage model parent ln kind v) :
    v.Complete := by
  cases h with
  | constraint hall =>
    refine .structured rfl (forall_mem_of_forall₂ hall ?_)
    intro node hnode e he
    obtain ⟨o, ho, rfl⟩ := List.mem_map.mp (List.mem_of_mem_filter hnode)
    exact he.complete (hm o ho)
  | rcbs =>
    refine .structured ?_ ?_
    · rw [List.length_map, countReportControlBlocksForLogicalNode, List.countP_eq_length_filter]
    · intro e he
      obtain ⟨rcb, -, rfl⟩ := List.mem_map.mp he
      split <;> exact .structured rfl (complete_primitiveNamed _)
  | gseCBs =>
    refine .structured ?_ ?_
    · rw [List.length_map, countGSEControlBlocksForLogicalNode, List.countP_eq_length_filter]
    · intro e he
      obtain ⟨gcb, -, rfl⟩ := List.mem_map.mp he
      refine .structured rfl ?_
      intro e he
      rcases List.mem_append.mp he with he | he
      · exact complete_primitiveNamed _ e he
      · rcases List.mem_cons.mp he with rfl | he
        · exact complete_createPhyComAddrStructure _
        · exact complete_primitiveNamed _ e he

/-- Below a constraint that there is data of are the names of that data. -/
theorem ComponentImage.hasName_iff {fc : FunctionalConstraint} {path : List (List UInt8)}
    (hu : ∀ o ∈ ln.dataObjects, o.node.Uniform)
    (h : ComponentImage model parent ln (.constraint fc) v) :
    v.HasName path ↔ path = [] ∨
      DataAt fc (ln.dataObjects.map DataObject.node) path ∨
      PhyComAddrAt fc (ln.dataObjects.map DataObject.node) path := by
  have huniform : ∀ node ∈ ln.dataObjects.map DataObject.node, node.Uniform := by
    intro node hnode
    obtain ⟨o, ho, rfl⟩ := List.mem_map.mp hnode
    exact hu o ho
  cases h with
  | constraint hall =>
    cases path with
    | nil => exact iff_of_true (hasName_nil _) (.inl rfl)
    | cons first names =>
      rw [hasName_structured, namesIn_iff huniform hall]
      exact (or_iff_right (List.cons_ne_nil first names)).symm

theorem present_of_dataAt {fc : FunctionalConstraint} {path : List (List UInt8)}
    (hu : ∀ o ∈ ln.dataObjects, o.node.Uniform)
    (h : DataAt fc (ln.dataObjects.map DataObject.node) path ∨
      PhyComAddrAt fc (ln.dataObjects.map DataObject.node) path) :
    Present model parent ln (.constraint fc) := by
  have huniform : ∀ node ∈ ln.dataObjects.map DataObject.node, node.Uniform := by
    intro node hnode
    obtain ⟨o, ho, rfl⟩ := List.mem_map.mp hnode
    exact hu o ho
  have hex : ∃ node ∈ ln.dataObjects.map DataObject.node, node.Contains fc :=
    h.elim (·.exists_contains huniform) (·.exists_contains huniform)
  obtain ⟨node, hnode, hcontains⟩ := hex
  obtain ⟨o, ho, rfl⟩ := List.mem_map.mp hnode
  exact ⟨o, ho, hcontains⟩

/-- A component is made for all that is present, in the order in which they are filled in. -/
theorem createNamedVariableFromLogicalNode_components (model : IedModel) (parent : Nat × Nat)
    (ln : LogicalNode) :
    ∃ elements, createNamedVariableFromLogicalNode model parent ln =
        .ok (.structured (some ln.name) elements.length elements) ∧
      List.Forall₂ (ComponentImage model parent ln)
        (ComponentKind.order.filter (hasComponent model parent ln)) elements := by
  obtain ⟨elements, hfill, -, hall⟩ := fillPresent_replicate .null
    (fun kind (_ : kind ∈ ComponentKind.order) _ =>
      createComponent_image model parent ln kind)
    componentCount_eq
  exact ⟨elements, bind_eq_of_ok hfill _, hall⟩

theorem createNamedVariableFromLogicalNode_maps (hu : ∀ o ∈ ln.dataObjects, o.node.Uniform) :
    ∃ v, createNamedVariableFromLogicalNode model parent ln = .ok v ∧
      Maps model parent ln v := by
  obtain ⟨elements, hcreate, hall⟩ :=
    createNamedVariableFromLogicalNode_components model parent ln
  refine ⟨.structured (some ln.name) elements.length elements, hcreate, ?_⟩
  have hnames : elements.map Specification.name =
      (ComponentKind.order.filter (hasComponent model parent ln)).map ComponentKind.name := by
    rw [← List.forall₂_eq_eq_eq, List.forall₂_map_left_iff, List.forall₂_map_right_iff]
    exact hall.flip.imp fun _ _ himage => himage.name_eq
  have hevery : ∀ kind name, kind.name = some name → Present model parent ln kind →
      ∃ e ∈ elements, ComponentImage model parent ln kind e := by
    intro kind name hname hpresent
    have hmem := List.mem_filter.mpr ⟨ComponentKind.mem_order hname, hasComponent_iff.mpr hpresent⟩
    exact exists_right_of_forall₂ hall hmem
  have honly : ∀ e ∈ elements, ∃ kind,
      Present model parent ln kind ∧ ComponentImage model parent ln kind e := by
    intro e he
    obtain ⟨kind, hkind, himage⟩ := exists_left_of_forall₂ hall he
    exact ⟨kind, hasComponent_iff.mp (List.mem_filter.mp hkind).2, himage⟩
  refine ⟨rfl, ?_, ?_, honly, hevery, ?_⟩
  · intro hm
    exact .structured rfl (forall_mem_of_forall₂ hall fun kind _ e he => he.complete hm)
  · rw [Specification.components, hnames]
    exact nodup_order_names.sublist (List.filter_sublist.map _)
  · intro fc name path hname
    rw [hasName_structured]
    constructor
    · intro ⟨e, he, hfirst, hrest⟩
      obtain ⟨kind, hpresent, himage⟩ := honly e he
      have hkind : (ComponentKind.constraint fc).name = some name := hname
      obtain rfl := ComponentKind.eq_of_name hkind (himage.name_eq.symm.trans hfirst)
      exact ((himage.hasName_iff hu).mp hrest).imp_left fun hnil => ⟨hnil, hpresent⟩
    · intro h
      have hpresent : Present model parent ln (.constraint fc) :=
        h.elim And.right (present_of_dataAt hu)
      obtain ⟨e, he, himage⟩ := hevery (.constraint fc) name hname hpresent
      exact ⟨e, he, himage.name_eq.trans hname, (himage.hasName_iff hu).mpr (h.imp_left And.left)⟩

end LogicalNode

/-- The domain of a logical device has the types of its logical nodes, in their order. -/
structure DomainMaps (model : IedModel) (index : Nat) (ld : LogicalDevice) (domain : DomainTypes) :
    Prop where
  domainName_eq : domain.domainName = ld.name
  namedVariables : List.Forall₂ (fun node v => Maps model (index, node.2) node.1 v)
    ld.logicalNodes.zipIdx domain.namedVariables

/-- A domain has what is made of each logical node. -/
theorem createMmsDomainFromIedDevice_ok {model : IedModel} {index : Nat} {ld : LogicalDevice}
    {R : LogicalNode × Nat → Specification → Prop}
    (hmake : ∀ node ∈ ld.logicalNodes.zipIdx,
      ∃ v, createNamedVariableFromLogicalNode model (index, node.2) node.1 = .ok v ∧ R node v) :
    ∃ domain, createMmsDomainFromIedDevice model index ld = .ok domain ∧
      domain.domainName = ld.name ∧
      List.Forall₂ R ld.logicalNodes.zipIdx domain.namedVariables := by
  obtain ⟨elements, hfill, -, hall⟩ := fillPresent_all .null hmake List.length_zipIdx.symm
  exact ⟨_, bind_eq_of_ok hfill _, rfl, hall⟩

theorem createMmsDomainFromIedDevice_maps {model : IedModel} (index : Nat) {ld : LogicalDevice}
    (hu : ∀ ln ∈ ld.logicalNodes, ∀ o ∈ ln.dataObjects, o.node.Uniform) :
    ∃ domain, createMmsDomainFromIedDevice model index ld = .ok domain ∧
      DomainMaps model index ld domain := by
  have hmake : ∀ node ∈ ld.logicalNodes.zipIdx,
      ∃ v, createNamedVariableFromLogicalNode model (index, node.2) node.1 = .ok v ∧
        Maps model (index, node.2) node.1 v := by
    intro node hnode
    obtain ⟨ln, j⟩ := node
    exact createNamedVariableFromLogicalNode_maps (hu ln (List.fst_mem_of_mem_zipIdx hnode))
  obtain ⟨domain, hcreate, hname, hall⟩ := createMmsDomainFromIedDevice_ok hmake
  exact ⟨domain, hcreate, hname, hall⟩

/-- The device has what is made of each logical device. -/
theorem createMmsDataModel_ok {model : IedModel} {R : LogicalDevice × Nat → DomainTypes → Prop}
    (hmake : ∀ ld ∈ model.logicalDevices.zipIdx,
      ∃ domain, createMmsDomainFromIedDevice model ld.2 ld.1 = .ok domain ∧ R ld domain) :
    ∃ domains, createMmsDataModel model = .ok domains ∧
      List.Forall₂ R model.logicalDevices.zipIdx domains := by
  obtain ⟨domains, hfill, -, hall⟩ := fillPresent_all ⟨[], []⟩ hmake List.length_zipIdx.symm
  exact ⟨domains, bind_eq_of_ok hfill _, hall⟩

/-- The types of the whole model are its image. -/
theorem createMmsModelFromIedModel_maps {model : IedModel} (hu : model.Uniform) :
    ∃ device, createMmsModelFromIedModel model = .ok device ∧
      (device = none ↔ model.logicalDevices = []) ∧
      List.Forall₂ (fun ld domain => DomainMaps model ld.2 ld.1 domain)
        model.logicalDevices.zipIdx (device.getD []) := by
  have hmake : ∀ ld ∈ model.logicalDevices.zipIdx,
      ∃ domain, createMmsDomainFromIedDevice model ld.2 ld.1 = .ok domain ∧
        DomainMaps model ld.2 ld.1 domain := by
    intro device hdevice
    obtain ⟨ld, i⟩ := device
    exact createMmsDomainFromIedDevice_maps i (hu ld (List.fst_mem_of_mem_zipIdx hdevice))
  obtain ⟨domains, hmodel, hall⟩ := createMmsDataModel_ok hmake
  rw [createMmsModelFromIedModel]
  cases hdevices : model.logicalDevices with
  | nil => exact ⟨none, rfl, iff_of_true rfl rfl, .nil⟩
  | cons ld lds =>
    rw [hdevices] at hall
    exact ⟨some domains, bind_eq_of_ok hmodel _,
      iff_of_false (Option.some_ne_none domains) (List.cons_ne_nil ld lds), hall⟩

/-- An address, and an attribute that has no sub-attributes though its type says it has. -/
def sampleNode : LogicalNode :=
  ⟨ascii "L", [⟨ascii "O", 0,
    [.dataAttribute ⟨ascii "a", 0, .st, .phyComAddr, none, []⟩,
      .dataAttribute ⟨ascii "c", 0, .st, .constructed, none, []⟩]⟩]⟩

def sampleModel : IedModel := ⟨ascii "M", [⟨ascii "D", [sampleNode]⟩], [], []⟩

theorem uniform_sampleModel : sampleModel.Uniform := by
  intro ld hld ln hln o ho
  obtain rfl := List.mem_singleton.mp hld
  obtain rfl := List.mem_singleton.mp hln
  obtain rfl := List.mem_singleton.mp ho
  apply ModelNode.Uniform.dataObject
  intro c hc
  rcases List.mem_cons.mp hc with rfl | hc
  · exact .dataAttribute (.intro (List.forall_mem_nil _) (List.forall_mem_nil _))
  · obtain rfl := List.mem_singleton.mp hc
    exact .dataAttribute (.intro (List.forall_mem_nil _) (List.forall_mem_nil _))

/-- The type of the node: the address has components, and the array has no type of elements. -/
def sampleTypes : Specification :=
  .structured (some (ascii "L")) 1 [.structured (some (ascii "ST")) 1
    [.structured (some (ascii "O")) 2
      [createPhyComAddrStructure (some (ascii "a")), .array (some (ascii "c")) 0 .null]]]

theorem createMmsModelFromIedModel_sample :
    sampleModel.Uniform ∧ ∃ device, createMmsModelFromIedModel sampleModel = .ok device ∧
      (device = none ↔ sampleModel.logicalDevices = []) ∧
      List.Forall₂ (fun ld domain => DomainMaps sampleModel ld.2 ld.1 domain)
        sampleModel.logicalDevices.zipIdx (device.getD []) :=
  ⟨uniform_sampleModel, createMmsModelFromIedModel_maps uniform_sampleModel⟩

theorem not_complete_sampleTypes : ¬ sampleTypes.Complete := by
  intro h
  cases h with
  | structured _ h =>
    have hst := h _ List.mem_cons_self
    cases hst with
    | structured _ h =>
      have ho := h _ List.mem_cons_self
      cases ho with
      | structured _ h =>
        have hc := h _ (List.mem_cons_of_mem _ List.mem_cons_self)
        cases hc with
        | array hnull => cases hnull

/-- The model has nothing at the name of a component of the address, and a slot is unfilled. -/
theorem not_maps_sample :
    sampleModel.Uniform ∧
      createMmsModelFromIedModel sampleModel = .ok (some [⟨ascii "D", [sampleTypes]⟩]) ∧
      sampleTypes.HasName [ascii "ST", ascii "O", ascii "a", ascii "VID"] ∧
      ¬ DataAt .st (sampleNode.dataObjects.map DataObject.node)
        [ascii "O", ascii "a", ascii "VID"] ∧
      ¬ sampleTypes.Complete := by
  refine ⟨uniform_sampleModel, rfl, ?_, ?_, not_complete_sampleTypes⟩
  · refine hasName_structured.mpr ⟨_, List.mem_cons_self, rfl, ?_⟩
    refine hasName_structured.mpr ⟨_, List.mem_cons_self, rfl, ?_⟩
    refine hasName_structured.mpr ⟨_, List.mem_cons_self, rfl, ?_⟩
    exact hasName_createPhyComAddrStructure.mpr ⟨rfl, by decide⟩
  · intro h
    obtain ⟨o, ho, -, ⟨hnil, -⟩ | hpath⟩ := dataAt_cons_iff.mp h
    · cases hnil
    · obtain rfl := List.mem_singleton.mp ho
      obtain ⟨da, hda, hname, ⟨hnil, -⟩ | hpath⟩ := dataAt_cons_iff.mp hpath
      · cases hnil
      · rcases List.mem_cons.mp hda with rfl | hda
        · obtain ⟨c, hc, -⟩ := dataAt_cons_iff.mp hpath
          exact absurd hc List.not_mem_nil
        · obtain rfl := List.mem_singleton.mp hda
          exact absurd hname (by decide)

end MmsMapping

end Iec61850
