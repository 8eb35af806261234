import Iec61850.Model.TypeTree

/-! The types that are made of a data model are its image: with the components of each node in
their order, the sizes of its arrays, and its names. -/

namespace Iec61850

open Machine

/-- The attributes without sub-attributes have a type that can be mapped. -/
inductive DataAttribute.Mapped : DataAttribute → Prop
  | intro {da : DataAttribute} :
    (da.children = [] → da.type ≠ .constructed) → (∀ c ∈ da.children, Mapped c) → Mapped da

inductive ModelNode.Mapped : ModelNode → Prop
  | dataAttribute {da : DataAttribute} : da.Mapped → Mapped (.dataAttribute da)
  | dataObject {name : List UInt8} {elementCount : Int} {children : List ModelNode} :
    (∀ c ∈ children, Mapped c) → Mapped (.dataObject name elementCount children)

def LogicalNode.Mapped (ln : LogicalNode) : Prop := ∀ o ∈ ln.dataObjects, o.node.Mapped

namespace MmsMapping

/-- The components of the type of an attribute that is an address. -/
def phyComAddrNames : List (List UInt8) := ["Addr", "PRIORITY", "VID", "APPID"].map ascii

/-- The path leads to an attribute of the constraint that is an address without sub-attributes,
and from there to a component of the address. -/
inductive PhyComAddrAt (fc : FunctionalConstraint) : List ModelNode → List (List UInt8) → Prop
  | here {da : DataAttribute} {nodes : List ModelNode} {name : List UInt8} :
    .dataAttribute da ∈ nodes → da.fc = fc → da.children = [] → da.type = .phyComAddr →
    name ∈ phyComAddrNames → PhyComAddrAt fc nodes [da.name, name]
  | through {node : ModelNode} {nodes : List ModelNode} {path : List (List UInt8)} :
    node ∈ nodes → PhyComAddrAt fc node.children path → PhyComAddrAt fc nodes (node.name :: path)

/-- What `createArray` makes where nothing fails. -/
def arrayOf (name : List UInt8) (elementCount : Int)
    (typeSpec : Option (List UInt8) → Specification) : Specification :=
  createArray (m := Id) name elementCount typeSpec

theorem createArray_ok {name : List UInt8} {elementCount : Int}
    {typeSpec : Option (List UInt8) → Exec Specification}
    {made : Option (List UInt8) → Specification} (h : ∀ name, typeSpec name = .ok (made name)) :
    createArray name elementCount typeSpec = .ok (arrayOf name elementCount made) := by
  rw [arrayOf, createArray, createArray, h, h]
  split <;> rfl

theorem arrayOf_pos {name : List UInt8} {elementCount : Int} (h : 0 < elementCount)
    (typeSpec : Option (List UInt8) → Specification) :
    arrayOf name elementCount typeSpec = .array (some name) elementCount (typeSpec none) :=
  if_pos h

theorem arrayOf_not_pos {name : List UInt8} {elementCount : Int} (h : ¬ 0 < elementCount)
    (typeSpec : Option (List UInt8) → Specification) :
    arrayOf name elementCount typeSpec = typeSpec (some name) :=
  if_neg h

/-- The type of a node: its components are the images of those with data of the constraint, in
their order, and it is an array where the node is one. -/
inductive Images (fc : FunctionalConstraint) : ModelNode → Specification → Prop
  | dataObject {name : List UInt8} {elementCount : Int} {children : List ModelNode}
    {elements : List Specification} :
    List.Forall₂ (Images fc) (children.filter (ModelNode.hasFCData fc)) elements →
    Images fc (.dataObject name elementCount children)
      (arrayOf name elementCount fun name => .structured name elements.length elements)
  | constructed {da : DataAttribute} {elements : List Specification} :
    da.children ≠ [] → List.Forall₂ (Images fc) (da.children.map .dataAttribute) elements →
    Images fc (.dataAttribute da)
      (arrayOf da.name da.elementCount fun name => .structured name elements.length elements)
  | simple {da : DataAttribute} :
    da.children = [] →
    Images fc (.dataAttribute da) (arrayOf da.name da.elementCount (createTypeSpec da.type))

variable {fc : FunctionalConstraint} {node : ModelNode} {v : Specification}

theorem fillSubAttributes_eq (das : List DataAttribute) (s : List Specification × Nat) :
    fillSubAttributes das s =
      fillPresent (fun _ => true) createNamedVariableFromDataAttribute das s := by
  induction das generalizing s with
  | nil => rfl
  | cons da das ih =>
    rw [fillSubAttributes, fillPresent, if_pos rfl]
    congr 1
    funext v
    congr 1
    funext s
    exact ih s

theorem fillComponents_eq (fc : FunctionalConstraint) (nodes : List ModelNode)
    (s : List Specification × Nat) :
    fillComponents fc nodes s =
      fillPresent (ModelNode.hasFCData fc) (createFCNamedVariableFromNode fc) nodes s := by
  induction nodes generalizing s with
  | nil => rfl
  | cons node nodes ih =>
    rw [fillComponents, fillPresent, ih]
    congr 1
    congr 1
    funext v
    congr 1
    funext s
    exact ih s

theorem createNamedVariableFromDataAttribute_images (fc : FunctionalConstraint)
    (da : DataAttribute) :
    ∃ v, createNamedVariableFromDataAttribute da = .ok v ∧ Images fc (.dataAttribute da) v := by
  induction da using DataAttribute.tree_induction with
  | step da ih =>
    obtain ⟨name, elementCount, dafc, type, mmsValue, children⟩ := da
    cases hchildren : children with
    | nil =>
      refine ⟨_, ?_, .simple rfl⟩
      rw [createNamedVariableFromDataAttribute]
      exact createArray_ok fun name => rfl
    | cons c cs =>
      rw [← hchildren]
      obtain ⟨elements, hfill, -, hall⟩ := fillPresent_all .null ih rfl
      have himages : List.Forall₂ (Images fc) (children.map ModelNode.dataAttribute) elements :=
        List.forall₂_map_left_iff.mpr hall
      refine ⟨_, ?_, .constructed ?_ himages⟩
      · rw [createNamedVariableFromDataAttribute]
        apply createArray_ok
        intro name
        have hne : children.isEmpty = false := by rw [hchildren]; rfl
        rw [hne, fillSubAttributes_eq]
        exact bind_eq_of_ok hfill _
      · rw [hchildren]
        exact List.cons_ne_nil c cs

theorem createFCNamedVariableFromNode_images (fc : FunctionalConstraint) (node : ModelNode) :
    ∃ v, createFCNamedVariableFromNode fc node = .ok v ∧ Images fc node v := by
  induction node using ModelNode.tree_induction with
  | dataAttribute da =>
    rw [createFCNamedVariableFromNode]
    exact createNamedVariableFromDataAttribute_images fc da
  | dataObject name elementCount children ih =>
    obtain ⟨elements, hfill, hlen, hall⟩ := fillPresent_replicate .null
      (fun c hc _ => ih c hc) (Eq.refl (children.countP (ModelNode.hasFCData fc)))
    refine ⟨_, ?_, .dataObject hall⟩
    rw [createFCNamedVariableFromNode]
    apply createArray_ok
    intro name
    refine (bind_eq_of_ok ((fillComponents_eq fc children _).trans hfill) _).trans ?_
    rw [countChildrenWithFc, hlen]
    rfl

theorem createFCNamedVariable_images (ln : LogicalNode) (fc : FunctionalConstraint) :
    ∃ elements, createFCNamedVariable ln fc =
        .ok (.structured fc.toString elements.length elements) ∧
      List.Forall₂ (fun o => Images fc o.node)
        (ln.dataObjects.filter (DataObject.hasFCData fc)) elements := by
  have hmake : ∀ o ∈ ln.dataObjects, o.hasFCData fc = true →
      ∃ v, createFCNamedVariableFromDataObject fc o = .ok v ∧ Images fc o.node v :=
    fun o _ _ => createFCNamedVariableFromNode_images fc o.node
  obtain ⟨elements, hfill, hlen, hall⟩ :=
    fillPresent_replicate .null hmake (Eq.refl (ln.dataObjects.countP (DataObject.hasFCData fc)))
  refine ⟨elements, ?_, hall⟩
  refine (bind_eq_of_ok hfill _).trans ?_
  rw [hlen]
  rfl

theorem complete_arrayOf {name : List UInt8} {elementCount : Int}
    {typeSpec : Option (List UInt8) → Specification} (h : ∀ name, (typeSpec name).Complete) :
    (arrayOf name elementCount typeSpec).Complete := by
  by_cases hpos : 0 < elementCount
  · rw [arrayOf_pos hpos]
    exact .array (h none)
  · rw [arrayOf_not_pos hpos]
    exact h (some name)

theorem complete_primitiveNamed (types : List (String × PrimitiveType)) :
    ∀ e ∈ types.map primitiveNamed, e.Complete := by
  intro e he
  obtain ⟨s, -, rfl⟩ := List.mem_map.mp he
  exact .primitive

theorem complete_createPhyComAddrStructure (name : Option (List UInt8)) :
    (createPhyComAddrStructure name).Complete :=
  .structured rfl (complete_primitiveNamed _)

theorem complete_createTypeSpec {type : DataAttributeType} (h : type ≠ .constructed)
    (name : Option (List UInt8)) : (createTypeSpec type name).Complete := by
  rw [createTypeSpec]
  split
  · exact .primitive
  case h_2 hnone =>
    split
    · exact complete_createPhyComAddrStructure name
    case isFalse hne =>
      cases type with
      | constructed => exact absurd rfl h
      | phyComAddr => exact absurd rfl hne
      | _ => cases hnone

theorem forall_mem_of_forall₂ {α β : Type} {R : α → β → Prop} {P : β → Prop} {as : List α}
    {bs : List β} (h : List.Forall₂ R as bs) (hall : ∀ a ∈ as, ∀ b, R a b → P b) :
    ∀ b ∈ bs, P b := by
  intro b hb
  induction h with
  | nil => exact absurd hb List.not_mem_nil
  | cons hab _ ih =>
    rcases List.mem_cons.mp hb with rfl | hb
    · exact hall _ List.mem_cons_self _ hab
    · exact ih (fun a ha => hall a (List.mem_cons_of_mem _ ha)) hb

/-- The image of an attribute is complete where the types can be mapped. -/
theorem Images.complete_dataAttribute {da : DataAttribute} (hm : da.Mapped)
    (h : Images fc (.dataAttribute da) v) : v.Complete := by
  induction da using DataAttribute.tree_induction generalizing v with
  | step da ih =>
    cases hm with
    | intro htype hchildren =>
      cases h with
      | constructed _ hall =>
        apply complete_arrayOf
        intro name
        refine .structured rfl (forall_mem_of_forall₂ hall ?_)
        intro c hc e he
        obtain ⟨a, ha, rfl⟩ := List.mem_map.mp hc
        exact ih a ha (hchildren a ha) he
      | simple hnil => exact complete_arrayOf (complete_createTypeSpec (htype hnil))

theorem Images.complete (hm : node.Mapped) (h : Images fc node v) : v.Complete := by
  induction node using ModelNode.tree_induction generalizing v with
  | dataAttribute da =>
    cases hm with
    | dataAttribute hm => exact h.complete_dataAttribute hm
  | dataObject name elementCount children ih =>
    cases hm with
    | dataObject hm =>
      cases h with
      | dataObject hall =>
        apply complete_arrayOf
        intro name
        refine .structured rfl (forall_mem_of_forall₂ hall ?_)
        intro c hc e he
        exact ih c (List.mem_of_mem_filter hc) (hm c (List.mem_of_mem_filter hc)) he

/-- One of the types has the first name, and in it the rest of the names exists. -/
def NamesIn (elements : List Specification) (first : List UInt8) (names : List (List UInt8)) :
    Prop :=
  ∃ e ∈ elements, e.name = some first ∧ e.HasName names

theorem hasName_nil (v : Specification) : v.HasName [] := ⟨v, .here⟩

theorem hasName_structured {name : Option (List UInt8)} {elementCount : Int}
    {elements : List Specification} {first : List UInt8} {names : List (List UInt8)} :
    (Specification.structured name elementCount elements).HasName (first :: names) ↔
      NamesIn elements first names := by
  constructor
  · intro ⟨w, h⟩
    cases h with
    | component he hname hw => exact ⟨_, he, hname, w, hw⟩
  · intro ⟨e, he, hname, w, hw⟩
    exact ⟨w, .component he hname hw⟩

theorem hasName_array {name : Option (List UInt8)} {elementCount : Int} {e : Specification}
    {first : List UInt8} {names : List (List UInt8)} :
    (Specification.array name elementCount e).HasName (first :: names) ↔
      e.HasName (first :: names) := by
  constructor
  · intro ⟨w, h⟩
    cases h with
    | element hw => exact ⟨w, hw⟩
  · intro ⟨w, hw⟩
    exact ⟨w, .element hw⟩

theorem not_hasName_primitive {name : Option (List UInt8)} {type : PrimitiveType}
    {first : List UInt8} {names : List (List UInt8)} :
    ¬ (Specification.primitive name type).HasName (first :: names) := by
  intro ⟨w, h⟩
  cases h

theorem not_hasName_null {first : List UInt8} {names : List (List UInt8)} :
    ¬ Specification.null.HasName (first :: names) := by
  intro ⟨w, h⟩
  cases h

theorem name_arrayOf {name : List UInt8} {elementCount : Int}
    {typeSpec : Option (List UInt8) → Specification}
    (h : ∀ name, (typeSpec name).name = name) :
    (arrayOf name elementCount typeSpec).name = some name := by
  by_cases hpos : 0 < elementCount
  · rw [arrayOf_pos hpos]
    rfl
  · rw [arrayOf_not_pos hpos, h]

/-- An array is looked through. -/
theorem hasName_arrayOf {name : List UInt8} {elementCount : Int}
    {typeSpec : Option (List UInt8) → Specification} {first : List UInt8}
    {names : List (List UInt8)} {P : Prop}
    (h : ∀ name, (typeSpec name).HasName (first :: names) ↔ P) :
    (arrayOf name elementCount typeSpec).HasName (first :: names) ↔ P := by
  by_cases hpos : 0 < elementCount
  · rw [arrayOf_pos hpos, hasName_array, h]
  · rw [arrayOf_not_pos hpos, h]

theorem name_createTypeSpec (type : DataAttributeType) (name : Option (List UInt8)) :
    (createTypeSpec type name).name = name := by
  rw [createTypeSpec]
  split
  · rfl
  · split <;> rfl

theorem Images.name_eq (h : Images fc node v) : v.name = some node.name := by
  cases h with
  | dataObject => exact name_arrayOf fun name => rfl
  | constructed => exact name_arrayOf fun name => rfl
  | simple => exact name_arrayOf (name_createTypeSpec _)

theorem namesIn_primitiveNamed {types : List (String × PrimitiveType)} {first : List UInt8}
    {names : List (List UInt8)} :
    NamesIn (types.map primitiveNamed) first names ↔
      names = [] ∧ first ∈ (types.map Prod.fst).map ascii := by
  constructor
  · intro ⟨e, he, hname, hrest⟩
    obtain ⟨s, hs, rfl⟩ := List.mem_map.mp he
    cases names with
    | nil => exact ⟨rfl, Option.some.inj hname ▸ List.mem_map_of_mem (List.mem_map_of_mem hs)⟩
    | cons second names => exact absurd hrest not_hasName_primitive
  · rintro ⟨rfl, hfirst⟩
    obtain ⟨name, hname, rfl⟩ := List.mem_map.mp hfirst
    obtain ⟨s, hs, rfl⟩ := List.mem_map.mp hname
    exact ⟨_, List.mem_map_of_mem hs, rfl, hasName_nil _⟩

theorem hasName_createPhyComAddrStructure {name : Option (List UInt8)} {first : List UInt8}
    {names : List (List UInt8)} :
    (createPhyComAddrStructure name).HasName (first :: names) ↔
      names = [] ∧ first ∈ phyComAddrNames := by
  rw [createPhyComAddrStructure, hasName_structured, namesIn_primitiveNamed]
  rfl

/-- A name in the type of an attribute without sub-attributes leads into an address. -/
theorem hasName_createTypeSpec {type : DataAttributeType} {name : Option (List UInt8)}
    {first : List UInt8} {names : List (List UInt8)} :
    (createTypeSpec type name).HasName (first :: names) ↔
      type = .phyComAddr ∧ names = [] ∧ first ∈ phyComAddrNames := by
  rw [createTypeSpec]
  split
  case h_1 primitive hsome =>
    constructor
    · intro h
      exact absurd h not_hasName_primitive
    · rintro ⟨rfl, -⟩
      cases hsome
  case h_2 =>
    split
    case isTrue htype => rw [hasName_createPhyComAddrStructure, and_iff_right htype]
    case isFalse htype =>
      rw [hasName_array]
      constructor
      · intro h
        exact absurd h not_hasName_null
      · intro ⟨h, _⟩
        exact absurd h htype

theorem dataAt_cons_iff {nodes : List ModelNode} {first : List UInt8}
    {names : List (List UInt8)} :
    DataAt fc nodes (first :: names) ↔ ∃ node ∈ nodes, node.name = first ∧
      (names = [] ∧ node.Contains fc ∨ DataAt fc node.children names) := by
  constructor
  · intro h
    cases h with
    | here hnode hcontains => exact ⟨_, hnode, rfl, .inl ⟨rfl, hcontains⟩⟩
    | through hnode hpath => exact ⟨_, hnode, rfl, .inr hpath⟩
  · rintro ⟨node, hnode, rfl, ⟨rfl, hcontains⟩ | hpath⟩
    · exact .here hnode hcontains
    · exact .through hnode hpath

theorem phyComAddrAt_cons_iff {nodes : List ModelNode} {first : List UInt8}
    {names : List (List UInt8)} :
    PhyComAddrAt fc nodes (first :: names) ↔ ∃ node ∈ nodes, node.name = first ∧
      ((∃ da : DataAttribute, node = .dataAttribute da ∧ da.fc = fc ∧ da.children = [] ∧
        da.type = .phyComAddr ∧ ∃ name ∈ phyComAddrNames, names = [name]) ∨
      PhyComAddrAt fc node.children names) := by
  constructor
  · intro h
    cases h with
    | here hnode hfc hnil htype hname =>
      exact ⟨_, hnode, rfl, .inl ⟨_, rfl, hfc, hnil, htype, _, hname, rfl⟩⟩
    | through hnode hpath => exact ⟨_, hnode, rfl, .inr hpath⟩
  · rintro ⟨node, hnode, rfl, ⟨da, rfl, hfc, hnil, htype, name, hname, rfl⟩ | hpath⟩
    · exact .here hnode hfc hnil htype hname
    · exact .through hnode hpath

theorem not_dataAt_nil {nodes : List ModelNode} : ¬ DataAt fc nodes [] := by
  intro h
  cases h

theorem not_phyComAddrAt_nil {nodes : List ModelNode} : ¬ PhyComAddrAt fc nodes [] := by
  intro h
  cases h

theorem filter_hasFCData_children {da : DataAttribute} (hu : da.Uniform) :
    (da.children.map ModelNode.dataAttribute).filter (ModelNode.hasFCData da.fc) =
      da.children.map ModelNode.dataAttribute := by
  rw [List.filter_eq_self]
  intro node hnode
  obtain ⟨a, ha, rfl⟩ := List.mem_map.mp hnode
  cases hu with
  | intro hfc _ => exact decide_eq_true (hfc a ha)

theorem exists_left_of_forall₂ {α β : Type} {R : α → β → Prop} {as : List α} {bs : List β}
    (h : List.Forall₂ R as bs) {b : β} (hb : b ∈ bs) : ∃ a ∈ as, R a b := by
  induction h with
  | nil => exact absurd hb List.not_mem_nil
  | cons hab _ ih =>
    rcases List.mem_cons.mp hb with rfl | hb
    · exact ⟨_, List.mem_cons_self, hab⟩
    · obtain ⟨a, ha, hr⟩ := ih hb
      exact ⟨a, List.mem_cons_of_mem _ ha, hr⟩

theorem exists_right_of_forall₂ {α β : Type} {R : α → β → Prop} {as : List α} {bs : List β}
    (h : List.Forall₂ R as bs) {a : α} (ha : a ∈ as) : ∃ b ∈ bs, R a b :=
  (exists_left_of_forall₂ h.flip ha)

theorem namesIn_images_iff {nodes : List ModelNode} {elements : List Specification}
    {first : List UInt8} {names : List (List UInt8)} {P : ModelNode → Prop}
    (h : List.Forall₂ (Images fc) (nodes.filter (ModelNode.hasFCData fc)) elements)
    (hP : ∀ node ∈ nodes, node.Contains fc → ∀ v, Images fc node v → (v.HasName names ↔ P node)) :
    NamesIn elements first names ↔
      ∃ node ∈ nodes, node.name = first ∧ node.Contains fc ∧ P node := by
  constructor
  · intro ⟨e, he, hname, hrest⟩
    obtain ⟨node, hnode, himage⟩ := exists_left_of_forall₂ h he
    obtain ⟨hmem, hfc⟩ := List.mem_filter.mp hnode
    have hcontains := ModelNode.hasFCData_iff.mp hfc
    have hfirst : node.name = first := Option.some.inj (himage.name_eq.symm.trans hname)
    exact ⟨node, hmem, hfirst, hcontains, (hP node hmem hcontains e himage).mp hrest⟩
  · intro ⟨node, hmem, hfirst, hcontains, hp⟩
    have hnode := List.mem_filter.mpr ⟨hmem, ModelNode.hasFCData_iff.mpr hcontains⟩
    obtain ⟨e, he, himage⟩ := exists_right_of_forall₂ h hnode
    refine ⟨e, he, himage.name_eq.trans (congrArg some hfirst), ?_⟩
    exact (hP node hmem hcontains e himage).mpr hp

/-- The node is an attribute of the constraint that is an address without sub-attributes. -/
def IsAddress (fc : FunctionalConstraint) (node : ModelNode) : Prop :=
  ∃ da : DataAttribute, node = .dataAttribute da ∧ da.fc = fc ∧ da.children = [] ∧
    da.type = .phyComAddr

theorem PhyComAddrAt.exists_contains {nodes : List ModelNode} {path : List (List UInt8)}
    (hu : ∀ node ∈ nodes, node.Uniform) (h : PhyComAddrAt fc nodes path) :
    ∃ node ∈ nodes, node.Contains fc := by
  induction h with
  | here hnode hfc => exact ⟨_, hnode, .dataAttribute hfc⟩
  | through hnode _ ih =>
    obtain ⟨c, hc, hcontains⟩ := ih (hu _ hnode).children
    exact ⟨_, hnode, (hu _ hnode).contains hc hcontains⟩

theorem Images.hasName_dataAttribute_iff {da : DataAttribute} (hu : da.Uniform)
    (h : Images da.fc (.dataAttribute da) v) {first : List UInt8} {names : List (List UInt8)}
    {P : List ModelNode → Prop} (hP : ∀ nodes elements, (∀ node ∈ nodes, node.Uniform) →
      List.Forall₂ (Images da.fc) (nodes.filter (ModelNode.hasFCData da.fc)) elements →
      (NamesIn elements first names ↔ P nodes)) (hnil : ¬ P []) :
    v.HasName (first :: names) ↔
      P (ModelNode.dataAttribute da).children ∨
        IsAddress da.fc (.dataAttribute da) ∧ names = [] ∧ first ∈ phyComAddrNames := by
  cases h with
  | constructed hne hall =>
    apply hasName_arrayOf
    intro name
    rw [← filter_hasFCData_children hu] at hall
    rw [hasName_structured, hP _ _ (ModelNode.Uniform.dataAttribute hu).children hall]
    constructor
    · exact .inl
    · rintro (hp | ⟨⟨_, heq, -, hempty, -⟩, -⟩)
      · exact hp
      · cases heq
        exact absurd hempty hne
  | simple hempty =>
    apply hasName_arrayOf
    intro name
    rw [hasName_createTypeSpec, ModelNode.children, hempty, List.map_nil]
    constructor
    · intro ⟨htype, hnames⟩
      exact .inr ⟨⟨da, rfl, rfl, hempty, htype⟩, hnames⟩
    · rintro (hp | ⟨⟨_, heq, -, -, htype⟩, hnames⟩)
      · exact absurd hp hnil
      · cases heq
        exact ⟨htype, hnames⟩

/-- A name in the type of a node leads to one of its components, or is that of an address. -/
theorem Images.hasName_iff (hu : node.Uniform) (hcontains : node.Contains fc)
    (h : Images fc node v) {first : List UInt8} {names : List (List UInt8)}
    {P : List ModelNode → Prop} (hP : ∀ nodes elements, (∀ node ∈ nodes, node.Uniform) →
      List.Forall₂ (Images fc) (nodes.filter (ModelNode.hasFCData fc)) elements →
      (NamesIn elements first names ↔ P nodes)) (hnil : ¬ P []) :
    v.HasName (first :: names) ↔
      P node.children ∨ IsAddress fc node ∧ names = [] ∧ first ∈ phyComAddrNames := by
  cases node with
  | dataAttribute da =>
    cases hcontains with
    | dataAttribute hfc =>
      subst hfc
      cases hu with
      | dataAttribute hu => exact h.hasName_dataAttribute_iff hu hP hnil
  | dataObject name elementCount children =>
    cases h with
    | dataObject hall =>
      apply hasName_arrayOf
      intro name
      rw [hasName_structured, hP _ _ hu.children hall]
      constructor
      · exact .inl
      · rintro (hp | ⟨⟨_, heq, -⟩, -⟩)
        · exact hp
        · cases heq

/-- A name of the types of the nodes leads to data of the constraint, or into an address. -/
theorem namesIn_iff {nodes : List ModelNode} {elements : List Specification}
    {first : List UInt8} {names : List (List UInt8)} (hu : ∀ node ∈ nodes, node.Uniform)
    (h : List.Forall₂ (Images fc) (nodes.filter (ModelNode.hasFCData fc)) elements) :
    NamesIn elements first names ↔
      DataAt fc nodes (first :: names) ∨ PhyComAddrAt fc nodes (first :: names) := by
  rw [dataAt_cons_iff, phyComAddrAt_cons_iff]
  induction names generalizing nodes elements first with
  | nil =>
    rw [namesIn_images_iff (P := fun _ => True) h
      fun node _ _ v _ => iff_of_true (hasName_nil v) trivial]
    constructor
    · intro ⟨node, hnode, hname, hcontains, _⟩
      exact .inl ⟨node, hnode, hname, .inl ⟨rfl, hcontains⟩⟩
    · rintro (⟨node, hnode, hname, ⟨-, hcontains⟩ | hpath⟩ |
        ⟨node, hnode, hname, ⟨da, -, -, -, -, name, -, hnil⟩ | hpath⟩)
      · exact ⟨node, hnode, hname, hcontains, trivial⟩
      · exact absurd hpath not_dataAt_nil
      · exact absurd hnil.symm (List.cons_ne_nil name [])
      · exact absurd hpath not_phyComAddrAt_nil
  | cons second names ih =>
    have himage : ∀ node ∈ nodes, node.Contains fc → ∀ v, Images fc node v →
        (v.HasName (second :: names) ↔
          (DataAt fc node.children (second :: names) ∨
            PhyComAddrAt fc node.children (second :: names)) ∨
          IsAddress fc node ∧ names = [] ∧ second ∈ phyComAddrNames) := by
      intro node hnode hcontains v hv
      refine hv.hasName_iff (P := fun nodes => DataAt fc nodes _ ∨ PhyComAddrAt fc nodes _)
        (hu node hnode) hcontains ?_ ?_
      · intro nodes elements hu hall
        rw [dataAt_cons_iff, phyComAddrAt_cons_iff]
        exact ih hu hall
      · rintro (hpath | hpath)
        · obtain ⟨_, hmem, -⟩ := dataAt_cons_iff.mp hpath
          exact absurd hmem List.not_mem_nil
        · obtain ⟨_, hmem, -⟩ := phyComAddrAt_cons_iff.mp hpath
          exact absurd hmem List.not_mem_nil
    rw [namesIn_images_iff h himage]
    constructor
    · rintro ⟨node, hnode, hname, -, (hpath | hpath) | ⟨⟨da, rfl, hfc, hnil, htype⟩, rfl, hsecond⟩⟩
      · exact .inl ⟨node, hnode, hname, .inr hpath⟩
      · exact .inr ⟨node, hnode, hname, .inr hpath⟩
      · exact .inr ⟨_, hnode, hname, .inl ⟨da, rfl, hfc, hnil, htype, _, hsecond, rfl⟩⟩
    · rintro (⟨node, hnode, hname, ⟨hnil, -⟩ | hpath⟩ |
        ⟨node, hnode, hname, ⟨da, rfl, hfc, hnil, htype, name, hmem, hnames⟩ | hpath⟩)
      · exact absurd hnil (List.cons_ne_nil second names)
      · obtain ⟨c, hc, hcontains⟩ := hpath.exists_contains (hu node hnode).children
        exact ⟨node, hnode, hname, (hu node hnode).contains hc hcontains, .inl (.inl hpath)⟩
      · obtain ⟨rfl, rfl⟩ := List.cons.inj hnames
        exact ⟨_, hnode, hname, .dataAttribute hfc, .inr ⟨⟨da, rfl, hfc, hnil, htype⟩, rfl, hmem⟩⟩
      · obtain ⟨c, hc, hcontains⟩ := hpath.exists_contains (hu node hnode).children
        exact ⟨node, hnode, hname, (hu node hnode).contains hc hcontains, .inl (.inr hpath)⟩

end MmsMapping

end Iec61850
