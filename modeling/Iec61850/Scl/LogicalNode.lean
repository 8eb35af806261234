import Iec61850.Scl.ControlBlocks
import Iec61850.Scl.Instances

/-! The constructor of a logical node, and when it makes what the SCL file says or refuses it. -/

namespace Iec61850.Scl

structure LogicalNode where
  lnClass : String
  lnType : String
  inst : String
  desc : Option String
  prefixName : Option String
  sclType : LogicalNodeType
  data : DataTree
  dataSets : List DataSet
  reportControlBlocks : List ReportControlBlock
  gseControlBlocks : List GSEControl
  logControlBlocks : List LogControl
  logs : List Log
  settingGroupControlBlocks : List SettingControl
  fields : Instance

namespace LogicalNode

variable (lib : JavaText) (typeDeclarations : TypeDeclarations)

/-- The type has to be declared as one of logical nodes. -/
def typeOf (lnNode : Node) (lnType : String) : Java LogicalNodeType :=
  match typeDeclarations.lookupType (some lnType) with
  | none =>
    .error (.sclParserException (some lnNode) ("missing type declaration " ++ lnType))
  | some (.logicalNodeType type) => .ok type
  | some _ =>
    .error (.sclParserException (some lnNode)
      ("wrong type " ++ lnType ++ " for logical node"))

structure Header where
  lnClass : String
  lnType : String
  inst : String
  sclType : LogicalNodeType

def parseHeader (lnNode : Node) : Java Header := do
  let lnClass ← requireAttribute lnNode "lnClass"
    "required attribute \"lnClass\" is missing in logical node."
  let lnType ← requireAttribute lnNode "lnType"
    "required attribute \"lnType\" is missing in logical node."
  let inst ← requireAttribute lnNode "inst"
    "required attribute \"inst\" is missing in logical node."
  let sclType ← typeOf typeDeclarations lnNode lnType
  return { lnClass, lnType, inst, sclType }

/-- There is at most one setting group control block. -/
def parseSettingControls (lnNode : Node) : Java (List SettingControl) :=
  if (getChildNodesWithTag lnNode "SettingControl").length > 1 then
    .error (.sclParserException (some lnNode) "LN contains more then one SettingControl")
  else (getChildNodesWithTag lnNode "SettingControl").mapM (SettingControl.create lib)

/-- What is read when the data are made. -/
def parseBody (lnNode : Node) (header : Header) (data : DataTree) : Java LogicalNode := do
  let dataSets ← (getChildNodesWithTag lnNode "DataSet").mapM (DataSet.create lib)
  let reportControlBlocks ←
    (getChildNodesWithTag lnNode "ReportControl").mapM (ReportControlBlock.create lib)
  let gseControlBlocks ← (getChildNodesWithTag lnNode "GSEControl").mapM (GSEControl.create lib)
  let logControlBlocks ← (getChildNodesWithTag lnNode "LogControl").mapM (LogControl.create lib)
  let logs ← (getChildNodesWithTag lnNode "Log").mapM Log.create
  let settingGroupControlBlocks ← parseSettingControls lib lnNode
  let fields ← parseDataObjectInstances lib data lnNode
  return {
    lnClass := header.lnClass
    lnType := header.lnType
    inst := header.inst
    desc := parseAttribute lnNode "desc"
    prefixName := parseAttribute lnNode "prefix"
    sclType := header.sclType
    data
    dataSets
    reportControlBlocks
    gseControlBlocks
    logControlBlocks
    logs
    settingGroupControlBlocks
    fields }

/-- The constructor, with room for some calls inside each other. -/
def create (depth : Nat) (lnNode : Node) : Java LogicalNode := do
  let header ← parseHeader typeDeclarations lnNode
  let data ← construct typeDeclarations depth (.logicalNode header.sclType)
  parseBody lib lnNode header data

end LogicalNode

/-! ## What a logical node is by the file -/

/-- The element says which type the logical node has. -/
def HasType (typeDeclarations : TypeDeclarations) (lnNode : Node) (type : LogicalNodeType) : Prop :=
  (∀ attributeName ∈ ["lnClass", "lnType", "inst"],
    (parseAttribute lnNode attributeName).isSome) ∧
  typeDeclarations.lookupType (parseAttribute lnNode "lnType") = some (.logicalNodeType type)

/-- The options of a report control block are the declared ones. -/
def HasOptions (lib : JavaText) (block : ReportControlBlock) (reportControlNode : Node) : Prop :=
  block.triggerOptions =
      TriggerOptions.declared lib (getChildNodeWithTag reportControlNode "TrgOps") ∧
    block.optionFields =
      OptionFields.declared lib (getChildNodeWithTag reportControlNode "OptFields")

/-- The data are the expansion of the type. An attribute has the value and the short address that
the last element at its path gives it, and none where there is no such element. -/
structure IsInstance (lib : JavaText) (typeDeclarations : TypeDeclarations) (lnNode : Node)
    (ln : LogicalNode) : Prop where
  type : ∃ type, HasType typeDeclarations lnNode type ∧
    IsExpansion typeDeclarations ln.data (.logicalNode type)
  value : ∀ place, (ln.fields place).value =
    ((Access.ofLogicalNode lnNode).filterMap (Access.valueAt lib ln.data place)).getLast?
  shortAddress : ∀ place, (ln.fields place).shortAddress =
    ((Access.ofLogicalNode lnNode).filterMap (Access.shortAddressAt ln.data place)).getLast?
  options : List.Forall₂ (HasOptions lib) ln.reportControlBlocks
    (getChildNodesWithTag lnNode "ReportControl")

/-- With enough room there is a result, and it is a complaint of the parser or the instance. -/
def TemplateRight (lib : JavaText) (typeDeclarations : TypeDeclarations) (lnNode : Node) : Prop :=
  ∃ result, (∃ n, ∀ depth, n ≤ depth →
      LogicalNode.create lib typeDeclarations depth lnNode = result) ∧
    verdict result ≠ .faulty ∧
    ∀ ln, result = .ok ln → IsInstance lib typeDeclarations lnNode ln

/-! ## The condition -/

namespace Verdict

def settingControls (lib : JavaText) (lnNode : Node) : Verdict :=
  if (getChildNodesWithTag lnNode "SettingControl").length > 1 then .rejected
  else first ((getChildNodesWithTag lnNode "SettingControl").map (settingControl lib))

/-- What is in an element is looked at in this order, which is not the order in the file. -/
def body (lib : JavaText) (lnNode : Node) (data : DataTree) : Verdict :=
  first [
    first ((getChildNodesWithTag lnNode "DataSet").map (dataSet lib)),
    first ((getChildNodesWithTag lnNode "ReportControl").map (reportControlBlock lib)),
    first ((getChildNodesWithTag lnNode "GSEControl").map (gseControl lib)),
    first ((getChildNodesWithTag lnNode "LogControl").map (logControl lib)),
    first ((getChildNodesWithTag lnNode "Log").map (required · "name")),
    settingControls lib lnNode,
    first ((Access.ofLogicalNode lnNode).map (access lib data))]

end Verdict

/-- Nothing in the element is such that the parser fails over it without a complaint, and if it has
none then the option fields are not mixed up. -/
def BodyFits (lib : JavaText) (lnNode : Node) (data : DataTree) : Prop :=
  Verdict.body lib lnNode data ≠ .faulty ∧
    (Verdict.body lib lnNode data = .accepted →
      ∀ reportControlNode ∈ getChildNodesWithTag lnNode "ReportControl",
        OptionFields.Agree lib (getChildNodeWithTag reportControlNode "OptFields"))

/-- The declarations that the constructor comes to do not lead to each other without end. -/
def TemplateFits (lib : JavaText) (typeDeclarations : TypeDeclarations) (lnNode : Node) : Prop :=
  ∀ type, HasType typeDeclarations lnNode type →
    Acc (RoseTree.Reaches (Declares typeDeclarations)) (.logicalNode type) ∧
    ∀ data, IsExpansion typeDeclarations data (.logicalNode type) → BodyFits lib lnNode data

section

variable {lib : JavaText} {typeDeclarations : TypeDeclarations} {lnNode : Node}

theorem hasType_unique {type type' : LogicalNodeType} (h : HasType typeDeclarations lnNode type)
    (h' : HasType typeDeclarations lnNode type') : type = type' := by
  have heq := h.2.symm.trans h'.2
  cases heq
  rfl

theorem verdict_typeOf (lnType : String) :
    verdict (LogicalNode.typeOf typeDeclarations lnNode lnType) ≠ .faulty := by
  rw [LogicalNode.typeOf]
  cases typeDeclarations.lookupType (some lnType) with
  | none => exact Verdict.noConfusion
  | some sclType => cases sclType <;> exact Verdict.noConfusion

theorem typeOf_ok {lnType : String} {type : LogicalNodeType}
    (h : LogicalNode.typeOf typeDeclarations lnNode lnType = .ok type) :
    typeDeclarations.lookupType (some lnType) = some (.logicalNodeType type) := by
  rw [LogicalNode.typeOf] at h
  split at h
  · cases h
  · cases h
    assumption
  · cases h

theorem typeOf_of_lookupType {lnType : String} {type : LogicalNodeType}
    (h : typeDeclarations.lookupType (some lnType) = some (.logicalNodeType type)) :
    LogicalNode.typeOf typeDeclarations lnNode lnType = .ok type := by
  rw [LogicalNode.typeOf, h]

theorem requireAttribute_ok {node : Node} {attributeName message text : String}
    (h : requireAttribute node attributeName message = .ok text) :
    parseAttribute node attributeName = some text := by
  rw [requireAttribute] at h
  split at h
  · cases h
  · cases h
    assumption

theorem verdict_bind_ne {α β : Type} {x : Java α} {f : α → Java β} (hx : verdict x ≠ .faulty)
    (hf : ∀ a, verdict (f a) ≠ .faulty) : verdict (x >>= f) ≠ .faulty := by
  cases x with
  | ok a => exact hf a
  | error e =>
    cases e with
    | sclParserException node message => exact Verdict.noConfusion
    | _ => exact absurd rfl hx

theorem verdict_requireAttribute_ne (node : Node) (attributeName message : String) :
    verdict (requireAttribute node attributeName message) ≠ .faulty := by
  rw [verdict_requireAttribute, Verdict.required]
  split <;> exact Verdict.noConfusion

/-- The parser complains of every header that it does not take. -/
theorem verdict_parseHeader_ne :
    verdict (LogicalNode.parseHeader typeDeclarations lnNode) ≠ .faulty := by
  refine verdict_bind_ne (verdict_requireAttribute_ne _ _ _) fun lnClass => ?_
  refine verdict_bind_ne (verdict_requireAttribute_ne _ _ _) fun lnType => ?_
  refine verdict_bind_ne (verdict_requireAttribute_ne _ _ _) fun inst => ?_
  exact verdict_bind_ne (verdict_typeOf lnType) fun sclType => Verdict.noConfusion

theorem parseHeader_ok {header : LogicalNode.Header}
    (h : LogicalNode.parseHeader typeDeclarations lnNode = .ok header) :
    HasType typeDeclarations lnNode header.sclType := by
  obtain ⟨lnClass, hlnClass, h⟩ := bind_ok h
  obtain ⟨lnType, hlnType, h⟩ := bind_ok h
  obtain ⟨inst, hinst, h⟩ := bind_ok h
  obtain ⟨sclType, hsclType, h⟩ := bind_ok h
  cases h
  have hlnType := requireAttribute_ok hlnType
  refine ⟨?_, ?_⟩
  · simp [requireAttribute_ok hlnClass, hlnType, requireAttribute_ok hinst]
  · rw [hlnType]
    exact typeOf_ok hsclType

theorem parseHeader_of_hasType {type : LogicalNodeType}
    (h : HasType typeDeclarations lnNode type) :
    ∃ header, LogicalNode.parseHeader typeDeclarations lnNode = .ok header := by
  obtain ⟨hrequired, hlookup⟩ := h
  obtain ⟨lnClass, hlnClass⟩ := Option.isSome_iff_exists.mp (hrequired "lnClass" (by simp))
  obtain ⟨lnType, hlnType⟩ := Option.isSome_iff_exists.mp (hrequired "lnType" (by simp))
  obtain ⟨inst, hinst⟩ := Option.isSome_iff_exists.mp (hrequired "inst" (by simp))
  rw [hlnType] at hlookup
  refine ⟨⟨lnClass, lnType, inst, type⟩, ?_⟩
  simp only [LogicalNode.parseHeader, requireAttribute, hlnClass, hlnType, hinst]
  change (LogicalNode.typeOf typeDeclarations lnNode lnType >>= _) = _
  rw [typeOf_of_lookupType hlookup]
  rfl

theorem verdict_parseSettingControls :
    verdict (LogicalNode.parseSettingControls lib lnNode) = Verdict.settingControls lib lnNode := by
  rw [LogicalNode.parseSettingControls, Verdict.settingControls]
  split
  · rfl
  · refine verdict_mapM.trans (congrArg Verdict.first (List.map_congr_left fun node _ => ?_))
    exact verdict_settingControl node

theorem verdict_all {α : Type} {nodes : List Node} {create : Node → Java α} {v : Node → Verdict}
    (h : ∀ node, verdict (create node) = v node) :
    verdict (nodes.mapM create) = Verdict.first (nodes.map v) :=
  verdict_mapM.trans (congrArg Verdict.first (List.map_congr_left fun node _ => h node))

theorem verdict_parseBody (header : LogicalNode.Header) (data : DataTree) :
    verdict (LogicalNode.parseBody lib lnNode header data) = Verdict.body lib lnNode data := by
  refine verdict_bind (verdict_all verdict_dataSet) fun _ _ => ?_
  refine verdict_bind (verdict_all verdict_reportControlBlock) fun _ _ => ?_
  refine verdict_bind (verdict_all verdict_gseControl) fun _ _ => ?_
  refine verdict_bind (verdict_all verdict_logControl) fun _ _ => ?_
  refine verdict_bind (verdict_all verdict_log) fun _ _ => ?_
  refine verdict_bind verdict_parseSettingControls fun _ _ => ?_
  exact verdict_bind (verdict_parseDataObjectInstances lnNode) fun _ _ => rfl

theorem parseBody_ok {header : LogicalNode.Header} {data : DataTree} {ln : LogicalNode}
    (h : LogicalNode.parseBody lib lnNode header data = .ok ln) :
    ln.data = data ∧ parseDataObjectInstances lib data lnNode = .ok ln.fields ∧
      (getChildNodesWithTag lnNode "ReportControl").mapM (ReportControlBlock.create lib) =
        .ok ln.reportControlBlocks := by
  obtain ⟨dataSets, _, h⟩ := bind_ok h
  obtain ⟨reportControlBlocks, hblocks, h⟩ := bind_ok h
  obtain ⟨gseControlBlocks, _, h⟩ := bind_ok h
  obtain ⟨logControlBlocks, _, h⟩ := bind_ok h
  obtain ⟨logs, _, h⟩ := bind_ok h
  obtain ⟨settingGroupControlBlocks, _, h⟩ := bind_ok h
  obtain ⟨fields, hfields, h⟩ := bind_ok h
  cases h
  exact ⟨rfl, hfields, hblocks⟩

theorem hasOptions_iff {node : Node} {block : ReportControlBlock}
    (h : ReportControlBlock.create lib node = .ok block) :
    HasOptions lib block node ↔ OptionFields.Agree lib (getChildNodeWithTag node "OptFields") := by
  obtain ⟨htriggerOptions, hoptionFields⟩ := reportControlBlock_options h
  rw [HasOptions, optionFields_eq_declared_iff hoptionFields]
  exact and_iff_right (triggerOptions_declared htriggerOptions)

theorem forall₂_hasOptions_iff {nodes : List Node} {blocks : List ReportControlBlock}
    (h : List.Forall₂ (fun block node => ReportControlBlock.create lib node = .ok block)
      blocks nodes) :
    List.Forall₂ (HasOptions lib) blocks nodes ↔
      ∀ node ∈ nodes, OptionFields.Agree lib (getChildNodeWithTag node "OptFields") := by
  induction h with
  | nil => simp
  | cons hblock _ ih =>
    rw [List.forall₂_cons, List.forall_mem_cons, hasOptions_iff hblock, ih]

theorem create_error {c : Component} {e : JavaThrow}
    (h : Component.create typeDeclarations c = .error e) :
    verdict (.error e : Java DataTree) = .rejected := by
  cases c with
  | logicalNode type => cases h
  | dataObject doDefinition =>
    rw [Component.create] at h
    split at h
    · cases h
      rfl
    · cases h
  | dataAttribute daDefinition fc parent =>
    simp only [Component.create, Component.createDataAttribute] at h
    split at h
    · split at h
      · cases h
        rfl
      · cases h
    · split at h
      · cases h
        rfl
      · cases h
      · cases h
        rfl
    · cases h

/-- When the growth ends it is with the expansion of the type, or with a complaint. -/
theorem construct_rejected {n : Nat} {c : Component} {e : JavaThrow}
    (h : construct typeDeclarations n c = .error e) (hne : e ≠ .stackOverflowError) :
    verdict (.error e : Java DataTree) = .rejected := by
  rcases RoseTree.grow_fails h with rfl | ⟨c, hc⟩
  · exact absurd rfl hne
  · exact create_error hc

theorem create_ne_stackOverflowError (c : Component) :
    Component.create typeDeclarations c ≠ .error .stackOverflowError := by
  intro h
  have hverdict := create_error h
  cases hverdict

/-- With the header and the data at hand the rest of the constructor decides. -/
theorem parseBody_right_iff {header : LogicalNode.Header} {data : DataTree}
    {type : LogicalNodeType} (htype : HasType typeDeclarations lnNode type)
    (hdata : IsExpansion typeDeclarations data (.logicalNode type)) :
    (verdict (LogicalNode.parseBody lib lnNode header data) ≠ .faulty ∧
      ∀ ln, LogicalNode.parseBody lib lnNode header data = .ok ln →
        IsInstance lib typeDeclarations lnNode ln) ↔ BodyFits lib lnNode data := by
  rw [BodyFits, verdict_parseBody]
  refine and_congr_right fun _ => ?_
  cases hbody : LogicalNode.parseBody lib lnNode header data with
  | error e =>
    refine iff_of_true (fun ln h => by cases h) fun h => ?_
    rw [← verdict_parseBody header data, hbody] at h
    cases e <;> cases h
  | ok ln =>
    obtain ⟨rfl, hfields, hblocks⟩ := parseBody_ok hbody
    have hoptions := forall₂_hasOptions_iff (RoseTree.forall₂_of_mapM hblocks)
    have haccepted : Verdict.body lib lnNode ln.data = .accepted := by
      rw [← verdict_parseBody header ln.data, hbody, verdict_ok]
    constructor
    · intro h _
      exact hoptions.mp (h ln rfl).options
    · intro h ln' heq
      cases heq
      exact ⟨⟨type, htype, hdata⟩, fun place => (parseDataObjectInstances_ok hfields place).1,
        fun place => (parseDataObjectInstances_ok hfields place).2, hoptions.mpr (h haccepted)⟩

theorem create_of_header {header : LogicalNode.Header}
    (h : LogicalNode.parseHeader typeDeclarations lnNode = .ok header) (depth : Nat) :
    LogicalNode.create lib typeDeclarations depth lnNode =
      (construct typeDeclarations depth (.logicalNode header.sclType) >>=
        LogicalNode.parseBody lib lnNode header) := by
  rw [LogicalNode.create, h]
  rfl

theorem create_of_data {header : LogicalNode.Header} {data : DataTree} {depth : Nat}
    (h : LogicalNode.parseHeader typeDeclarations lnNode = .ok header)
    (hdata : construct typeDeclarations depth (.logicalNode header.sclType) = .ok data) :
    LogicalNode.create lib typeDeclarations depth lnNode =
      LogicalNode.parseBody lib lnNode header data := by
  rw [create_of_header h, hdata]
  rfl

theorem fits_of_right {type : LogicalNodeType} (htype : HasType typeDeclarations lnNode type)
    (h : TemplateRight lib typeDeclarations lnNode) :
    Acc (RoseTree.Reaches (Declares typeDeclarations)) (.logicalNode type) ∧
      ∀ data, IsExpansion typeDeclarations data (.logicalNode type) →
        BodyFits lib lnNode data := by
  obtain ⟨header, hheader⟩ := parseHeader_of_hasType htype
  obtain rfl := hasType_unique htype (parseHeader_ok hheader)
  obtain ⟨result, ⟨n, hn⟩, hverdict, hinstance⟩ := h
  constructor
  · refine (RoseTree.acc_iff create_ok_iff create_ne_stackOverflowError).mpr
      ⟨n, construct typeDeclarations n (.logicalNode header.sclType), ?_⟩
    have hne : construct typeDeclarations n (.logicalNode header.sclType) ≠
        .error .stackOverflowError := by
      intro hdeep
      have hresult := hn n (Nat.le_refl n)
      rw [create_of_header hheader, hdeep] at hresult
      exact hverdict (hresult ▸ rfl)
    exact ⟨hne, fun m hm => RoseTree.grow_mono hm hne⟩
  · intro data hdata
    obtain ⟨n', hn'⟩ : ∃ n', ∀ m, n' ≤ m →
        construct typeDeclarations m (.logicalNode header.sclType) = .ok data :=
      RoseTree.grow_of_isGrown create_ok_iff data _ hdata
    have hresult := (create_of_data hheader (hn' _ (Nat.le_max_right n n'))).symm.trans
      (hn _ (Nat.le_max_left n n'))
    rw [← parseBody_right_iff htype hdata, hresult]
    exact ⟨hverdict, hinstance⟩

theorem right_of_fits {header : LogicalNode.Header}
    (hheader : LogicalNode.parseHeader typeDeclarations lnNode = .ok header)
    (h : TemplateFits lib typeDeclarations lnNode) :
    TemplateRight lib typeDeclarations lnNode := by
  have htype := parseHeader_ok hheader
  obtain ⟨hacc, hbody⟩ := h header.sclType htype
  obtain ⟨n, r, hne, hr⟩ :=
    (RoseTree.acc_iff create_ok_iff create_ne_stackOverflowError).mp hacc
  cases r with
  | ok data =>
    have hdata := RoseTree.isGrown_of_grow create_ok_iff (hr n (Nat.le_refl n))
    exact ⟨_, ⟨n, fun m hm => create_of_data hheader (hr m hm)⟩,
      (parseBody_right_iff htype hdata).mpr (hbody data hdata)⟩
  | error e =>
    have hrejected := construct_rejected (hr n (Nat.le_refl n)) fun heq => hne (heq ▸ rfl)
    refine ⟨.error e, ⟨n, fun m hm => ?_⟩, ?_, fun ln h => by cases h⟩
    · rw [create_of_header hheader, construct, hr m hm]
      rfl
    · rw [verdict_error e, hrejected]
      exact Verdict.noConfusion

/-- The constructor makes what the file says, or the parser complains, if and only if the
declarations end and nothing in the element is of the kinds that the parser does not see. -/
theorem templateRight_iff (lib : JavaText) (typeDeclarations : TypeDeclarations) (lnNode : Node) :
    TemplateRight lib typeDeclarations lnNode ↔ TemplateFits lib typeDeclarations lnNode := by
  constructor
  · intro h type htype
    exact fits_of_right htype h
  · intro h
    cases hheader : LogicalNode.parseHeader typeDeclarations lnNode with
    | ok header => exact right_of_fits hheader h
    | error e =>
      refine ⟨.error e, ⟨0, fun depth _ => ?_⟩, ?_, fun ln h => by cases h⟩
      · rw [LogicalNode.create, hheader]
        rfl
      · have hne : verdict (LogicalNode.parseHeader typeDeclarations lnNode) ≠ .faulty :=
          verdict_parseHeader_ne
        rw [hheader, verdict_error e] at hne
        exact hne

end

/-! ## A field that is lost -/

/-- Numbers are decimal, without a sign. -/
def decimalOf (text : String) : Option Int :=
  if text.toList ≠ [] ∧ text.toList.all Char.isDigit then
    some (text.toList.foldl (fun n c => 10 * n + (c.toNat - '0'.toNat)) 0)
  else none

/-- Text of letters without accents, and of such numbers. -/
def plainText : JavaText where
  toUpperCase text := String.ofList (text.toList.map Char.toUpper)
  toLowerCase text := String.ofList (text.toList.map Char.toLower)
  newLong := decimalOf
  newInteger := decimalOf
  decode := decimalOf
  isFloat text := (decimalOf text).isSome
  isDouble text := (decimalOf text).isSome

/-- The reports are to have the revision of the configuration. -/
def configRefNode : Node :=
  .mk "LN" [("lnClass", "GGIO"), ("lnType", "T"), ("inst", "1")]
    [.mk "ReportControl" [("name", "r"), ("confRev", "1")]
      [.mk "TrgOps" [] [] "", .mk "OptFields" [("configRef", "true")] [] ""] ""] ""

theorem configRef_of_hasOptions {lib : JavaText} {blocks : List ReportControlBlock}
    {nodes : List Node} (h : List.Forall₂ (HasOptions lib) blocks nodes) :
    blocks.map (·.optionFields.configRef) = nodes.map fun node =>
      declared lib (getChildNodeWithTag node "OptFields") "configRef" false := by
  induction h with
  | nil => rfl
  | cons hblock _ ih =>
    rw [List.map_cons, List.map_cons, hblock.2, ih]
    rfl

/-- The element asks for the revision, and the block is made without it. -/
theorem not_templateRight_configRef :
    ¬ TemplateRight plainText [.logicalNodeType ⟨"T", "GGIO", []⟩] configRefNode := by
  rintro ⟨result, ⟨n, hn⟩, _, hinstance⟩
  obtain ⟨ln, hcreate, hconfigRef⟩ : ∃ ln,
      LogicalNode.create plainText [.logicalNodeType ⟨"T", "GGIO", []⟩] (n + 1) configRefNode =
        .ok ln ∧ ln.reportControlBlocks.map (·.optionFields.configRef) = [false] :=
    ⟨_, rfl, rfl⟩
  have hresult := (hn (n + 1) (Nat.le_succ n)).symm.trans hcreate
  have hdeclared := configRef_of_hasOptions (hinstance ln hresult).options
  rw [hconfigRef] at hdeclared
  have htrue : [false] = [true] := hdeclared
  cases htrue

end Iec61850.Scl
