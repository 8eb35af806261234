import Iec61850.Scl.TypeDeclarations

/-! The data sets, control blocks and logs of a logical node: what their constructors read, and for
each of them when it is made and when its element is refused. -/

namespace Iec61850.Scl

/-- `FunctionalConstraint.valueOf` -/
def valueOf : String → Option FunctionalConstraint
  | "ST" => some .st
  | "MX" => some .mx
  | "SP" => some .sp
  | "SV" => some .sv
  | "CF" => some .cf
  | "DC" => some .dc
  | "SG" => some .sg
  | "SE" => some .se
  | "SR" => some .sr
  | "OR" => some .or
  | "BL" => some .bl
  | "EX" => some .ex
  | "CO" => some .co
  | "ALL" => some .all
  | "NONE" => some .none
  | _ => none

def createFromString (fc : String) : Java FunctionalConstraint :=
  match valueOf fc with
  | some fc => .ok fc
  | none => .error .illegalArgumentException

structure FunctionalConstraintData where
  ldInstance : Option String
  prefixName : Option String
  lnClass : Option String
  lnInstance : Option String
  doName : Option String
  daName : Option String
  fc : Option FunctionalConstraint
  ix : Option Int

structure DataSet where
  name : String
  desc : Option String
  fcda : List FunctionalConstraintData

structure OptionFields where
  seqNum : Bool
  timeStamp : Bool
  dataSet : Bool
  reasonCode : Bool
  dataRef : Bool
  entryID : Bool
  configRef : Bool
  bufOvfl : Bool

structure RptEnabled where
  maxInstances : Int
  desc : Option String

structure ReportControlBlock where
  name : Option String
  desc : Option String
  dataSet : Option String
  integrityPeriod : Option Int
  rptID : Option String
  confRef : Int
  buffered : Bool
  bufferTime : Int
  triggerOptions : TriggerOptions
  optionFields : OptionFields
  indexed : Bool
  rptEna : Option RptEnabled

structure GSEControl where
  name : Option String
  desc : Option String
  dataSet : Option String
  confRev : Int
  appID : Option String
  fixedOffs : Bool

structure LogControl where
  name : String
  desc : Option String
  dataSet : Option String
  ldInst : Option String
  prefixName : Option String
  lnClass : String
  logName : String
  logEna : Bool
  reasonCode : Bool
  intgPd : Int
  triggerOptions : TriggerOptions

structure Log where
  name : String

structure SettingControl where
  desc : Option String
  numOfSGs : Int
  actSG : Int

variable (lib : JavaText)

/-! ## Constructors -/

def FunctionalConstraintData.fcOf (fcdaNode : Node) : Java (Option FunctionalConstraint) :=
  match parseAttribute fcdaNode "fc" with
  | none => .ok none
  | some fc => some <$> createFromString fc

def FunctionalConstraintData.create (fcdaNode : Node) : Java FunctionalConstraintData := do
  let fc ← fcOf fcdaNode
  let ix ← parseNumber lib.newInteger fcdaNode "ix"
  return {
    ldInstance := parseAttribute fcdaNode "ldInst"
    prefixName := parseAttribute fcdaNode "prefix"
    lnClass := parseAttribute fcdaNode "lnClass"
    lnInstance := parseAttribute fcdaNode "lnInst"
    doName := parseAttribute fcdaNode "doName"
    daName := parseAttribute fcdaNode "daName"
    fc
    ix }

def DataSet.create (dataSet : Node) : Java DataSet := do
  let name ← requireAttribute dataSet "name" "Dataset misses required attribute \"name\""
  let fcda ← (getChildNodesWithTag dataSet "FCDA").mapM (FunctionalConstraintData.create lib)
  return { name, desc := parseAttribute dataSet "desc", fcda }

/-- The element may be missing, and then it is the reference to it that is used. -/
def TriggerOptions.create : Option Node → Java TriggerOptions
  | none => .error .nullPointerException
  | some trgOpsNode => do
    let dchg ← readBoolean lib trgOpsNode "dchg" false
    let qchg ← readBoolean lib trgOpsNode "qchg" false
    let dupd ← readBoolean lib trgOpsNode "dupd" false
    let period ← readBoolean lib trgOpsNode "period" false
    let gi ← readBoolean lib trgOpsNode "gi" false
    return { dchg, qchg, dupd, period, gi }

/-- The last two fields are set from attributes that are not their own. -/
def OptionFields.create : Option Node → Java OptionFields
  | none => .error .nullPointerException
  | some optFieldsNode => do
    let seqNum ← readBoolean lib optFieldsNode "seqNum" false
    let timeStamp ← readBoolean lib optFieldsNode "timeStamp" false
    let dataSet ← readBoolean lib optFieldsNode "dataSet" false
    let reasonCode ← readBoolean lib optFieldsNode "reasonCode" false
    let dataRef ← readBoolean lib optFieldsNode "dataRef" false
    let entryID ← readBoolean lib optFieldsNode "entryID" false
    let configRef ← readBoolean lib optFieldsNode "bufOvfl" false
    let bufOvfl ← readBoolean lib optFieldsNode "reasonCode" true
    return { seqNum, timeStamp, dataSet, reasonCode, dataRef, entryID, configRef, bufOvfl }

def RptEnabled.create (rptEnabledNode : Node) : Java RptEnabled := do
  let maxInstances ← parseNumber lib.newInteger rptEnabledNode "max"
  return { maxInstances := maxInstances.getD 1, desc := parseAttribute rptEnabledNode "desc" }

namespace ReportControlBlock

def confRefOf (reportControlNode : Node) : Java Int :=
  match parseAttribute reportControlNode "confRev" with
  | some confRefStr => newNumber lib.newLong confRefStr
  | none => .error (.sclParserException none "Missing required attribute \"confRef\"")

def rptEnaOf (reportControlNode : Node) (indexed : Bool) : Java (Option RptEnabled) :=
  match getChildNodeWithTag reportControlNode "RptEnabled" with
  | none => .ok none
  | some rptEnabledNode => do
    let rptEna ← RptEnabled.create lib rptEnabledNode
    if indexed = false ∧ rptEna.maxInstances ≠ 1 then
      .error (.sclParserException none
        "RptEnabled.max != 1 is not allowed when indexed=\"false\"")
    else .ok (some rptEna)

def create (reportControlNode : Node) : Java ReportControlBlock := do
  let integrityPeriod ← parseNumber lib.newLong reportControlNode "intgPd"
  let confRef ← confRefOf lib reportControlNode
  let buffered ← readBoolean lib reportControlNode "buffered" false
  let bufferTime ← parseNumber lib.newLong reportControlNode "bufTime"
  let triggerOptions ← TriggerOptions.create lib (getChildNodeWithTag reportControlNode "TrgOps")
  let optionFields ← OptionFields.create lib (getChildNodeWithTag reportControlNode "OptFields")
  let indexed ← readBoolean lib reportControlNode "indexed" true
  let rptEna ← rptEnaOf lib reportControlNode indexed
  return {
    name := parseAttribute reportControlNode "name"
    desc := parseAttribute reportControlNode "desc"
    dataSet := parseAttribute reportControlNode "datSet"
    integrityPeriod
    rptID := (parseAttribute reportControlNode "rptID").filter (· ≠ "")
    confRef
    buffered
    bufferTime := bufferTime.getD 0
    triggerOptions
    optionFields
    indexed
    rptEna }

end ReportControlBlock

namespace GSEControl

def checkType (gseControlNode : Node) : Java Unit :=
  match parseAttribute gseControlNode "type" with
  | none => .ok ()
  | some typeString =>
    if typeString = "GOOSE" then .ok ()
    else
      .error (.sclParserException (some gseControlNode)
        ("GSEControl of type " ++ typeString ++ " not supported!"))

def create (gseControlNode : Node) : Java GSEControl := do
  let confRev ← parseNumber lib.newInteger gseControlNode "confRev"
  let fixedOffs ← readBoolean lib gseControlNode "fixedOffs" false
  checkType gseControlNode
  return {
    name := parseAttribute gseControlNode "name"
    desc := parseAttribute gseControlNode "desc"
    dataSet := parseAttribute gseControlNode "datSet"
    confRev := confRev.getD 1
    appID := parseAttribute gseControlNode "appID"
    fixedOffs }

end GSEControl

def LogControl.create (logControlNode : Node) : Java LogControl := do
  let name ← requireAttribute logControlNode "name"
    "LogControl is missing required attribute \"name\""
  let logName ← requireAttribute logControlNode "logName"
    "LogControl is missing required attribute \"logName\""
  let intgPd ← parseNumber lib.decode logControlNode "intgPd"
  let logEna ← readBoolean lib logControlNode "logEna" true
  let reasonCode ← readBoolean lib logControlNode "reasonCode" true
  let triggerOptions ← TriggerOptions.create lib (getChildNodeWithTag logControlNode "TrgOps")
  return {
    name
    desc := parseAttribute logControlNode "desc"
    dataSet := parseAttribute logControlNode "datSet"
    ldInst := parseAttribute logControlNode "ldInst"
    prefixName := parseAttribute logControlNode "prefix"
    lnClass := (parseAttribute logControlNode "lnClass").getD "LLN0"
    logName
    logEna
    reasonCode
    intgPd := intgPd.getD 0
    triggerOptions }

def Log.create (logNode : Node) : Java Log :=
  Log.mk <$> requireAttribute logNode "name" "Log is missing required attribute name!"

def SettingControl.create (settingControlNode : Node) : Java SettingControl := do
  let numOfSGs ← parseNumber lib.decode settingControlNode "numOfSGs"
  let actSG ← parseNumber lib.decode settingControlNode "actSG"
  return {
    desc := parseAttribute settingControlNode "desc"
    numOfSGs := numOfSGs.getD 1
    actSG := actSG.getD 1 }

/-! ## Declared options -/

/-- The options that an element declares. One that is missing declares none. -/
def TriggerOptions.declared (trgOpsNode : Option Node) : TriggerOptions where
  dchg := Scl.declared lib trgOpsNode "dchg" false
  qchg := Scl.declared lib trgOpsNode "qchg" false
  dupd := Scl.declared lib trgOpsNode "dupd" false
  period := Scl.declared lib trgOpsNode "period" false
  gi := Scl.declared lib trgOpsNode "gi" false

/-- The same for the fields of reports, of which the overflow of the buffer is there unless it is
turned off. -/
def OptionFields.declared (optFieldsNode : Option Node) : OptionFields where
  seqNum := Scl.declared lib optFieldsNode "seqNum" false
  timeStamp := Scl.declared lib optFieldsNode "timeStamp" false
  dataSet := Scl.declared lib optFieldsNode "dataSet" false
  reasonCode := Scl.declared lib optFieldsNode "reasonCode" false
  dataRef := Scl.declared lib optFieldsNode "dataRef" false
  entryID := Scl.declared lib optFieldsNode "entryID" false
  configRef := Scl.declared lib optFieldsNode "configRef" false
  bufOvfl := Scl.declared lib optFieldsNode "bufOvfl" true

/-- The attributes that the last two fields are set from say the same as their own. -/
def OptionFields.Agree (optFieldsNode : Option Node) : Prop :=
  Scl.declared lib optFieldsNode "bufOvfl" false =
      Scl.declared lib optFieldsNode "configRef" false ∧
    Scl.declared lib optFieldsNode "reasonCode" true = Scl.declared lib optFieldsNode "bufOvfl" true

/-! ## Verdicts -/

namespace Verdict

def functionalConstraintData (fcdaNode : Node) : Verdict :=
  first [converted valueOf fcdaNode "fc", converted lib.newInteger fcdaNode "ix"]

def dataSet (dataSet : Node) : Verdict :=
  first (required dataSet "name" ::
    (getChildNodesWithTag dataSet "FCDA").map (functionalConstraintData lib))

def options (node : Option Node) (attributeNames : List String) : Verdict :=
  match node with
  | none => .faulty
  | some node => first (attributeNames.map (boolean lib node))

def triggerOptions (trgOpsNode : Option Node) : Verdict :=
  options lib trgOpsNode ["dchg", "qchg", "dupd", "period", "gi"]

def optionFields (optFieldsNode : Option Node) : Verdict :=
  options lib optFieldsNode
    ["seqNum", "timeStamp", "dataSet", "reasonCode", "dataRef", "entryID", "bufOvfl", "reasonCode"]

/-- A block without an index has room for one report at most. -/
def rptEnabled (reportControlNode : Node) : Verdict :=
  match getChildNodeWithTag reportControlNode "RptEnabled" with
  | none => .accepted
  | some node => first [converted lib.newInteger node "max",
      if Scl.declared lib (some reportControlNode) "indexed" true = false ∧
        ((parseAttribute node "max").bind lib.newInteger).getD 1 ≠ 1 then .rejected else .accepted]

def confRef (node : Node) : Verdict :=
  first [required node "confRev", converted lib.newLong node "confRev"]

def reportControlBlock (node : Node) : Verdict :=
  first [converted lib.newLong node "intgPd", confRef lib node, boolean lib node "buffered",
    converted lib.newLong node "bufTime", triggerOptions lib (getChildNodeWithTag node "TrgOps"),
    optionFields lib (getChildNodeWithTag node "OptFields"), boolean lib node "indexed",
    rptEnabled lib node]

def gseType (node : Node) : Verdict :=
  if parseAttribute node "type" ∈ [none, some "GOOSE"] then .accepted else .rejected

def gseControl (node : Node) : Verdict :=
  first [converted lib.newInteger node "confRev", boolean lib node "fixedOffs", gseType node]

def logControl (node : Node) : Verdict :=
  first [required node "name", required node "logName", converted lib.decode node "intgPd",
    boolean lib node "logEna", boolean lib node "reasonCode",
    triggerOptions lib (getChildNodeWithTag node "TrgOps")]

def settingControl (node : Node) : Verdict :=
  first [converted lib.decode node "numOfSGs", converted lib.decode node "actSG"]

end Verdict

section

open Verdict

variable {lib}

theorem verdict_createFromString (fc : String) :
    verdict (createFromString fc) = if (valueOf fc).isSome then .accepted else .faulty := by
  rw [createFromString]
  cases valueOf fc <;> rfl

theorem verdict_fcOf (fcdaNode : Node) :
    verdict (FunctionalConstraintData.fcOf fcdaNode) = converted valueOf fcdaNode "fc" := by
  rw [FunctionalConstraintData.fcOf, converted]
  cases parseAttribute fcdaNode "fc" with
  | none => rfl
  | some fc => exact (verdict_map some).trans (verdict_createFromString fc)

theorem verdict_functionalConstraintData (fcdaNode : Node) :
    verdict (FunctionalConstraintData.create lib fcdaNode) =
      functionalConstraintData lib fcdaNode :=
  verdict_bind (verdict_fcOf fcdaNode) fun _ _ =>
    verdict_bind (verdict_parseNumber lib.newInteger fcdaNode "ix") fun _ _ => rfl

theorem verdict_dataSet (node : Node) : verdict (DataSet.create lib node) = dataSet lib node := by
  refine verdict_bind (verdict_requireAttribute ..) fun _ _ => ?_
  refine (verdict_bind_pure _).trans (verdict_mapM.trans ?_)
  exact congrArg first (List.map_congr_left fun fcdaNode _ =>
    verdict_functionalConstraintData fcdaNode)

theorem verdict_triggerOptions (trgOpsNode : Option Node) :
    verdict (TriggerOptions.create lib trgOpsNode) = triggerOptions lib trgOpsNode := by
  cases trgOpsNode with
  | none => rfl
  | some trgOpsNode =>
    refine verdict_bind (verdict_readBoolean ..) fun _ _ => ?_
    refine verdict_bind (verdict_readBoolean ..) fun _ _ => ?_
    refine verdict_bind (verdict_readBoolean ..) fun _ _ => ?_
    refine verdict_bind (verdict_readBoolean ..) fun _ _ => ?_
    exact verdict_bind (verdict_readBoolean ..) fun _ _ => rfl

theorem verdict_optionFields (optFieldsNode : Option Node) :
    verdict (OptionFields.create lib optFieldsNode) = optionFields lib optFieldsNode := by
  cases optFieldsNode with
  | none => rfl
  | some optFieldsNode =>
    refine verdict_bind (verdict_readBoolean ..) fun _ _ => ?_
    refine verdict_bind (verdict_readBoolean ..) fun _ _ => ?_
    refine verdict_bind (verdict_readBoolean ..) fun _ _ => ?_
    refine verdict_bind (verdict_readBoolean ..) fun _ _ => ?_
    refine verdict_bind (verdict_readBoolean ..) fun _ _ => ?_
    refine verdict_bind (verdict_readBoolean ..) fun _ _ => ?_
    refine verdict_bind (verdict_readBoolean ..) fun _ _ => ?_
    exact verdict_bind (verdict_readBoolean ..) fun _ _ => rfl

theorem triggerOptions_declared {trgOpsNode : Option Node} {options : TriggerOptions}
    (h : TriggerOptions.create lib trgOpsNode = .ok options) :
    options = TriggerOptions.declared lib trgOpsNode := by
  cases trgOpsNode with
  | none => cases h
  | some trgOpsNode =>
    obtain ⟨dchg, hdchg, h⟩ := bind_ok h
    obtain ⟨qchg, hqchg, h⟩ := bind_ok h
    obtain ⟨dupd, hdupd, h⟩ := bind_ok h
    obtain ⟨period, hperiod, h⟩ := bind_ok h
    obtain ⟨gi, hgi, h⟩ := bind_ok h
    cases h
    rw [readBoolean_ok hdchg, readBoolean_ok hqchg, readBoolean_ok hdupd, readBoolean_ok hperiod,
      readBoolean_ok hgi]
    rfl

/-- The fields are the declared ones, but for the last two. -/
theorem optionFields_declared {optFieldsNode : Option Node} {fields : OptionFields}
    (h : OptionFields.create lib optFieldsNode = .ok fields) :
    fields = { OptionFields.declared lib optFieldsNode with
      configRef := Scl.declared lib optFieldsNode "bufOvfl" false
      bufOvfl := Scl.declared lib optFieldsNode "reasonCode" true } := by
  cases optFieldsNode with
  | none => cases h
  | some optFieldsNode =>
    obtain ⟨seqNum, hseqNum, h⟩ := bind_ok h
    obtain ⟨timeStamp, htimeStamp, h⟩ := bind_ok h
    obtain ⟨dataSet, hdataSet, h⟩ := bind_ok h
    obtain ⟨reasonCode, hreasonCode, h⟩ := bind_ok h
    obtain ⟨dataRef, hdataRef, h⟩ := bind_ok h
    obtain ⟨entryID, hentryID, h⟩ := bind_ok h
    obtain ⟨configRef, hconfigRef, h⟩ := bind_ok h
    obtain ⟨bufOvfl, hbufOvfl, h⟩ := bind_ok h
    cases h
    rw [readBoolean_ok hseqNum, readBoolean_ok htimeStamp, readBoolean_ok hdataSet,
      readBoolean_ok hreasonCode, readBoolean_ok hdataRef, readBoolean_ok hentryID,
      readBoolean_ok hconfigRef, readBoolean_ok hbufOvfl]
    rfl

theorem optionFields_eq_declared_iff {optFieldsNode : Option Node} {fields : OptionFields}
    (h : OptionFields.create lib optFieldsNode = .ok fields) :
    fields = OptionFields.declared lib optFieldsNode ↔ OptionFields.Agree lib optFieldsNode := by
  rw [optionFields_declared h, OptionFields.mk.injEq]
  simp only [OptionFields.declared, OptionFields.Agree, true_and]

theorem verdict_confRefOf (node : Node) :
    verdict (ReportControlBlock.confRefOf lib node) = confRef lib node := by
  rw [ReportControlBlock.confRefOf, confRef, required, converted]
  cases parseAttribute node "confRev" with
  | none => rfl
  | some confRefStr => exact (verdict_newNumber ..).trans (first_singleton _).symm

theorem verdict_rptEnaOf (node : Node) :
    verdict (ReportControlBlock.rptEnaOf lib node (Scl.declared lib (some node) "indexed" true)) =
      rptEnabled lib node := by
  rw [ReportControlBlock.rptEnaOf, rptEnabled]
  cases getChildNodeWithTag node "RptEnabled" with
  | none => rfl
  | some rptEnabledNode =>
    refine verdict_bind ((verdict_bind_pure _).trans (verdict_parseNumber ..)) fun rptEna h => ?_
    obtain ⟨maxInstances, hmax, h⟩ := bind_ok h
    cases h
    rw [parseNumber_ok hmax, first_singleton]
    split <;> rfl

theorem verdict_reportControlBlock (node : Node) :
    verdict (ReportControlBlock.create lib node) = reportControlBlock lib node := by
  refine verdict_bind (verdict_parseNumber ..) fun _ _ => ?_
  refine verdict_bind (verdict_confRefOf node) fun _ _ => ?_
  refine verdict_bind (verdict_readBoolean ..) fun _ _ => ?_
  refine verdict_bind (verdict_parseNumber ..) fun _ _ => ?_
  refine verdict_bind (verdict_triggerOptions _) fun _ _ => ?_
  refine verdict_bind (verdict_optionFields _) fun _ _ => ?_
  refine verdict_bind (verdict_readBoolean ..) fun indexed hindexed => ?_
  rw [readBoolean_ok hindexed]
  exact verdict_bind (verdict_rptEnaOf node) fun _ _ => rfl

/-- The options of a block are what is made of its elements. -/
theorem reportControlBlock_options {node : Node} {block : ReportControlBlock}
    (h : ReportControlBlock.create lib node = .ok block) :
    TriggerOptions.create lib (getChildNodeWithTag node "TrgOps") = .ok block.triggerOptions ∧
      OptionFields.create lib (getChildNodeWithTag node "OptFields") = .ok block.optionFields := by
  obtain ⟨integrityPeriod, _, h⟩ := bind_ok h
  obtain ⟨confRef, _, h⟩ := bind_ok h
  obtain ⟨buffered, _, h⟩ := bind_ok h
  obtain ⟨bufferTime, _, h⟩ := bind_ok h
  obtain ⟨triggerOptions, htriggerOptions, h⟩ := bind_ok h
  obtain ⟨optionFields, hoptionFields, h⟩ := bind_ok h
  obtain ⟨indexed, _, h⟩ := bind_ok h
  obtain ⟨rptEna, _, h⟩ := bind_ok h
  cases h
  exact ⟨htriggerOptions, hoptionFields⟩

theorem verdict_checkType (node : Node) : verdict (GSEControl.checkType node) = gseType node := by
  rw [GSEControl.checkType, gseType]
  cases parseAttribute node "type" with
  | none => rfl
  | some typeString =>
    by_cases h : typeString = "GOOSE"
    · rw [if_pos (by rw [h]; exact List.mem_cons_of_mem _ List.mem_cons_self)]
      simp only [if_pos h, verdict_ok]
    · rw [if_neg (by simpa using h)]
      simp only [if_neg h]
      rfl

theorem verdict_gseControl (node : Node) :
    verdict (GSEControl.create lib node) = gseControl lib node := by
  refine verdict_bind (verdict_parseNumber ..) fun _ _ => ?_
  refine verdict_bind (verdict_readBoolean ..) fun _ _ => ?_
  exact verdict_bind (verdict_checkType node) fun _ _ => rfl

theorem verdict_logControl (node : Node) :
    verdict (LogControl.create lib node) = logControl lib node := by
  refine verdict_bind (verdict_requireAttribute ..) fun _ _ => ?_
  refine verdict_bind (verdict_requireAttribute ..) fun _ _ => ?_
  refine verdict_bind (verdict_parseNumber ..) fun _ _ => ?_
  refine verdict_bind (verdict_readBoolean ..) fun _ _ => ?_
  refine verdict_bind (verdict_readBoolean ..) fun _ _ => ?_
  exact verdict_bind (verdict_triggerOptions _) fun _ _ => rfl

theorem verdict_log (node : Node) : verdict (Log.create node) = required node "name" :=
  (verdict_map Log.mk).trans (verdict_requireAttribute ..)

theorem verdict_settingControl (node : Node) :
    verdict (SettingControl.create lib node) = settingControl lib node :=
  verdict_bind (verdict_parseNumber ..) fun _ _ =>
    verdict_bind (verdict_parseNumber ..) fun _ _ => rfl

end

end Iec61850.Scl
