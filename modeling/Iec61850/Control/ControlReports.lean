import Iec61850.Client.ObjectReferences
import Iec61850.Control.ControlClient
import Iec61850.Lib.Slots
import Iec61850.Mms.IntegerSetters

/-! What a control object reports to its client without being asked, and how the client finds the
control objects it is for (`control.c`, `ied_connection.c`). -/

namespace Iec61850.Control

open Machine

/-- An information report as the handler of the connection gets it. -/
structure InformationReport where
  domainName : Option (List UInt8)
  variableListName : List UInt8
  value : MmsValue
  isVariableListName : Bool

/-- The element of a control object that an error is about. -/
inductive CtlVariable
  | oper | sBOw | cancel
  deriving DecidableEq

def CtlVariable.name : CtlVariable → List UInt8
  | .oper => ascii "Oper"
  | .sBOw => ascii "SBOw"
  | .cancel => ascii "Cancel"

/-- `createStringInBuffer`, in a buffer with this size. -/
def createStringInBuffer (size : Nat) (strings : List (List UInt8)) : Exec (List UInt8) :=
  if strings.flatten.length < size then .ok strings.flatten else .error .outOfBounds

theorem four_lt_maxSize : 4 < 256 := by decide

/-- What the values of the error and of the additional cause are made as. -/
def newInteger : MmsValue := .integer (.create ⟨4, four_lt_maxSize⟩)

namespace ControlNames

/-- `LN$CO$object` -/
def itemName (n : ControlNames) : List UInt8 := n.lnName ++ 36 :: fcCO ++ 36 :: n.name

/-- `ControlObject_sendCommandTerminationReq` -/
def sendCommandTerminationReq (n : ControlNames) (oper : MmsValue) : Exec InformationReport := do
  let itemId ← createStringInBuffer 130 [n.lnName, ascii "$CO$", n.name, ascii "$Oper"]
  return ⟨some n.domainName, itemId, oper, false⟩

/-- `ctlObjectName`, which is made once. -/
def ctlObjectName (n : ControlNames) : Exec (List UInt8) :=
  createStringInBuffer 130 [n.domainName, [47], n.lnName, ascii "$CO$", n.name]

def ctlObj (n : ControlNames) (ctlVariable : CtlVariable) : List UInt8 :=
  n.domainName ++ 47 :: (n.itemName ++ 36 :: ctlVariable.name)

theorem zero_notMem_ctlObj (n : ControlNames) (ctlVariable : CtlVariable) :
    0 ∉ n.ctlObj ctlVariable := by
  have h := n.noZero
  simp only [List.mem_append, not_or] at h
  have hname : 0 ∉ n.name := by
    intro hmem
    obtain ⟨c, hc, hzero⟩ := List.mem_map.mp hmem
    exact toMmsOctet_ne_zero (fun h0 => h.2 (h0 ▸ hc)) hzero
  have hvariable : 0 ∉ ctlVariable.name := by cases ctlVariable <;> decide
  have hfc : 0 ∉ fcCO := by decide
  simp [ctlObj, itemName, h.1.1, h.1.2, hname, hvariable, hfc]

/-- `ControlObject_sendLastApplError` -/
def sendLastApplError (n : ControlNames) (ctlVariable : CtlVariable) (e : LastApplError) :
    Exec InformationReport := do
  let ctlObjectName ← n.ctlObjectName
  let _ ← createStringInBuffer 130 [ctlObjectName, [36], ctlVariable.name]
  let error := newInteger.setInt32 e.error
  let addCause := newInteger.setInt32 e.addCause
  return ⟨none, ascii "LastApplError", .structured [
    .visibleString (some ⟨n.ctlObj ctlVariable, n.zero_notMem_ctlObj ctlVariable⟩),
    error, e.origin, e.ctlNum, addCause], false⟩

end ControlNames

/-- What the client keeps of an error. -/
structure ReceivedError where
  ctlNum : UInt32
  error : Int32
  addCause : Int32

/-- A control object of the connection. -/
structure AttachedControl where
  client : ControlObjectClient
  lastApplError : ReceivedError

structure IedConnection where
  lastApplError : ReceivedError
  clientControls : List AttachedControl

/-- `memcmp` for equality: both memories have this size, with the zero at their ends. -/
def memcmpEqual (a b : List UInt8) (size : Nat) : Exec Bool :=
  if size ≤ a.length + 1 ∧ size ≤ b.length + 1 then .ok (a.take size = b.take size)
  else .error .outOfBounds

def doesControlObjectMatch (objRef cntrlObj : List UInt8) : Exec Bool :=
  match strchr cntrlObj 36 with
  | none => .ok false
  | some behindPrefix => do
    let sepLen := cntrlObj.length - behindPrefix.length
    if objRef.length ≤ sepLen then return false
    if !(← memcmpEqual objRef cntrlObj sepLen) then return false
    let cntrlObjName := objRef.drop (sepLen + 1)
    match (ascii "$CO$").isPrefixOf? behindPrefix with
    | none => return false
    | some names =>
      match strchr names 36 with
      | none => return false
      | some nextSeparator =>
        if cntrlObjName.length ≠ names.length - nextSeparator.length then return false
        memcmpEqual cntrlObjName names cntrlObjName.length

/-- The loop over the name of the logical node, up to the dot in the reference. -/
def matchLogicalNode : List UInt8 → List UInt8 → Exec (Option (List UInt8 × List UInt8))
  | [], [] => .error .outOfBounds
  | [], _ :: _ => .ok none
  | c :: objectRef, itemName =>
    if c = 46 then .ok (some (objectRef, itemName))
    else
      match itemName with
      | [] => .ok none
      | d :: itemName => if c = d then matchLogicalNode objectRef itemName else .ok none

/-- The loop over the name of the object, that has dollar signs for the dots. -/
def matchObject : List UInt8 → List UInt8 → Option (List UInt8)
  | [], itemName => some itemName
  | _ :: _, [] => none
  | c :: objectRef, d :: itemName =>
    if c = 46 then if d = 36 then matchObject objectRef itemName else none
    else if c = d then matchObject objectRef itemName
    else none

/-- A comparison with a constant stops at the first difference. -/
def doesReportMatchControlObject (domainName itemName objectRef : List UInt8) : Exec Bool :=
  match domainName.isPrefixOf? objectRef with
  | none => .ok false
  | some behindDomain =>
    match [47].isPrefixOf? behindDomain with
    | none => .ok false
    | some objectRef => do
      match ← matchLogicalNode objectRef itemName with
      | none => return false
      | some (objectRef, itemName) =>
        match (ascii "$CO$").isPrefixOf? itemName with
        | none => return false
        | some itemName =>
          match matchObject objectRef itemName with
          | none => return false
          | some itemName => return itemName = ascii "$Oper"

/-- The loop over the control objects of the connection: those that match, by their positions, and
what it does with each of them. -/
def forMatching (doesMatch : List UInt8 → Exec Bool) (action : AttachedControl → AttachedControl) :
    List AttachedControl → Nat → Exec (List AttachedControl × List Nat)
  | [], _ => .ok ([], [])
  | object :: controls, i => do
    let found ← doesMatch object.client.objectReference
    let (controls, delivered) ← forMatching doesMatch action controls (i + 1)
    if found then return (action object :: controls, i :: delivered)
    else return (object :: controls, delivered)

/-- `MmsValue_getElement` -/
def reportElement (index : Nat) : MmsValue → Option MmsValue
  | .structured components => components[index]?
  | .array elements => elements[index]?
  | _ => none

/-- `MmsValue_toString` -/
def stringOf : MmsValue → Option MmsValue.CString
  | .visibleString s => s
  | .mmsString s => s
  | _ => none

/-- A null pointer is passed on where a part of the message is missing. -/
def handleLastApplErrorMessage (self : IedConnection) (value : MmsValue) :
    Exec (IedConnection × List Nat) :=
  match reportElement 0 value, reportElement 1 value, reportElement 3 value,
    reportElement 4 value with
  | some cntrlObj, some error, some ctlNum, some addCause => do
    let lastApplError : ReceivedError := ⟨ctlNum.toUint32, error.toInt32, addCause.toInt32⟩
    let (clientControls, delivered) ← forMatching
      (fun objectRef => (stringOf cntrlObj).elim (.error .nullPointer)
        fun s => doesControlObjectMatch objectRef s.octets)
      (fun object => { object with lastApplError := lastApplError }) self.clientControls 0
    return (⟨lastApplError, clientControls⟩, delivered)
  | _, _, _, _ => .error .nullPointer

/-- The control objects that a report is delivered to, by their positions. The reports of report
control blocks are none for them. -/
def informationReportHandler (self : IedConnection) (report : InformationReport) :
    Exec (IedConnection × List Nat) :=
  match report.domainName with
  | none =>
    if report.isVariableListName then .ok (self, [])
    else if report.variableListName = ascii "LastApplError" then
      handleLastApplErrorMessage self report.value
    else .ok (self, [])
  | some domainName => do
    let (clientControls, delivered) ← forMatching
      (doesReportMatchControlObject domainName report.variableListName) id self.clientControls 0
    return ({ self with clientControls := clientControls }, delivered)

section Matching

variable {as bs cs : List UInt8} {n m : ControlNames}

theorem isPrefixOf?_append (as bs : List UInt8) : as.isPrefixOf? (as ++ bs) = some bs := by
  induction as with
  | nil => rfl
  | cons a as ih => rw [List.cons_append, List.isPrefixOf?, if_pos (beq_self_eq_true a), ih]

theorem eq_append_of_isPrefixOf? (h : as.isPrefixOf? bs = some cs) : bs = as ++ cs := by
  induction as generalizing bs with
  | nil =>
    cases h
    rfl
  | cons a as ih =>
    cases bs with
    | nil => cases h
    | cons b bs =>
      rw [List.isPrefixOf?] at h
      split at h
      case isTrue heq => rw [ih h, ← beq_iff_eq.mp heq, List.cons_append]
      case isFalse => cases h

theorem matchObject_iff {objectRef itemName rest : List UInt8} :
    matchObject objectRef itemName = some rest ↔ itemName = objectRef.map toMmsOctet ++ rest := by
  induction objectRef generalizing itemName with
  | nil =>
    rw [matchObject, List.map_nil, List.nil_append]
    exact Option.some_inj
  | cons c objectRef ih =>
    cases itemName with
    | nil =>
      rw [matchObject]
      exact iff_of_false (Option.some_ne_none rest).symm (List.cons_ne_nil _ _).symm
    | cons d itemName =>
      rw [matchObject, List.map_cons, List.cons_append, toMmsOctet, List.cons.injEq]
      split
      · split
        case isTrue hd => rw [ih, and_iff_right hd]
        case isFalse hd => exact iff_of_false (Option.some_ne_none rest).symm fun h => hd h.1
      · split
        case isTrue hd => rw [ih, and_iff_right hd.symm]
        case isFalse hd =>
          exact iff_of_false (Option.some_ne_none rest).symm fun h => hd h.1.symm

/-- The loop stops in front of the end of the reference, where there is a dot in it. -/
theorem matchLogicalNode_eq {lnName objectRef : List UInt8} (h : 46 ∉ lnName)
    (itemName : List UInt8) :
    matchLogicalNode (lnName ++ 46 :: objectRef) itemName =
      .ok ((lnName.isPrefixOf? itemName).map fun rest => (objectRef, rest)) := by
  induction lnName generalizing itemName with
  | nil =>
    cases itemName <;> rfl
  | cons c lnName ih =>
    have hc : c ≠ 46 := (List.ne_of_not_mem_cons h).symm
    cases itemName with
    | nil =>
      rw [List.cons_append, matchLogicalNode, if_neg hc]
      rfl
    | cons d itemName =>
      rw [List.cons_append, matchLogicalNode, if_neg hc, List.isPrefixOf?]
      by_cases hd : c = d
      · rw [if_pos hd, if_pos (beq_iff_eq.mpr hd)]
        exact ih (List.not_mem_of_not_mem_cons h) itemName
      · rw [if_neg hd, if_neg fun heq => hd (beq_iff_eq.mp heq)]
        rfl

theorem itemName_eq (n : ControlNames) (rest : List UInt8) :
    n.itemName ++ rest = n.lnName ++ (ascii "$CO$" ++ (n.objectName.map toMmsOctet ++ rest)) := by
  have hco : ascii "$CO$" = 36 :: fcCO ++ [36] := rfl
  rw [ControlNames.itemName, ControlNames.name, hco]
  simp only [List.append_assoc, List.cons_append, List.nil_append]

/-- The part of a report that is compared with a reference of the same domain. -/
theorem matchItem_eq (itemName : List UInt8) :
    (matchLogicalNode (m.lnName ++ 46 :: m.objectName) itemName >>= fun found =>
      match found with
      | none => pure false
      | some (objectRef, itemName) =>
        match (ascii "$CO$").isPrefixOf? itemName with
        | none => pure false
        | some itemName =>
          match matchObject objectRef itemName with
          | none => pure false
          | some itemName => pure (decide (itemName = ascii "$Oper"))) =
      .ok (decide (itemName = m.itemName ++ ascii "$Oper")) := by
  rw [matchLogicalNode_eq m.noDot, ok_bind, itemName_eq]
  cases hln : m.lnName.isPrefixOf? itemName with
  | none =>
    refine congrArg Except.ok (decide_eq_false ?_).symm
    rintro rfl
    rw [isPrefixOf?_append] at hln
    cases hln
  | some rest =>
    obtain rfl := eq_append_of_isPrefixOf? hln
    simp only [Option.map_some, List.append_cancel_left_eq]
    cases hco : (ascii "$CO$").isPrefixOf? rest with
    | none =>
      refine congrArg Except.ok (decide_eq_false ?_).symm
      rintro rfl
      rw [isPrefixOf?_append] at hco
      cases hco
    | some names =>
      obtain rfl := eq_append_of_isPrefixOf? hco
      simp only [List.append_cancel_left_eq]
      cases hname : matchObject m.objectName names with
      | none =>
        refine congrArg Except.ok (decide_eq_false ?_).symm
        intro heq
        rw [matchObject_iff.mpr heq] at hname
        cases hname
      | some rest =>
        obtain rfl := matchObject_iff.mp hname
        simp only [List.append_cancel_left_eq]
        rfl

/-- A reference matches a report exactly when the names of its own requests are those in it. -/
theorem doesReportMatchControlObject_eq {domainName : List UInt8} (itemName : List UInt8)
    (hdomain : 47 ∉ domainName) :
    doesReportMatchControlObject domainName itemName m.objectReference =
      .ok (decide (m.domainName = domainName ∧ itemName = m.itemName ++ ascii "$Oper")) := by
  rw [doesReportMatchControlObject]
  cases hprefix : domainName.isPrefixOf? m.objectReference with
  | none =>
    refine congrArg Except.ok (decide_eq_false ?_).symm
    rintro ⟨rfl, -⟩
    rw [ControlNames.objectReference, isPrefixOf?_append] at hprefix
    cases hprefix
  | some behindDomain =>
    have heq := eq_append_of_isPrefixOf? hprefix
    dsimp only
    cases hslash : [47].isPrefixOf? behindDomain with
    | none =>
      refine congrArg Except.ok (decide_eq_false ?_).symm
      rintro ⟨rfl, -⟩
      rw [ControlNames.objectReference, List.append_cancel_left_eq] at heq
      rw [← heq] at hslash
      cases hslash
    | some objectRef =>
      obtain rfl := eq_append_of_isPrefixOf? hslash
      obtain ⟨hsame, rfl⟩ := append_cons_inj m.noSlash hdomain heq
      simp only [hsame, true_and]
      exact matchItem_eq itemName

/-- The first name of an object. -/
def ControlNames.topName (n : ControlNames) : List UInt8 := n.objectName.takeWhile (· ≠ 46)

theorem topName_eq (hplain : 36 ∉ n.objectName) (rest : List UInt8) :
    36 ∉ n.topName ∧ 46 ∉ n.topName ∧
      ∃ tail, n.name ++ 36 :: rest = n.topName ++ 36 :: tail := by
  have hdot : ∀ c ∈ n.topName, c ≠ 46 := by
    intro c hc
    simpa using List.mem_takeWhile_imp hc
  refine ⟨fun h => hplain (List.takeWhile_subset _ h), fun h => hdot 46 h rfl, ?_⟩
  · have hsplit := List.takeWhile_append_dropWhile (p := (· ≠ 46)) (l := n.objectName)
    have hkeep : n.topName.map toMmsOctet = n.topName := by
      refine (List.map_congr_left fun c hc => ?_).trans (List.map_id _)
      exact if_neg (hdot c hc)
    rw [ControlNames.name, ← hsplit, List.map_append]
    cases hdrop : n.objectName.dropWhile (· ≠ 46) with
    | nil =>
      refine ⟨rest, ?_⟩
      rw [List.map_nil, List.append_nil]
      exact congrArg (· ++ _) hkeep
    | cons c behind =>
      have hc : c = 46 := by
        have hhead := List.head?_dropWhile_not (· ≠ 46) n.objectName
        rw [hdrop] at hhead
        simpa using hhead
      refine ⟨behind.map toMmsOctet ++ 36 :: rest, ?_⟩
      rw [List.map_cons, hc, List.append_assoc]
      exact congrArg (· ++ _) hkeep

/-- The comparison of an error ends at the second name of the object, and looks at any character
behind the name of the logical node. -/
theorem doesControlObjectMatch_eq (hdomain : 36 ∉ n.domainName) (hln : 36 ∉ n.lnName)
    (hplain : 36 ∉ n.objectName) (ctlVariable : CtlVariable) (objRef : List UInt8) :
    ∃ b, doesControlObjectMatch objRef (n.ctlObj ctlVariable) = .ok b ∧
      (b = true ↔ ∃ c, objRef = n.domainName ++ 47 :: n.lnName ++ c :: n.topName) := by
  obtain ⟨htop, -, tail, htail⟩ := topName_eq hplain ctlVariable.name
  have hnames : n.ctlObj ctlVariable =
      (n.domainName ++ 47 :: n.lnName) ++ 36 :: (fcCO ++ 36 :: (n.topName ++ 36 :: tail)) := by
    rw [← htail, ControlNames.ctlObj, ControlNames.itemName]
    simp only [List.append_assoc, List.cons_append]
  have hprefix : 36 ∉ n.domainName ++ 47 :: n.lnName := by
    simp [hdomain, hln]
  generalize n.domainName ++ 47 :: n.lnName = before at hnames hprefix ⊢
  have hco : 36 :: (fcCO ++ 36 :: (n.topName ++ 36 :: tail)) =
      ascii "$CO$" ++ (n.topName ++ 36 :: tail) := rfl
  rw [doesControlObjectMatch, hnames, strchr_append hprefix]
  simp only [List.length_append, Nat.add_sub_cancel]
  by_cases hlen : objRef.length ≤ before.length
  · refine ⟨false, if_pos hlen, iff_of_false Bool.false_ne_true ?_⟩
    rintro ⟨c, rfl⟩
    simp at hlen
  rw [if_neg hlen]
  have hcompare : memcmpEqual objRef (before ++ 36 :: (fcCO ++ 36 :: (n.topName ++ 36 :: tail)))
      before.length = .ok (decide (objRef.take before.length = before)) := by
    rw [memcmpEqual, if_pos, List.take_left]
    rw [List.length_append]
    omega
  rw [hcompare]
  by_cases hbefore : objRef.take before.length = before
  · rw [decide_eq_true hbefore, hco, isPrefixOf?_append]
    simp only [ok_bind, strchr_append htop, List.length_append, Nat.add_sub_cancel]
    obtain ⟨c, name, rfl⟩ : ∃ c name, objRef = before ++ c :: name := by
      have hsplit := List.take_append_drop before.length objRef
      rw [hbefore] at hsplit
      cases hdrop : objRef.drop before.length with
      | nil => exact absurd (List.drop_eq_nil_iff.mp hdrop) hlen
      | cons c name => exact ⟨c, name, (hdrop ▸ hsplit).symm⟩
    have hname : (before ++ c :: name).drop (before.length + 1) = name := by simp
    have hiff : (∃ d, before ++ c :: name = before ++ d :: n.topName) ↔ name = n.topName := by
      simp
    rw [hname, hiff]
    simp only [Bool.not_true, Bool.false_eq_true, if_false]
    by_cases hsize : name.length = n.topName.length
    · refine ⟨decide (name = n.topName), ?_, decide_eq_true_iff⟩
      rw [if_neg (not_not_intro hsize), memcmpEqual, if_pos, List.take_length, hsize,
        List.take_left]
      rw [List.length_append]
      omega
    · exact ⟨false, if_pos hsize, iff_of_false Bool.false_ne_true fun h => hsize (h ▸ rfl)⟩
  · rw [decide_eq_false hbefore]
    refine ⟨false, rfl, iff_of_false Bool.false_ne_true ?_⟩
    rintro ⟨c, rfl⟩
    exact hbefore List.take_left

theorem reference_top_iff (hdomain : 47 ∉ n.domainName) (hln : 46 ∉ n.lnName) {top : List UInt8}
    (htop : 46 ∉ top) :
    (∃ c, m.objectReference = n.domainName ++ 47 :: n.lnName ++ c :: top) ↔
      m.domainName = n.domainName ∧ m.lnName = n.lnName ∧ m.objectName = top := by
  rw [ControlNames.objectReference]
  constructor
  · rintro ⟨c, h⟩
    rw [List.append_assoc, List.cons_append] at h
    obtain ⟨hsame, h⟩ := append_cons_inj m.noSlash hdomain h
    have hc : c = 46 := by
      have hmem : 46 ∈ n.lnName ++ c :: top := h ▸ List.mem_append_right _ List.mem_cons_self
      simpa [hln, htop, eq_comm] using hmem
    subst hc
    obtain ⟨hlnSame, hname⟩ := append_cons_inj m.noDot hln h
    exact ⟨hsame, hlnSame, hname⟩
  · rintro ⟨hsame, hlnSame, hname⟩
    refine ⟨46, ?_⟩
    rw [hsame, hlnSame, hname, List.append_assoc, List.cons_append]

end Matching

/-- The requests that are made with the reference are for this object. -/
def Denotes (objectReference : List UInt8) (n : ControlNames) : Prop :=
  getMmsDomainFromObjectReference objectReference = n.domainName ∧
    convertToMmsAndInsertFC (objectReference.drop (n.domainName.length + 1)) fcCO = n.itemName

instance (objectReference : List UInt8) (n : ControlNames) :
    Decidable (Denotes objectReference n) :=
  inferInstanceAs (Decidable (_ ∧ _))

/-- The names of a control object of a server: they are plain, and keep to the limit. -/
structure ControlNames.Plain (n : ControlNames) : Prop where
  domainName : 36 ∉ n.domainName ∧ 47 ∉ n.domainName
  lnName : 36 ∉ n.lnName ∧ 46 ∉ n.lnName
  objectName : 36 ∉ n.objectName
  domain_length_le : n.domainName.length ≤ 64
  item_length_le : ∀ ctlVariable : CtlVariable,
    (n.itemName ++ 36 :: ctlVariable.name).length ≤ 64

/-- The reference of the data object at the top of those that the object is in. -/
def ControlNames.topReference (n : ControlNames) : List UInt8 :=
  n.domainName ++ 47 :: (n.lnName ++ 46 :: n.topName)

section Denotes

variable {n m : ControlNames}

theorem denotes_iff :
    Denotes m.objectReference n ↔ m.domainName = n.domainName ∧ m.itemName = n.itemName := by
  rw [Denotes, ControlNames.getDomain_objectReference]
  refine and_congr_right fun hdomain => ?_
  have hdrop : m.objectReference.drop (n.domainName.length + 1) =
      m.lnName ++ 46 :: m.objectName := by
    rw [ControlNames.objectReference, hdomain, ← List.drop_drop, List.drop_left]
    rfl
  rw [hdrop, ControlNames.convert_objectReference]
  rfl

theorem count_itemName (hln : 36 ∉ n.lnName) (hplain : 36 ∉ n.objectName) :
    n.itemName.count 36 = 2 + n.objectName.count 46 := by
  have hname : n.name.count 36 = n.objectName.count 46 := by
    rw [ControlNames.name, List.count_eq_countP, List.countP_map, List.count_eq_countP]
    refine List.countP_congr fun c hc => ?_
    have hne : c ≠ 36 := fun h => hplain (h ▸ hc)
    simp [toMmsOctet, hne]
  have hfc : fcCO.count 36 = 0 := rfl
  simp only [ControlNames.itemName, List.count_append, List.count_cons, hfc, hname,
    List.count_eq_zero_of_not_mem hln, beq_self_eq_true, if_true]
  omega

theorem map_toMmsOctet {name : List UInt8} (h : 46 ∉ name) : name.map toMmsOctet = name := by
  refine (List.map_congr_left fun c hc => if_neg ?_).trans (List.map_id name)
  rintro rfl
  exact h hc

/-- A reference that matches is that of the top data object. -/
theorem top_iff (hn : n.Plain) :
    (∃ c, m.objectReference = n.domainName ++ 47 :: n.lnName ++ c :: n.topName) ↔
      m.objectReference = n.topReference := by
  have htop := (topName_eq hn.objectName []).2.1
  constructor
  · intro h
    obtain ⟨hdomain, hln, hname⟩ := (reference_top_iff hn.domainName.2 hn.lnName.2 htop).mp h
    rw [ControlNames.objectReference, ControlNames.topReference, hdomain, hln, hname]
  · intro h
    refine ⟨46, h.trans ?_⟩
    rw [ControlNames.topReference, List.append_assoc, List.cons_append]

theorem topName_of_plain (hdot : 46 ∉ n.objectName) : n.topName = n.objectName :=
  List.takeWhile_eq_self_iff.mpr (decide_ne_of_notMem hdot)

/-- An object with a single name is the top data object itself. -/
theorem denotes_iff_top (hn : n.Plain) (hdot : 46 ∉ n.objectName) :
    Denotes m.objectReference n ↔ m.objectReference = n.topReference := by
  have htop := (topName_eq hn.objectName []).2.1
  rw [← top_iff hn, reference_top_iff hn.domainName.2 hn.lnName.2 htop, denotes_iff,
    topName_of_plain hdot]
  refine and_congr_right fun _ => ?_
  constructor
  · intro hitem
    have hcount := congrArg (List.count 36) hitem
    rw [count_itemName hn.lnName.1 hn.objectName, List.count_eq_zero_of_not_mem hdot] at hcount
    have hfc : fcCO.count 36 = 0 := rfl
    simp only [ControlNames.itemName, List.count_append, List.count_cons, hfc,
      beq_self_eq_true, if_true] at hcount
    have hlnPlain : 36 ∉ m.lnName := List.count_eq_zero.mp (by omega)
    have hnamePlain : 36 ∉ m.name := List.count_eq_zero.mp (by omega)
    have hobject : 46 ∉ m.objectName := fun hmem => hnamePlain (List.mem_map.mpr ⟨46, hmem, rfl⟩)
    rw [ControlNames.itemName, ControlNames.itemName, List.append_assoc, List.append_assoc] at hitem
    obtain ⟨hln, hrest⟩ := append_cons_inj hlnPlain hn.lnName.1 hitem
    have hname := (List.cons.inj (List.append_cancel_left hrest)).2
    rw [ControlNames.name, ControlNames.name, map_toMmsOctet hobject, map_toMmsOctet hdot] at hname
    exact ⟨hln, hname⟩
  · rintro ⟨hln, hname⟩
    rw [ControlNames.itemName, ControlNames.itemName, ControlNames.name, ControlNames.name, hln,
      hname]

/-- The reference of the top data object does not denote an object inside of it. -/
theorem not_denotes_top (hn : n.Plain) (hdot : 46 ∈ n.objectName)
    (h : m.objectReference = n.topReference) : ¬ Denotes m.objectReference n := by
  have htop := topName_eq hn.objectName []
  obtain ⟨-, hln, hname⟩ :=
    (reference_top_iff hn.domainName.2 hn.lnName.2 htop.2.1).mp ((top_iff hn).mpr h)
  rw [denotes_iff]
  rintro ⟨_, hitem⟩
  have hcount := congrArg (List.count 36) hitem
  rw [count_itemName hn.lnName.1 hn.objectName, count_itemName (hln ▸ hn.lnName.1)
    (hname ▸ htop.1), hname, List.count_eq_zero_of_not_mem htop.2.1] at hcount
  have hpos := List.count_pos_iff.mpr hdot
  omega

end Denotes

section Dispatch

/-- The positions of the control objects with a property. -/
def positions (p : AttachedControl → Bool) (controls : List AttachedControl) (first : Nat) :
    List Nat :=
  ((controls.zipIdx first).filter fun object => p object.1).map Prod.snd

/-- A report is delivered to exactly the control objects whose reference denotes the object: to
each of them once, with what the server has sent, and the others stay as they are. -/
structure Dispatches (connection : IedConnection) (n : ControlNames) : Prop where
  lastApplError : ∀ ctlVariable e, ∃ report, n.sendLastApplError ctlVariable e = .ok report ∧
    informationReportHandler connection report =
      .ok (⟨⟨e.ctlNum.toUint32, e.error, e.addCause⟩, connection.clientControls.map fun object =>
          if Denotes object.client.objectReference n then
            { object with lastApplError := ⟨e.ctlNum.toUint32, e.error, e.addCause⟩ }
          else object⟩,
        positions (fun object => Denotes object.client.objectReference n)
          connection.clientControls 0)
  commandTermination : ∀ oper, ∃ report, n.sendCommandTerminationReq oper = .ok report ∧
    informationReportHandler connection report =
      .ok (connection,
        positions (fun object => Denotes object.client.objectReference n)
          connection.clientControls 0)

variable {self : IedConnection} {n : ControlNames} {controls : List AttachedControl}
  {p q : AttachedControl → Bool}

theorem mem_positions {i : Nat} :
    i ∈ positions p controls 0 ↔ ∃ object, controls[i]? = some object ∧ p object = true := by
  simp only [positions, List.mem_map, List.mem_filter, Prod.exists, List.mk_mem_zipIdx_iff_getElem?]
  constructor
  · rintro ⟨object, j, ⟨hget, hp⟩, rfl⟩
    exact ⟨object, hget, hp⟩
  · intro ⟨object, hget, hp⟩
    exact ⟨object, i, ⟨hget, hp⟩, rfl⟩

theorem positions_cons (object : AttachedControl) (i : Nat) :
    positions p (object :: controls) i =
      if p object then i :: positions p controls (i + 1) else positions p controls (i + 1) := by
  rw [positions, List.zipIdx_cons, List.filter_cons]
  cases p object <;> rfl

theorem forMatching_eq {doesMatch : List UInt8 → Exec Bool}
    (action : AttachedControl → AttachedControl) (i : Nat)
    (h : ∀ object ∈ controls, doesMatch object.client.objectReference = .ok (p object)) :
    forMatching doesMatch action controls i =
      .ok (controls.map fun object => if p object then action object else object,
        positions p controls i) := by
  induction controls generalizing i with
  | nil => rfl
  | cons object controls ih =>
    obtain ⟨hobject, hrest⟩ := List.forall_mem_cons.mp h
    rw [forMatching, hobject, ok_bind, ih (i + 1) hrest, ok_bind, List.map_cons, positions_cons]
    cases p object <;> rfl

theorem toInt32_setInt32 (integer : Int32) :
    (newInteger.setInt32 integer).toInt32 = integer := by
  have haccepts : (NativeInteger.int32 integer).Accepts newInteger :=
    ⟨rfl, le_of_eq (Octets.length_ofNat _ _)⟩
  exact Int32.toInt_inj.mp ((NativeInteger.int32 integer).readBack_of_clear haccepts trivial).1

theorem sendLastApplError_ok (hn : n.Plain) (ctlVariable : CtlVariable) (e : LastApplError) :
    n.sendLastApplError ctlVariable e = .ok ⟨none, ascii "LastApplError", .structured [
      .visibleString (some ⟨n.ctlObj ctlVariable, n.zero_notMem_ctlObj ctlVariable⟩),
      newInteger.setInt32 e.error, e.origin, e.ctlNum,
      newInteger.setInt32 e.addCause], false⟩ := by
  have hdomain := hn.domain_length_le
  have hitem := hn.item_length_le ctlVariable
  simp [ControlNames.itemName, fcCO] at hitem
  have hco : (ascii "$CO$").length = 4 := rfl
  have hname : n.ctlObjectName =
      .ok [n.domainName, [47], n.lnName, ascii "$CO$", n.name].flatten := by
    rw [ControlNames.ctlObjectName, createStringInBuffer, if_pos]
    simp [hco]
    omega
  have hobject : createStringInBuffer 130
      [[n.domainName, [47], n.lnName, ascii "$CO$", n.name].flatten, [36], ctlVariable.name] =
      .ok ([[n.domainName, [47], n.lnName, ascii "$CO$", n.name].flatten, [36],
        ctlVariable.name].flatten) := by
    rw [createStringInBuffer, if_pos]
    simp [hco]
    omega
  rw [ControlNames.sendLastApplError, hname, ok_bind, hobject]
  rfl

theorem sendCommandTerminationReq_ok (hn : n.Plain) (oper : MmsValue) :
    n.sendCommandTerminationReq oper =
      .ok ⟨some n.domainName, n.itemName ++ ascii "$Oper", oper, false⟩ := by
  have hitem := hn.item_length_le .oper
  simp [ControlNames.itemName, fcCO, CtlVariable.name] at hitem
  have hstring : [n.lnName, ascii "$CO$", n.name, ascii "$Oper"].flatten =
      n.itemName ++ ascii "$Oper" := by
    rw [itemName_eq]
    simp [ControlNames.name]
  have hco : (ascii "$CO$").length = 4 := rfl
  have hoper : (ascii "$Oper").length = 5 := rfl
  have hoperName : (ascii "Oper").length = 4 := rfl
  rw [ControlNames.sendCommandTerminationReq, createStringInBuffer, if_pos, hstring]
  · rfl
  · simp [hco, hoper]
    omega

/-- The references of a connection's control objects. They could not be made without a slash and
a dot behind it. -/
def IedConnection.Named (self : IedConnection) : Prop :=
  ∀ object ∈ self.clientControls,
    ∃ m : ControlNames, object.client.objectReference = m.objectReference

theorem handleLastApplErrorMessage_eq (hself : self.Named) (hn : n.Plain)
    (ctlVariable : CtlVariable) (error origin ctlNum addCause : MmsValue) :
    handleLastApplErrorMessage self (.structured [
        .visibleString (some ⟨n.ctlObj ctlVariable, n.zero_notMem_ctlObj ctlVariable⟩),
        error, origin, ctlNum, addCause]) =
      .ok (⟨⟨ctlNum.toUint32, error.toInt32, addCause.toInt32⟩,
        self.clientControls.map fun object =>
          if decide (object.client.objectReference = n.topReference) then
            { object with lastApplError := ⟨ctlNum.toUint32, error.toInt32, addCause.toInt32⟩ }
          else object⟩,
        positions (fun object => decide (object.client.objectReference = n.topReference))
          self.clientControls 0) := by
  have hmatch : ∀ object ∈ self.clientControls,
      doesControlObjectMatch object.client.objectReference (n.ctlObj ctlVariable) =
        .ok (decide (object.client.objectReference = n.topReference)) := by
    intro object hobject
    obtain ⟨m, hm⟩ := hself object hobject
    obtain ⟨b, hb, hiff⟩ := doesControlObjectMatch_eq hn.domainName.1 hn.lnName.1 hn.objectName
      ctlVariable object.client.objectReference
    rw [hm, top_iff hn, ← hm] at hiff
    rw [hb]
    exact congrArg Except.ok (Bool.eq_iff_iff.mpr (hiff.trans decide_eq_true_iff.symm))
  exact bind_eq_of_ok (forMatching_eq _ 0 hmatch) _

theorem informationReportHandler_termination (hself : self.Named) (hn : n.Plain)
    (oper : MmsValue) :
    informationReportHandler self
        ⟨some n.domainName, n.itemName ++ ascii "$Oper", oper, false⟩ =
      .ok (self,
        positions (fun object => Denotes object.client.objectReference n)
          self.clientControls 0) := by
  have hmatch : ∀ object ∈ self.clientControls,
      doesReportMatchControlObject n.domainName (n.itemName ++ ascii "$Oper")
          object.client.objectReference =
        .ok (decide (Denotes object.client.objectReference n)) := by
    intro object hobject
    obtain ⟨m, hm⟩ := hself object hobject
    rw [hm, doesReportMatchControlObject_eq _ hn.domainName.2]
    refine congrArg Except.ok (Bool.eq_iff_iff.mpr ?_)
    rw [decide_eq_true_iff, decide_eq_true_iff, denotes_iff,
      List.append_left_inj, eq_comm (a := n.itemName)]
  refine (bind_eq_of_ok (forMatching_eq id 0 hmatch) _).trans ?_
  simp only [id_eq, ite_self, List.map_id']
  rfl

/-- The positions say which control objects have the property. -/
theorem forall_eq_of_positions (h : positions p controls 0 = positions q controls 0) :
    ∀ object ∈ controls, p object = q object := by
  intro object hobject
  obtain ⟨i, hi, hget⟩ := List.mem_iff_getElem.mp hobject
  have hat : controls[i]? = some object := List.getElem?_eq_some_iff.mpr ⟨hi, hget⟩
  have hmem (p : AttachedControl → Bool) : i ∈ positions p controls 0 ↔ p object = true := by
    rw [mem_positions, hat]
    simp
  rw [Bool.eq_iff_iff, ← hmem, ← hmem, h]

/-- Both reports go where they should exactly for an object with a single name, and where neither
it nor the data object at its top has a control object of the connection. -/
theorem IedConnection.dispatches_iff (hself : self.Named) (hn : n.Plain) :
    Dispatches self n ↔ 46 ∉ n.objectName ∨ ∀ object ∈ self.clientControls,
      ¬ Denotes object.client.objectReference n ∧
        object.client.objectReference ≠ n.topReference := by
  constructor
  · intro h
    refine or_iff_not_imp_left.mpr fun hdot object hobject => ?_
    obtain ⟨report, hsend, hhandle⟩ :=
      h.lastApplError .oper ⟨0, 0, .boolean false, .boolean false⟩
    rw [sendLastApplError_ok hn] at hsend
    cases hsend
    have hpositions := (Prod.mk.inj (Except.ok.inj
      ((handleLastApplErrorMessage_eq hself hn .oper _ (.boolean false) _ _).symm.trans
        hhandle))).2
    have hsame := forall_eq_of_positions hpositions object hobject
    rw [decide_eq_decide] at hsame
    obtain ⟨m, hm⟩ := hself object hobject
    have hne : object.client.objectReference ≠ n.topReference := by
      intro htop
      rw [hm] at htop hsame
      exact not_denotes_top hn (not_not.mp hdot) htop (hsame.mp htop)
    exact ⟨fun hdenotes => hne (hsame.mpr hdenotes), hne⟩
  · intro h
    have hsame : ∀ object ∈ self.clientControls,
        (object.client.objectReference = n.topReference ↔
          Denotes object.client.objectReference n) := by
      intro object hobject
      obtain ⟨m, hm⟩ := hself object hobject
      rcases h with hdot | hnone
      · rw [hm]
        exact (denotes_iff_top hn hdot).symm
      · exact iff_of_false (hnone object hobject).2 (hnone object hobject).1
    have hpositions : positions (fun object =>
          decide (object.client.objectReference = n.topReference)) self.clientControls 0 =
        positions (fun object => Denotes object.client.objectReference n)
          self.clientControls 0 := by
      refine congrArg (List.map Prod.snd) (List.filter_congr fun object hobject => ?_)
      exact decide_eq_decide.mpr (hsame object.1 (List.fst_mem_of_mem_zipIdx hobject))
    constructor
    · intro ctlVariable e
      refine ⟨_, sendLastApplError_ok hn ctlVariable e, ?_⟩
      refine (handleLastApplErrorMessage_eq hself hn ctlVariable _ e.origin _ _).trans ?_
      rw [toInt32_setInt32, toInt32_setInt32, hpositions]
      refine congrArg (fun controls => Except.ok (IedConnection.mk _ controls, _)) ?_
      refine List.map_congr_left fun object hobject => if_congr ?_ rfl rfl
      rw [decide_eq_true_iff]
      exact hsame object hobject
    · intro oper
      exact ⟨_, sendCommandTerminationReq_ok hn oper,
        informationReportHandler_termination hself hn oper⟩

end Dispatch

section Sample

theorem slash_notMem_device : (47 : UInt8) ∉ ([68] : List UInt8) := by decide

theorem dot_notMem_node : (46 : UInt8) ∉ ([76] : List UInt8) := by decide

theorem zero_notMem_position : (0 : UInt8) ∉ ([68] ++ [76] ++ [80, 111, 115] : List UInt8) := by
  decide

theorem zero_notMem_nested :
    (0 : UInt8) ∉ ([68] ++ [76] ++ [83, 119, 46, 80, 111, 115] : List UInt8) := by decide

/-- `D/L.Pos` -/
def positionNames : ControlNames :=
  ⟨[68], [76], [80, 111, 115], slash_notMem_device, dot_notMem_node, zero_notMem_position⟩

/-- `D/L.Sw.Pos` -/
def nestedNames : ControlNames :=
  ⟨[68], [76], [83, 119, 46, 80, 111, 115], slash_notMem_device, dot_notMem_node,
    zero_notMem_nested⟩

/-- A connection with a control object for each of the two. -/
def sampleConnection : IedConnection :=
  ⟨⟨0, 0, 0⟩, [positionNames, nestedNames].map fun n =>
    ⟨⟨n.objectReference, false, false, false, false, .boolean false, 0, 0, none, 0⟩, ⟨0, 0, 0⟩⟩⟩

theorem named_sampleConnection : sampleConnection.Named := by
  intro object hobject
  obtain ⟨n, -, rfl⟩ := List.mem_map.mp hobject
  exact ⟨n, rfl⟩

theorem plain_positionNames : positionNames.Plain :=
  ⟨by decide, by decide, by decide, by decide, fun ctlVariable => by cases ctlVariable <;> decide⟩

theorem plain_nestedNames : nestedNames.Plain :=
  ⟨by decide, by decide, by decide, by decide, fun ctlVariable => by cases ctlVariable <;> decide⟩

theorem dispatches_positionNames :
    sampleConnection.Named ∧ positionNames.Plain ∧ Dispatches sampleConnection positionNames :=
  ⟨named_sampleConnection, plain_positionNames,
    (IedConnection.dispatches_iff named_sampleConnection plain_positionNames).mpr
      (.inl (by decide))⟩

/-- The error of the inner object is delivered to none of the control objects. -/
theorem not_dispatches_nestedNames :
    sampleConnection.Named ∧ nestedNames.Plain ∧ ¬ Dispatches sampleConnection nestedNames := by
  refine ⟨named_sampleConnection, plain_nestedNames, ?_⟩
  intro h
  obtain ⟨report, hsend, hhandle⟩ := h.lastApplError .oper ⟨0, 0, .boolean false, .boolean false⟩
  have hnone : ∃ connection, informationReportHandler sampleConnection report =
      .ok (connection, []) := by
    cases hsend
    exact ⟨_, rfl⟩
  obtain ⟨connection, hnone⟩ := hnone
  have hpositions := (Prod.mk.inj (Except.ok.inj (hnone.symm.trans hhandle))).2
  exact absurd hpositions (by decide)

end Sample

end Iec61850.Control
