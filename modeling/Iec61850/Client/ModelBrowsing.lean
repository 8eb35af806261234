import Iec61850.Client.ObjectReferences

/-! What a client lists of the names that a server has given it (`ied_connection.c`), and when it
lists the children of a node and of no other one. -/

namespace Iec61850

open Machine StringUtils

structure ICLogicalDevice where
  name : List UInt8
  variableNames : List (List UInt8)
  dataSets : List (List UInt8)

inductive ACSIClass
  | dataObject | dataSet | brcb | urcb | lcb | log | sgcb | goCB | gsCB | msvcb | usvcb

namespace ModelBrowsing

inductive BrowseError
  | userProvidedInvalidArgument | objectReferenceInvalid

def addToStringSet (set : List (List UInt8)) (string : List UInt8) : List (List UInt8) :=
  if string ∈ set then set else set ++ [string]

/-- What a turn of the loops over the variables copies, where the constraint is a wanted one. The
first node name is only compared as far as the variable has it. -/
def elementWithFc (wanted : List UInt8 → Bool) (lnName variableName : List UInt8) :
    Option (List UInt8) := do
  let fcPos ← strchr variableName 36
  guard (wanted ((fcPos.drop 1).take 2))
  let lnNameLen := variableName.length - fcPos.length
  guard (variableName.take lnNameLen = lnName.take lnNameLen)
  let fcEndPos ← strchr (fcPos.drop 1) 36
  guard (strchr (fcEndPos.drop 1) 36 = none)
  return fcEndPos.drop 1

def addVariablesWithFc (fc lnName : List UInt8) (variableNames : List (List UInt8)) :
    List (List UInt8) :=
  (variableNames.filterMap (elementWithFc (· == fc) lnName)).foldl addToStringSet []

/-- `RP` -/
def urcbFc : List UInt8 := [82, 80]

/-- `BR` -/
def brcbFc : List UInt8 := [66, 82]

/-- `GO` -/
def goCBFc : List UInt8 := [71, 79]

def isDataObjectFc (fc : List UInt8) : Bool := fc != urcbFc && fc != brcbFc && fc != goCBFc

/-- What a turn of the loop over the data sets copies. -/
def elementOfDataSets (logicalNodeName dataSetName : List UInt8) : Option (List UInt8) := do
  let fcPos ← strchr dataSetName 36
  let lnNameLen := dataSetName.length - fcPos.length
  guard (logicalNodeName.length = lnNameLen)
  guard (dataSetName.take lnNameLen = logicalNodeName)
  return fcPos.drop 1

/-- The last part of `IedConnection_getLogicalNodeDirectory`. -/
def lnDirectory (ld : ICLogicalDevice) (logicalNodeName : List UInt8) :
    ACSIClass → List (List UInt8)
  | .dataObject =>
    (ld.variableNames.filterMap (elementWithFc isDataObjectFc logicalNodeName)).foldl
      addToStringSet []
  | .brcb => addVariablesWithFc brcbFc logicalNodeName ld.variableNames
  | .urcb => addVariablesWithFc urcbFc logicalNodeName ld.variableNames
  | .goCB => addVariablesWithFc goCBFc logicalNodeName ld.variableNames
  | .dataSet => ld.dataSets.filterMap (elementOfDataSets logicalNodeName)
  | _ => []

def findDevice (logicalDevices : List ICLogicalDevice) (logicalDeviceName : List UInt8) :
    Option ICLogicalDevice :=
  logicalDevices.find? fun ld => logicalDeviceName == ld.name

/-- The copy that is made of a reference. -/
def refCopy (reference : List UInt8) : List UInt8 := reference.take 192

/-- `IedConnection_getLogicalNodeDirectory`, once there is a list of the devices. -/
def getLogicalNodeDirectory (logicalDevices : List ICLogicalDevice)
    (logicalNodeReference : List UInt8) (acsiClass : ACSIClass) :
    Exec (Except BrowseError (List (List UInt8))) :=
  let lnRefCopy := refCopy logicalNodeReference
  match strchr lnRefCopy 47 with
  | none => .ok (.error .userProvidedInvalidArgument)
  | some ldSep =>
    match findDevice logicalDevices (lnRefCopy.takeWhile (· ≠ 47)) with
    | none => .ok (.error .objectReferenceInvalid)
    | some ld => .ok (.ok (lnDirectory ld (ldSep.drop 1) acsiClass))

def elementOfVariables (logicalNodeName variableName : List UInt8) : Option (List UInt8) := do
  let fcPos ← strchr variableName 36
  let lnNameLen := variableName.length - fcPos.length
  guard (variableName.take lnNameLen = logicalNodeName.take lnNameLen)
  return fcPos.drop 1

/-- `IedConnection_getLogicalNodeVariables`, which does not look whether there is a slash. -/
def getLogicalNodeVariables (logicalDevices : List ICLogicalDevice)
    (logicalNodeReference : List UInt8) : Exec (Except BrowseError (List (List UInt8))) :=
  let lnRefCopy := refCopy logicalNodeReference
  match strchr lnRefCopy 47 with
  | none => .error .nullPointer
  | some ldSep =>
    match findDevice logicalDevices (lnRefCopy.takeWhile (· ≠ 47)) with
    | none => .ok (.error .objectReferenceInvalid)
    | some ld => .ok (.ok (ld.variableNames.filterMap (elementOfVariables (ldSep.drop 1))))

/-- What a turn of the loop of `getDataDirectory` copies. -/
def elementOfData (logicalNodeName dataNamePart : List UInt8) (withFc : Bool)
    (variableName : List UInt8) : Option (List UInt8) := do
  let fcPos ← strchr variableName 36
  let lnNameLen := variableName.length - fcPos.length
  guard (logicalNodeName.length = lnNameLen)
  guard (variableName.take lnNameLen = logicalNodeName)
  let fcEnd ← strchr (fcPos.drop 1) 36
  let remainingPart := fcEnd.drop 1
  guard (dataNamePart.length < remainingPart.length)
  guard (remainingPart[dataNamePart.length]? = some 36)
  guard (remainingPart.take dataNamePart.length = dataNamePart)
  let subElementName := remainingPart.drop (dataNamePart.length + 1)
  guard (strchr subElementName 36 = none)
  return if withFc then subElementName ++ 91 :: ((fcPos.drop 1).take 2 ++ [93]) else subElementName

def getDataDirectory (logicalDevices : List ICLogicalDevice) (dataReference : List UInt8)
    (withFc : Bool) : Exec (Except BrowseError (List (List UInt8))) :=
  let dataRefCopy := refCopy dataReference
  match strchr dataRefCopy 47 with
  | none => .error .nullPointer
  | some ldSep =>
    let logicalNodeName := (ldSep.drop 1).takeWhile (· ≠ 46)
    match strchr (ldSep.drop 1) 46 with
    | none => .ok (.error .objectReferenceInvalid)
    | some logicalNodeNameEnd =>
      let dataNamePart := logicalNodeNameEnd.drop 1
      if dataNamePart.length < 1 then .ok (.error .objectReferenceInvalid)
      else
        match findDevice logicalDevices (dataRefCopy.takeWhile (· ≠ 47)) with
        | none => .ok (.error .objectReferenceInvalid)
        | some ld => .ok (.ok ((ld.variableNames.filterMap
            (elementOfData logicalNodeName (replace 46 36 dataNamePart) withFc)).foldl
              addToStringSet []))

/-! ## What is asked for -/

/-- The reference of a logical node. The device ends at the first slash. -/
structure LogicalNodeReference where
  logicalDevice : List UInt8
  logicalNode : List UInt8
  logicalDevice_plain : 47 ∉ logicalDevice

def LogicalNodeReference.text (r : LogicalNodeReference) : List UInt8 :=
  r.logicalDevice ++ 47 :: r.logicalNode

/-- The reference of a data object or of a part of it. The node ends at the first dot. -/
structure DataReference extends LogicalNodeReference where
  dataName : List UInt8
  logicalNode_plain : 46 ∉ logicalNode
  dataName_ne_nil : dataName ≠ []

def DataReference.text (r : DataReference) : List UInt8 :=
  r.logicalDevice ++ 47 :: (r.logicalNode ++ 46 :: r.dataName)

inductive Request
  | logicalNodeDirectory (r : LogicalNodeReference) (acsiClass : ACSIClass)
  | logicalNodeVariables (r : LogicalNodeReference)
  | dataDirectory (r : DataReference) (withFc : Bool)

namespace Request

def logicalDevice : Request → List UInt8
  | .logicalNodeDirectory r _ => r.logicalDevice
  | .logicalNodeVariables r => r.logicalDevice
  | .dataDirectory r _ => r.logicalDevice

def answer (logicalDevices : List ICLogicalDevice) :
    Request → Exec (Except BrowseError (List (List UInt8)))
  | .logicalNodeDirectory r acsiClass => getLogicalNodeDirectory logicalDevices r.text acsiClass
  | .logicalNodeVariables r => getLogicalNodeVariables logicalDevices r.text
  | .dataDirectory r withFc => getDataDirectory logicalDevices r.text withFc

end Request

/-- The name stands behind that of the node in the list. -/
def IsBehind (names : List (List UInt8)) (ln rest : List UInt8) : Prop :=
  36 ∉ ln ∧ ln ++ 36 :: rest ∈ names

/-- A child of a node with a wanted constraint, which is the first two characters behind the name
of the node. -/
def IsNodeChild (wanted : List UInt8 → Bool) (names : List (List UInt8)) (ln d : List UInt8) :
    Prop :=
  ∃ fc, 36 ∉ fc ∧ 36 ∉ d ∧ wanted ((fc ++ 36 :: d).take 2) ∧ IsBehind names ln (fc ++ 36 :: d)

/-- A child of a data object, with the constraint where it is asked for. -/
def IsDataChild (names : List (List UInt8)) (ln path : List UInt8) (withFc : Bool)
    (e : List UInt8) : Prop :=
  ∃ fc d, 36 ∉ fc ∧ 36 ∉ d ∧ IsBehind names ln (fc ++ 36 :: (path ++ 36 :: d)) ∧
    e = if withFc then d ++ 91 :: ((fc ++ 36 :: (path ++ 36 :: d)).take 2 ++ [93]) else d

/-- The children that a node has in a directory. Not each class has children here. -/
def IsChildOfClass (device : ICLogicalDevice) (ln : List UInt8) :
    ACSIClass → List UInt8 → Prop
  | .dataObject => IsNodeChild isDataObjectFc device.variableNames ln
  | .brcb => IsNodeChild (· == brcbFc) device.variableNames ln
  | .urcb => IsNodeChild (· == urcbFc) device.variableNames ln
  | .goCB => IsNodeChild (· == goCBFc) device.variableNames ln
  | .dataSet => IsBehind device.dataSets ln
  | _ => fun _ => False

def Request.IsChild (device : ICLogicalDevice) : Request → List UInt8 → Prop
  | .logicalNodeDirectory r acsiClass => IsChildOfClass device r.logicalNode acsiClass
  | .logicalNodeVariables r => IsBehind device.variableNames r.logicalNode
  | .dataDirectory r withFc =>
    IsDataChild device.variableNames r.logicalNode (replace 46 36 r.dataName) withFc

/-- Each of them once and nothing else. -/
def ListsOnce (names : List (List UInt8)) (P : List UInt8 → Prop) : Prop :=
  names.Nodup ∧ ∀ d, d ∈ names ↔ P d

/-- Where there is such a device, the children are listed. -/
def BrowsesExactly (logicalDevices : List ICLogicalDevice) (request : Request) : Prop :=
  ∀ device, findDevice logicalDevices request.logicalDevice = some device →
    ∃ names, request.answer logicalDevices = .ok (.ok names) ∧
      ListsOnce names (request.IsChild device)

/-! ## When the children are those of one node -/

/-- The name of the node in the copy of the reference. -/
def LogicalNodeReference.cutNode (r : LogicalNodeReference) : List UInt8 :=
  r.logicalNode.take (191 - r.logicalDevice.length)

/-- The name of the data object in the copy of the reference. -/
def DataReference.cutName (r : DataReference) : List UInt8 :=
  r.dataName.take (190 - r.logicalDevice.length - r.logicalNode.length)

/-- The nodes whose names are prefixes of the one in the copy have no other children than the node
that is meant. -/
def OthersAlike (P : List UInt8 → List UInt8 → Prop) (r : LogicalNodeReference) : Prop :=
  ∀ d, (∃ ln, ln <+: r.cutNode ∧ P ln d) ↔ P r.logicalNode d

/-- No two names are the same behind such nodes. -/
def NoneTwice (isNode : List UInt8 → Prop) (names : List (List UInt8)) : Prop :=
  names.Pairwise fun name name' => ∀ ln ln' rest, isNode ln → isNode ln' → 36 ∉ ln → 36 ∉ ln' →
    name = ln ++ 36 :: rest → name' ≠ ln' ++ 36 :: rest

def SeparateInClass (device : ICLogicalDevice) (r : LogicalNodeReference) : ACSIClass → Prop
  | .dataSet => NoneTwice (· = r.cutNode) device.dataSets ∧
      ∀ d, IsBehind device.dataSets r.cutNode d ↔ IsBehind device.dataSets r.logicalNode d
  | acsiClass => OthersAlike (fun ln => IsChildOfClass device ln acsiClass) r

/-- The names of the device keep the node that is meant apart. -/
def Request.Separate (device : ICLogicalDevice) : Request → Prop
  | .logicalNodeDirectory r acsiClass =>
    r.logicalDevice.length < 192 ∧ SeparateInClass device r acsiClass
  | .logicalNodeVariables r => r.logicalDevice.length < 192 ∧
      NoneTwice (· <+: r.cutNode) device.variableNames ∧
      OthersAlike (IsBehind device.variableNames) r
  | .dataDirectory r withFc => r.logicalDevice.length + r.logicalNode.length < 190 ∧
      ∀ e, IsDataChild device.variableNames r.logicalNode (replace 46 36 r.cutName) withFc e ↔
        IsDataChild device.variableNames r.logicalNode (replace 46 36 r.dataName) withFc e

/-- The names of a device that is found do. -/
def KeepsApart (logicalDevices : List ICLogicalDevice) (request : Request) : Prop :=
  ∀ device, findDevice logicalDevices request.logicalDevice = some device →
    request.Separate device

/-! ## Elements of the loops -/

section Elements

variable {s ln lnName name fc d : List UInt8} {wanted : List UInt8 → Bool}
  {names set : List (List UInt8)} {P : List UInt8 → Prop}

theorem mem_addToStringSet : d ∈ addToStringSet set s ↔ d ∈ set ∨ d = s := by
  unfold addToStringSet
  split
  case isTrue hmem =>
    refine ⟨.inl, ?_⟩
    rintro (hd | rfl)
    · exact hd
    · exact hmem
  case isFalse => rw [List.mem_append, List.mem_singleton]

theorem nodup_addToStringSet (h : set.Nodup) : (addToStringSet set s).Nodup := by
  unfold addToStringSet
  split
  case isTrue => exact h
  case isFalse hmem => exact List.nodup_append_comm.mp (List.nodup_cons.mpr ⟨hmem, h⟩)

theorem addAll_spec (names : List (List UInt8)) (h : set.Nodup) :
    (names.foldl addToStringSet set).Nodup ∧
      ∀ d, d ∈ names.foldl addToStringSet set ↔ d ∈ set ∨ d ∈ names := by
  induction names generalizing set with
  | nil => simp [h]
  | cons s names ih =>
    obtain ⟨hnodup, hmem⟩ := ih (nodup_addToStringSet (s := s) h)
    refine ⟨hnodup, fun d => ?_⟩
    rw [List.foldl_cons, hmem, mem_addToStringSet, List.mem_cons, or_assoc]

/-- A set of strings holds each of them once. -/
theorem listsOnce_addAll :
    ListsOnce (names.foldl addToStringSet []) P ↔ ∀ d, d ∈ names ↔ P d := by
  obtain ⟨hnodup, hmem⟩ := addAll_spec names List.nodup_nil
  simp only [ListsOnce, hnodup, true_and, hmem, List.not_mem_nil, false_or]

/-- The part in front of a dollar sign. -/
theorem length_frontOf (ln rest : List UInt8) :
    (ln ++ 36 :: rest).length - (36 :: rest).length = ln.length := by
  rw [List.length_append, Nat.add_sub_cancel]

/-- A loop that passes over the names without a dollar sign. -/
theorem mem_filterMap_iff {f : List UInt8 → Option (List UInt8)}
    (hf : ∀ name, 36 ∉ name → f name = none) :
    d ∈ names.filterMap f ↔
      ∃ ln rest, IsBehind names ln rest ∧ f (ln ++ 36 :: rest) = some d := by
  rw [List.mem_filterMap]
  constructor
  · rintro ⟨name, hname, hd⟩
    by_cases hdollar : 36 ∈ name
    · obtain ⟨ln, rest, rfl, hln⟩ := List.eq_append_cons_of_mem hdollar
      exact ⟨ln, rest, ⟨hln, hname⟩, hd⟩
    · rw [hf name hdollar] at hd
      cases hd
  · rintro ⟨ln, rest, ⟨-, hname⟩, hd⟩
    exact ⟨_, hname, hd⟩

theorem elementOfVariables_none (h : 36 ∉ name) : elementOfVariables lnName name = none := by
  rw [elementOfVariables, strchr_eq_none h]
  rfl

theorem elementOfVariables_append (h : 36 ∉ ln) :
    elementOfVariables lnName (ln ++ 36 :: s) = some d ↔ ln <+: lnName ∧ s = d := by
  rw [List.prefix_iff_eq_take]
  simp only [elementOfVariables, strchr_append h, length_frontOf, List.take_left,
    Option.bind_eq_bind, Option.bind_some, Option.bind_eq_some_iff, Option.guard_eq_some',
    exists_const, List.drop_one, List.tail_cons, Option.pure_def, Option.some.injEq]

theorem elementOfDataSets_none (h : 36 ∉ name) : elementOfDataSets lnName name = none := by
  rw [elementOfDataSets, strchr_eq_none h]
  rfl

theorem elementOfDataSets_append (h : 36 ∉ ln) :
    elementOfDataSets lnName (ln ++ 36 :: s) = some d ↔ ln = lnName ∧ s = d := by
  simp only [elementOfDataSets, strchr_append h, length_frontOf, List.take_left,
    Option.bind_eq_bind, Option.bind_some, Option.bind_eq_some_iff, Option.guard_eq_some',
    exists_const, List.drop_one, List.tail_cons, Option.pure_def, Option.some.injEq]
  refine ⟨fun ⟨_, hln, hs⟩ => ⟨hln, hs⟩, ?_⟩
  rintro ⟨rfl, rfl⟩
  exact ⟨rfl, rfl, rfl⟩

/-- Where the string is cut. -/
theorem strchr_eq_some_iff {t : List UInt8} :
    strchr s 36 = some t ↔ ∃ fc rest, s = fc ++ 36 :: rest ∧ 36 ∉ fc ∧ t = 36 :: rest := by
  refine ⟨of_strchr, ?_⟩
  rintro ⟨fc, rest, rfl, hfc, rfl⟩
  exact strchr_append hfc rest

theorem strchr_eq_none_iff : strchr s 36 = none ↔ 36 ∉ s := by
  refine ⟨fun h hmem => ?_, strchr_eq_none⟩
  obtain ⟨fc, rest, rfl, hfc⟩ := List.eq_append_cons_of_mem hmem
  rw [strchr_append hfc] at h
  cases h

theorem elementWithFc_none (h : 36 ∉ name) : elementWithFc wanted lnName name = none := by
  rw [elementWithFc, strchr_eq_none h]
  rfl

theorem elementWithFc_append (h : 36 ∉ ln) :
    elementWithFc wanted lnName (ln ++ 36 :: s) = some d ↔ ln <+: lnName ∧
      ∃ fc, 36 ∉ fc ∧ 36 ∉ d ∧ wanted (s.take 2) ∧ s = fc ++ 36 :: d := by
  rw [List.prefix_iff_eq_take]
  simp only [elementWithFc, strchr_append h, Option.bind_eq_bind, Option.bind_some,
    Option.bind_eq_some_iff, Option.guard_eq_some', exists_const, Option.pure_def,
    Option.some.injEq, strchr_eq_some_iff, strchr_eq_none_iff]
  simp only [length_frontOf, List.take_left, List.drop_one, List.tail_cons]
  constructor
  · rintro ⟨hwanted, hln, _, ⟨fc, rest, hs, hfc, rfl⟩, hd, rfl⟩
    exact ⟨hln, fc, hfc, hd, hwanted, hs⟩
  · rintro ⟨hln, fc, hfc, hd, hwanted, hs⟩
    exact ⟨hwanted, hln, _, ⟨fc, d, hs, hfc, rfl⟩, hd, rfl⟩

/-- The part of a name behind a data object. -/
theorem splitsAt_iff (path : List UInt8) :
    (path.length < s.length ∧ s[path.length]? = some 36 ∧ s.take path.length = path) ↔
      s = path ++ 36 :: s.drop (path.length + 1) := by
  constructor
  · rintro ⟨hlt, hget, htake⟩
    rw [List.getElem?_eq_getElem hlt] at hget
    conv_lhs => rw [← List.take_append_drop path.length s, htake, List.drop_eq_getElem_cons hlt,
      Option.some.inj hget]
  · intro h
    rw [h]
    simp

theorem elementOfData_none {path : List UInt8} {withFc : Bool} (h : 36 ∉ name) :
    elementOfData lnName path withFc name = none := by
  rw [elementOfData, strchr_eq_none h]
  rfl

theorem elementOfData_append {path : List UInt8} {withFc : Bool} (h : 36 ∉ ln) :
    elementOfData lnName path withFc (ln ++ 36 :: s) = some d ↔ ln = lnName ∧
      ∃ fc e, 36 ∉ fc ∧ 36 ∉ e ∧ s = fc ++ 36 :: (path ++ 36 :: e) ∧
        d = if withFc then e ++ 91 :: (s.take 2 ++ [93]) else e := by
  simp only [elementOfData, strchr_append h, length_frontOf, List.take_left,
    Option.bind_eq_bind, Option.bind_some, Option.bind_eq_some_iff, Option.guard_eq_some',
    exists_const, List.drop_one, List.tail_cons, Option.pure_def, Option.some.injEq,
    strchr_eq_some_iff, strchr_eq_none_iff]
  constructor
  · rintro ⟨-, hln, _, ⟨fc, rest, hs, hfc, rfl⟩, hlt, hget, htake, he, rfl⟩
    have hrest := (splitsAt_iff path).mp ⟨hlt, hget, htake⟩
    refine ⟨hln, fc, _, hfc, he, ?_, rfl⟩
    rw [hs]
    exact congrArg (fun t => fc ++ 36 :: t) hrest
  · rintro ⟨rfl, fc, e, hfc, he, hs, rfl⟩
    have hdrop : (path ++ 36 :: e).drop (path.length + 1) = e := by simp
    obtain ⟨hlt, hget, htake⟩ := (splitsAt_iff path).mpr
      (by rw [hdrop] : path ++ 36 :: e = path ++ 36 :: (path ++ 36 :: e).drop (path.length + 1))
    refine ⟨rfl, rfl, _, ⟨fc, _, hs, hfc, rfl⟩, hlt, hget, htake, ?_, ?_⟩
    · rw [List.tail_cons, hdrop]
      exact he
    · rw [List.tail_cons, hdrop]

end Elements

/-! ## Children -/

section Children

variable {lnName d : List UInt8} {names : List (List UInt8)} {device : ICLogicalDevice}
  {r : LogicalNodeReference}

theorem mem_elementsWithFc (wanted : List UInt8 → Bool) :
    d ∈ names.filterMap (elementWithFc wanted lnName) ↔
      ∃ ln, ln <+: lnName ∧ IsNodeChild wanted names ln d := by
  rw [mem_filterMap_iff fun _ => elementWithFc_none]
  constructor
  · rintro ⟨ln, rest, hbehind, hd⟩
    obtain ⟨hln, fc, hfc, hplain, hwanted, rfl⟩ := (elementWithFc_append hbehind.1).mp hd
    exact ⟨ln, hln, fc, hfc, hplain, hwanted, hbehind⟩
  · rintro ⟨ln, hln, fc, hfc, hplain, hwanted, hbehind⟩
    exact ⟨ln, _, hbehind,
      (elementWithFc_append hbehind.1).mpr ⟨hln, fc, hfc, hplain, hwanted, rfl⟩⟩

theorem mem_elementsOfVariables : d ∈ names.filterMap (elementOfVariables lnName) ↔
    ∃ ln, ln <+: lnName ∧ IsBehind names ln d := by
  rw [mem_filterMap_iff fun _ => elementOfVariables_none]
  constructor
  · rintro ⟨ln, rest, hbehind, hd⟩
    obtain ⟨hln, rfl⟩ := (elementOfVariables_append hbehind.1).mp hd
    exact ⟨ln, hln, hbehind⟩
  · rintro ⟨ln, hln, hbehind⟩
    exact ⟨ln, d, hbehind, (elementOfVariables_append hbehind.1).mpr ⟨hln, rfl⟩⟩

theorem mem_elementsOfDataSets :
    d ∈ names.filterMap (elementOfDataSets lnName) ↔ IsBehind names lnName d := by
  rw [mem_filterMap_iff fun _ => elementOfDataSets_none]
  constructor
  · rintro ⟨ln, rest, hbehind, hd⟩
    obtain ⟨rfl, rfl⟩ := (elementOfDataSets_append hbehind.1).mp hd
    exact hbehind
  · intro hbehind
    exact ⟨lnName, d, hbehind, (elementOfDataSets_append hbehind.1).mpr ⟨rfl, rfl⟩⟩

theorem mem_elementsOfData (path : List UInt8) (withFc : Bool) :
    d ∈ names.filterMap (elementOfData lnName path withFc) ↔
      IsDataChild names lnName path withFc d := by
  rw [mem_filterMap_iff fun _ => elementOfData_none]
  constructor
  · rintro ⟨ln, rest, hbehind, hd⟩
    obtain ⟨rfl, fc, e, hfc, he, rfl, hname⟩ := (elementOfData_append hbehind.1).mp hd
    exact ⟨fc, e, hfc, he, hbehind, hname⟩
  · rintro ⟨fc, e, hfc, he, hbehind, hname⟩
    exact ⟨lnName, _, hbehind,
      (elementOfData_append hbehind.1).mpr ⟨rfl, fc, e, hfc, he, rfl, hname⟩⟩

/-- A loop that adds what stands behind the names of some nodes adds nothing twice. -/
theorem nodup_filterMap_iff {f : List UInt8 → Option (List UInt8)} {isNode : List UInt8 → Prop}
    (hnone : ∀ name, 36 ∉ name → f name = none)
    (hsome : ∀ ln rest d, 36 ∉ ln → (f (ln ++ 36 :: rest) = some d ↔ isNode ln ∧ rest = d)) :
    (names.filterMap f).Nodup ↔ NoneTwice isNode names := by
  have hf : ∀ name d, f name = some d ↔ ∃ ln, 36 ∉ ln ∧ isNode ln ∧ name = ln ++ 36 :: d := by
    intro name d
    constructor
    · intro hd
      by_cases hdollar : 36 ∈ name
      · obtain ⟨ln, rest, rfl, hln⟩ := List.eq_append_cons_of_mem hdollar
        obtain ⟨hnode, rfl⟩ := (hsome ln rest d hln).mp hd
        exact ⟨ln, hln, hnode, rfl⟩
      · rw [hnone name hdollar] at hd
        cases hd
    · rintro ⟨ln, hln, hnode, rfl⟩
      exact (hsome ln d d hln).mpr ⟨hnode, rfl⟩
  rw [List.Nodup, List.pairwise_filterMap]
  apply List.Pairwise.iff
  intro name name'
  constructor
  · rintro h ln ln' rest hnode hnode' hln hln' hname hname'
    exact h rest ((hf name rest).mpr ⟨ln, hln, hnode, hname⟩) rest
      ((hf name' rest).mpr ⟨ln', hln', hnode', hname'⟩) rfl
  · rintro h d hd _ hd' rfl
    obtain ⟨ln, hln, hnode, hname⟩ := (hf name d).mp hd
    obtain ⟨ln', hln', hnode', hname'⟩ := (hf name' d).mp hd'
    exact h ln ln' d hnode hnode' hln hln' hname hname'

theorem nodup_elementsOfDataSets (names : List (List UInt8)) (lnName : List UInt8) :
    (names.filterMap (elementOfDataSets lnName)).Nodup ↔ NoneTwice (· = lnName) names :=
  nodup_filterMap_iff (fun _ => elementOfDataSets_none) fun _ _ _ => elementOfDataSets_append

theorem nodup_elementsOfVariables (names : List (List UInt8)) (lnName : List UInt8) :
    (names.filterMap (elementOfVariables lnName)).Nodup ↔ NoneTwice (· <+: lnName) names :=
  nodup_filterMap_iff (fun _ => elementOfVariables_none) fun _ _ _ => elementOfVariables_append

theorem listsOnce_withFc (wanted : List UInt8 → Bool) :
    ListsOnce ((names.filterMap (elementWithFc wanted r.cutNode)).foldl addToStringSet [])
        (IsNodeChild wanted names r.logicalNode) ↔
      OthersAlike (IsNodeChild wanted names) r := by
  simp only [listsOnce_addAll, mem_elementsWithFc, OthersAlike]

theorem listsOnce_lnDirectory (acsiClass : ACSIClass) :
    ListsOnce (lnDirectory device r.cutNode acsiClass)
        (IsChildOfClass device r.logicalNode acsiClass) ↔
      SeparateInClass device r acsiClass := by
  cases acsiClass with
  | dataObject | brcb | urcb | goCB => exact listsOnce_withFc _
  | dataSet =>
    simp only [lnDirectory, ListsOnce, mem_elementsOfDataSets, SeparateInClass, IsChildOfClass,
      nodup_elementsOfDataSets]
  | _ => simp [lnDirectory, ListsOnce, SeparateInClass, IsChildOfClass, OthersAlike]

theorem listsOnce_elementsOfVariables :
    ListsOnce (names.filterMap (elementOfVariables r.cutNode)) (IsBehind names r.logicalNode) ↔
      NoneTwice (· <+: r.cutNode) names ∧ OthersAlike (IsBehind names) r := by
  simp only [ListsOnce, mem_elementsOfVariables, OthersAlike, nodup_elementsOfVariables]

end Children

/-! ## References -/

section References

variable {logicalDevices : List ICLogicalDevice} {device : ICLogicalDevice}

/-- The device and what the copy has behind the slash. -/
theorem refCopy_short {ld rest : List UInt8} (h : ld.length < 192) :
    refCopy (ld ++ 47 :: rest) = ld ++ 47 :: rest.take (191 - ld.length) := by
  have hleft : 192 - ld.length = 191 - ld.length + 1 := by omega
  rw [refCopy, List.take_append, List.take_of_length_le h.le, hleft, List.take_succ_cons]

/-- The copy has no slash. -/
theorem refCopy_long {ld rest : List UInt8} (hld : 47 ∉ ld) (h : ¬ ld.length < 192) :
    strchr (refCopy (ld ++ 47 :: rest)) 47 = none := by
  rw [refCopy, List.take_append_of_le_length (Nat.not_lt.mp h)]
  exact strchr_eq_none fun hmem => hld (List.mem_of_mem_take hmem)

theorem getLogicalNodeDirectory_found {r : LogicalNodeReference} (acsiClass : ACSIClass)
    (h : r.logicalDevice.length < 192)
    (hfound : findDevice logicalDevices r.logicalDevice = some device) :
    getLogicalNodeDirectory logicalDevices r.text acsiClass =
      .ok (.ok (lnDirectory device r.cutNode acsiClass)) := by
  simp only [getLogicalNodeDirectory, LogicalNodeReference.text, refCopy_short h,
    strchr_append r.logicalDevice_plain, takeWhile_append_cons r.logicalDevice_plain, hfound]
  rfl

theorem getLogicalNodeVariables_found {r : LogicalNodeReference}
    (h : r.logicalDevice.length < 192)
    (hfound : findDevice logicalDevices r.logicalDevice = some device) :
    getLogicalNodeVariables logicalDevices r.text =
      .ok (.ok (device.variableNames.filterMap (elementOfVariables r.cutNode))) := by
  simp only [getLogicalNodeVariables, LogicalNodeReference.text, refCopy_short h,
    strchr_append r.logicalDevice_plain, takeWhile_append_cons r.logicalDevice_plain, hfound]
  rfl

variable {r : DataReference} {withFc : Bool}

theorem getDataDirectory_found (h : r.logicalDevice.length + r.logicalNode.length < 190)
    (hfound : findDevice logicalDevices r.logicalDevice = some device) :
    getDataDirectory logicalDevices r.text withFc =
      .ok (.ok ((device.variableNames.filterMap
        (elementOfData r.logicalNode (replace 46 36 r.cutName) withFc)).foldl
          addToStringSet [])) := by
  have hshort : r.logicalDevice.length < 192 := by omega
  have hleft : 191 - r.logicalDevice.length - r.logicalNode.length =
      190 - r.logicalDevice.length - r.logicalNode.length + 1 := by omega
  have hnode : r.logicalNode.length ≤ 191 - r.logicalDevice.length := by omega
  have hrest : (r.logicalNode ++ 46 :: r.dataName).take (191 - r.logicalDevice.length) =
      r.logicalNode ++ 46 :: r.cutName := by
    rw [List.take_append, List.take_of_length_le hnode, hleft, List.take_succ_cons]
    rfl
  have hname : ¬ r.cutName.length < 1 := by
    have hpos := List.length_pos_of_ne_nil r.dataName_ne_nil
    rw [DataReference.cutName, List.length_take]
    omega
  simp only [getDataDirectory, DataReference.text, refCopy_short hshort, hrest,
    strchr_append r.logicalDevice_plain, takeWhile_append_cons r.logicalDevice_plain,
    List.drop_one, List.tail_cons, strchr_append r.logicalNode_plain,
    takeWhile_append_cons r.logicalNode_plain, if_neg hname, hfound]

/-- A reference whose data object is not in the copy names none. -/
theorem getDataDirectory_cut (h : ¬ r.logicalDevice.length + r.logicalNode.length < 190)
    (names : List (List UInt8)) :
    getDataDirectory logicalDevices r.text withFc ≠ .ok (.ok names) := by
  intro hnames
  by_cases hshort : r.logicalDevice.length < 192
  · simp only [getDataDirectory, DataReference.text, refCopy_short hshort,
      strchr_append r.logicalDevice_plain, List.drop_one, List.tail_cons] at hnames
    by_cases hdot : 191 - r.logicalDevice.length ≤ r.logicalNode.length
    · rw [List.take_append_of_le_length hdot,
        strchr_eq_none fun hmem => r.logicalNode_plain (List.mem_of_mem_take hmem)] at hnames
      cases hnames
    · have hall : 191 - r.logicalDevice.length = r.logicalNode.length + 1 := by omega
      have hrest : (r.logicalNode ++ 46 :: r.dataName).take (191 - r.logicalDevice.length) =
          r.logicalNode ++ 46 :: [] := by
        rw [hall, List.take_append, List.take_of_length_le (Nat.le_succ _),
          Nat.add_sub_cancel_left]
        rfl
      rw [hrest, strchr_append r.logicalNode_plain] at hnames
      cases hnames
  · simp only [getDataDirectory, DataReference.text,
      refCopy_long r.logicalDevice_plain hshort] at hnames
    cases hnames

/-- A device whose name is not in the copy has no children. -/
theorem answer_cut {r : LogicalNodeReference} (h : ¬ r.logicalDevice.length < 192)
    (acsiClass : ACSIClass) (names : List (List UInt8)) :
    getLogicalNodeDirectory logicalDevices r.text acsiClass ≠ .ok (.ok names) ∧
      getLogicalNodeVariables logicalDevices r.text ≠ .ok (.ok names) := by
  simp only [getLogicalNodeDirectory, getLogicalNodeVariables, LogicalNodeReference.text,
    refCopy_long r.logicalDevice_plain h]
  constructor
  · simp
  · simp

/-- What a request that has an answer lists. -/
theorem exists_answer_iff {logicalDevices : List ICLogicalDevice} (request : Request)
    {names : List (List UInt8)} {P : List UInt8 → Prop}
    (h : request.answer logicalDevices = .ok (.ok names)) :
    (∃ names', request.answer logicalDevices = .ok (.ok names') ∧ ListsOnce names' P) ↔
      ListsOnce names P := by
  rw [h]
  constructor
  · rintro ⟨_, hnames, hlists⟩
    cases hnames
    exact hlists
  · exact fun hlists => ⟨names, rfl, hlists⟩

end References

theorem separate_iff {logicalDevices : List ICLogicalDevice} {device : ICLogicalDevice}
    (request : Request)
    (hfound : findDevice logicalDevices request.logicalDevice = some device) :
    (∃ names, request.answer logicalDevices = .ok (.ok names) ∧
      ListsOnce names (request.IsChild device)) ↔ request.Separate device := by
  cases request with
  | logicalNodeDirectory r acsiClass =>
    by_cases h : r.logicalDevice.length < 192
    · rw [exists_answer_iff (.logicalNodeDirectory r acsiClass)
        (getLogicalNodeDirectory_found acsiClass h hfound)]
      exact (listsOnce_lnDirectory acsiClass).trans (iff_and_self.mpr fun _ => h)
    · refine iff_of_false ?_ fun hseparate => h hseparate.1
      rintro ⟨names, hnames, -⟩
      exact (answer_cut h acsiClass names).1 hnames
  | logicalNodeVariables r =>
    by_cases h : r.logicalDevice.length < 192
    · rw [exists_answer_iff (.logicalNodeVariables r)
        (getLogicalNodeVariables_found h hfound)]
      exact listsOnce_elementsOfVariables.trans (iff_and_self.mpr fun _ => h)
    · refine iff_of_false ?_ fun hseparate => h hseparate.1
      rintro ⟨names, hnames, -⟩
      exact (answer_cut h .lcb names).2 hnames
  | dataDirectory r withFc =>
    by_cases h : r.logicalDevice.length + r.logicalNode.length < 190
    · rw [exists_answer_iff (.dataDirectory r withFc)
        (getDataDirectory_found h hfound), listsOnce_addAll]
      simp only [mem_elementsOfData]
      exact iff_and_self.mpr fun _ => h
    · refine iff_of_false ?_ fun hseparate => h hseparate.1
      rintro ⟨names, hnames, -⟩
      exact getDataDirectory_cut h names hnames

theorem browsesExactly_iff (logicalDevices : List ICLogicalDevice) (request : Request) :
    BrowsesExactly logicalDevices request ↔ KeepsApart logicalDevices request :=
  forall₂_congr fun _ hfound => separate_iff request hfound

/-! ## Nodes whose names are prefixes of others -/

/-- `LD/G12` -/
def sampleReference : LogicalNodeReference where
  logicalDevice := [76, 68]
  logicalNode := [71, 49, 50]
  logicalDevice_plain := by decide

/-- `G1$ST$a` and `G12$ST$b` -/
def sampleDevice : ICLogicalDevice where
  name := [76, 68]
  variableNames := [[71, 49, 36, 83, 84, 36, 97], [71, 49, 50, 36, 83, 84, 36, 98]]
  dataSets := []

/-- `a` is listed, which is a data object of `G1`. -/
theorem not_browsesExactly_prefix :
    ¬ BrowsesExactly [sampleDevice] (.logicalNodeDirectory sampleReference .dataObject) := by
  intro h
  obtain ⟨names, hnames, -, hmem⟩ := h sampleDevice rfl
  cases hnames
  obtain ⟨fc, hfc, -, -, -, hbehind⟩ := (hmem [97]).mp (by decide)
  have hname : fc ++ [36, 97] = [83, 84, 36, 98] := by
    simpa [sampleDevice, sampleReference] using hbehind
  simpa using congrArg List.getLast? hname

end ModelBrowsing

end Iec61850
