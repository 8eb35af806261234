import Iec61850.Device.ValuePlaces
import Iec61850.Mms.Elements
import Iec61850.Model.IedModel
import Iec61850.Report.Buffer

/-! Writing a value of the data model (`mmsWriteHandler` in `mms_mapping.c`): which cached values
are changed, and whether a client reads back what it has written. -/

namespace Iec61850

open Machine MmsVariableSpecification

namespace MmsValue

mutual

/-- The value can be brought to equal the other one: all its parts have room for the parts of the
other, or equal them as they are. -/
def takes : MmsValue → MmsValue → Bool
  | .array vs, .array ws => takesComponents vs ws
  | .structured vs, .structured ws => takesComponents vs ws
  | .float f, .float g => f.formatWidth == g.formatWidth || equals (.float f) (.float g)
  | .integer v, .integer w => w.size ≤ v.maxSize
  | .unsigned v, .unsigned w => w.size ≤ v.maxSize
  | .bitString b, .bitString c => b.size == c.size
  | .octetString o, .octetString p =>
    o.maxSize == p.maxSize || equals (.octetString o) (.octetString p)
  | .dataAccessError e, .dataAccessError f => e == f
  | _, _ => true

def takesComponents : List MmsValue → List MmsValue → Bool
  | v :: vs, w :: ws => takes v w && takesComponents vs ws
  | _, _ => true

end

theorem equals_integer_updated (v w : Asn1PrimitiveValue) :
    ((updated (.integer v) (.integer w)).equals (.integer w)) = takes (.integer v) (.integer w) := by
  rw [updated, update, BerInteger.setFromBerInteger, takes]
  split
  case isTrue h =>
    rw [Asn1PrimitiveValue.length_content] at h
    simp [equals, Asn1PrimitiveValue.compare, h]
  case isFalse h =>
    rw [Asn1PrimitiveValue.length_content] at h
    have hne : v.size ≠ w.size := fun heq => h (heq ▸ v.size_le)
    simp [equals, Asn1PrimitiveValue.compare, h, hne]

theorem equals_unsigned_updated (v w : Asn1PrimitiveValue) :
    ((updated (.unsigned v) (.unsigned w)).equals (.unsigned w)) =
      takes (.unsigned v) (.unsigned w) := by
  rw [updated, update, BerInteger.setFromBerInteger, takes]
  split
  case isTrue h =>
    rw [Asn1PrimitiveValue.length_content] at h
    simp [equals, Asn1PrimitiveValue.compare, h]
  case isFalse h =>
    rw [Asn1PrimitiveValue.length_content] at h
    have hne : v.size ≠ w.size := fun heq => h (heq ▸ v.size_le)
    simp [equals, Asn1PrimitiveValue.compare, h, hne]

theorem equals_float_updated (f g : FloatingPoint) :
    ((updated (.float f) (.float g)).equals (.float g)) = takes (.float f) (.float g) := by
  rw [updated, update, updateFloat, takes]
  split
  case isTrue h =>
    have hlen : g.buf.length ≤ f.formatWidth / 8 := by rw [g.buf_length, h]
    simp [equals, h, List.take_of_length_le, g.buf_length]
  case isFalse h =>
    rw [Option.map_none, Option.getD_none, beq_eq_false_iff_ne.mpr h, Bool.false_or]

theorem equals_bitString_updated (b c : BitString) :
    ((updated (.bitString b) (.bitString c)).equals (.bitString c)) =
      takes (.bitString b) (.bitString c) := by
  rw [updated, update, updateBitString, takes]
  split
  case isTrue h => simp [equals, h]
  case isFalse h => simp [equals, h]

theorem equals_octetString_updated (o p : OctetString) :
    ((updated (.octetString o) (.octetString p)).equals (.octetString p)) =
      takes (.octetString o) (.octetString p) := by
  rw [updated, update, updateOctetString, takes]
  split
  case isTrue h =>
    have htake : (copyOver o.buf p.content).take p.size = p.content := by
      rw [copyOver]
      exact List.take_left' p.length_content
    simp [equals, h, OctetString.content]
    exact htake
  case isFalse h =>
    rw [Option.map_none, Option.getD_none, beq_eq_false_iff_ne.mpr h, Bool.false_or]

theorem equals_binaryTime_updated (t u : BinaryTime) :
    ((updated (.binaryTime t) (.binaryTime u)).equals (.binaryTime u)) = true := by
  have htake : (copyOver t.buf u.content).take u.size = u.content := by
    rw [copyOver]
    exact List.take_left' u.length_content
  have hcontent : (updateBinaryTime t u).content = u.content := htake
  have hsize : (updateBinaryTime t u).size = u.size := rfl
  rw [updated, update, Option.getD_some, equals, hcontent, hsize, beq_self_eq_true,
    beq_self_eq_true, Bool.and_self]

theorem equalComponents_updated {vs ws : List MmsValue}
    (ih : ∀ v ∈ vs, ∀ w, equalTypes v w = true → (updated v w).equals w = takes v w)
    (h : equalComponentTypes vs ws = true) :
    equalComponents (updateComponents vs ws) ws = takesComponents vs ws := by
  induction vs generalizing ws with
  | nil =>
    cases ws with
    | nil => rfl
    | cons w ws => cases h
  | cons v vs ihvs =>
    cases ws with
    | nil => cases h
    | cons w ws =>
      rw [equalComponentTypes, Bool.and_eq_true] at h
      rw [updateComponents, equalComponents, takesComponents,
        ihvs (fun v hv => ih v (List.mem_cons_of_mem _ hv)) h.2]
      exact congrArg (· && takesComponents vs ws) (ih v List.mem_cons_self w h.1)

/-- A value of the same types equals the other one after it has been updated with it exactly when
it can take it. -/
theorem equals_updated {v w : MmsValue} (h : v.equalTypes w = true) :
    (v.updated w).equals w = v.takes w := by
  induction v using tree_induction generalizing w with
  | array vs ih =>
    cases w with
    | array ws => exact equalComponents_updated (fun v hv w => ih v hv) h
    | _ => cases h
  | structured vs ih =>
    cases w with
    | structured ws => exact equalComponents_updated (fun v hv w => ih v hv) h
    | _ => cases h
  | leaf v hv =>
    cases v with
    | array | structured => exact hv.elim
    | boolean b =>
      cases w with
      | boolean c => exact beq_self_eq_true c
      | _ => cases h
    | bitString b =>
      cases w with
      | bitString c => exact equals_bitString_updated b c
      | _ => cases h
    | integer v =>
      cases w with
      | integer w => exact equals_integer_updated v w
      | _ => cases h
    | unsigned v =>
      cases w with
      | unsigned w => exact equals_unsigned_updated v w
      | _ => cases h
    | float f =>
      cases w with
      | float g => exact equals_float_updated f g
      | _ => cases h
    | octetString o =>
      cases w with
      | octetString p => exact equals_octetString_updated o p
      | _ => cases h
    | visibleString s =>
      cases w with
      | visibleString t => exact equals_refl (.visibleString t)
      | _ => cases h
    | binaryTime t =>
      cases w with
      | binaryTime u => exact equals_binaryTime_updated t u
      | _ => cases h
    | mmsString s =>
      cases w with
      | mmsString t => exact equals_refl (.mmsString t)
      | _ => cases h
    | utcTime t =>
      cases w with
      | utcTime u => exact equals_refl (.utcTime u)
      | _ => cases h
    | dataAccessError e =>
      cases w with
      | dataAccessError f => rfl
      | _ => cases h

end MmsValue

/-- `MmsValue_getType` of the one is that of the other. -/
def MmsValue.sameType : MmsValue → MmsValue → Bool
  | .array _, .array _ => true
  | .structured _, .structured _ => true
  | .boolean _, .boolean _ => true
  | .bitString _, .bitString _ => true
  | .integer _, .integer _ => true
  | .unsigned _, .unsigned _ => true
  | .float _, .float _ => true
  | .octetString _, .octetString _ => true
  | .visibleString _, .visibleString _ => true
  | .binaryTime _, .binaryTime _ => true
  | .mmsString _, .mmsString _ => true
  | .utcTime _, .utcTime _ => true
  | .dataAccessError _, .dataAccessError _ => true
  | _, _ => false

/-- Where a value is: in the cache of the domain with this number. -/
structure ValuePlace where
  domain : Nat
  place : CachePlace
  deriving DecidableEq

/-- A data attribute of a server that runs: `mmsValue` is where its value is. -/
structure BoundAttribute where
  mmsValue : Option ValuePlace
  triggerOptions : UInt8
  children : List BoundAttribute

namespace BoundAttribute

mutual

/-- The attribute and all that is below it, in the order in which they are searched. -/
def withChildren : BoundAttribute → List BoundAttribute
  | ⟨mmsValue, triggerOptions, children⟩ =>
    ⟨mmsValue, triggerOptions, children⟩ :: allWithChildren children

def allWithChildren : List BoundAttribute → List BoundAttribute
  | [] => []
  | da :: das => withChildren da ++ allWithChildren das

end

end BoundAttribute

namespace MmsValue

mutual

/-- The ways to a value and to the components of structures in it. -/
def structureParts (path : List Nat) : MmsValue → List (List Nat)
  | .structured vs => path :: componentParts path 0 vs
  | _ => [path]

def componentParts (path : List Nat) (i : Nat) : List MmsValue → List (List Nat)
  | [] => []
  | v :: vs => structureParts (path ++ [i]) v ++ componentParts path (i + 1) vs

end

end MmsValue

/-- What the value of a data attribute is followed by. `observed` is the call of the observer with
this number. -/
inductive WriteEvent
  | triggerReportObservers (p : ValuePlace) (flag : Reporting.ReportInclusionFlag)
  | triggerGooseObservers (p : ValuePlace)
  | observed (index : Nat)

/-- `handler` is a function of the application. -/
structure AttributeAccessHandler where
  dataAttribute : BoundAttribute
  handler : MmsValue → Nat → Bool

/-- The part of a server that is concerned with the values of the data model. `attributes` are
those of the data objects, in the order of the model. -/
structure IedServer where
  caches : List MmsValueCache
  attributes : List BoundAttribute
  attributeAccessHandlers : List AttributeAccessHandler
  observedObjects : List BoundAttribute
  writeAccessPolicies : FunctionalConstraint → Bool

/-- The kinds of variables that are told apart by the two characters behind the first separator. -/
inductive WriteTarget
  | controlObject | gooseControlBlock | reportControlBlock
  | data (fc : FunctionalConstraint)
  | notWritable
  deriving DecidableEq

def writeTarget (rest : List UInt8) : WriteTarget :=
  if rest.take 2 = ascii "CO" then .controlObject
  else if rest.take 2 = ascii "GO" then .gooseControlBlock
  else if rest.take 2 = ascii "RP" ∨ rest.take 2 = ascii "BR" then .reportControlBlock
  else if rest.take 2 = ascii "CF" then .data .cf
  else if rest.take 2 = ascii "DC" then .data .dc
  else if rest.take 2 = ascii "SP" then .data .sp
  else if rest.take 2 = ascii "SV" then .data .sv
  else .notWritable

/-- The handlers of the variables that are not values of the data model; they have a state of
their own. -/
structure ControlBlockHandlers (σ : Type) where
  writeAccess : WriteTarget → σ → Nat → List UInt8 → MmsValue → Nat →
    Exec (σ × MmsDataAccessError)

namespace IedServer

def valueAt (s : IedServer) (p : ValuePlace) : Exec MmsValue :=
  match s.caches[p.domain]? with
  | some cache => cache.valueAt p.place
  | none => .error .notThere

def modifyAt (s : IedServer) (p : ValuePlace) (f : MmsValue → MmsValue) : IedServer :=
  { s with caches := s.caches.modify p.domain (·.modifyAt p.place f) }

/-- `MmsServer_getValueFromCache`, and where the value is that it returns. -/
def getPlaceFromCache (s : IedServer) (domain : Nat) (itemId : List UInt8) :
    Exec (Option ValuePlace) :=
  match s.caches[domain]? with
  | some cache => do return (← cache.lookupPlace itemId).map (ValuePlace.mk domain)
  | none => .ok none

def getValueFromCache (s : IedServer) (domain : Nat) (itemId : List UInt8) :
    Exec (Option MmsValue) := do
  match ← s.getPlaceFromCache domain itemId with
  | some p => return some (← s.valueAt p)
  | none => return none

/-- `IedModel_lookupDataAttributeByMmsValue` -/
def lookupDataAttributeByMmsValue (s : IedServer) (p : ValuePlace) : Option BoundAttribute :=
  (BoundAttribute.allWithChildren s.attributes).find? (·.mmsValue = some p)

/-- The value, or a component of it, is that of the attribute or one below it. -/
def checkIfValueBelongsToModelNode (da : BoundAttribute) (p : ValuePlace)
    (value : MmsValue) : Bool :=
  (value.structureParts p.place.path).any fun path =>
    da.withChildren.any (·.mmsValue = some ⟨p.domain, p.place.itemId, path⟩)

/-- The first handler that is found decides, and the policy of the constraint where there is
none. -/
def grantsAccess (s : IedServer) (fc : FunctionalConstraint) (p : ValuePlace)
    (current value : MmsValue) (connection : Nat) : Bool :=
  match s.attributeAccessHandlers.find?
    fun h => checkIfValueBelongsToModelNode h.dataAttribute p current with
  | some h => h.handler value connection
  | none => s.writeAccessPolicies fc

def checkForUpdateTrigger (da : BoundAttribute) (p : ValuePlace) : List WriteEvent :=
  if da.triggerOptions &&& 4 ≠ 0 then [.triggerReportObservers p .valueUpdate] else []

def checkForChangedTriggers (da : BoundAttribute) (p : ValuePlace) : List WriteEvent :=
  (if da.triggerOptions &&& 1 ≠ 0 then [.triggerReportObservers p .valueChanged]
    else if da.triggerOptions &&& 2 ≠ 0 then [.triggerReportObservers p .qualityChanged]
    else []) ++ [.triggerGooseObservers p]

/-- `IedServer_updateAttributeValue` -/
def updateAttributeValue (s : IedServer) (da : BoundAttribute) (value : MmsValue) :
    Exec (IedServer × List WriteEvent) :=
  match da.mmsValue with
  | none => .error .nullPointer
  | some p => do
    let current ← s.valueAt p
    if !current.sameType value then throw .assertion
    if current.equals value then return (s, checkForUpdateTrigger da p)
    return (s.modifyAt p (·.updated value), checkForChangedTriggers da p)

def observers (s : IedServer) (p : ValuePlace) (current : MmsValue) : List WriteEvent :=
  ((s.observedObjects.findIdx? fun da =>
    checkIfValueBelongsToModelNode da p current).map WriteEvent.observed).toList

/-- The part of `mmsWriteHandler` for `SP`, `SV`, `CF` and `DC`. -/
def writeData (s : IedServer) (fc : FunctionalConstraint) (domain : Nat)
    (variableId : List UInt8) (value : MmsValue) (connection : Nat) :
    Exec (IedServer × MmsDataAccessError × List WriteEvent) := do
  match ← s.getPlaceFromCache domain variableId with
  | none => return (s, .objectValueInvalid, [])
  | some p =>
    let current ← s.valueAt p
    if !current.equalTypes value then return (s, .objectValueInvalid, [])
    if !s.grantsAccess fc p current value connection then return (s, .objectAccessDenied, [])
    match s.lookupDataAttributeByMmsValue p with
    | none => return (s, .success, s.observers p current)
    | some da =>
      let (s', events) ← s.updateAttributeValue da value
      return (s', .success, events ++ s'.observers p current)

variable {σ : Type}

def mmsWriteHandler (handlers : ControlBlockHandlers σ) (s : IedServer) (blocks : σ)
    (domain : Nat) (variableId : List UInt8) (value : MmsValue) (connection : Nat) :
    Exec (IedServer × σ × MmsDataAccessError × List WriteEvent) :=
  match behindSeparator variableId with
  | none => .ok (s, blocks, .invalidAddress, [])
  | some rest =>
    match writeTarget rest with
    | .data fc => do
      let (s, indication, events) ← s.writeData fc domain variableId value connection
      return (s, blocks, indication, events)
    | .notWritable => .ok (s, blocks, .objectAccessDenied, [])
    | target => do
      let (blocks, indication) ←
        handlers.writeAccess target blocks domain variableId value connection
      return (s, blocks, indication, [])

/-- The variable is a value of the data model, or none that may be written. -/
def IsDataName (variableId : List UInt8) : Prop :=
  ∀ rest, behindSeparator variableId = some rest →
    (∃ fc, writeTarget rest = .data fc) ∨ writeTarget rest = .notWritable

/-- What has been written successfully is read back, and nothing is changed otherwise. -/
def WriteVisible (handlers : ControlBlockHandlers σ) (s : IedServer) (blocks : σ) (domain : Nat)
    (variableId : List UInt8) (value : MmsValue) (connection : Nat) : Prop :=
  ∀ s' blocks' indication events,
    s.mmsWriteHandler handlers blocks domain variableId value connection =
      .ok (s', blocks', indication, events) →
    (indication = .success →
      ∃ w, s'.getValueFromCache domain variableId = .ok (some w) ∧ w.equals value = true) ∧
    (indication ≠ .success → s'.caches = s.caches)

/-- Where the variable has a value of the same types that may be written, this value equals the
written one as it is, or it takes it and is that of a data attribute. -/
def Keeps (s : IedServer) (domain : Nat) (variableId : List UInt8) (value : MmsValue)
    (connection : Nat) : Prop :=
  ∀ rest fc p current, behindSeparator variableId = some rest → writeTarget rest = .data fc →
    s.getPlaceFromCache domain variableId = .ok (some p) → s.valueAt p = .ok current →
    current.equalTypes value = true → s.grantsAccess fc p current value connection = true →
    current.equals value = true ∨
      current.takes value = true ∧ s.lookupDataAttributeByMmsValue p ≠ none

variable {s s' : IedServer} {p : ValuePlace} {f : MmsValue → MmsValue} {domain : Nat}
  {itemId variableId : List UInt8} {current value : MmsValue} {connection : Nat}
  {fc : FunctionalConstraint} {indication : MmsDataAccessError} {events : List WriteEvent}

theorem domain_of_getPlaceFromCache (h : s.getPlaceFromCache domain itemId = .ok (some p)) :
    ∃ cache, s.caches[domain]? = some cache ∧ p.domain = domain ∧
      cache.lookupPlace itemId = .ok (some p.place) := by
  rw [getPlaceFromCache] at h
  cases hcache : s.caches[domain]? with
  | none =>
    rw [hcache] at h
    cases h
  | some cache =>
    rw [hcache] at h
    obtain ⟨found, hfound, h⟩ := bind_ok h
    obtain ⟨place, rfl, rfl⟩ := Option.map_eq_some_iff.mp (Except.ok.inj h)
    exact ⟨cache, rfl, rfl, hfound⟩

theorem getElem?_caches_modifyAt {cache : MmsValueCache} (h : s.caches[p.domain]? = some cache) :
    (s.modifyAt p f).caches[p.domain]? = some (cache.modifyAt p.place f) := by
  rw [modifyAt, List.getElem?_modify_eq, h]
  rfl

/-- A value that is changed is found where it was. -/
theorem getPlaceFromCache_modifyAt (h : s.getPlaceFromCache domain itemId = .ok (some p)) :
    (s.modifyAt p f).getPlaceFromCache domain itemId = .ok (some p) := by
  obtain ⟨cache, hcache, rfl, hplace⟩ := domain_of_getPlaceFromCache h
  rw [getPlaceFromCache, getElem?_caches_modifyAt hcache]
  dsimp only
  rw [MmsValueCache.lookupPlace_modifyAt hplace]
  rfl

theorem valueAt_modifyAt (h : s.valueAt p = .ok current) :
    (s.modifyAt p f).valueAt p = .ok (f current) := by
  rw [valueAt] at h ⊢
  cases hcache : s.caches[p.domain]? with
  | none =>
    rw [hcache] at h
    cases h
  | some cache =>
    rw [hcache] at h
    rw [getElem?_caches_modifyAt hcache]
    exact MmsValueCache.valueAt_modifyAt h

theorem getValueFromCache_eq (h : s.getPlaceFromCache domain itemId = .ok (some p))
    (hvalue : s.valueAt p = .ok current) : s.getValueFromCache domain itemId = .ok (some current) := by
  rw [getValueFromCache, h, ok_bind]
  dsimp only
  rw [hvalue]
  rfl

theorem sameType_of_equalTypes (h : current.equalTypes value = true) :
    current.sameType value = true := by
  cases current <;> cases value <;> first | rfl | cases h

theorem mmsValue_of_lookup {da : BoundAttribute}
    (h : s.lookupDataAttributeByMmsValue p = some da) : da.mmsValue = some p := by
  rw [lookupDataAttributeByMmsValue] at h
  have hfound := List.find?_some h
  exact of_decide_eq_true hfound

/-- What the update of the attribute with the value leaves behind. -/
theorem updateAttributeValue_eq {da : BoundAttribute} (hda : da.mmsValue = some p)
    (hvalue : s.valueAt p = .ok current) (htypes : current.equalTypes value = true) :
    s.updateAttributeValue da value =
      .ok (if current.equals value then (s, checkForUpdateTrigger da p)
        else (s.modifyAt p (·.updated value), checkForChangedTriggers da p)) := by
  rw [updateAttributeValue, hda]
  dsimp only
  rw [hvalue, ok_bind, sameType_of_equalTypes htypes]
  simp only [Bool.not_true, Bool.false_eq_true, if_false]
  split <;> rfl

/-- What the handler leaves behind where it accepts the value. -/
theorem writeData_granted (hplace : s.getPlaceFromCache domain variableId = .ok (some p))
    (hvalue : s.valueAt p = .ok current) (htypes : current.equalTypes value = true)
    (hgrant : s.grantsAccess fc p current value connection = true) :
    ∃ s' events, s.writeData fc domain variableId value connection = .ok (s', .success, events) ∧
      s' = if current.equals value ∨ s.lookupDataAttributeByMmsValue p = none then s
        else s.modifyAt p (·.updated value) := by
  rw [writeData, hplace, ok_bind]
  dsimp only
  rw [hvalue, ok_bind, htypes, hgrant]
  simp only [Bool.not_true, Bool.false_eq_true, if_false]
  cases hda : s.lookupDataAttributeByMmsValue p with
  | none => exact ⟨s, _, rfl, (if_pos (.inr rfl)).symm⟩
  | some da =>
    dsimp only
    rw [updateAttributeValue_eq (mmsValue_of_lookup hda) hvalue htypes, ok_bind]
    by_cases heq : current.equals value = true
    · rw [if_pos heq, if_pos (.inl heq)]
      exact ⟨_, _, rfl, rfl⟩
    · rw [if_neg heq, if_neg (not_or.mpr ⟨heq, Option.some_ne_none da⟩)]
      exact ⟨_, _, rfl, rfl⟩

theorem refused {e : MmsDataAccessError} (he : e ≠ .success)
    (h : (.ok (s, e, []) : Exec (IedServer × MmsDataAccessError × List WriteEvent)) =
      .ok (s', indication, events)) : indication ≠ .success ∧ s' = s := by
  cases h
  exact ⟨he, rfl⟩

/-- The handler changes nothing unless it accepts the value. -/
theorem writeData_cases (h : s.writeData fc domain variableId value connection =
    .ok (s', indication, events)) :
    (indication ≠ .success ∧ s' = s) ∨
    ∃ p current, s.getPlaceFromCache domain variableId = .ok (some p) ∧
      s.valueAt p = .ok current ∧ current.equalTypes value = true ∧
      s.grantsAccess fc p current value connection = true := by
  rw [writeData] at h
  obtain ⟨found, hplace, h⟩ := bind_ok h
  cases found with
  | none => exact .inl (refused (by decide) h)
  | some p =>
    obtain ⟨current, hvalue, h⟩ := bind_ok h
    cases htypes : current.equalTypes value with
    | false =>
      rw [htypes] at h
      exact .inl (refused (by decide) h)
    | true =>
      cases hgrant : s.grantsAccess fc p current value connection with
      | false =>
        rw [htypes, hgrant] at h
        exact .inl (refused (by decide) h)
      | true => exact .inr ⟨p, current, hplace, hvalue, htypes, hgrant⟩

/-- The value that is read after an accepted write equals the written one exactly when the value
that was there keeps it. -/
theorem readBack_iff (hplace : s.getPlaceFromCache domain variableId = .ok (some p))
    (hvalue : s.valueAt p = .ok current) (htypes : current.equalTypes value = true)
    (hs' : s' = if current.equals value ∨ s.lookupDataAttributeByMmsValue p = none then s
      else s.modifyAt p (·.updated value)) :
    (∃ w, s'.getValueFromCache domain variableId = .ok (some w) ∧ w.equals value = true) ↔
      current.equals value = true ∨
        current.takes value = true ∧ s.lookupDataAttributeByMmsValue p ≠ none := by
  by_cases hkept : current.equals value = true ∨ s.lookupDataAttributeByMmsValue p = none
  · rw [if_pos hkept] at hs'
    subst hs'
    constructor
    · intro ⟨w, hw, heq⟩
      rw [getValueFromCache_eq hplace hvalue] at hw
      obtain rfl := Option.some.inj (Except.ok.inj hw)
      exact .inl heq
    · rintro (heq | ⟨-, hbound⟩)
      · exact ⟨current, getValueFromCache_eq hplace hvalue, heq⟩
      · exact ⟨current, getValueFromCache_eq hplace hvalue, hkept.resolve_right hbound⟩
  · rw [if_neg hkept] at hs'
    subst hs'
    rw [not_or] at hkept
    have hread := getValueFromCache_eq
      (getPlaceFromCache_modifyAt (f := (·.updated value)) hplace) (valueAt_modifyAt hvalue)
    rw [hread, or_iff_right hkept.1, and_iff_left hkept.2, ← MmsValue.equals_updated htypes]
    constructor
    · intro ⟨w, hw, heq⟩
      obtain rfl := Option.some.inj (Except.ok.inj hw)
      exact heq
    · intro heq
      exact ⟨_, rfl, heq⟩

theorem mmsWriteHandler_data (handlers : ControlBlockHandlers σ) (blocks : σ) {rest : List UInt8}
    (hsep : behindSeparator variableId = some rest) (htarget : writeTarget rest = .data fc)
    (hwrite : s.writeData fc domain variableId value connection = .ok (s', indication, events)) :
    s.mmsWriteHandler handlers blocks domain variableId value connection =
      .ok (s', blocks, indication, events) := by
  rw [mmsWriteHandler, hsep]
  dsimp only
  rw [htarget]
  dsimp only
  rw [hwrite]
  rfl

/-- The handler of a value of the data model either changes nothing, or it accepts the value. -/
theorem mmsWriteHandler_cases {handlers : ControlBlockHandlers σ} {blocks blocks' : σ}
    (hdata : IsDataName variableId)
    (h : s.mmsWriteHandler handlers blocks domain variableId value connection =
      .ok (s', blocks', indication, events)) :
    (indication ≠ .success ∧ s' = s) ∨
    ∃ rest fc, behindSeparator variableId = some rest ∧ writeTarget rest = .data fc ∧
      s.writeData fc domain variableId value connection = .ok (s', indication, events) := by
  rw [mmsWriteHandler] at h
  cases hsep : behindSeparator variableId with
  | none =>
    rw [hsep] at h
    cases h
    exact .inl ⟨by decide, rfl⟩
  | some rest =>
    rw [hsep] at h
    dsimp only at h
    rcases hdata rest hsep with ⟨fc, htarget⟩ | htarget
    · rw [htarget] at h
      obtain ⟨⟨s'', indication', events'⟩, hwrite, h⟩ := bind_ok h
      cases h
      exact .inr ⟨rest, fc, rfl, htarget, hwrite⟩
    · rw [htarget] at h
      cases h
      exact .inl ⟨by decide, rfl⟩

/-- What is written to a value of the data model is visible exactly when the value keeps it. -/
theorem writeVisible_iff (handlers : ControlBlockHandlers σ) (s : IedServer) (blocks : σ)
    (domain : Nat) (variableId : List UInt8) (value : MmsValue) (connection : Nat)
    (hdata : IsDataName variableId) :
    s.WriteVisible handlers blocks domain variableId value connection ↔
      s.Keeps domain variableId value connection := by
  constructor
  · intro h rest fc p current hsep htarget hplace hvalue htypes hgrant
    obtain ⟨s', events, hwrite, hs'⟩ := writeData_granted hplace hvalue htypes hgrant
    have hrun := mmsWriteHandler_data handlers blocks hsep htarget hwrite
    exact (readBack_iff hplace hvalue htypes hs').mp ((h _ _ _ _ hrun).1 rfl)
  · intro h s' blocks' indication events hrun
    rcases mmsWriteHandler_cases hdata hrun with ⟨hne, rfl⟩ | ⟨rest, fc, hsep, htarget, hwrite⟩
    · exact ⟨fun hsuccess => absurd hsuccess hne, fun _ => rfl⟩
    · rcases writeData_cases hwrite with ⟨hne, rfl⟩ | ⟨p, current, hplace, hvalue, htypes, hgrant⟩
      · exact ⟨fun hsuccess => absurd hsuccess hne, fun _ => rfl⟩
      · obtain ⟨s'', events', hgranted, hs''⟩ := writeData_granted hplace hvalue htypes hgrant
        cases hwrite.symm.trans hgranted
        have hkeeps := h rest fc p current hsep htarget hplace hvalue htypes hgrant
        exact ⟨fun _ => (readBack_iff hplace hvalue htypes hs'').mpr hkeeps,
          fun hne => absurd rfl hne⟩

/-- The setpoint `L$SP$O` with the boolean `a`. -/
def setpoints : MmsVariableSpecification :=
  .structured (ascii "SP") [.structured (ascii "O") [.leaf (ascii "a") 0]]

theorem wellNamed_setpoints : setpoints.WellNamed := by
  refine .structured (List.nodup_singleton _) ?_ ?_
  · intro e he
    obtain rfl := List.mem_singleton.mp he
    decide
  · intro e he
    obtain rfl := List.mem_singleton.mp he
    refine .structured (List.nodup_singleton _) ?_ ?_
    · intro e he
      obtain rfl := List.mem_singleton.mp he
      decide
    · intro e he
      obtain rfl := List.mem_singleton.mp he
      exact .leaf

theorem plain_setpoints : ∀ v ∈ [MmsVariableSpecification.structured (ascii "L") [setpoints]],
    separator ∉ v.name ∧ v.name ≠ [] := by
  intro v hv
  obtain rfl := List.mem_singleton.mp hv
  exact ⟨by decide, by decide⟩

theorem wellNamed_sample :
    ∀ v ∈ [MmsVariableSpecification.structured (ascii "L") [setpoints]], v.WellNamed := by
  intro v hv
  obtain rfl := List.mem_singleton.mp hv
  refine .structured (List.nodup_singleton _) ?_ ?_
  · intro e he
    obtain rfl := List.mem_singleton.mp he
    decide
  · intro e he
    obtain rfl := List.mem_singleton.mp he
    exact wellNamed_setpoints

def sampleDomain : MmsDomain :=
  ⟨[.structured (ascii "L") [setpoints]], List.nodup_singleton _, plain_setpoints, wellNamed_sample⟩

/-- The values of the setpoints are cached, and the boolean is that of an attribute. -/
def sampleServer : IedServer where
  caches := [⟨sampleDomain, [(ascii "L$SP", .structured [.structured [.boolean false]])]⟩]
  attributes := [⟨some ⟨0, ⟨ascii "L$SP", [0, 0]⟩⟩, 0, []⟩]
  attributeAccessHandlers := []
  observedObjects := []
  writeAccessPolicies := fun _ => true

def noHandlers : ControlBlockHandlers Unit := ⟨fun _ s _ _ _ _ => .ok (s, .objectAccessDenied)⟩

theorem isDataName_sample : IsDataName (ascii "L$SP$O") := by
  intro rest hrest
  obtain rfl := Option.some.inj (show some (ascii "SP$O") = some rest from hrest)
  exact .inl ⟨.sp, by decide⟩

theorem getPlaceFromCache_sample :
    sampleServer.getPlaceFromCache 0 (ascii "L$SP$O") =
      .ok (some ⟨0, ⟨ascii "L$SP", [0]⟩⟩) := by
  have hsearch : MmsValueCache.searchCacheForPlace
      ⟨sampleDomain, [(ascii "L$SP", .structured [.structured [.boolean false]])]⟩
      (ascii "L$SP$O") (ascii "L$SP") = .ok (some ⟨ascii "L$SP", [0]⟩) := by
    rw [MmsValueCache.searchCacheForPlace]
    rfl
  exact congrArg (Except.map (Option.map (ValuePlace.mk 0))) hsearch

theorem writeVisible_sample :
    IsDataName (ascii "L$SP$O") ∧
      (sampleServer.WriteVisible noHandlers () 0 (ascii "L$SP$O")
          (.structured [.boolean false]) 1 ↔
        sampleServer.Keeps 0 (ascii "L$SP$O") (.structured [.boolean false]) 1) :=
  ⟨isDataName_sample, writeVisible_iff noHandlers sampleServer () 0 _ _ 1 isDataName_sample⟩

theorem valueAt_sample :
    sampleServer.valueAt ⟨0, ⟨ascii "L$SP", [0]⟩⟩ = .ok (.structured [.boolean false]) := rfl

theorem lookup_sample :
    sampleServer.lookupDataAttributeByMmsValue ⟨0, ⟨ascii "L$SP", [0]⟩⟩ = none := rfl

/-- The whole data object is written successfully, but it is that of no attribute. -/
theorem not_writeVisible_dataObject :
    ¬ sampleServer.WriteVisible noHandlers () 0 (ascii "L$SP$O") (.structured [.boolean true]) 1 := by
  intro h
  obtain ⟨s', events, hwrite, hs'⟩ := writeData_granted getPlaceFromCache_sample valueAt_sample
    (Eq.refl ((MmsValue.structured [.boolean false]).equalTypes (.structured [.boolean true])))
    (Eq.refl (sampleServer.grantsAccess .sp ⟨0, ⟨ascii "L$SP", [0]⟩⟩
      (.structured [.boolean false]) (.structured [.boolean true]) 1))
  rw [if_pos (.inr lookup_sample)] at hs'
  subst hs'
  have hsep : behindSeparator (ascii "L$SP$O") = some (ascii "SP$O") := by decide
  have hrun := mmsWriteHandler_data noHandlers () hsep (by decide) hwrite
  obtain ⟨w, hread, heq⟩ := (h _ _ _ _ hrun).1 rfl
  rw [getValueFromCache_eq getPlaceFromCache_sample valueAt_sample] at hread
  obtain rfl := Option.some.inj (Except.ok.inj hread)
  cases heq

end IedServer

end Iec61850
