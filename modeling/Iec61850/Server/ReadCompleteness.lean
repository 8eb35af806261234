import Iec61850.Server.ReadService

/-! What a read request addresses, and when every part of it is answered with what is there: with
the value, or an access error where there is no value. -/

namespace Iec61850

open Machine MmsVariableSpecification

/-! ## The values that a request addresses -/

section Value

variable (getValue : List UInt8 → Exec (Option MmsValue))

mutual

/-- The value of a variable. A structure that is not stored as a whole is made of the values of
its components. -/
def valueOf : MmsVariableSpecification → List UInt8 → Exec (Option MmsValue)
  | .structured _ elements, itemId => do
    match ← getValue itemId with
    | some value => return some value
    | none => return (← valuesOf elements itemId).map MmsValue.structured
  | .array _ _ _, itemId => getValue itemId
  | .leaf _ _, itemId => getValue itemId

def valuesOf : List MmsVariableSpecification → List UInt8 → Exec (Option (List MmsValue))
  | [], _ => .ok (some [])
  | e :: es, itemId => do
    let value ← valueOf e (itemId ++ separator :: e.name)
    let values ← valuesOf es itemId
    return value.bind fun value => values.map (value :: ·)

end

end Value

namespace MmsVariableSpecification

/-- The part that is selected: the component with the name, the element with the index, or the
elements of the range, of which there is one at least. -/
def selectPart : MmsVariableSpecification → MmsValue → AccessSelection →
    Option (MmsVariableSpecification × MmsValue)
  | .structured _ elements, value, .component name => do
    let i ← elements.findIdx? (·.name = name)
    return (← elements[i]?, ← value.getElement i)
  | .array _ _ e, value, .index index => do return (e, ← value.getElement index.toNat)
  | .array name elementCount e, value, .indexRange lowIndex numberOfElements =>
    if numberOfElements = 0 then none
    else do
      return (.array name elementCount e, .array (← (List.range numberOfElements.toNat).mapM
        fun k : Nat => value.getElement ↑(lowIndex.toNat + k)))
  | _, _, _ => none

/-- A part of a part is only that of a component or of an element. -/
def select (v : MmsVariableSpecification) (value : MmsValue) :
    AlternateAccess → Option MmsValue
  | .empty => none
  | .named => none
  | .selectAccess selection => (v.selectPart value selection).map (·.2)
  | .selectAlternateAccess (.indexRange _ _) _ => none
  | .selectAlternateAccess selection alternateAccess => do
    let part ← v.selectPart value selection
    part.1.select part.2 alternateAccess

def selected (v : MmsVariableSpecification) (value : MmsValue) (part : Option AlternateAccess) :
    Option MmsValue :=
  match part with
  | none => some value
  | some alternateAccess => v.select value alternateAccess

end MmsVariableSpecification

/-- What a variable of a request or a member of a list stands for. There is no domain where its
name is not known. -/
structure ReadPath where
  domain : Option Nat
  itemId : List UInt8
  part : Option AlternateAccess

/-- The index, the component, or the component of the element with the index. -/
def NamedVariableListEntry.part (entry : NamedVariableListEntry) : Option AlternateAccess :=
  let index := UInt32.ofInt entry.arrayIndex
  match entry.componentName with
  | none => if entry.arrayIndex = -1 then none else some (.selectAccess (.index index))
  | some component =>
    if entry.arrayIndex = -1 then some (.selectAccess (.component component))
    else some (.selectAlternateAccess (.index index) (.selectAccess (.component component)))

def NamedVariableListEntry.path (entry : NamedVariableListEntry) : ReadPath :=
  ⟨entry.domain, entry.variableName, entry.part⟩

namespace ReadServer

def path (s : ReadServer) : ReadSpecification → ReadPath
  | .name access =>
    match access.name with
    | some (domainId, itemId) => ⟨s.getDomain domainId, itemId, access.alternateAccess⟩
    | none => ⟨none, [], access.alternateAccess⟩
  | .other => ⟨none, [], none⟩

/-- The value at a path, while the variable with this number is read. -/
def valueAt (s : ReadServer) (i : Nat) (p : ReadPath) : Exec (Option MmsValue) :=
  match p.domain with
  | none => .ok none
  | some domain => do
    match ← s.getNamedVariable domain p.itemId with
    | none => return none
    | some v =>
      return (← valueOf (s.getValue i domain) v p.itemId).bind fun value => v.selected value p.part

/-- The paths that a request addresses, if it has no name of a list that there is not. -/
def paths (s : ReadServer) : VariableAccessSpecification → Option (List ReadPath)
  | .listOfVariable items => some (items.map s.path)
  | .variableListName (.domainSpecific domainId itemId) =>
    (s.getNamedVariableList domainId itemId).map (·.listOfVariables.map (·.path))
  | .variableListName (.aaSpecific listName) =>
    (s.getConnectionVariableList listName).map (·.listOfVariables.map (·.path))
  | .variableListName .vmdSpecific => none

end ReadServer

/-- The result is the value, or an access error where there is no value. -/
def ReadResult.Right (value : Exec (Option MmsValue)) : ReadResult → Prop
  | .failure _ => ∀ v, value ≠ .ok (some v)
  | .success v => value = .ok (some v)

/-- The only right result that the service makes. -/
def ReadResult.expected (value : Exec (Option MmsValue)) : ReadResult :=
  match value with
  | .ok (some v) => .success v
  | _ => .failure .objectNoneExistent

namespace ReadServer

/-- Every path is answered, each in its place. -/
def AnswersAll (s : ReadServer) (invokeId : UInt32) (request : ReadRequest) : Prop :=
  ∀ paths, s.paths request.variableAccessSpecification = some paths →
    ∃ accessSpec results,
      s.handleReadRequest invokeId request =
        .ok (.readResponse invokeId accessSpec results) ∧
      List.Forall₂ (fun p result => ReadResult.Right (s.valueAt p.2 p.1) result)
        paths.zipIdx results

end ReadServer

/-! ## When they are answered -/

/-- There is a value and no part of it is addressed, or there is no value and the variable has no
components. -/
inductive WholeReadable (getValue : List UInt8 → Exec (Option MmsValue)) (itemId : List UInt8) :
    MmsVariableSpecification → Option AlternateAccess → Prop
  | value {v : MmsVariableSpecification} {value : MmsValue} :
    valueOf getValue v itemId = .ok (some value) → WholeReadable getValue itemId v none
  | noValue {name : List UInt8} {size : Int} {part : Option AlternateAccess} :
    getValue itemId = .ok none → WholeReadable getValue itemId (.leaf name size) part

/-- The part of an array that is addressed is there. The component that is found is the first
whose name begins with the name that is looked for, and has the value that is addressed. -/
inductive PartReadable (getValue : List UInt8 → Exec (Option MmsValue)) (itemId : List UInt8)
    (elementCount : Int) (e : MmsVariableSpecification) : AlternateAccess → Prop
  | notIndexed {a : AlternateAccess} : a.isIndexAccess = .ok false →
    PartReadable getValue itemId elementCount e a
  | noValue {a : AlternateAccess} : a.isIndexAccess = .ok true → getValue itemId = .ok none →
    PartReadable getValue itemId elementCount e a
  | element {index : UInt32} {arrayValue w : MmsValue} :
    getValue itemId = .ok (some arrayValue) →
    arrayValue.getElement (i32 index.toNat) = some w →
    PartReadable getValue itemId elementCount e (.selectAccess (.index index))
  | range {lowIndex numberOfElements : UInt32} {arrayValue : MmsValue} :
    getValue itemId = .ok (some arrayValue) → numberOfElements ≠ 0 →
    lowIndex.toNat + numberOfElements.toNat < 2147483648 →
    (∀ k < numberOfElements.toNat, ∃ w, arrayValue.getElement ↑(lowIndex.toNat + k) = some w ∧
      w.leaves.any MmsValue.isNullString = false) →
    PartReadable getValue itemId elementCount e
      (.selectAccess (.indexRange lowIndex numberOfElements))
  | component {index : UInt32} {inner : AlternateAccess} {arrayValue structValue w : MmsValue}
      {component : List UInt8} {j : Nat} :
    getValue itemId = .ok (some arrayValue) → e.isStructure = true →
    arrayValue.getElement (i32 index.toNat) = some structValue →
    inner.componentOctets = .ok component → component.length ≤ 129 →
    e.elements.findIdx? (strncmpEqual ·.name component) = some j → j < elementCount.toNat →
    structValue.getElement j = some w → e.select structValue inner = some w →
    PartReadable getValue itemId elementCount e (.selectAlternateAccess (.index index) inner)

def MmsVariableSpecification.isArray : MmsVariableSpecification → Bool
  | .array _ _ _ => true
  | _ => false

namespace ReadServer

inductive ItemReadable (s : ReadServer) (i : Nat) : ReadSpecification → Prop
  | noName {access : VariableAccess} : access.name = none → ItemReadable s i (.name access)
  | tooLong {access : VariableAccess} {domainId itemId : List UInt8} :
    access.name = some (domainId, itemId) → (64 < domainId.length ∨ 64 < itemId.length) →
    (∀ v, s.valueAt i (s.path (.name access)) ≠ .ok (some v)) → ItemReadable s i (.name access)
  | unknownDomain {access : VariableAccess} {domainId itemId : List UInt8} :
    access.name = some (domainId, itemId) → s.getDomain domainId = none →
    ItemReadable s i (.name access)
  | unknownVariable {access : VariableAccess} {domainId itemId : List UInt8} {domain : Nat} :
    access.name = some (domainId, itemId) → domainId.length ≤ 64 → itemId.length ≤ 64 →
    s.getDomain domainId = some domain → s.getNamedVariable domain itemId = .ok none →
    ItemReadable s i (.name access)
  | whole {access : VariableAccess} {domainId itemId : List UInt8} {domain : Nat}
      {v : MmsVariableSpecification} :
    access.name = some (domainId, itemId) → domainId.length ≤ 64 → itemId.length ≤ 64 →
    s.getDomain domainId = some domain → s.getNamedVariable domain itemId = .ok (some v) →
    v.isArray = false ∨ access.alternateAccess = none →
    WholeReadable (s.getValue i domain) itemId v access.alternateAccess →
    ItemReadable s i (.name access)
  | part {access : VariableAccess} {domainId itemId name : List UInt8} {domain : Nat}
      {elementCount : Int} {e : MmsVariableSpecification} {alternateAccess : AlternateAccess} :
    access.name = some (domainId, itemId) → domainId.length ≤ 64 → itemId.length ≤ 64 →
    s.getDomain domainId = some domain →
    s.getNamedVariable domain itemId = .ok (some (.array name elementCount e)) →
    access.alternateAccess = some alternateAccess →
    PartReadable (s.getValue i domain) itemId elementCount e alternateAccess →
    ItemReadable s i (.name access)

inductive MemberReadable (s : ReadServer) (i : Nat) (entry : NamedVariableListEntry) : Prop
  | unknownVariable {domain : Nat} : entry.domain = some domain →
    s.getNamedVariable domain entry.variableName = .ok none → MemberReadable s i entry
  | whole {domain : Nat} {v : MmsVariableSpecification} : entry.domain = some domain →
    s.getNamedVariable domain entry.variableName = .ok (some v) →
    WholeReadable (s.getValue i domain) entry.variableName v entry.part → MemberReadable s i entry

def ListReadable (s : ReadServer) (namedList : Option NamedVariableList)
    (names : List (List UInt8)) : Prop :=
  ∀ l, namedList = some l → (∀ name ∈ names, name.length ≤ 64) ∧
    ∀ p ∈ l.listOfVariables.zipIdx, s.MemberReadable p.2 p.1

def Readable (s : ReadServer) : VariableAccessSpecification → Prop
  | .listOfVariable items => ∀ p ∈ items.zipIdx, s.ItemReadable p.2 p.1
  | .variableListName (.domainSpecific domainId itemId) =>
    s.ListReadable (s.getNamedVariableList domainId itemId) [domainId, itemId]
  | .variableListName (.aaSpecific listName) =>
    s.ListReadable (s.getConnectionVariableList listName) [listName]
  | .variableListName .vmdSpecific => True

end ReadServer

/-- The name of the list, where it is asked for. -/
def ReadRequest.accessSpec (request : ReadRequest) : Option VarAccessSpec :=
  match request.variableAccessSpecification with
  | .variableListName (.domainSpecific domainId itemId) =>
    if request.specificationWithResult then some ⟨some domainId, itemId⟩ else none
  | .variableListName (.aaSpecific listName) =>
    if request.specificationWithResult then some ⟨none, listName⟩ else none
  | _ => none

/-- There is no zero in a name. -/
def VariableAccessSpecification.WellFormed : VariableAccessSpecification → Prop
  | .listOfVariable items => ∀ access, .name access ∈ items → ∀ domainId itemId,
    access.name = some (domainId, itemId) → 0 ∉ domainId ∧ 0 ∉ itemId
  | .variableListName (.domainSpecific domainId itemId) => 0 ∉ domainId ∧ 0 ∉ itemId
  | .variableListName (.aaSpecific listName) => 0 ∉ listName
  | .variableListName .vmdSpecific => True

/-- The results, with access errors where there are no values, fit into a message. -/
def ReadServer.Fits (s : ReadServer) (invokeId : UInt32) (request : ReadRequest) : Prop :=
  ∀ paths, s.paths request.variableAccessSpecification = some paths →
    ReadResponse.mmsPduSize invokeId request.accessSpec
      (paths.zipIdx.map fun p => .expected (s.valueAt p.2 p.1)) ≤ s.maxPduSize

/-! ## Lists of which every member has an image -/

section Images

variable {α β : Type} {R : α → β → Prop} {f : α → Option β} {as : List α} {bs : List β}

theorem forall₂_of_mapM (h : as.mapM f = some bs) :
    List.Forall₂ (fun a b => f a = some b) as bs := by
  induction as generalizing bs with
  | nil =>
    cases h
    exact .nil
  | cons a as ih =>
    simp only [List.mapM_cons, Option.pure_def, Option.bind_eq_bind, Option.bind_eq_some_iff] at h
    obtain ⟨b, hb, bs', hbs, h⟩ := h
    cases h
    exact .cons hb (ih hbs)

theorem mapM_of_forall₂ (h : List.Forall₂ (fun a b => f a = some b) as bs) :
    as.mapM f = some bs := by
  induction h with
  | nil => rfl
  | cons hb _ ih =>
    rw [List.mapM_cons, hb, ih]
    rfl

theorem exists_of_mem_right (h : List.Forall₂ R as bs) {b : β} (hb : b ∈ bs) : ∃ a ∈ as, R a b := by
  induction h with
  | nil => cases hb
  | cons hab _ ih =>
    cases hb with
    | head => exact ⟨_, List.mem_cons_self, hab⟩
    | tail _ hb =>
      obtain ⟨a, ha, hab⟩ := ih hb
      exact ⟨a, List.mem_cons_of_mem _ ha, hab⟩

theorem exists_of_mem_left (h : List.Forall₂ R as bs) {a : α} (ha : a ∈ as) : ∃ b ∈ bs, R a b := by
  induction h with
  | nil => cases ha
  | cons hab _ ih =>
    cases ha with
    | head => exact ⟨_, List.mem_cons_self, hab⟩
    | tail _ ha =>
      obtain ⟨b, hb, hab⟩ := ih ha
      exact ⟨b, List.mem_cons_of_mem _ hb, hab⟩

theorem exists_forall₂ (h : ∀ a ∈ as, ∃ b, R a b) : ∃ bs, List.Forall₂ R as bs := by
  induction as with
  | nil => exact ⟨[], .nil⟩
  | cons a as ih =>
    obtain ⟨b, hb⟩ := h a List.mem_cons_self
    obtain ⟨bs, hbs⟩ := ih fun a' ha' => h a' (List.mem_cons_of_mem a ha')
    exact ⟨b :: bs, .cons hb hbs⟩

end Images

/-! ## Parts are not the whole -/

namespace MmsValue

mutual

/-- How deep the structures and arrays of a value are nested. -/
def depth : MmsValue → Nat
  | .structured vs => depths vs + 1
  | .array vs => depths vs + 1
  | _ => 0

def depths : List MmsValue → Nat
  | [] => 0
  | v :: vs => max (depth v) (depths vs)

end

theorem depth_le_depths {vs : List MmsValue} {v : MmsValue} (h : v ∈ vs) :
    v.depth ≤ depths vs := by
  induction vs with
  | nil => cases h
  | cons w vs ih =>
    rw [depths]
    cases h with
    | head => exact le_max_left _ _
    | tail _ h => exact (ih h).trans (le_max_right _ _)

theorem depths_le {vs : List MmsValue} {n : Nat} (h : ∀ v ∈ vs, v.depth ≤ n) : depths vs ≤ n := by
  induction vs with
  | nil => exact Nat.zero_le n
  | cons v vs ih =>
    rw [depths]
    apply max_le
    · exact h v List.mem_cons_self
    · exact ih fun w hw => h w (List.mem_cons_of_mem v hw)

theorem depth_getElement_lt {value w : MmsValue} {i : Int} (h : value.getElement i = some w) :
    w.depth < value.depth := by
  cases value with
  | array vs =>
    rw [getElement] at h
    split at h
    · cases h
    · exact Nat.lt_succ_of_le (depth_le_depths (List.mem_of_getElem? h))
  | structured vs =>
    rw [getElement] at h
    split at h
    · cases h
    · exact Nat.lt_succ_of_le (depth_le_depths (List.mem_of_getElem? h))
  | _ => cases h

end MmsValue

namespace MmsVariableSpecification

variable {v : MmsVariableSpecification} {value w : MmsValue}

theorem depth_selectPart_component {name : List UInt8} {part : MmsVariableSpecification × MmsValue}
    (h : v.selectPart value (.component name) = some part) : part.2.depth < value.depth := by
  cases v with
  | structured structName elements =>
    simp only [selectPart, Option.bind_eq_bind, Option.bind_eq_some_iff, Option.pure_def,
      Option.some.injEq] at h
    obtain ⟨i, -, e, -, u, hu, rfl⟩ := h
    exact MmsValue.depth_getElement_lt hu
  | array => cases h
  | leaf => cases h

theorem depth_selectPart_index {index : UInt32} {part : MmsVariableSpecification × MmsValue}
    (h : v.selectPart value (.index index) = some part) : part.2.depth < value.depth := by
  cases v with
  | array name elementCount e =>
    simp only [selectPart, Option.bind_eq_bind, Option.bind_eq_some_iff, Option.pure_def,
      Option.some.injEq] at h
    obtain ⟨u, hu, rfl⟩ := h
    exact MmsValue.depth_getElement_lt hu
  | structured => cases h
  | leaf => cases h

/-- The elements of a range are not nested deeper than all the elements. -/
theorem depth_selectPart_le {selection : AccessSelection}
    {part : MmsVariableSpecification × MmsValue} (h : v.selectPart value selection = some part) :
    part.2.depth ≤ value.depth := by
  cases selection with
  | component name => exact le_of_lt (depth_selectPart_component h)
  | index index => exact le_of_lt (depth_selectPart_index h)
  | allElements => cases v <;> cases h
  | indexRange lowIndex numberOfElements =>
    cases v with
    | structured => cases h
    | leaf => cases h
    | array name elementCount e =>
      rw [selectPart] at h
      split at h
      · cases h
      · simp only [Option.bind_eq_bind, Option.bind_eq_some_iff, Option.pure_def,
          Option.some.injEq] at h
        obtain ⟨ws, hws, rfl⟩ := h
        have hdepth : ∀ u ∈ ws, u.depth < value.depth := by
          intro u hu
          obtain ⟨k, -, hk⟩ := exists_of_mem_right (forall₂_of_mapM hws) hu
          exact MmsValue.depth_getElement_lt hk
        have hpos : 0 < value.depth := by
          cases ws with
          | nil =>
            have hlen := (forall₂_of_mapM hws).length_eq
            rw [List.length_range] at hlen
            exact absurd (UInt32.toNat_inj.mp hlen) ‹_›
          | cons u us => exact Nat.zero_lt_of_lt (hdepth u List.mem_cons_self)
        have hle : MmsValue.depths ws ≤ value.depth - 1 :=
          MmsValue.depths_le fun u hu => Nat.le_sub_one_of_lt (hdepth u hu)
        exact Nat.add_le_of_le_sub hpos hle

theorem depth_select_le {alternateAccess : AlternateAccess}
    (h : v.select value alternateAccess = some w) : w.depth ≤ value.depth := by
  induction alternateAccess generalizing v value with
  | empty => cases h
  | named => cases h
  | selectAccess selection =>
    obtain ⟨part, hpart, rfl⟩ := Option.map_eq_some_iff.mp h
    exact depth_selectPart_le hpart
  | selectAlternateAccess selection alternateAccess ih =>
    cases selection with
    | indexRange => cases h
    | component name =>
      obtain ⟨part, hpart, h⟩ := Option.bind_eq_some_iff.mp h
      exact (ih h).trans (depth_selectPart_le hpart)
    | index index =>
      obtain ⟨part, hpart, h⟩ := Option.bind_eq_some_iff.mp h
      exact (ih h).trans (depth_selectPart_le hpart)
    | allElements =>
      obtain ⟨part, hpart, h⟩ := Option.bind_eq_some_iff.mp h
      exact (ih h).trans (depth_selectPart_le hpart)

/-- Only a range of elements may be all that there is. -/
theorem select_ne_self {alternateAccess : AlternateAccess}
    (hrange : v.isArray = false ∨ ∀ lowIndex numberOfElements,
      alternateAccess ≠ .selectAccess (.indexRange lowIndex numberOfElements)) :
    v.select value alternateAccess ≠ some value := by
  intro h
  cases alternateAccess with
  | empty => cases h
  | named => cases h
  | selectAccess selection =>
    obtain ⟨part, hpart, hvalue⟩ := Option.map_eq_some_iff.mp h
    cases selection with
    | component name => exact (depth_selectPart_component hpart).ne (congrArg _ hvalue)
    | index index => exact (depth_selectPart_index hpart).ne (congrArg _ hvalue)
    | allElements => cases v <;> cases hpart
    | indexRange lowIndex numberOfElements =>
      rcases hrange with hrange | hrange
      · cases v with
        | array => cases hrange
        | structured => cases hpart
        | leaf => cases hpart
      · exact hrange lowIndex numberOfElements rfl
  | selectAlternateAccess selection alternateAccess =>
    cases selection with
    | indexRange => cases h
    | component name =>
      obtain ⟨part, hpart, h⟩ := Option.bind_eq_some_iff.mp h
      exact ((depth_select_le h).trans_lt (depth_selectPart_component hpart)).ne rfl
    | index index =>
      obtain ⟨part, hpart, h⟩ := Option.bind_eq_some_iff.mp h
      exact ((depth_select_le h).trans_lt (depth_selectPart_index hpart)).ne rfl
    | allElements =>
      obtain ⟨part, hpart, h⟩ := Option.bind_eq_some_iff.mp h
      cases v <;> cases hpart

theorem selected_eq_self_iff {part : Option AlternateAccess}
    (hrange : v.isArray = false ∨ ∀ lowIndex numberOfElements,
      part ≠ some (.selectAccess (.indexRange lowIndex numberOfElements))) :
    v.selected value part = some value ↔ part = none := by
  constructor
  · intro h
    cases part with
    | none => rfl
    | some alternateAccess =>
      apply absurd h
      apply select_ne_self
      apply hrange.imp_right
      intro hrange lowIndex numberOfElements heq
      exact hrange lowIndex numberOfElements (congrArg some heq)
  · rintro rfl
    rfl

end MmsVariableSpecification

/-! ## The contribution of one variable -/

/-- One result is added, and it is the expected one. -/
def AnswersOne (value : Exec (Option MmsValue)) (added : Exec (List ReadValue)) : Prop :=
  ∃ rv, added = .ok [rv] ∧ rv.result = .ok (.expected value)

namespace ReadResult

variable {value : Exec (Option MmsValue)} {rv : ReadValue} {r : ReadResult}

theorem right_expected (value : Exec (Option MmsValue)) : (expected value).Right value := by
  cases value with
  | error => exact fun v hv => by cases hv
  | ok found =>
    cases found with
    | none => exact fun v hv => by cases hv
    | some v => rfl

theorem expected_of_none (h : ∀ v, value ≠ .ok (some v)) :
    expected value = .failure .objectNoneExistent := by
  cases value with
  | error => rfl
  | ok found =>
    cases found with
    | none => rfl
    | some v => exact absurd rfl (h v)

theorem expected_eq_success_iff {v : MmsValue} :
    expected value = .success v ↔ value = .ok (some v) := by
  constructor
  · intro h
    cases value with
    | error => cases h
    | ok found =>
      cases found with
      | none => cases h
      | some w =>
        cases h
        rfl
  · rintro rfl
    rfl

end ReadResult

namespace ReadValue

variable {rv : ReadValue} {w : MmsValue}

theorem result_of_complete (hne : rv ≠ .error) :
    rv.result = rv.complete.map ReadResult.success := by
  cases rv with
  | error => exact absurd rfl hne
  | null => rfl
  | value => rfl
  | structured => rfl
  | array => rfl

/-- The service makes one kind of error only. -/
theorem eq_expected {r : ReadResult} {value : Exec (Option MmsValue)} (h : rv.result = .ok r)
    (hright : r.Right value) : r = .expected value := by
  cases r with
  | success v => exact (ReadResult.expected_eq_success_iff.mpr hright).symm
  | failure e =>
    rw [ReadResult.expected_of_none hright]
    cases rv with
    | error =>
      cases h
      rfl
    | null => cases h
    | value => cases h
    | structured components =>
      obtain ⟨v, -, h⟩ := bind_ok h
      cases h
    | array elements =>
      obtain ⟨v, -, h⟩ := bind_ok h
      cases h

end ReadValue

section Variable

variable {getValue : List UInt8 → Exec (Option MmsValue)} {itemId : List UInt8}

theorem complete_ofOption_iff {found : Option MmsValue} {w : MmsValue} :
    (ReadValue.ofOption found).complete = .ok w ↔ found = some w := by
  cases found with
  | none =>
    constructor
    · intro h
      cases h
    · intro h
      cases h
  | some v =>
    constructor
    · intro h
      cases h
      rfl
    · intro h
      cases h
      rfl

/-- The slots of a structure are filled exactly if all its components have values. -/
theorem completeSlots_addElementValues_iff {es : List MmsVariableSpecification}
    (ih : ∀ e ∈ es, ∀ itemId w, (addNamedVariableValue getValue e itemId >>= ReadValue.complete) =
      .ok w ↔ valueOf getValue e itemId = .ok (some w))
    (ws : List MmsValue) : (addElementValues getValue es itemId >>= ReadValue.completeSlots) =
      .ok ws ↔ valuesOf getValue es itemId = .ok (some ws) := by
  induction es generalizing ws with
  | nil =>
    constructor
    · intro h
      cases h
      rfl
    · intro h
      cases h
      rfl
  | cons e es ihes =>
    have ihe := fun w => ih e List.mem_cons_self (itemId ++ separator :: e.name) w
    have ihes := ihes fun e' he' => ih e' (List.mem_cons_of_mem e he')
    constructor
    · intro h
      obtain ⟨rvs, hadd, h⟩ := bind_ok h
      obtain ⟨rv, hrv, hadd⟩ := bind_ok hadd
      obtain ⟨rvs', hrvs, hadd⟩ := bind_ok hadd
      cases hadd
      obtain ⟨w, hw, h⟩ := bind_ok h
      obtain ⟨ws', hws, h⟩ := bind_ok h
      cases h
      have hvalue := (ihe w).mp (by rw [hrv]; exact hw)
      have hvalues := (ihes ws').mp (by rw [hrvs]; exact hws)
      rw [valuesOf, hvalue, ok_bind, hvalues, ok_bind]
      rfl
    · intro h
      rw [valuesOf] at h
      obtain ⟨found, hvalue, h⟩ := bind_ok h
      obtain ⟨founds, hvalues, h⟩ := bind_ok h
      cases found with
      | none => cases h
      | some w =>
        cases founds with
        | none => cases h
        | some ws' =>
          cases h
          obtain ⟨rv, hrv, hw⟩ := bind_ok ((ihe w).mpr hvalue)
          obtain ⟨rvs, hrvs, hws⟩ := bind_ok ((ihes ws').mpr hvalues)
          rw [addElementValues, hrv, ok_bind, hrvs, ok_bind]
          show ReadValue.completeSlots (rv :: rvs) = _
          rw [ReadValue.completeSlots, hw, ok_bind, hws, ok_bind]
          rfl

/-- What is collected for a variable is complete exactly if it has a value. -/
theorem complete_addNamedVariableValue_iff (v : MmsVariableSpecification) (w : MmsValue) :
    (addNamedVariableValue getValue v itemId >>= ReadValue.complete) = .ok w ↔
      valueOf getValue v itemId = .ok (some w) := by
  induction v using specification_induction generalizing itemId w with
  | array name elementCount e =>
    rw [addNamedVariableValue, valueOf]
    cases getValue itemId with
    | error =>
      constructor
      · intro h
        cases h
      · intro h
        cases h
    | ok found =>
      apply complete_ofOption_iff.trans
      exact ⟨congrArg Except.ok, Except.ok.inj⟩
  | leaf name size =>
    rw [addNamedVariableValue, valueOf]
    cases getValue itemId with
    | error =>
      constructor
      · intro h
        cases h
      · intro h
        cases h
    | ok found =>
      apply complete_ofOption_iff.trans
      exact ⟨congrArg Except.ok, Except.ok.inj⟩
  | structured name elements ih =>
    have hslots : ∀ ws, (addElementValues getValue elements itemId >>= ReadValue.completeSlots) =
        .ok ws ↔ valuesOf getValue elements itemId = .ok (some ws) :=
      completeSlots_addElementValues_iff fun e he itemId w => ih e he w
    rw [addNamedVariableValue, valueOf]
    cases getValue itemId with
    | error =>
      constructor
      · intro h
        cases h
      · intro h
        cases h
    | ok found =>
      cases found with
      | some value =>
        constructor
        · intro h
          cases h
          rfl
        · intro h
          cases h
          rfl
      | none =>
        rw [ok_bind, ok_bind]
        dsimp only
        constructor
        · intro h
          obtain ⟨rv, hrv, h⟩ := bind_ok h
          obtain ⟨rvs, hrvs, hrv⟩ := bind_ok hrv
          cases hrv
          obtain ⟨ws, hws, h⟩ := bind_ok h
          cases h
          have hvalues := (hslots ws).mp (by rw [hrvs]; exact hws)
          rw [hvalues]
          rfl
        · intro h
          obtain ⟨values, hvalues, h⟩ := bind_ok h
          cases values with
          | none => cases h
          | some ws =>
            cases h
            obtain ⟨rvs, hrvs, hws⟩ := bind_ok ((hslots ws).mpr hvalues)
            rw [hrvs, ok_bind]
            show ReadValue.complete (.structured rvs) = _
            rw [ReadValue.complete, hws]
            rfl

theorem addNamedVariableValue_ne_error {v : MmsVariableSpecification} {rv : ReadValue}
    (h : addNamedVariableValue getValue v itemId = .ok rv) : rv ≠ .error := by
  cases v with
  | structured name elements =>
    rw [addNamedVariableValue] at h
    obtain ⟨found, -, h⟩ := bind_ok h
    cases found with
    | some value =>
      cases h
      intro h
      cases h
    | none =>
      obtain ⟨rvs, -, h⟩ := bind_ok h
      cases h
      intro h
      cases h
  | array name elementCount e =>
    rw [addNamedVariableValue] at h
    obtain ⟨found, -, h⟩ := bind_ok h
    cases h
    cases found <;> intro h <;> cases h
  | leaf name size =>
    rw [addNamedVariableValue] at h
    obtain ⟨found, -, h⟩ := bind_ok h
    cases h
    cases found <;> intro h <;> cases h

end Variable

section Whole

variable {getValue : List UInt8 → Exec (Option MmsValue)} {itemId : List UInt8}
  {path : Exec (Option MmsValue)}

theorem append_of_ne_null {rv : ReadValue} (h : rv ≠ .null) :
    appendValueToResultList rv = [rv] := by
  cases rv with
  | null => exact absurd rfl h
  | error => rfl
  | value => rfl
  | structured => rfl
  | array => rfl

/-- A value that is appended is the expected one if it is complete. -/
theorem answersOne_append_iff (added : Exec ReadValue) (hne : added ≠ .ok .error) :
    AnswersOne path (do return appendValueToResultList (← added)) ↔
      ∃ w, (added >>= ReadValue.complete) = .ok w ∧ path = .ok (some w) := by
  constructor
  · rintro ⟨rv, hadd, hresult⟩
    obtain ⟨rv', rfl, hadd⟩ := bind_ok hadd
    have hrv : rv' = rv := by
      cases rv' with
      | null => cases hadd
      | error => exact (List.cons.inj (Except.ok.inj hadd)).1
      | value => exact (List.cons.inj (Except.ok.inj hadd)).1
      | structured => exact (List.cons.inj (Except.ok.inj hadd)).1
      | array => exact (List.cons.inj (Except.ok.inj hadd)).1
    subst hrv
    rw [ReadValue.result_of_complete fun h => hne (congrArg Except.ok h)] at hresult
    cases hcomplete : rv'.complete with
    | error =>
      rw [hcomplete] at hresult
      cases hresult
    | ok w =>
      rw [hcomplete] at hresult
      exact ⟨w, hcomplete, ReadResult.expected_eq_success_iff.mp (Except.ok.inj hresult).symm⟩
  · rintro ⟨w, hcomplete, rfl⟩
    obtain ⟨rv, rfl, hrv⟩ := bind_ok hcomplete
    have hnull : rv ≠ .null := by
      rintro rfl
      cases hrv
    refine ⟨rv, congrArg Except.ok (append_of_ne_null hnull), ?_⟩
    rw [ReadValue.result_of_complete fun h => hne (congrArg Except.ok h), hrv]
    rfl

theorem answersOne_error_iff :
    AnswersOne path (.ok appendErrorToResultList) ↔ ∀ v, path ≠ .ok (some v) := by
  constructor
  · rintro ⟨rv, hadd, hresult⟩ v rfl
    cases hadd
    cases hresult
  · intro h
    refine ⟨.error, rfl, ?_⟩
    rw [ReadResult.expected_of_none h]
    rfl

theorem answersOne_value_iff {w : MmsValue} :
    AnswersOne path (.ok (appendValueToResultList (.value w))) ↔ path = .ok (some w) := by
  apply (answersOne_append_iff (.ok (.value w)) (by intro h; cases h)).trans
  constructor
  · rintro ⟨w', hw, hpath⟩
    cases hw
    exact hpath
  · intro hpath
    exact ⟨w, rfl, hpath⟩

theorem not_answersOne_error {e : Fault} : ¬ AnswersOne path (.error e) := by
  rintro ⟨rv, h, -⟩
  cases h

/-- What is added for a structure, stored as a whole or not. -/
theorem addNamedVariableToResultList_structured (name : List UInt8)
    (elements : List MmsVariableSpecification) (alternateAccess : Option AlternateAccess) :
    addNamedVariableToResultList getValue itemId alternateAccess
        (some (.structured name elements)) =
      do
        let value ← addNamedVariableValue getValue (.structured name elements) itemId
        return appendValueToResultList value := by
  rw [addNamedVariableToResultList, addNamedVariableValue]
  cases getValue itemId with
  | error => rfl
  | ok found =>
    cases found with
    | none => rfl
    | some value => rfl

/-- A value that is complete is the one that is addressed if no part of it is. -/
theorem answersOne_added_iff {v : MmsVariableSpecification} {part : Option AlternateAccess}
    (hrange : v.isArray = false ∨ ∀ lowIndex numberOfElements,
      part ≠ some (.selectAccess (.indexRange lowIndex numberOfElements))) :
    AnswersOne (do return (← valueOf getValue v itemId).bind fun value => v.selected value part)
        (do return appendValueToResultList (← addNamedVariableValue getValue v itemId)) ↔
      part = none ∧ ∃ w, valueOf getValue v itemId = .ok (some w) := by
  apply (answersOne_append_iff _ fun h => addNamedVariableValue_ne_error h rfl).trans
  constructor
  · rintro ⟨w, hcomplete, hpath⟩
    have hvalue := (complete_addNamedVariableValue_iff v w).mp hcomplete
    rw [hvalue] at hpath
    exact ⟨(selected_eq_self_iff hrange).mp (Except.ok.inj hpath), w, hvalue⟩
  · rintro ⟨rfl, w, hvalue⟩
    refine ⟨w, (complete_addNamedVariableValue_iff v w).mpr hvalue, ?_⟩
    rw [hvalue]
    rfl

theorem WholeReadable.iff_of_components {v : MmsVariableSpecification}
    {part : Option AlternateAccess} (h : ∀ name size, v ≠ .leaf name size) :
    WholeReadable getValue itemId v part ↔
      part = none ∧ ∃ w, valueOf getValue v itemId = .ok (some w) := by
  constructor
  · intro hread
    cases hread with
    | value hvalue => exact ⟨rfl, _, hvalue⟩
    | noValue hvalue => exact absurd rfl (h _ _)
  · rintro ⟨rfl, w, hvalue⟩
    exact .value hvalue

theorem answersOne_whole_iff {v : MmsVariableSpecification}
    {part alternateAccess : Option AlternateAccess}
    (hrange : v.isArray = false ∨ ∀ lowIndex numberOfElements,
      part ≠ some (.selectAccess (.indexRange lowIndex numberOfElements)))
    (harray : v.isArray = false ∨ alternateAccess = none) :
    AnswersOne (do return (← valueOf getValue v itemId).bind fun value => v.selected value part)
        (addNamedVariableToResultList getValue itemId alternateAccess (some v)) ↔
      WholeReadable getValue itemId v part := by
  cases v with
  | structured name elements =>
    have hcomponents : WholeReadable getValue itemId (.structured name elements) part ↔ _ :=
      WholeReadable.iff_of_components fun name size h => by cases h
    rw [addNamedVariableToResultList_structured, answersOne_added_iff hrange, hcomponents]
  | array name elementCount e =>
    have hnone := harray.resolve_left Bool.noConfusion
    subst hnone
    have hcomponents : WholeReadable getValue itemId (.array name elementCount e) part ↔ _ :=
      WholeReadable.iff_of_components fun name size h => by cases h
    rw [hcomponents, ← answersOne_added_iff hrange, addNamedVariableToResultList,
      addNamedVariableValue]
    cases getValue itemId with
    | error => rfl
    | ok found => rfl
  | leaf name size =>
    rw [addNamedVariableToResultList, valueOf]
    cases hvalue : getValue itemId with
    | error e =>
      apply iff_of_false not_answersOne_error
      intro h
      cases h with
      | value h => cases hvalue.symm.trans h
      | noValue h => cases hvalue.symm.trans h
    | ok found =>
      cases found with
      | none =>
        apply iff_of_true
        · apply answersOne_error_iff.mpr
          intro v hv
          cases hv
        · exact .noValue hvalue
      | some w =>
        apply answersOne_value_iff.trans
        constructor
        · intro hpath
          have hnone := (selected_eq_self_iff hrange).mp (Except.ok.inj hpath)
          subst hnone
          exact .value hvalue
        · intro h
          cases h with
          | value h =>
            cases hvalue.symm.trans h
            rfl
          | noValue h => cases hvalue.symm.trans h

end Whole

/-! ## Parts of arrays -/

theorem MmsValue.getElement_nonneg {value w : MmsValue} {i : Int}
    (h : value.getElement i = some w) : 0 ≤ i := by
  by_contra hneg
  have hlt := Int.not_le.mp hneg
  cases value with
  | array vs =>
    rw [getElement, if_pos hlt] at h
    cases h
  | structured vs =>
    rw [getElement, if_pos hlt] at h
    cases h
  | _ => cases h

/-- An index that is not negative has not been wrapped around. -/
theorem i32_toNat_of_nonneg {x : UInt32} (h : 0 ≤ i32 x.toNat) : i32 x.toNat = x.toNat := by
  have hlt := x.toNat_lt
  rw [i32, Int.bmod_def] at h ⊢
  split_ifs at h ⊢ <;> omega

theorem i32_toNat_ne_zero {x : UInt32} (h : x ≠ 0) : i32 x.toNat ≠ 0 := by
  have hlt := x.toNat_lt
  have hne : x.toNat ≠ 0 := fun h0 => h (UInt32.toNat_inj.mp h0)
  rw [i32, Int.bmod_def]
  split_ifs <;> omega

/-- The loop finds the first component that matches, if it comes so far. -/
theorem findComponent_eq_iff {component : List UInt8} {n i m : Nat}
    {elements : List MmsVariableSpecification} :
    findComponent component n elements i = .ok (some m) ↔
      ∃ j, m = i + j ∧ j < n ∧ elements.findIdx? (strncmpEqual ·.name component) = some j := by
  induction n generalizing elements i with
  | zero =>
    constructor
    · intro h
      cases h
    · rintro ⟨j, -, hj, -⟩
      exact absurd hj (Nat.not_lt_zero j)
  | succ n ih =>
    cases elements with
    | nil =>
      constructor
      · intro h
        cases h
      · rintro ⟨j, -, -, h⟩
        cases h
    | cons e es =>
      rw [findComponent, List.findIdx?_cons]
      cases hmatch : strncmpEqual e.name component with
      | true =>
        constructor
        · intro h
          cases h
          exact ⟨0, rfl, Nat.succ_pos n, rfl⟩
        · rintro ⟨j, rfl, -, h⟩
          cases h
          rfl
      | false =>
        apply ih.trans
        constructor
        · rintro ⟨j, rfl, hj, h⟩
          refine ⟨j + 1, by omega, Nat.succ_lt_succ hj, ?_⟩
          rw [h]
          rfl
        · rintro ⟨j, rfl, hj, h⟩
          obtain ⟨j', h', rfl⟩ := Option.map_eq_some_iff.mp h
          exact ⟨j', by omega, Nat.lt_of_succ_lt_succ hj, h'⟩

section Slots

theorem completeSlots_values (ws : List MmsValue) :
    ReadValue.completeSlots (ws.map ReadValue.value) = .ok ws := by
  induction ws with
  | nil => rfl
  | cons w ws ih =>
    rw [List.map_cons, ReadValue.completeSlots, ih]
    rfl

theorem completeSlots_ok {rvs : List ReadValue} {ws : List MmsValue}
    (h : ReadValue.completeSlots rvs = .ok ws) : ws.length = rvs.length ∧ .null ∉ rvs := by
  induction rvs generalizing ws with
  | nil =>
    cases h
    exact ⟨rfl, List.not_mem_nil⟩
  | cons rv rvs ih =>
    obtain ⟨w, hw, h⟩ := bind_ok h
    obtain ⟨ws', hws, h⟩ := bind_ok h
    cases h
    refine ⟨congrArg (· + 1) (ih hws).1, ?_⟩
    intro hmem
    cases hmem with
    | head => cases hw
    | tail _ hmem => exact (ih hws).2 hmem

theorem MmsValue.clone_eq_ok_iff {v w : MmsValue} :
    v.clone = .ok w ↔ v = w ∧ v.leaves.any MmsValue.isNullString = false := by
  rw [clone]
  split
  case isTrue h =>
    constructor
    · intro hok
      cases hok
    · rintro ⟨-, hnone⟩
      exact absurd (h.symm.trans hnone) Bool.true_eq_false.mp
  case isFalse h =>
    constructor
    · intro hok
      exact ⟨Except.ok.inj hok, Bool.eq_false_iff.mpr h⟩
    · rintro ⟨rfl, -⟩
      rfl

/-- The loop over a range gives the elements of the range, where all can be copied. -/
theorem cloneElements_eq_ok_iff {arrayValue : MmsValue} {low n : Nat} {ws : List MmsValue} :
    cloneElements arrayValue low n = .ok ws ↔
      ((List.range n).mapM fun k : Nat => arrayValue.getElement ↑(low + k)) = some ws ∧
        ∀ w ∈ ws, w.leaves.any MmsValue.isNullString = false := by
  induction n generalizing low ws with
  | zero =>
    constructor
    · intro h
      cases h
      exact ⟨rfl, fun w hw => absurd hw List.not_mem_nil⟩
    · rintro ⟨h, -⟩
      cases h
      rfl
  | succ n ih =>
    have hshift : (fun k : Nat => arrayValue.getElement ↑(low + (k + 1))) =
        fun k : Nat => arrayValue.getElement ↑(low + 1 + k) := by
      funext k
      rw [Nat.add_comm k 1, Nat.add_assoc]
    rw [cloneElements, List.range_succ_eq_map, List.mapM_cons, List.mapM_map]
    show _ ↔ (Option.bind (arrayValue.getElement ↑low) fun b => Option.bind
      ((List.range n).mapM fun k : Nat => arrayValue.getElement ↑(low + (k + 1))) fun bs =>
        some (b :: bs)) = some ws ∧ _
    rw [hshift]
    cases helement : arrayValue.getElement ↑low with
    | none =>
      constructor
      · intro h
        cases h
      · rintro ⟨h, -⟩
        cases h
    | some v =>
      dsimp only
      rw [Option.bind_some]
      constructor
      · intro h
        obtain ⟨w, hw, h⟩ := bind_ok h
        obtain ⟨ws', hws, h⟩ := bind_ok h
        cases h
        obtain ⟨rfl, hnull⟩ := MmsValue.clone_eq_ok_iff.mp hw
        obtain ⟨hrest, hnulls⟩ := ih.mp hws
        rw [hrest]
        refine ⟨rfl, ?_⟩
        intro u hu
        cases hu with
        | head => exact hnull
        | tail _ hu => exact hnulls u hu
      · rintro ⟨h, hnulls⟩
        obtain ⟨ws', hws, h⟩ := Option.bind_eq_some_iff.mp h
        cases h
        have hv := MmsValue.clone_eq_ok_iff.mpr ⟨rfl, hnulls v List.mem_cons_self⟩
        have hrest := ih.mpr ⟨hws, fun u hu => hnulls u (List.mem_cons_of_mem v hu)⟩
        rw [hv, ok_bind]
        show (cloneElements arrayValue ↑(low + 1) n >>= _) = _
        rw [hrest]
        rfl

end Slots

section Range

variable {arrayValue w : MmsValue} {lowIndex numberOfElements : UInt32}

theorem cloneElements_ok {index : Int} {n : Nat} {ws : List MmsValue}
    (h : cloneElements arrayValue index n = .ok ws) : ws.length = n ∧ (0 < n → 0 ≤ index) := by
  induction n generalizing index ws with
  | zero =>
    cases h
    exact ⟨rfl, fun hpos => absurd hpos (Nat.lt_irrefl 0)⟩
  | succ n ih =>
    rw [cloneElements] at h
    cases helement : arrayValue.getElement index with
    | none =>
      rw [helement] at h
      cases h
    | some v =>
      rw [helement] at h
      obtain ⟨w, -, h⟩ := bind_ok h
      obtain ⟨ws', hws, h⟩ := bind_ok h
      cases h
      exact ⟨congrArg (· + 1) (ih hws).1, fun _ => MmsValue.getElement_nonneg helement⟩

/-- The slots are all filled exactly if there are as many elements as slots. -/
theorem complete_slots_iff {es ws : List MmsValue} {n : Nat} (hn : es.length ≤ n) :
    ReadValue.completeSlots ((es.map ReadValue.value ++
      List.replicate (n - es.length) ReadValue.null).take n) = .ok ws ↔
        es.length = n ∧ es = ws := by
  have htake : (es.map ReadValue.value ++ List.replicate (n - es.length) ReadValue.null).take n =
      es.map ReadValue.value ++ List.replicate (n - es.length) .null := by
    apply List.take_of_length_le
    rw [List.length_append, List.length_map, List.length_replicate, Nat.add_sub_cancel' hn]
  rw [htake]
  constructor
  · intro h
    have hlen : es.length = n := by
      by_contra hne
      apply (completeSlots_ok h).2
      apply List.mem_append_right
      exact List.mem_replicate.mpr ⟨by omega, rfl⟩
    rw [hlen, Nat.sub_self, List.replicate_zero, List.append_nil, completeSlots_values] at h
    exact ⟨hlen, Except.ok.inj h⟩
  · rintro ⟨hlen, rfl⟩
    rw [hlen, Nat.sub_self, List.replicate_zero, List.append_nil, completeSlots_values]

/-- How many turns the loop over a range takes, if its first index is not negative. -/
theorem rangeTurns {low n : Int} (hlow : 0 ≤ low) (hlow' : low < 4294967296) (hn : 0 ≤ n)
    (hn' : n < 4294967296) {turns : Nat} (hturns : turns = (i32 (i32 low + i32 n) - i32 low).toNat)
    (hfirst : 0 < turns → 0 ≤ i32 low) :
    turns ≤ (i32 n).toNat ∧
      (0 < turns → low + n < 2147483648 ∧ i32 low = low ∧ i32 n = n) := by
  simp only [i32, Int.bmod_def] at hturns hfirst ⊢
  split_ifs at hturns hfirst ⊢ <;> omega

theorem select_range {name : List UInt8} {elementCount : Int} {e : MmsVariableSpecification}
    (hn : numberOfElements ≠ 0) :
    (array name elementCount e).select arrayValue
        (.selectAccess (.indexRange lowIndex numberOfElements)) = some w ↔
      ∃ ws, ((List.range numberOfElements.toNat).mapM fun k : Nat =>
        arrayValue.getElement ↑(lowIndex.toNat + k)) = some ws ∧ w = .array ws := by
  rw [select, selectPart, if_neg hn]
  constructor
  · intro h
    obtain ⟨part, hpart, rfl⟩ := Option.map_eq_some_iff.mp h
    obtain ⟨ws, hws, hpart⟩ := Option.bind_eq_some_iff.mp hpart
    cases hpart
    exact ⟨ws, hws, rfl⟩
  · rintro ⟨ws, hws, rfl⟩
    rw [hws]
    rfl

theorem range_answers_iff {name : List UInt8} {elementCount : Int} {e : MmsVariableSpecification}
    (hn : numberOfElements ≠ 0) :
    (∃ w, (rangeValue arrayValue (i32 lowIndex.toNat) (i32 numberOfElements.toNat) >>=
          ReadValue.complete) = .ok w ∧
        (array name elementCount e).select arrayValue
          (.selectAccess (.indexRange lowIndex numberOfElements)) = some w) ↔
      lowIndex.toNat + numberOfElements.toNat < 2147483648 ∧
        ∀ k < numberOfElements.toNat, ∃ w, arrayValue.getElement ↑(lowIndex.toNat + k) = some w ∧
          w.leaves.any MmsValue.isNullString = false := by
  have hpos : 0 < numberOfElements.toNat :=
    Nat.pos_of_ne_zero fun h0 => hn (UInt32.toNat_inj.mp h0)
  have hlow := lowIndex.toNat_lt
  have hnum := numberOfElements.toNat_lt
  constructor
  · rintro ⟨w, hw, hselect⟩
    obtain ⟨ws, hws, rfl⟩ := (select_range hn).mp hselect
    obtain ⟨rv, hrv, hw⟩ := bind_ok hw
    obtain ⟨es, hes, hrv⟩ := bind_ok hrv
    obtain rfl := Except.ok.inj hrv
    rw [ReadValue.complete] at hw
    obtain ⟨ws', hslots, hw⟩ := bind_ok hw
    obtain rfl := MmsValue.array.inj (Except.ok.inj hw)
    obtain ⟨hlen, hfirst⟩ := cloneElements_ok hes
    obtain ⟨hle, hturns⟩ := rangeTurns (by omega) (by omega) (by omega) (by omega) rfl hfirst
    rw [← hlen] at hle hturns
    obtain ⟨hfull, rfl⟩ := (complete_slots_iff hle).mp hslots
    have hsize := (forall₂_of_mapM hws).length_eq
    rw [List.length_range] at hsize
    obtain ⟨hbound, hlow', hn'⟩ := hturns (by omega)
    refine ⟨by omega, ?_⟩
    rw [hlow', hn', i32_of_range (by omega) (by omega)] at hes
    have hcount : (↑lowIndex.toNat + ↑numberOfElements.toNat - (↑lowIndex.toNat : Int)).toNat =
        numberOfElements.toNat := by omega
    rw [hcount] at hes
    have hnull := (cloneElements_eq_ok_iff.mp hes).2
    intro k hk
    obtain ⟨w, hw, hk⟩ := exists_of_mem_left (forall₂_of_mapM hws) (List.mem_range.mpr hk)
    exact ⟨w, hk, hnull w hw⟩
  · rintro ⟨hbound, helements⟩
    have himages : ∀ k ∈ List.range numberOfElements.toNat, ∃ w,
        arrayValue.getElement ↑(lowIndex.toNat + k) = some w ∧
          w.leaves.any MmsValue.isNullString = false :=
      fun k hk => helements k (List.mem_range.mp hk)
    obtain ⟨ws, hws⟩ := exists_forall₂ himages
    have hmap := mapM_of_forall₂ (hws.imp fun k w h => h.1)
    refine ⟨.array ws, ?_, (select_range hn).mpr ⟨ws, hmap, rfl⟩⟩
    have hclone : cloneElements arrayValue lowIndex.toNat numberOfElements.toNat = .ok ws := by
      apply cloneElements_eq_ok_iff.mpr
      refine ⟨hmap, ?_⟩
      intro w hw
      obtain ⟨k, -, h⟩ := exists_of_mem_right hws hw
      exact h.2
    have hlen := (cloneElements_ok hclone).1
    have hlow' : i32 ↑lowIndex.toNat = ↑lowIndex.toNat := i32_of_range (by omega) (by omega)
    have hn' : i32 ↑numberOfElements.toNat = ↑numberOfElements.toNat :=
      i32_of_range (by omega) (by omega)
    have hcount : (↑lowIndex.toNat + ↑numberOfElements.toNat - (↑lowIndex.toNat : Int)).toNat =
        numberOfElements.toNat := by omega
    rw [rangeValue, hlow', hn', i32_of_range (by omega) (by omega), hcount, hclone]
    show (ReadValue.complete (.array _)) = _
    rw [ReadValue.complete, Int.toNat_natCast, (complete_slots_iff hlen.le).mpr ⟨hlen, rfl⟩]
    rfl

end Range

section Element

variable {arrayValue : MmsValue} {index : UInt32} {name : List UInt8} {elementCount : Int}
  {e : MmsVariableSpecification}

theorem select_index {w : MmsValue} :
    (array name elementCount e).select arrayValue (.selectAccess (.index index)) = some w ↔
      arrayValue.getElement index.toNat = some w := by
  rw [select, selectPart]
  cases arrayValue.getElement index.toNat with
  | none => rfl
  | some u => rfl

theorem element_answers_iff :
    (∃ w, (elementValue (.selectAccess (.index index)) elementCount e arrayValue
          (i32 index.toNat) >>= ReadValue.complete) = .ok w ∧
        (array name elementCount e).select arrayValue (.selectAccess (.index index)) = some w) ↔
      ∃ w, arrayValue.getElement (i32 index.toNat) = some w := by
  apply exists_congr
  intro w
  constructor
  · rintro ⟨hw, -⟩
    exact complete_ofOption_iff.mp hw
  · intro hw
    refine ⟨complete_ofOption_iff.mpr hw, select_index.mpr ?_⟩
    rw [i32_toNat_of_nonneg (MmsValue.getElement_nonneg hw)] at hw
    exact hw

theorem getComponentOfArrayElement_eq_iff {inner : AlternateAccess} {structValue w : MmsValue}
    {elements : List MmsVariableSpecification} :
    getComponentOfArrayElement inner elementCount elements structValue = .ok (some w) ↔
      ∃ component j, inner.componentOctets = .ok component ∧ component.length ≤ 129 ∧
        elements.findIdx? (strncmpEqual ·.name component) = some j ∧ j < elementCount.toNat ∧
        structValue.getElement j = some w := by
  rw [getComponentOfArrayElement]
  constructor
  · intro h
    obtain ⟨component, hcomponent, h⟩ := bind_ok h
    by_cases hlong : 129 < component.length
    · rw [if_pos hlong] at h
      cases h
    · rw [if_neg hlong] at h
      obtain ⟨found, hfound, h⟩ := bind_ok h
      cases found with
      | none => cases h
      | some m =>
        obtain ⟨j, rfl, hj, hfind⟩ := findComponent_eq_iff.mp hfound
        rw [Nat.zero_add] at h
        exact ⟨component, j, hcomponent, Nat.le_of_not_lt hlong, hfind, hj, Except.ok.inj h⟩
  · rintro ⟨component, j, hcomponent, hlen, hfind, hj, hw⟩
    have hfound := findComponent_eq_iff.mpr ⟨j, (Nat.zero_add j).symm, hj, hfind⟩
    rw [hcomponent, ok_bind, if_neg (Nat.not_lt_of_le hlen)]
    show (findComponent component elementCount.toNat elements 0 >>= _) = _
    rw [hfound, ok_bind]
    exact congrArg Except.ok hw

theorem select_component {inner : AlternateAccess} {w : MmsValue} :
    (array name elementCount e).select arrayValue (.selectAlternateAccess (.index index) inner) =
        some w ↔
      ∃ structValue, arrayValue.getElement index.toNat = some structValue ∧
        e.select structValue inner = some w := by
  show (((array name elementCount e).selectPart arrayValue (.index index)).bind fun part =>
    part.1.select part.2 inner) = _ ↔ _
  rw [selectPart]
  cases arrayValue.getElement index.toNat with
  | none =>
    constructor
    · intro h
      cases h
    · rintro ⟨structValue, h, -⟩
      cases h
  | some u =>
    constructor
    · intro h
      exact ⟨u, rfl, h⟩
    · rintro ⟨structValue, hu, h⟩
      cases hu
      exact h

theorem component_answers_iff {inner : AlternateAccess} :
    (∃ w, (elementValue (.selectAlternateAccess (.index index) inner) elementCount e arrayValue
          (i32 index.toNat) >>= ReadValue.complete) = .ok w ∧
        (array name elementCount e).select arrayValue
          (.selectAlternateAccess (.index index) inner) = some w) ↔
      ∃ w structValue, e.isStructure = true ∧
        arrayValue.getElement (i32 index.toNat) = some structValue ∧
        getComponentOfArrayElement inner elementCount e.elements structValue = .ok (some w) ∧
        e.select structValue inner = some w := by
  apply exists_congr
  intro w
  rw [elementValue]
  dsimp only [AlternateAccess.inner]
  cases hstruct : e.isStructure with
  | false =>
    constructor
    · rintro ⟨h, -⟩
      cases h
    · rintro ⟨structValue, h, -⟩
      cases h
  | true =>
    cases helement : arrayValue.getElement (i32 index.toNat) with
    | none =>
      constructor
      · rintro ⟨h, -⟩
        cases h
      · rintro ⟨structValue, -, h, -⟩
        cases h
    | some u =>
      have hindex := i32_toNat_of_nonneg (MmsValue.getElement_nonneg helement)
      rw [hindex] at helement
      constructor
      · rintro ⟨hw, hselect⟩
        obtain ⟨structValue, hstructValue, hselect⟩ := select_component.mp hselect
        obtain rfl := Option.some.inj (helement.symm.trans hstructValue)
        obtain ⟨rv, hrv, hw⟩ := bind_ok hw
        obtain ⟨found, hfound, hrv⟩ := bind_ok hrv
        obtain rfl := Except.ok.inj hrv
        rw [complete_ofOption_iff.mp hw] at hfound
        exact ⟨u, rfl, rfl, hfound, hselect⟩
      · rintro ⟨structValue, -, hstructValue, hfound, hselect⟩
        obtain rfl := Option.some.inj hstructValue
        refine ⟨?_, select_component.mpr ⟨u, helement, hselect⟩⟩
        show ((getComponentOfArrayElement inner elementCount e.elements u >>= _) >>= _) = _
        rw [hfound]
        rfl

end Element

section Part

variable {getValue : List UInt8 → Exec (Option MmsValue)} {itemId name : List UInt8}
  {elementCount : Int} {e : MmsVariableSpecification} {a : AlternateAccess} {arrayValue : MmsValue}

/-- There is no index at the beginning of an access that the service does not support. -/
theorem select_of_notIndexed (h : a.isIndexAccess = .ok false) :
    (array name elementCount e).select arrayValue a = none := by
  cases a with
  | empty => rfl
  | named => rfl
  | selectAccess selection =>
    cases selection with
    | component => rfl
    | allElements => rfl
    | index => cases h
    | indexRange => cases h
  | selectAlternateAccess selection inner =>
    cases selection with
    | component => rfl
    | allElements => rfl
    | index => cases h
    | indexRange => cases h

theorem alternateArrayAccess_indexed {low n : Int} (hindex : a.isIndexAccess = .ok true)
    (hlow : a.getLowIndex = .ok low) (hn : a.getNumberOfElements = .ok n) :
    alternateArrayAccess getValue a itemId elementCount e =
      getValue itemId >>= fun found => found.elim (.ok appendErrorToResultList)
        fun arrayValue =>
          (if n = 0 then elementValue a elementCount e arrayValue low
            else rangeValue arrayValue low n) >>= fun value =>
          .ok (appendValueToResultList value) := by
  rw [alternateArrayAccess, hindex, ok_bind, hlow, hn]
  cases getValue itemId with
  | error => rfl
  | ok found =>
    cases found with
    | none => rfl
    | some value => rfl

theorem indexAccess_ok (hindex : a.isIndexAccess = .ok true) :
    ∃ low n, a.getLowIndex = .ok low ∧ a.getNumberOfElements = .ok n := by
  cases a with
  | empty => cases hindex
  | named => cases hindex
  | selectAccess selection =>
    cases selection with
    | component => cases hindex
    | allElements => cases hindex
    | index => exact ⟨_, _, rfl, rfl⟩
    | indexRange => exact ⟨_, _, rfl, rfl⟩
  | selectAlternateAccess selection inner =>
    cases selection with
    | component => cases hindex
    | allElements => cases hindex
    | index => exact ⟨_, _, rfl, rfl⟩
    | indexRange => exact ⟨_, _, rfl, rfl⟩

theorem elementValue_ne_error {low : Int} :
    elementValue a elementCount e arrayValue low ≠ .ok .error := by
  intro h
  rw [elementValue] at h
  cases hinner : a.inner with
  | none =>
    rw [hinner] at h
    cases helement : arrayValue.getElement low <;> rw [helement] at h <;> cases h
  | some inner =>
    rw [hinner] at h
    cases hstruct : e.isStructure with
    | false =>
      rw [hstruct] at h
      cases h
    | true =>
      rw [hstruct] at h
      cases helement : arrayValue.getElement low with
      | none =>
        rw [helement] at h
        cases h
      | some u =>
        rw [helement] at h
        obtain ⟨found, -, h⟩ := bind_ok h
        cases found <;> cases h

theorem rangeValue_ne_error {low n : Int} : rangeValue arrayValue low n ≠ .ok .error := by
  intro h
  obtain ⟨es, -, h⟩ := bind_ok h
  exact ReadValue.noConfusion (Except.ok.inj h)

end Part

section Array

variable {getValue : List UInt8 → Exec (Option MmsValue)} {itemId name : List UInt8}
  {elementCount : Int} {e : MmsVariableSpecification} {arrayValue : MmsValue}

/-- What is stored is an array value: what is added is the part of it that is addressed. -/
theorem answersOne_stored_iff {a : AlternateAccess} {low n : Int}
    (hindex : a.isIndexAccess = .ok true) (hlow : a.getLowIndex = .ok low)
    (hn : a.getNumberOfElements = .ok n) (hvalue : getValue itemId = .ok (some arrayValue)) :
    AnswersOne (.ok ((array name elementCount e).select arrayValue a))
        (alternateArrayAccess getValue a itemId elementCount e) ↔
      ∃ w, ((if n = 0 then elementValue a elementCount e arrayValue low
          else rangeValue arrayValue low n) >>= ReadValue.complete) = .ok w ∧
        (array name elementCount e).select arrayValue a = some w := by
  have hne : (if n = 0 then elementValue a elementCount e arrayValue low
      else rangeValue arrayValue low n) ≠ .ok .error := by
    split
    · exact elementValue_ne_error
    · exact rangeValue_ne_error
  rw [alternateArrayAccess_indexed hindex hlow hn, hvalue, ok_bind, Option.elim_some]
  apply (answersOne_append_iff _ hne).trans
  apply exists_congr
  intro w
  exact and_congr_right fun _ => ⟨Except.ok.inj, congrArg Except.ok⟩

theorem partReadable_index_iff {index : UInt32} (hvalue : getValue itemId = .ok (some arrayValue)) :
    PartReadable getValue itemId elementCount e (.selectAccess (.index index)) ↔
      ∃ w, arrayValue.getElement (i32 index.toNat) = some w := by
  constructor
  · intro h
    cases h with
    | notIndexed h => cases h
    | noValue _ h => cases hvalue.symm.trans h
    | element h hw =>
      cases hvalue.symm.trans h
      exact ⟨_, hw⟩
  · rintro ⟨w, hw⟩
    exact .element hvalue hw

theorem partReadable_range_iff {lowIndex numberOfElements : UInt32}
    (hvalue : getValue itemId = .ok (some arrayValue)) :
    PartReadable getValue itemId elementCount e
        (.selectAccess (.indexRange lowIndex numberOfElements)) ↔
      numberOfElements ≠ 0 ∧ lowIndex.toNat + numberOfElements.toNat < 2147483648 ∧
        ∀ k < numberOfElements.toNat, ∃ w, arrayValue.getElement ↑(lowIndex.toNat + k) = some w ∧
          w.leaves.any MmsValue.isNullString = false := by
  constructor
  · intro h
    cases h with
    | notIndexed h => cases h
    | noValue _ h => cases hvalue.symm.trans h
    | range h hn hbound helements =>
      cases hvalue.symm.trans h
      exact ⟨hn, hbound, helements⟩
  · rintro ⟨hn, hbound, helements⟩
    exact .range hvalue hn hbound helements

theorem partReadable_component_iff {index : UInt32} {inner : AlternateAccess}
    (hvalue : getValue itemId = .ok (some arrayValue)) :
    PartReadable getValue itemId elementCount e (.selectAlternateAccess (.index index) inner) ↔
      ∃ w structValue, e.isStructure = true ∧
        arrayValue.getElement (i32 index.toNat) = some structValue ∧
        getComponentOfArrayElement inner elementCount e.elements structValue = .ok (some w) ∧
        e.select structValue inner = some w := by
  constructor
  · intro h
    cases h with
    | notIndexed h => cases h
    | noValue _ h => cases hvalue.symm.trans h
    | component h hstruct helement hcomponent hlen hfind hj hw hselect =>
      cases hvalue.symm.trans h
      have hfound := getComponentOfArrayElement_eq_iff.mpr
        ⟨_, _, hcomponent, hlen, hfind, hj, hw⟩
      exact ⟨_, _, hstruct, helement, hfound, hselect⟩
  · rintro ⟨w, structValue, hstruct, helement, hfound, hselect⟩
    obtain ⟨component, j, hcomponent, hlen, hfind, hj, hw⟩ :=
      getComponentOfArrayElement_eq_iff.mp hfound
    exact .component hvalue hstruct helement hcomponent hlen hfind hj hw hselect

/-- An access that begins with an index or a range, where there is an array value. -/
theorem answersOne_indexed_iff {a : AlternateAccess} (hindex : a.isIndexAccess = .ok true)
    (hvalue : getValue itemId = .ok (some arrayValue)) :
    AnswersOne (.ok ((array name elementCount e).select arrayValue a))
        (alternateArrayAccess getValue a itemId elementCount e) ↔
      PartReadable getValue itemId elementCount e a := by
  cases a with
  | empty => cases hindex
  | named => cases hindex
  | selectAccess selection =>
    cases selection with
    | component => cases hindex
    | allElements => cases hindex
    | index index =>
      rw [answersOne_stored_iff hindex rfl rfl hvalue, partReadable_index_iff hvalue, if_pos rfl]
      exact element_answers_iff
    | indexRange lowIndex numberOfElements =>
      rw [answersOne_stored_iff hindex rfl rfl hvalue, partReadable_range_iff hvalue]
      by_cases hn : numberOfElements = 0
      · subst hn
        apply iff_of_false
        · rintro ⟨w, -, hselect⟩
          rw [select, selectPart, if_pos rfl] at hselect
          cases hselect
        · intro h
          exact h.1 rfl
      · rw [if_neg (i32_toNat_ne_zero hn), range_answers_iff hn]
        exact (and_iff_right hn).symm
  | selectAlternateAccess selection inner =>
    cases selection with
    | component => cases hindex
    | allElements => cases hindex
    | index index =>
      rw [answersOne_stored_iff hindex rfl rfl hvalue, partReadable_component_iff hvalue,
        if_pos rfl]
      exact component_answers_iff
    | indexRange lowIndex numberOfElements =>
      rw [answersOne_stored_iff hindex rfl rfl hvalue]
      apply iff_of_false
      · rintro ⟨w, -, hselect⟩
        cases hselect
      · intro h
        cases h with
        | notIndexed h => cases h
        | noValue _ h => cases hvalue.symm.trans h

theorem answersOne_part_iff {a : AlternateAccess} :
    AnswersOne
        (do
          let found ← valueOf getValue (.array name elementCount e) itemId
          return found.bind fun value => (array name elementCount e).selected value (some a))
        (alternateArrayAccess getValue a itemId elementCount e) ↔
      PartReadable getValue itemId elementCount e a := by
  rw [valueOf]
  cases hindex : a.isIndexAccess with
  | error fault =>
    rw [alternateArrayAccess, hindex]
    apply iff_of_false not_answersOne_error
    intro h
    cases h with
    | notIndexed h => cases hindex.symm.trans h
    | noValue h => cases hindex.symm.trans h
    | element => cases hindex
    | range => cases hindex
    | component => cases hindex
  | ok isIndexAccess =>
    cases isIndexAccess with
    | false =>
      refine iff_of_true ?_ (.notIndexed hindex)
      rw [alternateArrayAccess, hindex]
      apply answersOne_error_iff.mpr
      intro v hv
      obtain ⟨found, -, hv⟩ := bind_ok hv
      obtain ⟨value, -, hv⟩ := Option.bind_eq_some_iff.mp (Except.ok.inj hv)
      rw [selected, select_of_notIndexed hindex] at hv
      cases hv
    | true =>
      cases hvalue : getValue itemId with
      | error fault =>
        obtain ⟨low, n, hlow, hn⟩ := indexAccess_ok hindex
        rw [alternateArrayAccess_indexed hindex hlow hn, hvalue]
        apply iff_of_false not_answersOne_error
        intro h
        cases h with
        | notIndexed h => cases hindex.symm.trans h
        | noValue _ h => cases hvalue.symm.trans h
        | element h => cases hvalue.symm.trans h
        | range h => cases hvalue.symm.trans h
        | component h => cases hvalue.symm.trans h
      | ok found =>
        cases found with
        | none =>
          obtain ⟨low, n, hlow, hn⟩ := indexAccess_ok hindex
          rw [alternateArrayAccess_indexed hindex hlow hn, hvalue]
          refine iff_of_true ?_ (.noValue hindex hvalue)
          apply answersOne_error_iff.mpr
          intro v hv
          cases hv
        | some arrayValue => exact answersOne_indexed_iff hindex hvalue

end Array

/-! ## One variable of a request, or one member of a list -/

namespace ReadServer

variable {s : ReadServer} {i domain : Nat} {domainId itemId : List UInt8}

theorem nameOf_eq (hzero : 0 ∉ itemId) (hlen : itemId.length ≤ 64) : nameOf itemId = itemId := by
  rw [nameOf, copyAsn1IdentifierToStringBuffer, if_pos (Nat.lt_succ_of_le hlen),
    createStringFromBuffer, List.takeWhile_eq_self_iff]
  intro b hb
  apply decide_eq_true
  rintro rfl
  exact hzero hb

theorem nameOf_long (h : 64 < itemId.length) : nameOf itemId = [] :=
  if_neg (Nat.not_lt.mpr h)

theorem getDomain_nil : s.getDomain [] = none := by
  apply List.findIdx?_eq_none_iff.mpr
  intro d _
  exact decide_eq_false d.domainName_ne

/-- No variable has the empty name. -/
theorem getNamedVariable_nil (h : s.getDomain domainId = some domain) :
    s.getNamedVariable domain [] = .ok none := by
  obtain ⟨hlt, -⟩ := List.findIdx?_eq_some_iff_getElem.mp h
  rw [getNamedVariable, List.getElem?_eq_getElem hlt]
  apply congrArg Except.ok
  apply List.find?_eq_none.mpr
  intro v hv
  exact fun h => (s.domains[domain].cache.domain.plain v hv).2 (of_decide_eq_true h)

variable {access : VariableAccess}

theorem readVariable_long (h : access.name = some (domainId, itemId)) (hzero : 0 ∉ domainId)
    (hlong : 64 < domainId.length ∨ 64 < itemId.length) :
    s.readVariable i access = .ok appendErrorToResultList := by
  rw [readVariable, h]
  dsimp only
  by_cases hdomain : 64 < domainId.length
  · rw [nameOf_long hdomain, getDomain_nil]
  · rw [nameOf_eq hzero (Nat.le_of_not_lt hdomain), nameOf_long (hlong.resolve_left hdomain)]
    cases hfound : s.getDomain domainId with
    | none => rfl
    | some domain =>
      dsimp only
      rw [getNamedVariable_nil hfound]
      rfl

theorem path_name (h : access.name = some (domainId, itemId)) :
    s.path (.name access) = ⟨s.getDomain domainId, itemId, access.alternateAccess⟩ := by
  rw [path, h]

theorem valueAt_unknownDomain {p : ReadPath} (h : p.domain = none) (v : MmsValue) :
    s.valueAt i p ≠ .ok (some v) := by
  rw [valueAt, h]
  intro h
  cases h

theorem valueAt_unknownVariable {p : ReadPath} (h : p.domain = some domain)
    (hnone : s.getNamedVariable domain p.itemId = .ok none) (v : MmsValue) :
    s.valueAt i p ≠ .ok (some v) := by
  rw [valueAt, h]
  dsimp only
  rw [hnone]
  intro h
  cases h

theorem valueAt_variable {p : ReadPath} {v : MmsVariableSpecification} (h : p.domain = some domain)
    (hsome : s.getNamedVariable domain p.itemId = .ok (some v)) :
    s.valueAt i p =
      do
        let found ← valueOf (s.getValue i domain) v p.itemId
        return found.bind fun value => v.selected value p.part := by
  rw [valueAt, h]
  dsimp only
  rw [hsome]
  rfl

/-- Where the names of a variable are resolved. -/
theorem readVariable_eq (h : access.name = some (domainId, itemId)) (hdomain : 0 ∉ domainId)
    (hitem : 0 ∉ itemId) (hdomain' : domainId.length ≤ 64) (hitem' : itemId.length ≤ 64)
    (hfound : s.getDomain domainId = some domain) :
    s.readVariable i access = s.getNamedVariable domain itemId >>=
      addNamedVariableToResultList (s.getValue i domain) itemId access.alternateAccess := by
  rw [readVariable, h]
  dsimp only
  rw [nameOf_eq hdomain hdomain', nameOf_eq hitem hitem', hfound]
  dsimp only
  cases s.getNamedVariable domain itemId with
  | error => rfl
  | ok found =>
    cases found with
    | none => rfl
    | some v => rfl

/-- How a variable that is there may be readable. -/
theorem ItemReadable.cases_of_variable {v : MmsVariableSpecification}
    (h : access.name = some (domainId, itemId)) (hdomain : domainId.length ≤ 64)
    (hitem : itemId.length ≤ 64) (hfound : s.getDomain domainId = some domain)
    (hsome : s.getNamedVariable domain itemId = .ok (some v))
    (hread : s.ItemReadable i (.name access)) :
    ((v.isArray = false ∨ access.alternateAccess = none) ∧
        WholeReadable (s.getValue i domain) itemId v access.alternateAccess) ∨
      ∃ name elementCount e a, v = .array name elementCount e ∧
        access.alternateAccess = some a ∧
        PartReadable (s.getValue i domain) itemId elementCount e a := by
  cases hread with
  | noName h' => cases h.symm.trans h'
  | tooLong h' hlong =>
    cases h.symm.trans h'
    omega
  | unknownDomain h' hnone =>
    cases h.symm.trans h'
    cases hfound.symm.trans hnone
  | unknownVariable h' _ _ hfound' hnone =>
    cases h.symm.trans h'
    cases hfound.symm.trans hfound'
    cases hsome.symm.trans hnone
  | whole h' _ _ hfound' hsome' hwhole hread =>
    cases h.symm.trans h'
    cases hfound.symm.trans hfound'
    cases hsome.symm.trans hsome'
    exact .inl ⟨hwhole, hread⟩
  | part h' _ _ hfound' hsome' ha hread =>
    cases h.symm.trans h'
    cases hfound.symm.trans hfound'
    cases hsome.symm.trans hsome'
    exact .inr ⟨_, _, _, _, rfl, ha, hread⟩

theorem answersOne_variable_iff {v : MmsVariableSpecification}
    (h : access.name = some (domainId, itemId)) (hdomain : domainId.length ≤ 64)
    (hitem : itemId.length ≤ 64) (hfound : s.getDomain domainId = some domain)
    (hsome : s.getNamedVariable domain itemId = .ok (some v)) :
    AnswersOne
        (do
          let found ← valueOf (s.getValue i domain) v itemId
          return found.bind fun value => v.selected value access.alternateAccess)
        (addNamedVariableToResultList (s.getValue i domain) itemId access.alternateAccess
          (some v)) ↔
      s.ItemReadable i (.name access) := by
  have hcases := ItemReadable.cases_of_variable (i := i) h hdomain hitem hfound hsome
  by_cases hwhole : v.isArray = false ∨ access.alternateAccess = none
  · have hrange : v.isArray = false ∨ ∀ lowIndex numberOfElements, access.alternateAccess ≠
        some (.selectAccess (.indexRange lowIndex numberOfElements)) := by
      apply hwhole.imp_right
      intro hnone lowIndex numberOfElements hsome
      cases hnone.symm.trans hsome
    rw [answersOne_whole_iff hrange hwhole]
    constructor
    · intro hread
      exact .whole h hdomain hitem hfound hsome hwhole hread
    · intro hread
      rcases hcases hread with ⟨-, hread⟩ | ⟨name, elementCount, e, a, rfl, ha, -⟩
      · exact hread
      · rcases hwhole with harray | hnone
        · cases harray
        · cases hnone.symm.trans ha
  · obtain ⟨harray, ha⟩ := not_or.mp hwhole
    obtain ⟨a, ha⟩ := Option.ne_none_iff_exists'.mp ha
    cases v with
    | structured => exact absurd rfl harray
    | leaf => exact absurd rfl harray
    | array name elementCount e =>
      rw [ha]
      show AnswersOne _ (alternateArrayAccess _ _ _ _ _) ↔ _
      rw [answersOne_part_iff]
      constructor
      · intro hread
        exact .part h hdomain hitem hfound hsome ha hread
      · intro hread
        rcases hcases hread with ⟨hwhole', -⟩ | ⟨name', elementCount', e', a', hv, ha', hread⟩
        · exact absurd hwhole' hwhole
        · cases hv
          cases ha.symm.trans ha'
          exact hread

/-- One turn of the loop adds the expected result exactly if the variable can be read. -/
theorem answersOne_item_iff (hzero : ∀ domainId itemId, access.name = some (domainId, itemId) →
      0 ∉ domainId ∧ 0 ∉ itemId) :
    AnswersOne (s.valueAt i (s.path (.name access))) (s.readVariable i access) ↔
      s.ItemReadable i (.name access) := by
  cases hname : access.name with
  | none =>
    refine iff_of_true ?_ (.noName hname)
    rw [readVariable, hname, path, hname]
    exact answersOne_error_iff.mpr (valueAt_unknownDomain rfl)
  | some names =>
    obtain ⟨domainId, itemId⟩ := names
    obtain ⟨hzero, hzero'⟩ := hzero domainId itemId hname
    by_cases hlong : 64 < domainId.length ∨ 64 < itemId.length
    · rw [readVariable_long hname hzero hlong, answersOne_error_iff]
      constructor
      · intro hnone
        exact .tooLong hname hlong hnone
      · intro hread
        cases hread with
        | noName h => cases hname.symm.trans h
        | tooLong _ _ hnone => exact hnone
        | unknownDomain h hnone =>
          cases hname.symm.trans h
          rw [path_name hname]
          exact valueAt_unknownDomain hnone
        | unknownVariable h hdomain hitem =>
          cases hname.symm.trans h
          omega
        | whole h hdomain hitem =>
          cases hname.symm.trans h
          omega
        | part h hdomain hitem =>
          cases hname.symm.trans h
          omega
    · obtain ⟨hdomain, hitem⟩ := not_or.mp hlong
      have hdomain := Nat.le_of_not_lt hdomain
      have hitem := Nat.le_of_not_lt hitem
      cases hfound : s.getDomain domainId with
      | none =>
        refine iff_of_true ?_ (.unknownDomain hname hfound)
        rw [readVariable, hname]
        dsimp only
        rw [nameOf_eq hzero hdomain, hfound, path_name hname]
        exact answersOne_error_iff.mpr (valueAt_unknownDomain hfound)
      | some domain =>
        rw [readVariable_eq hname hzero hzero' hdomain hitem hfound, path_name hname]
        cases hvariable : s.getNamedVariable domain itemId with
        | error fault =>
          apply iff_of_false not_answersOne_error
          intro hread
          cases hread with
          | noName h => cases hname.symm.trans h
          | tooLong h hlong' =>
            cases hname.symm.trans h
            exact hlong hlong'
          | unknownDomain h hnone =>
            cases hname.symm.trans h
            cases hfound.symm.trans hnone
          | unknownVariable h _ _ hfound' hnone =>
            cases hname.symm.trans h
            cases hfound.symm.trans hfound'
            cases hvariable.symm.trans hnone
          | whole h _ _ hfound' hsome =>
            cases hname.symm.trans h
            cases hfound.symm.trans hfound'
            cases hvariable.symm.trans hsome
          | part h _ _ hfound' hsome =>
            cases hname.symm.trans h
            cases hfound.symm.trans hfound'
            cases hvariable.symm.trans hsome
        | ok found =>
          cases found with
          | none =>
            refine iff_of_true ?_ (.unknownVariable hname hdomain hitem hfound hvariable)
            exact answersOne_error_iff.mpr
              (valueAt_unknownVariable (p := ⟨_, itemId, access.alternateAccess⟩) hfound hvariable)
          | some v =>
            rw [valueAt_variable hfound hvariable, ok_bind]
            exact answersOne_variable_iff hname hdomain hitem hfound hvariable

theorem part_ne_range (entry : NamedVariableListEntry) (lowIndex numberOfElements : UInt32) :
    entry.part ≠ some (.selectAccess (.indexRange lowIndex numberOfElements)) := by
  intro h
  rw [NamedVariableListEntry.part] at h
  cases hname : entry.componentName with
  | none =>
    rw [hname] at h
    dsimp only at h
    split at h <;> cases h
  | some component =>
    rw [hname] at h
    dsimp only at h
    split at h <;> cases h

theorem answersOne_member_iff {entry : NamedVariableListEntry} :
    AnswersOne (s.valueAt i entry.path) (s.readMember i entry) ↔ s.MemberReadable i entry := by
  rw [readMember]
  cases hdomain : entry.domain with
  | none =>
    apply iff_of_false not_answersOne_error
    intro hread
    cases hread with
    | unknownVariable h => cases hdomain.symm.trans h
    | whole h => cases hdomain.symm.trans h
  | some domain =>
    dsimp only
    cases hvariable : s.getNamedVariable domain entry.variableName with
    | error fault =>
      apply iff_of_false not_answersOne_error
      intro hread
      cases hread with
      | unknownVariable h hnone =>
        cases hdomain.symm.trans h
        cases hvariable.symm.trans hnone
      | whole h hsome =>
        cases hdomain.symm.trans h
        cases hvariable.symm.trans hsome
    | ok found =>
      cases found with
      | none =>
        refine iff_of_true ?_ (.unknownVariable hdomain hvariable)
        exact answersOne_error_iff.mpr (valueAt_unknownVariable hdomain hvariable)
      | some v =>
        rw [valueAt_variable hdomain hvariable, ok_bind]
        apply (answersOne_whole_iff (.inr (part_ne_range entry)) (.inr rfl)).trans
        constructor
        · intro hread
          exact .whole hdomain hvariable hread
        · intro hread
          cases hread with
          | unknownVariable h hnone =>
            cases hdomain.symm.trans h
            cases hvariable.symm.trans hnone
          | whole h hsome hread =>
            cases hdomain.symm.trans h
            cases hvariable.symm.trans hsome
            exact hread

end ReadServer

/-! ## The list of results -/

section Results

open ReadServer

theorem length_append_le (rv : ReadValue) : (appendValueToResultList rv).length ≤ 1 := by
  cases rv with
  | null => exact Nat.zero_le 1
  | error => exact le_rfl
  | value => exact le_rfl
  | structured => exact le_rfl
  | array => exact le_rfl

variable {getValue : List UInt8 → Exec (Option MmsValue)} {itemId : List UInt8}

theorem length_alternateArrayAccess_le {a : AlternateAccess} {elementCount : Int}
    {e : MmsVariableSpecification} {values : List ReadValue}
    (h : alternateArrayAccess getValue a itemId elementCount e = .ok values) :
    values.length ≤ 1 := by
  cases hindex : a.isIndexAccess with
  | error fault =>
    rw [alternateArrayAccess, hindex] at h
    cases h
  | ok isIndexAccess =>
    cases isIndexAccess with
    | false =>
      rw [alternateArrayAccess, hindex] at h
      cases h
      exact le_rfl
    | true =>
      obtain ⟨low, n, hlow, hn⟩ := indexAccess_ok hindex
      rw [alternateArrayAccess_indexed hindex hlow hn] at h
      obtain ⟨found, -, h⟩ := bind_ok h
      cases found with
      | none =>
        cases h
        exact le_rfl
      | some arrayValue =>
        obtain ⟨rv, -, h⟩ := bind_ok h
        obtain rfl := Except.ok.inj h
        exact length_append_le rv

/-- No more than one result is added for a variable. -/
theorem length_addNamedVariableToResultList_le {alternateAccess : Option AlternateAccess}
    {found : Option MmsVariableSpecification} {values : List ReadValue}
    (h : addNamedVariableToResultList getValue itemId alternateAccess found = .ok values) :
    values.length ≤ 1 := by
  cases found with
  | none =>
    cases h
    exact le_rfl
  | some v =>
    cases v with
    | structured name elements =>
      rw [addNamedVariableToResultList_structured] at h
      obtain ⟨rv, -, h⟩ := bind_ok h
      cases h
      exact length_append_le rv
    | array name elementCount e =>
      cases alternateAccess with
      | some a => exact length_alternateArrayAccess_le h
      | none =>
        obtain ⟨found, -, h⟩ := bind_ok h
        cases h
        exact length_append_le _
    | leaf name size =>
      obtain ⟨found, -, h⟩ := bind_ok h
      cases found with
      | none =>
        cases h
        exact le_rfl
      | some value =>
        cases h
        exact le_rfl

theorem ReadServer.length_readVariable_le {s : ReadServer} {i : Nat} {access : VariableAccess}
    {values : List ReadValue} (h : s.readVariable i access = .ok values) : values.length ≤ 1 := by
  rw [readVariable] at h
  cases hname : access.name with
  | none =>
    rw [hname] at h
    cases h
    exact le_rfl
  | some names =>
    rw [hname] at h
    dsimp only at h
    cases hdomain : s.getDomain (nameOf names.1) with
    | none =>
      rw [hdomain] at h
      cases h
      exact le_rfl
    | some domain =>
      rw [hdomain] at h
      obtain ⟨found, -, h⟩ := bind_ok h
      cases found with
      | none =>
        cases h
        exact le_rfl
      | some v => exact length_addNamedVariableToResultList_le h

theorem ReadServer.length_readMember_le {s : ReadServer} {i : Nat}
    {entry : NamedVariableListEntry} {values : List ReadValue}
    (h : s.readMember i entry = .ok values) : values.length ≤ 1 := by
  rw [readMember] at h
  cases hdomain : entry.domain with
  | none =>
    rw [hdomain] at h
    cases h
  | some domain =>
    rw [hdomain] at h
    obtain ⟨found, -, h⟩ := bind_ok h
    exact length_addNamedVariableToResultList_le h

variable {α : Type} {read : Nat → α → Exec (List ReadValue)}
  {value : Nat → α → Exec (Option MmsValue)} {items : List α} {i : Nat}
  {values : List ReadValue} {results : List ReadResult}

theorem readAll_expected (h : ∀ p ∈ items.zipIdx i, AnswersOne (value p.2 p.1) (read p.2 p.1)) :
    ∃ values, readAll read i items = .ok values ∧ values.mapM ReadValue.result =
      .ok ((items.zipIdx i).map fun p => .expected (value p.2 p.1)) := by
  induction items generalizing i with
  | nil => exact ⟨[], rfl, rfl⟩
  | cons a items ih =>
    obtain ⟨rv, hrv, hresult⟩ := h (a, i) List.mem_cons_self
    obtain ⟨rvs, hrvs, hresults⟩ := ih fun p hp => h p (List.mem_cons_of_mem (a, i) hp)
    refine ⟨rv :: rvs, ?_, ?_⟩
    · rw [readAll, hrv, ok_bind, hrvs]
      rfl
    · rw [List.mapM_cons, hresult, hresults]
      rfl

theorem length_readAll_le (hone : ∀ i a values, read i a = .ok values → values.length ≤ 1)
    (h : readAll read i items = .ok values) : values.length ≤ items.length := by
  induction items generalizing i values with
  | nil =>
    cases h
    exact le_rfl
  | cons a items ih =>
    obtain ⟨first, hfirst, h⟩ := bind_ok h
    obtain ⟨rest, hrest, h⟩ := bind_ok h
    cases h
    have hle := hone i a first hfirst
    have hle' := ih hrest
    rw [List.length_append, List.length_cons]
    omega

theorem length_of_mapM_result (h : values.mapM ReadValue.result = .ok results) :
    results.length = values.length := by
  induction values generalizing results with
  | nil =>
    cases h
    rfl
  | cons rv rvs ih =>
    rw [List.mapM_cons] at h
    obtain ⟨r, -, h⟩ := bind_ok h
    obtain ⟨rs, hrs, h⟩ := bind_ok h
    cases h
    exact congrArg (· + 1) (ih hrs)

/-- Where there are as many right results as variables, every variable has added its own. -/
theorem answersOne_of_readAll (hone : ∀ i a values, read i a = .ok values → values.length ≤ 1)
    (h : readAll read i items = .ok values) (hresults : values.mapM ReadValue.result = .ok results)
    (hright : List.Forall₂ (fun p r => ReadResult.Right (value p.2 p.1) r) (items.zipIdx i)
      results) :
    (∀ p ∈ items.zipIdx i, AnswersOne (value p.2 p.1) (read p.2 p.1)) ∧
      results = (items.zipIdx i).map fun p => .expected (value p.2 p.1) := by
  induction items generalizing i values results with
  | nil =>
    cases hright
    exact ⟨fun p hp => absurd hp List.not_mem_nil, rfl⟩
  | cons a items ih =>
    have hlen := hright.length_eq
    rw [length_of_mapM_result hresults, List.length_zipIdx, List.length_cons] at hlen
    obtain ⟨first, hfirst, h⟩ := bind_ok h
    obtain ⟨rest, hrest, h⟩ := bind_ok h
    cases h
    have hle := hone i a first hfirst
    have hle' := length_readAll_le hone hrest
    rw [List.length_append] at hlen
    obtain ⟨rv, rfl⟩ := List.length_eq_one_iff.mp (show first.length = 1 by omega)
    rw [List.singleton_append, List.mapM_cons] at hresults
    obtain ⟨r, hr, hresults⟩ := bind_ok hresults
    obtain ⟨rs, hrs, hresults⟩ := bind_ok hresults
    cases hresults
    cases hright with
    | cons hright hrights =>
      obtain ⟨hones, rfl⟩ := ih hrest hrs hrights
      obtain rfl := ReadValue.eq_expected hr hright
      refine ⟨?_, rfl⟩
      intro p hp
      cases hp with
      | head => exact ⟨rv, hfirst, hr⟩
      | tail _ hp => exact hones p hp

theorem ReadServer.encodeReadResponse_eq_iff {s : ReadServer} {invokeId : UInt32}
    {accessSpec accessSpec' : Option VarAccessSpec} :
    s.encodeReadResponse invokeId values accessSpec =
        .ok (.readResponse invokeId accessSpec' results) ↔
      values.mapM ReadValue.result = .ok results ∧ accessSpec' = accessSpec ∧
        ReadResponse.mmsPduSize invokeId accessSpec results ≤ s.maxPduSize := by
  rw [encodeReadResponse]
  cases values.mapM ReadValue.result with
  | error fault =>
    constructor
    · intro h
      cases h
    · rintro ⟨h, -⟩
      cases h
  | ok rs =>
    rw [ok_bind]
    by_cases hlarge : s.maxPduSize < ReadResponse.mmsPduSize invokeId accessSpec rs
    · rw [if_pos hlarge]
      constructor
      · intro h
        cases h
      · rintro ⟨h, -, hfits⟩
        cases h
        exact absurd hfits (Nat.not_le_of_lt hlarge)
    · rw [if_neg hlarge]
      constructor
      · intro h
        cases h
        exact ⟨rfl, rfl, Nat.le_of_not_lt hlarge⟩
      · rintro ⟨h, rfl, -⟩
        cases h
        rfl

/-- The loop and its answer: every variable is answered exactly if every turn of the loop answers
its own, and the results fit. -/
theorem ReadServer.answers_iff {s : ReadServer} {invokeId : UInt32}
    {accessSpec : Option VarAccessSpec} (read : Nat → α → Exec (List ReadValue))
    (value : Nat → α → Exec (Option MmsValue))
    (hone : ∀ i a values, read i a = .ok values → values.length ≤ 1) :
    (∃ accessSpec' results, (readAll read 0 items >>= fun values =>
          s.encodeReadResponse invokeId values accessSpec) =
            .ok (.readResponse invokeId accessSpec' results) ∧
        List.Forall₂ (fun p r => ReadResult.Right (value p.2 p.1) r) items.zipIdx results) ↔
      (∀ p ∈ items.zipIdx, AnswersOne (value p.2 p.1) (read p.2 p.1)) ∧
        ReadResponse.mmsPduSize invokeId accessSpec
          (items.zipIdx.map fun p => .expected (value p.2 p.1)) ≤ s.maxPduSize := by
  constructor
  · rintro ⟨accessSpec', results, h, hright⟩
    obtain ⟨values, hvalues, h⟩ := bind_ok h
    obtain ⟨hresults, -, hfits⟩ := encodeReadResponse_eq_iff.mp h
    obtain ⟨hones, rfl⟩ := answersOne_of_readAll hone hvalues hresults hright
    exact ⟨hones, hfits⟩
  · rintro ⟨hones, hfits⟩
    obtain ⟨values, hvalues, hresults⟩ := readAll_expected hones
    refine ⟨accessSpec, items.zipIdx.map fun p => .expected (value p.2 p.1), ?_, ?_⟩
    · rw [hvalues, ok_bind]
      exact encodeReadResponse_eq_iff.mpr ⟨hresults, rfl, hfits⟩
    · apply List.forall₂_map_right_iff.mpr
      apply List.forall₂_same.mpr
      intro p _
      exact ReadResult.right_expected _

end Results

/-! ## The requests -/

namespace ReadServer

variable {s : ReadServer} {invokeId : UInt32}

theorem readVariables_map_name (i : Nat) (accesses : List VariableAccess) :
    s.readVariables i (accesses.map .name) = (readAll s.readVariable i accesses).map some := by
  induction accesses generalizing i with
  | nil => rfl
  | cons access accesses ih =>
    rw [List.map_cons, readVariables, ih, readAll]
    cases s.readVariable i access with
    | error => rfl
    | ok values =>
      rw [ok_bind, ok_bind]
      cases readAll s.readVariable (i + 1) accesses with
      | error => rfl
      | ok rest => rfl

/-- A request is rejected unless all its variables have names. -/
theorem names_of_readVariables {i : Nat} {items : List ReadSpecification} {values : List ReadValue}
    (h : s.readVariables i items = .ok (some values)) :
    ∃ accesses : List VariableAccess, items = accesses.map .name := by
  induction items generalizing i values with
  | nil => exact ⟨[], rfl⟩
  | cons item items ih =>
    cases item with
    | other => cases h
    | name access =>
      obtain ⟨first, -, h⟩ := bind_ok h
      obtain ⟨found, hfound, h⟩ := bind_ok h
      obtain ⟨rest, rfl, -⟩ := Option.map_eq_some_iff.mp (Except.ok.inj h)
      obtain ⟨accesses, rfl⟩ := ih hfound
      exact ⟨access :: accesses, rfl⟩

theorem names_of_readable {i : Nat} {items : List ReadSpecification}
    (h : ∀ p ∈ items.zipIdx i, s.ItemReadable p.2 p.1) :
    ∃ accesses : List VariableAccess, items = accesses.map .name := by
  induction items generalizing i with
  | nil => exact ⟨[], rfl⟩
  | cons item items ih =>
    obtain ⟨accesses, rfl⟩ := ih fun p hp => h p (List.mem_cons_of_mem (item, i) hp)
    cases item with
    | other => cases h (.other, i) List.mem_cons_self
    | name access => exact ⟨access :: accesses, rfl⟩

/-- The variables of a request, each by its name. -/
theorem answersVariables_iff {accesses : List VariableAccess} (hzero : ∀ access ∈ accesses,
      ∀ domainId itemId, access.name = some (domainId, itemId) → 0 ∉ domainId ∧ 0 ∉ itemId) :
    (∃ accessSpec results,
        s.handleReadListOfVariablesRequest invokeId (accesses.map .name) =
          .ok (.readResponse invokeId accessSpec results) ∧
        List.Forall₂ (fun p r => ReadResult.Right (s.valueAt p.2 p.1) r)
          ((accesses.map .name).map s.path).zipIdx results) ↔
      (∀ p ∈ (accesses.map ReadSpecification.name).zipIdx, s.ItemReadable p.2 p.1) ∧
        ReadResponse.mmsPduSize invokeId none
          (((accesses.map .name).map s.path).zipIdx.map fun p => .expected (s.valueAt p.2 p.1)) ≤
          s.maxPduSize := by
  have hhandle : s.handleReadListOfVariablesRequest invokeId (accesses.map .name) =
      readAll s.readVariable 0 accesses >>= fun values =>
        s.encodeReadResponse invokeId values none := by
    rw [handleReadListOfVariablesRequest, readVariables_map_name]
    cases readAll s.readVariable 0 accesses with
    | error => rfl
    | ok values => rfl
  have hpath : ((accesses.map .name).map s.path).zipIdx =
      accesses.zipIdx.map fun p => (s.path (.name p.1), p.2) := by
    rw [List.map_map, List.zipIdx_map]
    rfl
  have hread : (∀ p ∈ (accesses.map ReadSpecification.name).zipIdx, s.ItemReadable p.2 p.1) ↔
      ∀ p ∈ accesses.zipIdx, AnswersOne (s.valueAt p.2 (s.path (.name p.1)))
        (s.readVariable p.2 p.1) := by
    rw [List.zipIdx_map, List.forall_mem_map]
    apply forall₂_congr
    intro p hp
    exact (answersOne_item_iff (hzero p.1 (List.fst_mem_of_mem_zipIdx hp))).symm
  rw [hhandle, hpath, hread, List.map_map]
  simp only [List.forall₂_map_left_iff]
  exact answers_iff s.readVariable (fun i access => s.valueAt i (s.path (.name access)))
    fun i access values => length_readVariable_le

theorem answersListOfVariables_iff (s : ReadServer) (invokeId : UInt32)
    {items : List ReadSpecification} (hzero : ∀ access,
      .name access ∈ items → ∀ domainId itemId, access.name = some (domainId, itemId) →
        0 ∉ domainId ∧ 0 ∉ itemId) :
    (∃ accessSpec results, s.handleReadListOfVariablesRequest invokeId items =
          .ok (.readResponse invokeId accessSpec results) ∧
        List.Forall₂ (fun p r => ReadResult.Right (s.valueAt p.2 p.1) r)
          (items.map s.path).zipIdx results) ↔
      (∀ p ∈ items.zipIdx, s.ItemReadable p.2 p.1) ∧
        ReadResponse.mmsPduSize invokeId none
          ((items.map s.path).zipIdx.map fun p => .expected (s.valueAt p.2 p.1)) ≤
          s.maxPduSize := by
  by_cases hnames : ∃ accesses : List VariableAccess, items = accesses.map .name
  · obtain ⟨accesses, rfl⟩ := hnames
    apply answersVariables_iff
    intro access haccess
    exact hzero access (List.mem_map_of_mem haccess)
  · apply iff_of_false
    · rintro ⟨accessSpec, results, h, -⟩
      obtain ⟨found, hfound, h⟩ := bind_ok h
      cases found with
      | none => cases h
      | some values => exact hnames (names_of_readVariables hfound)
    · rintro ⟨h, -⟩
      exact hnames (names_of_readable h)

/-- The members of a list, which is found under the copied name unless the name is too long. -/
theorem answersList_iff {namedList copied : Option NamedVariableList}
    {names : List (List UInt8)} {withSpec : Bool} {accessSpec copiedSpec : VarAccessSpec}
    (hshort : (∀ name ∈ names, name.length ≤ 64) → copied = namedList ∧ copiedSpec = accessSpec)
    (hlong : ¬ (∀ name ∈ names, name.length ≤ 64) → copied = none) :
    (∀ l, namedList = some l → ∃ accessSpec' results,
        s.createNamedVariableListResponse invokeId withSpec copied copiedSpec =
          .ok (.readResponse invokeId accessSpec' results) ∧
        List.Forall₂ (fun p r => ReadResult.Right (s.valueAt p.2 p.1) r)
          (l.listOfVariables.map NamedVariableListEntry.path).zipIdx results) ↔
      s.ListReadable namedList names ∧ ∀ l, namedList = some l →
        ReadResponse.mmsPduSize invokeId (if withSpec then some accessSpec else none)
          ((l.listOfVariables.map NamedVariableListEntry.path).zipIdx.map fun p =>
            .expected (s.valueAt p.2 p.1)) ≤ s.maxPduSize := by
  rw [ListReadable, ← forall_and]
  apply forall_congr'
  intro l
  rw [← forall_and]
  apply forall_congr'
  intro hl
  by_cases hnames : ∀ name ∈ names, name.length ≤ 64
  · obtain ⟨rfl, rfl⟩ := hshort hnames
    have hread : (∀ p ∈ l.listOfVariables.zipIdx, s.MemberReadable p.2 p.1) ↔
        ∀ p ∈ l.listOfVariables.zipIdx, AnswersOne (s.valueAt p.2 p.1.path)
          (s.readMember p.2 p.1) := by
      apply forall₂_congr
      intro p _
      exact answersOne_member_iff.symm
    rw [and_iff_right hnames, hread, hl, List.zipIdx_map, List.map_map]
    simp only [List.forall₂_map_left_iff]
    exact answers_iff s.readMember (fun i entry => s.valueAt i entry.path)
      fun i entry values => length_readMember_le
  · apply iff_of_false
    · rintro ⟨accessSpec', results, h, -⟩
      rw [hlong hnames] at h
      cases h
    · rintro ⟨⟨h, -⟩, -⟩
      exact hnames h

end ReadServer

namespace ReadServer

variable {s : ReadServer} {invokeId : UInt32}

theorem getNamedVariableList_long {domainId listName : List UInt8}
    (h : ¬ ∀ name ∈ [domainId, listName], name.length ≤ 64) :
    s.getNamedVariableList (nameOf domainId) (nameOf listName) = none := by
  by_cases hdomain : domainId.length ≤ 64
  · have hlist : ¬ listName.length ≤ 64 := fun hlist =>
      h (List.forall_mem_cons.mpr ⟨hdomain, List.forall_mem_singleton.mpr hlist⟩)
    rw [nameOf_long (Nat.lt_of_not_le hlist), getNamedVariableList]
    cases s.domains.find? (·.domainName = nameOf domainId) with
    | none => rfl
    | some domain =>
      apply List.find?_eq_none.mpr
      intro l _ hname
      exact l.name_ne (of_decide_eq_true hname)
  · rw [nameOf_long (Nat.lt_of_not_le hdomain), getNamedVariableList]
    have hnone : s.domains.find? (·.domainName = []) = none := by
      apply List.find?_eq_none.mpr
      intro d _ hname
      exact d.domainName_ne (of_decide_eq_true hname)
    rw [hnone]
    rfl

theorem getConnectionVariableList_long {listName : List UInt8}
    (h : ¬ ∀ name ∈ [listName], name.length ≤ 64) :
    s.getConnectionVariableList (nameOf listName) = none := by
  have hlist : ¬ listName.length ≤ 64 := fun hlist => h (List.forall_mem_singleton.mpr hlist)
  rw [nameOf_long (Nat.lt_of_not_le hlist)]
  apply List.find?_eq_none.mpr
  intro l _ hname
  exact l.name_ne (of_decide_eq_true hname)

theorem forall_map_some_iff {α β : Type} {f : α → β} {found : Option α} {P : β → Prop} :
    (∀ b, found.map f = some b → P b) ↔ ∀ a, found = some a → P (f a) := by
  constructor
  · rintro h a rfl
    exact h (f a) rfl
  · intro h b hb
    obtain ⟨a, ha, rfl⟩ := Option.map_eq_some_iff.mp hb
    exact h a ha

/-- Every path is answered in its place exactly if every variable or member can be read and the
results fit into a message. -/
theorem answersAll_iff {request : ReadRequest}
    (h : request.variableAccessSpecification.WellFormed) :
    s.AnswersAll invokeId request ↔
      s.Readable request.variableAccessSpecification ∧ s.Fits invokeId request := by
  obtain ⟨withSpec, specification⟩ := request
  cases specification with
  | listOfVariable items =>
    have hanswers := answersListOfVariables_iff s invokeId h
    constructor
    · intro hall
      obtain ⟨hread, hfits⟩ := hanswers.mp (hall _ rfl)
      refine ⟨hread, ?_⟩
      intro paths hpaths
      cases hpaths
      exact hfits
    · rintro ⟨hread, hfits⟩ paths hpaths
      cases hpaths
      exact hanswers.mpr ⟨hread, hfits _ rfl⟩
  | variableListName listName =>
    cases listName with
    | vmdSpecific =>
      apply iff_of_true
      · intro paths hpaths
        cases hpaths
      · refine ⟨trivial, ?_⟩
        intro paths hpaths
        cases hpaths
    | aaSpecific listName =>
      apply forall_map_some_iff.trans
      apply Iff.trans _ (and_congr_right fun _ => forall_map_some_iff.symm)
      apply answersList_iff
      · intro hshort
        rw [nameOf_eq h (hshort listName List.mem_cons_self)]
        exact ⟨rfl, rfl⟩
      · exact getConnectionVariableList_long
    | domainSpecific domainId itemId =>
      apply forall_map_some_iff.trans
      apply Iff.trans _ (and_congr_right fun _ => forall_map_some_iff.symm)
      apply answersList_iff
      · intro hshort
        rw [nameOf_eq h.1 (hshort domainId List.mem_cons_self),
          nameOf_eq h.2 (hshort itemId (List.mem_cons_of_mem domainId List.mem_cons_self))]
        exact ⟨rfl, rfl⟩
      · exact getNamedVariableList_long

end ReadServer

/-! A device `L` with a node `M` and its measurements `X`: an evaluation `e` and an array of
harmonics `h`, of which there are two. -/

def harmonic : MmsVariableSpecification :=
  .structured [] [.leaf [99, 109] 32, .leaf [99] 32]

def harmonicsNode : MmsVariableSpecification :=
  .structured [77] [.structured [88]
    [.leaf [101] 1, .array [104] 2 harmonic]]

theorem harmonicsNode_wellNamed : harmonicsNode.WellNamed := by
  refine .structured (by decide) (by decide) ?_
  intro mx hmx
  obtain rfl := List.mem_singleton.mp hmx
  refine .structured (by decide) (by decide) ?_
  intro e he
  rcases List.mem_cons.mp he with rfl | he
  · exact .leaf
  · obtain rfl := List.mem_singleton.mp he
    refine .array (.structured (by decide) (by decide) ?_)
    intro e he
    rcases List.mem_cons.mp he with rfl | he
    · exact .leaf
    · obtain rfl := List.mem_singleton.mp he
      exact .leaf

def harmonicsDomain : MmsDomain where
  namedVariables := [harmonicsNode]
  nodup := by decide
  plain := by decide
  wellNamed := List.forall_mem_singleton.mpr harmonicsNode_wellNamed

def harmonicValues : List MmsValue :=
  [.structured [.boolean false, .boolean false], .structured [.boolean true, .boolean false]]

def harmonicsServer : ReadServer where
  domains := [{
    domainName := [76]
    cache := ⟨harmonicsDomain, [([77, 36, 88, 36, 101], .boolean true),
      ([77, 36, 88, 36, 104], .array harmonicValues)]⟩
    namedVariableLists := []
    domainName_ne := by decide }]
  readHandler := fun _ _ _ => none
  namedVariableLists := []
  maxPduSize := 1000

/-- One harmonic, and the measured value. -/
def harmonicRequest (index : UInt32) : ReadRequest where
  specificationWithResult := false
  variableAccessSpecification := .listOfVariable [
    .name ⟨some ([76], [77, 36, 88, 36, 104]), some (.selectAccess (.index index))⟩,
    .name ⟨some ([76], [77, 36, 88, 36, 101]), none⟩]

theorem harmonicRequest_wellFormed (index : UInt32) :
    (harmonicRequest index).variableAccessSpecification.WellFormed := by
  intro access haccess domainId itemId h
  rcases List.mem_cons.mp haccess with heq | haccess
  · cases heq
    cases h
    decide
  · cases List.mem_singleton.mp haccess
    cases h
    decide

namespace ReadServer

/-- The second harmonic is read. -/
theorem harmonicsServer_answersAll : harmonicsServer.AnswersAll 1 (harmonicRequest 1) := by
  have hindex : i32 (1 : UInt32).toNat = 1 := i32_of_range (by decide) (by decide)
  have helement : (MmsValue.array harmonicValues).getElement (i32 (1 : UInt32).toNat) =
      some (.structured [.boolean true, .boolean false]) := by
    rw [hindex]
    rfl
  apply (answersAll_iff (harmonicRequest_wellFormed 1)).mpr
  constructor
  · intro p hp
    rcases List.mem_cons.mp hp with rfl | hp
    · exact .part rfl (by decide) (by decide) rfl rfl rfl (.element rfl helement)
    · obtain rfl := List.mem_singleton.mp hp
      exact .whole rfl (by decide) (by decide) rfl rfl (.inl rfl) (.value rfl)
  · intro paths hpaths
    cases hpaths
    decide +kernel

/-- There is no third harmonic, and the only result is that of the second variable. -/
theorem not_answersAll : ¬ harmonicsServer.AnswersAll 1 (harmonicRequest 2) := by
  intro h
  have hindex : i32 (2 : UInt32).toNat = 2 := i32_of_range (by decide) (by decide)
  have hfirst : alternateArrayAccess (harmonicsServer.getValue 0 0) (.selectAccess (.index 2))
      [77, 36, 88, 36, 104] 2 harmonic = .ok [] := by
    rw [alternateArrayAccess_indexed rfl rfl rfl]
    show Except.ok (appendValueToResultList
      (.ofOption ((MmsValue.array harmonicValues).getElement (i32 (2 : UInt32).toNat)))) = _
    rw [hindex]
    rfl
  have hfirst' : harmonicsServer.readVariable 0 ⟨some ([76], [77, 36, 88, 36, 104]),
      some (.selectAccess (.index 2))⟩ = .ok [] := by
    have hnamed : harmonicsServer.getNamedVariable 0 [77, 36, 88, 36, 104] =
        .ok (some (.array [104] 2 harmonic)) := rfl
    rw [readVariable_eq rfl (by decide) (by decide) (by decide) (by decide) rfl, hnamed, ok_bind,
      addNamedVariableToResultList]
    exact hfirst
  have hsecond : harmonicsServer.readVariable 1 ⟨some ([76], [77, 36, 88, 36, 101]), none⟩ =
      .ok [.value (.boolean true)] := rfl
  have hvalues : harmonicsServer.readVariables 0
      [.name ⟨some ([76], [77, 36, 88, 36, 104]), some (.selectAccess (.index 2))⟩,
        .name ⟨some ([76], [77, 36, 88, 36, 101]), none⟩] =
      .ok (some [.value (.boolean true)]) := by
    rw [readVariables, hfirst', ok_bind, readVariables, hsecond]
    rfl
  have hresponse : harmonicsServer.handleReadRequest 1 (harmonicRequest 2) =
      .ok (.readResponse 1 none [.success (.boolean true)]) := by
    rw [handleReadRequest, harmonicRequest]
    dsimp only
    rw [handleReadListOfVariablesRequest, hvalues]
    rfl
  obtain ⟨accessSpec, results, hhandle, hright⟩ := h _ rfl
  cases hhandle.symm.trans hresponse
  cases hright.length_eq

end ReadServer

end Iec61850
