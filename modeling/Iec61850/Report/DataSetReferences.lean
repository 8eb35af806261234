import Iec61850.Report.EventSteps
import Iec61850.Lib.Transition
import Mathlib.Logic.Function.Basic

/-! The data set that a report control block refers to: who makes it, who frees it, and what a
refused write leaves behind. -/

namespace Iec61850.Reporting

open Machine ReportControl

/-- The names of a domain and of a named variable list in it. -/
structure ListName where
  domain : List UInt8
  item : List UInt8
  deriving DecidableEq

/-- The named variable lists of the domains, and the data sets that
`createDataSetByNamedVariableList` has made of them. Such a data set has borrowed its name and
the names of its members from the list. `misuses` counts how often memory was used or freed
after it had been freed. -/
structure DataSetMemory where
  variableLists : ListName → Option Nat
  dataSets : Nat → Option Nat
  next : Nat
  misuses : Nat
  lt_next : ∀ name list, variableLists name = some list → list < next
  eq_of_list : ∀ name name' list, variableLists name = some list →
    variableLists name' = some list → name = name'

/-- A data set of the model, or one that was made of a named variable list. -/
inductive DataSetPointer
  | model
  | dynamic (address : Nat)
  deriving DecidableEq

/-- What the members of the data sets of the model and of the lists are at some time. -/
structure MemberValues where
  lookupDataSet : Option MmsValue.CString → Option (List MmsValue)
  valuesOf : Nat → List MmsValue

namespace DataSetMemory

/-- `MmsMapping_getDomainSpecificVariableList`: the reference is cut after 192 octets. -/
def getDomainSpecificVariableList (m : DataSetMemory) (reference : MmsValue.CString) :
    Option Nat :=
  let copy := reference.octets.take 192
  match copy.dropWhile (· ≠ 0x2f) with
  | [] => none
  | _ :: item => m.variableLists ⟨copy.takeWhile (· ≠ 0x2f), item⟩

/-- The data sets that are found by their names now. -/
def found (m : DataSetMemory) (v : MemberValues) : DataSets where
  lookupDataSet := v.lookupDataSet
  getDomainSpecificDataSet := fun name =>
    (name.bind m.getDomainSpecificVariableList).map v.valuesOf

/-- `createDataSetByNamedVariableList`, at the address `next`. -/
def createDataSet (m : DataSetMemory) (list : Nat) : DataSetMemory :=
  { m with
    dataSets := Function.update m.dataSets m.next (some list)
    next := m.next + 1
    lt_next := fun name list h => Nat.lt_succ_of_lt (m.lt_next name list h) }

def misuse (m : DataSetMemory) : DataSetMemory := { m with misuses := m.misuses + 1 }

/-- The data set is there. -/
def isLive (m : DataSetMemory) : DataSetPointer → Bool
  | .model => true
  | .dynamic address => (m.dataSets address).isSome

/-- `MmsMapping_freeDynamicallyCreatedDataSet` -/
def freeDataSet (m : DataSetMemory) : DataSetPointer → DataSetMemory
  | .model => m.misuse
  | .dynamic address =>
    if (m.dataSets address).isSome then
      { m with dataSets := Function.update m.dataSets address none }
    else m.misuse

/-- A client defines a list, under a name that is free. -/
def defineNamedVariableList (m : DataSetMemory) (name : ListName) : DataSetMemory :=
  if m.variableLists name = none then
    { m with
      variableLists := Function.update m.variableLists name (some m.next)
      next := m.next + 1
      lt_next := by
        intro name' list h
        by_cases hn : name' = name
        · rw [hn, Function.update_self] at h
          rw [← Option.some.inj h]
          exact Nat.lt_succ_self _
        · rw [Function.update_of_ne hn] at h
          exact Nat.lt_succ_of_lt (m.lt_next name' list h)
      eq_of_list := by
        intro name₁ name₂ list h₁ h₂
        have hother : ∀ name', name' ≠ name →
            Function.update m.variableLists name (some m.next) name' = some list →
            list ≠ m.next := by
          intro name' hn h
          rw [Function.update_of_ne hn] at h
          exact (m.lt_next name' list h).ne
        by_cases hn₁ : name₁ = name
        · by_cases hn₂ : name₂ = name
          · rw [hn₁, hn₂]
          · rw [hn₁, Function.update_self] at h₁
            exact absurd (Option.some.inj h₁).symm (hother name₂ hn₂ h₂)
        · by_cases hn₂ : name₂ = name
          · rw [hn₂, Function.update_self] at h₂
            exact absurd (Option.some.inj h₂).symm (hother name₁ hn₁ h₁)
          · rw [Function.update_of_ne hn₁] at h₁
            rw [Function.update_of_ne hn₂] at h₂
            exact m.eq_of_list name₁ name₂ list h₁ h₂ }
  else m

/-- A client deletes a list. The data sets made of it are not looked at. -/
def deleteNamedVariableList (m : DataSetMemory) (name : ListName) : DataSetMemory :=
  { m with
    variableLists := fun name' => if name' = name then none else m.variableLists name'
    lt_next := fun name' list h => m.lt_next name' list (Option.ite_none_left_eq_some.mp h).2
    eq_of_list := fun name₁ name₂ list h₁ h₂ =>
      m.eq_of_list name₁ name₂ list (Option.ite_none_left_eq_some.mp h₁).2
        (Option.ite_none_left_eq_some.mp h₂).2 }

/-- The data set is there, and the list that its names are borrowed from as well. -/
def Holds (m : DataSetMemory) (address : Nat) : Prop :=
  ∃ list name, m.dataSets address = some list ∧ m.variableLists name = some list

end DataSetMemory

/-- A block with the pointer to its data set and the memory this points into. -/
structure ReferringBlock where
  rc : ReportControl
  dataSet : Option DataSetPointer
  memory : DataSetMemory

namespace ReportControl

/-- The value that the handler calls `updateReportDataset` for, if it does: the element
`DatSet` as it is or as it is going to be. -/
def requestedDataSet (rc : ReportControl) (w : Write) : Option MmsValue :=
  if w.elementName = .rptEna then
    if w.boolean ∧ rc.enabled = false then some (rc.rcbValues .datSet) else none
  else if w.elementName = .datSet then
    if rc.enabled = false ∧ (rc.reserved = true → rc.clientConnection = some w.connection) ∧
        (rc.rcbValues .datSet).equals w.value = false then
      some w.value
    else none
  else none

end ReportControl

namespace ReferringBlock

/-- `deleteDataSetValuesShadowBuffer` asks the old data set for its size. -/
def deleteDataSetValuesShadowBuffer (s : ReferringBlock) (memory : DataSetMemory) :
    Exec DataSetMemory :=
  if s.rc.members.isSome then
    match s.dataSet with
    | none => .error .assertion
    | some dataSet => .ok (if memory.isLive dataSet then memory else memory.misuse)
  else .ok memory

/-- The old data set is freed before the new one is looked for. -/
def freeOldDataSet (s : ReferringBlock) : DataSetMemory :=
  if s.rc.isDynamicDataSet then s.dataSet.elim s.memory s.memory.freeDataSet else s.memory

/-- `updateReportDataset`, for what it does to the pointer and to the memory. -/
def updateReportDataset (s : ReferringBlock) (v : MemberValues) (dataSetValue : MmsValue) :
    Exec (Option DataSetPointer × DataSetMemory) :=
  match dataSetValue.toMmsString with
  | none => .error .nullPointer
  | some dataSetName =>
    if (v.lookupDataSet (some dataSetName)).isSome then do
      let memory ← s.deleteDataSetValuesShadowBuffer s.freeOldDataSet
      return (some .model, memory)
    else
      match s.memory.getDomainSpecificVariableList dataSetName with
      | none => .ok (s.dataSet, s.freeOldDataSet)
      | some list => do
        let memory ← s.deleteDataSetValuesShadowBuffer s.freeOldDataSet
        return (some (.dynamic memory.next), memory.createDataSet list)

/-- The pointer and the memory behind a call for the data set `requested`, or without one. -/
def referTo (s : ReferringBlock) (v : MemberValues) :
    Option MmsValue → Exec (Option DataSetPointer × DataSetMemory)
  | none => .ok (s.dataSet, s.memory)
  | some dataSetValue => s.updateReportDataset v dataSetValue

/-- `Reporting_RCBWriteAccessHandler` -/
def writeAccessHandler (s : ReferringBlock) (v : MemberValues) (w : Write) :
    Exec (ReferringBlock × MmsDataAccessError) := do
  let (dataSet, memory) ← s.referTo v (s.rc.requestedDataSet w)
  let (rc, result) ← s.rc.writeAccessHandler (s.memory.found v) w
  return (⟨rc, dataSet, memory⟩, result)

/-- `Reporting_activateBufferedReports` on one block. -/
def activateBufferedReports (s : ReferringBlock) (v : MemberValues) : Exec ReferringBlock := do
  let requested := if s.rc.buffered then some (s.rc.rcbValues .datSet) else none
  let (dataSet, memory) ← s.referTo v requested
  return ⟨s.rc.activateBufferedReports (s.memory.found v), dataSet, memory⟩

end ReferringBlock

def Event.IsWrite : Event → Prop
  | .writeAccessHandler _ _ => True
  | _ => False

/-- What happens to a block and to the lists: `serve` is an event that is not a write. -/
inductive Action
  | write (v : MemberValues) (w : Write)
  | activate (v : MemberValues)
  | serve (e : Event)
  | define (name : ListName)
  | delete (name : ListName)

namespace ReferringBlock

inductive Step (s : ReferringBlock) : Action → ReferringBlock → Prop
  | write {v : MemberValues} {w : Write} {t : ReferringBlock} {result : MmsDataAccessError} :
    s.writeAccessHandler v w = .ok (t, result) → Step s (.write v w) t
  | activate {v : MemberValues} {t : ReferringBlock} :
    s.activateBufferedReports v = .ok t → Step s (.activate v) t
  | serve {e : Event} {rc : ReportControl} {outputs : List Output} :
    ¬ e.IsWrite → s.rc.handle e = .ok (rc, outputs) → Step s (.serve e) { s with rc := rc }
  | define {name : ListName} :
    Step s (.define name) { s with memory := s.memory.defineNamedVariableList name }
  | delete {name : ListName} :
    Step s (.delete name) { s with memory := s.memory.deleteNamedVariableList name }

/-- A new block, before its reports are activated. -/
def start (memory : DataSetMemory) (buffered : Bool) (rcb : ReportControlBlock)
    (memoryBlockSize : Nat) (reportTime : UInt64) : ReferringBlock where
  rc := ReportControl.create buffered rcb memoryBlockSize reportTime
  dataSet := none
  memory := { memory with
    dataSets := fun _ => none
    misuses := 0 }

/-- Nothing that was freed was used, and the block refers to nothing that is freed. -/
structure Alive (s : ReferringBlock) : Prop where
  misuses : s.memory.misuses = 0
  dataSet : ∀ address, s.dataSet = some (.dynamic address) → s.memory.Holds address

/-- What the block asks for as its data set when the action happens. -/
def requested (s : ReferringBlock) : Action → Option MmsValue
  | .write _ w => s.rc.requestedDataSet w
  | .activate _ => if s.rc.buffered then some (s.rc.rcbValues .datSet) else none
  | _ => none

/-- A block with a data set that was made of a list does not look for another one, and the list
is not deleted. -/
structure Keeps (s : ReferringBlock) (a : Action) : Prop where
  requested : (s.requested a).isSome → s.rc.isDynamicDataSet = false
  delete : ∀ name address list, a = .delete name → s.dataSet = some (.dynamic address) →
    s.memory.dataSets address = some list → s.memory.variableLists name ≠ some list

/-- A refused write leaves everything as it was. -/
def RefusedIntact (s : ReferringBlock) (v : MemberValues) (w : Write) : Prop :=
  ∀ t result, s.writeAccessHandler v w = .ok (t, result) → result ≠ .success → t = s

/-- The old data set was made of a list and there is no data set of the requested name. -/
def FailsToFind (s : ReferringBlock) (v : MemberValues) (w : Write) : Prop :=
  s.rc.isDynamicDataSet = true ∧ s.dataSet.isSome ∧
    ∃ value name, s.rc.requestedDataSet w = some value ∧ value.toMmsString = some name ∧
      v.lookupDataSet (some name) = none ∧ s.memory.getDomainSpecificVariableList name = none

/-- The block is reserved as the write of `Resv` asks for. -/
def HasReservation (rc : ReportControl) (w : Write) : Prop :=
  w.boolean = rc.reserved ∧ (w.boolean = true → rc.clientConnection = some w.connection)

/-- The three ways in which a refused write changes something do not happen. -/
structure Harmless (s : ReferringBlock) (v : MemberValues) (w : Write) : Prop where
  dataSet : ¬ s.FailsToFind v w
  rptEna : w.elementName = .rptEna → w.boolean = false → s.rc.buffered = true →
    s.rc.reserved = true → s.rc.clientConnection ≠ some w.connection
  resv : w.elementName = .resv → s.rc.buffered = true → s.rc.enabled = false →
    (s.rc.reserved = true → s.rc.clientConnection = some w.connection) → HasReservation s.rc w

end ReferringBlock

namespace ReportControl

variable {rc rc' rc1 : ReportControl} {dataSets : DataSets} {w : Write}
  {result : MmsDataAccessError}

/-- The data set is neither another one nor gone. -/
structure SameDataSet (rc rc' : ReportControl) : Prop where
  dynamic : rc'.isDynamicDataSet = rc.isDynamicDataSet
  members : rc'.members.isSome = rc.members.isSome

namespace SameDataSet

theorem refl (rc : ReportControl) : SameDataSet rc rc := ⟨rfl, rfl⟩

theorem trans (h : SameDataSet rc rc1) (h' : SameDataSet rc1 rc') : SameDataSet rc rc' :=
  ⟨h'.dynamic.trans h.dynamic, h'.members.trans h.members⟩

theorem clearInclusionFlags (rc : ReportControl) : SameDataSet rc rc.clearInclusionFlags :=
  ⟨rfl, Option.isSome_map⟩

theorem afterReport (h : AfterReport rc rc') : SameDataSet rc rc' := by
  obtain ⟨values, sqNum, buffer, lastEntryId, -, rfl⟩ := h
  exact ⟨rfl, (clearInclusionFlags rc).members⟩

theorem generate {isIntegrity isGI : Bool} {now : UInt64} {outputs : List Output}
    (h : rc.generate isIntegrity isGI now = .ok (rc', outputs)) : SameDataSet rc rc' := by
  rcases generate_cases h with ⟨members, -, hafter, -⟩ | ⟨-, -, rfl, -⟩
  · exact afterReport hafter
  · exact refl _

theorem updateTimeOfEntry (rc : ReportControl) (currentTime : UInt64) :
    SameDataSet rc (rc.updateTimeOfEntry currentTime) := by
  unfold ReportControl.updateTimeOfEntry
  split <;> exact ⟨rfl, rfl⟩

theorem rule : ProcessRule fun rc _ rc' => SameDataSet rc rc' where
  refl := refl
  trans := fun _ _ _ _ _ => trans
  flush := by
    intro rc now rc' outputs h
    unfold ReportControl.flush at h
    split at h
    · obtain ⟨⟨rc1, outputs1⟩, h1, h⟩ := bind_ok h
      cases h
      exact (generate h1).trans ⟨rfl, rfl⟩
    · cases h
      exact refl _
  generate := fun _ _ _ _ _ _ _ => generate
  sendNextReportEntry := by
    intro rc rc' outputs _ _ h
    obtain ⟨values, sqNum, buffer, -, rfl, -⟩ := sendNextReportEntry_cases h
    exact ⟨rfl, rfl⟩
  updateTimeOfEntry := updateTimeOfEntry
  settle := fun _ _ => ⟨rfl, rfl⟩
  setNextTime := fun _ _ => ⟨rfl, rfl⟩

theorem disable (rc : ReportControl) : SameDataSet rc rc.disable := by
  unfold ReportControl.disable
  split
  · exact ⟨rfl, rfl⟩
  · exact ⟨rfl, (clearInclusionFlags rc).members⟩

theorem purgeIfBuffered (rc : ReportControl) : SameDataSet rc rc.purgeIfBuffered := by
  unfold ReportControl.purgeIfBuffered
  split <;> exact ⟨rfl, rfl⟩

theorem deactivate (rc : ReportControl) (connection : Connection) :
    SameDataSet rc (rc.deactivateReportsForConnection connection) := by
  unfold deactivateReportsForConnection
  dsimp only
  split
  · split <;> exact ⟨rfl, rfl⟩
  · exact refl rc

theorem valueUpdated {index : Nat} {flag : ReportInclusionFlag} {now hal : Nat → UInt64}
    {outputs : List Output} (h : rc.valueUpdated index flag now hal = .ok (rc', outputs)) :
    SameDataSet rc rc' := by
  unfold ReportControl.valueUpdated at h
  split at h
  · cases h
  case h_2 member hm =>
    obtain ⟨⟨rc1, outputs1⟩, h1, h⟩ := bind_ok h
    cases h
    have hby : SameDataSet rc rc1 := by
      unfold bypassBufferTime at h1
      split at h1
      · have hset : SameDataSet rc { rc with reportTime := now 0 } := ⟨rfl, rfl⟩
        exact hset.trans (rule.processEventsForReport h1)
      · cases h1
        exact refl _
    have hinc : SameDataSet rc1 (rc1.setInclusionFlag index flag) := ⟨rfl, Option.isSome_map⟩
    have hstart : SameDataSet (rc1.setInclusionFlag index flag)
        ((rc1.setInclusionFlag index flag).startBufferTime (now 1)) := by
      unfold startBufferTime
      split
      · exact refl _
      · exact (updateTimeOfEntry _ _).trans ⟨rfl, rfl⟩
    exact ((hby.trans hinc).trans hstart).trans ⟨rfl, rfl⟩

/-- Only a write or the activation changes the data set. -/
theorem handle {e : Event} {outputs : List Output} (hw : ¬ e.IsWrite)
    (h : rc.handle e = .ok (rc', outputs)) : SameDataSet rc rc' := by
  cases e with
  | writeAccessHandler dataSets w => exact absurd trivial hw
  | deactivateReportsForConnection connection =>
    cases h
    exact deactivate rc connection
  | triggerReportObservers index flag now hal =>
    simp only [ReportControl.handle, triggerReportObservers] at h
    split at h
    · cases index with
      | some index => exact valueUpdated h
      | none =>
        cases h
        exact refl rc
    · cases h
      exact refl rc
  | processEventsForReport currentTime hal => exact rule.processEventsForReport h
  | setMemberValue index value =>
    cases h
    exact ⟨rfl, Option.isSome_map⟩

theorem enable (rc : ReportControl) (w : Write) : SameDataSet rc (rc.enable w) := ⟨rfl, rfl⟩

end SameDataSet

theorem requestedDataSet_of_changes (hn : w.elementName = .datSet) (hen : rc.enabled = false)
    (hfree : rc.reserved = true → rc.clientConnection = some w.connection)
    (hne : (rc.rcbValues .datSet).equals w.value = false) :
    rc.requestedDataSet w = some w.value := by
  have hne' : w.elementName ≠ .rptEna := by
    rw [hn]
    decide
  rw [requestedDataSet, if_neg hne', if_pos hn, if_pos ⟨hen, hfree, hne⟩]

theorem requestedDataSet_of_switchesOn (h : SwitchesOn rc dataSets w) :
    rc.requestedDataSet w = some (rc.rcbValues .datSet) := by
  rw [requestedDataSet, if_pos h.1, if_pos ⟨h.2.1, h.2.2.1⟩]

/-- A write that does not ask for a data set keeps the one there is. -/
theorem sameDataSet_of_not_requested (hr : rc.requestedDataSet w = none)
    (h : rc.writeAccessHandler dataSets w = .ok (rc', result)) : SameDataSet rc rc' := by
  have hwritten : ∀ rc0, rc0.requestedDataSet w = none → Written dataSets rc0 w rc' →
      SameDataSet rc0 rc' := by
    intro rc0 hr0 hw
    cases hw with
    | same => exact .refl _
    | reserved => exact ⟨rfl, rfl⟩
    | dataSet rc1 values hn hen hfree hne =>
      rw [requestedDataSet_of_changes hn hen hfree hne] at hr0
      cases hr0
    | settings => exact ⟨rfl, rfl⟩
  rcases writeAccessHandler_cases h with
    rfl | ⟨rc1, hon, -, -⟩ | ⟨hn, hb, -, hw⟩ | rfl | ⟨-, hw⟩
  · exact .refl _
  · rw [requestedDataSet_of_switchesOn hon] at hr
    cases hr
  · refine (SameDataSet.disable rc).trans (hwritten _ ?_ hw)
    rw [requestedDataSet, if_pos hn, hb, if_neg (fun hc => Bool.false_ne_true hc.1)]
  · exact ⟨rfl, rfl⟩
  · exact hwritten rc hr hw

/-- A write that asks for a data set is refused if there is none of that name, and only then. -/
theorem writeAccessHandler_requested (dataSets : DataSets) {value : MmsValue}
    (hr : rc.requestedDataSet w = some value) :
    ∃ (refusal : MmsDataAccessError) (f : ReportControl → ReportControl),
      refusal ≠ .success ∧ (∀ rc1, SameDataSet rc1 (f rc1)) ∧
      rc.writeAccessHandler dataSets w =
        (updateReportDataset dataSets rc (some value)).elim (.ok (rc, refusal))
          fun rc1 => .ok (f rc1, .success) := by
  unfold requestedDataSet at hr
  split at hr
  case isTrue hn =>
    obtain ⟨⟨hb, hen⟩, hr⟩ := Option.ite_none_right_eq_some.mp hr
    cases hr
    refine ⟨.objectAttributeInconsistent, (·.enable w), MmsDataAccessError.noConfusion,
      fun rc1 => .enable rc1 w, ?_⟩
    rw [writeAccessHandler_rptEna_true hn hb, if_neg (by rw [hen]; exact Bool.false_ne_true)]
    rfl
  case isFalse hn =>
    obtain ⟨hn', hr⟩ := Option.ite_none_right_eq_some.mp hr
    obtain ⟨⟨hen, hfree, hne⟩, hr⟩ := Option.ite_none_right_eq_some.mp hr
    cases hr
    have hgi : w.elementName ≠ .gi := by
      rw [hn']
      decide
    have hfree' : ¬ (rc.reserved = true ∧ rc.clientConnection ≠ some w.connection) :=
      fun hc => hc.2 (hfree hc.1)
    refine ⟨.objectValueInvalid, fun rc1 =>
        (rc1.purgeIfBuffered.setRCBValue .datSet (·.updated w.value)).increaseConfRev,
      MmsDataAccessError.noConfusion,
      fun rc1 => (SameDataSet.purgeIfBuffered rc1).trans ⟨rfl, rfl⟩, ?_⟩
    rw [writeAccessHandler, if_neg hn, if_neg hgi, writeElement,
      if_neg (by rw [hen]; exact Bool.false_ne_true), if_neg hfree', hn']
    dsimp only
    rw [if_neg (by rw [hne]; exact Bool.false_ne_true)]
    cases updateReportDataset dataSets rc (some w.value) with
    | none => rfl
    | some rc1 => rfl

/-- What a write of `Resv` leaves in a buffered block. -/
def reservedBy (rc : ReportControl) (w : Write) : ReportControl :=
  { rc with
    reserved := w.boolean
    clientConnection := if w.boolean then some w.connection else rc.clientConnection }

/-- A block that is not enabled and that nobody else has reserved. -/
def IsFreeFor (rc : ReportControl) (w : Write) : Prop :=
  rc.enabled = false ∧ (rc.reserved = true → rc.clientConnection = some w.connection)

theorem updateElement_refused (h : rc.updateElement w = (rc', result)) (hne : result ≠ .success) :
    rc' = rc := by
  unfold updateElement at h
  split at h
  · cases h
    exact absurd rfl hne
  · cases h
    rfl

theorem updateParameter_success (rc : ReportControl) (refresh : ReportControl → ReportControl)
    (w : Write) : (rc.updateParameter refresh w).2 = .success := by
  unfold updateParameter
  split <;> rfl

theorem writeElement_resv (hn : w.elementName = .resv) (hb : rc.buffered = true)
    (hfree : rc.IsFreeFor w) :
    writeElement dataSets rc w = .ok (rc.reservedBy w, .objectValueInvalid) := by
  have hfree' : ¬ (rc.reserved = true ∧ rc.clientConnection ≠ some w.connection) :=
    fun hc => hc.2 (hfree.2 hc.1)
  have hel : hasElement rc.buffered w.elementName = false := by
    rw [hb, hn]
    rfl
  rw [writeElement, if_neg (by rw [hfree.1]; exact Bool.false_ne_true), if_neg hfree', hn]
  dsimp only
  rw [updateElement, if_neg (by rw [hel]; exact Bool.false_ne_true)]
  rfl

/-- A refused write of an element changes at most the reservation of a buffered block. -/
theorem writeElement_refusal (h : writeElement dataSets rc w = .ok (rc', result))
    (hne : result ≠ .success) :
    rc' = rc ∨ (w.elementName = .resv ∧ rc.buffered = true ∧ rc.IsFreeFor w ∧
      rc' = rc.reservedBy w) := by
  have hupdate : ∀ rc0, (Except.ok (updateElement rc0 w) : Exec _) = .ok (rc', result) →
      rc' = rc0 := fun rc0 h => updateElement_refused (Except.ok.inj h) hne
  have hparameter : ∀ refresh, (Except.ok (rc.updateParameter refresh w) : Exec _) =
      .ok (rc', result) → rc' = rc := by
    intro refresh h
    refine absurd ?_ hne
    rw [← updateParameter_success rc refresh w, Except.ok.inj h]
  by_cases hen : rc.enabled = true
  · rw [writeElement, if_pos hen] at h
    cases h
    exact .inl rfl
  by_cases hother : rc.reserved = true ∧ rc.clientConnection ≠ some w.connection
  · rw [writeElement, if_neg hen, if_pos hother] at h
    cases h
    exact .inl rfl
  have hfree : rc.IsFreeFor w := by
    refine ⟨eq_false_of_ne_true hen, fun hr => ?_⟩
    by_contra hc
    exact hother ⟨hr, hc⟩
  rw [writeElement, if_neg hen, if_neg hother] at h
  split at h
  case h_1 hn =>
    have hrc := hupdate (rc.reservedBy w) h
    by_cases hb : rc.buffered = true
    · exact .inr ⟨hn, hb, hfree, hrc⟩
    · have hel : hasElement rc.buffered w.elementName = true := by
        rw [eq_false_of_ne_true hb, hn]
        rfl
      have hs : (updateElement (rc.reservedBy w) w).2 = .success := by
        rw [updateElement]
        exact congrArg Prod.snd (if_pos hel)
      refine absurd ?_ hne
      rw [← hs]
      exact (congrArg Prod.snd (Except.ok.inj h)).symm
  case h_2 =>
    split at h
    · cases h
      exact absurd rfl hne
    · exact .inl (hupdate rc h)
  case h_3 =>
    split at h
    · cases h
      exact .inl rfl
    · split at h
      · cases h
        exact absurd rfl hne
      · cases h
        exact .inl rfl
  case h_4 => exact .inl (hparameter _ h)
  case h_5 => exact .inl (hparameter _ h)
  case h_6 => exact .inl (hparameter _ h)
  case h_7 =>
    split at h
    · split at h
      · cases h
        exact .inl rfl
      · obtain ⟨⟨rc1, found⟩, hf, h⟩ := bind_ok h
        cases found with
        | true => cases h
        | false =>
          cases h
          exact .inl (checkReportBufferForEntryID_cases hf)
    · cases h
      exact .inl rfl
  case h_8 =>
    cases h
    exact .inl rfl
  case h_9 => exact .inl (hupdate rc h)

/-- The reservation of a buffered block outlives the client that goes with `RptEna`. -/
theorem writeAccessHandler_reserved (hn : w.elementName = .rptEna) (hw : w.boolean = false)
    (hb : rc.buffered = true) (hr : rc.reserved = true)
    (hc : rc.clientConnection = some w.connection) :
    writeAccessHandler dataSets rc w = .ok (rc.disable, .temporarilyUnavailable) := by
  have hd : rc.disable.enabled = false ∧ rc.disable.reserved = true ∧
      rc.disable.clientConnection = none := by
    refine ⟨rfl, ?_, rfl⟩
    rw [disable, hb]
    exact hr
  have hother : rc.disable.reserved = true ∧
      rc.disable.clientConnection ≠ some w.connection := by
    rw [hd.2.2]
    exact ⟨hd.2.1, (Option.some_ne_none _).symm⟩
  rw [writeAccessHandler_rptEna_false hn hw, if_neg (fun h => h.2 hc), writeElement,
    if_neg (by rw [hd.1]; exact Bool.false_ne_true), if_pos hother]

/-- What a refused write leaves behind. -/
theorem writeAccessHandler_refusal (h : writeAccessHandler dataSets rc w = .ok (rc', result))
    (hne : result ≠ .success) :
    rc' = rc ∨
    (w.elementName = .rptEna ∧ w.boolean = false ∧ rc.buffered = true ∧ rc.reserved = true ∧
      rc.clientConnection = some w.connection) ∨
    (w.elementName = .resv ∧ rc.buffered = true ∧ rc.IsFreeFor w ∧ rc' = rc.reservedBy w) := by
  by_cases hn : w.elementName = .rptEna
  · rcases Bool.eq_false_or_eq_true w.boolean with hw | hw
    · rw [writeAccessHandler_rptEna_true hn hw] at h
      split at h
      · cases h
        exact .inl rfl
      · cases hd : updateReportDataset dataSets rc none with
        | none =>
          rw [hd] at h
          cases h
          exact .inl rfl
        | some rc1 =>
          rw [hd] at h
          cases h
          exact absurd rfl hne
    · rw [writeAccessHandler_rptEna_false hn hw] at h
      split at h
      · cases h
        exact .inl rfl
      case isFalse hown =>
        by_cases hr : rc.buffered = true ∧ rc.reserved = true
        · refine .inr (.inl ⟨hn, hw, hr.1, hr.2, ?_⟩)
          by_contra hc
          exact hown ⟨.inr hr.2, hc⟩
        · have hd : rc.disable.enabled = false ∧ rc.disable.reserved = false := by
            refine ⟨rfl, ?_⟩
            unfold disable
            by_cases hb : rc.buffered = true
            · rw [if_pos hb]
              exact eq_false_of_ne_true fun hres => hr ⟨hb, hres⟩
            · rw [if_neg hb]
              rfl
          have hfree : ¬ (rc.disable.reserved = true ∧
              rc.disable.clientConnection ≠ some w.connection) := by
            rw [hd.2]
            exact fun hc => Bool.false_ne_true hc.1
          rw [writeElement, if_neg (by rw [hd.1]; exact Bool.false_ne_true), if_neg hfree, hn] at h
          have hs : (updateElement rc.disable w).2 = .success := by
            rw [updateElement, hn]
            rfl
          refine absurd ?_ hne
          rw [← hs]
          exact (congrArg Prod.snd (Except.ok.inj h)).symm
  · rw [writeAccessHandler, if_neg hn] at h
    split at h
    · split at h
      · cases h
        exact absurd rfl hne
      · cases h
        exact .inl rfl
    · exact (writeElement_refusal h hne).imp_right .inr

end ReportControl

namespace DataSetMemory

variable {m : DataSetMemory} {v : MemberValues} {rc : ReportControl}

theorem found_none_iff {value : MmsValue} {name : MmsValue.CString}
    (hname : value.toMmsString = some name) :
    ReportControl.updateReportDataset (m.found v) rc (some value) = none ↔
      v.lookupDataSet (some name) = none ∧ m.getDomainSpecificVariableList name = none := by
  rw [ReportControl.updateReportDataset]
  dsimp only [found, Option.getD_some]
  rw [hname]
  cases v.lookupDataSet (some name) with
  | some values => simp
  | none =>
    dsimp only [Option.bind_some]
    cases m.getDomainSpecificVariableList name with
    | some list => simp
    | none => simp

/-- A list that is found by a reference is one of the lists. -/
theorem variableList_of_reference {reference : MmsValue.CString} {list : Nat}
    (h : m.getDomainSpecificVariableList reference = some list) :
    ∃ name, m.variableLists name = some list := by
  unfold getDomainSpecificVariableList at h
  dsimp only at h
  split at h
  · cases h
  · exact ⟨_, h⟩

theorem freeDataSet_ne (p : DataSetPointer) : m.freeDataSet p ≠ m := by
  cases p with
  | model => exact fun h => Nat.succ_ne_self _ (congrArg misuses h)
  | dynamic address =>
    unfold freeDataSet
    dsimp only
    split
    case isTrue hlive =>
      intro h
      have hgone := congrFun (congrArg dataSets h) address
      dsimp only at hgone
      rw [Function.update_self] at hgone
      rw [← hgone] at hlive
      cases hlive
    case isFalse => exact fun h => Nat.succ_ne_self _ (congrArg misuses h)

end DataSetMemory

namespace ReferringBlock

variable {s t : ReferringBlock} {v : MemberValues} {w : Write} {result : MmsDataAccessError}

theorem freeOldDataSet_of_static (h : s.rc.isDynamicDataSet = false) :
    s.freeOldDataSet = s.memory := by
  rw [freeOldDataSet, if_neg (by rw [h]; exact Bool.false_ne_true)]

/-- Nothing is freed if and only if there is nothing to free. -/
theorem freeOldDataSet_eq_iff :
    s.freeOldDataSet = s.memory ↔ ¬ (s.rc.isDynamicDataSet = true ∧ s.dataSet.isSome) := by
  unfold freeOldDataSet
  split
  case isTrue hd =>
    cases s.dataSet with
    | none => simp
    | some p =>
      exact ⟨fun h => absurd h (DataSetMemory.freeDataSet_ne p), fun h => absurd ⟨hd, rfl⟩ h⟩
  case isFalse hd => exact ⟨fun _ h => hd h.1, fun _ => rfl⟩

theorem writeAccessHandler_ok (h : s.writeAccessHandler v w = .ok (t, result)) :
    s.referTo v (s.rc.requestedDataSet w) = .ok (t.dataSet, t.memory) ∧
      s.rc.writeAccessHandler (s.memory.found v) w = .ok (t.rc, result) := by
  obtain ⟨⟨dataSet, memory⟩, hp, h⟩ := bind_ok h
  obtain ⟨⟨rc, result'⟩, hw, h⟩ := bind_ok h
  cases h
  exact ⟨hp, hw⟩

theorem activateBufferedReports_ok (h : s.activateBufferedReports v = .ok t) :
    s.referTo v (s.requested (.activate v)) = .ok (t.dataSet, t.memory) ∧
      t.rc = s.rc.activateBufferedReports (s.memory.found v) := by
  obtain ⟨⟨dataSet, memory⟩, hp, h⟩ := bind_ok h
  cases h
  exact ⟨hp, rfl⟩

theorem writeAccessHandler_eq {dataSet : Option DataSetPointer} {memory : DataSetMemory}
    {rc : ReportControl} (hp : s.referTo v (s.rc.requestedDataSet w) = .ok (dataSet, memory))
    (hw : s.rc.writeAccessHandler (s.memory.found v) w = .ok (rc, result)) :
    s.writeAccessHandler v w = .ok (⟨rc, dataSet, memory⟩, result) := by
  rw [writeAccessHandler, hp]
  change (s.rc.writeAccessHandler (s.memory.found v) w >>= _) = _
  rw [hw]
  rfl

theorem referTo_notFound {value : MmsValue} {name : MmsValue.CString}
    (hname : value.toMmsString = some name) (hl : v.lookupDataSet (some name) = none)
    (hg : s.memory.getDomainSpecificVariableList name = none) :
    s.referTo v (some value) = .ok (s.dataSet, s.freeOldDataSet) := by
  rw [referTo, updateReportDataset, hname]
  dsimp only
  rw [hl, hg]
  rfl

/-- What `updateReportDataset` does to the pointer and to the memory. -/
theorem updateReportDataset_cases {value : MmsValue} {dataSet : Option DataSetPointer}
    {memory : DataSetMemory} (h : s.updateReportDataset v value = .ok (dataSet, memory)) :
    ∃ name, value.toMmsString = some name ∧
      ((v.lookupDataSet (some name) = none ∧
          s.memory.getDomainSpecificVariableList name = none ∧
          dataSet = s.dataSet ∧ memory = s.freeOldDataSet) ∨
        ∃ memory', s.deleteDataSetValuesShadowBuffer s.freeOldDataSet = .ok memory' ∧
          (((v.lookupDataSet (some name)).isSome ∧ dataSet = some .model ∧ memory = memory') ∨
            ∃ list, v.lookupDataSet (some name) = none ∧
              s.memory.getDomainSpecificVariableList name = some list ∧
              dataSet = some (.dynamic memory'.next) ∧ memory = memory'.createDataSet list)) := by
  unfold updateReportDataset at h
  split at h
  · cases h
  case h_2 name hname =>
    refine ⟨name, hname, ?_⟩
    split at h
    case isTrue hl =>
      obtain ⟨memory', hm, h⟩ := bind_ok h
      cases h
      exact .inr ⟨_, hm, .inl ⟨hl, rfl, rfl⟩⟩
    case isFalse hl =>
      have hl' := Option.not_isSome_iff_eq_none.mp hl
      split at h
      case h_1 hg =>
        cases h
        exact .inl ⟨hl', hg, rfl, rfl⟩
      case h_2 list hg =>
        obtain ⟨memory', hm, h⟩ := bind_ok h
        cases h
        exact .inr ⟨_, hm, .inr ⟨list, hl', hg, rfl, rfl⟩⟩

/-- A refused write leaves everything as it was if and only if it is not one of three. -/
theorem refusedIntact_iff : s.RefusedIntact v w ↔ s.Harmless v w := by
  constructor
  · intro h
    refine ⟨?_, ?_, ?_⟩
    · rintro ⟨hd, hs, value, name, hr, hname, hl, hg⟩
      obtain ⟨refusal, f, hne, -, hw⟩ :=
        ReportControl.writeAccessHandler_requested (s.memory.found v) hr
      rw [(DataSetMemory.found_none_iff hname).mpr ⟨hl, hg⟩] at hw
      have hp := referTo_notFound hname hl hg
      rw [← hr] at hp
      have heq := h _ _ (writeAccessHandler_eq hp hw) hne
      exact freeOldDataSet_eq_iff.mp (congrArg memory heq) ⟨hd, hs⟩
    · intro hn hw hb hr hc
      have hreq : s.rc.requestedDataSet w = none := by
        rw [requestedDataSet, if_pos hn, hw, if_neg (fun hc => Bool.false_ne_true hc.1)]
      have hp : s.referTo v (s.rc.requestedDataSet w) = .ok (s.dataSet, s.memory) := by
        rw [hreq]
        rfl
      have heq := h _ _ (writeAccessHandler_eq hp (writeAccessHandler_reserved hn hw hb hr hc))
        MmsDataAccessError.noConfusion
      have hnone : s.rc.disable.clientConnection = s.rc.clientConnection :=
        congrArg (·.rc.clientConnection) heq
      rw [hc] at hnone
      cases hnone
    · intro hn hb hen hown
      have hreq : s.rc.requestedDataSet w = none := by
        rw [requestedDataSet, hn]
        rfl
      have hp : s.referTo v (s.rc.requestedDataSet w) = .ok (s.dataSet, s.memory) := by
        rw [hreq]
        rfl
      have hw : s.rc.writeAccessHandler (s.memory.found v) w =
          .ok (s.rc.reservedBy w, .objectValueInvalid) := by
        have hrpt : w.elementName ≠ .rptEna := by
          rw [hn]
          decide
        have hgi : w.elementName ≠ .gi := by
          rw [hn]
          decide
        rw [ReportControl.writeAccessHandler, if_neg hrpt, if_neg hgi,
          writeElement_resv hn hb ⟨hen, hown⟩]
      have heq := h _ _ (writeAccessHandler_eq hp hw) MmsDataAccessError.noConfusion
      have hres : w.boolean = s.rc.reserved := congrArg (·.rc.reserved) heq
      have hcon : (s.rc.reservedBy w).clientConnection = s.rc.clientConnection :=
        congrArg (·.rc.clientConnection) heq
      refine ⟨hres, fun hbool => ?_⟩
      rw [← hcon]
      exact if_pos hbool
  · intro h t result hw hne
    obtain ⟨hp, hrc⟩ := writeAccessHandler_ok hw
    have hsame : t.rc = s.rc := by
      rcases writeAccessHandler_refusal hrc hne with
        hrc | ⟨hn, hb, hbuf, hres, hc⟩ | ⟨hn, hbuf, hfree, hrc⟩
      · exact hrc
      · exact absurd hc (h.rptEna hn hb hbuf hres)
      · obtain ⟨hres, hcon⟩ := h.resv hn hbuf hfree.1 hfree.2
        have hcon' : (if w.boolean then some w.connection else s.rc.clientConnection) =
            s.rc.clientConnection := by
          split
          case isTrue hb => exact (hcon hb).symm
          case isFalse => rfl
        rw [hrc, reservedBy, hcon', hres]
    have hpointer : t.dataSet = s.dataSet ∧ t.memory = s.memory := by
      cases hr : s.rc.requestedDataSet w with
      | none =>
        rw [hr] at hp
        have heq := Except.ok.inj hp
        exact ⟨(congrArg Prod.fst heq).symm, (congrArg Prod.snd heq).symm⟩
      | some value =>
        rw [hr] at hp
        obtain ⟨refusal, f, -, -, heq⟩ :=
          ReportControl.writeAccessHandler_requested (s.memory.found v) hr
        rw [heq] at hrc
        obtain ⟨name, hname, ⟨hl, hg, hdataSet, hmemory⟩ | ⟨memory', -, hfound⟩⟩ :=
          updateReportDataset_cases hp
        · refine ⟨hdataSet, hmemory.trans (freeOldDataSet_eq_iff.mpr fun hold => ?_)⟩
          exact h.dataSet ⟨hold.1, hold.2, value, name, hr, hname, hl, hg⟩
        · cases hd : ReportControl.updateReportDataset (s.memory.found v) s.rc (some value) with
          | none =>
            obtain ⟨hl, hg⟩ := (DataSetMemory.found_none_iff hname).mp hd
            rcases hfound with ⟨hl', -, -⟩ | ⟨list, -, hg', -, -⟩
            · rw [hl] at hl'
              cases hl'
            · rw [hg] at hg'
              cases hg'
          | some rc1 =>
            rw [hd] at hrc
            exact absurd (congrArg Prod.snd (Except.ok.inj hrc)).symm hne
    obtain ⟨rc, dataSet, memory⟩ := t
    obtain ⟨hdataSet, hmemory⟩ := hpointer
    dsimp only at hsame hdataSet hmemory
    rw [hsame, hdataSet, hmemory]

/-- The block behind a call for the data set `requested`, or without one. -/
def TakesOver (dataSets : DataSets) (rc : ReportControl) : Option MmsValue → ReportControl → Prop
  | none, rc' => SameDataSet rc rc'
  | some value, rc' =>
    SameDataSet ((ReportControl.updateReportDataset dataSets rc (some value)).getD rc) rc'

theorem takesOver_writeAccessHandler {dataSets : DataSets} {rc rc' : ReportControl}
    (h : rc.writeAccessHandler dataSets w = .ok (rc', result)) :
    TakesOver dataSets rc (rc.requestedDataSet w) rc' := by
  cases hr : rc.requestedDataSet w with
  | none => exact sameDataSet_of_not_requested hr h
  | some value =>
    obtain ⟨refusal, f, -, hf, heq⟩ := ReportControl.writeAccessHandler_requested dataSets hr
    rw [heq] at h
    rw [TakesOver]
    cases hd : ReportControl.updateReportDataset dataSets rc (some value) with
    | none =>
      rw [hd] at h
      cases h
      exact .refl _
    | some rc1 =>
      rw [hd] at h
      cases h
      exact hf rc1

theorem takesOver_activateBufferedReports (dataSets : DataSets) (rc : ReportControl) :
    TakesOver dataSets rc (if rc.buffered then some (rc.rcbValues .datSet) else none)
      (rc.activateBufferedReports dataSets) := by
  unfold ReportControl.activateBufferedReports
  split
  case isTrue =>
    change SameDataSet ((ReportControl.updateReportDataset dataSets rc none).getD rc) _
    cases ReportControl.updateReportDataset dataSets rc none with
    | none => exact ⟨rfl, rfl⟩
    | some rc1 => exact ⟨rfl, rfl⟩
  case isFalse => exact .refl rc

/-- The block knows what kind of data set it refers to, and has its members. -/
structure Refers (s : ReferringBlock) : Prop where
  alive : s.Alive
  dynamic : s.rc.isDynamicDataSet = true → ∃ address, s.dataSet = some (.dynamic address)
  members : s.dataSet.isSome → s.rc.members.isSome

section

variable {dataSet : Option DataSetPointer} {memory memory' : DataSetMemory} {rc : ReportControl}
  {requested : Option MmsValue}

theorem Alive.isLive (h : s.Alive) {p : DataSetPointer} (hp : s.dataSet = some p) :
    s.memory.isLive p = true := by
  cases p with
  | model => rfl
  | dynamic address =>
    obtain ⟨list, name, hlist, -⟩ := h.dataSet address hp
    exact Option.isSome_of_eq_some hlist

/-- The size of a data set that is there may be asked for. -/
theorem Alive.deleteShadow (h : s.Alive)
    (hm : s.deleteDataSetValuesShadowBuffer s.memory = .ok memory') : memory' = s.memory := by
  unfold deleteDataSetValuesShadowBuffer at hm
  split at hm
  · split at hm
    · cases hm
    case h_2 p hp =>
      rw [if_pos (h.isLive hp)] at hm
      exact (Except.ok.inj hm).symm
  · exact (Except.ok.inj hm).symm

/-- A data set that was made just now is there, and the list it was made of as well. -/
theorem holds_createDataSet {m : DataSetMemory} {name : ListName} {list : Nat}
    (h : m.variableLists name = some list) : (m.createDataSet list).Holds m.next :=
  ⟨list, name, Function.update_self _ _ _, h⟩

/-- A block whose data set is not freed refers to a data set that is there afterwards. -/
theorem Alive.refer (h : s.Alive)
    (hk : requested.isSome → s.rc.isDynamicDataSet = false)
    (hp : s.referTo v requested = .ok (dataSet, memory)) :
    (ReferringBlock.mk rc dataSet memory).Alive := by
  cases requested with
  | none =>
    cases hp
    exact ⟨h.misuses, h.dataSet⟩
  | some value =>
    have hfree := freeOldDataSet_of_static (hk rfl)
    obtain ⟨name, hname, ⟨-, -, rfl, rfl⟩ | ⟨memory', hm, hfound⟩⟩ := updateReportDataset_cases hp
    · rw [hfree]
      exact ⟨h.misuses, h.dataSet⟩
    · rw [hfree] at hm
      obtain rfl := h.deleteShadow hm
      obtain ⟨-, rfl, rfl⟩ | ⟨list, -, hg, rfl, rfl⟩ := hfound
      · exact ⟨h.misuses, fun address hp => nomatch hp⟩
      · obtain ⟨name', hname'⟩ := DataSetMemory.variableList_of_reference hg
        refine ⟨h.misuses, fun address hp => ?_⟩
        cases hp
        exact holds_createDataSet hname'

/-- A block whose data set is freed refers to nothing any more, or has asked what is freed. -/
theorem Refers.not_alive (h : s.Refers) (hr : requested.isSome)
    (hd : s.rc.isDynamicDataSet = true) (hp : s.referTo v requested = .ok (dataSet, memory)) :
    ¬ (ReferringBlock.mk rc dataSet memory).Alive := by
  obtain ⟨address, hs⟩ := h.dynamic hd
  have hlive := h.alive.isLive hs
  have hfree : s.freeOldDataSet =
      { s.memory with dataSets := Function.update s.memory.dataSets address none } := by
    rw [freeOldDataSet, if_pos hd, hs]
    exact if_pos hlive
  have hgone : s.freeOldDataSet.isLive (.dynamic address) = false := by
    rw [hfree]
    change (Function.update s.memory.dataSets address none address).isSome = false
    rw [Function.update_self]
    rfl
  intro halive
  obtain ⟨value, rfl⟩ := Option.isSome_iff_exists.mp hr
  obtain ⟨name, hname, ⟨-, -, rfl, rfl⟩ | ⟨memory', hm, hfound⟩⟩ := updateReportDataset_cases hp
  · have := halive.isLive hs
    rw [hgone] at this
    cases this
  · have hused : memory' = s.freeOldDataSet.misuse := by
      rw [deleteDataSetValuesShadowBuffer, if_pos (h.members (by rw [hs]; rfl)), hs] at hm
      dsimp only at hm
      rw [if_neg (by rw [hgone]; exact Bool.false_ne_true)] at hm
      exact (Except.ok.inj hm).symm
    have hmisuses : memory.misuses = s.freeOldDataSet.misuses + 1 := by
      obtain ⟨-, -, rfl⟩ | ⟨list, -, -, -, rfl⟩ := hfound <;> rw [hused] <;> rfl
    exact Nat.succ_ne_zero _ (hmisuses.symm.trans halive.misuses)

/-- The block goes on knowing what it refers to. -/
theorem Refers.refer (h : s.Refers) (hp : s.referTo v requested = .ok (dataSet, memory))
    (ht : TakesOver (s.memory.found v) s.rc requested rc)
    (halive : (ReferringBlock.mk rc dataSet memory).Alive) :
    (ReferringBlock.mk rc dataSet memory).Refers := by
  cases requested with
  | none =>
    cases hp
    refine ⟨halive, fun hd => h.dynamic (ht.dynamic.symm.trans hd), fun hs => ?_⟩
    exact ht.members.trans (h.members hs)
  | some value =>
    obtain ⟨name, hname, hcases⟩ := updateReportDataset_cases hp
    rw [TakesOver, ReportControl.updateReportDataset] at ht
    dsimp only [DataSetMemory.found, Option.getD_some] at ht
    rw [hname] at ht
    obtain ⟨hl, hg, rfl, rfl⟩ | ⟨memory', -, hfound⟩ := hcases
    · rw [hl, Option.bind_some, hg] at ht
      refine ⟨halive, fun hd => h.dynamic (ht.dynamic.symm.trans hd), fun hs => ?_⟩
      exact ht.members.trans (h.members hs)
    · obtain ⟨hl, rfl, rfl⟩ | ⟨list, hl, hg, rfl, rfl⟩ := hfound
      · obtain ⟨values, hl⟩ := Option.isSome_iff_exists.mp hl
        rw [hl] at ht
        exact ⟨halive, fun hd => Bool.noConfusion (ht.dynamic.symm.trans hd), fun _ => ht.members⟩
      · rw [hl, Option.bind_some, hg] at ht
        exact ⟨halive, fun _ => ⟨_, rfl⟩, fun _ => ht.members⟩

/-- A new list takes nothing away. -/
theorem holds_define {m : DataSetMemory} {address : Nat} (name : ListName)
    (h : m.Holds address) : (m.defineNamedVariableList name).Holds address := by
  obtain ⟨list, name', hlist, hname'⟩ := h
  unfold DataSetMemory.defineNamedVariableList
  split
  case isTrue hfree =>
    refine ⟨list, name', hlist, ?_⟩
    have hne : name' ≠ name := by
      rintro rfl
      rw [hfree] at hname'
      cases hname'
    exact (Function.update_of_ne hne _ _).trans hname'
  case isFalse => exact ⟨list, name', hlist, hname'⟩

/-- After a deletion the names are there if and only if they are those of another list. -/
theorem holds_delete_iff {m : DataSetMemory} {address : Nat} (name : ListName)
    (h : m.Holds address) :
    (m.deleteNamedVariableList name).Holds address ↔
      ∀ list, m.dataSets address = some list → m.variableLists name ≠ some list := by
  obtain ⟨list, name', hlist, hname'⟩ := h
  constructor
  · rintro ⟨list₁, name₁, hlist₁, hname₁⟩ list₂ hlist₂ hname
    obtain ⟨hne, hname₁⟩ := Option.ite_none_left_eq_some.mp hname₁
    have hsame : list₁ = list₂ := Option.some.inj (hlist₁.symm.trans hlist₂)
    rw [hsame] at hname₁
    exact hne (m.eq_of_list _ _ _ hname₁ hname)
  · intro hother
    have hne : name' ≠ name := by
      rintro rfl
      exact hother list hlist hname'
    exact ⟨list, name', hlist, (if_neg hne).trans hname'⟩

/-- A step leaves the block alive if and only if it meets the condition. -/
theorem Refers.alive_iff (h : s.Refers) {a : Action} (hs : s.Step a t) :
    t.Alive ↔ s.Keeps a := by
  have hrefer : ∀ v, (∀ name, a ≠ .delete name) →
      s.referTo v (s.requested a) = .ok (t.dataSet, t.memory) → (t.Alive ↔ s.Keeps a) := by
    intro v hn hp
    constructor
    · intro halive
      refine ⟨fun hsome => ?_, fun name address list ha => absurd ha (hn name)⟩
      by_contra hd
      exact h.not_alive hsome (eq_true_of_ne_false hd) hp halive
    · intro hk
      exact h.alive.refer hk.requested hp
  have hkeeps : s.requested a = none → (∀ name, a ≠ .delete name) → s.Keeps a := by
    intro hr hn
    refine ⟨fun hsome => ?_, fun name address list ha => absurd ha (hn name)⟩
    rw [hr] at hsome
    cases hsome
  cases hs with
  | write hw => exact hrefer _ (fun _ => nofun) (writeAccessHandler_ok hw).1
  | activate ha => exact hrefer _ (fun _ => nofun) (activateBufferedReports_ok ha).1
  | serve => exact iff_of_true ⟨h.alive.misuses, h.alive.dataSet⟩ (hkeeps rfl fun _ => nofun)
  | @define name =>
    refine iff_of_true ⟨?_, fun address hp => holds_define name (h.alive.dataSet address hp)⟩
      (hkeeps rfl fun _ => nofun)
    dsimp only [DataSetMemory.defineNamedVariableList]
    split
    · exact h.alive.misuses
    · exact h.alive.misuses
  | @delete name =>
    constructor
    · intro halive
      refine ⟨fun hsome => Bool.noConfusion hsome, fun name' address list hn hp hlist => ?_⟩
      cases hn
      exact (holds_delete_iff name (h.alive.dataSet address hp)).mp (halive.dataSet address hp)
        list hlist
    · intro hk
      refine ⟨h.alive.misuses, fun address hp => ?_⟩
      exact (holds_delete_iff name (h.alive.dataSet address hp)).mpr
        fun list hlist => hk.delete name address list rfl hp hlist

/-- The step of a block that refers to what is there. -/
theorem Refers.step (h : s.Refers) {a : Action} (hs : s.Step a t) (halive : t.Alive) :
    t.Refers := by
  cases hs with
  | write hw =>
    obtain ⟨hp, hrc⟩ := writeAccessHandler_ok hw
    exact h.refer hp (takesOver_writeAccessHandler hrc) halive
  | activate ha =>
    obtain ⟨hp, hrc⟩ := activateBufferedReports_ok ha
    refine h.refer hp ?_ halive
    rw [hrc]
    exact takesOver_activateBufferedReports _ _
  | serve hw he =>
    have hsame := SameDataSet.handle hw he
    exact ⟨halive, fun hd => h.dynamic (hsame.dynamic.symm.trans hd),
      fun hsome => hsame.members.trans (h.members hsome)⟩
  | define => exact ⟨halive, h.dynamic, h.members⟩
  | delete => exact ⟨halive, h.dynamic, h.members⟩

end

theorem Refers.start (memory : DataSetMemory) (buffered : Bool) (rcb : ReportControlBlock)
    (memoryBlockSize : Nat) (reportTime : UInt64) :
    (ReferringBlock.start memory buffered rcb memoryBlockSize reportTime).Refers where
  alive := ⟨rfl, fun _ hp => nomatch hp⟩
  dynamic := fun hd => nomatch hd
  members := fun hsome => nomatch hsome

/-- A step to a block that is alive. -/
def AliveStep (s : ReferringBlock) (a : Action) (t : ReferringBlock) : Prop :=
  s.Step a t ∧ t.Alive

/-- The runs in which the block is alive in every state are those whose steps all meet the
condition. -/
theorem run_alive_iff (h : s.Refers) {actions : List Action} :
    Transition.Run AliveStep (fun _ _ => True) s actions t ↔
      Transition.Run Step Keeps s actions t := by
  constructor
  · intro hr
    have hinv : Transition.Run Step Keeps s actions t ∧ t.Refers := by
      induction hr with
      | nil => exact ⟨.nil, h⟩
      | snoc hrun _ hst ih =>
        obtain ⟨hrun', hrefers⟩ := ih
        exact ⟨hrun'.snoc ((hrefers.alive_iff hst.1).mp hst.2) hst.1, hrefers.step hst.1 hst.2⟩
    exact hinv.1
  · intro hr
    have hinv : Transition.Run AliveStep (fun _ _ => True) s actions t ∧ t.Refers := by
      induction hr with
      | nil => exact ⟨.nil, h⟩
      | snoc hrun hg hst ih =>
        obtain ⟨hrun', hrefers⟩ := ih
        have halive := (hrefers.alive_iff hst).mpr hg
        exact ⟨hrun'.snoc trivial ⟨hst, halive⟩, hrefers.step hst halive⟩
    exact hinv.1

/-- A refused write leaves everything as it was if and only if it is not one of three, and the
runs in which the block never refers to something freed are those in which no data set that was
made of a list is looked for anew, nor its list deleted. -/
theorem refusedIntact_iff_and_run_alive_iff (s : ReferringBlock) (v : MemberValues) (w : Write)
    (memory : DataSetMemory) (buffered : Bool) (rcb : ReportControlBlock)
    (memoryBlockSize : Nat) (reportTime : UInt64) (actions : List Action) (t : ReferringBlock) :
    (s.RefusedIntact v w ↔ s.Harmless v w) ∧
      (Transition.Run AliveStep (fun _ _ => True)
          (start memory buffered rcb memoryBlockSize reportTime) actions t ↔
        Transition.Run Step Keeps
          (start memory buffered rcb memoryBlockSize reportTime) actions t) :=
  ⟨refusedIntact_iff, run_alive_iff (Refers.start memory buffered rcb memoryBlockSize reportTime)⟩

def emptyMemory : DataSetMemory where
  variableLists := fun _ => none
  dataSets := fun _ => none
  next := 0
  misuses := 0
  lt_next := fun _ _ h => nomatch h
  eq_of_list := fun _ _ _ h => nomatch h

def writeDatSet (name : MmsValue.CString) : Write :=
  ⟨.datSet, .visibleString (some name), false, 1, [127, 0, 0, 1]⟩

/-- The reference "L/a". -/
def firstReference : MmsValue.CString := ⟨[0x4c, 0x2f, 0x61], by decide⟩

/-- The reference "L/b". -/
def secondReference : MmsValue.CString := ⟨[0x4c, 0x2f, 0x62], by decide⟩

def noValues : MemberValues := ⟨fun _ => none, fun _ => [.boolean false]⟩

/-- A new block, and one list that a client has defined. -/
def withList : ReferringBlock where
  rc := (start emptyMemory false plainBlock 0 0).rc
  dataSet := none
  memory :=
    (start emptyMemory false plainBlock 0 0).memory.defineNamedVariableList ⟨[0x4c], [0x61]⟩

/-- A client defines a list and makes it the data set of a block. The next write of `DatSet` is
refused, and the data set is gone. -/
theorem refused_write_frees : ∃ (actions : List Action) (s t : ReferringBlock)
    (result : MmsDataAccessError),
    Transition.Run Step (fun _ _ => True) (start emptyMemory false plainBlock 0 0) actions s ∧
      s.Alive ∧ s.writeAccessHandler noValues (writeDatSet secondReference) = .ok (t, result) ∧
      result ≠ .success ∧ t ≠ s ∧ ¬ t.Alive := by
  have h0 := Refers.start emptyMemory false plainBlock 0 0
  have hst1 : (start emptyMemory false plainBlock 0 0).Step (.define ⟨[0x4c], [0x61]⟩) withList :=
    .define
  have hk1 : (start emptyMemory false plainBlock 0 0).Keeps (.define ⟨[0x4c], [0x61]⟩) :=
    ⟨fun h => Bool.noConfusion h, fun _ _ _ h => nomatch h⟩
  have h1 := h0.step hst1 ((h0.alive_iff hst1).mpr hk1)
  obtain ⟨s, hw, hd, hr, hg⟩ : ∃ s,
      withList.writeAccessHandler noValues (writeDatSet firstReference) = .ok (s, .success) ∧
      s.rc.isDynamicDataSet = true ∧
      s.rc.requestedDataSet (writeDatSet secondReference) =
        some (.visibleString (some secondReference)) ∧
      s.memory.getDomainSpecificVariableList secondReference = none := ⟨_, rfl, rfl, rfl, rfl⟩
  have hst2 := Step.write hw
  have hk2 : withList.Keeps (.write noValues (writeDatSet firstReference)) :=
    ⟨fun _ => rfl, fun _ _ _ h => nomatch h⟩
  have halive := (h1.alive_iff hst2).mpr hk2
  have h2 := h1.step hst2 halive
  have hnil : Transition.Run Step (fun _ _ => True) (start emptyMemory false plainBlock 0 0) []
      (start emptyMemory false plainBlock 0 0) := .nil
  -- neither the model nor the domain has the second data set
  have hp : s.referTo noValues (s.rc.requestedDataSet (writeDatSet secondReference)) =
      .ok (s.dataSet, s.freeOldDataSet) := by
    rw [hr]
    exact referTo_notFound rfl rfl hg
  obtain ⟨refusal, f, hne, -, heq⟩ :=
    ReportControl.writeAccessHandler_requested (s.memory.found noValues) hr
  rw [(DataSetMemory.found_none_iff rfl).mpr ⟨rfl, hg⟩] at heq
  obtain ⟨address, hs⟩ := h2.dynamic hd
  refine ⟨_, s, _, refusal, (hnil.snoc trivial hst1).snoc trivial hst2, halive,
    writeAccessHandler_eq hp heq, hne, fun hsame => ?_, ?_⟩
  · exact freeOldDataSet_eq_iff.mp (congrArg memory hsame) ⟨hd, by rw [hs]; rfl⟩
  · rw [hr] at hp
    exact h2.not_alive rfl hd hp

end ReferringBlock

end Iec61850.Reporting
