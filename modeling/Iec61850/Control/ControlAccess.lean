import Iec61850.Control.DelayedAnswers
import Iec61850.Server.WriteAccess

/-! The elements of control objects as variables (`Control_writeAccessControlObject`): how a name
finds its object, and what writing to it does. -/

namespace Iec61850.Control

open Machine MmsVariableSpecification

/-- A control object under its names. With it is what its threads have been asked. -/
structure ControlEntry where
  domain : Nat
  lnName : List UInt8
  name : List UInt8
  history : AnswerHistory

/-- What the environment adds to the write of an element: the time, what the check handler says,
and what is read of values that have another type. -/
structure ControlInputs where
  currentTime : UInt64
  result : CheckResult
  rawTest : Bool
  rawCheck : Nat → Bool
  rawOperTm : UInt64

/-- `MmsMapping_getNextNameElement` -/
def getNextNameElement (name : List UInt8) : Option (List UInt8) :=
  (behindSeparator name).filter (· ≠ [])

def isElementName (varName : List UInt8) : Bool :=
  firstName varName = ascii "Oper" || firstName varName = ascii "SBO" ||
    firstName varName = ascii "SBOw" || firstName varName = ascii "Cancel"

/-- The name is cut at the first separator with the name of an element behind it. -/
def splitVarName (before : List UInt8) : List UInt8 → Option (List UInt8 × List UInt8)
  | [] => none
  | c :: cs =>
    if c = separator ∧ isElementName cs = true then some (before, cs)
    else splitVarName (before ++ [c]) cs

/-- `lnName`, `objectName` and `varName` -/
def controlNames (variableIdOrig : List UInt8) :
    Option (List UInt8 × List UInt8 × List UInt8) := do
  let variableId := variableIdOrig.take 128
  let objectName ← getNextNameElement (← behindSeparator variableId)
  let (objectName, varName) ← splitVarName [] objectName
  return (firstName variableId, objectName, varName)

def lookupControlObject (controls : List ControlEntry) (domain : Nat)
    (lnName objectName : List UInt8) : Option Nat :=
  controls.findIdx? fun entry =>
    entry.domain = domain && entry.lnName = lnName && entry.name = objectName

/-- What is asked of the object when the element is written. -/
def elementWrite (varName : List UInt8) (w : ControlWrite) (inputs : ControlInputs)
    (invokeId : UInt32) : Option Event :=
  if varName = ascii "SBOw" then some (.writeSBOw w inputs.currentTime inputs.result)
  else if varName = ascii "Oper" then
    some (.writeOper w inputs.currentTime inputs.result invokeId)
  else if varName = ascii "Cancel" then some (.writeCancel w)
  else none

/-- The object that is found, and what is asked of it. -/
def controlRequest (controls : List ControlEntry) (inputs : ControlInputs) (invokeId : UInt32)
    (domain : Nat) (variableId : List UInt8) (value : MmsValue) (connection : Connection) :
    Option (Nat × Event) := do
  let (lnName, objectName, varName) ← controlNames variableId
  let index ← lookupControlObject controls domain lnName objectName
  let w := ⟨connection, value, inputs.rawTest, inputs.rawCheck, inputs.rawOperTm⟩
  let e ← elementWrite varName w inputs invokeId
  return (index, e)

/-- What a request is answered with. -/
def Server.indication (s : Server) : Event → Exec MmsDataAccessError
  | .writeSBOw w currentTime result => do
    return (← s.object.writeSBOw w currentTime result).indication
  | .writeOper w currentTime result invokeId => do
    return (← s.object.writeOper w currentTime result invokeId).indication
  | .writeCancel w => .ok (s.object.writeCancel w).indication
  | _ => .ok .objectAccessDenied

def AnswerHistory.write (h : AnswerHistory) (e : Event) :
    Exec (AnswerHistory × MmsDataAccessError) := do
  let indication ← h.server.indication e
  return (← h.perform e, indication)

def writeAccessControlObject (controls : List ControlEntry) (inputs : ControlInputs)
    (invokeId : UInt32) (domain : Nat) (variableId : List UInt8) (value : MmsValue)
    (connection : Connection) : Exec (List ControlEntry × MmsDataAccessError) :=
  match controlRequest controls inputs invokeId domain variableId value connection with
  | none => .ok (controls, .objectAccessDenied)
  | some (index, e) =>
    match controls[index]? with
    | none => .error .outOfBounds
    | some entry => do
      let (history, indication) ← entry.history.write e
      return (controls.set index { entry with history := history }, indication)

section Indication

variable {self : ControlObject} {w : ControlWrite} {currentTime : UInt64} {result : CheckResult}

theorem ControlObject.refuse_noResponse_iff (self : ControlObject)
    {indication : MmsDataAccessError} (observations : List Observation)
    (lastApplError : Option LastApplError) (hne : indication ≠ .noResponse) :
    (self.refuse indication observations lastApplError).indication = .noResponse ↔
      (self.refuse indication observations lastApplError).startsThread = true :=
  iff_of_false hne Bool.false_ne_true

theorem ControlObject.writeSBOw_answersAtOnce {r : Handled}
    (hr : self.writeSBOw w currentTime result = .ok r) : r.indication ≠ .noResponse := by
  rw [writeSBOw] at hr
  split at hr
  · cases hr
    intro hne
    cases hne
  · split at hr
    · cases hr
      intro hne
      cases hne
    · split at hr
      · cases hr
        intro hne
        cases hne
      · dsimp only at hr
        split at hr
        · cases hr
          intro hne
          cases hne
        · split at hr
          · cases hr
            intro hne
            cases hne
          · cases hr
            intro hne
            cases hne
    · cases hr

theorem ControlObject.writeCancel_answersAtOnce (self : ControlObject) (w : ControlWrite) :
    (self.writeCancel w).indication ≠ .noResponse := by
  have hgiveUp (indication : MmsDataAccessError) (hne : indication ≠ .noResponse)
      (lastApplError : Option LastApplError) :
      (self.cancelTimeActivated indication lastApplError).indication ≠ .noResponse := by
    rw [cancelTimeActivated]
    split
    · intro hne
      cases hne
    · exact hne
  unfold writeCancel
  split
  · split
    · split
      · intro hne
        cases hne
      · exact hgiveUp .temporarilyUnavailable (by decide) _
    · exact hgiveUp .objectAccessDenied (by decide) none
  · intro hne
    cases hne

theorem ControlObject.performTest_noResponse_iff (connection : Connection) (invokeId : UInt32)
    (observations : List Observation) :
    (self.performTest connection result invokeId observations).indication = .noResponse ↔
      (self.performTest connection result invokeId observations).startsThread = true := by
  have hcode : ∀ code, indicationOfCheck code ≠ .noResponse := by
    intro code
    rw [indicationOfCheck]
    split_ifs <;> decide
  rw [performTest]
  dsimp only
  split
  · exact ⟨fun _ => rfl, fun _ => rfl⟩
  · exact refuse_noResponse_iff _ _ _ (hcode _)

theorem ControlObject.acceptOper_noResponse_iff (parameters : ControlParameters) (check : MmsValue)
    (invokeId : UInt32) (observations : List Observation) :
    (self.acceptOper w parameters check currentTime result invokeId observations).indication =
        .noResponse ↔
      (self.acceptOper w parameters check currentTime result invokeId
        observations).startsThread = true := by
  rw [acceptOper]
  dsimp only
  split
  · split
    · exact refuse_noResponse_iff _ _ _ (by decide)
    · exact refuse_noResponse_iff _ _ _ (by decide)
  · exact performTest_noResponse_iff _ _ _

/-- `Oper` is not answered at once exactly when there is a thread for it. -/
theorem ControlObject.writeOper_noResponse_iff {invokeId : UInt32} {r : Handled}
    (hr : self.writeOper w currentTime result invokeId = .ok r) :
    r.indication = .noResponse ↔ r.startsThread = true := by
  unfold writeOper at hr
  split at hr
  · split at hr
    · cases hr
      exact refuse_noResponse_iff _ _ _ (by decide)
    dsimp only at hr
    split at hr
    · cases hr
      exact refuse_noResponse_iff _ _ _ (by decide)
    · cases hr
      exact refuse_noResponse_iff _ _ _ (by decide)
    · split at hr
      · split at hr
        · cases hr
          exact refuse_noResponse_iff _ _ _ (by decide)
        · split at hr
          · split at hr
            · cases hr
            · split at hr
              · cases hr
                exact acceptOper_noResponse_iff _ _ _ _
              · cases hr
                exact refuse_noResponse_iff _ _ _ (by decide)
          · cases hr
            exact acceptOper_noResponse_iff _ _ _ _
      · cases hr
        exact acceptOper_noResponse_iff _ _ _ _
    · cases hr
      exact refuse_noResponse_iff _ _ _ (by decide)
  · cases hr
    exact refuse_noResponse_iff _ _ _ (by decide)

end Indication

namespace AnswerHistory

variable {h h' : AnswerHistory} {e : Event} {indication : MmsDataAccessError}

/-- Whether the request is one of this connection with this invoke id. -/
def IsWriteOf (connection : Connection) (invokeId : UInt32) : Event → Prop
  | .writeSBOw w _ _ => w.connection = connection
  | .writeOper w _ _ invokeId' => w.connection = connection ∧ invokeId' = invokeId
  | .writeCancel w => w.connection = connection
  | _ => False

/-- A write is left to a thread exactly when it is not answered at once. -/
theorem write_cases {connection : Connection} {invokeId : UInt32}
    (hwrite : IsWriteOf connection invokeId e) (hw : h.write e = .ok (h', indication)) :
    h.Step e h' ∧ h'.asked = h.asked ++
      if indication = .noResponse then [⟨connection, invokeId⟩] else [] := by
  obtain ⟨answered, hindication, hw⟩ := bind_ok hw
  obtain ⟨performed, hperform, hw⟩ := bind_ok hw
  cases hw
  refine ⟨hperform, ?_⟩
  obtain ⟨⟨server, observations⟩, -, hasked⟩ := bind_ok hperform
  cases hasked
  dsimp only
  congr 1
  cases e with
  | writeSBOw w currentTime result =>
    obtain ⟨r, hr, hindication⟩ := bind_ok hindication
    cases hindication
    exact (if_neg (ControlObject.writeSBOw_answersAtOnce hr)).symm
  | writeOper w currentTime result invokeId' =>
    obtain ⟨rfl, rfl⟩ := hwrite
    obtain ⟨r, hr, hindication⟩ := bind_ok hindication
    cases hindication
    have hiff := ControlObject.writeOper_noResponse_iff hr
    rw [asks, hr]
    simp only [hiff]
  | writeCancel w =>
    cases hindication
    exact (if_neg (ControlObject.writeCancel_answersAtOnce _ w)).symm
  | _ => exact hwrite.elim

end AnswerHistory

variable {controls controls' : List ControlEntry} {inputs : ControlInputs} {invokeId : UInt32}
  {domain : Nat} {variableId : List UInt8} {value : MmsValue} {connection : Connection}
  {indication : MmsDataAccessError} {index : Nat} {e : Event}

theorem controlRequest_isWrite
    (h : controlRequest controls inputs invokeId domain variableId value connection =
      some (index, e)) : AnswerHistory.IsWriteOf connection invokeId e := by
  rw [controlRequest] at h
  obtain ⟨⟨lnName, objectName, varName⟩, -, h⟩ := Option.bind_eq_some_iff.mp h
  obtain ⟨index', -, h⟩ := Option.bind_eq_some_iff.mp h
  obtain ⟨e', he, h⟩ := Option.bind_eq_some_iff.mp h
  cases h
  rw [elementWrite] at he
  split at he
  · cases he
    exact rfl
  · split at he
    · cases he
      exact ⟨rfl, rfl⟩
    · split at he
      · cases he
        exact rfl
      · cases he

/-- The object that is written is the only one that changes. -/
theorem writeAccessControlObject_cases
    (h : writeAccessControlObject controls inputs invokeId domain variableId value connection =
      .ok (controls', indication)) :
    (controls' = controls ∧ indication ≠ .noResponse) ∨
    ∃ index e entry history,
      controlRequest controls inputs invokeId domain variableId value connection =
        some (index, e) ∧
      controls[index]? = some entry ∧ entry.history.Step e history ∧
      controls' = controls.set index { entry with history := history } ∧
      history.asked = entry.history.asked ++
        if indication = .noResponse then [⟨connection, invokeId⟩] else [] := by
  rw [writeAccessControlObject] at h
  cases hrequest : controlRequest controls inputs invokeId domain variableId value connection with
  | none =>
    rw [hrequest] at h
    cases h
    exact .inl ⟨rfl, by decide⟩
  | some request =>
    obtain ⟨index, e⟩ := request
    rw [hrequest] at h
    dsimp only at h
    cases hentry : controls[index]? with
    | none =>
      rw [hentry] at h
      cases h
    | some entry =>
      rw [hentry] at h
      obtain ⟨⟨history, answer⟩, hwrite, h⟩ := bind_ok h
      cases h
      obtain ⟨hstep, hasked⟩ :=
        AnswerHistory.write_cases (controlRequest_isWrite hrequest) hwrite
      exact .inr ⟨index, e, entry, history, rfl, hentry, hstep, rfl, hasked⟩

end Iec61850.Control
