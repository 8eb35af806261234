import Iec61850.Control.ControlObject
import Iec61850.Mms.UpdateEquality

/-! What is written to an element of a control object: which values the handlers refuse, and what
they read of the others. An element that is read as a type it does not have is a fault. -/

namespace Iec61850

open Machine

namespace MmsValue

mutual

/-- Where both are composites of one kind, the second has the components of the first. -/
def Covers : MmsValue → MmsValue → Prop
  | .array vs, .array ws => CoversElements vs ws
  | .structured vs, .structured ws => CoversElements vs ws
  | _, _ => True

def CoversElements : List MmsValue → List MmsValue → Prop
  | [], _ => True
  | _ :: _, [] => False
  | v :: vs, w :: ws => Covers v w ∧ CoversElements vs ws

end

section

variable {a b : MmsValue}

theorem coversElements_iff {vs ws : List MmsValue}
    (ih : ∀ v ∈ vs, ∀ w, Covers v w ↔ ∃ r, v.updateInMemory w = .ok r) :
    CoversElements vs ws ↔ ∃ us, updateStructuredComponent vs ws = .ok us := by
  induction vs generalizing ws with
  | nil => exact iff_of_true trivial ⟨[], rfl⟩
  | cons v vs ihvs =>
    cases ws with
    | nil => simp [CoversElements, updateStructuredComponent]
    | cons w ws =>
      rw [CoversElements, ih v List.mem_cons_self w,
        ihvs fun x hx => ih x (List.mem_cons_of_mem v hx)]
      constructor
      · rintro ⟨⟨r, hr⟩, us, hus⟩
        exact ⟨r.1 :: us, by rw [updateStructuredComponent, hr, ok_bind, hus]; rfl⟩
      · rintro ⟨us, hus⟩
        obtain ⟨r, hr, hus⟩ := bind_ok hus
        obtain ⟨us', hus', -⟩ := bind_ok hus
        exact ⟨⟨r, hr⟩, us', hus'⟩

/-- The update stays inside the value it reads. -/
theorem covers_iff : a.Covers b ↔ ∃ r, a.updateInMemory b = .ok r := by
  induction a using tree_induction generalizing b with
  | array vs ih =>
    cases b with
    | array ws =>
      rw [Covers, coversElements_iff fun v hv w => ih v hv, updateInMemory]
      constructor
      · rintro ⟨us, hus⟩
        exact ⟨_, by rw [hus]; rfl⟩
      · rintro ⟨r, hr⟩
        obtain ⟨us, hus, -⟩ := bind_ok hr
        exact ⟨us, hus⟩
    | _ => exact iff_of_true trivial ⟨_, rfl⟩
  | structured vs ih =>
    cases b with
    | structured ws =>
      rw [Covers, coversElements_iff fun v hv w => ih v hv, updateInMemory]
      constructor
      · rintro ⟨us, hus⟩
        exact ⟨_, by rw [hus]; rfl⟩
      · rintro ⟨r, hr⟩
        obtain ⟨us, hus, -⟩ := bind_ok hr
        exact ⟨us, hus⟩
    | _ => exact iff_of_true trivial ⟨_, rfl⟩
  | leaf a ha =>
    cases a with
    | array | structured => exact ha.elim
    | _ => exact iff_of_true trivial ⟨_, rfl⟩

end

/-- `MmsValue_getBoolean` of a value that has to be a boolean. -/
def booleanOf : MmsValue → Exec Bool
  | .boolean b => .ok b
  | _ => .error .notThere

/-- `MmsValue_getBitStringBit` of a value that has to be a bit string. -/
def bitOf (bitPos : Nat) : MmsValue → Exec Bool
  | .bitString b => .ok ((MmsValue.bitString b).getBitStringBit bitPos)
  | _ => .error .notThere

/-- `MmsValue_getUtcTimeInMs` of a value that has to be a UTC time. -/
def utcTimeOf (v : MmsValue) : Exec UInt64 :=
  match v.getUtcTimeInMs with
  | some t => .ok t
  | none => .error .notThere

end MmsValue

namespace Control

inductive ControlElement
  | sbow | oper | cancel

/-- A request of a client for an element. `result` is what the check handler says. -/
structure ElementWrite where
  connection : Connection
  value : MmsValue
  currentTime : UInt64
  result : CheckResult
  invokeId : UInt32

/-- The request with readings of elements of the wrong type, which are not needed where none is
read. -/
def ElementWrite.raw (w : ElementWrite) (rawTest : Bool) (rawCheck : Nat → Bool)
    (rawOperTm : UInt64) : ControlWrite :=
  ⟨w.connection, w.value, rawTest, rawCheck, rawOperTm⟩

/-- The elements of `Oper` behind the checks. -/
structure OperElements where
  parameters : ControlParameters
  test : MmsValue
  check : MmsValue

def operElements (value : MmsValue) : Option OperElements := do
  let ctlVal ← getCtlVal value
  let test ← getOperParameterTest value
  let ctlNum ← getOperParameterCtlNum value
  let origin ← getOperParameterOrigin value
  let check ← getOperParameterCheck value
  let _ ← getOperParameterTime value
  if checkValidityOfOriginParameter origin then some ⟨⟨ctlVal, ctlNum, origin⟩, test, check⟩
  else none

/-- The comparison with the parameters of the selection, which stops at the first difference. -/
def ControlParameters.equalsInMemory (p q : ControlParameters) : Exec Bool := do
  if ← p.ctlVal.equalsInMemory q.ctlVal then
    if ← p.origin.equalsInMemory q.origin then p.ctlNum.equalsInMemory q.ctlNum
    else return false
  else return false

namespace ControlObject

/-- What `SBOw` reads of the elements. -/
def readsOfSBOw (self : ControlObject) (w : ElementWrite) : Exec Unit :=
  match getCtlVal w.value, getOperParameterOrigin w.value, getOperParameterCheck w.value,
    getOperParameterTest w.value with
  | some _, some origin, some check, some test =>
    if self.ctlModel = 4 ∧ checkValidityOfOriginParameter origin = true ∧
        (self.checkSelectTimeout w.currentTime).1.state = .unselected then do
      let _ ← check.bitOf 1
      let _ ← test.booleanOf
      return ()
    else .ok ()
  | _, _, _, _ => .ok ()

/-- What is read when the operation begins. -/
def readsOfAccepted (self : ControlObject) (w : ElementWrite) : Exec Unit := do
  if let some operTm := getOperParameterOperTime w.value then
    let _ ← operTm.utcTimeOf
  let _ ← self.oper.updateInMemory w.value
  return ()

/-- What is read behind the test flag and the bits. -/
def readsOfSelection (self : ControlObject) (w : ElementWrite) (p : OperElements) : Exec Unit :=
  if self.isSelectBeforeOperate then
    if self.clientConnection ≠ some w.connection then .ok ()
    else if self.ctlModel = 4 then
      match self.parameters with
      | none => .error .nullPointer
      | some stored => do
        if ← p.parameters.equalsInMemory stored then self.readsOfAccepted w else return ()
    else self.readsOfAccepted w
  else self.readsOfAccepted w

/-- What `Oper` reads of the elements when the object is ready. -/
def readsWhenReady (self : ControlObject) (w : ElementWrite) (p : OperElements) : Exec Unit := do
  let _ ← p.check.bitOf 1
  let _ ← p.check.bitOf 0
  let _ ← p.test.booleanOf
  self.readsOfSelection w p

def readsOfOper (self : ControlObject) (w : ElementWrite) : Exec Unit :=
  match operElements w.value with
  | none => .ok ()
  | some p =>
    let (self, _) := self.checkSelectTimeout w.currentTime
    if self.state = .ready then self.readsWhenReady w p else .ok ()

/-- The handlers with what they read. -/
def writeElement (self : ControlObject) (w : ElementWrite) : ControlElement → Exec Handled
  | .sbow => do
    self.readsOfSBOw w
    self.writeSBOw (w.raw false (fun _ => false) 0) w.currentTime w.result
  | .oper => do
    self.readsOfOper w
    self.writeOper (w.raw false (fun _ => false) 0) w.currentTime w.result w.invokeId
  | .cancel => .ok (self.writeCancel (w.raw false (fun _ => false) 0))

end ControlObject

/-! What the handlers should do, and when they do it. -/

structure Undisturbed (before after : ControlObject) : Prop where
  state_eq : after.state = before.state
  clientConnection_eq : after.clientConnection = before.clientConnection
  parameters_eq : after.parameters = before.parameters

/-- The value that the request changes. The element `Oper` belongs to the object. -/
def declared (self : ControlObject) (sbow cancel : MmsValue) : ControlElement → MmsValue
  | .sbow => sbow
  | .oper => self.oper
  | .cancel => cancel

def IsBoolean (v : MmsValue) : Prop := ∃ b, v = .boolean b

def IsBitString (v : MmsValue) : Prop := ∃ b, v = .bitString b

/-- The comparison stays inside the values, as far as it gets. -/
def ControlParameters.CanCompare (p q : ControlParameters) : Prop :=
  p.ctlVal.Reads q.ctlVal ∧
    (p.ctlVal.equals q.ctlVal = true → p.origin.Reads q.origin ∧
      (p.origin.equals q.origin = true → p.ctlNum.Reads q.ctlNum))

namespace ControlObject

/-- The object belongs to the client, which may operate it with these parameters. -/
def MayOperate (self : ControlObject) (w : ElementWrite) (p : OperElements) : Prop :=
  self.isSelectBeforeOperate = true → self.clientConnection = some w.connection ∧
    (self.ctlModel = 4 → ∃ stored, self.parameters = some stored ∧
      p.parameters.equals stored = true)

/-- What is read has the types it is read as. -/
structure ReadableWhenReady (object : ControlObject) (w : ElementWrite) (p : OperElements) :
    Prop where
  check : IsBitString p.check
  test : IsBoolean p.test
  compare : object.ctlModel = 4 → object.clientConnection = some w.connection →
    ∃ stored, object.parameters = some stored ∧ p.parameters.CanCompare stored
  operTm : object.MayOperate w p →
    ∀ operTm, getOperParameterOperTime w.value = some operTm → isUtcTime operTm = true
  covers : object.MayOperate w p → object.oper.Covers w.value

end ControlObject

section Reads

variable {v : MmsValue}

theorem booleanOf_ok_iff : (∃ b, v.booleanOf = .ok b) ↔ IsBoolean v := by
  cases v <;> simp [MmsValue.booleanOf, IsBoolean]

theorem bitOf_ok_iff {bitPos : Nat} : (∃ b, v.bitOf bitPos = .ok b) ↔ IsBitString v := by
  cases v <;> simp [MmsValue.bitOf, IsBitString]

theorem utcTimeOf_ok_iff : (∃ t, v.utcTimeOf = .ok t) ↔ isUtcTime v = true := by
  cases v <;> simp [MmsValue.utcTimeOf, MmsValue.getUtcTimeInMs, isUtcTime]

theorem equals_of_equalsInMemory {a b : MmsValue} {same : Bool}
    (h : a.equalsInMemory b = .ok same) : a.equals b = same := by
  cases same with
  | true => exact MmsValue.equalsInMemory_ok_true.mp h
  | false =>
    apply Bool.eq_false_of_not_eq_true
    intro heq
    rw [MmsValue.equalsInMemory_ok_true.mpr heq] at h
    cases h

namespace ControlParameters

variable {p q : ControlParameters}

theorem equalsInMemory_ok {same : Bool} (h : p.equalsInMemory q = .ok same) :
    p.CanCompare q ∧ p.equals q = same := by
  obtain ⟨ctlVal, hctlVal, h⟩ := bind_ok h
  have hval := equals_of_equalsInMemory hctlVal
  cases ctlVal with
  | false =>
    cases h
    exact ⟨⟨⟨_, hctlVal⟩, by simp [hval]⟩, by simp [equals, hval]⟩
  | true =>
    obtain ⟨origin, horigin, h⟩ := bind_ok h
    have hor := equals_of_equalsInMemory horigin
    cases origin with
    | false =>
      cases h
      exact ⟨⟨⟨_, hctlVal⟩, fun _ => ⟨⟨_, horigin⟩, by simp [hor]⟩⟩, by simp [equals, hval, hor]⟩
    | true =>
      have hnum := equals_of_equalsInMemory h
      exact ⟨⟨⟨_, hctlVal⟩, fun _ => ⟨⟨_, horigin⟩, fun _ => ⟨_, h⟩⟩⟩,
        by simp [equals, hval, hor, hnum]⟩

theorem equalsInMemory_of_canCompare (h : p.CanCompare q) :
    p.equalsInMemory q = .ok (p.equals q) := by
  have hok : ∃ same, p.equalsInMemory q = .ok same := by
    obtain ⟨⟨ctlVal, hctlVal⟩, h⟩ := h
    rw [equalsInMemory, hctlVal, ok_bind]
    cases ctlVal with
    | false => exact ⟨_, rfl⟩
    | true =>
      obtain ⟨⟨origin, horigin⟩, h⟩ := h (equals_of_equalsInMemory hctlVal)
      rw [if_pos rfl, horigin, ok_bind]
      cases origin with
      | false => exact ⟨_, rfl⟩
      | true => exact h (equals_of_equalsInMemory horigin)
  obtain ⟨same, hsame⟩ := hok
  rw [hsame, (equalsInMemory_ok hsame).2]

end ControlParameters

end Reads

namespace ControlObject

variable {self : ControlObject} {w : ElementWrite} {p : OperElements}

theorem readsOfAccepted_ok_iff :
    self.readsOfAccepted w = .ok () ↔
      (∀ operTm, getOperParameterOperTime w.value = some operTm → isUtcTime operTm = true) ∧
        self.oper.Covers w.value := by
  rw [MmsValue.covers_iff, readsOfAccepted]
  cases getOperParameterOperTime w.value with
  | none =>
    simp only [reduceCtorEq, false_implies, implies_true, true_and]
    exact ⟨fun h => let ⟨r, hr, _⟩ := bind_ok h; ⟨r, hr⟩, fun ⟨r, hr⟩ => by rw [hr]; rfl⟩
  | some operTm =>
    simp only [Option.some.injEq, forall_eq', ← utcTimeOf_ok_iff]
    constructor
    · intro h
      obtain ⟨t, ht, h⟩ := bind_ok h
      obtain ⟨r, hr, -⟩ := bind_ok h
      exact ⟨⟨t, ht⟩, r, hr⟩
    · rintro ⟨⟨t, ht⟩, r, hr⟩
      rw [ht, ok_bind, hr]
      rfl

theorem isSelectBeforeOperate_of_model (h : self.ctlModel = 4) :
    self.isSelectBeforeOperate = true := by
  simp [isSelectBeforeOperate, h]

theorem readsOfSelection_ok_iff :
    self.readsOfSelection w p = .ok () ↔
      (self.ctlModel = 4 → self.clientConnection = some w.connection →
        ∃ stored, self.parameters = some stored ∧ p.parameters.CanCompare stored) ∧
      (self.MayOperate w p → self.readsOfAccepted w = .ok ()) := by
  rw [readsOfSelection]
  by_cases hsbo : self.isSelectBeforeOperate = true
  · rw [if_pos hsbo]
    by_cases hclient : self.clientConnection = some w.connection
    · rw [if_neg (not_not_intro hclient)]
      by_cases hmodel : self.ctlModel = 4
      · rw [if_pos hmodel]
        cases hp : self.parameters with
        | none => simp [hmodel, hclient]
        | some stored =>
          have hmay : self.MayOperate w p ↔ p.parameters.equals stored = true := by
            simp [MayOperate, hsbo, hclient, hmodel, hp]
          simp only [hmodel, hclient, hmay, Option.some.injEq, exists_eq_left', true_implies]
          constructor
          · intro h
            obtain ⟨same, hsame, h⟩ := bind_ok h
            obtain ⟨hcan, heq⟩ := ControlParameters.equalsInMemory_ok hsame
            refine ⟨hcan, fun htrue => ?_⟩
            rw [← heq, htrue] at h
            exact h
          · rintro ⟨hcan, h⟩
            rw [ControlParameters.equalsInMemory_of_canCompare hcan, ok_bind]
            split
            case isTrue htrue => exact h htrue
            case isFalse => rfl
      · have hmay : self.MayOperate w p := fun _ => ⟨hclient, fun h => absurd h hmodel⟩
        simp [hmodel, hmay]
    · have hmay : ¬ self.MayOperate w p := fun h => hclient (h hsbo).1
      simp [hclient, hmay]
  · have hmodel : self.ctlModel ≠ 4 := fun h => hsbo (isSelectBeforeOperate_of_model h)
    have hmay : self.MayOperate w p := fun h => absurd h hsbo
    simp [hsbo, hmodel, hmay]

theorem readsWhenReady_ok_iff :
    self.readsWhenReady w p = .ok () ↔ self.ReadableWhenReady w p := by
  constructor
  · intro h
    obtain ⟨interlock, hcheck, h⟩ := bind_ok h
    obtain ⟨synchro, -, h⟩ := bind_ok h
    obtain ⟨test, htest, h⟩ := bind_ok h
    obtain ⟨hcompare, haccepted⟩ := readsOfSelection_ok_iff.mp h
    exact
      { check := bitOf_ok_iff.mp ⟨_, hcheck⟩
        test := booleanOf_ok_iff.mp ⟨_, htest⟩
        compare := hcompare
        operTm := fun hm => (readsOfAccepted_ok_iff.mp (haccepted hm)).1
        covers := fun hm => (readsOfAccepted_ok_iff.mp (haccepted hm)).2 }
  · intro h
    obtain ⟨interlock, hinterlock⟩ := bitOf_ok_iff.mpr h.check
    obtain ⟨synchro, hsynchro⟩ := bitOf_ok_iff.mpr h.check
    obtain ⟨test, htest⟩ := booleanOf_ok_iff.mpr h.test
    rw [readsWhenReady, hinterlock, ok_bind, hsynchro, ok_bind, htest, ok_bind,
      readsOfSelection_ok_iff]
    exact ⟨h.compare, fun hm => readsOfAccepted_ok_iff.mpr ⟨h.operTm hm, h.covers hm⟩⟩

theorem operElements_some {value : MmsValue} (h : operElements value = some p) :
    getCtlVal value = some p.parameters.ctlVal ∧ getOperParameterTest value = some p.test ∧
      getOperParameterCtlNum value = some p.parameters.ctlNum ∧
      getOperParameterOrigin value = some p.parameters.origin ∧
      getOperParameterCheck value = some p.check ∧
      (∃ time, getOperParameterTime value = some time) ∧
      checkValidityOfOriginParameter p.parameters.origin = true := by
  obtain ⟨ctlVal, hctlVal, h⟩ := Option.bind_eq_some_iff.mp h
  obtain ⟨test, htest, h⟩ := Option.bind_eq_some_iff.mp h
  obtain ⟨ctlNum, hctlNum, h⟩ := Option.bind_eq_some_iff.mp h
  obtain ⟨origin, horigin, h⟩ := Option.bind_eq_some_iff.mp h
  obtain ⟨check, hcheck, h⟩ := Option.bind_eq_some_iff.mp h
  obtain ⟨time, htime, h⟩ := Option.bind_eq_some_iff.mp h
  split at h
  case isTrue hvalid =>
    cases h
    exact ⟨hctlVal, htest, hctlNum, horigin, hcheck, ⟨time, htime⟩, hvalid⟩
  case isFalse => cases h

section Outcomes

variable {cw : ControlWrite} {currentTime : UInt64} {result : CheckResult} {invokeId : UInt32}
  {r : Handled}

theorem writeOper_refused (cw : ControlWrite) (h : operElements cw.value = none) :
    self.writeOper cw currentTime result invokeId =
      .ok (self.refuse .objectValueInvalid [] none) := by
  unfold writeOper
  split
  case h_1 ctlVal test ctlNum origin check time hctlVal htest hctlNum horigin hcheck htime =>
    by_cases hvalid : checkValidityOfOriginParameter origin = true
    · simp [operElements, hctlVal, htest, hctlNum, horigin, hcheck, htime, hvalid] at h
    · rw [Bool.eq_false_of_not_eq_true hvalid]
      rfl
  case h_2 => rfl

/-- The handler for elements that pass the checks. -/
theorem writeOper_checked (cw : ControlWrite) (h : operElements cw.value = some p) :
    self.writeOper cw currentTime result invokeId =
      let (self, expired) := self.checkSelectTimeout currentTime
      let lastApplError (addCause : Int32) :=
        some ⟨0, addCause, p.parameters.ctlNum, p.parameters.origin⟩
      match self.state with
      | .waitForActivationTime =>
        .ok (self.refuse .temporarilyUnavailable expired (lastApplError 12))
      | .unselected => .ok (self.refuse .objectAccessDenied expired (lastApplError 18))
      | .ready =>
        let self := { self with testMode := cw.test p.test }
        let accepted := self.acceptOper cw p.parameters p.check currentTime result invokeId expired
        if self.isSelectBeforeOperate then
          if self.clientConnection ≠ some cw.connection then
            .ok (self.refuse .temporarilyUnavailable expired none)
          else if self.ctlModel = 4 then
            match self.parameters with
            | none => .error .nullPointer
            | some stored =>
              if p.parameters.equals stored then .ok accepted
              else .ok (self.refuse .typeInconsistent expired (lastApplError 26))
          else .ok accepted
        else .ok accepted
      | _ => .ok (self.refuse .objectAccessDenied expired none) := by
  obtain ⟨hctlVal, htest, hctlNum, horigin, hcheck, ⟨time, htime⟩, hvalid⟩ := operElements_some h
  rw [writeOper]
  simp only [hctlVal, htest, hctlNum, horigin, hcheck, htime, hvalid, Bool.not_true,
    Bool.false_eq_true, if_false] <;> rfl

theorem checkSelectTimeout_ready
    (h : (self.checkSelectTimeout currentTime).1.state = .ready) :
    (self.checkSelectTimeout currentTime).1 = self := by
  unfold checkSelectTimeout at h ⊢
  split
  case isTrue hexpired =>
    rw [if_pos hexpired] at h
    cases h
  case isFalse => rfl

end Outcomes

theorem readsOfOper_ok_iff (hp : operElements w.value = some p) :
    self.readsOfOper w = .ok () ↔
      ((self.checkSelectTimeout w.currentTime).1.state = .ready →
        (self.checkSelectTimeout w.currentTime).1.ReadableWhenReady w p) := by
  rw [readsOfOper, hp]
  dsimp only
  split
  case isTrue hready => simp only [hready, true_implies, readsWhenReady_ok_iff]
  case isFalse hready => exact iff_of_true rfl fun h => (hready h).elim

section Raw

variable {rawTest : Bool} {rawCheck : Nat → Bool} {rawOperTm : UInt64} {check : MmsValue}

theorem setOperateTime_raw (hcheck : IsBitString check)
    (htime : ∀ operTm, getOperParameterOperTime w.value = some operTm → isUtcTime operTm = true) :
    self.setOperateTime (w.raw rawTest rawCheck rawOperTm) check =
      self.setOperateTime (w.raw false (fun _ => false) 0) check := by
  obtain ⟨b, rfl⟩ := hcheck
  rw [setOperateTime, setOperateTime]
  simp only [ElementWrite.raw]
  cases hoperTm : getOperParameterOperTime w.value with
  | none => rfl
  | some operTm =>
    have hutc := htime operTm hoperTm
    cases operTm with
    | utcTime t => rfl
    | _ => cases hutc

theorem acceptOper_raw {parameters : ControlParameters} {currentTime : UInt64}
    {result : CheckResult} {invokeId : UInt32} {observations : List Observation}
    (hcheck : IsBitString check)
    (htime : ∀ operTm, getOperParameterOperTime w.value = some operTm → isUtcTime operTm = true) :
    self.acceptOper (w.raw rawTest rawCheck rawOperTm) parameters check currentTime result
        invokeId observations =
      self.acceptOper (w.raw false (fun _ => false) 0) parameters check currentTime result
        invokeId observations := by
  rw [acceptOper, setOperateTime_raw hcheck htime]
  rfl

theorem writeOper_raw {currentTime : UInt64} {result : CheckResult} {invokeId : UInt32}
    (hp : operElements w.value = some p)
    (hreads : (self.checkSelectTimeout currentTime).1.state = .ready →
      (self.checkSelectTimeout currentTime).1.ReadableWhenReady w p) :
    self.writeOper (w.raw rawTest rawCheck rawOperTm) currentTime result invokeId =
      self.writeOper (w.raw false (fun _ => false) 0) currentTime result invokeId := by
  rw [writeOper_checked (w.raw rawTest rawCheck rawOperTm) hp,
    writeOper_checked (w.raw false (fun _ => false) 0) hp]
  generalize self.checkSelectTimeout currentTime = checked at hreads ⊢
  obtain ⟨o, expired⟩ := checked
  dsimp only at hreads ⊢
  cases hstate : o.state with
  | ready =>
    have hready := hreads hstate
    have htest : (w.raw rawTest rawCheck rawOperTm).test p.test =
        (w.raw false (fun _ => false) 0).test p.test := by
      obtain ⟨b, hb⟩ := hready.test
      rw [hb]
      rfl
    have haccepted (hm : o.MayOperate w p) (self : ControlObject) :
        self.acceptOper (w.raw rawTest rawCheck rawOperTm) p.parameters p.check currentTime result
            invokeId expired =
          self.acceptOper (w.raw false (fun _ => false) 0) p.parameters p.check currentTime result
            invokeId expired :=
      acceptOper_raw hready.check (hready.operTm hm)
    dsimp only
    rw [htest]
    refine ite_congr rfl (fun hsbo => ite_congr rfl (fun _ => rfl) fun hclient => ?_)
      fun hsbo => ?_
    · have howner : o.clientConnection = some w.connection := not_not.mp hclient
      refine ite_congr rfl (fun hmodel => ?_) fun hmodel => ?_
      · cases hstored : o.parameters with
        | none => rfl
        | some stored =>
          refine ite_congr rfl (fun heq => ?_) fun _ => rfl
          rw [haccepted fun _ => ⟨howner, fun _ => ⟨stored, hstored, heq⟩⟩]
      · rw [haccepted fun _ => ⟨howner, fun h => (hmodel h).elim⟩]
    · rw [haccepted fun h => (hsbo h).elim]
  | _ => rfl

/-- The handler of the element, given what is read of elements of the wrong type. -/
def handle (self : ControlObject) (w : ElementWrite) (cw : ControlWrite) :
    ControlElement → Exec Handled
  | .sbow => self.writeSBOw cw w.currentTime w.result
  | .oper => self.writeOper cw w.currentTime w.result w.invokeId
  | .cancel => .ok (self.writeCancel cw)

/-- Where nothing is read as a type it does not have, the handlers do not depend on such
readings. -/
theorem handle_raw {element : ControlElement} {r : Handled}
    (h : self.writeElement w element = .ok r) :
    self.handle w (w.raw rawTest rawCheck rawOperTm) element = .ok r := by
  cases element with
  | sbow =>
    obtain ⟨_, -, hr⟩ := bind_ok h
    exact hr
  | oper =>
    obtain ⟨_, hread, hr⟩ := bind_ok h
    rw [handle]
    cases hp : operElements w.value with
    | none =>
      rw [writeOper_refused (w.raw false (fun _ => false) 0) hp] at hr
      rw [writeOper_refused (w.raw rawTest rawCheck rawOperTm) hp, hr]
    | some p =>
      rw [writeOper_raw hp ((readsOfOper_ok_iff hp).mp hread), hr]
  | cancel => exact h

end Raw

end ControlObject

end Control

end Iec61850
