import Iec61850.Control.ControlRuns
import Iec61850.Lib.Transition
import Iec61850.Report.Creation

/-! Select before operate: what a control object with `ctlModel` 2 or 4 is for, and the runs in
which it does that. -/

namespace Iec61850.Control

open Machine

/-- The same parameters, as `MmsValue_equals` tells. -/
def ControlParameters.Same (p q : ControlParameters) : Prop := p = q ∨ p.equals q = true

/-- A connection has selected the object; `parameters` are those of `SBOw`. -/
structure Selection where
  connection : Connection
  selectTime : UInt64
  selectTimeout : UInt32
  parameters : Option ControlParameters

def Selection.Expired (x : Selection) (currentTime : UInt64) : Prop :=
  0 < x.selectTimeout ∧ x.selectTime + x.selectTimeout.toUInt64 < currentTime

structure Operation where
  connection : Connection
  parameters : ControlParameters
  testMode : Bool
  operated : Bool

/-- The purpose of the object: who has selected it, and the operation in progress. -/
structure Spec where
  selection : Option Selection
  operation : Option Operation

/-- What may be seen. An operation is begun by the connection that holds a selection which has
neither expired nor been cancelled, with the parameters of that selection; it is operated once,
and nobody but its connection hears of it. -/
inductive Allows (ctlModel : UInt32) : Spec → Observation → Spec → Prop
  | expired {a : Spec} (currentTime : UInt64) :
    (∀ x, a.selection = some x → x.Expired currentTime) →
    Allows ctlModel a (.expired currentTime) { a with selection := none }
  | selected {a : Spec} (connection : Connection) (currentTime : UInt64) (selectTimeout : UInt32)
      (parameters : Option ControlParameters) :
    a.selection = none → a.operation = none →
    Allows ctlModel a (.selected connection currentTime selectTimeout parameters)
      ⟨some ⟨connection, currentTime, selectTimeout, parameters⟩, none⟩
  | operateWritten {a : Spec} (x : Selection) (currentTime : UInt64) (p : ControlParameters)
      (testMode : Bool) :
    a.operation = none → a.selection = some x → ¬ x.Expired currentTime →
    (ctlModel = 4 → ∃ q, x.parameters = some q ∧ p.Same q) →
    Allows ctlModel a (.operateWritten x.connection currentTime p testMode)
      { a with operation := some ⟨x.connection, p, testMode, false⟩ }
  | asked {a : Spec} (o : Operation) :
    a.operation = some o → Allows ctlModel a (.asked (some o.connection)) a
  | operated {a : Spec} (o : Operation) (currentTime : UInt64) :
    a.operation = some o → o.operated = false →
    Allows ctlModel a (.operated (some o.parameters.ctlVal) o.testMode currentTime)
      ⟨a.selection.map fun x => { x with selectTime := currentTime },
        some { o with operated := true }⟩
  | sent {a : Spec} (o : Operation) (message : Message) :
    a.operation = some o → Allows ctlModel a (.sent o.connection message) a
  | cancelled {a : Spec} (connection : Connection) :
    Allows ctlModel a (.cancelled connection) ⟨none, none⟩
  | finished {a : Spec} (operateOnce : Bool) :
    Allows ctlModel a (.finished operateOnce) ⟨if operateOnce then none else a.selection, none⟩
  | abandoned {a : Spec} : Allows ctlModel a .abandoned { a with operation := none }
  | connectionClosed {a : Spec} (connection : Connection) :
    Allows ctlModel a (.connectionClosed connection)
      { a with selection := a.selection.filter (·.connection ≠ connection) }

/-- The trace is one the purpose allows. -/
abbrev Allowed (ctlModel : UInt32) (a : Spec) (trace : List Observation) (a' : Spec) : Prop :=
  Transition.Run (Allows ctlModel) (fun _ _ => True) a trace a'

/-- A control object with what has been seen of it. -/
structure ControlHistory where
  server : Server
  trace : List Observation

namespace ControlHistory

def start (object : ControlObject) : ControlHistory := ⟨.create object, []⟩

def Step (h : ControlHistory) (e : Event) (h' : ControlHistory) : Prop :=
  ∃ server observations, h.server.step e = .ok (server, observations) ∧
    h' = ⟨server, h.trace ++ observations⟩

/-- Everything seen is allowed, and there is at most one operation. -/
structure SelectsBeforeOperate (h : ControlHistory) : Prop where
  allowed : ∃ a, Allowed h.server.object.ctlModel ⟨none, none⟩ h.trace a
  operations : h.server.operations ≤ 1

end ControlHistory

namespace Server

/-- The request is a valid `Cancel` of the connection that has selected the object. -/
def OwnerCancels (s : Server) (w : ControlWrite) : Prop :=
  s.object.state ≠ .unselected ∧ s.object.clientConnection = some w.connection ∧
    (getCancelParameterCtlNum w.value).isSome ∧ (getCancelParameterOrigin w.value).isSome

/-- No operation is in progress when its connection cancels or is cleared up. -/
def Undisturbed (s : Server) (e : Event) : Prop :=
  s.Permits e ∧
    match e with
    | .writeCancel w => s.OwnerCancels w → s.operations = 0
    | .unselect connection =>
      s.object.clientConnection = some connection → s.operations = 0
    | _ => True

end Server

theorem ControlParameters.Same.of_equals {p q r : ControlParameters} (h : p.equals q = true)
    (h' : q.Same r) : p.Same r := by
  rcases h' with rfl | h'
  · exact .inr h
  · right
    simp only [ControlParameters.equals, Bool.and_eq_true] at h h' ⊢
    exact ⟨⟨MmsValue.equals_trans h.1.1 h'.1.1, MmsValue.equals_trans h.1.2 h'.1.2⟩,
      MmsValue.equals_trans h.2 h'.2⟩

/-- The object knows the selection. -/
structure Knows (ctlModel : UInt32) (object : ControlObject) (closed : List Connection)
    (x : Selection) : Prop where
  connection : object.clientConnection = some x.connection
  selectTime : x.selectTime = object.selectTime
  selectTimeout : x.selectTimeout = object.selectTimeout
  present : x.connection ∉ closed
  parameters : ctlModel = 4 → ∃ p q, object.parameters = some p ∧ x.parameters = some q ∧ p.Same q

/-- The last client of the object is gone. -/
def Left (object : ControlObject) (closed : List Connection) : Prop :=
  ∃ connection ∈ closed, object.clientConnection = some connection

structure Selected (ctlModel : UInt32) (object : ControlObject) (closed : List Connection)
    (selection : Option Selection) : Prop where
  knows : ∀ x, selection = some x → Knows ctlModel object closed x
  none : selection = none → object.state = .unselected ∨ Left object closed
  unselected : object.state = .unselected → selection = Option.none

/-- Where the operation is. -/
inductive Stage (s : Server) (o : Operation) : Prop
  | waiting : s.object.timeActivatedOperate = true → s.starting = false →
    s.workers.filter Worker.isActive = [] → o.operated = false → Stage s o
  | starting : s.object.timeActivatedOperate = false → s.starting = true →
    s.workers.filter Worker.isActive = [] → o.operated = false → Stage s o
  | working (worker : Worker) : s.object.timeActivatedOperate = false → s.starting = false →
    s.workers.filter Worker.isActive = [worker] →
    (worker.beforeOperate = true → o.operated = false) → Stage s o

structure Idle (s : Server) : Prop where
  timeActivatedOperate : s.object.timeActivatedOperate = false
  starting : s.starting = false
  workers : s.workers.filter Worker.isActive = []
  state : s.object.state = .unselected ∨ s.object.state = .ready ∨ Left s.object s.closed

def ControlState.isBusy : ControlState → Bool
  | .unselected => false
  | .ready => false
  | _ => true

structure Busy (s : Server) (o : Operation) : Prop where
  connection : s.object.clientConnection = some o.connection
  parameters : s.object.parameters = some o.parameters
  testMode : s.object.testMode = o.testMode
  state : s.object.state.isBusy = true
  stage : Stage s o

/-- The object and its threads agree with the purpose. -/
structure Sim (ctlModel : UInt32) (s : Server) (a : Spec) : Prop where
  sbo : ctlModel = 2 ∨ ctlModel = 4
  model : s.object.ctlModel = ctlModel
  selected : Selected ctlModel s.object s.closed a.selection
  idle : a.operation = none → Idle s
  busy : ∀ o, a.operation = some o → Busy s o

theorem ControlState.not_unselected {state : ControlState} (h : state.isBusy = true) :
    state ≠ .unselected := by
  rintro rfl
  cases h

theorem ControlState.not_ready {state : ControlState} (h : state.isBusy = true) :
    state ≠ .ready := by
  rintro rfl
  cases h

theorem Allowed.single {ctlModel : UInt32} {a a' : Spec} {o : Observation}
    (h : Allows ctlModel a o a') : Allowed ctlModel a [o] a' := by
  have hnil : Allowed ctlModel a [] a := .nil
  exact hnil.snoc trivial h

section

variable {m : UInt32} {s s' : Server} {a a' : Spec} {observations : List Observation}

/-- The step is one the purpose allows. -/
def Simulated (m : UInt32) (a : Spec) (s' : Server) (observations : List Observation) : Prop :=
  ∃ a', Allowed m a observations a' ∧ Sim m s' a'

theorem Simulated.quiet (h : Sim m s' a) : Simulated m a s' [] := ⟨a, .nil, h⟩

theorem Simulated.after {first : List Observation} (h : Allowed m a first a')
    (h' : Simulated m a' s' observations) : Simulated m a s' (first ++ observations) := by
  obtain ⟨a'', hr, hs⟩ := h'
  exact ⟨a'', h.append hr, hs⟩

theorem Sim.isSelectBeforeOperate (h : Sim m s a) : s.object.isSelectBeforeOperate = true := by
  rw [ControlObject.isSelectBeforeOperate, h.model]
  rcases h.sbo with rfl | rfl <;> rfl

theorem Sim.ready (h : Sim m s a) (hr : s.object.state = .ready) : a.operation = none := by
  cases ha : a.operation with
  | none => rfl
  | some o => exact absurd hr (ControlState.not_ready (h.busy o ha).state)

theorem Sim.unselected (h : Sim m s a) (hu : s.object.state = .unselected) :
    a = ⟨none, none⟩ := by
  have hsel := h.selected.unselected hu
  obtain ⟨selection, operation⟩ := a
  cases operation with
  | none => rw [show selection = none from hsel]
  | some o => exact absurd hu (ControlState.not_unselected (h.busy o rfl).state)

/-- The selection is looked at: it may have expired. -/
theorem Sim.checkSelectTimeout (h : Sim m s a) (currentTime : UInt64) :
    ∃ a', Allowed m a (s.object.checkSelectTimeout currentTime).2 a' ∧
      Sim m { s with object := (s.object.checkSelectTimeout currentTime).1 } a' ∧
      ((s.object.checkSelectTimeout currentTime).1.state = .ready →
        ∀ x, a'.selection = some x → ¬ x.Expired currentTime) := by
  rw [ControlObject.checkSelectTimeout, h.isSelectBeforeOperate, Bool.true_and]
  split
  case isTrue hexp =>
    simp only [Bool.and_eq_true, decide_eq_true_eq] at hexp
    have hidle := h.idle (h.ready hexp.1.1)
    refine ⟨{ a with selection := none }, .single (.expired currentTime ?_), ?_, ?_⟩
    · intro x hx
      have hknows := h.selected.knows x hx
      rw [Selection.Expired, hknows.selectTime, hknows.selectTimeout]
      exact ⟨hexp.1.2, hexp.2⟩
    · refine ⟨h.sbo, h.model, ⟨?_, fun _ => .inl rfl, fun _ => rfl⟩, fun _ => ?_, ?_⟩
      · intro x hx
        cases hx
      · exact ⟨hidle.timeActivatedOperate, hidle.starting, hidle.workers, .inl rfl⟩
      · intro o ho
        rw [h.ready hexp.1.1] at ho
        cases ho
    · intro hr
      cases hr
  case isFalse hexp =>
    refine ⟨a, .nil, h, ?_⟩
    intro hr x hx hexpired
    have hknows := h.selected.knows x hx
    rw [Selection.Expired, hknows.selectTime, hknows.selectTimeout] at hexpired
    apply hexp
    simp only [Bool.and_eq_true, decide_eq_true_eq]
    exact ⟨⟨hr, hexpired.1⟩, hexpired.2⟩

theorem Sim.selectObject (h : Sim m s a) (hu : s.object.state = .unselected)
    {connection : Connection} (hc : connection ∉ s.closed) (currentTime : UInt64)
    (parameters : Option ControlParameters)
    (hp : m = 4 → parameters.isSome) :
    Simulated m a
      { s with object := { s.object.selectObject currentTime connection with
        parameters := parameters.or s.object.parameters } }
      [.selected connection currentTime (s.object.sboTimeout.getD ControlObject.defaultSboTimeout)
        parameters] := by
  obtain rfl := h.unselected hu
  have hidle := h.idle rfl
  refine ⟨_, .single (.selected connection currentTime _ parameters rfl rfl), h.sbo, h.model,
    ⟨?_, ?_, ?_⟩, fun _ => ?_, ?_⟩
  · intro x hx
    obtain rfl := Option.some.inj hx
    refine ⟨rfl, rfl, rfl, hc, fun hm => ?_⟩
    obtain ⟨p, hp⟩ := Option.isSome_iff_exists.mp (hp hm)
    exact ⟨p, p, by simp [hp], hp, .inl rfl⟩
  · intro hnone
    cases hnone
  · intro hstate
    cases hstate
  · exact ⟨hidle.timeActivatedOperate, hidle.starting, hidle.workers, .inr (.inl rfl)⟩
  · intro o ho
    cases ho

theorem Sim.readSBO (h : Sim m s a) {connection : Connection} (hc : connection ∉ s.closed)
    (currentTime : UInt64) (result : CheckResult) :
    Simulated m a { s with object := (s.object.readSBO connection currentTime result).1 }
      (s.object.readSBO connection currentTime result).2.2 := by
  rw [ControlObject.readSBO]
  split
  case isTrue hmodel =>
    obtain ⟨a1, hr, hs, -⟩ := h.checkSelectTimeout currentTime
    dsimp only
    split
    case isTrue hok =>
      rw [Bool.and_eq_true, decide_eq_true_eq] at hok
      refine .after hr ?_
      have hnot4 : m ≠ 4 := by
        rw [← h.model, hmodel]
        decide
      exact hs.selectObject hok.1 hc currentTime none fun hm => absurd hm hnot4
    case isFalse => exact ⟨a1, hr, hs⟩
  case isFalse => exact .quiet h

theorem Sim.writeSBOw (h : Sim m s a) {w : ControlWrite} (hc : w.connection ∉ s.closed)
    {currentTime : UInt64} {result : CheckResult} {r : Handled}
    (hr : s.object.writeSBOw w currentTime result = .ok r) :
    Simulated m a (s.handled r).1 (s.handled r).2 := by
  unfold ControlObject.writeSBOw at hr
  split at hr
  · cases hr
    exact .quiet h
  case isFalse hmodel =>
  split at hr
  · cases hr
    exact .quiet h
  · split at hr
    · cases hr
      exact .quiet h
    · obtain ⟨a1, hrun, hs, -⟩ := h.checkSelectTimeout currentTime
      dsimp only at hr
      split at hr
      · cases hr
        exact ⟨a1, hrun, hs⟩
      case isFalse hu =>
        split at hr
        · cases hr
          refine .after hrun ?_
          exact hs.selectObject (not_not.mp hu) hc currentTime (some _) fun _ => rfl
        · cases hr
          exact ⟨a1, hrun, hs⟩
  · cases hr

/-- The same client and the same time of the selection; the parameters may have been replaced by
the same ones. -/
structure SameSelection (object object' : ControlObject) : Prop where
  model : object'.ctlModel = object.ctlModel
  connection : object'.clientConnection = object.clientConnection
  selectTime : object'.selectTime = object.selectTime
  selectTimeout : object'.selectTimeout = object.selectTimeout
  parameters : object.ctlModel = 4 → ∀ p, object.parameters = some p →
    ∃ p', object'.parameters = some p' ∧ ∀ q, p.Same q → p'.Same q

theorem SameSelection.of_eq {object object' : ControlObject}
    (hm : object'.ctlModel = object.ctlModel)
    (hc : object'.clientConnection = object.clientConnection)
    (ht : object'.selectTime = object.selectTime)
    (hto : object'.selectTimeout = object.selectTimeout)
    (hp : object'.parameters = object.parameters) : SameSelection object object' :=
  ⟨hm, hc, ht, hto, fun _ p h => ⟨p, hp.trans h, fun _ hq => hq⟩⟩

theorem Knows.of_same {object object' : ControlObject} {closed : List Connection} {x : Selection}
    (h : Knows object.ctlModel object closed x) (hs : SameSelection object object') :
    Knows object.ctlModel object' closed x := by
  refine ⟨hs.connection.trans h.connection, h.selectTime.trans hs.selectTime.symm,
    h.selectTimeout.trans hs.selectTimeout.symm, h.present, fun hm => ?_⟩
  obtain ⟨p, q, hp, hq, hsame⟩ := h.parameters hm
  obtain ⟨p', hp', hall⟩ := hs.parameters hm p hp
  exact ⟨p', q, hp', hq, hall q hsame⟩

theorem Selected.of_same {object object' : ControlObject} {closed : List Connection}
    {selection : Option Selection} (h : Selected object.ctlModel object closed selection)
    (hs : SameSelection object object') (hu : object.state ≠ .unselected)
    (hu' : object'.state ≠ .unselected) :
    Selected object.ctlModel object' closed selection := by
  refine ⟨fun x hx => (h.knows x hx).of_same hs, fun hnone => ?_, fun hstate => absurd hstate hu'⟩
  rcases h.none hnone with hstate | ⟨connection, hmem, hc⟩
  · exact absurd hstate hu
  · exact .inr ⟨connection, hmem, hs.connection.trans hc⟩

/-- The operation is over. -/
theorem Sim.finish (h : Sim m s a) (object : ControlObject) {starting : Bool}
    {workers : List Worker} (hsame : SameSelection s.object object)
    (hu : s.object.state ≠ .unselected) (ht : object.timeActivatedOperate = false)
    (hstart : starting = false) (hw : workers.filter Worker.isActive = []) (a1 : Option Operation) :
    Simulated m ⟨a.selection, a1⟩ ⟨object.abortControlOperation, starting, workers, s.closed⟩
      [.finished object.isSboClassOperateOnce] := by
  have hsbo : object.isSelectBeforeOperate = true := by
    have := h.isSelectBeforeOperate
    rwa [ControlObject.isSelectBeforeOperate, ← hsame.model] at this
  refine ⟨_, .single (.finished _), h.sbo, hsame.model.trans h.model, ?_, fun _ => ?_, ?_⟩
  · rw [ControlObject.abortControlOperation, hsbo, Bool.true_and]
    cases honce : object.isSboClassOperateOnce with
    | true =>
      refine ⟨?_, fun _ => .inl rfl, fun _ => rfl⟩
      intro x hx
      cases hx
    | false =>
      obtain rfl := h.model
      refine Selected.of_same h.selected ?_ hu (by simp)
      exact ⟨hsame.model, hsame.connection, hsame.selectTime, hsame.selectTimeout,
        hsame.parameters⟩
  · refine ⟨ht, hstart, hw, ?_⟩
    rw [ControlObject.abortControlOperation, hsbo, Bool.true_and]
    cases object.isSboClassOperateOnce with
    | true => exact .inl rfl
    | false => exact .inr (.inl rfl)
  · intro o ho
    cases ho

theorem allowed_asked {o : Operation} (h : a.operation = some o) (result : CheckResult) :
    Allowed m a (asked result (some o.connection)) a := by
  rw [asked]
  split
  · exact .single (.asked o h)
  · exact .nil

/-- The holder of the selection writes `Oper`. -/
theorem Sim.operateWritten (h : Sim m s a) {x : Selection} (hx : a.selection = some x)
    (hr : s.object.state = .ready) {currentTime : UInt64} (he : ¬ x.Expired currentTime)
    {p : ControlParameters} (hp : m = 4 → ∃ q, s.object.parameters = some q ∧ p.equals q = true)
    (testMode : Bool) :
    Allowed m a [.operateWritten x.connection currentTime p testMode]
      { a with operation := some ⟨x.connection, p, testMode, false⟩ } := by
  refine .single (.operateWritten x currentTime p testMode (h.ready hr) hx he fun hm => ?_)
  obtain ⟨q, hq, heq⟩ := hp hm
  obtain ⟨q', r, hq', hparams, hsame⟩ := (h.selected.knows x hx).parameters hm
  obtain rfl := Option.some.inj (hq.symm.trans hq')
  exact ⟨r, hparams, .of_equals heq hsame⟩

/-- The object is busy with an operation of the connection that has selected it. -/
theorem Sim.busy_of (h : Sim m s a) {o : Operation} (object : ControlObject) (starting : Bool)
    (workers : List Worker) (hsame : SameSelection s.object object)
    (hstate : s.object.state ≠ .unselected) (hb : object.state.isBusy = true)
    (hc : object.clientConnection = some o.connection)
    (hp : object.parameters = some o.parameters) (ht : object.testMode = o.testMode)
    (hstage : Stage ⟨object, starting, workers, s.closed⟩ o) :
    Sim m ⟨object, starting, workers, s.closed⟩ ⟨a.selection, some o⟩ := by
  obtain rfl := h.model
  have hselected := h.selected.of_same hsame hstate (ControlState.not_unselected hb)
  refine ⟨h.sbo, hsame.model, hselected, fun hnone => (nomatch hnone), ?_⟩
  intro o' ho
  obtain rfl := Option.some.inj ho
  exact ⟨hc, hp, ht, hb, hstage⟩

theorem Sim.performTest (h : Sim m s a) (o : Operation) (object : ControlObject)
    (hsame : SameSelection s.object object) (hr : s.object.state = .ready)
    (hta : object.timeActivatedOperate = false) (hc : object.clientConnection = some o.connection)
    (hp : object.parameters = some o.parameters) (ht : object.testMode = o.testMode)
    (hop : o.operated = false) (result : CheckResult) (invokeId : UInt32)
    (hwritten : Allowed m a observations ⟨a.selection, some o⟩) :
    Simulated m a (s.handled (object.performTest o.connection result invokeId observations)).1
      (s.handled (object.performTest o.connection result invokeId observations)).2 := by
  have hu : s.object.state ≠ .unselected := by
    rw [hr]
    decide
  have hidle := h.idle (h.ready hr)
  have hasked := hwritten.append (allowed_asked rfl result)
  rw [ControlObject.performTest]
  dsimp only
  split
  · refine ⟨_, hasked, h.busy_of _ _ _ ?_ hu rfl rfl hp ht ?_⟩
    · exact ⟨hsame.model, hc.symm.trans hsame.connection, hsame.selectTime, hsame.selectTimeout,
        hsame.parameters⟩
    · refine .working .start hta hidle.starting ?_ fun _ => hop
      change (s.workers ++ [Worker.start]).filter Worker.isActive = _
      rw [List.filter_append, hidle.workers]
      rfl
  · refine .after hasked ?_
    refine h.finish { object with state := .performTest } ?_ hu hta hidle.starting
      hidle.workers _
    exact ⟨hsame.model, hsame.connection, hsame.selectTime, hsame.selectTimeout, hsame.parameters⟩

theorem Sim.acceptOper (h : Sim m s a) {w : ControlWrite} {x : Selection}
    (hx : a.selection = some x) (hr : s.object.state = .ready)
    (hc : s.object.clientConnection = some w.connection) {currentTime : UInt64}
    (he : ¬ x.Expired currentTime) {p : ControlParameters}
    (hp : m = 4 → ∃ q, s.object.parameters = some q ∧ p.equals q = true) (check : MmsValue)
    (result : CheckResult) (invokeId : UInt32) :
    Simulated m a (s.handled (s.object.acceptOper w p check currentTime result invokeId [])).1
      (s.handled (s.object.acceptOper w p check currentTime result invokeId [])).2 := by
  have hidle := h.idle (h.ready hr)
  have hu : s.object.state ≠ .unselected := by
    rw [hr]
    decide
  obtain hxc : x.connection = w.connection :=
    Option.some.inj ((h.selected.knows x hx).connection.symm.trans hc)
  have hwritten := h.operateWritten hx hr he hp s.object.testMode
  rw [hxc] at hwritten
  have hparams : s.object.ctlModel = 4 → ∀ q, s.object.parameters = some q →
      ∃ p', some p = some p' ∧ ∀ r, q.Same r → p'.Same r := by
    intro hm q hq
    obtain ⟨q', hq', heq⟩ := hp (h.model.symm.trans hm)
    obtain rfl := Option.some.inj (hq.symm.trans hq')
    exact ⟨p, rfl, fun r hsame => .of_equals heq hsame⟩
  rw [ControlObject.acceptOper, ControlObject.setOperateTime]
  dsimp only
  split
  case h_1 =>
    rw [if_neg (by simp [hidle.timeActivatedOperate])]
    refine h.performTest ⟨w.connection, p, s.object.testMode, false⟩
      { s.object with parameters := some p, oper := s.object.oper.updated w.value } ?_ hr
      hidle.timeActivatedOperate hc rfl rfl rfl result invokeId hwritten
    exact ⟨rfl, rfl, rfl, rfl, hparams⟩
  case h_2 operTm _ =>
    split
    case isTrue =>
      rw [if_pos rfl, hidle.timeActivatedOperate, Bool.false_and, if_neg (by decide)]
      refine ⟨_, hwritten, h.busy_of _ _ _ ?_ hu rfl rfl rfl rfl ?_⟩
      · exact ⟨rfl, hc.symm, rfl, rfl, hparams⟩
      · exact .waiting rfl hidle.starting hidle.workers rfl
    case isFalse =>
      rw [if_neg (by simp [hidle.timeActivatedOperate])]
      refine h.performTest ⟨w.connection, p, s.object.testMode, false⟩
        { s.object with parameters := some p, operateTime := w.operTm operTm
                        oper := s.object.oper.updated w.value } ?_ hr
        hidle.timeActivatedOperate hc rfl rfl rfl result invokeId hwritten
      exact ⟨rfl, rfl, rfl, rfl, hparams⟩

theorem acceptOper_observations {object : ControlObject} {w : ControlWrite}
    {p : ControlParameters} {check : MmsValue} {currentTime : UInt64} {result : CheckResult}
    {invokeId : UInt32} (first : List Observation) :
    object.acceptOper w p check currentTime result invokeId first =
      { object.acceptOper w p check currentTime result invokeId [] with
        observations :=
          first ++ (object.acceptOper w p check currentTime result invokeId []).observations } := by
  simp only [ControlObject.acceptOper, ControlObject.performTest, ControlObject.refuse]
  split
  · split <;> simp
  · split <;> simp

theorem Sim.setTestMode (h : Sim m s a) (hr : s.object.state = .ready) (testMode : Bool) :
    Sim m { s with object := { s.object with testMode := testMode } } a := by
  have hidle := h.idle (h.ready hr)
  obtain rfl := h.model
  refine ⟨h.sbo, rfl, ?_, fun _ => ?_, ?_⟩
  · refine h.selected.of_same ⟨rfl, rfl, rfl, rfl, fun _ p hp => ⟨p, hp, fun _ hq => hq⟩⟩ ?_ ?_
    · rw [hr]
      decide
    · change s.object.state ≠ _
      rw [hr]
      decide
  · exact ⟨hidle.timeActivatedOperate, hidle.starting, hidle.workers, hidle.state⟩
  · intro o ho
    rw [h.ready hr] at ho
    cases ho

/-- A client that is there and known to the object holds the selection. -/
theorem Sim.holder (h : Sim m s a) (hu : s.object.state ≠ .unselected) {connection : Connection}
    (hc : s.object.clientConnection = some connection) (hp : connection ∉ s.closed) :
    ∃ x, a.selection = some x := by
  cases hs : a.selection with
  | some x => exact ⟨x, rfl⟩
  | none =>
    rcases h.selected.none hs with hstate | ⟨c, hmem, hc'⟩
    · exact absurd hstate hu
    · obtain rfl := Option.some.inj (hc.symm.trans hc')
      exact absurd hmem hp

theorem Sim.writeOper (h : Sim m s a) {w : ControlWrite} (hc : w.connection ∉ s.closed)
    {currentTime : UInt64} {result : CheckResult} {invokeId : UInt32} {r : Handled}
    (hw : s.object.writeOper w currentTime result invokeId = .ok r) :
    Simulated m a (s.handled r).1 (s.handled r).2 := by
  unfold ControlObject.writeOper at hw
  split at hw
  case h_2 =>
    cases hw
    exact .quiet h
  case h_1 ctlVal test ctlNum origin check _ _ _ _ _ _ _ =>
  split at hw
  · cases hw
    exact .quiet h
  obtain ⟨a1, hrun, hs, hexpired⟩ := h.checkSelectTimeout currentTime
  dsimp only at hw
  split at hw
  · cases hw
    exact ⟨a1, hrun, hs⟩
  · cases hw
    exact ⟨a1, hrun, hs⟩
  case h_3 hr =>
    have hs1 := hs.setTestMode hr (w.test test)
    rw [if_pos hs1.isSelectBeforeOperate] at hw
    split at hw
    · cases hw
      exact ⟨a1, hrun, hs1⟩
    case isFalse hclient =>
      rw [not_not] at hclient
      have hu : ControlState.ready ≠ .unselected := by decide
      obtain ⟨x, hx⟩ := hs.holder (hr.trans_ne hu) hclient hc
      have haccepted (hp : m = 4 → ∃ q,
          (s.object.checkSelectTimeout currentTime).1.parameters = some q ∧
            ControlParameters.equals ⟨ctlVal, ctlNum, origin⟩ q = true) :=
        hs1.acceptOper hx hr hclient (hexpired hr x hx) hp check result invokeId
      split at hw
      case isTrue hmodel =>
        split at hw
        · cases hw
        case h_2 stored hstored =>
          split at hw
          case isTrue heq =>
            cases hw
            rw [acceptOper_observations]
            exact .after hrun (haccepted fun _ => ⟨stored, hstored, heq⟩)
          case isFalse =>
            cases hw
            exact ⟨a1, hrun, hs1⟩
      case isFalse hmodel =>
        cases hw
        rw [acceptOper_observations]
        exact .after hrun (haccepted fun hm => absurd (hs1.model.trans hm) hmodel)
  · cases hw
    exact ⟨a1, hrun, hs⟩

/-- A time activated operation that waits is the one in progress. -/
theorem Sim.waiting (h : Sim m s a) (ht : s.object.timeActivatedOperate = true) :
    ∃ o, a.operation = some o ∧ s.starting = false ∧ s.workers.filter Worker.isActive = [] ∧
      o.operated = false := by
  cases ho : a.operation with
  | none => exact Bool.noConfusion (ht.symm.trans (h.idle ho).timeActivatedOperate)
  | some o =>
    cases (h.busy o ho).stage with
    | waiting _ hs hw hop => exact ⟨o, rfl, hs, hw, hop⟩
    | starting hf => exact Bool.noConfusion (ht.symm.trans hf)
    | working _ hf => exact Bool.noConfusion (ht.symm.trans hf)

theorem Sim.cancelTimeActivated (h : Sim m s a) (indication : MmsDataAccessError)
    (lastApplError : Option LastApplError) :
    Simulated m a (s.handled (s.object.cancelTimeActivated indication lastApplError)).1
      (s.handled (s.object.cancelTimeActivated indication lastApplError)).2 := by
  rw [ControlObject.cancelTimeActivated]
  split
  case isTrue ht =>
    obtain ⟨o, ho, hs, hw, -⟩ := h.waiting ht
    have hu := ControlState.not_unselected (h.busy o ho).state
    exact h.finish { s.object with timeActivatedOperate := false }
      (.of_eq rfl rfl rfl rfl rfl) hu rfl hs hw a.operation
  case isFalse => exact .quiet h

theorem operations_eq_zero (h : s.operations = 0) : s.object.timeActivatedOperate = false ∧
    s.starting = false ∧ s.workers.filter Worker.isActive = [] := by
  rw [Server.operations] at h
  refine ⟨?_, ?_, ?_⟩
  · by_contra hne
    rw [if_pos (eq_true_of_ne_false hne)] at h
    omega
  · by_contra hne
    rw [if_pos (eq_true_of_ne_false hne)] at h
    omega
  · apply List.eq_nil_of_length_eq_zero
    omega

theorem Sim.idle_of_operations (h : Sim m s a) (hz : s.operations = 0) : a.operation = none := by
  obtain ⟨ht, hs, hw⟩ := operations_eq_zero hz
  cases ho : a.operation with
  | none => rfl
  | some o =>
    cases (h.busy o ho).stage with
    | waiting htrue => exact Bool.noConfusion (htrue.symm.trans ht)
    | starting _ htrue => exact Bool.noConfusion (htrue.symm.trans hs)
    | working _ _ _ hone =>
      rw [hw] at hone
      cases hone

theorem Sim.writeCancel (h : Sim m s a) {w : ControlWrite}
    (hg : s.OwnerCancels w → s.operations = 0) :
    Simulated m a (s.handled (s.object.writeCancel w)).1
      (s.handled (s.object.writeCancel w)).2 := by
  rw [ControlObject.writeCancel]
  split
  case h_1 ctlNum origin hnum horigin =>
    rw [h.isSelectBeforeOperate, Bool.true_and]
    split
    case isTrue hu =>
      rw [decide_eq_true_eq] at hu
      split
      case isTrue hc =>
        have hzero := hg ⟨hu, hc, by rw [hnum]; rfl, by rw [horigin]; rfl⟩
        obtain ⟨ht, hs, hw⟩ := operations_eq_zero hzero
        refine ⟨⟨none, none⟩, .single (.cancelled _), h.sbo, h.model, ?_, fun _ => ?_, ?_⟩
        · exact ⟨fun x hx => (nomatch hx), fun _ => .inl rfl, fun _ => rfl⟩
        · exact ⟨ht, hs, hw, .inl rfl⟩
        · exact fun o ho => (nomatch ho)
      case isFalse => exact h.cancelTimeActivated _ _
    case isFalse => exact h.cancelTimeActivated _ _
  case h_2 => exact .quiet h

theorem Sim.processControlActions (h : Sim m s a) (currentTime : UInt64) :
    Sim m (s.processControlActions currentTime) a := by
  rw [Server.processControlActions]
  split
  case isTrue hdue =>
    simp only [Bool.and_eq_true] at hdue
    obtain ⟨o, ho, -, hw, hop⟩ := h.waiting hdue.1.2
    have hbusy := h.busy o ho
    have hsim := h.busy_of { s.object with timeActivatedOperate := false } true s.workers
      (.of_eq rfl rfl rfl rfl rfl) (ControlState.not_unselected hbusy.state)
      hbusy.state hbusy.connection hbusy.parameters hbusy.testMode (.starting rfl rfl hw hop)
    rwa [← ho] at hsim
  case isFalse => exact h

theorem Busy.sendLastApplError {o : Operation} (h : Busy s o) (addCause : Int32) :
    ∃ message, s.object.sendLastApplError addCause = .ok [.sent o.connection message] := by
  rw [ControlObject.sendLastApplError, h.parameters]
  simp only [ControlObject.send]
  rw [h.connection]
  exact ⟨_, rfl⟩

theorem Sim.startActivated (h : Sim m s a) {result : CheckResult}
    (hs : s.startActivated result = .ok (s', observations)) : Simulated m a s' observations := by
  unfold Server.startActivated at hs
  split at hs
  case isFalse =>
    cases hs
    exact .quiet h
  case isTrue hstart =>
  have hop : ∃ o, a.operation = some o ∧ s.object.timeActivatedOperate = false ∧
      s.workers.filter Worker.isActive = [] ∧ o.operated = false := by
    cases ho : a.operation with
    | none => exact Bool.noConfusion (hstart.symm.trans (h.idle ho).starting)
    | some o =>
      cases (h.busy o ho).stage with
      | waiting _ hf => exact Bool.noConfusion (hstart.symm.trans hf)
      | starting ht _ hw hop => exact ⟨o, rfl, ht, hw, hop⟩
      | working _ _ hf => exact Bool.noConfusion (hstart.symm.trans hf)
  obtain ⟨o, ho, ht, hw, hop⟩ := hop
  have hbusy := h.busy o ho
  have hasked := allowed_asked (m := m) ho result
  dsimp only at hs
  rw [hbusy.connection] at hs
  split at hs
  · cases hs
    refine ⟨_, hasked, ?_⟩
    have hsim := h.busy_of s.object false (s.workers ++ [.start]) (.of_eq rfl rfl rfl rfl rfl)
      (ControlState.not_unselected hbusy.state) hbusy.state hbusy.connection hbusy.parameters
      hbusy.testMode (.working .start ht rfl ?_ fun _ => hop)
    · rwa [← ho] at hsim
    · change (s.workers ++ [Worker.start]).filter Worker.isActive = _
      rw [List.filter_append, hw]
      rfl
  · obtain ⟨message, hmessage⟩ := hbusy.sendLastApplError 10
    rw [hmessage] at hs
    cases hs
    rw [List.append_assoc]
    refine .after hasked (.after (.single (.sent o message ho)) ?_)
    exact h.finish s.object (.of_eq rfl rfl rfl rfl rfl)
      (ControlState.not_unselected hbusy.state) ht rfl hw a.operation

theorem Sim.connectionClosed (h : Sim m s a) (connection : Connection) :
    Simulated m a { s with closed := connection :: s.closed } [.connectionClosed connection] := by
  refine ⟨_, .single (.connectionClosed connection), h.sbo, h.model, ⟨?_, ?_, ?_⟩, ?_, ?_⟩
  · intro x hx
    obtain ⟨hx, hne⟩ := Option.filter_eq_some_iff.mp hx
    have hknows := h.selected.knows x hx
    refine ⟨hknows.connection, hknows.selectTime, hknows.selectTimeout, ?_, hknows.parameters⟩
    rw [List.mem_cons, not_or]
    exact ⟨of_decide_eq_true hne, hknows.present⟩
  · intro hnone
    cases hs : a.selection with
    | none =>
      exact (h.selected.none hs).imp_right fun ⟨c, hmem, hc⟩ => ⟨c, List.mem_cons_of_mem _ hmem, hc⟩
    | some x =>
      change a.selection.filter _ = none at hnone
      rw [hs, Option.filter_some] at hnone
      split at hnone
      · cases hnone
      case isFalse hx =>
        have hx : x.connection = connection := by simpa using hx
        exact .inr ⟨connection, List.mem_cons_self, hx ▸ (h.selected.knows x hs).connection⟩
  · intro hu
    change a.selection.filter _ = none
    rw [h.selected.unselected hu]
    rfl
  · intro ho
    have hidle := h.idle ho
    refine ⟨hidle.timeActivatedOperate, hidle.starting, hidle.workers, ?_⟩
    exact hidle.state.imp_right
      (.imp_right fun ⟨c, hmem, hc⟩ => ⟨c, List.mem_cons_of_mem _ hmem, hc⟩)
  · intro o ho
    have hbusy := h.busy o ho
    refine ⟨hbusy.connection, hbusy.parameters, hbusy.testMode, hbusy.state, ?_⟩
    cases hbusy.stage with
    | waiting ht hs hw hop => exact .waiting ht hs hw hop
    | starting ht hs hw hop => exact .starting ht hs hw hop
    | working worker ht hs hw hop => exact .working worker ht hs hw hop

/-- Nobody has selected the object of a client that is gone. -/
theorem Sim.unselect (h : Sim m s a) {connection : Connection} (hc : connection ∈ s.closed)
    (hz : s.object.clientConnection = some connection → s.operations = 0) :
    Sim m { s with object := s.object.unselect connection } a := by
  rw [ControlObject.unselect]
  split
  case isFalse => exact h
  case isTrue hclient =>
    obtain ⟨ht, hs, hw⟩ := operations_eq_zero (hz hclient)
    have ho := h.idle_of_operations (hz hclient)
    have hsel : a.selection = none := by
      by_contra hne
      obtain ⟨x, hx⟩ := Option.ne_none_iff_exists'.mp hne
      have hknows := h.selected.knows x hx
      have hxc := Option.some.inj (hknows.connection.symm.trans hclient)
      exact hknows.present (hxc ▸ hc)
    refine ⟨h.sbo, h.model, ⟨?_, fun _ => .inr ⟨connection, hc, hclient⟩, fun _ => hsel⟩, ?_, ?_⟩
    · intro x hx
      rw [hsel] at hx
      cases hx
    · exact fun _ => ⟨ht, hs, hw, .inr (.inr ⟨connection, hc, hclient⟩)⟩
    · intro o ho'
      rw [ho] at ho'
      cases ho'

theorem Sim.configure (h : Sim m s a) (sboClass : Option Int32) (sboTimeout : Option UInt32) :
    Sim m { s with object := { s.object with sboClass := sboClass, sboTimeout := sboTimeout } }
      a := by
  refine ⟨h.sbo, h.model, ⟨?_, h.selected.none, h.selected.unselected⟩, ?_, ?_⟩
  · intro x hx
    have hknows := h.selected.knows x hx
    exact ⟨hknows.connection, hknows.selectTime, hknows.selectTimeout, hknows.present,
      hknows.parameters⟩
  · intro ho
    have hidle := h.idle ho
    exact ⟨hidle.timeActivatedOperate, hidle.starting, hidle.workers, hidle.state⟩
  · intro o ho
    have hbusy := h.busy o ho
    refine ⟨hbusy.connection, hbusy.parameters, hbusy.testMode, hbusy.state, ?_⟩
    cases hbusy.stage with
    | waiting ht hs hw hop => exact .waiting ht hs hw hop
    | starting ht hs hw hop => exact .starting ht hs hw hop
    | working worker ht hs hw hop => exact .working worker ht hs hw hop

/-- The threads with one of them moved on. -/
def moved (workers : List Worker) (index : Nat) (next : Option Worker) : List Worker :=
  workers.take index ++ next.toList ++ workers.drop (index + 1)

theorem filter_moved {workers : List Worker} {index : Nat} {worker : Worker}
    (hget : workers[index]? = some worker) (next : Option Worker) :
    workers.filter Worker.isActive = (workers.take index).filter Worker.isActive ++
        [worker].filter Worker.isActive ++ (workers.drop (index + 1)).filter Worker.isActive ∧
      (moved workers index next).filter Worker.isActive =
        (workers.take index).filter Worker.isActive ++ next.toList.filter Worker.isActive ++
          (workers.drop (index + 1)).filter Worker.isActive := by
  obtain ⟨hlt, rfl⟩ := List.getElem?_eq_some_iff.mp hget
  refine ⟨?_, by rw [moved, List.filter_append, List.filter_append]⟩
  rw [← List.filter_append, ← List.filter_append, List.append_assoc, List.singleton_append,
    List.getElem_cons_drop, List.take_append_drop]

/-- The only active thread moves on. -/
theorem filter_moved_active {workers : List Worker} {index : Nat} {worker only : Worker}
    (hget : workers[index]? = some worker) (hactive : worker.isActive = true)
    (honly : workers.filter Worker.isActive = [only]) (next : Option Worker) :
    worker = only ∧
      (moved workers index next).filter Worker.isActive = next.toList.filter Worker.isActive := by
  obtain ⟨hall, hmoved⟩ := filter_moved hget next
  rw [honly, List.filter_cons_of_pos hactive, List.filter_nil, List.append_assoc,
    List.singleton_append] at hall
  rcases hbefore : (workers.take index).filter Worker.isActive with _ | ⟨y, ys⟩
  · rw [hbefore, List.nil_append] at hall
    obtain ⟨rfl, hafter⟩ := List.cons.inj hall
    rw [hmoved, hbefore, ← hafter]
    simp
  · rw [hbefore] at hall
    simp at hall

/-- The thread of the operation in progress. -/
structure Works (s : Server) (a : Spec) (index : Nat) (worker : Worker) (o : Operation) : Prop where
  get : s.workers[index]? = some worker
  active : worker.isActive = true
  only : s.workers.filter Worker.isActive = [worker]
  operation : a.operation = some o
  timeActivatedOperate : s.object.timeActivatedOperate = false
  starting : s.starting = false
  before : worker.beforeOperate = true → o.operated = false

theorem Sim.works (h : Sim m s a) {index : Nat} {worker : Worker}
    (hget : s.workers[index]? = some worker) (hactive : worker.isActive = true) :
    ∃ o, Works s a index worker o := by
  have hmem : worker ∈ s.workers.filter Worker.isActive :=
    List.mem_filter.mpr ⟨List.mem_of_getElem? hget, hactive⟩
  cases ho : a.operation with
  | none =>
    rw [(h.idle ho).workers] at hmem
    cases hmem
  | some o =>
    cases (h.busy o ho).stage with
    | waiting _ _ hw =>
      rw [hw] at hmem
      cases hmem
    | starting _ _ hw =>
      rw [hw] at hmem
      cases hmem
    | working only ht hs hw hop =>
      obtain ⟨rfl, -⟩ := filter_moved_active hget hactive hw none
      exact ⟨o, hget, hactive, hw, ho, ht, hs, hop⟩

theorem Works.moved {index : Nat} {worker : Worker} {o : Operation}
    (h : Works s a index worker o) (next : Option Worker) :
    (moved s.workers index next).filter Worker.isActive = next.toList.filter Worker.isActive :=
  (filter_moved_active h.get h.active h.only next).2

/-- The thread goes on with the same operation. -/
theorem Sim.goOn (h : Sim m s a) {index : Nat} {worker : Worker} {o : Operation}
    (hworks : Works s a index worker o) (next : Worker) (object : ControlObject)
    (hsame : SameSelection s.object object) (hb : object.state.isBusy = true)
    (hp : object.parameters = s.object.parameters) (ht : object.testMode = s.object.testMode)
    (hta : object.timeActivatedOperate = s.object.timeActivatedOperate)
    (hactive : next.isActive = true)
    (hbefore : next.beforeOperate = true → worker.beforeOperate = true) :
    Sim m ⟨object, s.starting, Control.moved s.workers index (some next), s.closed⟩ a := by
  have hbusy := h.busy o hworks.operation
  have hsim := h.busy_of object s.starting (Control.moved s.workers index (some next)) hsame
    (ControlState.not_unselected hbusy.state) hb (hsame.connection.trans hbusy.connection)
    (hp.trans hbusy.parameters) (ht.trans hbusy.testMode)
    (.working next (hta.trans hworks.timeActivatedOperate) hworks.starting ?_
      fun hn => hworks.before (hbefore hn))
  · rwa [← hworks.operation] at hsim
  · change (Control.moved s.workers index (some next)).filter Worker.isActive = _
    rw [hworks.moved, Option.toList_some, List.filter_cons_of_pos hactive]
    rfl

theorem Busy.send {o : Operation} (h : Busy s o) (message : Message) :
    s.object.send message = .ok [.sent o.connection message] := by
  rw [ControlObject.send, h.connection]

/-- The thread gives up: its client is gone. -/
theorem Sim.abandon (h : Sim m s a) {index : Nat} {o : Operation}
    (hworks : Works s a index .start o) (hc : o.connection ∈ s.closed) :
    Simulated m a ⟨s.object, s.starting, moved s.workers index none, s.closed⟩ [.abandoned] := by
  have hbusy := h.busy o hworks.operation
  refine ⟨_, .single .abandoned, h.sbo, h.model, h.selected, fun _ => ?_, fun o ho => nomatch ho⟩
  refine ⟨hworks.timeActivatedOperate, hworks.starting, hworks.moved none, ?_⟩
  exact .inr (.inr ⟨o.connection, hc, hbusy.connection⟩)

/-- The control handler is called. -/
theorem Sim.operate (h : Sim m s a) {index : Nat} {task : Connection} {currentTime : UInt64}
    {o : Operation} (hworks : Works s a index (.operate task currentTime) o) :
    Simulated m a
      ⟨{ s.object with selectTime := currentTime }, s.starting,
        moved s.workers index (some (.terminate task)), s.closed⟩
      [.operated (s.object.parameters.map (·.ctlVal)) s.object.testMode currentTime] := by
  have hbusy := h.busy o hworks.operation
  have hallows : Allows m a _ _ := .operated o currentTime hworks.operation (hworks.before rfl)
  have hobserved : Observation.operated (s.object.parameters.map (·.ctlVal)) s.object.testMode
      currentTime = .operated (some o.parameters.ctlVal) o.testMode currentTime := by
    rw [hbusy.parameters, hbusy.testMode]
    rfl
  rw [hobserved]
  refine ⟨_, .single hallows, h.sbo, h.model, ⟨?_, ?_, ?_⟩, fun hnone => (nomatch hnone), ?_⟩
  · intro x hx
    obtain ⟨y, hy, rfl⟩ := Option.map_eq_some_iff.mp hx
    have hknows := h.selected.knows y hy
    exact ⟨hknows.connection, rfl, hknows.selectTimeout, hknows.present, hknows.parameters⟩
  · intro hnone
    exact h.selected.none (Option.map_eq_none_iff.mp hnone)
  · intro hu
    exact absurd hu (ControlState.not_unselected hbusy.state)
  · intro o' ho
    obtain rfl := Option.some.inj ho
    refine ⟨hbusy.connection, hbusy.parameters, hbusy.testMode, hbusy.state, ?_⟩
    exact .working (.terminate task) hworks.timeActivatedOperate hworks.starting
      (hworks.moved _) fun hbefore => (nomatch hbefore)

theorem clearOperTime_same {object object' : ControlObject}
    (h : object.clearOperTime = .ok object') : ∃ oper, object' = { object with oper := oper } := by
  unfold ControlObject.clearOperTime at h
  split at h
  · split at h
    · cases h
      exact ⟨_, rfl⟩
    · cases h
  · cases h

theorem Sim.workStep (h : Sim m s a) {index : Nat} {worker : Worker} {o : Operation}
    (hworks : Works s a index worker o) {ok : Bool} {currentTime : UInt64}
    {object : ControlObject} {next : Option Worker}
    (hs : worker.step s.object s.closed ok currentTime = .ok (object, next, observations)) :
    Simulated m a ⟨object, s.starting, moved s.workers index next, s.closed⟩ observations := by
  have hbusy := h.busy o hworks.operation
  have hsent (message : Message) : Allowed m a [.sent o.connection message] a :=
    .single (.sent o message hworks.operation)
  have hrefl : SameSelection s.object s.object := .of_eq rfl rfl rfl rfl rfl
  cases worker with
  | start =>
    rw [Worker.step, hbusy.connection] at hs
    dsimp only at hs
    split at hs
    case isTrue hc =>
      cases hs
      exact h.abandon hworks hc
    case isFalse =>
      cases hs
      exact .quiet (h.goOn hworks _ s.object hrefl hbusy.state rfl rfl rfl rfl id)
  | readState task =>
    cases hs
    exact .quiet (h.goOn hworks _ s.object hrefl hbusy.state rfl rfl rfl rfl id)
  | enter task isTimeActivatedControl =>
    cases hs
    exact .quiet (h.goOn hworks _ _ (.of_eq rfl rfl rfl rfl rfl) rfl rfl rfl rfl rfl id)
  | waitForExecution task isTimeActivatedControl =>
    cases hs
    cases ok with
    | true => exact .quiet (h.goOn hworks _ s.object hrefl hbusy.state rfl rfl rfl rfl id)
    | false => exact .quiet (h.goOn hworks _ s.object hrefl hbusy.state rfl rfl rfl rfl id)
  | reject task isTimeActivatedControl =>
    have hsim := h.goOn hworks (.abort task) s.object hrefl hbusy.state rfl rfl rfl rfl
      fun hn => (nomatch hn)
    cases isTimeActivatedControl with
    | true =>
      obtain ⟨sent, hsend, hs⟩ := bind_ok hs
      cases hs
      obtain ⟨message, hmessage⟩ := hbusy.sendLastApplError 11
      obtain rfl := Except.ok.inj (hmessage.symm.trans hsend)
      exact ⟨a, hsent message, hsim⟩
    | false =>
      obtain ⟨sent, hsend, hs⟩ := bind_ok hs
      cases hs
      obtain rfl := Except.ok.inj ((hbusy.send _).symm.trans hsend)
      exact ⟨a, hsent _, hsim⟩
  | respond task isTimeActivatedControl =>
    cases isTimeActivatedControl with
    | true =>
      obtain ⟨sent, hsend, hs⟩ := bind_ok hs
      obtain ⟨object1, hclear, hs⟩ := bind_ok hs
      cases hs
      obtain ⟨oper, rfl⟩ := clearOperTime_same hclear
      obtain rfl := Except.ok.inj ((hbusy.send _).symm.trans hsend)
      exact ⟨a, hsent _, h.goOn hworks _ _ (.of_eq rfl rfl rfl rfl rfl) hbusy.state rfl rfl rfl rfl id⟩
    | false =>
      obtain ⟨sent, hsend, hs⟩ := bind_ok hs
      cases hs
      obtain rfl := Except.ok.inj ((hbusy.send _).symm.trans hsend)
      exact ⟨a, hsent _, h.goOn hworks _ s.object hrefl hbusy.state rfl rfl rfl rfl id⟩
  | setOperate task =>
    cases hs
    exact .quiet (h.goOn hworks _ _ (.of_eq rfl rfl rfl rfl rfl) rfl rfl rfl rfl rfl id)
  | operate task currentTime =>
    cases hs
    exact h.operate hworks
  | terminate task =>
    have hsim := h.goOn hworks (.abort task) s.object hrefl hbusy.state rfl rfl rfl rfl
      fun hn => (nomatch hn)
    rw [Worker.step] at hs
    split at hs
    · obtain ⟨sent, hsend, hs⟩ := bind_ok hs
      cases hs
      obtain rfl := Except.ok.inj ((hbusy.send _).symm.trans hsend)
      exact ⟨a, hsent _, hsim⟩
    · cases hs
      exact .quiet hsim
  | abort task =>
    cases hs
    exact h.finish s.object hrefl (ControlState.not_unselected hbusy.state)
      hworks.timeActivatedOperate hworks.starting (hworks.moved _) a.operation
  | decreaseTasksCount task => cases hworks.active

/-- The end of a thread whose operation is over. -/
theorem Sim.of_workers (h : Sim m s a) {workers : List Worker}
    (hw : workers.filter Worker.isActive = s.workers.filter Worker.isActive) :
    Sim m { s with workers := workers } a := by
  refine ⟨h.sbo, h.model, h.selected, ?_, ?_⟩
  · intro ho
    have hidle := h.idle ho
    exact ⟨hidle.timeActivatedOperate, hidle.starting, hw.trans hidle.workers, hidle.state⟩
  · intro o ho
    have hbusy := h.busy o ho
    refine ⟨hbusy.connection, hbusy.parameters, hbusy.testMode, hbusy.state, ?_⟩
    cases hbusy.stage with
    | waiting ht hs hf hop => exact .waiting ht hs (hw.trans hf) hop
    | starting ht hs hf hop => exact .starting ht hs (hw.trans hf) hop
    | working worker ht hs hf hop => exact .working worker ht hs (hw.trans hf) hop

theorem Sim.work (h : Sim m s a) {index : Nat} {ok : Bool} {currentTime : UInt64}
    (hs : s.work index ok currentTime = .ok (s', observations)) : Simulated m a s' observations := by
  unfold Server.work at hs
  split at hs
  case h_1 =>
    cases hs
    exact .quiet h
  case h_2 worker hget =>
    obtain ⟨⟨object, next, observations1⟩, hstep, hs⟩ := bind_ok hs
    cases hs
    cases hactive : worker.isActive with
    | true =>
      obtain ⟨o, hworks⟩ := h.works hget hactive
      exact h.workStep hworks hstep
    | false =>
      cases worker with
      | decreaseTasksCount task =>
        cases hstep
        obtain ⟨hall, hmoved⟩ := filter_moved hget none
        exact .quiet (h.of_workers (hmoved.trans hall.symm))
      | _ => cases hactive

/-- One step of the server is one the purpose allows. -/
theorem Sim.step (h : Sim m s a) {e : Event} (hg : s.Undisturbed e)
    (hs : s.step e = .ok (s', observations)) : Simulated m a s' observations := by
  cases e with
  | readSBO connection currentTime result =>
    cases hs
    exact h.readSBO hg.1 currentTime result
  | writeSBOw w currentTime result =>
    obtain ⟨r, hr, hs⟩ := bind_ok hs
    cases hs
    exact h.writeSBOw hg.1 hr
  | writeOper w currentTime result invokeId =>
    obtain ⟨r, hr, hs⟩ := bind_ok hs
    cases hs
    exact h.writeOper hg.1 hr
  | writeCancel w =>
    cases hs
    exact h.writeCancel hg.2
  | processControlActions currentTime =>
    cases hs
    exact .quiet (h.processControlActions currentTime)
  | startActivated result => exact h.startActivated hs
  | work index ok currentTime => exact h.work hs
  | connectionClosed connection =>
    cases hs
    exact h.connectionClosed connection
  | unselect connection =>
    cases hs
    exact .quiet (h.unselect hg.1.1 hg.2)
  | configure sboClass sboTimeout =>
    cases hs
    exact .quiet (h.configure sboClass sboTimeout)

theorem Sim.create (hm : m = 2 ∨ m = 4) (sbo : MmsValue.CString) (sboClass : Option Int32)
    (sboTimeout : Option UInt32) (oper : MmsValue) :
    Sim m (.create (.create m sbo sboClass sboTimeout oper)) ⟨none, none⟩ := by
  have hstate : (ControlObject.create m sbo sboClass sboTimeout oper).state = .unselected :=
    if_pos hm
  refine ⟨hm, rfl, ⟨fun x hx => (nomatch hx), fun _ => .inl hstate, fun _ => rfl⟩, fun _ => ?_,
    fun o ho => nomatch ho⟩
  exact ⟨rfl, rfl, rfl, .inl hstate⟩

theorem Sim.operations (h : Sim m s a) : s.operations ≤ 1 := by
  rw [Server.operations]
  cases ho : a.operation with
  | none =>
    have hidle := h.idle ho
    rw [hidle.timeActivatedOperate, hidle.starting, hidle.workers]
    exact Nat.zero_le 1
  | some o =>
    cases (h.busy o ho).stage with
    | waiting ht hs hw =>
      rw [ht, hs, hw]
      exact le_rfl
    | starting ht hs hw =>
      rw [ht, hs, hw]
      exact le_rfl
    | working worker ht hs hw =>
      rw [ht, hs, hw]
      exact le_rfl

end

namespace ControlHistory

def Tracks (ctlModel : UInt32) (h : ControlHistory) : Prop :=
  ∃ a, Allowed ctlModel ⟨none, none⟩ h.trace a ∧ Sim ctlModel h.server a

theorem Tracks.step {ctlModel : UInt32} {h h' : ControlHistory} {e : Event}
    (ht : h.Tracks ctlModel) (hg : h.server.Undisturbed e) (hs : Step h e h') :
    h'.Tracks ctlModel := by
  obtain ⟨a, hallowed, hsim⟩ := ht
  obtain ⟨server, observations, hs, rfl⟩ := hs
  obtain ⟨a', hrun, hsim'⟩ := hsim.step hg hs
  exact ⟨a', hallowed.append hrun, hsim'⟩

/-- In every run in which no operation in progress is cancelled by its connection or cleared up
with it, select before operate is kept. -/
theorem run_selectsBeforeOperate {ctlModel : UInt32} (hm : ctlModel = 2 ∨ ctlModel = 4)
    (sbo : MmsValue.CString) (sboClass : Option Int32) (sboTimeout : Option UInt32)
    (oper : MmsValue) {events : List Event} {h : ControlHistory}
    (hr : Transition.Run Step (fun h e => h.server.Undisturbed e)
      (start (.create ctlModel sbo sboClass sboTimeout oper)) events h) :
    h.SelectsBeforeOperate := by
  have hstart : Tracks ctlModel (start (.create ctlModel sbo sboClass sboTimeout oper)) :=
    ⟨_, .nil, Sim.create hm sbo sboClass sboTimeout oper⟩
  obtain ⟨a, hallowed, hsim⟩ := hr.invariant hstart fun _ _ _ ht hg hs => ht.step hg hs
  refine ⟨⟨a, ?_⟩, hsim.operations⟩
  rwa [hsim.model]

end ControlHistory

theorem one_lt_size : 1 < 256 := by decide

theorem orIdent_size : 0 ≤ 4 := Nat.zero_le 4

theorem orIdent_maxSize : 4 < 65536 := by decide

theorem noZero_nil : (0 : UInt8) ∉ [] := List.not_mem_nil

/-- `orCat` and `orIdent`. -/
def someOrigin : MmsValue :=
  .structured [.integer (.create ⟨1, one_lt_size⟩),
    .newOctetString 0 4 orIdent_size orIdent_maxSize]

def noTime : MmsValue := .utcTime ⟨[0, 0, 0, 0, 0, 0, 0, 0], rfl⟩

/-- The value of `Oper` with an activation time of a second. -/
def timeActivatedValue : MmsValue :=
  .structured [.boolean true, .utcTime ⟨[0, 0, 0, 1, 0, 0, 0, 0], rfl⟩, someOrigin,
    .unsigned (.create ⟨1, one_lt_size⟩), noTime, .boolean false, .newBitString 2]

def cancelValue : MmsValue :=
  .structured [.boolean true, someOrigin, .unsigned (.create ⟨1, one_lt_size⟩), noTime,
    .boolean false]

def plainWrite (value : MmsValue) : ControlWrite := ⟨1, value, false, fun _ => false, 0⟩

def plainObject : ControlObject :=
  .create 2 ⟨[], noZero_nil⟩ none none timeActivatedValue

namespace Server

/-- The first thread takes some steps, at the time 0. -/
def works (s : Server) : Nat → Exec (Server × List Observation)
  | 0 => .ok (s, [])
  | n + 1 => do
    let (s, observations) ← s.works n
    let (s, observations') ← s.work 0 true 0
    return (s, observations ++ observations')

end Server

namespace ControlHistory

theorem run_works (guard : Server → Event → Prop) (hg : ∀ s, guard s (.work 0 true 0))
    {s s' : Server} {trace observations : List Observation} {n : Nat}
    (hs : s.works n = .ok (s', observations)) :
    Transition.Run Step (fun h e => guard h.server e) ⟨s, trace⟩
      (List.replicate n (.work 0 true 0)) ⟨s', trace ++ observations⟩ := by
  induction n generalizing s' observations with
  | zero =>
    cases hs
    rw [List.append_nil]
    exact .nil
  | succ n ih =>
    obtain ⟨⟨s1, observations1⟩, h1, hs⟩ := bind_ok hs
    obtain ⟨⟨s2, observations2⟩, h2, hs⟩ := bind_ok hs
    cases hs
    rw [List.replicate_succ', ← List.append_assoc]
    exact (ih h1).snoc (hg s1) ⟨s', observations2, h2, rfl⟩

/-- A client selects the object, and a second later its operation is performed. -/
theorem run_selectsBeforeOperate_operated : ∃ h : ControlHistory,
    .operated (some (.boolean true)) false 0 ∈ h.trace ∧ h.SelectsBeforeOperate := by
  obtain ⟨s1, h1⟩ : ∃ s, (start plainObject).server.step (.readSBO 1 0 none) =
      .ok (s, [.selected 1 0 15000 none]) := ⟨_, rfl⟩
  obtain ⟨s2, o2, h2⟩ : ∃ s o, s1.step (.writeOper (plainWrite timeActivatedValue) 0 none 7) =
      .ok (s, [o]) := by
    cases h1
    exact ⟨_, _, rfl⟩
  obtain ⟨s3, h3⟩ : ∃ s, s2.step (.processControlActions 1000) = .ok (s, []) := by
    cases h1
    cases h2
    exact ⟨_, rfl⟩
  obtain ⟨s4, h4⟩ : ∃ s, s3.step (.startActivated none) = .ok (s, []) := by
    cases h1
    cases h2
    cases h3
    exact ⟨_, rfl⟩
  obtain ⟨s5, o5, h5⟩ : ∃ s o, s4.works 7 =
      .ok (s, [o, .operated (some (.boolean true)) false 0]) := by
    cases h1
    cases h2
    cases h3
    cases h4
    exact ⟨_, _, rfl⟩
  have hnil : Transition.Run Step (fun h e => h.server.Undisturbed e) (start plainObject) []
      (start plainObject) := .nil
  have hc : (1 : Nat) ∉ s1.closed := by
    cases h1
    exact List.not_mem_nil
  have hrun := (((hnil.snoc (i := Event.readSBO 1 0 none) ⟨List.not_mem_nil, trivial⟩
    ⟨s1, _, h1, rfl⟩).snoc (i := Event.writeOper (plainWrite timeActivatedValue) 0 none 7)
    ⟨hc, trivial⟩ ⟨s2, _, h2, rfl⟩).snoc (i := Event.processControlActions 1000)
    ⟨trivial, trivial⟩ ⟨s3, _, h3, rfl⟩).snoc (i := Event.startActivated none)
    ⟨trivial, trivial⟩ ⟨s4, _, h4, rfl⟩
  refine ⟨_, ?_, run_selectsBeforeOperate (.inl rfl) _ none none timeActivatedValue
    (hrun.append (run_works Server.Undisturbed (fun _ => ⟨trivial, trivial⟩) h5))⟩
  exact List.mem_append_right _ (List.mem_cons_of_mem _ (List.mem_singleton.mpr rfl))

theorem not_selectsBeforeOperate {server : Server} (first : List Observation)
    {rest : List Observation} {connection client : Connection} {message : Message} :
    ¬ SelectsBeforeOperate ⟨server,
      first ++ ([.cancelled connection] ++ ([.sent client message] ++ rest))⟩ := by
  rintro ⟨⟨a, hallowed⟩, -⟩
  obtain ⟨b, -, hrest⟩ := hallowed.split
  obtain ⟨c, hcancelled, hrest⟩ := hrest.split
  obtain ⟨d, hsent, -⟩ := hrest.split
  obtain ⟨-, hcancelled⟩ := hcancelled.single
  cases hcancelled
  obtain ⟨-, hsent⟩ := hsent.single
  cases hsent with
  | sent o message ho => cases ho

/-- A client cancels its time activated operation with success, and the operation is performed. -/
theorem cancelled_operation_performed : ∃ events h,
    Transition.Run Step (fun h e => h.server.Permits e) (start plainObject) events h ∧
      .operated (some (.boolean true)) false 0 ∈ h.trace ∧ ¬ h.SelectsBeforeOperate := by
  obtain ⟨s1, h1⟩ : ∃ s, (start plainObject).server.step (.readSBO 1 0 none) =
      .ok (s, [.selected 1 0 15000 none]) := ⟨_, rfl⟩
  obtain ⟨s2, o2, h2⟩ : ∃ s o, s1.step (.writeOper (plainWrite timeActivatedValue) 0 none 7) =
      .ok (s, [o]) := by
    cases h1
    exact ⟨_, _, rfl⟩
  obtain ⟨s3, h3⟩ : ∃ s, s2.step (.writeCancel (plainWrite cancelValue)) =
      .ok (s, [.cancelled 1]) := by
    cases h1
    cases h2
    exact ⟨_, rfl⟩
  obtain ⟨s4, h4⟩ : ∃ s, s3.step (.processControlActions 1000) = .ok (s, []) := by
    cases h1
    cases h2
    cases h3
    exact ⟨_, rfl⟩
  obtain ⟨s5, h5⟩ : ∃ s, s4.step (.startActivated none) = .ok (s, []) := by
    cases h1
    cases h2
    cases h3
    cases h4
    exact ⟨_, rfl⟩
  obtain ⟨s6, message, h6⟩ : ∃ s message, s5.works 7 =
      .ok (s, [.sent 1 message, .operated (some (.boolean true)) false 0]) := by
    cases h1
    cases h2
    cases h3
    cases h4
    cases h5
    exact ⟨_, _, rfl⟩
  have hnil : Transition.Run Step (fun h e => h.server.Permits e) (start plainObject) []
      (start plainObject) := .nil
  have hc : (1 : Nat) ∉ s1.closed ∧ 1 ∉ s2.closed := by
    cases h1
    cases h2
    exact ⟨List.not_mem_nil, List.not_mem_nil⟩
  have hrun := ((((hnil.snoc (i := Event.readSBO 1 0 none) List.not_mem_nil
    ⟨s1, _, h1, rfl⟩).snoc (i := Event.writeOper (plainWrite timeActivatedValue) 0 none 7)
    hc.1 ⟨s2, _, h2, rfl⟩).snoc (i := Event.writeCancel (plainWrite cancelValue))
    hc.2 ⟨s3, _, h3, rfl⟩).snoc (i := Event.processControlActions 1000)
    trivial ⟨s4, _, h4, rfl⟩).snoc (i := Event.startActivated none)
    trivial ⟨s5, _, h5, rfl⟩
  refine ⟨_, _, hrun.append (run_works Server.Permits (fun _ => trivial) h6), ?_, ?_⟩
  · exact List.mem_append_right _ (List.mem_cons_of_mem _ (List.mem_singleton.mpr rfl))
  · exact not_selectsBeforeOperate [.selected 1 0 15000 none, o2]

end ControlHistory

end Iec61850.Control
